import Mathlib.Data.List.Perm.Basic

/-!
# Scanning for the largest value

A scan over items in any order keeps the first item whose value reaches a threshold and is greater
than all before it; a value must also be positive.  Which item is found depends on the order only
where the largest value occurs more than once.
-/

namespace Taskfire.Library

variable {α : Type} (value : α → Int) (least : Int)

/-- The largest value so far, with its item, after one more item. -/
def consider (best : Int × Option α) (item : α) : Int × Option α :=
  if least ≤ value item ∧ best.1 < value item then (value item, some item) else best

def longest (items : List α) : Option α := (items.foldl (consider value least) (0, none)).2

variable {value least}

/-- The scan ends with the value it began with or with that of one of the items, and no item that
reaches the threshold has a larger one. -/
theorem scan_spec (items : List α) (best : Int × Option α) :
    (items.foldl (consider value least) best = best ∨
      ∃ item ∈ items, items.foldl (consider value least) best = (value item, some item) ∧
        least ≤ value item ∧ best.1 < value item) ∧
    ∀ item ∈ items, least ≤ value item →
      value item ≤ (items.foldl (consider value least) best).1 := by
  induction items generalizing best with
  | nil => exact ⟨.inl rfl, fun _ listed => absurd listed List.not_mem_nil⟩
  | cons head tail inductionHypothesis =>
    obtain ⟨ends, most⟩ := inductionHypothesis (consider value least best head)
    have grows : best.1 ≤ (consider value least best head).1 := by
      unfold consider
      split <;> omega
    rw [List.foldl_cons]
    have stays : (consider value least best head).1 ≤
        (tail.foldl (consider value least) (consider value least best head)).1 := by
      obtain same | ⟨item, -, result, -, more⟩ := ends
      · exact Int.le_of_eq (congrArg Prod.fst same).symm
      · rw [result]
        exact Int.le_of_lt more
    constructor
    · obtain same | ⟨item, listed, result, reaches, more⟩ := ends
      · rw [same]
        unfold consider
        split
        · next better => exact .inr ⟨head, List.mem_cons_self, rfl, better.1, better.2⟩
        · exact .inl rfl
      · refine .inr ⟨item, List.mem_cons_of_mem _ listed, result, reaches, ?_⟩
        omega
    · intro item listed reaches
      obtain same | later := List.mem_cons.mp listed
      · subst same
        have own : value item ≤ (consider value least best item).1 := by
          unfold consider
          split <;> omega
        omega
      · exact most item later reaches

theorem longest_some {items : List α} {item : α} (found : longest value least items = some item) :
    item ∈ items ∧ least ≤ value item ∧ 0 < value item ∧
      ∀ other ∈ items, least ≤ value other → value other ≤ value item := by
  obtain ⟨ends, most⟩ := @scan_spec α value least items (0, none)
  unfold longest at found
  obtain same | ⟨first, listed, result, reaches, positive⟩ := ends
  · rw [same] at found
    cases found
  · rw [result] at found most
    cases found
    exact ⟨listed, reaches, positive, most⟩

theorem longest_none {items : List α} (found : longest value least items = none) :
    ∀ item ∈ items, least ≤ value item → value item ≤ 0 := by
  obtain ⟨ends, most⟩ := @scan_spec α value least items (0, none)
  unfold longest at found
  obtain same | ⟨first, listed, result, reaches, positive⟩ := ends
  · rw [same] at most
    exact most
  · rw [result] at found
    cases found

/-- An item with the largest value is found if it comes first. -/
theorem longest_cons {items : List α} {item : α} (reaches : least ≤ value item)
    (positive : 0 < value item)
    (most : ∀ other ∈ items, least ≤ value other → value other ≤ value item) :
    longest value least (item :: items) = some item := by
  have first : consider value least (0, none) item = (value item, some item) := if_pos ⟨reaches, positive⟩
  obtain ⟨ends, -⟩ := @scan_spec α value least items (value item, some item)
  rw [longest, List.foldl_cons, first]
  obtain same | ⟨other, listed, -, othersReach, more⟩ := ends
  · rw [same]
  · have less := most other listed othersReach
    simp only at more
    omega

theorem longest_map {β : Type} (tag : β → α) (items : List β) :
    longest value least (items.map tag) = (longest (value ∘ tag) least items).map tag := by
  have folded (best : Int × Option β) :
      (items.map tag).foldl (consider value least) (best.1, best.2.map tag) =
        ((items.foldl (consider (value ∘ tag) least) best).1,
          (items.foldl (consider (value ∘ tag) least) best).2.map tag) := by
    induction items generalizing best with
    | nil => rfl
    | cons item items inductionHypothesis =>
      rw [List.map_cons, List.foldl_cons, List.foldl_cons, ← inductionHypothesis]
      unfold consider
      by_cases better : least ≤ value (tag item) ∧ best.1 < value (tag item)
      · simp [better]
      · simp [better]
  exact congrArg Prod.snd (folded (0, none))

/-- Whatever the order, the scan finds an item with the property or none, exactly when each other
item that could be found has a smaller value than some item with the property. -/
theorem longest_spares_iff [DecidableEq α] (holds : α → Bool) (items : List α) :
    (∀ order : List α, order.Perm items → ∀ item, longest value least order = some item →
      holds item = true) ↔
    ∀ item ∈ items, holds item = false → least ≤ value item → 0 < value item →
      ∃ other ∈ items, holds other = true ∧ value item < value other := by
  constructor
  · intro spared item listed fails reaches positive
    apply Classical.byContradiction
    intro none
    have smaller : ∀ other ∈ items, holds other = true → value other ≤ value item := by
      intro other inside property
      apply Int.not_lt.mp
      exact fun more => none ⟨other, inside, property, more⟩
    -- The largest value among the items without the property is the largest of all.
    have among : item ∈ items.filter fun other => !holds other :=
      List.mem_filter.mpr ⟨listed, by simp [fails]⟩
    cases found : longest value least (items.filter fun other => !holds other) with
    | none =>
      have never := longest_none found item among reaches
      omega
    | some top =>
      obtain ⟨inside, topReaches, topPositive, most⟩ := longest_some found
      obtain ⟨topListed, topFails⟩ := List.mem_filter.mp inside
      have all : ∀ other ∈ items.erase top, least ≤ value other → value other ≤ value top := by
        intro other rest otherReaches
        have otherListed := List.mem_of_mem_erase rest
        cases property : holds other with
        | false => exact most other (List.mem_filter.mpr ⟨otherListed, by simp [property]⟩) otherReaches
        | true =>
          have less := smaller other otherListed property
          have more := most item among reaches
          omega
      have picked := spared (top :: items.erase top) (List.perm_cons_erase topListed).symm top
        (longest_cons topReaches topPositive all)
      simp [picked] at topFails
  · intro outdone order same item found
    obtain ⟨listed, reaches, positive, most⟩ := longest_some found
    cases property : holds item with
    | true => rfl
    | false =>
      obtain ⟨other, inside, -, more⟩ :=
        outdone item (same.mem_iff.mp listed) property reaches positive
      have less := most other (same.mem_iff.mpr inside) (by omega)
      omega

end Taskfire.Library
