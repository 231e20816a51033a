import Mathlib.Data.List.Basic
import Mathlib.Logic.Function.Iterate

/-!
# Sweeps over the front of a list

One sweep looks at the first `window` elements of a list and removes those that satisfy `p`; the
others stay and take their part of the next window.  So an element is reached by some sweep exactly
when fewer than `window` elements before it are there to stay.
-/

namespace Taskfire.Library

variable {α : Type}

def sweep (window : Nat) (p : α → Bool) (list : List α) : List α :=
  (list.take window).filter (fun element => !p element) ++ list.drop window

/-- Fewer than `window` elements that stay stand before each element to be removed. -/
def WithinReach (window : Nat) (p : α → Bool) (list : List α) : Prop :=
  ∀ before element after, list = before ++ element :: after → p element = true →
    before.countP (fun other => !p other) < window

variable {window : Nat} {p : α → Bool} {list : List α}

theorem withinReach_of_none (none : ∀ element ∈ list, p element = false) :
    WithinReach window p list := by
  intro before element after split holds
  have fails := none element (by simp [split])
  rw [fails] at holds
  cases holds

/-- A sweep keeps the number of elements that stay, in front of every element it does not reach. -/
theorem sweep_of_split {before after : List α} {element : α}
    (split : list = before ++ element :: after) (far : window ≤ before.length) :
    ∃ fewer, sweep window p list = fewer ++ element :: after ∧
      fewer.countP (fun other => !p other) = before.countP (fun other => !p other) := by
  subst split
  refine ⟨(before.take window).filter (fun other => !p other) ++ before.drop window, ?_, ?_⟩
  · rw [sweep, List.take_append_of_le_length far, List.drop_append_of_le_length far,
      List.append_assoc]
  · have whole := congrArg (List.countP fun other => !p other) (List.take_append_drop window before)
    rw [List.countP_append] at whole ⊢
    rw [← whole, List.countP_filter]
    simp

theorem withinReach_of_sweep (reach : WithinReach window p (sweep window p list)) :
    WithinReach window p list := by
  intro before element after split holds
  apply Nat.lt_of_not_le
  intro many
  have far : window ≤ before.length := Nat.le_trans many List.countP_le_length
  obtain ⟨fewer, swept, counted⟩ := sweep_of_split split far
  have less := reach fewer element after swept holds
  omega

theorem WithinReach.sweep (reach : WithinReach window p list) :
    WithinReach window p (sweep window p list) := by
  intro before element after split holds
  rw [Library.sweep, List.append_eq_append_iff] at split
  obtain ⟨middle, same, rest⟩ | ⟨middle, same, rest⟩ := split
  · -- The element lies beyond the window.
    have whole : list = (list.take window ++ middle) ++ element :: after := by
      rw [List.append_assoc, ← rest, List.take_append_drop]
    have less := reach _ element after whole holds
    rw [same]
    rw [List.countP_append] at less ⊢
    rw [List.countP_filter]
    simpa using less
  · -- Inside the window nothing is left to be removed.
    cases middle with
    | nil =>
      have whole : list = list.take window ++ element :: after := by
        rw [List.nil_append] at rest
        rw [rest, List.take_append_drop]
      have less := reach _ element after whole holds
      rw [List.append_nil] at same
      rw [← same, List.countP_filter]
      simpa using less
    | cons head tail =>
      rw [List.cons_append] at rest
      obtain ⟨rfl, -⟩ := List.cons.inj rest
      have kept : element ∈ (list.take window).filter fun other => !p other := by simp [same]
      have fails := (List.mem_filter.mp kept).2
      rw [holds] at fails
      cases fails

/-- While an element within reach is left, a sweep removes one. -/
theorem WithinReach.progress (reach : WithinReach window p list) {element : α}
    (listed : element ∈ list) (holds : p element = true) :
    (Library.sweep window p list).countP p < list.countP p := by
  have first : ∃ before found after, list = before ++ found :: after ∧ p found = true ∧
      ∀ other ∈ before, p other = false := by
    have some := List.find?_isSome.mpr ⟨element, listed, holds⟩
    obtain ⟨found, hit⟩ := Option.isSome_iff_exists.mp some
    obtain ⟨property, before, after, split, others⟩ := List.find?_eq_some_iff_append.mp hit
    exact ⟨before, found, after, split, property, by simpa using others⟩
  obtain ⟨before, found, after, split, property, others⟩ := first
  -- Everything before the first of them stays, so it lies in the window.
  have less := reach before found after split property
  have all : before.countP (fun other => !p other) = before.length :=
    List.countP_eq_length.mpr fun other inside => by simp [others other inside]
  have inWindow : found ∈ list.take window := by
    rw [all] at less
    rw [split, List.take_append]
    obtain ⟨rest, size⟩ : ∃ rest, window - before.length = rest + 1 :=
      ⟨window - before.length - 1, by omega⟩
    simp [size]
  have positive : 0 < (list.take window).countP p := List.countP_pos_iff.mpr ⟨found, inWindow, property⟩
  have whole := congrArg (List.countP p) (List.take_append_drop window list)
  rw [List.countP_append] at whole
  rw [Library.sweep, List.countP_append, List.countP_filter]
  have none : (list.take window).countP (fun other => p other && !p other) = 0 := by simp
  omega

/-- Repeated sweeps remove every element that satisfies `p` exactly when all of them are within
reach. -/
theorem sweeps_iff : (∃ times, ∀ element ∈ (sweep window p)^[times] list, p element = false) ↔
    WithinReach window p list := by
  constructor
  · intro removed
    obtain ⟨times, none⟩ := removed
    induction times generalizing list with
    | zero => exact withinReach_of_none none
    | succ times inductionHypothesis =>
      rw [Function.iterate_succ_apply] at none
      exact withinReach_of_sweep (inductionHypothesis none)
  · intro reach
    induction left : list.countP p using Nat.strongRecOn generalizing list with
    | ind left inductionHypothesis =>
      by_cases done : ∀ element ∈ list, p element = false
      · exact ⟨0, done⟩
      · have remains : ∃ element ∈ list, p element = true := by simpa using done
        obtain ⟨element, listed, holds⟩ := remains
        have fewer := reach.progress listed holds
        rw [left] at fewer
        obtain ⟨times, none⟩ := inductionHypothesis _ fewer reach.sweep rfl
        exact ⟨times + 1, none⟩

end Taskfire.Library
