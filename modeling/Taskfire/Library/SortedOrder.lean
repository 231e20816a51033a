import Taskfire.Library.SortedSet
import Mathlib.Data.List.Sort

/-!
# The order of a sorted set

Where `compare` is a lawful total order on the members, the entries of a sorted set are totally
ordered by `precedes`, the commands keep a set sorted, and what stands before an entry leaves the
set before it by `popMin`.
-/

namespace Taskfire.Library.SortedSet

variable {M : Type} [Ord M]

/-! ## The order of entries -/

theorem precedes_iff {first second : M × Int} : precedes first second = true ↔
    first.2 < second.2 ∨ (first.2 = second.2 ∧ compare first.1 second.1 = .lt) := by
  simp [precedes]

theorem precedes_of_score {first second : M × Int} (less : first.2 < second.2) :
    precedes first second = true :=
  precedes_iff.mpr (.inl less)

/-! ## What keeps a set sorted -/

theorem Sorted.remove [DecidableEq M] {set : SortedSet M} (sorted : set.Sorted) (member : M) :
    (set.remove member).Sorted :=
  List.Pairwise.sublist List.filter_sublist sorted

theorem Sorted.popMin {set rest : SortedSet M} {member : M} {score : Int} (sorted : set.Sorted)
    (popped : set.popMin = some (member, score, rest)) :
    rest.Sorted ∧ ∀ entry ∈ rest.entries, precedes (member, score) entry = true := by
  rw [Sorted, popMin_entries popped, List.pairwise_cons] at sorted
  exact ⟨sorted.2, sorted.1⟩

/-! ## The first entries up to a cutoff -/

/-- `batch` holds, in their order, the first `limit` entries with a score of at most `cutoff`. -/
structure FirstDue (set : SortedSet M) (cutoff : Int) (limit : Nat) (batch : List (M × Int)) :
    Prop where
  ordered : batch.Pairwise fun first second => precedes first second = true
  due : ∀ entry ∈ batch, entry ∈ set.entries ∧ entry.2 ≤ cutoff
  short : batch.length ≤ limit
  first : ∀ entry ∈ set.entries, entry.2 ≤ cutoff → entry ∉ batch →
    batch.length = limit ∧ ∀ taken ∈ batch, precedes taken entry = true

theorem Sorted.rangeByScore {set : SortedSet M} (sorted : set.Sorted) (cutoff : Int) (limit : Nat) :
    ∃ batch, set.rangeByScore cutoff limit = batch.map Prod.fst ∧
      FirstDue set cutoff limit batch := by
  have due : (set.entries.filter fun entry => entry.2 ≤ cutoff).Pairwise
      fun first second => precedes first second = true := sorted.sublist List.filter_sublist
  refine ⟨_, rfl, due.sublist (List.take_sublist _ _), ?_, List.length_take_le _ _, ?_⟩
  · intro entry taken
    have listed := List.mem_filter.mp (List.mem_of_mem_take taken)
    exact ⟨listed.1, by simpa using listed.2⟩
  · intro entry present inTime left
    have listed : entry ∈ set.entries.filter fun entry => entry.2 ≤ cutoff :=
      List.mem_filter.mpr ⟨present, by simpa using inTime⟩
    rw [← List.take_append_drop limit (set.entries.filter fun entry => entry.2 ≤ cutoff)] at due
    rw [← List.take_append_drop limit (set.entries.filter fun entry => entry.2 ≤ cutoff),
      List.mem_append] at listed
    have dropped := listed.resolve_left left
    refine ⟨?_, fun taken inBatch => (List.pairwise_append.mp due).2.2 taken inBatch entry dropped⟩
    have positive := List.length_pos_of_mem dropped
    rw [List.length_drop] at positive
    rw [List.length_take]
    omega

/-! ## Lawful orders -/

section Lawful

variable [Std.TransOrd M] [Std.LawfulEqOrd M]

omit [Std.TransOrd M] in
theorem not_precedes_self (entry : M × Int) : ¬ precedes entry entry = true := by
  rw [precedes_iff]
  intro before
  obtain less | ⟨-, less⟩ := before
  · exact absurd less (Int.lt_irrefl _)
  · simp at less

omit [Std.LawfulEqOrd M] in
theorem precedes_trans {first second third : M × Int} (left : precedes first second = true)
    (right : precedes second third = true) : precedes first third = true := by
  rw [precedes_iff] at left right ⊢
  obtain less | ⟨same, less⟩ := left
  · obtain more | ⟨equal, -⟩ := right
    · exact .inl (Int.lt_trans less more)
    · exact .inl (equal ▸ less)
  · obtain more | ⟨equal, more⟩ := right
    · exact .inl (same ▸ more)
    · exact .inr ⟨same.trans equal, Std.TransCmp.lt_trans less more⟩

theorem not_precedes_both {first second : M × Int} (before : precedes first second = true) :
    ¬ precedes second first = true :=
  fun after => not_precedes_self first (precedes_trans before after)

/-- Entries of different members are ordered one way or the other. -/
theorem precedes_or {first second : M × Int} (different : first.1 ≠ second.1) :
    precedes first second = true ∨ precedes second first = true := by
  rw [precedes_iff, precedes_iff]
  obtain less | same | more := Int.lt_trichotomy first.2 second.2
  · exact .inl (.inl less)
  · cases order : compare first.1 second.1 with
    | lt => exact .inl (.inr ⟨same, rfl⟩)
    | eq => exact absurd (Std.LawfulEqCmp.eq_of_compare order) different
    | gt => exact .inr (.inr ⟨same.symm, Std.OrientedCmp.lt_of_gt order⟩)
  · exact .inr (.inl more)

theorem place_sorted {entry : M × Int} {entries : List (M × Int)}
    (sorted : entries.Pairwise fun first second => precedes first second = true)
    (fresh : ∀ other ∈ entries, other.1 ≠ entry.1) :
    (place entry entries).Pairwise fun first second => precedes first second = true := by
  induction entries with
  | nil => exact List.pairwise_singleton _ _
  | cons head tail inductionHypothesis =>
    obtain ⟨before, sorted⟩ := List.pairwise_cons.mp sorted
    simp only [place]
    split
    · next first =>
      refine List.pairwise_cons.mpr ⟨?_, List.pairwise_cons.mpr ⟨before, sorted⟩⟩
      intro other listed
      obtain same | later := List.mem_cons.mp listed
      · rw [same]
        exact first
      · exact precedes_trans first (before other later)
    · next notFirst =>
      have headFirst : precedes head entry = true :=
        (precedes_or (fresh head List.mem_cons_self)).resolve_right notFirst
      refine List.pairwise_cons.mpr ⟨?_, ?_⟩
      · intro other listed
        obtain same | later := List.mem_cons.mp ((place_perm entry tail).mem_iff.mp listed)
        · rw [same]
          exact headFirst
        · exact before other later
      · exact inductionHypothesis sorted fun other later => fresh other (List.mem_cons_of_mem _ later)

theorem Sorted.add [DecidableEq M] {set : SortedSet M} (sorted : set.Sorted) (member : M)
    (score : Int) : (set.add member score).Sorted := by
  apply place_sorted (sorted.remove member)
  intro other listed same
  have inside : other.1 ∈ (without member set.entries).map Prod.fst := List.mem_map_of_mem listed
  rw [same] at inside
  exact not_mem_without member set.entries inside

/-- A set to which no member is added with another score than it has only grows. -/
theorem Sorted.sublist_add [DecidableEq M] {set : SortedSet M} (sorted : set.Sorted) {member : M}
    {score : Int} (kept : ∀ entry ∈ set.entries, entry.1 = member → entry.2 = score) :
    set.entries.Sublist (set.add member score).entries := by
  have antisymmetric : Std.Antisymm fun first second : M × Int => precedes first second = true :=
    ⟨fun _ _ before after => absurd after (not_precedes_both before)⟩
  have contained : set.entries ⊆ (set.add member score).entries := by
    intro entry listed
    rw [mem_add]
    by_cases same : entry.1 = member
    · exact .inl (Prod.ext same (kept entry listed same))
    · exact .inr ⟨listed, same⟩
  exact List.sublist_of_subperm_of_pairwise
    (List.subperm_of_subset (List.Nodup.of_map Prod.fst set.nodup) contained) sorted
    (sorted.add member score)

/-- In an ordered list, what precedes an entry stands at a smaller position. -/
theorem positions_of_precedes {entries : List (M × Int)}
    (ordered : entries.Pairwise fun first second => precedes first second = true)
    {first second : M × Int} (ahead : first ∈ entries) (behind : second ∈ entries)
    (before : precedes first second = true) :
    ∃ i j : Nat, i < j ∧ entries[i]? = some first ∧ entries[j]? = some second := by
  obtain ⟨i, inside, rfl⟩ := List.mem_iff_getElem.mp ahead
  obtain ⟨j, insideToo, rfl⟩ := List.mem_iff_getElem.mp behind
  refine ⟨i, j, ?_, List.getElem?_eq_getElem inside, List.getElem?_eq_getElem insideToo⟩
  obtain less | same | more := Nat.lt_trichotomy i j
  · exact less
  · subst same
    exact absurd before (not_precedes_self _)
  · exact absurd before (not_precedes_both (List.pairwise_iff_getElem.mp ordered j i insideToo inside more))

/-- While an entry stands before it, an entry is not popped. -/
theorem Sorted.behind_stays {set rest : SortedSet M} {member : M} {score : Int}
    (sorted : set.Sorted) (popped : set.popMin = some (member, score, rest))
    {first second : M × Int} (ahead : first ∈ set.entries) (behind : second ∈ set.entries)
    (before : precedes first second = true) : second ∈ rest.entries := by
  rw [popMin_entries popped, List.mem_cons] at ahead behind
  obtain head | later := behind
  · obtain same | inside := ahead
    · rw [same, head] at before
      exact absurd before (not_precedes_self _)
    · have after := (sorted.popMin popped).2 first inside
      rw [head] at before
      exact absurd before (not_precedes_both after)
  · exact later

end Lawful

end Taskfire.Library.SortedSet
