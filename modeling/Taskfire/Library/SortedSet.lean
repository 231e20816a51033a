import Mathlib.Data.List.Nodup
import Mathlib.Data.List.Perm.Basic

/-!
# Sorted sets

A sorted set holds distinct members, each with an integer score, in the order of their scores;
members with one score stand in the order of `compare`.  `add`, `remove`, `popMin`, `rangeByScore` and
`revRange` are the commands ZADD, ZREM, ZPOPMIN, ZRANGEBYSCORE and ZREVRANGE of a store that keeps
such sets.  Every lemma about them goes through `count`, the number of members with a property.
-/

namespace Taskfire.Library

structure SortedSet (M : Type) where
  entries : List (M × Int)
  nodup : (entries.map Prod.fst).Nodup

namespace SortedSet

variable {M : Type}

def empty : SortedSet M := ⟨[], List.nodup_nil⟩

def members (set : SortedSet M) : List M := set.entries.map Prod.fst

/-- How many members satisfy `p`. -/
def count (p : M → Bool) (set : SortedSet M) : Nat := set.members.countP p

/-! ## Placing an entry -/

section Place

variable [Ord M]

def precedes (first second : M × Int) : Bool :=
  first.2 < second.2 || (first.2 == second.2 && compare first.1 second.1 == .lt)

def place (entry : M × Int) : List (M × Int) → List (M × Int)
  | [] => [entry]
  | head :: tail =>
    if precedes entry head then entry :: head :: tail else head :: place entry tail

/-- The entries stand in the order of their scores, and of their members where scores are equal. -/
def Sorted (set : SortedSet M) : Prop :=
  set.entries.Pairwise fun first second => precedes first second = true

/-- Of the entries of a sorted set with a property, one comes before all others. -/
theorem Sorted.exists_first {set : SortedSet M} (sorted : set.Sorted) (holds : M × Int → Prop)
    {entry : M × Int} (present : entry ∈ set.entries) (held : holds entry) :
    ∃ first ∈ set.entries, holds first ∧
      ∀ other ∈ set.entries, holds other → other ≠ first → precedes first other = true := by
  obtain ⟨entries, nodup⟩ := set
  simp only [Sorted] at sorted present ⊢
  clear nodup
  induction entries with
  | nil => cases present
  | cons head tail inductionHypothesis =>
    obtain ⟨before, sorted⟩ := List.pairwise_cons.mp sorted
    by_cases first : holds head
    · refine ⟨head, List.mem_cons_self, first, ?_⟩
      intro other listed _ different
      obtain same | later := List.mem_cons.mp listed
      · exact absurd same different
      · exact before other later
    · have later : entry ∈ tail := by
        obtain same | later := List.mem_cons.mp present
        · subst same
          exact absurd held first
        · exact later
      obtain ⟨found, listed, property, least⟩ := inductionHypothesis sorted later
      refine ⟨found, List.mem_cons_of_mem _ listed, property, ?_⟩
      intro other member otherHolds different
      obtain same | later := List.mem_cons.mp member
      · subst same
        exact absurd otherHolds first
      · exact least other later otherHolds different

theorem place_perm (entry : M × Int) (entries : List (M × Int)) :
    (place entry entries).Perm (entry :: entries) := by
  induction entries with
  | nil => exact .refl _
  | cons head tail inductionHypothesis =>
    simp only [place]
    split
    · exact .refl _
    · exact (inductionHypothesis.cons head).trans (.swap entry head tail)

end Place

/-! ## Commands -/

def popMin (set : SortedSet M) : Option (M × Int × SortedSet M) :=
  match shape : set.entries with
  | [] => none
  | (member, score) :: rest =>
    some (member, score, ⟨rest, (List.nodup_cons.mp (by simpa [shape] using set.nodup)).2⟩)

/-- The first `limit` members with a score of at most `cutoff`. -/
def rangeByScore (set : SortedSet M) (cutoff : Int) (limit : Nat) : List M :=
  ((set.entries.filter fun entry => entry.2 ≤ cutoff).take limit).map Prod.fst

/-- The members from position `start` to position `stop`, both included, the greatest scores first.
Negative positions count from the end. -/
def revRange (set : SortedSet M) (start stop : Int) : List M :=
  let first := if start < 0 then max 0 (start + set.members.length) else start
  let last := if stop < 0 then stop + set.members.length else stop
  (set.members.reverse.drop first.toNat).take (last + 1 - first).toNat

theorem revRange_page (set : SortedSet M) {limit : Nat} (positive : 1 ≤ limit) (offset : Nat) :
    set.revRange offset (offset + limit - 1) = (set.members.reverse.drop offset).take limit := by
  have start : ¬ (offset : Int) < 0 := by omega
  have stop : ¬ (offset : Int) + limit - 1 < 0 := by omega
  have count : ((offset : Int) + limit - 1 + 1 - offset).toNat = limit := by omega
  simp only [revRange, if_neg start, if_neg stop, count, Int.toNat_natCast]

section Commands

variable [DecidableEq M]

def without (member : M) (entries : List (M × Int)) : List (M × Int) :=
  entries.filter fun entry => entry.1 ≠ member

theorem without_nodup {entries : List (M × Int)} (member : M)
    (nodup : (entries.map Prod.fst).Nodup) : ((without member entries).map Prod.fst).Nodup :=
  nodup.sublist (List.filter_sublist.map _)

theorem not_mem_without (member : M) (entries : List (M × Int)) :
    member ∉ (without member entries).map Prod.fst := by
  simp [without]

def remove (set : SortedSet M) (member : M) : SortedSet M :=
  ⟨without member set.entries, without_nodup member set.nodup⟩

/-- Sets the score of `member`, which joins the set if it is not in it. -/
def add [Ord M] (set : SortedSet M) (member : M) (score : Int) : SortedSet M where
  entries := place (member, score) (without member set.entries)
  nodup := by
    rw [((place_perm _ _).map Prod.fst).nodup_iff, List.map_cons, List.nodup_cons]
    exact ⟨not_mem_without member set.entries, without_nodup member set.nodup⟩

end Commands

@[simp] theorem mem_add [DecidableEq M] [Ord M] {set : SortedSet M} {member : M} {score : Int}
    {entry : M × Int} : entry ∈ (set.add member score).entries ↔
      entry = (member, score) ∨ (entry ∈ set.entries ∧ entry.1 ≠ member) := by
  simp only [add, (place_perm _ _).mem_iff, List.mem_cons, without, List.mem_filter,
    decide_eq_true_eq]

theorem without_of_not_mem [DecidableEq M] {set : SortedSet M} {member : M}
    (absent : member ∉ set.members) : without member set.entries = set.entries := by
  rw [without, List.filter_eq_self]
  intro entry listed
  rw [decide_eq_true_eq]
  rintro rfl
  exact absent (List.mem_map_of_mem listed)

theorem add_perm [DecidableEq M] [Ord M] {set : SortedSet M} {member : M} (fresh : member ∉ set.members)
    (score : Int) : (set.add member score).entries.Perm ((member, score) :: set.entries) :=
  (place_perm _ _).trans (by rw [without_of_not_mem fresh])

/-! ## Counting -/

@[simp] theorem count_empty (p : M → Bool) : (empty : SortedSet M).count p = 0 := rfl

theorem count_mono {p q : M → Bool} (set : SortedSet M) (implies : ∀ member, p member → q member) :
    set.count p ≤ set.count q :=
  List.countP_mono_left fun member _ => implies member

section Commands

variable [DecidableEq M]

private theorem countP_without (p : M → Bool) (member : M) {entries : List (M × Int)}
    (nodup : (entries.map Prod.fst).Nodup) :
    (entries.map Prod.fst).countP p = ((without member entries).map Prod.fst).countP p +
      if p member = true ∧ member ∈ entries.map Prod.fst then 1 else 0 := by
  induction entries with
  | nil => simp [without]
  | cons head tail inductionHypothesis =>
    simp only [List.map_cons, List.nodup_cons] at nodup
    obtain ⟨fresh, nodup⟩ := nodup
    have previous := inductionHypothesis nodup
    by_cases same : head.1 = member
    · subst same
      rw [if_neg (fun both => fresh both.2)] at previous
      simp [without, List.countP_cons] at previous ⊢
      exact previous
    · have keeps : without member (head :: tail) = head :: without member tail := by
        simp [without, same]
      have distinct : ¬ member = head.1 := fun equal => same equal.symm
      rw [keeps]
      simp only [List.map_cons, List.countP_cons, List.mem_cons, distinct, false_or, previous]
      omega

theorem mem_remove {set : SortedSet M} {member other : M} :
    other ∈ (set.remove member).members ↔ other ∈ set.members ∧ other ≠ member := by
  simp [remove, members, without]

theorem remove_of_not_mem {set : SortedSet M} {member : M} (absent : member ∉ set.members) :
    set.remove member = set := by
  simp only [remove, without_of_not_mem absent]

theorem count_remove (p : M → Bool) (set : SortedSet M) (member : M) :
    set.count p = (set.remove member).count p +
      if p member = true ∧ member ∈ set.members then 1 else 0 :=
  countP_without p member set.nodup

theorem count_remove_le (p : M → Bool) (set : SortedSet M) (member : M) :
    (set.remove member).count p ≤ set.count p := by
  rw [count_remove p set member]
  exact Nat.le_add_right _ _

theorem count_remove_of_not {p : M → Bool} (set : SortedSet M) {member : M}
    (other : p member = false) : (set.remove member).count p = set.count p := by
  rw [count_remove p set member]
  simp [other]

theorem count_add [Ord M] (p : M → Bool) (set : SortedSet M) (member : M) (score : Int) :
    (set.add member score).count p = (set.remove member).count p +
      if p member = true then 1 else 0 := by
  have placed := ((place_perm (member, score) (without member set.entries)).map Prod.fst).countP_eq p
  simpa [count, members, add, remove, List.countP_cons] using placed

theorem count_add_of_not [Ord M] {p : M → Bool} (set : SortedSet M) {member : M} (score : Int)
    (other : p member = false) : (set.add member score).count p = set.count p := by
  rw [count_add, count_remove_of_not set other]
  simp [other]

theorem count_add_pos [Ord M] {p : M → Bool} (set : SortedSet M) {member : M} (score : Int)
    (holds : p member = true) : 0 < (set.add member score).count p := by
  rw [count_add]
  simp [holds]

theorem count_add_ge [Ord M] (p : M → Bool) (set : SortedSet M) (member : M) (score : Int) :
    set.count p ≤ (set.add member score).count p := by
  rw [count_add, count_remove p set member]
  split <;> split <;> simp_all

theorem count_add_le [Ord M] (p : M → Bool) (set : SortedSet M) (member : M) (score : Int) :
    (set.add member score).count p ≤ set.count p + if p member = true then 1 else 0 := by
  rw [count_add]
  exact Nat.add_le_add_right (count_remove_le p set member) _

end Commands

theorem popMin_entries {set rest : SortedSet M} {member : M} {score : Int}
    (popped : set.popMin = some (member, score, rest)) :
    set.entries = (member, score) :: rest.entries := by
  unfold popMin at popped
  split at popped
  · cases popped
  · next member score rest shape =>
    simp only [Option.some.injEq, Prod.mk.injEq] at popped
    obtain ⟨rfl, rfl, rfl⟩ := popped
    exact shape

theorem count_popMin {set rest : SortedSet M} {member : M} {score : Int} (p : M → Bool)
    (popped : set.popMin = some (member, score, rest)) :
    set.count p = rest.count p + if p member = true then 1 else 0 := by
  rw [count, members, popMin_entries popped, List.map_cons, List.countP_cons]
  rfl

theorem popMin_mem {set rest : SortedSet M} {member : M} {score : Int}
    (popped : set.popMin = some (member, score, rest)) :
    member ∈ set.members ∧ member ∉ rest.members := by
  have nodup := set.nodup
  rw [popMin_entries popped, List.map_cons, List.nodup_cons] at nodup
  refine ⟨?_, nodup.1⟩
  rw [members, popMin_entries popped]
  exact List.mem_cons_self

theorem popMin_none {set : SortedSet M} (popped : set.popMin = none) : set.entries = [] := by
  unfold popMin at popped
  split at popped
  · assumption
  · cases popped

theorem rangeByScore_mem {set : SortedSet M} {cutoff : Int} {limit : Nat} {member : M}
    (inRange : member ∈ set.rangeByScore cutoff limit) : member ∈ set.members := by
  obtain ⟨entry, taken, rfl⟩ := List.mem_map.mp inRange
  exact List.mem_map_of_mem (List.mem_of_mem_filter (List.mem_of_mem_take taken))

end SortedSet

end Taskfire.Library
