import Mathlib.Algebra.BigOperators.Group.List.Basic
import Mathlib.Algebra.GroupWithZero.Nat
import Mathlib.Algebra.Order.BigOperators.Group.Finset
import Mathlib.Data.List.Perm.Subperm

/-!
# Potentials

An amortized bound for a system of threads: what was spent so far, what lies ready to be spent in
lists, and what each thread may still spend are together within what was granted.  There are
infinitely many threads, so the bound is asked of every finite set of them (`Covers`); a step of one
thread keeps it if that thread pays (`Covers.pays`).
-/

namespace Taskfire.Library

open Finset

/-! ## Lists -/

section Worth

variable {α : Type} (share : α → Nat)

/-- What the items are worth together. -/
def worth (items : List α) : Nat := (items.map share).sum

@[simp] theorem worth_nil : worth share [] = 0 := rfl

@[simp] theorem worth_cons (item : α) (items : List α) :
    worth share (item :: items) = share item + worth share items := by
  simp [worth]

variable {share} {items others : List α}

theorem worth_le_of_subperm (some : items.Subperm others) : worth share items ≤ worth share others := by
  obtain ⟨middle, permuted, sublist⟩ := some
  have same : worth share middle = worth share items := (permuted.map share).sum_eq
  rw [← same]
  exact (sublist.map share).sum_le_sum fun _ _ => Nat.zero_le _

/-- Items of which no property holds more often are worth no more. -/
theorem worth_mono [DecidableEq α]
    (fewer : ∀ p : α → Bool, items.countP p ≤ others.countP p) :
    worth share items ≤ worth share others := by
  apply worth_le_of_subperm
  apply List.subperm_ext_iff.mpr
  intro item _
  exact fewer (· == item)

end Worth

/-! ## Threads -/

/-- What is spent and what any threads may still spend is within what was granted. -/
def Covers (granted spent : Nat) (share : Nat → Nat) : Prop :=
  ∀ threads : Finset Nat, spent + ∑ thread ∈ threads, share thread ≤ granted

namespace Covers

variable {granted spent spent' more : Nat} {share share' : Nat → Nat}

/-- Less may be spent. -/
theorem mono (covers : Covers granted spent share) (less : spent' ≤ spent) :
    Covers granted spent' share :=
  fun threads => Nat.le_trans (Nat.add_le_add_right less _) (covers threads)

/-- The listed threads may each spend at most `most`, and the others nothing. -/
theorem of_listed {listed : List Nat} {most : Nat} (bounded : ∀ thread, share thread ≤ most)
    (none : ∀ thread, thread ∉ listed → share thread = 0) :
    Covers (spent + listed.length * most) spent share := by
  intro threads
  have spending : ∑ thread ∈ threads with thread ∈ listed, share thread =
      ∑ thread ∈ threads, share thread :=
    sum_filter_of_ne fun thread _ spends => Decidable.of_not_not (mt (none thread) spends)
  have few : {thread ∈ threads | thread ∈ listed}.card ≤ listed.length := by
    calc {thread ∈ threads | thread ∈ listed}.card ≤ listed.toFinset.card :=
          card_le_card fun thread spends => List.mem_toFinset.mpr (mem_filter.mp spends).2
      _ ≤ listed.length := listed.toFinset_card_le
  have total : ∑ thread ∈ threads, share thread ≤ listed.length * most := by
    calc ∑ thread ∈ threads, share thread = ∑ thread ∈ threads with thread ∈ listed, share thread :=
          spending.symm
      _ ≤ ∑ thread ∈ threads with thread ∈ listed, most := sum_le_sum fun thread _ => bounded thread
      _ = {thread ∈ threads | thread ∈ listed}.card * most := sum_const_nat fun _ _ => rfl
      _ ≤ listed.length * most := Nat.mul_le_mul_right most few
  omega

theorem spent_le (covers : Covers granted spent share) : spent ≤ granted := by
  simpa using covers ∅

/-- One thread pays for what is spent, from its share and from what is granted. -/
theorem pays (covers : Covers granted spent share) (thread : Nat)
    (others : ∀ other, other ≠ thread → share' other = share other)
    (paid : spent' + share' thread ≤ spent + share thread + more) :
    Covers (granted + more) spent' share' := by
  intro threads
  have before := covers (insert thread threads)
  -- The share of the thread is part of both sums, and the rest of them is the same.
  have rest : ∑ other ∈ (insert thread threads).erase thread, share' other =
      ∑ other ∈ (insert thread threads).erase thread, share other :=
    sum_congr rfl fun other listed => others other (ne_of_mem_erase listed)
  have old := add_sum_erase (insert thread threads) share (mem_insert_self thread threads)
  have new := add_sum_erase (insert thread threads) share' (mem_insert_self thread threads)
  have part : ∑ other ∈ threads, share' other ≤ ∑ other ∈ insert thread threads, share' other :=
    sum_le_sum_of_subset (subset_insert thread threads)
  omega

/-- A thread gives up its share. -/
theorem forfeits (covers : Covers granted spent share) (thread : Nat)
    (others : ∀ other, other ≠ thread → share' other = share other) (none : share' thread = 0) :
    Covers granted spent share' := by
  have paid : spent + share' thread ≤ spent + share thread + 0 := by omega
  exact covers.pays thread others paid

end Covers

end Taskfire.Library
