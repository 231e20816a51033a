import Mathlib.Order.WellFounded
import Mathlib.Data.Set.Finite.Basic
import Mathlib.Data.Fintype.Card

/-!
# Cycles of a relation

A relation is cyclic when some element reaches itself in one or more steps.  A finite list whose
elements all have a successor in the list contains a cycle; a relation along which a rank falls has
none.
-/

namespace Taskfire.Library

open Relation

variable {V : Type} {edge edge' : V → V → Prop}

def Cyclic (edge : V → V → Prop) : Prop := ∃ node, TransGen edge node node

/-- A cycle can be reached from `start`. -/
def CyclicFrom (edge : V → V → Prop) (start : V) : Prop :=
  ∃ node, ReflTransGen edge start node ∧ TransGen edge node node

/-- Where the reachable edges of one relation are edges of another, so are its reachable cycles. -/
theorem CyclicFrom.cyclic_of_closed {start : V} (cyclic : CyclicFrom edge start)
    (holds : V → Prop) (base : holds start)
    (closed : ∀ node next, holds node → edge node next → edge' node next ∧ holds next) :
    Cyclic edge' := by
  obtain ⟨node, path, cycle⟩ := cyclic
  have reached : holds node := by
    clear cycle
    induction path with
    | refl => exact base
    | tail _ step inductionHypothesis => exact (closed _ _ inductionHypothesis step).2
  have follows : ∀ next, TransGen edge node next → TransGen edge' node next ∧ holds next := by
    intro next steps
    induction steps with
    | single step =>
      obtain ⟨edge, after⟩ := closed _ _ reached step
      exact ⟨.single edge, after⟩
    | tail _ step inductionHypothesis =>
      obtain ⟨before, held⟩ := inductionHypothesis
      obtain ⟨edge, after⟩ := closed _ _ held step
      exact ⟨before.tail edge, after⟩
  exact ⟨node, (follows node cycle).1⟩

theorem not_cyclic_of_rank (rank : V → Nat)
    (falls : ∀ node next, edge node next → rank next < rank node) : ¬ Cyclic edge := by
  intro cyclic
  obtain ⟨node, cycle⟩ := cyclic
  have lower : ∀ next, TransGen edge node next → rank next < rank node := by
    intro next path
    induction path with
    | single step => exact falls _ _ step
    | tail _ step inductionHypothesis => exact (falls _ _ step).trans inductionHypothesis
  exact Nat.lt_irrefl _ (lower node cycle)

/-- Where every element of a finite list has a successor in the list, the list holds a cycle. -/
theorem cyclic_of_stuck {stuck : List V} (nonempty : stuck ≠ [])
    (next : ∀ node ∈ stuck, ∃ successor ∈ stuck, edge node successor) : Cyclic edge := by
  by_contra acyclic
  -- On the finite set of listed elements, "comes later on a path" is well founded.
  let Listed := { node // node ∈ stuck }
  let later : Listed → Listed → Prop := fun after before => TransGen edge before.1 after.1
  have finite : Finite Listed := List.finite_toSet stuck
  have transitive : IsTrans Listed later := ⟨fun _ _ _ first second => second.trans first⟩
  have irreflexive : Std.Irrefl later := ⟨fun node cycle => acyclic ⟨node.1, cycle⟩⟩
  have wellFounded : WellFounded later := Finite.wellFounded_of_trans_of_irrefl later
  obtain ⟨first, listed⟩ := List.exists_mem_of_ne_nil stuck nonempty
  obtain ⟨last, -, minimal⟩ := wellFounded.has_min Set.univ ⟨⟨first, listed⟩, trivial⟩
  obtain ⟨successor, member, step⟩ := next last.1 last.2
  exact minimal ⟨successor, member⟩ trivial (.single step)

end Taskfire.Library
