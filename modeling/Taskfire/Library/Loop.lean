import Mathlib.Data.List.Perm.Basic

/-!
# Loops and iterations

A `while` loop is a partial step on its variables: it ends where the step is undefined.  A loop
whose step decreases a measure ends within as many turns as the measure of its first state.  A
`range` over a map visits every entry once, in an order the program cannot choose (`Iteration`).
A loop over entries with distinct keys whose turns are local (`Local`) does to each key what the turn
of its entry does.
-/

namespace Taskfire.Library

/-! ## Loops -/

namespace Loop

variable {S : Type}

/-- At most `fuel` turns. -/
def turns (step : S → Option S) : Nat → S → S
  | 0, state => state
  | fuel + 1, state =>
    match step state with
    | none => state
    | some next => turns step fuel next

/-- The state in which the loop ends, for a measure that its step decreases. -/
def run (step : S → Option S) (measure : S → Nat) (state : S) : S :=
  turns step (measure state) state

variable {step : S → Option S} {measure : S → Nat}

theorem turns_end (decreases : ∀ state next, step state = some next → measure next < measure state)
    (fuel : Nat) (state : S) (enough : measure state ≤ fuel) :
    step (turns step fuel state) = none := by
  induction fuel generalizing state with
  | zero =>
    -- Another turn would need a measure below zero.
    cases stepped : step state with
    | none => exact stepped
    | some next =>
      have lower := decreases state next stepped
      omega
  | succ fuel inductionHypothesis =>
    simp only [turns]
    cases stepped : step state with
    | none => exact stepped
    | some next =>
      have lower := decreases state next stepped
      apply inductionHypothesis
      omega

theorem run_ends (decreases : ∀ state next, step state = some next → measure next < measure state)
    (state : S) : step (run step measure state) = none :=
  turns_end decreases (measure state) state (Nat.le_refl _)

theorem run_invariant (holds : S → Prop) {state : S} (base : holds state)
    (preserved : ∀ state next, holds state → step state = some next → holds next) :
    holds (run step measure state) := by
  have turned (fuel : Nat) (state : S) (held : holds state) : holds (turns step fuel state) := by
    induction fuel generalizing state with
    | zero => exact held
    | succ fuel inductionHypothesis =>
      simp only [turns]
      cases stepped : step state with
      | none => exact held
      | some next => exact inductionHypothesis next (preserved state next held stepped)
  exact turned _ state base

end Loop

/-! ## Iterations -/

/-- An order in which the entries of a collection are visited. -/
structure Iteration (K : Type) where
  visit : List K → List K
  perm : ∀ keys, (visit keys).Perm keys

namespace Iteration

variable {K : Type}

/-- The order in which the entries are listed. -/
def listed : Iteration K := ⟨id, fun _ => .refl _⟩

@[simp] theorem mem_visit (iteration : Iteration K) {keys : List K} {key : K} :
    key ∈ iteration.visit keys ↔ key ∈ keys :=
  (iteration.perm keys).mem_iff

theorem nodup_visit (iteration : Iteration K) {keys : List K} (nodup : keys.Nodup) :
    (iteration.visit keys).Nodup :=
  (iteration.perm keys).nodup_iff.mpr nodup

end Iteration

/-! ## Loops with local turns -/

/-- The turn of an entry changes what is seen at the key of the entry, and nothing at other keys. -/
structure Local {S I K V : Type} (turn : S → I → S) (key : I → K) (view : S → K → V)
    (effect : I → V → V) : Prop where
  same : ∀ state entry, view (turn state entry) (key entry) = effect entry (view state (key entry))
  other : ∀ state entry place, place ≠ key entry → view (turn state entry) place = view state place

namespace Local

variable {S I K V : Type} {turn : S → I → S} {key : I → K} {view : S → K → V} {effect : I → V → V}

theorem foldl_other (isLocal : Local turn key view effect) {entries : List I} {place : K}
    (absent : ∀ entry ∈ entries, place ≠ key entry) (state : S) :
    view (entries.foldl turn state) place = view state place := by
  induction entries generalizing state with
  | nil => rfl
  | cons entry entries inductionHypothesis =>
    rw [List.foldl_cons, inductionHypothesis fun other listed => absent other (.tail _ listed)]
    exact isLocal.other state entry place (absent entry (.head _))

theorem foldl_same (isLocal : Local turn key view effect) {entries : List I}
    (distinct : (entries.map key).Nodup) {entry : I} (listed : entry ∈ entries) (state : S) :
    view (entries.foldl turn state) (key entry) = effect entry (view state (key entry)) := by
  induction entries generalizing state with
  | nil => cases listed
  | cons first entries inductionHypothesis =>
    obtain ⟨fresh, distinct⟩ := List.nodup_cons.mp distinct
    rw [List.foldl_cons]
    cases listed with
    | head =>
      have absent (other : I) (later : other ∈ entries) : key entry ≠ key other := fun same =>
        fresh (same ▸ List.mem_map_of_mem later)
      rw [isLocal.foldl_other absent]
      exact isLocal.same state entry
    | tail _ later =>
      rw [inductionHypothesis distinct later]
      congr 1
      exact isLocal.other state first _ fun same => fresh (same ▸ List.mem_map_of_mem later)

end Local

end Taskfire.Library
