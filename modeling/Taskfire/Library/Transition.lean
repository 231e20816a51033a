import Mathlib.Data.Option.Basic

/-!
# Labelled transitions

A labelled transition relation, the states it reaches by steps that keep a condition, the rule by
which such runs are followed by runs of an abstract system, the replay of a run from a list of
labels where the steps can be computed, and runs with a history beside their states.
-/

namespace Taskfire.Library

inductive Reach {S L : Type} (step : S → L → S → Prop) (keeps : S → L → Prop) : S → S → Prop
  | refl (state : S) : Reach step keeps state state
  | tail {first state state' : S} {label : L} : Reach step keeps first state →
      keeps state label → step state label state' → Reach step keeps first state'

namespace Reach

variable {S L : Type} {step : S → L → S → Prop} {keeps keeps' : S → L → Prop}
variable {first middle last : S}

theorem single {label : L} (kept : keeps first label) (stepped : step first label last) :
    Reach step keeps first last :=
  .tail (.refl first) kept stepped

theorem trans (left : Reach step keeps first middle) (right : Reach step keeps middle last) :
    Reach step keeps first last := by
  induction right with
  | refl => exact left
  | tail _ kept stepped inductionHypothesis => exact .tail inductionHypothesis kept stepped

theorem invariant (holds : S → Prop) (reach : Reach step keeps first last) (base : holds first)
    (preserved : ∀ before label after, holds before → keeps before label →
      step before label after → holds after) : holds last := by
  induction reach with
  | refl => exact base
  | tail _ kept stepped inductionHypothesis =>
    exact preserved _ _ _ inductionHypothesis kept stepped

/-- A weaker condition may use that the state of each step was reached. -/
theorem mono_reached (reach : Reach step keeps first last)
    (weaken : ∀ middle label, Reach step keeps first middle → keeps middle label →
      keeps' middle label) : Reach step keeps' first last := by
  induction reach with
  | refl => exact .refl _
  | tail reach kept stepped inductionHypothesis =>
    exact .tail inductionHypothesis (weaken _ _ reach kept) stepped

theorem mono (reach : Reach step keeps first last)
    (weaken : ∀ state label, keeps state label → keeps' state label) :
    Reach step keeps' first last :=
  reach.mono_reached fun state label _ kept => weaken state label kept

/-- A system whose every step, from states that satisfy an invariant, is followed by steps of an
abstract system runs inside that system. -/
theorem simulates {S' L' : Type} {step' : S' → L' → S' → Prop} {follows : S' → L' → Prop}
    (invariant : S → Prop) (view : S → S') (reach : Reach step keeps first last)
    (base : invariant first)
    (preserved : ∀ before label after, invariant before → keeps before label →
      step before label after → invariant after)
    (followed : ∀ before label after, invariant before → keeps before label →
      step before label after → Reach step' follows (view before) (view after)) :
    invariant last ∧ Reach step' follows (view first) (view last) := by
  induction reach with
  | refl => exact ⟨base, .refl _⟩
  | tail _ kept stepped inductionHypothesis =>
    obtain ⟨held, reached⟩ := inductionHypothesis
    exact ⟨preserved _ _ _ held kept stepped, reached.trans (followed _ _ _ held kept stepped)⟩

end Reach

/-! ## Moves that can be computed -/

section Replay

variable {S L : Type}

/-- The transitions of a partial function. -/
def Moves (next : S → L → Option S) (state : S) (label : L) (state' : S) : Prop :=
  next state label = some state'

/-- Performs a list of steps, checking each one. -/
def replay (next : S → L → Option S) (check : S → L → Bool) : S → List L → Option S
  | state, [] => some state
  | state, label :: labels =>
    if check state label then
      match next state label with
      | some state' => replay next check state' labels
      | none => none
    else none

variable {next : S → L → Option S} {keeps : S → L → Prop} {first last : S}

theorem reach_of_replay {check : S → L → Bool}
    (sound : ∀ state label, check state label = true → keeps state label) {labels : List L}
    (replayed : replay next check first labels = some last) :
    Reach (Moves next) keeps first last := by
  induction labels generalizing first with
  | nil => cases replayed; exact .refl _
  | cons label labels inductionHypothesis =>
    simp only [replay] at replayed
    split at replayed
    · next checked =>
      split at replayed
      · next state' stepped =>
        exact (Reach.single (sound _ _ checked) stepped).trans (inductionHypothesis replayed)
      · cases replayed
    · cases replayed

/-- A replay that ends in a state with a property shows that such a state can be reached. -/
theorem replay_reaches (check : S → L → Bool)
    (sound : ∀ state label, check state label = true → keeps state label) (labels : List L)
    (holds : S → Bool) (replayed : (replay next check first labels).any holds = true) :
    ∃ last, Reach (Moves next) keeps first last ∧ holds last = true := by
  obtain ⟨last, reached, held⟩ := (Option.any_eq_true ..).mp replayed
  exact ⟨last, reach_of_replay sound reached, held⟩

/-- Every step passes. -/
def unchecked (_ : S) (_ : L) : Bool := true

@[simp] theorem replay_cons (check : S → L → Bool) (state : S) (label : L) (labels : List L) :
    replay next check state (label :: labels) =
      if check state label then (next state label).bind fun state' => replay next check state' labels
      else none := by
  simp only [replay]
  cases next state label <;> rfl

/-- If a step keeps a property exactly when it passes the check, then the property holds in all
states of a run exactly when all its steps pass. -/
theorem replay_iff {check : S → L → Bool} {invariant holds : S → Prop}
    (preserved : ∀ state label state', invariant state → next state label = some state' →
      invariant state')
    (decides : ∀ state label state', invariant state → holds state → next state label = some state' →
      (holds state' ↔ check state label = true))
    {labels : List L} (kept : invariant first) (base : holds first)
    (ran : replay next unchecked first labels = some last) :
    (∀ n state, replay next unchecked first (labels.take n) = some state → holds state) ↔
      replay next check first labels = some last := by
  induction labels generalizing first with
  | nil =>
    constructor
    · intro _
      exact ran
    · intro _ n state reached
      rw [List.take_nil] at reached
      cases reached
      exact base
  | cons label labels inductionHypothesis =>
    simp only [replay_cons, unchecked, if_true] at ran
    obtain ⟨state', stepped, rest⟩ := Option.bind_eq_some_iff.mp ran
    have kept' := preserved _ _ _ kept stepped
    have decided := decides _ _ _ kept base stepped
    constructor
    · intro all
      have base' : holds state' := all 1 state' (by simp [unchecked, stepped, replay])
      rw [replay_cons, if_pos (decided.mp base'), stepped, Option.bind_some,
        ← inductionHypothesis kept' base' rest]
      intro n state reached
      exact all (n + 1) state (by simpa [unchecked, stepped] using reached)
    · intro checked n state reached
      rw [replay_cons] at checked
      split at checked
      · next passes =>
        rw [stepped, Option.bind_some] at checked
        cases n with
        | zero =>
          cases reached
          exact base
        | succ n =>
          rw [List.take_succ_cons, replay_cons, unchecked, if_pos rfl, stepped] at reached
          exact (inductionHypothesis kept' (decided.mpr passes) rest).mpr checked n state reached
      · cases checked

end Replay

/-! ## Histories -/

section Chronicle

variable {S L H : Type}

/-- The moves with a history beside the state; each move adds to it, and it decides nothing. -/
def chronicle (next : S → L → Option S) (record : H → S → L → H) (current : S × H) (label : L) :
    Option (S × H) :=
  (next current.1 label).map fun state' => (state', record current.2 current.1 label)

theorem chronicle_eq_some {next : S → L → Option S} {record : H → S → L → H} {before after : S × H}
    {label : L} (moved : chronicle next record before label = some after) :
    next before.1 label = some after.1 ∧ after.2 = record before.2 before.1 label := by
  obtain ⟨state', stepped, same⟩ := Option.map_eq_some_iff.mp moved
  subst same
  exact ⟨stepped, rfl⟩

end Chronicle

end Taskfire.Library
