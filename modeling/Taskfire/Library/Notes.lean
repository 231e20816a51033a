import Taskfire.Library.Machine

/-!
# Notes beside the sessions of a machine

A proof may need to know more of a thread than its session records.  `Notes` say how a record of
their own, a note, moves with the calls of a thread; `Machine.annotated` runs a machine with a note
beside each session.  Neither the store nor the programs see the notes, so every run of the machine
is a run of the annotated one without its notes (`Machine.annotate`).
-/

namespace Taskfire.Library

structure Notes (C : Type) (R : C → Type) (Entry Note : Type) where
  /-- How a note moves past a call. -/
  advance : Note → (c : C) → R c → Note
  /-- The note of a thread that starts at an entry. -/
  start : Entry → Note
  /-- The note of a thread that holds nothing. -/
  rest : Note

variable {C : Type} {R : C → Type} {Store Env Session Entry Tick Result Note : Type}

namespace Thread

def erase (thread : Thread C R (Session × Note) Result) : Thread C R Session Result :=
  ⟨thread.session.1, thread.program⟩

end Thread

namespace State

def erase (state : State C R Store (Session × Note) Result) : State C R Store Session Result :=
  ⟨state.store, fun thread => (state.threads thread).erase⟩

/-- The note of a thread. -/
def note (state : State C R Store (Session × Note) Result) (thread : Nat) : Note :=
  (state.threads thread).session.2

variable (state : State C R Store (Session × Note) Result)

@[simp] theorem erase_store : state.erase.store = state.store := rfl

@[simp] theorem erase_program (thread : Nat) :
    (state.erase.threads thread).program = (state.threads thread).program := rfl

theorem erase_put (thread : Nat) (value : Thread C R (Session × Note) Result) :
    (state.put thread value).erase = state.erase.put thread value.erase := by
  simp only [erase, put, State.mk.injEq, true_and]
  funext other
  by_cases same : other = thread
  · subst same
    simp
  · simp [Function.update_of_ne same]

end State

namespace Machine

variable (machine : Machine C R Store Env Session Entry Tick Result)
variable (notes : Notes C R Entry Note)

/-- The machine with a note beside each session. -/
def annotated : Machine C R Store Env (Session × Note) Entry Tick Result where
  perform := machine.perform
  advance := fun session c reply =>
    (machine.advance session.1 c reply, notes.advance session.2 c reply)
  start := fun entry => (((machine.start entry).1, notes.start entry), (machine.start entry).2)
  tick := machine.tick
  rest := (machine.rest, notes.rest)
  stopped := machine.stopped

/-- Notes decide nothing. -/
theorem step_erase (state : State C R Store (Session × Note) Result)
    (action : Action Env Entry Tick) :
    machine.step state.erase action =
      ((machine.annotated notes).step state action).map State.erase := by
  cases action with
  | spawn thread entry =>
    simp only [step, State.erase_program]
    split
    · simp only [Option.map_some, State.erase_put]
      rfl
    · rfl
  | exec thread env =>
    simp only [step, State.erase_program]
    split
    · rfl
    · simp only [Option.map_some, State.erase_put]
      rfl
  | tick move => rfl
  | crash thread =>
    simp only [step, Option.map_some, State.erase_put]
    rfl

variable {machine} {first last : State C R Store Session Result}

/-- Every run of a machine is one of the annotated machine without its notes. -/
theorem annotate {keeps : State C R Store Session Result → Action Env Entry Tick → Prop}
    (run : machine.Run keeps first last) {noted : State C R Store (Session × Note) Result}
    (erased : noted.erase = first) :
    ∃ last', last'.erase = last ∧
      (machine.annotated notes).Run (fun state action => keeps state.erase action) noted last' := by
  induction run with
  | refl => exact ⟨noted, erased, .refl noted⟩
  | tail _ kept stepped inductionHypothesis =>
    obtain ⟨middle, same, reached⟩ := inductionHypothesis
    subst same
    have moved := machine.step_erase notes middle
    rw [Moves, moved, Option.map_eq_some_iff] at stepped
    obtain ⟨after, stepped, same⟩ := stepped
    exact ⟨after, same, .tail reached kept stepped⟩

variable {notes} in
theorem note_executed_other (state : State C R Store (Session × Note) Result) {thread other : Nat}
    (env : Env) (c : C) (next : R c → Program C R Result) (different : other ≠ thread) :
    (executed (machine.annotated notes) state thread env c next).note other = state.note other := by
  rw [State.note, executed_other env c next different]
  rfl

/-- Threads whose notes keep to a protocol, driven by replies it admits, keep to it. -/
theorem step_notes {notes : Notes C R Entry Note} {permits : Note → C → Prop}
    {admits : (c : C) → R c → Prop} {final : Result → Note → Prop} {action : Action Env Entry Tick}
    {state state' : State C R Store (Session × Note) Result}
    (stepped : (machine.annotated notes).step state action = some state')
    (held : ∀ thread, (state.threads thread).program.Follows permits notes.advance admits final
      (state.note thread))
    (idle : final machine.stopped notes.rest)
    (start : ∀ thread entry, action = .spawn thread entry →
      (machine.start entry).2.Follows permits notes.advance admits final (notes.start entry))
    (admitted : ∀ thread env c, action = .exec thread env →
      admits c (machine.perform env state.store c).1) :
    ∀ thread, (state'.threads thread).program.Follows permits notes.advance admits final
      (state'.note thread) := by
  apply step_threads (fun thread : Thread C R (Session × Note) Result =>
    thread.program.Follows permits notes.advance admits final thread.session.2) stepped held idle start
  intro thread env session c next acts shape follows
  exact follows.2 _ (admitted thread env c acts)

end Machine

end Taskfire.Library
