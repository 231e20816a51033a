import Taskfire.Library.Program
import Taskfire.Library.Transition
import Mathlib.Logic.Function.Basic

/-!
# Threads that share a store

A `Machine` runs any number of threads against one store.  A thread is a program and a session, a
record of what the thread has done so far that the program itself never reads.  A step of the
machine starts a program on a finished thread, performs one call of one thread, lets the store move
by itself, or stops a thread for good.

The runs of a machine are those of its steps as a transition relation.
-/

namespace Taskfire.Library

structure Machine (C : Type) (R : C → Type) (Store Env Session Entry Tick Result : Type) where
  /-- One atomic call, with the choices the environment makes for it. -/
  perform : Env → Store → (c : C) → R c × Store
  /-- How a session moves past a call. -/
  advance : Session → (c : C) → R c → Session
  /-- The session and the program of a thread that starts at an entry. -/
  start : Entry → Session × Program C R Result
  /-- A move the store makes by itself. -/
  tick : Tick → Store → Store
  /-- The session of a thread that holds nothing. -/
  rest : Session
  /-- The result of a thread that was stopped. -/
  stopped : Result

structure Thread (C : Type) (R : C → Type) (Session Result : Type) where
  session : Session
  program : Program C R Result

inductive Action (Env Entry Tick : Type) where
  | spawn (thread : Nat) (entry : Entry)
  | exec (thread : Nat) (env : Env)
  | tick (move : Tick)
  | crash (thread : Nat)

structure State (C : Type) (R : C → Type) (Store Session Result : Type) where
  store : Store
  threads : Nat → Thread C R Session Result

namespace Thread

variable {C : Type} {R : C → Type} {Session Result : Type}

def Finished (thread : Thread C R Session Result) : Prop :=
  ∃ value, thread.program = .pure value

/-- The call the thread makes next. -/
def next? (thread : Thread C R Session Result) : Option C :=
  match thread.program with
  | .pure _ => none
  | .call c _ => some c

end Thread

namespace State

variable {C : Type} {R : C → Type} {Store Session Result : Type}

def put (state : State C R Store Session Result) (thread : Nat)
    (value : Thread C R Session Result) : State C R Store Session Result :=
  { state with threads := Function.update state.threads thread value }

@[simp] theorem put_same (state : State C R Store Session Result) (thread : Nat)
    (value : Thread C R Session Result) : (state.put thread value).threads thread = value := by
  simp [put]

theorem put_other (state : State C R Store Session Result) {thread other : Nat}
    (value : Thread C R Session Result) (different : other ≠ thread) :
    (state.put thread value).threads other = state.threads other := by
  simp [put, different]

end State

namespace Machine

variable {C : Type} {R : C → Type} {Store Env Session Entry Tick Result : Type}
variable (machine : Machine C R Store Env Session Entry Tick Result)

/-- The thread left behind by one that was stopped. -/
def idle : Thread C R Session Result := ⟨machine.rest, .pure machine.stopped⟩

/-- Every thread is idle. -/
def initial (store : Store) : State C R Store Session Result := ⟨store, fun _ => machine.idle⟩

def started (entry : Entry) : Thread C R Session Result :=
  ⟨(machine.start entry).1, (machine.start entry).2⟩

/-- The thread after its call `c` got `reply`. -/
def resumed (session : Session) (c : C) (next : R c → Program C R Result) (reply : R c) :
    Thread C R Session Result :=
  ⟨machine.advance session c reply, next reply⟩

def step (state : State C R Store Session Result) :
    Action Env Entry Tick → Option (State C R Store Session Result)
  | .spawn thread entry =>
    match (state.threads thread).program with
    | .pure _ => some (state.put thread (machine.started entry))
    | .call _ _ => none
  | .exec thread env =>
    match (state.threads thread).program with
    | .pure _ => none
    | .call c next =>
      some (State.put { state with store := (machine.perform env state.store c).2 } thread
        (machine.resumed (state.threads thread).session c next
          (machine.perform env state.store c).1))
  | .tick move => some { state with store := machine.tick move state.store }
  | .crash thread => some (state.put thread machine.idle)

variable {machine}
variable {state state' : State C R Store Session Result}

/-- The state after thread `thread` performed its call `c`. -/
def executed (machine : Machine C R Store Env Session Entry Tick Result)
    (state : State C R Store Session Result) (thread : Nat) (env : Env) (c : C)
    (next : R c → Program C R Result) : State C R Store Session Result :=
  State.put { state with store := (machine.perform env state.store c).2 } thread
    (machine.resumed (state.threads thread).session c next (machine.perform env state.store c).1)

@[simp] theorem executed_same (thread : Nat) (env : Env) (c : C)
    (next : R c → Program C R Result) :
    (machine.executed state thread env c next).threads thread =
      machine.resumed (state.threads thread).session c next
        (machine.perform env state.store c).1 := by
  simp [executed]

theorem executed_other {thread other : Nat} (env : Env) (c : C)
    (next : R c → Program C R Result) (different : other ≠ thread) :
    (machine.executed state thread env c next).threads other = state.threads other :=
  State.put_other _ _ different

theorem step_spawn {thread : Nat} {entry : Entry}
    (stepped : machine.step state (.spawn thread entry) = some state') :
    (state.threads thread).Finished ∧ state' = state.put thread (machine.started entry) := by
  simp only [step] at stepped
  split at stepped
  · next value program => exact ⟨⟨value, program⟩, (Option.some.inj stepped).symm⟩
  · cases stepped

theorem step_exec {thread : Nat} {env : Env}
    (stepped : machine.step state (.exec thread env) = some state') :
    ∃ c next, (state.threads thread).program = .call c next ∧
      state' = machine.executed state thread env c next := by
  simp only [step] at stepped
  split at stepped
  · cases stepped
  · next c next program => exact ⟨c, next, program, (Option.some.inj stepped).symm⟩

theorem step_tick {move : Tick} (stepped : machine.step state (.tick move) = some state') :
    state' = { state with store := machine.tick move state.store } :=
  (Option.some.inj stepped).symm

theorem step_crash {thread : Nat} (stepped : machine.step state (.crash thread) = some state') :
    state' = state.put thread machine.idle :=
  (Option.some.inj stepped).symm

/-- What a step does to the store. -/
theorem step_store {action : Action Env Entry Tick}
    (stepped : machine.step state action = some state') :
    state'.store = state.store ∨
      (∃ move, state'.store = machine.tick move state.store) ∨
      ∃ thread env c next, action = .exec thread env ∧
        (state.threads thread).program = .call c next ∧
        state' = machine.executed state thread env c next := by
  cases action with
  | spawn thread entry =>
    obtain ⟨_, rfl⟩ := step_spawn stepped
    exact .inl rfl
  | exec thread env =>
    obtain ⟨c, next, program, moved⟩ := step_exec stepped
    exact .inr (.inr ⟨thread, env, c, next, rfl, program, moved⟩)
  | tick move =>
    rw [step_tick stepped]
    exact .inr (.inl ⟨move, rfl⟩)
  | crash thread =>
    rw [step_crash stepped]
    exact .inl rfl

/-! ## Runs -/

/-- The states reached by steps that all keep the condition. -/
abbrev Run (machine : Machine C R Store Env Session Entry Tick Result)
    (keeps : State C R Store Session Result → Action Env Entry Tick → Prop) :
    State C R Store Session Result → State C R Store Session Result → Prop :=
  Reach (Moves machine.step) keeps

/-- A thread may run its program to the end while all others wait. -/
theorem run_plays (thread : Nat) {session : Session} (program : Program C R Result)
    (choices : Nat → Env) (here : state.threads thread = ⟨session, program⟩) :
    ∃ last, machine.Run (fun _ _ => True) state last ∧
      last.store = (program.play machine.perform choices state.store).store ∧
      (last.threads thread).Finished := by
  induction program generalizing session choices state with
  | pure value => exact ⟨state, .refl _, rfl, value, by rw [here]⟩
  | call c next inductionHypothesis =>
    have stepped : machine.step state (.exec thread (choices 0)) =
        some (machine.executed state thread (choices 0) c next) := by
      simp only [step, here, executed]
    obtain ⟨last, run, store, finished⟩ := inductionHypothesis _ (fun n => choices (n + 1))
      (executed_same thread (choices 0) c next)
    exact ⟨last, (Reach.single trivial stepped).trans run, store, finished⟩

/-- A finished thread may start at an entry and run its program to the end. -/
theorem run_entry {thread : Nat} (finished : (state.threads thread).Finished) (entry : Entry)
    (choices : Nat → Env) :
    ∃ last, machine.Run (fun _ _ => True) state last ∧
      last.store = ((machine.start entry).2.play machine.perform choices state.store).store ∧
      (last.threads thread).Finished := by
  obtain ⟨value, program⟩ := finished
  have stepped : machine.step state (.spawn thread entry) =
      some (state.put thread (machine.started entry)) := by
    simp only [step, program]
  obtain ⟨last, run, store, finished⟩ := run_plays thread _ choices
    (State.put_same state thread (machine.started entry))
  exact ⟨last, (Reach.single trivial stepped).trans run, store, finished⟩

/-! ## Invariants of single threads -/

/-- A property of threads that every entry establishes and every call keeps is kept by each step. -/
theorem step_threads (holds : Thread C R Session Result → Prop)
    {action : Action Env Entry Tick} (stepped : machine.step state action = some state')
    (held : ∀ thread, holds (state.threads thread)) (idle : holds machine.idle)
    (start : ∀ thread entry, action = .spawn thread entry → holds (machine.started entry))
    (call : ∀ thread env session c next, action = .exec thread env →
      state.threads thread = ⟨session, .call c next⟩ → holds ⟨session, .call c next⟩ →
      holds (machine.resumed session c next (machine.perform env state.store c).1)) :
    ∀ thread, holds (state'.threads thread) := by
  intro thread
  cases action with
  | spawn spawned entry =>
    obtain ⟨_, rfl⟩ := step_spawn stepped
    by_cases same : thread = spawned
    · subst same
      simpa using start thread entry rfl
    · rw [State.put_other _ _ same]
      exact held thread
  | exec running env =>
    obtain ⟨c, next, program, rfl⟩ := step_exec stepped
    by_cases same : thread = running
    · subst same
      have whole : state.threads thread = ⟨(state.threads thread).session, .call c next⟩ := by
        rw [← program]
      rw [executed_same]
      exact call thread env _ c next rfl whole (whole ▸ held thread)
    · rw [executed_other env c next same]
      exact held thread
  | tick move => rw [step_tick stepped]; exact held thread
  | crash crashed =>
    rw [step_crash stepped]
    by_cases same : thread = crashed
    · subst same
      simpa using idle
    · rw [State.put_other _ _ same]
      exact held thread

/-- Threads whose entries keep to a protocol, driven by replies the protocol admits, keep to it. -/
theorem step_follows {permits : Session → C → Prop} {admits : (c : C) → R c → Prop}
    {final : Result → Session → Prop} {action : Action Env Entry Tick}
    (stepped : machine.step state action = some state')
    (held : ∀ thread, (state.threads thread).program.Follows permits machine.advance admits final
      (state.threads thread).session)
    (idle : final machine.stopped machine.rest)
    (start : ∀ thread entry, action = .spawn thread entry →
      (machine.start entry).2.Follows permits machine.advance admits final (machine.start entry).1)
    (admitted : ∀ thread env c, action = .exec thread env → (state.threads thread).next? = some c →
      admits c (machine.perform env state.store c).1) :
    ∀ thread, (state'.threads thread).program.Follows permits machine.advance admits final
      (state'.threads thread).session := by
  refine step_threads (fun thread => thread.program.Follows permits machine.advance admits
    final thread.session) stepped held idle start ?_
  intro thread env session c next acts shape follows
  exact follows.2 _ (admitted thread env c acts (by rw [shape]; rfl))

end Machine

end Taskfire.Library
