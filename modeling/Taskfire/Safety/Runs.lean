import Taskfire.Safety.Tokens

/-!
# Runs and what they are asked to keep

The vocabulary of the safety results: which steps a run may take, what is true of a job in a state,
and how a concrete run is replayed.
-/

namespace Taskfire

open Taskfire.Library

/-! ## Steps of a run -/

/-- Threads start at the listed entries only; calls may fail, locks expire and threads crash. -/
def Starting (entries : Entry → Bool) : SystemAction → Prop
  | .spawn _ entry => entries entry = true
  | _ => True

instance (entries : Entry → Bool) : DecidablePred (Starting entries)
  | .spawn _ entry => inferInstanceAs (Decidable (entries entry = true))
  | .exec _ _ | .tick _ | .crash _ => inferInstanceAs (Decidable True)

/-- No store call fails. -/
def Reached : SystemAction → Prop
  | .exec _ env => env.fails = false
  | _ => True

instance : DecidablePred Reached
  | .exec _ env => inferInstanceAs (Decidable (env.fails = false))
  | .spawn _ _ | .tick _ | .crash _ => inferInstanceAs (Decidable True)

def Uncrashed : SystemAction → Prop
  | .crash _ => False
  | _ => True

instance : DecidablePred Uncrashed
  | .crash _ => inferInstanceAs (Decidable False)
  | .spawn _ _ | .exec _ _ | .tick _ => inferInstanceAs (Decidable True)

def Unexpired : SystemAction → Prop
  | .tick _ => False
  | _ => True

instance : DecidablePred Unexpired
  | .tick _ => inferInstanceAs (Decidable False)
  | .spawn _ _ | .exec _ _ | .crash _ => inferInstanceAs (Decidable True)

/-- No store call fails, no lock expires and no thread crashes. -/
def Ordinary (entries : Entry → Bool) : SystemAction → Prop
  | .spawn _ entry => entries entry = true
  | .exec _ env => env.fails = false
  | .tick _ | .crash _ => False

instance (entries : Entry → Bool) : DecidablePred (Ordinary entries)
  | .spawn _ entry => inferInstanceAs (Decidable (entries entry = true))
  | .exec _ env => inferInstanceAs (Decidable (env.fails = false))
  | .tick _ | .crash _ => inferInstanceAs (Decidable False)

theorem Ordinary.starting {entries : Entry → Bool} {action : SystemAction}
    (ordinary : Ordinary entries action) : Starting entries action := by
  cases action with
  | spawn thread entry => exact ordinary
  | exec | tick | crash => exact trivial

theorem Ordinary.reachable {entries : Entry → Bool} {action : SystemAction} {thread : Nat}
    {env : Env} (ordinary : Ordinary entries action) (acts : action = .exec thread env) :
    env.fails = false := by
  subst acts
  exact ordinary

theorem Ordinary.unexpired {entries : Entry → Bool} {action : SystemAction}
    (ordinary : Ordinary entries action) : Unexpired action := by
  cases action with
  | tick => exact ordinary
  | spawn | exec | crash => exact trivial

theorem Ordinary.uncrashed {entries : Entry → Bool} {action : SystemAction}
    (ordinary : Ordinary entries action) : Uncrashed action := by
  cases action with
  | crash => exact ordinary
  | spawn | exec | tick => exact trivial

theorem Unexpired.label {id : JobId} {state : SystemState} {action : SystemAction} {label : Label}
    (unexpired : Unexpired action) (shows : Shows id state action label) : label ≠ .expire := by
  intro expires
  subst expires
  cases shows
  exact unexpired

theorem Uncrashed.label {id : JobId} {state : SystemState} {action : SystemAction} {label : Label}
    (uncrashed : Uncrashed action) (shows : Shows id state action label) (thread : Nat) :
    label ≠ .crash thread := by
  intro crashes
  subst crashes
  cases shows
  exact uncrashed

/-- Thread `thread` does `event` to job `id`. -/
abbrev Does (id : JobId) (state : SystemState) (action : SystemAction) (thread : Nat)
    (event : Event) : Prop :=
  Shows id state action (.act thread event)

/-- The event of a step, computed. -/
def eventOf (id : JobId) (state : SystemState) : SystemAction → Option (Nat × Event)
  | .spawn thread entry =>
    if entry.session.job = some id then some (thread, .enters entry.session.token) else none
  | .exec thread env =>
    match (state.threads thread).program with
    | .pure _ => none
    | .call c _ =>
      some (thread, if c.vain state.store then .other
        else c.event id (state.threads thread).session (perform env state.store c).1)
  | .tick _ | .crash _ => none

theorem eventOf_of_does {id : JobId} {state : SystemState} {action : SystemAction} {thread : Nat}
    {event : Event} (does : Does id state action thread event) :
    eventOf id state action = some (thread, event) := by
  cases does with
  | spawn on => simp only [eventOf, on, if_true]
  | exec program effective => simp only [eventOf, program, effective, Bool.false_eq_true, if_false]
  | vain program vain => simp only [eventOf, program, vain, if_true]

/-! ## What is true of a job in a state -/

def Stores.status (stores : Stores) (id : JobId) : Option JobStatus :=
  (stores.jobs id).map Row.status

/-- The thread is in the middle of its program and carries a record of the job. -/
def carrying (id : JobId) (thread : SystemThread) : Prop :=
  ¬ thread.Finished ∧ thread.session.on id ∧ thread.session.token.isOpen = true

/-- No record of the job waits in a lane or in the delayed set, and no thread carries one. -/
def noRecord (id : JobId) (state : SystemState) : Prop :=
  state.store.redis.waiting (Member.isOf id) = 0 ∧ ∀ thread, ¬ carrying id (state.threads thread)

theorem roleOf_cases {id : JobId} {thread : SystemThread} {role : Role}
    (current : roleOf id thread = some role) :
    ¬ thread.Finished ∧ thread.session.on id ∧ thread.session.toRole = role := by
  obtain ⟨session, program⟩ := thread
  cases program with
  | pure value => cases current
  | call c next =>
    simp only [roleOf, Session.roleFor] at current
    split at current
    · next on =>
      refine ⟨?_, on, Option.some.inj current⟩
      rintro ⟨_, ended⟩
      cases ended
    · cases current

theorem roleOf_of_on {id : JobId} {thread : SystemThread} (unfinished : ¬ thread.Finished)
    (on : thread.session.on id) : roleOf id thread = some thread.session.toRole := by
  obtain ⟨session, program⟩ := thread
  cases program with
  | pure value => exact absurd ⟨value, rfl⟩ unfinished
  | call c next => exact if_pos on

theorem live_iff {id : JobId} {state : SystemState} {thread : Nat} :
    (life id state).live thread ↔ carrying id (state.threads thread) := by
  constructor
  · intro ⟨role, current, opened⟩
    obtain ⟨unfinished, on, rfl⟩ := roleOf_cases current
    exact ⟨unfinished, on, opened⟩
  · intro ⟨unfinished, on, opened⟩
    exact ⟨_, roleOf_of_on unfinished on, opened⟩

theorem tokenless_iff {id : JobId} {state : SystemState} :
    (life id state).tokenless ↔ noRecord id state := by
  simp only [Life.tokenless, noRecord, live_iff]
  rfl

/-- Where no thread works for the job, its life has no roles. -/
theorem roles_of_quiet {id : JobId} {state : SystemState} (still : quiet id state) (thread : Nat) :
    (life id state).roles thread = none := by
  cases current : (life id state).roles thread with
  | none => rfl
  | some role =>
    obtain ⟨unfinished, on, _⟩ := roleOf_cases current
    exact absurd (still thread on) unfinished

/-! ## The first state -/

/-- Empty stores and no threads. -/
def beginning (proc : Processor) : SystemState := (taskfire proc).initial .empty

theorem beginning_roles (proc : Processor) (id : JobId) (thread : Nat) :
    (life id (beginning proc)).roles thread = none := rfl

theorem beginning_row (proc : Processor) (id : JobId) : (life id (beginning proc)).row = none := rfl

theorem beginning_tokenless (proc : Processor) (id : JobId) :
    (life id (beginning proc)).tokenless := by
  refine ⟨by simp [life, Stores.life, beginning, Machine.initial, Stores.empty, Redis.empty,
    Redis.waiting], ?_⟩
  intro thread alive
  obtain ⟨role, current, -⟩ := alive
  cases current

theorem beginning_unique (proc : Processor) (id : JobId) : (life id (beginning proc)).Unique := by
  obtain ⟨empty, dead⟩ := beginning_tokenless proc id
  exact ⟨by omega, fun _ => dead, fun thread _ alive => absurd alive (dead thread),
    fun _ => ⟨empty, dead⟩⟩

/-! ## Runs and lives -/

/-- Any call may fail, and all threads start at entries that bring records of rows only. -/
def Discipline.lax (proc : Processor) : Discipline where
  strict := False
  bare := False
  settles := False
  rooted := True
  legible := False
  budget := proc.budget

/-- No call fails and records only come from rows. -/
def Discipline.whole (proc : Processor) (settles legible : Prop) : Discipline where
  strict := True
  bare := False
  settles := settles
  rooted := True
  legible := legible
  budget := proc.budget

theorem isTaskfire_of_isRooted {entry : Entry} (rooted : entry.isRooted = true) :
    entry.isTaskfire = true := by
  cases entry with
  | create | delete | retry | work | poll => rfl
  | cron | scheduleDelayed | enqueue | enqueueJob | enqueueDelayedJob | drain | claimAndRelease =>
    exact absurd rooted Bool.false_ne_true

section

variable {proc : Processor} {id : JobId} {first last : SystemState}

theorem lax_admissible {proc : Processor} {thread : Nat} {entry : Entry}
    (starting : Starting Entry.isRooted (.spawn thread entry)) :
    entry.Admissible (.lax proc) proc :=
  Entry.admissible (isTaskfire_of_isRooted starting) False.elim False.elim (fun _ => starting) rfl

/-- A run with a condition on its steps, as a run of the life of the job. -/
theorem lax_reach {runs : SystemState → SystemAction → Prop} (keeps : Life → Label → Prop)
    (run : (taskfire proc).Run runs first last) (base : Conforming (.lax proc) first)
    (starting : ∀ state action, runs state action → Starting Entry.isRooted action)
    (kept : ∀ state action label, runs state action → Shows id state action label →
      keeps (life id state) label)
    (leaves : ∀ life thread, keeps life (.leave thread)) :
    Conforming (.lax proc) last ∧
      Reach (Life.Step (.lax proc)) keeps (life id first) (life id last) :=
  life_reach run base (fun state _ _ runs => lax_admissible (starting state _ runs))
    (fun _ _ _ _ => False.elim) False.elim
    (fun state action label _ runs shows => kept state action label runs shows) leaves

/-- The same where no store call fails, though locks may expire and threads may crash. -/
theorem served_reach {runs : SystemState → SystemAction → Prop} {settles legible : Prop}
    (keeps : Life → Label → Prop) (run : (taskfire proc).Run runs (beginning proc) last)
    (settled : settles → proc.NeverErrs)
    (starting : ∀ state action, runs state action → Starting Entry.isRooted action)
    (reachable : ∀ state thread env, runs state (.exec thread env) → env.fails = false)
    (reads : legible → ∀ state action, runs state action → Legibly id state action)
    (kept : ∀ state action label, runs state action → Shows id state action label →
      keeps (life id state) label)
    (leaves : ∀ life thread, keeps life (.leave thread)) :
    Conforming (.whole proc settles legible) last ∧
      Reach (Life.Step (.whole proc settles legible)) keeps (life id (beginning proc)) (life id last) := by
  refine life_reach run (conforming_initial _ proc _) ?_
    (fun state thread env runs _ => reachable state thread env runs) reads
    (fun state action label _ runs shows => kept state action label runs shows) leaves
  intro state thread entry runs
  have rooted : entry.isRooted = true := starting state _ runs
  exact Entry.admissible (isTaskfire_of_isRooted rooted) False.elim settled (fun _ => rooted) rfl

/-- A job at rest stays there, whatever happens except a retry of a failed one. -/
theorem rests_reach {runs : SystemState → SystemAction → Prop} {status : JobStatus} {started : Nat}
    (run : (taskfire proc).Run runs first last) (base : Conforming (.lax proc) first)
    (starting : ∀ state action, runs state action → Starting Entry.isRooted action)
    (rests : (life id first).Rests status started)
    (cancellable : status = .failed ∨ status = .completed)
    (unretried : status = .failed → ∀ state action thread, runs state action →
      ¬ Does id state action thread .requeues) :
    (life id last).Rests status started := by
  obtain ⟨_, reach⟩ := lax_reach
    (fun _ label => status = .failed → ∀ thread, label ≠ .act thread .requeues) run base starting
    (by
      intro state action label runs shows failed thread requeues
      subst requeues
      exact unretried failed state action thread runs shows)
    (fun _ _ _ _ => nofun)
  refine reach.invariant (Life.Rests status started) rests ?_
  intro before label after rests kept step
  exact Life.rests_step trivial rests cancellable kept step

end

/-! ## Replayed runs -/

/-- A job named "j" with three retries and no dependencies. -/
def CreateJobInput.plain : CreateJobInput where
  jobType := "t"
  payload := "{}"
  priority := .high
  maxRetries := 3
  scheduledAt := none
  dependencies := []
  maxRetriesMin := by decide
  maxRetriesMax := by decide

/-- A job named "j" as a client of the queue would write it. -/
def Job.plain : Job where
  id := "j"
  jobType := "t"
  payload := "{}"
  priority := priorityHigh
  status := .pending
  maxRetries := 3
  retryCount := 0
  createdAt := 0
  scheduledAt := none
  startedAt := none
  completedAt := none
  failedAt := none
  errorMessage := ""
  dependencies := []

/-- The choices of an undisturbed call: a fresh id `id` where one is asked for, a handler that
returns nil, a timer that runs out. -/
def Env.calm (id : JobId) : Env where
  fails := false
  now := 0
  uuid := id
  pages := 0
  scanned := fun _ => true
  registered := true
  handler := .returnedNil
  backoff := none
  delivers := true

/-- A retry policy that gives up after the first failure of every type. -/
def Processor.impatient : Processor := ⟨some Engine.checker, ⟨fun _ => some ⟨1, by decide⟩⟩⟩

/-- An undisturbed call, but for handlers, which return an error. -/
def Env.failing (id : JobId) : Env := { Env.calm id with handler := .returned ⟨"boom", none⟩ }

/-- `count` calls of thread `thread`. -/
def calls (thread count : Nat) (env : Env) : List SystemAction :=
  List.replicate count (.exec thread env)

/-- The API creates the job, and a worker runs it. -/
def createAndWork : List SystemAction :=
  .spawn 0 (.create .plain) :: calls 0 5 (.calm "j") ++ .spawn 1 .work :: calls 1 16 (.calm "j")

/-- The step is none of the events. -/
def avoids (events : Event → Bool) (id : JobId) (state : SystemState) (action : SystemAction) :
    Bool :=
  match eventOf id state action with
  | some (_, event) => !events event
  | none => true

theorem not_does_of_avoids {events : Event → Bool} {id : JobId} {state : SystemState}
    {action : SystemAction} (avoided : avoids events id state action = true) {event : Event}
    (listed : events event = true) (thread : Nat) : ¬ Does id state action thread event := by
  intro does
  simp [avoids, eventOf_of_does does, listed] at avoided

/-- All threads have a number below `bound`. -/
def Below (bound : Nat) : SystemAction → Bool
  | .spawn thread _ => decide (thread < bound)
  | _ => true

theorem idle_beyond {proc : Processor} {runs : SystemState → SystemAction → Prop}
    {last : SystemState} {bound : Nat} (run : (taskfire proc).Run runs (beginning proc) last)
    (below : ∀ state action, runs state action → Below bound action = true) :
    ∀ thread, bound ≤ thread → last.threads thread = (taskfire proc).idle := by
  refine run.invariant (fun state => ∀ thread, bound ≤ thread →
    state.threads thread = (taskfire proc).idle) (fun _ _ => rfl) ?_
  intro before action after held kept stepped thread beyond
  cases action with
  | spawn spawned entry =>
    have lower : spawned < bound := of_decide_eq_true (below before _ kept)
    obtain ⟨_, rfl⟩ := Machine.step_spawn stepped
    rw [State.put_other _ _ (by omega)]
    exact held thread beyond
  | exec running env =>
    obtain ⟨c, next, program, rfl⟩ := Machine.step_exec stepped
    have other : thread ≠ running := by
      intro same
      subst same
      rw [held thread beyond] at program
      cases program
    rw [Machine.executed_other env c next other]
    exact held thread beyond
  | tick lock =>
    rw [Machine.step_tick stepped]
    exact held thread beyond
  | crash crashed =>
    rw [Machine.step_crash stepped]
    by_cases same : thread = crashed
    · subst same
      exact State.put_same ..
    · rw [State.put_other _ _ same]
      exact held thread beyond

/-- Every thread below `bound` has ended. -/
def quietBelow (bound : Nat) (state : SystemState) : Bool :=
  (List.range bound).all fun thread => (state.threads thread).next?.isNone

theorem quiet_of_below {proc : Processor} {bound : Nat} {id : JobId} {state : SystemState}
    (idle : ∀ thread, bound ≤ thread → state.threads thread = (taskfire proc).idle)
    (checked : quietBelow bound state = true) : quiet id state := by
  intro thread _
  by_cases beyond : bound ≤ thread
  · rw [idle thread beyond]
    exact ⟨_, rfl⟩
  · have ended := List.all_eq_true.mp checked thread (List.mem_range.mpr (Nat.not_le.mp beyond))
    cases program : (state.threads thread).program with
    | pure value => exact ⟨value, program⟩
    | call c next => simp [Thread.next?, program] at ended

/-- A run of threads below `bound` that ends when all of them have ended. -/
theorem replay_quiet (proc : Processor) (id : JobId) (bound : Nat)
    (runs : SystemState → SystemAction → Bool) (holds : SystemState → Bool)
    (actions : List SystemAction)
    (replayed : (replay (taskfire proc).step
      (fun state action => runs state action && Below bound action) (beginning proc) actions).any
        (fun last => quietBelow bound last && holds last) = true) :
    ∃ last, (taskfire proc).Run (fun state action => runs state action = true) (beginning proc)
      last ∧ quiet id last ∧ holds last = true := by
  obtain ⟨last, run, checked⟩ := replay_reaches _ (fun _ _ checked => checked) actions _ replayed
  obtain ⟨finished, holds⟩ := Bool.and_eq_true .. ▸ checked
  have idle := idle_beyond run fun _ _ checked => (Bool.and_eq_true .. ▸ checked).2
  have kept := run.mono fun _ _ checked => (Bool.and_eq_true .. ▸ checked).1
  exact ⟨last, kept, quiet_of_below idle finished, holds⟩

def carries (id : JobId) (thread : SystemThread) : Bool :=
  match thread.program with
  | .pure _ => false
  | .call _ _ => decide (thread.session.job = some id) && thread.session.token.isOpen

/-- `noRecord`, computed for threads below `bound`. -/
def noRecordBelow (bound : Nat) (id : JobId) (state : SystemState) : Bool :=
  decide (state.store.redis.waiting (Member.isOf id) = 0) &&
    (List.range bound).all fun thread => !carries id (state.threads thread)

theorem noRecord_of_below {proc : Processor} {bound : Nat} {id : JobId} {state : SystemState}
    (idle : ∀ thread, bound ≤ thread → state.threads thread = (taskfire proc).idle)
    (checked : noRecordBelow bound id state = true) : noRecord id state := by
  obtain ⟨empty, all⟩ := Bool.and_eq_true .. ▸ checked
  refine ⟨of_decide_eq_true empty, fun thread ⟨unfinished, on, opened⟩ => ?_⟩
  by_cases beyond : bound ≤ thread
  · rw [idle thread beyond] at unfinished
    exact unfinished ⟨_, rfl⟩
  · have free := List.all_eq_true.mp all thread (List.mem_range.mpr (Nat.not_le.mp beyond))
    cases program : (state.threads thread).program with
    | pure value => exact unfinished ⟨value, program⟩
    | call c next =>
      have named : (state.threads thread).session.job = some id := on
      simp [carries, program, named, opened] at free

/-- A run of ordinary steps. -/
theorem ordinary_reaches (proc : Processor) (entries : Entry → Bool) (first : SystemState)
    (actions : List SystemAction) (holds : SystemState → Bool)
    (replayed : (replay (taskfire proc).step (fun _ action => decide (Ordinary entries action)) first
      actions).any holds = true) :
    ∃ last, (taskfire proc).Run (fun _ action => Ordinary entries action) first last ∧
      holds last = true :=
  replay_reaches _ (fun _ _ checked => of_decide_eq_true checked) actions holds replayed

end Taskfire
