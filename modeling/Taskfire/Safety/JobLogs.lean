import Taskfire.Model.JobLogs
import Taskfire.Safety.Executions
import Taskfire.Safety.Records
import Taskfire.Snapshot.Grounds

/-!
# The attempt that the log reports

The log of a job reports one attempt more than its row counts retries.  While the row is active or
completed this is how often it was marked active since it was created or last reset; a dead row
already counts the attempt that has failed.  `attempts_told_iff` compares it with how often the
handler was started since then.
-/

namespace Taskfire

open Taskfire.Library

/-! ## The system -/

section

variable {id : JobId} {session : Session} {executions : Executions} {stores : Stores} {env : Env}

/-- What a thread does to the job in order, it may do. -/
theorem may_of_mayCall {c : Call} {reply : c.Reply} (permitted : session.mayCall c)
    (uncancelled : c.event id session reply ≠ .cancels)
    (written : ∀ status, c.event id session reply ≠ .failsToMark status) :
    session.toRole.may (c.event id session reply) := by
  cases c with
  | updateJobStatus job =>
    simp only [event_updateJobStatus] at written ⊢
    split
    · split
      · exact permitted.1
      · next own failed => simp [own, failed] at written
    · exact trivial
  | command command =>
    cases command with
    | zadd key score member =>
      simp only [event_command, Command.event]
      split
      · split
        · exact trivial
        · next lane => exact permitted lane
      · exact trivial
    | zrem | hdelProcessing | delLock =>
      simp only [event_command, Command.event]
      repeat' split
      all_goals exact trivial
    | lpushDone | ltrimDone | publish => exact trivial
  | cancelJob job =>
    obtain error | _ | row := reply
    · exact trivial
    · exact trivial
    · simp only [event_cancelJob_some] at uncancelled ⊢
      split
      · next own => exact absurd (if_pos own) uncancelled
      · exact trivial
  | requeueJob job | claim =>
    obtain error | _ | found := reply
    · exact trivial
    · exact trivial
    · simp only [event_requeueJob_some, event_claim_some]
      split <;> exact trivial
  | insertJob | drainDelayed | randomUUID | findHandler | startHandler | awaitHandler =>
    simp only [event_insertJob, event_drainDelayed, event_randomUUID, event_findHandler,
      event_startHandler, event_awaitHandler]
    split <;> exact trivial
  | _ => exact trivial

theorem requeueJob_replied {resetRetries : Bool} {row : Row}
    (replied : (perform env stores (.requeueJob id resetRetries)).1 = .ok (some row)) :
    ∃ old, stores.jobs id = some old ∧ old.status ∈ [.failed, .dead] ∧
      row = old.requeued resetRetries ∧
      (perform env stores (.requeueJob id resetRetries)).2.jobs id = some row := by
  obtain ⟨_, _, failing, performed⟩ | performed :=
    perform_cases env stores (.requeueJob id resetRetries)
  · cases failing
    rw [performed] at replied
    cases replied
  · rw [performed] at replied ⊢
    simp only [performStore, Jobs.requeueJob] at replied ⊢
    cases found : stores.jobs id with
    | none => simp [found] at replied
    | some old =>
      simp only [found] at replied ⊢
      split at replied
      · next retriable =>
        simp only [Except.ok.injEq, Option.some.injEq] at replied
        subst replied
        refine ⟨old, rfl, retriable, rfl, ?_⟩
        simp [retriable]
      · simp at replied

/-- A row that is requeued starts at the count, or the count at nothing. -/
theorem requeueJob_follows {job : JobId} {resetRetries : Bool} {life : Life}
    (counts : ∀ row, stores.jobs id = some row → row.counts executions)
    (row : life.row = (perform env stores (.requeueJob job resetRetries)).2.jobs id) :
    Life.Follows executions
      (executions.after id (.requeueJob job resetRetries) (perform env stores (.requeueJob job resetRetries)).1)
      life
      (Call.event id session (.requeueJob job resetRetries)
        (perform env stores (.requeueJob job resetRetries)).1) := by
  cases replied : (perform env stores (.requeueJob job resetRetries)).1 with
  | error error => exact rfl
  | ok found =>
    cases found with
    | none => exact rfl
    | some new =>
      simp only [event_requeueJob_some, Executions.after]
      by_cases own : job = id
      · subst own
        obtain ⟨old, found, retriable, same, written⟩ := requeueJob_replied replied
        rw [written] at row
        rw [if_pos rfl]
        simp only [true_and]
        have count : old.retryCount = executions.marked := by
          have counted := counts old found
          simp only [List.mem_cons, List.not_mem_nil, or_false] at retriable
          obtain failed | dead := retriable
          · simp only [Row.counts, failed] at counted
          · simpa only [Row.counts, dead] using counted
        have rows {after : Executions} (reset : after = .fresh ∨ after = executions)
            (counts : new.retryCount = after.marked) :
            Life.Follows executions after life .requeues := by
          refine ⟨reset, fun current now => ?_⟩
          rw [row, Option.some.injEq] at now
          rwa [← now]
        cases resetRetries with
        | true => exact rows (.inl rfl) (by rw [same]; rfl)
        | false => exact rows (.inr rfl) (by rw [same]; exact count)
      · rw [if_neg own, if_neg fun both => own both.1]
        exact rfl

/-- What a call adds to the count is what its event does. -/
theorem executions_follow {c : Call} {life : Life}
    (counts : ∀ row, stores.jobs id = some row → row.counts executions)
    (row : life.row = (perform env stores c).2.jobs id) :
    Life.Follows executions (executions.after id c (perform env stores c).1) life
      (c.event id session (perform env stores c).1) := by
  cases c with
  | requeueJob job resetRetries => exact requeueJob_follows counts row
  | insertJob params =>
    simp only [event_insertJob, Executions.after]
    split
    · exact rfl
    · exact rfl
  | updateJobStatus job =>
    simp only [event_updateJobStatus, Executions.after]
    by_cases own : job.id = id
    · by_cases ok : (perform env stores (.updateJobStatus job)).1.isOk = true
      · rw [if_pos own, if_pos ok, if_pos ⟨own, ok⟩]
        exact rfl
      · rw [if_pos own, if_neg ok, if_neg fun both => ok both.2]
        exact rfl
    · rw [if_neg own, if_neg fun both => own both.1]
      exact rfl
  | startHandler job =>
    simp only [event_startHandler, Executions.after]
    split
    · exact rfl
    · exact rfl
  | command command =>
    generalize (perform env stores (.command command)).1 = reply
    cases command with
    | zadd | zrem | hdelProcessing | delLock =>
      simp only [event_command, Command.event]
      repeat' split
      all_goals exact rfl
    | lpushDone | ltrimDone | publish => exact rfl
  | cancelJob job =>
    obtain error | _ | row := (perform env stores (.cancelJob job)).1
    · exact rfl
    · exact rfl
    · simp only [event_cancelJob_some]
      split <;> exact rfl
  | claim =>
    obtain error | _ | member := (perform env stores .claim).1
    · exact rfl
    · exact rfl
    · simp only [event_claim_some]
      split <;> exact rfl
  | drainDelayed | randomUUID | findHandler | awaitHandler =>
    simp only [event_drainDelayed, event_randomUUID, event_findHandler, event_awaitHandler]
    split <;> exact rfl
  | _ => exact rfl

end

/-- The step brings no record of the job that does not come from its row, does not cancel the job, and
writes its row if it tries to. -/
structure Retried (id : JobId) (state : SystemState) (action : SystemAction) : Prop where
  starting : Starting Entry.isTaskfire action
  own : ∀ thread, ¬Does id state action thread (.enters .owed)
  uncancelled : ∀ thread, ¬Does id state action thread .cancels
  written : ∀ thread status, ¬Does id state action thread (.failsToMark status)

/-- The system with the count of the job's executions. -/
def counting (proc : Processor) (id : JobId) :
    SystemState × Executions → SystemAction → Option (SystemState × Executions) :=
  chronicle (taskfire proc).step (Executions.record id)

structure Tallied (proc : Processor) (id : JobId) (current : SystemState × Executions) : Prop where
  conforming : Conforming (.free proc False) current.1
  ordered : ∀ thread, Ordered (current.1.threads thread).session (current.1.threads thread).program
  counted : (life id current.1).Accounted current.2
  waiting : ∀ row, current.1.store.jobs id = some row → row.status = .pending → row.startedAt = none

section

variable {proc : Processor} {id : JobId} {d : Discipline} {middle last : Life}
variable {executions : Executions}

variable {threads : Nat → SystemThread}

theorem MayLeave.row (left : MayLeave d id threads middle last) : middle.row = last.row := by
  obtain same | ⟨thread, _, _, step⟩ := left
  · rw [same]
  · cases step with
    | leaves => rfl

theorem MayLeave.counted (left : MayLeave d id threads middle last)
    (counted : middle.Accounted executions) : last.Accounted executions := by
  obtain same | ⟨thread, _, _, step⟩ := left
  · rwa [same]
  · have kept : middle.Retried (.leave thread) := by
      constructor
      · intro _ brings
        cases brings
      · intro _ _ _ acts
        cases acts
    exact Life.accounted_step counted kept step rfl

/-- A thread that has ended does not leave the handler of the job to be started. -/
theorem MayLeave.caughtUp (left : MayLeave d id threads middle last)
    (ordered : ∀ thread, Ordered (threads thread).session (threads thread).program)
    (caught : middle.CaughtUp executions) : last.CaughtUp executions := by
  obtain same | ⟨thread, ⟨value, ended⟩, role, step⟩ := left
  · rwa [same]
  · have calm : ¬(threads thread).session.toRole.awaits :=
      (ended ▸ ordered thread : Ordered _ (.pure value))
    cases step with
    | leaves =>
      refine caught.turn rfl ?_
      rintro ⟨held, current, awaits⟩
      rw [role, Session.roleFor] at current
      split at current
      · cases current
        exact absurd awaits calm
      · cases current

variable {before after : SystemState × Executions} {action : SystemAction}

theorem starts_taskfire (starting : Starting Entry.isTaskfire action) {thread : Nat} {entry : Entry}
    (acts : action = .spawn thread entry) : entry.isTaskfire = true := by
  rwa [acts] at starting

theorem admissible_of_starting (starting : Starting Entry.isTaskfire action) (thread : Nat)
    (entry : Entry) (acts : action = .spawn thread entry) : entry.Admissible (.free proc False) proc :=
  Entry.admissible (starts_taskfire starting acts) False.elim False.elim False.elim rfl

/-- What a step of the system is to the job, its thread may do. -/
theorem Tallied.retried {label : Label} (tallied : Tallied proc id before) (kept : Retried id before.1 action)
    (shows : Shows id before.1 action label) : (life id before.1).Retried label := by
  constructor
  · intro thread brings
    subst brings
    exact kept.own thread shows
  · intro thread event role acts current
    subst acts
    obtain ⟨_, _, same⟩ := roleOf_cases current
    subst same
    have uncancelled : event ≠ .cancels := by
      intro cancels
      subst cancels
      exact kept.uncancelled thread shows
    have written (status : JobStatus) : event ≠ .failsToMark status := by
      intro fails
      subst fails
      exact kept.written thread status shows
    cases shows with
    | spawn on => exact trivial
    | vain => exact trivial
    | exec program =>
      have permitted := (program ▸ tallied.ordered thread : Ordered _ (.call _ _)).1
      exact may_of_mayCall permitted uncancelled written

/-- A ZREM of a member that is not there is not counted. -/
theorem executions_of_vain {stores : Stores} {c : Call} {reply : c.Reply}
    {executions : Executions} (vain : c.vain stores = true) :
    executions.after id c reply = executions := by
  cases c with
  | command command => rfl
  | _ => cases vain

theorem Tallied.records {label : Label} (tallied : Tallied proc id before)
    (stepped : (taskfire proc).step before.1 action = some after.1)
    (recorded : after.2 = Executions.record id before.2 before.1 action)
    (shows : Shows id before.1 action label) (row : middle.row = after.1.store.jobs id) :
    Life.Records before.2 after.2 middle label := by
  cases shows with
  | spawn on => exact recorded
  | crash => exact recorded
  | expire => exact recorded
  | @vain thread env c next program vain =>
    have upcoming : (before.1.threads thread).next? = some c := by
      simp only [Thread.next?, program]
    rw [recorded, Executions.record]
    simp only [upcoming]
    exact executions_of_vain vain
  | @exec thread env c next program =>
    obtain ⟨_, _, same, moved⟩ := Machine.step_exec stepped
    rw [program] at same
    cases same
    have upcoming : (before.1.threads thread).next? = some c := by
      simp only [Thread.next?, program]
    rw [recorded, Executions.record]
    simp only [upcoming]
    apply executions_follow tallied.counted.row
    rw [row, moved]
    rfl

/-- A row that waits has no start. -/
theorem Tallied.unstarted (tallied : Tallied proc id before)
    (stepped : (taskfire proc).step before.1 action = some after.1) {row : Row}
    (found : after.1.store.jobs id = some row) (pending : row.status = .pending) :
    row.startedAt = none := by
  obtain same | ⟨lock, ticked⟩ | ⟨thread, env, c, next, acts, program, moved⟩ :=
    Machine.step_store stepped
  · rw [same] at found
    exact tallied.waiting row found pending
  · rw [ticked] at found
    exact tallied.waiting row found pending
  · have permitted := (program ▸ tallied.ordered thread : Ordered _ (.call c next)).1
    have step : RowStep id c (before.1.store.jobs id) (some row) := by
      rw [← found, moved]
      exact perform_row env before.1.store c id
    generalize old : before.1.store.jobs id = previous at step
    cases step with
    | stays => exact tallied.waiting row old pending
    | inserts | requeues => rfl
    | cancels cancellable => cases pending
    | updates within own => exact permitted.2 pending

/-- What a step of the system is to the job, with what it adds to the count. -/
theorem Tallied.cases (tallied : Tallied proc id before) (starting : Starting Entry.isTaskfire action)
    (moved : counting proc id before action = some after) :
    ∃ middle, MayLeave (.free proc False) id after.1.threads middle (life id after.1) ∧
      ((middle = life id before.1 ∧ after.2 = before.2) ∨
        ∃ label, Shows id before.1 action label ∧
          Life.Step (.free proc False) (life id before.1) label middle ∧
          Life.Records before.2 after.2 middle label) := by
  obtain ⟨stepped, recorded⟩ := chronicle_eq_some moved
  obtain ⟨middle, left, ⟨thread, entry, acts, same⟩ | ⟨label, shows, step⟩⟩ :=
    @life_cases _ _ id _ _ _ tallied.conforming stepped (admissible_of_starting starting)
      (fun _ _ _ => False.elim) False.elim
  · subst acts
    exact ⟨middle, left, .inl ⟨same, recorded⟩⟩
  · exact ⟨middle, left, .inr ⟨label, shows, step,
      tallied.records stepped recorded shows left.row⟩⟩

theorem tallied_step (tallied : Tallied proc id before) (kept : Retried id before.1 action)
    (moved : counting proc id before action = some after) : Tallied proc id after := by
  obtain ⟨stepped, recorded⟩ := chronicle_eq_some moved
  constructor
  · exact conforming_step tallied.conforming stepped (admissible_of_starting kept.starting)
      fun _ _ _ => False.elim
  · refine Machine.step_follows stepped tallied.ordered ?_ ?_ fun _ _ _ _ _ => trivial
    · exact fun awaits => Token.noConfusion awaits.1
    · exact fun thread entry acts => Entry.ordered (starts_taskfire kept.starting acts)
  · obtain ⟨middle, left, ⟨same, still⟩ | ⟨label, shows, step, records⟩⟩ :=
      tallied.cases kept.starting moved
    · rw [still]
      exact left.counted (same ▸ tallied.counted)
    · exact left.counted (Life.accounted_step tallied.counted (tallied.retried kept shows) step records)
  · exact fun row found pending => tallied.unstarted stepped found pending

theorem beginning_accounted (proc : Processor) (id : JobId) :
    (life id (beginning proc)).Accounted .fresh := by
  have none := beginning_tokenless proc id
  have empty (brief : Brief) : ¬(life id (beginning proc)).carried brief := by
    simp [life, Stores.life, beginning, Machine.initial, Stores.empty, Redis.empty, Redis.waiting]
  constructor
  · exact beginning_unique proc id
  · exact fun _ => none
  · exact fun brief carried => absurd carried (empty brief)
  · exact Nat.le_refl 0
  · intro row found
    rw [beginning_row] at found
    cases found
  · exact fun brief carried => absurd carried (empty brief)
  · intro thread role current
    rw [beginning_roles] at current
    cases current

theorem tallied_beginning (proc : Processor) (id : JobId) : Tallied proc id (beginning proc, .fresh) := by
  constructor
  · exact conforming_initial (.free proc False) proc _
  · exact fun _ awaits => Token.noConfusion awaits.1
  · exact beginning_accounted proc id
  · intro row found
    cases found

/-- The attempt that the log reports. -/
theorem Tallied.reports {state : SystemState} (tallied : Tallied proc id (state, executions)) {row : Row}
    (found : state.store.jobs id = some row) {logs : List JobLog}
    (read : Api.getJobLogs state.store.jobs id = some logs) {log : JobLog} (listed : log ∈ logs)
    (started : log.event = "started") :
    log.detail = some (Api.attemptDetail executions.started (row.maxRetries + 1)) ↔
      row.status ≠ .dead ∧ executions.started = executions.marked := by
  rw [Api.getJobLogs, found] at read
  obtain ⟨begun, detail⟩ := Api.started_of_mem read listed started
  have reports : log.detail = some (Api.attemptDetail executions.started (row.maxRetries + 1)) ↔
      row.retryCount + 1 = executions.started := by
    rw [detail, Option.some.injEq]
    exact ⟨Api.attemptDetail_injective, fun same => by rw [same]⟩
  rw [reports]
  have counts : row.counts executions := tallied.counted.row row found
  have bound : executions.started ≤ executions.marked := tallied.counted.started
  cases status : row.status with
  | pending =>
    rw [tallied.waiting row found status] at begun
    cases begun
  | active | completed =>
    simp only [Row.counts, status] at counts
    rw [counts]
    simp [eq_comm]
  | dead =>
    -- The failed attempt is counted, and no attempt was started after it.
    simp only [Row.counts, status] at counts
    have late : row.retryCount + 1 ≠ executions.started := by omega
    simp [late]
  | failed => simp only [Row.counts, status] at counts

/-- Where the log has an entry for the start of the job, the attempt it reports is the number of
handler starts exactly when the job is not dead and every time its row was marked active the handler
was then started. -/
theorem attempts_told_iff {last : SystemState}
    (run : Reach (Moves (counting proc id)) (fun current action => Retried id current.1 action)
      (beginning proc, .fresh) (last, executions))
    {row : Row} (found : last.store.jobs id = some row) {logs : List JobLog}
    (read : Api.getJobLogs last.store.jobs id = some logs) {log : JobLog} (listed : log ∈ logs)
    (started : log.event = "started") :
    log.detail = some (Api.attemptDetail executions.started (row.maxRetries + 1)) ↔
      row.status ≠ .dead ∧ executions.started = executions.marked := by
  have tallied : Tallied proc id (last, executions) :=
    run.invariant (Tallied proc id) (tallied_beginning proc id)
      fun _ _ _ tallied kept moved => tallied_step tallied kept moved
  exact tallied.reports found read listed started

/-! ## Jobs whose handler is found -/

/-- The job has a handler, and no thread stops between the update that marks its row active and the
start of the handler. -/
structure Attended (id : JobId) (state : SystemState) (action : SystemAction) : Prop where
  found : ∀ thread, ¬Does id state action thread .misses
  stays : ∀ thread role, action = .crash thread → roleOf id (state.threads thread) = some role →
    ¬role.awaits

/-- A thread is between that update and the start of the handler. -/
def aboutToStart (id : JobId) (state : SystemState) : Prop :=
  ∃ thread role, roleOf id (state.threads thread) = some role ∧ role.awaits

structure Prompt (proc : Processor) (id : JobId) (current : SystemState × Executions) : Prop where
  tallied : Tallied proc id current
  caughtUp : (life id current.1).CaughtUp current.2

theorem Attended.life {state : SystemState} {label : Label} (attended : Attended id state action)
    (shows : Shows id state action label) : (life id state).Attended label := by
  constructor
  · intro thread misses
    subst misses
    exact attended.found thread shows
  · rintro thread role (crashes | leaves) current
    · subst crashes
      cases shows with
      | crash => exact attended.stays thread role rfl current
    · subst leaves
      cases shows

theorem prompt_step (prompt : Prompt proc id before) (kept : Retried id before.1 action)
    (attended : Attended id before.1 action) (moved : counting proc id before action = some after) :
    Prompt proc id after := by
  have tallied := tallied_step prompt.tallied kept moved
  refine ⟨tallied, ?_⟩
  obtain ⟨middle, left, ⟨same, still⟩ | ⟨label, shows, step, records⟩⟩ :=
    prompt.tallied.cases kept.starting moved
  · rw [still]
    exact left.caughtUp tallied.ordered (same ▸ prompt.caughtUp)
  · have caught := Life.caughtUp_step (d := .free proc False) False.elim prompt.caughtUp prompt.tallied.counted
      (prompt.tallied.retried kept shows) (attended.life shows) step records
    exact left.caughtUp tallied.ordered caught

/-- A handler that is about to be started was not started as often as the row was marked. -/
theorem Tallied.late {state : SystemState} (tallied : Tallied proc id (state, executions))
    (about : aboutToStart id state) : executions.started < executions.marked := by
  obtain ⟨thread, role, current, active, due⟩ := about
  have counts := tallied.counted.held thread role current
  simp only [Role.counts, active, due] at counts
  exact counts.2

/-- The log of a job that has a handler reports how often it was started, unless the job is dead or the
handler is about to be started. -/
theorem attempts_told {last : SystemState}
    (run : Reach (Moves (counting proc id))
      (fun current action => Retried id current.1 action ∧ Attended id current.1 action)
      (beginning proc, .fresh) (last, executions))
    {row : Row} (found : last.store.jobs id = some row) {logs : List JobLog}
    (read : Api.getJobLogs last.store.jobs id = some logs) {log : JobLog} (listed : log ∈ logs)
    (started : log.event = "started") :
    log.detail = some (Api.attemptDetail executions.started (row.maxRetries + 1)) ↔
      row.status ≠ .dead ∧ ¬aboutToStart id last := by
  have prompt : Prompt proc id (last, executions) :=
    run.invariant (Prompt proc id) ⟨tallied_beginning proc id, .inl rfl⟩
      fun _ _ _ prompt kept moved => prompt_step prompt kept.1 kept.2 moved
  have even : executions.started = executions.marked ↔ ¬aboutToStart id last := by
    constructor
    · intro even about
      have late := prompt.tallied.late about
      omega
    · exact prompt.caughtUp.settled
  rw [prompt.tallied.reports found read listed started, even]

end

/-! ## Examples -/

/-- The event brings a record without a row, cancels the job or fails to mark its row. -/
def Event.disturbs : Event → Bool
  | .enters .owed | .cancels | .failsToMark _ => true
  | _ => false

/-- `Retried`, computed. -/
def retried (state : SystemState) (action : SystemAction) : Bool :=
  decide (Starting Entry.isTaskfire action) &&
    avoids Event.disturbs "j" state action

theorem retried_sound {state : SystemState} {action : SystemAction}
    (checked : retried state action = true) : Retried "j" state action := by
  obtain ⟨starting, avoided⟩ := Bool.and_eq_true .. ▸ checked
  exact ⟨of_decide_eq_true starting, not_does_of_avoids avoided rfl, not_does_of_avoids avoided rfl,
    fun thread _ => not_does_of_avoids avoided rfl thread⟩

/-- The log tells of a start of job "j". -/
def tellsOfStart (state : SystemState) : Bool :=
  (state.store.jobs "j").isSome && (Api.getJobLogs state.store.jobs "j").any fun logs =>
    logs.any fun log => decide (log.event = "started")

theorem tellsOfStart_iff {state : SystemState} (tells : tellsOfStart state = true) :
    ∃ row logs log, state.store.jobs "j" = some row ∧
      Api.getJobLogs state.store.jobs "j" = some logs ∧ log ∈ logs ∧ log.event = "started" := by
  obtain ⟨present, logged⟩ := Bool.and_eq_true .. ▸ tells
  obtain ⟨row, found⟩ := Option.isSome_iff_exists.mp present
  obtain ⟨logs, read, entry⟩ := (Option.any_eq_true ..).mp logged
  obtain ⟨log, listed, started⟩ := List.any_eq_true.mp entry
  exact ⟨row, logs, log, found, read, listed, of_decide_eq_true started⟩

/-- A request for a job named "j" with five retries, and a worker that takes it `cycles` times. -/
def createAndFail (cycles : Nat) : List SystemAction :=
  .spawn 0 (.create { CreateJobInput.plain with
    maxRetries := 5, maxRetriesMin := by decide, maxRetriesMax := by decide }) ::
    calls 0 5 (.calm "j") ++ (List.replicate cycles (.spawn 1 .work :: calls 1 18 (.failing "j"))).flatten

/-- The job fails once, and its second attempt completes it. -/
theorem attempts_told_second : ∃ (last : SystemState) (row : Row) (logs : List JobLog) (log : JobLog),
    last.store.jobs "j" = some row ∧ Api.getJobLogs last.store.jobs "j" = some logs ∧ log ∈ logs ∧
      log.event = "started" ∧ log.detail = some (Api.attemptDetail 2 (row.maxRetries + 1)) := by
  have reached : ∃ last, Reach (Moves (counting .wired "j"))
      (fun current action => Retried "j" current.1 action) (beginning .wired, .fresh) last ∧
      (tellsOfStart last.1 && decide (last.1.store.status "j" = some .completed ∧
        last.2.started = 2 ∧ last.2.marked = 2)) = true :=
    replay_reaches (fun (current : SystemState × Executions) action => retried current.1 action)
      (fun _ _ checked => retried_sound checked)
      (createAndFail 1 ++ .spawn 1 .work :: calls 1 15 (.calm "j")) _ (by decide +kernel)
  obtain ⟨⟨last, executions⟩, run, checked⟩ := reached
  obtain ⟨tells, counted⟩ := Bool.and_eq_true .. ▸ checked
  obtain ⟨completed, started, marked⟩ := of_decide_eq_true counted
  obtain ⟨row, logs, log, found, read, listed, entry⟩ := tellsOfStart_iff tells
  have alive : row.status ≠ .dead := by
    rw [Stores.status, found, Option.map_some, Option.some.injEq] at completed
    rw [completed]
    decide
  have told := (attempts_told_iff run found read listed entry).mpr
    ⟨alive, started.trans marked.symm⟩
  rw [started] at told
  exact ⟨last, row, logs, log, found, read, listed, entry, told⟩

/-- The handler of a job with five retries fails five times; its log tells of a sixth attempt. -/
theorem dead_attempt_overstated : ∃ (last : SystemState) (executions : Executions) (row : Row)
    (logs : List JobLog) (log : JobLog),
    Reach (Moves (counting .wired "j")) (fun current action =>
      Ordinary Entry.isTaskfire action ∧ Retried "j" current.1 action) (beginning .wired, .fresh)
      (last, executions) ∧
    last.store.jobs "j" = some row ∧ Api.getJobLogs last.store.jobs "j" = some logs ∧ log ∈ logs ∧
      log.event = "started" ∧ executions.started = 5 ∧
      log.detail = some (Api.attemptDetail 6 (row.maxRetries + 1)) := by
  have reached : ∃ last, Reach (Moves (counting .wired "j")) (fun current action =>
      Ordinary Entry.isTaskfire action ∧ Retried "j" current.1 action) (beginning .wired, .fresh)
      last ∧ (tellsOfStart last.1 && decide (last.2.started = 5 ∧
        (last.1.store.jobs "j").map Row.retryCount = some 5)) = true :=
    replay_reaches (fun (current : SystemState × Executions) action =>
        decide (Ordinary Entry.isTaskfire action) && retried current.1 action)
      (fun _ _ checked => by
        obtain ⟨ordinary, kept⟩ := Bool.and_eq_true .. ▸ checked
        exact ⟨of_decide_eq_true ordinary, retried_sound kept⟩)
      (createAndFail 4 ++ .spawn 1 .work :: calls 1 19 (.failing "j")) _ (by decide +kernel)
  obtain ⟨⟨last, executions⟩, run, checked⟩ := reached
  obtain ⟨tells, counted⟩ := Bool.and_eq_true .. ▸ checked
  obtain ⟨started, retries⟩ := of_decide_eq_true counted
  obtain ⟨row, logs, log, found, read, listed, entry⟩ := tellsOfStart_iff tells
  have five : row.retryCount = 5 := by
    rw [found, Option.map_some, Option.some.injEq] at retries
    exact retries
  have reading := read
  rw [Api.getJobLogs, found] at reading
  obtain ⟨_, detail⟩ := Api.started_of_mem reading listed entry
  rw [five] at detail
  exact ⟨last, executions, row, logs, log, run, found, read, listed, entry, started, detail⟩

end Taskfire
