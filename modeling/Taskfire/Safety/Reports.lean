import Taskfire.Library.Notes
import Taskfire.Safety.Calls
import Taskfire.Safety.Completion
import Taskfire.Safety.DoneList
import Taskfire.Snapshot.Grounds

/-!
# Reports of success

A job is reported completed in its row, on the event stream and in the list of completed jobs.  The
worker writes all three after a handler returned nil, each from the record it carries, and nothing
else writes any of them.  The note of a thread is the job whose handler last returned nil in it.
-/

namespace Taskfire

open Taskfire.Library

/-! ## What tells of a success -/

def JobEvent.succeeds (event : JobEvent) : Prop :=
  event.type = .completed ∨ event.status = .completed

/-- What the stores tell of jobs that completed was so. -/
structure Stores.Sound (stores : Stores) : Prop where
  rows : ∀ id row, stores.jobs id = some row → row.status = .completed →
    stores.ledger.succeeded id = true
  events : ∀ event ∈ stores.ledger.events, event.succeeds →
    stores.ledger.succeeded event.jobId = true
  done : ∀ member ∈ stores.redis.done, ∃ id, member.id? = some id ∧
    stores.ledger.succeeded id = true

namespace Passed

/-- The calls of a thread in which a handler of job `passed` has returned nil. -/
def permits (passed : Option JobId) : Call → Prop
  | .updateJobStatus job => job.status = .completed → passed = some job.id
  | .command (.publish event) => event.succeeds → passed = some event.jobId
  | .command (.lpushDone member) => ∃ id, member.id? = some id ∧ passed = some id
  | _ => True

def advance (passed : Option JobId) : (c : Call) → c.Reply → Option JobId
  | .awaitHandler job, outcome => if outcome = .returnedNil then some job.id else passed
  | _, _ => passed

def notes : Notes Call Call.Reply Entry (Option JobId) where
  advance := advance
  start := fun _ => none
  rest := none

end Passed

/-- The program reports a success only after one. -/
abbrev Reports {α : Type} (passed : Option JobId) (program : Prog α) : Prop :=
  program.Follows Passed.permits Passed.advance (fun _ _ => True) (fun _ _ => True) passed

section

variable {passed : Option JobId}

/-- What is done for a job that is not to complete. -/
theorem reports_of_working {α : Type} {program : Prog α} {statuses : List JobStatus}
    (uses : program.Uses (Call.working statuses)) (fails : .completed ∉ statuses) :
    Reports passed program := by
  have returns : program.Returns (fun _ _ => True) fun _ => True :=
    Program.returns_of_forall _ fun _ => trivial
  apply (uses.follows (σ := Option JobId) returns ?_ ?_).mono fun _ _ _ => trivial
  · intro c working
    cases c with
    | updateJobStatus job => exact fun completed => absurd (completed ▸ working) fails
    | command command =>
      cases command with
      | publish event =>
        obtain ⟨listed, told⟩ := working
        rintro (type | status)
        · rw [← told, type] at listed
          exact absurd listed fails
        · exact absurd (status ▸ listed) fails
      | lpushDone member => exact absurd working fails
      | _ => exact trivial
    | _ => exact trivial
  · intro c reply working
    cases c with
    | awaitHandler job => exact absurd working fails
    | _ => rfl

theorem Reports.bind {α β : Type} {program : Prog α} {next : α → Prog β}
    (reports : Reports passed program) (rest : ∀ value last, Reports last (next value)) :
    Reports passed (program >>= next) :=
  Program.Follows.bind reports fun value last _ => rest value last

/-! ## The worker -/

/-- The success path reports three times, always the job whose handler returned nil. -/
theorem complete_reports (job : Job) : Reports (some job.id) (Processor.complete job) := by
  refine ⟨trivial, fun now _ => ⟨trivial, fun _ _ => ⟨fun _ => rfl, fun _ _ =>
    ⟨fun _ => rfl, fun _ _ => ?_⟩⟩⟩⟩
  refine ⟨trivial, fun _ _ => ⟨trivial, fun _ _ => ⟨⟨job.id, ?_, rfl⟩, fun _ _ =>
    ⟨trivial, fun _ _ => trivial⟩⟩⟩⟩
  exact Job.marshal_id? _

theorem runHandler_reports {proc : Processor} (job : Job) : Reports passed (proc.runHandler job) := by
  have failed (passed : Option JobId) (cause : GoError) :
      Reports passed (proc.handleFailure job cause) :=
    reports_of_working (@handleFailure_calls [.pending, .dead] proc job cause (by decide) (by decide)).uses
      (by decide)
  refine ⟨trivial, fun found _ => ?_⟩
  cases found with
  | false => exact ⟨trivial, fun _ _ => failed _ _⟩
  | true =>
    refine ⟨trivial, fun _ _ => ⟨trivial, fun outcome _ => ?_⟩⟩
    cases outcome with
    | returnedNil => exact complete_reports job
    | returned error => exact ⟨trivial, fun _ _ => failed _ error⟩
    | panicked value => exact ⟨trivial, fun _ _ => failed _ _⟩

theorem process_reports {proc : Processor} (job : Job) : Reports passed (proc.process job) := by
  have checks : (proc.canRun job).Uses (Call.working []) :=
    (proc.canRun_uses job).mono fun _ => working_of_readsDeps
  apply (reports_of_working checks List.not_mem_nil).bind
  intro outcome last
  cases outcome with
  | error error =>
    exact (reports_of_working (nack_calls job).uses List.not_mem_nil).bind fun _ _ => trivial
  | ok allowed =>
    cases allowed with
    | false => exact reports_of_working (putOff_calls job).uses List.not_mem_nil
    | true =>
      simp only [Processor.execute, publishEvent, Program.perform_bind, Program.call_bind,
        Program.pure_eq, Program.pure_bind, Program.follows_call]
      refine ⟨trivial, fun now _ => ⟨JobStatus.noConfusion, fun _ _ => ⟨?_, fun _ _ => ?_⟩⟩⟩
      · rintro (type | status)
        · cases type
        · cases status
      · exact runHandler_reports _

theorem fetchAndProcess_reports {proc : Processor} : Reports passed proc.fetchAndProcess := by
  have receives : Reports passed dequeue := by
    rw [dequeue_eq]
    exact ⟨trivial, fun _ _ => trivial⟩
  apply receives.bind
  intro outcome passed
  obtain error | _ | job := outcome
  · exact trivial
  · exact trivial
  · simp only [Program.perform_bind, Program.follows_call]
    refine ⟨trivial, fun delivered _ => ?_⟩
    cases delivered with
    | true => exact (process_reports job).bind fun _ _ => trivial
    | false => exact reports_of_working (handBack_calls job).uses List.not_mem_nil

end

/-! ## All programs -/

/-- Every program of the system reports a success only after one. -/
theorem Entry.reports {proc : Processor} {entry : Entry} (own : entry.isTaskfire = true) :
    Reports none (entry.program proc) := by
  cases entry with
  | work => exact fetchAndProcess_reports.bind fun _ _ => trivial
  | create input => exact reports_of_working (create_uses input) List.not_mem_nil
  | delete id => exact reports_of_working (delete_uses id) List.not_mem_nil
  | retry id resetRetries => exact reports_of_working (retry_uses id resetRetries) List.not_mem_nil
  | poll => exact reports_of_working poll_uses List.not_mem_nil
  | cron cj => exact reports_of_working (cron_uses cj) List.not_mem_nil
  | scheduleDelayed job scheduledAt =>
    exact reports_of_working (scheduleDelayed_uses job scheduledAt) List.not_mem_nil
  | enqueue | enqueueJob | enqueueDelayedJob | drain | claimAndRelease =>
    exact absurd own Bool.false_ne_true

/-! ## One call -/

section Step

variable {env : Env} {stores : Stores} {id : JobId}

/-- A handler that returned nil stays one. -/
theorem perform_succeeded (c : Call) (succeeded : stores.ledger.succeeded id = true) :
    (perform env stores c).2.ledger.succeeded id = true := by
  obtain ⟨_, _, _, performed⟩ | performed := perform_cases env stores c
  · rw [performed]
    exact succeeded
  · rw [performed]
    cases c with
    | cancelJob job =>
      simp only [performStore]
      split <;> exact succeeded
    | command command =>
      cases command with
      | zadd key score member =>
        show (stores.ledger.noteZadd key member).succeeded id = true
        simp only [Ledger.noteZadd]
        split <;> exact succeeded
      | _ => exact succeeded
    | awaitHandler job =>
      simp only [performStore]
      split
      · simp only [Ledger.noteSuccess, Function.update_apply]
        split
        · rfl
        · exact succeeded
      · exact succeeded
    | _ => exact succeeded

theorem awaitHandler_succeeds {job : Job}
    (passed : (perform env stores (.awaitHandler job)).1 = .returnedNil) :
    (perform env stores (.awaitHandler job)).2.ledger.succeeded job.id = true := by
  have outcome : env.handler = .returnedNil := by
    simpa [perform, failed?, performStore] using passed
  simp [perform, failed?, performStore, outcome, Ledger.noteSuccess]

/-- Only PUBLISH adds an event. -/
theorem perform_events (c : Call) {event : JobEvent}
    (told : event ∈ (perform env stores c).2.ledger.events) :
    event ∈ stores.ledger.events ∨ c = .command (.publish event) := by
  obtain ⟨_, _, _, performed⟩ | performed := perform_cases env stores c
  · rw [performed] at told
    exact .inl told
  · rw [performed] at told
    cases c with
    | cancelJob job =>
      simp only [performStore] at told
      split at told <;> exact .inl told
    | command command =>
      cases command with
      | zadd key score member =>
        have same : (stores.ledger.noteZadd key member).events = stores.ledger.events := by
          simp only [Ledger.noteZadd]
          split <;> rfl
        exact .inl (same ▸ told)
      | publish published =>
        obtain rfl | earlier := List.mem_cons.mp told
        · exact .inr rfl
        · exact .inl earlier
      | _ => exact .inl told
    | awaitHandler job =>
      simp only [performStore] at told
      split at told <;> exact .inl told
    | _ => exact .inl told

/-- Only LPUSH adds a member to the list of completed jobs. -/
theorem perform_done (c : Call) {member : Member}
    (listed : member ∈ (perform env stores c).2.redis.done) :
    member ∈ stores.redis.done ∨ c = .command (.lpushDone member) := by
  obtain ⟨_, _, _, performed⟩ | performed := perform_cases env stores c
  · rw [performed] at listed
    exact .inl listed
  · rw [performed] at listed
    by_cases spares : c.sparesDone
    · rw [performStore_done env stores spares] at listed
      exact .inl listed
    · cases c with
      | command command =>
        cases command with
        | lpushDone pushed =>
          obtain rfl | earlier := List.mem_cons.mp listed
          · exact .inr rfl
          · exact .inl earlier
        | ltrimDone stop => exact .inl (List.mem_of_mem_take listed)
        | _ => exact absurd rfl spares
      | _ => exact absurd trivial spares

theorem sound_perform {passed : Option JobId} {c : Call} (sound : stores.Sound)
    (permitted : Passed.permits passed c)
    (truth : ∀ id, passed = some id → stores.ledger.succeeded id = true) :
    (perform env stores c).2.Sound where
  rows id row found completed := by
    have step := perform_row env stores c id
    rw [found] at step
    generalize old : stores.jobs id = before at step
    cases step with
    | stays => exact perform_succeeded c (sound.rows id row old completed)
    | inserts => cases completed
    | cancels => cases completed
    | requeues => cases completed
    | @updates job row within named =>
      subst named
      exact perform_succeeded _ (truth job.id (permitted completed))
  events event told succeeds := by
    obtain earlier | rfl := perform_events c told
    · exact perform_succeeded c (sound.events event earlier succeeds)
    · exact perform_succeeded _ (truth event.jobId (permitted succeeds))
  done member listed := by
    obtain earlier | rfl := perform_done c listed
    · obtain ⟨id, named, succeeded⟩ := sound.done member earlier
      exact ⟨id, named, perform_succeeded c succeeded⟩
    · obtain ⟨id, named, passed⟩ := permitted
      exact ⟨id, named, perform_succeeded _ (truth id passed)⟩

end Step

/-! ## Every run -/

section Run

variable {proc : Processor} {last : SystemState}

abbrev ReportState := State Call Call.Reply Stores (Session × Option JobId) Result

/-- The system with the job beside each thread whose handler last returned nil in it. -/
def reporting (proc : Processor) :
    Machine Call Call.Reply Stores Env (Session × Option JobId) Entry JobId Result :=
  (taskfire proc).annotated Passed.notes

structure Reporting (state : ReportState) : Prop where
  keeps : ∀ thread, Reports (state.note thread) (state.threads thread).program
  passed : ∀ thread id, state.note thread = some id → state.store.ledger.succeeded id = true
  sound : state.store.Sound

theorem advance_passed {passed : Option JobId} {env : Env} {stores : Stores} {c : Call} {id : JobId}
    (truth : passed = some id → stores.ledger.succeeded id = true)
    (advanced : Passed.advance passed c (perform env stores c).1 = some id) :
    (perform env stores c).2.ledger.succeeded id = true := by
  cases c with
  | awaitHandler job =>
    simp only [Passed.advance] at advanced
    split at advanced
    · next returned =>
      cases advanced
      exact awaitHandler_succeeds returned
    · exact perform_succeeded _ (truth advanced)
  | _ => exact perform_succeeded _ (truth advanced)

/-- No step takes a success back. -/
theorem step_succeeded {before after : ReportState} {action : SystemAction} {id : JobId}
    (stepped : (reporting proc).step before action = some after)
    (succeeded : before.store.ledger.succeeded id = true) :
    after.store.ledger.succeeded id = true := by
  obtain same | ⟨lock, moved⟩ | ⟨thread, env, c, next, _, _, moved⟩ := Machine.step_store stepped
  · rw [same]
    exact succeeded
  · rw [moved]
    exact succeeded
  · subst moved
    exact perform_succeeded c succeeded

theorem reporting_step {before after : ReportState} {action : SystemAction}
    (held : Reporting before) (starting : Starting Entry.isTaskfire action)
    (stepped : (reporting proc).step before action = some after) : Reporting after where
  keeps := by
    apply Machine.step_notes stepped held.keeps trivial
    · intro thread entry acts
      subst acts
      exact entry.reports starting
    · exact fun _ _ _ _ => trivial
  passed := by
    have passed (thread : Nat) (id : JobId) (noted : before.note thread = some id) :
        after.store.ledger.succeeded id = true :=
      step_succeeded stepped (held.passed thread id noted)
    apply Machine.step_threads (fun thread => ∀ id, thread.session.2 = some id →
      after.store.ledger.succeeded id = true) stepped passed
    · intro _ none
      cases none
    · intro _ _ _ _ none
      cases none
    · intro thread env session c next acts shape _ id advanced
      subst acts
      obtain ⟨_, _, program, moved⟩ := Machine.step_exec stepped
      have truth := held.passed thread
      simp only [State.note, shape] at program truth
      cases program
      subst moved
      exact advance_passed (truth id) advanced
  sound := by
    obtain same | ⟨lock, moved⟩ | ⟨thread, env, c, next, _, program, moved⟩ :=
      Machine.step_store stepped
    · rw [same]
      exact held.sound
    · rw [moved]
      exact ⟨held.sound.rows, held.sound.events, held.sound.done⟩
    · subst moved
      have permitted : Passed.permits (before.note thread) c :=
        (program ▸ held.keeps thread : Reports _ (.call c next)).1
      exact sound_perform held.sound permitted (held.passed thread)

theorem sound_reach
    (run : (taskfire proc).Run (fun _ action => Starting Entry.isTaskfire action) (beginning proc)
      last) : last.store.Sound := by
  have begun : Reporting ((reporting proc).initial .empty) := by
    refine ⟨fun _ => trivial, ?_, ?_, ?_, ?_⟩
    · intro thread id passed
      cases passed
    · intro id row found
      cases found
    · intro event told
      cases told
    · intro member listed
      cases listed
  obtain ⟨state, erased, reached⟩ := Machine.annotate Passed.notes run
    (rfl : ((reporting proc).initial .empty).erase = beginning proc)
  have reporting := reached.invariant Reporting begun fun _ _ _ held starting stepped =>
    reporting_step held starting stepped
  subst erased
  exact reporting.sound

/-- Whatever fails and however often records of a job are run, a job whose row is completed, of
which an event tells that it completed, or which is listed as completed had a handler that returned
nil. -/
theorem reported_succeeded {id : JobId}
    (run : (taskfire proc).Run (fun _ action => Starting Entry.isTaskfire action) (beginning proc)
      last)
    (reported : last.store.status id = some .completed ∨
      (∃ event ∈ last.store.ledger.events, event.jobId = id ∧ event.succeeds) ∨
      ∃ member ∈ last.store.redis.done, member.id? = some id) :
    last.store.ledger.succeeded id = true := by
  have sound := sound_reach run
  obtain completed | ⟨event, told, named, succeeds⟩ | ⟨member, listed, named⟩ := reported
  · obtain ⟨row, found, status⟩ := Option.map_eq_some_iff.mp completed
    exact sound.rows id row found status
  · rw [← named]
    exact sound.events event told succeeds
  · obtain ⟨owner, known, succeeded⟩ := sound.done member listed
    cases known.symm.trans named
    exact succeeded

end Run

/-- A worker completes the job, and its row, an event and the list say so. -/
theorem reported_succeeded_once : ∃ last : SystemState,
    last.store.status "j" = some .completed ∧ last.store.redis.done.length = 1 ∧
      last.store.ledger.succeeded "j" = true := by
  obtain ⟨last, run, checked⟩ := ordinary_reaches .wired Entry.isTaskfire (beginning .wired)
    createAndWork (fun last => decide (last.store.status "j" = some .completed ∧
      last.store.redis.done.length = 1)) (by decide +kernel)
  obtain ⟨completed, listed⟩ := of_decide_eq_true checked
  have starting := run.mono fun _ _ ordinary => ordinary.starting
  exact ⟨last, completed, listed, reported_succeeded starting (.inl completed)⟩

end Taskfire
