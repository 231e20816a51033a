import Taskfire.Library.Notes
import Taskfire.Safety.Cancellation
import Taskfire.Safety.Outcome

/-!
# What a thread knows of its record

The worker writes rows from a record that went through Redis, and tells the event stream what it
wrote.  The note of a thread keeps what its session leaves out: the dependencies of the record,
whether they were found completed, and the update of the row that the stream has not heard of yet.

`Note.permits` is the protocol of these notes: a row is written with the timestamps its status calls
for, a record waits without any, and an update is announced before the thread does anything else.
`Entry.announces` proves it of all programs.
-/

namespace Taskfire

open Taskfire.Library

/-! ## Timestamps -/

/-- The timestamps a row of the status has. -/
structure Timed (status : JobStatus) (startedAt completedAt failedAt : Option Time) : Prop where
  completed : completedAt.isSome = true ↔ status = .completed
  failed : failedAt.isSome = true ↔ status = .failed ∨ status = .dead
  started : status = .active ∨ status = .completed → startedAt.isSome = true
  pending : status = .pending → startedAt = none ∧ completedAt = none ∧ failedAt = none

def Row.Timed (row : Row) : Prop :=
  Taskfire.Timed row.status row.startedAt row.completedAt row.failedAt

def Job.Timed (job : Job) : Prop :=
  Taskfire.Timed job.status job.startedAt job.completedAt job.failedAt

namespace Timed

theorem of_pending : Timed .pending none none none := by
  constructor <;> simp

theorem of_active (time : Time) : Timed .active (some time) none none := by
  constructor <;> simp

theorem of_completed (started completed : Time) :
    Timed .completed (some started) (some completed) none := by
  constructor <;> simp

theorem of_failed (startedAt : Option Time) (failed : Time) :
    Timed .failed startedAt none (some failed) := by
  constructor <;> simp

theorem of_dead (startedAt : Option Time) (failed : Time) :
    Timed .dead startedAt none (some failed) := by
  constructor <;> simp

end Timed

/-- The record says of no attempt that it has ended. -/
def Job.unended (job : Job) : Prop := job.completedAt = none ∧ job.failedAt = none

/-- The record says nothing of any attempt. -/
def Job.fresh (job : Job) : Prop := job.startedAt = none ∧ job.unended

/-- A member that would decode to a fresh record. -/
def JobJson.fresh (json : JobJson) : Bool :=
  json.startedAt.isNone && json.completedAt.isNone && json.failedAt.isNone

/-- Whose record a member is, and what the record depends on. -/
def Member.about : Member → Option (JobId × List JobId)
  | .record json => some (json.id, json.toJob.dependencies)
  | .text _ => none

def Member.fresh : Member → Bool
  | .record json => json.fresh
  | .text _ => true

theorem marshal_about (job : Job) : job.marshal.about = some (job.id, job.dependencies) := by
  have decoded := toJob_of_marshal job
  simp only [Job.marshal, Decoding.unmarshal, Option.some.injEq] at decoded
  simp only [Job.marshal, Member.about, decoded]

theorem marshal_fresh {job : Job} (fresh : job.fresh) : job.marshal.fresh = true := by
  obtain ⟨started, completed, failed⟩ := fresh
  simp [Job.marshal, Member.fresh, JobJson.fresh, started, completed, failed]

theorem toJob_fresh {json : JobJson} (fresh : json.fresh = true) : json.toJob.fresh := by
  simpa [JobJson.fresh, Job.fresh, Job.unended, JobJson.toJob, and_assoc] using fresh

/-! ## Notes -/

structure Note where
  /-- The job of the record the thread carries, and the record's dependencies. -/
  record : Option (JobId × List JobId)
  /-- The dependencies were all found completed. -/
  ready : Bool
  /-- The status of an update of the row that was not announced yet. -/
  due : Option JobStatus
  deriving DecidableEq

namespace Note

def blank : Note := ⟨none, false, none⟩

/-- The thread has just got a record. -/
def obtained (id : JobId) (dependencies : List JobId) : Note :=
  ⟨some (id, dependencies), dependencies.isEmpty, none⟩

/-- The note of a thread that carries the record and owes the stream nothing. -/
def of (job : Job) (ready : Bool) : Note := ⟨some (job.id, job.dependencies), ready, none⟩

/-- The statuses were asked for the dependencies of the record, and all are completed. -/
def finds (note : Note) (ids : List JobId) (statuses : List (JobId × JobStatus)) : Bool :=
  note.record.any (fun record => record.2 = ids) && statuses.all fun entry => entry.2 = .completed

def advance (note : Note) : (c : Call) → c.Reply → Note
  | .insertJob params, reply => match reply with
    | .ok row => .obtained params.id row.dependencies
    | .error _ => note
  | .requeueJob id _, reply => match reply with
    | .ok (some row) => .obtained id row.dependencies
    | _ => note
  | .claim, reply => match reply with
    | .ok (some (.record json)) => .obtained json.id json.toJob.dependencies
    | _ => note
  | .depStatuses ids, reply => match reply with
    | .ok statuses => { note with ready := note.ready || note.finds ids statuses }
    | .error _ => note
  | .updateJobStatus job, _ => { note with due := some job.status }
  | .command (.publish _), _ => { note with due := none }
  | _, _ => note

end Note

def Note.notes : Notes Call Call.Reply Entry Note where
  advance := Note.advance
  start := fun _ => .blank
  rest := .blank

/-! ## The protocol of the notes -/

/-- What the threads of a run are held to. -/
structure Terms where
  /-- A job is only marked active or completed when its dependencies were found completed. -/
  gated : Prop
  /-- Failed and dead jobs may be retried by request. -/
  retried : Prop

namespace Note

/-- A claimed record is fresh. -/
def admits : (c : Call) → c.Reply → Prop
  | .claim, reply => ∀ member, reply = .ok (some member) → member.fresh = true ∧ member.about ≠ none
  | _, _ => True

def permitsCommand (note : Note) : Command → Prop
  | .publish event =>
    note.due = some event.status ∧ ∃ dependencies, note.record = some (event.jobId, dependencies)
  | .zadd key _ member =>
    note.due = none ∧ (key ≠ .dlq → member.fresh = true ∧ member.about = note.record)
  | _ => note.due = none

def permits (terms : Terms) (note : Note) : Call → Prop
  | .updateJobStatus job =>
    note.due = none ∧ note.record = some (job.id, job.dependencies) ∧ job.Timed ∧
      (terms.gated → job.status = .active ∨ job.status = .completed → note.ready = true)
  | .requeueJob _ _ => note.due = none ∧ terms.retried
  | .command command => note.permitsCommand command
  | .now => True
  | _ => note.due = none

end Note

/-- The program keeps to the protocol from the note on. -/
abbrev Keeps {α : Type} (terms : Terms) (final : α → Note → Prop) (note : Note)
    (program : Prog α) : Prop :=
  program.Follows (Note.permits terms) Note.advance Note.admits final note

/-- The program keeps to the protocol and ends with every update announced. -/
abbrev Announces {α : Type} (terms : Terms) (note : Note) (program : Prog α) : Prop :=
  Keeps terms (fun _ last => last.due = none) note program

/-! ## The worker -/

section Worker

variable {terms : Terms} {note : Note} {ready : Bool}

/-- The commands that neither announce an update nor put a record among those that wait. -/
def Command.silent : Command → Prop
  | .publish _ => False
  | .zadd key _ _ => key = .dlq
  | _ => True

theorem permits_of_silent {command : Command} (silent : command.silent)
    (settled : note.due = none) : note.permits terms (.command command) := by
  cases command with
  | publish event => exact silent.elim
  | zadd key score member => exact ⟨settled, fun waits => absurd silent waits⟩
  | zrem | hdelProcessing | delLock | lpushDone | ltrimDone => exact settled

theorem advance_of_silent {command : Command} (silent : command.silent)
    (reply : (Call.command command).Reply) : note.advance (.command command) reply = note := by
  cases command with
  | publish event => exact silent.elim
  | zadd | zrem | hdelProcessing | delLock | lpushDone | ltrimDone => rfl

theorem pipeline_keeps {final : Except StoreError Unit → Note → Prop} {commands : List Command}
    (silent : ∀ command ∈ commands, command.silent) (settled : note.due = none)
    (rest : ∀ reply, final reply note) : Keeps terms final note (pipeline commands) := by
  induction commands generalizing final with
  | nil => exact rest _
  | cons command commands inductionHypothesis =>
    obtain ⟨first, others⟩ := List.forall_mem_cons.mp silent
    simp only [pipeline, Program.perform_bind, Keeps, Program.follows_call]
    refine ⟨permits_of_silent first settled, fun reply _ => ?_⟩
    rw [advance_of_silent first]
    apply (Program.follows_bind ..).mpr
    exact inductionHypothesis others fun reply => rest _

theorem nack_keeps {final : Option GoError → Note → Prop} (job : Job) (settled : note.due = none)
    (rest : ∀ error, final error note) : Keeps terms final note (nack job) := by
  apply (Program.follows_bind ..).mpr
  exact pipeline_keeps (by simp [Command.silent]) settled fun reply => rest _

theorem ack_keeps {final : Option GoError → Note → Prop} (job : Job) (settled : note.due = none)
    (rest : ∀ error, final error note) : Keeps terms final note (ack job) := by
  apply (Program.follows_bind ..).mpr
  exact pipeline_keeps (by simp [Command.silent]) settled fun reply => rest _

theorem moveToDLQ_keeps {final : Option GoError → Note → Prop} (job : Job) {reason : GoError}
    (settled : note.due = none) (rest : ∀ error, final error note) :
    Keeps terms final note (moveToDLQ job reason) := by
  simp only [moveToDLQ, Program.perform_bind, Keeps, Program.follows_call]
  refine ⟨trivial, fun now _ => ?_⟩
  apply (Program.follows_bind ..).mpr
  exact pipeline_keeps (by simp [Command.silent]) settled fun reply => rest _

theorem enqueue_keeps {final : Option GoError → Note → Prop} (job : Job) (fresh : job.fresh)
    (rest : ∀ error, final error (.of job ready)) :
    Keeps terms final (.of job ready) (enqueue job) := by
  simp only [enqueue, Program.perform_bind, Keeps, Program.follows_call]
  refine ⟨trivial, fun now _ => ⟨⟨rfl, fun _ => ?_⟩, fun reply _ => rest _⟩⟩
  exact ⟨marshal_fresh fresh, marshal_about job⟩

theorem enqueueDelayed_keeps {final : Option GoError → Note → Prop} (job : Job)
    {scheduledAt : Time} (fresh : job.fresh) (rest : ∀ error, final error (.of job ready)) :
    Keeps terms final (.of job ready) (enqueueDelayed job scheduledAt) := by
  simp only [enqueueDelayed, Program.perform_bind, Keeps, Program.follows_call]
  let waiting : Job := { job with scheduledAt := some scheduledAt, status := .pending }
  have freshened : waiting.fresh := fresh
  exact ⟨⟨rfl, fun _ => ⟨marshal_fresh freshened, marshal_about waiting⟩⟩, fun reply _ => rest _⟩

/-- An update of the row with its event. -/
theorem updates_keeps {α : Type} {final : α → Note → Prop} {job : Job} {event : JobEvent}
    {next : Prog α} (timed : job.Timed)
    (gate : terms.gated → job.status = .active ∨ job.status = .completed → ready = true)
    (named : event.jobId = job.id) (same : event.status = job.status)
    (rest : Keeps terms final (.of job ready) next) :
    Keeps terms final (.of job ready) (do
      let _ ← invoke (.updateJobStatus job)
      publishEvent event
      next) := by
  simp only [publishEvent, Program.perform_bind, Program.call_bind, Program.pure_eq,
    Program.pure_bind, Keeps, Program.follows_call]
  refine ⟨⟨rfl, rfl, timed, gate⟩, fun reply _ => ?_⟩
  exact ⟨⟨congrArg some same.symm, job.dependencies, by rw [named]; rfl⟩, fun _ _ => rest⟩

/-! ### After a failure -/

theorem sendToDLQ_announces (job : Job) {reason : GoError} (unended : job.unended) :
    Announces terms (.of job ready) (Processor.sendToDLQ job reason) := by
  simp only [Processor.sendToDLQ, Program.perform_bind, Program.follows_call]
  refine ⟨trivial, fun now _ => ?_⟩
  let dead : Job := { job with status := .dead, failedAt := some now }
  have timed : dead.Timed := by
    show Timed .dead job.startedAt job.completedAt (some now)
    rw [unended.1]
    exact .of_dead job.startedAt now
  apply updates_keeps timed (by simp [dead]) rfl rfl
  apply (Program.follows_bind ..).mpr
  apply moveToDLQ_keeps dead rfl
  intro error
  cases error <;> exact rfl

theorem retryJob_announces (job : Job) {cause : GoError} (unended : job.unended) :
    Announces terms (.of job ready) (Processor.retryJob job cause) := by
  let waiting : Job := { job with status := .pending, startedAt := none }
  have fresh : waiting.fresh := ⟨rfl, unended⟩
  have timed : waiting.Timed := by
    show Timed .pending none job.completedAt job.failedAt
    rw [unended.1, unended.2]
    exact .of_pending
  simp only [Processor.retryJob, publishEvent, Program.perform_bind, Program.call_bind,
    Program.pure_eq, Program.pure_bind, Program.follows_call]
  -- The update, the clock, the event and the record follow each other in this order.
  refine ⟨⟨rfl, rfl, timed, by simp⟩, fun reply _ => ⟨trivial, fun now _ => ?_⟩⟩
  refine ⟨⟨rfl, job.dependencies, rfl⟩, fun _ _ => ?_⟩
  apply (Program.follows_bind ..).mpr
  apply enqueue_keeps waiting fresh
  intro error
  cases error with
  | some error => exact sendToDLQ_announces waiting unended
  | none => exact rfl

theorem judged_announces (job : Job) (cause : GoError) (waitErr : Option GoError)
    (unended : job.unended) :
    Announces terms (.of job ready)
      (match waitErr with
        | some waitErr => Processor.sendToDLQ job waitErr
        | none => Processor.retryJob job cause) := by
  cases waitErr with
  | some waitErr => exact sendToDLQ_announces job unended
  | none => exact retryJob_announces job unended

theorem handleFailure_announces {proc : Processor} (job : Job) {cause : GoError}
    (unended : job.unended) :
    Announces terms (.of job ready) (proc.handleFailure job cause) := by
  let failed : Job := { job with retryCount := goInt (job.retryCount + 1), errorMessage := cause.text }
  simp only [Processor.handleFailure]
  apply (Program.follows_bind ..).mpr
  apply nack_keeps failed rfl
  intro error
  refine ⟨rfl, fun _ _ => ?_⟩
  rw [Retry.Manager.wait]
  split
  -- The budget is used up here; below the timer or the context ends the wait.
  · exact judged_announces failed cause (some Retry.errRetriesExhausted) unended
  · exact ⟨rfl, fun waitErr _ => judged_announces failed cause waitErr unended⟩

/-! ### Running the handler -/

theorem complete_announces (job : Job) (unended : job.unended) (started : job.startedAt.isSome = true)
    (gate : terms.gated → ready = true) :
    Announces terms (.of job ready) (Processor.complete job) := by
  obtain ⟨start, running⟩ := Option.isSome_iff_exists.mp started
  simp only [Processor.complete, Program.perform_bind, Program.follows_call]
  refine ⟨trivial, fun completed _ => ⟨rfl, fun _ _ => ?_⟩⟩
  let done : Job := { job with status := .completed, completedAt := some completed }
  have timed : done.Timed := by
    show Timed .completed job.startedAt (some completed) job.failedAt
    rw [running, unended.2]
    exact .of_completed start completed
  apply updates_keeps timed (fun gated _ => gate gated) rfl rfl
  exact ack_keeps done rfl fun _ => rfl

theorem safeRun_keeps {final : Option GoError → Note → Prop} (job : Job)
    (settled : note.due = none) (rest : ∀ error, final error note) :
    Keeps terms final note (safeRun job) := by
  simp only [safeRun, Program.perform_bind, Keeps, Program.follows_call]
  refine ⟨settled, fun _ _ => ⟨settled, fun outcome _ => ?_⟩⟩
  cases outcome <;> exact rest _

theorem runHandler_announces {proc : Processor} (job : Job) (unended : job.unended)
    (started : job.startedAt.isSome = true) (gate : terms.gated → ready = true) :
    Announces terms (.of job ready) (proc.runHandler job) := by
  simp only [Processor.runHandler, Program.perform_bind, Program.follows_call]
  refine ⟨rfl, fun found _ => ?_⟩
  cases found with
  | false => exact ⟨rfl, fun _ _ => handleFailure_announces job unended⟩
  | true =>
    apply (Program.follows_bind ..).mpr
    apply safeRun_keeps job rfl
    intro error
    cases error with
    | some error => exact ⟨rfl, fun _ _ => handleFailure_announces job unended⟩
    | none => exact complete_announces job unended started gate

theorem execute_announces {proc : Processor} (job : Job) (fresh : job.fresh)
    (gate : terms.gated → ready = true) :
    Announces terms (.of job ready) (proc.execute job) := by
  simp only [Processor.execute, Program.perform_bind, Program.follows_call]
  refine ⟨trivial, fun now _ => ?_⟩
  let active : Job := { job with status := .active, startedAt := some now }
  have timed : active.Timed := by
    show Timed .active (some now) job.completedAt job.failedAt
    rw [fresh.2.1, fresh.2.2]
    exact .of_active now
  apply updates_keeps timed (fun gated _ => gate gated) rfl rfl
  exact runHandler_announces active fresh.2 rfl gate

/-! ### A cycle of the pool -/

/-- A check of the dependencies leaves the record as it is; the production check allows a job to
run only if it found all its dependencies completed. -/
theorem canRun_keeps {proc : Processor} (job : Job)
    (production : terms.gated → proc.depChecker = some Engine.checker) :
    Keeps terms (fun outcome last => ∃ ready, last = .of job ready ∧
      (terms.gated → outcome = .ok true → ready = true))
      (.of job job.dependencies.isEmpty) (proc.canRun job) := by
  -- Only the production check has an answer that the note can trust.
  by_cases gated : terms.gated
  · simp only [Processor.canRun, production gated, Engine.checker, Engine.canRun]
    split
    · next none => exact ⟨true, by rw [none]; rfl, fun _ _ => rfl⟩
    · simp only [Program.perform_bind, Keeps, Program.follows_call]
      refine ⟨rfl, fun reply _ => ?_⟩
      cases reply with
      | error error =>
        refine ⟨_, rfl, ?_⟩
        intro _ allowed
        cases allowed
      | ok statuses =>
        refine ⟨_, rfl, fun _ allowed => ?_⟩
        have completed : (statuses.all fun entry => entry.2 = .completed) = true :=
          Except.ok.inj allowed
        simp [Note.finds, Note.of, completed]
  · have returns : (proc.canRun job).Returns Note.admits fun _ => True :=
      Program.returns_of_forall _ fun _ => trivial
    apply ((proc.canRun_uses job).follows_within (fun last => ∃ ready, last = .of job ready)
      returns ⟨_, rfl⟩ ?_ ?_).mono
    · intro outcome last ended
      obtain ⟨ready, same⟩ := ended.1
      exact ⟨ready, same, fun holds => absurd holds gated⟩
    · intro last c within reads
      obtain ⟨ready, rfl⟩ := within
      cases c <;> first | rfl | cases reads
    · intro last c reply within reads
      obtain ⟨ready, rfl⟩ := within
      cases c with
      | depStatuses ids => cases reply <;> exact ⟨_, rfl⟩
      | _ => cases reads

theorem process_announces {proc : Processor} (job : Job) (fresh : job.fresh)
    (production : terms.gated → proc.depChecker = some Engine.checker) :
    Announces terms (.of job job.dependencies.isEmpty) (proc.process job) := by
  apply (canRun_keeps job production).bind
  intro outcome last checked
  obtain ⟨ready, same, gate⟩ := checked
  subst same
  cases outcome with
  | error error =>
    apply (Program.follows_bind ..).mpr
    exact nack_keeps job rfl fun _ => rfl
  | ok allowed =>
    cases allowed with
    | true => exact execute_announces job fresh fun gated => gate gated rfl
    | false =>
      apply (Program.follows_bind ..).mpr
      apply nack_keeps job rfl
      intro error
      simp only [Program.perform_bind, Program.follows_call]
      refine ⟨trivial, fun now _ => ?_⟩
      apply (Program.follows_bind ..).mpr
      exact enqueueDelayed_keeps job fresh fun _ => rfl

theorem handBack_announces (job : Job) (fresh : job.fresh) :
    Announces terms (.of job ready) (Processor.handBack job) := by
  let pending : Job := { job with status := .pending }
  simp only [Processor.handBack]
  apply (Program.follows_bind ..).mpr
  apply enqueue_keeps pending fresh
  intro error
  apply (Program.follows_bind ..).mpr
  exact nack_keeps pending rfl fun _ => rfl

theorem dequeue_keeps {final : Except GoError (Option Job) → Note → Prop}
    (settled : note.due = none) (failed : ∀ error, final (.error error) note)
    (empty : final (.ok none) note)
    (claimed : ∀ job : Job, job.fresh →
      final (.ok (some job)) (.of job job.dependencies.isEmpty)) :
    Keeps terms final note dequeue := by
  simp only [dequeue, Program.perform_bind, Keeps, Program.follows_call]
  refine ⟨settled, fun reply admitted => ?_⟩
  cases reply with
  | error error => exact failed _
  | ok found =>
    cases found with
    | none => exact empty
    | some member =>
      obtain ⟨fresh, named⟩ := admitted member rfl
      cases member with
      | record json => exact claimed json.toJob (toJob_fresh fresh)
      | text content => exact absurd rfl named

theorem fetchAndProcess_announces {proc : Processor}
    (production : terms.gated → proc.depChecker = some Engine.checker) :
    Announces terms .blank proc.fetchAndProcess := by
  simp only [Processor.fetchAndProcess]
  apply (Program.follows_bind ..).mpr
  apply dequeue_keeps rfl (fun _ => rfl) rfl
  intro job fresh
  simp only [Program.perform_bind, Program.follows_call]
  refine ⟨rfl, fun delivered _ => ?_⟩
  cases delivered with
  | true =>
    apply (Program.follows_bind ..).mpr
    exact process_announces job fresh production
  | false => exact handBack_announces job fresh

end Worker

/-! ## The API -/

section Api

variable {terms : Terms} {note : Note} {ready : Bool} {id : JobId} {row : Row}

theorem enqueueJob_keeps {final : Except StoreError Unit → Note → Prop} {retryCount : Int}
    (rest : ∀ reply, final reply (.obtained id row.dependencies)) :
    Keeps terms final (.obtained id row.dependencies)
      (Api.enqueueJob (row.enqueuePayload id retryCount)) :=
  ⟨trivial, fun _ _ => ⟨⟨rfl, fun _ => ⟨rfl, rfl⟩⟩, fun reply _ => rest reply⟩⟩

theorem enqueueCreated_keeps {final : Except StoreError Unit → Note → Prop} {retryCount : Int}
    {scheduledAt : Option Time} {now : Time}
    (rest : ∀ reply, final reply (.obtained id row.dependencies)) :
    Keeps terms final (.obtained id row.dependencies)
      (Api.enqueueCreated (row.enqueuePayload id retryCount) scheduledAt now) := by
  simp only [Api.enqueueCreated]
  split
  · split
    · exact ⟨⟨rfl, fun _ => ⟨rfl, rfl⟩⟩, fun reply _ => rest reply⟩
    · exact enqueueJob_keeps rest
  · exact enqueueJob_keeps rest

theorem createJob_announces (input : CreateJobInput) :
    Announces terms .blank (Api.createJob input) := by
  simp only [Api.createJob, Program.perform_bind, Program.follows_call]
  refine ⟨trivial, fun now _ => ⟨rfl, fun id _ => ⟨rfl, fun reply _ => ?_⟩⟩⟩
  cases reply with
  | error error => exact rfl
  | ok row =>
    apply (Program.follows_bind ..).mpr
    apply enqueueCreated_keeps
    intro reply
    cases reply <;> exact rfl

theorem retryRequest_announces (id : JobId) (resetRetries : Bool) (retried : terms.retried) :
    Announces terms .blank (Api.retryJob id resetRetries) := by
  simp only [Api.retryJob, Program.perform_bind, Program.follows_call]
  refine ⟨rfl, fun found _ => ?_⟩
  obtain error | _ | existing := found
  · exact rfl
  · exact rfl
  · simp only
    split
    · refine ⟨⟨rfl, retried⟩, fun reply _ => ?_⟩
      obtain error | _ | updated := reply
      · exact rfl
      · exact rfl
      · apply (Program.follows_bind ..).mpr
        apply enqueueJob_keeps
        intro reply
        cases reply <;> exact rfl
    · exact rfl

theorem removeFromQueue_announces (id : JobId) (priority : Priority) (settled : note.due = none) :
    Announces terms note (Api.removeFromQueue id priority) := by
  apply ((removeFromQueue_removes id priority).follows (Program.returns_of_forall _
    fun _ => trivial) ?_ ?_).mono
  · intro outcome last ended
    rw [ended.1]
    exact settled
  · intro c removes
    cases c with
    | command command => cases command <;> first | exact settled | cases removes
    | scanPages | zscan => exact settled
    | _ => cases removes
  · intro c reply removes
    cases c with
    | command command => cases command <;> first | rfl | cases removes
    | scanPages | zscan => rfl
    | _ => cases removes

theorem deleteJob_announces (id : JobId) : Announces terms .blank (Api.deleteJob id) := by
  simp only [Api.deleteJob, Program.perform_bind, Program.follows_call]
  refine ⟨rfl, fun found _ => ?_⟩
  obtain error | _ | existing := found
  · exact rfl
  · exact rfl
  · simp only
    split
    · exact rfl
    · split
      · exact rfl
      · refine ⟨rfl, fun reply _ => ?_⟩
        obtain error | _ | row := reply
        · exact rfl
        · exact rfl
        · apply (Program.follows_bind ..).mpr
          apply (removeFromQueue_announces id existing.priority rfl).mono
          intro outcome last settled
          exact settled

end Api

/-- Every program of the system keeps to the protocol. -/
theorem Entry.announces {terms : Terms} {proc : Processor} {entry : Entry}
    (rooted : entry.isRooted = true)
    (production : terms.gated → proc.depChecker = some Engine.checker)
    (retried : ∀ id resetRetries, entry = .retry id resetRetries → terms.retried) :
    Announces terms .blank (entry.program proc) := by
  cases entry with
  | create input => exact (Program.follows_bind ..).mpr (createJob_announces input)
  | delete id => exact (Program.follows_bind ..).mpr (deleteJob_announces id)
  | retry id resetRetries =>
    exact (Program.follows_bind ..).mpr (retryRequest_announces id resetRetries (retried _ _ rfl))
  | work => exact (Program.follows_bind ..).mpr (fetchAndProcess_announces production)
  | poll =>
    refine ⟨trivial, fun tick _ => ⟨rfl, fun reply _ => ?_⟩⟩
    cases reply <;> exact rfl
  | cron | scheduleDelayed | enqueue | enqueueJob | enqueueDelayedJob | drain | claimAndRelease =>
    exact absurd rooted Bool.false_ne_true

end Taskfire
