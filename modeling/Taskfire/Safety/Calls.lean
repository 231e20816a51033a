import Taskfire.Model.DeadLetters
import Taskfire.Safety.Cancellation

/-!
# The calls of the programs

Which calls each function of the worker makes, and how many of them at most: the statuses that it
writes to the row and tells in events, and what it appends to the done list and adds to the
dead-letter set.  The requests of the API and the scheduler do none of it.
-/

namespace Taskfire

open Taskfire.Library

/-- The status a job has when the event tells of it; the worker never tells of a plain failure. -/
def EventType.status : EventType → JobStatus
  | .started => .active
  | .completed => .completed
  | .failed => .failed
  | .retry => .pending
  | .dead => .dead

/-- Rows and events get one of the statuses.  A handler is only waited for, and a member appended to
the done list, where a job may complete; where it may die, a burial enters the dead-letter set. -/
def Call.working (statuses : List JobStatus) : Call → Prop
  | .updateJobStatus job => job.status ∈ statuses
  | .command (.publish event) => event.status ∈ statuses ∧ event.type.status = event.status
  | .command (.lpushDone _) | .awaitHandler _ => .completed ∈ statuses
  | .command (.zadd key score member) => key = .dlq →
    .dead ∈ statuses ∧ ∃ move : Move, (member, score) = move.entry
  | _ => True

/-- The statuses that the worker writes: it sets no row to 'failed'. -/
def Processor.statuses : List JobStatus := [.pending, .active, .completed, .dead]

section

variable {statuses : List JobStatus} {proc : Processor}

theorem working_of_readsDeps {c : Call} (reads : c.readsDeps) : c.working statuses := by
  cases c <;> first | exact trivial | cases reads

/-! ## The queue -/

theorem dequeue_calls : dequeue.Spends (Call.working statuses) 1 := by
  rw [dequeue_eq]
  exact .step trivial fun _ => .done _

theorem enqueue_calls (job : Job) : (enqueue job).Spends (Call.working statuses) 2 :=
  .step trivial fun _ => .step (fun dlq => absurd dlq (Redis.lane_ne_dlq _)) fun _ =>
    .done _

theorem enqueueDelayed_calls (job : Job) (scheduledAt : Time) :
    (enqueueDelayed job scheduledAt).Spends (Call.working statuses) 1 :=
  .step (fun dlq => absurd dlq Redis.delayed_ne_dlq) fun _ => .done _

theorem nack_calls (job : Job) : (nack job).Spends (Call.working statuses) 2 :=
  .step trivial fun _ => .step trivial fun _ => .done _

theorem ack_calls (job : Job) (completed : .completed ∈ statuses) :
    (ack job).Spends (Call.working statuses) 4 :=
  .step trivial fun _ => .step trivial fun _ => .step completed fun _ =>
    .step trivial fun _ => .done _

theorem moveToDLQ_calls (job : Job) (reason : GoError) (dead : .dead ∈ statuses) :
    (moveToDLQ job reason).Spends (Call.working statuses) 4 :=
  .step trivial fun now => .step trivial fun _ => .step trivial fun _ =>
    .step (fun _ => ⟨dead, ⟨job, reason, now⟩, rfl⟩) fun _ => .done _

/-! ## The processor -/

theorem sendToDLQ_calls (job : Job) (reason : GoError) (dead : .dead ∈ statuses) :
    (Processor.sendToDLQ job reason).Spends (Call.working statuses) 7 := by
  refine .step trivial fun now => .step dead fun _ => .step ⟨dead, rfl⟩ fun _ => ?_
  apply (moveToDLQ_calls _ reason dead).bind 0
  intro error
  cases error <;> exact .done _

theorem retryJob_calls (job : Job) (cause : GoError) (pending : .pending ∈ statuses)
    (dead : .dead ∈ statuses) : (Processor.retryJob job cause).Spends (Call.working statuses) 12 := by
  refine .step pending fun _ => .step trivial fun _ =>
    .step ⟨pending, rfl⟩ fun _ => ?_
  apply (enqueue_calls _).bind 7
  intro error
  cases error with
  | none => exact .done _
  | some error => exact sendToDLQ_calls _ error dead

theorem handleFailure_calls (job : Job) (cause : GoError) (pending : .pending ∈ statuses)
    (dead : .dead ∈ statuses) : (proc.handleFailure job cause).Spends (Call.working statuses) 16 := by
  apply (nack_calls _).bind 14
  intro _
  refine .step trivial fun _ => ?_
  simp only [Retry.Manager.wait]
  split
  · exact (sendToDLQ_calls _ _ dead).mono (by decide)
  · refine .step trivial fun waitErr => ?_
    cases waitErr with
    | some error => exact (sendToDLQ_calls _ error dead).mono (by decide)
    | none => exact retryJob_calls _ cause pending dead

theorem complete_calls (job : Job) (completed : .completed ∈ statuses) :
    (Processor.complete job).Spends (Call.working statuses) 8 :=
  .step trivial fun _ => .step trivial fun _ => .step completed fun _ =>
    .step ⟨completed, rfl⟩ fun _ => ack_calls _ completed

theorem runHandler_calls (job : Job) (completed : .completed ∈ statuses)
    (pending : .pending ∈ statuses) (dead : .dead ∈ statuses) :
    (proc.runHandler job).Spends (Call.working statuses) 20 := by
  refine .step trivial fun found => ?_
  cases found with
  | false =>
    exact .step trivial fun _ => (handleFailure_calls job _ pending dead).mono (by decide)
  | true =>
    refine .step trivial fun _ => .step completed fun outcome => ?_
    cases outcome with
    | returnedNil => exact (complete_calls job completed).mono (by decide)
    | returned error => exact .step trivial fun _ => handleFailure_calls job error pending dead
    | panicked value => exact .step trivial fun _ => handleFailure_calls job _ pending dead

/-- Processing a job that passes the dependency check. -/
theorem execute_calls (job : Job) : (proc.execute job).Spends (Call.working Processor.statuses) 23 :=
  have active : .active ∈ Processor.statuses := by decide
  .step trivial fun _ => .step active fun _ => .step ⟨active, rfl⟩ fun _ =>
    runHandler_calls _ (by decide) (by decide) (by decide)

/-- Putting a job off whose dependencies have not completed. -/
theorem putOff_calls (job : Job) : (do
    let _ ← nack job
    let now ← invoke .now
    let _ ← enqueueDelayed job (now + 5 * second)
    pure none : Prog (Option GoError)).Spends (Call.working statuses) 4 :=
  (nack_calls job).bind 2 fun _ => .step trivial fun _ => (enqueueDelayed_calls job _).bind 0
    fun _ => .done _

theorem handBack_calls (job : Job) : (Processor.handBack job).Spends (Call.working statuses) 4 :=
  (enqueue_calls _).bind 2 fun _ => (nack_calls _).bind 0 fun _ => .done _

theorem process_uses (job : Job) : (proc.process job).Uses (Call.working Processor.statuses) := by
  apply Program.uses_bind ((proc.canRun_uses job).mono fun _ => working_of_readsDeps)
  intro outcome
  cases outcome with
  | error error => exact Program.uses_bind (nack_calls job).uses fun _ => trivial
  | ok allowed =>
    cases allowed with
    | false => exact (putOff_calls job).uses
    | true => exact (execute_calls job).uses

theorem fetchAndProcess_uses : proc.fetchAndProcess.Uses (Call.working Processor.statuses) := by
  apply Program.uses_bind dequeue_calls.uses
  intro outcome
  obtain error | _ | job := outcome
  · exact trivial
  · exact trivial
  · simp only [Program.perform_bind, Program.uses_call]
    refine ⟨trivial, fun delivered => ?_⟩
    cases delivered with
    | true => exact Program.uses_bind (process_uses job) fun _ => trivial
    | false => exact (handBack_calls job).uses

/-! ## Whole programs -/

theorem create_uses (input : CreateJobInput) :
    ((Entry.create input).program proc).Uses (Call.working statuses) := by
  have creates : (Api.createJob input).Uses (Call.working statuses) := by
    refine ⟨trivial, fun now => ⟨trivial, fun id => ⟨trivial, fun reply => ?_⟩⟩⟩
    cases reply with
    | error error => exact trivial
    | ok row =>
      have lane (job : EnqueuePayload) : (Api.enqueueJob job).Uses (Call.working statuses) :=
        ⟨trivial, fun _ => ⟨fun dlq => absurd dlq (Redis.lane_ne_dlq _), fun _ => trivial⟩⟩
      have entered : (Api.enqueueCreated (row.enqueuePayload id 0) input.scheduledAt now).Uses
          (Call.working statuses) := by
        simp only [Api.enqueueCreated]
        split
        · split
          · exact ⟨fun dlq => absurd dlq Redis.delayed_ne_dlq, fun _ => trivial⟩
          · exact lane _
        · exact lane _
      apply Program.uses_bind entered
      intro reply
      cases reply <;> exact trivial
  exact Program.uses_bind creates fun _ => trivial

theorem retry_uses (id : JobId) (resetRetries : Bool) :
    ((Entry.retry id resetRetries).program proc).Uses (Call.working statuses) := by
  have retries : (Api.retryJob id resetRetries).Uses (Call.working statuses) := by
    simp only [Api.retryJob, Program.perform_bind, Program.uses_call]
    refine ⟨trivial, fun found => ?_⟩
    obtain error | _ | existing := found
    · exact trivial
    · exact trivial
    · simp only
      split
      · refine ⟨trivial, fun reply => ?_⟩
        obtain error | _ | updated := reply
        · exact trivial
        · exact trivial
        · refine ⟨trivial, fun _ => ⟨fun dlq => absurd dlq (Redis.lane_ne_dlq _), fun reply => ?_⟩⟩
          cases reply <;> exact trivial
      · exact trivial
  exact Program.uses_bind retries fun _ => trivial

theorem delete_uses (id : JobId) : ((Entry.delete id).program proc).Uses (Call.working statuses) := by
  have removes (priority : Priority) : (Api.removeFromQueue id priority).Uses (Call.working statuses) := by
    apply (removeFromQueue_removes id priority).mono
    intro c removes
    cases c with
    | command command => cases command <;> first | exact trivial | cases removes
    | scanPages | zscan => exact trivial
    | _ => cases removes
  have deletes : (Api.deleteJob id).Uses (Call.working statuses) := by
    simp only [Api.deleteJob, Program.perform_bind, Program.uses_call]
    refine ⟨trivial, fun found => ?_⟩
    obtain error | _ | existing := found
    · exact trivial
    · exact trivial
    · simp only
      split
      · exact trivial
      · split
        · exact trivial
        · refine ⟨trivial, fun reply => ?_⟩
          obtain error | _ | row := reply
          · exact trivial
          · exact trivial
          · exact Program.uses_bind (removes existing.priority) fun _ => trivial
  exact Program.uses_bind deletes fun _ => trivial

theorem poll_uses : (Entry.poll.program proc).Uses (Call.working statuses) := by
  refine ⟨trivial, fun tick => ⟨trivial, fun reply => ?_⟩⟩
  cases reply <;> exact trivial

theorem cron_uses (cj : CronJob) : ((Entry.cron cj).program proc).Uses (Call.working statuses) := by
  have enqueued : (Scheduler.runCronJob cj).Uses (Call.working statuses) := by
    simp only [Scheduler.runCronJob, Program.perform_bind, Program.uses_call]
    exact ⟨trivial, fun id => ⟨trivial, fun now =>
      Program.uses_bind (enqueue_calls _).uses fun _ => trivial⟩⟩
  exact Program.uses_bind enqueued fun _ => trivial

theorem scheduleDelayed_uses (job : Job) (scheduledAt : Time) :
    ((Entry.scheduleDelayed job scheduledAt).program proc).Uses (Call.working statuses) :=
  Program.uses_bind (enqueueDelayed_calls job scheduledAt).uses fun _ => trivial

theorem Entry.uses_working {entry : Entry} (own : entry.isTaskfire = true) :
    (entry.program proc).Uses (Call.working Processor.statuses) := by
  cases entry with
  | create input => exact create_uses input
  | delete id => exact delete_uses id
  | retry id resetRetries => exact retry_uses id resetRetries
  | work => exact Program.uses_bind fetchAndProcess_uses fun _ => trivial
  | poll => exact poll_uses
  | cron cj => exact cron_uses cj
  | scheduleDelayed job scheduledAt => exact scheduleDelayed_uses job scheduledAt
  | enqueue | enqueueJob | enqueueDelayedJob | drain | claimAndRelease =>
    exact absurd own Bool.false_ne_true

end

end Taskfire
