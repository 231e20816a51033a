import Taskfire.Safety.Cancellation

/-!
# The order of a thread's updates

A thread marks the row active before it deals with the handler, completed after a handler that
returned nil, and pending or dead after a failure.  The record goes back to where it waits before the
row was marked, or after the failure, and a thread that has marked the row goes on to the handler.
`Entry.ordered` proves this of all programs, whatever the stores reply.
-/

namespace Taskfire

open Taskfire.Library

/-- The thread may write the status. -/
def Role.mayMark (role : Role) : JobStatus → Prop
  | .active => role.attempt = .due ∧ role.token = .owed
  | .completed => role.attempt = .passed
  | .pending | .dead => role.attempt = .failed
  | .failed => False

/-- The thread may put its record back. -/
def Role.mayReturn (role : Role) : Prop := role.attempt = .due → role.token = .owed

def Session.mayCall (session : Session) : Call → Prop
  | .updateJobStatus job =>
    session.toRole.mayMark job.status ∧ (job.status = .pending → job.startedAt = none)
  | .command (.zadd key _ _) => key ≠ .dlq → session.toRole.mayReturn
  | _ => True

/-- The row was marked active, and the thread has not come to the handler. -/
def Role.awaits (role : Role) : Prop := role.token = .active ∧ role.attempt = .due

/-- The program keeps to the order from the session on. -/
abbrev KeepsOrder {α : Type} (final : α → Session → Prop) (session : Session) (program : Prog α) : Prop :=
  program.Follows Session.mayCall Session.advance (fun _ _ => True) final session

abbrev Ordered {α : Type} (session : Session) (program : Prog α) : Prop :=
  KeepsOrder (fun _ last => ¬last.awaits) session program

/-- The program ends before the row is marked. -/
abbrev OrderedBefore {α : Type} (session : Session) (program : Prog α) : Prop :=
  KeepsOrder (fun _ last => last.token ≠ .active) session program

theorem ordered_of_before {α : Type} {session : Session} {program : Prog α}
    (before : OrderedBefore session program) : Ordered session program :=
  before.mono fun _ _ unmarked awaits => unmarked awaits.1

/-! ## After the attempt -/

/-- The calls of a thread whose attempt has ended. -/
def Call.after (attempt : Attempt) : Call → Prop
  | .updateJobStatus job => (attempt = .passed ∧ job.status = .completed) ∨
      (attempt = .failed ∧ (job.status = .dead ∨ (job.status = .pending ∧ job.startedAt = none)))
  | .findHandler _ | .startHandler _ | .awaitHandler _ => False
  | _ => True

section Ended

variable {attempt : Attempt} {session : Session} {α : Type} {program : Prog α}

theorem advance_attempt {c : Call} (after : c.after attempt) (reply : c.Reply) :
    (session.advance c reply).attempt = session.attempt := by
  cases c with
  | insertJob => cases reply <;> rfl
  | cancelJob | requeueJob | claim =>
    obtain error | _ | found := reply <;> rfl
  | command command =>
    cases command with
    | zadd key => cases reply <;> cases key <;> rfl
    | _ => rfl
  | findHandler | startHandler | awaitHandler => cases after
  | _ => rfl

theorem after_mayCall {c : Call} (ended : session.attempt = attempt) (past : attempt ≠ .due)
    (after : c.after attempt) : session.mayCall c := by
  cases c with
  | updateJobStatus job =>
    obtain ⟨passed, completed⟩ | ⟨failed, dead | ⟨pending, cleared⟩⟩ := after
    · simp [Session.mayCall, Role.mayMark, completed, ended, passed]
    · simp [Session.mayCall, Role.mayMark, dead, ended, failed]
    · simp [Session.mayCall, Role.mayMark, pending, cleared, ended, failed]
  | command command =>
    cases command with
    | zadd => exact fun _ due => absurd (ended.symm.trans due) past
    | _ => exact trivial
  | findHandler | startHandler | awaitHandler => cases after
  | _ => exact trivial

/-- A program that only makes such calls keeps to the order. -/
theorem ordered_after (uses : program.Uses (Call.after attempt)) (past : attempt ≠ .due)
    (ended : session.attempt = attempt) : Ordered session program := by
  have returns : program.Returns (fun _ _ => True) fun _ => True :=
    Program.returns_of_forall _ fun _ => trivial
  apply (uses.follows_within (fun session => session.attempt = attempt) returns ended ?_ ?_).mono
  · exact fun _ _ ended awaits => past (ended.1.symm.trans awaits.2)
  · exact fun session c ended after => after_mayCall ended past after
  · exact fun session c reply ended after => (advance_attempt after reply).trans ended

end Ended

theorem pipeline_after {attempt : Attempt} (commands : List Command) :
    (pipeline commands).Uses (Call.after attempt) := by
  induction commands with
  | nil => exact trivial
  | cons command commands inductionHypothesis =>
    simp only [pipeline, Program.perform_bind, Program.uses_call]
    exact ⟨trivial, fun reply => Program.uses_bind inductionHypothesis fun _ => trivial⟩

theorem nack_after {attempt : Attempt} (job : Job) : (nack job).Uses (Call.after attempt) :=
  Program.uses_bind (pipeline_after _) fun _ => trivial

theorem moveToDLQ_after {attempt : Attempt} (job : Job) (reason : GoError) :
    (moveToDLQ job reason).Uses (Call.after attempt) := by
  simp only [moveToDLQ, Program.perform_bind, Program.uses_call]
  exact ⟨trivial, fun now => Program.uses_bind (pipeline_after _) fun _ => trivial⟩

theorem sendToDLQ_after (job : Job) (reason : GoError) :
    (Processor.sendToDLQ job reason).Uses (Call.after .failed) := by
  simp only [Processor.sendToDLQ, publishEvent, Program.perform_bind, Program.call_bind,
    Program.pure_eq, Program.pure_bind, Program.uses_call]
  refine ⟨trivial, fun now => ⟨.inr ⟨rfl, .inl rfl⟩, fun _ => ⟨trivial, fun _ => ?_⟩⟩⟩
  apply Program.uses_bind (moveToDLQ_after _ reason)
  intro error
  cases error <;> exact trivial

theorem retryJob_after (job : Job) (cause : GoError) :
    (Processor.retryJob job cause).Uses (Call.after .failed) := by
  simp only [Processor.retryJob, publishEvent, Program.perform_bind, Program.call_bind,
    Program.pure_eq, Program.pure_bind, Program.uses_call]
  refine ⟨.inr ⟨rfl, .inr ⟨rfl, rfl⟩⟩, fun _ => ⟨trivial, fun now => ⟨trivial, fun _ => ?_⟩⟩⟩
  have enqueues (job : Job) : (enqueue job).Uses (Call.after .failed) :=
    ⟨trivial, fun _ => ⟨trivial, fun _ => trivial⟩⟩
  apply Program.uses_bind (enqueues _)
  intro error
  cases error with
  | some error => exact sendToDLQ_after _ error
  | none => exact trivial

theorem handleFailure_after {proc : Processor} (job : Job) (cause : GoError) :
    (proc.handleFailure job cause).Uses (Call.after .failed) := by
  have waits (jobType : String) (attempt : Int) :
      (proc.retrier.wait jobType attempt).Uses (Call.after .failed) := by
    rw [Retry.Manager.wait]
    split
    · exact trivial
    · exact ⟨trivial, fun _ => trivial⟩
  simp only [Processor.handleFailure]
  apply Program.uses_bind (nack_after _)
  intro error
  simp only [Program.perform_bind, Program.uses_call]
  refine ⟨trivial, fun _ => Program.uses_bind (waits _ _) ?_⟩
  intro waitErr
  cases waitErr with
  | some error => exact sendToDLQ_after _ error
  | none => exact retryJob_after _ cause

theorem complete_after (job : Job) : (Processor.complete job).Uses (Call.after .passed) := by
  simp only [Processor.complete, publishEvent, Program.perform_bind, Program.call_bind,
    Program.pure_eq, Program.pure_bind, Program.uses_call]
  refine ⟨trivial, fun completed => ⟨trivial, fun _ => ⟨.inl ⟨rfl, rfl⟩, fun _ => ⟨trivial, fun _ => ?_⟩⟩⟩⟩
  exact Program.uses_bind (pipeline_after _) fun _ => trivial

/-! ## The worker -/

section Worker

variable {session : Session} {proc : Processor}

theorem runHandler_ordered (job : Job) : Ordered session (proc.runHandler job) := by
  have failed (session : Session) (cause : GoError) (failed : session.attempt = .failed) :
      Ordered session (proc.handleFailure job cause) :=
    ordered_after (handleFailure_after job cause) (by decide) failed
  simp only [Processor.runHandler, safeRun, Program.perform_bind, Program.follows_call]
  refine ⟨trivial, fun found _ => ?_⟩
  cases found with
  | false => exact ⟨trivial, fun _ _ => failed _ _ rfl⟩
  | true =>
    refine ⟨trivial, fun _ _ => ⟨trivial, fun outcome _ => ?_⟩⟩
    cases outcome with
    | returnedNil => exact ordered_after (complete_after job) (by decide) rfl
    | returned error => exact ⟨trivial, fun _ _ => failed _ error rfl⟩
    | panicked value => exact ⟨trivial, fun _ _ => failed _ _ rfl⟩

theorem execute_ordered (job : Job) (due : session.attempt = .due) (owed : session.token = .owed) :
    Ordered session (proc.execute job) := by
  simp only [Processor.execute, publishEvent, Program.perform_bind, Program.call_bind,
    Program.pure_eq, Program.pure_bind, Program.follows_call]
  refine ⟨trivial, fun now _ => ⟨⟨⟨due, owed⟩, by simp⟩, fun _ _ => ⟨trivial, fun _ _ => ?_⟩⟩⟩
  exact runHandler_ordered _

/-- A thread that puts its record somewhere does not have it any more. -/
theorem zadd_before {key : ZKey} {score : Int} {member : Member} (owed : session.token = .owed) :
    OrderedBefore session (invoke (.command (.zadd key score member))) := by
  refine ⟨fun _ _ => owed, fun reply _ => ?_⟩
  cases reply with
  | error error =>
    show session.token ≠ .active
    rw [owed]
    decide
  | ok done => cases key <;> exact Token.noConfusion

theorem enqueue_before (job : Job) (owed : session.token = .owed) :
    OrderedBefore session (enqueue job) :=
  ⟨trivial, fun _ _ => (zadd_before owed).bind fun _ _ unmarked => unmarked⟩

theorem enqueueDelayed_before (job : Job) (scheduledAt : Time) (owed : session.token = .owed) :
    OrderedBefore session (enqueueDelayed job scheduledAt) :=
  (zadd_before owed).bind fun _ _ unmarked => unmarked

/-- The calls that neither write a row nor put a record anywhere. -/
def Call.plain : Call → Prop
  | .updateJobStatus _ | .command (.zadd _ _ _) => False
  | _ => True

/-- They are in order everywhere, and never leave a row marked. -/
theorem before_of_plain {α : Type} {program : Prog α} (plain : program.Uses Call.plain)
    (unmarked : session.token ≠ .active) : OrderedBefore session program := by
  have returns : program.Returns (fun _ _ => True) fun _ => True :=
    Program.returns_of_forall _ fun _ => trivial
  apply (plain.follows_within (fun session => session.token ≠ .active) returns unmarked ?_ ?_).mono
  · exact fun _ _ ended => ended.1
  · intro session c _ plain
    cases c with
    | updateJobStatus => cases plain
    | command command =>
      cases command with
      | zadd => cases plain
      | _ => exact trivial
    | _ => exact trivial
  · intro session c reply unmarked plain
    cases c with
    | updateJobStatus => cases plain
    | command command =>
      cases command with
      | zadd => cases plain
      | _ => exact unmarked
    | insertJob =>
      obtain error | row := reply
      · exact unmarked
      · exact Token.noConfusion
    | cancelJob =>
      obtain error | _ | row := reply <;> exact unmarked
    | requeueJob | claim =>
      obtain error | _ | found := reply
      · exact unmarked
      · exact unmarked
      · exact Token.noConfusion
    | findHandler => cases reply <;> exact unmarked
    | awaitHandler => cases reply <;> exact unmarked
    | _ => exact unmarked

theorem nack_plain (job : Job) : (nack job).Uses Call.plain :=
  ⟨trivial, fun _ => ⟨trivial, fun _ => trivial⟩⟩

theorem process_ordered (job : Job) (due : session.attempt = .due) (owed : session.token = .owed) :
    Ordered session (proc.process job) := by
  have checked : KeepsOrder (fun _ last => last = session) session (proc.canRun job) := by
    have returns : (proc.canRun job).Returns (fun _ _ => True) fun _ => True :=
      Program.returns_of_forall _ fun _ => trivial
    apply ((proc.canRun_uses job).follows returns ?_ ?_).mono
    · intro _ _ ended
      exact ended.1
    · intro c reads
      cases c <;> trivial
    · intro c reply reads
      cases c <;> first | rfl | cases reads
  apply checked.bind
  intro outcome last same
  subst same
  have unmarked : last.token ≠ .active := by
    rw [owed]
    decide
  cases outcome with
  | error error =>
    exact ordered_of_before
      (before_of_plain (Program.uses_bind (nack_plain job) fun _ => trivial) unmarked)
  | ok allowed =>
    cases allowed with
    | true => exact execute_ordered job due owed
    | false =>
      -- The claim is released first, which changes nothing of the record.
      refine ⟨trivial, fun _ _ => ⟨trivial, fun _ _ => ⟨trivial, fun now _ => ?_⟩⟩⟩
      have delayed (session : Session) (owed : session.token = .owed) : OrderedBefore session (do
          let _ ← enqueueDelayed job (now + 5 * second)
          pure none : Prog (Option GoError)) :=
        (enqueueDelayed_before job (now + 5 * second) owed).bind fun _ _ unmarked => unmarked
      exact ordered_of_before (delayed _ owed)

theorem handBack_before (job : Job) (owed : session.token = .owed) :
    OrderedBefore session (Processor.handBack job) := by
  let pending : Job := { job with status := .pending }
  apply (enqueue_before pending owed).bind
  intro error last unmarked
  exact before_of_plain (Program.uses_bind (nack_plain pending) fun _ => trivial) unmarked

/-- A thread that dequeues a job owes its record a place. -/
theorem dequeue_keepsOrder (due : session.attempt = .due) (unmarked : session.token ≠ .active) :
    KeepsOrder (fun outcome last => last.token ≠ .active ∧ ∀ job, outcome = .ok (some job) →
      last.attempt = .due ∧ last.token = .owed) session dequeue := by
  rw [dequeue_eq]
  refine ⟨trivial, fun reply _ => ⟨?_, fun job found => ?_⟩⟩
  · obtain error | _ | raw := reply
    · exact unmarked
    · exact unmarked
    · exact Token.noConfusion
  · obtain ⟨raw, claimed, _⟩ := received_some_iff.mp found
    subst claimed
    exact ⟨due, rfl⟩

theorem fetchAndProcess_ordered (due : session.attempt = .due) (unmarked : session.token ≠ .active) :
    Ordered session proc.fetchAndProcess := by
  simp only [Processor.fetchAndProcess]
  apply (dequeue_keepsOrder due unmarked).bind
  intro outcome last dequeued
  obtain ⟨unmarked, claimed⟩ := dequeued
  obtain error | _ | job := outcome
  · exact fun awaits => unmarked awaits.1
  · exact fun awaits => unmarked awaits.1
  · obtain ⟨due, owed⟩ := claimed job rfl
    simp only [Program.perform_bind, Program.follows_call]
    refine ⟨trivial, fun delivered _ => ?_⟩
    cases delivered with
    | true => exact (process_ordered job due owed).bind fun _ _ calm => calm
    | false => exact ordered_of_before (handBack_before job owed)

end Worker

/-! ## The API -/

section Api

variable {session : Session}

theorem enqueueJob_before (payload : EnqueuePayload) (owed : session.token = .owed) :
    OrderedBefore session (Api.enqueueJob payload) :=
  ⟨trivial, fun _ _ => zadd_before owed⟩

theorem enqueueCreated_before (payload : EnqueuePayload) (scheduledAt : Option Time) (now : Time)
    (owed : session.token = .owed) :
    OrderedBefore session (Api.enqueueCreated payload scheduledAt now) := by
  simp only [Api.enqueueCreated]
  split
  · split
    · exact zadd_before owed
    · exact enqueueJob_before payload owed
  · exact enqueueJob_before payload owed

theorem createJob_before (input : CreateJobInput) (unmarked : session.token ≠ .active) :
    OrderedBefore session (Api.createJob input) := by
  simp only [Api.createJob, Program.perform_bind, Program.follows_call]
  refine ⟨trivial, fun now _ => ⟨trivial, fun id _ => ⟨trivial, fun reply _ => ?_⟩⟩⟩
  cases reply with
  | error error => exact unmarked
  | ok row =>
    apply (enqueueCreated_before (row.enqueuePayload id 0) input.scheduledAt now rfl).bind
    intro reply _ unmarked
    cases reply <;> exact unmarked

theorem retryRequest_before (id : JobId) (resetRetries : Bool) (unmarked : session.token ≠ .active) :
    OrderedBefore session (Api.retryJob id resetRetries) := by
  simp only [Api.retryJob, Program.perform_bind, Program.follows_call]
  refine ⟨trivial, fun found _ => ?_⟩
  obtain error | _ | existing := found
  · exact unmarked
  · exact unmarked
  · simp only
    split
    · refine ⟨trivial, fun reply _ => ?_⟩
      obtain error | _ | updated := reply
      · exact unmarked
      · exact unmarked
      · apply (enqueueJob_before (updated.enqueuePayload id updated.retryCount) rfl).bind
        intro reply _ unmarked
        cases reply <;> exact unmarked
    · exact unmarked

theorem deleteJob_plain (id : JobId) : (Api.deleteJob id).Uses Call.plain := by
  have removes (priority : Priority) : (Api.removeFromQueue id priority).Uses Call.plain := by
    apply (removeFromQueue_removes id priority).mono
    intro c removes
    cases c with
    | command command => cases command <;> trivial
    | scanPages | zscan => trivial
    | _ => cases removes
  simp only [Api.deleteJob, Program.perform_bind, Program.uses_call]
  refine ⟨trivial, fun found => ?_⟩
  obtain error | _ | existing := found
  · exact trivial
  · exact trivial
  · simp only
    split
    · exact trivial
    · split
      · exact trivial
      · refine ⟨trivial, fun reply => ?_⟩
        obtain error | _ | row := reply
        · exact trivial
        · exact trivial
        · exact Program.uses_bind (removes existing.priority) fun _ => trivial

end Api

/-- A program that has ended before the row is marked keeps to the order. -/
theorem ordered_finished {α : Type} {session : Session} {program : Prog α} {result : α → Result}
    (before : OrderedBefore session program) :
    Ordered session (program >>= fun outcome => pure (result outcome)) :=
  ordered_of_before (before.bind fun _ _ unmarked => unmarked)

/-- Every program of the system keeps to the order. -/
theorem Entry.ordered {proc : Processor} {entry : Entry} (own : entry.isTaskfire = true) :
    Ordered entry.session (entry.program proc) := by
  have absent {entry : Entry} : { Session.rest with entry := some entry }.token ≠ .active :=
    Token.noConfusion
  cases entry with
  | create input => exact ordered_finished (createJob_before input absent)
  | delete id => exact ordered_finished (before_of_plain (deleteJob_plain id) Token.noConfusion)
  | retry id resetRetries =>
    exact ordered_finished (retryRequest_before id resetRetries Token.noConfusion)
  | work => exact (fetchAndProcess_ordered rfl absent).bind fun _ _ calm => calm
  | poll =>
    refine ⟨trivial, fun tick _ => ⟨trivial, fun reply _ => ?_⟩⟩
    cases reply <;> exact fun awaits => absent awaits.1
  | cron cj =>
    have enqueued (session : Session) (job : Job) (owed : session.token = .owed) :
        Ordered session (do
          let _ ← Taskfire.enqueue job
          pure .finished : Prog Result) :=
      ordered_finished (enqueue_before job owed)
    exact ⟨trivial, fun _ _ => ⟨trivial, fun _ _ => enqueued _ _ rfl⟩⟩
  | scheduleDelayed job scheduledAt =>
    exact ordered_finished (enqueueDelayed_before job scheduledAt rfl)
  | enqueue | enqueueJob | enqueueDelayedJob | drain | claimAndRelease =>
    exact absurd own Bool.false_ne_true

end Taskfire
