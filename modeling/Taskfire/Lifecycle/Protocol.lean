import Taskfire.Lifecycle.Places

/-!
# The protocol of a thread

Every thread keeps to one protocol, whatever the stores reply: it only touches the job its session
names, it writes the row and puts the record somewhere only while it still owes the record a place,
and it ends without a half-released claim.  `Entry.conforms` proves this of all programs at once;
the rest of the development never looks inside a program again.
-/

namespace Taskfire

open Taskfire.Library

/-! ## The protocol -/

/-- Which replies are expected, and what may be asked for in return. -/
structure Discipline where
  /-- The stores can be reached. -/
  strict : Prop
  /-- The threads are bare clients of the queue. -/
  bare : Prop
  /-- The dependency check returns no error. -/
  settles : Prop
  /-- Records only come from rows: there are no cron jobs and no enqueues of a client's own. -/
  rooted : Prop
  /-- Where a worker claims, `cjson` reads every record of the job in the lanes. -/
  legible : Prop
  /-- The failures after which a record of a type is no longer put back. -/
  budget : String → Int

/-- What is known of every reply. -/
def Call.wellFormed : (c : Call) → c.Reply → Prop
  | .insertJob _, reply => ∀ row, reply = .ok row → row.retryCount = 0
  | .claim, reply => ∀ member, reply = .ok (some member) → member.id? ≠ none
  | _, _ => True

namespace Session

/-- The thread may write the row of `job`, whose record it carries. -/
def owns (session : Session) (job : Job) : Prop :=
  session.job = some job.id ∧ session.token.isOpen = true ∧ job.brief = session.brief

end Session

namespace Discipline

variable (d : Discipline)

def admits (c : Call) (reply : c.Reply) : Prop :=
  c.wellFormed reply ∧ (d.strict → c.served reply = true)

/-- The token of a thread that has just got its job. -/
def mayEnter (token : Token) : Prop := token = .absent ∨ (token = .owed ∧ ¬ d.rooted)

/-- The record may be put back: nothing was tried, or the failures so far are within the budget. -/
def mayPlace (role : Role) : Prop :=
  role.attempt = .due ∨
    (role.attempt = .failed ∧ role.brief.retryCount < d.budget role.brief.jobType)

/-- The thread has tried to mark the row of `job` active and is about to deal with the handler. -/
def mayHandle (session : Session) (job : Job) (attempt : Attempt) : Prop :=
  session.owns job ∧ session.token ≠ .owed ∧ session.stage = .claimed ∧ session.attempt = attempt

def permitsCommand (session : Session) : Command → Prop
  | .zadd .dlq _ member =>
    member.id? ≠ none ∧ session.job = member.id? ∧
      (session.token = .dying ∨ session.token = .unmarked .dead ∨
        (d.bare ∧ session.token.isOpen = true))
  | .zadd _ _ member =>
    member.id? ≠ none ∧ session.job = member.id? ∧ session.token.isOpen = true ∧
      member.brief = session.brief ∧ d.mayPlace session.toRole
  | .zrem key member => key ≠ .dlq ∧ session.job = member.id? ∧ session.stage = .cancelled
  | .hdelProcessing id =>
    session.job = some id ∧ session.attempt ≠ .running ∧
      (session.stage = .claimed ∨ session.stage = .requeued ∨
        (session.stage = .released ∧ ¬ d.bare))
  | .delLock id =>
    session.job = some id ∧ (session.stage = .releasing ∨ (session.stage = .again ∧ ¬ d.bare))
  | .lpushDone _ | .ltrimDone _ | .publish _ => True

def permits (session : Session) : Call → Prop
  | .insertJob params => session.job = some params.id ∧ session.token = .absent
  | .cancelJob id => session.job = some id ∧ session.stage = .idle
  | .requeueJob id _ => session.job = some id ∧ session.token = .absent
  | .updateJobStatus job => session.owns job
  | .command command => d.permitsCommand session command
  | .claim => session.job = none ∧ session.attempt = .due
  | .findHandler job => mayHandle session job .due
  | .startHandler job => mayHandle session job .due
  | .awaitHandler job => mayHandle session job .running
  | .randomUUID => session.job = none ∧ session.stage = .idle ∧ session.attempt = .due ∧
      d.mayEnter session.token
  | _ => True

/-- What a thread that ends has left behind. -/
def final (role : Role) : Prop :=
  (role.stage = .idle ∨ role.stage = .cancelled ∨ role.stage = .released) ∧
    (d.strict → ¬ d.bare → role.token ≠ .dying) ∧
    (d.strict → ¬ d.bare → d.settles → role.token ≠ .owed)

end Discipline

abbrev Conforms {α : Type} (d : Discipline) (final : α → Session → Prop) (session : Session)
    (program : Prog α) : Prop :=
  program.Follows d.permits Session.advance d.admits final session

/-- The program conforms and leaves nothing half done. -/
abbrev Completes {α : Type} (d : Discipline) (session : Session) (program : Prog α) : Prop :=
  Conforms d (fun _ session => d.final session.toRole) session program

/-! ## Dependency checks -/

/-- Where the stores can be reached, the dependency check returns no error. -/
def Processor.NeverErrs (proc : Processor) : Prop :=
  ∀ job, (proc.canRun job).Returns (fun c reply => c.served reply = true)
    fun outcome => outcome.isOk = true

theorem Engine.neverErrs (retrier : Retry.Manager) :
    Processor.NeverErrs ⟨some Engine.checker, retrier⟩ := by
  intro job
  simp only [Processor.canRun, Engine.checker, Engine.canRun]
  split
  · rfl
  · simp only [Program.perform_bind, Program.returns_call]
    intro reply served
    cases reply with
    | error error => cases served
    | ok statuses => rfl

theorem Processor.canRun_conforms {d : Discipline} {proc : Processor} (job : Job)
    (session : Session) (settles : d.settles → proc.NeverErrs) :
    Conforms d (fun outcome last => last = session ∧
      (d.strict → d.settles → outcome.isOk = true)) session (proc.canRun job) := by
  refine (proc.canRun_uses job).follows ?_ ?_ ?_
  -- Nothing is claimed of the answer where an error may come back.
  · by_cases expected : d.strict ∧ d.settles
    · exact (settles expected.2 job).mono (fun c reply admitted => admitted.2 expected.1)
        fun outcome ok _ _ => ok
    · exact Program.returns_of_forall _ fun outcome strict settled =>
        absurd ⟨strict, settled⟩ expected
  · intro c reads
    cases c <;> trivial
  · intro c reply reads
    cases c <;> first | rfl | cases reads

/-! ## The worker -/

section Worker

variable {d : Discipline} {entry : Option Entry} {stage : Stage} {token : Token}
variable {brief : Brief} {attempt : Attempt}

attribute [local simp] Discipline.permits Discipline.permitsCommand Discipline.mayHandle
  Discipline.admits Call.wellFormed Call.served Call.constrained Call.succeeded Session.owns Session.advance Session.advanceCommand
  Session.unlisted Session.unlocked Session.placed Session.wrote Stage.unlisted Token.marked

/-- A reply is an error only where the stores cannot be reached. -/
@[elab_as_elim]
theorem of_reply {α : Type} {holds : Except StoreError α → Prop} (served : ∀ value, holds (.ok value))
    (failed : ¬ d.strict → ∀ error, holds (.error error)) (reply : Except StoreError α)
    (admitted : d.strict → reply.isOk = true) : holds reply := by
  cases reply with
  | ok value => exact served value
  | error error => exact failed (fun strict => absurd (admitted strict) Bool.false_ne_true) error

theorem nack_conforms {final : Option GoError → Session → Prop} (job : Job)
    (still : attempt ≠ .running) (held : stage = .claimed ∨ stage = .requeued)
    (rest : ∀ error, final error ⟨⟨.released, token, brief, attempt⟩, entry, some job.id⟩) :
    Conforms d final ⟨⟨stage, token, brief, attempt⟩, entry, some job.id⟩ (nack job) := by
  obtain rfl | rfl := held <;> simp [nack, pipeline, still, rest]

theorem ack_conforms {final : Option GoError → Session → Prop} (job : Job)
    (still : attempt ≠ .running)
    (rest : ∀ error, final error ⟨⟨.released, token, brief, attempt⟩, entry, some job.id⟩) :
    Conforms d final ⟨⟨.claimed, token, brief, attempt⟩, entry, some job.id⟩ (ack job) := by
  simp [ack, pipeline, still, rest]

/-- A release through the dead-letter set; its record may stay behind where a store call fails. -/
theorem moveToDLQ_conforms {final : Option GoError → Session → Prop} {job : Job} {reason : GoError}
    (still : attempt ≠ .running) (held : stage = .claimed ∨ (stage = .released ∧ ¬ d.bare))
    (due : token = .dying ∨ token = .unmarked .dead ∨ (d.bare ∧ token.isOpen = true))
    (buried : ∀ error, final error ⟨⟨.released, .buried, brief, attempt⟩, entry, some job.id⟩)
    (left : ¬ d.strict → ∀ error,
      final error ⟨⟨.released, token, brief, attempt⟩, entry, some job.id⟩) :
    Conforms d final ⟨⟨stage, token, brief, attempt⟩, entry, some job.id⟩
      (moveToDLQ job reason) := by
  have named : ∀ now, (job.deadAt now reason).id = job.id := fun now => rfl
  have stored (reply : Except StoreError Unit)
      (admitted : d.strict → reply.isOk = true) : ∀ error, final error
        (if reply.isOk = true then ⟨⟨.released, .buried, brief, attempt⟩, entry, some job.id⟩
          else ⟨⟨.released, token, brief, attempt⟩, entry, some job.id⟩) := by
    intro error
    exact of_reply (fun _ => buried error) (fun lax _ => left lax error) reply admitted
  rcases held with rfl | ⟨rfl, whole⟩
  · simp only [moveToDLQ, pipeline]
    simp [named, still]
    exact fun now _ _ _ _ => ⟨due, fun reply admitted => stored reply admitted _⟩
  · simp only [moveToDLQ, pipeline]
    simp [named, still, whole]
    exact fun now _ _ _ _ => ⟨by simpa [whole] using due, fun reply admitted => stored reply admitted _⟩

theorem enqueue_conforms {final : Option GoError → Session → Prop} (job : Job)
    (opened : token.isOpen = true) (may : d.mayPlace ⟨stage, token, job.brief, attempt⟩)
    (placed : final none ⟨⟨stage.putBack, .placed, job.brief, attempt⟩, entry, some job.id⟩)
    (left : ¬ d.strict → ∀ error,
      final (some error) ⟨⟨stage, token, job.brief, attempt⟩, entry, some job.id⟩) :
    Conforms d final ⟨⟨stage, token, job.brief, attempt⟩, entry, some job.id⟩ (enqueue job) := by
  simp only [enqueue]
  simp [opened]
  refine ⟨may, fun reply admitted => ?_⟩
  exact of_reply (fun _ => placed) (fun lax _ => left lax _) reply admitted

theorem enqueueDelayed_conforms {final : Option GoError → Session → Prop} (job : Job)
    {scheduledAt : Time} (opened : token.isOpen = true)
    (may : d.mayPlace ⟨stage, token, job.brief, attempt⟩)
    (placed : final none ⟨⟨stage.putBack, .placed, job.brief, attempt⟩, entry, some job.id⟩)
    (left : ¬ d.strict → ∀ error,
      final (some error) ⟨⟨stage, token, job.brief, attempt⟩, entry, some job.id⟩) :
    Conforms d final ⟨⟨stage, token, job.brief, attempt⟩, entry, some job.id⟩
      (enqueueDelayed job scheduledAt) := by
  simp only [enqueueDelayed]
  simp [opened]
  refine ⟨⟨rfl, may⟩, fun reply admitted => ?_⟩
  exact of_reply (fun _ => placed) (fun lax _ => left lax _) reply admitted

/-! ### After a failure -/

theorem released_final (due : d.strict → token ≠ .dying)
    (settled : d.strict → d.settles → token ≠ .owed) :
    d.final ⟨.released, token, brief, attempt⟩ :=
  ⟨.inr (.inr rfl), fun strict _ => due strict, fun strict _ => settled strict⟩

theorem sendToDLQ_conforms (job : Job) {reason : GoError} (opened : token.isOpen = true)
    (still : attempt ≠ .running) (whole : ¬ d.bare) :
    Completes d ⟨⟨.released, token, job.brief, attempt⟩, entry, some job.id⟩
      (Processor.sendToDLQ job reason) := by
  have last (token : Token) (due : d.strict → token = .buried) :
      d.final ⟨.released, token, job.brief, attempt⟩ :=
    released_final (fun strict => by simp [due strict]) fun strict _ => by simp [due strict]
  simp only [Processor.sendToDLQ, publishEvent]
  simp [opened]
  refine fun now => ⟨rfl, fun reply _ _ => ?_⟩
  rw [Program.follows_bind]
  refine moveToDLQ_conforms still (.inr ⟨rfl, whole⟩) ?_ ?_ ?_
  · cases reply with
    | ok done => exact .inl rfl
    | error failure => exact .inr (.inl rfl)
  · intro error
    have buried := last .buried fun _ => rfl
    cases error <;> exact buried
  · intro lax error
    have left (token : Token) := last token fun strict => absurd strict lax
    cases error <;> exact left _

/-- The end of `retryJob`: the record goes back to its lane, or to the dead-letter set. -/
theorem requeued_conforms (job : Job) {cause : GoError} (opened : token.isOpen = true)
    (whole : ¬ d.bare) (within : job.retryCount < d.budget job.jobType) :
    Completes d ⟨⟨.released, token, job.brief, .failed⟩, entry, some job.id⟩
      (do
        match ← enqueue job with
        | some error => Processor.sendToDLQ job error
        | none => pure (some cause)) := by
  apply (Program.follows_bind ..).mpr
  refine enqueue_conforms job opened (.inr ⟨rfl, within⟩) ?_ ?_
  · exact released_final (fun _ => by simp) fun _ _ => by simp
  · intro lax error
    exact sendToDLQ_conforms job opened (by simp) whole

theorem retryJob_conforms (job : Job) {cause : GoError} (opened : token.isOpen = true)
    (whole : ¬ d.bare) (within : job.retryCount < d.budget job.jobType) :
    Completes d
      ⟨⟨.released, token, job.brief, .failed⟩, entry, some job.id⟩
      (Processor.retryJob job cause) := by
  simp only [Processor.retryJob, publishEvent]
  simp [opened]
  refine ⟨rfl, fun reply _ _ => ?_⟩
  -- The token is open whether the update was accepted or not.
  let waiting : Job := { job with status := .pending, startedAt := none }
  cases reply with
  | ok done => exact requeued_conforms waiting rfl whole within
  | error failure => exact requeued_conforms waiting rfl whole within

/-- What `handleFailure` does with the retry manager's answer. -/
theorem judged_conforms (job : Job) (cause : GoError) (waitErr : Option GoError)
    (opened : token.isOpen = true) (whole : ¬ d.bare)
    (within : waitErr = none → job.retryCount < d.budget job.jobType) :
    Completes d ⟨⟨.released, token, job.brief, .failed⟩, entry, some job.id⟩
      (match waitErr with
        | some waitErr => Processor.sendToDLQ job waitErr
        | none => Processor.retryJob job cause) := by
  cases waitErr with
  | some waitErr => exact sendToDLQ_conforms job opened (by simp) whole
  | none => exact retryJob_conforms job opened whole (within rfl)

theorem handleFailure_conforms {proc : Processor} (job : Job) {cause : GoError}
    (opened : token.isOpen = true) (whole : ¬ d.bare) (budget : d.budget = proc.budget) :
    Completes d
      ⟨⟨.claimed, token, job.brief.failedOnce, .failed⟩, entry, some job.id⟩
      (proc.handleFailure job cause) := by
  let failed : Job := { job with retryCount := goInt (job.retryCount + 1), errorMessage := cause.text }
  simp only [Processor.handleFailure]
  apply (Program.follows_bind ..).mpr
  refine nack_conforms failed (by simp) (.inl rfl) fun _ => ?_
  simp only [Program.perform_bind, Program.follows_call]
  refine ⟨trivial, fun _ _ => ?_⟩
  rw [Retry.Manager.wait]
  split
  · apply judged_conforms failed cause (some Retry.errRetriesExhausted) opened whole
    intro passed
    cases passed
  · next more =>
    have within : failed.retryCount < d.budget failed.jobType := by
      rw [budget]
      exact Int.not_le.mp more
    exact ⟨trivial, fun waitErr _ =>
      judged_conforms failed cause waitErr opened whole fun _ => within⟩

/-! ### Running the handler -/

theorem complete_conforms (job : Job) (opened : token.isOpen = true)
    (still : attempt ≠ .running) :
    Completes d ⟨⟨.claimed, token, job.brief, attempt⟩, entry, some job.id⟩
      (Processor.complete job) := by
  simp only [Processor.complete, publishEvent]
  simp [opened]
  refine fun completed => ⟨rfl, fun reply _ _ => ?_⟩
  refine ack_conforms { job with status := .completed, completedAt := some completed } still
    fun _ => ?_
  cases reply with
  | ok done => exact released_final (by simp) (by simp)
  | error failure => exact released_final (by simp) (by simp)

theorem safeRun_conforms {final : Option GoError → Session → Prop} {job : Job}
    (opened : token.isOpen = true) (tried : token ≠ .owed)
    (succeeded : final none ⟨⟨.claimed, token, job.brief, .passed⟩, entry, some job.id⟩)
    (failed : ∀ error,
      final (some error) ⟨⟨.claimed, token, job.brief.failedOnce, .failed⟩, entry, some job.id⟩) :
    Conforms d final ⟨⟨.claimed, token, job.brief, .due⟩, entry, some job.id⟩
      (safeRun job) := by
  simp only [safeRun]
  simp [opened, tried]
  intro outcome
  cases outcome with
  | returnedNil => exact succeeded
  | returned error => exact failed error
  | panicked value => exact failed _

theorem runHandler_conforms {proc : Processor} (job : Job) (opened : token.isOpen = true)
    (tried : token ≠ .owed) (whole : ¬ d.bare) (budget : d.budget = proc.budget) :
    Completes d ⟨⟨.claimed, token, job.brief, .due⟩, entry, some job.id⟩
      (proc.runHandler job) := by
  simp only [Processor.runHandler, Program.perform_bind, Program.follows_call]
  refine ⟨⟨⟨rfl, opened, rfl⟩, tried, rfl, rfl⟩, fun found _ => ?_⟩
  cases found with
  | true =>
    simp only [if_true]
    rw [Program.follows_bind]
    refine safeRun_conforms opened tried (complete_conforms job opened (by simp)) fun error => ?_
    exact ⟨trivial, fun _ _ => handleFailure_conforms job opened whole budget⟩
  | false => exact ⟨trivial, fun _ _ => handleFailure_conforms job opened whole budget⟩

theorem execute_conforms {proc : Processor} (job : Job) (whole : ¬ d.bare)
    (budget : d.budget = proc.budget) :
    Completes d ⟨⟨.claimed, .owed, job.brief, .due⟩, entry, some job.id⟩
      (proc.execute job) := by
  simp only [Processor.execute, publishEvent]
  simp
  intro now
  refine ⟨⟨rfl, rfl⟩, fun reply _ _ => ?_⟩
  cases reply with
  | ok done =>
    exact runHandler_conforms { job with status := .active, startedAt := some now } rfl
      (by simp) whole budget
  | error failure =>
    exact runHandler_conforms { job with status := .active, startedAt := some now } rfl
      (by simp) whole budget

/-! ### A cycle of the pool -/

theorem process_conforms {proc : Processor} (job : Job) (whole : ¬ d.bare)
    (settles : d.settles → proc.NeverErrs) (budget : d.budget = proc.budget) :
    Completes d ⟨⟨.claimed, .owed, job.brief, .due⟩, entry, some job.id⟩
      (proc.process job) := by
  refine (Processor.canRun_conforms job _ settles).bind ?_
  rintro outcome _ ⟨rfl, ok⟩
  cases outcome with
  | error error =>
    simp only
    rw [Program.follows_bind]
    refine nack_conforms job (by simp) (.inl rfl) fun _ => ?_
    exact released_final (by simp) fun strict settled => by
      simpa [Except.isOk, Except.toBool] using ok strict settled
  | ok allowed =>
    cases allowed with
    | true => exact execute_conforms job whole budget
    | false =>
      simp only
      rw [Program.follows_bind]
      refine nack_conforms job (by simp) (.inl rfl) fun _ => ?_
      simp only [Program.perform_bind, Program.follows_call]
      refine ⟨trivial, fun now _ => ?_⟩
      rw [Program.follows_bind]
      refine enqueueDelayed_conforms job rfl (.inl rfl) ?_ ?_
      · exact released_final (by simp) (by simp)
      · intro lax _
        exact released_final (by simp) fun strict => absurd strict lax

theorem handBack_conforms (job : Job) :
    Completes d ⟨⟨.claimed, .owed, job.brief, .due⟩, entry, some job.id⟩
      (Processor.handBack job) := by
  let pending : Job := { job with status := .pending }
  simp only [Processor.handBack]
  apply (Program.follows_bind ..).mpr
  refine enqueue_conforms pending rfl (.inl rfl) ?_ ?_
  · rw [Program.follows_bind]
    -- The record is back, and a release after that owes nothing.
    exact nack_conforms pending (by simp) (.inr rfl) fun _ => released_final (by simp) (by simp)
  · intro lax _
    rw [Program.follows_bind]
    exact nack_conforms pending (by simp) (.inl rfl) fun _ =>
      released_final (by simp) fun strict => absurd strict lax

/-- A thread without a job dequeues: it gets the record it decodes, or nothing. -/
theorem dequeue_conforms {final : Except GoError (Option Job) → Session → Prop} {session : Session}
    (free : session.job = none ∧ session.attempt = .due)
    (failed : ∀ error, final (.error error) session)
    (empty : final (.ok none) session)
    (claimed : ∀ job : Job, final (.ok (some job))
      ⟨⟨.claimed, .owed, job.brief, .due⟩, session.entry, some job.id⟩) :
    Conforms d final session dequeue := by
  simp only [dequeue, Program.perform_bind, Conforms, Program.follows_call]
  refine ⟨free, fun reply admitted => ?_⟩
  rcases reply with error | _ | member
  · exact failed _
  · exact empty
  · cases member with
    | record json =>
      have taken : session.claimed (.record json) =
          ⟨⟨.claimed, .owed, json.toJob.brief, .due⟩, session.entry, some json.toJob.id⟩ := by
        simp only [Session.claimed, free.2]
        rfl
      simp only [Session.advance, taken]
      exact claimed json.toJob
    | text content => exact absurd rfl (admitted.1 _ rfl)

theorem fetchAndProcess_conforms {proc : Processor} (whole : ¬ d.bare)
    (settles : d.settles → proc.NeverErrs) (budget : d.budget = proc.budget) :
    Completes d ⟨⟨.idle, .absent, ⟨"", 0⟩, .due⟩, entry, none⟩ proc.fetchAndProcess := by
  have idle : d.final ⟨.idle, .absent, ⟨"", 0⟩, .due⟩ :=
    ⟨.inl rfl, fun _ _ => by simp, fun _ _ _ => by simp⟩
  simp only [Processor.fetchAndProcess]
  apply (Program.follows_bind ..).mpr
  refine dequeue_conforms ⟨rfl, rfl⟩ (fun _ => idle) idle fun job => ?_
  simp only [Program.perform_bind, Program.follows_call]
  refine ⟨trivial, fun delivered _ => ?_⟩
  cases delivered with
  | true =>
    simp only [if_true]
    rw [Program.follows_bind]
    exact process_conforms job whole settles budget
  | false => exact handBack_conforms job

/-! ## The API -/

theorem enqueueJob_conforms {final : Except StoreError Unit → Session → Prop}
    (payload : EnqueuePayload) (opened : token.isOpen = true)
    (may : d.mayPlace ⟨stage, token, payload.brief, attempt⟩)
    (placed : final (.ok ())
      ⟨⟨stage.putBack, .placed, payload.brief, attempt⟩, entry, some payload.id⟩)
    (left : ¬ d.strict → ∀ error,
      final (.error error) ⟨⟨stage, token, payload.brief, attempt⟩, entry, some payload.id⟩) :
    Conforms d final ⟨⟨stage, token, payload.brief, attempt⟩, entry, some payload.id⟩
      (Api.enqueueJob payload) := by
  simp only [Api.enqueueJob, Program.perform_bind, Conforms, Program.follows_call]
  refine ⟨trivial, fun now _ => ⟨⟨by simp, rfl, opened, rfl, may⟩, fun reply admitted => ?_⟩⟩
  exact of_reply (fun _ => placed) left reply admitted.2

theorem enqueueDelayedJob_conforms {final : Except StoreError Unit → Session → Prop}
    (payload : EnqueuePayload) {scheduledAt : Time} (opened : token.isOpen = true)
    (may : d.mayPlace ⟨stage, token, payload.brief, attempt⟩)
    (placed : final (.ok ())
      ⟨⟨stage.putBack, .placed, payload.brief, attempt⟩, entry, some payload.id⟩)
    (left : ¬ d.strict → ∀ error,
      final (.error error) ⟨⟨stage, token, payload.brief, attempt⟩, entry, some payload.id⟩) :
    Conforms d final ⟨⟨stage, token, payload.brief, attempt⟩, entry, some payload.id⟩
      (Api.enqueueDelayed payload scheduledAt) := by
  refine ⟨⟨by simp, rfl, opened, rfl, may⟩, fun reply admitted => ?_⟩
  exact of_reply (fun _ => placed) left reply admitted.2

theorem enqueueCreated_conforms {final : Except StoreError Unit → Session → Prop}
    (payload : EnqueuePayload) {scheduledAt : Option Time} {now : Time}
    (opened : token.isOpen = true)
    (may : d.mayPlace ⟨stage, token, payload.brief, attempt⟩)
    (placed : final (.ok ())
      ⟨⟨stage.putBack, .placed, payload.brief, attempt⟩, entry, some payload.id⟩)
    (left : ¬ d.strict → ∀ error,
      final (.error error) ⟨⟨stage, token, payload.brief, attempt⟩, entry, some payload.id⟩) :
    Conforms d final ⟨⟨stage, token, payload.brief, attempt⟩, entry, some payload.id⟩
      (Api.enqueueCreated payload scheduledAt now) := by
  simp only [Api.enqueueCreated]
  split
  · split
    · exact enqueueDelayedJob_conforms payload opened may placed left
    · exact enqueueJob_conforms payload opened may placed left
  · exact enqueueJob_conforms payload opened may placed left

theorem stored_final (strictly : d.strict → token = .placed) :
    d.final ⟨.idle, token, brief, attempt⟩ :=
  ⟨.inl rfl, fun strict _ => by simp [strictly strict],
    fun strict _ _ => by simp [strictly strict]⟩

theorem idle_final : d.final ⟨.idle, .absent, brief, attempt⟩ :=
  ⟨.inl rfl, fun _ _ => by simp, fun _ _ _ => by simp⟩

theorem createJob_conforms (input : CreateJobInput) :
    Completes d ⟨⟨.idle, .absent, ⟨"", 0⟩, .due⟩, entry, none⟩
      (Api.createJob input) := by
  simp only [Api.createJob, Program.perform_bind, Program.follows_call]
  refine ⟨trivial, fun now _ => ⟨⟨rfl, rfl, rfl, .inl rfl⟩, fun id _ => ?_⟩⟩
  refine ⟨⟨rfl, rfl⟩, fun reply admitted => ?_⟩
  cases reply with
  | error error => exact idle_final
  | ok row =>
    -- The row brings the first record of the job, one without a failure.
    have zero : row.retryCount = 0 := admitted.1 row rfl
    simp only [Session.advance, Session.obtained, Row.brief, zero]
    rw [Program.follows_bind]
    refine enqueueCreated_conforms (row.enqueuePayload id 0) rfl (.inl rfl) ?_ ?_
    · exact stored_final fun _ => rfl
    · exact fun lax _ => stored_final fun strict => absurd strict lax

theorem retryRequest_conforms (id : JobId) (resetRetries : Bool) :
    Completes d ⟨⟨.idle, .absent, ⟨"", 0⟩, .due⟩, entry, some id⟩
      (Api.retryJob id resetRetries) := by
  simp only [Api.retryJob, Program.perform_bind, Program.follows_call]
  refine ⟨trivial, fun found _ => ?_⟩
  rcases found with error | _ | existing
  · exact idle_final
  · exact idle_final
  · simp only
    split
    · refine ⟨⟨rfl, rfl⟩, fun reply _ => ?_⟩
      rcases reply with error | _ | updated
      · exact idle_final
      · exact idle_final
      · simp only [Session.advance, Session.obtained]
        rw [Program.follows_bind]
        refine enqueueJob_conforms (updated.enqueuePayload id updated.retryCount) rfl
          (.inl rfl) ?_ ?_
        · exact stored_final fun _ => rfl
        · exact fun lax _ => stored_final fun strict => absurd strict lax
    · exact idle_final

/-! ### The removal after a cancellation -/

theorem removeFromPage_conforms {final : Bool → Session → Prop} {session : Session} {id : JobId}
    {key : ZKey} (job : session.job = some id) (cancelled : session.stage = .cancelled)
    (lane : key ≠ .dlq) (rest : ∀ removed, final removed session) (members : List Member) :
    Conforms d final session (Api.removeFromPage key id members) := by
  induction members with
  | nil => exact rest false
  | cons member members inductionHypothesis =>
    simp only [Api.removeFromPage]
    split
    · next isOf =>
      have matching : session.job = member.id? := by rw [job, Member.isOf_iff.mp isOf]
      refine ⟨⟨lane, matching, cancelled⟩, fun reply _ => ?_⟩
      cases reply with
      | ok done => exact rest true
      | error error => exact inductionHypothesis
    · exact inductionHypothesis

theorem removeFromPages_conforms {final : Except StoreError Bool → Session → Prop}
    {session : Session} {id : JobId} {key : ZKey} (job : session.job = some id)
    (cancelled : session.stage = .cancelled) (lane : key ≠ .dlq)
    (rest : ∀ outcome, final outcome session) (pages : Nat) :
    Conforms d final session (Api.removeFromPages key id pages) := by
  induction pages with
  | zero => exact rest _
  | succ pages inductionHypothesis =>
    simp only [Api.removeFromPages, Program.perform_bind, Conforms, Program.follows_call]
    refine ⟨trivial, fun reply _ => ?_⟩
    cases reply with
    | error error => exact rest _
    | ok elements =>
      simp only [Session.advance]
      rw [Program.follows_bind]
      refine removeFromPage_conforms job cancelled lane (fun removed => ?_) elements
      cases removed with
      | true => exact rest _
      | false => exact inductionHypothesis

theorem deleteJob_conforms (id : JobId) :
    Completes d ⟨⟨.idle, .absent, ⟨"", 0⟩, .due⟩, entry, some id⟩
      (Api.deleteJob id) := by
  simp only [Api.deleteJob, Program.perform_bind, Program.follows_call]
  refine ⟨trivial, fun found _ => ?_⟩
  rcases found with error | _ | existing
  · exact idle_final
  · exact idle_final
  · simp only
    split
    · exact idle_final
    · split
      · exact idle_final
      · refine ⟨⟨rfl, rfl⟩, fun reply _ => ?_⟩
        rcases reply with error | _ | row
        · exact idle_final
        · exact idle_final
        · simp only [Session.advance, Api.removeFromQueue, Program.perform_bind, Program.call_bind,
            Program.follows_call]
          refine ⟨trivial, fun pages _ => ?_⟩
          rw [Program.follows_bind]
          refine removeFromPages_conforms rfl rfl (by simp) (fun _ => ?_) (pages + 1)
          exact ⟨.inr (.inl rfl), fun _ _ => by simp, fun _ _ _ => by simp⟩

/-! ## The scheduler and bare clients -/

theorem runCronJob_conforms (cj : CronJob) (unrooted : ¬ d.rooted) :
    Completes d ⟨⟨.idle, .owed, ⟨cj.jobType, 0⟩, .due⟩, entry, none⟩
      (Scheduler.runCronJob cj) := by
  simp only [Scheduler.runCronJob, Program.perform_bind, Program.follows_call]
  refine ⟨⟨rfl, rfl, rfl, .inr ⟨rfl, unrooted⟩⟩, fun id _ => ⟨trivial, fun createdAt _ => ?_⟩⟩
  rw [Program.follows_bind]
  refine enqueue_conforms _ rfl (.inl rfl) (stored_final fun _ => rfl) fun lax _ =>
    stored_final fun strict => absurd strict lax

theorem claimAndRelease_conforms (release : Release) (bare : d.bare) :
    Completes d ⟨⟨.idle, .absent, ⟨"", 0⟩, .due⟩, entry, none⟩
      (claimAndRelease release) := by
  have ended (token : Token) (brief : Brief) (attempt : Attempt) :
      d.final ⟨.released, token, brief, attempt⟩ :=
    ⟨.inr (.inr rfl), fun _ whole => absurd bare whole, fun _ whole => absurd bare whole⟩
  simp only [claimAndRelease]
  apply (Program.follows_bind ..).mpr
  refine dequeue_conforms ⟨rfl, rfl⟩ (fun _ => idle_final) idle_final fun job => ?_
  simp only
  rw [Program.follows_bind]
  cases release with
  | ack => exact ack_conforms job (by simp) fun _ => ended _ _ _
  | nack => exact nack_conforms job (by simp) (.inl rfl) fun _ => ended _ _ _
  | moveToDLQ reason =>
    exact moveToDLQ_conforms (by simp) (.inl rfl) (.inr (.inr ⟨bare, rfl⟩)) (fun _ => ended _ _ _)
      fun _ _ => ended _ _ _

end Worker

/-! ## All entries -/

/-- The entries of the program itself: its requests, workers and scheduler. -/
def Entry.isTaskfire : Entry → Bool
  | .create _ | .delete _ | .retry _ _ | .work | .poll | .cron _ | .scheduleDelayed _ _ => true
  | _ => false

/-- The entries that only bring records of jobs with a row. -/
def Entry.isRooted : Entry → Bool
  | .create _ | .delete _ | .retry _ _ | .work | .poll => true
  | _ => false

/-- The operations of a bare client of the queue. -/
def Entry.isClient : Entry → Bool
  | .scheduleDelayed _ _ | .enqueue _ | .enqueueJob _ | .enqueueDelayedJob _ _ | .drain _ _
  | .claimAndRelease _ => true
  | _ => false

theorem drainDelayed_conforms {d : Discipline} {final : Except GoError Nat → Session → Prop}
    {session : Session} {now : Time} {maxBatch : Nat} (rest : ∀ outcome, final outcome session) :
    Conforms d final session (drainDelayed now maxBatch) := by
  refine ⟨trivial, fun reply _ => ?_⟩
  cases reply <;> exact rest _

/-- A thread may start at the entry. -/
structure Entry.Admissible (d : Discipline) (proc : Processor) (entry : Entry) : Prop where
  completes : Completes d entry.session (entry.program proc)
  enters : d.mayEnter entry.session.token

theorem Entry.conforms {d : Discipline} {proc : Processor} {entry : Entry}
    (own : entry.isTaskfire = true) (whole : ¬ d.bare) (settles : d.settles → proc.NeverErrs)
    (rooted : d.rooted → entry.isRooted = true) (budget : d.budget = proc.budget) :
    Completes d entry.session (entry.program proc) := by
  cases entry with
  | create input =>
    exact (Program.follows_bind ..).mpr (createJob_conforms input)
  | delete id => exact (Program.follows_bind ..).mpr (deleteJob_conforms id)
  | retry id resetRetries =>
    exact (Program.follows_bind ..).mpr (retryRequest_conforms id resetRetries)
  | work => exact (Program.follows_bind ..).mpr (fetchAndProcess_conforms whole settles budget)
  | poll =>
    simp only [program, Scheduler.pollDelayed, Program.perform_bind, Program.call_bind,
      Program.follows_call]
    refine ⟨trivial, fun tick _ => ?_⟩
    rw [Program.bind_assoc, Program.follows_bind]
    exact drainDelayed_conforms fun _ => idle_final
  | cron cj => exact (Program.follows_bind ..).mpr (runCronJob_conforms cj fun strict =>
      absurd (rooted strict) Bool.false_ne_true)
  | scheduleDelayed job scheduledAt =>
    refine (Program.follows_bind ..).mpr (enqueueDelayed_conforms job rfl (.inl rfl) ?_ ?_)
    · exact stored_final fun _ => rfl
    · exact fun lax _ => stored_final fun strict => absurd strict lax
  | enqueue | enqueueJob | enqueueDelayedJob | drain | claimAndRelease => exact absurd own Bool.false_ne_true

theorem Entry.admissible {d : Discipline} {proc : Processor} {entry : Entry}
    (own : entry.isTaskfire = true) (whole : ¬ d.bare) (settles : d.settles → proc.NeverErrs)
    (rooted : d.rooted → entry.isRooted = true) (budget : d.budget = proc.budget) :
    entry.Admissible d proc := by
  refine ⟨entry.conforms own whole settles rooted budget, ?_⟩
  cases entry with
  | create | delete | retry | work | poll => exact .inl rfl
  | cron | scheduleDelayed => exact .inr ⟨rfl, fun strict => absurd (rooted strict) Bool.false_ne_true⟩
  | enqueue | enqueueJob | enqueueDelayedJob | drain | claimAndRelease => exact absurd own Bool.false_ne_true

theorem Entry.client_conforms {d : Discipline} {proc : Processor} {entry : Entry}
    (client : entry.isClient = true) (bare : d.bare) :
    Completes d entry.session (entry.program proc) := by
  have left (token : Token) (brief : Brief) (attempt : Attempt) :
      d.final ⟨.idle, token, brief, attempt⟩ :=
    ⟨.inl rfl, fun _ whole => absurd bare whole, fun _ whole => absurd bare whole⟩
  cases entry with
  | scheduleDelayed job scheduledAt =>
    exact (Program.follows_bind ..).mpr
      (enqueueDelayed_conforms job rfl (.inl rfl) (left ..) fun _ _ => left ..)
  | enqueue job =>
    exact (Program.follows_bind ..).mpr (enqueue_conforms job rfl (.inl rfl) (left ..) fun _ _ => left ..)
  | enqueueJob payload =>
    exact (Program.follows_bind ..).mpr (enqueueJob_conforms payload rfl (.inl rfl) (left ..) fun _ _ => left ..)
  | enqueueDelayedJob payload scheduledAt =>
    exact (Program.follows_bind ..).mpr
      (enqueueDelayedJob_conforms payload rfl (.inl rfl) (left ..) fun _ _ => left ..)
  | drain now maxBatch =>
    exact (Program.follows_bind ..).mpr (drainDelayed_conforms fun _ => idle_final)
  | claimAndRelease release =>
    exact (Program.follows_bind ..).mpr (claimAndRelease_conforms release bare)
  | create | delete | retry | work | poll | cron => exact absurd client Bool.false_ne_true

theorem Entry.client_admissible {d : Discipline} {proc : Processor} {entry : Entry}
    (client : entry.isClient = true) (bare : d.bare) (unrooted : ¬ d.rooted) :
    entry.Admissible d proc := by
  refine ⟨entry.client_conforms client bare, ?_⟩
  cases entry with
  | scheduleDelayed | enqueue | enqueueJob | enqueueDelayedJob => exact .inr ⟨rfl, unrooted⟩
  | drain | claimAndRelease => exact .inl rfl
  | create | delete | retry | work | poll | cron => exact absurd client Bool.false_ne_true

end Taskfire
