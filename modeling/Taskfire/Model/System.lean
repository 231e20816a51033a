import Taskfire.Library.Machine
import Taskfire.Model.Api
import Taskfire.Model.Processor
import Taskfire.Model.Scheduler

/-!
# The whole system

`taskfire` runs any number of API requests, workers and scheduler callbacks against the two stores,
one call at a time.  The session of a thread records what the thread has done for its job: how far
it is in releasing the claim (`Stage`), and where the record it is responsible for went (`Token`).
No program reads its session.
-/

namespace Taskfire

open Taskfire.Library

/-! ## Entries -/

/-- The call that ends a client's claim. -/
inductive Release where
  | ack
  | nack
  | moveToDLQ (reason : GoError)

/-- What a thread can start: the API's requests, the worker's cycle and its scheduler, and the
operations of a bare client of the queue. -/
inductive Entry where
  | create (input : CreateJobInput)
  | delete (id : JobId)
  | retry (id : JobId) (resetRetries : Bool)
  | work
  | poll
  | cron (cj : CronJob)
  | scheduleDelayed (job : Job) (scheduledAt : Time)
  | enqueue (job : Job)
  | enqueueJob (payload : EnqueuePayload)
  | enqueueDelayedJob (payload : EnqueuePayload) (scheduledAt : Time)
  | drain (now : Time) (maxBatch : Nat)
  | claimAndRelease (release : Release)

inductive Result where
  | stopped
  | response (response : Response)
  | finished

/-! ## Sessions -/

inductive Stage where
  /-- Nothing of the following. -/
  | idle
  /-- The thread's `cancelJob` took effect. -/
  | cancelled
  /-- `Dequeue` returned the job and no release has begun. -/
  | claimed
  /-- The claimed record was put back before its release. -/
  | requeued
  /-- The release has deleted the processing entry. -/
  | releasing
  /-- The release has deleted the lock too. -/
  | released
  /-- A second release has deleted the processing entry again. -/
  | again
  deriving DecidableEq, Repr

inductive Token where
  /-- The thread has obtained no record. -/
  | absent
  /-- It has one, and has not written a status other than pending for it. -/
  | owed
  /-- It has one, and the last status it wrote is another. -/
  | active
  /-- It has one, and its last write of the row, to that status, failed. -/
  | unmarked (status : JobStatus)
  /-- The record went to a lane or to the delayed set. -/
  | placed
  /-- The row was marked dead, the entry of the dead-letter set is due. -/
  | dying
  | buried
  | completed
  deriving DecidableEq, Repr

/-- The thread still owes the record a place. -/
def Token.isOpen : Token → Bool
  | .owed | .active | .unmarked _ => true
  | _ => false

/-- The token of a thread that wrote `status` to the row. -/
def Token.marked : JobStatus → Token
  | .pending => .owed
  | .active | .failed => .active
  | .completed => .completed
  | .dead => .dying

/-- The stage of a thread that put its record back. -/
def Stage.putBack (stage : Stage) : Stage := if stage = .claimed then .requeued else stage

/-- The stage of a thread that deleted the processing entry. -/
def Stage.unlisted (stage : Stage) : Stage := if stage = .released then .again else .releasing

/-- How far the thread is with the handler of its record. -/
inductive Attempt where
  | due
  | running
  | passed
  | failed
  deriving DecidableEq, Repr

/-- What a thread is to its job. -/
structure Role where
  stage : Stage
  token : Token
  /-- What matters of the record the thread carries. -/
  brief : Brief
  attempt : Attempt

/-- The role after the attempt failed. -/
def Role.failedOnce (role : Role) : Role :=
  { role with brief := role.brief.failedOnce, attempt := .failed }

structure Session extends Role where
  entry : Option Entry
  job : Option JobId

namespace Session

def rest : Session := ⟨⟨.idle, .absent, ⟨"", 0⟩, .due⟩, none, none⟩

def obtained (session : Session) (row : Row) : Session :=
  { session with token := .owed, brief := row.brief }

def claimed (session : Session) (member : Member) : Session :=
  { session with
    job := member.id?
    stage := .claimed
    token := .owed
    brief := member.brief }

def wrote (session : Session) (status : JobStatus) (reply : Except StoreError Unit) : Session :=
  { session with token := if reply.isOk then .marked status else .unmarked status }

def placed (session : Session) : ZKey → Session
  | .dlq => { session with token := .buried }
  | _ => { session with token := .placed, stage := session.stage.putBack }

def unlisted (session : Session) : Session := { session with stage := session.stage.unlisted }

def unlocked (session : Session) : Session := { session with stage := .released }

def failedOnce (session : Session) : Session :=
  { session with toRole := session.toRole.failedOnce }

def advanceCommand (session : Session) : Command → Except StoreError Unit → Session
  | .zadd key _ _, reply => if reply.isOk then session.placed key else session
  | .hdelProcessing _, _ => session.unlisted
  | .delLock _, _ => session.unlocked
  | _, _ => session

def advance (session : Session) : (c : Call) → c.Reply → Session
  | .randomUUID, id => { session with job := some id }
  | .insertJob _, reply => match reply with
    | .ok row => session.obtained row
    | .error _ => session
  | .cancelJob _, reply => match reply with
    | .ok (some _) => { session with stage := .cancelled }
    | _ => session
  | .requeueJob _ _, reply => match reply with
    | .ok (some row) => session.obtained row
    | _ => session
  | .claim, reply => match reply with
    | .ok (some member) => session.claimed member
    | _ => session
  | .updateJobStatus job, reply => session.wrote job.status reply
  | .command command, reply => session.advanceCommand command reply
  | .findHandler _, found => if found then session else session.failedOnce
  | .startHandler _, _ => { session with attempt := .running }
  | .awaitHandler _, outcome => match outcome with
    | .returnedNil => { session with attempt := .passed }
    | _ => session.failedOnce
  | _, _ => session

end Session

/-! ## The machine -/

/-- A client that dequeues a job and ends its claim at once. -/
def Release.run (release : Release) (job : Job) : Prog (Option GoError) :=
  match release with
  | .ack => Taskfire.ack job
  | .nack => Taskfire.nack job
  | .moveToDLQ reason => Taskfire.moveToDLQ job reason

def claimAndRelease (release : Release) : Prog Unit := do
  match ← dequeue with
  | .ok (some job) => do
    let _ ← release.run job
    pure ()
  | _ => pure ()

namespace Entry

/-- The session of a thread that has the record of job `id` to put somewhere. -/
def bringing (entry : Entry) (id : JobId) (brief : Brief) : Session :=
  { Session.rest with
    entry := some entry
    job := some id
    token := .owed
    brief }

def session (entry : Entry) : Session :=
  match entry with
  | .delete id | .retry id _ => { Session.rest with entry := some entry, job := some id }
  | .cron cj => { Session.rest with entry := some entry, token := .owed, brief := ⟨cj.jobType, 0⟩ }
  | .scheduleDelayed job _ | .enqueue job => entry.bringing job.id job.brief
  | .enqueueJob payload | .enqueueDelayedJob payload _ =>
    entry.bringing payload.id payload.brief
  | _ => { Session.rest with entry := some entry }

def program (proc : Processor) : Entry → Prog Result
  | .create input => do
    let response ← Api.createJob input
    pure (.response response)
  | .delete id => do
    let response ← Api.deleteJob id
    pure (.response response)
  | .retry id resetRetries => do
    let response ← Api.retryJob id resetRetries
    pure (.response response)
  | .work => do
    proc.fetchAndProcess
    pure .finished
  | .poll => do
    Scheduler.pollDelayed
    pure .finished
  | .cron cj => do
    Scheduler.runCronJob cj
    pure .finished
  | .scheduleDelayed job scheduledAt => do
    let _ ← Scheduler.scheduleDelayed job scheduledAt
    pure .finished
  | .enqueue job => do
    let _ ← Taskfire.enqueue job
    pure .finished
  | .enqueueJob payload => do
    let _ ← Api.enqueueJob payload
    pure .finished
  | .enqueueDelayedJob payload scheduledAt => do
    let _ ← Api.enqueueDelayed payload scheduledAt
    pure .finished
  | .drain now maxBatch => do
    let _ ← drainDelayed now maxBatch
    pure .finished
  | .claimAndRelease release => do
    Taskfire.claimAndRelease release
    pure .finished

end Entry

/-- Ticks are the locks whose time to live runs out. -/
def taskfire (proc : Processor) : Machine Call Call.Reply Stores Env Session Entry JobId Result where
  perform := perform
  advance := Session.advance
  start := fun entry => (entry.session, entry.program proc)
  tick := fun id stores => { stores with redis := stores.redis.expireLock id }
  rest := .rest
  stopped := .stopped

abbrev SystemState := State Call Call.Reply Stores Session Result

abbrev SystemAction := Action Env Entry JobId

abbrev SystemThread := Thread Call Call.Reply Session Result

/-! ## Threads and their jobs -/

namespace Session

/-- The thread works for job `id`. -/
def on (session : Session) (id : JobId) : Prop := session.job = some id

end Session

/-- No thread is in the middle of work for job `id`. -/
def quiet (id : JobId) (state : SystemState) : Prop :=
  ∀ thread, (state.threads thread).session.on id → (state.threads thread).Finished

end Taskfire
