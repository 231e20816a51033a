import Taskfire.Model.Queue

/-!
# Processing a claimed job

`JobProcessor.Process` (`worker/processor/job_processor.go`) with its two ways out of a failure, the
retry manager (`worker/retry/backoff.go`), the production dependency checker
(`worker/dag/dependency.go`) and the fetch cycle of the pool (`worker/pool/worker_pool.go`) for one
claimed job.

A handler gets the record of the job to read; what it does is a choice of the environment.  The
error `process` returns is the one the source returns, which its caller only logs and counts.
-/

namespace Taskfire

open Taskfire.Library

/-! ## Retries -/

namespace Retry

/-- `retry.Config`; the delays only bound how long `wait` sleeps. -/
structure Config where
  maxRetries : Int
  maxRetriesInt : maxRetries < 2 ^ 63
  deriving DecidableEq, Repr

def defaultConfig : Config := ⟨5, by decide⟩

structure Manager where
  configs : String → Option Config

def errRetriesExhausted : GoError := ⟨"all retry attempts exhausted", none⟩

namespace Manager

def configFor (manager : Manager) (jobType : String) : Config :=
  (manager.configs jobType).getD defaultConfig

/-- `nil` of the source is `none`; otherwise the error is the exhausted budget or the context's. -/
def wait (manager : Manager) (jobType : String) (retryCount : Int) : Prog (Option GoError) :=
  if (manager.configFor jobType).maxRetries ≤ retryCount then pure (some errRetriesExhausted)
  else invoke (.backoff jobType retryCount)

end Manager

end Retry

/-! ## Dependencies -/

/-- The calls a dependency check may make. -/
def Call.readsDeps : Call → Prop
  | .depStatuses _ => True
  | _ => False

/-- The interface `DependencyChecker`.  A check reads statuses and writes nothing. -/
structure DependencyChecker where
  canRun : Job → Prog (Except GoError Bool)
  readOnly : ∀ job, (canRun job).Uses Call.readsDeps

namespace Engine

/-- `Engine.CanRun`.  The source stops at the first dependency that is not completed. -/
def canRun (job : Job) : Prog (Except GoError Bool) :=
  if job.dependencies = [] then pure (.ok true)
  else do
    match ← invoke (.depStatuses job.dependencies) with
    | .error error => pure (.error (error.toGo.wrap ("check dep statuses for job " ++ job.id)))
    | .ok statuses => pure (.ok (statuses.all fun entry => entry.2 = .completed))

theorem canRun_readOnly (job : Job) : (canRun job).Uses Call.readsDeps := by
  simp only [canRun]
  split
  · trivial
  · simp only [Program.perform_bind, Program.uses_call]
    refine ⟨trivial, fun reply => ?_⟩
    cases reply <;> trivial

def checker : DependencyChecker := ⟨canRun, canRun_readOnly⟩

end Engine

/-! ## The processor -/

structure Processor where
  depChecker : Option DependencyChecker
  retrier : Retry.Manager

/-- The failures a record of the type may have had when it is put back. -/
def Processor.budget (proc : Processor) (jobType : String) : Int :=
  (proc.retrier.configFor jobType).maxRetries

/-- The worker as `main.go` wires it, with the default retry policy for every type. -/
def Processor.wired : Processor := ⟨some Engine.checker, ⟨fun _ => none⟩⟩

/-- Errors of PUBLISH are logged and dropped. -/
def publishEvent (event : JobEvent) : Prog Unit := do
  let _ ← invoke (.command (.publish event))
  pure ()

def failureReason (error : GoError) : String :=
  match error.context with
  | some .canceled => "context_cancelled"
  | some .deadlineExceeded => "deadline_exceeded"
  | none =>
    if error.text.startsWith "handler panic:" then "panic"
    else if error.text = "no handler registered" then "unknown_type"
    else "handler_error"

/-- `metrics.PriorityLabel`. -/
def priorityLabel (priority : Priority) : String :=
  if 300 ≤ priority then "high" else if 200 ≤ priority then "medium" else "low"

/-- Runs the handler; a panic becomes an error. -/
def safeRun (job : Job) : Prog (Option GoError) := do
  invoke (.startHandler job)
  match ← invoke (.awaitHandler job) with
  | .returnedNil => pure none
  | .returned error => pure (some error)
  | .panicked value => pure (some ⟨"handler panic: " ++ value, none⟩)

namespace Processor

def sendToDLQ (job : Job) (reason : GoError) : Prog (Option GoError) := do
  let now ← invoke .now
  let job := { job with status := .dead, failedAt := some now }
  -- The error of the update is logged and dropped; the record goes to the dead-letter set anyway.
  let _ ← invoke (.updateJobStatus job)
  publishEvent ⟨.dead, job.id, job.jobType, .dead, now, job.errorMessage⟩
  match ← moveToDLQ job reason with
  | some error => pure (some error)
  | none => pure (some reason)

/-- The half of `handleFailure` after a wait that returned nil. -/
def retryJob (job : Job) (cause : GoError) : Prog (Option GoError) := do
  let job := { job with status := .pending, startedAt := none }
  let _ ← invoke (.updateJobStatus job)
  let now ← invoke .now
  publishEvent ⟨.retry, job.id, job.jobType, .pending, now, cause.text⟩
  -- Only now is the record back in its lane; the row has been pending since the update.
  match ← enqueue job with
  | some error => sendToDLQ job error
  | none => pure (some cause)

def handleFailure (proc : Processor) (job : Job) (cause : GoError) : Prog (Option GoError) := do
  let job := { job with retryCount := goInt (job.retryCount + 1), errorMessage := cause.text }
  -- Lock and processing entry are given up before the wait, not after it.
  let _ ← nack job
  invoke (.count (.retryAttempts job.jobType))
  match ← proc.retrier.wait job.jobType job.retryCount with
  | some waitErr => sendToDLQ job waitErr
  | none => retryJob job cause

/-- The success path of `Process`. -/
def complete (job : Job) : Prog (Option GoError) := do
  let completed ← invoke .now
  let job := { job with status := .completed, completedAt := some completed }
  invoke (.count (.jobsProcessed job.jobType (priorityLabel job.priority)))
  let _ ← invoke (.updateJobStatus job)
  publishEvent ⟨.completed, job.id, job.jobType, .completed, completed, ""⟩
  ack job

/-- `Process` once the job is active: locates the handler and runs it. -/
def runHandler (proc : Processor) (job : Job) : Prog (Option GoError) := do
  if ← invoke (.findHandler job) then
    match ← safeRun job with
    | some error => do
      invoke (.count (.jobsFailed job.jobType (failureReason error)))
      proc.handleFailure job error
    | none => complete job
  else do
    invoke (.count (.jobsFailed job.jobType "unknown_type"))
    proc.handleFailure job
      ⟨"no handler registered for job type \"" ++ job.jobType ++ "\"", none⟩

/-- `Process` after the dependency gate. -/
def execute (proc : Processor) (job : Job) : Prog (Option GoError) := do
  let now ← invoke .now
  let job := { job with status := .active, startedAt := some now }
  let _ ← invoke (.updateJobStatus job)
  publishEvent ⟨.started, job.id, job.jobType, .active, now, ""⟩
  proc.runHandler job

def canRun (proc : Processor) (job : Job) : Prog (Except GoError Bool) :=
  match proc.depChecker with
  | none => pure (.ok true)
  | some checker => checker.canRun job

theorem canRun_uses (proc : Processor) (job : Job) :
    (proc.canRun job).Uses Call.readsDeps := by
  cases shape : proc.depChecker with
  | none => simp only [canRun, shape]; trivial
  | some checker => simpa only [canRun, shape] using checker.readOnly job

def process (proc : Processor) (job : Job) : Prog (Option GoError) := do
  match ← proc.canRun job with
  | .error error => do
    -- The source logs "requeueing" here and only releases the claim.
    let _ ← nack job
    pure (some error)
  | .ok false => do
    let _ ← nack job
    -- Between the release and the entry of the delayed set the record is in no key.
    let now ← invoke .now
    let _ ← enqueueDelayed job (now + 5 * second)
    pure none
  | .ok true => proc.execute job

/-! ## One cycle of the pool -/

/-- The fetcher gives a job back when the context ends before a worker takes it. -/
def handBack (job : Job) : Prog Unit := do
  let job := { job with status := .pending }
  let _ ← enqueue job
  let _ ← nack job
  pure ()

/-- `runFetcher` for one job, and `runWorker` for the same job once it is delivered. -/
def fetchAndProcess (proc : Processor) : Prog Unit := do
  match ← dequeue with
  | .error _ => pure ()
  | .ok none => pure ()
  | .ok (some job) =>
    if ← invoke (.deliver job) then do
      let _ ← proc.process job
      pure ()
    else handBack job

end Processor

end Taskfire
