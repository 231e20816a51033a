import Taskfire.Model.Queue

/-!
# The scheduler

The callbacks of `worker/scheduler/scheduler.go`: a cron entry that enqueues a fresh job, a delayed
enqueue, and one tick of the poller that promotes delayed jobs.
-/

namespace Taskfire

open Taskfire.Library

structure CronJob where
  jobType : String
  priority : Priority
  payload : String

namespace Scheduler

/-- The callback `AddJob` registers with the cron engine. -/
def runCronJob (cj : CronJob) : Prog Unit := do
  let id ← invoke .randomUUID
  let createdAt ← invoke .now
  let _ ← enqueue {
    id
    jobType := cj.jobType
    payload := cj.payload
    priority := cj.priority
    status := .pending
    maxRetries := 3
    retryCount := 0
    createdAt
    scheduledAt := none
    startedAt := none
    completedAt := none
    failedAt := none
    errorMessage := ""
    dependencies := [] }
  pure ()

def scheduleDelayed (job : Job) (scheduledAt : Time) : Prog (Option GoError) :=
  enqueueDelayed job scheduledAt

/-- One tick of `runDelayedPoller`. -/
def pollDelayed : Prog Unit := do
  let tick ← invoke .now
  let _ ← drainDelayed tick 100
  pure ()

end Scheduler

end Taskfire
