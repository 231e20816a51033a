import Taskfire.Model.Queue

/-!
# The API's requests

The three routes of `api/src/routes/jobs.ts` that change a job, with the Redis functions they use
(`api/src/services/redis.ts`).  A store call that throws ends the request with the server's 500
answer, except in the removal after a cancellation, whose errors the route ignores.
-/

namespace Taskfire

open Taskfire.Library

/-! ## Input and output -/

inductive JobPriority where
  | high
  | medium
  | low
  deriving DecidableEq, Repr

/-- `PRIORITY_VALUE`. -/
def JobPriority.value : JobPriority → Priority
  | .high => priorityHigh
  | .medium => priorityMedium
  | .low => priorityLow

/-- A body `CreateJobSchema` accepts, after its defaults. -/
structure CreateJobInput where
  jobType : String
  payload : String
  priority : JobPriority
  maxRetries : Int
  scheduledAt : Option Time
  dependencies : List JobId
  maxRetriesMin : 0 ≤ maxRetries
  maxRetriesMax : maxRetries ≤ 20

def JobStatus.name : JobStatus → String
  | .pending => "pending"
  | .active => "active"
  | .completed => "completed"
  | .failed => "failed"
  | .dead => "dead"

inductive Body where
  | empty
  | job (id : JobId) (row : Row)
  | error (error message : String)

structure Response where
  status : Nat
  body : Body

def Response.internalServerError : Response :=
  ⟨500, .error "internal_server_error" "An unexpected error occurred"⟩

def Response.validationError : Response :=
  ⟨400, .error "validation_error" "Request validation failed"⟩

def Response.notFound : Response := ⟨404, .error "not_found" "Job not found"⟩

def Response.conflict (message : String) : Response := ⟨409, .error "conflict" message⟩

/-! ## Redis -/

/-- A JavaScript `Date` keeps milliseconds. -/
def Time.toDate (time : Time) : Time := time.unixMilli * 1000000

def Row.enqueuePayload (row : Row) (id : JobId) (retryCount : Int) : EnqueuePayload where
  id := id
  jobType := row.jobType
  payload := row.payload
  priority := row.priority
  status := .pending
  maxRetries := row.maxRetries
  retryCount := retryCount
  createdAt := Time.toDate row.createdAt
  scheduledAt := some (row.scheduledAt.map Time.toDate)
  dependencies := some row.dependencies

namespace Api

def enqueueJob (payload : EnqueuePayload) : Prog (Except StoreError Unit) := do
  let now ← invoke .now
  invoke (.command (.zadd (.lane (laneKey payload.priority)) now.unixMilli payload.stringify))

def enqueueDelayed (payload : EnqueuePayload) (scheduledAt : Time) :
    Prog (Except StoreError Unit) :=
  let payload := { payload with scheduledAt := some (some scheduledAt), status := .pending }
  invoke (.command (.zadd .delayed scheduledAt.unixSeconds payload.stringify))

/-- The members of one page: the first record of the job that can be removed is.  The `try` around
a member also covers its ZREM, so a ZREM that throws moves on to the next member. -/
def removeFromPage (key : ZKey) (jobId : JobId) : List Member → Prog Bool
  | [] => pure false
  | member :: members =>
    if member.isOf jobId then do
      match ← invoke (.command (.zrem key member)) with
      | .ok _ => pure true
      | .error _ => removeFromPage key jobId members
    else removeFromPage key jobId members

def removeFromPages (key : ZKey) (jobId : JobId) : Nat → Prog (Except StoreError Bool)
  | 0 => pure (.ok false)
  | pages + 1 => do
    match ← invoke (.zscan key) with
    | .error error => pure (.error error)
    | .ok elements =>
      if ← removeFromPage key jobId elements then pure (.ok true)
      else removeFromPages key jobId pages

def removeFromQueue (jobId : JobId) (priority : Priority) : Prog (Except StoreError Bool) := do
  let pages ← invoke .scanPages
  removeFromPages (.lane (laneKey priority)) jobId (pages + 1)

/-! ## Routes -/

/-- A job for a later time goes to the delayed set, any other to its lane. -/
def enqueueCreated (payload : EnqueuePayload) (scheduledAt : Option Time) (now : Time) :
    Prog (Except StoreError Unit) :=
  match scheduledAt.map Time.toDate with
  | some scheduledAt =>
    if Time.toDate now < scheduledAt then enqueueDelayed payload scheduledAt else enqueueJob payload
  | none => enqueueJob payload

/-- `POST /`. -/
def createJob (input : CreateJobInput) : Prog Response := do
  let now ← invoke .now
  let id ← invoke .randomUUID
  match ← invoke (.insertJob {
    id
    jobType := input.jobType
    payload := input.payload
    priority := input.priority.value
    maxRetries := input.maxRetries
    scheduledAt := input.scheduledAt
    dependencies := input.dependencies }) with
  | .error _ => pure .internalServerError
  | .ok row => do
    match ← enqueueCreated (row.enqueuePayload id 0) input.scheduledAt now with
    | .error _ => pure .internalServerError
    | .ok _ => pure ⟨201, .job id row⟩

/-- `DELETE /:id`. -/
def deleteJob (id : JobId) : Prog Response := do
  match ← invoke (.getJob id) with
  | .error _ => pure .internalServerError
  | .ok none => pure .notFound
  | .ok (some existing) =>
    if existing.status = .active then
      pure (.conflict "Cannot cancel a job that is currently active")
    else if existing.status = .completed then
      pure (.conflict "Cannot cancel a job that has already completed")
    else do
      match ← invoke (.cancelJob id) with
      | .error _ => pure .internalServerError
      | .ok none => pure (.conflict "Job status changed before cancellation could be applied")
      | .ok (some _) => do
        -- The scan may miss the record; the answer is the same.
        let _ ← removeFromQueue id existing.priority
        pure ⟨204, .empty⟩

/-- `POST /:id/retry`. -/
def retryJob (id : JobId) (resetRetries : Bool) : Prog Response := do
  match ← invoke (.getJob id) with
  | .error _ => pure .internalServerError
  | .ok none => pure .notFound
  | .ok (some existing) =>
    if existing.status = .failed ∨ existing.status = .dead then do
      match ← invoke (.requeueJob id resetRetries) with
      | .error _ => pure .internalServerError
      | .ok none => pure (.conflict "Job status changed before retry could be applied")
      | .ok (some updated) => do
        match ← enqueueJob (updated.enqueuePayload id updated.retryCount) with
        | .error _ => pure .internalServerError
        | .ok _ => pure ⟨200, .job id updated⟩
    else pure (.conflict ("Only failed or dead jobs can be retried; current status is \""
      ++ existing.status.name ++ "\""))

/-! ## Requests -/

/-- The requests that put a job in the queue, with what the schemas make of their parameters and
bodies: `none` where a schema rejects them. -/
inductive PostRequest where
  | create (parsed : Option CreateJobInput)
  | retry (parsed : Option (JobId × Bool))

/-- The status of the answer to a request that succeeded. -/
def PostRequest.success : PostRequest → Nat
  | .create _ => 201
  | .retry _ => 200

def PostRequest.handle : PostRequest → Prog Response
  | .create (some input) => createJob input
  | .retry (some (id, resetRetries)) => retryJob id resetRetries
  | .create none | .retry none => pure .validationError

end Api

end Taskfire
