import Taskfire.Drain.Sequence

/-!
# The list of dead letters

`MoveToDLQ` (`worker/queue/redis_queue.go`) on members of any type, and `getDLQJobs` and
`getDLQDepth` (`api/src/services/redis.ts`), from which the route `/dead-letter`
(`api/src/routes/metrics.ts`) answers.
-/

namespace Taskfire

open Taskfire.Library

/-! ## Records that can be read back -/

/-- The object that `JSON.parse` makes of a member. -/
def Member.json? : Member → Option JobJson
  | .record json => some json
  | .text _ => none

/-- Members that `JSON.parse` reads. -/
class Readable (M : Type) extends Encoding M where
  parse : M → Option JobJson
  marshal_parse : ∀ job : Job, parse (marshal job) = job.marshal.json?

instance : Readable Member where
  parse := Member.json?
  marshal_parse := fun _ => rfl

def Api.priorityLabel (value : Int) : JobPriority :=
  if 300 ≤ value then .high else if 200 ≤ value then .medium else .low

structure DLQEntry where
  id : JobId
  jobType : String
  payload : String
  priority : Int
  priorityLabel : JobPriority
  error : Option String
  retryCount : Int
  maxRetries : Int
  failedAt : Option Time
  createdAt : Time
  deriving DecidableEq

def JobJson.dlqEntry (json : JobJson) : DLQEntry where
  id := json.id
  jobType := json.jobType
  payload := json.payload
  priority := json.priority
  priorityLabel := Api.priorityLabel json.priority
  error := json.errorMessage
  retryCount := json.retryCount
  maxRetries := json.maxRetries
  failedAt := json.failedAt
  createdAt := json.createdAt

/-- A query `DLQQuerySchema` accepts, after its defaults (the first 100 entries). -/
structure DLQQuery where
  limit : Nat
  offset : Nat
  limitMin : 1 ≤ limit
  limitMax : limit ≤ 500

section

variable {M : Type} [Readable M]

/-- Members that are no JSON are left out. -/
def getDLQJobs (redis : Redis M) (limit offset : Int) : List DLQEntry :=
  ((redis.zset .dlq).revRange offset (offset + limit - 1)).filterMap fun member =>
    (Readable.parse member).map JobJson.dlqEntry

def getDLQDepth (redis : Redis M) : Nat := (redis.zset .dlq).members.length

structure DLQPage where
  jobs : List DLQEntry
  total : Nat
  limit : Nat
  offset : Nat

/-- The answer of `/dead-letter` to a query.  Redis may serve other clients between the two commands,
and so the entries and their number can come from different states. -/
def Api.getDeadLetter (query : DLQQuery) (ranged counted : Redis M) : DLQPage where
  jobs := getDLQJobs ranged query.limit query.offset
  total := getDLQDepth counted
  limit := query.limit
  offset := query.offset

end

/-! ## Moves to the set -/

/-- A call of `MoveToDLQ`, with the time the clock shows. -/
structure Move where
  job : Job
  reason : GoError
  now : Time
  deriving DecidableEq

namespace Move

def dead (move : Move) : Job := move.job.deadAt move.now move.reason

/-- What the list shows of the job. -/
def shown (move : Move) : DLQEntry where
  id := move.job.id
  jobType := move.job.jobType
  payload := move.job.payload
  priority := move.job.priority
  priorityLabel := Api.priorityLabel move.job.priority
  error := omitEmptyString move.dead.errorMessage
  retryCount := move.job.retryCount
  maxRetries := move.job.maxRetries
  failedAt := some move.now
  createdAt := move.job.createdAt

variable {M : Type} [DecidableEq M] [Ord M] [Readable M]

def record (move : Move) : M := Encoding.marshal move.dead

/-- The entry of the set that a move adds. -/
def entry (move : Move) : M × Int := (move.record, float64 move.now)

def apply (redis : Redis M) (move : Move) : Redis M :=
  (Redis.expireLock { redis with processing := Function.update redis.processing move.job.id none }
    move.job.id).zadd .dlq (float64 move.now) move.record

/-- Redis after the calls. -/
def applyAll (redis : Redis M) (moves : List Move) : Redis M := moves.foldl apply redis

end Move

/-- Calls that do not fail move the record with the time that the clock has told. -/
theorem moveToDLQ_performs (job : Job) (reason : GoError) (now : Time) (stores : Stores) :
    (moveToDLQ job reason).wp perform (fun c env => env.fails = false ∧ (c = .now → env.now = now))
      (fun _ last => last.redis = Move.apply stores.redis ⟨job, reason, now⟩) stores := by
  intro clock ⟨ticks, told⟩ processing ⟨first, _⟩ lock ⟨second, _⟩ zadd ⟨third, _⟩
  simp only [perform, ticks, first, second, third, performStore, told rfl]
  rfl

end Taskfire
