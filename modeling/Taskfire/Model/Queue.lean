import Taskfire.Model.Calls

/-!
# The worker's queue

The methods of `RedisQueue` (`worker/queue/redis_queue.go`).  A go-redis pipeline sends its commands
in order and reports the first error; the commands of other clients may run in between.
-/

namespace Taskfire

open Taskfire.Library

abbrev invoke (c : Call) : Prog c.Reply := Program.perform c

def ZKey.name : ZKey → String
  | .lane .high => "taskfire:queue:high"
  | .lane .medium => "taskfire:queue:medium"
  | .lane .low => "taskfire:queue:low"
  | .delayed => "taskfire:delayed"
  | .dlq => "taskfire:dlq"

/-- `fmt.Errorf("...: %w", err)`. -/
def GoError.wrap (context : String) (error : GoError) : GoError :=
  { error with text := context ++ ": " ++ error.text }

/-- The reply of a store call as the error a caller sees. -/
def wrapError (context : String) {α : Type} : Except StoreError α → Option GoError
  | .ok _ => none
  | .error error => some (error.toGo.wrap context)

/-- The nearest number with 53 significant bits, ties to even. -/
def float64 (value : Int) : Int :=
  let magnitude := value.natAbs
  let unit := 1 <<< (magnitude.log2 - 52)
  let quotient := magnitude / unit
  let rest := 2 * (magnitude % unit)
  let rounded := if rest < unit ∨ (rest = unit ∧ quotient % 2 = 0) then quotient else quotient + 1
  value.sign * (rounded * unit : Nat)

def second : Time := 1000000000

/-! ## Pipelines -/

def pipeline : List Command → Prog (Except StoreError Unit)
  | [] => pure (.ok ())
  | command :: commands => do
    let reply ← invoke (.command command)
    let rest ← pipeline commands
    pure (match reply with
      | .error error => .error error
      | .ok _ => rest)

/-! ## Methods -/

def enqueue (job : Job) : Prog (Option GoError) := do
  let now ← invoke .now
  let key : ZKey := .lane (laneKey job.priority)
  let reply ← invoke (.command (.zadd key now.unixMilli job.marshal))
  pure (wrapError ("zadd " ++ key.name) reply)

/-- What `Dequeue` makes of the reply of the claim script; `(nil, nil)` of the source is `.ok none`. -/
def received {M : Type} [Decoding M] : Except StoreError (Option M) → Except GoError (Option Job)
  | .error error => .error (error.toGo.wrap "claim script")
  | .ok none => .ok none
  | .ok (some raw) =>
    -- The script has already popped the member, locked its id and listed it.
    match Decoding.unmarshal raw with
    | none => .error ⟨"unmarshal claimed job", none⟩
    | some job => .ok (some job)

def dequeue : Prog (Except GoError (Option Job)) := do
  let reply ← invoke .claim
  pure (received reply)

theorem dequeue_eq : dequeue = .call .claim fun reply => .pure (received reply) := rfl

theorem received_some_iff {M : Type} [Decoding M] {reply : Except StoreError (Option M)} {job : Job} :
    received reply = .ok (some job) ↔
      ∃ raw, reply = .ok (some raw) ∧ Decoding.unmarshal raw = some job := by
  cases reply with
  | error error => simp [received]
  | ok found =>
    cases found with
    | none => simp [received]
    | some raw => cases decoded : Decoding.unmarshal raw <;> simp [received, decoded]

/-- `Dequeue` on members of any type, where the script runs. -/
def Redis.dequeue {M : Type} [DecidableEq M] [Ord M] [Decoding M] (redis : Redis M) :
    Except GoError (Option Job) × Redis M :=
  let (reply, next) := redis.claimScript
  (received (Stores.claimReply reply), next)

/-- Run alone, `dequeue` does to the stores' Redis what it does to any. -/
theorem dequeue_performs (stores : Stores) :
    dequeue.wp perform (fun _ env => env.fails = false)
      (fun outcome last => outcome = stores.redis.dequeue.1 ∧
        last = { stores with redis := stores.redis.dequeue.2 }) stores := by
  rw [dequeue_eq]
  intro env fails
  simp only [perform, fails]
  exact ⟨rfl, rfl⟩

def ack (job : Job) : Prog (Option GoError) := do
  let reply ← pipeline
    [.hdelProcessing job.id, .delLock job.id, .lpushDone job.marshal, .ltrimDone doneListCap]
  pure (wrapError ("ack pipeline for job " ++ job.id) reply)

def nack (job : Job) : Prog (Option GoError) := do
  let reply ← pipeline [.hdelProcessing job.id, .delLock job.id]
  pure (wrapError ("nack pipeline for job " ++ job.id) reply)

/-- The record `MoveToDLQ` writes: an error message that is already there is kept. -/
def Job.deadAt (job : Job) (now : Time) (reason : GoError) : Job :=
  { job with
    status := .dead
    failedAt := some now
    errorMessage := if job.errorMessage = "" then reason.text else job.errorMessage }

def moveToDLQ (job : Job) (reason : GoError) : Prog (Option GoError) := do
  let now ← invoke .now
  let dead := job.deadAt now reason
  let reply ← pipeline
    [.hdelProcessing job.id, .delLock job.id, .zadd .dlq (float64 now) dead.marshal]
  pure (wrapError ("dlq pipeline for job " ++ job.id) reply)

def enqueueDelayed (job : Job) (scheduledAt : Time) : Prog (Option GoError) := do
  let job := { job with scheduledAt := some scheduledAt, status := .pending }
  let reply ← invoke (.command (.zadd .delayed scheduledAt.unixSeconds job.marshal))
  pure (wrapError ("zadd delayed " ++ job.id) reply)

def drainDelayed (now : Time) (maxBatch : Nat) : Prog (Except GoError Nat) := do
  match ← invoke (.drainDelayed now.unixSeconds maxBatch) with
  | .error error => pure (.error (error.toGo.wrap "drain delayed script"))
  | .ok moved => pure (.ok moved)

end Taskfire
