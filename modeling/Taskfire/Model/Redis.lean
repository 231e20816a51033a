import Taskfire.Library.SortedSet
import Taskfire.Model.Job
import Mathlib.Logic.Function.Basic

/-!
# The Redis keys and the two Lua scripts

`Redis` holds the keys of `worker/queue/redis_queue.go`: three lanes, the delayed set and the
dead-letter set, the processing hash, the job locks and the two lists.  `claimScript` and
`drainDelayedScript` are the scripts of that file, run as one command each.  They are stated for any
type of members with decoders.
-/

namespace Taskfire

open Taskfire.Library

inductive Lane where
  | high
  | medium
  | low
  deriving DecidableEq, Repr

/-- The keys that hold sorted sets. -/
inductive ZKey where
  | lane (lane : Lane)
  | delayed
  | dlq
  deriving DecidableEq, Repr

/-- `laneKey` of the worker and of the API; the drain script routes by the same comparison. -/
def laneKey (priority : Int) : Lane :=
  if 300 ≤ priority then .high else if 200 ≤ priority then .medium else .low

/-- The index given to LTRIM after each push to the done list. -/
def doneListCap : Nat := 9999

structure Redis (M : Type) where
  zset : ZKey → SortedSet M
  processing : JobId → Option M
  lock : JobId → Bool
  done : List M
  malformed : List M

inductive ScriptError where
  | attemptToConcatenate
  deriving DecidableEq, Repr

namespace Redis

variable {M : Type}

def empty : Redis M where
  zset := fun _ => .empty
  processing := fun _ => none
  lock := fun _ => false
  done := []
  malformed := []

def setZset (redis : Redis M) (key : ZKey) (set : SortedSet M) : Redis M :=
  { redis with zset := Function.update redis.zset key set }

/-- How many members of the lanes and of the delayed set satisfy `p`. -/
def waiting (redis : Redis M) (p : M → Bool) : Nat :=
  (redis.zset (.lane .high)).count p + (redis.zset (.lane .medium)).count p +
    (redis.zset (.lane .low)).count p + (redis.zset .delayed).count p

/-- How many members of the dead-letter set satisfy `p`. -/
def letters (redis : Redis M) (p : M → Bool) : Nat := (redis.zset .dlq).count p

/-- A lock's time to live runs out. -/
def expireLock (redis : Redis M) (id : JobId) : Redis M :=
  { redis with lock := Function.update redis.lock id false }

section Scripts

variable [DecidableEq M] [Ord M]

def zadd (redis : Redis M) (key : ZKey) (score : Int) (member : M) : Redis M :=
  redis.setZset key ((redis.zset key).add member score)

def zrem (redis : Redis M) (key : ZKey) (member : M) : Redis M :=
  redis.setZset key ((redis.zset key).remove member)

section

variable (redis : Redis M) (key : ZKey) (score : Int) (member : M)

@[simp] theorem zadd_lock : (redis.zadd key score member).lock = redis.lock := rfl

@[simp] theorem zadd_processing :
    (redis.zadd key score member).processing = redis.processing := rfl

@[simp] theorem zadd_done : (redis.zadd key score member).done = redis.done := rfl

end

section

variable (redis : Redis M) (key : ZKey) (member : M)

omit [Ord M]

@[simp] theorem zrem_lock : (redis.zrem key member).lock = redis.lock := rfl

@[simp] theorem zrem_processing : (redis.zrem key member).processing = redis.processing := rfl

@[simp] theorem zrem_done : (redis.zrem key member).done = redis.done := rfl

end

variable [Decoding M]

/-- `try_claim`: pops the head of one lane.  A member without an id goes to the malformed list; a
member whose lock is taken is put back with its score; an id that does not concatenate stops the
script after the pop. -/
def tryClaim (redis : Redis M) (lane : Lane) : Except ScriptError (Option M) × Redis M :=
  match (redis.zset (.lane lane)).popMin with
  | none => (.ok none, redis)
  | some (data, score, rest) =>
    let popped := redis.setZset (.lane lane) rest
    match Decoding.cjson data with
    | .notTable | .table .absent _ => (.ok none, { popped with malformed := data :: popped.malformed })
    | .table .other _ => (.error .attemptToConcatenate, popped)
    | .table (.text id) _ =>
      -- The lock is looked up after the pop, and a locked head goes back with its score.
      if popped.lock id then (.ok none, popped.zadd (.lane lane) score data)
      else
        (.ok (some data), { popped with
          lock := Function.update popped.lock id true
          processing := Function.update popped.processing id (some data) })

/-- Tries the lanes in turn until one yields a member or the script stops with an error. -/
def tryClaims : List Lane → Redis M → Except ScriptError (Option M) × Redis M
  | [], redis => (.ok none, redis)
  | lane :: lanes, redis =>
    match redis.tryClaim lane with
    | (.ok none, next) => tryClaims lanes next
    | result => result

def claimScript (redis : Redis M) : Except ScriptError (Option M) × Redis M :=
  tryClaims [.high, .medium, .low] redis

/-- The body of the drain script's loop, with the number moved so far. -/
def drainItem (nowMs : Int) (state : Nat × Redis M) (data : M) : Nat × Redis M :=
  match Decoding.cjson data with
  | .notTable => state
  -- The number moved so far is added to the score, which keeps the batch in order.
  | .table _ priority => (state.1 + 1,
      (state.2.zrem .delayed data).zadd (.lane (laneKey (priority.getD 0))) (nowMs + state.1) data)

def drainDelayedScript (redis : Redis M) (cutoff : Int) (maxBatch : Nat) (nowMs : Int) :
    Nat × Redis M :=
  ((redis.zset .delayed).rangeByScore cutoff maxBatch).foldl (drainItem nowMs) (0, redis)

end Scripts

end Redis

end Taskfire
