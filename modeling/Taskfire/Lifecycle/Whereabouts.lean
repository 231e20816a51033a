import Taskfire.Lifecycle.Simulation

/-!
# Where the records of a job are

Every structure of Redis that may hold a record of a job, in one value, and what the worker's
commands do to it.
-/

namespace Taskfire

open Taskfire.Library

/-- Where the records of one job are. -/
structure Whereabouts where
  /-- The processing hash has an entry. -/
  listed : Bool
  locked : Bool
  /-- Records in the lanes and in the delayed set. -/
  waiting : Nat
  /-- Records in the dead-letter set. -/
  letters : Nat
  /-- Records in the done list. -/
  done : Nat
  deriving DecidableEq, Repr

namespace Whereabouts

/-- A worker has the only record of the job. -/
def claimed : Whereabouts := ⟨true, true, 0, 0, 0⟩

def released (places : Whereabouts) : Whereabouts :=
  { places with listed := false, locked := false }

/-- The records outside the processing hash. -/
def records (places : Whereabouts) : Nat := places.waiting + places.letters + places.done

end Whereabouts

def Redis.whereabouts (redis : Redis Member) (id : JobId) : Whereabouts where
  listed := (redis.processing id).isSome
  locked := redis.lock id
  waiting := redis.waiting (Member.isOf id)
  letters := redis.letters (Member.isOf id)
  done := redis.done.countP (Member.isOf id)

/-! ## Commands -/

section

variable {stores : Stores} {id : JobId} {key : ZKey} {score : Int} {member : Member}

theorem whereabouts_hdel : (stores.applyCommand (.hdelProcessing id)).redis.whereabouts id =
    { stores.redis.whereabouts id with listed := false } := by
  simp only [Stores.applyCommand, Redis.whereabouts, Function.update_self]
  rfl

theorem whereabouts_del : (stores.applyCommand (.delLock id)).redis.whereabouts id =
    { stores.redis.whereabouts id with locked := false } := by
  simp only [Stores.applyCommand, Redis.whereabouts, Redis.expireLock, Function.update_self]
  rfl

theorem whereabouts_zadd (lane : key ≠ .dlq) (named : member.id? = some id)
    (empty : (stores.redis.whereabouts id).waiting = 0) :
    (stores.applyCommand (.zadd key score member)).redis.whereabouts id =
      { stores.redis.whereabouts id with waiting := 1 } := by
  have isOf : member.isOf id = true := Member.isOf_iff.mpr named
  have none : stores.redis.waiting (Member.isOf id) = 0 := empty
  have positive := Redis.waiting_zadd_pos stores.redis score lane isOf
  have upper := Redis.waiting_zadd_le stores.redis (Member.isOf id) score member lane
  have one : (stores.redis.zadd key score member).waiting (Member.isOf id) = 1 := by
    simp only [isOf, if_true] at upper
    omega
  simp only [Stores.applyCommand, Redis.whereabouts, one, Redis.letters_zadd_of_lane lane,
    Redis.zadd_lock, Redis.zadd_processing, Redis.zadd_done]

theorem whereabouts_zadd_dlq (named : member.id? = some id)
    (empty : (stores.redis.whereabouts id).letters = 0) :
    (stores.applyCommand (.zadd .dlq score member)).redis.whereabouts id =
      { stores.redis.whereabouts id with letters := 1 } := by
  have isOf : member.isOf id = true := Member.isOf_iff.mpr named
  have none : stores.redis.letters (Member.isOf id) = 0 := empty
  have positive := Redis.letters_zadd_dlq_pos stores.redis score isOf
  have upper := Redis.letters_zadd_dlq_le stores.redis (Member.isOf id) score member
  have one : (stores.redis.zadd .dlq score member).letters (Member.isOf id) = 1 := by
    simp only [isOf, if_true] at upper
    omega
  simp only [Stores.applyCommand, Redis.whereabouts, one, Redis.waiting_zadd_dlq,
    Redis.zadd_lock, Redis.zadd_processing, Redis.zadd_done]

theorem whereabouts_lpush (named : member.id? = some id) :
    (stores.applyCommand (.lpushDone member)).redis.whereabouts id =
      { stores.redis.whereabouts id with done := (stores.redis.whereabouts id).done + 1 } := by
  have isOf : member.isOf id = true := Member.isOf_iff.mpr named
  simp only [Stores.applyCommand, Redis.whereabouts, List.countP_cons_of_pos isOf]
  rfl

/-- The trim after a push keeps the record that was pushed. -/
theorem whereabouts_ltrim {stop : Nat} {rest : List Member}
    (pushed : stores.redis.done = member :: rest) (named : member.id? = some id)
    (one : (stores.redis.whereabouts id).done = 1) :
    (stores.applyCommand (.ltrimDone stop)).redis.whereabouts id = stores.redis.whereabouts id := by
  have isOf : member.isOf id = true := Member.isOf_iff.mpr named
  have counted : stores.redis.done.countP (Member.isOf id) = 1 := one
  rw [pushed, List.countP_cons_of_pos isOf] at counted
  have left : (rest.take stop).countP (Member.isOf id) ≤ rest.countP (Member.isOf id) :=
    (List.take_sublist stop rest).countP_le
  have none : rest.countP (Member.isOf id) = 0 := by omega
  have still : (rest.take stop).countP (Member.isOf id) = 0 := by omega
  simp only [Stores.applyCommand, Redis.whereabouts, pushed, List.take_succ_cons,
    List.countP_cons_of_pos isOf, still, none]
  rfl

end

/-! ## Calls without an effect on Redis -/

def Call.leavesRedis : Call → Bool
  | .command (.publish _) => true
  | .command _ | .claim | .drainDelayed _ _ => false
  | _ => true

theorem perform_leavesRedis (env : Env) (stores : Stores) {c : Call}
    (leaves : c.leavesRedis = true) : (perform env stores c).2.redis = stores.redis := by
  obtain ⟨_, _, _, performed⟩ | performed := perform_cases env stores c
  · rw [performed]
  · rw [performed]
    cases c with
    | claim | drainDelayed => cases leaves
    | command command =>
      cases command with
      | publish => rfl
      | zadd | zrem | hdelProcessing | delLock | lpushDone | ltrimDone => cases leaves
    | cancelJob id =>
      simp only [performStore]
      split <;> rfl
    | awaitHandler job =>
      simp only [performStore]
      split <;> rfl
    | insertJob | getJob | requeueJob | updateJobStatus | depStatuses | zscan | now | randomUUID
    | scanPages | findHandler | startHandler | backoff | deliver | count => rfl

end Taskfire
