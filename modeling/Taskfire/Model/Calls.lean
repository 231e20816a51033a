import Taskfire.Library.Program
import Taskfire.Model.Postgres
import Taskfire.Model.Redis

/-!
# Atomic calls

Everything the API and the worker do to Postgres, to Redis and to their runtime is one of the calls
below; a program is a `Library.Program` over them.  `perform` gives each call its meaning on the
stores.  What the code does not decide itself is a choice of the environment (`Env`): the clock,
fresh ids, whether a store call fails, what a handler returns.
-/

namespace Taskfire

open Taskfire.Library

/-! ## Errors, events and metrics -/

inductive ContextError where
  | canceled
  | deadlineExceeded
  deriving DecidableEq, Repr

/-- A Go error: its text, and the context error it wraps if any. -/
structure GoError where
  text : String
  context : Option ContextError
  deriving DecidableEq, Repr

def StoreError.toGo (error : StoreError) : GoError := ⟨error.text, none⟩

inductive EventType where
  | started
  | completed
  | failed
  | retry
  | dead
  deriving DecidableEq, Repr

structure JobEvent where
  type : EventType
  jobId : JobId
  jobType : String
  status : JobStatus
  timestamp : Time
  error : String
  deriving DecidableEq, Repr

/-- The counters of `worker/metrics/prometheus.go` that the processor bumps, with their labels. -/
inductive Metric where
  | jobsProcessed (jobType priority : String)
  | jobsFailed (jobType reason : String)
  | retryAttempts (jobType : String)
  deriving DecidableEq, Repr

/-- How a handler ends: with nil, with an error, or with a panic that `safeRun` recovers. -/
inductive HandlerOutcome where
  | returnedNil
  | returned (error : GoError)
  | panicked (value : String)
  deriving DecidableEq, Repr

/-! ## Calls and replies -/

/-- Redis commands that are sent for their effect. -/
inductive Command where
  | zadd (key : ZKey) (score : Int) (member : Member)
  | zrem (key : ZKey) (member : Member)
  | hdelProcessing (id : JobId)
  | delLock (id : JobId)
  | lpushDone (member : Member)
  | ltrimDone (stop : Nat)
  | publish (event : JobEvent)
  deriving DecidableEq

inductive Call where
  -- statements of the API
  | insertJob (params : CreateJobParams)
  | getJob (id : JobId)
  | cancelJob (id : JobId)
  | requeueJob (id : JobId) (resetRetries : Bool)
  -- statements of the worker
  | updateJobStatus (job : Job)
  | depStatuses (ids : List JobId)
  -- Redis
  | command (command : Command)
  | claim
  | drainDelayed (cutoff : Int) (maxBatch : Nat)
  | zscan (key : ZKey)
  -- the runtime
  | now
  | randomUUID
  | scanPages
  | findHandler (job : Job)
  | startHandler (job : Job)
  | awaitHandler (job : Job)
  | backoff (jobType : String) (attempt : Int)
  | deliver (job : Job)
  | count (metric : Metric)
  deriving DecidableEq

abbrev Call.Reply : Call → Type
  | .insertJob _ => Except StoreError Row
  | .getJob _ => Except StoreError (Option Row)
  | .cancelJob _ => Except StoreError (Option Row)
  | .requeueJob _ _ => Except StoreError (Option Row)
  | .updateJobStatus _ => Except StoreError Unit
  | .depStatuses _ => Except StoreError (List (JobId × JobStatus))
  | .command _ => Except StoreError Unit
  | .claim => Except StoreError (Option Member)
  | .drainDelayed _ _ => Except StoreError Nat
  | .zscan _ => Except StoreError (List Member)
  | .now => Time
  | .randomUUID => JobId
  | .scanPages => Nat
  | .findHandler _ => Bool
  | .startHandler _ => Unit
  | .awaitHandler _ => HandlerOutcome
  | .backoff _ _ => Option GoError
  | .deliver _ => Bool
  | .count _ => Unit

abbrev Prog (α : Type) := Program Call Call.Reply α

/-! ## Stores -/

/-- What has happened so far.  No program reads it. -/
structure Ledger where
  /-- A record of the job has been put in a lane or in the delayed set. -/
  enqueued : JobId → Bool
  /-- A `cancelJob` statement has taken effect on the job. -/
  cancelled : JobId → Bool
  /-- How often a handler was started for the job. -/
  started : JobId → Nat
  /-- A handler of the job has returned nil. -/
  succeeded : JobId → Bool
  events : List JobEvent
  metrics : Metric → Nat

structure Stores where
  jobs : Jobs
  redis : Redis Member
  ledger : Ledger

def Ledger.empty : Ledger where
  enqueued := fun _ => false
  cancelled := fun _ => false
  started := fun _ => 0
  succeeded := fun _ => false
  events := []
  metrics := fun _ => 0

def Stores.empty : Stores := ⟨fun _ => none, .empty, .empty⟩

/-! ## The environment -/

/-- The choices behind one call; each call looks at the ones it needs. -/
structure Env where
  /-- The store call fails without effect: the store is not reached, or it refuses a value that its
  constraints say nothing of, such as a text with a NUL. -/
  fails : Bool
  now : Time
  uuid : JobId
  /-- How many pages a ZSCAN iteration takes after its first. -/
  pages : Nat
  /-- Which members one page of a ZSCAN returns. -/
  scanned : Member → Bool
  /-- The handler table has an entry for the job's type. -/
  registered : Bool
  handler : HandlerOutcome
  /-- What ends the wait for the backoff timer: the timer itself or the context. -/
  backoff : Option GoError
  /-- The fetcher's select takes the channel and not the cancelled context. -/
  delivers : Bool

def unavailable : StoreError := ⟨"store unavailable"⟩

namespace Ledger

/-- A member was put in the set at `key`. -/
def noteZadd (ledger : Ledger) (key : ZKey) (member : Member) : Ledger :=
  match key, member.id? with
  | .dlq, _ => ledger
  | _, some id => { ledger with enqueued := Function.update ledger.enqueued id true }
  | _, none => ledger

def noteCancel (ledger : Ledger) (id : JobId) : Ledger :=
  { ledger with cancelled := Function.update ledger.cancelled id true }

def noteStart (ledger : Ledger) (id : JobId) : Ledger :=
  { ledger with started := Function.update ledger.started id (ledger.started id + 1) }

def noteSuccess (ledger : Ledger) (id : JobId) : Ledger :=
  { ledger with succeeded := Function.update ledger.succeeded id true }

def noteCount (ledger : Ledger) (metric : Metric) : Ledger :=
  { ledger with metrics := Function.update ledger.metrics metric (ledger.metrics metric + 1) }

end Ledger

namespace Stores

def applyCommand (stores : Stores) : Command → Stores
  | .zadd key score member =>
    { stores with
      redis := stores.redis.zadd key score member
      ledger := stores.ledger.noteZadd key member }
  | .zrem key member => { stores with redis := stores.redis.zrem key member }
  | .hdelProcessing id =>
    { stores with redis := { stores.redis with
        processing := Function.update stores.redis.processing id none } }
  | .delLock id => { stores with redis := stores.redis.expireLock id }
  | .lpushDone member =>
    { stores with redis := { stores.redis with done := member :: stores.redis.done } }
  | .ltrimDone stop =>
    -- LTRIM keeps the indices 0 to `stop`, both included.
    { stores with redis := { stores.redis with done := stores.redis.done.take (stop + 1) } }
  | .publish event =>
    { stores with ledger := { stores.ledger with events := event :: stores.ledger.events } }

/-- The reply of the claim script as `Dequeue` sees it. -/
def claimReply {M : Type} : Except ScriptError (Option M) → Except StoreError (Option M)
  | .ok claimed => .ok claimed
  | .error .attemptToConcatenate => .error ⟨"attempt to concatenate a non-string value"⟩

end Stores

/-- A store call that does not fail. -/
def performStore (env : Env) (stores : Stores) : (c : Call) → c.Reply × Stores
  | .insertJob params =>
    let (reply, jobs) := stores.jobs.insertJob params env.now
    (reply, { stores with jobs })
  | .getJob id => (.ok (stores.jobs id), stores)
  | .cancelJob id =>
    match stores.jobs.cancelJob id env.now with
    | (some row, jobs) => (.ok (some row), { stores with jobs, ledger := stores.ledger.noteCancel id })
    | (none, _) => (.ok none, stores)
  | .requeueJob id resetRetries =>
    let (row, jobs) := stores.jobs.requeueJob id resetRetries
    (.ok row, { stores with jobs })
  | .updateJobStatus job =>
    let (reply, jobs) := stores.jobs.updateJobStatus job
    (reply, { stores with jobs })
  | .depStatuses ids => (.ok (stores.jobs.depStatuses ids), stores)
  | .command command => (.ok (), stores.applyCommand command)
  | .claim =>
    let (reply, redis) := stores.redis.claimScript
    (Stores.claimReply reply, { stores with redis })
  | .drainDelayed cutoff maxBatch =>
    let (moved, redis) := stores.redis.drainDelayedScript cutoff maxBatch env.now.unixMilli
    (.ok moved, { stores with redis })
  | .zscan key => (.ok ((stores.redis.zset key).members.filter env.scanned), stores)
  | .now => (env.now, stores)
  | .randomUUID => (env.uuid, stores)
  | .scanPages => (env.pages, stores)
  | .findHandler _ => (env.registered, stores)
  | .startHandler job => ((), { stores with ledger := stores.ledger.noteStart job.id })
  | .awaitHandler job =>
    (env.handler, match env.handler with
      | .returnedNil => { stores with ledger := stores.ledger.noteSuccess job.id }
      | _ => stores)
  | .backoff _ _ => (env.backoff, stores)
  | .deliver _ => (env.delivers, stores)
  | .count metric => ((), { stores with ledger := stores.ledger.noteCount metric })

/-- The reply of a store call that failed; calls of the runtime do not fail. -/
def failed? : (c : Call) → Option c.Reply
  | .insertJob _ => some (.error unavailable)
  | .getJob _ => some (.error unavailable)
  | .cancelJob _ => some (.error unavailable)
  | .requeueJob _ _ => some (.error unavailable)
  | .updateJobStatus _ => some (.error unavailable)
  | .depStatuses _ => some (.error unavailable)
  | .command _ => some (.error unavailable)
  | .claim => some (.error unavailable)
  | .drainDelayed _ _ => some (.error unavailable)
  | .zscan _ => some (.error unavailable)
  | _ => none

def perform (env : Env) (stores : Stores) (c : Call) : c.Reply × Stores :=
  match env.fails, failed? c with
  | true, some reply => (reply, stores)
  | _, _ => performStore env stores c

/-- A call of a store that failed replies its error and changes nothing. -/
theorem perform_cases (env : Env) (stores : Stores) (c : Call) :
    (∃ reply, env.fails = true ∧ failed? c = some reply ∧ perform env stores c = (reply, stores)) ∨
      perform env stores c = performStore env stores c := by
  cases fails : env.fails with
  | false => exact .inr (by simp [perform, fails])
  | true =>
    cases failing : failed? c with
    | none => exact .inr (by simp [perform, failing])
    | some reply => exact .inl ⟨reply, rfl, rfl, by simp [perform, fails, failing]⟩

@[simp] theorem isOk_ok {ε α : Type} (value : α) : (Except.ok value : Except ε α).isOk = true := rfl

@[simp] theorem isOk_error {ε α : Type} (error : ε) :
    (Except.error error : Except ε α).isOk = false := rfl

/-- The reply is not the error of a store. -/
def Call.succeeded : (c : Call) → c.Reply → Bool
  | .insertJob _, reply => reply.isOk
  | .getJob _, reply => reply.isOk
  | .cancelJob _, reply => reply.isOk
  | .requeueJob _ _, reply => reply.isOk
  | .updateJobStatus _, reply => reply.isOk
  | .depStatuses _, reply => reply.isOk
  | .command _, reply => reply.isOk
  | .claim, reply => reply.isOk
  | .drainDelayed _ _, reply => reply.isOk
  | .zscan _, reply => reply.isOk
  | _, _ => true

/-- The statement may be refused by a store that is reached. -/
def Call.constrained : Call → Bool
  | .insertJob _ | .updateJobStatus _ => true
  | _ => false

/-- The store could be reached: the reply is no error, or the error of a constraint. -/
def Call.served (c : Call) (reply : c.Reply) : Bool := c.constrained || c.succeeded reply

end Taskfire
