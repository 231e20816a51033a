import Taskfire.Model.System

/-!
# The worker pool

`Pool` (`worker/pool/worker_pool.go`): the fetcher, the dispatch channel, the workers and the scaler,
with the contexts they run under.  A step is one store call, one turn of a select, or one decision of
the scaler; queue depths and idle times, which the scaler looks at, are choices of the environment.

Calls made with an ended context fail without effect, calls made with `context.Background()` do not
fail.
-/

namespace Taskfire

open Taskfire.Library

/-! ## Goroutines -/

inductive Fetcher where
  /-- At the head of the loop. -/
  | polling
  | dequeuing (program : Prog (Except GoError (Option Job)))
  /-- In the select between the channel and the context. -/
  | delivering (job : Job)
  /-- Giving the job back with the background context. -/
  | handingBack (program : Prog Unit)
  | stopped

/-- A call of `Process` that has not returned. -/
structure Task where
  job : Job
  program : Prog (Option GoError)
  /-- A command of this call has put a record of the job somewhere.  No code reads it. -/
  settled : Bool

structure Worker where
  /-- The scaler has cancelled the worker's own context. -/
  evicted : Bool
  /-- A worker without a task is in its select. -/
  task : Option Task

structure Pool where
  stores : Stores
  /-- The context given to `Start` is cancelled. -/
  cancelled : Bool
  fetcher : Fetcher
  jobCh : List Job
  /-- The workers that have not stopped, by their ids. -/
  workers : Nat → Option Worker
  nextID : Nat
  /-- The scaler is running. -/
  scaling : Bool
  /-- The jobs that `Dequeue` has returned.  No code reads it. -/
  obtained : List JobId

inductive PoolAction where
  | cancel
  | fetcher (env : Env)
  | worker (id : Nat) (env : Env)
  | spawn
  | evict (id : Nat)
  | stopScaler
  /-- A lock's time to live runs out. -/
  | expire (id : JobId)
  /-- Other processes change the stores. -/
  | outside (jobs : Jobs) (redis : Redis Member)

/-! ## Contexts -/

/-- The choices behind a call made under a context: after its end store calls fail, and before it
only the timer ends a wait. -/
def Env.under (env : Env) (ended : Bool) : Env :=
  { env with
    fails := env.fails || ended
    backoff := if ended then env.backoff else none }

/-- The choices behind a call made with `context.Background()`. -/
def Env.background (env : Env) : Env := { env with fails := false, backoff := none }

/-! ## Steps -/

/-- The command puts a record of job `id` in a lane, the delayed set, the dead-letter set or the done
list. -/
def Call.places (id : JobId) : Call → Bool
  | .command (.zadd _ _ member) => member.isOf id
  | .command (.lpushDone member) => member.isOf id
  | _ => false

namespace Pool

def setWorker (pool : Pool) (id : Nat) (worker : Option Worker) : Pool :=
  { pool with workers := Function.update pool.workers id worker }

/-- The state after `Start`: `MinWorkers` workers, the fetcher and the scaler. -/
def start (minWorkers : Nat) (stores : Stores) : Pool where
  stores := stores
  cancelled := false
  fetcher := .polling
  jobCh := []
  workers := fun id => if id < minWorkers then some ⟨false, none⟩ else none
  nextID := minWorkers
  scaling := true
  obtained := []

/-- `runFetcher`. -/
def stepFetcher (buffer : Nat) (pool : Pool) (env : Env) : Option Pool :=
  match pool.fetcher with
  | .polling =>
    if pool.cancelled then some { pool with fetcher := .stopped }
    else some { pool with fetcher := .dequeuing dequeue }
  | .dequeuing (.call c next) =>
    let (reply, stores) := perform (env.under pool.cancelled) pool.stores c
    some { pool with stores, fetcher := .dequeuing (next reply) }
  | .dequeuing (.pure (.ok (some job))) =>
    some { pool with fetcher := .delivering job, obtained := job.id :: pool.obtained }
  | .dequeuing (.pure (.ok none)) => some { pool with fetcher := .polling }
  | .dequeuing (.pure (.error _)) =>
    if pool.cancelled then some { pool with fetcher := .stopped }
    else some { pool with fetcher := .polling }
  | .delivering job =>
    if env.delivers then
      if pool.jobCh.length < buffer then
        some { pool with fetcher := .polling, jobCh := pool.jobCh ++ [job] }
      else none
    else if pool.cancelled then
      some { pool with fetcher := .handingBack (Processor.handBack job) }
    else none
  | .handingBack (.call c next) =>
    let (reply, stores) := perform env.background pool.stores c
    some { pool with stores, fetcher := .handingBack (next reply) }
  | .handingBack (.pure _) => some { pool with fetcher := .stopped }
  | .stopped => none

/-- `runWorker`. -/
def stepWorker (proc : Processor) (pool : Pool) (id : Nat) (env : Env) : Option Pool :=
  match pool.workers id with
  | none => none
  | some worker =>
    let ended := pool.cancelled || worker.evicted
    match worker.task with
    | none =>
      if env.delivers then
        match pool.jobCh with
        | [] => none
        | job :: rest =>
          some ({ pool with jobCh := rest }.setWorker id
            (some { worker with task := some ⟨job, proc.process job, false⟩ }))
      else if ended then some (pool.setWorker id none)
      else none
    | some ⟨job, .call c next, settled⟩ =>
      let (reply, stores) := perform (env.under ended) pool.stores c
      some ({ pool with stores }.setWorker id (some { worker with
        task := some ⟨job, next reply, settled || (c.places job.id && c.succeeded reply)⟩ }))
    | some ⟨_, .pure _, _⟩ => some (pool.setWorker id (some { worker with task := none }))

/-- `spawnWorker` in `runScaler`. -/
def spawnWorker (pool : Pool) : Pool :=
  { pool with nextID := pool.nextID + 1 }.setWorker pool.nextID (some ⟨false, none⟩)

def step (proc : Processor) (buffer : Nat) (pool : Pool) : PoolAction → Option Pool
  | .cancel => some { pool with cancelled := true }
  | .fetcher env => pool.stepFetcher buffer env
  | .worker id env => pool.stepWorker proc id env
  | .spawn => if pool.scaling then some pool.spawnWorker else none
  | .evict id =>
    match pool.workers id with
    | some worker =>
      if pool.scaling then some (pool.setWorker id (some { worker with evicted := true })) else none
    | none => none
  | .stopScaler => if pool.cancelled then some { pool with scaling := false } else none
  | .expire id =>
    some { pool with stores := { pool.stores with redis := pool.stores.redis.expireLock id } }
  | .outside jobs redis => some { pool with stores := { pool.stores with jobs, redis } }

/-! ## Turns -/

/-- What a step of the fetcher can be. -/
inductive FetcherTurn (buffer : Nat) (pool : Pool) (env : Env) : Pool → Prop where
  | ends (polls : pool.fetcher = .polling) (ended : pool.cancelled = true) :
    FetcherTurn buffer pool env { pool with fetcher := .stopped }
  | dequeues (polls : pool.fetcher = .polling) :
    FetcherTurn buffer pool env { pool with fetcher := .dequeuing dequeue }
  | calls {c : Call} {next : c.Reply → Prog (Except GoError (Option Job))}
    (dequeuing : pool.fetcher = .dequeuing (.call c next)) :
    FetcherTurn buffer pool env { pool with
      stores := (perform (env.under pool.cancelled) pool.stores c).2
      fetcher := .dequeuing (next (perform (env.under pool.cancelled) pool.stores c).1) }
  | obtains {job : Job} (dequeued : pool.fetcher = .dequeuing (.pure (.ok (some job)))) :
    FetcherTurn buffer pool env
      { pool with fetcher := .delivering job, obtained := job.id :: pool.obtained }
  | waits (dequeued : pool.fetcher = .dequeuing (.pure (.ok none))) :
    FetcherTurn buffer pool env { pool with fetcher := .polling }
  | fails {error : GoError} (dequeued : pool.fetcher = .dequeuing (.pure (.error error)))
    (ended : pool.cancelled = true) : FetcherTurn buffer pool env { pool with fetcher := .stopped }
  | retries {error : GoError} (dequeued : pool.fetcher = .dequeuing (.pure (.error error))) :
    FetcherTurn buffer pool env { pool with fetcher := .polling }
  | delivers {job : Job} (selects : pool.fetcher = .delivering job) (channel : env.delivers = true)
    (room : pool.jobCh.length < buffer) :
    FetcherTurn buffer pool env { pool with fetcher := .polling, jobCh := pool.jobCh ++ [job] }
  | keeps {job : Job} (selects : pool.fetcher = .delivering job) (ended : pool.cancelled = true) :
    FetcherTurn buffer pool env { pool with fetcher := .handingBack (Processor.handBack job) }
  | handsBack {c : Call} {next : c.Reply → Prog Unit}
    (handing : pool.fetcher = .handingBack (.call c next)) :
    FetcherTurn buffer pool env { pool with
      stores := (perform env.background pool.stores c).2
      fetcher := .handingBack (next (perform env.background pool.stores c).1) }
  | handed {value : Unit} (handing : pool.fetcher = .handingBack (.pure value)) :
    FetcherTurn buffer pool env { pool with fetcher := .stopped }

/-- What a step of a worker can be. -/
inductive WorkerTurn (proc : Processor) (pool : Pool) (number : Nat) (env : Env) : Pool → Prop where
  | receives {evicted : Bool} {job : Job} {rest : List Job}
    (current : pool.workers number = some ⟨evicted, none⟩) (channel : env.delivers = true)
    (queue : pool.jobCh = job :: rest) :
    WorkerTurn proc pool number env ({ pool with jobCh := rest }.setWorker number
      (some ⟨evicted, some ⟨job, proc.process job, false⟩⟩))
  | stops {evicted : Bool} (current : pool.workers number = some ⟨evicted, none⟩)
    (rests : env.delivers = false) (ended : (pool.cancelled || evicted) = true) :
    WorkerTurn proc pool number env (pool.setWorker number none)
  | calls {evicted settled : Bool} {job : Job} {c : Call} {next : c.Reply → Prog (Option GoError)}
    (current : pool.workers number = some ⟨evicted, some ⟨job, .call c next, settled⟩⟩) :
    WorkerTurn proc pool number env
      ({ pool with stores := (perform (env.under (pool.cancelled || evicted)) pool.stores c).2 }.setWorker
        number (some ⟨evicted, some
          ⟨job, next (perform (env.under (pool.cancelled || evicted)) pool.stores c).1,
            settled || (c.places job.id &&
              c.succeeded (perform (env.under (pool.cancelled || evicted)) pool.stores c).1)⟩⟩))
  | returns {evicted settled : Bool} {job : Job} {error : Option GoError}
    (current : pool.workers number = some ⟨evicted, some ⟨job, .pure error, settled⟩⟩) :
    WorkerTurn proc pool number env (pool.setWorker number (some ⟨evicted, none⟩))

variable {pool after : Pool} {env : Env}

theorem fetcher_turns {buffer : Nat} (stepped : pool.stepFetcher buffer env = some after) :
    FetcherTurn buffer pool env after := by
  simp only [stepFetcher] at stepped
  split at stepped
  · next polls =>
    split at stepped
    · next ended =>
      cases stepped
      exact .ends polls ended
    · cases stepped
      exact .dequeues polls
  · next dequeuing =>
    cases stepped
    exact .calls dequeuing
  · next dequeued =>
    cases stepped
    exact .obtains dequeued
  · next dequeued =>
    cases stepped
    exact .waits dequeued
  · next dequeued =>
    split at stepped
    · next ended =>
      cases stepped
      exact .fails dequeued ended
    · cases stepped
      exact .retries dequeued
  · next selects =>
    split at stepped
    · next channel =>
      split at stepped
      · next room =>
        cases stepped
        exact .delivers selects channel room
      · cases stepped
    · split at stepped
      · next ended =>
        cases stepped
        exact .keeps selects ended
      · cases stepped
  · next handing =>
    cases stepped
    exact .handsBack handing
  · next handing =>
    cases stepped
    exact .handed handing
  · cases stepped

theorem worker_turns {proc : Processor} {number : Nat}
    (stepped : pool.stepWorker proc number env = some after) :
    WorkerTurn proc pool number env after := by
  cases current : pool.workers number with
  | none =>
    simp only [stepWorker, current] at stepped
    cases stepped
  | some worker =>
    obtain ⟨evicted, task⟩ := worker
    cases task with
    | none =>
      simp only [stepWorker, current] at stepped
      split at stepped
      · next channel =>
        cases queue : pool.jobCh with
        | nil =>
          simp only [queue] at stepped
          cases stepped
        | cons job rest =>
          simp only [queue] at stepped
          cases stepped
          exact .receives current channel queue
      · next rests =>
        split at stepped
        · next ended =>
          cases stepped
          exact .stops current (Bool.not_eq_true _ ▸ rests) ended
        · cases stepped
    | some task =>
      obtain ⟨job, program, settled⟩ := task
      cases program with
      | pure error =>
        simp only [stepWorker, current] at stepped
        cases stepped
        exact .returns current
      | call c next =>
        simp only [stepWorker, current] at stepped
        cases stepped
        exact .calls current

/-- `Wait` returns. -/
def Waited (pool : Pool) : Prop :=
  pool.fetcher = .stopped ∧ pool.scaling = false ∧ ∀ id, pool.workers id = none

end Pool

end Taskfire
