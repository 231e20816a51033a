import Taskfire.Library.Longest
import Taskfire.Model.Pool

/-!
# The scaler and the workers' statistics

A pool as `Start` leaves it (`worker/pool/worker_pool.go`): the steps of `Pool`, with the statistics
that `runWorker` keeps and the ticks of `runScaler` that read them.  The clock, the queue depth and the
order in which Go iterates over the map of workers are choices of the environment.  Other processes may
change the stores at any time.

`Running` takes a tick as one step.  `Scanning` splits a tick that scales down: the idle times are read
one by one and the worker is cancelled last, while the workers go on.
-/

namespace Taskfire

open Taskfire.Library

/-- `Config`; the interval of the scaler only decides when a tick comes. -/
structure PoolConfig where
  minWorkers : Int
  maxWorkers : Int
  jobChannelBuffer : Int
  idleTimeout : Int
  highWatermark : Int
  lowWatermark : Int

/-- `DefaultConfig`. -/
def PoolConfig.defaultConfig : PoolConfig where
  minWorkers := 4
  maxWorkers := 32
  jobChannelBuffer := 64
  idleTimeout := 60 * second
  highWatermark := 50
  lowWatermark := 5

/-- The capacity `NewPool` gives to the channel. -/
def PoolConfig.buffer (cfg : PoolConfig) : Nat :=
  if cfg.jobChannelBuffer ≤ 0 then (cfg.maxWorkers * 2).toNat else cfg.jobChannelBuffer.toNat

/-! ## Statistics -/

structure WorkerStats where
  startedAt : Time
  jobsProcessed : Nat
  errors : Nat
  /-- Nanoseconds; 0 before the first job has ended. -/
  lastActiveAt : Int
  currentJobID : Option JobId

namespace WorkerStats

def fresh (startedAt : Time) : WorkerStats := ⟨startedAt, 0, 0, 0, none⟩

def received (stats : WorkerStats) (id : JobId) : WorkerStats :=
  { stats with currentJobID := some id }

/-- After `Process` has returned: only now is the time of the last activity written. -/
def finished (stats : WorkerStats) (error : Option GoError) (now : Time) : WorkerStats :=
  { stats with
    jobsProcessed := if error.isNone then stats.jobsProcessed + 1 else stats.jobsProcessed
    errors := if error.isNone then stats.errors else stats.errors + 1
    lastActiveAt := now
    currentJobID := none }

/-- How long the worker has been idle, as the scaler computes it. -/
def idle (stats : WorkerStats) (now : Time) : Int :=
  now - if stats.lastActiveAt = 0 then stats.startedAt else stats.lastActiveAt

end WorkerStats

/-! ## What a worker has done -/

/-- The job types of what a worker has counted and of what it has done.  No code reads it. -/
structure Tally where
  /-- Counted as processed, as failed and as retried. -/
  processed : List String
  failures : List String
  attempts : List String
  /-- Appended to the done list, moved to the dead-letter set, put back in a lane and put off. -/
  acked : List String
  buried : List String
  retried : List String
  blocked : List String
  /-- Executions whose handler was missing or did not return nil. -/
  failed : List String

namespace Tally

def empty : Tally := ⟨[], [], [], [], [], [], [], []⟩

def noteZadd (tally : Tally) (jobType : String) : ZKey → Tally
  | .lane _ => { tally with retried := jobType :: tally.retried }
  | .delayed => { tally with blocked := jobType :: tally.blocked }
  | .dlq => { tally with buried := jobType :: tally.buried }

def noteFailure (tally : Tally) (jobType : String) : Tally :=
  { tally with failed := jobType :: tally.failed }

/-- What a call of `Process` adds. -/
def note (tally : Tally) : (c : Call) → c.Reply → Tally
  | .count (.jobsProcessed jobType _), _ => { tally with processed := jobType :: tally.processed }
  | .count (.jobsFailed jobType _), _ => { tally with failures := jobType :: tally.failures }
  | .count (.retryAttempts jobType), _ => { tally with attempts := jobType :: tally.attempts }
  | .command (.lpushDone member), reply =>
    if reply.isOk then { tally with acked := member.brief.jobType :: tally.acked } else tally
  | .command (.zadd key _ member), reply =>
    if reply.isOk then tally.noteZadd member.brief.jobType key else tally
  | .findHandler job, found => if found then tally else tally.noteFailure job.jobType
  | .awaitHandler job, outcome => match outcome with
    | .returnedNil => tally
    | _ => tally.noteFailure job.jobType
  | _, _ => tally

end Tally

/-! ## The running pool -/

structure Running where
  pool : Pool
  stats : Nat → WorkerStats
  tally : Nat → Tally

inductive RunningAction where
  | cancel
  | fetcher (env : Env)
  | worker (id : Nat) (env : Env)
  /-- The scaler's ticker fires; reading the depth may fail. -/
  | tick (depth : Option Int) (now : Time) (order : List Nat)
  | stopScaler
  /-- Other processes change the stores. -/
  | outside (jobs : Jobs) (redis : Redis Member)

/-- The ids in the map of workers. -/
def Pool.present (pool : Pool) : List Nat :=
  (List.range pool.nextID).filter fun id => (pool.workers id).isSome

namespace Running

/-- `Start`, with the times at which the workers of the first cohort are spawned. -/
def start (cfg : PoolConfig) (stores : Stores) (startedAt : Nat → Time) : Running where
  pool := .start cfg.minWorkers.toNat stores
  stats := fun id => .fresh (startedAt id)
  tally := fun _ => .empty

/-! ## Workers -/

/-- What one turn of `runWorker` makes of the worker's statistics. -/
def workerStats (running : Running) (id : Nat) (env : Env) : WorkerStats :=
  match running.pool.workers id with
  -- `stats.CurrentJobID` is set when the job leaves the channel, before `Process` is called.
  | some ⟨_, none⟩ =>
    match env.delivers, running.pool.jobCh with
    | true, job :: _ => (running.stats id).received job.id
    | _, _ => running.stats id
  -- The counters and `lastActiveAt` are written after `Process` has returned.
  | some ⟨_, some ⟨_, .pure error, _⟩⟩ => (running.stats id).finished error env.now
  | _ => running.stats id

def workerTally (running : Running) (id : Nat) (env : Env) : Tally :=
  match running.pool.workers id with
  | some ⟨evicted, some ⟨_, .call c _, _⟩⟩ =>
    (running.tally id).note c
      (perform (env.under (running.pool.cancelled || evicted)) running.pool.stores c).1
  | _ => running.tally id

/-! ## The scaler -/

def spawnWorker (running : Running) (now : Time) : Running :=
  { running with
    pool := running.pool.spawnWorker
    stats := Function.update running.stats running.pool.nextID (.fresh now) }

/-- The worker with the longest idle time that reaches the timeout. -/
def evictIdleWorker (cfg : PoolConfig) (running : Running) (now : Time) (order : List Nat) :
    Option Nat :=
  longest (fun id => (running.stats id).idle now) cfg.idleTimeout order

/-- `target.cancel()`. -/
def cancelWorker (running : Running) (id : Nat) : Running :=
  match running.pool.workers id with
  | none => running
  -- The worker stays in the map until its goroutine returns.
  | some worker =>
    { running with pool := running.pool.setWorker id (some { worker with evicted := true }) }

/-- The scaler takes the branch that scales down. -/
def scalesDown (cfg : PoolConfig) (running : Running) (depth : Int) : Bool :=
  let current : Int := running.pool.present.length
  !(cfg.highWatermark < depth && current < cfg.maxWorkers) &&
    (depth ≤ cfg.lowWatermark && cfg.minWorkers < current)

/-- One tick of `runScaler`. -/
def scale (cfg : PoolConfig) (running : Running) (depth : Int) (now : Time) (order : List Nat) :
    Running :=
  let current : Int := running.pool.present.length
  -- `len(p.workers)` counts the workers that are cancelled and still in the map.
  if cfg.highWatermark < depth ∧ current < cfg.maxWorkers then running.spawnWorker now
  else if depth ≤ cfg.lowWatermark ∧ cfg.minWorkers < current then
    match running.evictIdleWorker cfg now order with
    | some id => running.cancelWorker id
    | none => running
  else running

/-! ## Steps -/

def step (proc : Processor) (cfg : PoolConfig) (running : Running) : RunningAction → Option Running
  | .cancel => some { running with pool := { running.pool with cancelled := true } }
  | .fetcher env =>
    (running.pool.stepFetcher cfg.buffer env).map fun pool => { running with pool }
  | .worker id env =>
    (running.pool.stepWorker proc id env).map fun pool =>
      { running with
        pool
        stats := Function.update running.stats id (running.workerStats id env)
        tally := Function.update running.tally id (running.workerTally id env) }
  | .tick depth now order =>
    -- The map of workers is read in any order, each worker once.
    if running.pool.scaling ∧ order.Perm running.pool.present then
      match depth with
      -- An error of `QueueDepth` is logged, and the tick is skipped.
      | none => some running
      | some depth => some (running.scale cfg depth now order)
    else none
  | .stopScaler =>
    if running.pool.cancelled then some { running with pool := { running.pool with scaling := false } }
    else none
  | .outside jobs redis =>
    some { running with pool := { running.pool with
      stores := { running.pool.stores with jobs, redis } } }

end Running

/-! ## Evictions in steps -/

/-- `evictIdleWorker` on its way through the map; its variables are what `longest` finds in the idle
times that have been read. -/
structure Eviction where
  now : Time
  unread : List Nat
  read : List (Nat × Int)

def Eviction.target (cfg : PoolConfig) (eviction : Eviction) : Option Nat :=
  (longest Prod.snd cfg.idleTimeout eviction.read).map Prod.fst

structure Scanning where
  running : Running
  eviction : Option Eviction

inductive ScanningAction where
  | running (action : RunningAction)
  /-- The next turn of `evictIdleWorker`. -/
  | evict

namespace Scanning

def start (cfg : PoolConfig) (stores : Stores) (startedAt : Nat → Time) : Scanning :=
  ⟨.start cfg stores startedAt, none⟩

/-- A turn of `evictIdleWorker`: it reads the idle time of the next worker, or cancels its target. -/
def evict (cfg : PoolConfig) (running : Running) (eviction : Eviction) : Scanning :=
  match eviction.unread with
  | id :: rest =>
    let read := eviction.read ++ [(id, (running.stats id).idle eviction.now)]
    ⟨running, some { eviction with unread := rest, read }⟩
  | [] =>
    match eviction.target cfg with
    | some id => ⟨running.cancelWorker id, none⟩
    | none => ⟨running, none⟩

def step (proc : Processor) (cfg : PoolConfig) (scanning : Scanning) :
    ScanningAction → Option Scanning
  | .running (.tick depth now order) =>
    match scanning.eviction with
    -- The scaler is in the middle of a tick.
    | some _ => none
    | none =>
      (scanning.running.step proc cfg (.tick depth now order)).map fun running =>
        if depth.any fun depth => scanning.running.scalesDown cfg depth then
          ⟨scanning.running, some ⟨now, order, []⟩⟩
        else ⟨running, none⟩
  | .running .stopScaler =>
    match scanning.eviction with
    | some _ => none
    | none => (scanning.running.step proc cfg .stopScaler).map fun running => ⟨running, none⟩
  | .running (.worker id env) =>
    match scanning.running.step proc cfg (.worker id env) with
    | none => none
    | some running =>
      -- A worker that returns waits for `p.mu` before it leaves the map.
      if scanning.eviction.isSome ∧ (running.pool.workers id).isNone then none
      else some { scanning with running }
  | .running action =>
    (scanning.running.step proc cfg action).map fun running => { scanning with running }
  | .evict => scanning.eviction.map (evict cfg scanning.running)

end Scanning

end Taskfire
