import Mathlib.Data.ENat.Lattice
import Mathlib.Tactic.NormNum
import Taskfire.Dag.Gate
import Taskfire.Lifecycle.Handling
import Taskfire.Safety.Claiming

/-!
# How often a handler is executed

A worker that dequeues and processes one job again and again.  Each time it gets the job, the handler
is executed once, and the record goes back to its lane until the handler returns nil or the retry
manager gives up.
-/

namespace Taskfire

open Taskfire.Library

/-! ## The worker -/

namespace Processor

/-- Whether there was a job. -/
def dequeueAndProcess (proc : Processor) : Prog Bool := do
  match ← dequeue with
  | .ok (some job) => do
    let _ ← proc.process job
    pure true
  | _ => pure false

/-- How often there was a job. -/
def attempts (proc : Processor) : Nat → Prog Nat
  | 0 => pure 0
  | cycles + 1 => do
    let dequeued ← proc.dequeueAndProcess
    let later ← proc.attempts cycles
    pure (later + if dequeued then 1 else 0)

/-- No dependency checker, or the one of `main.go`. -/
def Production (proc : Processor) : Prop :=
  proc.depChecker = none ∨ proc.depChecker = some Engine.checker

theorem process_independent {proc : Processor} (production : proc.Production) {job : Job}
    (independent : job.dependencies = []) : proc.process job = proc.execute job := by
  have allowed : proc.canRun job = pure (.ok true) := by
    obtain none | engine := production
    · simp only [canRun, none]
    · simp only [canRun, engine, Engine.checker, Engine.canRun, if_pos independent]
  simp only [process, allowed]
  rfl

end Processor

/-! ## The environment -/

/-- Before each call others may use the stores; then the environment makes its choices. -/
abbrev Reaction := Stores → Env × Stores

def react (choice : Reaction) (stores : Stores) (c : Call) : c.Reply × Stores :=
  perform (choice stores).1 (choice stores).2 c

/-- The others leave the job alone; its lock may run out. -/
structure Leaves (id : JobId) (before after : Stores) : Prop where
  aside : Aside id before.redis after.redis
  done : ∀ member, member.isOf id = true → member ∈ before.redis.done.take (doneListCap + 1) →
    member ∈ after.redis.done.take (doneListCap + 1)
  lock : after.redis.lock id = true → before.redis.lock id = true
  started : after.ledger.started id = before.ledger.started id

/-- The queue answers, the type has a handler that fails its first `failing` executions, and no context
ends.  Updates of the row and events may fail. -/
def Call.steady (failing : ℕ∞) (executions : Nat) : (c : Call) → c.Reply → Prop
  | .command (.publish _), _ => True
  | .command _, reply => reply.isOk = true
  | .claim, reply => reply.isOk = true
  | .findHandler _, found => found = true
  | .awaitHandler _, outcome => outcome = .returnedNil ↔ failing < executions
  | .backoff _ _, ended => ended = none
  | _, _ => True

/-- The worker is given no other job, and executions are counted from `before` on. -/
def Steady (id : JobId) (before : Nat) (failing : ℕ∞) (c : Call) (choice : Reaction) : Prop :=
  ∀ stores, Leaves id stores (choice stores).2 ∧ Own id c (react choice stores c).1 ∧
    c.steady failing ((choice stores).2.ledger.started id - before) (react choice stores c).1

/-- Besides, no other record is in a lane when the worker claims. -/
def SteadyAlone (id : JobId) (before : Nat) (failing : ℕ∞) (c : Call) (choice : Reaction) : Prop :=
  Steady id before failing c choice ∧ (c = .claim → ∀ stores lane,
    ∀ member ∈ ((choice stores).2.redis.zset (.lane lane)).members, member.isOf id = true)

/-! ## The stores follow the protocol -/

structure Tracks (id : JobId) (before : Nat) (failing : ℕ∞) (handling : Handling) (stores : Stores) :
    Prop where
  lies : Lies id handling.place stores.redis
  finished : ∀ member, handling.place = .done member →
    member.isOf id = true ∧ member ∈ stores.redis.done.take (doneListCap + 1)
  lock : stores.redis.lock id = true → handling.locked = true
  started : stores.ledger.started id = before + handling.executions
  passed : ∀ passed, handling.passed = some passed → (passed = true ↔ failing < handling.executions)
  smooth : handling.smooth = true
  legible : ∀ member, handling.place = .lane member → Decoding.cjson member ≠ .notTable
  reads : ∀ content, handling.record = some content → cjsonReads content.payload = true

/-- `cjson` reads a record whose payload it reads. -/
theorem legible_iff {member : Member} {content : Content} (decoded : member.content? = some content) :
    Decoding.cjson member ≠ .notTable ↔ cjsonReads content.payload = true := by
  cases member with
  | text content => cases decoded
  | record json =>
    cases decoded
    simp [Decoding.cjson, Decoded.ofRecord, Job.content, JobJson.toJob]

section

variable {id : JobId} {before : Nat} {failing : ℕ∞} {handling : Handling} {stores : Stores}
variable {env : Env} {c : Call}

theorem Tracks.leaves {after : Stores} (tracks : Tracks id before failing handling stores)
    (leaves : Leaves id stores after) : Tracks id before failing handling after := by
  refine ⟨tracks.lies.aside leaves.aside, ?_, ?_, ?_, tracks.passed, tracks.smooth, tracks.legible,
    tracks.reads⟩
  · intro member finished
    obtain ⟨own, listed⟩ := tracks.finished member finished
    exact ⟨own, leaves.done member own listed⟩
  · intro locked
    exact tracks.lock (leaves.lock locked)
  · rw [leaves.started]
    exact tracks.started

theorem perform_isOk {command : Command} (ok : (perform env stores (.command command)).1.isOk = true) :
    perform env stores (.command command) = (.ok (), stores.applyCommand command) := by
  obtain ⟨reply, -, failing, performed⟩ | performed := perform_cases env stores (.command command)
  · cases failing
    rw [performed] at ok
    cases ok
  · exact performed

theorem applyCommand_lock (stores : Stores) {command : Command}
    (locked : (stores.applyCommand command).redis.lock id = true) :
    stores.redis.lock id = true ∧ command ≠ .delLock id := by
  cases command with
  | delLock other =>
    by_cases same : other = id
    · subst same
      simp [Stores.applyCommand, Redis.expireLock] at locked
    · refine ⟨?_, fun equal => same (Command.delLock.inj equal)⟩
      simpa [Stores.applyCommand, Redis.expireLock, Function.update_of_ne (Ne.symm same)] using locked
  | zadd | zrem | hdelProcessing | lpushDone | ltrimDone | publish => exact ⟨locked, by simp⟩

theorem Tracks.command {command : Command} (tracks : Tracks id before failing handling stores)
    (permitted : handling.permits id (.command command))
    (ok : (perform env stores (.command command)).1.isOk = true) :
    Tracks id before failing (handling.advance (.command command) (.ok ()))
      (stores.applyCommand command) := by
  have performed := perform_isOk ok
  have lies := lies_command tracks.lies permitted
  have started : (stores.applyCommand command).ledger.started id = before + handling.executions := by
    have same := perform_started env stores (c := .command command) trivial
    rw [performed] at same
    rw [← tracks.started, ← same]
  cases command with
  | zadd key score member =>
    refine ⟨lies, ?_, fun locked => tracks.lock (applyCommand_lock stores locked).1, started,
      tracks.passed, tracks.smooth, ?_, tracks.reads⟩
    · intro other finished
      cases key <;> cases finished
    -- It is written from what is in hand.
    · intro other lane
      obtain ⟨content, holds, -, decoded⟩ := permitted
      cases key <;> cases lane
      exact (legible_iff decoded).mpr (tracks.reads content holds.record)
  | zrem => cases permitted
  | hdelProcessing | publish =>
    exact ⟨lies, tracks.finished, tracks.lock, started, tracks.passed, tracks.smooth, tracks.legible,
      tracks.reads⟩
  | delLock other =>
    cases permitted
    exact ⟨lies, tracks.finished, fun locked => absurd rfl (applyCommand_lock stores locked).2, started,
      tracks.passed, tracks.smooth, tracks.legible, tracks.reads⟩
  -- The new record is the first of the list, which the trim leaves there.
  | lpushDone member =>
    obtain ⟨_, -, own, -⟩ := permitted
    refine ⟨lies, ?_, tracks.lock, started, tracks.passed, tracks.smooth, ?_, tracks.reads⟩
    · intro other finished
      cases finished
      exact ⟨own, by simp [Stores.applyCommand]⟩
    · intro other lane
      cases lane
  | ltrimDone stop =>
    cases permitted
    refine ⟨lies, ?_, tracks.lock, started, tracks.passed, tracks.smooth, tracks.legible, tracks.reads⟩
    intro member finished
    obtain ⟨own, listed⟩ := tracks.finished member finished
    refine ⟨own, ?_⟩
    simp only [Stores.applyCommand, List.take_take, Nat.min_self]
    exact listed

/-- A call after which neither the handling nor what it tracks has changed. -/
theorem Tracks.unchanged {after : Stores} (tracks : Tracks id before failing handling stores)
    (redis : after.redis = stores.redis) (started : after.ledger.started = stores.ledger.started) :
    Tracks id before failing handling after := by
  obtain ⟨lies, finished, lock, counted, passed, smooth, legible, reads⟩ := tracks
  rw [← redis] at lies finished lock
  rw [← started] at counted
  exact ⟨lies, finished, lock, counted, passed, smooth, legible, reads⟩

/-- A claim takes the record from its lane, or nothing. -/
theorem Tracks.claim (tracks : Tracks id before failing handling stores)
    (own : Own id .claim (perform env stores .claim).1) :
    (Call.claimed .claim (perform env stores .claim).1 = none ∧
      Tracks id before failing handling (perform env stores .claim).2) ∨
    ∃ member, (perform env stores .claim).1 = .ok (some member) ∧ handling.place = .lane member ∧
      member.isOf id = true ∧ Tracks id before failing
        { handling with place := .nowhere, record := member.content?, locked := true }
        (perform env stores .claim).2 := by
  have started : (perform env stores .claim).2.ledger.started = stores.ledger.started :=
    perform_started env stores trivial
  obtain ⟨after, moved, none, unclaimed, delayed⟩ | ⟨member, other, after, moved, reply, claimed,
    delayed⟩ := perform_claim_cases env stores
  · refine .inl ⟨none, ?_⟩
    rw [moved]
    refine ⟨tracks.lies.unclaimed_legible unclaimed delayed tracks.legible, ?_, ?_, tracks.started,
      tracks.passed, tracks.smooth, tracks.legible, tracks.reads⟩
    · rw [unclaimed.done]
      exact tracks.finished
    · rw [unclaimed.lock]
      exact tracks.lock
  -- The worker gets no other job, so that the record is the one it waits for.
  · rw [reply] at own
    have mine := own member rfl
    have same := Member.isOf_iff.mp mine
    rw [claimed.hasId] at same
    cases same
    obtain ⟨lane, lies⟩ := tracks.lies.claimed claimed delayed
    refine .inr ⟨member, reply, lane, mine, ?_⟩
    rw [moved]
    refine ⟨lies, ?_, fun _ => rfl, tracks.started, tracks.passed, tracks.smooth, ?_, ?_⟩
    · intro finished none
      cases none
    · intro other none
      cases none
    · intro content decoded
      exact (legible_iff decoded).mp (tracks.legible member lane)

/-- Every call keeps the stores in step with the protocol. -/
theorem Tracks.called (tracks : Tracks id before failing handling stores)
    (permitted : handling.permits id c) (own : Own id c (perform env stores c).1)
    (steady : c.steady failing (stores.ledger.started id - before) (perform env stores c).1) :
    Tracks id before failing (handling.advance c (perform env stores c).1) (perform env stores c).2 := by
  cases c with
  | command command =>
    by_cases publish : ∃ event, command = .publish event
    · obtain ⟨event, rfl⟩ := publish
      exact tracks.unchanged (perform_leavesRedis env stores rfl) (perform_started env stores trivial)
    · have ok : (perform env stores (.command command)).1.isOk = true := by
        cases command with
        | publish event => exact absurd ⟨event, rfl⟩ publish
        | _ => exact steady
      have next := tracks.command permitted ok
      rw [perform_isOk ok]
      exact next
  | claim =>
    obtain ⟨none, same⟩ | ⟨member, reply, -, -, next⟩ := tracks.claim own
    · cases replied : (perform env stores .claim).1 with
      | error error => exact same
      | ok found =>
        rw [replied] at none
        cases none
        exact same
    · rw [reply]
      exact next
  | drainDelayed => cases permitted
  | findHandler job =>
    have found : (perform env stores (.findHandler job)).1 = true := steady
    rw [found]
    exact tracks.unchanged (perform_leavesRedis env stores rfl) (perform_started env stores trivial)
  | backoff jobType attempt =>
    have ended : (perform env stores (.backoff jobType attempt)).1 = none := steady
    rw [ended]
    exact tracks.unchanged (perform_leavesRedis env stores rfl) (perform_started env stores trivial)
  -- The only call that executes the handler.
  | startHandler job =>
    obtain ⟨-, rfl⟩ := permitted
    have redis := perform_leavesRedis env stores (c := .startHandler job) rfl
    refine ⟨?_, ?_, ?_, ?_, ?_, tracks.smooth, tracks.legible, tracks.reads⟩
    · rw [redis]
      exact tracks.lies
    · rw [redis]
      exact tracks.finished
    · rw [redis]
      exact tracks.lock
    · have counted : (perform env stores (.startHandler job)).2.ledger.started job.id =
          stores.ledger.started job.id + 1 := by
        cases fails : env.fails <;> simp [perform, fails, failed?, performStore, Ledger.noteStart]
      rw [counted, tracks.started]
      rfl
    · intro passed ended
      cases ended
  | awaitHandler job =>
    have same := tracks.unchanged (perform_leavesRedis env stores (c := .awaitHandler job) rfl)
      (perform_started env stores trivial)
    -- Which execution this is decides how it ends.
    have count : stores.ledger.started id - before = handling.executions := by
      have started := tracks.started
      omega
    rw [count] at steady
    cases outcome : (perform env stores (.awaitHandler job)).1 with
    | returnedNil =>
      have below : failing < handling.executions := steady.mp outcome
      refine ⟨same.lies, same.finished, same.lock, same.started, ?_, same.smooth, same.legible,
        same.reads⟩
      intro passed ended
      cases ended
      exact ⟨fun _ => below, fun _ => rfl⟩
    | returned | panicked =>
      have above : ¬failing < handling.executions := by
        intro below
        rw [steady.mpr below] at outcome
        cases outcome
      refine ⟨same.lies, same.finished, same.lock, same.started, ?_, same.smooth, same.legible, ?_⟩
      · intro passed ended
        cases ended
        exact ⟨fun wrong => absurd wrong (by simp), fun below => absurd below above⟩
      · intro content failed
        obtain ⟨before, held, rfl⟩ := Option.map_eq_some_iff.mp failed
        exact same.reads before held
  | _ => exact tracks.unchanged (perform_leavesRedis env stores rfl) (perform_started env stores trivial)

end

/-! ## Cycles -/

/-- How often a job may be executed from now on: at least once, and else as often as the budget of its
type allows. -/
def Content.allowance (content : Content) (budget : Int) : Nat :=
  (max 1 (budget - content.retryCount)).toNat

/-- While the job may be executed its count fits in an `int`. -/
theorem Content.failed_within {content : Content} {budget : Int} {failures : Nat}
    (fits : 0 ≤ content.retryCount ∧ content.retryCount < 2 ^ 63 - 1) (integer : budget < 2 ^ 63)
    (within : failures ≤ content.allowance budget) :
    content.failed failures = { content with retryCount := content.retryCount + failures } := by
  simp only [allowance] at within
  exact failed_of_fits (by omega) (by omega)

/-- Between two cycles. -/
def Handling.resting (place : Place) (executions : Nat) : Handling where
  place
  record := none
  locked := false
  executions
  failures := 0
  passed := none
  smooth := true

/-- A record of this content is in hand. -/
def Handling.taken (content : Content) (executions : Nat) : Handling :=
  { resting .nowhere executions with record := some content, locked := true }

/-- The record waits for its next execution, or the job has ended. -/
inductive Progressed (content : Content) (limit : Nat) (failing : ℕ∞) (executions : Nat)
    (place : Place) : Prop
  | waits (member : Member) : (executions : ℕ∞) < min (failing + 1) limit → place = .lane member →
    member.content? = some (content.failed executions) →
    Progressed content limit failing executions place
  | completed (times : Nat) : (executions : ℕ∞) = min (failing + 1) limit → failing = times →
    times < limit → Records .done .completed (content.failed times) place →
    Progressed content limit failing executions place
  | dead : (executions : ℕ∞) = min (failing + 1) limit → limit ≤ failing →
    Records .dead .dead (content.failed limit) place →
    Progressed content limit failing executions place

theorem lt_executions_iff {failing : ℕ∞} {limit executions : Nat} :
    (executions : ℕ∞) < min (failing + 1) limit ↔ executions < limit ∧ ¬failing < executions := by
  rw [lt_min_iff, Nat.cast_lt, and_comm]
  cases failing with
  | top => simp
  | coe times =>
    have next : ((executions : ℕ∞) < times + 1) ↔ executions < times + 1 := by norm_cast
    rw [next, Nat.cast_lt]
    omega

section

variable {content : Content} {budget : Int} {failing : ℕ∞} {executions limit : Nat} {place : Place}

theorem executions_end (waits : (executions : ℕ∞) < min (failing + 1) limit)
    (ends : limit ≤ executions + 1 ∨ failing < (executions + 1 : Nat)) :
    ((executions + 1 : Nat) : ℕ∞) = min (failing + 1) limit := by
  apply le_antisymm
  · rw [Nat.cast_add, Nat.cast_one]
    exact Order.add_one_le_of_lt waits
  · rw [← not_lt, lt_executions_iff]
    intro further
    obtain limited | passes := ends
    · omega
    · exact further.2 passes

/-- The execution of a waiting record returns nil, or fails and is counted. -/
theorem Progressed.executed (fits : 0 ≤ content.retryCount ∧ content.retryCount < 2 ^ 63 - 1)
    (integer : budget < 2 ^ 63)
    (waits : (executions : ℕ∞) < min (failing + 1) (content.allowance budget))
    (outcome : (failing < (executions + 1 : Nat) ∧
        Records .done .completed (content.failed executions) place) ∨
      (¬failing < (executions + 1 : Nat) ∧
        AfterFailure budget ((content.failed executions).failed 1) place)) :
    Progressed content (content.allowance budget) failing (executions + 1) place := by
  obtain ⟨allowed, notYet⟩ := lt_executions_iff.mp waits
  obtain ⟨below, records⟩ | ⟨above, after⟩ := outcome
  -- The handler had not returned nil before, so that this is the first time it does.
  · have last : failing = executions := by
      rw [Nat.cast_add, Nat.cast_one, ENat.lt_add_one_iff (ENat.natCast_ne_top executions)] at below
      exact le_antisymm below (not_lt.mp notYet)
    refine .completed executions (executions_end waits (.inr ?_)) last allowed records
    rw [last]
    exact Nat.cast_lt.mpr (Nat.lt_succ_self executions)
  · rw [Content.failed_failed] at after
    have count : (content.failed (executions + 1)).retryCount = content.retryCount + (executions + 1) :=
      congrArg Content.retryCount (Content.failed_within fits integer allowed)
    unfold AfterFailure at after
    split at after
    -- The budget is used up by this failure: the execution was the last that is allowed.
    · next exhausted =>
      have limit : content.allowance budget = executions + 1 := by
        simp only [Content.allowance] at *
        omega
      refine .dead (executions_end waits (.inl (Nat.le_of_eq limit))) ?_ ?_
      · rw [limit]
        exact not_lt.mp above
      · rw [limit]
        exact after
    -- The record is back in its lane, with one failure more.
    · next within =>
      obtain ⟨job, same, -, lane⟩ := after
      refine .waits job.marshal (lt_executions_iff.mpr ⟨?_, above⟩) lane ?_
      · simp only [Content.allowance] at *
        omega
      · rw [content?_marshal, same]

/-- Between two cycles after so many executions. -/
def Resting (content : Content) (limit before : Nat) (failing : ℕ∞) (executions : Nat)
    (stores : Stores) : Prop :=
  ∃ place, Tracks content.id before failing (.resting place executions) stores ∧
    Progressed content limit failing executions place

variable {id : JobId} {before : Nat} {stores : Stores}

/-- What `Dequeue` does to a job at rest. -/
theorem dequeue_resting (tracks : Tracks id before failing (.resting place executions) stores) :
    dequeue.wp react (Steady id before failing) (fun outcome last =>
      ((∀ job, outcome ≠ .ok (some job)) ∧
        Tracks id before failing (.resting place executions) last) ∨
      ∃ job member, outcome = .ok (some job) ∧ place = .lane member ∧
        member.content? = some job.content ∧ job.id = id ∧
        Tracks id before failing (.taken job.content executions) last) stores := by
  rw [dequeue_eq]
  intro choice chosen
  obtain ⟨leaves, own, -⟩ := chosen stores
  obtain ⟨none, next⟩ | ⟨member, reply, lane, mine, next⟩ := (tracks.leaves leaves).claim own
  · refine .inl ⟨fun job returned => ?_, next⟩
    obtain ⟨raw, reply, -⟩ := received_some_iff.mp returned
    rw [react] at reply
    rw [reply] at none
    cases none
  · obtain ⟨job, decoded⟩ : ∃ job, Decoding.unmarshal member = some job := by
      cases member with
      | record json => exact ⟨_, rfl⟩
      | text content => cases mine
    have content : member.content? = some job.content := by
      rw [Member.content?, decoded]
      rfl
    refine .inr ⟨job, member, ?_, lane, content, id_of_unmarshal mine decoded, ?_⟩
    · rw [react, reply]
      exact received_some_iff.mpr ⟨member, rfl, decoded⟩
    · rw [content] at next
      exact next

/-- The handler of a job in hand is executed. -/
theorem execute_progresses {proc : Processor} {job : Job}
    (tracks : Tracks job.id before failing (.taken job.content executions) stores)
    (same : job.content = content.failed executions)
    (fits : 0 ≤ content.retryCount ∧ content.retryCount < 2 ^ 63 - 1)
    (waits : (executions : ℕ∞) < min (failing + 1) (content.allowance (proc.budget job.jobType))) :
    (proc.execute job).wp react (Steady job.id before failing) (fun _ last =>
      Resting content (content.allowance (proc.budget job.jobType)) before failing (executions + 1) last)
      stores := by
  have holds : (Handling.taken job.content executions).Holds job.content := ⟨rfl, rfl⟩
  have id : job.id = content.id := congrArg Content.id same
  apply Program.wp_mono ((execute_handles proc job holds).wp (Tracks job.id before failing) tracks ?_)
  · intro _ last ends
    obtain ⟨handling, concludes, tracked⟩ := ends
    -- The steady queue has kept the protocol smooth, which fixes the outcome.
    obtain ⟨-, unlocked, counted, outcome⟩ := concludes tracked.smooth
    have executed : handling.executions = executions + 1 := counted
    have integer := (proc.retrier.configFor job.jobType).maxRetriesInt
    refine ⟨handling.place, ?_, .executed fits integer waits ?_⟩
    · rw [← id]
      refine ⟨tracked.lies, tracked.finished, ?_, ?_, fun _ ended => ?_, rfl, tracked.legible,
        fun _ none => ?_⟩
      · intro locked
        have held := tracked.lock locked
        rw [unlocked] at held
        cases held
      · rw [tracked.started, executed]
        rfl
      · cases ended
      · cases none
    · rw [← executed, ← same]
      obtain ⟨passed, records⟩ | ⟨erred, records⟩ := outcome
      · exact .inl ⟨(tracked.passed true passed).mp rfl, records⟩
      · refine .inr ⟨fun below => ?_, records⟩
        have wrong := (tracked.passed false erred).mpr below
        cases wrong
  · intro handling store c choice permitted chosen tracked
    obtain ⟨leaves, own, steady⟩ := chosen store
    exact ⟨own, (tracked.leaves leaves).called permitted own steady⟩

/-- A cycle that gets the job executes its handler once, and any other changes nothing. -/
theorem cycle_progresses {proc : Processor} (production : proc.Production)
    (independent : content.dependencies = [])
    (fits : 0 ≤ content.retryCount ∧ content.retryCount < 2 ^ 63 - 1) (resting : Resting content
      (content.allowance (proc.budget content.jobType)) before failing executions stores) :
    proc.dequeueAndProcess.wp react (Steady content.id before failing) (fun dequeued last =>
      Resting content (content.allowance (proc.budget content.jobType)) before failing
        (executions + if dequeued then 1 else 0) last) stores := by
  obtain ⟨place, tracks, progressed⟩ := resting
  refine (Program.wp_bind ..).mpr (Program.wp_mono (dequeue_resting tracks) ?_)
  rintro outcome last (⟨none, next⟩ | ⟨job, member, rfl, rfl, decoded, own, next⟩)
  · have unchanged : Resting content (content.allowance (proc.budget content.jobType)) before failing
        executions last := ⟨place, next, progressed⟩
    cases outcome with
    | error error => exact unchanged
    | ok found =>
      cases found with
      | none => exact unchanged
      | some job => exact absurd rfl (none job)
  · cases progressed with
    -- A record that ended is in no lane and is not dequeued.
    | completed times _ _ _ records =>
      obtain ⟨_, -, -, elsewhere⟩ := records
      cases elsewhere
    | dead _ _ records =>
      obtain ⟨_, -, -, elsewhere⟩ := records
      cases elsewhere
    | waits other waits lane known =>
      cases lane
      have same : job.content = content.failed executions := by
        rw [decoded] at known
        exact Option.some.inj known
      have jobType : job.jobType = content.jobType := congrArg Content.jobType same
      have free : job.dependencies = [] := (congrArg Content.dependencies same).trans independent
      rw [← jobType] at waits ⊢
      rw [← own] at next ⊢
      refine (Program.wp_bind ..).mpr ?_
      rw [Processor.process_independent production free]
      exact Program.wp_mono (execute_progresses next same fits waits) fun _ _ rested => rested

/-- Any number of cycles. -/
theorem attempts_progress {proc : Processor} (production : proc.Production)
    (independent : content.dependencies = [])
    (fits : 0 ≤ content.retryCount ∧ content.retryCount < 2 ^ 63 - 1) (cycles : Nat)
    (resting : Resting content
      (content.allowance (proc.budget content.jobType)) before failing executions stores) :
    (proc.attempts cycles).wp react (Steady content.id before failing) (fun dequeued last =>
      Resting content (content.allowance (proc.budget content.jobType)) before failing
        (executions + dequeued) last) stores := by
  induction cycles generalizing executions stores with
  | zero => exact resting
  | succ cycles inductionHypothesis =>
    refine (Program.wp_bind ..).mpr (Program.wp_mono (cycle_progresses production independent fits resting) ?_)
    intro dequeued next rested
    refine (Program.wp_bind ..).mpr (Program.wp_mono (inductionHypothesis rested) ?_)
    intro later last ends
    -- `attempts` adds from the last cycle back.
    have sum : executions + (later + if dequeued then 1 else 0) =
        executions + (if dequeued then 1 else 0) + later := by omega
    show Resting _ _ _ _ (executions + (later + if dequeued then 1 else 0)) last
    rw [sum]
    exact ends

/-! ## Without other jobs -/

theorem claimable_of_own {redis : Redis Member} {member : Member} (free : redis.lock id = false)
    (own : member.isOf id = true) (legible : Decoding.cjson member ≠ .notTable) :
    redis.Claimable member := by
  obtain unread | ⟨other, priority, decoded, hasId⟩ := Redis.cjson_cases member
  · exact absurd unread legible
  cases member with
  | text content => cases own
  | record json =>
    have same : other = id := by
      rw [Member.isOf_iff.mp own] at hasId
      exact (Option.some.inj hasId).symm
    subst same
    exact ⟨other, priority, json.toJob, decoded, rfl, free⟩

/-- A lane in which all records are of an unlocked job, and `cjson` reads them, is not passed. -/
theorem claims_alone {redis : Redis Member} (free : redis.lock id = false)
    (legible : redis.Legible (Member.isOf id))
    (alone : ∀ lane, ∀ member ∈ (redis.zset (.lane lane)).members, member.isOf id = true)
    {lane : Lane} {member : Member} (listed : member ∈ (redis.zset (.lane lane)).members) :
    ∃ found after, redis.claimScript = (.ok (some found), after) := by
  obtain ⟨after, script, -⟩ | ⟨found, _, after, script, -⟩ := redis.claimScript_cases
  · obtain ⟨_, _, passes, -⟩ | ⟨_, _, _, _, _, _, _, _, _, _, took, takes⟩ := redis.claimScript_ends
    · obtain ⟨entry, present, -⟩ := List.mem_map.mp listed
      cases entries : redis.entries lane with
      | nil =>
        rw [Redis.entries] at entries
        rw [entries] at present
        cases present
      | cons head tail =>
        -- The head is neither malformed nor locked.
        have inside : head.1 ∈ (redis.zset (.lane lane)).members := by
          rw [SortedSet.members, show (redis.zset (.lane lane)).entries = head :: tail from entries]
          exact List.mem_cons_self
        have own := alone lane head.1 inside
        have claimable := claimable_of_own free own (legible lane head.1 inside own)
        obtain malformed | locked := passes lane head (by rw [entries]; rfl)
        · exact absurd malformed claimable.not_malformed
        · exact absurd locked claimable.not_locked
    · rw [script] at took
      cases took
      cases takes
  · exact ⟨found, after, script⟩

/-- A record that lies in a lane is a member of one. -/
theorem Lies.mem_lane {redis : Redis Member} {member : Member} (lies : Lies id (.lane member) redis)
    (own : member.isOf id = true) : ∃ lane, member ∈ (redis.zset (.lane lane)).members := by
  have waits := lies.waiting _ (within_same own)
  have notPutOff := lies.putOff _ (within_same own)
  simp only [Redis.waiting, Place.waiting, Place.putOff, one_some, one_none, decide_true, if_true]
    at waits notPutOff
  have found (lane : Lane)
      (positive : 0 < (redis.zset (.lane lane)).count fun other => other = member) :
      ∃ lane, member ∈ (redis.zset (.lane lane)).members := by
    obtain ⟨other, listed, same⟩ := List.countP_pos_iff.mp positive
    rw [of_decide_eq_true same] at listed
    exact ⟨lane, listed⟩
  by_cases high : 0 < (redis.zset (.lane .high)).count fun other => other = member
  · exact found .high high
  · by_cases medium : 0 < (redis.zset (.lane .medium)).count fun other => other = member
    · exact found .medium medium
    · exact found .low (by omega)

theorem Lies.mem_dlq {redis : Redis Member} {member : Member} (lies : Lies id (.dead member) redis)
    (own : member.isOf id = true) : member ∈ (redis.zset .dlq).members := by
  have letters := lies.letters _ (within_same own)
  have positive : 0 < (redis.zset .dlq).count fun other => other = member := by
    simp only [Redis.letters, Place.letter, one_some, decide_true, if_true] at letters
    omega
  obtain ⟨other, listed, same⟩ := List.countP_pos_iff.mp positive
  rw [of_decide_eq_true same] at listed
  exact listed

theorem isOf_of_content {member : Member} {known : Content} (decoded : member.content? = some known) :
    member.isOf known.id = true := by
  cases member with
  | text content => cases decoded
  | record json =>
    cases decoded
    simp [Member.isOf, Member.id?, Job.content, JobJson.toJob]

/-- Alone, a job that waits is dequeued. -/
theorem dequeue_alone {member : Member} {known : Content} (decoded : member.content? = some known)
    (tracks : Tracks known.id before failing (.resting (.lane member) executions) stores) :
    dequeue.wp react (SteadyAlone known.id before failing) (fun outcome _ =>
      ∃ job, outcome = .ok (some job)) stores := by
  rw [dequeue_eq]
  intro choice chosen
  obtain ⟨steady, alone⟩ := chosen
  obtain ⟨leaves, own, ok⟩ := steady stores
  have next := tracks.leaves leaves
  -- Between two cycles the lock is released, and the others take no lock for it.
  have free : (choice stores).2.redis.lock known.id = false := by
    cases locked : (choice stores).2.redis.lock known.id with
    | false => rfl
    | true => exact absurd (next.lock locked) (by simp [Handling.resting])
  obtain ⟨lane, listed⟩ := next.lies.mem_lane (isOf_of_content decoded)
  have legible : (choice stores).2.redis.Legible (Member.isOf known.id) :=
    fun lane other present own => next.legible other (next.lies.lane present own)
  obtain ⟨found, after, script⟩ := claims_alone free legible (alone rfl stores) listed
  have reply : (react choice stores .claim).1 = .ok (some found) := by
    obtain ⟨_, -, failing, performed⟩ | performed :=
      perform_cases (choice stores).1 (choice stores).2 .claim
    · cases failing
      rw [react, performed] at ok
      cases ok
    · rw [react, performed]
      simp only [performStore, script, Stores.claimReply]
  have mine : found.isOf known.id = true := by
    rw [reply] at own
    exact own found rfl
  cases found with
  | text content => cases mine
  | record json => exact ⟨json.toJob, received_some_iff.mpr ⟨_, reply, rfl⟩⟩

theorem cycle_alone {proc : Processor} {limit : Nat}
    (resting : Resting content limit before failing executions stores) :
    proc.dequeueAndProcess.wp react (SteadyAlone content.id before failing) (fun dequeued _ =>
      (executions : ℕ∞) < min (failing + 1) limit → dequeued = true) stores := by
  obtain ⟨place, tracks, progressed⟩ := resting
  by_cases waits : (executions : ℕ∞) < min (failing + 1) limit
  · cases progressed with
    | completed _ ended => exact absurd waits (by rw [ended]; exact lt_irrefl _)
    | dead ended => exact absurd waits (by rw [ended]; exact lt_irrefl _)
    | waits member _ lane decoded =>
      subst lane
      have counted : Tracks (content.failed executions).id before failing
          (.resting (.lane member) executions) stores := tracks
      have gets := dequeue_alone decoded counted
      refine (Program.wp_bind ..).mpr (Program.wp_mono gets ?_)
      rintro outcome last ⟨job, rfl⟩
      refine (Program.wp_bind ..).mpr (Program.wp_of_forall _ _ fun _ _ _ => rfl)
  · exact Program.wp_of_forall _ _ fun _ _ further => absurd further waits

theorem Progressed.bounded {limit : Nat}
    (progressed : Progressed content limit failing executions place) :
    (executions : ℕ∞) ≤ min (failing + 1) limit := by
  cases progressed with
  | waits _ before => exact le_of_lt before
  | completed _ ended | dead ended => exact le_of_eq ended

/-- Alone, as many cycles get the job as it can be executed. -/
theorem attempts_alone {proc : Processor} (production : proc.Production)
    (independent : content.dependencies = [])
    (fits : 0 ≤ content.retryCount ∧ content.retryCount < 2 ^ 63 - 1) {bound : Nat}
    (bounds : (bound : ℕ∞) = min (failing + 1) (content.allowance (proc.budget content.jobType)))
    (cycles : Nat) (resting : Resting content
      (content.allowance (proc.budget content.jobType)) before failing executions stores) :
    (proc.attempts cycles).wp react (SteadyAlone content.id before failing) (fun dequeued _ =>
      executions + dequeued = min (executions + cycles) bound) stores := by
  induction cycles generalizing executions stores with
  | zero =>
    obtain ⟨place, -, progressed⟩ := resting
    have bounded := progressed.bounded
    rw [← bounds, Nat.cast_le] at bounded
    exact (Nat.min_eq_left bounded).symm
  | succ cycles inductionHypothesis =>
    have progress := Program.wp_weaken (cycle_progresses production independent fits resting)
      fun c choice (chosen : SteadyAlone content.id before failing c choice) => chosen.1
    refine (Program.wp_bind ..).mpr
      (Program.wp_mono (Program.wp_and progress (cycle_alone resting)) ?_)
    rintro dequeued next ⟨rested, gets⟩
    refine (Program.wp_bind ..).mpr (Program.wp_mono (inductionHypothesis rested) ?_)
    intro later last ends
    rw [← bounds, Nat.cast_lt] at gets
    obtain ⟨place, -, progressed⟩ := rested
    have bounded := progressed.bounded
    rw [← bounds, Nat.cast_le] at bounded
    show executions + (later + if dequeued then 1 else 0) = min (executions + (cycles + 1)) bound
    by_cases further : executions < bound
    -- Below the bound the cycle gets the job; at the bound it cannot.
    · rw [gets further] at ends ⊢
      simp only [if_true] at ends ⊢
      omega
    · cases dequeued with
      | true =>
        simp only [if_true] at bounded
        omega
      | false =>
        simp only [Bool.false_eq_true, if_false] at ends ⊢
        omega

end

/-! ## The whole law -/

/-- What has become of the job when the worker got it so many times. -/
structure Attempted (content : Content) (limit before : Nat) (failing : ℕ∞) (dequeued : Nat)
    (last : Stores) : Prop where
  executed : last.ledger.started content.id = before + dequeued
  bounded : (dequeued : ℕ∞) ≤ min (failing + 1) limit
  waits : (dequeued : ℕ∞) < min (failing + 1) limit → last.redis.lock content.id = false ∧
    ∃ lane, ∃ member ∈ (last.redis.zset (.lane lane)).members,
      member.content? = some { content with retryCount := content.retryCount + dequeued }
  completed : (dequeued : ℕ∞) = min (failing + 1) limit → ∀ times : Nat, failing = times →
    times < limit → ∃ job : Job, job.marshal ∈ last.redis.done ∧ job.status = .completed ∧
      job.content = { content with retryCount := content.retryCount + times }
  dead : (dequeued : ℕ∞) = min (failing + 1) limit → limit ≤ failing →
    ∃ job : Job, job.marshal ∈ (last.redis.zset .dlq).members ∧ job.status = .dead ∧
      job.content = { content with retryCount := content.retryCount + limit }

theorem Resting.attempted {content : Content} {budget : Int} {before dequeued : Nat} {failing : ℕ∞}
    {last : Stores} (fits : 0 ≤ content.retryCount ∧ content.retryCount < 2 ^ 63 - 1)
    (integer : budget < 2 ^ 63)
    (resting : Resting content (content.allowance budget) before failing dequeued last) :
    Attempted content (content.allowance budget) before failing dequeued last := by
  obtain ⟨place, tracks, progressed⟩ := resting
  refine ⟨tracks.started, progressed.bounded, ?_, ?_, ?_⟩
  · intro further
    cases progressed with
    | waits member _ lane decoded =>
      subst lane
      refine ⟨?_, ?_⟩
      · cases locked : last.redis.lock content.id with
        | false => rfl
        | true => exact absurd (tracks.lock locked) (by simp [Handling.resting])
      · have own : member.isOf (content.failed dequeued).id = true := isOf_of_content decoded
        obtain ⟨lane, listed⟩ := tracks.lies.mem_lane own
        rw [Content.failed_within fits integer (Nat.le_of_lt (lt_executions_iff.mp further).1)] at decoded
        exact ⟨lane, member, listed, decoded⟩
    | completed _ ended | dead ended => exact absurd further (by rw [ended]; exact lt_irrefl _)
  -- As many executions as there are to be, and the last one succeeded.
  · intro ended times same below
    cases progressed with
    | waits _ further => exact absurd further (by rw [ended]; exact lt_irrefl _)
    | completed counted _ again _ records =>
      rw [same, Nat.cast_inj] at again
      subst again
      obtain ⟨job, kept, status, finished⟩ := records
      rw [Content.failed_within fits integer (Nat.le_of_lt below)] at kept
      exact ⟨job, List.mem_of_mem_take (tracks.finished _ finished).2, status, kept⟩
    | dead _ above =>
      rw [same, Nat.cast_le] at above
      omega
  -- As many as there are to be, and none has succeeded.
  · intro ended above
    cases progressed with
    | waits _ further => exact absurd further (by rw [ended]; exact lt_irrefl _)
    | completed times _ same below =>
      rw [same, Nat.cast_le] at above
      omega
    | dead _ _ records =>
      obtain ⟨job, same, status, buried⟩ := records
      have own : job.marshal.isOf content.id = true := by
        rw [Member.isOf_iff, Job.marshal_id?]
        exact congrArg some (congrArg Content.id same)
      have lies : Lies content.id (.dead job.marshal) last.redis := buried ▸ tracks.lies
      rw [Content.failed_within fits integer (Nat.le_refl _)] at same
      exact ⟨job, lies.mem_dlq own, status, same⟩

/-- A job with `retry_count` r that waits in its lane, whose handler fails its first `failing`
executions and then returns nil, and a worker with the budget M for its type: dequeued and processed
again and again, it is executed min (failing + 1) (max 1 (M - r)) times, once each time it is dequeued,
and then it is done or dead.  Where no other job is in the lanes, it is dequeued until then. -/
theorem attempts_exact {proc : Processor} (production : proc.Production) {content : Content}
    {member : Member} {stores : Stores} (lies : Lies content.id (.lane member) stores.redis)
    (decoded : member.content? = some content) (free : stores.redis.lock content.id = false)
    (independent : content.dependencies = []) (reads : cjsonReads content.payload = true)
    (fits : 0 ≤ content.retryCount ∧ content.retryCount < 2 ^ 63 - 1) (failing : ℕ∞) (cycles : Nat) :
    (proc.attempts cycles).wp react (Steady content.id (stores.ledger.started content.id) failing)
      (Attempted content (max 1 (proc.budget content.jobType - content.retryCount)).toNat
        (stores.ledger.started content.id) failing) stores ∧
    (proc.attempts cycles).wp react (SteadyAlone content.id (stores.ledger.started content.id) failing)
      (fun dequeued _ => (dequeued : ℕ∞) = min (cycles : ℕ∞) (min (failing + 1)
        (max 1 (proc.budget content.jobType - content.retryCount)).toNat)) stores := by
  have resting : Resting content (content.allowance (proc.budget content.jobType))
      (stores.ledger.started content.id) failing 0 stores := by
    refine ⟨.lane member, ⟨lies, ?_, ?_, rfl, ?_, rfl, ?_, ?_⟩, .waits member ?_ rfl ?_⟩
    · intro finished none
      cases none
    · intro locked
      rw [free] at locked
      cases locked
    · intro passed none
      cases none
    · intro other lane
      cases lane
      exact (legible_iff decoded).mpr reads
    · intro content none
      cases none
    · refine lt_executions_iff.mpr ⟨?_, by simp⟩
      simp only [Content.allowance]
      omega
    · rw [decoded]
      simp [Content.failed]
  constructor
  · have progress := attempts_progress production independent fits cycles resting
    refine Program.wp_mono progress fun dequeued last rested => ?_
    rw [Nat.zero_add] at rested
    exact rested.attempted fits (proc.retrier.configFor content.jobType).maxRetriesInt
  -- The number of executions is finite even when the handler never returns nil.
  · obtain ⟨bound, bounds⟩ : ∃ bound : Nat, (bound : ℕ∞) =
        min (failing + 1) (content.allowance (proc.budget content.jobType)) := by
      apply ENat.ne_top_iff_exists.mp
      exact ne_of_lt (lt_of_le_of_lt (min_le_right _ _) (ENat.natCast_lt_top _))
    refine Program.wp_mono (attempts_alone production independent fits bounds cycles resting) ?_
    intro dequeued last ends
    have count : dequeued = min cycles bound := by omega
    rw [count, Nat.mono_cast.map_min, bounds]
    rfl

/-! ## One job -/

/-- The others have taken their records away. -/
def Stores.solitary (id : JobId) (stores : Stores) : Stores :=
  { stores with redis := { stores.redis with zset := fun key =>
      ⟨(stores.redis.zset key).entries.filter fun entry => entry.1.isOf id,
        (stores.redis.zset key).nodup.sublist (List.filter_sublist.map Prod.fst)⟩ } }

theorem mem_solitary {id : JobId} {stores : Stores} {key : ZKey} {member : Member}
    (listed : member ∈ ((stores.solitary id).redis.zset key).members) : member.isOf id = true := by
  obtain ⟨entry, present, rfl⟩ := List.mem_map.mp listed
  exact (List.mem_filter.mp present).2

theorem leaves_solitary (id : JobId) (stores : Stores) : Leaves id stores (stores.solitary id) := by
  refine ⟨fun key => ?_, fun _ _ listed => listed, fun locked => locked, rfl⟩
  have twice (members : List (Member × Int)) :
      ((members.filter fun entry => entry.1.isOf id).map Prod.fst).filter (Member.isOf id) =
        (members.map Prod.fst).filter (Member.isOf id) := by
    simp [List.filter_map, Function.comp_def]
  exact twice _

/-- The handler fails its first executions. -/
def patience (failing : ℕ∞) (executions : Nat) : HandlerOutcome :=
  if failing < executions then .returnedNil else .returned ⟨"boom", none⟩

/-- A calm environment for such a handler. -/
def patient (id : JobId) (before : Nat) (failing : ℕ∞) : Reaction := fun stores =>
  ({ Env.calm id with handler := patience failing (stores.ledger.started id - before) },
    stores.solitary id)

/-- What is claimed was in a lane. -/
theorem Redis.Claimed.own {redis after : Redis Member} {member : Member} {id other : JobId}
    (claimed : Redis.Claimed redis after member other)
    (alone : ∀ key, ∀ found ∈ (redis.zset key).members, found.isOf id = true) :
    member.isOf id = true := by
  have mine : member.isOf other = true := Member.isOf_iff.mpr claimed.hasId
  have listed (key : ZKey) (positive : 0 < (redis.zset key).count (Member.isOf other)) :
      member.isOf id = true := by
    obtain ⟨found, present, owned⟩ := List.countP_pos_iff.mp positive
    have same := Member.isOf_iff.mp (alone key found present)
    rw [Member.isOf_iff.mp owned] at same
    cases same
    exact mine
  have moved := claimed.fewer (Member.isOf other)
  rw [if_pos mine] at moved
  simp only [Redis.waiting] at moved
  by_cases high : 0 < (redis.zset (.lane .high)).count (Member.isOf other)
  · exact listed _ high
  · by_cases medium : 0 < (redis.zset (.lane .medium)).count (Member.isOf other)
    · exact listed _ medium
    · by_cases low : 0 < (redis.zset (.lane .low)).count (Member.isOf other)
      · exact listed _ low
      · exact listed .delayed (by omega)

/-- Every call has a choice. -/
theorem patient_serves (id : JobId) (before : Nat) (failing : ℕ∞) (c : Call) :
    SteadyAlone id before failing c (patient id before failing) := by
  refine ⟨fun stores => ⟨leaves_solitary id stores, ?_, ?_⟩, fun _ stores lane member listed =>
    mem_solitary listed⟩
  · intro member claimed
    cases c with
    | claim =>
      obtain ⟨_, _, none, _⟩ | ⟨found, other, after, _, reply, taken, _⟩ :=
        perform_claim_cases (patient id before failing stores).1 (patient id before failing stores).2
      · rw [react, none] at claimed
        cases claimed
      · rw [react, reply] at claimed
        cases claimed
        exact taken.own fun key found listed => mem_solitary listed
    | _ => cases claimed
  · cases c with
    | awaitHandler job =>
      show patience failing (stores.ledger.started id - before) = .returnedNil ↔ _
      unfold patience
      split
      · next below => exact ⟨fun _ => below, fun _ => rfl⟩
      · next above => exact ⟨fun wrong => absurd wrong (by simp), fun below => absurd below above⟩
    | command command => cases command <;> trivial
    | claim => exact perform_served _ .claim rfl
    | findHandler | backoff => rfl
    | _ => trivial

/-- The default policy, and a handler that fails once: the job is executed twice. -/
theorem attempts_exact_once : ∃ last : Stores, last.ledger.started "j" = 2 ∧
    ∃ job : Job, job.marshal ∈ last.redis.done ∧ job.status = .completed ∧ job.retryCount = 1 := by
  let stores : Stores := { Stores.empty with
    redis := Redis.empty.zadd (.lane .high) 0 Job.plain.marshal }
  have empty : Lies "j" .nowhere Redis.empty := ⟨fun _ _ => rfl, fun _ _ => rfl, fun _ _ => rfl⟩
  have lies : Lies "j" (.lane Job.plain.marshal) stores.redis := empty.zadd (.lane .high) 0 _
  have production : Processor.wired.Production := .inr rfl
  obtain ⟨progress, alone⟩ :=
    attempts_exact production lies (content?_marshal Job.plain) rfl rfl (by decide) (by decide) 1 3
  have weaker := Program.wp_weaken progress
    fun c choice (chosen : SteadyAlone "j" 0 1 c choice) => chosen.1
  obtain ⟨dequeued, last, attempted, count⟩ :=
    Program.wp_ends (fun c => ⟨_, patient_serves "j" 0 1 c⟩) (Program.wp_and weaker alone)
  have bound : min ((1 : ℕ∞) + 1) (5 : Nat) = (2 : Nat) := rfl
  have two : (dequeued : ℕ∞) = (2 : Nat) := by
    rw [count]
    rfl
  obtain ⟨job, finished, status, same⟩ :=
    attempted.completed (two.trans bound.symm) 1 Nat.cast_one.symm (by decide)
  refine ⟨last, ?_, job, finished, status, congrArg Content.retryCount same⟩
  rw [Nat.cast_inj.mp two] at attempted
  exact attempted.executed

/-! ## Two jobs -/

/-- A job that waits in its lane. -/
def Stores.queued (job : Job) : Stores :=
  { Stores.empty with redis := Redis.empty.zadd (.lane .high) 0 job.marshal }

/-- `Job.plain`, with the largest count that an `int` holds. -/
def Job.tired : Job := { Job.plain with retryCount := 2 ^ 63 - 1 }

/-- `Job.plain`, with half of a surrogate pair in its payload. -/
def Job.halved : Job := { Job.plain with payload := "\x7b\"text\":\"\\ud800\"\x7d" }

/-- A count that is the largest `int` becomes the smallest when the handler fails, so that the job is
executed again.  A job that `cjson` does not read is never executed. -/
theorem attempts_inexact :
    ¬ (Processor.wired.attempts 2).wp react (SteadyAlone "j" 0 ⊤)
      (fun dequeued _ => (dequeued : ℕ∞) = min ((2 : Nat) : ℕ∞) (min (⊤ + 1)
        (max 1 (Processor.wired.budget Job.tired.jobType - Job.tired.retryCount)).toNat))
      (.queued Job.tired) ∧
    ¬ (Processor.wired.attempts 1).wp react (SteadyAlone "j" 0 0)
      (fun dequeued _ => (dequeued : ℕ∞) = min ((1 : Nat) : ℕ∞) (min (0 + 1)
        (max 1 (Processor.wired.budget Job.halved.jobType - Job.halved.retryCount)).toNat))
      (.queued Job.halved) := by
  constructor
  · intro exact
    have counted := Program.wp_at_ends (patient_serves "j" 0 ⊤) exact
    exact absurd counted (by decide +kernel)
  · intro exact
    have counted := Program.wp_at_ends (patient_serves "j" 0 0) exact
    exact absurd counted (by decide +kernel)

end Taskfire
