import Taskfire.Library.Machine
import Taskfire.Safety.Cancellation
import Taskfire.Safety.Runs

/-!
# The list of completed jobs

Calls of `Ack` on any number of threads, interleaved command by command with each other and with
everything that leaves the list `taskfire:done` alone.
-/

namespace Taskfire

open Taskfire.Library

/-! ## Operations beside `Ack` -/

def Command.sparesDone : Command → Bool
  | .lpushDone _ | .ltrimDone _ => false
  | .zadd _ _ _ | .zrem _ _ | .hdelProcessing _ | .delLock _ | .publish _ => true

/-- Only LPUSH and LTRIM touch the list. -/
def Call.sparesDone : Call → Prop
  | .command sent => sent.sparesDone = true
  | _ => True

/-- A program that leaves the list alone. -/
structure Bystander where
  program : Prog Unit
  spares : program.Uses Call.sparesDone

namespace Bystander

variable {α : Type}

/-- The operation with its result dropped. -/
def ofProgram (program : Prog α) (spares : program.Uses Call.sparesDone) : Bystander where
  program := program >>= fun _ => pure ()
  spares := Program.uses_bind spares fun _ => trivial

def enqueue (job : Job) : Bystander :=
  ofProgram (Taskfire.enqueue job) ⟨trivial, fun _ => ⟨rfl, fun _ => trivial⟩⟩

def dequeue : Bystander :=
  ofProgram Taskfire.dequeue (by rw [dequeue_eq]; exact ⟨trivial, fun _ => trivial⟩)

def nack (job : Job) : Bystander :=
  ofProgram (Taskfire.nack job) ⟨rfl, fun _ => ⟨rfl, fun _ => trivial⟩⟩

def moveToDLQ (job : Job) (reason : GoError) : Bystander :=
  ofProgram (Taskfire.moveToDLQ job reason)
    ⟨trivial, fun _ => ⟨rfl, fun _ => ⟨rfl, fun _ => ⟨rfl, fun _ => trivial⟩⟩⟩⟩

def enqueueDelayed (job : Job) (scheduledAt : Time) : Bystander :=
  ofProgram (Taskfire.enqueueDelayed job scheduledAt) ⟨rfl, fun _ => trivial⟩

def drainDelayed (now : Time) (maxBatch : Nat) : Bystander :=
  ofProgram (Taskfire.drainDelayed now maxBatch)
    ⟨trivial, fun reply => by cases reply <;> trivial⟩

def enqueueJob (payload : EnqueuePayload) : Bystander :=
  ofProgram (Api.enqueueJob payload) ⟨trivial, fun _ => ⟨rfl, fun _ => trivial⟩⟩

def removeFromQueue (jobId : JobId) (priority : Priority) : Bystander :=
  ofProgram (Api.removeFromQueue jobId priority) <|
    (Taskfire.removeFromQueue_removes jobId priority).mono fun c removes => by
      cases c with
      | command sent =>
        cases sent with
        | lpushDone member => cases removes
        | ltrimDone stop => cases removes
        | _ => rfl
      | _ => trivial

end Bystander

/-! ## The machine -/

inductive QueueCall where
  | ack (job : Job)
  | other (bystander : Bystander)

def QueueCall.program : QueueCall → Prog Unit
  | .ack job => do
    let _ ← Taskfire.ack job
    pure ()
  | .other bystander => bystander.program

/-- The stores, and the records the calls of `Ack` have pushed, the newest first. -/
structure Recorded where
  stores : Stores
  acked : List Member

def Call.pushes : Call → List Member
  | .command (.lpushDone member) => [member]
  | _ => []

/-- The queue's clients; locks expire by themselves. -/
def queueClients : Machine Call Call.Reply Recorded Env Unit QueueCall JobId Unit where
  perform := fun env recorded c =>
    let (reply, stores) := perform env recorded.stores c
    (reply, ⟨stores, if c.succeeded reply then c.pushes ++ recorded.acked else recorded.acked⟩)
  advance := fun _ _ _ => ()
  start := fun entry => ((), entry.program)
  tick := fun id recorded =>
    { recorded with stores := { recorded.stores with redis := recorded.stores.redis.expireLock id } }
  rest := ()
  stopped := ()

abbrev QueueState := State Call Call.Reply Recorded Unit Unit

/-- Nobody works, and no job has been acked. -/
def unacked (stores : Stores) : QueueState :=
  queueClients.initial ⟨{ stores with redis := { stores.redis with done := [] } }, []⟩

/-! ## What a call does to the list -/

namespace Redis

theorem tryClaim_done (redis : Redis Member) (lane : Lane) : (redis.tryClaim lane).2.done = redis.done := by
  unfold tryClaim
  split
  · rfl
  · split
    · rfl
    · rfl
    · rfl
    · dsimp only
      split <;> rfl

theorem tryClaims_done (lanes : List Lane) (redis : Redis Member) :
    (tryClaims lanes redis).2.done = redis.done := by
  induction lanes generalizing redis with
  | nil => rfl
  | cons lane lanes inductionHypothesis =>
    have claimed := redis.tryClaim_done lane
    unfold tryClaims
    split
    · next next shape =>
      rw [shape] at claimed
      rw [inductionHypothesis, claimed]
    · exact claimed

theorem drainItem_done (nowMs : Int) (state : Nat × Redis Member) (data : Member) :
    (drainItem nowMs state data).2.done = state.2.done := by
  unfold drainItem
  split <;> rfl

theorem drainDelayedScript_done (redis : Redis Member) (cutoff : Int) (maxBatch : Nat) (nowMs : Int) :
    (redis.drainDelayedScript cutoff maxBatch nowMs).2.done = redis.done := by
  unfold drainDelayedScript
  generalize (redis.zset .delayed).rangeByScore cutoff maxBatch = items
  suffices kept : ∀ state : Nat × Redis Member, (items.foldl (drainItem nowMs) state).2.done = state.2.done from
    kept (0, redis)
  induction items with
  | nil => intro state; rfl
  | cons item items inductionHypothesis =>
    intro state
    rw [List.foldl_cons, inductionHypothesis, drainItem_done]

end Redis

theorem performStore_done (env : Env) (stores : Stores) {c : Call} (spares : c.sparesDone) :
    (performStore env stores c).2.redis.done = stores.redis.done := by
  cases c with
  | cancelJob id =>
    simp only [performStore]
    split <;> rfl
  | command sent =>
    cases sent with
    | lpushDone member => cases spares
    | ltrimDone stop => cases spares
    | _ => rfl
  | claim => exact Redis.tryClaims_done [.high, .medium, .low] stores.redis
  | drainDelayed cutoff maxBatch => exact stores.redis.drainDelayedScript_done cutoff maxBatch _
  | awaitHandler job =>
    simp only [performStore]
    split <;> rfl
  | _ => rfl

/-- The list is the newest part of what was acked, and `doneListCap` records and one more are never
cut. -/
structure Recorded.Kept (recorded : Recorded) : Prop where
  newest : recorded.stores.redis.done <+: recorded.acked
  enough : min recorded.acked.length (doneListCap + 1) ≤ recorded.stores.redis.done.length

/-- The calls of `Ack` and of programs that leave the list alone. -/
def Call.trimsAsAck : Call → Prop
  | .command (.ltrimDone stop) => stop = doneListCap
  | _ => True

theorem Call.sparesDone.trimsAsAck {c : Call} (spares : c.sparesDone) : c.trimsAsAck := by
  cases c with
  | command sent =>
    cases sent with
    | ltrimDone stop => cases spares
    | _ => trivial
  | _ => trivial

namespace Recorded

variable {recorded : Recorded} {env : Env}

/-- A call that leaves the list alone pushes nothing. -/
theorem perform_spares (recorded : Recorded) (env : Env) {c : Call} (spares : c.sparesDone) :
    (queueClients.perform env recorded c).2.stores.redis.done = recorded.stores.redis.done ∧
      (queueClients.perform env recorded c).2.acked = recorded.acked := by
  have pushes : c.pushes = [] := by
    cases c with
    | command sent =>
      cases sent with
      | lpushDone member => cases spares
      | _ => rfl
    | _ => rfl
  constructor
  · obtain ⟨reply, -, -, performed⟩ | performed := perform_cases env recorded.stores c
    · simp only [queueClients, performed]
    · simp only [queueClients, performed]
      exact performStore_done env recorded.stores spares
  · simp only [queueClients, pushes, List.nil_append, ite_self]

theorem Kept.push (kept : recorded.Kept) (member : Member) :
    (queueClients.perform env recorded (.command (.lpushDone member))).2.Kept := by
  cases fails : env.fails with
  | true => simpa [queueClients, perform, fails, failed?, Call.succeeded] using kept
  | false =>
    simp only [queueClients, perform, fails]
    refine ⟨?_, ?_⟩
    · exact (List.prefix_cons_inj member).mpr kept.newest
    · have enough := kept.enough
      simp only [performStore, Call.succeeded, Stores.applyCommand]
      simp only [isOk_ok, if_true, Call.pushes, List.singleton_append, List.length_cons]
      omega

theorem Kept.trim (kept : recorded.Kept) :
    (queueClients.perform env recorded (.command (.ltrimDone doneListCap))).2.Kept := by
  cases fails : env.fails with
  | true => simpa [queueClients, perform, fails, failed?, Call.succeeded] using kept
  | false =>
    simp only [queueClients, perform, fails]
    refine ⟨?_, ?_⟩
    · exact (List.take_prefix _ _).trans kept.newest
    · have enough := kept.enough
      simp only [performStore, Call.succeeded, Stores.applyCommand]
      simp only [isOk_ok, if_true, Call.pushes, List.nil_append, List.length_take]
      omega

theorem Kept.perform (kept : recorded.Kept) (env : Env) {c : Call} (trims : c.trimsAsAck) :
    (queueClients.perform env recorded c).2.Kept := by
  have spared (spares : c.sparesDone) : (queueClients.perform env recorded c).2.Kept := by
    obtain ⟨done, acked⟩ := recorded.perform_spares env spares
    exact ⟨by rw [done, acked]; exact kept.newest, by rw [done, acked]; exact kept.enough⟩
  cases c with
  | command sent =>
    cases sent with
    | lpushDone member => exact kept.push member
    | ltrimDone stop =>
      cases trims
      exact kept.trim
    | _ => exact spared rfl
  | _ => exact spared trivial

/-- What the list holds. -/
theorem Kept.exact_iff (kept : recorded.Kept) :
    recorded.stores.redis.done = recorded.acked.take (min recorded.acked.length doneListCap) ↔
      recorded.acked.length ≤ doneListCap := by
  have enough := kept.enough
  have shorter := kept.newest.length_le
  constructor
  · intro exactly
    have counted := congrArg List.length exactly
    rw [List.length_take] at counted
    omega
  · intro few
    have whole : recorded.stores.redis.done = recorded.acked :=
      kept.newest.eq_of_length (by omega)
    rw [whole, Nat.min_eq_left few, List.take_length]

end Recorded

/-! ## Runs -/

theorem ack_trims (job : Job) : (ack job).Uses Call.trimsAsAck :=
  ⟨trivial, fun _ => ⟨trivial, fun _ => ⟨trivial, fun _ => ⟨rfl, fun _ => trivial⟩⟩⟩⟩

theorem QueueCall.program_trims (entry : QueueCall) : entry.program.Uses Call.trimsAsAck := by
  cases entry with
  | ack job => exact Program.uses_bind (ack_trims job) fun _ => trivial
  | other bystander => exact bystander.spares.mono fun c => Call.sparesDone.trimsAsAck

/-- What holds in every state of the queue's clients. -/
structure Keeping (state : QueueState) : Prop where
  kept : state.store.Kept
  trims : ∀ thread, (state.threads thread).program.Uses Call.trimsAsAck

variable {stores : Stores} {last : QueueState}

theorem unacked_keeping (stores : Stores) : Keeping (unacked stores) where
  kept := ⟨List.nil_prefix, Nat.min_le_left _ _⟩
  trims := fun _ => trivial

theorem Keeping.step {state state' : QueueState} {action : Action Env QueueCall JobId}
    (keeping : Keeping state) (stepped : queueClients.step state action = some state') : Keeping state' where
  kept := by
    obtain same | ⟨id, moved⟩ | ⟨thread, env, c, next, _, program, rfl⟩ := Machine.step_store stepped
    · rw [same]
      exact keeping.kept
    · rw [moved]
      exact ⟨keeping.kept.newest, keeping.kept.enough⟩
    · have trims := keeping.trims thread
      rw [program] at trims
      exact keeping.kept.perform env trims.1
  trims := by
    apply Machine.step_threads (fun thread => thread.program.Uses Call.trimsAsAck) stepped keeping.trims
    · trivial
    · intro thread entry _
      exact entry.program_trims
    · intro thread env session c next _ _ trims
      exact trims.2 _

theorem keeping_of_run {keeps : QueueState → Action Env QueueCall JobId → Prop}
    (run : queueClients.Run keeps (unacked stores) last) : Keeping last :=
  run.invariant Keeping (unacked_keeping stores) fun _ _ _ held _ stepped => held.step stepped

/-- A call of `Ack` whose commands succeed pushes the record of its job. -/
theorem ack_pushes (job : Job) (env : Env) (served : env.fails = false) (recorded : Recorded) :
    ((QueueCall.ack job).program.play queueClients.perform (fun _ => env) recorded).store.acked =
      job.marshal :: recorded.acked := by
  simp [QueueCall.program, ack, pipeline, invoke, queueClients, perform, served, performStore,
    Call.succeeded, Call.pushes]

/-- Any number of jobs can be acked. -/
theorem acks_reached (stores : Stores) (job : Job) (env : Env) (served : env.fails = false) (n : Nat) :
    ∃ last, queueClients.Run (fun _ _ => True) (unacked stores) last ∧
      last.store.acked = List.replicate n job.marshal ∧ (last.threads 0).Finished := by
  induction n with
  | zero => exact ⟨unacked stores, .refl _, rfl, (), rfl⟩
  | succ n inductionHypothesis =>
    obtain ⟨middle, run, acked, finished⟩ := inductionHypothesis
    obtain ⟨last, further, store, finished⟩ := Machine.run_entry finished (QueueCall.ack job) fun _ => env
    refine ⟨last, run.trans further, ?_, finished⟩
    rw [store]
    exact (ack_pushes job env served middle.store).trans (by rw [acked, List.replicate_succ])

/-- Of the acked jobs the list holds the newest `doneListCap` as long as there are no more. -/
theorem doneList_iff {keeps : QueueState → Action Env QueueCall JobId → Prop}
    (run : queueClients.Run keeps (unacked stores) last) :
    last.store.stores.redis.done =
        last.store.acked.take (min last.store.acked.length doneListCap) ↔
      last.store.acked.length ≤ doneListCap :=
  (keeping_of_run run).kept.exact_iff

theorem doneList_three : ∃ last : QueueState, last.store.acked.length = 3 ∧
    last.store.stores.redis.done =
      last.store.acked.take (min last.store.acked.length doneListCap) := by
  obtain ⟨last, run, acked, _⟩ := acks_reached .empty Job.plain (.calm "j") rfl 3
  exact ⟨last, by rw [acked]; rfl, (doneList_iff run).mpr (by rw [acked]; decide)⟩

/-- After ten thousand calls of `Ack` the list holds one record more than it should. -/
theorem doneList_exceeds : ∃ last, queueClients.Run (fun _ _ => True) (unacked .empty) last ∧
    last.store.acked.length = 10000 ∧
      last.store.stores.redis.done ≠
        last.store.acked.take (min last.store.acked.length doneListCap) := by
  obtain ⟨last, run, acked, _⟩ := acks_reached .empty Job.plain (.calm "j") rfl 10000
  have counted : last.store.acked.length = 10000 := by rw [acked, List.length_replicate]
  refine ⟨last, run, counted, fun exactly => ?_⟩
  have few := (keeping_of_run run).kept.exact_iff.mp exactly
  rw [counted] at few
  exact absurd few (by decide)

end Taskfire
