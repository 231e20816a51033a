import Taskfire.Model.Pool
import Taskfire.Safety.Outcome

/-!
# Shutting a pool down

What becomes of the jobs a pool has dequeued when its context is cancelled.  While its context lives,
a call of `Process` puts a record of its job somewhere before it returns (`process_puts`); after that
nothing the worker does can.  Between a job's dequeue and that command the fetcher, the channel or a
worker answers for it, and of these only the fetcher does so without a living context.
-/

namespace Taskfire

open Taskfire.Library

/-! ## Records in Redis -/

/-- A lane, the delayed set, the dead-letter set or the done list has a record of the job. -/
def Placed (id : JobId) (stores : Stores) : Prop := 0 < (stores.redis.whereabouts id).records

instance (id : JobId) (stores : Stores) : Decidable (Placed id stores) :=
  inferInstanceAs (Decidable (0 < (stores.redis.whereabouts id).records))

/-- The call takes no record away, unless it is a trim that drops entries of the done list. -/
def Call.gathers : Call → Bool
  | .command (.zrem _ _) | .claim | .drainDelayed _ _ => false
  | _ => true

/-- The call is no trim of the done list that drops an entry. -/
def Call.DropsNothing (stores : Stores) : Call → Prop
  | .command (.ltrimDone stop) => stores.redis.done.length ≤ stop + 1
  | _ => True

instance (stores : Stores) : DecidablePred (Call.DropsNothing stores)
  | .command (.ltrimDone stop) => inferInstanceAs (Decidable (stores.redis.done.length ≤ stop + 1))
  | .command (.zadd _ _ _) | .command (.zrem _ _) | .command (.hdelProcessing _)
  | .command (.delLock _) | .command (.lpushDone _) | .command (.publish _)
  | .insertJob _ | .getJob _ | .cancelJob _ | .requeueJob _ _ | .updateJobStatus _
  | .depStatuses _ | .claim | .drainDelayed _ _ | .zscan _ | .now | .randomUUID | .scanPages
  | .findHandler _ | .startHandler _ | .awaitHandler _ | .backoff _ _ | .deliver _ | .count _ =>
    inferInstanceAs (Decidable True)

section

variable {id : JobId} {stores : Stores} {env : Env} {c : Call}

theorem placed_command {command : Command} (gathers : (Call.command command).gathers = true)
    (whole : (Call.command command).DropsNothing stores) (placed : Placed id stores) :
    Placed id (stores.applyCommand command) := by
  simp only [Placed, Whereabouts.records, Redis.whereabouts] at placed ⊢
  cases command with
  | zrem => cases gathers
  | hdelProcessing | delLock | publish => exact placed
  | zadd key score member =>
    by_cases dlq : key = .dlq
    · subst dlq
      have grows := SortedSet.count_add_ge (Member.isOf id) (stores.redis.zset .dlq) member score
      have letters : stores.redis.letters (Member.isOf id) ≤
          (stores.redis.zadd .dlq score member).letters (Member.isOf id) := by
        simpa [Redis.letters, Redis.zadd, Redis.setZset] using grows
      simp only [Stores.applyCommand, Redis.waiting_zadd_dlq, Redis.zadd_done]
      omega
    · have grows := Redis.waiting_zadd_ge stores.redis (Member.isOf id) score member dlq
      simp only [Stores.applyCommand, Redis.letters_zadd_of_lane dlq, Redis.zadd_done]
      omega
  | lpushDone member =>
    have grows : stores.redis.done.countP (Member.isOf id) ≤
        (member :: stores.redis.done).countP (Member.isOf id) := by
      rw [List.countP_cons]
      omega
    simp only [Stores.applyCommand]
    show 0 < stores.redis.waiting (Member.isOf id) + stores.redis.letters (Member.isOf id) +
      (member :: stores.redis.done).countP (Member.isOf id)
    omega
  | ltrimDone stop =>
    -- The list is no longer than what the trim keeps.
    have same : stores.redis.done.take (stop + 1) = stores.redis.done :=
      List.take_of_length_le whole
    simp only [Stores.applyCommand, same]
    exact placed

/-- A record stays where it is, whatever the worker calls. -/
theorem placed_perform (gathers : c.gathers = true) (whole : c.DropsNothing stores)
    (placed : Placed id stores) : Placed id (perform env stores c).2 := by
  by_cases leaves : c.leavesRedis = true
  · rw [Placed, perform_leavesRedis env stores leaves]
    exact placed
  · cases c with
    | command command =>
      obtain ⟨_, _, _, performed⟩ | performed := perform_cases env stores (.command command)
      · rw [performed]
        exact placed
      · rw [performed]
        exact placed_command gathers whole placed
    | claim | drainDelayed => cases gathers
    | insertJob | getJob | cancelJob | requeueJob | updateJobStatus | depStatuses | zscan | now
    | randomUUID | scanPages | findHandler | startHandler | awaitHandler | backoff | deliver
    | count => exact absurd rfl leaves

/-- A command that puts a record somewhere has put it there when it succeeds. -/
theorem placed_of_places (places : c.places id = true)
    (succeeded : c.succeeded (perform env stores c).1 = true) :
    Placed id (perform env stores c).2 := by
  obtain ⟨reply, _, failing, performed⟩ | performed := perform_cases env stores c
  -- A call that failed has not succeeded.
  · rw [performed] at succeeded
    cases c with
    | command command =>
      cases failing
      cases succeeded
    | _ => cases places
  · rw [performed]
    cases c with
    | command command =>
      simp only [Placed, Whereabouts.records, Redis.whereabouts, performStore]
      cases command with
      | zadd key score member =>
        have isOf : member.isOf id = true := places
        by_cases dlq : key = .dlq
        · subst dlq
          have positive := Redis.letters_zadd_dlq_pos stores.redis score isOf
          simp only [Stores.applyCommand]
          omega
        · have positive := Redis.waiting_zadd_pos stores.redis score dlq isOf
          simp only [Stores.applyCommand]
          omega
      | lpushDone member =>
        have isOf : member.isOf id = true := places
        simp only [Stores.applyCommand, List.countP_cons_of_pos isOf]
        omega
      | zrem | hdelProcessing | delLock | ltrimDone | publish => cases places
    | _ => cases places

end

theorem succeeded_of_served {id : JobId} {c : Call} {reply : c.Reply}
    (places : c.places id = true) (served : c.served reply = true) : c.succeeded reply = true := by
  cases c with
  | command command => exact served
  | _ => cases places

/-! ## Programs that put a record somewhere -/

/-- While the stores can be reached, the program puts a record of job `id` somewhere before it
ends. -/
abbrev Puts {α : Type} (id : JobId) (program : Prog α) : Prop :=
  program.Meets (fun c reply => c.served reply = true) fun c => c.places id = true

section

variable {job : Job}

theorem isOf_marshal (job : Job) : job.marshal.isOf job.id = true := by simp

theorem enqueue_puts (job : Job) : Puts job.id (enqueue job) :=
  .inr fun _ _ => .inl (isOf_marshal job)

theorem enqueueDelayed_puts (job : Job) (scheduledAt : Time) :
    Puts job.id (enqueueDelayed job scheduledAt) :=
  .inl (isOf_marshal { job with scheduledAt := some scheduledAt, status := .pending })

theorem ack_puts (job : Job) : Puts job.id (ack job) :=
  .inr fun _ _ => .inr fun _ _ => .inl (isOf_marshal job)

theorem moveToDLQ_puts (job : Job) (reason : GoError) : Puts job.id (moveToDLQ job reason) :=
  .inr fun now _ => .inr fun _ _ => .inr fun _ _ => .inl (isOf_marshal (job.deadAt now reason))

/-- Whatever comes before the rest of a program, the rest still puts the record somewhere. -/
theorem puts_after {α β : Type} {id : JobId} (first : Prog α) {next : α → Prog β}
    (rest : ∀ value, Puts id (next value)) : Puts id (first >>= next) :=
  (Program.returns_of_forall first fun _ => trivial).meets fun value _ => rest value

theorem sendToDLQ_puts (job : Job) (reason : GoError) :
    Puts job.id (Processor.sendToDLQ job reason) := by
  refine puts_after _ fun now => puts_after _ fun _ => puts_after _ fun _ => ?_
  exact (moveToDLQ_puts { job with status := .dead, failedAt := some now } reason).bind _

theorem retryJob_puts (job : Job) (cause : GoError) :
    Puts job.id (Processor.retryJob job cause) := by
  refine puts_after _ fun _ => puts_after _ fun now => puts_after _ fun _ => ?_
  exact (enqueue_puts { job with status := .pending, startedAt := none }).bind _

theorem handleFailure_puts (proc : Processor) (job : Job) (cause : GoError) :
    Puts job.id (proc.handleFailure job cause) := by
  let failed : Job := { job with retryCount := goInt (job.retryCount + 1), errorMessage := cause.text }
  refine puts_after _ fun _ => puts_after _ fun _ => puts_after _ fun waitErr => ?_
  cases waitErr with
  | some waitErr => exact sendToDLQ_puts failed waitErr
  | none => exact retryJob_puts failed cause

theorem complete_puts (job : Job) : Puts job.id (Processor.complete job) := by
  refine puts_after _ fun completed => puts_after _ fun _ => puts_after _ fun _ =>
    puts_after _ fun _ => ?_
  exact ack_puts { job with status := .completed, completedAt := some completed }

theorem runHandler_puts (proc : Processor) (job : Job) : Puts job.id (proc.runHandler job) := by
  simp only [Processor.runHandler]
  refine puts_after _ fun found => ?_
  cases found with
  | false => exact puts_after _ fun _ => handleFailure_puts proc job _
  | true =>
    refine puts_after (safeRun job) fun outcome => ?_
    cases outcome with
    | some error => exact puts_after _ fun _ => handleFailure_puts proc job error
    | none => exact complete_puts job

theorem execute_puts (proc : Processor) (job : Job) : Puts job.id (proc.execute job) := by
  simp only [Processor.execute]
  refine puts_after _ fun now => puts_after _ fun _ => puts_after _ fun _ => ?_
  exact runHandler_puts proc { job with status := .active, startedAt := some now }

theorem process_puts (proc : Processor) (settles : proc.NeverErrs) (job : Job) :
    Puts job.id (proc.process job) := by
  refine (settles job).meets fun gate checked => ?_
  cases gate with
  | error error => cases checked
  | ok allowed =>
    cases allowed with
    | true => exact execute_puts proc job
    | false =>
      refine puts_after _ fun _ => puts_after _ fun now => ?_
      exact (enqueueDelayed_puts job _).bind _

theorem handBack_puts (job : Job) : Puts job.id (Processor.handBack job) :=
  (enqueue_puts { job with status := .pending }).bind _

end

/-! ## Programs that take no record away -/

abbrev Gathers {α : Type} (program : Prog α) : Prop := program.Uses fun c => c.gathers = true

theorem invoke_gathers {c : Call} (gathers : c.gathers = true) : Gathers (invoke c) :=
  ⟨gathers, fun _ => trivial⟩

theorem publishEvent_gathers (event : JobEvent) : Gathers (publishEvent event) :=
  ⟨rfl, fun _ => trivial⟩

theorem enqueue_gathers (job : Job) : Gathers (enqueue job) :=
  ⟨rfl, fun _ => ⟨rfl, fun _ => trivial⟩⟩

theorem enqueueDelayed_gathers (job : Job) (scheduledAt : Time) :
    Gathers (enqueueDelayed job scheduledAt) := ⟨rfl, fun _ => trivial⟩

theorem pipeline_gathers (commands : List Command)
    (gathers : ∀ command ∈ commands, (Call.command command).gathers = true) :
    Gathers (pipeline commands) := by
  induction commands with
  | nil => exact trivial
  | cons command commands inductionHypothesis =>
    obtain ⟨first, rest⟩ := List.forall_mem_cons.mp gathers
    exact Program.uses_bind (invoke_gathers first) fun _ =>
      Program.uses_bind (inductionHypothesis rest) fun _ => trivial

theorem nack_gathers (job : Job) : Gathers (nack job) :=
  Program.uses_bind (pipeline_gathers _ (by simp [Call.gathers])) fun _ => trivial

theorem ack_gathers (job : Job) : Gathers (ack job) :=
  Program.uses_bind (pipeline_gathers _ (by simp [Call.gathers])) fun _ => trivial

theorem moveToDLQ_gathers (job : Job) (reason : GoError) : Gathers (moveToDLQ job reason) :=
  Program.uses_bind (invoke_gathers rfl) fun _ =>
    Program.uses_bind (pipeline_gathers _ (by simp [Call.gathers])) fun _ => trivial

theorem sendToDLQ_gathers (job : Job) (reason : GoError) :
    Gathers (Processor.sendToDLQ job reason) := by
  refine Program.uses_bind (invoke_gathers rfl) fun now =>
    Program.uses_bind (invoke_gathers rfl) fun _ =>
    Program.uses_bind (publishEvent_gathers _) fun _ => ?_
  refine Program.uses_bind (moveToDLQ_gathers _ reason) fun error => ?_
  cases error <;> trivial

theorem retryJob_gathers (job : Job) (cause : GoError) :
    Gathers (Processor.retryJob job cause) := by
  refine Program.uses_bind (invoke_gathers rfl) fun _ =>
    Program.uses_bind (invoke_gathers rfl) fun now =>
    Program.uses_bind (publishEvent_gathers _) fun _ => ?_
  refine Program.uses_bind (enqueue_gathers _) fun error => ?_
  cases error with
  | some error => exact sendToDLQ_gathers _ error
  | none => exact trivial

theorem handleFailure_gathers (proc : Processor) (job : Job) (cause : GoError) :
    Gathers (proc.handleFailure job cause) := by
  refine Program.uses_bind (nack_gathers _) fun _ =>
    Program.uses_bind (invoke_gathers rfl) fun _ => Program.uses_bind ?_ fun waitErr => ?_
  · simp only [Retry.Manager.wait]
    split
    · exact trivial
    · exact invoke_gathers rfl
  · cases waitErr with
    | some waitErr => exact sendToDLQ_gathers _ waitErr
    | none => exact retryJob_gathers _ cause

theorem complete_gathers (job : Job) : Gathers (Processor.complete job) :=
  Program.uses_bind (invoke_gathers rfl) fun _ =>
    Program.uses_bind (invoke_gathers rfl) fun _ => Program.uses_bind (invoke_gathers rfl) fun _ =>
    Program.uses_bind (publishEvent_gathers _) fun _ => ack_gathers _

theorem safeRun_gathers (job : Job) : Gathers (safeRun job) := by
  refine Program.uses_bind (invoke_gathers rfl) fun _ => Program.uses_bind (invoke_gathers rfl) fun outcome => ?_
  cases outcome <;> trivial

theorem runHandler_gathers (proc : Processor) (job : Job) : Gathers (proc.runHandler job) := by
  simp only [Processor.runHandler]
  refine Program.uses_bind (invoke_gathers rfl) fun found => ?_
  cases found with
  | false => exact Program.uses_bind (invoke_gathers rfl) fun _ => handleFailure_gathers proc job _
  | true =>
    refine Program.uses_bind (safeRun_gathers job) fun outcome => ?_
    cases outcome with
    | some error =>
      exact Program.uses_bind (invoke_gathers rfl) fun _ => handleFailure_gathers proc job error
    | none => exact complete_gathers job

theorem process_gathers (proc : Processor) (job : Job) : Gathers (proc.process job) := by
  refine Program.uses_bind ((proc.canRun_uses job).mono fun c reads => ?_) fun gate => ?_
  · cases c <;> first | rfl | cases reads
  · cases gate with
    | error error => exact Program.uses_bind (nack_gathers job) fun _ => trivial
    | ok allowed =>
      cases allowed with
      | false =>
        refine Program.uses_bind (nack_gathers job) fun _ => Program.uses_bind (invoke_gathers rfl) fun now => ?_
        exact Program.uses_bind (enqueueDelayed_gathers job _) fun _ => trivial
      | true =>
        simp only [Processor.execute]
        refine Program.uses_bind (invoke_gathers rfl) fun now =>
          Program.uses_bind (invoke_gathers rfl) fun _ =>
          Program.uses_bind (publishEvent_gathers _) fun _ => ?_
        exact runHandler_gathers proc _

/-- The call takes no record away, in any state. -/
def Call.Keeps (c : Call) : Prop := c.gathers = true ∧ ∀ stores, c.DropsNothing stores

theorem handBack_keeps (job : Job) : (Processor.handBack job).Uses Call.Keeps :=
  ⟨⟨rfl, fun _ => trivial⟩, fun _ => ⟨⟨rfl, fun _ => trivial⟩, fun _ =>
    ⟨⟨rfl, fun _ => trivial⟩, fun _ => ⟨⟨rfl, fun _ => trivial⟩, fun _ => trivial⟩⟩⟩⟩

/-! ## Who answers for a job -/

/-- The fetcher has the job and is going to put it somewhere. -/
def Fetcher.Holds (id : JobId) : Fetcher → Prop
  | .dequeuing (.pure (.ok (some job))) => job.id = id
  | .delivering job => job.id = id
  | .handingBack program => Puts id program
  | _ => False

/-- The worker's own context lives, and it has a task that has not put a record anywhere. -/
def Worker.Owes (id : JobId) (worker : Worker) : Prop :=
  worker.evicted = false ∧
    ∃ task, worker.task = some task ∧ task.job.id = id ∧ task.settled = false

/-- The job the fetcher has in its select. -/
def Fetcher.delivering? : Fetcher → Option Job
  | .delivering job => some job
  | _ => none

/-- The fetcher's next call is the claim. -/
def Fetcher.claims : Fetcher → Bool
  | .dequeuing (.call _ _) => true
  | _ => false

/-- The call the task makes next. -/
def Task.next? (task : Task) : Option Call :=
  match task.program with
  | .pure _ => none
  | .call c _ => some c

/-- The job of the worker's task does not depend on the worker's context. -/
def Worker.Clear (stores : Stores) (worker : Worker) : Prop :=
  worker.evicted = false → ∀ task ∈ worker.task, task.settled = false → Placed task.job.id stores

instance (stores : Stores) (worker : Worker) : Decidable (worker.Clear stores) :=
  inferInstanceAs (Decidable (worker.evicted = false → ∀ task ∈ worker.task,
    task.settled = false → Placed task.job.id stores))

theorem Worker.Clear.placed {stores : Stores} {worker : Worker} {id : JobId}
    (clear : worker.Clear stores) (owes : worker.Owes id) : Placed id stores := by
  obtain ⟨alive, task, busy, rfl, unsettled⟩ := owes
  exact clear alive task busy unsettled

namespace Pool

/-- After the pool's context has ended, only the fetcher answers for a job. -/
def Answers (id : JobId) (pool : Pool) : Prop :=
  pool.fetcher.Holds id ∨ (pool.cancelled = false ∧ ((∃ job ∈ pool.jobCh, job.id = id) ∨
    ∃ number worker, pool.workers number = some worker ∧ worker.Owes id))

structure Kept (pool : Pool) : Prop where
  dequeuing : ∀ program, pool.fetcher = .dequeuing program →
    program = dequeue ∨ ∃ outcome, program = .pure outcome
  handing : ∀ program, pool.fetcher = .handingBack program →
    pool.cancelled = true ∧ program.Uses Call.Keeps
  stopped : pool.fetcher = .stopped → pool.cancelled = true
  gathers : ∀ number worker task, pool.workers number = some worker → worker.task = some task →
    Gathers task.program
  puts : ∀ number worker task, pool.workers number = some worker → worker.task = some task →
    pool.cancelled = false → worker.evicted = false → task.settled = false →
    Puts task.job.id task.program
  obtained : ∀ id ∈ pool.obtained, Placed id pool.stores ∨ pool.Answers id

/-- What a step has to keep to.  When a context ends, the jobs that depend on it have a record
somewhere; after the pool's has ended, the fetcher's select does not take the channel; and a worker
that was evicted takes no job.  While its context lives no call of a worker fails, and no trim drops
an entry of the done list.  Neither a claim, for want of reading it, nor another process takes away
the last record of a job that was dequeued. -/
def Orderly (pool : Pool) : PoolAction → Prop
  | .cancel => pool.cancelled = false →
    (∀ job ∈ pool.jobCh, Placed job.id pool.stores) ∧
      ∀ number < pool.nextID, ∀ worker ∈ pool.workers number, worker.Clear pool.stores
  | .evict number => pool.cancelled = false →
    ∀ worker ∈ pool.workers number, worker.Clear pool.stores
  | .fetcher env =>
    (pool.cancelled = true → env.delivers = true →
      ∀ job ∈ pool.fetcher.delivering?, Placed job.id pool.stores) ∧
    (pool.fetcher.claims = true →
      ∀ id ∈ pool.obtained, pool.stores.redis.Legible (Member.isOf id))
  | .worker number env => ∀ worker ∈ pool.workers number,
    (pool.cancelled = false → worker.evicted = true → worker.task.isNone = true →
      env.delivers = true → ∀ job ∈ pool.jobCh.head?, Placed job.id pool.stores) ∧
    (pool.cancelled = false → worker.evicted = false → env.fails = false) ∧
    ∀ task ∈ worker.task, ∀ c ∈ task.next?, c.DropsNothing pool.stores
  | .outside jobs redis => ∀ id ∈ pool.obtained,
    Placed id pool.stores → Placed id { pool.stores with jobs, redis }
  | .spawn | .stopScaler | .expire _ => True

instance (pool : Pool) : DecidablePred pool.Orderly
  | .cancel | .evict _ | .fetcher _ | .worker _ _ | .spawn | .stopScaler | .expire _ | .outside _ _ => by
    dsimp only [Orderly]
    infer_instance

variable {pool after : Pool} {id : JobId}

theorem Answers.fetch {fetcher : Fetcher} (answers : pool.Answers id)
    (holds : pool.fetcher.Holds id → fetcher.Holds id) :
    { pool with fetcher }.Answers id := by
  obtain held | other := answers
  · exact .inl (holds held)
  · exact .inr other

/-- The fetcher turns to another place in its loop, and Redis is not touched. -/
theorem Kept.fetch {fetcher : Fetcher} (kept : pool.Kept)
    (dequeuing : ∀ program, fetcher = .dequeuing program →
      program = dequeue ∨ ∃ outcome, program = .pure outcome)
    (handing : ∀ program, fetcher = .handingBack program →
      pool.cancelled = true ∧ program.Uses Call.Keeps)
    (stopped : fetcher = .stopped → pool.cancelled = true)
    (holds : ∀ id, pool.fetcher.Holds id → fetcher.Holds id) :
    { pool with fetcher }.Kept where
  dequeuing := dequeuing
  handing := handing
  stopped := stopped
  gathers := kept.gathers
  puts := kept.puts
  obtained := fun id listed => (kept.obtained id listed).imp_right fun answers =>
    answers.fetch (holds id)

/-! ### The fetcher -/

/-- What a claim takes out of the lanes is the job that `Dequeue` returns, if `cjson` reads the
records of the job. -/
theorem dequeue_call (env : Env) (stores : Stores) : ∃ next outcome,
    dequeue = .call .claim next ∧ next (perform env stores .claim).1 = .pure outcome ∧
      ∀ id, stores.redis.Legible (Member.isOf id) → Placed id stores →
        Placed id (perform env stores .claim).2 ∨ ∃ job, outcome = .ok (some job) ∧ job.id = id := by
  obtain ⟨reply, _, failing, performed⟩ | performed := perform_cases env stores .claim
  · cases failing
    refine ⟨_, _, rfl, by rw [performed]; rfl, fun id reads placed => .inl ?_⟩
    rw [performed]
    exact placed
  · obtain ⟨redis, script, unclaimed⟩ | ⟨member, owner, redis, script, claimed⟩ :=
      stores.redis.claimScript_cases
    · simp only [performStore, script, Stores.claimReply] at performed
      refine ⟨_, _, rfl, by rw [performed]; rfl, fun id reads placed => .inl ?_⟩
      have waiting := unclaimed.waiting _ reads
      rw [performed]
      simpa only [Placed, Whereabouts.records, Redis.whereabouts, Redis.letters, waiting,
        unclaimed.dlq, unclaimed.done] using placed
    · simp only [performStore, script, Stores.claimReply] at performed
      cases member with
      | text content => cases claimed.hasId
      | record json =>
        refine ⟨_, _, rfl, by rw [performed]; rfl, fun id reads placed => ?_⟩
        -- The place of the popped record is the program that returns it; all other records stay.
        by_cases same : owner = id
        · subst same
          exact .inr ⟨json.toJob, rfl, Option.some.inj claimed.hasId⟩
        · refine .inl ?_
          have other : (Member.record json).isOf id = false := by
            have named := claimed.hasId
            simp [Member.isOf, named, same]
          have waiting := claimed.waiting _ reads
          simp only [other, Bool.false_eq_true, if_false, Nat.add_zero] at waiting
          rw [performed]
          simpa only [Placed, Whereabouts.records, Redis.whereabouts, Redis.letters, ← waiting,
            claimed.dlq, claimed.done] using placed

theorem fetcher_kept {buffer : Nat} {env : Env} (kept : pool.Kept)
    (delivers : ∀ job, pool.fetcher = .delivering job → env.delivers = true →
      pool.cancelled = true → Placed job.id pool.stores)
    (reads : pool.fetcher.claims = true →
      ∀ id ∈ pool.obtained, pool.stores.redis.Legible (Member.isOf id))
    (stepped : pool.stepFetcher buffer env = some after) : after.Kept := by
  cases fetcher_turns stepped with
  | ends polls cancelled =>
    refine kept.fetch nofun nofun (fun _ => cancelled) fun id held => ?_
    rw [polls] at held
    exact False.elim held
  | dequeues polls =>
    refine kept.fetch ?_ nofun nofun fun id held => ?_
    · rintro _ ⟨⟩
      exact .inl rfl
    · rw [polls] at held
      exact False.elim held
  | calls dequeuing =>
    obtain begins | ⟨_, ended⟩ := kept.dequeuing _ dequeuing
    · obtain ⟨next, outcome, claims, replied, places⟩ :=
        dequeue_call (env.under pool.cancelled) pool.stores
      cases begins.trans claims
      rw [replied]
      refine ⟨?_, nofun, nofun, kept.gathers, kept.puts, fun id listed => ?_⟩
      · rintro _ ⟨⟩
        exact .inr ⟨outcome, rfl⟩
      · obtain placed | held | other := kept.obtained id listed
        · have claims : pool.fetcher.claims = true := by simp [dequeuing, Fetcher.claims]
          obtain placed | ⟨job, rfl, named⟩ := places id (reads claims id listed) placed
          · exact .inl placed
          · exact .inr (.inl named)
        · rw [dequeuing] at held
          exact False.elim held
        · exact .inr (.inr other)
    · cases ended
  | obtains dequeued =>
    refine ⟨nofun, nofun, nofun, kept.gathers, kept.puts, fun id listed => ?_⟩
    obtain rfl | listed := List.mem_cons.mp listed
    · exact .inr (.inl rfl)
    · obtain placed | held | other := kept.obtained id listed
      · exact .inl placed
      · rw [dequeued] at held
        exact .inr (.inl held)
      · exact .inr (.inr other)
  | waits dequeued =>
    refine kept.fetch nofun nofun nofun fun id held => ?_
    rw [dequeued] at held
    exact held
  | fails dequeued cancelled =>
    refine kept.fetch nofun nofun (fun _ => cancelled) fun id held => ?_
    rw [dequeued] at held
    exact False.elim held
  | retries dequeued =>
    refine kept.fetch nofun nofun nofun fun id held => ?_
    rw [dequeued] at held
    exact False.elim held
  | @delivers job selects channel =>
    refine ⟨nofun, nofun, nofun, kept.gathers, kept.puts, fun id listed => ?_⟩
    -- The channel answers for the job from now on, or its record does if nobody will receive it.
    obtain placed | held | ⟨living, ⟨queued, member, named⟩ | working⟩ := kept.obtained id listed
    · exact .inl placed
    · rw [selects] at held
      subst held
      cases living : pool.cancelled with
      | true => exact .inl (delivers job selects channel living)
      | false => exact .inr (.inr ⟨rfl, .inl ⟨job, by simp, rfl⟩⟩)
    · exact .inr (.inr ⟨living, .inl ⟨queued, List.mem_append_left _ member, named⟩⟩)
    · exact .inr (.inr ⟨living, .inr working⟩)
  | @keeps job selects cancelled =>
    refine kept.fetch nofun ?_ nofun fun id held => ?_
    · rintro _ ⟨⟩
      exact ⟨cancelled, handBack_keeps job⟩
    · rw [selects] at held
      subst held
      exact handBack_puts job
  | @handsBack c next handing =>
    obtain ⟨cancelled, ⟨gathers, whole⟩, rest⟩ := kept.handing _ handing
    -- `handBack` runs on a context of its own, so its calls outlive the pool.
    have served := perform_served pool.stores c (rfl : env.background.fails = false)
    refine ⟨nofun, ?_, nofun, kept.gathers, kept.puts, fun id listed => ?_⟩
    · rintro _ ⟨⟩
      exact ⟨cancelled, rest _⟩
    · obtain placed | held | ⟨living, _⟩ := kept.obtained id listed
      · exact .inl (placed_perform gathers (whole _) placed)
      · rw [handing] at held
        obtain places | later := held
        · exact .inl (placed_of_places places (succeeded_of_served places served))
        · exact .inr (.inl (later _ served))
      · rw [cancelled] at living
        cases living
  | handed handing =>
    obtain ⟨cancelled, -⟩ := kept.handing _ handing
    refine kept.fetch nofun nofun (fun _ => cancelled) fun id held => ?_
    rw [handing] at held
    exact False.elim held

/-! ### The workers -/

theorem setWorker_cases {number other : Nat} {worker : Option Worker} {held : Worker}
    (current : (pool.setWorker number worker).workers other = some held) :
    (other = number ∧ worker = some held) ∨ (other ≠ number ∧ pool.workers other = some held) := by
  by_cases same : other = number
  · subst same
    exact .inl ⟨rfl, by simpa [setWorker] using current⟩
  · exact .inr ⟨same, by simpa [setWorker, same] using current⟩

theorem setWorker_same (pool : Pool) (number : Nat) (worker : Option Worker) :
    (pool.setWorker number worker).workers number = worker := by
  simp [setWorker]

theorem setWorker_other {number other : Nat} (worker : Option Worker) (different : other ≠ number) :
    (pool.setWorker number worker).workers other = pool.workers other := by
  simp [setWorker, different]

/-- One worker turns to another place in its loop, and Redis is not touched. -/
theorem Kept.turn {number : Nat} {worker : Option Worker} (jobCh : List Job) (kept : pool.Kept)
    (gathers : ∀ held task, worker = some held → held.task = some task → Gathers task.program)
    (puts : ∀ held task, worker = some held → held.task = some task → pool.cancelled = false →
      held.evicted = false → task.settled = false → Puts task.job.id task.program)
    (owes : ∀ id held, pool.workers number = some held → held.Owes id → pool.cancelled = false →
      Placed id pool.stores ∨ ∃ next, worker = some next ∧ next.Owes id)
    (queued : ∀ job ∈ pool.jobCh, pool.cancelled = false → Placed job.id pool.stores ∨
      job ∈ jobCh ∨ ∃ next, worker = some next ∧ next.Owes job.id) :
    ({ pool with jobCh }.setWorker number worker).Kept where
  dequeuing := kept.dequeuing
  handing := kept.handing
  stopped := kept.stopped
  gathers := by
    intro other held task current busy
    obtain ⟨_, turned⟩ | ⟨_, current⟩ := setWorker_cases current
    · exact gathers held task turned busy
    · exact kept.gathers other held task current busy
  puts := by
    intro other held task current busy
    obtain ⟨_, turned⟩ | ⟨_, current⟩ := setWorker_cases current
    · exact puts held task turned busy
    · exact kept.puts other held task current busy
  obtained := by
    intro id listed
    -- The job is in Redis, with the fetcher, in the channel, or with a worker.
    obtain placed | held | ⟨living, ⟨job, member, rfl⟩ | ⟨other, held, current, owed⟩⟩ :=
      kept.obtained id listed
    · exact .inl placed
    · exact .inr (.inl held)
    · obtain placed | left | ⟨next, turned, owed⟩ := queued job member living
      · exact .inl placed
      · exact .inr (.inr ⟨living, .inl ⟨job, left, rfl⟩⟩)
      · exact .inr (.inr ⟨living, .inr ⟨number, next, (setWorker_same ..).trans turned, owed⟩⟩)
    · by_cases same : other = number
      · subst same
        obtain placed | ⟨next, turned, still⟩ := owes id held current owed living
        · exact .inl placed
        · exact .inr (.inr ⟨living, .inr ⟨other, next, (setWorker_same ..).trans turned, still⟩⟩)
      · exact .inr (.inr ⟨living, .inr ⟨other, held, (setWorker_other _ same).trans current, owed⟩⟩)

/-- The stores change, and no record is taken away. -/
theorem Kept.store {stores : Stores} (kept : pool.Kept)
    (grows : ∀ id ∈ pool.obtained, Placed id pool.stores → Placed id stores) :
    { pool with stores }.Kept where
  dequeuing := kept.dequeuing
  handing := kept.handing
  stopped := kept.stopped
  gathers := kept.gathers
  puts := kept.puts
  obtained := fun id listed => (kept.obtained id listed).imp (grows id listed) fun answers => answers

theorem worker_kept {proc : Processor} (settles : proc.NeverErrs) {number : Nat} {env : Env}
    (kept : pool.Kept) (orderly : pool.Orderly (.worker number env))
    (stepped : pool.stepWorker proc number env = some after) : after.Kept := by
  cases worker_turns stepped with
  | @receives evicted job rest current channel queue =>
    obtain ⟨takes, -, -⟩ := orderly _ current
    refine kept.turn rest ?_ ?_ ?_ ?_
    · rintro _ _ ⟨⟩ ⟨⟩
      exact process_gathers proc job
    · rintro _ _ ⟨⟩ ⟨⟩ _ _ _
      exact process_puts proc settles job
    · intro id held same owed
      rw [current] at same
      cases same
      obtain ⟨_, task, busy, _⟩ := owed
      cases busy
    · intro queued member living
      rw [queue] at member
      obtain rfl | left := List.mem_cons.mp member
      -- An evicted worker does not answer for the job it takes; the record must already be there.
      · cases evicted with
        | true =>
          apply Or.inl
          apply takes living rfl rfl channel
          simp [queue]
        | false => exact .inr (.inr ⟨_, rfl, rfl, _, rfl, rfl, rfl⟩)
      · exact .inr (.inl left)
  | stops current =>
    refine kept.turn pool.jobCh ?_ ?_ ?_ fun _ member _ => .inr (.inl member)
    · intro _ _ gone
      cases gone
    · intro _ _ gone
      cases gone
    · intro id held same owed
      rw [current] at same
      cases same
      obtain ⟨_, task, busy, _⟩ := owed
      cases busy
  | @returns evicted settled job error current =>
    have puts := kept.puts number _ _ current rfl
    refine kept.turn pool.jobCh ?_ ?_ ?_
      fun _ member _ => .inr (.inl member)
    · rintro _ _ ⟨⟩ ⟨⟩
    · rintro _ _ ⟨⟩ ⟨⟩
    · intro id held same owed living
      rw [current] at same
      cases same
      obtain ⟨alive, _, ⟨⟩, _, unsettled⟩ := owed
      -- A program that has ended without putting the record would still have to put it.
      exact False.elim (puts living alive unsettled)
  | @calls evicted settled job c next current =>
    obtain ⟨-, reaches, trims⟩ := orderly _ current
    have gathers := kept.gathers number _ _ current rfl
    have puts := kept.puts number _ _ current rfl
    have whole := trims _ rfl c rfl
    have grows (id : JobId) : Placed id pool.stores →
        Placed id (perform (env.under (pool.cancelled || evicted)) pool.stores c).2 :=
      placed_perform gathers.1 whole
    have later (reached : env.fails = false) (living : pool.cancelled = false)
        (alive : evicted = false) :
        c.served (perform (env.under (pool.cancelled || evicted)) pool.stores c).1 = true := by
      apply perform_served
      simp [Env.under, reached, living, alive]
    refine (kept.store fun id _ => grows id).turn pool.jobCh ?_ ?_ ?_
      fun _ member _ => .inr (.inl member)
    · rintro _ _ ⟨⟩ ⟨⟩
      exact gathers.2 _
    · rintro _ _ ⟨⟩ ⟨⟩ living alive unsettled
      obtain ⟨before, kept⟩ := Bool.or_eq_false_iff.mp unsettled
      have served := later (reaches living alive) living alive
      obtain places | rest := puts living alive before
      · simp [places, succeeded_of_served places served] at kept
      · exact rest _ served
    · intro id held same owed living
      rw [current] at same
      cases same
      obtain ⟨alive, _, ⟨⟩, rfl, unsettled⟩ := owed
      have served := later (reaches living alive) living alive
      -- This call puts the record, or the worker still owes it.
      cases places : c.places job.id with
      | true => exact .inl (placed_of_places places (succeeded_of_served places served))
      | false =>
        have before : settled = false := unsettled
        exact .inr ⟨_, rfl, alive, _, rfl, rfl, by simp [before]⟩

/-! ### Worker ids -/

/-- The ids from `nextID` on are not used yet. -/
def Fresh (pool : Pool) : Prop := ∀ number, pool.nextID ≤ number → pool.workers number = none

theorem Fresh.known {number : Nat} {worker : Worker} (fresh : pool.Fresh)
    (current : pool.workers number = some worker) : number < pool.nextID := by
  by_contra beyond
  rw [fresh number (Nat.not_lt.mp beyond)] at current
  cases current

theorem Fresh.turn {number : Nat} {worker : Worker} (fresh : pool.Fresh)
    (current : pool.workers number = some worker) (next : Option Worker) :
    (pool.setWorker number next).Fresh := by
  intro other beyond
  have known := fresh.known current
  have beyond : pool.nextID ≤ other := beyond
  rw [setWorker_other next (by omega)]
  exact fresh other beyond

/-- The fetcher does not touch the workers. -/
theorem fetcher_frame {buffer : Nat} {env : Env}
    (stepped : pool.stepFetcher buffer env = some after) :
    after.workers = pool.workers ∧ after.nextID = pool.nextID := by
  cases fetcher_turns stepped <;> exact ⟨rfl, rfl⟩

/-- A step of a worker touches its own entry, the stores and the channel. -/
theorem worker_frame {proc : Processor} {number : Nat} {env : Env}
    (stepped : pool.stepWorker proc number env = some after) :
    ∃ worker next stores jobCh, pool.workers number = some worker ∧
      after = { pool with stores, jobCh }.setWorker number next := by
  cases worker_turns stepped with
  | receives current => exact ⟨_, _, pool.stores, _, current, rfl⟩
  | stops current | returns current => exact ⟨_, _, pool.stores, pool.jobCh, current, rfl⟩
  | calls current => exact ⟨_, _, _, pool.jobCh, current, rfl⟩

theorem step_fresh {proc : Processor} {buffer : Nat} {action : PoolAction} (fresh : pool.Fresh)
    (stepped : pool.step proc buffer action = some after) : after.Fresh := by
  cases action with
  | cancel | expire | outside =>
    cases stepped
    exact fresh
  | fetcher env =>
    obtain ⟨workers, nextID⟩ := fetcher_frame stepped
    intro number beyond
    rw [workers]
    exact fresh number (nextID ▸ beyond)
  | worker number env =>
    obtain ⟨worker, next, stores, jobCh, current, rfl⟩ := worker_frame stepped
    have same : ({ pool with stores, jobCh } : Pool).Fresh := fresh
    exact same.turn current next
  | spawn =>
    simp only [step] at stepped
    split at stepped
    · cases stepped
      intro number beyond
      have beyond : pool.nextID + 1 ≤ number := beyond
      rw [spawnWorker, setWorker_other _ (by omega)]
      exact fresh number (by omega)
    · cases stepped
  | evict number =>
    simp only [step] at stepped
    split at stepped
    · next worker current =>
      split at stepped
      · cases stepped
        exact fresh.turn current _
      · cases stepped
    · cases stepped
  | stopScaler =>
    simp only [step] at stepped
    split at stepped
    · cases stepped
      exact fresh
    · cases stepped

theorem start_fresh (minWorkers : Nat) (stores : Stores) : (start minWorkers stores).Fresh :=
  fun _ beyond => if_neg (Nat.not_lt.mpr beyond)

/-! ### Every step -/

theorem step_kept {proc : Processor} (settles : proc.NeverErrs) {buffer : Nat}
    {action : PoolAction} (fresh : pool.Fresh) (kept : pool.Kept) (orderly : pool.Orderly action)
    (stepped : pool.step proc buffer action = some after) : after.Kept := by
  cases action with
  | fetcher env =>
    refine fetcher_kept kept (fun job shape channel cancelled => ?_) orderly.2 stepped
    apply orderly.1 cancelled channel
    simp [shape, Fetcher.delivering?]
  | worker number env => exact worker_kept settles kept orderly stepped
  | cancel =>
    cases stepped
    refine ⟨kept.dequeuing, fun program shape => ⟨rfl, (kept.handing program shape).2⟩, fun _ => rfl,
      kept.gathers, fun _ _ _ _ _ ended => (by cases ended), fun id listed => ?_⟩
    -- The channel and the workers no longer answer for their jobs, whose records must be there.
    obtain placed | held | ⟨living, ⟨job, member, rfl⟩ | ⟨number, worker, current, owed⟩⟩ :=
      kept.obtained id listed
    · exact .inl placed
    · exact .inr (.inl held)
    · exact .inl ((orderly living).1 job member)
    · have known := fresh.known current
      exact .inl (((orderly living).2 number known worker current).placed owed)
  | spawn =>
    simp only [step] at stepped
    split at stepped
    · cases stepped
      have unused := fresh pool.nextID (Nat.le_refl _)
      have grown : ({ pool with nextID := pool.nextID + 1 } : Pool).Kept :=
        ⟨kept.dequeuing, kept.handing, kept.stopped, kept.gathers, kept.puts, kept.obtained⟩
      refine grown.turn pool.jobCh ?_ ?_ ?_
        fun _ member _ => .inr (.inl member)
      · rintro _ _ ⟨⟩ ⟨⟩
      · rintro _ _ ⟨⟩ ⟨⟩
      · intro id held current
        rw [unused] at current
        cases current
    · cases stepped
  | evict number =>
    simp only [step] at stepped
    split at stepped
    · next worker current =>
      split at stepped
      · cases stepped
        refine kept.turn pool.jobCh ?_ ?_ ?_
          fun _ member _ => .inr (.inl member)
        · rintro _ task ⟨⟩ busy
          exact kept.gathers number worker task current busy
        · rintro _ _ ⟨⟩ _ _ ⟨⟩
        · intro id held same owed living
          exact .inl ((orderly living held same).placed owed)
      · cases stepped
    · cases stepped
  | stopScaler =>
    simp only [step] at stepped
    split at stepped
    · cases stepped
      exact ⟨kept.dequeuing, kept.handing, kept.stopped, kept.gathers, kept.puts, kept.obtained⟩
    · cases stepped
  | expire lock =>
    cases stepped
    exact kept.store fun id _ placed => placed
  | outside jobs redis =>
    cases stepped
    exact kept.store orderly

theorem start_kept (minWorkers : Nat) (stores : Stores) : (start minWorkers stores).Kept := by
  have idle (number : Nat) (worker : Worker)
      (current : (start minWorkers stores).workers number = some worker) : worker.task = none := by
    simp only [start] at current
    split at current
    · cases current
      rfl
    · cases current
  refine ⟨nofun, nofun, nofun, ?_, ?_, nofun⟩
  · intro number worker task current busy
    rw [idle number worker current] at busy
    cases busy
  · intro number worker task current busy
    rw [idle number worker current] at busy
    cases busy

/-- In a run whose contexts end in order, every job that was dequeued has a record in a lane, the
delayed set, the dead-letter set or the done list when `Wait` returns. -/
theorem shutdown_keeps_jobs {proc : Processor} (settles : proc.NeverErrs) {buffer minWorkers : Nat}
    {stores : Stores} {last : Pool}
    (run : Reach (Moves (step proc buffer)) Orderly (start minWorkers stores) last)
    (waited : last.Waited) (id : JobId) (dequeued : id ∈ last.obtained) :
    Placed id last.stores := by
  have held : last.Fresh ∧ last.Kept := by
    refine run.invariant (fun pool => pool.Fresh ∧ pool.Kept)
      ⟨start_fresh minWorkers stores, start_kept minWorkers stores⟩ ?_
    intro before action after ⟨fresh, kept⟩ orderly stepped
    exact ⟨step_fresh fresh stepped, step_kept settles fresh kept orderly stepped⟩
  have kept := held.2
  obtain ⟨stopped, _, gone⟩ := waited
  -- The fetcher has stopped and the context has ended, so only a record is left to answer.
  obtain placed | held | ⟨living, _⟩ := kept.obtained id dequeued
  · exact placed
  · rw [stopped] at held
    exact False.elim held
  · rw [kept.stopped stopped] at living
    cases living

/-! ## Examples -/

/-- Redis has one record, in the lane for high priorities. -/
def queued : Stores :=
  { Stores.empty with redis := Redis.empty.zadd (.lane .high) 0 Job.plain.marshal }

/-- `count` steps of the fetcher, of one worker. -/
def fetches (count : Nat) : List PoolAction := List.replicate count (.fetcher (.calm "j"))

def works (count : Nat) : List PoolAction := List.replicate count (.worker 0 (.calm "j"))

/-- A select that takes the ended context. -/
def ended : Env := { Env.calm "j" with delivers := false }

/-- The pool stops once its context is cancelled and its worker has no task. -/
def stops : List PoolAction := [.worker 0 ended, .fetcher ended, .stopScaler]

/-- `Waited`, for a pool of one worker. -/
def waited (pool : Pool) : Bool :=
  (match pool.fetcher with | .stopped => true | _ => false) && !pool.scaling &&
    pool.nextID == 1 && (pool.workers 0).isNone

theorem fresh_reach {proc : Processor} {buffer minWorkers : Nat} {stores : Stores} {last : Pool}
    {keeps : Pool → PoolAction → Prop}
    (run : Reach (Moves (step proc buffer)) keeps (start minWorkers stores) last) : last.Fresh :=
  run.invariant Fresh (start_fresh minWorkers stores) fun _ _ _ fresh _ stepped =>
    step_fresh fresh stepped

theorem waited_of_check {pool : Pool} (fresh : pool.Fresh) (checked : pool.waited = true) :
    pool.Waited := by
  obtain ⟨before, gone⟩ := Bool.and_eq_true .. ▸ checked
  obtain ⟨before, one⟩ := Bool.and_eq_true .. ▸ before
  obtain ⟨stopped, scaled⟩ := Bool.and_eq_true .. ▸ before
  refine ⟨?_, by simpa using scaled, fun number => ?_⟩
  · cases shape : pool.fetcher with
    | stopped => rfl
    | polling | dequeuing | delivering | handingBack => simp [shape] at stopped
  · by_cases first : number = 0
    · subst first
      exact Option.isNone_iff_eq_none.mp gone
    · have next : pool.nextID = 1 := eq_of_beq one
      exact fresh number (by omega)

/-- The API puts job "k" in the lane, behind the record that is there. -/
def arrives : PoolAction :=
  .outside Stores.empty.jobs (queued.redis.zadd (.lane .high) 1 { Job.plain with id := "k" }.marshal)

/-- The worker has completed one job when the context ends, and the fetcher, which has dequeued
another, waits for room in the channel and gives its job back. -/
theorem shutdown_keeps_jobs_once : ∃ last : Pool, last.Waited ∧ last.obtained = ["k", "j"] ∧
    Placed "k" last.stores := by
  have reached : ∃ last, Reach (Moves (step .wired 1)) Orderly (start 1 queued) last ∧
      (last.waited && decide (last.obtained = ["k", "j"])) = true :=
    replay_reaches (fun pool action => decide (pool.Orderly action))
      (fun _ _ checked => of_decide_eq_true checked)
      (arrives :: fetches 4 ++ works 16 ++ fetches 3 ++ [.cancel, .fetcher ended] ++ fetches 5 ++
        [.worker 0 ended, .stopScaler]) _ (by decide +kernel)
  obtain ⟨last, run, checked⟩ := reached
  obtain ⟨ended, two⟩ := Bool.and_eq_true .. ▸ checked
  have obtained := of_decide_eq_true two
  have waited := waited_of_check (fresh_reach run) ended
  refine ⟨last, waited, obtained, shutdown_keeps_jobs (Engine.neverErrs _) run waited "k" ?_⟩
  simp [obtained]

/-- Calls made with a living context do not fail. -/
def Reaches : PoolAction → Prop
  | .fetcher env | .worker _ env => env.fails = false
  | _ => True

instance : DecidablePred Reaches
  | .fetcher env | .worker _ env => inferInstanceAs (Decidable (env.fails = false))
  | .cancel | .spawn | .evict _ | .stopScaler | .expire _ | .outside _ _ =>
    inferInstanceAs (Decidable True)

/-- The context ends while the handler runs, and the worker cannot acknowledge the job any more. -/
theorem shutdown_strands_job : ∃ last : Pool,
    Reach (Moves (step .wired 1)) (fun _ action => Reaches action) (start 1 queued) last ∧
      last.Waited ∧ last.obtained = ["j"] ∧ ¬ Placed "j" last.stores ∧
      (last.stores.redis.processing "j").isSome = true := by
  have reached : ∃ last,
      Reach (Moves (step .wired 1)) (fun _ action => Reaches action) (start 1 queued) last ∧
      (last.waited && decide (last.obtained = ["j"] ∧ ¬ Placed "j" last.stores ∧
        (last.stores.redis.processing "j").isSome = true)) = true :=
    replay_reaches (fun _ action => decide (Reaches action))
      (fun _ _ checked => of_decide_eq_true checked)
      (fetches 4 ++ works 6 ++ [.cancel] ++ works 10 ++ stops) _ (by decide +kernel)
  obtain ⟨last, run, checked⟩ := reached
  obtain ⟨ended, stranded⟩ := Bool.and_eq_true .. ▸ checked
  exact ⟨last, run, waited_of_check (fresh_reach run) ended, of_decide_eq_true stranded⟩

end Pool

end Taskfire
