import Mathlib.Algebra.BigOperators.Group.Finset.Basic
import Mathlib.Algebra.GroupWithZero.Nat
import Mathlib.Algebra.Order.BigOperators.Group.Finset
import Taskfire.Safety.Scaling

/-!
# What the counters count

The counters of `worker/metrics/prometheus.go` and the workers' `JobsProcessed`, against the commands
that they are documented to count.  Each call of `Process` counts a failure and a retry for the same
execution, whatever becomes of the record, and returns nil for a job that it only puts off.
-/

namespace Taskfire

open Taskfire.Library

/-! ## Totals -/

def priorityLabels : List String := ["high", "medium", "low"]

def failureReasons : List String :=
  ["context_cancelled", "deadline_exceeded", "panic", "unknown_type", "handler_error"]

namespace Ledger

/-- `taskfire_jobs_processed_total`, over its priorities. -/
def processedTotal (ledger : Ledger) (jobType : String) : Nat :=
  (priorityLabels.map fun priority => ledger.metrics (.jobsProcessed jobType priority)).sum

/-- `taskfire_jobs_failed_total`, over its reasons. -/
def failedTotal (ledger : Ledger) (jobType : String) : Nat :=
  (failureReasons.map fun reason => ledger.metrics (.jobsFailed jobType reason)).sum

/-- `taskfire_retry_attempts_total`. -/
def attemptsTotal (ledger : Ledger) (jobType : String) : Nat :=
  ledger.metrics (.retryAttempts jobType)

end Ledger

/-- The label that is not a job type is one of those the totals run over. -/
def Metric.Labelled : Metric → Prop
  | .jobsProcessed _ priority => priority ∈ priorityLabels
  | .jobsFailed _ reason => reason ∈ failureReasons
  | .retryAttempts _ => True

def Call.Labelled : Call → Prop
  | .count metric => metric.Labelled
  | _ => True

theorem priorityLabel_labelled (priority : Priority) : priorityLabel priority ∈ priorityLabels := by
  simp only [priorityLabel, priorityLabels]
  split
  · simp
  · split <;> simp

theorem failureReason_labelled (error : GoError) : failureReason error ∈ failureReasons := by
  simp only [failureReason, failureReasons]
  split
  · simp
  · simp
  · split
    · simp
    · split <;> simp

/-- Bumping the counter of one label bumps the total over the labels. -/
theorem sum_bumped {labels : List String} (distinct : labels.Nodup) (counters : Metric → Nat)
    (bumped : Metric) {metric : String → Metric} (injective : Function.Injective metric) :
    (labels.map fun label => Function.update counters bumped (counters bumped + 1) (metric label)).sum =
      (labels.map fun label => counters (metric label)).sum +
        if bumped ∈ labels.map metric then 1 else 0 := by
  induction labels with
  | nil => rfl
  | cons label labels inductionHypothesis =>
    obtain ⟨fresh, distinct⟩ := List.nodup_cons.mp distinct
    have later := inductionHypothesis distinct
    simp only [List.map_cons, List.sum_cons, List.mem_cons]
    by_cases same : bumped = metric label
    · subst same
      -- The labels are distinct, so that the bumped counter is not summed again in the tail.
      have absent : metric label ∉ labels.map metric := by
        rw [List.mem_map_of_injective injective]
        exact fresh
      rw [later, Function.update_self, if_neg absent, if_pos (.inl rfl)]
      omega
    · rw [later, Function.update_of_ne (Ne.symm same)]
      simp only [same, false_or]
      omega

/-! ## The calls of a job -/

/-- The queue answered; an event may be lost. -/
def Call.queued : (c : Call) → c.Reply → Bool
  | .command (.publish _), _ => true
  | .command _, reply => reply.isOk
  | _, _ => true

/-- A call of which a tally takes no note. -/
def Call.Unnoted : Call → Prop
  | .count _ | .command (.lpushDone _) | .command (.zadd _ _ _) | .findHandler _ | .awaitHandler _ =>
    False
  | _ => True

/-- The program keeps to the labels and ends as `final` says, where the queue answers. -/
abbrev Tallies {α : Type} (program : Prog α) (final : α → Tally → Prop) (tally : Tally) : Prop :=
  program.Follows (fun _ c => c.Labelled) Tally.note (fun c reply => c.queued reply = true) final tally

namespace Tally

variable {tally : Tally}

theorem note_unnoted {c : Call} (unnoted : c.Unnoted) (reply : c.Reply) :
    tally.note c reply = tally := by
  cases c with
  | command command => cases command <;> first | rfl | cases unnoted
  | count | findHandler | awaitHandler => cases unnoted
  | _ => rfl

theorem unnoted_labelled {c : Call} (unnoted : c.Unnoted) : c.Labelled := by
  cases c with
  | count => cases unnoted
  | _ => trivial

end Tally

section

variable {tally : Tally}

theorem unnoted_tallies {α : Type} {program : Prog α} (uses : program.Uses Call.Unnoted) :
    Tallies program (fun _ last => last = tally) tally := by
  have returns : program.Returns (fun c reply => c.queued reply = true) fun _ => True :=
    program.returns_of_forall fun _ => trivial
  apply (uses.follows returns (fun _ => Tally.unnoted_labelled)
    fun _ reply unnoted => Tally.note_unnoted unnoted reply).mono
  intro _ _ ended
  exact ended.1

theorem nack_unnoted (job : Job) : (nack job).Uses Call.Unnoted :=
  ⟨trivial, fun _ => ⟨trivial, fun _ => trivial⟩⟩

theorem enqueue_tallies (job : Job) : Tallies (enqueue job) (fun error last =>
    error = none ∧ last = tally.noteZadd job.jobType (.lane (laneKey job.priority))) tally := by
  refine ⟨trivial, fun now _ => ⟨trivial, fun reply served => ?_⟩⟩
  cases reply with
  | error error => cases served
  | ok done => exact ⟨rfl, rfl⟩

theorem enqueueDelayed_tallies (job : Job) (scheduledAt : Time) :
    Tallies (enqueueDelayed job scheduledAt) (fun error last =>
      error = none ∧ last = tally.noteZadd job.jobType .delayed) tally := by
  refine ⟨trivial, fun reply served => ?_⟩
  cases reply with
  | error error => cases served
  | ok done => exact ⟨rfl, rfl⟩

theorem ack_tallies (job : Job) : Tallies (ack job) (fun error last =>
    error = none ∧ last = { tally with acked := job.jobType :: tally.acked }) tally := by
  refine ⟨trivial, fun first firstServed => ⟨trivial, fun second secondServed =>
    ⟨trivial, fun third thirdServed => ⟨trivial, fun fourth fourthServed => ?_⟩⟩⟩⟩
  cases first <;> cases second <;> cases third <;> cases fourth <;>
    first | exact ⟨rfl, rfl⟩ | contradiction

theorem moveToDLQ_tallies (job : Job) (reason : GoError) :
    Tallies (moveToDLQ job reason) (fun error last =>
      error = none ∧ last = tally.noteZadd job.jobType .dlq) tally := by
  refine ⟨trivial, fun now _ => ⟨trivial, fun first firstServed =>
    ⟨trivial, fun second secondServed => ⟨trivial, fun third thirdServed => ?_⟩⟩⟩⟩
  cases first <;> cases second <;> cases third <;> first | exact ⟨rfl, rfl⟩ | contradiction

/-- A failure that `handleFailure` has dealt with: counted as a retry, and the record is in a lane or
in the dead-letter set. -/
def Tally.HandledFrom (tally : Tally) (jobType : String) (error : Option GoError) (last : Tally) :
    Prop :=
  error.isNone = false ∧ ∃ key : ZKey, key ≠ .delayed ∧
    last = { tally with attempts := jobType :: tally.attempts }.noteZadd jobType key

theorem sendToDLQ_tallies (job : Job) (reason : GoError) :
    Tallies (Processor.sendToDLQ job reason) (fun error last =>
      error.isNone = false ∧ last = tally.noteZadd job.jobType .dlq) tally := by
  refine ⟨trivial, fun now _ => ⟨trivial, fun _ _ => ⟨trivial, fun _ _ => ?_⟩⟩⟩
  refine (moveToDLQ_tallies { job with status := .dead, failedAt := some now } reason).bind ?_
  rintro _ last ⟨rfl, buried⟩
  exact ⟨rfl, buried⟩

theorem retryJob_tallies (job : Job) (cause : GoError) :
    Tallies (Processor.retryJob job cause) (fun error last => error.isNone = false ∧
      last = tally.noteZadd job.jobType (.lane (laneKey job.priority))) tally := by
  refine ⟨trivial, fun _ _ => ⟨trivial, fun now _ => ⟨trivial, fun _ _ => ?_⟩⟩⟩
  refine (enqueue_tallies { job with status := .pending, startedAt := none }).bind ?_
  rintro _ last ⟨rfl, retried⟩
  exact ⟨rfl, retried⟩

theorem wait_unnoted (proc : Processor) (jobType : String) (retryCount : Int) :
    (proc.retrier.wait jobType retryCount).Uses Call.Unnoted := by
  simp only [Retry.Manager.wait]
  split
  · trivial
  · exact ⟨trivial, fun _ => trivial⟩

theorem handleFailure_tallies (proc : Processor) (job : Job) (cause : GoError) :
    Tallies (proc.handleFailure job cause) (tally.HandledFrom job.jobType) tally := by
  let failed : Job := { job with retryCount := goInt (job.retryCount + 1), errorMessage := cause.text }
  refine (unnoted_tallies (nack_unnoted failed)).bind ?_
  rintro _ _ rfl
  -- The retry is counted before the retry manager decides.
  refine ⟨trivial, fun _ _ => (unnoted_tallies (wait_unnoted ..)).bind ?_⟩
  rintro waitErr _ rfl
  cases waitErr with
  | some waitErr =>
    apply (sendToDLQ_tallies failed waitErr).mono
    rintro _ _ ⟨erred, buried⟩
    exact ⟨erred, .dlq, by simp, buried⟩
  | none =>
    apply (retryJob_tallies failed cause).mono
    rintro _ _ ⟨erred, retried⟩
    exact ⟨erred, .lane (laneKey failed.priority), by simp, retried⟩

/-- What one call of `Process` may add. -/
inductive Tally.Adds (tally : Tally) (jobType : String) : Option GoError → Tally → Prop where
  | released (error : GoError) : Adds tally jobType (some error) tally
  | putOff : Adds tally jobType none { tally with blocked := jobType :: tally.blocked }
  | acked : Adds tally jobType none
      { tally with processed := jobType :: tally.processed, acked := jobType :: tally.acked }
  | failed {error : Option GoError} {last : Tally} :
      HandledFrom { tally with
        failed := jobType :: tally.failed, failures := jobType :: tally.failures }
        jobType error last → Adds tally jobType error last

theorem complete_tallies (job : Job) :
    Tallies (Processor.complete job) (tally.Adds job.jobType) tally := by
  refine ⟨trivial, fun completed _ => ⟨priorityLabel_labelled _, fun _ _ => ⟨trivial, fun _ _ =>
    ⟨trivial, fun _ _ => ?_⟩⟩⟩⟩
  apply (ack_tallies { job with status := .completed, completedAt := some completed }).mono
  rintro _ _ ⟨rfl, rfl⟩
  exact .acked

theorem runHandler_tallies (proc : Processor) (job : Job) :
    Tallies (proc.runHandler job) (tally.Adds job.jobType) tally := by
  refine ⟨trivial, fun found _ => ?_⟩
  cases found with
  | false =>
    refine ⟨by simp [Call.Labelled, Metric.Labelled, failureReasons], fun _ _ => ?_⟩
    exact (handleFailure_tallies proc job _).mono fun _ _ handled => .failed handled
  | true =>
    refine ⟨trivial, fun _ _ => ⟨trivial, fun outcome _ => ?_⟩⟩
    cases outcome with
    | returnedNil => exact complete_tallies job
    | returned error =>
      refine ⟨failureReason_labelled error, fun _ _ => ?_⟩
      exact (handleFailure_tallies proc job error).mono fun _ _ handled => .failed handled
    | panicked value =>
      refine ⟨failureReason_labelled _, fun _ _ => ?_⟩
      exact (handleFailure_tallies proc job _).mono fun _ _ handled => .failed handled

theorem process_tallies (proc : Processor) (job : Job) :
    Tallies (proc.process job) (tally.Adds job.jobType) tally := by
  have readOnly : (proc.canRun job).Uses Call.Unnoted := by
    refine (proc.canRun_uses job).mono fun c reads => ?_
    cases c with
    | depStatuses ids => trivial
    | _ => cases reads
  refine (unnoted_tallies readOnly).bind ?_
  rintro gate _ rfl
  cases gate with
  | error error =>
    refine (unnoted_tallies (nack_unnoted job)).bind ?_
    rintro _ _ rfl
    exact .released error
  | ok allowed =>
    cases allowed with
    | false =>
      refine (unnoted_tallies (nack_unnoted job)).bind ?_
      rintro _ _ rfl
      refine ⟨trivial, fun now _ => (enqueueDelayed_tallies job (now + 5 * second)).bind ?_⟩
      -- `Process` returns nil here, and the worker counts the job as processed.
      rintro _ _ ⟨-, rfl⟩
      exact .putOff
    | true =>
      refine ⟨trivial, fun now _ => ⟨trivial, fun _ _ => ⟨trivial, fun _ _ => ?_⟩⟩⟩
      exact runHandler_tallies proc { job with status := .active, startedAt := some now }

end

/-! ## A balanced tally -/

namespace Tally

/-- What is counted agrees with what was done; the code counts every failed execution as a failure
and as a retry. -/
structure Balanced (tally : Tally) : Prop where
  processed : tally.processed = tally.acked
  failures : tally.failures = tally.failed
  attempts : tally.attempts = tally.failed
  handled : tally.failed.Perm (tally.buried ++ tally.retried)

/-- The jobs for which `Process` returned nil. -/
def passed (tally : Tally) : Nat := tally.acked.length + tally.blocked.length

theorem empty_balanced : Tally.empty.Balanced := ⟨rfl, rfl, rfl, .nil⟩

/-- A call of `Process` keeps the balance, and returns nil once for each job that it passes. -/
def Closes (jobsProcessed : Nat) (error : Option GoError) (last : Tally) : Prop :=
  last.Balanced ∧ last.passed = if error.isNone then jobsProcessed + 1 else jobsProcessed

theorem HandledFrom.balanced {tally last : Tally} {jobType : String} {error : Option GoError}
    (balanced : tally.Balanced)
    (handled : HandledFrom { tally with
      failed := jobType :: tally.failed, failures := jobType :: tally.failures } jobType error last) :
    error.isNone = false ∧ last.Balanced ∧ last.passed = tally.passed := by
  obtain ⟨erred, key, notDelayed, rfl⟩ := handled
  refine ⟨erred, ?_⟩
  have failures : jobType :: tally.failures = jobType :: tally.failed := by rw [balanced.failures]
  have attempts : jobType :: tally.attempts = jobType :: tally.failed := by rw [balanced.attempts]
  cases key with
  | delayed => exact absurd rfl notDelayed
  | dlq => exact ⟨⟨balanced.processed, failures, attempts, balanced.handled.cons jobType⟩, rfl⟩
  -- A retry: the failure is one of the records put back.
  | lane lane =>
    have moved : (jobType :: tally.failed).Perm (tally.buried ++ jobType :: tally.retried) :=
      (balanced.handled.cons jobType).trans List.perm_middle.symm
    exact ⟨⟨balanced.processed, failures, attempts, moved⟩, rfl⟩

theorem Adds.closes {tally last : Tally} {jobType : String} {error : Option GoError}
    (adds : tally.Adds jobType error last) (balanced : tally.Balanced) :
    Closes tally.passed error last := by
  cases adds with
  | released error => exact ⟨balanced, rfl⟩
  | putOff => exact ⟨⟨balanced.processed, balanced.failures, balanced.attempts, balanced.handled⟩, rfl⟩
  | acked =>
    refine ⟨⟨?_, balanced.failures, balanced.attempts, balanced.handled⟩, ?_⟩
    · simp only [balanced.processed]
    · simp only [passed, List.length_cons, Option.isNone_none, if_true]
      omega
  | failed handled =>
    obtain ⟨erred, kept, same⟩ := handled.balanced balanced
    exact ⟨kept, by simp [erred, same]⟩

end Tally

/-! ## Counters -/

inductive Counter where
  | processed
  | failures
  | attempts

namespace Counter

def total : Counter → Ledger → String → Nat
  | .processed => Ledger.processedTotal
  | .failures => Ledger.failedTotal
  | .attempts => Ledger.attemptsTotal

def noted : Counter → Tally → List String
  | .processed => Tally.processed
  | .failures => Tally.failures
  | .attempts => Tally.attempts

theorem total_congr {ledger ledger' : Ledger} (same : ledger'.metrics = ledger.metrics)
    (counter : Counter) (jobType : String) :
    counter.total ledger' jobType = counter.total ledger jobType := by
  cases counter <;>
    simp only [total, Ledger.processedTotal, Ledger.failedTotal, Ledger.attemptsTotal, same]

/-- The counter that the metric belongs to, for a job type. -/
def raised : Metric → Counter → String → Bool
  | .jobsProcessed counted _, .processed, jobType => counted == jobType
  | .jobsFailed counted _, .failures, jobType => counted == jobType
  | .retryAttempts counted, .attempts, jobType => counted == jobType
  | _, _, _ => false

theorem processed_raised {metric : Metric} (labelled : metric.Labelled) (jobType : String) :
    metric ∈ priorityLabels.map (Metric.jobsProcessed jobType) ↔
      raised metric .processed jobType = true := by
  cases metric with
  | jobsProcessed counted priority =>
    simp only [raised, beq_iff_eq]
    constructor
    · intro listed
      obtain ⟨_, _, same⟩ := List.mem_map.mp listed
      cases same
      rfl
    · rintro rfl
      exact List.mem_map.mpr ⟨priority, labelled, rfl⟩
  | jobsFailed | retryAttempts => simp [raised]

theorem failures_raised {metric : Metric} (labelled : metric.Labelled) (jobType : String) :
    metric ∈ failureReasons.map (Metric.jobsFailed jobType) ↔
      raised metric .failures jobType = true := by
  cases metric with
  | jobsFailed counted reason =>
    simp only [raised, beq_iff_eq]
    constructor
    · intro listed
      obtain ⟨_, _, same⟩ := List.mem_map.mp listed
      cases same
      rfl
    · rintro rfl
      exact List.mem_map.mpr ⟨reason, labelled, rfl⟩
  | jobsProcessed | retryAttempts => simp [raised]

theorem attempts_raised (metric : Metric) (jobType : String) :
    metric = .retryAttempts jobType ↔ raised metric .attempts jobType = true := by
  cases metric <;> simp [raised]

theorem total_noteCount {metric : Metric} (labelled : metric.Labelled) (counter : Counter)
    (ledger : Ledger) (jobType : String) :
    counter.total (ledger.noteCount metric) jobType =
      counter.total ledger jobType + if raised metric counter jobType then 1 else 0 := by
  cases counter with
  | processed =>
    have injective : Function.Injective (Metric.jobsProcessed jobType) :=
      fun _ _ same => (Metric.jobsProcessed.inj same).2
    have distinct : priorityLabels.Nodup := by decide
    simp only [← processed_raised labelled]
    exact sum_bumped distinct ledger.metrics metric injective
  | failures =>
    have injective : Function.Injective (Metric.jobsFailed jobType) :=
      fun _ _ same => (Metric.jobsFailed.inj same).2
    have distinct : failureReasons.Nodup := by decide
    simp only [← failures_raised labelled]
    exact sum_bumped distinct ledger.metrics metric injective
  | attempts =>
    simp only [total, Ledger.attemptsTotal, Ledger.noteCount, ← attempts_raised]
    by_cases same : metric = .retryAttempts jobType
    · subst same
      simp
    · rw [Function.update_of_ne (Ne.symm same), if_neg same]
      rfl

theorem noted_count (metric : Metric) (counter : Counter) (tally : Tally) (jobType : String) :
    (counter.noted (tally.note (.count metric) ())).count jobType =
      (counter.noted tally).count jobType + if raised metric counter jobType then 1 else 0 := by
  cases counter <;> cases metric <;> simp [noted, Tally.note, raised, List.count_cons]

/-- Other calls leave the counters of a tally alone. -/
theorem noted_other {c : Call} (other : ∀ metric, c ≠ .count metric) (reply : c.Reply)
    (counter : Counter) (tally : Tally) : counter.noted (tally.note c reply) = counter.noted tally := by
  cases c with
  | count metric => exact absurd rfl (other metric)
  | command command =>
    cases command with
    | lpushDone member => simp only [Tally.note]; split <;> cases counter <;> rfl
    | zadd key score member =>
      simp only [Tally.note, Tally.noteZadd]
      split
      · cases key <;> cases counter <;> rfl
      · cases counter <;> rfl
    | _ => rfl
  | findHandler job => simp only [Tally.note]; split <;> cases counter <;> rfl
  | awaitHandler job => simp only [Tally.note]; split <;> cases counter <;> rfl
  | _ => rfl

theorem metrics_other {c : Call} (other : ∀ metric, c ≠ .count metric) (env : Env) (stores : Stores) :
    (perform env stores c).2.ledger.metrics = stores.ledger.metrics := by
  obtain ⟨_, _, _, performed⟩ | performed := perform_cases env stores c
  · rw [performed]
  · rw [performed]
    cases c with
    | count metric => exact absurd rfl (other metric)
    | command command =>
      cases command with
      | zadd key score member =>
        simp only [performStore, Stores.applyCommand, Ledger.noteZadd]
        split <;> rfl
      | _ => rfl
    | cancelJob id =>
      simp only [performStore]
      split <;> rfl
    | awaitHandler job =>
      simp only [performStore]
      split <;> rfl
    | _ => rfl

/-- A call adds the same to a counter and to the tally of the worker that makes it. -/
theorem total_perform {c : Call} (labelled : c.Labelled) (env : Env) (stores : Stores) (tally : Tally)
    (counter : Counter) (jobType : String) :
    counter.total (perform env stores c).2.ledger jobType + (counter.noted tally).count jobType =
      counter.total stores.ledger jobType +
        (counter.noted (tally.note c (perform env stores c).1)).count jobType := by
  by_cases counts : ∃ metric, c = .count metric
  · obtain ⟨metric, rfl⟩ := counts
    have performed : perform env stores (.count metric) =
        ((), { stores with ledger := stores.ledger.noteCount metric }) := by
      cases fails : env.fails <;> simp only [perform, fails, failed?] <;> rfl
    rw [performed]
    simp only [total_noteCount labelled, noted_count]
    omega
  · have other : ∀ metric, c ≠ .count metric := fun metric same => counts ⟨metric, same⟩
    rw [total_congr (metrics_other other env stores), noted_other other]

end Counter

/-! ## Workers -/

namespace Running

variable {cfg : PoolConfig} {proc : Processor} {running after : Running}

/-- The call that a worker makes in this step, if any, gets a reply of the kind. -/
def replies (kind : (c : Call) → c.Reply → Bool) (running : Running) : RunningAction → Bool
  | .worker id env => match running.pool.workers id with
    | some ⟨evicted, some ⟨_, .call c _, _⟩⟩ =>
      kind c (perform (env.under (running.pool.cancelled || evicted)) running.pool.stores c).1
    | _ => true
  | _ => true

/-- What a worker has counted and done so far: balanced, or the rest of its call balances it. -/
def Accounts (tally : Tally) (jobsProcessed : Nat) : Option Worker → Prop
  | some ⟨_, some task⟩ => Tallies task.program (Tally.Closes jobsProcessed) tally
  | _ => tally.Balanced ∧ tally.passed = jobsProcessed

/-- A turn of a worker keeps its accounts, and adds the same to each counter and to its tally. -/
theorem worker_accounts {id : Nat} {env : Env} {pool : Pool}
    (held : Accounts (running.tally id) (running.stats id).jobsProcessed (running.pool.workers id))
    (serves : running.replies Call.queued (.worker id env) = true)
    (moved : running.pool.stepWorker proc id env = some pool) :
    Accounts (running.workerTally id env) (running.workerStats id env).jobsProcessed
      (pool.workers id) ∧
    ∀ counter jobType, Counter.total counter pool.stores.ledger jobType +
        (counter.noted (running.tally id)).count jobType =
      counter.total running.pool.stores.ledger jobType +
        (counter.noted (running.workerTally id env)).count jobType := by
  cases Pool.worker_turns moved with
  | @receives evicted job rest current channel queue =>
    rw [current] at held
    obtain ⟨balanced, passed⟩ := held
    simp only [workerTally, workerStats, current, queue, channel, Pool.setWorker_same]
    -- From here on the program of the worker is all that is left to balance its tally.
    refine ⟨(process_tallies proc job).mono fun error last adds => ?_, fun _ _ => rfl⟩
    simp only [WorkerStats.received, ← passed]
    exact adds.closes balanced
  | stops current rests =>
    rw [current] at held
    simp only [workerTally, workerStats, current, rests, Pool.setWorker_same]
    exact ⟨held, fun _ _ => rfl⟩
  | calls current =>
    rw [current] at held
    simp only [replies, current] at serves
    simp only [workerTally, workerStats, current, Pool.setWorker_same]
    obtain ⟨labelled, follows⟩ := held
    exact ⟨follows _ serves, Counter.total_perform labelled _ _ _⟩
  | returns current =>
    rw [current] at held
    simp only [workerTally, workerStats, current, Pool.setWorker_same]
    obtain ⟨balanced, passed⟩ := held
    exact ⟨⟨balanced, passed⟩, fun _ _ => rfl⟩

/-! ## The fetcher -/

/-- The rest of the fetcher's program counts nothing. -/
def Uncounting : Fetcher → Prop
  | .dequeuing program => program.Uses fun c => ∀ metric, c ≠ .count metric
  | .handingBack program => program.Uses fun c => ∀ metric, c ≠ .count metric
  | _ => True

theorem dequeue_uncounting : dequeue.Uses fun c => ∀ metric, c ≠ .count metric := by
  rw [dequeue_eq]
  exact ⟨by simp, fun _ => trivial⟩

theorem handBack_uncounting (job : Job) :
    (Processor.handBack job).Uses fun c => ∀ metric, c ≠ .count metric := by
  refine ⟨by simp, fun now => ⟨by simp, fun _ => ?_⟩⟩
  exact ⟨by simp, fun _ => ⟨by simp, fun _ => trivial⟩⟩

theorem fetcher_uncounting {buffer : Nat} {env : Env} {pool moved : Pool}
    (held : Uncounting pool.fetcher) (stepped : pool.stepFetcher buffer env = some moved) :
    Uncounting moved.fetcher ∧ moved.stores.ledger.metrics = pool.stores.ledger.metrics := by
  cases Pool.fetcher_turns stepped with
  | dequeues => exact ⟨dequeue_uncounting, rfl⟩
  | calls dequeuing =>
    rw [dequeuing] at held
    exact ⟨held.2 _, Counter.metrics_other held.1 _ _⟩
  | keeps => exact ⟨handBack_uncounting _, rfl⟩
  | handsBack handing =>
    rw [handing] at held
    exact ⟨held.2 _, Counter.metrics_other held.1 _ _⟩
  | ends | obtains | waits | fails | retries | delivers | handed => exact ⟨trivial, rfl⟩

/-! ## Runs -/

/-- Summed over all workers that were ever spawned. -/
def sum (running : Running) (weigh : Nat → Nat) : Nat :=
  ∑ id ∈ Finset.range running.pool.nextID, weigh id

theorem sum_congr {weigh weigh' : Nat → Nat} (same : ∀ id, weigh id = weigh' id) :
    running.sum weigh = running.sum weigh' :=
  Finset.sum_congr rfl fun id _ => same id

/-- One worker changes its part of a sum. -/
theorem sum_update {tally : Nat → Tally} {id count : Nat} (known : id < count)
    (weigh : Tally → Nat) (next : Tally) :
    (∑ other ∈ Finset.range count, weigh (Function.update tally id next other)) + weigh (tally id) =
      (∑ other ∈ Finset.range count, weigh (tally other)) + weigh next := by
  have inside : id ∈ Finset.range count := Finset.mem_range.mpr known
  have others : ∑ other ∈ (Finset.range count).erase id, weigh (Function.update tally id next other) =
      ∑ other ∈ (Finset.range count).erase id, weigh (tally other) :=
    Finset.sum_congr rfl fun other listed => by
      rw [Function.update_of_ne (Finset.ne_of_mem_erase listed)]
  rw [← Finset.add_sum_erase _ _ inside,
    ← Finset.add_sum_erase _ (fun other => weigh (tally other)) inside, others, Function.update_self]
  omega

/-- What a run keeps: each worker's accounts, and counters that are the sums of the tallies. -/
structure Accounted (running : Running) : Prop where
  fresh : running.pool.Fresh
  unused : ∀ id, running.pool.nextID ≤ id →
    running.tally id = .empty ∧ (running.stats id).jobsProcessed = 0
  fetcher : Uncounting running.pool.fetcher
  workers : ∀ id,
    Accounts (running.tally id) (running.stats id).jobsProcessed (running.pool.workers id)
  totals : ∀ counter jobType, Counter.total counter running.pool.stores.ledger jobType =
    running.sum fun id => (counter.noted (running.tally id)).count jobType

/-- A step that leaves the workers' programs and what they have done alone. -/
theorem Accounted.same (accounted : Accounted running) (fresh : after.pool.Fresh)
    (next : after.pool.nextID = running.pool.nextID) (tally : after.tally = running.tally)
    (stats : after.stats = running.stats) (fetcher : Uncounting after.pool.fetcher)
    (tasks : ∀ id, Accounts (running.tally id) (running.stats id).jobsProcessed
      (running.pool.workers id) → Accounts (running.tally id) (running.stats id).jobsProcessed
      (after.pool.workers id))
    (metrics : after.pool.stores.ledger.metrics = running.pool.stores.ledger.metrics) :
    Accounted after := by
  refine ⟨fresh, ?_, fetcher, ?_, ?_⟩
  · rw [next, tally, stats]
    exact accounted.unused
  · rw [tally, stats]
    exact fun id => tasks id (accounted.workers id)
  · intro counter jobType
    rw [Counter.total_congr metrics, accounted.totals, sum, sum, next, tally]

theorem accounts_evicted {tally : Tally} {jobsProcessed : Nat} {worker : Worker}
    (held : Accounts tally jobsProcessed (some worker)) :
    Accounts tally jobsProcessed (some { worker with evicted := true }) := by
  obtain ⟨evicted, task⟩ := worker
  cases task <;> exact held

theorem Accounted.spawn (accounted : Accounted running) (now : Time) :
    Accounted (running.spawnWorker now) := by
  obtain ⟨blank, zero⟩ := accounted.unused running.pool.nextID le_rfl
  refine ⟨?_, fun id beyond => ?_, accounted.fetcher, fun id => ?_, fun counter jobType => ?_⟩
  · intro id beyond
    have known : running.pool.nextID < id := beyond
    simp only [spawnWorker, Pool.spawnWorker, Pool.setWorker]
    rw [Function.update_of_ne (Nat.ne_of_gt known)]
    exact accounted.fresh id (Nat.le_of_lt known)
  · have known : running.pool.nextID < id := beyond
    simp only [spawnWorker]
    rw [Function.update_of_ne (Nat.ne_of_gt known)]
    exact accounted.unused id (Nat.le_of_lt known)
  · simp only [spawnWorker, Pool.spawnWorker, Pool.setWorker]
    by_cases same : id = running.pool.nextID
    · subst same
      rw [Function.update_self, Function.update_self, blank]
      exact ⟨Tally.empty_balanced, rfl⟩
    · rw [Function.update_of_ne same, Function.update_of_ne same]
      exact accounted.workers id
  · have extended : (running.spawnWorker now).sum
        (fun id => (counter.noted (running.tally id)).count jobType) =
        running.sum fun id => (counter.noted (running.tally id)).count jobType := by
      -- The new worker adds nothing to the sums.
      have new : (counter.noted (running.tally running.pool.nextID)).count jobType = 0 := by
        rw [blank]
        cases counter <;> rfl
      exact (Finset.sum_range_succ _ _).trans (by rw [new]; rfl)
    exact (accounted.totals counter jobType).trans extended.symm

theorem Accounted.cancelWorker (accounted : Accounted running) (id : Nat) :
    Accounted (running.cancelWorker id) := by
  unfold Running.cancelWorker
  split
  · exact accounted
  · next worker current =>
    have known := accounted.fresh.known current
    refine accounted.same (accounted.fresh.turn current _) rfl rfl rfl accounted.fetcher ?_ rfl
    intro other held
    by_cases same : other = id
    · subst same
      rw [current] at held
      simp only [Pool.setWorker_same]
      exact accounts_evicted held
    · simp only [Pool.setWorker_other _ same]
      exact held

theorem Accounted.worker {id : Nat} {env : Env} (accounted : Accounted running)
    (serves : running.replies Call.queued (.worker id env) = true)
    (stepped : running.step proc cfg (.worker id env) = some after) : Accounted after := by
  have fresh := step_fresh accounted.fresh stepped
  obtain ⟨pool, moved, rfl⟩ := Option.map_eq_some_iff.mp stepped
  obtain ⟨accounts, added⟩ := worker_accounts (accounted.workers id) serves moved
  obtain ⟨worker, next, stores, jobCh, current, shape⟩ := Pool.worker_frame moved
  have known : id < running.pool.nextID := accounted.fresh.known current
  have nextID : pool.nextID = running.pool.nextID := by rw [shape]; rfl
  refine ⟨fresh, fun other beyond => ?_, ?_, fun other => ?_, fun counter jobType => ?_⟩
  · simp only [nextID] at beyond
    have different : other ≠ id := Nat.ne_of_gt (Nat.lt_of_lt_of_le known beyond)
    simp only [Function.update_of_ne different]
    exact accounted.unused other beyond
  · rw [shape]
    exact accounted.fetcher
  · by_cases same : other = id
    · subst same
      simp only [Function.update_self]
      exact accounts
    · simp only [Function.update_of_ne same, shape, Pool.setWorker_other _ same]
      exact accounted.workers other
  · have before := accounted.totals counter jobType
    have step := added counter jobType
    -- The counter and the sum grow by what this worker has noted.
    have moves := @sum_update running.tally _ _ known
      (fun tally => (counter.noted tally).count jobType) (running.workerTally id env)
    simp only [sum, nextID] at before ⊢
    omega

theorem Accounted.step {action : RunningAction} (accounted : Accounted running)
    (serves : running.replies Call.queued action = true)
    (stepped : running.step proc cfg action = some after) : Accounted after := by
  have fresh := step_fresh accounted.fresh stepped
  cases action with
  | worker id env => exact accounted.worker serves stepped
  | cancel =>
    cases stepped
    exact accounted.same fresh rfl rfl rfl accounted.fetcher (fun _ held => held) rfl
  | fetcher env =>
    obtain ⟨pool, moved, rfl⟩ := Option.map_eq_some_iff.mp stepped
    obtain ⟨workers, nextID⟩ := Pool.fetcher_frame moved
    obtain ⟨uncounting, metrics⟩ := fetcher_uncounting accounted.fetcher moved
    refine accounted.same fresh nextID rfl rfl uncounting ?_ metrics
    simp only [workers]
    exact fun _ held => held
  | tick depth now order =>
    obtain rfl | rfl | ⟨id, rfl⟩ := tick_cases stepped
    · exact accounted
    · exact accounted.spawn now
    · exact accounted.cancelWorker id
  | stopScaler =>
    obtain ⟨-, rfl⟩ := step_stopScaler stepped
    exact accounted.same fresh rfl rfl rfl accounted.fetcher (fun _ held => held) rfl
  | outside jobs redis =>
    cases stepped
    exact accounted.same fresh rfl rfl rfl accounted.fetcher (fun _ held => held) rfl

/-! ## Runs without a failure -/

/-- The counters equal what they are documented to count. -/
structure Counted (running : Running) : Prop where
  processed : ∀ jobType, running.pool.stores.ledger.processedTotal jobType =
    running.sum fun id => (running.tally id).acked.count jobType
  failed : ∀ jobType, running.pool.stores.ledger.failedTotal jobType =
    running.sum fun id => (running.tally id).buried.count jobType
  attempts : ∀ jobType, running.pool.stores.ledger.attemptsTotal jobType =
    running.sum fun id => (running.tally id).retried.count jobType
  jobsProcessed : (running.sum fun id => (running.stats id).jobsProcessed) =
    running.sum fun id => (running.tally id).acked.length

/-- The only worker takes the only job and does `count` steps. -/
def works (env : Env) (count : Nat) : List RunningAction :=
  List.replicate 4 (.fetcher (.calm "j")) ++ List.replicate count (.worker 0 env)

end Running

end Taskfire
