import Taskfire.Safety.Runs

/-!
# Where a job ends up

`Process` run alone on a job that was just claimed, with a queue that can be reached.  What the
dependency check, the handler table, the handler and the wait do is a `Scenario`; which updates of
the row fail is left open.  One triple for each function says where it leaves the job, and
`process_ends` puts them together: the job has exactly one record, in the place its outcome calls
for, unless the dependency check returned an error.
-/

namespace Taskfire

open Taskfire.Library

/-! ## Scenarios -/

/-- What the code that `Process` calls does, apart from the stores. -/
structure Scenario where
  /-- The query for the statuses of the dependencies fails. -/
  statusesFail : Bool
  registered : Bool
  handler : HandlerOutcome
  backoff : Option GoError

namespace Scenario

/-- No call of the queue fails; updates of the row may. -/
def chooses (scenario : Scenario) : Call → Env → Prop
  | .command _, env => env.fails = false
  | .depStatuses _, env => env.fails = scenario.statusesFail
  | .findHandler _, env => env.registered = scenario.registered
  | .awaitHandler _, env => env.handler = scenario.handler
  | .backoff _ _, env => env.backoff = scenario.backoff
  | _, _ => True

variable (scenario : Scenario) (proc : Processor) (job : Job)

/-- An environment that makes the scenario's choices. -/
def env (fails : Bool) : Env where
  fails := fails
  now := 0
  uuid := ""
  pages := 0
  scanned := fun _ => true
  registered := scenario.registered
  handler := scenario.handler
  backoff := scenario.backoff
  delivers := true

theorem chooses_some (c : Call) : ∃ env, scenario.chooses c env := by
  cases c with
  | depStatuses => exact ⟨scenario.env scenario.statusesFail, rfl⟩
  | command | findHandler | awaitHandler | backoff => exact ⟨scenario.env false, rfl⟩
  | insertJob | getJob | cancelJob | requeueJob | updateJobStatus | claim | drainDelayed | zscan
  | now | randomUUID | scanPages | startHandler | deliver | count =>
    exact ⟨scenario.env false, trivial⟩

def handlerReturnsNil : Prop := scenario.registered = true ∧ scenario.handler = .returnedNil

instance : Decidable scenario.handlerReturnsNil :=
  inferInstanceAs (Decidable (scenario.registered = true ∧ scenario.handler = .returnedNil))

/-- What `Wait` returns after this failure of the job. -/
def waitError : Option GoError :=
  if (proc.retrier.configFor job.jobType).maxRetries ≤ goInt (job.retryCount + 1) then
    some Retry.errRetriesExhausted
  else scenario.backoff

end Scenario

/-- The triple of a program that runs in a scenario. -/
abbrev LeadsIn {α : Type} (scenario : Scenario) (pre : Stores → Prop) (program : Prog α)
    (post : α → Stores → Prop) : Prop :=
  program.Leads perform scenario.chooses pre post

/-- The records of job `id` are where `places` says. -/
def Located (id : JobId) (places : Whereabouts) (stores : Stores) : Prop :=
  stores.redis.whereabouts id = places

section

variable {scenario : Scenario} {id : JobId} {places : Whereabouts} {α : Type}
variable {post : α → Stores → Prop}

/-! ## Single calls -/

theorem leads_silent {c : Call} {next : c.Reply → Prog α} (leaves : c.leavesRedis = true)
    (rest : ∀ reply, LeadsIn scenario (Located id places) (next reply) post) :
    LeadsIn scenario (Located id places) (.call c next) post := by
  refine Program.leads_call (fun _ => Located id places) ?_ rest
  intro stores env located _
  show (perform env stores c).2.redis.whereabouts id = places
  rw [perform_leavesRedis env stores leaves]
  exact located

/-- A call of the runtime whose reply the scenario determines. -/
theorem leads_determined {c : Call} {next : c.Reply → Prog α} (leaves : c.leavesRedis = true)
    (reply : c.Reply)
    (replies : ∀ env stores, scenario.chooses c env → (perform env stores c).1 = reply)
    (rest : LeadsIn scenario (Located id places) (next reply) post) :
    LeadsIn scenario (Located id places) (.call c next) post := by
  intro stores located env chosen
  rw [replies env stores chosen]
  apply rest
  show (perform env stores c).2.redis.whereabouts id = places
  rw [perform_leavesRedis env stores leaves]
  exact located

theorem leads_command {pre : Stores → Prop} (middle : Stores → Prop) {command : Command}
    {next : Except StoreError Unit → Prog α}
    (applied : ∀ stores, pre stores → middle (stores.applyCommand command))
    (rest : LeadsIn scenario middle (next (.ok ())) post) :
    LeadsIn scenario pre (.call (.command command) next) post := by
  intro stores holds env reached
  have performed : perform env stores (.command command) = (.ok (), stores.applyCommand command) := by
    have fails : env.fails = false := reached
    simp only [perform, fails, performStore]
  rw [performed]
  exact rest _ (applied stores holds)

theorem leads_hdel {next : Except StoreError Unit → Prog α}
    (rest : LeadsIn scenario (Located id { places with listed := false }) (next (.ok ())) post) :
    LeadsIn scenario (Located id places) (.call (.command (.hdelProcessing id)) next) post := by
  refine leads_command _ (fun stores located => ?_) rest
  rw [Located, whereabouts_hdel, located]

theorem leads_del {next : Except StoreError Unit → Prog α}
    (rest : LeadsIn scenario (Located id { places with locked := false }) (next (.ok ())) post) :
    LeadsIn scenario (Located id places) (.call (.command (.delLock id)) next) post := by
  refine leads_command _ (fun stores located => ?_) rest
  rw [Located, whereabouts_del, located]

theorem leads_zadd {key : ZKey} {score : Int} {member : Member}
    {next : Except StoreError Unit → Prog α} (lane : key ≠ .dlq) (named : member.id? = some id)
    (empty : places.waiting = 0)
    (rest : LeadsIn scenario (Located id { places with waiting := 1 }) (next (.ok ())) post) :
    LeadsIn scenario (Located id places) (.call (.command (.zadd key score member)) next) post := by
  refine leads_command _ (fun stores located => ?_) rest
  rw [Located, whereabouts_zadd lane named (located ▸ empty), located]

theorem leads_zadd_dlq {score : Int} {member : Member} {next : Except StoreError Unit → Prog α}
    (named : member.id? = some id) (empty : places.letters = 0)
    (rest : LeadsIn scenario (Located id { places with letters := 1 }) (next (.ok ())) post) :
    LeadsIn scenario (Located id places) (.call (.command (.zadd .dlq score member)) next) post := by
  refine leads_command _ (fun stores located => ?_) rest
  rw [Located, whereabouts_zadd_dlq named (located ▸ empty), located]

end

/-! ## Functions -/

section

variable {scenario : Scenario} {places : Whereabouts}

theorem nack_leads (job : Job) : LeadsIn scenario (Located job.id places) (nack job)
    fun _ => Located job.id places.released := by
  simp only [nack, pipeline, Program.perform_bind, Program.call_bind]
  exact leads_hdel (leads_del fun _ located => located)

theorem enqueue_leads (job : Job) (empty : places.waiting = 0) :
    LeadsIn scenario (Located job.id places) (enqueue job)
      fun error stores => error = none ∧ Located job.id { places with waiting := 1 } stores := by
  refine leads_silent rfl fun now => ?_
  exact leads_zadd (Redis.lane_ne_dlq _) rfl empty fun _ located => ⟨rfl, located⟩

theorem enqueueDelayed_leads (job : Job) {scheduledAt : Time} (empty : places.waiting = 0) :
    LeadsIn scenario (Located job.id places) (enqueueDelayed job scheduledAt)
      fun _ => Located job.id { places with waiting := 1 } :=
  leads_zadd Redis.delayed_ne_dlq rfl empty fun _ located => located

/-- The push of the record and the trim of the list go together: the trim keeps what was pushed. -/
theorem ack_leads (job : Job) (empty : places.done = 0) :
    LeadsIn scenario (Located job.id places) (ack job)
      fun _ => Located job.id { places.released with done := 1 } := by
  simp only [ack, pipeline, Program.perform_bind, Program.call_bind]
  refine leads_hdel (leads_del ?_)
  have pushed (stores : Stores) (located : Located job.id places.released stores) :
      Located job.id { places.released with done := 1 }
        (stores.applyCommand (.lpushDone job.marshal)) := by
    have none : (stores.redis.whereabouts job.id).done = 0 := by rw [located]; exact empty
    rw [Located, whereabouts_lpush rfl, none, located]
  refine leads_command (fun stores => Located job.id { places.released with done := 1 } stores ∧
    ∃ rest, stores.redis.done = job.marshal :: rest) ?_ ?_
  · exact fun stores located => ⟨pushed stores located, _, rfl⟩
  · refine leads_command (Located job.id { places.released with done := 1 }) ?_
      fun _ located => located
    intro stores pushedLast
    obtain ⟨located, rest, first⟩ := pushedLast
    rw [Located, whereabouts_ltrim first rfl (by rw [located]), located]

theorem moveToDLQ_leads (job : Job) {reason : GoError} (empty : places.letters = 0) :
    LeadsIn scenario (Located job.id places) (moveToDLQ job reason)
      fun _ => Located job.id { places.released with letters := 1 } := by
  simp only [moveToDLQ, pipeline, Program.perform_bind, Program.call_bind]
  refine leads_silent rfl fun now => leads_hdel (leads_del ?_)
  exact leads_zadd_dlq rfl empty fun _ located => located

theorem sendToDLQ_leads (job : Job) {reason : GoError} (empty : places.letters = 0) :
    LeadsIn scenario (Located job.id places) (Processor.sendToDLQ job reason)
      fun _ => Located job.id { places.released with letters := 1 } := by
  simp only [Processor.sendToDLQ, publishEvent, Program.perform_bind, Program.call_bind,
    Program.pure_eq, Program.pure_bind]
  refine leads_silent rfl fun now => leads_silent rfl fun _ => leads_silent rfl fun _ => ?_
  refine Program.leads_bind (moveToDLQ_leads { job with status := .dead, failedAt := some now } empty) ?_
  intro error
  cases error <;> exact fun _ located => located

theorem retryJob_leads (job : Job) {cause : GoError} (empty : places.waiting = 0) :
    LeadsIn scenario (Located job.id places) (Processor.retryJob job cause)
      fun _ => Located job.id { places with waiting := 1 } := by
  simp only [Processor.retryJob, publishEvent, Program.perform_bind, Program.call_bind,
    Program.pure_eq, Program.pure_bind]
  refine leads_silent rfl fun _ => leads_silent rfl fun now => leads_silent rfl fun _ => ?_
  refine Program.leads_bind
    (enqueue_leads { job with status := .pending, startedAt := none } empty) ?_
  rintro error stores ⟨rfl, located⟩
  exact located

end

/-! ## Outcomes -/

namespace Scenario

/-- Where a failed job goes, by what `Wait` returned. -/
def afterWait : Option GoError → Whereabouts
  | some _ => { Whereabouts.claimed.released with letters := 1 }
  | none => { Whereabouts.claimed.released with waiting := 1 }

/-- Where `Process` leaves the job, by the outcome of the dependency check. -/
def ends (scenario : Scenario) (proc : Processor) (job : Job) : Except GoError Bool → Whereabouts
  | .error _ => Whereabouts.claimed.released
  | .ok false => { Whereabouts.claimed.released with waiting := 1 }
  | .ok true =>
    if scenario.handlerReturnsNil then { Whereabouts.claimed.released with done := 1 }
    else afterWait (scenario.waitError proc job)

end Scenario

section

variable {scenario : Scenario} {proc : Processor}

/-- What the environment decides in a scenario. -/
theorem replies_wait {jobType : String} {attempt : Int} (env : Env) (stores : Stores)
    (chosen : scenario.chooses (.backoff jobType attempt) env) :
    (perform env stores (.backoff jobType attempt)).1 = scenario.backoff := by
  obtain ⟨_, _, fails, _⟩ | performed := perform_cases env stores (.backoff jobType attempt)
  · cases fails
  · rw [performed]
    exact chosen

theorem replies_findHandler {job : Job} (env : Env) (stores : Stores)
    (chosen : scenario.chooses (.findHandler job) env) :
    (perform env stores (.findHandler job)).1 = scenario.registered := by
  obtain ⟨_, _, fails, _⟩ | performed := perform_cases env stores (.findHandler job)
  · cases fails
  · rw [performed]
    exact chosen

theorem replies_awaitHandler {job : Job} (env : Env) (stores : Stores)
    (chosen : scenario.chooses (.awaitHandler job) env) :
    (perform env stores (.awaitHandler job)).1 = scenario.handler := by
  obtain ⟨_, _, fails, _⟩ | performed := perform_cases env stores (.awaitHandler job)
  · cases fails
  · rw [performed]
    exact chosen

theorem handleFailure_leads (job : Job) {cause : GoError} :
    LeadsIn scenario (Located job.id .claimed) (proc.handleFailure job cause)
      fun _ => Located job.id (Scenario.afterWait (scenario.waitError proc job)) := by
  let failed : Job := { job with retryCount := goInt (job.retryCount + 1), errorMessage := cause.text }
  -- What follows only depends on what `Wait` returned, not on what made it return.
  have decided (waitErr : Option GoError) :
      LeadsIn scenario (Located job.id Whereabouts.claimed.released)
        (match waitErr with
          | some waitErr => Processor.sendToDLQ failed waitErr
          | none => Processor.retryJob failed cause)
        fun _ => Located job.id (Scenario.afterWait waitErr) := by
    cases waitErr with
    | some waitErr => exact sendToDLQ_leads failed rfl
    | none => exact retryJob_leads failed rfl
  simp only [Processor.handleFailure]
  refine Program.leads_bind (nack_leads failed) fun _ => leads_silent rfl fun _ => ?_
  simp only [Retry.Manager.wait, Scenario.waitError]
  split
  · exact decided (some Retry.errRetriesExhausted)
  · exact leads_determined rfl scenario.backoff replies_wait (decided scenario.backoff)

theorem complete_leads (job : Job) :
    LeadsIn scenario (Located job.id .claimed) (Processor.complete job)
      fun _ => Located job.id { Whereabouts.claimed.released with done := 1 } := by
  simp only [Processor.complete, publishEvent, Program.perform_bind, Program.call_bind,
    Program.pure_eq, Program.pure_bind]
  refine leads_silent rfl fun completed => leads_silent rfl fun _ => leads_silent rfl fun _ =>
    leads_silent rfl fun _ => ?_
  exact ack_leads { job with status := .completed, completedAt := some completed } rfl

theorem runHandler_leads (job : Job) :
    LeadsIn scenario (Located job.id .claimed) (proc.runHandler job)
      fun _ => Located job.id (scenario.ends proc job (.ok true)) := by
  have failed (cause : GoError) (fails : ¬ scenario.handlerReturnsNil) :
      LeadsIn scenario (Located job.id .claimed) (proc.handleFailure job cause)
        fun _ => Located job.id (scenario.ends proc job (.ok true)) := by
    simp only [Scenario.ends, if_neg fails]
    exact handleFailure_leads job
  simp only [Processor.runHandler, Program.perform_bind]
  refine leads_determined rfl scenario.registered replies_findHandler ?_
  cases registered : scenario.registered with
  | false =>
    -- A type without a handler fails as a handler does that returns an error.
    refine leads_silent rfl fun _ => failed _ ?_
    intro returned
    obtain ⟨found, -⟩ := returned
    rw [registered] at found
    cases found
  | true =>
    refine leads_silent rfl fun _ => leads_determined rfl scenario.handler replies_awaitHandler ?_
    cases outcome : scenario.handler with
    | returnedNil =>
      have completed : scenario.ends proc job (.ok true) =
          { Whereabouts.claimed.released with done := 1 } := if_pos ⟨registered, outcome⟩
      rw [completed]
      exact complete_leads job
    | returned error =>
      refine leads_silent rfl fun _ => failed _ ?_
      intro both
      have returned := both.2
      rw [outcome] at returned
      cases returned
    | panicked value =>
      refine leads_silent rfl fun _ => failed _ ?_
      intro both
      have returned := both.2
      rw [outcome] at returned
      cases returned

theorem execute_leads (job : Job) :
    LeadsIn scenario (Located job.id .claimed) (proc.execute job)
      fun _ => Located job.id (scenario.ends proc job (.ok true)) := by
  simp only [Processor.execute, publishEvent, Program.perform_bind, Program.call_bind,
    Program.pure_eq, Program.pure_bind]
  refine leads_silent rfl fun now => leads_silent rfl fun _ => leads_silent rfl fun _ => ?_
  exact runHandler_leads { job with status := .active, startedAt := some now }

theorem dispatch_leads (job : Job) (gate : Except GoError Bool) :
    LeadsIn scenario (Located job.id .claimed)
      (match gate with
        | .error error => do
          let _ ← nack job
          pure (some error)
        | .ok false => do
          let _ ← nack job
          let now ← invoke .now
          let _ ← enqueueDelayed job (now + 5 * second)
          pure none
        | .ok true => proc.execute job)
      fun _ => Located job.id (scenario.ends proc job gate) := by
  cases gate with
  | error error => exact Program.leads_bind (nack_leads job) fun _ _ located => located
  | ok allowed =>
    cases allowed with
    | false =>
      refine Program.leads_bind (nack_leads job) fun _ => leads_silent rfl fun now => ?_
      exact Program.leads_bind (enqueueDelayed_leads job rfl) fun _ _ located => located
    | true => exact execute_leads job

variable {job : Job} {gate : Except GoError Bool} {stores : Stores}

/-- Where `Process` leaves a job it was given, whatever the updates of the row do. -/
theorem process_ends (claimed : Located job.id .claimed stores)
    (gated : (proc.canRun job).wp perform scenario.chooses (fun outcome _ => outcome = gate) stores) :
    (proc.process job).wp perform scenario.chooses
      (fun _ last => Located job.id (scenario.ends proc job gate) last) stores := by
  -- The check reads rows and leaves the stores as they are.
  have stays : (proc.canRun job).wp perform scenario.chooses (fun _ last => last = stores) stores := by
    refine (proc.canRun_uses job).wp fun c env reads => ?_
    cases c with
    | depStatuses ids =>
      obtain ⟨_, _, _, performed⟩ | performed := perform_cases env stores (.depStatuses ids)
      · rw [performed]
      · rw [performed]
        rfl
    | _ => cases reads
  rw [Processor.process, Program.wp_bind_of_determined scenario.chooses_some (Program.wp_and gated stays)]
  exact dispatch_leads job gate stores claimed

end

/-! ## The place the outcome calls for -/

/-- The job is released and has exactly one record: in the done list if its handler returned nil, in a
lane or in the delayed set if it was blocked, could not be checked or is to be retried, in the
dead-letter set if `Wait` returned an error. -/
structure Settled (scenario : Scenario) (proc : Processor) (job : Job) (gate : Except GoError Bool)
    (places : Whereabouts) : Prop where
  unlisted : places.listed = false
  unlocked : places.locked = false
  one : places.records = 1
  done : 0 < places.done ↔ gate = .ok true ∧ scenario.handlerReturnsNil
  waiting : 0 < places.waiting ↔ gate = .ok false ∨ (∃ error, gate = .error error) ∨
    (gate = .ok true ∧ ¬ scenario.handlerReturnsNil ∧ scenario.waitError proc job = none)
  letters : 0 < places.letters ↔ gate = .ok true ∧ ¬ scenario.handlerReturnsNil ∧
    ∃ error, scenario.waitError proc job = some error

section

variable {scenario : Scenario} {proc : Processor} {job : Job} {gate : Except GoError Bool}
variable {stores : Stores}

theorem settled_iff :
    Settled scenario proc job gate (scenario.ends proc job gate) ↔ gate.isOk = true := by
  cases gate with
  | error error =>
    refine iff_of_false ?_ Bool.false_ne_true
    intro settled
    have one : 0 = 1 := settled.one
    cases one
  | ok allowed =>
    refine iff_of_true ?_ rfl
    cases allowed with
    | false => constructor <;> simp [Scenario.ends, Whereabouts.released, Whereabouts.claimed, Whereabouts.records]
    | true =>
      by_cases returned : scenario.handlerReturnsNil
      · constructor <;> simp [Scenario.ends, returned, Whereabouts.released, Whereabouts.claimed,
          Whereabouts.records]
      · cases waited : scenario.waitError proc job <;> constructor <;>
          simp [Scenario.ends, Scenario.afterWait, returned, waited, Whereabouts.released,
            Whereabouts.claimed, Whereabouts.records]

/-- A job that was just claimed ends in exactly one place, the one its outcome calls for, if and only
if its dependency check returned no error. -/
theorem process_settles (claimed : Located job.id .claimed stores)
    (gated : (proc.canRun job).wp perform scenario.chooses (fun outcome _ => outcome = gate) stores) :
    (proc.process job).wp perform scenario.chooses
      (fun _ last => Settled scenario proc job gate (last.redis.whereabouts job.id)) stores ↔
      gate.isOk = true := by
  have ends := process_ends claimed gated
  have places : Settled scenario proc job gate (scenario.ends proc job gate) ↔ gate.isOk = true :=
    settled_iff
  rw [← places]
  constructor
  · intro settles
    obtain ⟨_, last, settled, located⟩ :=
      Program.wp_ends scenario.chooses_some (Program.wp_and settles ends)
    rwa [located] at settled
  · intro settled
    refine Program.wp_mono ends fun _ last located => ?_
    rw [located]
    exact settled

end

/-! ## Examples -/

def Job.dependent : Job := { Job.plain with dependencies := ["d"] }

/-- A worker has just claimed the job; its dependency has no row. -/
def Stores.claimed : Stores :=
  { Stores.empty with redis := { Redis.empty with
      processing := Function.update (fun _ => none) "j" (some Job.dependent.marshal)
      lock := Function.update (fun _ => false) "j" true } }

theorem claimed_located : Located "j" .claimed Stores.claimed := by
  show Stores.claimed.redis.whereabouts "j" = Whereabouts.claimed
  decide +kernel

/-- The check of the dependent job returns what the query for its dependency does. -/
theorem dependent_gated (scenario : Scenario) :
    (Processor.wired.canRun .dependent).wp perform scenario.chooses
      (fun outcome _ => outcome = if scenario.statusesFail then
        .error (unavailable.toGo.wrap "check dep statuses for job j") else .ok true)
      Stores.claimed := by
  intro env chosen
  have fails : env.fails = scenario.statusesFail := chosen
  cases query : scenario.statusesFail with
  | true =>
    rw [query] at fails
    simp only [perform, fails, failed?]
    rfl
  | false =>
    rw [query] at fails
    simp only [perform, fails, performStore]
    show (Except.ok ((Stores.claimed.jobs.depStatuses ["d"]).all fun entry =>
      decide (entry.2 = .completed)) : Except GoError Bool) = .ok true
    rfl

/-- The handler of the job returns nil. -/
theorem process_settles_once :
    (Processor.wired.process .dependent).wp perform (Scenario.mk false true .returnedNil none).chooses
      (fun _ last => Settled ⟨false, true, .returnedNil, none⟩ .wired .dependent (.ok true)
        (last.redis.whereabouts "j")) Stores.claimed :=
  (process_settles claimed_located (dependent_gated ⟨false, true, .returnedNil, none⟩)).mpr rfl

/-- The query for the dependency fails: the claim is released and the record is gone. -/
theorem process_drops_record : ∃ error,
    (Processor.wired.canRun .dependent).wp perform (Scenario.mk true true .returnedNil none).chooses
      (fun outcome _ => outcome = .error error) Stores.claimed ∧
    ¬ (Processor.wired.process .dependent).wp perform
      (Scenario.mk true true .returnedNil none).chooses
      (fun _ last => Settled ⟨true, true, .returnedNil, none⟩ .wired .dependent (.error error)
        (last.redis.whereabouts "j")) Stores.claimed := by
  have gated := dependent_gated ⟨true, true, .returnedNil, none⟩
  refine ⟨_, gated, fun settles => ?_⟩
  have ends := process_ends claimed_located gated
  obtain ⟨_, last, settled, located⟩ :=
    Program.wp_ends (Scenario.chooses_some _) (Program.wp_and settles ends)
  have places : last.redis.whereabouts "j" = Whereabouts.claimed.released := located
  rw [places] at settled
  have one : 0 = 1 := settled.one
  cases one

end Taskfire
