import Taskfire.Lifecycle.Copies
import Taskfire.Model.Api

/-!
# How a worker handles a record

`Handling` follows one job through the calls of the program that works on it: where its record is,
what the record says, and how its executions ended.  Each function of the processor writes a record
only while no other is left, with the contents of the one that was claimed and one more retry for each
failed execution.  Where everything goes smoothly the outcome of the execution fixes the place.
-/

namespace Taskfire

open Taskfire.Library

/-! ## What a record keeps -/

/-- The fields of a record that no cycle changes, and its retry count. -/
structure Content where
  id : JobId
  jobType : String
  payload : String
  priority : Priority
  maxRetries : Int
  createdAt : Time
  dependencies : List JobId
  retryCount : Int
  deriving DecidableEq

def Job.content (job : Job) : Content where
  id := job.id
  jobType := job.jobType
  payload := job.payload
  priority := job.priority
  maxRetries := job.maxRetries
  createdAt := job.createdAt
  dependencies := job.dependencies
  retryCount := job.retryCount

/-- The content after so many failed executions, each of which adds one to the count. -/
def Content.failed (content : Content) (failures : Nat) : Content :=
  { content with retryCount := (fun count => goInt (count + 1))^[failures] content.retryCount }

theorem Content.failed_failed (content : Content) (first second : Nat) :
    (content.failed first).failed second = content.failed (first + second) := by
  rw [Nat.add_comm]
  simp only [Content.failed, Function.iterate_add_apply]

theorem Content.failed_eq {content : Content} (lower : -2 ^ 63 ≤ content.retryCount)
    (upper : content.retryCount < 2 ^ 63) (failures : Nat) :
    content.failed failures =
      { content with retryCount := goInt (content.retryCount + failures) } := by
  induction failures with
  | zero => simp [failed, goInt_of_fits lower upper]
  | succ failures inductionHypothesis =>
    have count := congrArg Content.retryCount inductionHypothesis
    simp only [failed] at count
    simp only [failed, Function.iterate_succ_apply', count, goInt_add, Int.natCast_succ,
      Int.add_assoc]

/-- The count is exact as long as it fits in an `int`. -/
theorem Content.failed_of_fits {content : Content} {failures : Nat}
    (lower : -2 ^ 63 ≤ content.retryCount) (upper : content.retryCount + failures < 2 ^ 63) :
    content.failed failures = { content with retryCount := content.retryCount + failures } := by
  rw [failed_eq lower (by omega), goInt_of_fits (by omega) upper]

/-- What the worker decodes of a member. -/
def Member.content? (member : Member) : Option Content := (Decoding.unmarshal member).map Job.content

@[simp] theorem content?_marshal (job : Job) : job.marshal.content? = some job.content := by
  rw [Member.content?, toJob_of_marshal]
  rfl

/-! ## The protocol -/

structure Handling where
  place : Place
  /-- What the record in hand says, with the failures since it was claimed. -/
  record : Option Content
  locked : Bool
  /-- How often a handler was started. -/
  executions : Nat
  failures : Nat
  /-- Whether the last execution returned nil, once it has ended. -/
  passed : Option Bool
  /-- The queue has answered, each handler was found, and no wait was cut short. -/
  smooth : Bool

namespace Handling

/-- An execution failed, or there was no handler for it. -/
def fail (handling : Handling) : Handling :=
  { handling with
    record := handling.record.map fun content => content.failed 1
    failures := handling.failures + 1
    passed := some false }

def advance (handling : Handling) : (c : Call) → c.Reply → Handling
  | .claim, .ok (some member) =>
    { handling with place := .nowhere, record := member.content?, locked := true }
  | .command (.publish _), _ => handling
  | .command _, .error _ => { handling with smooth := false }
  | .command (.zadd key _ member), .ok _ => { handling with place := .of key member }
  | .command (.lpushDone member), .ok _ => { handling with place := .done member }
  | .command (.delLock _), .ok _ => { handling with locked := false }
  | .findHandler _, found => if found then handling else { handling.fail with smooth := false }
  | .startHandler _, _ => { handling with executions := handling.executions + 1, passed := none }
  | .awaitHandler _, outcome => match outcome with
    | .returnedNil => { handling with passed := some true }
    | _ => handling.fail
  | .backoff _ _, ended => if ended.isNone then handling else { handling with smooth := false }
  | _, _ => handling

/-- The program has the only record of the job in hand. -/
structure Holds (handling : Handling) (content : Content) : Prop where
  place : handling.place = .nowhere
  record : handling.record = some content

/-- A record of job `id` is written only from the one in hand, and handlers only run meanwhile. -/
def permits (id : JobId) (handling : Handling) : Call → Prop
  | .command (.zadd _ _ member) | .command (.lpushDone member) =>
    ∃ content, handling.Holds content ∧ member.isOf id = true ∧ member.content? = some content
  | .command (.zrem _ _) | .drainDelayed _ _ => False
  | .command (.hdelProcessing other) | .command (.delLock other) => other = id
  | .command (.ltrimDone stop) => stop = doneListCap
  | .findHandler job | .startHandler job | .awaitHandler job =>
    (∃ content, handling.Holds content) ∧ job.id = id
  | _ => True

end Handling

/-- The member that a call of the claim script has handed out. -/
def Call.claimed : (c : Call) → c.Reply → Option Member
  | .claim, .ok found => found
  | _, _ => none

/-- A claim does not take a record of another job. -/
def Own (id : JobId) (c : Call) (reply : c.Reply) : Prop :=
  ∀ member ∈ c.claimed reply, member.isOf id = true

/-- The program keeps to the protocol for job `id`, whatever else is replied. -/
abbrev Handles {α : Type} (id : JobId) (program : Prog α) (final : α → Handling → Prop)
    (handling : Handling) : Prop :=
  program.Follows (Handling.permits id) Handling.advance (Own id) final handling

/-! ## The queue -/

section

variable {handling : Handling} {content : Content}

/-- Apart from the lock, nothing changes but that the queue may fail. -/
def Handling.Freed (handling last : Handling) : Prop :=
  ∃ locked smooth, last = { handling with locked, smooth } ∧
    (smooth = true → handling.smooth = true ∧ locked = false)

theorem nack_handles (job : Job) :
    Handles job.id (nack job) (fun _ last => handling.Freed last) handling := by
  refine ⟨rfl, fun first _ => ⟨rfl, fun second _ => ?_⟩⟩
  cases first <;> cases second
  · exact ⟨_, false, rfl, by simp⟩
  · exact ⟨_, false, rfl, by simp⟩
  · exact ⟨_, false, rfl, by simp⟩
  · exact ⟨_, handling.smooth, rfl, fun smooth => ⟨smooth, rfl⟩⟩

theorem Handling.Holds.freed {last : Handling} (holds : handling.Holds content)
    (freed : handling.Freed last) : last.Holds content := by
  obtain ⟨_, _, rfl, -⟩ := freed
  exact ⟨holds.place, holds.record⟩

/-- What is in hand may be written. -/
theorem Handling.Holds.writes (job : Job) (holds : handling.Holds job.content) :
    ∃ content, handling.Holds content ∧ job.marshal.isOf job.id = true ∧
      job.marshal.content? = some content :=
  ⟨job.content, holds, by simp, content?_marshal job⟩

theorem enqueue_handles (job : Job) (holds : handling.Holds job.content) :
    Handles job.id (enqueue job) (fun error last =>
      (error = none ∧ last = { handling with place := .lane job.marshal }) ∨
        ((∃ cause, error = some cause) ∧ last = { handling with smooth := false })) handling := by
  refine ⟨trivial, fun now _ => ⟨?_, fun reply _ => ?_⟩⟩
  · exact holds.writes job
  · cases reply with
    | error error => exact .inr ⟨⟨_, rfl⟩, rfl⟩
    | ok done => exact .inl ⟨rfl, rfl⟩

/-- If everything has gone smoothly, the claim is released, no execution was added and the record is in
such a place. -/
structure Handling.Settles (place : Place → Prop) (handling last : Handling) : Prop where
  smooth : handling.smooth = true
  unlocked : last.locked = false
  executions : last.executions = handling.executions
  passed : last.passed = handling.passed
  place : place last.place

/-- Some record with the content and the status. -/
def Records (wrap : Member → Place) (status : JobStatus) (content : Content) (place : Place) : Prop :=
  ∃ job : Job, job.content = content ∧ job.status = status ∧ place = wrap job.marshal

theorem ack_handles (job : Job) (holds : handling.Holds job.content) :
    Handles job.id (ack job) (fun _ last => last.smooth = true →
      handling.Settles (· = .done job.marshal) last) handling := by
  refine ⟨rfl, fun first _ => ⟨rfl, fun second _ => ⟨?_, fun third _ => ⟨rfl, fun fourth _ => ?_⟩⟩⟩⟩
  · cases first <;> cases second <;>
      exact Handling.Holds.writes job ⟨holds.place, holds.record⟩
  -- A call that failed has ended what was smooth.
  · cases first <;> cases second <;> cases third <;> cases fourth <;> intro smooth <;>
      first | exact ⟨smooth, rfl, rfl, rfl, rfl⟩ | cases smooth

theorem moveToDLQ_handles (job : Job) (reason : GoError) (holds : handling.Holds job.content) :
    Handles job.id (moveToDLQ job reason) (fun _ last => last.smooth = true →
      handling.Settles (Records .dead .dead job.content) last) handling := by
  refine ⟨trivial, fun now _ => ⟨rfl, fun first _ => ⟨rfl, fun second _ => ⟨?_, fun third _ => ?_⟩⟩⟩⟩
  · cases first <;> cases second <;>
      exact Handling.Holds.writes (job.deadAt now reason) ⟨holds.place, holds.record⟩
  · cases first <;> cases second <;> cases third <;> intro smooth <;>
      first | exact ⟨smooth, rfl, rfl, rfl, job.deadAt now reason, rfl, rfl, rfl⟩ | cases smooth

/-! ## Failed executions -/

theorem sendToDLQ_handles (job : Job) (reason : GoError) (holds : handling.Holds job.content) :
    Handles job.id (Processor.sendToDLQ job reason) (fun _ last => last.smooth = true →
      handling.Settles (Records .dead .dead job.content) last) handling := by
  refine ⟨trivial, fun now _ => ⟨trivial, fun _ _ => ⟨trivial, fun _ _ => ?_⟩⟩⟩
  refine (moveToDLQ_handles { job with status := .dead, failedAt := some now } reason holds).bind ?_
  intro error last settles
  cases error <;> exact settles

theorem retryJob_handles (job : Job) (cause : GoError) (holds : handling.Holds job.content)
    (unlocked : handling.smooth = true → handling.locked = false) :
    Handles job.id (Processor.retryJob job cause) (fun _ last => last.smooth = true →
      handling.Settles (Records .lane .pending job.content) last) handling := by
  let retried : Job := { job with status := .pending, startedAt := none }
  refine ⟨trivial, fun _ _ => ⟨trivial, fun now _ => ⟨trivial, fun _ _ => ?_⟩⟩⟩
  refine (enqueue_handles retried holds).bind ?_
  rintro error last (⟨rfl, rfl⟩ | ⟨⟨cause, rfl⟩, rfl⟩)
  · intro smooth
    exact ⟨smooth, unlocked smooth, rfl, rfl, retried, rfl, rfl, rfl⟩
  · -- The queue has failed once.
    have held : Handling.Holds { handling with smooth := false } retried.content :=
      ⟨holds.place, holds.record⟩
    apply (sendToDLQ_handles retried cause held).mono
    intro _ last settles smooth
    cases (settles smooth).smooth

/-- Where a record goes after a failed execution, by the budget of its type. -/
def AfterFailure (budget : Int) (content : Content) : Place → Prop :=
  if budget ≤ content.retryCount then Records .dead .dead content
  else Records .lane .pending content

theorem handleFailure_handles (proc : Processor) (job : Job) (cause : GoError)
    (holds : handling.Holds (job.content.failed 1)) :
    Handles job.id (proc.handleFailure job cause) (fun _ last => last.smooth = true →
      handling.Settles (AfterFailure (proc.budget job.jobType) (job.content.failed 1)) last)
      handling := by
  let failed : Job := { job with retryCount := goInt (job.retryCount + 1), errorMessage := cause.text }
  refine (nack_handles failed).bind ?_
  intro _ last freed
  have held : last.Holds failed.content := holds.freed freed
  obtain ⟨locked, smooth, rfl, released⟩ := freed
  -- A smooth end was smooth before the claim was released.
  have settles {place : Place → Prop} {end' : Handling}
      (settled : Handling.Settles place { handling with locked, smooth } end') :
      handling.Settles place end' :=
    ⟨(released settled.smooth).1, settled.unlocked, settled.executions, settled.passed, settled.place⟩
  refine ⟨trivial, fun _ _ => ?_⟩
  simp only [Retry.Manager.wait]
  -- The retry manager compares the count that already holds this failure.
  by_cases exhausted : (proc.retrier.configFor job.jobType).maxRetries ≤ goInt (job.retryCount + 1)
  · have reached : proc.budget job.jobType ≤ (job.content.failed 1).retryCount := exhausted
    rw [if_pos exhausted, AfterFailure, if_pos reached]
    apply (sendToDLQ_handles failed Retry.errRetriesExhausted held).mono
    intro _ last settled smooth
    exact settles (settled smooth)
  · have within : ¬proc.budget job.jobType ≤ (job.content.failed 1).retryCount := exhausted
    rw [if_neg exhausted, AfterFailure, if_neg within]
    refine ⟨trivial, fun ended _ => ?_⟩
    cases ended with
    | none =>
      apply (retryJob_handles failed cause held fun smooth => (released smooth).2).mono
      intro _ last settled smooth
      exact settles (settled smooth)
    | some error =>
      have cut : Handling.Holds { handling with locked, smooth := false } failed.content :=
        ⟨holds.place, holds.record⟩
      apply (sendToDLQ_handles failed error cut).mono
      intro _ last settled smooth
      cases (settled smooth).smooth

/-! ## Executions -/

/-- If everything has gone smoothly, one execution was added and the record is where its outcome calls
for. -/
structure Handling.Concludes (budget : Int) (content : Content) (handling last : Handling) : Prop where
  smooth : handling.smooth = true
  unlocked : last.locked = false
  executions : last.executions = handling.executions + 1
  outcome : (last.passed = some true ∧ Records .done .completed content last.place) ∨
    (last.passed = some false ∧ AfterFailure budget (content.failed 1) last.place)

theorem complete_handles (job : Job) (holds : handling.Holds job.content) :
    Handles job.id (Processor.complete job) (fun _ last => last.smooth = true →
      handling.Settles (Records .done .completed job.content) last) handling := by
  refine ⟨trivial, fun completed _ => ⟨trivial, fun _ _ => ⟨trivial, fun _ _ =>
    ⟨trivial, fun _ _ => ?_⟩⟩⟩⟩
  let done : Job := { job with status := .completed, completedAt := some completed }
  apply (ack_handles done holds).mono
  intro _ last settled smooth
  obtain ⟨before, unlocked, executions, passed, place⟩ := settled smooth
  exact ⟨before, unlocked, executions, passed, done, rfl, rfl, place⟩

theorem runHandler_handles (proc : Processor) (job : Job) (holds : handling.Holds job.content) :
    Handles job.id (proc.runHandler job) (fun _ last => last.smooth = true →
      handling.Concludes (proc.budget job.jobType) job.content last) handling := by
  have executing : (∃ content, handling.Holds content) ∧ job.id = job.id := ⟨⟨_, holds⟩, rfl⟩
  have failing : handling.record.map (fun content => content.failed 1) = some (job.content.failed 1) := by
    rw [holds.record]
    rfl
  let begun : Handling := { handling with executions := handling.executions + 1, passed := none }
  have started : (∃ content, begun.Holds content) ∧ job.id = job.id :=
    ⟨⟨_, holds.place, holds.record⟩, rfl⟩
  refine ⟨executing, fun found _ => ?_⟩
  cases found with
  | false =>
    -- Without a handler the failure is counted, and the run is no longer smooth.
    have held : Handling.Holds { handling.fail with smooth := false } (job.content.failed 1) :=
      ⟨holds.place, failing⟩
    refine ⟨trivial, fun _ _ => (handleFailure_handles proc job _ held).mono ?_⟩
    intro _ last settled smooth
    cases (settled smooth).smooth
  | true =>
    refine ⟨executing, fun _ _ => ⟨started, fun outcome _ => ?_⟩⟩
    -- A returned error and a panic take the same way from here.
    have failed (cause : GoError) : Handles job.id (do
        invoke (.count (.jobsFailed job.jobType (failureReason cause)))
        proc.handleFailure job cause) (fun _ last => last.smooth = true →
          handling.Concludes (proc.budget job.jobType) job.content last) begun.fail := by
      have held : begun.fail.Holds (job.content.failed 1) := ⟨holds.place, failing⟩
      refine ⟨trivial, fun _ _ => (handleFailure_handles proc job cause held).mono ?_⟩
      intro _ last settled smooth
      obtain ⟨before, unlocked, executions, passed, place⟩ := settled smooth
      exact ⟨before, unlocked, executions, .inr ⟨passed, place⟩⟩
    cases outcome with
    | returnedNil =>
      have held : Handling.Holds { begun with passed := some true } job.content :=
        ⟨holds.place, holds.record⟩
      apply (complete_handles job held).mono
      intro _ last settled smooth
      obtain ⟨before, unlocked, executions, passed, place⟩ := settled smooth
      exact ⟨before, unlocked, executions, .inl ⟨passed, place⟩⟩
    | returned error => exact failed error
    | panicked value => exact failed ⟨"handler panic: " ++ value, none⟩

theorem execute_handles (proc : Processor) (job : Job) (holds : handling.Holds job.content) :
    Handles job.id (proc.execute job) (fun _ last => last.smooth = true →
      handling.Concludes (proc.budget job.jobType) job.content last) handling := by
  refine ⟨trivial, fun now _ => ⟨trivial, fun _ _ => ⟨trivial, fun _ _ => ?_⟩⟩⟩
  exact runHandler_handles proc { job with status := .active, startedAt := some now } holds

/-! ## Whole cycles -/

theorem id_of_unmarshal {id : JobId} {member : Member} {job : Job} (own : member.isOf id = true)
    (decoded : Decoding.unmarshal member = some job) : job.id = id := by
  cases member with
  | record json =>
    cases decoded
    exact Option.some.inj (Member.isOf_iff.mp own)
  | text content => cases decoded

end

/-! ## What the calls do to the stores -/

section

variable {id : JobId} {handling : Handling} {stores : Stores} {env : Env} {c : Call}

theorem claim_reply (env : Env) (stores : Stores) (fine : env.fails = false) :
    perform env stores .claim = (Stores.claimReply stores.redis.claimScript.1,
      { stores with redis := stores.redis.claimScript.2 }) := by
  simp only [perform, fine, performStore]

theorem perform_claim_cases (env : Env) (stores : Stores) :
    (∃ after, (perform env stores .claim).2 = { stores with redis := after } ∧
      Call.claimed .claim (perform env stores .claim).1 = none ∧
      Redis.Unclaimed stores.redis after ∧ after.zset .delayed = stores.redis.zset .delayed) ∨
    ∃ member other after, (perform env stores .claim).2 = { stores with redis := after } ∧
      (perform env stores .claim).1 = .ok (some member) ∧
      Redis.Claimed stores.redis after member other ∧
      after.zset .delayed = stores.redis.zset .delayed := by
  have delayed : stores.redis.claimScript.2.zset .delayed = stores.redis.zset .delayed :=
    Redis.claimScript_others stores.redis (by simp)
  cases fails : env.fails with
  | true =>
    exact .inl ⟨stores.redis, by simp [perform, fails, failed?],
      by simp [perform, fails, failed?, Call.claimed], .refl _, rfl⟩
  | false =>
    obtain ⟨after, script, unclaimed⟩ | ⟨member, other, after, script, claimed⟩ :=
      stores.redis.claimScript_cases <;> rw [script] at delayed
    · exact .inl ⟨after, by rw [claim_reply env stores fails, script],
        by rw [claim_reply env stores fails, script]; rfl, unclaimed, delayed⟩
    · exact .inr ⟨member, other, after, by rw [claim_reply env stores fails, script],
        by rw [claim_reply env stores fails, script]; rfl, claimed, delayed⟩

theorem advance_place_leaves (leaves : c.leavesRedis = true) (reply : c.Reply) :
    (handling.advance c reply).place = handling.place := by
  cases c with
  | command command =>
    cases command with
    | publish => rfl
    | _ => cases leaves
  | claim | drainDelayed => cases leaves
  | findHandler => cases reply <;> rfl
  | awaitHandler => cases reply <;> rfl
  | backoff => cases reply <;> rfl
  | _ => rfl

/-- A command that failed has moved nothing. -/
theorem advance_place_error {command : Command} (error : StoreError) :
    (handling.advance (.command command) (.error error)).place = handling.place := by
  cases command <;> rfl

theorem lies_command {command : Command} (lies : Lies id handling.place stores.redis)
    (permitted : handling.permits id (.command command)) :
    Lies id (handling.advance (.command command) (.ok ())).place
      (stores.applyCommand command).redis := by
  cases command with
  | zadd key score member =>
    obtain ⟨_, holds, -⟩ := permitted
    rw [holds.place] at lies
    exact lies.zadd key score member
  | lpushDone member =>
    obtain ⟨_, holds, -⟩ := permitted
    rw [holds.place] at lies
    exact ⟨lies.waiting, lies.putOff, lies.letters⟩
  | zrem => cases permitted
  | ltrimDone | hdelProcessing | delLock | publish => exact ⟨lies.waiting, lies.putOff, lies.letters⟩

/-- The place that the protocol follows is that of the record in the stores, unless a claim has
dropped the record. -/
theorem Lies.perform (lies : Lies id handling.place stores.redis) (permitted : handling.permits id c)
    (own : Own id c (Taskfire.perform env stores c).1) :
    Lies id (handling.advance c (Taskfire.perform env stores c).1).place
      (Taskfire.perform env stores c).2.redis ∨
    (∃ member, handling.place = .lane member) ∧
      Lies id .nowhere (Taskfire.perform env stores c).2.redis ∧
      ∀ current : Handling, current.advance c (Taskfire.perform env stores c).1 = current := by
  by_cases leaves : c.leavesRedis = true
  · rw [advance_place_leaves leaves, perform_leavesRedis env stores leaves]
    exact .inl lies
  · cases c with
    | command command =>
      obtain ⟨reply, -, failing, performed⟩ | performed := perform_cases env stores (.command command)
      · rw [performed]
        cases failing
        rw [advance_place_error]
        exact .inl lies
      · rw [performed]
        exact .inl (lies_command lies permitted)
    | claim =>
      obtain ⟨after, moved, none, unclaimed, delayed⟩ | ⟨member, other, after, moved, reply, claimed,
        delayed⟩ := perform_claim_cases env stores
      · rw [moved]
        have same (current : Handling) :
            current.advance .claim (Taskfire.perform env stores .claim).1 = current := by
          cases replied : (Taskfire.perform env stores .claim).1 with
          | error error => rfl
          | ok found =>
            rw [replied] at none
            cases none
            rfl
        rw [same]
        obtain stays | ⟨lane, gone⟩ := lies.unclaimed unclaimed delayed
        · exact .inl stays
        · exact .inr ⟨lane, gone, same⟩
      · rw [reply] at own
        have hasId := Member.isOf_iff.mp (own member rfl)
        rw [claimed.hasId] at hasId
        cases hasId
        rw [moved, reply]
        exact .inl (lies.claimed claimed delayed).2
    | drainDelayed => cases permitted
    | _ => exact absurd rfl leaves

/-- A record of the job is only claimed from the lane where it lies. -/
theorem Lies.claims (lies : Lies id handling.place stores.redis) {member : Member}
    (claimed : c.claimed (Taskfire.perform env stores c).1 = some member)
    (own : member.isOf id = true) : handling.place = .lane member := by
  cases c with
  | claim =>
    obtain ⟨after, -, none, -⟩ | ⟨found, other, after, -, reply, taken, delayed⟩ :=
      perform_claim_cases env stores
    · rw [none] at claimed
      cases claimed
    · rw [reply] at claimed
      cases claimed
      have hasId := Member.isOf_iff.mp own
      rw [taken.hasId] at hasId
      cases hasId
      exact (lies.claimed taken delayed).1
  | _ => cases claimed

end

end Taskfire
