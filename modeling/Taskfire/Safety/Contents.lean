import Taskfire.Lifecycle.Handling
import Taskfire.Library.Machine
import Taskfire.Model.Scheduler
import Taskfire.Safety.Runs

/-!
# What a record says

One job from its creation on: the threads that work for it, the drains of the delayed set, and
whatever else uses the stores without touching the job's records.  Every copy of the record says what
was given at creation, and counts the failed executions in an `int` of Go.
-/

namespace Taskfire

open Taskfire.Library

/-! ## Creation -/

/-- An absent list of dependencies counts as empty. -/
def EnqueuePayload.content (payload : EnqueuePayload) : Content where
  id := payload.id
  jobType := payload.jobType
  payload := payload.payload
  priority := payload.priority
  maxRetries := payload.maxRetries
  createdAt := payload.createdAt
  dependencies := payload.dependencies.getD []
  retryCount := payload.retryCount

/-- The ways to put a new job in the queue: the worker's encoder and that of the API, each for a lane
and for the delayed set. -/
inductive Creation where
  | enqueue (job : Job)
  | scheduleDelayed (job : Job) (scheduledAt : Time)
  | enqueueJob (payload : EnqueuePayload)
  | enqueueDelayed (payload : EnqueuePayload) (scheduledAt : Time)

namespace Creation

def content : Creation → Content
  | .enqueue job | .scheduleDelayed job _ => job.content
  | .enqueueJob payload | .enqueueDelayed payload _ => payload.content

def program : Creation → Prog Unit
  | .enqueue job => do
    let _ ← Taskfire.enqueue job
    pure ()
  | .scheduleDelayed job scheduledAt => do
    let _ ← Scheduler.scheduleDelayed job scheduledAt
    pure ()
  | .enqueueJob payload => do
    let _ ← Api.enqueueJob payload
    pure ()
  | .enqueueDelayed payload scheduledAt => do
    let _ ← Api.enqueueDelayed payload scheduledAt
    pure ()

end Creation

/-! ## The machine -/

/-- A handler returned an error or panicked, or there was none for the job's type. -/
def Call.failsIn : (c : Call) → c.Reply → Bool
  | .findHandler _, found => !found
  | .awaitHandler _, outcome => outcome ≠ .returnedNil
  | _, _ => false

/-- The stores, and how often an execution of the job has failed. -/
structure Watched where
  stores : Stores
  failures : Nat

inductive Passage where
  | create (creation : Creation)
  | cycle

/-- What happens besides the calls of the job's threads. -/
inductive Meanwhile where
  | drain (env : Env) (now : Time) (maxBatch : Nat)
  | others (stores : Stores)

namespace Handling

/-- Nothing is in hand. -/
def idle : Handling where
  place := .nowhere
  record := none
  locked := false
  executions := 0
  failures := 0
  passed := none
  smooth := true

/-- A thread has the first record of a job to put somewhere. -/
def creating (content : Content) : Handling := { idle with record := some content }

end Handling

/-- The threads of one job.  Each keeps in its session what it has in hand. -/
def cycles (proc : Processor) :
    Machine Call Call.Reply Watched Env Handling Passage Meanwhile Unit where
  perform := fun env watched c =>
    let (reply, stores) := perform env watched.stores c
    (reply, ⟨stores, watched.failures + if c.failsIn reply then 1 else 0⟩)
  advance := Handling.advance
  start
    | .create creation => (.creating creation.content, creation.program)
    | .cycle => (.idle, proc.fetchAndProcess)
  tick
    | .drain env now maxBatch, watched =>
      { watched with stores := (perform env watched.stores (.drainDelayed now.unixSeconds maxBatch)).2 }
    | .others stores, watched => { watched with stores }
  rest := .idle
  stopped := ()

abbrev CycleState := State Call Call.Reply Watched Handling Unit

/-- One thread is about to create the job. -/
def creating (proc : Processor) (creation : Creation) (thread : Nat) (stores : Stores) : CycleState :=
  ((cycles proc).initial ⟨stores, 0⟩).put thread ((cycles proc).started (.create creation))

/-! ## What a call does to what is in hand -/

namespace Handling

variable {id : JobId} {handling : Handling} {c : Call}

/-- The turns a thread may take: it writes the record it has in hand, it claims one, its execution
fails, or nothing happens to the record. -/
theorem turns (permitted : handling.permits id c) (reply : c.Reply) :
    (c.failsIn reply = false ∧ ∃ content place, handling.Holds content ∧ place ≠ .nowhere ∧
      (∀ member, place.copy = some member → member.content? = some content) ∧
      ∀ current : Handling, (current.advance c reply).place = place) ∨
    (c.failsIn reply = false ∧ ∃ member, c.claimed reply = some member ∧
      ∀ current : Handling, (current.advance c reply).place = .nowhere ∧
        (current.advance c reply).record = member.content?) ∨
    (c.failsIn reply = true ∧ (∃ content, handling.Holds content) ∧
      ∀ current : Handling, (current.advance c reply).place = current.place ∧
        (current.advance c reply).record = current.record.map fun content => content.failed 1) ∨
    (c.failsIn reply = false ∧ ∀ current : Handling,
      (current.advance c reply).place = current.place ∧
        (current.advance c reply).record = current.record) := by
  cases c with
  | command command =>
    cases reply with
    | error error => cases command <;> exact .inr (.inr (.inr ⟨rfl, fun _ => ⟨rfl, rfl⟩⟩))
    | ok done =>
      cases command with
      | zadd key score member =>
        obtain ⟨content, holds, -, decoded⟩ := permitted
        refine .inl ⟨rfl, content, .of key member, holds, ?_, ?_, fun _ => rfl⟩
        · cases key <;> simp [Place.of]
        · intro other copied
          cases key <;> cases copied <;> exact decoded
      | lpushDone member =>
        obtain ⟨content, holds, -, decoded⟩ := permitted
        refine .inl ⟨rfl, content, .done member, holds, by simp, ?_, fun _ => rfl⟩
        intro other copied
        cases copied
      | _ => exact .inr (.inr (.inr ⟨rfl, fun _ => ⟨rfl, rfl⟩⟩))
  | claim =>
    cases reply with
    | error error => exact .inr (.inr (.inr ⟨rfl, fun _ => ⟨rfl, rfl⟩⟩))
    | ok found =>
      cases found with
      | none => exact .inr (.inr (.inr ⟨rfl, fun _ => ⟨rfl, rfl⟩⟩))
      | some member => exact .inr (.inl ⟨rfl, member, rfl, fun _ => ⟨rfl, rfl⟩⟩)
  | findHandler job =>
    cases reply with
    | false => exact .inr (.inr (.inl ⟨rfl, permitted.1, fun _ => ⟨rfl, rfl⟩⟩))
    | true => exact .inr (.inr (.inr ⟨rfl, fun _ => ⟨rfl, rfl⟩⟩))
  | awaitHandler job =>
    cases reply with
    | returnedNil => exact .inr (.inr (.inr ⟨rfl, fun _ => ⟨rfl, rfl⟩⟩))
    | returned | panicked => exact .inr (.inr (.inl ⟨rfl, permitted.1, fun _ => ⟨rfl, rfl⟩⟩))
  | backoff => cases reply <;> exact .inr (.inr (.inr ⟨rfl, fun _ => ⟨rfl, rfl⟩⟩))
  | _ => exact .inr (.inr (.inr ⟨rfl, fun _ => ⟨rfl, rfl⟩⟩))

/-- The protocol may as well follow the place of the record when it is nowhere. -/
theorem permits_place {place : Place} (permitted : handling.permits id c)
    (same : ∀ content, handling.Holds content → place = .nowhere) :
    Handling.permits id { handling with place } c := by
  have holds {content : Content} (held : handling.Holds content) :
      Handling.Holds { handling with place } content := ⟨same content held, held.record⟩
  cases c with
  | command command =>
    cases command with
    | zadd | lpushDone =>
      obtain ⟨content, held, rest⟩ := permitted
      exact ⟨content, holds held, rest⟩
    | _ => exact permitted
  | findHandler | startHandler | awaitHandler =>
    obtain ⟨held, own⟩ := permitted
    obtain ⟨content, held⟩ := held
    exact ⟨⟨content, holds held⟩, own⟩
  | _ => exact permitted

end Handling

/-! ## The only record -/

/-- The record is in the place or in the hands of one thread, and says what it should. -/
structure Carries (content : Content) (place : Place) (state : CycleState) : Prop where
  lies : Lies content.id place state.store.stores.redis
  copy : ∀ member, place.copy = some member →
    member.content? = some (content.failed state.store.failures)
  held : ∀ thread current, (state.threads thread).session.Holds current →
    place = .nowhere ∧ current = content.failed state.store.failures
  alone : ∀ thread other current found, (state.threads thread).session.Holds current →
    (state.threads other).session.Holds found → other = thread

variable {proc : Processor} {content : Content} {place : Place} {state state' : CycleState}

/-- A thread that holds nothing takes the place of another. -/
theorem Carries.put (carries : Carries content place state) (thread : Nat)
    {fresh : Thread Call Call.Reply Handling Unit}
    (empty : ∀ current, ¬fresh.session.Holds current) :
    Carries content place (state.put thread fresh) := by
  have older {other : Nat} {current : Content}
      (holds : ((state.put thread fresh).threads other).session.Holds current) :
      (state.threads other).session.Holds current := by
    by_cases same : other = thread
    · subst same
      rw [State.put_same] at holds
      exact absurd holds (empty current)
    · rwa [State.put_other _ _ same] at holds
  refine ⟨carries.lies, carries.copy, ?_, ?_⟩
  · intro other current holds
    exact carries.held other current (older holds)
  · intro first second current found holds also
    exact carries.alone first second current found (older holds) (older also)

/-- The record lies where it lay, in other stores. -/
theorem Carries.moved {next : Place} {stores : Stores} (carries : Carries content place state)
    (lies : Lies content.id next stores.redis) (copy : next.copy = place.copy)
    (nowhere : place = .nowhere → next = .nowhere) :
    Carries content next { state with store := { state.store with stores } } := by
  refine ⟨lies, ?_, ?_, carries.alone⟩
  · intro member copied
    exact carries.copy member (copy ▸ copied)
  · intro thread current holds
    obtain ⟨none, same⟩ := carries.held thread current holds
    exact ⟨nowhere none, same⟩

/-- A drain leaves the record where it is or moves it to a lane. -/
theorem Carries.drained (carries : Carries content place state) (env : Env) (now : Time)
    (maxBatch : Nat) : ∃ next, Carries content next
      { state with store := (cycles proc).tick (.drain env now maxBatch) state.store } := by
  obtain ⟨_, _, failing, performed⟩ | performed :=
    perform_cases env state.store.stores (.drainDelayed now.unixSeconds maxBatch)
  · refine ⟨place, carries.moved ?_ rfl id⟩
    rw [performed]
    exact carries.lies
  · let redis := state.store.stores.redis
    let after := (redis.drainDelayedScript now.unixSeconds maxBatch env.now.unixMilli).2
    have same : (perform env state.store.stores (.drainDelayed now.unixSeconds maxBatch)).2.redis =
        after := by
      rw [performed]
      rfl
    have promoted : Redis.Promoted redis after :=
      redis.drainDelayedScript_promoted now.unixSeconds maxBatch env.now.unixMilli
    have fewer (p : Member → Bool) : (after.zset .delayed).count p ≤ (redis.zset .delayed).count p :=
      drainItems_putOff env.now.unixMilli p _ 0 redis
    obtain lies | ⟨member, rfl, lies⟩ := carries.lies.promoted promoted fewer
    · refine ⟨place, carries.moved ?_ rfl id⟩
      rw [same]
      exact lies
    · refine ⟨.lane member, carries.moved ?_ rfl fun none => by cases none⟩
      rw [same]
      exact lies

/-- What a thread has in hand moves by its own call, and by no other. -/
theorem Carries.called {thread : Nat} {env : Env} {c : Call} {next : c.Reply → Prog Unit}
    (carries : Carries content place state)
    (permitted : (state.threads thread).session.permits content.id c)
    (own : Own content.id c (perform env state.store.stores c).1) :
    ∃ place, Carries content place ((cycles proc).executed state thread env c next) := by
  let session := (state.threads thread).session
  let reply := (perform env state.store.stores c).1
  let followed : Handling := { session with place }
  have nowhere (current : Content) (holds : session.Holds current) : place = .nowhere :=
    (carries.held thread current holds).1
  have allowed : followed.permits content.id c := Handling.permits_place permitted nowhere
  have older {other : Nat} (different : other ≠ thread) :
      ((cycles proc).executed state thread env c next).threads other = state.threads other :=
    Machine.executed_other env c next different
  have mine : (((cycles proc).executed state thread env c next).threads thread).session =
      session.advance c reply := by
    rw [Machine.executed_same]
    rfl
  -- Once a thread has the record in hand, the others have nothing.
  have only (holder : ∃ current, session.Holds current) {other : Nat} {current : Content}
      (holds : (((cycles proc).executed state thread env c next).threads other).session.Holds current) :
      other = thread := by
    by_contra different
    rw [older different] at holds
    obtain ⟨_, held⟩ := holder
    exact different (carries.alone thread other _ current held holds)
  have counted : ((cycles proc).executed state thread env c next).store.failures =
      state.store.failures + if c.failsIn reply then 1 else 0 := rfl
  obtain ⟨⟨member, lane⟩, gone, same⟩ | lies := (Lies.perform carries.lies allowed own).symm
  · -- A record that `cjson` does not read was dropped from its lane, where nobody had it.
    have none (other : Nat) (current : Content) : ¬Handling.Holds
        (((cycles proc).executed state thread env c next).threads other).session current := by
      intro has
      have before : (state.threads other).session.Holds current := by
        by_cases own : other = thread
        · subst own
          rwa [mine, same] at has
        · rwa [older own] at has
      have nowhere := (carries.held other current before).1
      rw [show place = .lane member from lane] at nowhere
      cases nowhere
    refine ⟨.nowhere, gone, ?_, fun other current has => absurd has (none other current),
      fun other _ current _ has => absurd has (none other current)⟩
    intro member copied
    cases copied
  refine ⟨(followed.advance c reply).place, ?_⟩
  obtain ⟨fine, written, target, holds, away, decoded, moved⟩ | ⟨fine, member, claimed, moved⟩ |
    ⟨fails, holder, moved⟩ | ⟨fine, moved⟩ := Handling.turns permitted reply
  · -- The thread gives its record away, and nobody has one.
    have none (other : Nat) (current : Content) : ¬Handling.Holds
        (((cycles proc).executed state thread env c next).threads other).session current := by
      intro has
      cases only ⟨written, holds⟩ has
      rw [mine] at has
      exact away ((moved session).symm.trans has.place)
    refine ⟨lies, ?_, fun other current has => absurd has (none other current),
      fun other _ current _ has => absurd has (none other current)⟩
    intro member copied
    rw [moved followed] at copied
    rw [decoded member copied, (carries.held thread written holds).2, counted, fine]
    rfl
  · -- The record was in a lane, so that nobody had it.
    have before : Lies content.id followed.place state.store.stores.redis := carries.lies
    have lane : place = .lane member := before.claims claimed (own member claimed)
    have mineOnly {other : Nat} {current : Content}
        (has : (((cycles proc).executed state thread env c next).threads other).session.Holds current) :
        other = thread := by
      by_contra different
      rw [older different] at has
      have elsewhere := (carries.held other current has).1
      rw [lane] at elsewhere
      cases elsewhere
    refine ⟨lies, ?_, ?_, fun first second _ _ has also => (mineOnly also).trans (mineOnly has).symm⟩
    · intro other copied
      rw [(moved followed).1] at copied
      cases copied
    · intro other current has
      refine ⟨(moved followed).1, ?_⟩
      cases mineOnly has
      rw [mine] at has
      have reads := (moved session).2.symm.trans has.record
      rw [carries.copy member (by rw [lane]; rfl)] at reads
      rw [← Option.some.inj reads, counted, fine]
      rfl
  · -- The failure is counted in the record in hand.
    obtain ⟨written, holds⟩ := holder
    obtain ⟨none, same⟩ := carries.held thread written holds
    refine ⟨lies, ?_, ?_, fun first second _ _ has also =>
      (only ⟨written, holds⟩ also).trans (only ⟨written, holds⟩ has).symm⟩
    · intro other copied
      rw [(moved followed).1, show followed.place = .nowhere from none] at copied
      cases copied
    · intro other current has
      refine ⟨(moved followed).1.trans none, ?_⟩
      cases only ⟨written, holds⟩ has
      rw [mine] at has
      have failed := (moved session).2.symm.trans has.record
      rw [holds.record] at failed
      rw [← Option.some.inj failed, same, counted, fails]
      exact content.failed_failed state.store.failures 1
  · -- What each thread has in hand stays.
    have before {other : Nat} {current : Content}
        (has : (((cycles proc).executed state thread env c next).threads other).session.Holds current) :
        (state.threads other).session.Holds current := by
      by_cases same : other = thread
      · subst same
        rw [mine] at has
        exact ⟨(moved session).1.symm.trans has.place, (moved session).2.symm.trans has.record⟩
      · rwa [older same] at has
    have uncounted : ((cycles proc).executed state thread env c next).store.failures =
        state.store.failures := by
      rw [counted, fine]
      rfl
    refine ⟨lies, ?_, ?_, fun first second _ _ has also => carries.alone first second _ _ (before has)
      (before also)⟩
    · intro member copied
      rw [(moved followed).1] at copied
      rw [uncounted]
      exact carries.copy member copied
    · intro other current has
      obtain ⟨none, same⟩ := carries.held other current (before has)
      rw [uncounted]
      exact ⟨(moved followed).1.trans none, same⟩

/-! ## Runs -/

/-- The API's record of a job for a later time, without a list of dependencies. -/
def EnqueuePayload.later : EnqueuePayload where
  id := "j"
  jobType := "t"
  payload := "\x7b\x7d"
  priority := priorityHigh
  status := .pending
  maxRetries := 3
  retryCount := 0
  createdAt := 0
  scheduledAt := none
  dependencies := none

end Taskfire
