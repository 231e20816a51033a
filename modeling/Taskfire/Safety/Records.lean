import Taskfire.Safety.Runs

/-!
# Records survive crashes

The processing hash is what is left of a claimed record when a worker crashes, and the first command
of every release deletes it.  A release that comes after the record is useless (`Ack`) or already
back (the hand-back of a fetcher) loses nothing; every other release opens a gap in which only the
worker's memory has the record.
-/

namespace Taskfire

open Taskfire.Library

namespace Life

/-- The thread has put its claimed record back and not yet released the claim. -/
def handingBack (life : Life) : Prop :=
  ∃ thread role, life.roles thread = some role ∧ role.stage = .requeued

structure Recorded (life : Life) : Prop where
  somewhere : life.enqueued = true → life.cancelled = false → life.succeeded = false →
    0 < life.waiting ∨ life.listed = true ∨ 0 < life.letters
  back : life.handingBack → life.cancelled = false → 0 < life.waiting
  cancelled : ∀ thread role, life.roles thread = some role → role.stage = .cancelled →
    life.cancelled = true

/-- The processing entry is only deleted after a success or by a thread that hands its record back,
and nobody claims that record before it is through. -/
structure ReleasesLate (life : Life) (label : Label) : Prop where
  unlists : ∀ thread role, label = .act thread .unlists → life.roles thread = some role →
    life.succeeded = true ∨ role.stage = .requeued
  claims : ∀ thread, label = .act thread .claims → ¬ life.handingBack

variable {before after : Life} {d : Discipline} {label : Label} {thread : Nat}

/-- A step that takes no record away and sends no thread to a new stage that matters here. -/
theorem Recorded.turn {next : Option Role} (recorded : before.Recorded)
    (roles : after.roles = (before.put thread next).roles)
    (back : ∀ held, next = some held → held.stage = .requeued → before.handingBack)
    (stage : ∀ held, next = some held → held.stage = .cancelled → before.cancelled = true)
    (places : (0 < before.waiting → 0 < after.waiting) ∧
      (before.listed = true → after.listed = true) ∧ (0 < before.letters → 0 < after.letters))
    (ledger : after.enqueued = before.enqueued ∧ after.cancelled = before.cancelled ∧
      (before.succeeded = true → after.succeeded = true)) : after.Recorded := by
  obtain ⟨waiting, listed, letters⟩ := places
  obtain ⟨enqueued, cancelled, succeeded⟩ := ledger
  constructor
  · intro entered living unfinished
    rw [enqueued] at entered
    rw [cancelled] at living
    -- A success is never taken back.
    have unfinished' : before.succeeded = false := by
      cases was : before.succeeded with
      | false => rfl
      | true =>
        rw [succeeded was] at unfinished
        cases unfinished
    obtain waits | lists | dead := recorded.somewhere entered living unfinished'
    · exact .inl (waiting waits)
    · exact .inr (.inl (listed lists))
    · exact .inr (.inr (letters dead))
  · intro ⟨other, held, current, requeued⟩ living
    rw [cancelled] at living
    apply waiting
    apply recorded.back ?_ living
    obtain ⟨rfl, shape⟩ | ⟨_, old⟩ := role_of_turned roles current
    · exact back held shape requeued
    · exact ⟨other, held, old, requeued⟩
  · intro other held current deleting
    rw [cancelled]
    obtain ⟨rfl, shape⟩ | ⟨_, old⟩ := role_of_turned roles current
    · exact stage held shape deleting
    · exact recorded.cancelled other held old deleting

/-- A thread goes on in the stage it is in. -/
theorem Recorded.keep {role next : Role} (recorded : before.Recorded)
    (current : before.roles thread = some role)
    (roles : after.roles = (before.put thread (some next)).roles) (stage : next.stage = role.stage)
    (places : (0 < before.waiting → 0 < after.waiting) ∧
      (before.listed = true → after.listed = true) ∧ (0 < before.letters → 0 < after.letters))
    (ledger : after.enqueued = before.enqueued ∧ after.cancelled = before.cancelled ∧
      (before.succeeded = true → after.succeeded = true)) : after.Recorded := by
  refine recorded.turn roles ?_ ?_ places ledger
  · exact turns_to fun requeued => ⟨thread, role, current, stage ▸ requeued⟩
  · exact turns_to fun deleting => recorded.cancelled thread role current (stage ▸ deleting)

theorem recorded_step (legible : d.legible) (recorded : before.Recorded) (kept : ReleasesLate before label)
    (step : Step d before label after) : after.Recorded := by
  cases step with
  | enters =>
    refine recorded.turn rfl ?_ ?_ ⟨id, id, id⟩ ⟨rfl, rfl, id⟩
    · exact turns_to fun stage => by cases stage
    · exact turns_to fun stage => by cases stage
  | inserts current | requeues current | marks current | marksNothing current
  | failsToMark current | starts current | fails current | misses current =>
    exact recorded.keep current rfl rfl ⟨id, id, id⟩ ⟨rfl, rfl, id⟩
  | buries current due positive =>
    exact recorded.keep current rfl rfl ⟨id, id, fun _ => positive⟩ ⟨rfl, rfl, id⟩
  | succeeds current => exact recorded.keep current rfl rfl ⟨id, id, id⟩ ⟨rfl, rfl, fun _ => rfl⟩
  | cancels =>
    constructor
    · intro _ living
      cases living
    · intro _ living
      cases living
    · intro _ _ _ _
      rfl
  | @places thread role waiting carried current opened may positive =>
    constructor
    · exact fun _ _ _ => .inl positive
    · exact fun _ _ => positive
    · intro other held shape deleting
      obtain ⟨rfl, same⟩ | ⟨_, old⟩ := role_of_turned rfl shape
      · cases same
        exact recorded.cancelled other role current (putBack_cancelled deleting)
      · exact recorded.cancelled other held old deleting
  | removes current deleting fewer =>
    have gone := recorded.cancelled _ _ current deleting
    constructor
    · intro _ living
      rw [show before.cancelled = false from living] at gone
      cases gone
    · intro _ living
      rw [show before.cancelled = false from living] at gone
      cases gone
    · exact recorded.cancelled
  | promotes fewer positive =>
    constructor
    · intro entered living unfinished
      exact (recorded.somewhere entered living unfinished).imp_left positive
    · exact fun back living => positive (recorded.back back living)
    · exact recorded.cancelled
  | drops blind => exact absurd legible blind
  | @claims thread brief waiting carried gone free lost =>
    constructor
    · exact fun _ _ _ => .inr (.inl rfl)
    · intro ⟨other, held, shape, requeued⟩
      obtain ⟨rfl, same⟩ | ⟨_, old⟩ := role_of_turned rfl shape
      · cases same
        cases requeued
      · exact absurd ⟨other, held, old, requeued⟩ (kept.claims thread rfl)
    · intro other held shape deleting
      obtain ⟨rfl, same⟩ | ⟨_, old⟩ := role_of_turned rfl shape
      · cases same
        cases deleting
      · exact recorded.cancelled other held old deleting
  | @unlists thread role current still held =>
    -- The entry goes; what is left is the success, or the record that was put back.
    constructor
    · intro entered living unfinished
      obtain done | requeued := kept.unlists thread role rfl current
      · rw [show before.succeeded = false from unfinished] at done
        cases done
      · exact .inl (recorded.back ⟨thread, role, current, requeued⟩ living)
    · intro ⟨other, held', shape, requeued⟩ living
      obtain ⟨rfl, same⟩ | ⟨_, old⟩ := role_of_turned rfl shape
      · cases same
        exact absurd requeued unlisted_not_requeued
      · exact recorded.back ⟨other, held', old, requeued⟩ living
    · intro other held' shape deleting
      obtain ⟨rfl, same⟩ | ⟨_, old⟩ := role_of_turned rfl shape
      · cases same
        exact recorded.cancelled other role current (unlisted_cancelled deleting)
      · exact recorded.cancelled other held' old deleting
  | @failsToUnlist thread role current still held =>
    refine recorded.turn rfl ?_ ?_ ⟨id, id, id⟩ ⟨rfl, rfl, id⟩
    · exact turns_to fun requeued => absurd requeued unlisted_not_requeued
    · exact turns_to fun deleting => recorded.cancelled thread role current (unlisted_cancelled deleting)
  | unlocks current | failsToUnlock current =>
    refine recorded.turn rfl ?_ ?_ ⟨id, id, id⟩ ⟨rfl, rfl, id⟩
    · exact turns_to fun stage => by cases stage
    · exact turns_to fun stage => by cases stage
  | other => exact recorded
  | leaves | crashes =>
    exact recorded.turn rfl turns_away turns_away ⟨id, id, id⟩ ⟨rfl, rfl, id⟩
  | expires => exact ⟨recorded.somewhere, recorded.back, recorded.cancelled⟩

end Life

/-! ## Every run -/

/-- Any call may fail, and any entry of the program may start. -/
def Discipline.free (proc : Processor) (legible : Prop) : Discipline where
  strict := False
  bare := False
  settles := False
  rooted := False
  legible := legible
  budget := proc.budget

/-- Some thread has put its claimed record back and not yet released the claim. -/
def handingBack (id : JobId) (state : SystemState) : Prop :=
  ∃ thread, ¬ (state.threads thread).Finished ∧ (state.threads thread).session.on id ∧
    (state.threads thread).session.stage = .requeued

/-- The processing entry is only deleted once a handler has returned nil, or after its record was put
back; nobody claims a record that is being handed back, or meets one that `cjson` does not read. -/
structure ReleasesLate (id : JobId) (state : SystemState) (action : SystemAction) : Prop where
  starting : Starting Entry.isTaskfire action
  legible : Legibly id state action
  unlists : ∀ thread, Does id state action thread .unlists →
    state.store.ledger.succeeded id = true ∨ (state.threads thread).session.stage = .requeued
  claims : ∀ thread, Does id state action thread .claims → ¬ handingBack id state

section

variable {proc : Processor} {id : JobId} {last : SystemState}

theorem ReleasesLate.life {state : SystemState} {action : SystemAction} {label : Label}
    (kept : ReleasesLate id state action) (shows : Shows id state action label) :
    Life.ReleasesLate (life id state) label := by
  constructor
  · intro thread role unlists current
    subst unlists
    obtain ⟨_, _, rfl⟩ := roleOf_cases current
    exact kept.unlists thread shows
  · intro thread claims ⟨other, role, current, requeued⟩
    subst claims
    obtain ⟨unfinished, on, rfl⟩ := roleOf_cases current
    exact kept.claims thread shows ⟨other, unfinished, on, requeued⟩

theorem recorded_reach (run : (taskfire proc).Run (ReleasesLate id) (beginning proc) last) :
    (life id last).Recorded := by
  obtain ⟨_, reach⟩ := life_reach run (conforming_initial (.free proc True) proc _)
    (fun state thread entry runs =>
      Entry.admissible runs.starting False.elim False.elim False.elim rfl)
    (fun _ _ _ _ => False.elim) (fun _ _ _ runs => runs.legible)
    (fun _ _ _ _ runs shows => runs.life shows)
    (fun _ _ => ⟨fun _ _ => nofun, fun _ => nofun⟩)
  refine reach.invariant Life.Recorded ⟨?_, ?_, ?_⟩ ?_
  · intro entered
    cases entered
  · intro ⟨thread, role, current, _⟩
    rw [beginning_roles] at current
    cases current
  · intro thread role current
    rw [beginning_roles] at current
    cases current
  · intro before label after recorded kept step
    exact Life.recorded_step trivial recorded kept step

/-- If claims are only released that late and `cjson` reads its records, then at every point of every
run, crashes included, an enqueued job that was not cancelled and has not succeeded has a record in
Redis. -/
theorem record_survives (run : (taskfire proc).Run (ReleasesLate id) (beginning proc) last)
    (entered : last.store.ledger.enqueued id = true)
    (living : last.store.ledger.cancelled id = false)
    (unfinished : last.store.ledger.succeeded id = false) :
    0 < last.store.redis.waiting (Member.isOf id) ∨ (last.store.redis.processing id).isSome = true ∨
      0 < last.store.redis.letters (Member.isOf id) :=
  (recorded_reach run).somewhere entered living unfinished

end

/-! ## Examples -/

/-- `ReleasesLate`, computed for a step of threads 0 and 1. -/
def releasesLate (state : SystemState) (action : SystemAction) : Bool :=
  decide (Starting Entry.isTaskfire action ∧ state.store.redis.Legible (Member.isOf "j")) &&
    Below 2 action &&
    match eventOf "j" state action with
    | some (thread, .unlists) => state.store.ledger.succeeded "j" ||
      decide ((state.threads thread).session.stage = .requeued)
    | some (_, .claims) => decide ((state.threads 0).session.stage ≠ .requeued ∧
      (state.threads 1).session.stage ≠ .requeued)
    | _ => true

theorem releasesLate_sound {proc : Processor} {state : SystemState} {action : SystemAction}
    (idle : ∀ thread, 2 ≤ thread → state.threads thread = (taskfire proc).idle)
    (checked : releasesLate state action = true) : ReleasesLate "j" state action := by
  obtain ⟨before, event⟩ := Bool.and_eq_true .. ▸ checked
  obtain ⟨starting, _⟩ := Bool.and_eq_true .. ▸ before
  obtain ⟨starting, readable⟩ := of_decide_eq_true starting
  refine ⟨starting, fun _ _ _ _ => readable, ?_, ?_⟩
  · intro thread does
    simp only [eventOf_of_does does] at event
    obtain done | requeued := Bool.or_eq_true .. ▸ event
    · exact .inl done
    · exact .inr (of_decide_eq_true requeued)
  · intro thread does ⟨other, unfinished, _, requeued⟩
    simp only [eventOf_of_does does] at event
    obtain ⟨zero, one⟩ := of_decide_eq_true event
    match other with
    | 0 => exact zero requeued
    | 1 => exact one requeued
    | other + 2 =>
      rw [idle (other + 2) (by omega)] at requeued
      cases requeued

/-- A fetcher hands the record back and crashes before it has released the claim. -/
theorem record_survives_once : ∃ last : SystemState,
    0 < last.store.redis.waiting (Member.isOf "j") ∨
      (last.store.redis.processing "j").isSome = true ∨
      0 < last.store.redis.letters (Member.isOf "j") := by
  have reached : ∃ last, (taskfire .wired).Run
      (fun state action => releasesLate state action = true) (beginning .wired) last ∧
      decide (last.store.ledger.enqueued "j" = true ∧ last.store.ledger.cancelled "j" = false ∧
        last.store.ledger.succeeded "j" = false) = true :=
    replay_reaches releasesLate (fun _ _ checked => checked)
      (.spawn 0 (.create .plain) :: calls 0 5 (.calm "j") ++
        .spawn 1 .work :: calls 1 5 { Env.calm "j" with delivers := false } ++ [.crash 1])
      _ (by decide +kernel)
  obtain ⟨last, run, checked⟩ := reached
  obtain ⟨entered, living, unfinished⟩ := of_decide_eq_true checked
  have below (state : SystemState) (action : SystemAction)
      (checked : releasesLate state action = true) : Below 2 action = true :=
    (Bool.and_eq_true .. ▸ (Bool.and_eq_true .. ▸ checked).1).2
  have late := run.mono_reached fun state action reached checked =>
    releasesLate_sound (idle_beyond reached below) checked
  exact ⟨last, record_survives late entered living unfinished⟩

/-- A worker crashes after the Nack of a failed attempt, before it puts the record back. -/
theorem record_lost : ∃ (proc : Processor) (last : SystemState),
    (taskfire proc).Run (fun _ action => Starting Entry.isTaskfire action) (beginning proc) last ∧
    last.store.ledger.enqueued "j" = true ∧ last.store.ledger.cancelled "j" = false ∧
    last.store.ledger.succeeded "j" = false ∧
    last.store.redis.waiting (Member.isOf "j") = 0 ∧ last.store.redis.processing "j" = none ∧
    last.store.redis.letters (Member.isOf "j") = 0 := by
  have reached : ∃ last, (taskfire .wired).Run (fun _ action => Starting Entry.isTaskfire action)
      (beginning .wired) last ∧
      decide (last.store.ledger.enqueued "j" = true ∧ last.store.ledger.cancelled "j" = false ∧
        last.store.ledger.succeeded "j" = false ∧
        last.store.redis.waiting (Member.isOf "j") = 0 ∧ last.store.redis.processing "j" = none ∧
        last.store.redis.letters (Member.isOf "j") = 0) = true :=
    replay_reaches (fun _ action => decide (Starting Entry.isTaskfire action))
      (fun _ _ checked => of_decide_eq_true checked)
      (.spawn 0 (.create .plain) :: calls 0 5 (.calm "j") ++
        .spawn 1 .work :: calls 1 11 { Env.calm "j" with handler := .returned ⟨"boom", none⟩ } ++
        [.crash 1]) _ (by decide +kernel)
  obtain ⟨last, run, checked⟩ := reached
  exact ⟨.wired, last, run, of_decide_eq_true checked⟩

end Taskfire
