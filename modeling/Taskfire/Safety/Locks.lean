import Taskfire.Safety.Runs

/-!
# Claims and their locks

The lock of a job has no owner: whoever sends the DEL frees it.  A claim is safe as long as every
release belongs to the claim it deletes.  That holds of bare clients, which release each claim once,
and there locks, processing entries and holders correspond exactly.  The worker's failure path
releases twice, in `Nack` and again in `MoveToDLQ`; the second release is harmless only while nobody
else has claimed the job in between.
-/

namespace Taskfire

open Taskfire.Library

/-- The claim is held: its release has not begun. -/
def Stage.holds : Stage → Prop
  | .claimed | .requeued => True
  | _ => False

/-- The claim still has its lock. -/
def Stage.locks : Stage → Prop
  | .claimed | .requeued | .releasing => True
  | _ => False

instance : DecidablePred Stage.locks := fun stage => by
  unfold Stage.locks
  exact stage.casesOn (isFalse id) (isFalse id) (isTrue trivial) (isTrue trivial) (isTrue trivial)
    (isFalse id) (isFalse id)

theorem Stage.locks_of_holds {stage : Stage} (holds : stage.holds) : stage.locks := by
  cases stage with
  | claimed | requeued => exact trivial
  | idle | cancelled | releasing | released | again => exact absurd holds id

theorem Stage.putBack_holds {stage : Stage} : stage.putBack.holds ↔ stage.holds := by
  cases stage <;> simp [Stage.putBack, Stage.holds]

theorem Stage.putBack_locks {stage : Stage} : stage.putBack.locks ↔ stage.locks := by
  cases stage <;> simp [Stage.putBack, Stage.locks]

theorem Stage.unlisted_not_holds (stage : Stage) : ¬ stage.unlisted.holds := by
  cases stage <;> simp [Stage.unlisted, Stage.holds]

namespace Life

def holder (life : Life) (thread : Nat) : Prop :=
  ∃ role, life.roles thread = some role ∧ role.stage.holds

def locker (life : Life) (thread : Nat) : Prop :=
  ∃ role, life.roles thread = some role ∧ role.stage.locks

structure Owned (life : Life) : Prop where
  locked : ∀ thread, life.locker thread → life.locked = true
  listed : ∀ thread, life.holder thread → life.listed = true
  one : ∀ thread other, life.locker thread → life.locker other → thread = other
  running : ∀ thread role, life.roles thread = some role → role.attempt = .running →
    role.stage = .claimed

/-- The second release of a failed attempt meets no claim of another thread. -/
structure ReleasesOwn (life : Life) (label : Label) : Prop where
  unlists : ∀ thread role, label = .act thread .unlists → life.roles thread = some role →
    role.stage = .released → ∀ other, ¬ life.holder other
  unlocks : ∀ thread role, label = .act thread .unlocks → life.roles thread = some role →
    role.stage = .again → ∀ other, ¬ life.locker other

variable {before after : Life} {d : Discipline} {label : Label} {thread : Nat}

theorem holder_locks (holds : before.holder thread) : before.locker thread := by
  obtain ⟨role, current, stage⟩ := holds
  exact ⟨role, current, Stage.locks_of_holds stage⟩

theorem locker_of_put {next : Option Role} {other : Nat}
    (roles : after.roles = (before.put thread next).roles) (locks : after.locker other) :
    (other = thread ∧ ∃ held, next = some held ∧ held.stage.locks) ∨
      (other ≠ thread ∧ before.locker other) :=
  plays_of_turned roles locks

theorem holder_of_put {next : Option Role} {other : Nat}
    (roles : after.roles = (before.put thread next).roles) (holds : after.holder other) :
    (other = thread ∧ ∃ held, next = some held ∧ held.stage.holds) ∨
      (other ≠ thread ∧ before.holder other) :=
  plays_of_turned roles holds

/-- A thread turns to a role that claims no more than the one it had. -/
theorem Owned.turn {next : Option Role} (owned : before.Owned)
    (roles : after.roles = (before.put thread next).roles)
    (locks : ∀ held, next = some held → held.stage.locks → before.locker thread)
    (holds : ∀ held, next = some held → held.stage.holds → before.holder thread)
    (runs : ∀ held, next = some held → held.attempt = .running → held.stage = .claimed)
    (locked : after.locked = before.locked) (listed : after.listed = before.listed) :
    after.Owned := by
  have lockers (other : Nat) (locker : after.locker other) : before.locker other := by
    obtain ⟨rfl, held, shape, stage⟩ | ⟨_, old⟩ := locker_of_put roles locker
    · exact locks held shape stage
    · exact old
  constructor
  · intro other locker
    rw [locked]
    exact owned.locked other (lockers other locker)
  · intro other holder
    rw [listed]
    obtain ⟨rfl, held, shape, stage⟩ | ⟨_, old⟩ := holder_of_put roles holder
    · exact owned.listed _ (holds held shape stage)
    · exact owned.listed _ old
  · intro first second locker locker'
    exact owned.one first second (lockers first locker) (lockers second locker')
  · intro other held current running
    obtain ⟨_, shape⟩ | ⟨_, old⟩ := role_of_turned roles current
    · exact runs held shape running
    · exact owned.running other held old running

/-- A thread goes on in its stage and starts no handler. -/
theorem Owned.keep {role next : Role} (owned : before.Owned)
    (current : before.roles thread = some role)
    (roles : after.roles = (before.put thread (some next)).roles)
    (stage : next.stage = role.stage) (runs : next.attempt = .running → role.attempt = .running)
    (locked : after.locked = before.locked) (listed : after.listed = before.listed) :
    after.Owned := by
  refine owned.turn roles ?_ ?_ ?_ locked listed
  · intro held shape locks
    cases shape
    exact ⟨role, current, stage ▸ locks⟩
  · intro held shape holds
    cases shape
    exact ⟨role, current, stage ▸ holds⟩
  · intro held shape running
    cases shape
    rw [stage]
    exact owned.running thread role current (runs running)

theorem owned_step (strict : d.strict) (owned : before.Owned)
    (kept : ¬ d.bare → ReleasesOwn before label) (expire : label ≠ .expire)
    (step : Step d before label after) : after.Owned := by
  cases step with
  | enters =>
    refine owned.turn rfl ?_ ?_ ?_ rfl rfl
    · exact turns_to fun stage => by cases stage
    · exact turns_to fun stage => by cases stage
    · exact turns_to fun stage => by cases stage
  | inserts current | requeues current | marks current | marksNothing current
  | failsToMark current | buries current =>
    exact owned.keep current rfl rfl id rfl rfl
  | @cancels thread role old new current idle =>
    refine owned.turn rfl ?_ ?_ ?_ rfl rfl
    · exact turns_to fun stage => by cases stage
    · exact turns_to fun stage => by cases stage
    · refine turns_to fun running => ?_
      have claimed := owned.running thread role current running
      rw [idle] at claimed
      cases claimed
  | @places thread role waiting carried current opened may =>
    refine owned.turn rfl ?_ ?_ ?_ rfl rfl
    · exact turns_to fun locks => ⟨role, current, Stage.putBack_locks.mp locks⟩
    · exact turns_to fun holds => ⟨role, current, Stage.putBack_holds.mp holds⟩
    · refine turns_to fun running => ?_
      obtain due | ⟨failed, _⟩ := may
      · rw [show role.attempt = .running from running] at due
        cases due
      · rw [show role.attempt = .running from running] at failed
        cases failed
  | removes | drops | promotes | other => exact ⟨owned.locked, owned.listed, owned.one, owned.running⟩
  | @claims thread brief waiting carried gone free =>
    -- The lock was free, so no thread had it.
    have nobody (other : Nat) : ¬ before.locker other := by
      intro locks
      rw [owned.locked other locks] at free
      cases free
    constructor
    · exact fun _ _ => rfl
    · exact fun _ _ => rfl
    · intro first second locks locks'
      obtain ⟨same, _⟩ | ⟨_, old⟩ := locker_of_put rfl locks
      · obtain ⟨same', _⟩ | ⟨_, old'⟩ := locker_of_put rfl locks'
        · rw [same, same']
        · exact absurd old' (nobody second)
      · exact absurd old (nobody first)
    · intro other held current running
      obtain ⟨_, turned⟩ | ⟨_, old⟩ := role_of_turned rfl current
      · cases turned
        cases running
      · exact owned.running other held old running
  | @unlists thread role current still held =>
    have others (other : Nat) (different : other ≠ thread) : ¬ before.holder other := by
      intro holds
      obtain claimed | requeued | ⟨released, whole⟩ := held
      · exact different (owned.one other thread (holder_locks holds)
          ⟨role, current, by rw [claimed]; trivial⟩)
      · exact different (owned.one other thread (holder_locks holds)
          ⟨role, current, by rw [requeued]; trivial⟩)
      · exact (kept whole).unlists thread role rfl current released other holds
    have locks : role.stage.unlisted.locks → role.stage.locks := by
      obtain claimed | requeued | ⟨released, _⟩ := held
      · simp [claimed, Stage.unlisted, Stage.locks]
      · simp [requeued, Stage.unlisted, Stage.locks]
      · simp [released, Stage.unlisted, Stage.locks]
    constructor
    · intro other locker
      obtain ⟨rfl, _, ⟨⟩, stage⟩ | ⟨_, old⟩ := locker_of_put rfl locker
      · exact owned.locked other ⟨role, current, locks stage⟩
      · exact owned.locked other old
    · intro other holder
      obtain ⟨_, _, ⟨⟩, stage⟩ | ⟨different, old⟩ := holder_of_put rfl holder
      · exact absurd stage (Stage.unlisted_not_holds _)
      · exact absurd old (others other different)
    · intro first second locker locker'
      have was (other : Nat) (locker : ({ before with listed := false }.put thread
          (some { role with stage := role.stage.unlisted })).locker other) : before.locker other := by
        obtain ⟨rfl, _, ⟨⟩, stage⟩ | ⟨_, old⟩ := locker_of_put rfl locker
        · exact ⟨role, current, locks stage⟩
        · exact old
      exact owned.one first second (was first locker) (was second locker')
    · intro other held' shape running
      obtain ⟨_, turned⟩ | ⟨_, old⟩ := role_of_turned rfl shape
      · cases turned
        exact absurd running still
      · exact owned.running other held' old running
  | @unlocks thread role current held =>
    have others (other : Nat) (different : other ≠ thread) : ¬ before.locker other := by
      intro locks
      obtain releasing | ⟨again, whole⟩ := held
      · exact different (owned.one other thread locks
          ⟨role, current, by rw [releasing]; trivial⟩)
      · exact (kept whole).unlocks thread role rfl current again other locks
    have nobody (other : Nat) : ¬ ({ before with locked := false }.put thread
        (some { role with stage := .released })).locker other := by
      intro locker
      obtain ⟨_, _, ⟨⟩, stage⟩ | ⟨different, old⟩ := locker_of_put rfl locker
      · exact stage
      · exact others other different old
    constructor
    · exact fun other locker => absurd locker (nobody other)
    · exact fun other holder => absurd (holder_locks holder) (nobody other)
    · exact fun first _ locker => absurd locker (nobody first)
    · intro other held' shape running
      obtain ⟨_, turned⟩ | ⟨_, old⟩ := role_of_turned rfl shape
      · cases turned
        have claimed := owned.running thread role current running
        rw [claimed] at held
        obtain releasing | ⟨again, _⟩ := held
        · cases releasing
        · cases again
      · exact owned.running other held' old running
  | failsToUnlist current still held lax => exact absurd strict lax
  | failsToUnlock current held lax => exact absurd strict lax
  | @starts thread role current opened tried claimed due =>
    refine owned.turn rfl ?_ ?_ ?_ rfl rfl
    · exact turns_to fun locks => ⟨role, current, locks⟩
    · exact turns_to fun holds => ⟨role, current, holds⟩
    · exact turns_to fun _ => claimed
  | succeeds current | fails current | misses current =>
    exact owned.keep current rfl rfl nofun rfl rfl
  | leaves | crashes =>
    exact owned.turn rfl turns_away turns_away turns_away rfl rfl
  | expires => exact absurd rfl expire

/-! ## The converse for bare clients -/

/-- Every lock and every processing entry has its thread. -/
structure Tended (life : Life) : Prop where
  locked : life.locked = true → ∃ thread, life.locker thread
  listed : life.listed = true → ∃ thread, life.holder thread

/-- A thread turns to a role that claims no less than the one it had. -/
theorem Tended.turn {next : Option Role} (tended : before.Tended)
    (roles : after.roles = (before.put thread next).roles)
    (locks : before.locker thread → ∃ held, next = some held ∧ held.stage.locks)
    (holds : before.holder thread → ∃ held, next = some held ∧ held.stage.holds)
    (locked : after.locked = before.locked) (listed : after.listed = before.listed) :
    after.Tended := by
  constructor
  · intro taken
    rw [locked] at taken
    obtain ⟨other, locker⟩ := tended.locked taken
    exact ⟨other, plays_turned roles locks locker⟩
  · intro entered
    rw [listed] at entered
    obtain ⟨other, holder⟩ := tended.listed entered
    exact ⟨other, plays_turned roles holds holder⟩

theorem Tended.keep {role next : Role} (tended : before.Tended)
    (current : before.roles thread = some role)
    (roles : after.roles = (before.put thread (some next)).roles)
    (locks : role.stage.locks → next.stage.locks) (holds : role.stage.holds → next.stage.holds)
    (locked : after.locked = before.locked) (listed : after.listed = before.listed) :
    after.Tended := by
  refine tended.turn roles ?_ ?_ locked listed
  · intro ⟨held, shape, stage⟩
    rw [current] at shape
    cases shape
    exact ⟨next, rfl, locks stage⟩
  · intro ⟨held, shape, stage⟩
    rw [current] at shape
    cases shape
    exact ⟨next, rfl, holds stage⟩

theorem final_not_locks {role : Role} (final : d.final role) : ¬ role.stage.locks := by
  obtain idle | cancelled | released := final.1
  · rw [idle]
    exact id
  · rw [cancelled]
    exact id
  · rw [released]
    exact id

theorem tended_step (strict : d.strict) (bare : d.bare) (tended : before.Tended)
    (kept : ∀ thread, label ≠ .crash thread) (expire : label ≠ .expire)
    (step : Step d before label after) : after.Tended := by
  cases step with
  | enters gone =>
    refine tended.turn rfl ?_ ?_ rfl rfl
    · intro ⟨held, shape, _⟩
      rw [gone] at shape
      cases shape
    · intro ⟨held, shape, _⟩
      rw [gone] at shape
      cases shape
  | inserts current | requeues current | marks current | marksNothing current
  | failsToMark current | buries current | starts current | succeeds current | fails current
  | misses current => exact tended.keep current rfl id id rfl rfl
  | cancels current idle =>
    refine tended.keep current rfl ?_ ?_ rfl rfl
    · rw [idle]
      exact False.elim
    · rw [idle]
      exact False.elim
  | places current =>
    exact tended.keep current rfl Stage.putBack_locks.mpr Stage.putBack_holds.mpr rfl rfl
  | removes | drops | promotes | other => exact ⟨tended.locked, tended.listed⟩
  | @claims thread =>
    exact ⟨fun _ => ⟨thread, _, put_same .., trivial⟩, fun _ => ⟨thread, _, put_same .., trivial⟩⟩
  | @unlists thread role current still held =>
    -- The entry goes first, and the thread keeps the lock until its next call.
    have claimed : role.stage.unlisted = .releasing := by
      obtain claimed | requeued | ⟨_, whole⟩ := held
      · rw [claimed]
        rfl
      · rw [requeued]
        rfl
      · exact absurd bare whole
    refine ⟨fun _ => ⟨thread, _, put_same .., ?_⟩, nofun⟩
    show role.stage.unlisted.locks
    rw [claimed]
    exact trivial
  | @unlocks thread role current held =>
    refine ⟨nofun, fun entered => ?_⟩
    -- Whoever is listed is another thread: this one had taken its entry away.
    obtain ⟨other, holder⟩ := tended.listed entered
    refine ⟨other, plays_turned rfl ?_ holder⟩
    intro holds
    obtain ⟨held', shape, stage⟩ := holds
    rw [current] at shape
    cases shape
    obtain releasing | ⟨_, whole⟩ := held
    · rw [releasing] at stage
      exact absurd stage id
    · exact absurd bare whole
  | failsToUnlist current still held lax => exact absurd strict lax
  | failsToUnlock current held lax => exact absurd strict lax
  | leaves current final =>
    refine tended.turn rfl ?_ ?_ rfl rfl
    · intro ⟨held, shape, stage⟩
      rw [current] at shape
      cases shape
      exact absurd stage (final_not_locks final)
    · intro ⟨held, shape, stage⟩
      rw [current] at shape
      cases shape
      exact absurd (Stage.locks_of_holds stage) (final_not_locks final)
  | crashes => exact absurd rfl (kept _)
  | expires => exact absurd rfl expire

end Life

/-! ## Every run of the system -/

/-- The thread has claimed the job and not begun to release the claim. -/
def holding (id : JobId) (thread : SystemThread) : Prop :=
  ¬ thread.Finished ∧ thread.session.on id ∧ thread.session.stage.holds

/-- The thread has claimed the job and not deleted its lock. -/
def locking (id : JobId) (thread : SystemThread) : Prop :=
  ¬ thread.Finished ∧ thread.session.on id ∧ thread.session.stage.locks

/-- The thread is executing the handler of the job. -/
def executing (id : JobId) (thread : SystemThread) : Prop :=
  ¬ thread.Finished ∧ thread.session.on id ∧ thread.session.attempt = .running

/-- A step without a store failure or the end of a lock, in which the second release of a failed
attempt finds no claim of another thread. -/
structure ReleasesOwn (id : JobId) (state : SystemState) (action : SystemAction) : Prop where
  starting : Starting Entry.isRooted action
  reachable : Reached action
  unexpired : Unexpired action
  unlists : ∀ thread, Does id state action thread .unlists →
    (state.threads thread).session.stage = .released → ∀ other, ¬ holding id (state.threads other)
  unlocks : ∀ thread, Does id state action thread .unlocks →
    (state.threads thread).session.stage = .again → ∀ other, ¬ locking id (state.threads other)

section

variable {proc : Processor} {id : JobId} {state last : SystemState} {thread : Nat}

theorem holder_iff : (life id state).holder thread ↔ holding id (state.threads thread) := by
  constructor
  · intro ⟨role, current, holds⟩
    obtain ⟨unfinished, on, rfl⟩ := roleOf_cases current
    exact ⟨unfinished, on, holds⟩
  · intro ⟨unfinished, on, holds⟩
    exact ⟨_, roleOf_of_on unfinished on, holds⟩

theorem locker_iff : (life id state).locker thread ↔ locking id (state.threads thread) := by
  constructor
  · intro ⟨role, current, locks⟩
    obtain ⟨unfinished, on, rfl⟩ := roleOf_cases current
    exact ⟨unfinished, on, locks⟩
  · intro ⟨unfinished, on, locks⟩
    exact ⟨_, roleOf_of_on unfinished on, locks⟩

theorem beginning_owned (proc : Processor) (id : JobId) : (life id (beginning proc)).Owned := by
  constructor
  · intro thread ⟨role, current, _⟩
    rw [beginning_roles] at current
    cases current
  · intro thread ⟨role, current, _⟩
    rw [beginning_roles] at current
    cases current
  · intro thread other ⟨role, current, _⟩
    rw [beginning_roles] at current
    cases current
  · intro thread role current
    rw [beginning_roles] at current
    cases current

theorem ReleasesOwn.life {action : SystemAction} {label : Label}
    (kept : ReleasesOwn id state action) (shows : Shows id state action label) :
    Life.ReleasesOwn (life id state) label := by
  constructor
  · intro thread role unlists current released other holds
    subst unlists
    obtain ⟨_, _, rfl⟩ := roleOf_cases current
    exact kept.unlists thread shows released other (holder_iff.mp holds)
  · intro thread role unlocks current again other locks
    subst unlocks
    obtain ⟨_, _, rfl⟩ := roleOf_cases current
    exact kept.unlocks thread shows again other (locker_iff.mp locks)

theorem owned_reach (run : (taskfire proc).Run (ReleasesOwn id) (beginning proc) last) :
    (life id last).Owned := by
  obtain ⟨_, reach⟩ := @served_reach _ _ _ _ False False
    (fun life label => life.ReleasesOwn label ∧ label ≠ .expire) run False.elim
    (fun _ _ runs => runs.starting) (fun _ _ _ runs => runs.reachable) False.elim
    (fun _ _ _ runs shows => ⟨runs.life shows, runs.unexpired.label shows⟩)
    (fun _ _ => ⟨⟨fun _ _ => nofun, fun _ _ => nofun⟩, nofun⟩)
  refine reach.invariant Life.Owned (beginning_owned proc id) ?_
  intro before label after owned kept step
  exact Life.owned_step trivial owned (fun _ => kept.1) kept.2 step

/-- If a second release never meets another claim, every claim whose release has not begun has its
lock and its processing entry, and no job has two handlers running. -/
theorem claims_locked (run : (taskfire proc).Run (ReleasesOwn id) (beginning proc) last) :
    (∀ thread, holding id (last.threads thread) →
      last.store.redis.lock id = true ∧ (last.store.redis.processing id).isSome = true) ∧
    ∀ thread other, executing id (last.threads thread) → executing id (last.threads other) →
      thread = other := by
  have owned := owned_reach run
  have locks (thread : Nat) (runs : executing id (last.threads thread)) :
      (life id last).locker thread := by
    obtain ⟨unfinished, on, running⟩ := runs
    have current := roleOf_of_on unfinished on
    refine ⟨_, current, ?_⟩
    rw [owned.running thread _ current running]
    exact trivial
  constructor
  · intro thread holds
    have holder := holder_iff.mpr holds
    exact ⟨owned.locked thread (Life.holder_locks holder), owned.listed thread holder⟩
  · intro thread other runs runs'
    exact owned.one thread other (locks thread runs) (locks other runs')

/-! ## Every run of bare clients -/

/-- No call fails, and the threads are bare clients of the queue. -/
def Discipline.client (proc : Processor) : Discipline where
  strict := True
  bare := True
  settles := False
  rooted := False
  legible := False
  budget := proc.budget

/-- Where every claim is released once, a claim has its lock, and a lock its claim. -/
theorem tended_reach (id : JobId) (run : (taskfire proc).Run
    (fun _ action => Ordinary Entry.isClient action) (beginning proc) last) :
    (life id last).Owned ∧ (life id last).Tended := by
  have simulated : Conforming (.client proc) last ∧ Reach (Life.Step (.client proc))
      (fun _ label => label ≠ .expire ∧ ∀ thread, label ≠ .crash thread)
      (life id (beginning proc)) (life id last) := by
    refine life_reach run (conforming_initial _ proc _) ?_ ?_ False.elim ?_ fun _ _ => ⟨nofun, nofun⟩
    · intro state thread entry client
      exact Entry.client_admissible client trivial False.elim
    · intro state thread env ordinary _
      exact ordinary
    · intro state action label _ ordinary shows
      exact ⟨ordinary.unexpired.label shows, ordinary.uncrashed.label shows⟩
  refine simulated.2.invariant (fun life => life.Owned ∧ life.Tended) ⟨?_, ?_⟩ ?_
  · exact beginning_owned proc id
  · constructor
    · intro locked
      cases locked
    · intro listed
      cases listed
  · intro before label after held kept step
    exact ⟨Life.owned_step trivial held.1 (absurd trivial) kept.1 step,
      Life.tended_step trivial trivial held.2 kept.2 kept.1 step⟩

/-- A release of the job has deleted its processing entry and not yet its lock. -/
def partWay (id : JobId) (state : SystemState) : Prop :=
  ∃ thread, ¬ (state.threads thread).Finished ∧ (state.threads thread).session.on id ∧
    (state.threads thread).session.stage = .releasing

def heldIds (state : SystemState) : Set JobId :=
  {id | ∃ thread, holding id (state.threads thread)}

def lockedIds (state : SystemState) : Set JobId := {id | state.store.redis.lock id = true}

def listedIds (state : SystemState) : Set JobId :=
  {id | (state.store.redis.processing id).isSome = true}

theorem holding_of_locking {thread : SystemThread} (locks : locking id thread)
    (whole : thread.session.stage ≠ .releasing) : holding id thread := by
  obtain ⟨unfinished, on, stage⟩ := locks
  refine ⟨unfinished, on, ?_⟩
  cases shape : thread.session.stage with
  | claimed | requeued => exact trivial
  | releasing => exact absurd shape whole
  | idle | cancelled | released | again =>
    rw [shape] at stage
    exact False.elim stage

/-- Bare clients hold a job one at a time and under its lock; and when no release is part-way, the
locked, the listed and the held jobs are the same. -/
theorem clients_exclude (run : (taskfire proc).Run
    (fun _ action => Ordinary Entry.isClient action) (beginning proc) last) :
    (∀ id thread other, holding id (last.threads thread) → holding id (last.threads other) →
      thread = other) ∧
    (∀ id thread, holding id (last.threads thread) → last.store.redis.lock id = true) ∧
    ((∀ id, ¬ partWay id last) →
      lockedIds last = heldIds last ∧ listedIds last = heldIds last) := by
  have locked (id : JobId) (thread : Nat) (holds : holding id (last.threads thread)) :
      (life id last).locker thread := Life.holder_locks (holder_iff.mpr holds)
  refine ⟨?_, ?_, fun whole => ⟨?_, ?_⟩⟩
  · intro id thread other holds holds'
    exact (tended_reach id run).1.one thread other (locked id thread holds) (locked id other holds')
  · intro id thread holds
    exact (tended_reach id run).1.locked thread (locked id thread holds)
  · ext id
    obtain ⟨owned, tended⟩ := tended_reach id run
    constructor
    · intro taken
      obtain ⟨thread, locker⟩ := tended.locked taken
      have locks := locker_iff.mp locker
      -- A locker that does not hold the job is part-way through a release.
      refine ⟨thread, holding_of_locking locks fun releasing => ?_⟩
      exact whole id ⟨thread, locks.1, locks.2.1, releasing⟩
    · intro ⟨thread, holds⟩
      exact owned.locked thread (locked id thread holds)
  · ext id
    obtain ⟨owned, tended⟩ := tended_reach id run
    constructor
    · intro entered
      obtain ⟨thread, holder⟩ := tended.listed entered
      exact ⟨thread, holder_iff.mp holder⟩
    · intro ⟨thread, holds⟩
      exact owned.listed thread (holder_iff.mpr holds)

end

/-! ## Examples -/

def holdingCheck (id : JobId) (thread : SystemThread) : Bool :=
  thread.next?.isSome && decide (thread.session.job = some id) &&
    decide (thread.session.stage = .claimed)

theorem holding_of_check {id : JobId} {thread : SystemThread}
    (checked : holdingCheck id thread = true) : holding id thread := by
  obtain ⟨before, claimed⟩ := Bool.and_eq_true .. ▸ checked
  obtain ⟨unfinished, on⟩ := Bool.and_eq_true .. ▸ before
  have named : thread.session.job = some id := of_decide_eq_true on
  refine ⟨?_, named, ?_⟩
  · rintro ⟨value, ended⟩
    simp [Thread.next?, ended] at unfinished
  · rw [of_decide_eq_true claimed]
    exact trivial

/-- Two records of one job: while a client holds the one, another client gets nothing. -/
theorem clients_exclude_once : ∃ last : SystemState,
    holding "j" (last.threads 1) ∧ last.store.redis.lock "j" = true ∧
    ∀ thread, holding "j" (last.threads thread) → thread = 1 := by
  obtain ⟨last, run, checked⟩ := ordinary_reaches .wired Entry.isClient (beginning .wired)
    (.spawn 0 (.enqueue Job.plain) :: calls 0 2 (.calm "j") ++
      .spawn 0 (.enqueue { Job.plain with payload := "{1}" }) :: calls 0 2 (.calm "j") ++
      .spawn 1 (.claimAndRelease .ack) :: calls 1 1 (.calm "j") ++
      .spawn 2 (.claimAndRelease .nack) :: calls 2 1 (.calm "j"))
    (fun last => holdingCheck "j" (last.threads 1)) (by decide +kernel)
  have holds := holding_of_check checked
  obtain ⟨one, locked, _⟩ := clients_exclude run
  exact ⟨last, holds, locked "j" 1 holds, fun thread other => one "j" thread 1 other holds⟩

/-- No thread below 3 has a claim of the job whose lock it has not deleted. -/
def unlockedBelow (state : SystemState) : Bool :=
  (List.range 3).all fun thread => !decide ((state.threads thread).session.stage.locks)

/-- `ReleasesOwn`, computed for a step of threads 0 to 2. -/
def releasesOwn (state : SystemState) (action : SystemAction) : Bool :=
  decide (Starting Entry.isRooted action ∧ Reached action ∧ Unexpired action) && Below 3 action &&
    match eventOf "j" state action with
    | some (thread, .unlists) =>
      decide ((state.threads thread).session.stage ≠ .released) || unlockedBelow state
    | some (thread, .unlocks) =>
      decide ((state.threads thread).session.stage ≠ .again) || unlockedBelow state
    | _ => true

theorem releasesOwn_sound {proc : Processor} {state : SystemState} {action : SystemAction}
    (idle : ∀ thread, 3 ≤ thread → state.threads thread = (taskfire proc).idle)
    (checked : releasesOwn state action = true) : ReleasesOwn "j" state action := by
  obtain ⟨before, event⟩ := Bool.and_eq_true .. ▸ checked
  obtain ⟨calm, _⟩ := Bool.and_eq_true .. ▸ before
  obtain ⟨starting, reachable, unexpired⟩ := of_decide_eq_true calm
  have nobody (none : unlockedBelow state = true) (thread : Nat) :
      ¬ (state.threads thread).session.stage.locks := by
    by_cases beyond : 3 ≤ thread
    · rw [idle thread beyond]
      exact id
    · have free := List.all_eq_true.mp none thread (List.mem_range.mpr (Nat.not_le.mp beyond))
      simpa using free
  refine ⟨starting, reachable, unexpired, ?_, ?_⟩
  · intro thread does released other holds
    simp only [eventOf_of_does does] at event
    obtain first | none := Bool.or_eq_true .. ▸ event
    · exact of_decide_eq_true first released
    · exact nobody none other (Stage.locks_of_holds holds.2.2)
  · intro thread does again other locks
    simp only [eventOf_of_does does] at event
    obtain first | none := Bool.or_eq_true .. ▸ event
    · exact of_decide_eq_true first again
    · exact nobody none other locks.2.2

/-- A first worker fails the job and releases it twice; the job is retried, and a second worker is about
to start its handler while the first one looks for work. -/
theorem claims_locked_once : ∃ last : SystemState, holding "j" (last.threads 2) ∧
    last.store.redis.lock "j" = true ∧ (last.store.redis.processing "j").isSome = true := by
  obtain ⟨last, run, checked⟩ : ∃ last, (taskfire .impatient).Run
      (fun state action => releasesOwn state action = true) (beginning .impatient) last ∧
      holdingCheck "j" (last.threads 2) = true :=
    replay_reaches releasesOwn (fun _ _ checked => checked)
      (.spawn 0 (.create .plain) :: calls 0 5 (.calm "j") ++
        .spawn 1 .work :: calls 1 19 (.failing "j") ++
        .spawn 0 (.retry "j" true) :: calls 0 4 (.calm "j") ++
        .spawn 2 .work :: calls 2 6 (.calm "j") ++ .spawn 1 .work :: calls 1 1 (.calm "j")) _
      (by decide +kernel)
  have own := run.mono_reached fun state action reached checked =>
    releasesOwn_sound (idle_beyond reached fun _ _ checked =>
      (Bool.and_eq_true .. ▸ (Bool.and_eq_true .. ▸ checked).1).2) checked
  have holds := holding_of_check checked
  exact ⟨last, holds, (claims_locked own).1 2 holds⟩

/-- A worker has failed a job, released it and marked it dead; the job is retried and claimed by a
second worker; then the first one releases it again. -/
theorem claim_unlocked : ∃ (proc : Processor) (last : SystemState),
    (taskfire proc).Run (fun _ action => Ordinary Entry.isRooted action) (beginning proc) last ∧
    holding "j" (last.threads 2) ∧ last.store.redis.lock "j" = false ∧
    last.store.redis.processing "j" = none := by
  obtain ⟨last, run, checked⟩ := ordinary_reaches .impatient Entry.isRooted (beginning .impatient)
    (.spawn 0 (.create .plain) :: calls 0 5 (.calm "j") ++
      .spawn 1 .work :: calls 1 14 (.failing "j") ++
      .spawn 0 (.retry "j" true) :: calls 0 4 (.calm "j") ++
      .spawn 2 .work :: calls 2 1 (.calm "j") ++ calls 1 4 (.calm "j"))
    (fun last => holdingCheck "j" (last.threads 2) && decide (last.store.redis.lock "j" = false ∧
      last.store.redis.processing "j" = none)) (by decide +kernel)
  obtain ⟨holds, unlocked⟩ := Bool.and_eq_true .. ▸ checked
  exact ⟨.impatient, last, run, holding_of_check holds, of_decide_eq_true unlocked⟩

end Taskfire
