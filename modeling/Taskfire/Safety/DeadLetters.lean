import Taskfire.Safety.Runs

/-!
# Dead letters

An entry of the dead-letter set should say that its job is dead.  Nothing ever takes an entry out:
`DELETE` and `POST /:id/retry` write the row of a dead job and leave its entry behind.  And the worker
adds the entry even where its update of the row was refused.  Where neither happens, entries and dead
rows correspond.
-/

namespace Taskfire

open Taskfire.Library

namespace Life

/-- The thread has marked the row dead and not yet written the entry. -/
def dying (life : Life) (thread : Nat) : Prop :=
  ∃ role, life.roles thread = some role ∧ role.token = .dying

/-- A dead row has an entry, or a thread that is about to write it. -/
structure Graves (life : Life) : Prop where
  dead : life.status = some .dead ↔ 0 < life.letters ∨ ∃ thread, life.dying thread
  letters : life.letters ≤ 1
  alone : 0 < life.letters → ∀ thread, ¬ life.dying thread
  one : ∀ thread other, life.dying thread → life.dying other → thread = other

/-- A statement does not write a dead row, an entry follows its update, and no thread crashes between
the two. -/
structure KeepsDead (life : Life) (label : Label) : Prop where
  cancels : ∀ thread, label = .act thread .cancels → life.status ≠ some .dead
  requeues : ∀ thread, label = .act thread .requeues → life.status ≠ some .dead
  marks : ∀ thread status, label = .act thread (.marks status) → life.status ≠ some .dead
  buries : ∀ thread role, label = .act thread .buries → life.roles thread = some role →
    role.token ≠ .unmarked .dead
  crash : ∀ thread, label = .crash thread → ¬ life.dying thread

variable {before after : Life} {d : Discipline} {label : Label} {thread : Nat}

theorem dying_put {life : Life} {next : Option Role} {other : Nat}
    (dies : (life.put thread next).dying other) :
    (other = thread ∧ ∃ held, next = some held ∧ held.token = .dying) ∨
      (other ≠ thread ∧ life.dying other) :=
  plays_of_turned rfl dies

/-- Neither the row nor the set changes, and the thread is dying as much as it was. -/
theorem Graves.turn {next : Option Role} (graves : before.Graves)
    (roles : after.roles = (before.put thread next).roles)
    (kept : (∃ held, next = some held ∧ held.token = .dying) ↔ before.dying thread)
    (row : after.status = before.status) (letters : after.letters = before.letters) :
    after.Graves := by
  have same (other : Nat) : after.dying other ↔ before.dying other := by
    constructor
    · intro dies
      obtain ⟨rfl, held⟩ | ⟨_, dies⟩ := plays_of_turned roles dies
      · exact kept.mp held
      · exact dies
    · exact plays_turned roles kept.mpr
  constructor
  · rw [row, letters, graves.dead]
    simp only [same]
  · rw [letters]
    exact graves.letters
  · intro positive other dies
    rw [letters] at positive
    exact graves.alone positive other ((same other).mp dies)
  · intro first second dies dies'
    exact graves.one first second ((same first).mp dies) ((same second).mp dies')

/-- A thread that is not dying turns to a role that is not. -/
theorem Graves.keep {role next : Role} (graves : before.Graves)
    (current : before.roles thread = some role)
    (roles : after.roles = (before.put thread (some next)).roles) (was : role.token ≠ .dying)
    (is : next.token ≠ .dying) (row : after.status = before.status)
    (letters : after.letters = before.letters) : after.Graves := by
  refine graves.turn roles ?_ row letters
  constructor
  · rintro ⟨_, ⟨⟩, token⟩
    exact absurd token is
  · rintro ⟨held, shape, token⟩
    rw [current] at shape
    cases shape
    exact absurd token was

/-- Before its job dies, nobody is dying and there is no entry. -/
theorem Graves.none (graves : before.Graves) (living : before.status ≠ some .dead) :
    before.letters = 0 ∧ ∀ thread, ¬ before.dying thread := by
  have neither := mt graves.dead.mpr living
  simp only [not_or, not_exists] at neither
  exact ⟨by omega, neither.2⟩

/-- The row of a living job gets a status, and only a thread that marks it dead is dying then. -/
theorem Graves.write {next : Option Role} (graves : before.Graves)
    (living : before.status ≠ some .dead)
    (roles : after.roles = (before.put thread next).roles)
    (dies : (∃ held, next = some held ∧ held.token = .dying) ↔ after.status = some .dead)
    (letters : after.letters = before.letters) : after.Graves := by
  obtain ⟨empty, nobody⟩ := graves.none living
  rw [empty] at letters
  have only (other : Nat) : after.dying other ↔ other = thread ∧ after.status = some .dead := by
    have turned : after.dying other ↔ (before.put thread next).dying other := by
      simp only [dying, roles]
    rw [turned, ← dies]
    constructor
    · intro dying
      exact (dying_put dying).resolve_right fun old => nobody other old.2
    · rintro ⟨rfl, held, shape, token⟩
      exact ⟨held, (put_same ..).trans shape, token⟩
  constructor
  · simp [letters, only]
  · omega
  · intro positive
    omega
  · intro first second dies dies'
    rw [((only first).mp dies).1, ((only second).mp dies').1]

theorem open_not_dying {token : Token} (opened : token.isOpen = true) : token ≠ .dying := by
  rintro rfl
  cases opened

theorem marked_dying {status : JobStatus} : Token.marked status = .dying ↔ status = .dead := by
  cases status <;> simp [Token.marked]

theorem graves_step (strict : d.strict) (whole : ¬ d.bare) (rooted : before.Rooted)
    (graves : before.Graves) (kept : KeepsDead before label) (step : Step d before label after) :
    after.Graves := by
  cases step with
  | @enters thread token brief gone fresh =>
    refine graves.turn rfl ?_ rfl rfl
    constructor
    · rintro ⟨_, ⟨⟩, dies⟩
      -- A new thread has no record to bury.
      obtain absent | owed := fresh
      · rw [absent] at dies
        cases dies
      · rw [owed.1] at dies
        cases dies
    · rintro ⟨held, shape, _⟩
      rw [gone] at shape
      cases shape
  | inserts current absent missing status =>
    refine graves.write ?_ rfl ?_ rfl
    · simp [Life.status, missing]
    · simp [Life.status, status]
  | @cancels thread role old new current idle found notActive notCompleted rewrites =>
    have living := kept.cancels _ rfl
    refine graves.write living rfl ?_ rfl
    -- A job whose row is not dead has no thread that buries it.
    have nobody := (graves.none living).2 thread
    constructor
    · rintro ⟨_, ⟨⟩, token⟩
      exact absurd ⟨role, current, token⟩ nobody
    · simp [Life.status, rewrites.status]
  | requeues current absent found retriable rewrites =>
    refine graves.write (kept.requeues _ rfl) rfl ?_ rfl
    simp [Life.status, rewrites.status]
  | marks current opened found lower upper rewrites =>
    refine graves.write (kept.marks _ _ rfl) rfl ?_ rfl
    simp [Life.status, rewrites.status, marked_dying]
  | marksNothing current opened missing =>
    exact absurd opened ((rooted missing).shut current)
  | failsToMark current opened =>
    exact graves.keep current rfl (open_not_dying opened) (by simp) rfl rfl
  | places current opened =>
    exact graves.keep current rfl (open_not_dying opened) (by simp) rfl rfl
  | @buries thread role letters current due positive upper =>
    have dying : role.token = .dying := by
      obtain dying | unmarked | bare := due
      · exact dying
      · exact absurd unmarked (kept.buries thread role rfl current)
      · exact absurd bare.1 whole
    have dies : before.dying thread := ⟨role, current, dying⟩
    -- While a thread owes the letter there is none yet.
    have empty : before.letters = 0 := by
      by_contra some
      exact graves.alone (Nat.pos_of_ne_zero some) thread dies
    -- This thread has paid what it owed, and no other owed it.
    have nobody (other : Nat) :
        ¬ ({ before with letters }.put thread (some { role with token := .buried })).dying other := by
      intro dies'
      obtain ⟨_, _, ⟨⟩, token⟩ | ⟨different, dies'⟩ := dying_put dies'
      · cases token
      · exact different (graves.one other thread dies' dies)
    constructor
    · exact iff_of_true (graves.dead.mpr (.inr ⟨thread, dies⟩)) (.inl positive)
    · rw [empty] at upper
      exact upper
    · exact fun _ => nobody
    · exact fun first _ dies' => absurd dies' (nobody first)
  | claims gone =>
    refine graves.turn rfl ?_ rfl rfl
    constructor
    · rintro ⟨_, ⟨⟩, token⟩
      cases token
    · rintro ⟨held, shape, _⟩
      rw [gone] at shape
      cases shape
  | @unlists thread role current | @failsToUnlist thread role current
  | @unlocks thread role current | @failsToUnlock thread role current =>
    refine graves.turn rfl ?_ rfl rfl
    constructor
    · rintro ⟨_, ⟨⟩, token⟩
      exact ⟨role, current, token⟩
    · rintro ⟨held, shape, token⟩
      rw [current] at shape
      cases shape
      exact ⟨_, rfl, token⟩
  | starts current opened | succeeds current opened | fails current opened
  | misses current opened =>
    exact graves.keep current rfl (open_not_dying opened) (open_not_dying opened) rfl rfl
  | removes | drops | promotes | other | expires => exact ⟨graves.dead, graves.letters, graves.alone, graves.one⟩
  | leaves current final =>
    refine graves.turn rfl ?_ rfl rfl
    constructor
    · rintro ⟨_, ⟨⟩, _⟩
    · rintro ⟨held, shape, token⟩
      rw [current] at shape
      cases shape
      exact absurd token (final.2.1 strict whole)
  | crashes =>
    refine graves.turn rfl ?_ rfl rfl
    constructor
    · rintro ⟨_, ⟨⟩, _⟩
    · exact fun dies => absurd dies (kept.crash _ rfl)

end Life

/-! ## Every run -/

/-- The thread has marked the row dead and not yet written the entry. -/
def dying (id : JobId) (thread : SystemThread) : Prop :=
  ¬ thread.Finished ∧ thread.session.on id ∧ thread.session.token = .dying

/-- A step without a store failure in which no statement writes the row of a dead job, no entry of the
dead-letter set follows an update that was refused, and no worker crashes between the two.  Locks may
expire. -/
structure KeepsDead (id : JobId) (state : SystemState) (action : SystemAction) : Prop where
  starting : Starting Entry.isRooted action
  reachable : Reached action
  cancels : ∀ thread, Does id state action thread .cancels → state.store.status id ≠ some .dead
  requeues : ∀ thread, Does id state action thread .requeues → state.store.status id ≠ some .dead
  marks : ∀ thread status, Does id state action thread (.marks status) →
    state.store.status id ≠ some .dead
  buries : ∀ thread, Does id state action thread .buries →
    (state.threads thread).session.token ≠ .unmarked .dead
  crash : ∀ thread, action = .crash thread → ¬ dying id (state.threads thread)

section

variable {proc : Processor} {id : JobId} {last : SystemState}

theorem KeepsDead.life {state : SystemState} {action : SystemAction} {label : Label}
    (kept : KeepsDead id state action) (shows : Shows id state action label) :
    Life.KeepsDead (life id state) label := by
  constructor
  · rintro thread rfl
    exact kept.cancels thread shows
  · rintro thread rfl
    exact kept.requeues thread shows
  · rintro thread status rfl
    exact kept.marks thread status shows
  · rintro thread role rfl current
    obtain ⟨_, _, rfl⟩ := roleOf_cases current
    exact kept.buries thread shows
  · rintro thread rfl ⟨role, current, token⟩
    obtain ⟨unfinished, on, rfl⟩ := roleOf_cases current
    cases shows
    exact kept.crash thread rfl ⟨unfinished, on, token⟩

theorem graves_reach (run : (taskfire proc).Run (KeepsDead id) (beginning proc) last) :
    (life id last).Graves := by
  obtain ⟨_, reach⟩ := @served_reach _ _ _ _ False False Life.KeepsDead run False.elim
    (fun _ _ runs => runs.starting) (fun _ _ _ runs => runs.reachable) False.elim
    (fun _ _ _ runs shows => runs.life shows)
    (fun _ _ => ⟨nofun, nofun, fun _ => nofun, fun _ _ => nofun, nofun⟩)
  have both : (life id last).Rooted ∧ (life id last).Graves := by
    refine reach.invariant (fun life => life.Rooted ∧ life.Graves) ⟨?_, ?_⟩ ?_
    · exact fun _ => beginning_tokenless proc id
    · have empty : (life id (beginning proc)).letters = 0 := rfl
      have nobody (thread : Nat) : ¬ (life id (beginning proc)).dying thread := by
        rintro ⟨role, current, _⟩
        rw [beginning_roles] at current
        cases current
      refine ⟨?_, by omega, fun _ => nobody, fun first _ dies => absurd dies (nobody first)⟩
      have missing : (life id (beginning proc)).status = none := rfl
      simp [missing, empty, nobody]
    · intro before label after held kept step
      exact ⟨Life.rooted_step trivial held.1 step,
        Life.graves_step trivial False.elim held.1 held.2 kept step⟩
  exact both.2

/-- If no statement writes the row of a dead job and no refused update is followed by an entry, then
a job nobody works for has at most one entry, and has one exactly if its row is dead. -/
theorem letters_of_dead (run : (taskfire proc).Run (KeepsDead id) (beginning proc) last)
    (still : quiet id last) :
    last.store.redis.letters (Member.isOf id) ≤ 1 ∧
      (last.store.redis.letters (Member.isOf id) = 1 ↔ last.store.status id = some .dead) := by
  have graves := graves_reach run
  have upper : last.store.redis.letters (Member.isOf id) ≤ 1 := graves.letters
  have dead : last.store.status id = some .dead ↔
      0 < last.store.redis.letters (Member.isOf id) ∨ ∃ thread, (life id last).dying thread :=
    graves.dead
  have nobody : ¬ ∃ thread, (life id last).dying thread := by
    rintro ⟨thread, role, current, _⟩
    rw [roles_of_quiet still thread] at current
    cases current
  refine ⟨upper, ?_⟩
  rw [dead, or_iff_left nobody]
  constructor
  · intro one
    omega
  · intro positive
    omega

end

/-! ## Examples -/

/-- The API creates a job, and a worker runs it into the dead-letter set. -/
def createAndDie : List SystemAction :=
  .spawn 0 (.create .plain) :: calls 0 5 (.calm "j") ++
    .spawn 1 .work :: calls 1 19 (.failing "j")

/-- `KeepsDead`, computed for a step of threads 0 and 1. -/
def keepsDead (state : SystemState) (action : SystemAction) : Bool :=
  decide (Starting Entry.isRooted action ∧ Reached action) && Below 2 action &&
    (match eventOf "j" state action with
    | some (_, .cancels) | some (_, .requeues) | some (_, .marks _) =>
      decide (state.store.status "j" ≠ some .dead)
    | some (thread, .buries) => decide ((state.threads thread).session.token ≠ .unmarked .dead)
    | _ => true) &&
    match action with
    | .crash thread => decide ((state.threads thread).session.token ≠ .dying)
    | _ => true

theorem keepsDead_sound {state : SystemState} {action : SystemAction}
    (checked : keepsDead state action = true) :
    KeepsDead "j" state action ∧ Below 2 action = true := by
  obtain ⟨checked, alive⟩ := Bool.and_eq_true .. ▸ checked
  obtain ⟨before, event⟩ := Bool.and_eq_true .. ▸ checked
  obtain ⟨reached, below⟩ := Bool.and_eq_true .. ▸ before
  obtain ⟨starting, reachable⟩ := of_decide_eq_true reached
  refine ⟨⟨starting, reachable, ?_, ?_, ?_, ?_, ?_⟩, below⟩
  · intro thread does
    simp only [eventOf_of_does does] at event
    exact of_decide_eq_true event
  · intro thread does
    simp only [eventOf_of_does does] at event
    exact of_decide_eq_true event
  · intro thread status does
    simp only [eventOf_of_does does] at event
    exact of_decide_eq_true event
  · intro thread does
    simp only [eventOf_of_does does] at event
    exact of_decide_eq_true event
  · rintro thread rfl ⟨_, _, dies⟩
    exact of_decide_eq_true alive dies

/-- A first worker crashes before it has touched the row; its lock runs out, and the copy that a retry
after a DELETE brings dies. -/
theorem letters_of_dead_once : ∃ last : SystemState, last.store.status "j" = some .dead ∧
    last.store.redis.letters (Member.isOf "j") = 1 := by
  have reached : ∃ last, (taskfire .impatient).Run
      (fun state action => keepsDead state action = true) (beginning .impatient) last ∧
      (decide (last.store.status "j" = some .dead) && quietBelow 2 last) = true :=
    replay_reaches keepsDead (fun _ _ checked => checked)
      (.spawn 0 (.create .plain) :: calls 0 5 (.calm "j") ++
        .spawn 1 .work :: calls 1 2 (.calm "j") ++ .crash 1 :: .tick "j" ::
        .spawn 0 (.delete "j") :: calls 0 4 (.calm "j") ++
        .spawn 0 (.retry "j" true) :: calls 0 4 (.calm "j") ++
        .spawn 1 .work :: calls 1 19 (.failing "j")) _
      (by decide +kernel)
  obtain ⟨last, run, checked⟩ := reached
  obtain ⟨dead, finished⟩ := Bool.and_eq_true .. ▸ checked
  have idle := idle_beyond run fun _ _ checked => (keepsDead_sound checked).2
  have kept := run.mono fun _ _ checked => (keepsDead_sound checked).1
  have died := of_decide_eq_true dead
  exact ⟨last, died, (letters_of_dead kept (quiet_of_below idle finished)).2.mpr died⟩

/-- A retry of a dead job leaves its entry in the dead-letter set. -/
theorem letter_of_pending : ∃ (proc : Processor) (last : SystemState),
    (taskfire proc).Run (fun _ action => Ordinary Entry.isRooted action) (beginning proc) last ∧
    quiet "j" last ∧ last.store.redis.letters (Member.isOf "j") = 1 ∧
    last.store.status "j" = some .pending := by
  obtain ⟨last, run, still, left⟩ := replay_quiet .impatient "j" 2
    (fun _ action => decide (Ordinary Entry.isRooted action))
    (fun last => decide (last.store.redis.letters (Member.isOf "j") = 1 ∧
      last.store.status "j" = some .pending))
    (createAndDie ++ .spawn 0 (.retry "j" true) :: calls 0 4 (.calm "j")) (by decide +kernel)
  have ordinary := run.mono fun _ _ checked => of_decide_eq_true checked
  exact ⟨.impatient, last, ordinary, still, of_decide_eq_true left⟩

end Taskfire
