import Taskfire.Lifecycle.Whereabouts

/-!
# One record for each job

A job has at most one token: the record that waits for it, or the thread that carries that record.
The first record comes with the row; only a retry can bring a second one.  As long as each retry
finds no other record, a completed job has none left, and then nothing writes its row or starts its
handler any more.
-/

namespace Taskfire

namespace Life

/-- No row was inserted yet, or the job is completed. -/
def barren (life : Life) : Prop := life.row = none ∨ life.status = some .completed

/-- No record waits, and no thread carries one. -/
def tokenless (life : Life) : Prop := life.waiting = 0 ∧ ∀ thread, ¬ life.live thread

structure Unique (life : Life) : Prop where
  waiting : life.waiting ≤ 1
  alone : 0 < life.waiting → ∀ thread, ¬ life.live thread
  one : ∀ thread other, life.live thread → life.live other → thread = other
  barren : life.barren → life.tokenless

variable {before after life : Life} {thread : Nat}

theorem Unique.waiting_of_live (unique : life.Unique) (alive : life.live thread) :
    life.waiting = 0 := by
  by_contra positive
  exact unique.alone (Nat.pos_of_ne_zero positive) thread alive

theorem Unique.row_of_live (unique : life.Unique) (alive : life.live thread) : ¬ life.barren :=
  fun barren => (unique.barren barren).2 thread alive

/-- Tokens only get fewer. -/
theorem Unique.shrink (unique : before.Unique) (waiting : after.waiting ≤ before.waiting)
    (live : ∀ thread, after.live thread → before.live thread)
    (barren : after.barren → before.barren) : after.Unique where
  waiting := Nat.le_trans waiting unique.waiting
  alone := fun positive thread alive =>
    unique.alone (Nat.lt_of_lt_of_le positive waiting) thread (live thread alive)
  one := fun thread other alive alive' =>
    unique.one thread other (live thread alive) (live other alive')
  barren := fun bare =>
    ⟨Nat.le_zero.mp ((unique.barren (barren bare)).1 ▸ waiting), fun thread alive =>
      (unique.barren (barren bare)).2 thread (live thread alive)⟩

/-- Where no thread carries a record, one thread gets the token. -/
theorem Unique.take (dead : ∀ other, ¬ before.live other) (waiting : after.waiting = 0)
    (live : ∀ other, after.live other → other = thread ∨ before.live other)
    (rooted : ¬ after.barren) : after.Unique := by
  have only (other : Nat) (alive : after.live other) : other = thread := by
    rcases live other alive with same | alive
    · exact same
    · exact absurd alive (dead other)
  refine ⟨by omega, fun positive => by omega, ?_, fun barren => absurd barren rooted⟩
  intro first second alive alive'
  rw [only first alive, only second alive']

/-! ## Steps -/

theorem live_of_open {role : Role} (current : life.roles thread = some role)
    (opened : role.token.isOpen = true) : life.live thread := ⟨role, current, opened⟩

/-- A change of role that opens no token adds no live thread. -/
theorem live_of_put {role : Role} {next : Option Role} {other : Nat}
    (current : life.roles thread = some role)
    (kept : ∀ held, next = some held → held.token.isOpen = true → role.token.isOpen = true)
    (alive : (life.put thread next).live other) : life.live other := by
  rcases live_put alive with ⟨rfl, held, shape, opened⟩ | ⟨_, alive⟩
  · exact ⟨role, current, kept held shape opened⟩
  · exact alive

/-- A change of role that closes the token leaves the other threads. -/
theorem live_of_closed {next : Option Role} {other : Nat}
    (shut : ∀ held, next = some held → held.token.isOpen = false)
    (alive : (life.put thread next).live other) : other ≠ thread ∧ life.live other := by
  rcases live_put alive with ⟨rfl, held, shape, opened⟩ | alive
  · exact absurd opened (by simp [shut held shape])
  · exact alive

theorem live_of_role {role : Option Role} {other : Nat} (alive : (life.put thread role).live other) :
    other = thread ∨ life.live other := by
  rcases live_put alive with ⟨same, _⟩ | ⟨_, alive⟩
  · exact .inl same
  · exact .inr alive

/-- A thread turns to another role with the token it has. -/
theorem Unique.turn {role next : Role} (unique : before.Unique)
    (current : before.roles thread = some role)
    (roles : after.roles = (before.put thread (some next)).roles)
    (kept : next.token.isOpen = true → role.token.isOpen = true)
    (waiting : after.waiting = before.waiting) (barren : after.barren → before.barren) :
    after.Unique := by
  refine unique.shrink (Nat.le_of_eq waiting) (fun other alive => ?_) barren
  have turned : (before.put thread (some next)).live other := by
    simpa only [live, ← roles] using alive
  exact live_of_put current (turns_to kept) turned

/-- A thread closes its token without a trace. -/
theorem Unique.close {next : Option Role} (unique : life.Unique)
    (shut : ∀ held, next = some held → held.token.isOpen = false) :
    (life.put thread next).Unique :=
  unique.shrink (Nat.le_refl _) (fun _ alive => (live_of_closed shut alive).2) id

/-- The one live thread closes its token: no other is left. -/
theorem Unique.dead (unique : before.Unique) (alive : before.live thread) (next : Option Role)
    (shut : ∀ held, next = some held → held.token.isOpen = false)
    (roles : after.roles = (before.put thread next).roles) (other : Nat) : ¬ after.live other := by
  intro survives
  have left : (before.put thread next).live other := by simpa only [live, ← roles] using survives
  obtain ⟨different, alive'⟩ := live_of_closed shut left
  exact different (unique.one other thread alive' alive)

/-- A retry finds no record of the job. -/
def RetriesAlone (life : Life) (label : Label) : Prop :=
  ∀ thread, label = .act thread .requeues → life.tokenless

variable {d : Discipline} {label : Label}

/-- The step brings no record that does not come from the row. -/
def FromRow (label : Label) : Prop := ∀ thread, label ≠ .act thread (.enters .owed)

theorem fromRow_of_rooted (rooted : d.rooted) (step : Step d before label after) : FromRow label := by
  intro thread brings
  subst brings
  cases step with
  | enters gone fresh =>
    obtain absent | ⟨_, unrooted⟩ := fresh
    · cases absent
    · exact unrooted rooted

/-- A thread that enters brings no record. -/
theorem FromRow.absent {token : Token} (own : FromRow (.act thread (.enters token)))
    (fresh : d.mayEnter token) : token = .absent := by
  obtain absent | ⟨owed, _⟩ := fresh
  · exact absent
  · subst owed
    exact absurd rfl (own thread)

theorem unique_step_of_row (own : FromRow label) (unique : before.Unique)
    (kept : RetriesAlone before label) (step : Step d before label after) : after.Unique := by
  cases step with
  | @enters thread token brief gone fresh =>
    have absent := own.absent fresh
    subst absent
    exact unique.close (turns_to rfl)
  | @inserts thread role row current absent missing status zero =>
    -- A job without a row has no record and no thread that carries one.
    have none := unique.barren (.inl missing)
    refine .take none.2 none.1 (fun other alive => live_of_role alive) ?_
    simp [Life.barren, Life.status, status]
  | cancels current idle found notActive notCompleted rewrites =>
    refine unique.turn current rfl (fun opened => opened) rfl ?_
    simp [Life.barren, Life.status, rewrites.status]
  | @requeues thread role old new current absent found retriable rewrites =>
    -- The condition of the run: the request finds no record.
    have none := kept thread rfl
    refine .take none.2 none.1 (fun other alive => live_of_role alive) ?_
    simp [Life.barren, Life.status, rewrites.status]
  | @marks thread role old new status current opened found lower upper rewrites =>
    have alive := live_of_open current opened
    by_cases completed : status = .completed
    · -- The thread that completes the job carried its only record.
      subst completed
      have dead := unique.dead alive (some { role with token := .completed })
        (turns_to rfl) rfl
      have waiting := unique.waiting_of_live alive
      exact ⟨Nat.le_trans (Nat.le_of_eq waiting) (Nat.zero_le 1), fun _ other => dead other,
        fun first _ alive' => absurd alive' (dead first), fun _ => ⟨waiting, dead⟩⟩
    · refine unique.turn current rfl (fun _ => opened) rfl ?_
      simp [Life.barren, Life.status, rewrites.status, completed]
  | marksNothing current opened missing =>
    exact absurd (.inl missing) (unique.row_of_live (live_of_open current opened))
  | failsToMark current opened => exact unique.turn current rfl (fun _ => opened) rfl id
  | @places thread role waiting carried current opened may positive upper briefs =>
    have alive := live_of_open current opened
    have dead := unique.dead alive
      (some { role with token := .placed, stage := role.stage.putBack })
      (turns_to rfl) rfl
    have empty := unique.waiting_of_live alive
    exact ⟨by simpa [empty] using upper, fun _ other => dead other,
      fun first _ alive' => absurd alive' (dead first),
      fun barren => absurd barren (unique.row_of_live alive)⟩
  | buries current due =>
    exact unique.shrink (Nat.le_refl _) (fun other alive =>
      (live_of_closed (turns_to rfl) alive).2) id
  | removes current cancelled fewer | drops blind fewer =>
    exact unique.shrink fewer.waiting (fun _ alive => alive) id
  | promotes fewer kept => exact unique.shrink fewer (fun _ alive => alive) id
  | @claims thread brief waiting carried gone free lost =>
    -- The record that was claimed was the only one, and now its thread carries it.
    have positive : 0 < before.waiting := by omega
    have one := unique.waiting
    refine .take (unique.alone positive) ?_ (fun other alive => live_of_role alive) ?_
    · show waiting = 0
      omega
    · intro barren
      have empty := (unique.barren barren).1
      omega
  | unlists current | failsToUnlist current | unlocks current | failsToUnlock current =>
    exact unique.turn current rfl (fun opened => opened) rfl id
  | starts current opened => exact unique.turn current rfl (fun _ => opened) rfl id
  | succeeds current opened => exact unique.turn current rfl (fun _ => opened) rfl id
  | fails current opened => exact unique.turn current rfl (fun _ => opened) rfl id
  | misses current opened => exact unique.turn current rfl (fun _ => opened) rfl id
  | other => exact unique
  | leaves | crashes => exact unique.close turns_away
  | expires => exact unique.shrink (Nat.le_refl _) (fun _ alive => alive) id

theorem unique_step (rooted : d.rooted) (unique : before.Unique) (kept : RetriesAlone before label)
    (step : Step d before label after) : after.Unique :=
  unique_step_of_row (fromRow_of_rooted rooted step) unique kept step

/-! ## Without a record -/

/-- A thread turns to a role without a record, and no record is added. -/
theorem tokenless_turn {next : Option Role} (none : before.tokenless)
    (roles : after.roles = (before.put thread next).roles)
    (shut : ∀ held, next = some held → ¬ held.token.isOpen = true)
    (waiting : after.waiting ≤ before.waiting) : after.tokenless := by
  refine ⟨Nat.le_zero.mp (none.1 ▸ waiting), fun other alive => ?_⟩
  have turned : (before.put thread next).live other := by
    simpa only [live, ← roles] using alive
  obtain ⟨_, held, shape, opened⟩ | ⟨_, alive⟩ := live_put turned
  · exact shut held shape opened
  · exact none.2 _ alive

theorem tokenless.shut {role : Role} (none : life.tokenless)
    (current : life.roles thread = some role) : ¬ role.token.isOpen = true :=
  fun opened => none.2 thread (live_of_open current opened)

/-- A job without a row has no record. -/
def Rooted (life : Life) : Prop := life.row = none → life.tokenless

theorem rooted_step (rooted : d.rooted) (held : before.Rooted)
    (step : Step d before label after) : after.Rooted := by
  intro missing
  cases step with
  | @enters thread token brief gone fresh =>
    have absent : token = .absent := fresh.resolve_right fun owed => owed.2 rooted
    subst absent
    exact tokenless_turn (held missing) rfl (turns_to (by simp [Token.isOpen])) (Nat.le_refl _)
  | inserts | cancels | requeues | marks => cases missing
  | marksNothing current opened | failsToMark current opened | places current opened
  | starts current opened | succeeds current opened | fails current opened
  | misses current opened => exact absurd opened ((held missing).shut current)
  | buries current due =>
    exact tokenless_turn (held missing) rfl (turns_to (by simp [Token.isOpen])) (Nat.le_refl _)
  | removes current cancelled fewer | drops blind fewer =>
    exact ⟨Nat.le_zero.mp ((held missing).1 ▸ fewer.waiting), (held missing).2⟩
  | promotes fewer => exact ⟨Nat.le_zero.mp ((held missing).1 ▸ fewer), (held missing).2⟩
  | claims gone free lost => exact absurd ((held missing).1 ▸ lost) (Nat.not_lt_zero _)
  | unlists current | failsToUnlist current | unlocks current | failsToUnlock current =>
    exact tokenless_turn (held missing) rfl
      (turns_to fun opened => (held missing).shut current opened) (Nat.le_refl _)
  | other | expires => exact held missing
  | leaves | crashes => exact tokenless_turn (held missing) rfl turns_away (Nat.le_refl _)

/-! ## After the last record -/

/-- The job has come to rest in a status: no record of it is left. -/
structure Rests (status : JobStatus) (started : Nat) (life : Life) : Prop where
  status : life.status = some status
  started : life.started = started
  tokenless : life.tokenless

variable {status : JobStatus} {started : Nat}

theorem Rests.notLive {role : Role} (rests : life.Rests status started)
    (current : life.roles thread = some role) : ¬ role.token.isOpen = true :=
  rests.tokenless.shut current

/-- A thread turns to a role without a record, and the row keeps its status. -/
theorem Rests.turn {next : Option Role} (rests : before.Rests status started)
    (roles : after.roles = (before.put thread next).roles)
    (shut : ∀ held, next = some held → ¬ held.token.isOpen = true)
    (row : after.status = before.status) (waiting : after.waiting ≤ before.waiting)
    (count : after.started = before.started) : after.Rests status started where
  status := row.trans rests.status
  started := count.trans rests.started
  tokenless := tokenless_turn rests.tokenless roles shut waiting

theorem rests_step (rooted : d.rooted) (rests : before.Rests status started)
    (cancellable : status = .failed ∨ status = .completed)
    (kept : status = .failed → ∀ thread, label ≠ .act thread .requeues)
    (step : Step d before label after) : after.Rests status started := by
  have row : before.row.map Row.status = some status := rests.status
  cases step with
  | @enters thread token brief gone fresh =>
    have absent : token = .absent := fresh.resolve_right fun owed => owed.2 rooted
    subst absent
    exact rests.turn rfl (turns_to (by simp [Token.isOpen])) rfl (Nat.le_refl _) rfl
  | inserts current absent missing => simp [missing] at row
  | cancels current idle found notActive notCompleted rewrites =>
    -- Only a job that failed before can be cancelled here, and it fails again.
    have old : status = .failed := cancellable.resolve_right fun completed => by
      simp only [found, Option.map_some, Option.some.injEq] at row
      exact notCompleted (row.trans completed)
    refine rests.turn rfl (turns_to fun opened => rests.notLive current opened) ?_ (Nat.le_refl _) rfl
    rw [rests.status, old, put_status]
    exact congrArg some rewrites.status
  | @requeues thread role old new current absent found retriable rewrites =>
    simp only [found, Option.map_some, Option.some.injEq] at row
    rcases cancellable with failed | completed
    · exact absurd rfl (kept failed thread)
    · rcases retriable with failed | dead
      · simp [← row, failed] at completed
      · simp [← row, dead] at completed
  | marks current opened => exact absurd opened (rests.notLive current)
  | marksNothing current opened => exact absurd opened (rests.notLive current)
  | failsToMark current opened => exact absurd opened (rests.notLive current)
  | places current opened => exact absurd opened (rests.notLive current)
  | buries current due =>
    exact rests.turn rfl (turns_to (by simp [Token.isOpen])) rfl (Nat.le_refl _) rfl
  | removes current cancelled fewer | drops blind fewer =>
    exact ⟨rests.status, rests.started,
      Nat.le_zero.mp (rests.tokenless.1 ▸ fewer.waiting), rests.tokenless.2⟩
  | promotes fewer =>
    exact ⟨rests.status, rests.started,
      Nat.le_zero.mp (rests.tokenless.1 ▸ fewer), rests.tokenless.2⟩
  | claims gone free lost => exact absurd (rests.tokenless.1 ▸ lost) (Nat.not_lt_zero _)
  | unlists current | failsToUnlist current | unlocks current | failsToUnlock current =>
    exact rests.turn rfl (turns_to fun opened => rests.notLive current opened) rfl (Nat.le_refl _) rfl
  | starts current opened => exact absurd opened (rests.notLive current)
  | succeeds current opened => exact absurd opened (rests.notLive current)
  | fails current opened => exact absurd opened (rests.notLive current)
  | misses current opened => exact absurd opened (rests.notLive current)
  | other => exact rests
  | leaves | crashes => exact rests.turn rfl turns_away rfl (Nat.le_refl _) rfl
  | expires => exact ⟨rests.status, rests.started, rests.tokenless⟩

end Life

end Taskfire
