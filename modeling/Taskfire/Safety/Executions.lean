import Taskfire.Safety.Runs
import Taskfire.Snapshot.Marks

/-!
# How often a job was executed

`Executions` counts, beside a run of the system, how often the row of a job was marked active and how
often its handler was started, since it was created or last reset.  Every record of a job that is not
cancelled agrees with this count (`Life.Accounted`), and so does its row.
-/

namespace Taskfire

open Taskfire.Library

/-! ## What is counted -/

/-- Since the job was created or last reset. -/
structure Executions where
  /-- How often the row was marked active. -/
  marked : Nat
  /-- How often the handler was started. -/
  started : Nat

namespace Executions

def fresh : Executions := ⟨0, 0⟩

/-- After the status was written to the row. -/
def marking (executions : Executions) (status : JobStatus) : Executions :=
  if status = .active then { executions with marked := executions.marked + 1 } else executions

theorem marking_bounds {executions : Executions} (status : JobStatus)
    (started : executions.started ≤ executions.marked) :
    (executions.marking status).started ≤ (executions.marking status).marked := by
  rw [marking]
  split
  · exact Nat.le_succ_of_le started
  · exact started

def after (executions : Executions) (id : JobId) : (c : Call) → c.Reply → Executions
  | .insertJob params, reply =>
    if params.id = id ∧ reply.isOk = true then .fresh else executions
  | .requeueJob job resetRetries, reply => match reply with
    | .ok (some _) => if job = id ∧ resetRetries = true then .fresh else executions
    | _ => executions
  | .updateJobStatus job, reply =>
    if job.id = id ∧ reply.isOk = true then executions.marking job.status else executions
  | .startHandler job, _ =>
    if job.id = id then { executions with started := executions.started + 1 } else executions
  | _, _ => executions

def record (id : JobId) (executions : Executions) (state : SystemState) :
    SystemAction → Executions
  | .exec thread env =>
    match (state.threads thread).next? with
    | some c => executions.after id c (perform env state.store c).1
    | none => executions
  | _ => executions

end Executions

/-! ## The life of the job -/

/-- What the row counts. -/
def Row.counts (row : Row) (executions : Executions) : Prop :=
  match row.status with
  | .active | .completed => row.retryCount + 1 = executions.marked
  | .pending | .dead => row.retryCount = executions.marked
  | .failed => False

/-- A count that is in a row is an `INTEGER`, give or take one. -/
theorem Row.marked_le {row : Row} {executions : Executions} (counts : row.counts executions) :
    executions.marked ≤ 2147483648 := by
  have within := row.retryCountLteMax
  have integer := row.maxRetriesInteger
  simp only [Row.counts] at counts
  split at counts
  · omega
  · omega
  · omega
  · omega
  · exact counts.elim

/-- What the record counts that a thread carries, by what the thread has done with it. -/
def Role.counts (role : Role) (executions : Executions) : Prop :=
  match role.token, role.attempt with
  | .absent, attempt => attempt = .due
  | .owed, .due | .owed, .failed | .active, .failed => role.brief.retryCount = executions.marked
  | .active, .due =>
    role.brief.retryCount + 1 = executions.marked ∧ executions.started < executions.marked
  | .active, .running | .active, .passed => role.brief.retryCount + 1 = executions.marked
  | .owed, _ | .unmarked _, _ => False
  | _, _ => True

/-- The thread may do this to a job that is not cancelled and whose row can be written. -/
def Role.may (role : Role) : Event → Prop
  | .marks status => role.mayMark status
  | .places => role.mayReturn
  | .cancels | .failsToMark _ => False
  | _ => True

section

variable {role : Role} {executions : Executions}

/-- A thread without a record says nothing of what is counted. -/
theorem Role.counts_of_shut (counts : role.counts executions) (shut : ¬role.token.isOpen = true)
    (other : Executions) : role.counts other := by
  obtain ⟨stage, token, brief, attempt⟩ := role
  cases token with
  | owed | active | unmarked => exact absurd rfl shut
  | absent => exact counts
  | placed | dying | buried | completed => exact trivial

/-- A thread that deals with the handler has marked the row, and the row counts its attempt. -/
theorem Role.counts_handled (counts : role.counts executions) (opened : role.token.isOpen = true)
    (handled : role.token ≠ .owed) (unfinished : role.attempt = .due ∨ role.attempt = .running) :
    role.token = .active ∧ role.brief.retryCount + 1 = executions.marked ∧
      (role.attempt = .due → executions.started < executions.marked) := by
  obtain ⟨stage, token, brief, attempt⟩ := role
  cases token with
  | owed => exact absurd rfl handled
  | unmarked => exact counts.elim
  | absent | placed | dying | buried | completed => cases opened
  | active =>
    obtain due | running := unfinished
    · cases due
      exact ⟨rfl, counts.1, fun _ => counts.2⟩
    · cases running
      exact ⟨rfl, counts, nofun⟩

/-- A record that goes back counts how often the row was marked. -/
theorem Role.retryCount_of_return (counts : role.counts executions)
    (opened : role.token.isOpen = true) (may : role.mayReturn)
    (ended : role.attempt = .due ∨ role.attempt = .failed) :
    role.brief.retryCount = executions.marked := by
  obtain ⟨stage, token, brief, attempt⟩ := role
  obtain due | failed := ended
  · cases due
    cases may rfl
    exact counts
  · cases failed
    cases token with
    | owed | active => exact counts
    | unmarked => exact counts.elim
    | absent | placed | dying | buried | completed => cases opened

/-- A status that is written to the row takes the count of the record along. -/
theorem Role.counts_mark {status : JobStatus} (counts : role.counts executions)
    (opened : role.token.isOpen = true) (may : role.mayMark status)
    (started : executions.started ≤ executions.marked) :
    Role.counts { role with token := .marked status } (executions.marking status) ∧
      ∀ row : Row, row.status = status → row.retryCount = role.brief.retryCount →
        row.counts (executions.marking status) := by
  obtain ⟨stage, token, brief, attempt⟩ := role
  cases status with
  | active =>
    obtain ⟨due, owed⟩ := may
    cases due
    cases owed
    have count : brief.retryCount = executions.marked := counts
    have next : brief.retryCount + 1 = (executions.marked + 1 : Nat) := by omega
    refine ⟨⟨next, Nat.lt_succ_of_le started⟩, fun row same taken => ?_⟩
    simp only [Row.counts, same, taken]
    exact next
  | completed =>
    cases may
    have count : brief.retryCount + 1 = executions.marked := by
      cases token with
      | active => exact counts
      | owed | unmarked => exact counts.elim
      | absent | placed | dying | buried | completed => cases opened
    refine ⟨trivial, fun row same taken => ?_⟩
    simp only [Row.counts, same, taken]
    exact count
  | pending | dead =>
    cases may
    have count : brief.retryCount = executions.marked :=
      Role.retryCount_of_return counts opened nofun (.inr rfl)
    refine ⟨by first | exact count | trivial, fun row same taken => ?_⟩
    simp only [Row.counts, same, taken]
    exact count
  | failed => exact may.elim

end

namespace Life

structure Retried (life : Life) (label : Label) : Prop where
  own : FromRow label
  may : ∀ thread event role, label = .act thread event → life.roles thread = some role →
    role.may event

structure Accounted (executions : Executions) (life : Life) : Prop where
  unique : life.Unique
  dead : life.status = some .dead → life.tokenless
  stored : ∀ brief, life.carried brief → 0 < life.waiting
  started : executions.started ≤ executions.marked
  row : ∀ row, life.row = some row → row.counts executions
  waits : ∀ brief, life.carried brief → brief.retryCount = executions.marked
  held : ∀ thread role, life.roles thread = some role → role.counts executions

/-- What is counted after an event. -/
def Follows (before after : Executions) (life : Life) : Event → Prop
  | .inserts _ _ => after = .fresh
  | .requeues => (after = .fresh ∨ after = before) ∧
      ∀ row, life.row = some row → row.retryCount = after.marked
  | .marks status => after = before.marking status
  | .starts => after = { before with started := before.started + 1 }
  | _ => after = before

/-- What is counted after a step. -/
def Records (before after : Executions) (life : Life) : Label → Prop
  | .act _ event => Follows before after life event
  | _ => after = before

section

variable {d : Discipline} {before after : Life} {label : Label} {thread : Nat}
variable {executions executions' : Executions}

/-- A thread turns to another role, and nothing else changes that counts. -/
theorem Accounted.turn {next : Option Role} (counted : before.Accounted executions)
    (unique : after.Unique) (roles : after.roles = (before.put thread next).roles)
    (mine : ∀ held, next = some held → held.counts executions ∧
      (held.token.isOpen = true → before.live thread))
    (row : after.row = before.row) (waiting : after.waiting ≤ before.waiting)
    (stored : ∀ brief, after.carried brief → 0 < after.waiting ∧ before.carried brief) :
    after.Accounted executions where
  unique := unique
  dead := by
    intro dead
    have none : before.tokenless := counted.dead (by rwa [status, ← row])
    apply tokenless_turn none roles _ waiting
    intro held shape opened
    exact none.2 thread ((mine held shape).2 opened)
  stored := fun brief carried => (stored brief carried).1
  started := counted.started
  row := by rw [row]; exact counted.row
  waits := fun brief carried => counted.waits brief (stored brief carried).2
  held := by
    intro other role current
    obtain ⟨_, shape⟩ | ⟨_, old⟩ := role_of_turned roles current
    · exact (mine role shape).1
    · exact counted.held other role old

/-- A failed attempt is counted in the record, as it was in the row. -/
theorem Accounted.fail {role : Role} (counted : before.Accounted executions)
    (unique : (before.put thread (some role.failedOnce)).Unique)
    (current : before.roles thread = some role) (opened : role.token.isOpen = true)
    (handled : role.token ≠ .owed) (unfinished : role.attempt = .due ∨ role.attempt = .running) :
    (before.put thread (some role.failedOnce)).Accounted executions := by
  obtain ⟨active, count, _⟩ :=
    Role.counts_handled (counted.held thread role current) opened handled unfinished
  obtain ⟨row, found⟩ : ∃ row, before.row = some row := by
    have rooted := counted.unique.row_of_live (live_of_open current opened)
    exact Option.ne_none_iff_exists'.mp fun missing => rooted (.inl missing)
  have most := Row.marked_le (counted.row row found)
  have counts : role.failedOnce.counts executions := by
    simp only [Role.counts, Role.failedOnce, Brief.failedOnce, active]
    rw [goInt_of_fits (by omega) (by omega)]
    exact count
  refine counted.turn unique rfl (turns_to ⟨counts, fun _ => ⟨role, current, opened⟩⟩) rfl
    (Nat.le_refl _) ?_
  exact fun brief carried => ⟨counted.stored brief carried, carried⟩

/-- Records may go, and those that stay say what they said. -/
theorem Accounted.shrink (counted : before.Accounted executions) (unique : after.Unique)
    (roles : after.roles = before.roles) (row : after.row = before.row)
    (waiting : after.waiting ≤ before.waiting)
    (stored : ∀ brief, after.carried brief → 0 < after.waiting ∧ before.carried brief) :
    after.Accounted executions := by
  have same : after.roles = (before.put 0 (before.roles 0)).roles := by
    rw [roles, put, Function.update_eq_self]
  refine counted.turn unique same ?_ row waiting stored
  intro held current
  exact ⟨counted.held 0 held current, fun opened => ⟨held, current, opened⟩⟩

/-- What the only thread with a record does decides what is counted. -/
theorem Accounted.carry {next : Role} (counted : before.Accounted executions)
    (alive : before.live thread) (unique : after.Unique)
    (roles : after.roles = (before.put thread (some next)).roles)
    (mine : next.counts executions')
    (shut : after.status = some .dead → ¬next.token.isOpen = true)
    (started : executions'.started ≤ executions'.marked)
    (row : ∀ row, after.row = some row → row.counts executions')
    (waiting : after.waiting = before.waiting) (carried : after.carried = before.carried) :
    after.Accounted executions' where
  unique := unique
  dead := by
    intro dead
    refine ⟨waiting.trans (counted.unique.waiting_of_live alive), fun other lives => ?_⟩
    obtain ⟨_, held, shape, opened⟩ | ⟨different, old⟩ := plays_of_turned roles lives
    · cases shape
      exact shut dead opened
    · exact different (counted.unique.one other thread old alive)
  stored := by rw [carried, waiting]; exact counted.stored
  started := started
  row := row
  waits := by
    intro brief carries
    rw [carried] at carries
    exact absurd alive (counted.unique.alone (counted.stored brief carries) thread)
  held := by
    intro other role current
    obtain ⟨_, shape⟩ | ⟨different, old⟩ := role_of_turned roles current
    · cases shape
      exact mine
    · refine Role.counts_of_shut (counted.held other role old) ?_ executions'
      exact fun opened => different (counted.unique.one other thread ⟨role, old, opened⟩ alive)

/-- A thread gets the first record of a job that has none. -/
theorem Accounted.obtain {role : Role} {row : Row} (counted : before.Accounted executions)
    (none : before.tokenless) (unique : after.Unique)
    (roles : after.roles = (before.put thread (some role)).roles)
    (mine : role.counts executions') (found : after.row = some row)
    (pending : row.status = .pending) (counts : row.retryCount = executions'.marked)
    (started : executions'.started ≤ executions'.marked)
    (waiting : after.waiting = before.waiting) (carried : after.carried = before.carried) :
    after.Accounted executions' where
  unique := unique
  dead := by
    intro dead
    rw [status, found, Option.map_some, pending] at dead
    cases dead
  stored := by rw [carried, waiting]; exact counted.stored
  started := started
  row := by
    intro row' same
    rw [found, Option.some.injEq] at same
    subst same
    simpa only [Row.counts, pending] using counts
  waits := by
    intro brief carries
    rw [carried] at carries
    have positive := counted.stored brief carries
    have empty := none.1
    omega
  held := by
    intro other held current
    obtain ⟨_, shape⟩ | ⟨_, old⟩ := role_of_turned roles current
    · cases shape
      exact mine
    · refine Role.counts_of_shut (counted.held other held old) ?_ executions'
      exact fun opened => none.2 other ⟨held, old, opened⟩

/-- A job is requeued when no record of it is left. -/
theorem Accounted.alone (counted : before.Accounted executions) (step : Step d before label after) :
    RetriesAlone before label := by
  intro thread requeues
  subst requeues
  cases step with
  | requeues current absent found retriable =>
    obtain failed | dead := retriable
    · have counts := counted.row _ found
      simp only [Row.counts, failed] at counts
    · exact counted.dead (by rw [status, found, Option.map_some, dead])

/-- The only thread with a record marks the row. -/
theorem Accounted.mark {role : Role} {old new : Row} {status : JobStatus}
    (counted : before.Accounted executions) (current : before.roles thread = some role)
    (opened : role.token.isOpen = true) (may : role.mayMark status)
    (rewrites : Jobs.Rewrites old new status role.brief.retryCount)
    (unique : ({ before with row := some new }.put thread
      (some { role with token := .marked status })).Unique) :
    ({ before with row := some new }.put thread
      (some { role with token := .marked status })).Accounted (executions.marking status) := by
  obtain ⟨mine, row⟩ :=
    Role.counts_mark (counted.held thread role current) opened may counted.started
  refine counted.carry ⟨role, current, opened⟩ unique rfl mine ?_ ?_ ?_ rfl rfl
  · intro dead
    have same : new.status = .dead := Option.some.inj dead
    rw [rewrites.status] at same
    subst same
    exact Bool.false_ne_true
  · exact executions.marking_bounds status counted.started
  · intro written same
    cases same
    exact row new rewrites.status rewrites.retryCount

/-- The only thread with a record puts it back, and the record counts as often as it was marked. -/
theorem Accounted.place {role : Role} {waiting : Nat} {carried : Brief → Prop}
    (counted : before.Accounted executions) (current : before.roles thread = some role)
    (opened : role.token.isOpen = true) (may : role.mayReturn)
    (ended : role.attempt = .due ∨ role.attempt = .failed) (positive : 0 < waiting)
    (briefs : ∀ brief, carried brief ↔ before.carried brief ∨ brief = role.brief)
    (unique : ({ before with waiting, carried, enqueued := true }.put thread
      (some { role with token := .placed, stage := role.stage.putBack })).Unique) :
    ({ before with waiting, carried, enqueued := true }.put thread
      (some { role with token := .placed, stage := role.stage.putBack })).Accounted executions := by
  constructor
  · exact unique
  · exact fun dead => absurd ⟨role, current, opened⟩ ((counted.dead dead).2 thread)
  · exact fun _ _ => positive
  · exact counted.started
  · exact counted.row
  · intro brief carries
    obtain old | same := (briefs brief).mp carries
    · exact counted.waits brief old
    · subst same
      exact Role.retryCount_of_return (counted.held thread role current) opened may ended
  · intro other held shape
    obtain ⟨_, same⟩ | ⟨_, old⟩ := role_of_turned rfl shape
    · cases same
      exact trivial
    · exact counted.held other held old

/-- A thread claims the record that waited. -/
theorem Accounted.claim {brief : Brief} {waiting : Nat} {carried : Brief → Prop}
    (counted : before.Accounted executions) (carries : before.carried brief)
    (fewer : before.Fewer waiting carried)
    (unique : ({ before with waiting, carried, locked := true, listed := true }.put thread
      (some ⟨.claimed, .owed, brief, .due⟩)).Unique) :
    ({ before with waiting, carried, locked := true, listed := true }.put thread
      (some ⟨.claimed, .owed, brief, .due⟩)).Accounted executions := by
  have positive := counted.stored brief carries
  constructor
  · exact unique
  · intro dead
    have none := (counted.dead dead).1
    omega
  · exact fewer.left
  · exact counted.started
  · exact counted.row
  · exact fun other still => counted.waits other (fewer.carried other still)
  · intro other held shape
    obtain ⟨_, same⟩ | ⟨_, old⟩ := role_of_turned rfl shape
    · cases same
      exact counted.waits brief carries
    · exact counted.held other held old

theorem accounted_step (counted : before.Accounted executions) (kept : Retried before label)
    (step : Step d before label after) (records : Records executions executions' after label) :
    after.Accounted executions' := by
  have alone := counted.alone step
  have unique := unique_step_of_row kept.own counted.unique alone step
  have stored (brief : Brief) (carried : before.carried brief) :
      0 < before.waiting ∧ before.carried brief := ⟨counted.stored brief carried, carried⟩
  cases step with
  | @enters thread token brief gone fresh =>
    subst records
    have absent := kept.own.absent fresh
    subst absent
    refine counted.turn unique rfl (turns_to ⟨rfl, ?_⟩) rfl (Nat.le_refl _) stored
    intro opened
    cases opened
  | @inserts thread role row current absent missing pending zero =>
    subst records
    have counts := counted.held thread role current
    have due : role.attempt = .due := by simpa only [Role.counts, absent] using counts
    refine counted.obtain (counted.unique.barren (.inl missing)) unique rfl ?_ rfl pending zero
      (Nat.le_refl _) rfl rfl
    simp only [Role.counts, due]
    exact zero
  | cancels current => exact (kept.may _ _ _ rfl current).elim
  | @requeues thread role old new current absent found retriable rewrites =>
    obtain ⟨reset, counts⟩ := records
    have due : role.attempt = .due := by
      simpa only [Role.counts, absent] using counted.held thread role current
    have started : executions'.started ≤ executions'.marked := by
      obtain same | same := reset
      · rw [same]
        exact Nat.le_refl _
      · rw [same]
        exact counted.started
    refine counted.obtain (alone thread rfl) unique rfl ?_ rfl rewrites.status (counts new rfl) started
      rfl rfl
    simp only [Role.counts, due]
    exact counts new rfl
  | marks current opened found lower upper rewrites =>
    subst records
    exact counted.mark current opened (kept.may _ _ _ rfl current) rewrites unique
  | marksNothing current opened missing =>
    exact absurd (.inl missing) (counted.unique.row_of_live (live_of_open current opened))
  | failsToMark current => exact (kept.may _ _ _ rfl current).elim
  | places current opened may positive upper briefs =>
    subst records
    exact counted.place current opened (kept.may _ _ _ rfl current)
      (may.imp_right fun failed => failed.1) positive briefs unique
  | buries current due =>
    subst records
    refine counted.turn unique rfl (turns_to ⟨trivial, ?_⟩) rfl (Nat.le_refl _) stored
    intro opened
    cases opened
  | removes _ _ fewer | drops _ fewer =>
    subst records
    exact counted.shrink unique rfl rfl fewer.waiting fun brief carries =>
      ⟨fewer.left brief carries, fewer.carried brief carries⟩
  | promotes fewer positive =>
    subst records
    exact counted.shrink unique rfl rfl fewer fun brief carries =>
      ⟨positive (counted.stored brief carries), carries⟩
  | claims gone free lost carries fewer =>
    subst records
    exact counted.claim carries fewer unique
  | @unlists thread role current | @failsToUnlist thread role current | @unlocks thread role current
  | @failsToUnlock thread role current =>
    subst records
    refine counted.turn unique rfl (turns_to ⟨counted.held _ role current, ?_⟩) rfl (Nat.le_refl _) stored
    exact fun opened => ⟨role, current, opened⟩
  | @starts thread role current opened handled stage due =>
    subst records
    obtain ⟨active, count, fewer⟩ :=
      Role.counts_handled (counted.held thread role current) opened handled (.inl due)
    refine counted.carry ⟨role, current, opened⟩ unique rfl ?_ ?_ (fewer due) counted.row rfl rfl
    · simpa only [Role.counts, active] using count
    -- A thread with a record is not dead, and its row was not written in this step.
    · exact fun dead => absurd ⟨role, current, opened⟩ ((counted.dead dead).2 thread)
  | @succeeds thread role current opened handled stage running =>
    subst records
    obtain ⟨active, count, _⟩ :=
      Role.counts_handled (counted.held thread role current) opened handled (.inr running)
    refine counted.turn unique rfl (turns_to ⟨?_, fun opened => ⟨role, current, opened⟩⟩) rfl
      (Nat.le_refl _) stored
    simpa only [Role.counts, active] using count
  | fails current opened handled stage running =>
    subst records
    exact counted.fail unique current opened handled (.inr running)
  | misses current opened handled stage due =>
    subst records
    exact counted.fail unique current opened handled (.inl due)
  | other =>
    subst records
    exact counted
  | leaves | crashes =>
    subst records
    exact counted.turn unique rfl turns_away rfl (Nat.le_refl _) stored
  | expires =>
    subst records
    exact ⟨unique, counted.dead, counted.stored, counted.started, counted.row, counted.waits, counted.held⟩

end

/-! ## Executions that are due -/

/-- A thread has marked the row, and goes on to the handler. -/
def awaited (life : Life) : Prop := ∃ thread role, life.roles thread = some role ∧ role.awaits

/-- The handler was started as often as the row was marked active, or will be. -/
def CaughtUp (executions : Executions) (life : Life) : Prop :=
  executions.started = executions.marked ∨
    (executions.started + 1 = executions.marked ∧ life.awaited)

/-- The job has a handler, and a thread that goes on to it does not stop. -/
structure Attended (life : Life) (label : Label) : Prop where
  found : ∀ thread, label ≠ .act thread .misses
  stays : ∀ thread role, label = .crash thread ∨ label = .leave thread →
    life.roles thread = some role → ¬role.awaits

section

variable {d : Discipline} {before after : Life} {label : Label} {thread : Nat}
variable {executions executions' : Executions}

theorem CaughtUp.settled (caught : before.CaughtUp executions) (calm : ¬before.awaited) :
    executions.started = executions.marked :=
  caught.resolve_right fun due => calm due.2

/-- A thread turns to another role, and still goes on to the handler if it did. -/
theorem CaughtUp.turn {next : Option Role} (caught : before.CaughtUp executions)
    (roles : after.roles = (before.put thread next).roles)
    (kept : (∃ role, before.roles thread = some role ∧ role.awaits) →
      ∃ held, next = some held ∧ held.awaits) : after.CaughtUp executions := by
  obtain even | ⟨late, other, awaits⟩ := caught
  · exact .inl even
  · exact .inr ⟨late, other, plays_turned roles kept awaits⟩

/-- The role that awaits the handler is that of the only thread with a record. -/
theorem Unique.awaits {role : Role} (unique : before.Unique) (current : before.roles thread = some role)
    (opened : role.token.isOpen = true) (awaited : before.awaited) : role.awaits := by
  obtain ⟨other, held, plays, awaits⟩ := awaited
  have alive : before.live other := ⟨held, plays, by rw [awaits.1]; rfl⟩
  have same := unique.one other thread alive ⟨role, current, opened⟩
  subst same
  rw [current, Option.some.injEq] at plays
  rwa [plays]

theorem not_awaited_of_tokenless (none : before.tokenless) : ¬before.awaited := by
  intro ⟨thread, role, current, awaits⟩
  exact none.2 thread ⟨role, current, by rw [awaits.1]; rfl⟩

/-- A handler is started exactly when it is awaited. -/
theorem caughtUp_step (whole : ¬d.bare) (caught : before.CaughtUp executions)
    (counted : before.Accounted executions) (kept : Retried before label)
    (attended : Attended before label) (step : Step d before label after)
    (records : Records executions executions' after label) : after.CaughtUp executions' := by
  have alone := counted.alone step
  -- A role that does not await the handler may become any other.
  have turns {thread : Nat} {role : Role} (current : before.roles thread = some role)
      (calm : ¬role.awaits) {next : Option Role} :
      (∃ held, before.roles thread = some held ∧ held.awaits) →
        ∃ held, next = some held ∧ held.awaits := by
    intro ⟨held, same, awaits⟩
    rw [current, Option.some.injEq] at same
    subst same
    exact absurd awaits calm
  cases step with
  | enters gone fresh =>
    subst records
    refine caught.turn rfl ?_
    rintro ⟨held, current, _⟩
    rw [gone] at current
    cases current
  | inserts =>
    subst records
    exact .inl rfl
  | cancels current => exact (kept.may _ _ _ rfl current).elim
  | @requeues thread role old new current absent found retriable rewrites =>
    have even := caught.settled (not_awaited_of_tokenless (alone thread rfl))
    obtain ⟨same | same, _⟩ := records
    · subst same
      exact .inl rfl
    · subst same
      exact .inl even
  | @marks thread role old new status current opened found lower upper rewrites =>
    subst records
    have may : role.mayMark status := kept.may _ _ _ rfl current
    have even : executions.started = executions.marked := by
      refine caught.settled fun awaited => ?_
      obtain ⟨active, due⟩ := counted.unique.awaits current opened awaited
      simp only [Role.mayMark, active, due] at may
      split at may
      · cases may.2
      · cases may
      · cases may
      · cases may
      · exact may
    cases status with
    | active =>
      refine .inr ⟨congrArg (· + 1) even, thread, _, put_same .., ?_⟩
      exact ⟨rfl, may.1⟩
    | completed | pending | dead | failed => exact .inl even
  | marksNothing current opened missing =>
    exact absurd (.inl missing) (counted.unique.row_of_live (live_of_open current opened))
  | failsToMark current => exact (kept.may _ _ _ rfl current).elim
  | @places thread role waiting carried current opened may positive upper briefs =>
    subst records
    have mayReturn : role.mayReturn := kept.may _ _ _ rfl current
    refine caught.turn rfl (turns current fun awaits => ?_)
    have owed := mayReturn awaits.2
    rw [awaits.1] at owed
    cases owed
  | @buries thread role letters current due =>
    subst records
    refine caught.turn rfl (turns current fun awaits => ?_)
    rw [awaits.1] at due
    obtain dying | unmarked | bare := due
    · cases dying
    · cases unmarked
    · exact whole bare.1
  | removes | drops | promotes | other | expires =>
    subst records
    exact caught
  | claims gone =>
    subst records
    refine caught.turn rfl ?_
    rintro ⟨held, current, _⟩
    rw [gone] at current
    cases current
  | unlists current | failsToUnlist current | unlocks current | failsToUnlock current =>
    subst records
    refine caught.turn rfl ?_
    rintro ⟨held, same, awaits⟩
    rw [current, Option.some.injEq] at same
    subst same
    exact ⟨_, rfl, awaits⟩
  | @starts thread role current opened handled stage due =>
    subst records
    obtain ⟨_, _, fewer⟩ :=
      Role.counts_handled (counted.held thread role current) opened handled (.inl due)
    have late := fewer due
    obtain even | ⟨next, _⟩ := caught
    · omega
    · exact .inl next
  | succeeds current opened handled stage running | fails current opened handled stage running =>
    subst records
    refine caught.turn rfl (turns current fun awaits => ?_)
    rw [awaits.2] at running
    cases running
  | misses => exact (attended.found _ rfl).elim
  | leaves =>
    subst records
    refine caught.turn rfl ?_
    rintro ⟨role, current, awaits⟩
    exact absurd awaits (attended.stays _ role (.inr rfl) current)
  | crashes =>
    subst records
    refine caught.turn rfl ?_
    rintro ⟨role, current, awaits⟩
    exact absurd awaits (attended.stays _ role (.inl rfl) current)

end

end Life

end Taskfire
