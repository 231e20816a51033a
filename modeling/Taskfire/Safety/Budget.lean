import Taskfire.Safety.DeadLetters

/-!
# The budget of a job

The row allows a job `max_retries` failures, and the retry manager allows its type `MaxRetries`;
whatever that is, the first failure is always counted.  Where the row allows at least as many
failures as the manager and at least one, the worker's updates stay within the row's constraint.

The invariant behind it follows the only record of the job: its retry count bounds how often a
handler was started, and the manager's budget bounds the count.
-/

namespace Taskfire

open Taskfire.Library

/-- The most failures a record of the type may count before it is given up. -/
def failureLimit (budget : String → Int) (jobType : String) : Int := max 1 (budget jobType)

namespace Attempt

/-- Whether the attempt's handler was started after the last failure. -/
def tries : Attempt → Int
  | .running | .passed => 1
  | .due | .failed => 0

/-- The failures the attempt may still add. -/
def risks : Attempt → Int
  | .failed => 0
  | .due | .running | .passed => 1

theorem tries_le_risks (attempt : Attempt) : attempt.tries ≤ attempt.risks := by
  cases attempt <;> decide

end Attempt

/-- The record fits the row: what it counts, and what it may still count, is within the limit, and
it counts every start of a handler but that of its own attempt. -/
structure Fits (budget : String → Int) (row : Row) (started : Nat) (brief : Brief)
    (attempt : Attempt) : Prop where
  jobType : brief.jobType = row.jobType
  lower : 0 ≤ brief.retryCount
  upper : brief.retryCount + attempt.risks ≤ failureLimit budget row.jobType
  started : started ≤ brief.retryCount + attempt.tries

namespace Fits

variable {budget : String → Int} {row : Row} {started : Nat} {brief : Brief} {attempt : Attempt}

theorem le_limit (fits : Fits budget row started brief attempt) :
    brief.retryCount ≤ failureLimit budget row.jobType := by
  have upper := fits.upper
  have risks : 0 ≤ attempt.risks := by cases attempt <;> decide
  omega

theorem started_le_limit (fits : Fits budget row started brief attempt) :
    started ≤ failureLimit budget row.jobType := by
  have upper := fits.upper
  have counted := fits.started
  have tries := attempt.tries_le_risks
  omega

/-- A failed attempt is counted, and Go's integers hold the count. -/
theorem failedOnce (fits : Fits budget row started brief attempt)
    (afforded : failureLimit budget row.jobType ≤ row.maxRetries)
    (unfinished : attempt = .due ∨ attempt = .running) :
    Fits budget row started brief.failedOnce .failed := by
  obtain ⟨jobType, lower, upper, counted⟩ := fits
  have integer := row.maxRetriesInteger
  have risks : attempt.risks = 1 := by
    obtain rfl | rfl := unfinished <;> rfl
  have tries : attempt.tries ≤ 1 := risks ▸ attempt.tries_le_risks
  have count : goInt (brief.retryCount + 1) = brief.retryCount + 1 :=
    goInt_of_fits (by omega) (by omega)
  refine ⟨jobType, ?_, ?_, ?_⟩ <;>
    simp only [Brief.failedOnce, Attempt.risks, Attempt.tries, count] <;> omega

/-- A handler is started for a record that was not tried yet. -/
theorem start (fits : Fits budget row started brief .due) :
    Fits budget row (started + 1) brief .running := by
  obtain ⟨jobType, lower, upper, counted⟩ := fits
  refine ⟨jobType, lower, upper, ?_⟩
  simp only [Attempt.tries] at counted ⊢
  omega

/-- A record that is put back after a failure may be tried again. -/
theorem retry (fits : Fits budget row started brief attempt)
    (may : attempt = .due ∨ (attempt = .failed ∧ brief.retryCount < budget brief.jobType)) :
    Fits budget row started brief .due := by
  obtain rfl | ⟨rfl, within⟩ := may
  · exact fits
  · obtain ⟨jobType, lower, upper, counted⟩ := fits
    refine ⟨jobType, lower, ?_, counted⟩
    rw [jobType] at within
    simp only [Attempt.risks, failureLimit]
    omega

/-- The fit only depends on what an update leaves alone. -/
theorem rewrites {new : Row} {status : JobStatus} {retryCount : Int}
    (fits : Fits budget row started brief attempt)
    (rewrites : Jobs.Rewrites row new status retryCount) :
    Fits budget new started brief attempt := by
  obtain ⟨jobType, lower, upper, counted⟩ := fits
  exact ⟨jobType.trans rewrites.jobType.symm, lower, by rwa [rewrites.jobType], counted⟩

end Fits

namespace Life

/-- Every record of the job fits its row, and so does the number of starts. -/
structure Counted (budget : String → Int) (life : Life) : Prop where
  fresh : life.row = none → life.started = 0
  left : ∀ brief, life.carried brief → 0 < life.waiting
  afforded : ∀ row, life.row = some row → failureLimit budget row.jobType ≤ row.maxRetries
  started : ∀ row, life.row = some row → life.started ≤ failureLimit budget row.jobType
  carried : ∀ row brief, life.row = some row → life.carried brief →
    Fits budget row life.started brief .due
  held : ∀ row thread role, life.row = some row → life.roles thread = some role →
    role.token.isOpen = true → Fits budget row life.started role.brief role.attempt
  marked : ∀ thread role, life.roles thread = some role → role.token ≠ .unmarked .dead

/-- No request writes the job's row, the row allows what the manager allows, and only its constraints
refuse an update to dead. -/
structure Affords (budget : String → Int) (life : Life) (label : Label) : Prop where
  cancels : ∀ thread, label ≠ .act thread .cancels
  requeues : ∀ thread, label ≠ .act thread .requeues
  inserts : ∀ thread jobType maxRetries, label = .act thread (.inserts jobType maxRetries) →
    failureLimit budget jobType ≤ maxRetries
  refused : ∀ thread role, label = .act thread (.failsToMark .dead) →
    life.roles thread = some role → ∃ old, life.row = some old ∧
      ¬ (0 ≤ role.brief.retryCount ∧ role.brief.retryCount ≤ old.maxRetries)

variable {before after : Life} {d : Discipline} {label : Label} {thread : Nat}

/-- One thread turns to another role that fits, and nothing else changes but which of the records
still wait. -/
theorem Counted.turn {budget : String → Int} {next : Option Role}
    (counted : before.Counted budget) (roles : after.roles = (before.put thread next).roles)
    (row : after.row = before.row) (started : after.started = before.started)
    (carried : ∀ brief, after.carried brief → before.carried brief)
    (left : ∀ brief, after.carried brief → 0 < after.waiting)
    (fits : ∀ row held, before.row = some row → next = some held → held.token.isOpen = true →
      Fits budget row before.started held.brief held.attempt)
    (marked : ∀ held, next = some held → held.token ≠ .unmarked .dead) : after.Counted budget := by
  constructor
  · rw [row, started]
    exact counted.fresh
  · exact left
  · rw [row]
    exact counted.afforded
  · rw [row, started]
    exact counted.started
  · intro old brief found waits
    rw [started]
    exact counted.carried old brief (row ▸ found) (carried brief waits)
  · intro old other held found current opened
    rw [started]
    obtain ⟨_, turned⟩ | ⟨_, current⟩ := role_of_turned roles current
    · exact fits old held (row ▸ found) turned opened
    · exact counted.held old other held (row ▸ found) current opened
  · intro other held current
    obtain ⟨_, turned⟩ | ⟨_, current⟩ := role_of_turned roles current
    · exact marked held turned
    · exact counted.marked other held current

/-- A thread goes on with the record and the attempt it has. -/
theorem Counted.keep {budget : String → Int} {role next : Role} (counted : before.Counted budget)
    (current : before.roles thread = some role)
    (roles : after.roles = (before.put thread (some next)).roles)
    (same : next.token.isOpen = true → role.token.isOpen = true ∧ next.brief = role.brief ∧
      next.attempt = role.attempt)
    (marked : next.token ≠ .unmarked .dead) (row : after.row = before.row)
    (started : after.started = before.started) (carried : after.carried = before.carried)
    (waiting : after.waiting = before.waiting) : after.Counted budget := by
  refine counted.turn roles row started (fun _ => by rw [carried]; exact fun waits => waits)
    (fun _ => by rw [carried, waiting]; exact counted.left _) ?_ ?_
  · intro old held found turned opened
    cases turned
    obtain ⟨wasOpen, brief, attempt⟩ := same opened
    rw [brief, attempt]
    exact counted.held old thread role found current wasOpen
  · intro held turned
    cases turned
    exact marked

/-- The attempt of a thread's record fails, and its failure is counted. -/
theorem Counted.fail {budget : String → Int} {role : Role} (counted : before.Counted budget)
    (current : before.roles thread = some role) (opened : role.token.isOpen = true)
    (unfinished : role.attempt = .due ∨ role.attempt = .running) :
    (before.put thread (some role.failedOnce)).Counted budget := by
  refine counted.turn rfl rfl rfl (fun _ waits => waits) counted.left ?_ ?_
  · intro row held found turned stillOpen
    cases turned
    exact (counted.held row thread role found current opened).failedOnce
      (counted.afforded row found) unfinished
  · intro held turned
    cases turned
    exact counted.marked thread role current

/-- The row comes with the first record of the job, which counts no failure. -/
theorem Counted.insert {budget : String → Int} {role : Role} {row : Row}
    (counted : before.Counted budget) (unique : before.Unique) (missing : before.row = none)
    (zero : row.retryCount = 0) (afforded : failureLimit budget row.jobType ≤ row.maxRetries) :
    ({ before with row := some row }.put thread
      (some { role with token := .owed, brief := row.brief })).Counted budget := by
  -- Without a row there was no record, and no handler was started.
  have none := unique.barren (.inl missing)
  have unstarted := counted.fresh missing
  have limit : 1 ≤ failureLimit budget row.jobType := Int.le_max_left ..
  constructor
  · intro unwritten
    cases unwritten
  · exact counted.left
  · intro written inserted
    cases inserted
    exact afforded
  · intro written inserted
    cases inserted
    show (before.started : Int) ≤ _
    omega
  · intro _ brief _ waits
    have positive := counted.left brief waits
    exact absurd positive (by simp [none.1])
  · intro written other held inserted turned opened
    cases inserted
    obtain ⟨_, turns⟩ | ⟨_, old⟩ := role_of_turned rfl turned
    · cases turns
      have tries : 0 ≤ role.attempt.tries := by cases role.attempt <;> decide
      have risks : role.attempt.risks ≤ 1 := by cases role.attempt <;> decide
      refine ⟨rfl, by simp [Row.brief, zero], ?_, ?_⟩
      · simp only [Row.brief, zero]
        omega
      · simp only [Row.brief, zero, put_started]
        omega
    · exact absurd ⟨held, old, opened⟩ (none.2 other)
  · intro other held turned
    obtain ⟨_, turns⟩ | ⟨_, old⟩ := role_of_turned rfl turned
    · cases turns
      simp
    · exact counted.marked other held old

/-- The row gets a status and a count, and the thread keeps its record. -/
theorem Counted.mark {budget : String → Int} {role : Role} {old new : Row} {status : JobStatus}
    (counted : before.Counted budget) (current : before.roles thread = some role)
    (opened : role.token.isOpen = true) (found : before.row = some old)
    (rewrites : Jobs.Rewrites old new status role.brief.retryCount) :
    ({ before with row := some new }.put thread
      (some { role with token := .marked status })).Counted budget := by
  constructor
  · intro unwritten
    cases unwritten
  · exact counted.left
  · intro row written
    cases written
    rw [rewrites.jobType, rewrites.maxRetries]
    exact counted.afforded old found
  · intro row written
    cases written
    rw [rewrites.jobType]
    exact counted.started old found
  · intro row brief written waits
    cases written
    exact (counted.carried old brief found waits).rewrites rewrites
  · intro row other held written turned stillOpen
    cases written
    apply Fits.rewrites ?_ rewrites
    obtain ⟨_, turns⟩ | ⟨_, was⟩ := role_of_turned rfl turned
    · cases turns
      exact counted.held old thread role found current opened
    · exact counted.held old other held found was stillOpen
  · intro other held turned
    obtain ⟨_, turns⟩ | ⟨_, was⟩ := role_of_turned rfl turned
    · cases turns
      cases status <;> simp [Token.marked]
    · exact counted.marked other held was

/-- The thread has the only record, so no other one has to count the start of its handler. -/
theorem Counted.start {budget : String → Int} {role : Role} (counted : before.Counted budget)
    (unique : before.Unique) (current : before.roles thread = some role)
    (opened : role.token.isOpen = true) (due : role.attempt = .due) :
    ({ before with started := before.started + 1 }.put thread
      (some { role with attempt := .running })).Counted budget := by
  have alive := live_of_open current opened
  have empty := unique.waiting_of_live alive
  have fits (row : Row) (found : before.row = some row) :
      Fits budget row (before.started + 1) role.brief .running := by
    apply Fits.start
    rw [← due]
    exact counted.held row thread role found current opened
  constructor
  · exact fun missing => absurd (.inl missing) (unique.row_of_live alive)
  · exact counted.left
  · exact counted.afforded
  · exact fun row found => (fits row found).started_le_limit
  · intro row brief found waits
    have positive := counted.left brief waits
    omega
  · intro row other held found turned stillOpen
    obtain ⟨_, turns⟩ | ⟨different, old⟩ := role_of_turned rfl turned
    · cases turns
      exact fits row found
    · exact absurd (unique.one other thread ⟨held, old, stillOpen⟩ alive) different
  · intro other held turned
    obtain ⟨_, turns⟩ | ⟨_, old⟩ := role_of_turned rfl turned
    · cases turns
      exact counted.marked thread role current
    · exact counted.marked other held old

/-- Some records are gone. -/
theorem Counted.fewer {budget : String → Int} {waiting : Nat} {carried : Brief → Prop}
    (counted : before.Counted budget) (fewer : before.Fewer waiting carried) :
    Counted budget { before with waiting, carried } :=
  ⟨counted.fresh, fewer.left, counted.afforded, counted.started,
    fun row brief found waits => counted.carried row brief found (fewer.carried brief waits),
    counted.held, counted.marked⟩

theorem counted_step (rooted : d.rooted) (unique : before.Unique)
    (counted : before.Counted d.budget) (affords : Affords d.budget before label)
    (step : Step d before label after) : after.Counted d.budget := by
  cases step with
  | @enters thread token brief gone fresh =>
    have absent : token = .absent := fresh.resolve_right fun owed => owed.2 rooted
    subst absent
    refine counted.turn rfl rfl rfl (fun _ waits => waits) counted.left ?_ ?_
    · intro row role found entered opened
      cases entered
      cases opened
    · exact turns_to (by simp)
  | inserts current absent missing status zero =>
    exact counted.insert unique missing zero (affords.inserts _ _ _ rfl)
  | cancels => exact absurd rfl (affords.cancels _)
  | requeues => exact absurd rfl (affords.requeues _)
  | marks current opened found lower upper rewrites =>
    exact counted.mark current opened found rewrites
  | marksNothing current opened missing =>
    exact absurd (.inl missing) (unique.row_of_live (live_of_open current opened))
  | @failsToMark thread role status current opened =>
    refine counted.keep current rfl (fun _ => ⟨opened, rfl, rfl⟩) ?_ rfl rfl rfl rfl
    intro unmarked
    cases unmarked
    -- A record that fits its row keeps to the constraints, so its update is not refused.
    obtain ⟨old, found, outside⟩ := affords.refused thread role rfl current
    have fits := counted.held old thread role found current opened
    have limit := fits.le_limit
    have afforded := counted.afforded old found
    exact outside ⟨fits.lower, by omega⟩
  | @places thread role waiting carried current opened may positive upper briefs =>
    -- The closed token counts nothing more; the one new record is that of the thread.
    have closed : Counted d.budget (before.put thread (some { role with
        token := .placed, stage := role.stage.putBack })) :=
      counted.keep current rfl (by simp [Token.isOpen]) (by simp) rfl rfl rfl rfl
    refine ⟨closed.fresh, fun _ _ => positive, closed.afforded, closed.started, ?_, closed.held,
      closed.marked⟩
    intro row brief found waits
    obtain old | rfl := (briefs brief).mp waits
    · exact counted.carried row brief found old
    · exact (counted.held row thread role found current opened).retry may
  | buries current due =>
    exact counted.keep current rfl (by simp [Token.isOpen]) (by simp) rfl rfl rfl rfl
  | removes current cancelled fewer => exact counted.fewer fewer
  | drops illegible fewer => exact counted.fewer fewer
  | promotes fewer kept =>
    exact ⟨counted.fresh, fun brief waits => kept (counted.left brief waits), counted.afforded,
      counted.started, counted.carried, counted.held, counted.marked⟩
  | @claims thread brief waiting carried gone free lost present fewer remains =>
    refine counted.turn rfl rfl rfl fewer.carried fewer.left ?_ ?_
    · intro row role found claimed opened
      cases claimed
      exact counted.carried row brief found present
    · exact turns_to (by simp)
  | @unlists thread role current | @failsToUnlist thread role current
  | @unlocks thread role current | @failsToUnlock thread role current =>
    exact counted.keep current rfl (fun opened => ⟨opened, rfl, rfl⟩)
      (counted.marked thread role current) rfl rfl rfl rfl
  | @succeeds thread role current opened marked claimed running =>
    refine counted.turn rfl rfl rfl (fun _ waits => waits) counted.left ?_ ?_
    · intro row held found turned stillOpen
      cases turned
      have fits := counted.held row thread role found current opened
      rw [running] at fits
      exact ⟨fits.jobType, fits.lower, fits.upper, fits.started⟩
    · exact turns_to (counted.marked thread role current)
  | fails current opened marked claimed running => exact counted.fail current opened (.inr running)
  | misses current opened marked claimed due => exact counted.fail current opened (.inl due)
  | starts current opened marked claimed due => exact counted.start unique current opened due
  | other => exact counted
  | leaves | crashes =>
    refine counted.turn rfl rfl rfl (fun _ waits => waits) counted.left ?_ ?_
    · intro _ _ _ gone
      cases gone
    · exact turns_away
  | expires =>
    exact ⟨counted.fresh, counted.left, counted.afforded, counted.started, counted.carried,
      counted.held, counted.marked⟩

/-! ### Where the record ends -/

/-- An entry of the dead-letter set says that the row is dead, and a dead row has no record left. -/
structure Interred (life : Life) : Prop where
  dead : (0 < life.letters ∨ ∃ thread, life.dying thread) → life.status = some .dead
  rests : life.status = some .dead → life.tokenless

/-- Neither the row nor the set changes. -/
theorem Interred.turn {next : Option Role} (interred : before.Interred)
    (roles : after.roles = (before.put thread next).roles) (status : after.status = before.status)
    (letters : after.letters = before.letters)
    (rests : before.tokenless → after.tokenless)
    (dies : ∀ held, next = some held → held.token = .dying → before.dying thread) :
    after.Interred := by
  constructor
  · rw [status, letters]
    intro graves
    apply interred.dead
    obtain positive | ⟨other, role, current, dying⟩ := graves
    · exact .inl positive
    · rw [roles] at current
      obtain ⟨rfl, held, shape, token⟩ | ⟨_, was⟩ := dying_put ⟨role, current, dying⟩
      · exact .inr ⟨other, dies held shape token⟩
      · exact .inr ⟨other, was⟩
  · rw [status]
    exact fun died => rests (interred.rests died)

/-- The row of a living job gets a status. -/
theorem Interred.write {next : Option Role} (interred : before.Interred)
    (living : before.status ≠ some .dead) (roles : after.roles = (before.put thread next).roles)
    (letters : after.letters = before.letters)
    (rests : after.status = some .dead → after.tokenless)
    (dies : ∀ held, next = some held → held.token = .dying → after.status = some .dead) :
    after.Interred := by
  have neither := mt interred.dead living
  simp only [not_or, not_exists] at neither
  refine ⟨fun graves => ?_, rests⟩
  rw [letters] at graves
  obtain positive | ⟨other, role, current, dying⟩ := graves
  · exact absurd positive neither.1
  · rw [roles] at current
    obtain ⟨_, held, shape, token⟩ | ⟨_, was⟩ := dying_put ⟨role, current, dying⟩
    · exact dies held shape token
    · exact absurd was (neither.2 other)

theorem interred_step (whole : ¬ d.bare) (rooted : d.rooted) (unique : before.Unique)
    (marked : ∀ thread role, before.roles thread = some role → role.token ≠ .unmarked .dead)
    (interred : before.Interred) (affords : Affords d.budget before label)
    (step : Step d before label after) : after.Interred := by
  cases step with
  | @enters thread token brief gone fresh =>
    have absent : token = .absent := fresh.resolve_right fun owed => owed.2 rooted
    -- Only a run that is not rooted lets a thread enter with a record.
    subst absent
    refine interred.turn rfl rfl rfl (fun none => ?_) ?_
    · exact tokenless_turn none rfl (turns_to (by simp [Token.isOpen])) (Nat.le_refl _)
    · exact turns_to fun dies => by cases dies
  | inserts current absent missing status =>
    refine interred.write ?_ rfl rfl ?_ ?_
    · simp [Life.status, missing]
    · simp [Life.status, status]
    · exact turns_to fun dies => by cases dies
  | cancels => exact absurd rfl (affords.cancels _)
  | requeues => exact absurd rfl (affords.requeues _)
  | @marks thread role old new status current opened found lower upper rewrites =>
    have alive := live_of_open current opened
    refine interred.write (fun died => (interred.rests died).2 thread alive) rfl rfl ?_ ?_
    · intro died
      have dead : status = .dead := by simpa [Life.status, rewrites.status] using died
      subst dead
      exact ⟨unique.waiting_of_live alive, unique.dead alive (some { role with token := .dying })
        (turns_to rfl) rfl⟩
    · refine turns_to fun dies => ?_
      simpa [Life.status, rewrites.status] using marked_dying.mp dies
  | marksNothing current opened missing =>
    exact absurd (.inl missing) (unique.row_of_live (live_of_open current opened))
  | failsToMark current opened | places current opened =>
    refine interred.turn rfl rfl rfl (fun none => absurd opened (none.shut current)) ?_
    exact turns_to fun dies => by cases dies
  | @buries thread role letters current due =>
    have dying : role.token = .dying := by
      obtain dying | unmarked | bare := due
      · exact dying
      · exact absurd unmarked (marked thread role current)
      · exact absurd bare.1 whole
    -- The row was dead before the record is moved.
    have died := interred.dead (.inr ⟨thread, role, current, dying⟩)
    refine ⟨fun _ => died, fun _ => ?_⟩
    exact tokenless_turn (interred.rests died) rfl (turns_to (by simp [Token.isOpen]))
      (Nat.le_refl _)
  | removes _ _ fewer | drops _ fewer =>
    refine ⟨interred.dead, fun died => ?_⟩
    obtain ⟨empty, dead⟩ := interred.rests died
    exact ⟨Nat.le_zero.mp (empty ▸ fewer.waiting), dead⟩
  | promotes fewer =>
    refine ⟨interred.dead, fun died => ?_⟩
    obtain ⟨empty, dead⟩ := interred.rests died
    exact ⟨Nat.le_zero.mp (empty ▸ fewer), dead⟩
  | claims gone free lost =>
    -- A dead job has no record to be claimed.
    refine interred.turn rfl rfl rfl (fun none => absurd lost (by simp [none.1])) ?_
    exact turns_to fun dies => by cases dies
  | @unlists thread role current | @failsToUnlist thread role current
  | @unlocks thread role current | @failsToUnlock thread role current =>
    refine interred.turn rfl rfl rfl (fun none => ?_) ?_
    · exact tokenless_turn none rfl
        (turns_to fun opened => none.shut current opened) (Nat.le_refl _)
    · exact turns_to fun dies => ⟨role, current, dies⟩
  | starts current opened | succeeds current opened | fails current opened
  | misses current opened =>
    refine interred.turn rfl rfl rfl (fun none => absurd opened (none.shut current)) ?_
    exact turns_to fun dies => absurd dies (open_not_dying opened)
  | other | expires => exact ⟨interred.dead, interred.rests⟩
  | leaves | crashes =>
    refine interred.turn rfl rfl rfl (fun none => ?_) ?_
    · exact tokenless_turn none rfl turns_away (Nat.le_refl _)
    · exact turns_away

end Life

/-! ## Every run -/

/-- A step in which no DELETE and no retry takes effect on the job, in which its row, when it is
inserted, allows what the retry manager allows, and in which no update of the row to dead fails for
another reason than its constraints.  Other calls may fail, locks expire and threads crash. -/
structure Affords (proc : Processor) (id : JobId) (state : SystemState) (action : SystemAction) :
    Prop where
  starting : Starting Entry.isRooted action
  cancels : ∀ thread, ¬ Does id state action thread .cancels
  requeues : ∀ thread, ¬ Does id state action thread .requeues
  inserts : ∀ thread jobType maxRetries,
    Does id state action thread (.inserts jobType maxRetries) →
      max 1 (proc.retrier.configFor jobType).maxRetries ≤ maxRetries
  updates : ∀ thread env job, action = .exec thread env →
    (state.threads thread).next? = some (.updateJobStatus job) → job.id = id →
      job.status = .dead → env.fails = false

section

variable {proc : Processor} {id : JobId} {last : SystemState}

theorem updateJobStatus_of_event {session : Session} {c : Call} {reply : c.Reply}
    {status : JobStatus} (event : c.event id session reply = .failsToMark status) :
    ∃ job, c = .updateJobStatus job ∧ job.id = id ∧ job.status = status ∧
      c.succeeded reply = false := by
  cases c with
  | updateJobStatus job =>
    simp only [event_updateJobStatus] at event
    split at event
    · next own =>
      split at event
      · cases event
      · next failed =>
        cases event
        exact ⟨job, rfl, own, rfl, Bool.eq_false_iff.mpr failed⟩
    · cases event
  | command command =>
    cases command <;> simp only [Call.event, Command.event] at event <;>
      (repeat' split at event) <;> cases event
  | _ =>
    simp only [Call.event] at event
    (repeat' split at event) <;> cases event

/-- An update that fails although the store is reached breaks a constraint of the row. -/
theorem refused_of_served {stores : Stores} {env : Env} {job : Job} (served : env.fails = false)
    (failed : (Call.updateJobStatus job).succeeded (perform env stores (.updateJobStatus job)).1 =
      false) :
    ∃ old, stores.jobs job.id = some old ∧
      ¬ (0 ≤ job.retryCount ∧ job.retryCount ≤ old.maxRetries) := by
  have performed : perform env stores (.updateJobStatus job) =
      performStore env stores (.updateJobStatus job) := by simp [perform, served]
  obtain ⟨_, updated⟩ | ⟨old, _, found, outside, _⟩ | ⟨_, _, _, _, _, updated, _⟩ :=
    stores.jobs.updateJobStatus_cases job
  · simp [performed, performStore, updated, Call.succeeded] at failed
  · exact ⟨old, found, outside⟩
  · simp [performed, performStore, updated, Call.succeeded] at failed

theorem Affords.life {d : Discipline} {state : SystemState} {action : SystemAction} {label : Label}
    (affords : Affords proc id state action) (conforming : Conforming d state)
    (shows : Shows id state action label) : Life.Affords proc.budget (life id state) label := by
  constructor
  · intro thread cancels
    subst cancels
    exact affords.cancels thread shows
  · intro thread requeues
    subst requeues
    exact affords.requeues thread shows
  · intro thread jobType maxRetries inserts
    subst inserts
    exact affords.inserts thread jobType maxRetries shows
  · intro thread role refuses current
    obtain ⟨_, _, rfl⟩ := roleOf_cases current
    generalize event : Event.failsToMark .dead = shown at refuses
    subst refuses
    cases shows with
    | spawn | vain => cases event
    | @exec thread env c next program =>
      obtain ⟨job, rfl, own, dead, failed⟩ := updateJobStatus_of_event event.symm
      have upcoming : (state.threads thread).next? = some (.updateJobStatus job) := by
        simp only [Thread.next?, program]
      have owns := (program ▸ conforming thread : Completes _ _ (.call _ next)).1
      have count : job.retryCount = (state.threads thread).session.brief.retryCount :=
        congrArg Brief.retryCount owns.2.2
      subst own
      rw [← count]
      exact refused_of_served (affords.updates thread env job rfl upcoming rfl dead) failed

theorem beginning_counted (proc : Processor) (id : JobId) :
    (life id (beginning proc)).Counted proc.budget := by
  have empty (brief : Brief) : ¬ (life id (beginning proc)).carried brief := by
    intro carried
    have waits := waiting_of_carries _ carried
    have none : (beginning proc).store.redis.waiting (Member.isOf id) = 0 :=
      (beginning_tokenless proc id).1
    omega
  constructor
  · exact fun _ => rfl
  · exact fun brief carried => absurd carried (empty brief)
  · intro row found
    rw [beginning_row] at found
    cases found
  · intro row found
    rw [beginning_row] at found
    cases found
  · exact fun _ brief _ carried => absurd carried (empty brief)
  · intro row thread role _ current
    rw [beginning_roles] at current
    cases current
  · intro thread role current
    rw [beginning_roles] at current
    cases current

theorem beginning_interred (proc : Processor) (id : JobId) :
    (life id (beginning proc)).Interred := by
  constructor
  · rintro (positive | ⟨thread, role, current, _⟩)
    · exact absurd positive (Nat.lt_irrefl 0)
    · rw [beginning_roles] at current
      cases current
  · exact fun _ => beginning_tokenless proc id

/-- A thread that is about to update a row carries a record of that job. -/
theorem owns_of_next {d : Discipline} {state : SystemState} {thread : Nat} {job : Job}
    (conforming : Conforming d state)
    (next : (state.threads thread).next? = some (.updateJobStatus job)) :
    (state.threads thread).session.owns job ∧ ¬ (state.threads thread).Finished := by
  have completes := conforming thread
  cases program : (state.threads thread).program with
  | pure value => simp [Thread.next?, program] at next
  | call c rest =>
    have same : c = .updateJobStatus job := by simpa [Thread.next?, program] using next
    subst same
    rw [program] at completes
    refine ⟨completes.1, ?_⟩
    rintro ⟨value, ended⟩
    rw [program] at ended
    cases ended

theorem afforded_reach (run : (taskfire proc).Run (Affords proc id) (beginning proc) last) :
    Conforming (.lax proc) last ∧ (life id last).Counted proc.budget ∧
      (life id last).Unique ∧ (life id last).Interred := by
  have reached : Conforming (.lax proc) last ∧ Reach (Life.Step (.lax proc))
      (Life.Affords proc.budget) (life id (beginning proc)) (life id last) :=
    life_reach run (conforming_initial _ proc _)
      (fun _ _ _ affords => lax_admissible affords.starting) (fun _ _ _ _ => False.elim) False.elim
      (fun _ _ _ conforming affords shows => affords.life conforming shows)
      (fun _ _ => ⟨nofun, nofun, nofun, nofun⟩)
  obtain ⟨conforming, reach⟩ := reached
  refine ⟨conforming, reach.invariant
    (fun life => life.Counted proc.budget ∧ life.Unique ∧ life.Interred)
    ⟨beginning_counted proc id, beginning_unique proc id, beginning_interred proc id⟩ ?_⟩
  intro before label after ⟨counted, unique, interred⟩ affords step
  refine ⟨Life.counted_step trivial unique counted affords step, ?_, ?_⟩
  · exact Life.unique_step trivial unique
      (fun thread requeues => absurd requeues (affords.requeues thread)) step
  · exact Life.interred_step False.elim trivial unique counted.marked interred affords step

/-- Where the row of a job allows what the retry manager allows and at least one failure, every
update of the worker keeps to the row's constraints and takes effect, the handler is started at most
once more than the row allows failures, and a job in the dead-letter set has a dead row. -/
theorem budget_kept (run : (taskfire proc).Run (Affords proc id) (beginning proc) last) :
    (∀ thread job, (last.threads thread).next? = some (.updateJobStatus job) → job.id = id →
      ∃ row new, last.store.jobs id = some row ∧
        0 ≤ job.retryCount ∧ job.retryCount ≤ row.maxRetries ∧
        last.store.jobs.updateJobStatus job = (.ok (), last.store.jobs.set id new) ∧
        Jobs.Rewrites row new job.status job.retryCount) ∧
    (∀ row, last.store.jobs id = some row →
      last.store.ledger.started id ≤ row.maxRetries + 1) ∧
    (0 < last.store.redis.letters (Member.isOf id) → last.store.status id = some .dead) := by
  obtain ⟨conforming, counted, unique, interred⟩ := afforded_reach run
  refine ⟨?_, ?_, fun positive => interred.dead (.inl positive)⟩
  · intro thread job next named
    subst named
    obtain ⟨owns, unfinished⟩ := owns_of_next conforming next
    obtain ⟨on, opened, brief⟩ := owns
    have current : (life job.id last).roles thread = some (last.threads thread).session.toRole :=
      roleOf_of_on unfinished on
    cases found : last.store.jobs job.id with
    | none =>
      have alive : (life job.id last).live thread := ⟨_, current, opened⟩
      exact absurd (.inl found) (unique.row_of_live alive)
    | some row =>
      -- The record in hand says how often the job has failed, which the row allows.
      have fits := counted.held row thread _ found current opened
      have count : job.retryCount = (last.threads thread).session.brief.retryCount :=
        congrArg Brief.retryCount brief
      have lower := fits.lower
      have upper := fits.le_limit
      have afforded := counted.afforded row found
      obtain ⟨missing, _⟩ | ⟨old, error, present, outside, _⟩ | ⟨old, new, present, _, _, updates, rewrites⟩ :=
        last.store.jobs.updateJobStatus_cases job
      · rw [found] at missing
        cases missing
      · rw [found] at present
        cases present
        exact absurd ⟨by omega, by omega⟩ outside
      · rw [found] at present
        cases present
        exact ⟨row, new, rfl, by omega, by omega, updates, rewrites⟩
  · intro row found
    have started : (last.store.ledger.started id : Int) ≤ failureLimit proc.budget row.jobType :=
      counted.started row found
    have afforded := counted.afforded row found
    omega

end

/-! ## Examples -/

/-- `Affords`, computed for ordinary steps. -/
def affords (proc : Processor) (state : SystemState) (action : SystemAction) : Bool :=
  decide (Ordinary Entry.isRooted action) &&
    match eventOf "j" state action with
    | some (_, .cancels) | some (_, .requeues) => false
    | some (_, .inserts jobType maxRetries) =>
      decide (max 1 (proc.retrier.configFor jobType).maxRetries ≤ maxRetries)
    | _ => true

theorem affords_sound {proc : Processor} {state : SystemState} {action : SystemAction}
    (checked : affords proc state action = true) : Affords proc "j" state action := by
  obtain ⟨ordinary, event⟩ := Bool.and_eq_true .. ▸ checked
  have ordinary := of_decide_eq_true ordinary
  refine ⟨ordinary.starting, ?_, ?_, ?_, fun _ _ _ acts _ _ _ => ordinary.reachable acts⟩
  · intro thread does
    simp [eventOf_of_does does] at event
  · intro thread does
    simp [eventOf_of_does does] at event
  · intro thread jobType maxRetries does
    simp only [eventOf_of_does does] at event
    exact of_decide_eq_true event

/-- One failure of a job whose type gets one, with a row that allows three. -/
theorem budget_kept_once : ∃ last : SystemState,
    last.store.redis.letters (Member.isOf "j") = 1 ∧ last.store.status "j" = some .dead := by
  have reached : ∃ last, (taskfire .impatient).Run (Affords .impatient "j") (beginning .impatient)
      last ∧ decide (last.store.redis.letters (Member.isOf "j") = 1) = true :=
    replay_reaches (affords .impatient) (fun _ _ checked => affords_sound checked)
      createAndDie _ (by decide +kernel)
  obtain ⟨last, run, checked⟩ := reached
  have one := of_decide_eq_true checked
  exact ⟨last, one, (budget_kept run).2.2 (one ▸ Nat.one_pos)⟩

/-- With the default of three retries for the job and the default of five for its type, the worker
starts the handler five times; its last two failures do not reach the row, and the job ends in the
dead-letter set with a row that still reads active. -/
theorem budget_exceeded : ∃ (proc : Processor) (last : SystemState),
    (taskfire proc).Run (fun state action => Ordinary Entry.isRooted action ∧
      ∀ thread, ¬ Does "j" state action thread .cancels ∧ ¬ Does "j" state action thread .requeues)
      (beginning proc) last ∧
    (last.store.jobs "j").map Row.maxRetries = some 3 ∧ last.store.ledger.started "j" = 5 ∧
    last.store.redis.letters (Member.isOf "j") = 1 ∧ last.store.status "j" = some .active := by
  let check (state : SystemState) (action : SystemAction) : Bool :=
    decide (Ordinary Entry.isRooted action) &&
      avoids (fun event => event = .cancels || event = .requeues) "j" state action
  have reached : ∃ last, (taskfire .wired).Run _ (beginning .wired) last ∧
      decide ((last.store.jobs "j").map Row.maxRetries = some 3 ∧
        last.store.ledger.started "j" = 5 ∧ last.store.redis.letters (Member.isOf "j") = 1 ∧
        last.store.status "j" = some .active) = true :=
    replay_reaches check (fun state action checked => by
        obtain ⟨ordinary, avoided⟩ := Bool.and_eq_true .. ▸ checked
        exact (⟨of_decide_eq_true ordinary, fun thread =>
          ⟨not_does_of_avoids avoided rfl thread, not_does_of_avoids avoided rfl thread⟩⟩ :
          Ordinary Entry.isRooted action ∧ ∀ thread, ¬ Does "j" state action thread .cancels ∧
            ¬ Does "j" state action thread .requeues))
      (.spawn 0 (.create .plain) :: calls 0 5 (.calm "j") ++
        .spawn 1 .work :: calls 1 18 (.failing "j") ++ .spawn 1 .work :: calls 1 18 (.failing "j") ++
        .spawn 1 .work :: calls 1 18 (.failing "j") ++ .spawn 1 .work :: calls 1 18 (.failing "j") ++
        .spawn 1 .work :: calls 1 19 (.failing "j")) _ (by decide +kernel)
  obtain ⟨last, run, checked⟩ := reached
  exact ⟨.wired, last, run, of_decide_eq_true checked⟩

end Taskfire
