import Taskfire.Safety.Allowance
import Taskfire.Safety.Reports

/-!
# Jobs that die

A worker gives a job up only after a failed execution.  If no store call fails and no wait between two
attempts is cut short, it does so only after as many failures as the retry manager allows the type.
The retry counts that rows, records and threads carry never exceed the failures of the job, and that
is the invariant: a record may go round through retries, cancellations and crashes, but its count
was earned.
-/

namespace Taskfire

open Taskfire.Library

/-! ## Failures -/

/-- A handler of the job failed, or there was none. -/
def Event.isFailure : Event → Bool
  | .ends succeeded => !succeeded
  | .misses => true
  | _ => false

/-- How often the job has failed so far. -/
def failing (id : JobId) (failures : Nat) (state : SystemState) (action : SystemAction) : Nat :=
  match eventOf id state action with
  | some (_, event) => if event.isFailure then failures + 1 else failures
  | none => failures

/-- The system with the failures of job `id` beside it. -/
abbrev failingStep (proc : Processor) (id : JobId) :
    SystemState × Nat → SystemAction → Option (SystemState × Nat) :=
  chronicle (taskfire proc).step (failing id)

def Label.failures (failures : Nat) : Label → Nat
  | .act _ event => if event.isFailure then failures + 1 else failures
  | _ => failures

/-- No store call fails and no wait between attempts is cut short. -/
def Uncut : SystemAction → Prop
  | .exec _ env => env.fails = false ∧ env.backoff = none
  | _ => True

instance : DecidablePred Uncut
  | .exec _ env => inferInstanceAs (Decidable (env.fails = false ∧ env.backoff = none))
  | .spawn _ _ | .tick _ | .crash _ => inferInstanceAs (Decidable True)

/-! ## Counts are earned -/

namespace Life

/-- A record of the job: its type is that of the row, and its count was earned. -/
def Earned (life : Life) (failures : Nat) (brief : Brief) : Prop :=
  life.row.map Row.jobType = some brief.jobType ∧
    -2 ^ 63 ≤ brief.retryCount ∧ brief.retryCount ≤ failures

structure Charged (life : Life) (failures : Nat) : Prop where
  row : ∀ row, life.row = some row → row.retryCount ≤ failures
  carried : ∀ brief, life.carried brief → life.Earned failures brief
  roles : ∀ thread role, life.roles thread = some role → role.token ≠ .absent →
    life.Earned failures role.brief
  failed : ∀ thread role, life.roles thread = some role → role.attempt = .failed → 1 ≤ failures

variable {before after : Life} {d : Discipline} {label : Label} {thread : Nat}
variable {failures more : Nat}

theorem Earned.mono {brief : Brief} (earned : before.Earned failures brief)
    (grows : failures ≤ more)
    (row : ∀ jobType, before.row.map Row.jobType = some jobType →
      after.row.map Row.jobType = some jobType) : after.Earned more brief := by
  obtain ⟨typed, least, most⟩ := earned
  exact ⟨row _ typed, least, by omega⟩

theorem Earned.of_row {life : Life} {row : Row} (found : life.row = some row)
    (most : row.retryCount ≤ failures) : life.Earned failures row.brief := by
  have least := row.retryCountNonNegative
  refine ⟨by rw [found]; rfl, ?_, most⟩
  show -2 ^ 63 ≤ row.retryCount
  omega

/-- A thread turns to another role, and every record that waits was there or is earned. -/
theorem Charged.turn {next : Option Role} (charged : before.Charged failures) (grows : failures ≤ more)
    (roles : after.roles = (before.put thread next).roles)
    (types : ∀ jobType, before.row.map Row.jobType = some jobType →
      after.row.map Row.jobType = some jobType)
    (row : ∀ row, after.row = some row → row.retryCount ≤ more)
    (carried : ∀ brief, after.carried brief → before.carried brief ∨ after.Earned more brief)
    (earned : ∀ held, next = some held → held.token ≠ .absent → after.Earned more held.brief)
    (failed : ∀ held, next = some held → held.attempt = .failed → 1 ≤ more) :
    after.Charged more where
  row := row
  carried brief waits := by
    obtain old | new := carried brief waits
    · exact (charged.carried brief old).mono grows types
    · exact new
  roles other role current token := by
    obtain ⟨_, shape⟩ | ⟨_, old⟩ := role_of_turned roles current
    · exact earned role shape token
    · exact (charged.roles other role old token).mono grows types
  failed other role current failure := by
    obtain ⟨_, shape⟩ | ⟨_, old⟩ := role_of_turned roles current
    · exact failed role shape failure
    · exact Nat.le_trans (charged.failed other role old failure) grows

/-- The thread keeps what it has of the job, and no record is added. -/
theorem Charged.keep {role next : Role} (charged : before.Charged failures)
    (current : before.roles thread = some role)
    (roles : after.roles = (before.put thread (some next)).roles)
    (types : ∀ jobType, before.row.map Row.jobType = some jobType →
      after.row.map Row.jobType = some jobType)
    (row : ∀ row, after.row = some row → row.retryCount ≤ failures)
    (carried : ∀ brief, after.carried brief → before.carried brief)
    (token : next.token ≠ .absent → role.token ≠ .absent) (brief : next.brief = role.brief)
    (failed : next.attempt = .failed → role.attempt = .failed) : after.Charged failures := by
  refine charged.turn (Nat.le_refl _) roles types row (fun brief waits => .inl (carried brief waits))
    ?_ ?_
  · refine turns_to fun obtained => ?_
    rw [brief]
    exact (charged.roles thread role current (token obtained)).mono (Nat.le_refl _) types
  · exact turns_to fun failure => charged.failed thread role current (failed failure)

theorem types_of_rewrites {old new : Row} {status : JobStatus} {retryCount : Int}
    (found : before.row = some old) (rewrites : Jobs.Rewrites old new status retryCount)
    (jobType : String) (typed : before.row.map Row.jobType = some jobType) :
    (some new).map Row.jobType = some jobType := by
  rw [← typed, found]
  exact congrArg some rewrites.jobType

theorem token_of_open {role : Role} (opened : role.token.isOpen = true) : role.token ≠ .absent := by
  intro absent
  rw [absent] at opened
  cases opened

theorem charged_step (rooted : d.rooted) (charged : before.Charged failures)
    (step : Step d before label after)
    (row : ∀ row, after.row = some row → row.retryCount ≤ label.failures failures) :
    after.Charged (label.failures failures) := by
  cases step with
  | @enters thread token brief gone fresh =>
    have absent : token = .absent := fresh.resolve_right fun owed => owed.2 rooted
    subst absent
    refine charged.turn (Nat.le_refl _) rfl (fun _ same => same) row (fun _ => .inl) ?_ ?_
    · exact turns_to fun obtained => absurd rfl obtained
    · exact turns_to fun failed => by cases failed
  | @inserts thread role new current absent missing status zero =>
    -- Before there is a row, no record waits and no thread has one.
    have none (jobType : String) (typed : before.row.map Row.jobType = some jobType) :
        (some new).map Row.jobType = some jobType := by
      rw [missing] at typed
      cases typed
    refine charged.turn (Nat.le_refl _) rfl none row (fun _ => .inl) ?_ ?_
    · exact turns_to fun _ => .of_row rfl (row new rfl)
    · exact turns_to fun failed => charged.failed thread role current failed
  | cancels current idle found notActive notCompleted rewrites =>
    exact charged.keep current rfl (types_of_rewrites found rewrites) row (fun _ waits => waits)
      (fun obtained => obtained) rfl fun failed => failed
  | @requeues thread role old new current absent found retriable rewrites =>
    refine charged.turn (Nat.le_refl _) rfl (types_of_rewrites found rewrites) row (fun _ => .inl)
      ?_ ?_
    · exact turns_to fun _ => .of_row rfl (row new rfl)
    · exact turns_to fun failed => charged.failed thread role current failed
  | marks current opened found lower upper rewrites =>
    exact charged.keep current rfl (types_of_rewrites found rewrites) row (fun _ waits => waits)
      (fun _ => token_of_open opened) rfl fun failed => failed
  | marksNothing current opened | failsToMark current opened =>
    exact charged.keep current rfl (fun _ same => same) row (fun _ waits => waits)
      (fun _ => token_of_open opened) rfl fun failed => failed
  | @places thread role waiting carried current opened may positive most joined =>
    have earned : before.Earned failures role.brief :=
      charged.roles thread role current (token_of_open opened)
    refine charged.turn (Nat.le_refl _) rfl (fun _ same => same) row ?_ ?_ ?_
    · intro brief waits
      obtain old | new := (joined brief).mp waits
      · exact .inl old
      · exact .inr (new ▸ earned)
    · exact turns_to fun _ => earned
    · exact turns_to fun failed => charged.failed thread role current failed
  | buries current due =>
    refine charged.keep current rfl (fun _ same => same) row (fun _ waits => waits) ?_ rfl
      fun failed => failed
    intro _ absent
    simp [absent, Token.isOpen] at due
  | removes _ _ fewer | drops _ fewer =>
    exact ⟨row, fun brief waits => charged.carried brief (fewer.carried brief waits), charged.roles,
      charged.failed⟩
  | promotes | other | expires => exact ⟨row, charged.carried, charged.roles, charged.failed⟩
  | @claims thread brief waiting carried gone free lost taken fewer =>
    refine charged.turn (Nat.le_refl _) rfl (fun _ same => same) row ?_ ?_ ?_
    · exact fun other waits => .inl (fewer.carried other waits)
    · exact turns_to fun _ => charged.carried brief taken
    · exact turns_to fun failed => by cases failed
  | unlists current | failsToUnlist current | unlocks current | failsToUnlock current =>
    exact charged.keep current rfl (fun _ same => same) row (fun _ waits => waits)
      (fun obtained => obtained) rfl fun failed => failed
  | starts current | succeeds current =>
    exact charged.keep current rfl (fun _ same => same) row (fun _ waits => waits)
      (fun obtained => obtained) rfl fun failed => by cases failed
  | @fails thread role current opened | @misses thread role current opened =>
    -- The count of the record and that of the job go up together.
    refine charged.turn (Nat.le_succ _) rfl (fun _ same => same) row (fun _ => .inl) ?_ ?_
    · refine turns_to fun obtained => ?_
      obtain ⟨typed, least, most⟩ := charged.roles thread role current obtained
      have count : goInt (role.brief.retryCount + 1) ≤ role.brief.retryCount + 1 :=
        goInt_le (by omega)
      refine ⟨typed, le_goInt _, ?_⟩
      show goInt (role.brief.retryCount + 1) ≤ ((failures + 1 : Nat) : Int)
      omega
    · exact turns_to fun _ => Nat.le_add_left 1 failures
  | leaves | crashes =>
    exact charged.turn (Nat.le_refl _) rfl (fun _ same => same) row (fun _ => .inl) turns_away
      turns_away

theorem row_of_leave (step : Step d before (.leave thread) after) : after.row = before.row := by
  cases step
  rfl

end Life

/-! ## Burials -/

def JobEvent.dies (event : JobEvent) : Prop := event.type = .dead ∨ event.status = .dead

/-- A wait between attempts ended with its timer. -/
def Call.waited : (c : Call) → c.Reply → Prop
  | .backoff _ _, ended => ended = none
  | _, _ => True

/-- What is known of replies; `calm` says that the run is uncut. -/
def Call.expected (calm : Prop) (c : Call) (reply : c.Reply) : Prop :=
  calm → c.served reply = true ∧ c.waited reply

/-- The thread may give up the record it has. -/
structure Session.Doomed (calm : Prop) (budget : String → Int) (session : Session) : Prop where
  obtained : session.token ≠ .absent
  failed : session.attempt = .failed
  spent : calm → budget session.brief.jobType ≤ session.brief.retryCount

/-- A row, an event or the dead-letter set says that a job is dead only after its failures. -/
def Call.buriesDoomed (calm : Prop) (budget : String → Int) (session : Session) : Call → Prop
  | .updateJobStatus job => job.status = .dead → session.Doomed calm budget
  | .command (.publish event) =>
    event.dies → session.job = some event.jobId ∧ session.Doomed calm budget
  | .command (.zadd key _ _) => key = .dlq → session.Doomed calm budget
  | _ => True

/-- The program gives up no record before its failures. -/
abbrev Buries {α : Type} (calm : Prop) (budget : String → Int) (session : Session)
    (program : Prog α) : Prop :=
  program.Follows (Call.buriesDoomed calm budget) Session.advance (Call.expected calm)
    (fun _ _ => True) session

/-- The calls that may give up job `id`. -/
def Call.inters (id : JobId) : Call → Prop
  | .now | .updateJobStatus _ => True
  | .command (.publish event) => event.jobId = id
  | .command (.zadd key _ _) => key = .dlq
  | .command (.hdelProcessing _) | .command (.delLock _) => True
  | _ => False

/-- The thread has the record of `job`. -/
structure Session.Has (session : Session) (job : Job) : Prop where
  own : session.job = some job.id
  obtained : session.token ≠ .absent
  brief : session.brief = job.brief

section

variable {calm : Prop} {proc : Processor} {budget : String → Int} {session : Session}

/-- What is done for a job that is not to die. -/
theorem buries_of_working {α : Type} {program : Prog α} {statuses : List JobStatus}
    (uses : program.Uses (Call.working statuses)) (lives : .dead ∉ statuses) :
    Buries calm budget session program := by
  have returns : program.Returns (Call.expected calm) fun _ => True :=
    Program.returns_of_forall _ fun _ => trivial
  apply (uses.follows_within (fun _ => True) returns trivial ?_ ?_).mono fun _ _ _ => trivial
  · intro _ c _ working
    cases c with
    | updateJobStatus job => exact fun dead => absurd (dead ▸ working) lives
    | command command =>
      cases command with
      | publish event =>
        obtain ⟨listed, told⟩ := working
        rintro (type | status)
        · rw [← told, type] at listed
          exact absurd listed lives
        · exact absurd (status ▸ listed) lives
      | zadd key score member => exact fun dlq => absurd (working dlq).1 lives
      | _ => exact trivial
    | _ => exact trivial
  · exact fun _ _ _ _ _ => trivial

theorem wrote_obtained (session : Session) (status : JobStatus) (reply : Except StoreError Unit) :
    (session.wrote status reply).token ≠ .absent := by
  cases reply with
  | error error => exact Token.noConfusion
  | ok done => cases status <;> exact Token.noConfusion

/-! ### The worker -/

theorem sendToDLQ_inters (job : Job) (reason : GoError) :
    (Processor.sendToDLQ job reason).Uses (Call.inters job.id) := by
  have moves (job : Job) : (moveToDLQ job reason).Uses (Call.inters job.id) :=
    ⟨trivial, fun _ => ⟨trivial, fun _ => ⟨trivial, fun _ => ⟨rfl, fun _ => trivial⟩⟩⟩⟩
  refine ⟨trivial, fun now => ⟨trivial, fun _ => ⟨rfl, fun _ => ?_⟩⟩⟩
  apply Program.uses_bind (moves { job with status := .dead, failedAt := some now })
  intro error
  cases error <;> exact trivial

theorem sendToDLQ_buries (job : Job) (reason : GoError) (own : session.job = some job.id)
    (doomed : session.Doomed calm budget) :
    Buries calm budget session (Processor.sendToDLQ job reason) := by
  have returns : (Processor.sendToDLQ job reason).Returns (Call.expected calm) fun _ => True :=
    Program.returns_of_forall _ fun _ => trivial
  -- What dooms the record is not in the token, and the token stays that of a record obtained.
  apply ((sendToDLQ_inters job reason).follows_within
    (fun last => last.job = some job.id ∧ last.Doomed calm budget) returns ⟨own, doomed⟩ ?_ ?_).mono
    fun _ _ _ => trivial
  · intro last c held inters
    cases c with
    | updateJobStatus job => exact fun _ => held.2
    | command command =>
      cases command with
      | publish event => exact fun _ => ⟨inters ▸ held.1, held.2⟩
      | zadd key score member => exact fun _ => held.2
      | _ => exact trivial
    | _ => exact trivial
  · intro last c reply held inters
    obtain ⟨own, obtained, failed, spent⟩ := held
    cases c with
    | updateJobStatus updated =>
      exact ⟨own, wrote_obtained last updated.status reply, failed, spent⟩
    | command command =>
      cases command with
      | zadd key score member =>
        cases inters
        cases reply with
        | error error => exact ⟨own, obtained, failed, spent⟩
        | ok done => exact ⟨own, Token.noConfusion, failed, spent⟩
      | hdelProcessing | delLock | publish => exact ⟨own, obtained, failed, spent⟩
      | _ => cases inters
    | now => exact ⟨own, obtained, failed, spent⟩
    | _ => cases inters

theorem retryJob_buries (job : Job) (cause : GoError) (has : session.Has job)
    (failed : session.attempt = .failed) :
    Buries calm budget session (Processor.retryJob job cause) := by
  let retried : Job := { job with status := .pending, startedAt := none }
  refine ⟨JobStatus.noConfusion, fun reply _ => ⟨trivial, fun now _ => ⟨?_, fun _ _ => ?_⟩⟩⟩
  · rintro (type | status)
    · cases type
    · cases status
  · have held : (session.wrote .pending reply).Has retried :=
      ⟨has.own, wrote_obtained session .pending reply, has.brief⟩
    refine ⟨trivial, fun _ _ => ⟨fun dlq => ?_, fun placed expected => ?_⟩⟩
    · exact absurd dlq (Redis.lane_ne_dlq _)
    · cases placed with
      | ok done => exact trivial
      | error error =>
        apply sendToDLQ_buries retried _ held.own
        refine ⟨held.obtained, failed, fun steady => ?_⟩
        exact absurd (expected steady).1 Bool.false_ne_true

theorem handleFailure_buries (job : Job) (cause : GoError) (has : session.Has job) :
    Buries calm proc.budget session.failedOnce (proc.handleFailure job cause) := by
  let failedJob : Job := { job with retryCount := goInt (job.retryCount + 1), errorMessage := cause.text }
  have released : (nack failedJob).Follows (Call.buriesDoomed calm proc.budget) Session.advance
      (Call.expected calm) (fun _ last => ∃ stage, last = { session.failedOnce with stage })
      session.failedOnce :=
    ⟨trivial, fun _ _ => ⟨trivial, fun _ _ => ⟨_, rfl⟩⟩⟩
  refine released.bind ?_
  rintro _ _ ⟨stage, rfl⟩
  have counted : Session.Has { session.failedOnce with stage } failedJob :=
    ⟨has.own, has.obtained, congrArg Brief.failedOnce has.brief⟩
  refine ⟨trivial, fun _ _ => ?_⟩
  simp only [Retry.Manager.wait]
  by_cases exhausted : (proc.retrier.configFor job.jobType).maxRetries ≤ goInt (job.retryCount + 1)
  · rw [if_pos exhausted]
    apply sendToDLQ_buries failedJob _ counted.own
    refine ⟨counted.obtained, rfl, fun _ => ?_⟩
    rw [counted.brief]
    exact exhausted
  · rw [if_neg exhausted]
    refine ⟨trivial, fun ended expected => ?_⟩
    cases ended with
    | none => exact retryJob_buries failedJob cause counted rfl
    | some error =>
      apply sendToDLQ_buries failedJob _ counted.own
      refine ⟨counted.obtained, rfl, fun steady => ?_⟩
      cases (expected steady).2

theorem runHandler_buries (job : Job) (has : session.Has job) :
    Buries calm proc.budget session (proc.runHandler job) := by
  have failing (cause : GoError) :
      Buries calm proc.budget session.failedOnce (proc.handleFailure job cause) :=
    handleFailure_buries job cause has
  refine ⟨trivial, fun found _ => ?_⟩
  cases found with
  | false => exact ⟨trivial, fun _ _ => failing _⟩
  | true =>
    refine ⟨trivial, fun _ _ => ⟨trivial, fun outcome _ => ?_⟩⟩
    cases outcome with
    | returnedNil => exact buries_of_working (@complete_calls [.completed] job (by decide)).uses (by decide)
    | returned error => exact ⟨trivial, fun _ _ => failing error⟩
    | panicked value => exact ⟨trivial, fun _ _ => failing _⟩

theorem process_buries (job : Job) (has : session.Has job) :
    Buries calm proc.budget session (proc.process job) := by
  have checked : (proc.canRun job).Follows (Call.buriesDoomed calm proc.budget) Session.advance
      (Call.expected calm) (fun _ last => last = session ∧ True) session := by
    refine (proc.canRun_uses job).follows (Program.returns_of_forall _ fun _ => trivial) ?_ ?_
    · intro c reads
      cases c <;> first | exact trivial | cases reads
    · intro c reply reads
      cases c <;> first | rfl | cases reads
  refine checked.bind ?_
  rintro outcome last ⟨same, -⟩
  subst same
  cases outcome with
  | error error =>
    exact buries_of_working (Program.uses_bind (nack_calls job).uses fun _ => trivial)
      List.not_mem_nil
  | ok allowed =>
    cases allowed with
    | false => exact buries_of_working (putOff_calls job).uses List.not_mem_nil
    | true =>
      refine ⟨trivial, fun now _ => ⟨JobStatus.noConfusion, fun reply _ => ⟨?_, fun _ _ => ?_⟩⟩⟩
      · rintro (type | status)
        · cases type
        · cases status
      · exact runHandler_buries _ ⟨has.own, wrote_obtained last .active reply, has.brief⟩

theorem fetchAndProcess_buries : Buries calm proc.budget session proc.fetchAndProcess := by
  have receives : dequeue.Follows (Call.buriesDoomed calm proc.budget) Session.advance
      (Call.expected calm) (fun outcome last => ∀ job, outcome = .ok (some job) → last.Has job)
      session := by
    rw [dequeue_eq]
    refine ⟨trivial, fun reply _ job outcome => ?_⟩
    obtain ⟨raw, replied, decoded⟩ := received_some_iff.mp outcome
    subst replied
    cases raw with
    | record json =>
      cases decoded
      exact ⟨rfl, Token.noConfusion, rfl⟩
    | text content => cases decoded
  refine receives.bind ?_
  intro outcome last has
  obtain error | _ | job := outcome
  · exact trivial
  · exact trivial
  · simp only [Program.perform_bind, Program.follows_call]
    refine ⟨trivial, fun delivered _ => ?_⟩
    cases delivered with
    | true => exact (process_buries job (has job rfl)).bind fun _ _ _ => trivial
    | false => exact buries_of_working (handBack_calls job).uses List.not_mem_nil

/-! ### All programs -/

/-- Every program of the system gives a record up only after its failures. -/
theorem Entry.buries {entry : Entry} (rooted : entry.isRooted = true) :
    Buries calm proc.budget entry.session (entry.program proc) := by
  cases entry with
  | work => exact fetchAndProcess_buries.bind fun _ _ _ => trivial
  | create input => exact buries_of_working (create_uses input) List.not_mem_nil
  | delete id => exact buries_of_working (delete_uses id) List.not_mem_nil
  | retry id resetRetries => exact buries_of_working (retry_uses id resetRetries) List.not_mem_nil
  | poll => exact buries_of_working poll_uses List.not_mem_nil
  | cron | scheduleDelayed | enqueue | enqueueJob | enqueueDelayedJob | drain | claimAndRelease =>
    exact absurd rooted Bool.false_ne_true

end

/-! ## One call -/

/-- The row, an event or the dead-letter set says that the job is dead. -/
def Stores.reportsDead (stores : Stores) (id : JobId) : Prop :=
  stores.status id = some .dead ∨ (∃ event ∈ stores.ledger.events, event.jobId = id ∧ event.dies) ∨
    0 < stores.redis.letters (Member.isOf id)

/-- The call says so. -/
def Call.givesUp (id : JobId) : Call → Prop
  | .updateJobStatus job => job.id = id ∧ job.status = .dead
  | .command (.publish event) => event.jobId = id ∧ event.dies
  | .command (.zadd key _ member) => key = .dlq ∧ member.isOf id = true
  | _ => False

section Calls

variable {calm : Prop} {proc : Processor} {budget : String → Int} {id : JobId} {env : Env}
variable {stores : Stores} {session : Session} {c : Call} {failures : Nat}

theorem letters_perform (permitted : (Discipline.lax proc).permits session c)
    (lies : 0 < (perform env stores c).2.redis.letters (Member.isOf id)) :
    0 < stores.redis.letters (Member.isOf id) ∨ c.givesUp id := by
  by_cases leaves : c.leavesRedis = true
  · rw [perform_leavesRedis env stores leaves] at lies
    exact .inl lies
  · obtain ⟨_, _, _, performed⟩ | performed := perform_cases env stores c
    · rw [performed] at lies
      exact .inl lies
    · rw [performed] at lies
      cases c with
      | claim =>
        obtain ⟨after, script, unclaimed⟩ | ⟨_, _, after, script, claimed⟩ :=
          stores.redis.claimScript_cases
        · simp only [performStore, script, Redis.letters, unclaimed.dlq] at lies
          exact .inl lies
        · simp only [performStore, script, Redis.letters, claimed.dlq] at lies
          exact .inl lies
      | drainDelayed cutoff maxBatch =>
        have promoted := stores.redis.drainDelayedScript_promoted cutoff maxBatch env.now.unixMilli
        simp only [performStore, Redis.letters, promoted.dlq] at lies
        exact .inl lies
      | command command =>
        cases command with
        | zadd key score member =>
          have added : 0 < (stores.redis.zadd key score member).letters (Member.isOf id) := lies
          by_cases dlq : key = .dlq
          · subst dlq
            by_cases own : member.isOf id = true
            · exact .inr ⟨rfl, own⟩
            · rw [Redis.letters_zadd_dlq_of_not (Bool.eq_false_iff.mpr own)] at added
              exact .inl added
          · rw [Redis.letters_zadd_of_lane dlq] at added
            exact .inl added
        | zrem key member =>
          have removed : 0 < (stores.redis.zrem key member).letters (Member.isOf id) := lies
          rw [Redis.letters_zrem permitted.1] at removed
          exact .inl removed
        | hdelProcessing | delLock | lpushDone | ltrimDone => exact .inl lies
        | publish => exact absurd rfl leaves
      | _ => exact absurd rfl leaves

/-- A row is not dead unless it was or the worker says so. -/
theorem status_perform (dead : (perform env stores c).2.status id = some .dead) :
    stores.status id = some .dead ∨ c.givesUp id := by
  have step := perform_row env stores c id
  obtain ⟨row, found, died⟩ := Option.map_eq_some_iff.mp dead
  rw [found] at step
  generalize old : stores.jobs id = before at step
  cases step with
  | stays =>
    refine .inl ?_
    rw [Stores.status, old]
    exact congrArg some died
  | inserts | cancels | requeues => cases died
  | updates within named => exact .inr ⟨named, died⟩

theorem reportsDead_perform (permitted : (Discipline.lax proc).permits session c)
    (dead : (perform env stores c).2.reportsDead id) : stores.reportsDead id ∨ c.givesUp id := by
  obtain status | ⟨event, told, named, dies⟩ | lies := dead
  · exact (status_perform status).imp_left .inl
  · obtain earlier | same := perform_events c told
    · exact .inl (.inr (.inl ⟨event, earlier, named, dies⟩))
    · subst same
      exact .inr ⟨named, dies⟩
  · exact (letters_perform permitted lies).imp_left fun lay => .inr (.inr lay)

/-- Only a thread with a doomed record of the job gives it up. -/
theorem doomed_of_givesUp (permitted : (Discipline.lax proc).permits session c)
    (buries : c.buriesDoomed calm budget session) (gives : c.givesUp id) :
    session.job = some id ∧ session.Doomed calm budget := by
  cases c with
  | updateJobStatus job =>
    obtain ⟨named, dead⟩ := gives
    exact ⟨named ▸ permitted.1, buries dead⟩
  | command command =>
    cases command with
    | publish event =>
      obtain ⟨named, dies⟩ := gives
      exact named ▸ buries dies
    | zadd key score member =>
      obtain ⟨dlq, own⟩ := gives
      subst dlq
      exact ⟨permitted.2.1.trans (Member.isOf_iff.mp own), buries rfl⟩
    | _ => cases gives
  | _ => cases gives

/-- A row keeps its type. -/
theorem RowStep.jobType {before after : Option Row} {jobType : String}
    (step : RowStep id c before after) (typed : before.map Row.jobType = some jobType) :
    after.map Row.jobType = some jobType := by
  cases step with
  | stays => exact typed
  | inserts => cases typed
  | cancels | requeues | updates => exact typed

/-- The count of a row only grows with an update from a record. -/
theorem RowStep.retryCount {before : Option Row} {row : Row} (step : RowStep id c before (some row))
    (counted : ∀ old, before = some old → old.retryCount ≤ failures)
    (updated : ∀ job, c = .updateJobStatus job → job.id = id → job.retryCount ≤ failures) :
    row.retryCount ≤ failures := by
  cases step with
  | stays => exact counted row rfl
  | inserts => exact Int.natCast_nonneg failures
  | @cancels old => exact counted old rfl
  | @requeues old resetRetries =>
    cases resetRetries with
    | true => exact Int.natCast_nonneg failures
    | false => exact counted old rfl
  | @updates job old within named => exact updated job rfl named

end Calls

/-! ## Every run -/

section Run

variable {calm : Prop} {proc : Processor} {id : JobId}

/-- Who is dead has failed, and as often as his type is allowed to where the run is uncut. -/
structure Mourning (calm : Prop) (proc : Processor) (id : JobId) (current : SystemState × Nat) :
    Prop where
  conforming : Conforming (.lax proc) current.1
  buries : ∀ thread, Buries calm proc.budget (current.1.threads thread).session
    (current.1.threads thread).program
  charged : (life id current.1).Charged current.2
  dead : current.1.store.reportsDead id → ∃ jobType,
    (current.1.store.jobs id).map Row.jobType = some jobType ∧ 1 ≤ current.2 ∧
      (calm → proc.budget jobType ≤ current.2)

theorem mourning_beginning : Mourning calm proc id (beginning proc, 0) where
  conforming := conforming_initial _ proc _
  buries _ := trivial
  charged := by
    refine ⟨?_, ?_, ?_, ?_⟩
    · intro row found
      cases found
    · intro brief waits
      exact absurd waits (Nat.lt_irrefl 0)
    · intro thread role current
      cases current
    · intro thread role current
      cases current
  dead := by
    rintro (status | ⟨event, told, -⟩ | lies)
    · cases status
    · cases told
    · exact absurd lies (Nat.lt_irrefl 0)

variable {before after : SystemState × Nat} {action : SystemAction}

theorem failing_of_shows {failures : Nat} {state : SystemState} {label : Label}
    (shows : Shows id state action label) :
    failing id failures state action = label.failures failures := by
  cases shows with
  | spawn on => simp only [failing, eventOf, on, if_true, Label.failures]
  | exec program effective =>
    simp only [failing, eventOf, program, effective, Label.failures, Bool.false_eq_true, if_false]
  | vain program vain =>
    simp only [failing, eventOf, program, vain, Label.failures, if_true]
  | crash | expire => rfl

/-- To start is no failure. -/
theorem failing_spawn (failures : Nat) (state : SystemState) (thread : Nat) (entry : Entry) :
    failing id failures state (.spawn thread entry) = failures := by
  by_cases on : entry.session.job = some id
  · exact failing_of_shows (.spawn on)
  · simp only [failing, eventOf, if_neg on]

theorem failing_ge (failures : Nat) (state : SystemState) (action : SystemAction) :
    failures ≤ failing id failures state action := by
  simp only [failing]
  split
  · split
    · exact Nat.le_succ _
    · exact Nat.le_refl _
  · exact Nat.le_refl _

theorem expected_perform (env : Env) (stores : Stores) (c : Call)
    (steady : calm → env.fails = false ∧ env.backoff = none) :
    c.expected calm (perform env stores c).1 := by
  intro undisturbed
  obtain ⟨fine, elapsed⟩ := steady undisturbed
  refine ⟨perform_served stores c fine, ?_⟩
  cases c with
  | backoff jobType attempt =>
    show (perform env stores (.backoff jobType attempt)).1 = none
    simp only [perform, fine, performStore, elapsed]
  | _ => exact trivial

/-- What a thread that performs a call has of the job is in the job's life. -/
theorem Mourning.earned {thread : Nat} {c : Call} {next : c.Reply → Prog Result}
    (mourning : Mourning calm proc id before)
    (program : (before.1.threads thread).program = .call c next)
    (on : (before.1.threads thread).session.job = some id)
    (obtained : (before.1.threads thread).session.token ≠ .absent) :
    (life id before.1).Earned before.2 (before.1.threads thread).session.brief := by
  have unfinished : ¬(before.1.threads thread).Finished := by
    rintro ⟨value, ended⟩
    cases program.symm.trans ended
  exact mourning.charged.roles thread _ (roleOf_of_on unfinished on) obtained

theorem Mourning.failed {thread : Nat} {c : Call} {next : c.Reply → Prog Result}
    (mourning : Mourning calm proc id before)
    (program : (before.1.threads thread).program = .call c next)
    (on : (before.1.threads thread).session.job = some id)
    (failed : (before.1.threads thread).session.attempt = .failed) : 1 ≤ before.2 := by
  have unfinished : ¬(before.1.threads thread).Finished := by
    rintro ⟨value, ended⟩
    cases program.symm.trans ended
  exact mourning.charged.failed thread _ (roleOf_of_on unfinished on) failed

/-- The row's count was earned before the call or by the thread that writes it. -/
theorem retryCount_step (mourning : Mourning calm proc id before)
    (stepped : (taskfire proc).step before.1 action = some after.1) (row : Row)
    (found : after.1.store.jobs id = some row) : row.retryCount ≤ before.2 := by
  obtain same | ⟨lock, moved⟩ | ⟨thread, env, c, next, _, program, moved⟩ := Machine.step_store stepped
  · rw [same] at found
    exact mourning.charged.row row found
  · rw [moved] at found
    exact mourning.charged.row row found
  · rw [moved] at found
    have step := perform_row env before.1.store c id
    have written : (perform env before.1.store c).2.jobs id = some row := found
    rw [written] at step
    apply step.retryCount mourning.charged.row
    intro job same named
    subst same
    have permitted := (program ▸ mourning.conforming thread : Completes _ _ (.call _ next)).1
    obtain ⟨on, opened, brief⟩ := permitted
    have earned := (mourning.earned program (named ▸ on) (Life.token_of_open opened)).2.2
    rwa [← brief] at earned

theorem charged_moves (mourning : Mourning calm proc id before)
    (starting : Starting Entry.isRooted action)
    (stepped : (taskfire proc).step before.1 action = some after.1) :
    (life id after.1).Charged (failing id before.2 before.1 action) := by
  have counted (row : Row) (found : after.1.store.jobs id = some row) :
      row.retryCount ≤ failing id before.2 before.1 action := by
    have earned := retryCount_step mourning stepped row found
    have grows : before.2 ≤ failing id before.2 before.1 action := failing_ge ..
    omega
  obtain ⟨middle, leaves, moves⟩ := life_cases mourning.conforming stepped
    (fun thread entry acts => @lax_admissible proc thread entry (acts ▸ starting))
    (fun _ _ _ strict => strict.elim) False.elim
  -- A thread that leaves the job does not touch its row.
  have row : middle.row = after.1.store.jobs id := by
    obtain same | ⟨_, _, _, left⟩ := leaves
    · rw [← same]
      rfl
    · exact (Life.row_of_leave left).symm
  have charged : middle.Charged (failing id before.2 before.1 action) := by
    obtain ⟨thread, entry, acts, same⟩ | ⟨label, shows, moved⟩ := moves
    · subst acts same
      rw [failing_spawn]
      exact mourning.charged
    · rw [failing_of_shows shows]
      apply Life.charged_step trivial mourning.charged moved
      intro new found
      rw [← failing_of_shows shows]
      exact counted new (row ▸ found)
  obtain same | ⟨thread, _, _, left⟩ := leaves
  · rw [same]
    exact charged
  · exact Life.charged_step trivial charged left fun new found => counted new found

/-- What was said of the job was said before, or by a thread whose record of it is doomed. -/
theorem dead_moves (mourning : Mourning calm proc id before)
    (stepped : (taskfire proc).step before.1 action = some after.1)
    (dead : after.1.store.reportsDead id) : ∃ jobType,
      (after.1.store.jobs id).map Row.jobType = some jobType ∧ 1 ≤ before.2 ∧
        (calm → proc.budget jobType ≤ before.2) := by
  obtain same | ⟨lock, moved⟩ | ⟨thread, env, c, next, _, program, moved⟩ := Machine.step_store stepped
  · rw [same] at dead ⊢
    exact mourning.dead dead
  · rw [moved] at dead ⊢
    exact mourning.dead dead
  · rw [moved] at dead ⊢
    have step := perform_row env before.1.store c id
    have permitted := (program ▸ mourning.conforming thread : Completes _ _ (.call c next)).1
    have buries := (program ▸ mourning.buries thread : Buries _ _ _ (.call c next)).1
    obtain already | gives := reportsDead_perform permitted dead
    · obtain ⟨jobType, typed, failed, spent⟩ := mourning.dead already
      exact ⟨jobType, step.jobType typed, failed, spent⟩
    · obtain ⟨on, doomed⟩ := doomed_of_givesUp permitted buries gives
      obtain ⟨typed, _, earned⟩ := mourning.earned program on doomed.obtained
      refine ⟨_, step.jobType typed, mourning.failed program on doomed.failed, fun steady => ?_⟩
      exact Int.le_trans (doomed.spent steady) earned

theorem mourning_step (mourning : Mourning calm proc id before)
    (starting : Starting Entry.isRooted action) (steady : calm → Uncut action)
    (moved : failingStep proc id before action = some after) : Mourning calm proc id after := by
  obtain ⟨stepped, recorded⟩ := chronicle_eq_some moved
  refine ⟨?_, ?_, ?_, ?_⟩
  · exact conforming_step mourning.conforming stepped
      (fun thread entry acts => @lax_admissible proc thread entry (acts ▸ starting))
      fun _ _ _ strict => strict.elim
  · apply Machine.step_follows stepped mourning.buries trivial
    · intro thread entry acts
      subst acts
      exact Entry.buries starting
    · intro thread env c acts _
      subst acts
      exact expected_perform env before.1.store c steady
  · rw [recorded]
    exact charged_moves mourning starting stepped
  · intro dead
    obtain ⟨jobType, typed, failed, spent⟩ := dead_moves mourning stepped dead
    have grows : before.2 ≤ failing id before.2 before.1 action := failing_ge ..
    rw [recorded]
    refine ⟨jobType, typed, Nat.le_trans failed grows, fun calm => ?_⟩
    have within := spent calm
    omega

/-- A job whose row is dead, of which an event tells that it died, or of which a record lies in the
dead-letter set has a row and has failed, whatever else failed, expired or crashed.  Where no store
call fails and no wait is cut short, it has failed as often as the retry manager allows its type. -/
theorem failed_of_dead {last : SystemState × Nat}
    (run : Reach (Moves (failingStep proc id))
      (fun _ action => Starting Entry.isRooted action ∧ (calm → Uncut action)) (beginning proc, 0)
      last)
    (dead : last.1.store.reportsDead id) : ∃ jobType,
      (last.1.store.jobs id).map Row.jobType = some jobType ∧ 1 ≤ last.2 ∧
        (calm → proc.budget jobType ≤ last.2) := by
  have mourning := run.invariant (Mourning calm proc id) mourning_beginning
    fun _ _ _ mourning kept moved => mourning_step mourning kept.1 kept.2 moved
  exact mourning.dead dead

end Run

/-- A job whose type is allowed one failure dies, is retried and dies again. -/
theorem failed_of_dead_twice : ∃ last : SystemState × Nat,
    last.1.store.status "j" = some .dead ∧ last.2 = 2 ∧ ∃ jobType,
      (last.1.store.jobs "j").map Row.jobType = some jobType ∧ 1 ≤ last.2 ∧
        (True → Processor.impatient.budget jobType ≤ last.2) := by
  have reached : ∃ last, Reach (Moves (failingStep .impatient "j"))
      (fun _ action => Starting Entry.isRooted action ∧ (True → Uncut action))
      (beginning .impatient, 0) last ∧
      decide (last.1.store.status "j" = some .dead ∧ last.2 = 2) = true :=
    replay_reaches (fun _ action => decide (Starting Entry.isRooted action ∧ (True → Uncut action)))
      (fun _ _ checked => of_decide_eq_true checked)
      (createAndDie ++ .spawn 0 (.retry "j" true) :: calls 0 4 (.calm "j") ++
        .spawn 1 .work :: calls 1 19 (.failing "j")) _ (by decide +kernel)
  obtain ⟨last, run, checked⟩ := reached
  obtain ⟨dead, failures⟩ := of_decide_eq_true checked
  exact ⟨last, dead, failures, failed_of_dead run (.inl dead)⟩

end Taskfire
