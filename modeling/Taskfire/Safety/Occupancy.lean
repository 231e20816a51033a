import Mathlib.Data.Finset.Card
import Taskfire.Model.Workers
import Taskfire.Safety.Records
import Taskfire.Safety.Reports
import Taskfire.Snapshot.Grounds

/-!
# Nobody is shown at work who is not

A worker that marks a row active writes another status before it puts the record anywhere or ends, and
one that has claimed a job deletes the processing entry before it ends.  So where no call fails, no
thread crashes and no update is refused, each active row and each processing entry has a worker in the
middle of its work, and `/workers` counts at most as many as there are.
-/

namespace Taskfire

open Taskfire.Library

/-! ## The protocol -/

/-- A row is marked active with the time of its start, and a record is put somewhere only once the row
has another status. -/
def Session.vacates (session : Session) : Call → Prop
  | .updateJobStatus job => job.status = .active → job.startedAt ≠ none
  | .command (.zadd _ _ _) => session.token ≠ .active
  | _ => True

/-- The program leaves no row active behind. -/
abbrev Vacates {α : Type} (session : Session) (program : Prog α) : Prop :=
  program.Follows Session.vacates Session.advance (fun _ _ => True)
    (fun _ last => last.token ≠ .active) session

/-- The statuses whose writing marks no row active. -/
def Retiring (statuses : List JobStatus) : Prop :=
  ∀ status ∈ statuses, status ≠ .active ∧ status ≠ .failed

instance : DecidablePred Retiring := fun statuses => inferInstanceAs (Decidable (∀ _ ∈ statuses, _))

theorem retiring_nil : Retiring [] := List.forall_mem_nil _

section Protocol

variable {α : Type} {proc : Processor} {session : Session} {program : Prog α}
variable {statuses : List JobStatus}

theorem wrote_retires {status : JobStatus} (retires : status ≠ .active ∧ status ≠ .failed)
    (reply : Except StoreError Unit) : (session.wrote status reply).token ≠ .active := by
  cases reply with
  | error error => exact Token.noConfusion
  | ok done =>
    cases status with
    | active => exact absurd rfl retires.1
    | failed => exact absurd rfl retires.2
    | pending | completed | dead => exact Token.noConfusion

theorem advance_retires {c : Call} (working : c.working statuses) (retiring : Retiring statuses)
    (reply : c.Reply) (vacant : session.token ≠ .active) : (session.advance c reply).token ≠ .active := by
  cases c with
  | updateJobStatus job => exact wrote_retires (retiring _ working) reply
  | insertJob => cases reply <;> first | exact vacant | exact Token.noConfusion
  | cancelJob => obtain error | _ | found := reply <;> exact vacant
  | requeueJob | claim =>
    obtain error | _ | found := reply <;> first | exact vacant | exact Token.noConfusion
  | command command =>
    cases command with
    | zadd key =>
      cases reply with
      | error => exact vacant
      | ok => cases key <;> exact Token.noConfusion
    | _ => exact vacant
  | findHandler => cases reply <;> exact vacant
  | awaitHandler => cases reply <;> exact vacant
  | _ => exact vacant

/-- What marks no row active. -/
theorem vacates_of_working (uses : program.Uses (Call.working statuses)) (retiring : Retiring statuses)
    (vacant : session.token ≠ .active) : Vacates session program := by
  have returns : program.Returns (fun _ _ => True) fun _ => True :=
    Program.returns_of_forall _ fun _ => trivial
  apply (uses.follows_within (fun session => session.token ≠ .active) returns vacant ?_ ?_).mono
  · exact fun _ _ ended => ended.1
  · intro session c vacant working
    cases c with
    | updateJobStatus job => exact fun active => absurd active (retiring _ working).1
    | command command => cases command <;> first | exact trivial | exact vacant
    | _ => exact trivial
  · exact fun session c reply vacant working => advance_retires working retiring reply vacant

/-- Whatever the thread did before, it leaves no row active behind once it writes another status. -/
theorem vacates_of_write {job : Job} {next : Except StoreError Unit → Prog α}
    (uses : (.call (.updateJobStatus job) next : Prog α).Uses (Call.working statuses))
    (retiring : Retiring statuses) : Vacates session (.call (.updateJobStatus job) next) :=
  ⟨fun active => absurd active (retiring _ uses.1).1, fun reply _ =>
    vacates_of_working (uses.2 reply) retiring (wrote_retires (retiring _ uses.1) reply)⟩

/-! ### The worker -/

theorem sendToDLQ_vacates (job : Job) (reason : GoError) :
    Vacates session (Processor.sendToDLQ job reason) :=
  have calls := (@sendToDLQ_calls [.dead] job reason (by decide)).uses
  ⟨trivial, fun now _ => vacates_of_write (calls.2 now) (by decide)⟩

theorem handleFailure_vacates (job : Job) (cause : GoError) :
    Vacates session (proc.handleFailure job cause) := by
  refine ⟨trivial, fun _ _ => ⟨trivial, fun _ _ => ⟨trivial, fun _ _ => ?_⟩⟩⟩
  simp only [Retry.Manager.wait]
  split
  · exact sendToDLQ_vacates _ _
  · refine ⟨trivial, fun ended _ => ?_⟩
    cases ended with
    | some error => exact sendToDLQ_vacates _ error
    | none =>
      exact vacates_of_write (@retryJob_calls [.pending, .dead] _ cause (by decide) (by decide)).uses
        (by decide)

theorem complete_vacates (job : Job) : Vacates session (Processor.complete job) :=
  have calls := (@complete_calls [.completed] job (by decide)).uses
  ⟨trivial, fun now _ => ⟨trivial, fun done _ =>
    vacates_of_write ((calls.2 now).2 done) (by decide)⟩⟩

theorem execute_vacates (job : Job) : Vacates session (proc.execute job) := by
  refine ⟨trivial, fun now _ => ⟨fun _ => Option.some_ne_none now, fun _ _ => ⟨trivial, fun _ _ =>
    ⟨trivial, fun found _ => ?_⟩⟩⟩⟩
  cases found with
  | false => exact ⟨trivial, fun _ _ => handleFailure_vacates _ _⟩
  | true =>
    refine ⟨trivial, fun _ _ => ⟨trivial, fun outcome _ => ?_⟩⟩
    cases outcome with
    | returnedNil => exact complete_vacates _
    | returned error => exact ⟨trivial, fun _ _ => handleFailure_vacates _ error⟩
    | panicked value => exact ⟨trivial, fun _ _ => handleFailure_vacates _ _⟩

theorem process_vacates (job : Job) (vacant : session.token ≠ .active) :
    Vacates session (proc.process job) := by
  have checked : (proc.canRun job).Follows Session.vacates Session.advance (fun _ _ => True)
      (fun _ last => last.token ≠ .active) session :=
    vacates_of_working ((proc.canRun_uses job).mono fun _ => working_of_readsDeps)
      retiring_nil vacant
  refine checked.bind ?_
  intro outcome last vacant
  cases outcome with
  | error error =>
    exact vacates_of_working (Program.uses_bind (nack_calls job).uses fun _ => trivial) retiring_nil
      vacant
  | ok allowed =>
    cases allowed with
    | false => exact vacates_of_working (putOff_calls job).uses retiring_nil vacant
    | true => exact execute_vacates job

theorem fetchAndProcess_vacates (vacant : session.token ≠ .active) :
    Vacates session proc.fetchAndProcess := by
  have received : dequeue.Follows Session.vacates Session.advance (fun _ _ => True)
      (fun _ last => last.token ≠ .active) session :=
    vacates_of_working dequeue_calls.uses retiring_nil vacant
  refine received.bind ?_
  intro outcome last vacant
  obtain error | _ | job := outcome
  · exact vacant
  · exact vacant
  · simp only [Program.perform_bind, Program.follows_call]
    refine ⟨trivial, fun delivered _ => ?_⟩
    cases delivered with
    | true => exact (process_vacates job vacant).bind fun _ _ vacant => vacant
    | false => exact vacates_of_working (handBack_calls job).uses retiring_nil vacant

/-! ### All programs -/

theorem entry_vacant (entry : Entry) : entry.session.token ≠ .active := by
  cases entry <;> exact Token.noConfusion

theorem Entry.vacates {entry : Entry} (own : entry.isTaskfire = true) :
    Vacates entry.session (entry.program proc) := by
  cases entry with
  | work => exact (fetchAndProcess_vacates (entry_vacant .work)).bind fun _ _ vacant => vacant
  | create input => exact vacates_of_working (create_uses input) retiring_nil (entry_vacant (.create input))
  | delete id => exact vacates_of_working (delete_uses id) retiring_nil (entry_vacant (.delete id))
  | retry id resetRetries =>
    exact vacates_of_working (retry_uses id resetRetries) retiring_nil
      (entry_vacant (.retry id resetRetries))
  | poll => exact vacates_of_working poll_uses retiring_nil (entry_vacant .poll)
  | cron cj => exact vacates_of_working (cron_uses cj) retiring_nil (entry_vacant (.cron cj))
  | scheduleDelayed job scheduledAt =>
    exact vacates_of_working (scheduleDelayed_uses job scheduledAt) retiring_nil
      (entry_vacant (.scheduleDelayed job scheduledAt))
  | enqueue | enqueueJob | enqueueDelayedJob | drain | claimAndRelease =>
    exact absurd own Bool.false_ne_true

end Protocol

/-! ## One job -/

/-- The thread has claimed the job and not yet deleted the processing entry. -/
def Role.enlisted (role : Role) : Prop := role.stage = .claimed ∨ role.stage = .requeued

namespace Life

structure Occupied (life : Life) : Prop where
  active : life.status = some .active → ∃ thread role, life.roles thread = some role ∧ role.token = .active
  listed : life.listed = true → ∃ thread role, life.roles thread = some role ∧ role.enlisted

variable {before after : Life} {d : Discipline} {label : Label} {thread : Nat}

/-- The thread that keeps the processing entry still does after it turned to another role. -/
theorem Occupied.keeps_entry {role : Role} {next : Option Role} (occupied : before.Occupied)
    (current : before.roles thread = some role) (roles : after.roles = (before.put thread next).roles)
    (listed : after.listed = true → before.listed = true)
    (stage : after.listed = true → role.enlisted → ∃ held, next = some held ∧ held.enlisted)
    (entry : after.listed = true) : ∃ thread role, after.roles thread = some role ∧ role.enlisted := by
  obtain ⟨other, plays⟩ := occupied.listed (listed entry)
  refine ⟨other, plays_turned roles ?_ plays⟩
  rintro ⟨held, found, enlisted⟩
  cases current.symm.trans found
  exact stage entry enlisted

/-- A thread turns to another role and stays what it was for the row and the processing entry. -/
theorem Occupied.turn {role : Role} {next : Option Role} (occupied : before.Occupied)
    (current : before.roles thread = some role) (roles : after.roles = (before.put thread next).roles)
    (status : after.status = some .active → before.status = some .active)
    (listed : after.listed = true → before.listed = true)
    (token : role.token = .active → ∃ held, next = some held ∧ held.token = .active)
    (stage : after.listed = true → role.enlisted → ∃ held, next = some held ∧ held.enlisted) :
    after.Occupied where
  active active := by
    obtain ⟨other, plays⟩ := occupied.active (status active)
    refine ⟨other, plays_turned roles ?_ plays⟩
    rintro ⟨held, found, marked⟩
    cases current.symm.trans found
    exact token marked
  listed := occupied.keeps_entry current roles listed stage

end Life

/-! ## Runs -/

/-- All calls are answered, and any entry of the program may start. -/
def Discipline.answered (proc : Processor) : Discipline where
  strict := True
  bare := False
  settles := False
  rooted := False
  legible := False
  budget := proc.budget

/-- No store call fails, no thread crashes and no update of a row is refused.  Locks may expire. -/
structure Undamaged (state : SystemState) (action : SystemAction) : Prop where
  starting : Starting Entry.isTaskfire action
  served : ∀ thread env, action = .exec thread env → env.fails = false
  alive : ∀ thread, action ≠ .crash thread
  accepted : ∀ thread env job, action = .exec thread env →
    (state.threads thread).next? = some (.updateJobStatus job) →
      (perform env state.store (.updateJobStatus job)).1.isOk = true

structure Serving (proc : Processor) (state : SystemState) : Prop where
  conforming : Conforming (.answered proc) state
  vacates : ∀ thread, Vacates (state.threads thread).session (state.threads thread).program
  started : ∀ id row, state.store.jobs id = some row → row.status = .active → row.startedAt ≠ none
  occupied : ∀ id, (life id state).Occupied

section

variable {proc : Processor} {id : JobId} {before after : SystemState} {action : SystemAction}

theorem Undamaged.admissible (undamaged : Undamaged before action) (thread : Nat) (entry : Entry)
    (acts : action = .spawn thread entry) : entry.Admissible (.answered proc) proc := by
  subst acts
  exact Entry.admissible undamaged.starting False.elim False.elim False.elim rfl

/-- A row that is marked active is marked with the time of its start. -/
theorem RowStep.started {session : Session} {c : Call} {row : Option Row} {new : Row}
    (step : RowStep id c row (some new)) (vacates : session.vacates c)
    (started : ∀ old, row = some old → old.status = .active → old.startedAt ≠ none)
    (active : new.status = .active) : new.startedAt ≠ none := by
  cases step with
  | stays => exact started new rfl active
  | inserts | cancels | requeues => cases active
  | updates within named => exact vacates active

end

/-! ## What is shown -/

/-- The thread has marked a row active last, or it has claimed a job and its entry is not deleted. -/
def atWork (thread : SystemThread) : Prop :=
  ¬ thread.Finished ∧ (thread.session.token = .active ∨ thread.session.enlisted)

section

variable {proc : Processor} {state first second : SystemState}

theorem Serving.active (serving : Serving proc state) {id : JobId} {row : Row}
    (found : state.store.jobs id = some row) (active : row.status = .active) :
    ∃ thread, atWork (state.threads thread) ∧ (state.threads thread).session.on id := by
  have status : (life id state).status = some .active :=
    (congrArg (Option.map Row.status) found).trans (congrArg some active)
  obtain ⟨thread, role, current, marked⟩ := (serving.occupied id).active status
  obtain ⟨unfinished, on, rfl⟩ := roleOf_cases current
  exact ⟨thread, ⟨unfinished, .inl marked⟩, on⟩

theorem Serving.listed (serving : Serving proc state) {id : JobId}
    (listed : (state.store.redis.processing id).isSome = true) :
    ∃ thread, atWork (state.threads thread) ∧ (state.threads thread).session.on id := by
  obtain ⟨thread, role, current, enlisted⟩ := (serving.occupied id).listed listed
  obtain ⟨unfinished, on, rfl⟩ := roleOf_cases current
  exact ⟨thread, ⟨unfinished, .inr enlisted⟩, on⟩

end

/-! ## A worker in the middle of a job -/

/-- No row update that the step makes is refused. -/
def accepts (state : SystemState) : SystemAction → Bool
  | .exec thread env =>
    match (state.threads thread).next? with
    | some (.updateJobStatus job) => (perform env state.store (.updateJobStatus job)).1.isOk
    | _ => true
  | _ => true

/-- `Undamaged`, computed for a step of the first four threads. -/
def undamaged (state : SystemState) (action : SystemAction) : Bool :=
  decide (Ordinary Entry.isTaskfire action) && Below 4 action && accepts state action

/-- Whether the thread is at work, computed. -/
def works (thread : SystemThread) : Bool :=
  match thread.program with
  | .pure _ => false
  | .call _ _ => thread.session.token = .active ∨ thread.session.stage = .claimed ∨
      thread.session.stage = .requeued

/-- Only these of the first four threads are at work. -/
def attended (busy : List Nat) (state : SystemState) : Bool :=
  (List.range 4).all fun thread => thread ∈ busy || !works (state.threads thread)

end Taskfire
