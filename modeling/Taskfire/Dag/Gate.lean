import Taskfire.Dag.Validate
import Taskfire.Safety.Outcome

/-!
# The dependency gate

`CanRun` asks for the statuses of all declared dependencies and looks at the rows that come back, so
a dependency without a row blocks nothing.
-/

namespace Taskfire

open Taskfire.Library

/-! ## What the query decides -/

/-- Queries for the statuses of dependencies do not fail. -/
def Call.queriesSucceed : Call → Env → Prop
  | .depStatuses _, env => env.fails = false
  | _, _ => True

theorem Call.queriesSucceed_some (c : Call) : ∃ env, c.queriesSucceed env :=
  ⟨Env.calm "", by cases c <;> first | rfl | trivial⟩

/-- Every declared dependency has a row and has completed. -/
def Job.ready (job : Job) (stores : Stores) : Prop :=
  ∀ dep ∈ job.dependencies, stores.status dep = some .completed

/-- No dependency that has a row is anything but completed. -/
def Job.unblocked (job : Job) (stores : Stores) : Prop :=
  ∀ dep ∈ job.dependencies, ∀ row, stores.jobs dep = some row → row.status = .completed

theorem Job.ready_iff (job : Job) (stores : Stores) :
    job.ready stores ↔ job.unblocked stores ∧ ∀ dep ∈ job.dependencies, stores.jobs dep ≠ none := by
  simp only [Job.ready, Job.unblocked, Stores.status, ← forall₂_and]
  apply forall₂_congr
  intro dep _
  cases stores.jobs dep <;> simp

/-- `CanRun` returns true when the rows that come back are all completed. -/
theorem all_depStatuses {jobs : Jobs} {ids : List JobId} :
    ((jobs.depStatuses ids).all fun entry => entry.2 = .completed) = true ↔
      ∀ dep ∈ ids, ∀ row, jobs dep = some row → row.status = .completed := by
  simp only [Jobs.depStatuses, List.all_eq_true, List.mem_filterMap, List.mem_dedup,
    Option.map_eq_some_iff, decide_eq_true_eq]
  constructor
  · intro all dep listed row stored
    exact all (dep, row.status) ⟨dep, listed, row, stored, rfl⟩
  · intro all entry found
    obtain ⟨dep, listed, row, stored, rfl⟩ := found
    exact all dep listed row stored

/-- Where the query succeeds, `CanRun` answers whether the job is unblocked and writes nothing. -/
theorem canRun_answers (job : Job) (stores : Stores) :
    (Engine.canRun job).wp perform Call.queriesSucceed
      (fun outcome last => last = stores ∧ ∃ allowed, outcome = .ok allowed ∧
        (allowed = true ↔ job.unblocked stores)) stores := by
  by_cases empty : job.dependencies = []
  · simp [Engine.canRun, Job.unblocked, empty]
  · simp only [Engine.canRun, if_neg empty, Program.perform_bind, Program.wp_call]
    intro env (fails : env.fails = false)
    simp only [perform, fails, performStore]
    exact ⟨rfl, _, rfl, all_depStatuses⟩

/-! ## Starting the handler -/

/-- The calls other than the start of a handler. -/
def Call.startsNothing : Call → Prop
  | .startHandler _ => False
  | _ => True

theorem perform_started (env : Env) (stores : Stores) {c : Call} (quiet : c.startsNothing) :
    (perform env stores c).2.ledger.started = stores.ledger.started := by
  obtain ⟨_, _, _, failed⟩ | performed := perform_cases env stores c
  · rw [failed]
  · rw [performed]
    cases c with
    | startHandler job => cases quiet
    | command command =>
      cases command with
      | zadd key score member =>
        show (stores.ledger.noteZadd key member).started = stores.ledger.started
        simp only [Ledger.noteZadd]
        split <;> rfl
      | zrem | hdelProcessing | delLock | lpushDone | ltrimDone | publish => rfl
    | cancelJob id =>
      simp only [performStore]
      split <;> rfl
    | awaitHandler job =>
      simp only [performStore]
      split <;> rfl
    | insertJob | getJob | requeueJob | updateJobStatus | depStatuses | claim | drainDelayed | zscan
    | now | randomUUID | scanPages | findHandler | backoff | deliver | count => rfl

/-- What `Process` does with a blocked job. -/
theorem blocked_startsNothing (job : Job) :
    Program.Uses Call.startsNothing (do
      let _ ← nack job
      let now ← invoke .now
      let _ ← enqueueDelayed job (now + 5 * second)
      pure (none : Option GoError)) := by
  simp [nack, pipeline, enqueueDelayed, Call.startsNothing]

/-- The handler is started only if the job is unblocked. -/
theorem process_starts_unblocked (retrier : Retry.Manager) (job : Job) (stores : Stores) :
    (Processor.process ⟨some Engine.checker, retrier⟩ job).wp perform Call.queriesSucceed
      (fun _ last => last.ledger.started = stores.ledger.started ∨ job.unblocked stores) stores := by
  simp only [Processor.process, Processor.canRun, Engine.checker]
  rw [Program.wp_bind]
  apply Program.wp_mono (canRun_answers job stores)
  intro outcome last answered
  obtain ⟨rfl, allowed, rfl, decides⟩ := answered
  by_cases unblocked : job.unblocked last
  · -- Nothing is asked of an unblocked job.
    have any (program : Prog (Option GoError)) : program.Uses fun _ => True := by
      induction program with
      | pure value => exact trivial
      | call c next inductionHypothesis => exact ⟨trivial, inductionHypothesis⟩
    apply (any _).wp_keeps _ (.inr unblocked)
    intro _ _ _ _ _ _
    exact .inr unblocked
  · cases allowed with
    | true => exact absurd (decides.mp rfl) unblocked
    | false =>
      apply (blocked_startsNothing job).wp_keeps _ (.inl rfl)
      intro store c env quiet _ held
      obtain same | contrary := held
      · exact .inl ((perform_started env store quiet).trans same)
      · exact absurd contrary unblocked

/-! ## The gate's decision -/

/-- `CanRun` returns true exactly for a ready job, and `Process` starts its handler only then. -/
structure Gated (retrier : Retry.Manager) (job : Job) (stores : Stores) : Prop where
  answers : (Engine.canRun job).wp perform Call.queriesSucceed
    (fun outcome _ => outcome = .ok true ↔ job.ready stores) stores
  starts : (Processor.process ⟨some Engine.checker, retrier⟩ job).wp perform Call.queriesSucceed
    (fun _ last => last.ledger.started ≠ stores.ledger.started → job.ready stores) stores

/-- The gate is right exactly when every dependency has a row, or one that has a row is not
completed. -/
theorem gated_iff (retrier : Retry.Manager) (job : Job) (stores : Stores) :
    Gated retrier job stores ↔
      (∀ dep ∈ job.dependencies, stores.jobs dep ≠ none) ∨
        ∃ dep ∈ job.dependencies, ∃ row, stores.jobs dep = some row ∧ row.status ≠ .completed := by
  have blocked : (∃ dep ∈ job.dependencies, ∃ row, stores.jobs dep = some row ∧
      row.status ≠ .completed) ↔ ¬ job.unblocked stores := by
    simp [Job.unblocked]
  rw [blocked]
  constructor
  · intro gated
    by_contra neither
    rw [not_or, not_not] at neither
    obtain ⟨missing, unblocked⟩ := neither
    obtain ⟨outcome, last, right, same, allowed, rfl, decides⟩ := Program.wp_ends
      Call.queriesSucceed_some (Program.wp_and gated.answers (canRun_answers job stores))
    have ready : job.ready stores := right.mp (congrArg Except.ok (decides.mpr unblocked))
    exact missing ((job.ready_iff stores).mp ready).2
  · intro either
    -- In both cases the rows that come back decide as the whole list would.
    have agree : job.unblocked stores ↔ job.ready stores := by
      rw [job.ready_iff]
      obtain present | blocked := either
      · exact (and_iff_left present).symm
      · exact iff_of_false blocked fun both => blocked both.1
    constructor
    · apply Program.wp_mono (canRun_answers job stores)
      intro outcome last answered
      obtain ⟨-, allowed, rfl, decides⟩ := answered
      rw [← agree, ← decides]
      simp
    · apply Program.wp_mono (process_starts_unblocked retrier job stores)
      intro outcome last kept started
      obtain same | unblocked := kept
      · exact absurd same started
      · exact agree.mp unblocked

/-- The dependency of the job has no row, and `CanRun` returns true. -/
theorem missing_dependency_passes :
    ¬ Job.dependent.ready .empty ∧
      (Engine.canRun .dependent).wp perform Call.queriesSucceed
        (fun outcome _ => outcome = .ok true) .empty := by
  constructor
  · intro ready
    cases ready "d" List.mem_cons_self
  · intro env (fails : env.fails = false)
    simp only [perform, fails, performStore]
    rfl

end Taskfire
