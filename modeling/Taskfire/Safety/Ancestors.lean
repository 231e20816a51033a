import Taskfire.Dag.Gate
import Taskfire.Safety.Completion
import Taskfire.Snapshot.Grounds

/-!
# Ancestors of jobs that run

`CanRun` looks at the direct dependencies of a record.  That all ancestors of a running job are
completed rests on the order of things: a job is created on jobs that exist, it runs after its
dependencies were found completed, and a completed job stays so.
-/

namespace Taskfire

open Taskfire.Library Relation
open Engine (Stored storedDeps)

/-! ## Runs that only add jobs -/

/-- The entries of a run without cancellations and retries. -/
def Entry.builds : Entry → Bool
  | .create _ | .work | .poll => true
  | _ => false

/-- The call of a step. -/
def called (state : SystemState) : SystemAction → Option Call
  | .exec thread _ => (state.threads thread).next?
  | _ => none

/-- Jobs are only created on jobs that exist, and none is cancelled or retried by request. -/
def Builds (state : SystemState) (action : SystemAction) : Prop :=
  Starting Entry.builds action ∧ ∀ params, called state action = some (.insertJob params) →
    ∀ dep ∈ params.dependencies, state.store.jobs dep ≠ none

theorem isRooted_of_builds {entry : Entry} (builds : entry.builds = true) :
    entry.isRooted = true := by
  cases entry with
  | create | work | poll => rfl
  | _ => cases builds

theorem Starting.rooted {action : SystemAction} (starting : Starting Entry.builds action) :
    Starting Entry.isRooted action := by
  cases action with
  | spawn thread entry => exact isRooted_of_builds starting
  | exec | tick | crash => exact trivial

/-- The terms of such a run. -/
def Terms.building : Terms := ⟨True, False⟩

theorem Entry.announces_building {proc : Processor} {entry : Entry}
    (production : proc.depChecker = some Engine.checker) (builds : entry.builds = true) :
    Announces .building .blank (entry.program proc) := by
  apply entry.announces (isRooted_of_builds builds) fun _ => production
  intro id resetRetries same
  subst same
  cases builds

section

variable {proc : Processor} {id : JobId} {last : SystemState}

theorem requeueJob_of_event {session : Session} {c : Call} {reply : c.Reply}
    (event : c.event id session reply = .requeues) :
    ∃ job resetRetries, c = .requeueJob job resetRetries := by
  cases c with
  | requeueJob job resetRetries => exact ⟨job, resetRetries, rfl⟩
  | command command =>
    cases command <;> simp only [Call.event, Command.event] at event <;>
      (repeat' split at event) <;> cases event
  | _ =>
    simp only [Call.event] at event
    (repeat' split at event) <;> cases event

theorem requeueJob_of_does {state : SystemState} {action : SystemAction} {thread : Nat}
    (does : Does id state action thread .requeues) :
    ∃ job resetRetries next,
      (state.threads thread).program = .call (.requeueJob job resetRetries) next := by
  have event := eventOf_of_does does
  cases action with
  | spawn =>
    simp only [eventOf] at event
    split at event <;> cases event
  | exec running env =>
    simp only [eventOf] at event
    split at event
    · cases event
    · next c next program =>
      simp only [Option.some.injEq, Prod.mk.injEq] at event
      obtain ⟨same, event⟩ := event
      subst same
      split at event
      · cases event
      · obtain ⟨job, resetRetries, rfl⟩ := requeueJob_of_event event
        exact ⟨job, resetRetries, next, program⟩
  | tick | crash => cases event

/-- No retry takes effect where there is none. -/
theorem retriesAlone_of_builds (production : proc.depChecker = some Engine.checker)
    (run : (taskfire proc).Run Builds (beginning proc) last) (id : JobId) :
    (taskfire proc).Run (RetriesAlone id) (beginning proc) last := by
  apply run.mono_reached
  intro middle action reached builds
  refine ⟨builds.1.rooted, ?_⟩
  intro thread does
  obtain ⟨state, erased, grounded, _⟩ := noted_invariant (fun _ => True) reached
    (fun _ _ _ builds => Entry.announces_building production builds.1) trivial
    fun _ _ _ _ _ _ _ => trivial
  subst erased
  obtain ⟨job, resetRetries, next, program⟩ := requeueJob_of_does does
  exact (grounded.permits program).2.elim

/-- In such a run a completed job stays completed. -/
theorem completed_stays {action : SystemAction} {middle : SystemState}
    (production : proc.depChecker = some Engine.checker)
    (run : (taskfire proc).Run Builds (beginning proc) middle) (builds : Builds middle action)
    (stepped : (taskfire proc).step middle action = some last)
    (completed : middle.store.status id = some .completed) :
    last.store.status id = some .completed := by
  obtain ⟨conforming, rests⟩ := rests_of_completed (retriesAlone_of_builds production run id) completed
  have step : (taskfire proc).Run (fun _ action => Starting Entry.isRooted action) middle last :=
    .single builds.1.rooted stepped
  exact (rests_reach step conforming (fun _ _ starting => starting) rests (.inr rfl)
    fun failed => nomatch failed).status

/-! ## The invariant -/

/-- The dependencies of the record the note is about are completed, if the note says so. -/
def Note.trusts (stores : Stores) (note : Note) : Prop :=
  ∀ id dependencies, note.record = some (id, dependencies) → note.ready = true →
    ∀ dep ∈ dependencies, stores.status dep = some .completed

/-- The dependencies of every job exist, those that a thread has found completed are, and so are
those of every job that runs or is completed. -/
structure Founded (stores : Stores) : Prop where
  exist : ∀ id dep, Stored stores.jobs id dep → stores.jobs dep ≠ none
  begun : ∀ id dep, stores.status id = some .active ∨ stores.status id = some .completed →
    Stored stores.jobs id dep → stores.status dep = some .completed

theorem stored_iff {jobs : Jobs} {dep : JobId} :
    Stored jobs id dep ↔ ∃ dependencies, jobs.dependencies id = some dependencies ∧
      dep ∈ dependencies := by
  cases found : jobs id <;> simp [Stored, storedDeps, Jobs.dependencies, found]

theorem stored_known {jobs : Jobs} {dependencies : List JobId} {dep : JobId}
    (known : jobs.dependencies id = some dependencies) : Stored jobs id dep ↔ dep ∈ dependencies := by
  simp [stored_iff, known]

theorem known_of_row {jobs : Jobs} (present : jobs id ≠ none) :
    ∃ dependencies, jobs.dependencies id = some dependencies := by
  cases found : jobs id with
  | none => exact absurd found present
  | some row => exact ⟨row.dependencies, by simp [Jobs.dependencies, found]⟩

theorem row_of_known {jobs : Jobs} {dependencies : List JobId}
    (known : jobs.dependencies id = some dependencies) : jobs id ≠ none := by
  intro missing
  simp [Jobs.dependencies, missing] at known

/-- A note that has just been written about a record trusts only in an empty list. -/
theorem obtained_trusts (stores : Stores) (id : JobId) (dependencies : List JobId) :
    (Note.obtained id dependencies).trusts stores := by
  intro _ _ record ready dep listed
  cases record
  have empty : dependencies = [] := List.isEmpty_iff.mp ready
  rw [empty] at listed
  cases listed

/-- A query that finds all dependencies completed can be trusted, since they all have rows. -/
theorem finds_trusts {note : Note} {stores : Stores} {ids : List JobId} (founded : Founded stores)
    (knows : note.knows stores.jobs) (found : note.finds ids (stores.jobs.depStatuses ids) = true) :
    ∀ id dependencies, note.record = some (id, dependencies) →
      ∀ dep ∈ dependencies, stores.status dep = some .completed := by
  intro id dependencies record dep listed
  obtain ⟨same, completed⟩ := Bool.and_eq_true .. ▸ found
  have asked : dependencies = ids := by simpa [record] using same
  have present : stores.jobs dep ≠ none :=
    founded.exist id dep ((stored_known (knows id dependencies record)).mpr listed)
  cases stored : stores.jobs dep with
  | none => exact absurd stored present
  | some row =>
    have status := all_depStatuses.mp completed dep (asked ▸ listed) row stored
    simp [Stores.status, stored, status]

theorem advance_trusts {note : Note} {env : Env} {stores : Stores} {c : Call}
    (founded : Founded stores) (knows : note.knows stores.jobs)
    (trusts : note.trusts (perform env stores c).2) :
    (note.advance c (perform env stores c).1).trusts (perform env stores c).2 := by
  cases c with
  | insertJob params =>
    cases (perform env stores (.insertJob params)).1 with
    | error error => exact trusts
    | ok row => exact obtained_trusts _ _ _
  | requeueJob id resetRetries =>
    obtain error | _ | row := (perform env stores (.requeueJob id resetRetries)).1
    · exact trusts
    · exact trusts
    · exact obtained_trusts _ _ _
  | claim =>
    obtain error | _ | json | content := (perform env stores .claim).1
    · exact trusts
    · exact trusts
    · exact obtained_trusts _ _ _
    · exact trusts
  | depStatuses ids =>
    obtain ⟨reply, _, failing, performed⟩ | performed := perform_cases env stores (.depStatuses ids)
    · cases failing
      rw [performed] at trusts ⊢
      exact trusts
    · rw [performed] at trusts ⊢
      intro id dependencies record ready
      -- Either it was ready before, or these replies have made it so.
      obtain already | found := Bool.or_eq_true .. ▸ ready
      · exact trusts id dependencies record already
      · exact finds_trusts founded knows found id dependencies record
  | command command => cases command <;> exact trusts
  | _ => exact trusts

/-! ### One step -/

section Step

variable {before after : NotedState} {action : SystemAction}

theorem called_of_program {thread : Nat} {env : Env} {c : Call} {next : c.Reply → Prog Result}
    (program : (before.threads thread).program = .call c next) :
    called before.erase (.exec thread env) = some c := by
  simp [called, Thread.next?, program]

/-- Where requests only name jobs that exist, the dependencies of every job go on to exist. -/
theorem exist_step (exist : ∀ id dep, Stored before.store.jobs id dep → before.store.jobs dep ≠ none)
    (names : ∀ params, called before.erase action = some (.insertJob params) →
      ∀ dep ∈ params.dependencies, before.store.jobs dep ≠ none)
    (stepped : (noted proc).step before action = some after) (id dep : JobId)
    (stored : Stored after.store.jobs id dep) : after.store.jobs dep ≠ none := by
  have stays (present : before.store.jobs dep ≠ none) : after.store.jobs dep ≠ none := by
    obtain ⟨dependencies, known⟩ := known_of_row present
    exact row_of_known (noted_dependencies stepped known)
  cases found : before.store.jobs.dependencies id with
  | some dependencies =>
    -- An old row lists what it listed before.
    have listed := (stored_known (noted_dependencies stepped found)).mp stored
    exact stays (exist id dep ((stored_known found).mpr listed))
  | none =>
    have missing : before.store.jobs id = none := by simpa [Jobs.dependencies] using found
    obtain same | ⟨thread, env, c, next, acts, program, step⟩ := noted_row stepped id
    · simp [Stored, storedDeps, same, missing] at stored
    · subst acts
      rw [missing] at step
      generalize written : after.store.jobs id = row at step
      cases step with
      | stays => simp [Stored, storedDeps, written] at stored
      | inserts budget named =>
        -- The row is new, and a request names only jobs that exist.
        apply stays
        apply names _ (called_of_program program) dep
        simpa [Stored, storedDeps, written, Row.created] using stored

theorem begun_step {terms : Terms} (grounded : Grounded terms before) (gated : terms.gated)
    (founded : Founded before.store)
    (trusts : ∀ thread, (before.note thread).trusts before.store)
    (stays : ∀ dep, before.store.status dep = some .completed →
      after.store.status dep = some .completed)
    (stepped : (noted proc).step before action = some after) (id dep : JobId)
    (begun : after.store.status id = some .active ∨ after.store.status id = some .completed)
    (stored : Stored after.store.jobs id dep) : after.store.status dep = some .completed := by
  apply stays
  -- The dependency is completed before the step, and completed jobs stay completed.
  simp only [Stores.status] at begun
  obtain same | ⟨thread, env, c, next, _, program, step⟩ := noted_row stepped id
  · rw [Stored, storedDeps, same] at stored
    rw [same] at begun
    exact founded.begun id dep begun stored
  · generalize old : before.store.jobs id = row at step
    generalize written : after.store.jobs id = row' at step begun
    cases step with
    | stays =>
      have status : before.store.status id = some .active ∨
          before.store.status id = some .completed := by simpa [Stores.status, old] using begun
      have listed : Stored before.store.jobs id dep := by
        simpa [Stored, storedDeps, old, written] using stored
      exact founded.begun id dep status listed
    | inserts => simp [Row.created] at begun
    | cancels => simp [Row.cancelled] at begun
    | requeues => simp [Row.requeued] at begun
    | @updates job row within named =>
      -- The worker that writes the row has found the dependencies of its record completed.
      obtain ⟨_, record, _, gate⟩ := grounded.permits program
      have ready : (before.note thread).ready = true := gate gated (by simpa [Row.updated] using begun)
      have known : before.store.jobs.dependencies id = some job.dependencies :=
        named ▸ grounded.known thread _ _ record
      have same : row.dependencies = job.dependencies := by
        simpa [Jobs.dependencies, old] using known
      have listed : dep ∈ row.dependencies := by
        simpa [Stored, storedDeps, written, Row.updated] using stored
      exact trusts thread _ _ record ready dep (same ▸ listed)

theorem trusts_step {terms : Terms} (grounded : Grounded terms before) (founded : Founded before.store)
    (trusts : ∀ thread, (before.note thread).trusts before.store)
    (stays : ∀ dep, before.store.status dep = some .completed →
      after.store.status dep = some .completed)
    (stepped : (noted proc).step before action = some after) :
    ∀ thread, (after.note thread).trusts after.store := by
  have trusted (thread : Nat) : (before.note thread).trusts after.store := by
    intro id dependencies record ready dep listed
    exact stays dep (trusts thread id dependencies record ready dep listed)
  apply Machine.step_threads (fun thread => thread.session.2.trusts after.store) stepped trusted
  · intro _ _ none
    cases none
  · intro _ _ _ _ _ none
    cases none
  · intro thread env session c next acts shape trusts
    subst acts
    obtain ⟨_, _, program, moved⟩ := Machine.step_exec stepped
    rw [shape] at program
    cases program
    subst moved
    have knows := grounded.known thread
    simp only [State.note, shape] at knows
    exact advance_trusts founded knows trusts

end Step

/-! ## Every run -/

theorem founded_reach (production : proc.depChecker = some Engine.checker)
    (run : (taskfire proc).Run Builds (beginning proc) last) : Founded last.store := by
  obtain ⟨state, erased, _, _, founded, _⟩ := noted_invariant
    (fun state => (taskfire proc).Run Builds (beginning proc) state.erase ∧ Founded state.store ∧
      ∀ thread, (state.note thread).trusts state.store) run
    (fun _ _ _ builds => Entry.announces_building production builds.1)
    (by
      refine ⟨.refl _, ⟨?_, ?_⟩, ?_⟩
      · intro id dep stored
        cases stored
      · intro id dep _ stored
        cases stored
      · intro _ _ _ none
        cases none)
    (by
      intro before action after grounded held builds stepped
      obtain ⟨reached, founded, trusts⟩ := held
      -- What was completed stays so, which is known of the run without its notes.
      have moved := noted_erase stepped
      have stays (dep : JobId) (completed : before.store.status dep = some .completed) :
          after.store.status dep = some .completed :=
        completed_stays production reached builds moved completed
      exact ⟨.tail reached builds moved,
        ⟨exist_step founded.exist builds.2 stepped,
          begun_step grounded trivial founded trusts stays stepped⟩,
        trusts_step grounded founded trusts stays stepped⟩)
  subst erased
  exact founded

/-- Where jobs are only created on jobs that exist and none is cancelled or retried by request, all
ancestors of a job that is active or completed are completed. -/
theorem ancestors_completed (production : proc.depChecker = some Engine.checker)
    (run : (taskfire proc).Run Builds (beginning proc) last) {ancestor : JobId}
    (begun : last.store.status id = some .active ∨ last.store.status id = some .completed)
    (path : TransGen (Stored last.store.jobs) id ancestor) :
    last.store.status ancestor = some .completed := by
  have founded := founded_reach production run
  induction path with
  | single stored => exact founded.begun _ _ begun stored
  | tail _ stored inductionHypothesis => exact founded.begun _ _ (.inr inductionHypothesis) stored

end

/-! ## An example -/

def CreateJobInput.dependent : CreateJobInput := { CreateJobInput.plain with dependencies := ["a"] }

/-- `Builds`, computed. -/
def builds (state : SystemState) (action : SystemAction) : Bool :=
  decide (Starting Entry.builds action) &&
    match called state action with
    | some (.insertJob params) => params.dependencies.all fun dep => (state.store.jobs dep).isSome
    | _ => true

theorem builds_of_checked {state : SystemState} {action : SystemAction}
    (checked : builds state action = true) : Builds state action := by
  obtain ⟨starting, exist⟩ := Bool.and_eq_true .. ▸ checked
  refine ⟨of_decide_eq_true starting, ?_⟩
  intro params call dep listed
  simp only [call, List.all_eq_true] at exist
  exact Option.isSome_iff_ne_none.mp (exist dep listed)

/-- A worker completes job "a" and then job "b", which depends on it. -/
theorem ancestors_completed_once : ∃ last : SystemState,
    last.store.status "b" = some .completed ∧ TransGen (Stored last.store.jobs) "b" "a" ∧
      last.store.status "a" = some .completed := by
  have reached : ∃ last, (taskfire .wired).Run Builds (beginning .wired) last ∧
      (decide (last.store.status "b" = some .completed) &&
        decide ("a" ∈ storedDeps last.store.jobs "b")) = true :=
    replay_reaches builds (fun _ _ checked => builds_of_checked checked)
      (.spawn 0 (.create .plain) :: calls 0 5 (.calm "a") ++
        .spawn 1 .work :: calls 1 16 (.calm "a") ++
        .spawn 0 (.create .dependent) :: calls 0 5 (.calm "b") ++
        .spawn 1 .work :: calls 1 12 (.calm "b")) _ (by decide +kernel)
  obtain ⟨last, run, checked⟩ := reached
  obtain ⟨completed, checked⟩ := Bool.and_eq_true .. ▸ checked
  have begun := of_decide_eq_true completed
  have listed : "a" ∈ storedDeps last.store.jobs "b" := of_decide_eq_true checked
  have path : TransGen (Stored last.store.jobs) "b" "a" := .single listed
  exact ⟨last, begun, path, ancestors_completed rfl run (.inr begun) path⟩

end Taskfire
