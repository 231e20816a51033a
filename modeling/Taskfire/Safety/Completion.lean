import Taskfire.Safety.Runs

/-!
# Completed jobs

A job that is completed should stay so and never run again.  `requeueJob` and `cancelJob` guard the
row only, and a retry of a cancelled job adds a record while an older one may still be claimed or
delayed; the two then run one after the other.  Where every retry finds no other record, a completed
job has none left.
-/

namespace Taskfire

open Taskfire.Library

/-- A retry that takes effect finds no record of the job. -/
def RetriesAlone (id : JobId) (state : SystemState) (action : SystemAction) : Prop :=
  Starting Entry.isRooted action ∧
    ∀ thread, Does id state action thread .requeues → noRecord id state

section

variable {proc : Processor} {id : JobId} {first middle last : SystemState}

theorem unique_reach (run : (taskfire proc).Run (RetriesAlone id) (beginning proc) last) :
    Conforming (.lax proc) last ∧ (life id last).Unique := by
  obtain ⟨conforming, reach⟩ := lax_reach Life.RetriesAlone run
    (conforming_initial _ proc _) (fun _ _ runs => runs.1)
    (by
      intro state action label runs shows thread requeues
      subst requeues
      exact tokenless_iff.mpr (runs.2 thread shows))
    (fun _ _ _ requeues => nomatch requeues)
  refine ⟨conforming, reach.invariant Life.Unique (beginning_unique proc id) ?_⟩
  intro before label after unique kept step
  exact Life.unique_step trivial unique kept step

/-- If every retry up to then found no record of the job, a completed job is at rest. -/
theorem rests_of_completed
    (run : (taskfire proc).Run (RetriesAlone id) (beginning proc) middle)
    (completed : middle.store.status id = some .completed) :
    Conforming (.lax proc) middle ∧
      (life id middle).Rests .completed (middle.store.ledger.started id) := by
  obtain ⟨conforming, unique⟩ := unique_reach run
  exact ⟨conforming, completed, rfl, unique.barren (.inr completed)⟩

/-- If every retry up to then found no record of the job, a completed job stays completed, and its
handler is not started again. -/
theorem completed_for_good
    (run : (taskfire proc).Run (RetriesAlone id) (beginning proc) middle)
    (later : (taskfire proc).Run (fun _ action => Starting Entry.isRooted action) middle last)
    (completed : middle.store.status id = some .completed) :
    last.store.status id = some .completed ∧
      last.store.ledger.started id = middle.store.ledger.started id := by
  obtain ⟨conforming, rests⟩ := rests_of_completed run completed
  have still := rests_reach later conforming (fun _ _ starting => starting) rests (.inr rfl) nofun
  exact ⟨still.status, still.started⟩

end

/-! ## Examples -/

/-- `RetriesAlone`, computed for a step of threads 0 and 1. -/
def retriesAlone (state : SystemState) (action : SystemAction) : Bool :=
  decide (Starting Entry.isRooted action) && Below 2 action &&
    match eventOf "j" state action with
    | some (_, .requeues) => noRecordBelow 2 "j" state
    | _ => true

theorem retriesAlone_sound {proc : Processor} {state : SystemState} {action : SystemAction}
    (idle : ∀ thread, 2 ≤ thread → state.threads thread = (taskfire proc).idle)
    (checked : retriesAlone state action = true) : RetriesAlone "j" state action := by
  obtain ⟨before, event⟩ := Bool.and_eq_true .. ▸ checked
  obtain ⟨starting, _⟩ := Bool.and_eq_true .. ▸ before
  refine ⟨of_decide_eq_true starting, fun thread does => ?_⟩
  simp only [eventOf_of_does does] at event
  exact noRecord_of_below idle event

/-- The job is cancelled, retried once its record is gone, and completed; a later DELETE, a later retry
and a later worker find nothing to do. -/
theorem completed_for_good_once : ∃ middle last : SystemState,
    middle.store.status "j" = some .completed ∧ last.store.status "j" = some .completed ∧
      last.store.ledger.started "j" = middle.store.ledger.started "j" := by
  obtain ⟨middle, run, checked⟩ : ∃ middle, (taskfire .wired).Run
      (fun state action => retriesAlone state action = true) (beginning .wired) middle ∧ _ = true :=
    replay_reaches retriesAlone (fun _ _ checked => checked)
      (.spawn 0 (.create .plain) :: calls 0 5 (.calm "j") ++
        .spawn 0 (.delete "j") :: calls 0 5 (.calm "j") ++
        .spawn 0 (.retry "j" true) :: calls 0 4 (.calm "j") ++
        .spawn 1 .work :: calls 1 16 (.calm "j"))
      (fun middle => decide (middle.store.status "j" = some .completed) &&
        (replay (taskfire .wired).step (fun _ action => decide (Starting Entry.isRooted action)) middle
          (.spawn 0 (.delete "j") :: calls 0 1 (.calm "j") ++
            .spawn 1 (.retry "j" true) :: calls 1 1 (.calm "j") ++
            .spawn 0 .work :: calls 0 1 (.calm "j"))).any fun _ => true) (by decide +kernel)
  obtain ⟨completed, rest⟩ := Bool.and_eq_true .. ▸ checked
  obtain ⟨last, later, _⟩ : ∃ last, (taskfire .wired).Run
      (fun _ action => Starting Entry.isRooted action) middle last ∧ true = true :=
    replay_reaches _ (fun _ _ checked => of_decide_eq_true checked) _ _ rest
  have below (state : SystemState) (action : SystemAction)
      (checked : retriesAlone state action = true) : Below 2 action = true :=
    (Bool.and_eq_true .. ▸ (Bool.and_eq_true .. ▸ checked).1).2
  have alone := run.mono_reached fun state action reached checked =>
    retriesAlone_sound (idle_beyond reached below) checked
  have done := of_decide_eq_true completed
  exact ⟨middle, last, done, completed_for_good alone later done⟩

/-- A worker has claimed the job when it is cancelled and retried: the job completes, and a worker
starts it again from the second record. -/
theorem completed_runs_again : ∃ (proc : Processor) (middle last : SystemState),
    (taskfire proc).Run (fun _ action => Ordinary Entry.isRooted action) (beginning proc) middle ∧
    (taskfire proc).Run (fun _ action => Ordinary Entry.isRooted action) middle last ∧
    middle.store.status "j" = some .completed ∧
    last.store.status "j" ≠ some .completed ∧
    middle.store.ledger.started "j" < last.store.ledger.started "j" := by
  have reached := ordinary_reaches .wired Entry.isRooted (beginning .wired)
    (.spawn 0 (.create .plain) :: calls 0 5 (.calm "j") ++
      .spawn 1 .work :: calls 1 2 (.calm "j") ++
      .spawn 0 (.delete "j") :: calls 0 4 (.calm "j") ++
      .spawn 0 (.retry "j" true) :: calls 0 4 (.calm "j") ++ calls 1 14 (.calm "j"))
    (fun middle => decide (middle.store.status "j" = some .completed) &&
      (replay (taskfire .wired).step (fun _ action => decide (Ordinary Entry.isRooted action)) middle
        (.spawn 1 .work :: calls 1 7 (.calm "j"))).any fun last =>
          decide (last.store.status "j" ≠ some .completed ∧
            middle.store.ledger.started "j" < last.store.ledger.started "j"))
    (by decide +kernel)
  obtain ⟨middle, run, checked⟩ := reached
  obtain ⟨completed, later⟩ := Bool.and_eq_true .. ▸ checked
  obtain ⟨last, rerun, again⟩ := ordinary_reaches _ _ _ _ _ later
  obtain ⟨reopened, more⟩ := of_decide_eq_true again
  exact ⟨.wired, middle, last, run, rerun, of_decide_eq_true completed, reopened, more⟩

end Taskfire
