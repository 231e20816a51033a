import Taskfire.Safety.Completion
import Taskfire.Snapshot.Grounds

/-!
# Timestamps follow the status

A worker overwrites all timestamps of a row with those of the record it carries, which may be older
than the row.  They still fit the status, because every record that waits has none, and the worker
sets those of its status before each update.
-/

namespace Taskfire

open Taskfire.Library

section

variable {terms : Terms} {proc : Processor} {id : JobId} {last : SystemState}

/-- Every statement writes a row with the timestamps of its status. -/
theorem RowStep.timed {note : Note} {c : Call} {before after : Option Row}
    (step : RowStep id c before after) (permitted : note.permits terms c)
    (timed : ∀ row ∈ before, row.Timed) : ∀ row ∈ after, row.Timed := by
  intro row found
  cases step with
  | stays => exact timed row found
  | inserts budget =>
    cases found
    exact .of_pending
  | @cancels old now cancellable =>
    cases found
    -- Only a completed row has a completion time, and such a row is not cancelled.
    have never : old.completedAt = none := by
      cases time : old.completedAt with
      | none => rfl
      | some time' =>
        have completed := (timed old rfl).completed.mp (by simp [time])
        simp [completed] at cancellable
    show Taskfire.Timed .failed old.startedAt old.completedAt (some now)
    rw [never]
    exact .of_failed old.startedAt now
  | requeues retriable =>
    cases found
    exact .of_pending
  | updates within =>
    cases found
    exact permitted.2.2.1

/-- Whatever fails and however many records of a job are on the way, the timestamps of every row are
those its status calls for. -/
theorem rows_timed
    (run : (taskfire proc).Run (fun _ action => Starting Entry.isRooted action) (beginning proc) last) :
    ∀ id, ∀ row ∈ last.store.jobs id, row.Timed := by
  have entries (thread : Nat) (entry : Entry)
      (starting : Starting Entry.isRooted (.spawn thread entry)) :
      Announces ⟨False, True⟩ .blank (entry.program proc) :=
    entry.announces starting False.elim fun _ _ _ => trivial
  obtain ⟨state, erased, _, timed⟩ := noted_invariant
    (fun state => ∀ id, ∀ row ∈ state.store.jobs id, row.Timed) run
    (fun _ thread entry starting => entries thread entry starting) (by intro _ _ none; cases none)
    (by
      intro before action after grounded timed _ stepped id
      obtain same | ⟨thread, env, c, next, _, program, step⟩ := noted_row stepped id
      · rw [same]
        exact timed id
      · exact step.timed (grounded.permits program) (timed id))
  subst erased
  exact timed

end

/-- A worker completes the job. -/
theorem rows_timed_once : ∃ (last : SystemState) (row : Row),
    last.store.jobs "j" = some row ∧ row.status = .completed ∧ row.Timed := by
  obtain ⟨last, run, completed⟩ := ordinary_reaches .wired Entry.isRooted (beginning .wired)
    createAndWork (fun last => decide (last.store.status "j" = some .completed)) (by decide +kernel)
  obtain ⟨row, found, status⟩ := Option.map_eq_some_iff.mp (of_decide_eq_true completed)
  exact ⟨last, row, found, status,
    rows_timed (run.mono fun _ _ ordinary => ordinary.starting) "j" row found⟩

end Taskfire
