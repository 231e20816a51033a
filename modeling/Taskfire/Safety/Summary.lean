import Taskfire.Library.Loop
import Taskfire.Model.Summary
import Taskfire.Safety.Listing

/-!
# The aggregates agree

`getMetrics` computes in one query what `getStatusCounts` and `getAvgProcessingMs` compute in two.
-/

namespace Taskfire

open Taskfire.Library

variable {rows : List Row} {found found' : List StatusGroup}

/-- The number of rows with each status. -/
def statusCounts (rows : List Row) : StatusCounts where
  pending := rows.countP (·.status = .pending)
  active := rows.countP (·.status = .active)
  completed := rows.countP (·.status = .completed)
  failed := rows.countP (·.status = .failed)
  dead := rows.countP (·.status = .dead)

namespace StatusCounts

def total (counts : StatusCounts) : Nat :=
  counts.pending + counts.active + counts.completed + counts.failed + counts.dead

/-- The value of a key, if there is such a key. -/
def value (counts : StatusCounts) (key : String) : Option Nat :=
  match key with
  | "pending" => some counts.pending
  | "active" => some counts.active
  | "completed" => some counts.completed
  | "failed" => some counts.failed
  | "dead" => some counts.dead
  | _ => none

theorem value_ext {counts counts' : StatusCounts}
    (same : ∀ status : JobStatus, counts.value status.name = counts'.value status.name) :
    counts = counts' := by
  have pending := same .pending
  have active := same .active
  have completed := same .completed
  have failed := same .failed
  have dead := same .dead
  simp only [value, JobStatus.name, Option.some.injEq] at pending active completed failed dead
  cases counts
  cases counts'
  simp_all

theorem statusCounts_value (rows : List Row) (status : JobStatus) :
    (statusCounts rows).value status.name = some (rows.countP (·.status = status)) := by
  cases status <;> rfl

theorem assign_local :
    Local (fun (counts : StatusCounts) (group : StatusGroup) => counts.assign group.status group.count)
      (·.status) value fun group value => value.map fun _ => group.count where
  same counts group := by
    obtain ⟨status, count⟩ := group
    unfold assign value
    split <;> simp_all
  other counts group key other := by
    obtain ⟨status, count⟩ := group
    unfold assign
    split <;> (unfold value; split <;> simp_all)

end StatusCounts

/-! ## Groups -/

theorem statusGroups_distinct (rows : List Row) : ((statusGroups rows).map (·.status)).Nodup := by
  rw [statusGroups, List.map_map]
  exact (List.nodup_dedup _).map fun status other same => JobStatus.name_inj.mp same

theorem mem_statusGroups {status : JobStatus} (present : ∃ row ∈ rows, row.status = status) :
    ⟨status.name, rows.countP (·.status = status)⟩ ∈ statusGroups rows := by
  apply List.mem_map_of_mem (f := fun status => (⟨status.name, rows.countP (·.status = status)⟩ : StatusGroup))
  simpa using present

theorem statusGroups_absent {status : JobStatus} (absent : ¬ ∃ row ∈ rows, row.status = status) :
    ∀ group ∈ statusGroups rows, status.name ≠ group.status := by
  intro group listed same
  obtain ⟨other, present, rfl⟩ := List.mem_map.mp listed
  rw [JobStatus.name_inj.mp same] at absent
  exact absent (by simpa using present)

/-- A loop over the groups that sets the value of each gives every status its number of rows, if the
others start with zero. -/
theorem foldl_groups {S V : Type} {turn : S → StatusGroup → S} {view : S → String → V}
    {effect : StatusGroup → V → V} (isLocal : Local turn (·.status) view effect)
    (grouped : found.Perm (statusGroups rows)) (state : S) (status : JobStatus) {counted : Nat → V}
    (sets : ∀ count, effect ⟨status.name, count⟩ (view state status.name) = counted count)
    (zero : view state status.name = counted 0) :
    view (found.foldl turn state) status.name = counted (rows.countP (·.status = status)) := by
  by_cases present : ∃ row ∈ rows, row.status = status
  · have listed := grouped.mem_iff.mpr (mem_statusGroups present)
    have distinct := (grouped.map _).nodup_iff.mpr (statusGroups_distinct rows)
    exact (isLocal.foldl_same distinct listed state).trans (sets _)
  · have absent : ∀ group ∈ found, status.name ≠ group.status := fun group listed =>
      statusGroups_absent present group (grouped.mem_iff.mp listed)
    have none : rows.countP (·.status = status) = 0 := by
      rw [List.countP_eq_zero]
      intro row listed same
      exact present ⟨row, listed, by simpa using same⟩
    rw [isLocal.foldl_other absent, zero, none]

/-! ## The three queries -/

namespace Api

/-- The rows of the query, in whatever order they come, count the table. -/
theorem getStatusCounts_eq (grouped : found.Perm (statusGroups rows)) :
    getStatusCounts found = statusCounts rows := by
  have isLocal : Local
      (fun (map : String → Option Nat) (row : StatusGroup) =>
        Function.update map row.status (some row.count))
      (·.status) (fun map key => (map key).getD 0) fun row _ => row.count := by
    constructor
    · intro map row
      simp
    · intro map row key other
      simp [other]
  have read (status : JobStatus) :=
    foldl_groups isLocal grouped (fun _ => none) status (fun count => (rfl : _ = id count)) rfl
  simp only [getStatusCounts, statusCounts, StatusCounts.mk.injEq]
  exact ⟨read .pending, read .active, read .completed, read .failed, read .dead⟩

theorem foldl_assign (grouped : found.Perm (statusGroups rows)) :
    found.foldl (fun counts group => counts.assign group.status group.count) ⟨0, 0, 0, 0, 0⟩ =
      statusCounts rows := by
  apply StatusCounts.value_ext
  intro status
  rw [StatusCounts.statusCounts_value]
  apply foldl_groups StatusCounts.assign_local grouped
  · intro count
    cases status <;> rfl
  · cases status <;> rfl

theorem foldl_take (groups : List StatusGroup) (avg : Option Rat) (summary : MetricsSummary) :
    (crossJoin groups avg).foldl MetricsSummary.take summary =
      ⟨groups.foldl (fun counts group => counts.assign group.status group.count) summary.counts,
        if groups = [] then summary.avgProcessingMs else summary.avgProcessingMs.or avg⟩ := by
  induction groups generalizing summary with
  | nil => rfl
  | cons group groups inductionHypothesis =>
    simp only [crossJoin, List.map_cons, List.foldl_cons]
    refine (inductionHypothesis _).trans ?_
    simp only [MetricsSummary.take, reduceCtorEq, if_false, MetricsSummary.mk.injEq, true_and]
    split
    · rfl
    · cases summary.avgProcessingMs <;> cases avg <;> rfl

theorem total_statusCounts (rows : List Row) : (statusCounts rows).total = rows.length := by
  induction rows with
  | nil => rfl
  | cons row rows inductionHypothesis =>
    simp only [StatusCounts.total, statusCounts, List.countP_cons, List.length_cons] at inductionHypothesis ⊢
    cases row.status <;> simp <;> omega

/-- For every table, and whatever the orders in which the groups come: the one query of `getMetrics`
gives the counts of `getStatusCounts` and the average of `getAvgProcessingMs`.  The counts are
those of the table and add up to its rows. -/
theorem getMetrics_eq (grouped : found.Perm (statusGroups rows))
    (grouped' : found'.Perm (statusGroups rows)) :
    getMetrics (crossJoin found (avgMs rows)) = ⟨getStatusCounts found', avgMs rows⟩ ∧
      getStatusCounts found' = statusCounts rows ∧
      (getStatusCounts found').total = rows.length := by
  rw [getStatusCounts_eq grouped', total_statusCounts, getMetrics, foldl_take, foldl_assign grouped]
  refine ⟨?_, rfl, rfl⟩
  congr 1
  split
  · next empty =>
    rw [empty] at grouped
    have none : rows = [] := by
      simpa [statusGroups] using grouped.nil_eq.symm
    rw [none]
    rfl
  · exact Option.none_or ..

/-- A pending row, a cancelled one, and two that took 1 s and 2 s. -/
def fourRows : List Row :=
  let row := Row.created ⟨"a", "email", "\x7b\x7d", 100, 3, none, []⟩ 0 (by decide)
  let completed (completedAt : Time) : Row :=
    { row with status := .completed, startedAt := some 0, completedAt := some completedAt }
  [row, completed second, row.cancelled 5, completed (2 * second)]

theorem getMetrics_fourRows :
    (getMetrics (crossJoin [⟨"failed", 1⟩, ⟨"completed", 2⟩, ⟨"pending", 1⟩] (avgMs fourRows)) =
      ⟨getStatusCounts [⟨"pending", 1⟩, ⟨"completed", 2⟩, ⟨"failed", 1⟩], avgMs fourRows⟩ ∧
    getStatusCounts [⟨"pending", 1⟩, ⟨"completed", 2⟩, ⟨"failed", 1⟩] = statusCounts fourRows ∧
    (getStatusCounts [⟨"pending", 1⟩, ⟨"completed", 2⟩, ⟨"failed", 1⟩]).total = fourRows.length) ∧
    avgMs fourRows = some 1500 :=
  ⟨getMetrics_eq (by decide) (by decide), by decide +kernel⟩

end Api

end Taskfire
