import Mathlib.Algebra.Order.Floor.Ring
import Mathlib.Data.Rat.Floor
import Taskfire.Model.Api

/-!
# The counts of the table

The aggregates `getStatusCounts`, `getAvgProcessingMs` and `getMetrics`
(`api/src/services/postgres.ts`).  The order of groups is left to Postgres, so the functions take the
rows of their query.
-/

namespace Taskfire

/-! ## Queries -/

/-- A row of `SELECT status, COUNT(*) AS count FROM jobs GROUP BY status`. -/
structure StatusGroup where
  status : String
  count : Nat
  deriving DecidableEq

def statusGroups (rows : List Row) : List StatusGroup :=
  (rows.map (·.status)).dedup.map fun status => ⟨status.name, rows.countP (·.status = status)⟩

/-- `EXTRACT(EPOCH FROM (completed_at - started_at)) * 1000` of a row the aggregate takes. -/
def Row.processingMs (row : Row) : Option Rat :=
  if row.status = .completed then do
    let startedAt ← row.startedAt
    let completedAt ← row.completedAt
    pure ((completedAt - startedAt : Int) / 1000000)
  else none

/-- `ROUND(value, 2)`: half a hundredth goes away from zero. -/
def roundHundredths (value : Rat) : Rat :=
  if 0 ≤ value then (⌊value * 100 + 1 / 2⌋ : Int) / 100 else -((⌊-value * 100 + 1 / 2⌋ : Int) / 100)

/-- `ROUND(AVG(...)::numeric, 2)`, which is NULL when there is nothing to aggregate. -/
def avgMs (rows : List Row) : Option Rat :=
  match rows.filterMap Row.processingMs with
  | [] => none
  | first :: others => some (roundHundredths ((first :: others).sum / (first :: others).length))

/-- The one query of `getMetrics`: the groups, each with the average. -/
def crossJoin (groups : List StatusGroup) (avg : Option Rat) : List (StatusGroup × Option Rat) :=
  groups.map fun group => (group, avg)

/-! ## Services -/

structure StatusCounts where
  pending : Nat
  active : Nat
  completed : Nat
  failed : Nat
  dead : Nat
  deriving DecidableEq, Repr

/-- An assignment to the key `status`, if there is such a key. -/
def StatusCounts.assign (counts : StatusCounts) (status : String) (count : Nat) : StatusCounts :=
  match status with
  | "pending" => { counts with pending := count }
  | "active" => { counts with active := count }
  | "completed" => { counts with completed := count }
  | "failed" => { counts with failed := count }
  | "dead" => { counts with dead := count }
  | _ => counts

structure MetricsSummary where
  counts : StatusCounts
  avgProcessingMs : Option Rat
  deriving DecidableEq

namespace Api

def getStatusCounts (rows : List StatusGroup) : StatusCounts :=
  let map : String → Option Nat :=
    rows.foldl (fun map row => Function.update map row.status (some row.count)) (fun _ => none)
  { pending := (map "pending").getD 0
    active := (map "active").getD 0
    completed := (map "completed").getD 0
    failed := (map "failed").getD 0
    dead := (map "dead").getD 0 }

/-- One row of the query: its count, and its average unless an earlier row had one. -/
def MetricsSummary.take (summary : MetricsSummary) (row : StatusGroup × Option Rat) : MetricsSummary where
  counts := summary.counts.assign row.1.status row.1.count
  avgProcessingMs := summary.avgProcessingMs.or row.2

def getMetrics (rows : List (StatusGroup × Option Rat)) : MetricsSummary :=
  rows.foldl MetricsSummary.take ⟨⟨0, 0, 0, 0, 0⟩, none⟩

end Api

end Taskfire
