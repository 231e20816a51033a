import Taskfire.Model.Api
import Taskfire.Model.DeadLetters

/-!
# The workers that the dashboard shows

The route `/workers` (`api/src/routes/metrics.ts`) with `getActiveJobs`
(`api/src/services/postgres.ts`) and `getProcessingJobs` (`api/src/services/redis.ts`).  In which order
the stores list rows and fields is left to them, so the reads take the keys in that order.
-/

namespace Taskfire

open Taskfire.Library

/-! ## The two reads -/

structure ActiveJobRow where
  id : JobId
  jobType : String
  /-- The column may be null. -/
  startedAt : Option Time
  deriving DecidableEq, Repr

structure ActiveJob where
  jobId : JobId
  jobType : String
  /-- Milliseconds, as a `Date` counts them. -/
  startedAt : Int
  runningForMs : Int
  deriving DecidableEq, Repr

/-- `toISOString` of null is a TypeError. -/
def ActiveJobRow.shown (now : Time) (row : ActiveJobRow) : Option ActiveJob :=
  row.startedAt.map fun startedAt =>
    ⟨row.id, row.jobType, startedAt.unixMilli, now.unixMilli - startedAt.unixMilli⟩

end Taskfire
