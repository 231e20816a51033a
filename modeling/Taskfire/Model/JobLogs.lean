import Std.Data.String.ToInt
import Taskfire.Model.Metrics

/-!
# The log of a job

`getJobLogs` (`api/src/services/postgres.ts`), which makes up the events of a job's life from the
timestamps of its row.  It throws, and the result is `none`, where `toISOString` does.
-/

namespace Taskfire

structure JobLog where
  event : String
  timestamp : String
  detail : Option String
  deriving DecidableEq, Repr

namespace Api

/-- `toISOString` of the date the driver makes of a timestamp. -/
def dateText (time : Time) : Option String := toISOString time.unixMilli

def createdDetail (row : Row) : String :=
  "type=\"" ++ row.jobType ++ "\" priority=" ++ toString row.priority ++ " max_retries=" ++
    toString row.maxRetries

def attemptDetail (attempt maxAttempts : Int) : String :=
  "attempt=" ++ toString attempt ++ " max_attempts=" ++ toString maxAttempts

/-- The log of one event: an entry if its column is set. -/
def logOf (event : String) (column : Option Time) (entry : Time → Option (String × Option String)) :
    Option (List JobLog) :=
  match column with
  | none => some []
  | some time => (entry time).map fun (timestamp, detail) => [⟨event, timestamp, detail⟩]

def rowLogs (row : Row) : Option (List JobLog) := do
  let createdAt ← dateText row.createdAt
  let scheduled ← logOf "scheduled" row.scheduledAt fun scheduledAt => do
    let runsAt ← dateText scheduledAt
    pure (createdAt, some ("runs_at=" ++ runsAt))
  let started ← logOf "started" row.startedAt fun startedAt => do
    let timestamp ← dateText startedAt
    pure (timestamp, some (attemptDetail (row.retryCount + 1) (row.maxRetries + 1)))
  let completed ← logOf "completed" row.completedAt fun completedAt => do
    let timestamp ← dateText completedAt
    pure (timestamp, row.startedAt.map fun startedAt =>
      "processing_time_ms=" ++ toString (completedAt.unixMilli - startedAt.unixMilli))
  let failed ← logOf (if row.status = .dead then "dead" else "failed") row.failedAt
    fun failedAt => do
      let timestamp ← dateText failedAt
      pure (timestamp, row.error)
  pure (⟨"created", createdAt, some (createdDetail row)⟩ ::
    (scheduled ++ started ++ completed ++ failed))

/-- An unknown job has an empty log. -/
def getJobLogs (jobs : Jobs) (id : JobId) : Option (List JobLog) :=
  match jobs id with
  | none => some []
  | some row => rowLogs row

/-! ## The attempt that is reported -/

theorem attemptDetail_injective {attempt attempt' maxAttempts : Int}
    (same : attemptDetail attempt maxAttempts = attemptDetail attempt' maxAttempts) :
    attempt = attempt' := by
  have texts := congrArg String.toList same
  simp only [attemptDetail, String.toList_append, List.append_cancel_right_eq,
    List.append_cancel_left_eq] at texts
  exact Int.repr_injective (String.toList_inj.mp texts)

theorem mem_logOf {event : String} {column : Option Time}
    {entry : Time → Option (String × Option String)} {logs : List JobLog}
    (found : logOf event column entry = some logs) {log : JobLog} (listed : log ∈ logs) :
    log.event = event ∧ ∃ time, column = some time ∧ entry time = some (log.timestamp, log.detail) := by
  cases column with
  | none =>
    cases found
    cases listed
  | some time =>
    obtain ⟨⟨timestamp, detail⟩, known, same⟩ := Option.map_eq_some_iff.mp found
    subst same
    cases List.mem_singleton.mp listed
    exact ⟨rfl, time, rfl, known⟩

/-- Only a row with a start has an entry for it, and that reports one attempt more than the row
counts retries. -/
theorem started_of_mem {row : Row} {logs : List JobLog} (read : rowLogs row = some logs)
    {log : JobLog} (listed : log ∈ logs) (started : log.event = "started") :
    row.startedAt.isSome = true ∧
      log.detail = some (attemptDetail (row.retryCount + 1) (row.maxRetries + 1)) := by
  simp only [rowLogs, Option.bind_eq_bind, Option.bind_eq_some_iff, Option.pure_def,
    Option.some.injEq] at read
  obtain ⟨createdAt, _, waits, scheduled, begins, begun, ends, completed, fails, failed, same⟩ := read
  subst same
  simp only [List.mem_cons, List.mem_append] at listed
  obtain rfl | ((listed | listed) | listed) | listed := listed
  · have created : "created" = "started" := started
    exact absurd created (by decide)
  · obtain ⟨event, _⟩ := mem_logOf scheduled listed
    exact absurd (event.symm.trans started) (by decide)
  · obtain ⟨_, startedAt, found, known⟩ := mem_logOf begun listed
    simp only [Option.bind_eq_some_iff, Option.some.injEq, Prod.mk.injEq] at known
    obtain ⟨_, _, _, detail⟩ := known
    exact ⟨by rw [found]; rfl, detail.symm⟩
  · obtain ⟨event, _⟩ := mem_logOf completed listed
    exact absurd (event.symm.trans started) (by decide)
  · obtain ⟨event, _⟩ := mem_logOf failed listed
    have other : log.event = "dead" ∨ log.event = "failed" := by
      rw [event]
      split
      · exact .inl rfl
      · exact .inr rfl
    obtain dead | failed := other
    · exact absurd (dead.symm.trans started) (by decide)
    · exact absurd (failed.symm.trans started) (by decide)

end Api

end Taskfire
