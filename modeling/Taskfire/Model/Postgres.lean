import Taskfire.Model.Job
import Mathlib.Logic.Function.Basic
import Mathlib.Data.List.Dedup

/-!
# The jobs table

The rows of `postgres/init.sql` with their CHECK constraints, and one function for each statement
that the API (`api/src/services/postgres.ts`) and the worker (`worker/processor/job_processor.go`,
`worker/dag/dependency.go`) send.
-/

namespace Taskfire

structure Row where
  jobType : String
  payload : String
  priority : Priority
  status : JobStatus
  retryCount : Int
  maxRetries : Int
  error : Option String
  dependencies : List JobId
  createdAt : Time
  scheduledAt : Option Time
  startedAt : Option Time
  completedAt : Option Time
  failedAt : Option Time
  retryCountNonNegative : 0 ≤ retryCount
  maxRetriesNonNegative : 0 ≤ maxRetries
  retryCountLteMax : retryCount ≤ maxRetries
  maxRetriesInteger : maxRetries ≤ 2147483647

def Row.brief (row : Row) : Brief := ⟨row.jobType, row.retryCount⟩

/-- The table `jobs`, by its primary key. -/
abbrev Jobs := JobId → Option Row

/-- An error of a store, with its text. -/
structure StoreError where
  text : String
  deriving DecidableEq, Repr

structure CreateJobParams where
  id : JobId
  jobType : String
  payload : String
  priority : Priority
  maxRetries : Int
  scheduledAt : Option Time
  dependencies : List JobId
  deriving DecidableEq

/-! ## The rows the statements write -/

namespace Row

def created (params : CreateJobParams) (now : Time)
    (budget : 0 ≤ params.maxRetries ∧ params.maxRetries ≤ 2147483647) : Row where
  jobType := params.jobType
  payload := params.payload
  priority := params.priority
  status := .pending
  retryCount := 0
  maxRetries := params.maxRetries
  error := none
  dependencies := params.dependencies
  createdAt := now
  scheduledAt := params.scheduledAt
  startedAt := none
  completedAt := none
  failedAt := none
  retryCountNonNegative := Int.le_refl 0
  maxRetriesNonNegative := budget.1
  retryCountLteMax := budget.1
  maxRetriesInteger := budget.2

def cancelled (row : Row) (now : Time) : Row :=
  { row with status := .failed, error := some "cancelled by user", failedAt := some now }

def resetCount (row : Row) (resetRetries : Bool) : Int := if resetRetries then 0 else row.retryCount

theorem resetCount_bounds (row : Row) (resetRetries : Bool) :
    0 ≤ row.resetCount resetRetries ∧ row.resetCount resetRetries ≤ row.maxRetries := by
  cases resetRetries with
  | true => exact ⟨Int.le_refl 0, row.maxRetriesNonNegative⟩
  | false => exact ⟨row.retryCountNonNegative, row.retryCountLteMax⟩

def requeued (row : Row) (resetRetries : Bool) : Row :=
  { row with
    status := .pending
    retryCount := row.resetCount resetRetries
    error := none
    failedAt := none
    startedAt := none
    completedAt := none
    retryCountNonNegative := (row.resetCount_bounds resetRetries).1
    retryCountLteMax := (row.resetCount_bounds resetRetries).2 }

/-- `nullableString`: the empty string is written as NULL. -/
def nullableString (text : String) : Option String := if text = "" then none else some text

def updated (row : Row) (job : Job) (within : 0 ≤ job.retryCount ∧ job.retryCount ≤ row.maxRetries) :
    Row :=
  { row with
    status := job.status
    retryCount := job.retryCount
    startedAt := job.startedAt
    completedAt := job.completedAt
    failedAt := job.failedAt
    error := nullableString job.errorMessage
    retryCountNonNegative := within.1
    retryCountLteMax := within.2 }

end Row

namespace Jobs

def set (jobs : Jobs) (id : JobId) (row : Row) : Jobs := Function.update jobs id (some row)

@[simp] theorem set_same (jobs : Jobs) (id : JobId) (row : Row) : jobs.set id row id = some row := by
  simp [set]

theorem set_other (jobs : Jobs) {id other : JobId} (row : Row) (different : other ≠ id) :
    jobs.set id row other = jobs other := by
  simp [set, different]

/-! ## The statements -/

/-- `INSERT INTO jobs ... RETURNING *`: fails on a `max_retries` that is negative or no INTEGER, and on
a used id. -/
def insertJob (jobs : Jobs) (params : CreateJobParams) (now : Time) :
    Except StoreError Row × Jobs :=
  if budget : 0 ≤ params.maxRetries ∧ params.maxRetries ≤ 2147483647 then
    match jobs params.id with
    | some _ => (.error ⟨"duplicate key value violates unique constraint"⟩, jobs)
    | none =>
      let row := Row.created params now budget
      (.ok row, jobs.set params.id row)
  else if params.maxRetries < 0 then
    (.error ⟨"violates check constraint max_retries_non_negative"⟩, jobs)
  else (.error ⟨"integer out of range"⟩, jobs)

/-- `UPDATE jobs SET status = 'failed' ... WHERE id = $1 AND status IN ('pending', 'failed', 'dead')`. -/
def cancelJob (jobs : Jobs) (id : JobId) (now : Time) : Option Row × Jobs :=
  match jobs id with
  | none => (none, jobs)
  | some row =>
    if row.status ∈ [.pending, .failed, .dead] then
      (some (row.cancelled now), jobs.set id (row.cancelled now))
    else (none, jobs)

/-- `UPDATE jobs SET status = 'pending', ... WHERE id = $1 AND status IN ('failed', 'dead')`. -/
def requeueJob (jobs : Jobs) (id : JobId) (resetRetries : Bool) : Option Row × Jobs :=
  match jobs id with
  | none => (none, jobs)
  | some row =>
    if row.status ∈ [.failed, .dead] then
      (some (row.requeued resetRetries), jobs.set id (row.requeued resetRetries))
    else (none, jobs)

/-- The worker's `UpdateJobStatus`.  An unknown id updates no row and is no error; a retry count
outside the constraints is one. -/
def updateJobStatus (jobs : Jobs) (job : Job) : Except StoreError Unit × Jobs :=
  match jobs job.id with
  | none => (.ok (), jobs)
  | some row =>
    if within : 0 ≤ job.retryCount ∧ job.retryCount ≤ row.maxRetries then
      (.ok (), jobs.set job.id (row.updated job within))
    else (.error ⟨"violates check constraint retry_count_lte_max"⟩, jobs)

/-- `SELECT id, status FROM jobs WHERE id = ANY($1)`: one entry for each id that has a row. -/
def depStatuses (jobs : Jobs) (ids : List JobId) : List (JobId × JobStatus) :=
  ids.dedup.filterMap fun id => (jobs id).map fun row => (id, row.status)

/-! ## What each statement can do -/

variable {jobs : Jobs}

theorem insertJob_cases (jobs : Jobs) (params : CreateJobParams) (now : Time) :
    (∃ error, jobs.insertJob params now = (.error error, jobs)) ∨
      ∃ row, jobs params.id = none ∧
        jobs.insertJob params now = (.ok row, jobs.set params.id row) ∧
        row.status = .pending ∧ row.retryCount = 0 ∧ row.maxRetries = params.maxRetries ∧
        row.jobType = params.jobType := by
  by_cases budget : 0 ≤ params.maxRetries ∧ params.maxRetries ≤ 2147483647
  · cases found : jobs params.id with
    | some row => exact .inl ⟨_, by simp only [insertJob, dif_pos budget, found]; rfl⟩
    | none =>
      refine .inr ⟨Row.created params now budget, rfl, ?_, rfl, rfl, rfl, rfl⟩
      simp only [insertJob, dif_pos budget, found]
  · left
    simp only [insertJob, dif_neg budget]
    split
    · exact ⟨_, rfl⟩
    · exact ⟨_, rfl⟩

/-- The row `new` is `old` with another status and retry count. -/
structure Rewrites (old new : Row) (status : JobStatus) (retryCount : Int) : Prop where
  status : new.status = status
  retryCount : new.retryCount = retryCount
  maxRetries : new.maxRetries = old.maxRetries
  jobType : new.jobType = old.jobType

theorem cancelJob_cases (jobs : Jobs) (id : JobId) (now : Time) :
    jobs.cancelJob id now = (none, jobs) ∨
      ∃ old new, jobs id = some old ∧ old.status ≠ .active ∧ old.status ≠ .completed ∧
        jobs.cancelJob id now = (some new, jobs.set id new) ∧
        Rewrites old new .failed old.retryCount := by
  cases found : jobs id with
  | none => exact .inl (by simp only [cancelJob, found])
  | some row =>
    by_cases cancellable : row.status ∈ [.pending, .failed, .dead]
    · have updates : jobs.cancelJob id now = (some (row.cancelled now), jobs.set id (row.cancelled now)) := by
        simp only [cancelJob, found, if_pos cancellable]
      refine .inr ⟨row, row.cancelled now, rfl, ?_, ?_, updates, ⟨rfl, rfl, rfl, rfl⟩⟩
      · intro active
        simp [active] at cancellable
      · intro completed
        simp [completed] at cancellable
    · exact .inl (by simp only [cancelJob, found, if_neg cancellable])

theorem requeueJob_cases (jobs : Jobs) (id : JobId) (resetRetries : Bool) :
    jobs.requeueJob id resetRetries = (none, jobs) ∨
      ∃ old new, jobs id = some old ∧ (old.status = .failed ∨ old.status = .dead) ∧
        jobs.requeueJob id resetRetries = (some new, jobs.set id new) ∧
        Rewrites old new .pending new.retryCount := by
  cases found : jobs id with
  | none => exact .inl (by simp only [requeueJob, found])
  | some row =>
    by_cases retriable : row.status ∈ [.failed, .dead]
    · refine .inr ⟨row, row.requeued resetRetries, rfl, by simpa using retriable, ?_, ⟨rfl, rfl, rfl, rfl⟩⟩
      simp only [requeueJob, found, if_pos retriable]
    · exact .inl (by simp only [requeueJob, found, if_neg retriable])

theorem updateJobStatus_cases (jobs : Jobs) (job : Job) :
    (jobs job.id = none ∧ jobs.updateJobStatus job = (.ok (), jobs)) ∨
      (∃ old error, jobs job.id = some old ∧
        ¬ (0 ≤ job.retryCount ∧ job.retryCount ≤ old.maxRetries) ∧
        jobs.updateJobStatus job = (.error error, jobs)) ∨
      ∃ old new, jobs job.id = some old ∧ 0 ≤ job.retryCount ∧
        job.retryCount ≤ old.maxRetries ∧
        jobs.updateJobStatus job = (.ok (), jobs.set job.id new) ∧
        Rewrites old new job.status job.retryCount := by
  cases found : jobs job.id with
  | none => exact .inl ⟨rfl, by simp only [updateJobStatus, found]⟩
  | some row =>
    by_cases within : 0 ≤ job.retryCount ∧ job.retryCount ≤ row.maxRetries
    · refine .inr (.inr ⟨row, row.updated job within, rfl, within.1, within.2, ?_, ⟨rfl, rfl, rfl, rfl⟩⟩)
      simp only [updateJobStatus, found, dif_pos within]
    · exact .inr (.inl ⟨row, _, rfl, within,
        by simp only [updateJobStatus, found, dif_neg within]; rfl⟩)

end Jobs

end Taskfire
