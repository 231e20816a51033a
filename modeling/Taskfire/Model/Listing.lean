import Taskfire.Library.Pages
import Taskfire.Model.Api

/-!
# The list of jobs

`GET /api/jobs` (`api/src/routes/jobs.ts`), `listJobs` and `withTransaction`
(`api/src/services/postgres.ts`) against a table that other sessions write to.  A transaction that is
opened by a plain BEGIN runs at READ COMMITTED: each of its statements sees what is committed when it
starts.  The order of rows with one `created_at` is left to Postgres.
-/

namespace Taskfire

open Taskfire.Library

/-! ## The table and what other sessions commit -/

/-- The table `jobs` with its ids, each once. -/
structure Table where
  jobs : Jobs
  ids : List JobId
  distinct : ids.Nodup
  complete : ∀ id, id ∈ ids ↔ (jobs id).isSome = true

abbrev TableRow := JobId × Row

def TableRow.createdAt (entry : TableRow) : Time := entry.2.createdAt

namespace Table

def empty : Table where
  jobs := fun _ => none
  ids := []
  distinct := List.nodup_nil
  complete := by simp

def rows (table : Table) : List TableRow :=
  table.ids.filterMap fun id => (table.jobs id).map fun row => (id, row)

/-- A new row; an id that is taken fails the primary key. -/
def insert (table : Table) (id : JobId) (row : Row) : Table :=
  if known : id ∈ table.ids then table
  else {
    jobs := table.jobs.set id row
    ids := table.ids ++ [id]
    distinct := by
      rw [List.nodup_append_comm]
      exact List.nodup_cons.mpr ⟨known, table.distinct⟩
    complete := fun other => by
      by_cases same : other = id
      · simp [same]
      · simp [table.jobs.set_other row same, same, table.complete] }

/-- New values of a row; without the row nothing is updated. -/
def update (table : Table) (id : JobId) (row : Row) : Table :=
  if known : id ∈ table.ids then {
    table with
    jobs := table.jobs.set id row
    complete := fun other => by
      by_cases same : other = id
      · simp [same, known]
      · simp [table.jobs.set_other row same, table.complete] }
  else table

end Table

inductive Commit where
  | insert (id : JobId) (row : Row)
  | update (id : JobId) (row : Row)

def Commit.apply (table : Table) : Commit → Table
  | .insert id row => table.insert id row
  | .update id row => table.update id row

/-- The table after commits of other sessions. -/
def Table.after (table : Table) (commits : List Commit) : Table := commits.foldl Commit.apply table

/-! ## Statements -/

inductive Column where
  | status
  | priority
  | jobType
  deriving DecidableEq, Repr

/-- The value of a parameter. -/
inductive Param where
  | text (value : String)
  | number (value : Int)
  deriving DecidableEq, Repr

/-- The condition `column = $index`. -/
structure Condition where
  column : Column
  index : Nat
  deriving DecidableEq, Repr

inductive Statement where
  | connect
  | begin
  | commit
  | rollback
  /-- `SELECT COUNT(*) AS count FROM jobs WHERE ...`. -/
  | count (conditions : List Condition) (params : List Param)
  /-- `SELECT * FROM jobs WHERE ... ORDER BY created_at DESC LIMIT $limit OFFSET $offset`. -/
  | select (conditions : List Condition) (limit offset : Nat) (params : List Param)

/-- The rows of a `count` are its one column, read back as a number. -/
abbrev Statement.Reply : Statement → Type
  | .connect | .begin | .commit | .rollback => Except StoreError Unit
  | .count _ _ => Except StoreError (List Nat)
  | .select _ _ _ _ => Except StoreError (List TableRow)

abbrev Sql (α : Type) := Program Statement Statement.Reply α

def query (statement : Statement) : Sql statement.Reply := Program.perform statement

def Row.column (row : Row) : Column → Param
  | .status => .text row.status.name
  | .priority => .number row.priority
  | .jobType => .text row.jobType

/-- Parameters are numbered from one. -/
def param (params : List Param) (index : Nat) : Except StoreError Param :=
  match index with
  | 0 => .error ⟨"there is no parameter $0"⟩
  | place + 1 =>
    match params[place]? with
    | none => .error ⟨"could not determine data type of parameter"⟩
    | some value => .ok value

def Condition.test (params : List Param) (condition : Condition) : Except StoreError (Row → Bool) :=
  (param params condition.index).map fun value row => row.column condition.column = value

/-- The conjunction of the conditions. -/
def whereClause (params : List Param) : List Condition → Except StoreError (Row → Bool)
  | [] => .ok fun _ => true
  | condition :: conditions => do
    let first ← condition.test params
    let rest ← whereClause params conditions
    return fun row => first row && rest row

/-- The value of LIMIT or OFFSET. -/
def rowCount (params : List Param) (index : Nat) : Except StoreError Nat := do
  match ← param params index with
  | .text _ => .error ⟨"invalid input syntax for type bigint"⟩
  | .number value =>
    if value < 0 then .error ⟨"LIMIT and OFFSET must not be negative"⟩ else .ok value.toNat

/-! ## Postgres -/

/-- The orders in which Postgres delivers rows: `ORDER BY created_at DESC` and nothing else. -/
structure Plan where
  order : List TableRow → List TableRow
  arranged : ∀ rows, Arranged TableRow.createdAt rows (order rows)

/-- Rows of one instant keep the order of the table. -/
def Plan.stable : Plan := ⟨arrange TableRow.createdAt, arranged_arrange TableRow.createdAt⟩

/-- What happens at one statement: the commits of other sessions since the statement before, whether
the statement fails, and the plan of a query. -/
structure Moment where
  commits : List Commit
  failure : Option StoreError
  plan : Plan

/-- No other session writes and nothing fails. -/
def Moment.undisturbed (plan : Plan) : Moment := ⟨[], none, plan⟩

namespace Postgres

/-- A statement on the committed table. -/
def evaluate (plan : Plan) (table : Table) : (statement : Statement) → statement.Reply
  | .connect | .begin | .commit | .rollback => .ok ()
  | .count conditions params => do
    let selects ← whereClause params conditions
    return [(table.rows.filter fun entry => selects entry.2).length]
  | .select conditions limit offset params => do
    let selects ← whereClause params conditions
    let offset ← rowCount params offset
    let limit ← rowCount params limit
    return ((plan.order (table.rows.filter fun entry => selects entry.2)).drop offset).take limit

def fail (error : StoreError) : (statement : Statement) → statement.Reply
  | .connect | .begin | .commit | .rollback => .error error
  | .count _ _ => .error error
  | .select _ _ _ _ => .error error

def perform (moment : Moment) (table : Table) (statement : Statement) : statement.Reply × Table :=
  let table := table.after moment.commits
  match moment.failure with
  | some error => (fail error statement, table)
  | none => (evaluate moment.plan table statement, table)

end Postgres

/-! ## The service -/

namespace Api

/-- `withTransaction`: a failed ROLLBACK hides the error that asked for it. -/
def withTransaction {α : Type} (fn : Sql (Except StoreError α)) : Sql (Except StoreError α) := do
  let attempt : Sql (Except StoreError α) := do
    match ← query .begin with
    | .error error => pure (.error error)
    | .ok _ => do
      match ← fn with
      | .error error => pure (.error error)
      | .ok result => do
        match ← query .commit with
        | .error error => pure (.error error)
        | .ok _ => pure (.ok result)
  match ← query .connect with
  | .error error => pure (.error error)
  | .ok _ => do
    match ← attempt with
    | .ok result => pure (.ok result)
    | .error error => do
      match ← query .rollback with
      | .error failed => pure (.error failed)
      | .ok _ => pure (.error error)

/-- A query `ListJobsQuerySchema` accepts, after its defaults (page 1 of 50 rows). -/
structure ListJobsQuery where
  status : Option JobStatus
  priority : Option JobPriority
  jobType : Option String
  page : Nat
  limit : Nat
  pageMin : 1 ≤ page
  limitMin : 1 ≤ limit
  limitMax : limit ≤ 200

/-- The conditions and parameters gathered so far, and the number of the next parameter. -/
structure Filter where
  conditions : List Condition
  params : List Param
  idx : Nat

namespace Filter

def empty : Filter := ⟨[], [], 1⟩

/-- `conditions.push`, `params.push` and `idx++` for a parameter that is given. -/
def push (filter : Filter) (column : Column) : Option Param → Filter
  | none => filter
  | some value => {
      conditions := filter.conditions ++ [⟨column, filter.idx⟩]
      params := filter.params ++ [value]
      idx := filter.idx + 1 }

end Filter

def ListJobsQuery.filter (opts : ListJobsQuery) : Filter :=
  Filter.empty
    |>.push .status (opts.status.map fun status => .text status.name)
    |>.push .priority (opts.priority.map fun priority => .number priority.value)
    |>.push .jobType (opts.jobType.map .text)

structure ListJobsResult where
  rows : List TableRow
  total : Nat

/-- LIMIT and OFFSET are added after the parameters of the WHERE clause. -/
def Filter.paged (filter : Filter) (limit offset : Nat) : List Param :=
  filter.params ++ [.number limit, .number offset]

/-- The two statements of the transaction. -/
def countAndSelect (filter : Filter) (limit offset : Nat) : Sql (Except StoreError ListJobsResult) := do
  match ← query (.count filter.conditions filter.params) with
  | .error error => pure (.error error)
  | .ok counts => do
    match ← query (.select filter.conditions filter.idx (filter.idx + 1) (filter.paged limit offset)) with
    | .error error => pure (.error error)
    | .ok rows => pure (.ok ⟨rows, counts.head?.getD 0⟩)

def listJobs (opts : ListJobsQuery) : Sql (Except StoreError ListJobsResult) :=
  let offset := (opts.page - 1) * opts.limit
  withTransaction (countAndSelect opts.filter opts.limit offset)

structure JobListResponse where
  jobs : List TableRow
  total : Nat
  page : Nat
  limit : Nat
  pages : Nat

/-- `GET /`; an error becomes the server's 500 answer. -/
def getJobs (opts : ListJobsQuery) : Sql (Except StoreError JobListResponse) := do
  match ← listJobs opts with
  | .error error => pure (.error error)
  | .ok listed => pure (.ok {
      jobs := listed.rows
      total := listed.total
      page := opts.page
      limit := opts.limit
      pages := pageCount opts.limit listed.total })

end Api

end Taskfire
