import Taskfire.Model.Listing
import Taskfire.Safety.Throughput

/-!
# What the list of jobs shows

The pages of a table that does not change, put together, and the count and the rows of one request
while other sessions write.
-/

namespace Taskfire

open Taskfire.Library

/-! ## The rows a query asks for -/

namespace Api

/-- The row passes the filter. -/
def ListJobsQuery.selects (opts : ListJobsQuery) (row : Row) : Bool :=
  opts.status.all (fun status => row.status = status) &&
    opts.priority.all (fun priority => row.priority = priority.value) &&
    opts.jobType.all (fun jobType => row.jobType = jobType)

end Api

/-- The rows of the table that pass the filter. -/
def Table.matching (table : Table) (opts : Api.ListJobsQuery) : List TableRow :=
  table.rows.filter fun entry => opts.selects entry.2

theorem Table.rows_nodup (table : Table) : table.rows.Nodup := by
  apply table.distinct.filterMap
  intro id other entry found same
  rw [Option.mem_def, Option.map_eq_some_iff] at found same
  obtain ⟨_, _, rfl⟩ := found
  obtain ⟨_, _, pair⟩ := same
  exact (congrArg Prod.fst pair).symm

theorem Table.matching_nodup (table : Table) (opts : Api.ListJobsQuery) : (table.matching opts).Nodup :=
  table.rows_nodup.filter _

theorem JobStatus.name_inj {status other : JobStatus} : status.name = other.name ↔ status = other := by
  cases status <;> cases other <;> decide

namespace Api

namespace Filter

/-- The clause built so far selects the chosen rows, whatever parameters are added to it. -/
structure Selects (filter : Filter) (chosen : Row → Bool) : Prop where
  idx : filter.idx = filter.params.length + 1
  selects : ∀ more, whereClause (filter.params ++ more) filter.conditions = .ok chosen

theorem empty_selects : empty.Selects fun _ => true := ⟨rfl, fun _ => rfl⟩

end Filter

end Api

theorem whereClause_concat (params : List Param) (conditions : List Condition) (last : Condition)
    {first test : Row → Bool} (before : whereClause params conditions = .ok first)
    (tested : last.test params = .ok test) :
    whereClause params (conditions ++ [last]) = .ok fun row => first row && test row := by
  induction conditions generalizing first with
  | nil =>
    cases before
    simp [whereClause, tested, bind, Except.bind, pure, Except.pure]
  | cons condition conditions inductionHypothesis =>
    simp only [whereClause, bind, Except.bind, List.cons_append] at before ⊢
    cases head : condition.test params with
    | error error => simp [head] at before
    | ok current =>
      cases tail : whereClause params conditions with
      | error error => simp [head, tail] at before
      | ok rest =>
        simp only [head, tail, pure, Except.pure, Except.ok.injEq] at before
        subst before
        simp only [inductionHypothesis tail, pure, Except.pure, Bool.and_assoc]

theorem param_at_end (params more : List Param) (value : Param) :
    param (params ++ value :: more) (params.length + 1) = .ok value := by
  simp [param]

namespace Api

theorem Filter.Selects.push {filter : Filter} {chosen : Row → Bool} (selects : filter.Selects chosen)
    (column : Column) (value : Option Param) :
    (filter.push column value).Selects fun row =>
      chosen row && value.all fun value => row.column column = value := by
  cases value with
  | none => simpa [Filter.push] using selects
  | some value =>
    refine ⟨by simp [Filter.push, selects.idx], fun more => ?_⟩
    have tested : (Condition.mk column filter.idx).test (filter.params ++ value :: more) =
        .ok fun row => row.column column = value := by
      rw [Condition.test, selects.idx, param_at_end]
      rfl
    have clause := whereClause_concat _ _ _ (selects.selects (value :: more)) tested
    simpa [Filter.push] using clause

/-- The WHERE clause of a query selects the rows that pass its filter. -/
theorem ListJobsQuery.filter_selects (opts : ListJobsQuery) : opts.filter.Selects opts.selects := by
  have built := ((Filter.empty_selects.push .status (opts.status.map fun status => .text status.name)).push
    .priority (opts.priority.map fun priority => .number priority.value)).push .jobType
    (opts.jobType.map .text)
  refine ⟨built.idx, fun more => ?_⟩
  rw [ListJobsQuery.filter, built.selects more]
  congr 1
  funext row
  simp [ListJobsQuery.selects, Row.column, JobStatus.name_inj, Option.all_map]

/-! ## One request -/

variable (opts : ListJobsQuery) (table : Table) (plan : Plan)

theorem evaluate_count :
    Postgres.evaluate plan table (.count opts.filter.conditions opts.filter.params) =
      .ok [(table.matching opts).length] := by
  have clause := opts.filter_selects.selects []
  rw [List.append_nil] at clause
  simp only [Postgres.evaluate, clause, bind, Except.bind, pure, Except.pure]
  rfl

theorem evaluate_select (limit offset : Nat) :
    Postgres.evaluate plan table (.select opts.filter.conditions opts.filter.idx (opts.filter.idx + 1)
      (opts.filter.paged limit offset)) =
      .ok (((plan.order (table.matching opts)).drop offset).take limit) := by
  have clause : whereClause (opts.filter.paged limit offset) opts.filter.conditions = .ok opts.selects :=
    opts.filter_selects.selects _
  have limited : param (opts.filter.paged limit offset) opts.filter.idx = .ok (.number limit) := by
    rw [Filter.paged, opts.filter_selects.idx, param_at_end]
  have moved : param (opts.filter.paged limit offset) (opts.filter.idx + 1) =
      .ok (.number offset) := by
    have last := param_at_end (opts.filter.params ++ [.number limit]) [] (.number offset)
    rw [List.append_assoc, List.length_append] at last
    rw [opts.filter_selects.idx]
    exact last
  simp only [Postgres.evaluate, clause, rowCount, limited, moved, bind, Except.bind, pure, Except.pure]
  rfl

end Api

/-- The table that statement `number` of a transaction sees. -/
def snapshot (choices : Nat → Moment) (table : Table) : Nat → Table
  | 0 => table.after (choices 0).commits
  | number + 1 => (snapshot choices table number).after (choices (number + 1)).commits

namespace Api

section Transaction

variable {α : Type} {fn : Sql (Except StoreError α)} {choices : Nat → Moment} {table : Table} {result : α}

/-- A transaction returns what its function does, two statements later. -/
theorem withTransaction_returned
    (returned : ((withTransaction fn).play Postgres.perform choices table).value = .ok result) :
    (fn.play Postgres.perform (fun n => choices (n + 2)) (snapshot choices table 1)).value =
      .ok result := by
  simp only [withTransaction, query, Program.perform_bind, Program.play_call] at returned
  cases connected : (choices 0).failure with
  | some error => simp [Postgres.perform, connected, Postgres.fail] at returned
  | none =>
    cases begun : (choices 1).failure with
    | some error =>
      cases rolled : (choices 2).failure <;>
        simp [Postgres.perform, connected, begun, rolled, Postgres.evaluate, Postgres.fail] at returned
    | none =>
      simp only [Postgres.perform, connected, begun, Postgres.evaluate, Program.call_bind,
        Program.play_call, Nat.zero_add, Program.play_bind] at returned
      change (fn.play Postgres.perform (fun n => choices (n + 1 + 1))
        ((table.after (choices 0).commits).after (choices 1).commits)).value = .ok result
      generalize fn.play Postgres.perform (fun n => choices (n + 1 + 1))
        ((table.after (choices 0).commits).after (choices 1).commits) = ended at returned ⊢
      obtain ⟨value, store, later⟩ := ended
      cases value with
      | error error =>
        cases rolled : (later 0).failure <;>
          simp [Postgres.perform, rolled, Postgres.evaluate, Postgres.fail] at returned
      | ok value =>
        cases committed : (later 0).failure with
        | some error =>
          cases rolled : (later 1).failure <;>
            simp [Postgres.perform, committed, rolled, Postgres.evaluate, Postgres.fail] at returned
        | none => simpa [Postgres.perform, committed, Postgres.evaluate] using returned

/-- A transaction commits if its function returns and no statement around it fails. -/
theorem withTransaction_commits {last : Table} {later : Nat → Moment}
    (connected : (choices 0).failure = none) (begun : (choices 1).failure = none)
    (ended : fn.play Postgres.perform (fun n => choices (n + 2)) (snapshot choices table 1) =
      ⟨.ok result, last, later⟩)
    (committed : (later 0).failure = none) :
    ((withTransaction fn).play Postgres.perform choices table).value = .ok result := by
  change fn.play Postgres.perform (fun n => choices (n + 1 + 1))
    ((table.after (choices 0).commits).after (choices 1).commits) = _ at ended
  simp [withTransaction, query, Postgres.perform, connected, begun, committed, Postgres.evaluate,
    Program.play_bind, ended]

end Transaction

variable {opts : ListJobsQuery} {choices : Nat → Moment} {table : Table}

/-- What a request answers: the count of the third statement's table and a page of the fourth's. -/
def ListJobsQuery.result (opts : ListJobsQuery) (choices : Nat → Moment) (table : Table) :
    ListJobsResult where
  rows := Library.page opts.limit (opts.page - 1)
    ((choices 3).plan.order ((snapshot choices table 3).matching opts))
  total := ((snapshot choices table 2).matching opts).length

theorem countAndSelect_returned {limit offset : Nat} {listed : ListJobsResult}
    (returned : ((countAndSelect opts.filter limit offset).play Postgres.perform choices table).value =
      .ok listed) :
    listed = {
      rows := (((choices 1).plan.order ((snapshot choices table 1).matching opts)).drop offset).take limit
      total := ((snapshot choices table 0).matching opts).length } := by
  simp only [countAndSelect, query, Program.perform_bind, Program.play_call] at returned
  cases counted : (choices 0).failure with
  | some error => simp [Postgres.perform, counted, Postgres.fail] at returned
  | none =>
    cases selected : (choices 1).failure with
    | some error =>
      simp [Postgres.perform, counted, selected, evaluate_count, Postgres.fail] at returned
    | none =>
      simp [Postgres.perform, counted, selected, evaluate_count, evaluate_select] at returned
      exact returned.symm

theorem countAndSelect_answers (counted : (choices 0).failure = none)
    (selected : (choices 1).failure = none) (limit offset : Nat) :
    (countAndSelect opts.filter limit offset).play Postgres.perform choices table = ⟨
      .ok {
        rows := (((choices 1).plan.order ((snapshot choices table 1).matching opts)).drop offset).take limit
        total := ((snapshot choices table 0).matching opts).length },
      snapshot choices table 1, fun n => choices (n + 2)⟩ := by
  simp [countAndSelect, query, Postgres.perform, counted, selected, evaluate_count, evaluate_select,
    snapshot]

theorem listJobs_returned {listed : ListJobsResult}
    (returned : ((listJobs opts).play Postgres.perform choices table).value = .ok listed) :
    listed = opts.result choices table :=
  countAndSelect_returned (withTransaction_returned returned)

theorem listJobs_answers (quiet : ∀ number, (choices number).failure = none) :
    ((listJobs opts).play Postgres.perform choices table).value = .ok (opts.result choices table) :=
  withTransaction_commits (quiet 0) (quiet 1)
    (countAndSelect_answers (quiet 2) (quiet 3) opts.limit _) (quiet 4)

/-! ## The count and the rows of one request -/

/-- Pages of `limit` rows after `offset` are equally long with either number of rows. -/
def EquallyLong (offset limit counted selected : Nat) : Prop :=
  counted = selected ∨ counted ≤ offset ∧ selected ≤ offset ∨
    offset + limit ≤ counted ∧ offset + limit ≤ selected

theorem ListJobsQuery.result_rows_length (opts : ListJobsQuery) (choices : Nat → Moment)
    (table : Table) :
    (opts.result choices table).rows.length =
      min opts.limit (((snapshot choices table 3).matching opts).length - (opts.page - 1) * opts.limit) := by
  have counted := ((choices 3).plan.arranged ((snapshot choices table 3).matching opts)).perm.length_eq
  rw [ListJobsQuery.result, Library.page, List.length_take, List.length_drop, counted]

theorem listJobs_consistent_iff {listed : ListJobsResult}
    (returned : ((listJobs opts).play Postgres.perform choices table).value = .ok listed) :
    (listed.rows.length : Int) =
        max 0 (min (opts.limit : Int) (listed.total - ((opts.page : Int) - 1) * opts.limit)) ↔
      EquallyLong ((opts.page - 1) * opts.limit) opts.limit
        ((snapshot choices table 2).matching opts).length
        ((snapshot choices table 3).matching opts).length := by
  rw [listJobs_returned returned, ListJobsQuery.result_rows_length]
  have skipped : ((opts.page : Int) - 1) * opts.limit = ((opts.page - 1) * opts.limit : Nat) := by
    rw [Int.natCast_mul, Int.natCast_sub opts.pageMin]
    rfl
  rw [skipped]
  generalize (opts.page - 1) * opts.limit = offset
  have positive := opts.limitMin
  simp only [EquallyLong, ListJobsQuery.result]
  omega

/-- A query without a filter. -/
def ListJobsQuery.every (page limit : Nat) (pageMin : 1 ≤ page) (limitMin : 1 ≤ limit)
    (limitMax : limit ≤ 200) : ListJobsQuery :=
  ⟨none, none, none, page, limit, pageMin, limitMin, limitMax⟩

def plainRow : Row := Row.created ⟨"j", "email", "\x7b\x7d", 100, 3, none, []⟩ 0 (by decide)

/-- Another session inserts a row between the two statements. -/
def insertsBetween (number : Nat) : Moment :=
  if number = 3 then ⟨[.insert "j" plainRow], none, .stable⟩ else .undisturbed .stable

theorem insertsBetween_quiet (number : Nat) : (insertsBetween number).failure = none := by
  rw [insertsBetween]
  split <;> rfl

/-- The second of two rows, on pages of one; the insertion only makes a third page. -/
theorem listJobs_consistent_second : ∃ listed,
    ((listJobs (.every 2 1 (by decide) (by decide) (by decide))).play Postgres.perform insertsBetween
      (Table.empty.after [.insert "a" plainRow, .insert "b" plainRow])).value = .ok listed ∧
      listed.rows.map Prod.fst = ["b"] ∧ listed.total = 2 ∧
      (listed.rows.length : Int) = max 0 (min 1 (listed.total - (2 - 1) * 1)) := by
  have returned : ((listJobs (.every 2 1 (by decide) (by decide) (by decide))).play Postgres.perform
      insertsBetween (Table.empty.after [.insert "a" plainRow, .insert "b" plainRow])).value = .ok _ :=
    listJobs_answers insertsBetween_quiet
  have long := (listJobs_consistent_iff returned).mpr (by unfold EquallyLong; decide)
  exact ⟨_, returned, by decide, by decide, long⟩

/-- On the first page the row is shown, but not counted. -/
theorem listJobs_inconsistent : ∃ opts choices table listed,
    ((listJobs opts).play Postgres.perform choices table).value = .ok listed ∧
      (listed.rows.length : Int) ≠
        max 0 (min (opts.limit : Int) (listed.total - ((opts.page : Int) - 1) * opts.limit)) :=
  ⟨.every 1 50 (by decide) (by decide) (by decide), insertsBetween, .empty, _,
    listJobs_answers insertsBetween_quiet, by decide⟩

/-! ## The pages of a table that does not change -/

theorem getJobs_answers (quiet : ∀ number, (choices number).failure = none) :
    ((getJobs opts).play Postgres.perform choices table).value = .ok {
      jobs := (opts.result choices table).rows
      total := (opts.result choices table).total
      page := opts.page
      limit := opts.limit
      pages := pageCount opts.limit (opts.result choices table).total } := by
  simp [getJobs, Program.play_bind, listJobs_answers quiet]

end Api

theorem snapshot_undisturbed (plan : Plan) (table : Table) (number : Nat) :
    snapshot (fun _ => .undisturbed plan) table number = table := by
  induction number with
  | zero => rfl
  | succ number inductionHypothesis => rw [snapshot, inductionHypothesis]; rfl

/-- Rows of one instant keep the order of the table, but those on the two sides of a place are
exchanged. -/
def Plan.exchanging (place : Nat) : Plan where
  order rows := exchange TableRow.createdAt place (arrange TableRow.createdAt rows)
  arranged rows := (arranged_arrange TableRow.createdAt rows).exchange place

namespace Api

def ListJobsQuery.turnTo (opts : ListJobsQuery) (number : Nat) : ListJobsQuery :=
  { opts with page := number + 1, pageMin := Nat.le_add_left 1 number }

/-- What `GET /api/jobs` answers while nobody writes. -/
def request (opts : ListJobsQuery) (plan : Plan) (table : Table) : Except StoreError JobListResponse :=
  ((getJobs opts).play Postgres.perform (fun _ => .undisturbed plan) table).value

def jobsOf : Except StoreError JobListResponse → List TableRow
  | .ok response => response.jobs
  | .error _ => []

/-- The rows of all pages, as many as the first page announces; each request has a plan of its own. -/
def browse (opts : ListJobsQuery) (plans : Nat → Plan) (table : Table) : List TableRow :=
  match request (opts.turnTo 0) (plans 0) table with
  | .ok first => (List.range first.pages).flatMap fun number =>
      jobsOf (request (opts.turnTo number) (plans number) table)
  | .error _ => []

theorem request_turnTo (opts : ListJobsQuery) (plan : Plan) (table : Table) (number : Nat) :
    request (opts.turnTo number) plan table = .ok {
      jobs := Library.page opts.limit number (plan.order (table.matching opts))
      total := (table.matching opts).length
      page := number + 1
      limit := opts.limit
      pages := pageCount opts.limit (table.matching opts).length } := by
  rw [request, getJobs_answers fun _ => rfl]
  simp only [ListJobsQuery.result, snapshot_undisturbed]
  rfl

theorem browse_eq (opts : ListJobsQuery) (plans : Nat → Plan) (table : Table) :
    browse opts plans table = pages opts.limit (pageCount opts.limit (table.matching opts).length)
      fun number => (plans number).order (table.matching opts) := by
  simp only [browse, request_turnTo, jobsOf, pages]

theorem browse_complete_iff (opts : ListJobsQuery) (table : Table) :
    (∀ plans, (browse opts plans table).Nodup ∧
        ∀ entry, entry ∈ browse opts plans table ↔ entry ∈ table.rows ∧ opts.selects entry.2 = true) ↔
      Untied TableRow.createdAt opts.limit (table.matching opts) := by
  constructor
  · intro complete number tied
    let plans : Nat → Plan := fun current =>
      if current < number then .stable else .exchanging (number * opts.limit)
    have distinct := (complete plans).1
    rw [browse_eq] at distinct
    apply pages_repeat opts.limitMin (arranged_arrange TableRow.createdAt _) tied
    convert distinct using 2
    funext current
    simp only [plans]
    split <;> rfl
  · intro untied plans
    have whole : (browse opts plans table).Perm (table.matching opts) := by
      rw [browse_eq]
      exact pages_perm opts.limitMin untied fun number => (plans number).arranged _
    refine ⟨whole.nodup_iff.mpr (table.matching_nodup opts), fun entry => ?_⟩
    rw [whole.mem_iff, Table.matching, List.mem_filter]

/-- Two rows of one instant on pages of one row: the second is on no page. -/
theorem browse_incomplete : ∃ opts plans table,
    ¬ ((browse opts plans table).Nodup ∧
      ∀ entry, entry ∈ browse opts plans table ↔ entry ∈ table.rows ∧ opts.selects entry.2 = true) := by
  let opts : ListJobsQuery := .every 1 1 (by decide) (by decide) (by decide)
  let plans : Nat → Plan := fun number => if number = 0 then .stable else .exchanging 1
  let table := Table.empty.after [.insert "a" plainRow, .insert "b" plainRow]
  refine ⟨opts, plans, table, fun complete => ?_⟩
  have shown : (browse opts plans table).map Prod.fst = ["a", "a"] := by decide
  have stored : ("b", plainRow) ∈ table.rows := List.mem_cons_of_mem _ (List.mem_singleton.mpr rfl)
  have listed : "b" ∈ (browse opts plans table).map Prod.fst :=
    List.mem_map_of_mem ((complete.2 ("b", plainRow)).mpr ⟨stored, rfl⟩)
  rw [shown] at listed
  revert listed
  decide

end Api

/-! ## The tables of the system -/

/-- The table of every reachable state is one of those that the requests list. -/
theorem reached_table {proc : Processor} {last : SystemState} {keeps : SystemState → SystemAction → Prop}
    (run : (taskfire proc).Run keeps (beginning proc) last) :
    ∃ table : Table, table.jobs = last.store.jobs := by
  obtain ⟨ids, listed⟩ := tables_listed run
  exact ⟨⟨last.store.jobs, ids, listed.distinct, listed.complete⟩, rfl⟩

/-- What a call of the API or the worker does to the table is a commit. -/
theorem perform_commits (env : Env) {stores : Stores} (c : Call) {table : Table}
    (same : table.jobs = stores.jobs) :
    ∃ commits, (table.after commits).jobs = (perform env stores c).2.jobs := by
  obtain kept | ⟨id, row, written, _⟩ := perform_tables env stores c
  · exact ⟨[], by rw [kept, ← same]; rfl⟩
  · rw [written, ← same]
    by_cases known : id ∈ table.ids
    · exact ⟨[.update id row], by simp [Table.after, Commit.apply, Table.update, known]⟩
    · exact ⟨[.insert id row], by simp [Table.after, Commit.apply, Table.insert, known]⟩

end Taskfire
