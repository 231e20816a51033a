import Taskfire.Model.Metrics
import Taskfire.Safety.Timestamps

/-!
# The points of the throughput chart

The query selects and groups the rows by their completion times.  A completed job has one, so its
minute is right.  A failed or dead job has none, so no minute counts it.
-/

namespace Taskfire

open Taskfire.Library

/-! ## What a point stands for -/

/-- The last 60 minutes, the current one included. -/
def lastHour (now : Time) : List Int :=
  (List.range 60).reverse.map fun (i : Nat) => now.minuteOf - i

theorem mem_lastHour {now : Time} {minute : Int} :
    minute ∈ lastHour now ↔ now.minuteOf - 60 < minute ∧ minute ≤ now.minuteOf := by
  simp only [lastHour, List.mem_map, List.mem_reverse, List.mem_range]
  constructor
  · rintro ⟨i, inside, rfl⟩
    omega
  · intro inside
    exact ⟨(now.minuteOf - minute).toNat, by omega, by omega⟩

namespace Row

/-- A completed job, with its completion time in the minute. -/
def completedIn (minute : Int) (row : Row) : Bool :=
  row.status = .completed ∧ row.completedAt.any fun time => time.minuteOf = minute

/-- A failed or dead job, with its failure time in the minute. -/
def failedIn (minute : Int) (row : Row) : Bool :=
  row.status ∈ [.failed, .dead] ∧ row.failedAt.any fun time => time.minuteOf = minute

end Row

namespace Api

/-- The point of a minute as the endpoint documents it. -/
structure ThroughputRow.Right (rows : List Row) (minute : Int) (point : ThroughputRow) : Prop where
  time : minuteText minute = some point.time
  completed : point.completed = rows.countP (Row.completedIn minute)
  failed : point.failed = rows.countP (Row.failedIn minute)

/-! ## The rows of the query, by their texts -/

theorem mapM_pairs {α β : Type} {f : α → Option β} {items : List α} {values : List β}
    (mapped : items.mapM f = some values) :
    List.Forall₂ (fun item value => f item = some value) items values := by
  induction items generalizing values with
  | nil => cases mapped; exact .nil
  | cons item items inductionHypothesis =>
    simp only [List.mapM_cons, bind, Option.bind_eq_some_iff, pure, Option.some.injEq] at mapped
    obtain ⟨value, first, rest, later, rfl⟩ := mapped
    exact .cons first (inductionHypothesis later)

/-- Where all entries of a key have one value, the map has it. -/
theorem newMap_same {α : Type} {entries : List (String × α)} {key : String} {value : α}
    (same : ∀ other, (key, other) ∈ entries → other = value) (present : ∃ other, (key, other) ∈ entries) :
    newMap entries key = some value := by
  obtain ⟨other, listed⟩ := present
  have some : (entries.reverse.lookup key).isSome = true := by
    simp only [List.lookup_isSome_iff, List.mem_reverse]
    exact ⟨_, listed, beq_self_eq_true key⟩
  obtain ⟨found, looked⟩ := Option.isSome_iff_exists.mp some
  obtain ⟨before, after, shape, -⟩ := List.lookup_eq_some_iff.mp looked
  have inside : (key, found) ∈ entries := by
    rw [← List.mem_reverse, shape]
    simp
  rw [newMap, looked, same found inside]

theorem newMap_absent {α : Type} {entries : List (String × α)} {key : String}
    (absent : ∀ other, (key, other) ∉ entries) : newMap entries key = none := by
  simp only [newMap, List.lookup_eq_none_iff, List.mem_reverse]
  intro entry listed
  by_contra equal
  have same : key = entry.1 := by simpa using equal
  subst same
  exact absent _ listed

theorem mem_of_pairs {α β : Type} {f : α → Option β} {items : List α} {values : List β}
    (pairs : List.Forall₂ (fun item value => f item = some value) items values) (value : β) :
    value ∈ values ↔ ∃ item ∈ items, f item = some value := by
  induction pairs with
  | nil => simp
  | @cons item first items values mapped _ inductionHypothesis =>
    rw [List.mem_cons, inductionHypothesis]
    constructor
    · rintro (rfl | ⟨other, listed, found⟩)
      · exact ⟨item, List.mem_cons_self, mapped⟩
      · exact ⟨other, List.mem_cons_of_mem _ listed, found⟩
    · rintro ⟨other, listed, found⟩
      obtain rfl | later := List.mem_cons.mp listed
      · exact .inl (Option.some.inj (found.symm.trans mapped))
      · exact .inr ⟨other, later, found⟩

section

variable {rows : List Row} {queried : Time} {found : List ThroughputRow}

theorem mem_getThroughput (answered : getThroughput rows queried = some found) (row : ThroughputRow) :
    row ∈ found ↔ ∃ minute ∈ (rows.filterMap (select queried)).map (·.minute),
      minuteText minute = some row.time ∧
        row = aggregate (rows.filterMap (select queried)) row.time minute := by
  rw [mem_of_pairs (mapM_pairs answered)]
  constructor
  · rintro ⟨minute, listed, mapped⟩
    obtain ⟨time, text, same⟩ := Option.bind_eq_some_iff.mp mapped
    cases same
    exact ⟨minute, by simpa using listed, text, rfl⟩
  · rintro ⟨minute, listed, text, same⟩
    refine ⟨minute, by simpa using listed, ?_⟩
    rw [text, Option.bind_eq_bind, Option.bind_some, ← same]
    rfl

/-- The row the route finds for a minute; one that it does not find would count nothing. -/
theorem newMap_getThroughput (answered : getThroughput rows queried = some found) {minute : Int}
    {key : String} (text : minuteText minute = some key) (field : ThroughputRow → Nat)
    (nothing : ∀ selected : List Selected, (selected.filter fun row => row.minute = minute) = [] →
      field (aggregate selected key minute) = 0) :
    ((newMap (found.map fun row => (row.time, row)) key).map field).getD 0 =
      field (aggregate (rows.filterMap (select queried)) key minute) := by
  -- Another minute has another text.
  have entry (row : ThroughputRow) (listed : (key, row) ∈ found.map fun row => (row.time, row)) :
      minute ∈ (rows.filterMap (select queried)).map (·.minute) ∧
        row = aggregate (rows.filterMap (select queried)) key minute := by
    obtain ⟨_, inside, same⟩ := List.mem_map.mp listed
    cases same
    obtain ⟨other, selected, otherText, same⟩ := (mem_getThroughput answered _).mp inside
    obtain rfl := minuteText_injective text otherText
    exact ⟨selected, same⟩
  by_cases selected : minute ∈ (rows.filterMap (select queried)).map (·.minute)
  · have listed : aggregate (rows.filterMap (select queried)) key minute ∈ found :=
      (mem_getThroughput answered _).mpr ⟨minute, selected, text, rfl⟩
    rw [newMap_same (fun row listed => (entry row listed).2)
      ⟨_, List.mem_map.mpr ⟨_, listed, rfl⟩⟩]
    rfl
  · rw [newMap_absent fun row listed => selected (entry row listed).1]
    -- A minute without a row gets zeros from the route.
    have empty : ((rows.filterMap (select queried)).filter fun row => row.minute = minute) = [] := by
      simp only [List.filter_eq_nil_iff, decide_eq_true_eq]
      exact fun row inside same => selected (List.mem_map.mpr ⟨row, inside, same⟩)
    exact (nothing _ empty).symm

/-! ## What the groups count -/

theorem within_of_recent {now time : Int} (recent : Time.minuteOf now - 60 < Time.minuteOf time) :
    now - 60 * (60 * 1000000000) < time := by
  have bounds : now / (60 * 1000000000) - 60 < time / (60 * 1000000000) := recent
  omega

/-- Every completion time of the last hour is within the bound of the query. -/
theorem countP_selected {minute : Int} (recent : queried.minuteOf - 60 < minute)
    (wanted : JobStatus → Bool) :
    ((rows.filterMap (select queried)).filter fun row => row.minute = minute).countP
        (fun row => wanted row.status) =
      rows.countP fun row => wanted row.status &&
        row.completedAt.any fun time => time.minuteOf = minute := by
  rw [List.countP_filter, List.countP_filterMap]
  apply List.countP_congr
  intro row _
  simp only [select]
  cases row.completedAt with
  | none => simp
  | some time =>
    simp only [Option.bind_some, Option.any_some]
    split
    · simp
    -- A row outside the bound of the query is of an earlier minute.
    · next old =>
      have later : time.minuteOf ≠ minute := fun same => old (within_of_recent (same ▸ recent))
      simp [later]

end

end Api

namespace Api

section

variable {rows : List Row} {queried responded : Time} {points : List ThroughputRow}

/-- What the route returns for each minute, whatever the rows. -/
theorem throughput_points (sameMinute : queried.minuteOf = responded.minuteOf)
    (answered : throughput rows queried responded = some points) :
    List.Forall₂ (fun minute point => minuteText minute = some point.time ∧
      point.completed = (rows.countP fun row => decide (row.status = .completed) &&
        row.completedAt.any fun time => time.minuteOf = minute) ∧
      point.failed = rows.countP fun row => decide (row.status ∈ [.failed, .dead]) &&
        row.completedAt.any fun time => time.minuteOf = minute) (lastHour responded) points := by
  obtain ⟨found, queryAnswered, mapped⟩ := Option.bind_eq_some_iff.mp answered
  have pairs : List.Forall₂ (fun minute point => minute ∈ lastHour responded ∧
      pointOf (newMap (found.map fun row => (row.time, row))) minute = some point)
      (lastHour responded) points := by
    apply (List.forall₂_and_left _ _).mpr
    refine ⟨fun _ recent => recent, mapM_pairs ?_⟩
    rw [lastHour, List.mapM_map]
    exact mapped
  refine List.Forall₂.imp ?_ pairs
  rintro minute point ⟨recent, pointed⟩
  -- The query and the response are of one minute, so that the bound is the same for both.
  have later : queried.minuteOf - 60 < minute := by
    rw [sameMinute]
    exact (mem_lastHour.mp recent).1
  obtain ⟨key, text, same⟩ := Option.bind_eq_some_iff.mp pointed
  cases same
  have completed := newMap_getThroughput queryAnswered text (·.completed)
    fun selected none => by simp [aggregate, none]
  have failed := newMap_getThroughput queryAnswered text (·.failed)
    fun selected none => by simp [aggregate, none]
  refine ⟨text, ?_, ?_⟩
  · rw [← countP_selected later fun status => decide (status = .completed)]
    exact completed
  · rw [← countP_selected later fun status => decide (status ∈ [.failed, .dead])]
    exact failed

/-! ## Reachable tables -/

theorem countP_completed (timed : ∀ row ∈ rows, row.Timed) (minute : Int) :
    (rows.countP fun row => decide (row.status ∈ [.failed, .dead]) &&
      row.completedAt.any fun time => time.minuteOf = minute) = 0 := by
  rw [List.countP_eq_zero]
  intro row listed both
  simp only [Bool.and_eq_true, decide_eq_true_eq, Option.any_eq_true] at both
  obtain ⟨lost, time, completedAt, -⟩ := both
  -- Only a completed row has a completion time.
  have completed : row.status = .completed := (timed row listed).completed.mp (by simp [completedAt])
  simp [completed] at lost

/-- The endpoint counts the completed jobs of every minute and no failed ones. -/
theorem throughput_counts (timed : ∀ row ∈ rows, row.Timed)
    (sameMinute : queried.minuteOf = responded.minuteOf)
    (answered : throughput rows queried responded = some points) :
    List.Forall₂ (fun minute point => minuteText minute = some point.time ∧
      point.completed = rows.countP (Row.completedIn minute) ∧ point.failed = 0)
      (lastHour responded) points := by
  refine List.Forall₂.imp ?_ (throughput_points sameMinute answered)
  rintro minute point ⟨time, completed, failed⟩
  refine ⟨time, completed.trans ?_, failed.trans (countP_completed timed minute)⟩
  apply List.countP_congr
  intro row _
  simp [Row.completedIn]

theorem right_iff_of_counts {minutes : List Int}
    (counts : List.Forall₂ (fun minute point => minuteText minute = some point.time ∧
      point.completed = rows.countP (Row.completedIn minute) ∧ point.failed = 0) minutes points) :
    List.Forall₂ (ThroughputRow.Right rows) minutes points ↔
      ∀ minute ∈ minutes, rows.countP (Row.failedIn minute) = 0 := by
  induction counts with
  | nil => simp
  | @cons minute point minutes points counted _ inductionHypothesis =>
    obtain ⟨time, completed, failed⟩ := counted
    have here : ThroughputRow.Right rows minute point ↔ rows.countP (Row.failedIn minute) = 0 := by
      constructor
      · intro right
        rw [← right.failed, failed]
      · intro none
        exact ⟨time, completed, failed.trans none.symm⟩
    rw [List.forall₂_cons, List.forall_mem_cons, here, inductionHypothesis]

theorem rows_timed_listed {proc : Processor} {last : SystemState} {ids : List JobId}
    (run : (taskfire proc).Run (fun _ action => Starting Entry.isRooted action) (beginning proc) last) :
    ∀ row ∈ last.store.jobs.rows ids, row.Timed := by
  intro row listed
  obtain ⟨id, -, found⟩ := List.mem_filterMap.mp listed
  exact rows_timed run id row found

end

end Api

/-- The ids are those of the table, each once. -/
structure Jobs.Lists (jobs : Jobs) (ids : List JobId) : Prop where
  distinct : ids.Nodup
  complete : ∀ id, id ∈ ids ↔ (jobs id).isSome = true

/-! ## Tables with finitely many rows -/

namespace Jobs

variable {jobs : Jobs} {ids : List JobId}

theorem Lists.of_set (listed : jobs.Lists ids) (id : JobId) (row : Row) :
    ∃ more, (jobs.set id row).Lists more := by
  have sets (other : JobId) :
      (jobs.set id row other).isSome = true ↔ other = id ∨ (jobs other).isSome = true := by
    by_cases same : other = id
    · subst same
      simp
    · simp [jobs.set_other row same, same]
  by_cases known : id ∈ ids
  · refine ⟨ids, listed.distinct, fun other => ?_⟩
    rw [sets, ← listed.complete]
    constructor
    · exact .inr
    · rintro (rfl | inside)
      · exact known
      · exact inside
  · refine ⟨id :: ids, List.nodup_cons.mpr ⟨known, listed.distinct⟩, fun other => ?_⟩
    rw [sets, ← listed.complete, List.mem_cons]

/-- A table with one row. -/
theorem lists_single {id : JobId} {row : Row} (found : jobs id = some row)
    (others : ∀ other, other ≠ id → jobs other = none) : jobs.Lists [id] := by
  refine ⟨List.nodup_singleton id, fun other => ?_⟩
  rw [List.mem_singleton]
  constructor
  · rintro rfl
    rw [found]
    rfl
  · intro present
    by_contra different
    rw [others other different] at present
    cases present

end Jobs

/-- A call writes at most one row, and only an INSERT adds one. -/
theorem perform_tables (env : Env) (stores : Stores) (c : Call) :
    (perform env stores c).2.jobs = stores.jobs ∨
      ∃ id row, (perform env stores c).2.jobs = stores.jobs.set id row ∧
        ((stores.jobs id).isSome = true ∨ ∃ params, c = .insertJob params ∧ params.id = id) := by
  obtain ⟨_, _, _, performed⟩ | performed := perform_cases env stores c
  · exact .inl (by rw [performed])
  · rw [performed]
    cases c with
    | insertJob params =>
      obtain ⟨error, inserted⟩ | ⟨row, -, inserted, -⟩ :=
        stores.jobs.insertJob_cases params env.now
      · simp [performStore, inserted]
      · simp only [performStore, inserted]
        exact .inr ⟨params.id, row, rfl, .inr ⟨params, rfl, rfl⟩⟩
    | cancelJob id =>
      obtain kept | ⟨old, new, found, -, -, cancelled, -⟩ := stores.jobs.cancelJob_cases id env.now
      · simp [performStore, kept]
      · simp only [performStore, cancelled]
        exact .inr ⟨id, new, rfl, .inl (by rw [found]; rfl)⟩
    | requeueJob id resetRetries =>
      obtain kept | ⟨old, new, found, -, requeued, -⟩ := stores.jobs.requeueJob_cases id resetRetries
      · simp [performStore, kept]
      · simp only [performStore, requeued]
        exact .inr ⟨id, new, rfl, .inl (by rw [found]; rfl)⟩
    | updateJobStatus job =>
      obtain ⟨-, kept⟩ | ⟨-, error, -, -, kept⟩ | ⟨old, new, found, -, -, updated, -⟩ :=
        stores.jobs.updateJobStatus_cases job
      · simp [performStore, kept]
      · simp [performStore, kept]
      · simp only [performStore, updated]
        exact .inr ⟨job.id, new, rfl, .inl (by rw [found]; rfl)⟩
    | command command => cases command <;> exact .inl rfl
    | awaitHandler job =>
      left
      simp only [performStore]
      split <;> rfl
    | _ => exact .inl rfl

section

variable {proc : Processor} {first last : SystemState}

/-- The rows of every reachable table can be listed. -/
theorem tables_listed {keeps : SystemState → SystemAction → Prop}
    (run : (taskfire proc).Run keeps (beginning proc) last) : ∃ ids, last.store.jobs.Lists ids := by
  apply run.invariant fun state => ∃ ids, state.store.jobs.Lists ids
  · exact ⟨[], List.nodup_nil, fun id => by simp [beginning, Machine.initial, Stores.empty]⟩
  · rintro before action after ⟨ids, listed⟩ _ stepped
    obtain same | ⟨move, moved⟩ | ⟨thread, env, c, next, _, _, rfl⟩ := Machine.step_store stepped
    · rw [same]
      exact ⟨ids, listed⟩
    · rw [moved]
      exact ⟨ids, listed⟩
    · obtain same | ⟨id, row, written, _⟩ := perform_tables env before.store c
      · exact ⟨ids, by rw [← same] at listed; exact listed⟩
      · obtain ⟨more, listed⟩ := listed.of_set id row
        exact ⟨more, by rw [← written] at listed; exact listed⟩

/-- The action adds no row but that of the job. -/
def insertsOnly (id : JobId) (state : SystemState) : SystemAction → Bool
  | .exec thread _ => match (state.threads thread).program with
    | .call (.insertJob params) _ => params.id = id
    | _ => true
  | _ => true

theorem single_row {id : JobId} {keeps : SystemState → SystemAction → Prop}
    (only : ∀ state action, keeps state action → insertsOnly id state action = true)
    (run : (taskfire proc).Run keeps (beginning proc) last) :
    ∀ other, other ≠ id → last.store.jobs other = none := by
  intro other different
  apply run.invariant fun state => state.store.jobs other = none
  · rfl
  · intro before action after absent kept stepped
    obtain same | ⟨move, moved⟩ | ⟨thread, env, c, next, rfl, program, rfl⟩ :=
      Machine.step_store stepped
    · rw [same]
      exact absent
    · rw [moved]
      exact absent
    · obtain same | ⟨written, row, set, known⟩ := perform_tables env before.store c
      · exact (congrFun same other).trans absent
      · have apart : other ≠ written := by
          rintro rfl
          obtain present | ⟨params, rfl, rfl⟩ := known
          · rw [absent] at present
            cases present
          · have inserts := only _ _ kept
            simp only [insertsOnly, program, decide_eq_true_eq] at inserts
            exact different inserts
        exact (congrFun set other).trans ((before.store.jobs.set_other row apart).trans absent)

end

/-! ## The endpoint -/

/-- Whatever the API and the workers have done, the points of the throughput endpoint are those of
the last 60 minutes and all of them are right, exactly when no job is failed or dead with a failure
time within these minutes. -/
theorem throughput_right_iff {proc : Processor} {last : SystemState} {ids : List JobId}
    {queried responded : Time} {points : List Api.ThroughputRow}
    (run : (taskfire proc).Run (fun _ action => Starting Entry.isRooted action) (beginning proc) last)
    (listed : last.store.jobs.Lists ids) (sameMinute : queried.minuteOf = responded.minuteOf)
    (answered : Api.throughput (last.store.jobs.rows ids) queried responded = some points) :
    List.Forall₂ (Api.ThroughputRow.Right (last.store.jobs.rows ids)) (lastHour responded) points ↔
      ∀ id, ∀ row ∈ last.store.jobs id, ∀ minute ∈ lastHour responded,
        row.failedIn minute = false := by
  have counts := Api.throughput_counts (Api.rows_timed_listed run) sameMinute answered
  rw [Api.right_iff_of_counts counts]
  simp only [List.countP_eq_zero, Bool.not_eq_true]
  constructor
  · intro none id row found minute recent
    have inside : id ∈ ids := (listed.complete id).mpr (by rw [found]; rfl)
    exact none minute recent row (List.mem_filterMap.mpr ⟨id, inside, found⟩)
  · intro none minute recent row inside
    obtain ⟨id, -, found⟩ := List.mem_filterMap.mp inside
    exact none id row found minute recent

/-- The API creates the job, and a request to cancel it comes before any worker. -/
def createAndCancel : List SystemAction :=
  .spawn 0 (.create .plain) :: calls 0 5 (.calm "j") ++
    .spawn 0 (.delete "j") :: calls 0 4 (.calm "j")

/-- A run of calls that do not fail, in which no other row is added. -/
abbrev Alone (id : JobId) (state : SystemState) (action : SystemAction) : Prop :=
  Ordinary Entry.isRooted action ∧ insertsOnly id state action = true

theorem alone_reaches (actions : List SystemAction) (holds : SystemState → Bool)
    (replayed : (replay (taskfire .wired).step (fun state action =>
      decide (Ordinary Entry.isRooted action) && insertsOnly "j" state action) (beginning .wired)
      actions).any holds = true) :
    ∃ last, (taskfire .wired).Run (Alone "j") (beginning .wired) last ∧ holds last = true := by
  refine replay_reaches _ (fun state action checked => ?_) actions holds replayed
  obtain ⟨ordinary, only⟩ := (Bool.and_eq_true _ _).mp checked
  exact ⟨of_decide_eq_true ordinary, only⟩

/-- The points of the table's only row, in the first minute of the clock. -/
def points (state : SystemState) : Option (List Api.ThroughputRow) :=
  Api.throughput (state.store.jobs.rows ["j"]) 0 0

/-- A worker completes the only job: all points are right, and the last one counts it. -/
theorem throughput_right_once : ∃ (last : SystemState) (found : List Api.ThroughputRow),
    List.Forall₂ (Api.ThroughputRow.Right (last.store.jobs.rows ["j"])) (lastHour 0) found ∧
      found.getLast? = some ⟨"1970-01-01T00:00:00.000Z", 1, 0⟩ := by
  obtain ⟨last, run, checked⟩ := alone_reaches createAndWork
    (fun last => decide (last.store.status "j" = some .completed ∧
      (points last).any fun found => found.getLast? = some ⟨"1970-01-01T00:00:00.000Z", 1, 0⟩))
    (by decide +kernel)
  obtain ⟨completed, counted⟩ := of_decide_eq_true checked
  obtain ⟨row, found, status⟩ := Option.map_eq_some_iff.mp completed
  obtain ⟨found', answered, latest⟩ := (Option.any_eq_true ..).mp counted
  have others := single_row (fun _ _ alone => alone.2) run
  have starting := run.mono fun _ _ alone => alone.1.starting
  refine ⟨last, found', ?_, of_decide_eq_true latest⟩
  apply (throughput_right_iff starting (Jobs.lists_single found others) rfl answered).mpr
  intro id other held minute _
  by_cases same : id = "j"
  · subst same
    rw [found] at held
    cases held
    simp [Row.failedIn, status]
  · rw [others id same] at held
    cases held

/-- A request cancels the only job: its failure time lies in the current minute, whose point counts
no failure. -/
theorem throughput_misses_failure : ∃ (last : SystemState) (found : List Api.ThroughputRow),
    (taskfire .wired).Run (fun _ action => Starting Entry.isRooted action) (beginning .wired) last ∧
      last.store.jobs.Lists ["j"] ∧
      Api.throughput (last.store.jobs.rows ["j"]) 0 0 = some found ∧
      found.getLast? = some ⟨"1970-01-01T00:00:00.000Z", 0, 0⟩ ∧
      (last.store.jobs.rows ["j"]).countP (Row.failedIn (Time.minuteOf 0)) = 1 ∧
      ¬List.Forall₂ (Api.ThroughputRow.Right (last.store.jobs.rows ["j"])) (lastHour 0) found := by
  obtain ⟨last, run, checked⟩ := alone_reaches createAndCancel
    (fun last => decide ((last.store.jobs "j").isSome = true ∧
      ((points last).any fun found => found.getLast? = some ⟨"1970-01-01T00:00:00.000Z", 0, 0⟩) ∧
      (last.store.jobs.rows ["j"]).countP (Row.failedIn (Time.minuteOf 0)) = 1))
    (by decide +kernel)
  obtain ⟨present, counted, failed⟩ := of_decide_eq_true checked
  obtain ⟨row, found⟩ := Option.isSome_iff_exists.mp present
  obtain ⟨found', answered, latest⟩ := (Option.any_eq_true ..).mp counted
  have others := single_row (fun _ _ alone => alone.2) run
  have starting := run.mono fun _ _ alone => alone.1.starting
  refine ⟨last, found', starting, Jobs.lists_single found others, answered, of_decide_eq_true latest,
    failed, fun right => ?_⟩
  have counts := Api.throughput_counts (Api.rows_timed_listed starting) rfl answered
  have none := (Api.right_iff_of_counts counts).mp right (Time.minuteOf 0) (by decide)
  rw [failed] at none
  cases none

end Taskfire
