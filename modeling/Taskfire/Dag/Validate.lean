import Taskfire.Dag.Kahn

/-!
# Validation of a job's dependencies

`Validate` sorts the graph it loads from the table, so it finds the cycles of what it has loaded.
The search starts from the proposed dependencies and follows the stored ones.  Postgres finds a row by
the UUID that a text stands for, but the maps of Go keep the texts, so that an edge to a text other than
the printed one leads nowhere.  The row of the job itself is only read when the job is one of its own
dependencies, and it then takes the place of the proposed list.
-/

namespace Taskfire

namespace Engine

open Taskfire.Library Relation

variable {uuid : UuidText} {jobs : Jobs} {root : JobId} {deps : List JobId}

/-! ## The graphs -/

/-- The dependencies in the job's row, as they are written there. -/
def storedDeps (jobs : Jobs) (id : JobId) : List JobId :=
  match jobs id with
  | none => []
  | some row => row.dependencies

def Stored (jobs : Jobs) (node dep : JobId) : Prop := dep ∈ storedDeps jobs node

/-- The graph of the table, whose nodes are the ids as Postgres prints them. -/
def Tabled (uuid : UuidText) (jobs : Jobs) (node dep : JobId) : Prop :=
  dep ∈ (storedDeps jobs node).map uuid.print

/-- The graph of the table with the edges of `root` replaced by `deps`. -/
def Proposed (uuid : UuidText) (jobs : Jobs) (root : JobId) (deps : List JobId)
    (node dep : JobId) : Prop :=
  if node = uuid.print root then dep ∈ deps.map uuid.print else Tabled uuid jobs node dep

/-- The texts that an unlimited search looks up: the proposed ones, and those in the rows that are
found, but for the text of the job itself. -/
def LookedUp (uuid : UuidText) (jobs : Jobs) (root : JobId) (deps : List JobId) (text : JobId) : Prop :=
  ∃ dep ∈ deps, ReflTransGen (fun text next => Stored jobs (uuid.print text) next ∧ next ≠ root) dep text

/-- The row of `root` is read under the text that the map has for `root`. -/
def RowReplaces (uuid : UuidText) (jobs : Jobs) (root : JobId) (deps : List JobId) : Prop :=
  (jobs root).isSome = true ∧ ∃ text, LookedUp uuid jobs root deps text ∧ uuid.print text = root

/-- The graph that the map holds in the end: the rows under the ids that Postgres prints, and the
proposed list under the text it came with, with edges to texts as they are written. -/
def Mapped (uuid : UuidText) (jobs : Jobs) (root : JobId) (deps : List JobId) (node dep : JobId) : Prop :=
  (∃ text, LookedUp uuid jobs root deps text ∧ uuid.print text = node ∧ Stored jobs node dep) ∨
    (node = root ∧ dep ∈ deps ∧ ¬ RowReplaces uuid jobs root deps)

/-- Every id is written as Postgres prints it. -/
structure Plain (uuid : UuidText) (jobs : Jobs) (root : JobId) (deps : List JobId) : Prop where
  root : uuid.print root = root
  deps : ∀ dep ∈ deps, uuid.print dep = dep
  stored : ∀ node dep, Stored jobs node dep → uuid.print dep = dep

theorem proposed_root {dep : JobId} :
    Proposed uuid jobs root deps (uuid.print root) dep ↔ dep ∈ deps.map uuid.print := by
  simp [Proposed]

theorem proposed_other {node dep : JobId} (different : node ≠ uuid.print root) :
    Proposed uuid jobs root deps node dep ↔ Tabled uuid jobs node dep := by
  simp [Proposed, different]

theorem tabled_of_stored {node dep : JobId} (stored : Stored jobs node dep) :
    Tabled uuid jobs node (uuid.print dep) := List.mem_map_of_mem stored

theorem stored_row {node dep : JobId} (stored : Stored jobs node dep) :
    (jobs node).isSome = true := by
  cases row : jobs node with
  | none => simp [Stored, storedDeps, row] at stored
  | some found => rfl

/-! ## Loading a level -/

theorem mem_unique {ids : List JobId} {id : JobId} : id ∈ unique ids ↔ id ∈ ids := by
  have folded (out : List JobId) :
      id ∈ ids.foldl (fun out id => if id ∈ out then out else out ++ [id]) out ↔
        id ∈ out ∨ id ∈ ids := by
    induction ids generalizing out with
    | nil => simp
    | cons head tail inductionHypothesis =>
      rw [List.foldl_cons, inductionHypothesis, List.mem_cons]
      by_cases old : head ∈ out
      · rw [if_pos old]
        constructor
        · intro found
          obtain left | right := found
          · exact .inl left
          · exact .inr (.inr right)
        · intro found
          obtain left | rfl | right := found
          · exact .inl left
          · exact .inl old
          · exact .inr right
      · rw [if_neg old]
        simp [or_assoc]
  exact (folded []).trans (by simp)

theorem mem_dependencyRows {ids : List JobId} {row : JobId × List JobId} :
    row ∈ jobs.dependencyRows uuid ids ↔ row.1 ∈ ids.map uuid.print ∧ (jobs row.1).isSome = true ∧
      row.2 = storedDeps jobs row.1 := by
  simp only [Jobs.dependencyRows, List.mem_filterMap, List.mem_dedup, Option.map_eq_some_iff]
  constructor
  · intro found
    obtain ⟨id, listed, stored, present, rfl⟩ := found
    exact ⟨listed, by simp [present], by simp [storedDeps, present]⟩
  · intro found
    obtain ⟨listed, present, same⟩ := found
    obtain ⟨stored, some⟩ := Option.isSome_iff_exists.mp present
    refine ⟨row.1, listed, stored, some, ?_⟩
    rw [← Prod.eta row, same]
    simp [storedDeps, some]

/-- What the loop over a row's dependencies adds. -/
structure Visited (before : Search) (deps : List JobId) (after : Search) : Prop where
  graph : after.graph = before.graph
  seen : ∀ id, id ∈ after.seen ↔ id ∈ before.seen ∨ id ∈ deps
  next : ∀ id, id ∈ after.nextFrontier ↔
    id ∈ before.nextFrontier ∨ (id ∉ before.seen ∧ id ∈ deps)

theorem visited_one (search : Search) (dep : JobId) :
    Visited search [dep] (visitDep search dep) := by
  simp only [visitDep]
  split
  -- A dependency that was visited before is not visited again.
  · next old =>
    constructor
    · rfl
    · intro id
      constructor
      · exact .inl
      · intro found
        obtain seen | listed := found
        · exact seen
        · rw [List.mem_singleton.mp listed]
          exact old
    · intro id
      constructor
      · exact .inl
      · intro found
        obtain next | ⟨fresh, listed⟩ := found
        · exact next
        · rw [List.mem_singleton.mp listed] at fresh
          exact absurd old fresh
  · next fresh =>
    constructor
    · rfl
    · intro id
      simp [or_comm]
    · intro id
      simp only [List.mem_append, List.mem_singleton]
      constructor
      · intro found
        obtain next | rfl := found
        · exact .inl next
        · exact .inr ⟨fresh, rfl⟩
      · intro found
        obtain next | ⟨-, same⟩ := found
        · exact .inl next
        · exact .inr same

theorem Visited.append {before middle after : Search} {first second : List JobId}
    (left : Visited before first middle) (right : Visited middle second after) :
    Visited before (first ++ second) after := by
  constructor
  · rw [right.graph, left.graph]
  · intro id
    rw [right.seen, left.seen, List.mem_append, or_assoc]
  · intro id
    rw [right.next, left.next, left.seen, List.mem_append]
    by_cases listed : id ∈ first
    · simp [listed]
    · simp [listed]

theorem visited_foldl (search : Search) (deps : List JobId) :
    Visited search deps (deps.foldl visitDep search) := by
  induction deps generalizing search with
  | nil => exact ⟨rfl, by simp, by simp⟩
  | cons dep deps inductionHypothesis =>
    exact (visited_one search dep).append (inductionHypothesis (visitDep search dep))

/-- What the loop over the rows adds: their stored dependencies. -/
structure Scanned (jobs : Jobs) (before : Search) (ids : List JobId) (after : Search) : Prop where
  edges : ∀ node dep, Depends after.graph node dep ↔
    if node ∈ ids then Stored jobs node dep else Depends before.graph node dep
  seen : ∀ id, id ∈ after.seen ↔ id ∈ before.seen ∨ ∃ node ∈ ids, Stored jobs node id
  next : ∀ id, id ∈ after.nextFrontier ↔
    id ∈ before.nextFrontier ∨ (id ∉ before.seen ∧ ∃ node ∈ ids, Stored jobs node id)

theorem scanned_one (search : Search) {row : JobId × List JobId}
    (stored : row.2 = storedDeps jobs row.1) : Scanned jobs search [row.1] (scanRow search row) := by
  have visited := visited_foldl
    { search with graph := search.graph.set row.1 (unique row.2) } (unique row.2)
  have listed (id : JobId) : id ∈ unique row.2 ↔ Stored jobs row.1 id := by
    rw [mem_unique, stored]
    rfl
  constructor
  · intro node dep
    simp only [Depends, scanRow, visited.graph, FiniteMap.set_value, List.mem_singleton]
    by_cases same : node = row.1
    · subst same
      simpa using listed dep
    · simp [same]
  · intro id
    simp only [scanRow, visited.seen, listed, List.mem_singleton, exists_eq_left]
  · intro id
    simp only [scanRow, visited.next, listed, List.mem_singleton, exists_eq_left]

theorem Scanned.append {before middle after : Search} {first second : List JobId}
    (left : Scanned jobs before first middle) (right : Scanned jobs middle second after) :
    Scanned jobs before (first ++ second) after := by
  have either (id : JobId) : (∃ node ∈ first ++ second, Stored jobs node id) ↔
      (∃ node ∈ first, Stored jobs node id) ∨ ∃ node ∈ second, Stored jobs node id := by
    simp only [List.mem_append, or_and_right, exists_or]
  constructor
  · intro node dep
    rw [right.edges, left.edges]
    by_cases later : node ∈ second
    · simp [later]
    · simp [later]
  · intro id
    rw [right.seen, left.seen, either, or_assoc]
  · intro id
    rw [right.next, left.next, left.seen, either]
    by_cases listed : ∃ node ∈ first, Stored jobs node id
    · simp [listed]
    · simp [listed]

theorem scanned_foldl (search : Search) {rows : List (JobId × List JobId)}
    (stored : ∀ row ∈ rows, row.2 = storedDeps jobs row.1) :
    Scanned jobs search (rows.map Prod.fst) (rows.foldl scanRow search) := by
  induction rows generalizing search with
  | nil => exact ⟨by simp, by simp, by simp⟩
  | cons row rows inductionHypothesis =>
    have rest := inductionHypothesis (scanRow search row)
      fun other member => stored other (List.mem_cons_of_mem _ member)
    exact (scanned_one search (stored row List.mem_cons_self)).append rest

/-! ## The levels -/

/-- What has been loaded when the texts that `looked` holds of have been looked up. -/
structure Loading (uuid : UuidText) (jobs : Jobs) (root : JobId) (deps : List JobId)
    (looked : JobId → Prop) (graph : DepGraph) (seen frontier : List JobId) : Prop where
  edges : ∀ node dep, Depends graph node dep ↔
    (∃ text, looked text ∧ uuid.print text = node ∧ Stored jobs node dep) ∨
    (node = root ∧ dep ∈ deps ∧
      ¬ ((jobs root).isSome = true ∧ ∃ text, looked text ∧ uuid.print text = root))
  closed : ∀ text dep, looked text → Stored jobs (uuid.print text) dep → dep ∈ seen
  found : ∀ text ∈ seen, text = root ∨ looked text ∨ text ∈ frontier
  first : ∀ dep ∈ deps, looked dep ∨ dep ∈ frontier
  reached : ∀ text, looked text ∨ text ∈ frontier → LookedUp uuid jobs root deps text
  rootSeen : root ∈ seen

theorem loading_start (uuid : UuidText) (jobs : Jobs) (root : JobId) (deps : List JobId) :
    Loading uuid jobs root deps (fun _ => False) (FiniteMap.empty.set root (unique deps)) [root]
      (unique deps) := by
  constructor
  · intro node dep
    by_cases same : node = root
    · simp [Depends, same, mem_unique]
    · have missing : dep ∉ (default : List JobId) := List.not_mem_nil
      simp [Depends, same, FiniteMap.empty, missing]
  · intro text dep looked
    exact looked.elim
  · intro text seen
    exact .inl (List.mem_singleton.mp seen)
  · intro dep listed
    exact .inr (mem_unique.mpr listed)
  · intro text either
    obtain looked | listed := either
    · exact looked.elim
    · exact ⟨text, mem_unique.mp listed, .refl⟩
  · exact List.mem_singleton_self root

theorem loading_level {looked : JobId → Prop} {search : Search} {frontier : List JobId}
    (loading : Loading uuid jobs root deps looked search.graph search.seen frontier)
    (rows : Iteration (JobId × List JobId)) {after : Search}
    (scanned : after = (rows.visit (jobs.dependencyRows uuid frontier)).foldl scanRow
      { search with nextFrontier := [] }) :
    Loading uuid jobs root deps (fun text => looked text ∨ text ∈ frontier) after.graph after.seen
      after.nextFrontier := by
  have spec : Scanned jobs { search with nextFrontier := [] }
      ((rows.visit (jobs.dependencyRows uuid frontier)).map Prod.fst) after := by
    rw [scanned]
    apply scanned_foldl
    intro row member
    exact (mem_dependencyRows.mp (rows.mem_visit.mp member)).2.2
  have ids (node : JobId) : node ∈ (rows.visit (jobs.dependencyRows uuid frontier)).map Prod.fst ↔
      (∃ text ∈ frontier, uuid.print text = node) ∧ (jobs node).isSome = true := by
    rw [List.mem_map]
    constructor
    · intro found
      obtain ⟨row, member, rfl⟩ := found
      have listed := mem_dependencyRows.mp (rows.mem_visit.mp member)
      exact ⟨List.mem_map.mp listed.1, listed.2.1⟩
    · intro both
      refine ⟨(node, storedDeps jobs node), rows.mem_visit.mpr ?_, rfl⟩
      exact mem_dependencyRows.mpr ⟨List.mem_map.mpr both.1, both.2, rfl⟩
  constructor
  · intro node dep
    rw [spec.edges]
    have before := loading.edges node dep
    -- A row that is read replaces what the graph had for its job, the proposed list included.
    by_cases scannedNow : node ∈ (rows.visit (jobs.dependencyRows uuid frontier)).map Prod.fst
    · obtain ⟨⟨text, queued, printed⟩, present⟩ := (ids node).mp scannedNow
      rw [if_pos scannedNow]
      constructor
      · intro stored
        exact .inl ⟨text, .inr queued, printed, stored⟩
      · intro either
        obtain ⟨_, -, -, stored⟩ | ⟨rfl, -, unread⟩ := either
        · exact stored
        · exact absurd ⟨present, text, .inr queued, printed⟩ unread
    · rw [if_neg scannedNow, before]
      rw [ids] at scannedNow
      constructor
      · intro either
        obtain ⟨text, old, printed, stored⟩ | ⟨rfl, listed, unread⟩ := either
        · exact .inl ⟨text, .inl old, printed, stored⟩
        · refine .inr ⟨rfl, listed, ?_⟩
          intro read
          obtain ⟨present, text, old | queued, printed⟩ := read
          · exact unread ⟨present, text, old, printed⟩
          · exact scannedNow ⟨⟨text, queued, printed⟩, present⟩
      · intro either
        obtain ⟨text, old | queued, printed, stored⟩ | ⟨rfl, listed, unread⟩ := either
        · exact .inl ⟨text, old, printed, stored⟩
        · exact absurd ⟨⟨text, queued, printed⟩, stored_row stored⟩ scannedNow
        · refine .inr ⟨rfl, listed, ?_⟩
          intro read
          obtain ⟨present, text, old, printed⟩ := read
          exact unread ⟨present, text, .inl old, printed⟩
  · intro text dep either stored
    rw [spec.seen]
    obtain old | queued := either
    · exact .inl (loading.closed text dep old stored)
    · exact .inr ⟨_, (ids _).mpr ⟨⟨text, queued, rfl⟩, stored_row stored⟩, stored⟩
  · intro text seen
    by_cases old : text ∈ search.seen
    · obtain same | earlier := loading.found text old
      · exact .inl same
      · exact .inr (.inl earlier)
    · obtain before | listed := (spec.seen text).mp seen
      · exact absurd before old
      · exact .inr (.inr ((spec.next text).mpr (.inr ⟨old, listed⟩)))
  · intro dep listed
    exact .inl (loading.first dep listed)
  · intro text either
    obtain old | fresh := either
    · exact loading.reached text old
    · obtain none | ⟨unseen, parent, scannedNow, stored⟩ := (spec.next text).mp fresh
      · cases none
      · obtain ⟨⟨before, queued, rfl⟩, -⟩ := (ids parent).mp scannedNow
        obtain ⟨dep, listed, path⟩ := loading.reached before (.inr queued)
        -- The text of the job itself has been seen from the start.
        have different : text ≠ root := by
          intro same
          subst same
          exact unseen loading.rootSeen
        exact ⟨dep, listed, path.tail ⟨stored, different⟩⟩
  · exact (spec.seen root).mpr (.inl loading.rootSeen)

theorem loading_levels {lookups : Nat → Lookup} {levels : Nat} {search : Search}
    {frontier left : List JobId} {graph : DepGraph} {looked : JobId → Prop}
    (loading : Loading uuid jobs root deps looked search.graph search.seen frontier)
    (loaded : loadLevels uuid jobs lookups search levels frontier = .ok (graph, left)) :
    ∃ looked seen, Loading uuid jobs root deps looked graph seen left := by
  induction levels generalizing search frontier looked with
  | zero =>
    cases loaded
    exact ⟨looked, search.seen, loading⟩
  | succ levels inductionHypothesis =>
    cases frontier with
    | nil =>
      cases loaded
      exact ⟨looked, search.seen, loading⟩
    | cons id ids =>
      simp only [loadLevels] at loaded
      split at loaded
      · cases loaded
      · exact inductionHypothesis (loading_level loading _ rfl) loaded

theorem loadFrom_loading {lookups : Nat → Lookup} {graph : DepGraph} {left : List JobId}
    (loaded : loadFrom uuid jobs lookups root deps = .ok (graph, left)) :
    ∃ looked seen, Loading uuid jobs root deps looked graph seen left :=
  loading_levels (loading_start uuid jobs root deps) loaded

section

variable {looked : JobId → Prop} {graph : DepGraph} {seen frontier : List JobId}

/-- When nothing is left to look up, all texts have been looked up. -/
theorem looked_iff (loading : Loading uuid jobs root deps looked graph seen []) (text : JobId) :
    looked text ↔ LookedUp uuid jobs root deps text := by
  constructor
  · intro old
    exact loading.reached text (.inl old)
  · intro up
    obtain ⟨dep, listed, path⟩ := up
    induction path with
    | refl => exact (loading.first dep listed).resolve_right List.not_mem_nil
    | tail _ step inductionHypothesis =>
      obtain ⟨stored, different⟩ := step
      obtain same | old | left := loading.found _ (loading.closed _ _ inductionHypothesis stored)
      · exact absurd same different
      · exact old
      · cases left

theorem depends_iff (loading : Loading uuid jobs root deps looked graph seen []) :
    Depends graph = Mapped uuid jobs root deps := by
  funext node dep
  simp only [loading.edges, looked_iff loading, Mapped, RowReplaces]

/-! ## Cycles of what was loaded -/

/-- A text that is looked up can be reached from the job in the proposed graph, or the job itself is
on a cycle. -/
theorem proposed_of_lookedUp {text : JobId} (up : LookedUp uuid jobs root deps text) :
    TransGen (Proposed uuid jobs root deps) (uuid.print root) (uuid.print text) ∨
      TransGen (Proposed uuid jobs root deps) (uuid.print root) (uuid.print root) := by
  obtain ⟨dep, listed, path⟩ := up
  induction path with
  | refl => exact .inl (.single (proposed_root.mpr (List.mem_map_of_mem listed)))
  | @tail before next _ step inductionHypothesis =>
    obtain reached | cycle := inductionHypothesis
    · by_cases own : uuid.print before = uuid.print root
      · rw [own] at reached
        exact .inr reached
      · exact .inl (reached.tail ((proposed_other own).mpr (tabled_of_stored step.1)))
    · exact .inr cycle

/-- A cycle of what was loaded is one of the proposed graph. -/
theorem proposed_of_cyclic (loading : Loading uuid jobs root deps looked graph seen frontier)
    (cyclic : Cyclic (Depends graph)) :
    CyclicFrom (Proposed uuid jobs root deps) (uuid.print root) := by
  by_contra acyclic
  have noCycle : ¬ TransGen (Proposed uuid jobs root deps) (uuid.print root) (uuid.print root) :=
    fun cycle => acyclic ⟨_, .refl, cycle⟩
  have reached {text : JobId} (old : looked text) :
      TransGen (Proposed uuid jobs root deps) (uuid.print root) (uuid.print text) :=
    (proposed_of_lookedUp (loading.reached text (.inl old))).resolve_right noCycle
  -- The row of the job is not read, so that every loaded edge is a proposed one.
  have step {node dep : JobId} (depends : Depends graph node dep) :
      ReflTransGen (Proposed uuid jobs root deps) (uuid.print root) (uuid.print node) ∧
        Proposed uuid jobs root deps (uuid.print node) (uuid.print dep) := by
    obtain ⟨text, old, rfl, stored⟩ | ⟨rfl, listed, -⟩ := (loading.edges node dep).mp depends
    · have path := reached old
      rw [uuid.print_print]
      refine ⟨path.to_reflTransGen, (proposed_other ?_).mpr (tabled_of_stored stored)⟩
      intro own
      rw [own] at path
      exact noCycle path
    · exact ⟨.refl, proposed_root.mpr (List.mem_map_of_mem listed)⟩
  obtain ⟨node, cycle⟩ := cyclic
  obtain ⟨next, first, -⟩ := TransGen.head'_iff.mp cycle
  exact acyclic ⟨uuid.print node, (step first).1, cycle.lift uuid.print fun _ _ edge => (step edge).2⟩

end

/-! ## Printed ids -/

theorem Plain.tabled_iff (plain : Plain uuid jobs root deps) {node dep : JobId} :
    Tabled uuid jobs node dep ↔ Stored jobs node dep := by
  rw [Tabled, List.mem_map]
  constructor
  · intro found
    obtain ⟨text, listed, rfl⟩ := found
    rw [plain.stored node text listed]
    exact listed
  · intro listed
    exact ⟨dep, listed, plain.stored node dep listed⟩

theorem Plain.proposed_deps (plain : Plain uuid jobs root deps) {dep : JobId} :
    dep ∈ deps.map uuid.print ↔ dep ∈ deps := by
  rw [List.mem_map]
  constructor
  · intro found
    obtain ⟨text, listed, rfl⟩ := found
    rw [plain.deps text listed]
    exact listed
  · intro listed
    exact ⟨dep, listed, plain.deps dep listed⟩

theorem Plain.print_lookedUp (plain : Plain uuid jobs root deps) {text : JobId}
    (up : LookedUp uuid jobs root deps text) :
    uuid.print text = text := by
  obtain ⟨dep, listed, path⟩ := up
  obtain rfl | ⟨_, -, step⟩ := path.cases_tail
  · exact plain.deps text listed
  · exact plain.stored _ _ step.1

/-- The row of the job is read exactly if the job is one of its own dependencies. -/
theorem Plain.rowReplaces_iff (plain : Plain uuid jobs root deps) :
    RowReplaces uuid jobs root deps ↔ root ∈ deps ∧ (jobs root).isSome = true := by
  constructor
  · intro replaces
    obtain ⟨present, text, up, printed⟩ := replaces
    rw [plain.print_lookedUp up] at printed
    subst printed
    obtain ⟨dep, listed, path⟩ := up
    refine ⟨?_, present⟩
    obtain rfl | ⟨_, -, step⟩ := path.cases_tail
    · exact listed
    · exact absurd rfl step.2
  · intro both
    exact ⟨both.2, root, ⟨root, both.1, .refl⟩, plain.root⟩

/-- Every edge of a text that is looked up is in the map, and leads to such a text or to the job. -/
theorem Plain.mapped_of_stored (plain : Plain uuid jobs root deps) {node dep : JobId}
    (up : LookedUp uuid jobs root deps node) (stored : Stored jobs node dep) :
    Mapped uuid jobs root deps node dep ∧ (dep = root ∨ LookedUp uuid jobs root deps dep) := by
  have printed := plain.print_lookedUp up
  refine ⟨.inl ⟨node, up, printed, stored⟩, ?_⟩
  by_cases own : dep = root
  · exact .inl own
  · obtain ⟨first, listed, path⟩ := up
    exact .inr ⟨first, listed, path.tail ⟨by rwa [printed], own⟩⟩

/-- Where the row hides the proposed list, the map holds the stored graph. -/
theorem Plain.mapped_cyclic_iff (plain : Plain uuid jobs root deps) (self : root ∈ deps)
    (present : (jobs root).isSome = true) :
    Cyclic (Mapped uuid jobs root deps) ↔ ∃ dep ∈ deps, CyclicFrom (Tabled uuid jobs) dep := by
  have replaces := plain.rowReplaces_iff.mpr ⟨self, present⟩
  have rooted : LookedUp uuid jobs root deps root := ⟨root, self, .refl⟩
  constructor
  · intro cyclic
    obtain ⟨node, cycle⟩ := cyclic
    have stored {node dep : JobId} (mapped : Mapped uuid jobs root deps node dep) :
        LookedUp uuid jobs root deps node ∧ Tabled uuid jobs node dep := by
      obtain ⟨text, up, printed, stored⟩ | ⟨-, -, kept⟩ := mapped
      · rw [plain.print_lookedUp up] at printed
        subst printed
        exact ⟨up, plain.tabled_iff.mpr stored⟩
      · exact absurd replaces kept
    obtain ⟨next, step, -⟩ := TransGen.head'_iff.mp cycle
    obtain ⟨dep, listed, path⟩ := (stored step).1
    refine ⟨dep, listed, node, ?_, TransGen.mono (fun _ _ mapped => (stored mapped).2) node node cycle⟩
    clear step cycle
    -- Each text on the way is the printed one, so the lookups follow the edges of the table.
    induction path with
    | refl => exact .refl
    | @tail before next path step inductionHypothesis =>
      have printed : uuid.print before = before := plain.print_lookedUp ⟨dep, listed, path⟩
      rw [printed] at step
      exact inductionHypothesis.tail (plain.tabled_iff.mpr step.1)
  · intro found
    obtain ⟨dep, listed, cyclic⟩ := found
    refine cyclic.cyclic_of_closed (LookedUp uuid jobs root deps) ⟨dep, listed, .refl⟩ ?_
    intro node next up stored
    obtain ⟨mapped, own | later⟩ := plain.mapped_of_stored up (plain.tabled_iff.mp stored)
    · exact ⟨mapped, own ▸ rooted⟩
    · exact ⟨mapped, later⟩

/-- Where it does not, the map holds the proposed graph. -/
theorem Plain.mapped_of_proposed (plain : Plain uuid jobs root deps)
    (kept : ¬ RowReplaces uuid jobs root deps)
    (cyclic : CyclicFrom (Proposed uuid jobs root deps) (uuid.print root)) :
    Cyclic (Mapped uuid jobs root deps) := by
  refine cyclic.cyclic_of_closed
    (fun node => node = root ∨ LookedUp uuid jobs root deps node) (.inl plain.root) ?_
  intro node next held proposed
  by_cases own : node = root
  · have listed : next ∈ deps := by
      rw [own] at proposed
      nth_rewrite 2 [← plain.root] at proposed
      exact plain.proposed_deps.mp (proposed_root.mp proposed)
    exact ⟨.inr ⟨own, listed, kept⟩, .inr ⟨next, listed, .refl⟩⟩
  · rw [proposed_other (by rwa [plain.root]), plain.tabled_iff] at proposed
    exact plain.mapped_of_stored (held.resolve_left own) proposed

theorem Plain.mapped_iff (plain : Plain uuid jobs root deps) :
    (CyclicFrom (Proposed uuid jobs root deps) (uuid.print root) →
      Cyclic (Mapped uuid jobs root deps)) ↔
    root ∉ deps ∨ jobs root = none ∨ ∃ dep ∈ deps, CyclicFrom (Tabled uuid jobs) dep := by
  by_cases self : root ∈ deps
  · have proposed : CyclicFrom (Proposed uuid jobs root deps) (uuid.print root) := by
      refine ⟨_, .refl, .single (proposed_root.mpr ?_)⟩
      exact List.mem_map_of_mem self
    cases present : (jobs root).isSome with
    | true =>
      have row : jobs root ≠ none := Option.isSome_iff_ne_none.mp present
      simp [plain.mapped_cyclic_iff self present, proposed, self, row]
    | false =>
      have kept : ¬ RowReplaces uuid jobs root deps := by
        intro replaces
        rw [replaces.1] at present
        cases present
      have missing : jobs root = none := by simpa using present
      exact iff_of_true (plain.mapped_of_proposed kept) (.inr (.inl missing))
  · have kept : ¬ RowReplaces uuid jobs root deps :=
      fun replaces => self (plain.rowReplaces_iff.mp replaces).1
    exact iff_of_true (plain.mapped_of_proposed kept) (.inl self)

/-! ## The result -/

/-- `Validate` reports a cycle that can be reached from the job in the proposed graph, and nothing
where there is none. -/
def Finds (uuid : UuidText) (jobs : Jobs) (root : JobId) (deps : List JobId)
    (answer : Option GoError) : Prop :=
  (CyclicFrom (Proposed uuid jobs root deps) (uuid.print root) → answer = some errCyclicDependency) ∧
    (¬ CyclicFrom (Proposed uuid jobs root deps) (uuid.print root) → answer = none)

/-- `Validate` reports the cycles of the graph it has loaded. -/
theorem validate_loaded {lookups : Nat → Lookup} {graph : DepGraph} {left : List JobId}
    (orders : KahnOrders) (nonempty : deps ≠ [])
    (loaded : loadFrom uuid jobs lookups root deps = .ok (graph, left)) :
    (validate uuid jobs lookups orders root deps = some errCyclicDependency ↔ Cyclic (Depends graph)) ∧
      (validate uuid jobs lookups orders root deps = none ↔ ¬ Cyclic (Depends graph)) := by
  have graphLoaded : loadGraph uuid jobs lookups root deps = .ok graph := by
    rw [loadGraph, loaded]
    rfl
  simp only [validate, nonempty, if_false, graphLoaded]
  obtain ⟨-, ⟨cyclic, failed⟩ | ⟨acyclic, order, passed, -⟩⟩ := kahnSort_sorts orders graph
  · simp [failed, cyclic]
  · simp [passed, acyclic]

/-- If the search was not cut short, the validation finds the cycles of the proposed graph unless none
is left in the map.  Where all ids are written as Postgres prints them, that is where the job depends on
itself and already has a row.  If the search was cut short, a reported cycle is one. -/
theorem validate_finds_cycles {lookups : Nat → Lookup} {graph : DepGraph} {frontier : List JobId}
    {jobID : JobId} (orders : KahnOrders) (nonempty : deps ≠ [])
    (loaded : loadFrom uuid jobs lookups jobID deps = .ok (graph, frontier)) :
    (frontier = [] →
      (Finds uuid jobs jobID deps (validate uuid jobs lookups orders jobID deps) ↔
        (CyclicFrom (Proposed uuid jobs jobID deps) (uuid.print jobID) →
          Cyclic (Mapped uuid jobs jobID deps))) ∧
      (Plain uuid jobs jobID deps →
        (Finds uuid jobs jobID deps (validate uuid jobs lookups orders jobID deps) ↔
          jobID ∉ deps ∨ jobs jobID = none ∨ ∃ dep ∈ deps, CyclicFrom (Tabled uuid jobs) dep))) ∧
    (frontier ≠ [] → validate uuid jobs lookups orders jobID deps = some errCyclicDependency →
      CyclicFrom (Proposed uuid jobs jobID deps) (uuid.print jobID)) := by
  obtain ⟨looked, seen, loading⟩ := loadFrom_loading loaded
  obtain ⟨reports, passes⟩ := validate_loaded orders nonempty loaded
  have sound := proposed_of_cyclic loading
  constructor
  · intro complete
    subst complete
    have exact : Finds uuid jobs jobID deps (validate uuid jobs lookups orders jobID deps) ↔
        (CyclicFrom (Proposed uuid jobs jobID deps) (uuid.print jobID) →
          Cyclic (Mapped uuid jobs jobID deps)) := by
      rw [Finds, reports, passes, ← depends_iff loading]
      constructor
      · exact And.left
      · exact fun found => ⟨found, fun none cyclic => none (sound cyclic)⟩
    exact ⟨exact, fun plain => exact.trans plain.mapped_iff⟩
  · intro _ cyclic
    exact sound (reports.mp cyclic)

/-- A table with one job, which has the dependencies `deps`. -/
def Jobs.lone (id : JobId) (deps : List JobId) : Jobs :=
  (Jobs.insertJob (fun _ => none) ⟨id, "t", "{}", priorityHigh, 3, none, deps⟩ 0).2

theorem toLower_toLower (letter : Char) : letter.toLower.toLower = letter.toLower := by
  delta Char.toLower
  split
  · rw [dif_neg]
    grind [UInt32.toNat_add, Char.toNat_val]
  · rfl

/-- Letters are printed in lower case. -/
def lowerCase : UuidText where
  print id := String.ofList (id.toList.map Char.toLower)
  print_print id := by
    simp only [String.toList_ofList, List.map_map]
    congr 2
    funext letter
    exact toLower_toLower letter

theorem lone_storedDeps (id node : JobId) (deps : List JobId) :
    storedDeps (Jobs.lone id deps) node = if node = id then deps else [] := by
  by_cases same : node = id
  · subst same
    simp [storedDeps, Jobs.lone, Jobs.insertJob, Row.created]
  · simp [storedDeps, Jobs.lone, Jobs.insertJob, Jobs.set, same]

/-- Lookups that do not fail and return rows as they are listed. -/
def Lookup.listed : Lookup := ⟨none, .listed⟩

def KahnOrders.listed : KahnOrders := ⟨.listed, .listed, .listed⟩

/-- A job without a row that is to depend on itself. -/
theorem validate_finds_cycles_once :
    validate lowerCase (Jobs.lone "a" []) (fun _ => .listed) .listed "b" ["b"] =
      some errCyclicDependency := by
  have plain : Plain lowerCase (Jobs.lone "a" []) "b" ["b"] := by
    refine ⟨rfl, fun dep listed => ?_, fun node dep stored => ?_⟩
    · rw [List.mem_singleton.mp listed]
      rfl
    · rw [Stored, lone_storedDeps] at stored
      split at stored <;> cases stored
  exact ((((validate_finds_cycles .listed (by decide) rfl).1 rfl).2 plain).mpr (.inr (.inl rfl))).1
    ⟨_, .refl, .single (proposed_root.mpr List.mem_cons_self)⟩

/-- The stored job is to depend on itself: its row hides the cycle.  And a job whose dependency names
it in upper case: the edge leads nowhere. -/
theorem validate_misses_cycle :
    ((∃ graph, loadFrom lowerCase (Jobs.lone "a" []) (fun _ => .listed) "a" ["a"] = .ok (graph, [])) ∧
      CyclicFrom (Proposed lowerCase (Jobs.lone "a" []) "a" ["a"]) (lowerCase.print "a") ∧
      validate lowerCase (Jobs.lone "a" []) (fun _ => .listed) .listed "a" ["a"] = none) ∧
    (∃ graph, loadFrom lowerCase (Jobs.lone "b" ["A"]) (fun _ => .listed) "a" ["b"] =
        .ok (graph, [])) ∧
      CyclicFrom (Proposed lowerCase (Jobs.lone "b" ["A"]) "a" ["b"]) (lowerCase.print "a") ∧
      validate lowerCase (Jobs.lone "b" ["A"]) (fun _ => .listed) .listed "a" ["b"] = none := by
  refine ⟨⟨⟨_, rfl⟩, ⟨_, .refl, .single (proposed_root.mpr List.mem_cons_self)⟩, rfl⟩, ⟨_, rfl⟩,
    ⟨"a", .refl, ?_⟩, rfl⟩
  have there : Proposed lowerCase (Jobs.lone "b" ["A"]) "a" ["b"] "a" "b" :=
    proposed_root.mpr List.mem_cons_self
  have back : Proposed lowerCase (Jobs.lone "b" ["A"]) "a" ["b"] "b" "a" :=
    (proposed_other (by decide +kernel)).mpr List.mem_cons_self
  exact (TransGen.single there).tail back

end Engine

end Taskfire
