import Taskfire.Library.Digraph
import Taskfire.Model.Dag

/-!
# Kahn's algorithm

`kahnSort` keeps, for every node, the number of its dependencies that are not in the order yet,
counted as often as they are listed.  A node joins the queue when that number falls to zero.  The
loop ends because every turn takes a node from the queue and only nodes with a dependency left can
join it; and when it ends with nodes left over, each of them still waits for another, which is a
cycle.
-/

namespace Taskfire

namespace Engine

open Taskfire.Library Relation

/-- `dep` is listed as a dependency of `node`. -/
def Depends (graph : DepGraph) (node dep : JobId) : Prop := dep ∈ graph.value node

/-- The node is a key of the graph or a dependency of one. -/
def Mentions (graph : DepGraph) (node : JobId) : Prop :=
  node ∈ graph.keys ∨ ∃ key, Depends graph key node

/-! ## In-degrees and dependents -/

/-- The edges of the listed nodes, each as often as it is listed. -/
def edgesOf (graph : DepGraph) (nodes : List JobId) : List (JobId × JobId) :=
  nodes.flatMap fun node => (graph.value node).map fun dep => (node, dep)

theorem mem_edgesOf {graph : DepGraph} {nodes : List JobId} {node dep : JobId} :
    (node, dep) ∈ edgesOf graph nodes ↔ node ∈ nodes ∧ Depends graph node dep := by
  simp [edgesOf, Depends]

theorem count_edgesOf (graph : DepGraph) {nodes : List JobId} (nodup : nodes.Nodup)
    (node dep : JobId) :
    (edgesOf graph nodes).count (node, dep) =
      if node ∈ nodes then (graph.value node).count dep else 0 := by
  induction nodes with
  | nil => simp [edgesOf]
  | cons head tail inductionHypothesis =>
    obtain ⟨fresh, nodup⟩ := List.nodup_cons.mp nodup
    have rest := inductionHypothesis nodup
    simp only [edgesOf, List.flatMap_cons, List.count_append] at rest ⊢
    rw [rest]
    by_cases same : node = head
    · subst same
      have mapped : ((graph.value node).map fun other => (node, other)).count (node, dep) =
          (graph.value node).count dep :=
        List.count_map_of_injective _ _ (fun _ _ equal => (Prod.mk.inj equal).2) dep
      simp [fresh, mapped]
    · have none : ((graph.value head).map fun other => (head, other)).count (node, dep) = 0 := by
        simp [List.count_eq_zero, Ne.symm same]
      simp [same, none]

theorem countP_edgesOf (graph : DepGraph) {nodes : List JobId} (nodup : nodes.Nodup)
    (node : JobId) :
    (edgesOf graph nodes).countP (fun edge => edge.1 = node) =
      if node ∈ nodes then (graph.value node).length else 0 := by
  induction nodes with
  | nil => simp [edgesOf]
  | cons head tail inductionHypothesis =>
    obtain ⟨fresh, nodup⟩ := List.nodup_cons.mp nodup
    have rest := inductionHypothesis nodup
    simp only [edgesOf, List.flatMap_cons, List.countP_append] at rest ⊢
    rw [rest]
    by_cases same : node = head
    · subst same
      simp [fresh, List.countP_map, Function.comp_def]
    · simp [same, List.countP_map, Function.comp_def, Ne.symm same]

/-- What the counters hold after a list of edges. -/
structure Counted (start : FiniteMap JobId Int) (edges : List (JobId × JobId))
    (counted : Degrees) : Prop where
  keys : ∀ node, node ∈ counted.inDegree.keys ↔
    node ∈ start.keys ∨ ∃ edge ∈ edges, node = edge.1 ∨ node = edge.2
  inDegree : ∀ node, counted.inDegree.value node =
    start.value node + edges.countP fun edge => edge.1 = node
  dependents : ∀ node dep, (counted.dependents.value dep).count node = edges.count (node, dep)

theorem mem_addNode {inDegree : FiniteMap JobId Int} {node other : JobId} :
    other ∈ (addNode inDegree node).keys ↔ other ∈ inDegree.keys ∨ other = node := by
  simp only [addNode]
  split
  · next present =>
    constructor
    · exact .inl
    · intro either
      obtain old | rfl := either
      · exact old
      · exact present
  · simp

@[simp] theorem addNode_value (inDegree : FiniteMap JobId Int) (node other : JobId) :
    (addNode inDegree node).value other = inDegree.value other := by
  simp only [addNode]
  split
  · rfl
  · next missing =>
    by_cases same : other = node
    · subst same
      simp [inDegree.absent other missing]
    · simp [same]

theorem Counted.snoc {start : FiniteMap JobId Int} {edges : List (JobId × JobId)}
    {before : Degrees} (counted : Counted start edges before) (node dep : JobId) :
    Counted start (edges ++ [(node, dep)]) (addEdge node before dep) := by
  constructor
  · intro other
    simp only [addEdge, FiniteMap.mem_set, mem_addNode, counted.keys, List.mem_append,
      List.mem_singleton]
    constructor
    -- Each new edge adds at most its two ends to the keys.
    · intro found
      obtain ((old | ⟨edge, listed, either⟩) | rfl) | rfl := found
      · exact .inl old
      · exact .inr ⟨edge, .inl listed, either⟩
      · exact .inr ⟨_, .inr rfl, .inr rfl⟩
      · exact .inr ⟨_, .inr rfl, .inl rfl⟩
    · intro found
      obtain old | ⟨edge, listed | rfl, either⟩ := found
      · exact .inl (.inl (.inl old))
      · exact .inl (.inl (.inr ⟨edge, listed, either⟩))
      · obtain rfl | rfl := either
        · exact .inr rfl
        · exact .inl (.inr rfl)
  · intro other
    -- The edge counts for its source only.
    have old := counted.inDegree other
    by_cases same : other = node
    · subst same
      simp [addEdge, old]
      omega
    · simp [addEdge, same, old, Ne.symm same]
  · intro other target
    have old := counted.dependents other target
    -- The edge is listed under its dependency only.
    by_cases same : target = dep
    · subst same
      by_cases equal : other = node
      · subst equal
        simp [addEdge, old]
      · simp [addEdge, old, Ne.symm equal]
    · simp [addEdge, same, old, Ne.symm same]

theorem counted_foldl {start : FiniteMap JobId Int} {before : List (JobId × JobId)}
    {degrees : Degrees} (counted : Counted start before degrees) (edges : List (JobId × JobId)) :
    Counted start (before ++ edges)
      (edges.foldl (fun degrees edge => addEdge edge.1 degrees edge.2) degrees) := by
  induction edges generalizing before degrees with
  | nil => simpa using counted
  | cons edge edges inductionHypothesis =>
    have rest := inductionHypothesis (counted.snoc edge.1 edge.2)
    simpa using rest

theorem foldl_addNode (nodes : List JobId) (start : FiniteMap JobId Int) :
    (∀ node, node ∈ (nodes.foldl addNode start).keys ↔ node ∈ start.keys ∨ node ∈ nodes) ∧
      ∀ node, (nodes.foldl addNode start).value node = start.value node := by
  induction nodes generalizing start with
  | nil => simp
  | cons head tail inductionHypothesis =>
    obtain ⟨keys, values⟩ := inductionHypothesis (addNode start head)
    constructor
    · intro node
      simp [keys, mem_addNode, or_assoc]
    · intro node
      simp [values]

/-- The counters before the loop: every node that is mentioned, with the number of its
dependencies, and for every dependency the nodes that list it. -/
structure DegreesOf (graph : DepGraph) (degrees : Degrees) : Prop where
  keys : ∀ node, node ∈ degrees.inDegree.keys ↔ Mentions graph node
  inDegree : ∀ node, degrees.inDegree.value node = (graph.value node).length
  dependents : ∀ node dep,
    (degrees.dependents.value dep).count node = (graph.value node).count dep

theorem DegreesOf.mem_dependents {graph : DepGraph} {degrees : Degrees}
    (spec : DegreesOf graph degrees) {node dep : JobId} :
    node ∈ degrees.dependents.value dep ↔ dep ∈ graph.value node := by
  rw [← List.count_pos_iff, spec.dependents, List.count_pos_iff]

theorem degrees_spec (orders : KahnOrders) (graph : DepGraph) :
    DegreesOf graph (degrees orders graph) := by
  obtain ⟨startKeys, startValues⟩ :=
    foldl_addNode (orders.nodes.visit graph.keys) FiniteMap.empty
  have empty : Counted ((orders.nodes.visit graph.keys).foldl addNode .empty) []
      ⟨(orders.nodes.visit graph.keys).foldl addNode .empty, .empty⟩ :=
    ⟨by simp, by simp, fun _ _ => List.count_nil⟩
  have counted := counted_foldl empty (edgesOf graph (orders.edges.visit graph.keys))
  rw [edgesOf, List.foldl_flatMap] at counted
  simp only [List.foldl_map, List.nil_append] at counted
  have nodup := orders.edges.nodup_visit graph.nodup
  -- A job that is no key has no dependencies, so the edges of the keys are all edges.
  have unlisted (node : JobId) (missing : node ∉ graph.keys) : graph.value node = [] :=
    graph.absent node missing
  constructor
  · intro node
    rw [degrees, counted.keys, startKeys]
    constructor
    · intro found
      obtain (none | key) | ⟨⟨from_, dep⟩, listed, either⟩ := found
      · cases none
      · exact .inl (orders.nodes.mem_visit.mp key)
      · obtain ⟨key, depends⟩ := mem_edgesOf.mp listed
        obtain rfl | rfl := either
        · exact .inl (orders.edges.mem_visit.mp key)
        · exact .inr ⟨from_, depends⟩
    · intro mentioned
      obtain key | ⟨key, depends⟩ := mentioned
      · exact .inl (.inr (orders.nodes.mem_visit.mpr key))
      · have listed : key ∈ graph.keys := FiniteMap.mem_of_value (List.ne_nil_of_mem depends)
        exact .inr ⟨(key, node), mem_edgesOf.mpr ⟨orders.edges.mem_visit.mpr listed, depends⟩,
          .inr rfl⟩
  · intro node
    have count := countP_edgesOf graph nodup node
    rw [degrees, counted.inDegree, startValues]
    simp only [edgesOf] at count
    rw [count]
    by_cases key : node ∈ graph.keys
    · simp [key, FiniteMap.empty]
    · simp [key, FiniteMap.empty, unlisted node key]
  · intro node dep
    have count := count_edgesOf graph nodup node dep
    rw [degrees, counted.dependents]
    simp only [edgesOf] at count
    rw [count]
    by_cases key : node ∈ graph.keys
    · simp [key]
    · simp [key, unlisted node key]

/-! ## The loop ends -/

/-- How many nodes still have a dependency left. -/
def positives (inDegree : FiniteMap JobId Int) : List JobId :=
  inDegree.keys.filter fun node => 0 < inDegree.value node

theorem positives_nodup (inDegree : FiniteMap JobId Int) : (positives inDegree).Nodup :=
  inDegree.nodup.filter _

theorem mem_positives {inDegree : FiniteMap JobId Int} {node : JobId} :
    node ∈ positives inDegree ↔ 0 < inDegree.value node := by
  simp only [positives, List.mem_filter, decide_eq_true_eq]
  constructor
  · exact And.right
  · intro positive
    refine ⟨FiniteMap.mem_of_value ?_, positive⟩
    show inDegree.value node ≠ 0
    omega

/-- Giving up one dependency never adds to the nodes the loop may still visit: the node that joins
the queue had one left before. -/
theorem pending_release (sorting : Sorting) (dependent : JobId) :
    (release sorting dependent).pending ≤ sorting.pending := by
  let inDegree := sorting.inDegree.set dependent (sorting.inDegree.value dependent - 1)
  have fewer : positives inDegree ⊆ positives sorting.inDegree := by
    intro node member
    rw [mem_positives] at member ⊢
    simp only [inDegree, FiniteMap.set_value] at member
    split at member
    · next same =>
      subst same
      omega
    · exact member
  show (release sorting dependent).bfsQueue.length + (positives inDegree).length ≤
    sorting.bfsQueue.length + (positives sorting.inDegree).length
  simp only [release]
  split
  · next zero =>
    simp only [FiniteMap.set_value, if_true] at zero
    -- The node leaves the one part of the measure and joins the other.
    have left : dependent ∉ positives inDegree := by
      rw [mem_positives]
      simp [inDegree, zero]
    have was : dependent ∈ positives sorting.inDegree := by
      rw [mem_positives]
      omega
    have shorter := (List.nodup_cons.mpr ⟨left, positives_nodup inDegree⟩).subperm
      (List.cons_subset.mpr ⟨was, fewer⟩) |>.length_le
    simp only [List.length_cons] at shorter
    simp only [List.length_append, List.length_singleton]
    omega
  · have shorter := ((positives_nodup inDegree).subperm fewer).length_le
    omega

theorem pending_foldl (dependents : List JobId) (sorting : Sorting) :
    (dependents.foldl release sorting).pending ≤ sorting.pending := by
  induction dependents generalizing sorting with
  | nil => exact Nat.le_refl _
  | cons head tail inductionHypothesis =>
    exact (inductionHypothesis (release sorting head)).trans (pending_release sorting head)

theorem pending_decreases (dependents : FiniteMap JobId (List JobId)) (sorting next : Sorting)
    (visited : visitNext dependents sorting = some next) : next.pending < sorting.pending := by
  simp only [visitNext] at visited
  split at visited
  · cases visited
  · next node rest queue =>
    cases visited
    refine Nat.lt_of_le_of_lt (pending_foldl _ _) ?_
    simp [Sorting.pending, queue]

/-- The loop ends by itself, with an empty queue. -/
theorem sorted_ends (orders : KahnOrders) (graph : DepGraph) :
    visitNext (degrees orders graph).dependents (sorted orders graph) = none :=
  Loop.run_ends (pending_decreases _) _

/-! ## What one turn does -/

/-- The queue after the dependents in `released` each lost a dependency. -/
structure Released (before : Sorting) (released : List JobId) (after : Sorting) : Prop where
  order : after.order = before.order
  keys : ∀ node, node ∈ before.inDegree.keys ∨ node ∈ released ↔ node ∈ after.inDegree.keys
  inDegree : ∀ node, after.inDegree.value node = before.inDegree.value node - released.count node
  queue : ∃ fresh, after.bfsQueue = before.bfsQueue ++ fresh ∧ fresh.Nodup ∧
    ∀ node, node ∈ fresh ↔ node ∈ released ∧ before.inDegree.value node = released.count node

theorem released_foldl (dependents : List JobId) (sorting : Sorting)
    (enough : ∀ node, (dependents.count node : Int) ≤ sorting.inDegree.value node) :
    Released sorting dependents (dependents.foldl release sorting) := by
  induction dependents generalizing sorting with
  | nil => exact ⟨rfl, by simp, by simp, [], by simp⟩
  | cons head tail inductionHypothesis =>
    have values (node : JobId) : (release sorting head).inDegree.value node =
        sorting.inDegree.value node - if node = head then 1 else 0 := by
      by_cases same : node = head
      · subst same
        simp [release]
      · simp [release, same]
    have counts (node : JobId) : ((head :: tail).count node : Int) =
        tail.count node + if node = head then 1 else 0 := by
      by_cases same : node = head
      · subst same
        simp
      · simp [same, Ne.symm same]
    -- The head takes its part of the count, so that the tail still finds enough.
    have spec := inductionHypothesis (release sorting head) (by
      intro node
      have bound := enough node
      have value := values node
      have count := counts node
      omega)
    constructor
    · rw [List.foldl_cons, spec.order]
      rfl
    · intro node
      rw [List.foldl_cons, ← spec.keys]
      simp [release, or_assoc]
    · intro node
      rw [List.foldl_cons, spec.inDegree, values, counts]
      omega
    · obtain ⟨fresh, queue, nodup, members⟩ := spec.queue
      have headBound := enough head
      have headCount := counts head
      have headValue := values head
      simp only [if_true] at headCount headValue
      by_cases zero : sorting.inDegree.value head = 1
      · -- The head joins the queue now, and no later dependent joins it again.
        have last : head ∉ fresh := by
          rw [members]
          intro both
          have again := List.count_pos_iff.mpr both.1
          omega
        refine ⟨head :: fresh, ?_, List.nodup_cons.mpr ⟨last, nodup⟩, ?_⟩
        · rw [List.foldl_cons, queue]
          simp [release, zero]
        · intro node
          by_cases same : node = head
          · subst same
            simp
            omega
          · have value := values node
            have count := counts node
            rw [if_neg same] at value count
            rw [List.mem_cons, List.mem_cons, members, value, count]
            simp [same]
      -- The head is not done yet; whether it joins the queue is decided in the tail.
      · refine ⟨fresh, ?_, nodup, ?_⟩
        · rw [List.foldl_cons, queue]
          have more : sorting.inDegree.value head - 1 ≠ 0 := by omega
          simp [release, more]
        · intro node
          have value := values node
          have count := counts node
          by_cases same : node = head
          · subst same
            rw [if_pos rfl] at value count
            rw [members, value, count]
            constructor
            · intro both
              exact ⟨List.mem_cons_self, by omega⟩
            · intro both
              exact ⟨List.count_pos_iff.mp (by omega), by omega⟩
          · rw [if_neg same] at value count
            rw [List.mem_cons, members, value, count]
            simp [same]

/-! ## The loop's invariant -/

/-- Every node comes after all of its dependencies. -/
def Ordered (graph : DepGraph) (order : List JobId) : Prop :=
  ∀ earlier node later, order = earlier ++ node :: later →
    ∀ dep, Depends graph node dep → dep ∈ earlier

structure Progress (graph : DepGraph) (sorting : Sorting) : Prop where
  keys : ∀ node, node ∈ sorting.inDegree.keys ↔ Mentions graph node
  inDegree : ∀ node, sorting.inDegree.value node =
    (graph.value node).countP fun dep => dep ∉ sorting.order
  visited : ∀ node, node ∈ sorting.order ++ sorting.bfsQueue ↔
    Mentions graph node ∧ sorting.inDegree.value node = 0
  nodup : (sorting.order ++ sorting.bfsQueue).Nodup
  ordered : Ordered graph sorting.order

variable {graph : DepGraph}

theorem Ordered.snoc {order : List JobId} {node : JobId} (ordered : Ordered graph order)
    (ready : ∀ dep, Depends graph node dep → dep ∈ order) : Ordered graph (order ++ [node]) := by
  intro earlier other later split dep depends
  -- The node is the new one, or it stands in the old order with one node fewer after it.
  obtain rfl | ⟨rest, last, rfl⟩ := List.eq_nil_or_concat later
  · obtain ⟨rfl, same⟩ := List.append_inj' split rfl
    cases same
    exact ready dep depends
  · have shorter : order ++ [node] = (earlier ++ other :: rest) ++ [last] := by simpa using split
    obtain ⟨prefix_, -⟩ := List.append_inj' shorter rfl
    exact ordered earlier other rest prefix_ dep depends

/-- Visiting a node settles its dependency wherever it is listed. -/
theorem countP_snoc {order : List JobId} {node : JobId} (fresh : node ∉ order)
    (deps : List JobId) :
    deps.countP (fun dep => dep ∉ order) =
      deps.countP (fun dep => dep ∉ order ++ [node]) + deps.count node := by
  induction deps with
  | nil => rfl
  | cons head tail inductionHypothesis =>
    simp only [List.countP_cons, List.count_cons, inductionHypothesis]
    by_cases same : head = node
    · subst same
      simp [fresh]
      omega
    · by_cases old : head ∈ order
      · simp [old, same]
      · simp [old, same]
        omega

theorem seeded_progress (orders : KahnOrders) (graph : DepGraph) :
    Progress graph (seeded orders (degrees orders graph).inDegree) := by
  have spec := degrees_spec orders graph
  constructor
  · exact spec.keys
  · intro node
    simp [seeded, spec.inDegree]
  · intro node
    simp [seeded, spec.keys]
  · exact (orders.seeds.nodup_visit (FiniteMap.nodup _)).filter _
  · intro earlier node later split
    simp [seeded] at split

theorem visitNext_progress {orders : KahnOrders} {before after : Sorting}
    (progress : Progress graph before)
    (visited : visitNext (degrees orders graph).dependents before = some after) :
    Progress graph after := by
  have spec := degrees_spec orders graph
  simp only [visitNext] at visited
  split at visited
  · cases visited
  next node rest queue =>
  cases visited
  have nodup := progress.nodup
  rw [queue] at nodup
  have fresh : node ∉ before.order :=
    fun old => (List.nodup_append.mp nodup).2.2 node old node List.mem_cons_self rfl
  have zero : before.inDegree.value node = 0 :=
    ((progress.visited node).mp (by simp [queue])).2
  -- A node loses the visited dependency as often as it lists it, and it lists it only where it
  -- still counts.
  have split (other : JobId) := countP_snoc fresh (graph.value other)
  have listed := fun other => spec.dependents other node
  have released := released_foldl ((degrees orders graph).dependents.value node)
    { before with bfsQueue := rest, order := before.order ++ [node] } (by
      intro other
      show _ ≤ before.inDegree.value other
      rw [progress.inDegree, listed, split]
      omega)
  obtain ⟨queued, queueEq, queuedNodup, members⟩ := released.queue
  have values (other : JobId) : ((degrees orders graph).dependents.value node |>.foldl release
      { before with bfsQueue := rest, order := before.order ++ [node] }).inDegree.value other =
      before.inDegree.value other - (graph.value other).count node := by
    rw [released.inDegree, listed]
  constructor
  · intro other
    rw [← released.keys, ← progress.keys]
    constructor
    · intro found
      obtain old | dependent := found
      · exact old
      · have depends : node ∈ graph.value other := spec.mem_dependents.mp dependent
        exact (progress.keys other).mpr (.inl (FiniteMap.mem_of_value (List.ne_nil_of_mem depends)))
    · exact .inl
  · intro other
    rw [values, released.order, progress.inDegree, split other]
    simp
  · intro other
    rw [released.order, queueEq, values]
    have old := progress.visited other
    rw [queue] at old
    have new := members other
    rw [listed] at new
    have count := progress.inDegree other
    rw [split other] at count
    have shuffle : other ∈ (before.order ++ [node]) ++ (rest ++ queued) ↔
        other ∈ before.order ++ node :: rest ∨ other ∈ queued := by
      simp [or_assoc]
    rw [shuffle, old, new]
    constructor
    · intro found
      obtain ⟨mentioned, none⟩ | ⟨dependent, equal⟩ := found
      · exact ⟨mentioned, by omega⟩
      · have depends : node ∈ graph.value other := spec.mem_dependents.mp dependent
        refine ⟨.inl (FiniteMap.mem_of_value (List.ne_nil_of_mem depends)), ?_⟩
        show before.inDegree.value other - _ = 0
        have equal' : before.inDegree.value other = (graph.value other).count node := equal
        omega
    · intro both
      obtain ⟨mentioned, none⟩ := both
      by_cases depends : node ∈ graph.value other
      · refine .inr ⟨spec.mem_dependents.mpr depends, ?_⟩
        show before.inDegree.value other = _
        omega
      · have absent := List.count_eq_zero.mpr depends
        exact .inl ⟨mentioned, by omega⟩
  · rw [released.order, queueEq]
    have shuffle : before.order ++ [node] ++ (rest ++ queued) =
        (before.order ++ node :: rest) ++ queued := by simp
    show (before.order ++ [node] ++ (rest ++ queued)).Nodup
    rw [shuffle, List.nodup_append]
    refine ⟨nodup, queuedNodup, ?_⟩
    intro other old again member same
    subst same
    -- A node of the queue has no dependency left to lose.
    rw [← queue] at old
    have none := ((progress.visited other).mp old).2
    obtain ⟨dependent, equal⟩ := (members other).mp member
    have equal' : before.inDegree.value other = _ := equal
    have positive := List.count_pos_iff.mpr dependent
    omega
  · rw [released.order]
    apply progress.ordered.snoc
    intro dep depends
    have count := progress.inDegree node
    rw [zero] at count
    have all : (graph.value node).countP (fun dep => dep ∉ before.order) = 0 := by omega
    have settled := List.countP_eq_zero.mp all dep depends
    simpa using settled

theorem sorted_progress (orders : KahnOrders) (graph : DepGraph) :
    Progress graph (sorted orders graph) :=
  Loop.run_invariant (Progress graph) (seeded_progress orders graph)
    fun _ _ progress visited => visitNext_progress progress visited

/-! ## The result -/

theorem not_cyclic_of_ordered {order : List JobId} (ordered : Ordered graph order)
    (covers : ∀ node dep, Depends graph node dep → node ∈ order) : ¬ Cyclic (Depends graph) := by
  apply not_cyclic_of_rank order.idxOf
  intro node dep depends
  -- Along an edge the position in the order falls.
  obtain ⟨earlier, later, split, first⟩ :=
    List.eq_append_cons_of_mem (covers node dep depends)
  have before := ordered earlier node later split dep depends
  rw [split, List.idxOf_append_of_mem before, List.idxOf_append_of_notMem first,
    List.idxOf_cons_self]
  have bound := List.idxOf_lt_length_iff.mpr before
  omega

/-- A node that was not visited waits for another one, so what is left over holds a cycle. -/
theorem cyclic_of_left {sorting : Sorting} (progress : Progress graph sorting)
    (empty : sorting.bfsQueue = []) {node : JobId} (mentioned : Mentions graph node)
    (left : node ∉ sorting.order) : Cyclic (Depends graph) := by
  let stuck := sorting.inDegree.keys.filter fun node => node ∉ sorting.order
  have mem (node : JobId) : node ∈ stuck ↔ Mentions graph node ∧ node ∉ sorting.order := by
    simp [stuck, progress.keys]
  refine cyclic_of_stuck (List.ne_nil_of_mem ((mem node).mpr ⟨mentioned, left⟩)) ?_
  intro node member
  obtain ⟨mentioned, left⟩ := (mem node).mp member
  -- With an empty queue every node that is left has a dependency that is left.
  have waits : sorting.inDegree.value node ≠ 0 := by
    intro zero
    have visited := (progress.visited node).mpr ⟨mentioned, zero⟩
    rw [empty, List.append_nil] at visited
    exact left visited
  rw [progress.inDegree] at waits
  have positive : 0 < (graph.value node).countP fun dep => dep ∉ sorting.order := by omega
  obtain ⟨dep, depends, unvisited⟩ := List.countP_pos_iff.mp positive
  exact ⟨dep, (mem dep).mpr ⟨.inr ⟨node, depends⟩, by simpa using unvisited⟩, depends⟩

/-- The order covers the graph exactly when its length is the number of nodes. -/
theorem covers_iff_length {sorting : Sorting} (progress : Progress graph sorting)
    (empty : sorting.bfsQueue = []) :
    sorting.order.length = sorting.inDegree.keys.length ↔
      ∀ node, node ∈ sorting.order ↔ Mentions graph node := by
  have nodup := progress.nodup
  rw [empty, List.append_nil] at nodup
  have inside : sorting.order ⊆ sorting.inDegree.keys := by
    intro node visited
    have both := (progress.visited node).mp (List.mem_append_left _ visited)
    exact (progress.keys node).mpr both.1
  constructor
  · intro same node
    have perm := (nodup.subperm inside).perm_of_length_le (Nat.le_of_eq same.symm)
    rw [perm.mem_iff, progress.keys]
  · intro covers
    apply List.Perm.length_eq
    rw [List.perm_ext_iff_of_nodup nodup sorting.inDegree.nodup]
    intro node
    rw [covers, progress.keys]

/-- `kahnSort` ends, in whatever orders the maps are iterated.  It fails exactly on a cyclic graph,
and otherwise lists every node once, after all of its dependencies. -/
theorem kahnSort_sorts (orders : KahnOrders) (graph : DepGraph) :
    visitNext (degrees orders graph).dependents (sorted orders graph) = none ∧
      (Cyclic (Depends graph) ∧ kahnSort orders graph = .error errCyclicDependency ∨
        ¬ Cyclic (Depends graph) ∧ ∃ order, kahnSort orders graph = .ok order ∧ order.Nodup ∧
          (∀ node, node ∈ order ↔ Mentions graph node) ∧ Ordered graph order) := by
  have ends := sorted_ends orders graph
  refine ⟨ends, ?_⟩
  have progress := sorted_progress orders graph
  have empty : (sorted orders graph).bfsQueue = [] := by
    simp only [visitNext] at ends
    split at ends
    · assumption
    · cases ends
  have covered := covers_iff_length progress empty
  by_cases same : (sorted orders graph).order.length = (sorted orders graph).inDegree.keys.length
  · have covers := covered.mp same
    refine .inr ⟨?_, (sorted orders graph).order, ?_, ?_, covers, progress.ordered⟩
    · apply not_cyclic_of_ordered progress.ordered
      intro node dep depends
      exact (covers node).mpr (.inl (FiniteMap.mem_of_value (List.ne_nil_of_mem depends)))
    · simp [kahnSort, same]
    · have nodup := progress.nodup
      rw [empty, List.append_nil] at nodup
      exact nodup
  · refine .inl ⟨?_, by simp [kahnSort, same]⟩
    -- A node left behind depends on one left behind, and so on in a circle.
    by_contra acyclic
    apply same
    rw [covered]
    intro node
    constructor
    · intro visited
      exact ((progress.visited node).mp (List.mem_append_left _ visited)).1
    · intro mentioned
      by_contra left
      exact acyclic (cyclic_of_left progress empty mentioned left)

end Engine

end Taskfire
