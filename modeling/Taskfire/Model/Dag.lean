import Taskfire.Library.FiniteMap
import Taskfire.Library.Loop
import Taskfire.Model.Processor

/-!
# The dependency engine

`Engine.Validate` (`worker/dag/dependency.go`): loads the dependencies of a job level by level and
sorts the graph it has loaded with Kahn's algorithm.  Rows come back in an order of the database's
choice, and a `range` over a map visits its keys in an order of the runtime's choice; both are
`Iteration`s here.
-/

namespace Taskfire

open Taskfire.Library

/-- How Postgres prints the UUID that a text stands for.  Texts of one UUID may differ, in the case of
their letters for one. -/
structure UuidText where
  print : JobId → JobId
  print_print : ∀ id, print (print id) = print id

/-- `SELECT id, dependencies FROM jobs WHERE id = ANY($1)`: the column `id` is a UUID and is compared as
such, the dependencies are what was posted. -/
def Jobs.dependencyRows (uuid : UuidText) (jobs : Jobs) (ids : List JobId) :
    List (JobId × List JobId) :=
  (ids.map uuid.print).dedup.filterMap fun id => (jobs id).map fun row => (id, row.dependencies)

namespace Engine

def errCyclicDependency : GoError := ⟨"dependency graph contains a cycle", none⟩

def maxGraphDepth : Nat := 50

/-- The direct dependencies of each job. -/
abbrev DepGraph := FiniteMap JobId (List JobId)

/-- Keeps the first of equal ids. -/
def unique (ids : List JobId) : List JobId :=
  ids.foldl (fun out id => if id ∈ out then out else out ++ [id]) []

/-! ## Loading the graph -/

/-- What the search has found so far, and the ids it looks up next. -/
structure Search where
  graph : DepGraph
  seen : List JobId
  nextFrontier : List JobId

/-- How one lookup can fail: in the query, which also refuses an id that is no UUID, in a row, or after
the last row. -/
inductive LookupError where
  | query (error : StoreError)
  | scan (error : StoreError)
  | iterate (error : StoreError)

def LookupError.toGo (depth : Nat) : LookupError → GoError
  | .query error => error.toGo.wrap ("load deps at depth " ++ toString depth)
  | .scan error => error.toGo.wrap "scan dep row"
  | .iterate error => error.toGo.wrap ("iterate dep rows at depth " ++ toString depth)

/-- The choices of the database behind one lookup. -/
structure Lookup where
  failure : Option LookupError
  rows : Iteration (JobId × List JobId)

def visitDep (search : Search) (dep : JobId) : Search :=
  if dep ∈ search.seen then search
  else { search with seen := dep :: search.seen, nextFrontier := search.nextFrontier ++ [dep] }

/-- The loop over the rows of one lookup. -/
def scanRow (search : Search) (row : JobId × List JobId) : Search :=
  let deps := unique row.2
  deps.foldl visitDep { search with graph := search.graph.set row.1 deps }

/-- The loop over the levels, with the number of levels that may still be loaded.  It ends with the
graph and the ids that were not looked up any more. -/
def loadLevels (uuid : UuidText) (jobs : Jobs) (lookups : Nat → Lookup) (search : Search) :
    Nat → List JobId → Except GoError (DepGraph × List JobId)
  | 0, frontier => .ok (search.graph, frontier)
  | _ + 1, [] => .ok (search.graph, [])
  | levels + 1, id :: ids =>
    let depth := maxGraphDepth - (levels + 1)
    match (lookups depth).failure with
    | some failure => .error (failure.toGo depth)
    | none =>
      let rows := (lookups depth).rows.visit (jobs.dependencyRows uuid (id :: ids))
      let search := rows.foldl scanRow { search with nextFrontier := [] }
      loadLevels uuid jobs lookups search levels search.nextFrontier

/-- `loadGraph` with the frontier it stops at; the source only logs that one is left. -/
def loadFrom (uuid : UuidText) (jobs : Jobs) (lookups : Nat → Lookup) (rootID : JobId)
    (rootDeps : List JobId) : Except GoError (DepGraph × List JobId) :=
  let graph := FiniteMap.empty.set rootID (unique rootDeps)
  loadLevels uuid jobs lookups ⟨graph, [rootID], []⟩ maxGraphDepth (unique rootDeps)

def loadGraph (uuid : UuidText) (jobs : Jobs) (lookups : Nat → Lookup) (rootID : JobId)
    (rootDeps : List JobId) : Except GoError DepGraph :=
  (loadFrom uuid jobs lookups rootID rootDeps).map Prod.fst

/-! ## Kahn's algorithm -/

/-- The orders of the three loops of `kahnSort` over maps. -/
structure KahnOrders where
  nodes : Iteration JobId
  edges : Iteration JobId
  seeds : Iteration JobId

/-- The in-degrees, and the nodes that depend on each node. -/
structure Degrees where
  inDegree : FiniteMap JobId Int
  dependents : FiniteMap JobId (List JobId)

def addNode (inDegree : FiniteMap JobId Int) (node : JobId) : FiniteMap JobId Int :=
  if node ∈ inDegree.keys then inDegree else inDegree.set node 0

def addEdge (node : JobId) (degrees : Degrees) (dep : JobId) : Degrees :=
  let inDegree := addNode degrees.inDegree dep
  { inDegree := inDegree.set node (inDegree.value node + 1)
    dependents := degrees.dependents.set dep (degrees.dependents.value dep ++ [node]) }

def degrees (orders : KahnOrders) (graph : DepGraph) : Degrees :=
  let inDegree := (orders.nodes.visit graph.keys).foldl addNode .empty
  (orders.edges.visit graph.keys).foldl
    (fun degrees node => (graph.value node).foldl (addEdge node) degrees) ⟨inDegree, .empty⟩

/-- The variables of the loop. -/
structure Sorting where
  inDegree : FiniteMap JobId Int
  bfsQueue : List JobId
  order : List JobId

def release (sorting : Sorting) (dependent : JobId) : Sorting :=
  let inDegree := sorting.inDegree.set dependent (sorting.inDegree.value dependent - 1)
  { sorting with
    inDegree
    bfsQueue :=
      if inDegree.value dependent = 0 then sorting.bfsQueue ++ [dependent] else sorting.bfsQueue }

/-- The body of the loop, which ends when the queue is empty. -/
def visitNext (dependents : FiniteMap JobId (List JobId)) (sorting : Sorting) : Option Sorting :=
  match sorting.bfsQueue with
  | [] => none
  | node :: rest =>
    some ((dependents.value node).foldl release
      { sorting with bfsQueue := rest, order := sorting.order ++ [node] })

/-- The nodes the loop may still visit: those in the queue, and those with a dependency left. -/
def Sorting.pending (sorting : Sorting) : Nat :=
  sorting.bfsQueue.length +
    (sorting.inDegree.keys.filter fun node => 0 < sorting.inDegree.value node).length

def seeded (orders : KahnOrders) (inDegree : FiniteMap JobId Int) : Sorting where
  inDegree := inDegree
  bfsQueue := (orders.seeds.visit inDegree.keys).filter fun node => inDegree.value node = 0
  order := []

/-- The loop's variables at its end. -/
def sorted (orders : KahnOrders) (graph : DepGraph) : Sorting :=
  let ⟨inDegree, dependents⟩ := degrees orders graph
  Loop.run (visitNext dependents) Sorting.pending (seeded orders inDegree)

def kahnSort (orders : KahnOrders) (graph : DepGraph) : Except GoError (List JobId) :=
  let final := sorted orders graph
  -- Nodes on a cycle never reach in-degree zero, so they are missing from the order.
  if final.order.length ≠ final.inDegree.keys.length then .error errCyclicDependency
  else .ok final.order

/-! ## Validation -/

/-- `nil` of the source is `none`. -/
def validate (uuid : UuidText) (jobs : Jobs) (lookups : Nat → Lookup) (orders : KahnOrders)
    (jobID : JobId) (deps : List JobId) : Option GoError :=
  if deps = [] then none
  else
    match loadGraph uuid jobs lookups jobID deps with
    | .error error => some (error.wrap ("load dependency graph for job " ++ jobID))
    | .ok graph =>
      match kahnSort orders graph with
      | .error error => some error
      | .ok _ => none

end Engine

end Taskfire
