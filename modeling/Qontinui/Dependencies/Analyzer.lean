import Mathlib.Data.List.Rotate
import Qontinui.Base.DepthFirst
import Qontinui.Workflow.ActionTypes

/-!
The analyzer of workflow dependencies: which workflows a workflow runs, directly or not, the
graph of all references with its cycles, depths and roots, and what a change of one workflow
would affect.

The recursive searches take fuel; `mentioned` bounds what they need.
-/

namespace Qontinui.Dependencies

/-- What the analyzer reads of an action. -/
structure Action where
  id : String
  type : ActionType
  /-- `config.workflowId`, where the type is `RUN_WORKFLOW`. -/
  workflowId : Option String

/-- What the analyzer reads of a workflow. -/
structure Workflow where
  id : String
  name : String
  category : Option String
  actions : List Action
  tags : Option (List String)

def isActionOfType (action : Action) (type : String) : Bool := action.type.name == type

/-- `set.add(item)`, of a set that keeps its items in order. -/
def add (set : List String) (item : String) : List String :=
  if item ∈ set then set else set ++ [item]

/-! ### Dependency detection -/

/-- The target of a `RUN_WORKFLOW` action, unless it is falsy. -/
def targetOf (action : Action) : Option String := action.workflowId.filter (· ≠ "")

/-- Find all `RUN_WORKFLOW` actions in a workflow. -/
def findRunWorkflowActions (workflow : Workflow) : List Action :=
  workflow.actions.filter (isActionOfType · "RUN_WORKFLOW")

def analyzeDependencies (workflow : Workflow) : List String :=
  workflow.actions.foldl (fun dependencies action =>
    if isActionOfType action "RUN_WORKFLOW" then
      match targetOf action with
      | some workflowId => add dependencies workflowId
      | none => dependencies
    else dependencies) []

def getDependencies (workflows : List Workflow) (workflowId : String) : List String :=
  match workflows.find? (·.id == workflowId) with
  | some workflow => analyzeDependencies workflow
  | none => []

def getDependents (workflows : List Workflow) (workflowId : String) : List String :=
  (workflows.filter fun workflow => workflowId ∈ analyzeDependencies workflow).map (·.id)

def mentioned (workflows : List Workflow) : List String :=
  workflows.map (·.id) ++ workflows.flatMap analyzeDependencies

def enough (workflows : List Workflow) : Nat := (mentioned workflows).length + 2

/-- What `getAllDependencies` and `getAllDependents` have in common: the ids found below one,
and the set of visited ids afterwards. -/
def getAll (direct : String → List String) :
    Nat → String → List String → Option (List String × List String)
  | 0, _, _ => none
  | fuel + 1, workflowId, visited =>
      if workflowId ∈ visited then some ([], visited)
      else
        (direct workflowId).foldlM (fun found dep => do
          let sub ← getAll direct fuel dep found.2
          return (sub.1.foldl add (add found.1 dep), sub.2)) ([], add visited workflowId)

def getAllDependencies (workflows : List Workflow) (workflowId : String) : Option (List String) :=
  (getAll (getDependencies workflows) (enough workflows) workflowId []).map (·.1)

def getAllDependents (workflows : List Workflow) (workflowId : String) : Option (List String) :=
  (getAll (getDependents workflows) (enough workflows) workflowId []).map (·.1)

/-! ### Circular dependencies -/

/-- `"->"` between the ids of a cycle that starts with its smallest id: `minText` is the text of
the smallest number among them, as `String(Math.min(...))` gives it. -/
def normalizeCycle (minText : List String → String) (cycle : List String) : String :=
  match cycle.idxOf? (minText cycle) with
  | some minIndex => "->".intercalate (cycle.drop minIndex ++ cycle.take minIndex)
  | none =>
      -- `slice(-1)`: the last id comes first
      "->".intercalate (cycle.drop (cycle.length - 1) ++ cycle.take (cycle.length - 1))

structure CycleSearch where
  cycles : List (List String)
  visited : List String
  recursionStack : List String

/-- A cycle is kept unless one with the same text is. -/
def recordCycle (minText : List String → String) (cycles : List (List String))
    (cycle : List String) : List (List String) :=
  if cycles.any (fun c => normalizeCycle minText c == normalizeCycle minText cycle) then cycles
  else cycles ++ [cycle]

/-- `new Map(workflows.map((w) => [w.id, w]))`. -/
def workflowMap (workflows : List Workflow) : ObjectMap Workflow :=
  workflows.foldl (fun map workflow => map.set workflow.id workflow) .empty

def searched (workflows : List Workflow) (workflowId : String) : List String :=
  match (workflowMap workflows).get? workflowId with
  | some workflow => analyzeDependencies workflow
  | none => []

def cycleDfs (minText : List String → String) (workflows : List Workflow) :
    Nat → String → List String → CycleSearch → Option CycleSearch
  | 0, _, _, _ => none
  | fuel + 1, workflowId, path, search =>
      if workflowId ∈ search.recursionStack then
        match path.idxOf? workflowId with
        | some cycleStart =>
            some { search with
              cycles := recordCycle minText search.cycles (path.drop cycleStart ++ [workflowId]) }
        | none => some search
      else if workflowId ∈ search.visited then some search
      else do
        let below ← (searched workflows workflowId).foldlM
          (fun search dep => cycleDfs minText workflows fuel dep (path ++ [workflowId]) search)
          { search with
            visited := add search.visited workflowId
            recursionStack := add search.recursionStack workflowId }
        return { below with recursionStack := below.recursionStack.filter (· ≠ workflowId) }

def findCircularDependencies (minText : List String → String) (workflows : List Workflow) :
    Option (List (List String)) :=
  (workflows.foldlM (fun (search : CycleSearch) workflow =>
    if workflow.id ∈ search.visited then some search
    else cycleDfs minText workflows (enough workflows) workflow.id [] search)
    ⟨[], [], []⟩).map (·.cycles)

/-! ### The dependency graph -/

structure DependencyNode where
  id : String
  name : String
  category : Option String
  dependencies : List String
  dependents : List String
  inDegree : Nat
  outDegree : Nat
  depth : Nat
  isCircular : Bool
  tags : Option (List String)

/-- A reference; `fromId` and `toId` are `from` and `to`. -/
structure DependencyEdge where
  fromId : String
  toId : String
  actionIds : List String
  isCyclic : Bool

structure DependencyGraph where
  nodes : ObjectMap DependencyNode
  edges : List DependencyEdge
  cycles : List (List String)
  roots : List String
  leaves : List String
  timestamp : Int

/-- The nodes and edges while they are built. -/
structure Links where
  nodes : ObjectMap DependencyNode
  edges : List DependencyEdge

def modify (nodes : ObjectMap DependencyNode) (id : String)
    (write : DependencyNode → DependencyNode) : ObjectMap DependencyNode :=
  match nodes.get? id with
  | some node => nodes.set id (write node)
  | none => nodes

/-- `edges.find((e) => e.from === from && e.to === to)` finds this edge. -/
def DependencyEdge.joins (edge : DependencyEdge) (fromId toId : String) : Bool :=
  edge.fromId == fromId && edge.toId == toId

/-- A write to the first edge that joins two ids. -/
def modifyEdge (fromId toId : String) (write : DependencyEdge → DependencyEdge) :
    List DependencyEdge → List DependencyEdge
  | [] => []
  | edge :: rest =>
      if edge.joins fromId toId then write edge :: rest
      else edge :: modifyEdge fromId toId write rest

def newNode (workflow : Workflow) : DependencyNode :=
  { id := workflow.id
    name := workflow.name
    category := workflow.category
    dependencies := []
    dependents := []
    inDegree := 0
    outDegree := 0
    depth := 0
    isCircular := false
    tags := workflow.tags }

def initializeNodes (workflows : List Workflow) : ObjectMap DependencyNode :=
  workflows.foldl (fun nodes workflow => nodes.set workflow.id (newNode workflow)) .empty

def addDependency (targetId : String) (node : DependencyNode) : DependencyNode :=
  if targetId ∈ node.dependencies then node
  else
    { node with
      dependencies := node.dependencies ++ [targetId]
      outDegree := node.outDegree + 1 }

def addDependent (sourceId : String) (node : DependencyNode) : DependencyNode :=
  if sourceId ∈ node.dependents then node
  else
    { node with
      dependents := node.dependents ++ [sourceId]
      inDegree := node.inDegree + 1 }

def addEdge (fromId toId actionId : String) (edges : List DependencyEdge) : List DependencyEdge :=
  if edges.any (·.joins fromId toId) then
    modifyEdge fromId toId
      (fun edge => { edge with actionIds := edge.actionIds ++ [actionId] }) edges
  else edges ++ [⟨fromId, toId, [actionId], false⟩]

/-- The body of the loop over the `RUN_WORKFLOW` actions of a workflow. -/
def addReference (workflowId : String) (links : Links) (action : Action) : Links :=
  match targetOf action with
  | none => links
  | some targetId =>
      { nodes := modify (modify links.nodes workflowId (addDependency targetId)) targetId
          (addDependent workflowId)
        edges := addEdge workflowId targetId action.id links.edges }

/-- Build edges and update dependencies and dependents. -/
def addReferences (workflows : List Workflow) (links : Links) : Links :=
  workflows.foldl (fun links workflow =>
    (findRunWorkflowActions workflow).foldl (addReference workflow.id) links) links

/-- `cycle[i]` and `cycle[(i + 1) % cycle.length]`, for every `i`. -/
def cyclePairs (cycle : List String) : List (String × String) := cycle.zip (cycle.rotate 1)

/-- Mark the edge between two ids as cyclic, and the node of the first as circular. -/
def markPair (links : Links) (pair : String × String) : Links :=
  { nodes := modify links.nodes pair.1 fun node => { node with isCircular := true }
    edges := modifyEdge pair.1 pair.2 (fun edge => { edge with isCyclic := true }) links.edges }

def markCycles (cycles : List (List String)) (links : Links) : Links :=
  cycles.foldl (fun links cycle => (cyclePairs cycle).foldl markPair links) links

/-! ### Depths -/

structure DepthSearch where
  visited : List String
  depths : ObjectMap Nat

/-- The search for the depth of one node: the depth it returns, and the state afterwards. -/
def depthDfs (edges : List DependencyEdge) (inCycle : List String) :
    Nat → String → Nat → DepthSearch → Option (Nat × DepthSearch)
  | 0, _, _, _ => none
  | fuel + 1, nodeId, currentDepth, search =>
      if nodeId ∈ search.visited then some ((search.depths.get? nodeId).getD 0, search)
      else do
        let below ← (edges.filter (·.fromId == nodeId)).foldlM
          (fun (found : Nat × DepthSearch) edge =>
            if edge.toId ∉ inCycle ∨ nodeId ∉ inCycle then do
              let child ← depthDfs edges inCycle fuel edge.toId (currentDepth + 1) found.2
              return (max found.1 child.1, child.2)
            else some found)
          (currentDepth, { search with visited := add search.visited nodeId })
        return (below.1, { below.2 with depths := below.2.depths.set nodeId below.1 })

def updateDepths (depths : ObjectMap Nat) (nodes : ObjectMap DependencyNode) :
    ObjectMap DependencyNode :=
  depths.entries.foldl (fun nodes entry =>
    modify nodes entry.1 fun node => { node with depth := entry.2 }) nodes

def calculateDepths (fuel : Nat) (nodes : ObjectMap DependencyNode) (edges : List DependencyEdge)
    (cycles : List (List String)) : Option (ObjectMap DependencyNode) := do
  let inCycle := cycles.flatten.foldl add []
  let leaves ← nodes.entries.foldlM (fun (search : DepthSearch) entry =>
    if entry.2.outDegree = 0 then (depthDfs edges inCycle fuel entry.1 0 search).map (·.2)
    else some search) ⟨[], .empty⟩
  let all ← nodes.entries.foldlM (fun (search : DepthSearch) entry =>
    if entry.1 ∉ search.visited then (depthDfs edges inCycle fuel entry.1 0 search).map (·.2)
    else some search) leaves
  return updateDepths all.depths nodes

/-! ### Building the graph -/

def freshGraph (minText : List String → String) (now : Int) (workflows : List Workflow) :
    Option DependencyGraph := do
  let links := addReferences workflows ⟨initializeNodes workflows, []⟩
  let cycles ← findCircularDependencies minText workflows
  let marked := markCycles cycles links
  let nodes ← calculateDepths (enough workflows) marked.nodes marked.edges cycles
  return {
    nodes := nodes
    edges := marked.edges
    cycles := cycles
    roots := (nodes.entries.filter fun entry => entry.2.inDegree == 0).map (·.1)
    leaves := (nodes.entries.filter fun entry => entry.2.outDegree == 0).map (·.1)
    timestamp := now }

structure Analyzer where
  cache : Option DependencyGraph
  cacheTimestamp : Int

def cacheTtl : Int := 5 * 60 * 1000

def Analyzer.cached (analyzer : Analyzer) (now : Int) (useCache : Bool) : Option DependencyGraph :=
  if useCache && decide (now - analyzer.cacheTimestamp < cacheTtl) then analyzer.cache else none

def Analyzer.invalidateCache (_ : Analyzer) : Analyzer := ⟨none, 0⟩

def buildDependencyGraph (minText : List String → String) (now : Int) (workflows : List Workflow)
    (useCache : Bool) (analyzer : Analyzer) : Option (DependencyGraph × Analyzer) :=
  match analyzer.cached now useCache with
  | some graph => some (graph, analyzer)
  | none => (freshGraph minText now workflows).map fun graph => (graph, ⟨some graph, now⟩)

/-! ### The dependency tree -/

inductive DependencyTree where
  | mk (workflowId : String) (dependencies : List DependencyTree) (depth : Nat) (isCircular : Bool)

def DependencyTree.depth : DependencyTree → Nat
  | .mk _ _ depth _ => depth

def buildDependencyTree (workflows : List Workflow) :
    Nat → String → List String → Nat → Option DependencyTree
  | 0, _, _, _ => none
  | fuel + 1, workflowId, visited, currentDepth =>
      if workflowId ∈ visited then some (.mk workflowId [] currentDepth true)
      else do
        let childTrees ← (getDependencies workflows workflowId).mapM fun depId =>
          buildDependencyTree workflows fuel depId (add visited workflowId) (currentDepth + 1)
        return .mk workflowId childTrees
          (childTrees.foldl (fun maxDepth tree => max maxDepth tree.depth) currentDepth) false

def getDependencyDepth (workflows : List Workflow) (workflowId : String) : Option Nat :=
  (buildDependencyTree workflows (enough workflows) workflowId [] 0).map (·.depth)

/-! ### Impact analysis -/

/-- One search after another, and what they save. -/
def searchEach (search : String → Option (List (List String))) (ids : List String) :
    Option (List (List String)) := (ids.mapM search).map List.flatten

/-- The paths that the search for critical paths saves below one node. -/
def findPathsThrough (nodes : ObjectMap DependencyNode) (workflowId : String) :
    Nat → String → List String → List String → Option (List (List String))
  | 0, _, _, _ => none
  | fuel + 1, currentId, visited, path =>
      if currentId ∈ visited then some []
      else if currentId = workflowId ∨ workflowId ∈ path ++ [currentId] then
        match nodes.get? currentId with
        | some node =>
            if node.inDegree = 0 then some [path ++ [currentId]]
            else
              searchEach (fun dependent => findPathsThrough nodes workflowId fuel dependent
                (add visited currentId) (path ++ [currentId])) node.dependents
        | none => some []
      else
        match nodes.get? currentId with
        | some node =>
            searchEach (fun dependency => findPathsThrough nodes workflowId fuel dependency
              (add visited currentId) (path ++ [currentId])) node.dependencies
        | none => some []

def findCriticalPaths (fuel : Nat) (graph : DependencyGraph) (workflowId : String) :
    Option (List (List String)) :=
  (searchEach (fun rootId => findPathsThrough graph.nodes workflowId fuel rootId [] [])
    graph.roots).map (·.take 10)

inductive ImpactLevel where
  | low
  | medium
  | high
  | critical
deriving DecidableEq, Repr

structure ImpactAnalysis where
  workflowId : String
  directDependents : List String
  allDependents : List String
  criticalPaths : List (List String)
  impactLevel : ImpactLevel
  affectedCount : Nat

def getImpactAnalysis (minText : List String → String) (now : Int) (workflowId : String)
    (workflows : List Workflow) (analyzer : Analyzer) : Option (ImpactAnalysis × Analyzer) := do
  let directDependents := getDependents workflows workflowId
  let allDependents ← getAllDependents workflows workflowId
  let built ← buildDependencyGraph minText now workflows true analyzer
  let criticalPaths ← findCriticalPaths (enough workflows) built.1 workflowId
  let affectedCount := allDependents.length
  let impactLevel : ImpactLevel :=
    if affectedCount = 0 then .low
    else if affectedCount ≤ 2 then .medium
    else if affectedCount ≤ 5 then .high
    else .critical
  return ({ workflowId, directDependents, allDependents, criticalPaths, impactLevel,
            affectedCount }, built.2)

end Qontinui.Dependencies
