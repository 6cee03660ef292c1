import Mathlib.Data.List.Nodup
import Qontinui.Base.ParentLinks

/-!
The tree of an execution, rebuilt from the events that a runner reports: the first event of a
node says its parent, the links are made once all events are read, and the roots are the nodes
whose parent is none of them.
-/

namespace Qontinui.Execution

open ParentLinks

inductive NodeType where
  | workflow
  | action
  | transition
deriving DecidableEq, Repr

inductive NodeStatus where
  | pending
  | running
  | success
  | failed
deriving DecidableEq, Repr

/-- What `get_execution_tree` reads of an event. -/
structure ExecutionTreeEvent (Time Metadata : Type) where
  nodeId : String
  nodeType : NodeType
  nodeName : String
  parentNodeId : Option String
  status : NodeStatus
  errorMessage : Option String
  nodeStartTimestamp : Option Time
  nodeEndTimestamp : Option Time
  durationMs : Option Time
  nodeMetadata : Option Metadata

/-- The entry of a node in `nodes`. -/
structure NodeData (Time Metadata : Type) where
  id : String
  nodeType : NodeType
  name : String
  parentId : Option String
  status : NodeStatus
  error : Option String
  timestamp : Option Time
  endTimestamp : Option Time
  durationMs : Option Time
  metadata : Option Metadata
  childrenIds : List String

inductive DisplayNode (Time Shown : Type) where
  | mk (id : String) (nodeType : NodeType) (name : String) (timestamp : Time)
      (endTimestamp duration : Option Time) (status : NodeStatus) (metadata : Shown)
      (error : Option String) (children : List (DisplayNode Time Shown)) (isExpanded : Bool)
      (level : Nat)

/-- The arithmetic of floats, and the metadata that a node shows. -/
structure Schema (Time Metadata Shown : Type) where
  zero : Time
  isZero : Time → Bool
  /-- `ms / 1000`. -/
  seconds : Time → Time
  /-- `(max(ends) - min(starts)) * 1000`. -/
  elapsed : List Time → List Time → Time
  /-- `SchemaNodeMetadata(**metadata)`, or the default. -/
  shown : Option Metadata → Shown

inductive TreeError where
  | recursionError
  | keyError
deriving DecidableEq, Repr

structure ExecutionTreeResponse (Time Shown : Type) where
  rootNodes : List (DisplayNode Time Shown)
  totalEvents : Nat
  status : NodeStatus
  durationMs : Option Time

section Service

variable {Time Metadata Shown : Type} (schema : Schema Time Metadata Shown)

def Schema.truthy (time : Option Time) : Option Time := time.filter fun t => !schema.isZero t

def truthyText (text : Option String) : Option String := text.filter (· ≠ "")

def newNode (event : ExecutionTreeEvent Time Metadata) : NodeData Time Metadata :=
  { id := event.nodeId
    nodeType := event.nodeType
    name := event.nodeName
    parentId := event.parentNodeId
    status := event.status
    error := event.errorMessage
    timestamp := event.nodeStartTimestamp
    endTimestamp := event.nodeEndTimestamp
    durationMs := event.durationMs
    metadata := event.nodeMetadata
    childrenIds := [] }

def updateNode (event : ExecutionTreeEvent Time Metadata) (node : NodeData Time Metadata) :
    NodeData Time Metadata :=
  { node with
    status := event.status
    error := (truthyText event.errorMessage).or node.error
    endTimestamp := (schema.truthy event.nodeEndTimestamp).or node.endTimestamp
    durationMs := (schema.truthy event.durationMs).or node.durationMs }

/-- `node_id in nodes`. -/
def hasNode (nodes : List (NodeData Time Metadata)) (id : String) : Bool :=
  nodes.any fun node => node.id == id

def addEvent (nodes : List (NodeData Time Metadata)) (event : ExecutionTreeEvent Time Metadata) :
    List (NodeData Time Metadata) :=
  if hasNode nodes event.nodeId then
    nodes.map fun node => if node.id = event.nodeId then updateNode schema event node else node
  else nodes ++ [newNode event]

/-- `parent_id and parent_id in nodes`, with the parent. -/
def linkOf (nodes : List (NodeData Time Metadata)) (node : NodeData Time Metadata) :
    Option String := (truthyText node.parentId).filter (hasNode nodes)

/-- `nodes[parent_id]["children_ids"].append(node_id)`. -/
def appendChild (nodes : List (NodeData Time Metadata)) (child parent : String) :
    List (NodeData Time Metadata) :=
  nodes.map fun node =>
    if node.id = parent then { node with childrenIds := node.childrenIds ++ [child] } else node

def linkChildren (nodes : List (NodeData Time Metadata)) : List (NodeData Time Metadata) :=
  nodes.foldl (fun linked node =>
    match linkOf nodes node with
    | some parent => appendChild linked node.id parent
    | none => linked) nodes

def buildDisplayNode (node : NodeData Time Metadata) (children : List (DisplayNode Time Shown)) :
    DisplayNode Time Shown :=
  .mk node.id node.nodeType node.name ((schema.truthy node.timestamp).getD schema.zero)
    node.endTimestamp (node.durationMs.map schema.seconds) node.status
    (schema.shown node.metadata) node.error children true 0

/-- `build_tree`, in so many frames of the interpreter's stack. -/
def buildTree (nodes : List (NodeData Time Metadata)) :
    Nat → String → Except TreeError (DisplayNode Time Shown)
  | 0, _ => .error .recursionError
  | frames + 1, id =>
      match nodes.find? fun node => node.id == id with
      | none => .error .keyError
      | some node => do
          let children ← node.childrenIds.mapM (buildTree nodes frames)
          return buildDisplayNode schema node children

/-- `root_node_ids`. -/
def rootNodeIds (nodes : List (NodeData Time Metadata)) : List String :=
  (nodes.filter fun node => (linkOf nodes node).isNone).map (·.id)

def nodesOf (events : List (ExecutionTreeEvent Time Metadata)) : List (NodeData Time Metadata) :=
  linkChildren (events.foldl (addEvent schema) [])

def overallStatus (nodes : List (NodeData Time Metadata)) : NodeStatus :=
  let statuses := nodes.map (·.status)
  if statuses.contains .failed then .failed
  else if statuses.all (· == .success) then .success
  else if statuses.contains .running then .running
  else .pending

/-- `get_execution_tree`; `none` where there are no events and the tree is built from the actions. -/
def getExecutionTree (frames : Nat) (events : List (ExecutionTreeEvent Time Metadata)) :
    Except TreeError (Option (ExecutionTreeResponse Time Shown)) :=
  if events.isEmpty then .ok none
  else do
    let nodes := nodesOf schema events
    let rootNodes ← (rootNodeIds nodes).mapM (buildTree schema nodes frames)
    let starts := nodes.filterMap fun node => schema.truthy node.timestamp
    let ends := nodes.filterMap fun node => schema.truthy node.endTimestamp
    return some
      { rootNodes
        totalEvents := events.length
        status := overallStatus nodes
        durationMs := if starts.isEmpty || ends.isEmpty then none
          else some (schema.elapsed starts ends) }

end Service

end Qontinui.Execution
