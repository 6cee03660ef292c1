import Qontinui.Workflow.ActionTypes

/-!
The reference cleaner takes connections from or to actions that do not exist out of a
workflow and reports every removal. `autoFixWorkflow` of the workflow file manager gives
missing fields defaults besides. The clock readings are arguments.
-/

namespace Qontinui

inductive CleanupType where
  | workflowConnection
  deriving DecidableEq

structure CleanupDetail where
  type : CleanupType
  sourceId : String
  sourceName : Option String
  removedId : String
  reason : String
  deriving DecidableEq

namespace Workflow

/-- The connections of one output that lead to an action of the workflow. -/
def validTargets (workflow : Workflow) (branch : List Connection) : List Connection :=
  branch.filter fun conn => conn.action ∈ workflow.actionIds

/-- The outputs of one type without their invalid connections, then without the outputs
that are empty. -/
def nonEmptyBranches (workflow : Workflow) (branches : List (List Connection)) :
    List (List Connection) :=
  (branches.map workflow.validTargets).filter (!·.isEmpty)

/-- One type of an action's outputs, rebuilt. A type without an output left is left out. -/
def rebuildType (workflow : Workflow) (outputs cleanedOutputs : Outputs)
    (type : ConnectionType) : Outputs :=
  match outputs.get type with
  | none => cleanedOutputs
  | some branches =>
      let nonEmpty := workflow.nonEmptyBranches branches
      if nonEmpty = [] then cleanedOutputs else cleanedOutputs.set type nonEmpty

def rebuildOutputs (workflow : Workflow) (outputs : Outputs) (types : List ConnectionType) :
    Outputs :=
  types.foldl (workflow.rebuildType outputs) {}

/-- The connections, rebuilt for the given types. A source that does not exist or has no
output left is left out. -/
def rebuildConnections (workflow : Workflow) (types : List ConnectionType) : Connections :=
  workflow.connections.filterMap fun sourceActionId outputs =>
    if sourceActionId ∉ workflow.actionIds then none
    else
      let cleanedOutputs := workflow.rebuildOutputs outputs types
      if cleanedOutputs = {} then none else some cleanedOutputs

def cleanedTypes : List ConnectionType := [.main, .success, .error]

def cleanupDetail (workflow : Workflow) (removedId reason : String) : CleanupDetail where
  type := .workflowConnection
  sourceId := workflow.id
  sourceName := some workflow.name
  removedId := removedId
  reason := reason

def removedFrom (workflow : Workflow) (entry : String × Outputs) : List CleanupDetail :=
  let (sourceActionId, outputs) := entry
  if sourceActionId ∉ workflow.actionIds then
    [workflow.cleanupDetail sourceActionId
      s!"Source action \"{sourceActionId}\" does not exist"]
  else
    cleanedTypes.flatMap fun type =>
      ((outputs.ofType type).filter (·.action ∉ workflow.actionIds)).map fun conn =>
        workflow.cleanupDetail conn.action
          (s!"Target action \"{conn.action}\" does not exist " ++
            s!"(from {sourceActionId} {type.name})")

/-- Clean orphaned workflow connections that reference action ids that do not exist. -/
def cleanWorkflowConnections (workflow : Workflow) : Workflow × List CleanupDetail :=
  ({ workflow with connections := workflow.rebuildConnections cleanedTypes },
    workflow.connections.entries.flatMap workflow.removedFrom)

end Workflow

structure AutoFixResult where
  fixed : Bool
  changes : List String
  workflow : Workflow
  deriving DecidableEq

namespace Workflow

def CURRENT_WORKFLOW_VERSION : String := "1.0.0"

/-- A fix: the workflow after it, and the changes it reports. -/
abbrev Fixed := Workflow × List String

def fixId (workflow : Workflow) (now : Int) : Fixed :=
  if workflow.id = "" then
    ({ workflow with id := s!"workflow-{now}" }, ["Generated missing workflow ID"])
  else (workflow, [])

def fixName (workflow : Workflow) : Fixed :=
  if workflow.name = "" then
    ({ workflow with name := "Untitled Workflow" }, ["Set default workflow name"])
  else (workflow, [])

def fixVersion (workflow : Workflow) : Fixed :=
  if workflow.version = "" then
    ({ workflow with version := CURRENT_WORKFLOW_VERSION }, ["Set default workflow version"])
  else (workflow, [])

def fixFormat (workflow : Workflow) : Fixed :=
  if workflow.format = "" then
    ({ workflow with format := "graph" },
      [if workflow.connections.keys = [] then "Set default format to graph"
       else "Set format to graph based on connections"])
  else (workflow, [])

/-- The position of an action without one, by its index: three to a row. -/
def gridPosition (index : Nat) : Nat × Nat := (100 + index % 3 * 300, 100 + index / 3 * 200)

def fixPosition (action : Action) (index : Nat) : Action × List String :=
  if action.position.truthy then (action, [])
  else
    let (x, y) := gridPosition index
    ({ action with position := some (.arr [.num x, .num y]) },
      [s!"Added position [{x}, {y}] to action {action.id}"])

def fixPositions (workflow : Workflow) : Fixed :=
  if workflow.format = "graph" then
    let actions := workflow.actions.mapIdx fun index action => fixPosition action index
    ({ workflow with actions := actions.map Prod.fst }, actions.flatMap Prod.snd)
  else (workflow, [])

/-- The changes reported for one entry of the connections. -/
def removedInvalid (workflow : Workflow) (entry : String × Outputs) : List String :=
  let (sourceId, outputs) := entry
  if sourceId ∉ workflow.actionIds then
    [s!"Removed connections from non-existent action {sourceId}"]
  else
    (outputs.connections.filter (·.action ∉ workflow.actionIds)).map fun conn =>
      s!"Removed invalid connection from {sourceId} to {conn.action}"

/-- Remove invalid connections (references to actions that do not exist). -/
def fixConnections (workflow : Workflow) : Fixed :=
  ({ workflow with connections := workflow.rebuildConnections ConnectionType.all },
    workflow.connections.entries.flatMap workflow.removedInvalid)

def fixMetadata (workflow : Workflow) (created updated : String) : Fixed :=
  if workflow.metadata.truthy then (workflow, [])
  else
    ({ workflow with
        metadata := some (.obj [("created", .str created), ("updated", .str updated)]) },
      ["Added missing metadata"])

def autoFixWorkflow (workflow : Workflow) (now : Int) (created updated : String) :
    AutoFixResult :=
  let (workflow, noId) := workflow.fixId now
  let (workflow, noName) := workflow.fixName
  let (workflow, noVersion) := workflow.fixVersion
  let (workflow, noFormat) := workflow.fixFormat
  let (workflow, noPosition) := workflow.fixPositions
  let (workflow, invalid) := workflow.fixConnections
  let (workflow, noMetadata) := workflow.fixMetadata created updated
  let changes := noId ++ noName ++ noVersion ++ noFormat ++ noPosition ++ invalid ++ noMetadata
  { fixed := !changes.isEmpty, changes := changes, workflow := workflow }

end Workflow

end Qontinui
