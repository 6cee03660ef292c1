import Qontinui.Base.JsText
import Qontinui.Workflow.Validation

/-!
`cloneWorkflow`: a copy of a workflow whose actions have new ids, with the connections
rewritten to them. `WorkflowSnapshotsService`: named save points of workflows, by
workflow. Creating and restoring one both clone its workflow. The texts of numbers and
dates, the clock and the random generator are parameters, and the copy in the local
storage is left out.
-/

namespace Qontinui

/-- What `Date.now()` and `Math.random().toString(36).substr(2, 9)` give at one call. -/
structure Draw where
  now : Nat
  random : String
  deriving Repr, DecidableEq

def Draw.id (draw : Draw) (kind : String) : String :=
  kind ++ "-" ++ toString draw.now ++ "-" ++ draw.random

namespace Workflow

/-- `idMap`: the new ids under the old ones. -/
def idMap (workflow : Workflow) (draws : Nat → Draw) : List (String × String) :=
  (workflow.actions.mapIdx fun index action => (action.id, (draws index).id "action")).foldl
    (fun idMap entry => Fields.set entry.1 entry.2 idMap) []

def renameTargets (idMap : List (String × String)) (connections : List (List Connection)) :
    List (List Connection) :=
  connections.map fun outputConnections => outputConnections.map fun conn =>
    { conn with action := (idMap.lookup conn.action).getD conn.action }

def renameOutputs (idMap : List (String × String)) (outputs : Outputs) : Outputs where
  main := outputs.main.map (renameTargets idMap)
  error := outputs.error.map (renameTargets idMap)
  success := outputs.success.map (renameTargets idMap)
  parallel := outputs.parallel.map (renameTargets idMap)

def renameConnections (idMap : List (String × String)) (connections : Connections) :
    Connections :=
  connections.entries.foldl (fun newConnections entry =>
    match idMap.lookup entry.1 with
    | some newSourceId => newConnections.set newSourceId (renameOutputs idMap entry.2)
    | none => newConnections) ObjectMap.empty

/-- Clone a workflow with new ids. The draws are those of the actions, in their order, and
behind them that of the workflow. -/
def cloneWorkflow (workflow : Workflow) (newWorkflowId : Option String) (draws : Nat → Draw) :
    Workflow :=
  { workflow with
    id :=
      if newWorkflowId.getD "" = "" then (draws workflow.actions.length).id "workflow"
      else newWorkflowId.getD ""
    actions := workflow.actions.mapIdx fun index action =>
      { action with id := (draws index).id "action" }
    connections := renameConnections (workflow.idMap draws) workflow.connections }

theorem actionIds_cloneWorkflow (workflow : Workflow) (newWorkflowId : Option String)
    (draws : Nat → Draw) :
    (workflow.cloneWorkflow newWorkflowId draws).actionIds =
      workflow.actions.mapIdx fun index _ => (draws index).id "action" := by
  apply List.ext_getElem?
  intro index
  simp [actionIds, cloneWorkflow, Function.comp_def]

end Workflow

structure Snapshot where
  id : String
  workflowId : String
  name : String
  description : Option String := none
  workflow : Workflow
  timestamp : String
  tags : Option (List String) := none
  metadata : JsValue := none
  deriving DecidableEq

structure SnapshotDiff where
  added : List String
  removed : List String
  modified : List String
  unchanged : List String
  deriving DecidableEq

structure ComparisonDetails where
  actionsAdded : Nat
  actionsRemoved : Nat
  actionsModified : Nat
  connectionsChanged : Bool
  variablesChanged : Bool
  deriving DecidableEq

structure SnapshotComparison where
  snapshot1 : Snapshot
  snapshot2 : Snapshot
  diff : SnapshotDiff
  details : ComparisonDetails
  deriving DecidableEq

/-- What a call of `createSnapshot` is handed beside the workflow, and what the clock and
the random generator give during it. -/
structure SnapshotRequest where
  name : String
  description : Option String := none
  tags : Option (List String) := none
  draw : Draw
  draws : Nat → Draw
  timestamp : String

structure SnapshotUpdates where
  name : Option String := none
  description : Option String := none
  tags : Option (List String) := none
  deriving DecidableEq

/-- The snapshots of each workflow, in the order of the `Map`. -/
structure WorkflowSnapshotsService where
  snapshots : List (String × List Snapshot) := []
  deriving DecidableEq

namespace WorkflowSnapshotsService

def listSnapshots (service : WorkflowSnapshotsService) (workflowId : String) : List Snapshot :=
  (service.snapshots.lookup workflowId).getD []

def add (service : WorkflowSnapshotsService) (snapshot : Snapshot) : WorkflowSnapshotsService where
  snapshots := Fields.set snapshot.workflowId
    (service.listSnapshots snapshot.workflowId ++ [snapshot]) service.snapshots

/-- The snapshot that `createSnapshot` makes. -/
def newSnapshot (workflow : Workflow) (request : SnapshotRequest) : Snapshot where
  id := request.draw.id "snapshot"
  workflowId := workflow.id
  name := request.name
  description := request.description
  workflow := workflow.cloneWorkflow none request.draws
  timestamp := request.timestamp
  tags := request.tags
  metadata := some (.obj [("actionCount", .num workflow.actions.length),
    ("connectionCount", .num workflow.connections.keys.length),
    ("version", .str workflow.version)])

def createSnapshot (service : WorkflowSnapshotsService) (workflow : Workflow)
    (request : SnapshotRequest) : WorkflowSnapshotsService :=
  service.add (newSnapshot workflow request)

def getSnapshot (service : WorkflowSnapshotsService) (snapshotId : String) : Option Snapshot :=
  service.snapshots.findSome? fun entry => entry.2.find? fun snapshot => snapshot.id = snapshotId

def getLatestSnapshot (service : WorkflowSnapshotsService) (workflowId : String) :
    Option Snapshot :=
  (service.listSnapshots workflowId).getLast?

def restoreSnapshot (service : WorkflowSnapshotsService) (snapshotId : String)
    (draws : Nat → Draw) : Option Workflow :=
  (service.getSnapshot snapshotId).map fun snapshot =>
    snapshot.workflow.cloneWorkflow (some snapshot.workflow.id) draws

section Comparison

variable (numberText : Rat → String)

def hashAction (action : Action) : String :=
  base36 (hashText (stringify numberText (.obj (("type", .str action.type.name) ::
    (action.config.toList.map fun value => ("config", value)) ++
    (action.position.toList.map fun value => ("position", value))))))

def calculateDiff (workflow1 workflow2 : Workflow) : SnapshotDiff :=
  let ids1 := workflow1.actionIds.eraseDups
  let ids2 := workflow2.actionIds.eraseDups
  let same (id : String) : Bool :=
    (workflow1.getActionById id).map (hashAction numberText) =
      (workflow2.getActionById id).map (hashAction numberText)
  { added := ids2.filter fun id => id ∉ ids1
    removed := ids1.filter fun id => id ∉ ids2
    modified := (ids1.filter fun id => id ∈ ids2).filter fun id => !same id
    unchanged := (ids1.filter fun id => id ∈ ids2).filter same }

def outputsJson (outputs : Outputs) : Json :=
  .obj (ConnectionType.all.filterMap fun type => (outputs.get type).map fun connections =>
    (type.name, .arr (connections.map fun outputConnections =>
      .arr (outputConnections.map Workflow.Connection.toJson))))

def connectionsText (workflow : Workflow) : String :=
  stringify numberText
    (.obj (workflow.connections.entries.map fun entry => (entry.1, outputsJson entry.2)))

/-- `JSON.stringify(workflow.variables)`. -/
def variablesText (workflow : Workflow) : Option String :=
  (workflow.others.lookup "variables").map (stringify numberText)

def calculateDetails (workflow1 workflow2 : Workflow) : ComparisonDetails :=
  let diff := calculateDiff numberText workflow1 workflow2
  { actionsAdded := diff.added.length
    actionsRemoved := diff.removed.length
    actionsModified := diff.modified.length
    connectionsChanged :=
      connectionsText numberText workflow1 ≠ connectionsText numberText workflow2
    variablesChanged := variablesText numberText workflow1 ≠ variablesText numberText workflow2 }

def compareWithLatest (service : WorkflowSnapshotsService) (workflow : Workflow)
    (timestamp : String) : Option SnapshotComparison :=
  (service.getLatestSnapshot workflow.id).map fun latestSnapshot =>
    { snapshot1 := latestSnapshot
      snapshot2 :=
        { id := "temp"
          workflowId := workflow.id
          name := "Current"
          workflow := workflow
          timestamp := timestamp }
      diff := calculateDiff numberText latestSnapshot.workflow workflow
      details := calculateDetails numberText latestSnapshot.workflow workflow }

end Comparison

def changeFirst (service : WorkflowSnapshotsService) (snapshotId : String)
    (change : List Snapshot → Nat → List Snapshot) : WorkflowSnapshotsService where
  snapshots :=
    match service.snapshots.findIdx? fun entry => entry.2.any fun other => other.id = snapshotId with
    | none => service.snapshots
    | some place => service.snapshots.modify place fun entry =>
        (entry.1, change entry.2 (entry.2.findIdx fun other => other.id = snapshotId))

def deleteSnapshot (service : WorkflowSnapshotsService) (snapshotId : String) :
    WorkflowSnapshotsService :=
  service.changeFirst snapshotId fun snapshots index => snapshots.eraseIdx index

def deleteWorkflowSnapshots (service : WorkflowSnapshotsService) (workflowId : String) :
    WorkflowSnapshotsService where
  snapshots := Fields.erase workflowId service.snapshots

/-- Delete old snapshots (keep the last ones): `snapshots.slice(-keepCount)`. -/
def deleteOldSnapshots (service : WorkflowSnapshotsService) (workflowId : String)
    (keepCount : Int) : WorkflowSnapshotsService :=
  let snapshots := service.listSnapshots workflowId
  if (snapshots.length : Int) ≤ keepCount then service
  else
    let start := if 0 < keepCount then (snapshots.length : Int) - keepCount else -keepCount
    { snapshots := Fields.set workflowId (snapshots.drop start.toNat) service.snapshots }

/-- Import a snapshot that `JSON.parse` has read. -/
def importSnapshot (service : WorkflowSnapshotsService) (snapshot : Snapshot) :
    WorkflowSnapshotsService :=
  if snapshot.id = "" || snapshot.workflowId = "" then service else service.add snapshot

def importSnapshots (service : WorkflowSnapshotsService) (snapshots : List Snapshot) :
    WorkflowSnapshotsService :=
  snapshots.foldl importSnapshot service

def updateSnapshot (service : WorkflowSnapshotsService) (snapshotId : String)
    (updates : SnapshotUpdates) : WorkflowSnapshotsService :=
  service.changeFirst snapshotId fun snapshots index => snapshots.modify index fun snapshot =>
    { snapshot with
      name := if updates.name.getD "" = "" then snapshot.name else updates.name.getD ""
      description := updates.description.or snapshot.description
      tags := updates.tags.or snapshot.tags }

inductive SnapshotOperation where
  | createSnapshot (workflow : Workflow) (request : SnapshotRequest)
  | deleteSnapshot (snapshotId : String)
  | deleteWorkflowSnapshots (workflowId : String)
  | deleteOldSnapshots (workflowId : String) (keepCount : Int)
  | importSnapshots (snapshots : List Snapshot)
  | updateSnapshot (snapshotId : String) (updates : SnapshotUpdates)
  | clearAll

def step (service : WorkflowSnapshotsService) :
    SnapshotOperation → WorkflowSnapshotsService
  | .createSnapshot workflow request => service.createSnapshot workflow request
  | .deleteSnapshot snapshotId => service.deleteSnapshot snapshotId
  | .deleteWorkflowSnapshots workflowId => service.deleteWorkflowSnapshots workflowId
  | .deleteOldSnapshots workflowId keepCount => service.deleteOldSnapshots workflowId keepCount
  | .importSnapshots snapshots => service.importSnapshots snapshots
  | .updateSnapshot snapshotId updates => service.updateSnapshot snapshotId updates
  | .clearAll => {}

end WorkflowSnapshotsService

end Qontinui
