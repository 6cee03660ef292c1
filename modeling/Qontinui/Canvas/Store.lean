import Qontinui.Base.Timeline
import Qontinui.Workflow.ActionTypes

/-!
The canvas store: the workflow that is edited, the selection, the connecting
gesture, the clipboard and the undo history, with the operations of all slices.

A snapshot is the JSON text of a workflow parsed again, so it is the workflow
itself. Positions are pairs of numbers, as their type says, and the random part
of a generated id is an argument of the operation that generates it.
-/

namespace Qontinui.Canvas

structure HistoryState where
  workflow : Workflow
  description : Option String
  deriving DecidableEq

structure ConnectingFrom where
  actionId : String
  outputType : String
  outputIndex : Int
  deriving DecidableEq

structure WorkflowState where
  workflow : Option Workflow := none
  isDirty : Bool := false
  deriving DecidableEq

structure ConnectionState where
  isConnecting : Bool := false
  connectingFrom : Option ConnectingFrom := none
  deriving DecidableEq

structure SelectionState where
  selectedNodes : List String := []
  selectedEdges : List String := []
  deriving DecidableEq

structure ClipboardState where
  clipboardNodes : List Action := []
  clipboardConnections : Connections := .empty
  deriving DecidableEq

structure HistorySliceState where
  history : List HistoryState := []
  historyIndex : Int := -1
  maxHistorySize : Nat := 50
  deriving DecidableEq

structure Store extends WorkflowState, ConnectionState, SelectionState, ClipboardState,
    HistorySliceState where
  deriving DecidableEq

structure Offset where
  x : Rat
  y : Rat

/-- `Partial<Action>`; a field that the updates do not have is `none`. -/
structure ActionUpdates where
  id : Option String := none
  type : Option ActionType := none
  name : Option (Option String) := none
  config : JsValue := none
  base : Option JsValue := none
  execution : Option JsValue := none
  position : Option JsValue := none
  expectations : Option JsValue := none

section Utils

def generateActionId (suffix : String) : String := "action-" ++ suffix

def coordinate (position : JsValue) (i : Nat) : Rat :=
  match position with
  | some (.arr items) =>
      match items[i]? with
      | some (.num x) => x
      | _ => 0
  | _ => 0

def positionOf (x y : Rat) : JsValue := some (.arr [.num x, .num y])

def cloneAction (action : Action) (offset : Offset) (suffix : String) : Action :=
  { action with
    id := generateActionId suffix
    position := positionOf (coordinate action.position 0 + offset.x)
      (coordinate action.position 1 + offset.y) }

/-- The new id of an action that was cloned, any other id as it is. -/
def renamed (oldToNewIdMap : ObjectMap String) (id : String) : String :=
  ((oldToNewIdMap.get? id).filter (· ≠ "")).getD id

/-- `outputs` with the list of each output changed. -/
def mapOutputs (change : List Connection → List Connection) (outputs : Outputs) : Outputs where
  main := outputs.main.map (List.map change)
  error := outputs.error.map (List.map change)
  success := outputs.success.map (List.map change)
  parallel := outputs.parallel.map (List.map change)

def filterTargets (keep : String → Bool) : Outputs → Outputs :=
  mapOutputs (List.filter fun conn => keep conn.action)

def updateConnectionsForClonedActions (connections : Connections)
    (oldToNewIdMap : ObjectMap String) : Connections :=
  connections.entries.foldl
    (fun newConnections (sourceId, connectionTypes) =>
      newConnections.set (renamed oldToNewIdMap sourceId)
        (mapOutputs (List.map fun conn =>
          { conn with action := renamed oldToNewIdMap conn.action }) connectionTypes))
    .empty

end Utils

namespace Store

section History

variable (store : Store)

def undo : Store :=
  if store.historyIndex ≤ 0 then store
  else
    let newIndex := store.historyIndex - 1
    match store.history[newIndex.toNat]? with
    | none => store
    | some state =>
        { store with workflow := some state.workflow, historyIndex := newIndex, isDirty := true }

def redo : Store :=
  if store.historyIndex ≥ store.history.length - 1 then store
  else
    let newIndex := store.historyIndex + 1
    match store.history[newIndex.toNat]? with
    | none => store
    | some state =>
        { store with workflow := some state.workflow, historyIndex := newIndex, isDirty := true }

def recordHistory (description : Option String) : Store :=
  match store.workflow with
  | none => store
  | some workflow =>
      let (history, historyIndex) := Timeline.pushEntry store.maxHistorySize store.history
        store.historyIndex { workflow, description }
      { store with history, historyIndex }

def clearHistory : Store := { store with history := [], historyIndex := -1 }

end History

section Workflow

variable (store : Store)

/-- The store without workflow, selection and history. -/
def reset : Store :=
  { store with
    workflow := none, isDirty := false, selectedNodes := [], selectedEdges := []
    history := [], historyIndex := -1 }

def setWorkflow (workflow : Workflow) : Store :=
  { store.reset with workflow := some workflow }.recordHistory (some "Load workflow")

def clearWorkflow : Store := store.reset

/-- A change of the workflow marks the store as dirty. -/
def edit (change : Workflow → Workflow) : Store :=
  match store.workflow with
  | none => store
  | some workflow => { store with workflow := some (change workflow), isDirty := true }

end Workflow

end Store

section Edits

variable (workflow : Workflow)

def modifyAction (actionId : String) (change : Action → Action) : Workflow :=
  { workflow with
    actions := workflow.actions.modify (workflow.actions.findIdx (·.id = actionId)) change }

/-- The config an update leaves: its own keys over those that were there. -/
def mergedConfig (existing updates : JsValue) : JsValue :=
  if updates.truthy then
    some (.obj ((spread updates).foldl (fun fields entry => Fields.set entry.1 entry.2 fields)
      (spread existing)))
  else existing

def applyUpdates (updates : ActionUpdates) (existingAction : Action) : Action where
  id := updates.id.getD existingAction.id
  type := updates.type.getD existingAction.type
  name := updates.name.getD existingAction.name
  config := mergedConfig existingAction.config updates.config
  base := updates.base.getD existingAction.base
  execution := updates.execution.getD existingAction.execution
  position := updates.position.getD existingAction.position
  expectations := updates.expectations.getD existingAction.expectations

/-- The workflow without some actions, and without the connections from and to them. -/
def removeActions (actionIds : List String) : Workflow :=
  { workflow with
    actions := workflow.actions.filter (·.id ∉ actionIds)
    connections := (actionIds.foldl ObjectMap.erase workflow.connections).mapValues
      (filterTargets (· ∉ actionIds)) }

def movePositions (updates : List (String × Rat × Rat)) : Workflow :=
  updates.foldl
    (fun workflow (actionId, x, y) =>
      modifyAction workflow actionId fun action => { action with position := positionOf x y })
    workflow

/-- `outputs[type][outputIndex].push(conn)`; below 0 there is no such output. -/
def pushConnection (outputs : Outputs) (type : ConnectionType) (outputIndex : Int)
    (conn : Connection) : Outputs :=
  if 0 ≤ outputIndex then outputs.push type outputIndex.toNat conn
  else outputs.set type ((outputs.get type).getD [])

def connect (sourceId outputType : String) (outputIndex : Int) (targetId : String)
    (targetIndex : Int) : Workflow :=
  let sourceConns := (workflow.connections.get? sourceId).getD {}
  let connected :=
    match ConnectionType.ofName? outputType with
    | none => sourceConns
    | some type =>
        pushConnection sourceConns type outputIndex
          { action := targetId, type := outputType, index := targetIndex }
  { workflow with connections := workflow.connections.set sourceId connected }

/-- `outputs[outputIndex]` without the connections to an action. -/
def disconnectAt (outputs : List (List Connection)) (outputIndex : Int) (targetId : String) :
    List (List Connection) :=
  if 0 ≤ outputIndex then
    outputs.modify outputIndex.toNat (List.filter fun conn => conn.action ≠ targetId)
  else outputs

/-- The workflow without some connections; `none` where there are no such outputs. -/
def disconnect (sourceId outputType : String) (outputIndex : Int) (targetId : String) :
    Option Workflow := do
  let sourceConns ← workflow.connections.get? sourceId
  let type ← ConnectionType.ofName? outputType
  let outputs ← sourceConns.get type
  return { workflow with
    connections := workflow.connections.set sourceId
      (sourceConns.set type (disconnectAt outputs outputIndex targetId)) }

/-- `sourceConns[type] = outputs`, for every type of the pasted connections. -/
def mergeOutputs (sourceConns pasted : Outputs) : Outputs where
  main := pasted.main.or sourceConns.main
  error := pasted.error.or sourceConns.error
  success := pasted.success.or sourceConns.success
  parallel := pasted.parallel.or sourceConns.parallel

def mergeConnections (connections newConnections : Connections) : Connections :=
  newConnections.entries.foldl
    (fun connections (sourceId, pasted) =>
      connections.set sourceId (mergeOutputs ((connections.get? sourceId).getD {}) pasted))
    connections

def copyConnections (connections : Connections) (selectedNodes : List String) : Connections :=
  selectedNodes.foldl
    (fun connectionsToCopy nodeId =>
      match connections.get? nodeId with
      | none => connectionsToCopy
      | some outputs => connectionsToCopy.set nodeId (filterTargets (· ∈ selectedNodes) outputs))
    .empty

end Edits

namespace Store

variable (store : Store)

section Actions

def getActionById (actionId : String) : Option Action :=
  store.workflow.bind fun workflow => workflow.actions.find? (·.id = actionId)

def addAction (action : Action) : Store :=
  (store.edit fun workflow => { workflow with actions := workflow.actions ++ [action] })
    |>.recordHistory (some s!"Add action: {action.type.name}")

def updateAction (actionId : String) (updates : ActionUpdates) : Store :=
  let updated :=
    if (store.getActionById actionId).isSome then
      store.edit fun workflow => modifyAction workflow actionId (applyUpdates updates)
    else store
  updated.recordHistory (some s!"Update action: {actionId}")

def remove (actionIds : List String) : Store :=
  match store.workflow with
  | none => store
  | some workflow =>
      { store with
        workflow := some (removeActions workflow actionIds)
        selectedNodes := store.selectedNodes.filter (· ∉ actionIds)
        isDirty := true }

def deleteAction (actionId : String) : Store :=
  (store.remove [actionId]).recordHistory (some s!"Delete action: {actionId}")

def deleteActions (actionIds : List String) : Store :=
  (store.remove actionIds).recordHistory (some s!"Delete {actionIds.length} actions")

def moveAction (actionId : String) (x y : Rat) : Store :=
  store.updateAction actionId { position := some (positionOf x y) }

def moveActions (updates : List (String × Rat × Rat)) : Store :=
  (store.edit fun workflow => movePositions workflow updates)
    |>.recordHistory (some s!"Move {updates.length} actions")

end Actions

section Connections

def addConnection (sourceId outputType : String) (outputIndex : Int) (targetId : String)
    (targetIndex : Int) : Store :=
  let connected :=
    match store.workflow with
    | none => store
    | some workflow =>
        { store with
          workflow := some (connect workflow sourceId outputType outputIndex targetId targetIndex)
          isDirty := store.isDirty || (ConnectionType.ofName? outputType).isSome }
  connected.recordHistory (some "Add connection")

def deleteConnection (sourceId outputType : String) (outputIndex : Int) (targetId : String) :
    Store :=
  let disconnected :=
    match store.workflow.bind (disconnect · sourceId outputType outputIndex targetId) with
    | none => store
    | some workflow => { store with workflow := some workflow, isDirty := true }
  disconnected.recordHistory (some "Delete connection")

/-- The one change of the workflow that makes no history entry. -/
def deleteConnectionsForAction (actionId : String) : Store :=
  store.edit fun workflow => { workflow with connections := workflow.connections.erase actionId }

def startConnecting (actionId outputType : String) (outputIndex : Int) : Store :=
  { store with isConnecting := true, connectingFrom := some { actionId, outputType, outputIndex } }

def cancelConnecting : Store := { store with isConnecting := false, connectingFrom := none }

def finishConnecting (targetId : String) (targetIndex : Int) : Store :=
  match store.connectingFrom with
  | none => store
  | some source =>
      (store.addConnection source.actionId source.outputType source.outputIndex targetId
        targetIndex).cancelConnecting

end Connections

section Selection

/-- A click on an item of a list of selected ones. -/
def toggle (selected : List String) (id : String) (multi : Bool) : List String :=
  if multi then
    if id ∈ selected then selected.filter (· ≠ id) else selected ++ [id]
  else [id]

def selectNode (nodeId : String) (multi : Bool) : Store :=
  { store with selectedNodes := toggle store.selectedNodes nodeId multi, selectedEdges := [] }

def selectNodes (nodeIds : List String) (multi : Bool) : Store :=
  { store with
    selectedNodes := if multi then (store.selectedNodes ++ nodeIds).eraseDups else nodeIds
    selectedEdges := [] }

def selectEdge (edgeId : String) (multi : Bool) : Store :=
  { store with selectedEdges := toggle store.selectedEdges edgeId multi, selectedNodes := [] }

def clearSelection : Store := { store with selectedNodes := [], selectedEdges := [] }

def selectAll : Store :=
  match store.workflow with
  | none => store
  | some workflow => { store with selectedNodes := workflow.actionIds, selectedEdges := [] }

def invertSelection : Store :=
  match store.workflow with
  | none => store
  | some workflow =>
      { store with
        selectedNodes := workflow.actionIds.eraseDups.filter (· ∉ store.selectedNodes) }

def duplicateAction (actionId : String) (offset : Offset) (suffix : String) : Store :=
  match store.getActionById actionId with
  | none => store
  | some action =>
      let newAction := cloneAction action offset suffix
      (store.addAction newAction).selectNode newAction.id false

end Selection

section Clipboard

def copy : Store :=
  match store.workflow with
  | none => store
  | some workflow =>
      if store.selectedNodes = [] then store
      else
        { store with
          clipboardNodes := workflow.actions.filter (·.id ∈ store.selectedNodes)
          clipboardConnections := copyConnections workflow.connections store.selectedNodes }

/-- Where the clones stand from the actions they are clones of. -/
def pasteOffset (clipboardNodes : List Action) (position : Option Offset) : Offset :=
  match position, clipboardNodes with
  | some position, firstNode :: _ =>
      { x := position.x - coordinate firstNode.position 0
        y := position.y - coordinate firstNode.position 1 }
  | _, _ => { x := 50, y := 50 }

/-- The actions on the clipboard with the suffixes of their new ids. -/
def clones (clipboardNodes : List Action) (offset : Offset) (suffixes : Nat → String) :
    List Action :=
  clipboardNodes.mapIdx fun index action => cloneAction action offset (suffixes index)

def oldToNewIdMap (clipboardNodes newActions : List Action) : ObjectMap String :=
  (clipboardNodes.zip newActions).foldl (fun map (old, new) => map.set old.id new.id) .empty

/-- The clones and the connections between them, added to a workflow. -/
def pasteInto (workflow : Workflow) (clipboardNodes newActions : List Action)
    (clipboardConnections : Connections) : Workflow :=
  { workflow with
    actions := workflow.actions ++ newActions
    connections := mergeConnections workflow.connections
      (updateConnectionsForClonedActions clipboardConnections
        (oldToNewIdMap clipboardNodes newActions)) }

def paste (position : Option Offset) (suffixes : Nat → String) : Store :=
  match store.workflow with
  | none => store
  | some workflow =>
      if store.clipboardNodes = [] then store
      else
        let newActions :=
          clones store.clipboardNodes (pasteOffset store.clipboardNodes position) suffixes
        { store with
          workflow := some
            (pasteInto workflow store.clipboardNodes newActions store.clipboardConnections)
          selectedNodes := newActions.map Action.id
          isDirty := true }.recordHistory (some s!"Paste {newActions.length} actions")

def cut : Store :=
  let copied := store.copy
  if copied.selectedNodes = [] then copied else copied.deleteActions copied.selectedNodes

def duplicate (suffixes : Nat → String) : Store := store.copy.paste none suffixes

end Clipboard

end Store

/-- A call of an operation of the store. -/
inductive Op where
  | setWorkflow (workflow : Workflow)
  | clearWorkflow
  | addAction (action : Action)
  | updateAction (actionId : String) (updates : ActionUpdates)
  | deleteAction (actionId : String)
  | deleteActions (actionIds : List String)
  | duplicateAction (actionId : String) (offset : Offset) (suffix : String)
  | moveAction (actionId : String) (x y : Rat)
  | moveActions (updates : List (String × Rat × Rat))
  | addConnection (sourceId outputType : String) (outputIndex : Int) (targetId : String)
      (targetIndex : Int)
  | deleteConnection (sourceId outputType : String) (outputIndex : Int) (targetId : String)
  | deleteConnectionsForAction (actionId : String)
  | startConnecting (actionId outputType : String) (outputIndex : Int)
  | finishConnecting (targetId : String) (targetIndex : Int)
  | cancelConnecting
  | selectNode (nodeId : String) (multi : Bool)
  | selectNodes (nodeIds : List String) (multi : Bool)
  | selectEdge (edgeId : String) (multi : Bool)
  | clearSelection
  | selectAll
  | invertSelection
  | copy
  | paste (position : Option Offset) (suffixes : Nat → String)
  | cut
  | duplicate (suffixes : Nat → String)
  | undo
  | redo
  | recordHistory (description : Option String)
  | clearHistory

def step (store : Store) : Op → Store
  | .setWorkflow workflow => store.setWorkflow workflow
  | .clearWorkflow => store.clearWorkflow
  | .addAction action => store.addAction action
  | .updateAction actionId updates => store.updateAction actionId updates
  | .deleteAction actionId => store.deleteAction actionId
  | .deleteActions actionIds => store.deleteActions actionIds
  | .duplicateAction actionId offset suffix => store.duplicateAction actionId offset suffix
  | .moveAction actionId x y => store.moveAction actionId x y
  | .moveActions updates => store.moveActions updates
  | .addConnection sourceId outputType outputIndex targetId targetIndex =>
      store.addConnection sourceId outputType outputIndex targetId targetIndex
  | .deleteConnection sourceId outputType outputIndex targetId =>
      store.deleteConnection sourceId outputType outputIndex targetId
  | .deleteConnectionsForAction actionId => store.deleteConnectionsForAction actionId
  | .startConnecting actionId outputType outputIndex =>
      store.startConnecting actionId outputType outputIndex
  | .finishConnecting targetId targetIndex => store.finishConnecting targetId targetIndex
  | .cancelConnecting => store.cancelConnecting
  | .selectNode nodeId multi => store.selectNode nodeId multi
  | .selectNodes nodeIds multi => store.selectNodes nodeIds multi
  | .selectEdge edgeId multi => store.selectEdge edgeId multi
  | .clearSelection => store.clearSelection
  | .selectAll => store.selectAll
  | .invertSelection => store.invertSelection
  | .copy => store.copy
  | .paste position suffixes => store.paste position suffixes
  | .cut => store.cut
  | .duplicate suffixes => store.duplicate suffixes
  | .undo => store.undo
  | .redo => store.redo
  | .recordHistory description => store.recordHistory description
  | .clearHistory => store.clearHistory

end Qontinui.Canvas
