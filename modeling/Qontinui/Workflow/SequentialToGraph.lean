import Qontinui.Workflow.WorkflowUtils

/-!
The conversion of a list of actions to a graph workflow: a node for each action,
a connection to the first action of each branch, and a connection from each
action to the next one unless it is of the control flow.

Configs are read as their types have them: a branch is an array of action ids.
The positions that the layout computes are a parameter, since nothing here reads
them.
-/

namespace Qontinui.SequentialToGraph

def idOf? : Json → Option String
  | .str id => some id
  | _ => none

/-- The action ids at a field of a config, none of them where the field is absent.
`none`: the config is not of its type. -/
def idsAt (config : JsValue) (field : String) : Option (List String) :=
  match config with
  | some (.obj fields) =>
      match fields.lookup field with
      | none => some []
      | some (.arr items) => items.mapM idOf?
      | some _ => none
  | _ => none

/-- The action ids of each case of a SWITCH config. -/
def casesOf (config : JsValue) : Option (List (List String)) :=
  match config with
  | some (.obj fields) =>
      match fields.lookup "cases" with
      | some (.arr cases) => cases.mapM fun caseItem => idsAt (some caseItem) "actions"
      | _ => none
  | _ => none

structure ConverterOptions where
  workflowName : String := "Converted Workflow"
  workflowId : String
  version : String := "1.0.0"
  preserveActionIds : Bool := false

/-- What the conversion takes from outside: the generated id of the action at an
index, the position that the layout gives an action, and the time. -/
structure Environment where
  generateId : Nat → String
  layout : List Action → Connections → String → JsValue
  now : String

structure Stats where
  actionsConverted : Nat := 0
  connectionsCreated : Nat := 0
  controlFlowExpanded : Nat := 0
  maxDepth : Nat := 0
  deriving DecidableEq

structure ActionNode where
  action : Action
  isControlFlow : Bool

structure Converter where
  actionNodes : ObjectMap ActionNode := .empty
  connections : Connections := .empty
  warnings : List String := []
  stats : Stats := {}

structure ConversionResult where
  workflow : Workflow
  stats : Stats
  warnings : List String

def isControlFlowAction (type : ActionType) : Bool :=
  type ∈ [.IF, .LOOP, .SWITCH, .TRY_CATCH, .BREAK, .CONTINUE]

def addConnection (converter : Converter) (sourceId targetId : String) (type : ConnectionType)
    (outputIndex : Nat) (inputIndex : Int) : Converter :=
  let created := converter.stats.connectionsCreated + 1
  { converter with
    connections := converter.connections.push sourceId type outputIndex
      { action := targetId, type := type.name, index := inputIndex }
    stats := { converter.stats with connectionsCreated := created } }

def connectBranch (actionId : String) (branch : List String) (type : ConnectionType)
    (outputIndex : Nat) (converter : Converter) : Converter :=
  match branch with
  | [] => converter
  | first :: _ => addConnection converter actionId first type outputIndex 0

def handleIfAction (action : Action) (actionId : String) (converter : Converter) :
    Option Converter := do
  let thenActions ← idsAt action.config "thenActions"
  let elseActions ← idsAt action.config "elseActions"
  return connectBranch actionId elseActions .main 1
    (connectBranch actionId thenActions .main 0 converter)

def handleLoopAction (action : Action) (actionId : String) (converter : Converter) :
    Option Converter := do
  let actions ← idsAt action.config "actions"
  return connectBranch actionId actions .main 0 converter

def handleSwitchAction (action : Action) (actionId : String) (converter : Converter) :
    Option Converter := do
  let cases ← casesOf action.config
  let defaultActions ← idsAt action.config "defaultActions"
  let converter := cases.zipIdx.foldl (fun converter (caseActions, index) =>
    connectBranch actionId caseActions .main index converter) converter
  return connectBranch actionId defaultActions .main cases.length converter

def handleTryCatchAction (action : Action) (actionId : String) (converter : Converter) :
    Option Converter := do
  let tryActions ← idsAt action.config "tryActions"
  let catchActions ← idsAt action.config "catchActions"
  let finallyActions ← idsAt action.config "finallyActions"
  let converter := connectBranch actionId catchActions .error 0
    (connectBranch actionId tryActions .success 0 converter)
  if finallyActions = [] then return converter
  else
    let warning := s!"Action {actionId}: Finally actions require special execution handling"
    return { converter with warnings := converter.warnings ++ [warning] }

def handleControlFlow (action : Action) (actionId : String) (converter : Converter) :
    Option Converter :=
  let expanded := converter.stats.controlFlowExpanded + 1
  let converter :=
    { converter with stats := { converter.stats with controlFlowExpanded := expanded } }
  match action.type with
  | .IF => handleIfAction action actionId converter
  | .LOOP => handleLoopAction action actionId converter
  | .SWITCH => handleSwitchAction action actionId converter
  | .TRY_CATCH => handleTryCatchAction action actionId converter
  | _ => some converter

def createNode (action : Action) (actionId : String) : ActionNode where
  action := { action with id := actionId, position := some (.arr [.num 0, .num 0]) }
  isControlFlow := isControlFlowAction action.type

/-- One action of the list, under its id in the workflow. -/
def processAction (converter : Converter) (item : Action × String) : Option Converter :=
  let (action, actionId) := item
  let converted := converter.stats.actionsConverted + 1
  let converter :=
    { converter with
      actionNodes := converter.actionNodes.set actionId (createNode action actionId)
      stats := { converter.stats with actionsConverted := converted } }
  if isControlFlowAction action.type then handleControlFlow action actionId converter
  else some converter

def namedActions (env : Environment) (options : ConverterOptions) (actions : List Action) :
    List (Action × String) :=
  actions.mapIdx fun index action =>
    (action, if options.preserveActionIds then action.id else env.generateId index)

def connectNext (converter : Converter) (index : Nat) : Converter :=
  let actionIds := converter.actionNodes.keys
  match actionIds[index]?, actionIds[index + 1]? with
  | some currentId, some nextId =>
      if currentId = "" ∨ nextId = "" then converter
      else
        match converter.actionNodes.get? currentId with
        | none => converter
        | some currentNode =>
            if currentNode.isControlFlow then converter
            else addConnection converter currentId nextId .main 0 0
  | _, _ => converter

def buildLinearConnections (actions : List Action) (converter : Converter) : Converter :=
  (List.range (actions.length - 1)).foldl connectNext converter

def positionedActions (env : Environment) (converter : Converter) : List Action :=
  let actions := converter.actionNodes.values.map ActionNode.action
  actions.map fun action =>
    { action with position := env.layout actions converter.connections action.id }

/-- `none`: the config of some action is not of its type. -/
def convert (env : Environment) (options : ConverterOptions) (actions : List Action) :
    Option ConversionResult := do
  let warnings := if actions = [] then ["Empty action list provided"] else []
  let start : Converter := { warnings }
  let processed ← (namedActions env options actions).foldlM processAction start
  let converter := buildLinearConnections actions processed
  return {
    workflow := {
      id := options.workflowId
      name := options.workflowName
      version := options.version
      format := "graph"
      actions := positionedActions env converter
      connections := converter.connections
      metadata := some (.obj [("created", .str env.now),
        ("description", .str "Converted from sequential format")]) }
    stats := converter.stats
    warnings := converter.warnings }

def extractNestedActions (action : Action) : Option (List String) :=
  match action.type with
  | .IF => do
      return (← idsAt action.config "thenActions") ++ (← idsAt action.config "elseActions")
  | .LOOP => idsAt action.config "actions"
  | .SWITCH => do
      return (← casesOf action.config).flatten ++ (← idsAt action.config "defaultActions")
  | .TRY_CATCH => do
      return (← idsAt action.config "tryActions") ++ (← idsAt action.config "catchActions") ++
        (← idsAt action.config "finallyActions")
  | _ => some []

end Qontinui.SequentialToGraph
