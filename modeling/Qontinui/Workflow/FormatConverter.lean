import Qontinui.Workflow.GraphToSequential
import Qontinui.Workflow.ProcessConversion
import Qontinui.Workflow.SequentialToGraph

/-!
The format converter over both converters. It marks what it makes sequential as
a graph without connections, and takes that for a graph on the way back: no
program of two actions or more comes back with the connections that run it.
-/

namespace Qontinui.FormatConverter

structure ConversionIssue where
  code : String
  message : String
  deriving DecidableEq

structure ConversionStatistics where
  actionsAdded : Int := 0
  actionsRemoved : Nat := 0
  actionsModified : Nat := 0
  connectionsChanged : Nat := 0
  deriving DecidableEq

structure ConversionResult where
  success : Bool
  workflow : Option Workflow := none
  errors : List ConversionIssue := []
  warnings : List ConversionIssue := []
  statistics : Option ConversionStatistics := none

structure ConversionOptions where
  validate : Option Bool := none
  preserveNames : Option Bool := none

/-- What the conversions take from outside: what the sequential converter does, the id it
generates for its workflow, and the text of the error that a config of a wrong type raises. -/
structure Environment extends SequentialToGraph.Environment where
  workflowId : String
  typeError : String

/-- A spread of values into one object, the later ones over the earlier. -/
def spreadInto (values : List JsValue) : JsValue :=
  some (.obj (values.foldl (fun fields value =>
    (spread value).foldl (fun fields field => Fields.set field.1 field.2 fields) fields) []))

def stamped (now convertedFrom : String) (metadata : List JsValue) : JsValue :=
  spreadInto (metadata ++
    [some (.obj [("converted", .str now), ("convertedFrom", .str convertedFrom)])])

/-- The fields a conversion copies although no conversion looks at them. -/
def copiedFields (workflow : Workflow) : List (String × Json) :=
  workflow.others.filter fun field => field.1 ∈ ["variables", "settings", "tags"]

def failed (message : String) : ConversionResult where
  success := false
  errors := [⟨"CONVERSION_FAILED", message⟩]
  statistics := some {}

def convertToGraph (env : Environment) (workflow : Workflow) : ConversionResult :=
  if workflow.format = "graph" then
    { success := true
      workflow := some workflow
      warnings := [⟨"ALREADY_GRAPH_FORMAT", "Workflow is already in graph format"⟩]
      statistics := some {} }
  else
    match SequentialToGraph.convert env.toEnvironment { workflowId := env.workflowId }
        workflow.actions with
    | none => failed env.typeError
    | some result =>
        { success := true
          workflow := some { result.workflow with
            metadata := stamped env.now "sequential"
              [workflow.metadata, result.workflow.metadata]
            others := copiedFields workflow }
          warnings := result.warnings.map (⟨"CONVERTER_WARNING", ·⟩)
          statistics := some {
            actionsAdded := result.stats.actionsConverted - workflow.actions.length
            actionsModified := result.stats.controlFlowExpanded
            connectionsChanged := result.stats.connectionsCreated } }

def errorMessage : GraphToSequential.ConversionError → String
  | .workflowValidation message | .nonLinear message _ => message

/-- An action that is there again with another config or name. -/
def isModified (workflow : Workflow) (action : Action) : Bool :=
  match workflow.actions.reverse.find? (·.id = action.id) with
  | none => false
  | some original => original.config ≠ action.config ∨ original.name ≠ action.name

def convertToSequential (env : Environment) (options : ConversionOptions) (workflow : Workflow) :
    ConversionResult :=
  let linearizability := LinearizabilityChecker.check workflow
  if linearizability.linearizable = false then
    { success := false
      errors := [⟨"NOT_LINEARIZABLE", "Workflow cannot be converted to sequential format"⟩]
      warnings := linearizability.issues.map (⟨"LINEARIZABILITY_ISSUE", ·⟩) }
  else
    match GraphToSequential.convert workflow
        { preserveNames := options.preserveNames.getD true
          validateOutput := options.validate.getD true } with
    | .error error => failed (errorMessage error)
    | .ok actions =>
        { success := true
          workflow := some {
            id := workflow.id
            name := workflow.name
            version := workflow.version
            -- sequential is a graph without connections
            format := "graph"
            actions
            connections := .empty
            metadata := stamped env.now "graph" [workflow.metadata]
            others := copiedFields workflow }
          statistics := some {
            actionsAdded := actions.length - workflow.actions.length
            actionsRemoved := workflow.actions.length - actions.length
            actionsModified := actions.countP (isModified workflow)
            connectionsChanged := workflow.connections.keys.length } }

/-! ### Chains -/

/-- The connections lead along the ids and out of nothing else of them. -/
def RunsInOrder (connections : Connections) : List String → Prop
  | [] => True
  | [id] => ((connections.get? id).elim [] Outputs.targets) = []
  | id :: nextId :: rest =>
      (connections.get? id).map Outputs.connections =
        some [{ action := nextId, type := "main", index := 0 }] ∧
      RunsInOrder connections (nextId :: rest)

/-- The workflow is a chain of plain actions in this order. -/
structure IsChain (workflow : Workflow) (order : List Action) : Prop where
  format : workflow.format = "graph"
  actions : workflow.actions.Perm order
  distinct : (order.map Action.id).Nodup
  plain : ∀ action ∈ order, action.type.name ∉ controlFlowNames
  connections : RunsInOrder workflow.connections (order.map Action.id)

/-- Made sequential and a graph again, the workflow is itself and runs in the same order. -/
def RoundTrips (env : Environment) (options : ConversionOptions) (workflow : Workflow)
    (order : List Action) : Prop :=
  ∃ sequential, (convertToSequential env options workflow).workflow = some sequential ∧
    (convertToGraph env sequential).success = true ∧
    ∃ graph, (convertToGraph env sequential).workflow = some graph ∧
      graph.id = workflow.id ∧ graph.name = workflow.name ∧
      RunsInOrder graph.connections (order.map Action.id)

variable {env : Environment} {options : ConversionOptions} {workflow sequential : Workflow}

theorem convertToSequential_bare
    (h : (convertToSequential env options workflow).workflow = some sequential) :
    sequential.format = "graph" ∧ sequential.connections = .empty := by
  unfold convertToSequential at h
  dsimp only at h
  split at h
  · cases h
  · split at h
    · cases h
    · cases h
      exact ⟨rfl, rfl⟩

theorem convertToGraph_of_graph (h : workflow.format = "graph") :
    (convertToGraph env workflow).workflow = some workflow := by
  simp only [convertToGraph, h, if_true]

theorem not_runsInOrder_empty {ids : List String} (h : 2 ≤ ids.length) :
    ¬ RunsInOrder .empty ids := by
  intro hruns
  match ids, h with
  | id :: nextId :: rest, _ =>
      obtain ⟨hfirst, -⟩ := hruns
      cases hfirst

theorem roundTrip_bare {order : List Action} (h : RoundTrips env options workflow order) :
    RunsInOrder .empty (order.map Action.id) := by
  obtain ⟨sequential, hsequential, -, graph, hgraph, -, -, hruns⟩ := h
  obtain ⟨hformat, hconnections⟩ := convertToSequential_bare hsequential
  rw [convertToGraph_of_graph hformat] at hgraph
  cases hgraph
  rwa [hconnections] at hruns

/-- No chain of two actions or more comes back as one. -/
theorem chain_lost {order : List Action} (_ : IsChain workflow order) (hlen : 2 ≤ order.length) :
    ¬ RoundTrips env options workflow order := by
  intro h
  exact not_runsInOrder_empty (by simpa using hlen) (roundTrip_bare h)

/-! ### A chain of two -/

def click (id : String) : Action where
  id
  type := .ofName "CLICK"
  config := some (.obj [])

def twoClicks : Workflow where
  id := "w"
  name := "Two clicks"
  version := "1.0.0"
  format := "graph"
  actions := [click "a", click "b"]
  connections := Workflow.chain .empty ["a", "b"]

def plainEnvironment : Environment where
  generateId := toString
  layout _ _ _ := none
  now := ""
  workflowId := "workflow"
  typeError := ""

theorem twoClicks_isChain : IsChain twoClicks [click "a", click "b"] where
  format := rfl
  actions := .refl _
  distinct := by decide
  plain := by decide
  connections := ⟨by decide, rfl⟩

theorem twoClicks_lost :
    ¬ RoundTrips plainEnvironment {} twoClicks [click "a", click "b"] :=
  chain_lost twoClicks_isChain (by simp)

theorem chains_do_not_round_trip :
    ¬ ∀ (env : Environment) (options : ConversionOptions) (workflow : Workflow)
      (order : List Action), IsChain workflow order → 2 ≤ order.length →
        RoundTrips env options workflow order := by
  intro h
  have hback := h plainEnvironment {} twoClicks _ twoClicks_isChain (by simp)
  exact not_runsInOrder_empty (by simp) (roundTrip_bare hback)

end Qontinui.FormatConverter
