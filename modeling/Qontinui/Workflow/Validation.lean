import Qontinui.Workflow.WorkflowUtils

/-!
`validateWorkflow`, and what a valid workflow is good for: its connections lead
from actions to actions, and the only cycles it can have are those that no entry
point leads to.
-/

namespace Qontinui

def getActionOutputCount (actionType : ActionType) (config : JsValue) : Nat :=
  match actionType with
  | .IF => 2
  | .TRY_CATCH => 2
  | .SWITCH =>
      match config.bind fun value => value.child? "cases" with
      | some (.arr cases) => cases.length + 1
      | _ => 1
  | _ => 1

def getActionInputCount : Nat := 1

namespace Workflow

inductive ValidationErrorType where
  | missingAction
  | invalidConnection
  | cycleDetected
  | missingEntryPoint
  | invalidOutputIndex
  | invalidInputIndex
  | duplicateActionId
  | invalidConnectionType
  | missingConnections
  | invalidPosition
  | orphanedAction
  deriving DecidableEq

structure ValidationError where
  type : ValidationErrorType
  message : String
  actionId : Option String := none
  details : JsValue := none
  deriving DecidableEq

structure ValidationResult where
  valid : Bool
  errors : List ValidationError
  deriving DecidableEq

/-- What the validation is handed. The type of a workflow has all of these fields;
an import may lack some, or have no array of actions. -/
structure WorkflowInput where
  id : Option String
  name : Option String
  version : Option String
  format : Option String
  actions : Option (List Action)
  connections : Option Connections

def WorkflowInput.workflow? (input : WorkflowInput) : Option Workflow :=
  match input.actions, input.connections with
  | some actions, some connections =>
      some { id := input.id.getD "", name := input.name.getD "",
             version := input.version.getD "", format := input.format.getD "",
             actions, connections }
  | _, _ => none

def Connection.toJson (conn : Connection) : Json :=
  .obj (("action", .str conn.action) :: ("type", .str conn.type) ::
    ("index", .num conn.index) :: conn.properties)

/-- The checks of one connection; `outputIndex` and `connIndex` say where it stands. -/
def validateConnection (workflow : Workflow) (sourceId : String) (outputIndex connIndex : Nat)
    (conn : Connection) : List ValidationError :=
  match workflow.getActionById conn.action with
  | none =>
      [{ type := .missingAction
         message := s!"Connection target action not found: {conn.action}"
         actionId := some sourceId
         details := some (.obj [("targetAction", .str conn.action),
           ("outputIndex", .num outputIndex), ("connectionIndex", .num connIndex)]) }]
  | some targetAction =>
      (if (ConnectionType.ofName? conn.type).isNone then
        [{ type := .invalidConnectionType
           message := s!"Invalid connection type: {conn.type}"
           actionId := some sourceId
           details := some (.obj [("connection", Connection.toJson conn),
             ("outputIndex", .num outputIndex), ("connectionIndex", .num connIndex)]) }]
      else []) ++
      (if (getActionInputCount : Int) ≤ conn.index then
        [{ type := .invalidInputIndex
           message := s!"Target action {conn.action} ({targetAction.type.name}) has " ++
             s!"{getActionInputCount} inputs but connection uses index {conn.index}"
           actionId := some sourceId
           details := some (.obj [("targetAction", .str conn.action),
             ("expectedInputs", .num getActionInputCount), ("actualIndex", .num conn.index)]) }]
      else [])

def validateOutputs (workflow : Workflow) (sourceAction : Action) (sourceId : String)
    (connections : List (List Connection)) : List ValidationError :=
  let outputCount := getActionOutputCount sourceAction.type sourceAction.config
  (if outputCount < connections.length then
    [{ type := .invalidOutputIndex
       message := s!"Action {sourceId} ({sourceAction.type.name}) has {outputCount} outputs " ++
         s!"but connections use {connections.length} outputs"
       actionId := some sourceId
       details := some (.obj [("expectedOutputs", .num outputCount),
         ("actualOutputs", .num connections.length)]) }]
  else []) ++
  (connections.mapIdx fun outputIndex outputConnections =>
    (outputConnections.mapIdx fun connIndex conn =>
      workflow.validateConnection sourceId outputIndex connIndex conn).flatten).flatten

def validateConnections (workflow : Workflow) : List ValidationError :=
  workflow.connections.entries.flatMap fun (sourceId, outputs) =>
    match workflow.getActionById sourceId with
    | none =>
        [{ type := .missingAction
           message := s!"Connection source action not found: {sourceId}"
           actionId := some sourceId }]
    | some sourceAction =>
        ConnectionType.all.flatMap fun type =>
          match outputs.get type with
          | none => []
          | some connections => workflow.validateOutputs sourceAction sourceId connections

def validatePosition (action : Action) : List ValidationError :=
  let invalid (message : String) : List ValidationError :=
    [{ type := .invalidPosition, message, actionId := some action.id,
       details := some (.obj [("position", action.position.getD .null)]) }]
  if action.position.truthy = false then
    [{ type := .invalidPosition
       message := s!"Action {action.id} is missing position (required for graph format)"
       actionId := some action.id }]
  else
    match action.position with
    | some (.arr [.num _, .num _]) => []
    | some (.arr [_, _]) => invalid s!"Action {action.id} has non-numeric position values"
    | _ => invalid s!"Action {action.id} has invalid position format (expected [x, y])"

/-- One error for each action whose id an earlier action has. -/
def duplicateErrors : List String → List Action → List ValidationError
  | _, [] => []
  | actionIds, action :: rest =>
      (if action.id ∈ actionIds then
        [{ type := .duplicateActionId, message := s!"Duplicate action ID: {action.id}",
           actionId := some action.id }]
      else []) ++ duplicateErrors (action.id :: actionIds) rest

def validateGraph (workflow : Workflow) : List ValidationError :=
  let orphans := workflow.findOrphanedActions
  duplicateErrors [] workflow.actions ++
  workflow.validateConnections ++
  workflow.actions.flatMap validatePosition ++
  (if workflow.hasCycles then
    [{ type := .cycleDetected, message := "Workflow contains circular dependencies (cycles)" }]
  else []) ++
  (if workflow.getEntryPoints = [] then
    [{ type := .missingEntryPoint, message := "Workflow has no entry points" }]
  else []) ++
  (if orphans ≠ [] then
    [{ type := .orphanedAction
       message := s!"Found {orphans.length} orphaned action(s): " ++ ", ".intercalate orphans
       details := some (.obj [("orphans", .arr (orphans.map .str))]) }]
  else [])

def requireField (value : Option String) (message : String) : List ValidationError :=
  if value.getD "" = "" then [{ type := .missingAction, message }] else []

def validateWorkflow (input : WorkflowInput) : ValidationResult :=
  let errors := requireField input.id "Workflow must have an id" ++
    requireField input.name "Workflow must have a name" ++
    requireField input.version "Workflow must have a version"
  match input.actions with
  | none =>
      let missing := { type := .missingAction, message := "Workflow must have an actions array" }
      { valid := false, errors := errors ++ [missing] }
  | some [] =>
      let missing :=
        { type := .missingAction, message := "Workflow must have at least one action" }
      { valid := false, errors := errors ++ [missing] }
  | some (_ :: _) =>
      let format := input.format.getD "undefined"
      let errors := errors ++
        if format = "graph" then [] else
          [{ type := .invalidConnection
             message := s!"Workflow format must be 'graph', got '{format}'" }]
      match input.workflow? with
      | none =>
          let missing : ValidationError :=
            { type := .missingConnections
              message := "Graph format workflows must have connections" }
          { valid := false, errors := errors ++ [missing] }
      | some workflow =>
          let errors := errors ++ workflow.validateGraph
          { valid := errors.isEmpty, errors }

/-! ### What the checks leave -/

variable {workflow : Workflow}

theorem target_of_validateConnection {sourceId : String} {outputIndex connIndex : Nat}
    {conn : Connection}
    (h : workflow.validateConnection sourceId outputIndex connIndex conn = []) :
    conn.action ∈ workflow.actionIds := by
  unfold validateConnection at h
  split at h
  · cases h
  · next _ target htarget =>
      rw [← getActionById_isSome_iff, htarget]
      rfl

theorem targets_of_validateOutputs {sourceAction : Action} {sourceId : String}
    {connections : List (List Connection)}
    (h : workflow.validateOutputs sourceAction sourceId connections = []) {conn : Connection}
    (hconn : conn ∈ connections.flatten) : conn.action ∈ workflow.actionIds := by
  obtain ⟨outputConnections, houtput, hmem⟩ := List.mem_flatten.mp hconn
  obtain ⟨outputIndex, hlt, rfl⟩ := List.mem_iff_getElem.mp houtput
  obtain ⟨connIndex, hlt', rfl⟩ := List.mem_iff_getElem.mp hmem
  have houter := List.flatten_eq_nil_iff.mp (List.append_eq_nil_iff.mp h).2 _
    (List.mem_mapIdx.mpr ⟨outputIndex, hlt, rfl⟩)
  have hinner := List.flatten_eq_nil_iff.mp houter _
    (List.mem_mapIdx.mpr ⟨connIndex, hlt', rfl⟩)
  exact target_of_validateConnection hinner

theorem endsAreActions_of_validateConnections (h : workflow.validateConnections = []) :
    workflow.EndsAreActions := by
  rintro a b ⟨outputs, ha, hb⟩
  have hentry := List.flatMap_eq_nil_iff.mp h (a, outputs) (ObjectMap.get?_eq_some_iff.mp ha)
  cases hsource : workflow.getActionById a with
  | none => simp [hsource] at hentry
  | some source =>
      refine ⟨by rw [← getActionById_isSome_iff, hsource]; rfl, ?_⟩
      simp only [hsource] at hentry
      obtain ⟨conn, hconn, rfl⟩ := List.mem_map.mp hb
      obtain ⟨type, htype⟩ := Outputs.mem_connections_iff.mp hconn
      have hchecked := List.flatMap_eq_nil_iff.mp hentry type type.mem_all
      cases houtputs : outputs.get type with
      | none => simp [Outputs.ofType, houtputs] at htype
      | some connections =>
          simp only [houtputs] at hchecked
          simp only [Outputs.ofType, houtputs] at htype
          exact targets_of_validateOutputs hchecked htype

/-- What a valid workflow has passed. -/
structure Checked (workflow : Workflow) : Prop where
  ends : workflow.EndsAreActions
  searched : workflow.hasCycles = false

theorem checked_of_validateGraph (h : workflow.validateGraph = []) : workflow.Checked := by
  simp only [validateGraph, List.append_eq_nil_iff] at h
  obtain ⟨⟨⟨⟨⟨_, hconnections⟩, _⟩, hcycles⟩, _⟩, _⟩ := h
  refine ⟨endsAreActions_of_validateConnections hconnections, ?_⟩
  by_contra hfound
  simp [hfound] at hcycles

theorem checked_of_valid {input : WorkflowInput} (h : (validateWorkflow input).valid = true) :
    ∃ workflow, input.workflow? = some workflow ∧ workflow.Checked := by
  unfold validateWorkflow at h
  split at h
  · cases h
  · cases h
  · split at h
    · cases h
    · next _ _ _ _ workflow hworkflow =>
        refine ⟨workflow, hworkflow, checked_of_validateGraph ?_⟩
        have hnil := List.isEmpty_iff.mp h
        exact (List.append_eq_nil_iff.mp hnil).2

theorem Checked.sound (h : workflow.Checked)
    (hcycles : ∀ a, Relation.TransGen workflow.Connected a a → workflow.ReachedFromEntry a) :
    workflow.Acyclic ∧ ∀ a ∈ workflow.actionIds, workflow.ReachedFromEntry a := by
  have hacyclic : workflow.Acyclic := fun a hcycle =>
    not_cycle_of_reached h.searched (hcycles a hcycle) hcycle
  refine ⟨hacyclic, fun a ha => ?_⟩
  have hnodes : ∀ b ∈ workflow.actionIds, ∀ c, DepthFirst.Step workflow.getNextActions c b →
      c ∈ workflow.actionIds := fun b _ c hstep => (h.ends c b (mem_getNextActions.mp hstep)).1
  obtain ⟨e, he, hsource, hreach⟩ := DepthFirst.reached_from_source hnodes
    (fun b _ => by rw [DepthFirst.OnCycle, step_getNextActions]; exact hacyclic b) ha
  rw [DepthFirst.Reaches, step_getNextActions] at hreach
  refine ⟨e, mem_getEntryPoints.mpr ⟨he, fun htarget => ?_⟩, hreach⟩
  obtain ⟨b, hb⟩ := mem_targets_iff.mp htarget
  exact hsource b (mem_getNextActions.mpr hb)

/-- A valid workflow is acyclic and reached from its entry points exactly when those
lead to every action that lies on a cycle. -/
theorem valid_sound_iff (input : WorkflowInput) (h : (validateWorkflow input).valid = true) :
    ∃ workflow, input.workflow? = some workflow ∧
      ((workflow.Acyclic ∧ ∀ a ∈ workflow.actionIds, workflow.ReachedFromEntry a) ↔
        ∀ a, Relation.TransGen workflow.Connected a a → workflow.ReachedFromEntry a) := by
  obtain ⟨workflow, hworkflow, hchecked⟩ := checked_of_valid h
  refine ⟨workflow, hworkflow, fun hsound a hcycle => ?_, hchecked.sound⟩
  obtain ⟨b, hab, _⟩ := Relation.TransGen.head'_iff.mp hcycle
  exact hsound.2 a (hchecked.ends a b hab).1

def placed (id : String) : Action where
  id
  type := .other "CLICK" ActionType.click_plain
  config := some (.obj [])
  position := some (.arr [.num 0, .num 0])

/-- The entry point `a` leads to `b`; `c` and `d` lead to each other. -/
def islands : Workflow where
  id := "w"
  name := "islands"
  version := "1.0.0"
  format := "graph"
  actions := ["a", "b", "c", "d"].map placed
  connections := ⟨[("a", .leadsTo "b"), ("c", .leadsTo "d"), ("d", .leadsTo "c")], by decide⟩

def islandsInput : WorkflowInput where
  id := some islands.id
  name := some islands.name
  version := some islands.version
  format := some islands.format
  actions := some islands.actions
  connections := some islands.connections

theorem valid_sound_iff_islands :
    ∃ workflow, islandsInput.workflow? = some workflow ∧
      ((workflow.Acyclic ∧ ∀ a ∈ workflow.actionIds, workflow.ReachedFromEntry a) ↔
        ∀ a, Relation.TransGen workflow.Connected a a → workflow.ReachedFromEntry a) :=
  valid_sound_iff islandsInput (by decide)

/-- The cycle of `c` and `d` goes unnoticed. -/
theorem valid_with_unreached_cycle :
    (validateWorkflow islandsInput).valid = true ∧ islandsInput.workflow? = some islands ∧
      ¬ islands.Acyclic ∧ "c" ∈ islands.actionIds ∧ ¬ islands.ReachedFromEntry "c" := by
  have hcd : islands.Connected "c" "d" := ⟨Outputs.leadsTo "d", rfl, by decide⟩
  have hdc : islands.Connected "d" "c" := ⟨Outputs.leadsTo "c", rfl, by decide⟩
  have hcycle : Relation.TransGen islands.Connected "c" "c" := .tail (.single hcd) hdc
  exact ⟨by decide, rfl, fun hacyclic => hacyclic "c" hcycle, by decide,
    fun hreached => not_cycle_of_reached (by decide) hreached hcycle⟩

end Workflow

end Qontinui
