import Qontinui.Base.Json
import Qontinui.Base.ObjectMap

/-!
Workflows in the graph format: actions, and the connections between them by
source, connection type and output.

Configs, base settings, execution settings, positions and expectations are kept
as the JSON values they are, since the code spreads and copies them whole.
-/

namespace Qontinui

/-- The names of the action types that the converters and the validation tell apart. -/
def controlFlowNames : List String := ["IF", "LOOP", "BREAK", "CONTINUE", "SWITCH", "TRY_CATCH"]

/-- Action types: those of the control flow, and every other one by its name. -/
inductive ActionType where
  | IF
  | LOOP
  | BREAK
  | CONTINUE
  | SWITCH
  | TRY_CATCH
  | other (name : String) (plain : name ∉ controlFlowNames)
  deriving DecidableEq

namespace ActionType

def name : ActionType → String
  | IF => "IF"
  | LOOP => "LOOP"
  | BREAK => "BREAK"
  | CONTINUE => "CONTINUE"
  | SWITCH => "SWITCH"
  | TRY_CATCH => "TRY_CATCH"
  | other name _ => name

theorem click_plain : "CLICK" ∉ controlFlowNames := by decide

def ofName (name : String) : ActionType :=
  if name = "IF" then IF
  else if name = "LOOP" then LOOP
  else if name = "BREAK" then BREAK
  else if name = "CONTINUE" then CONTINUE
  else if name = "SWITCH" then SWITCH
  else if name = "TRY_CATCH" then TRY_CATCH
  else if plain : name ∉ controlFlowNames then other name plain
  else IF

@[simp] theorem name_ofName (name : String) : (ofName name).name = name := by
  unfold ofName
  split_ifs <;> simp_all [ActionType.name, controlFlowNames]

/-- A type is falsy only as the empty string. -/
def truthy (type : ActionType) : Bool := type.name ≠ ""

end ActionType

structure Action where
  id : String
  type : ActionType
  name : Option String := none
  config : JsValue
  base : JsValue := none
  execution : JsValue := none
  position : JsValue := none
  expectations : JsValue := none
  deriving DecidableEq

/-- The connection types, in the order in which the code goes through them. -/
inductive ConnectionType where
  | main
  | error
  | success
  | parallel
  deriving DecidableEq

namespace ConnectionType

def all : List ConnectionType := [main, error, success, parallel]

def name : ConnectionType → String
  | main => "main"
  | error => "error"
  | success => "success"
  | parallel => "parallel"

/-- The connection type of a name; `none` for a name that is none of the four. -/
def ofName? (name : String) : Option ConnectionType := all.find? fun type => type.name = name

theorem mem_all (type : ConnectionType) : type ∈ all := by cases type <;> simp [all]

@[simp] theorem ofName?_name (type : ConnectionType) : ofName? type.name = some type := by
  cases type <;> rfl

end ConnectionType

/-- One connection: its target, the type it names and the input it goes to.
`properties` holds label, condition, weight and description as they are. -/
structure Connection where
  action : String
  type : String
  index : Int
  properties : List (String × Json) := []
  deriving DecidableEq

/-- The connections from one action, for each type by output. -/
structure Outputs where
  main : Option (List (List Connection)) := none
  error : Option (List (List Connection)) := none
  success : Option (List (List Connection)) := none
  parallel : Option (List (List Connection)) := none
  deriving DecidableEq

namespace Outputs

/-- `outputs[type]`. -/
def get (outputs : Outputs) : ConnectionType → Option (List (List Connection))
  | .main => outputs.main
  | .error => outputs.error
  | .success => outputs.success
  | .parallel => outputs.parallel

/-- `outputs[type] = connections`. -/
def set (outputs : Outputs) (type : ConnectionType) (connections : List (List Connection)) :
    Outputs :=
  match type with
  | .main => { outputs with main := some connections }
  | .error => { outputs with error := some connections }
  | .success => { outputs with success := some connections }
  | .parallel => { outputs with parallel := some connections }

@[simp] theorem get_set_self (outputs : Outputs) (type : ConnectionType)
    (connections : List (List Connection)) :
    (outputs.set type connections).get type = some connections := by
  cases type <;> rfl

theorem get_set_ne (outputs : Outputs) {type other : ConnectionType} (h : other ≠ type)
    (connections : List (List Connection)) :
    (outputs.set type connections).get other = outputs.get other := by
  cases type <;> cases other <;> first | rfl | exact absurd rfl h

def ofType (outputs : Outputs) (type : ConnectionType) : List Connection :=
  ((outputs.get type).getD []).flatten

/-- All connections, type by type and output by output. -/
def connections (outputs : Outputs) : List Connection :=
  ConnectionType.all.flatMap outputs.ofType

theorem mem_connections_iff {outputs : Outputs} {conn : Connection} :
    conn ∈ outputs.connections ↔ ∃ type, conn ∈ outputs.ofType type := by
  simp [connections, ConnectionType.mem_all]

/-- One main connection, to the first input of `target`. -/
def leadsTo (target : String) : Outputs :=
  { main := some [[{ action := target, type := "main", index := 0 }]] }

def targets (outputs : Outputs) : List String := outputs.connections.map Connection.action

@[simp] theorem targets_empty : ({} : Outputs).targets = [] := rfl

end Outputs

/-- `outputs[outputIndex].push(conn)`, once there are outputs up to the index. -/
def pushOutput (outputs : List (List Connection)) (outputIndex : Nat) (conn : Connection) :
    List (List Connection) :=
  (outputs ++ List.replicate (outputIndex + 1 - outputs.length) []).modify outputIndex
    (· ++ [conn])

variable {outputIndex : Nat} {conn : Connection}

theorem mem_pushOutput {outputs : List (List Connection)} {other : Connection} :
    other ∈ (pushOutput outputs outputIndex conn).flatten ↔
      other ∈ outputs.flatten ∨ other = conn := by
  have hpush : ∀ (padded : List (List Connection)) (index : Nat), index < padded.length →
      (other ∈ (padded.modify index (· ++ [conn])).flatten ↔
        other ∈ padded.flatten ∨ other = conn) := by
    intro padded
    induction padded with
    | nil => intro index h; cases h
    | cons output rest ih =>
        intro index h
        cases index with
        | zero => simp [or_comm, or_left_comm]
        | succ index =>
            have hrest := ih index (by simpa using h)
            simp only [List.modify_succ_cons, List.flatten_cons, List.mem_append, hrest, or_assoc]
  unfold pushOutput
  rw [hpush _ _ (by simp; omega)]
  simp [List.flatten_append]

/-- `outputs[type]` with a connection more. -/
def Outputs.push (outputs : Outputs) (type : ConnectionType) (outputIndex : Nat)
    (conn : Connection) : Outputs :=
  outputs.set type (pushOutput ((outputs.get type).getD []) outputIndex conn)

theorem Outputs.mem_targets_push {outputs : Outputs} {type : ConnectionType} {target : String} :
    target ∈ (outputs.push type outputIndex conn).targets ↔
      target ∈ outputs.targets ∨ target = conn.action := by
  have hmem : ∀ other, other ∈ (outputs.push type outputIndex conn).connections ↔
      other ∈ outputs.connections ∨ other = conn := by
    intro other
    rw [mem_connections_iff, mem_connections_iff]
    constructor
    · rintro ⟨kind, hkind⟩
      by_cases h : kind = type
      · subst h
        simp only [ofType, push, get_set_self, Option.getD_some, mem_pushOutput] at hkind
        exact hkind.imp_left fun hold => ⟨kind, hold⟩
      · simp only [ofType, push, get_set_ne _ h] at hkind
        exact .inl ⟨kind, hkind⟩
    · rintro (⟨kind, hkind⟩ | rfl)
      · refine ⟨kind, ?_⟩
        by_cases h : kind = type
        · subst h
          simp only [ofType, push, get_set_self, Option.getD_some, mem_pushOutput]
          exact .inl hkind
        · simpa only [ofType, push, get_set_ne _ h] using hkind
      · exact ⟨type, by simp only [ofType, push, get_set_self, Option.getD_some, mem_pushOutput,
          or_true]⟩
  simp only [targets, List.mem_map, hmem]
  constructor
  · rintro ⟨other, hold | rfl, rfl⟩
    · exact .inl ⟨other, hold, rfl⟩
    · exact .inr rfl
  · rintro (⟨other, hold, rfl⟩ | rfl)
    · exact ⟨other, .inl hold, rfl⟩
    · exact ⟨conn, .inr rfl, rfl⟩

/-- `connections[sourceActionId][outputType][outputIndex][connectionIndex]`. -/
abbrev Connections := ObjectMap Outputs

def Connections.targets (connections : Connections) : List String :=
  connections.values.flatMap Outputs.targets

/-- A connection of some type leads from `a` to `b`. -/
def Connections.Leads (connections : Connections) (a b : String) : Prop :=
  ∃ outputs, connections.get? a = some outputs ∧ b ∈ outputs.targets

/-- The connections with one more, from `sourceId`. -/
def Connections.push (connections : Connections) (sourceId : String) (type : ConnectionType)
    (outputIndex : Nat) (conn : Connection) : Connections :=
  connections.set sourceId
    (((connections.get? sourceId).getD {}).push type outputIndex conn)

theorem Connections.leads_push {connections : Connections} {sourceId : String}
    {type : ConnectionType} {a b : String} :
    (connections.push sourceId type outputIndex conn).Leads a b ↔
      connections.Leads a b ∨ a = sourceId ∧ b = conn.action := by
  unfold Leads push
  by_cases h : a = sourceId
  · subst h
    simp only [ObjectMap.get?_set_self, Option.some.injEq, exists_eq_left',
      Outputs.mem_targets_push, true_and]
    apply or_congr_left
    cases connections.get? a with
    | none | some => simp
  · simp [ObjectMap.get?_set_ne _ h, h]

structure Workflow where
  id : String
  name : String
  version : String
  format : String
  actions : List Action
  connections : Connections
  category : Option String := none
  description : Option String := none
  initialScreenshotId : Option String := none
  initialStateIds : Option (List String) := none
  metadata : JsValue := none
  /-- The fields that no modelled function looks at. -/
  others : List (String × Json) := []
  deriving DecidableEq

def Workflow.actionIds (workflow : Workflow) : List String := workflow.actions.map Action.id

end Qontinui
