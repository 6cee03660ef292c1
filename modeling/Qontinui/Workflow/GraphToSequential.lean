import Qontinui.Workflow.LinearizabilityChecker
import Qontinui.Workflow.PatternDetector

/-!
The conversion of a graph workflow to a list of actions: topological order, IF
and LOOP actions with the ids of their branches, and a check of the outcome.

An action that stands in a branch is taken out of the list, while the branch
keeps naming it. A workflow with a branch of actions therefore never comes out
whole.
-/

namespace Qontinui

mutual

/-- The text of a value in a template string. A fraction is written as a quotient. -/
def Json.toText : Json → String
  | .null => "null"
  | .bool b => toString b
  | .num n => if n.den = 1 then toString n.num else toString n
  | .str s => s
  | .arr items => ",".intercalate (itemTexts items)
  | .obj _ => "[object Object]"

/-- The texts an array joins; `null` has none. -/
def itemTexts : List Json → List String
  | [] => []
  | .null :: rest => "" :: itemTexts rest
  | item :: rest => item.toText :: itemTexts rest

end

namespace GraphToSequential

open PatternDetector Workflow

structure ConversionOptions where
  preserveNames : Bool := true
  validateOutput : Bool := true

inductive ConversionError where
  | workflowValidation (message : String)
  | nonLinear (message : String) (issues : List String)
  deriving DecidableEq

def canLinearize (workflow : Workflow) : LinearizabilityChecker.LinearizabilityResult :=
  if workflow.format ≠ "graph" then
    { linearizable := false, issues := ["Workflow is not in graph format"] }
  else LinearizabilityChecker.check workflow

def topologicalSort (workflow : Workflow) : Except ConversionError (List Action) :=
  match workflow.getTopologicalOrder with
  | none =>
      .error (.nonLinear "Cannot sort workflow: contains cycles" ["Cyclic dependencies detected"])
  | some order => .ok (order.filterMap workflow.getActionById)

def idArray (actions : List Action) : Json := .arr (actions.map fun action => .str action.id)

/-- An IF action with the ids of its branches, and the ids processed by then.
`rebuild` rebuilds the actions of a branch. -/
def reconstructIf (workflow : Workflow) (rebuild : List Action → List Action) (ifAction : Action)
    (processedActions : List String) : Action × List String :=
  match detectIfPattern workflow ifAction with
  | none => (ifAction, ifAction.id :: processedActions)
  | some pattern =>
      let fields := Fields.set "elseActions" (idArray (rebuild pattern.elseBranch))
        (Fields.set "thenActions" (idArray (rebuild pattern.thenBranch)) (spread ifAction.config))
      ({ ifAction with config := some (.obj fields) },
        ifAction.id :: (pattern.thenBranch ++ pattern.elseBranch).map Action.id ++
          processedActions)

/-- A LOOP action with the ids of its body, and the ids processed by then. -/
def reconstructLoop (workflow : Workflow) (rebuild : List Action → List Action)
    (loopAction : Action) (processedActions : List String) : Action × List String :=
  match detectLoopPattern workflow loopAction with
  | none => (loopAction, loopAction.id :: processedActions)
  | some pattern =>
      let fields :=
        Fields.set "actions" (idArray (rebuild pattern.bodyActions)) (spread loopAction.config)
      ({ loopAction with config := some (.obj fields) },
        loopAction.id :: pattern.bodyActions.map Action.id ++ processedActions)

/-- One action of the list: the actions rebuilt so far, and the ids processed. -/
def rebuildStep (workflow : Workflow) (rebuild : List Action → List Action)
    (state : List Action × List String) (action : Action) : List Action × List String :=
  let (result, processedActions) := state
  if action.id ∈ processedActions then state
  else
    let (rebuilt, processedActions) :=
      match action.type with
      | .IF => reconstructIf workflow rebuild action processedActions
      | .LOOP => reconstructLoop workflow rebuild action processedActions
      | _ => (action, action.id :: processedActions)
    (result ++ [rebuilt], processedActions)

/-- Each branch is rebuilt with a set of processed ids of its own. -/
def rebuildControlFlow (workflow : Workflow) : Nat → List Action → List Action
  | 0, actions => actions
  | fuel + 1, actions =>
      (actions.foldl (rebuildStep workflow (rebuildControlFlow workflow fuel)) ([], [])).1

/-- The action without what belongs to the graph; of the optional fields name, base
and execution are kept. -/
def cleanupAction (options : ConversionOptions) (action : Action) : Action where
  id := action.id
  type := action.type
  config := action.config
  name := if options.preserveNames then action.name.filter (· ≠ "") else none
  base := action.base.filter Json.truthy
  execution := action.execution.filter Json.truthy

def firstError {α : Type*} (check : α → Except ConversionError Unit) :
    List α → Except ConversionError Unit
  | [] => .ok ()
  | item :: rest => do
      check item
      firstError check rest

def validateStructure (item : Action × Nat) : Except ConversionError Unit :=
  let (action, index) := item
  if action.id = "" then
    .error (.workflowValidation s!"Action at index {index} missing ID")
  else if action.type.truthy = false then
    .error (.workflowValidation s!"Action {action.id} missing type")
  else if action.config.truthy = false then
    .error (.workflowValidation s!"Action {action.id} missing config")
  else .ok ()

def validateUnique : List String → List Action → Except ConversionError Unit
  | _, [] => .ok ()
  | ids, action :: rest =>
      if action.id ∈ ids then
        .error (.workflowValidation s!"Duplicate action ID: {action.id}")
      else validateUnique (action.id :: ids) rest

/-- The config fields in which an action of a type names the actions of its branches. -/
def branchFields : ActionType → List String
  | .IF => ["thenActions", "elseActions"]
  | .LOOP => ["actions"]
  | _ => []

/-- What an action's config names at a field, when there is an array. -/
def referencesAt (action : Action) (field : String) : List Json :=
  match action.config.bind fun config => config.child? field with
  | some (.arr references) => references
  | _ => []

def branchReferences (action : Action) : List Json :=
  (branchFields action.type).flatMap (referencesAt action)

def validateActionReferences (validIds : List String) (action : Action) :
    Except ConversionError Unit :=
  firstError (fun reference =>
    if reference ∈ validIds.map Json.str then .ok ()
    else
      .error (.workflowValidation
        (s!"Action {action.id} references non-existent action: " ++ reference.toText)))
    (branchReferences action)

def validateSequentialWorkflow (actions : List Action) : Except ConversionError Unit := do
  firstError validateStructure actions.zipIdx
  validateUnique [] actions
  firstError (validateActionReferences (actions.map Action.id)) actions

def convertSorted (workflow : Workflow) (options : ConversionOptions) (sorted : List Action) :
    Except ConversionError (List Action) := do
  let sequentialActions := rebuildControlFlow workflow workflow.searchDepth sorted
  let cleanedActions := sequentialActions.map (cleanupAction options)
  if options.validateOutput then validateSequentialWorkflow cleanedActions
  return cleanedActions

def convert (workflow : Workflow) (options : ConversionOptions) :
    Except ConversionError (List Action) :=
  if workflow.format ≠ "graph" then
    .error (.workflowValidation "Workflow is not in graph format")
  else if workflow.connections.keys = [] then
    .error (.workflowValidation "Graph workflow has no connections")
  else
    let linearizabilityResult := LinearizabilityChecker.check workflow
    if linearizabilityResult.linearizable = false then
      .error (.nonLinear "Workflow cannot be converted to sequential format"
        linearizabilityResult.issues)
    else do convertSorted workflow options (← topologicalSort workflow)

end GraphToSequential

end Qontinui
