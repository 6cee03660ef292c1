import Qontinui.Base.JsText
import Qontinui.Workflow.ActionTypes

/-!
The reference validator of the project optimization: references of actions, patterns
and transitions to workflows, states and images that are not in the project. `numberText`
is how a number reads in a message.

The unused resource detector: images that no pattern and no action uses, states without a
transition, and workflows that no workflow runs.
-/

namespace Qontinui.Optimization

structure Pattern where
  imageId : Option String := none
  deriving DecidableEq

structure StateImage where
  id : String
  name : String
  patterns : List Pattern
  deriving DecidableEq

structure State where
  id : String
  name : String
  initial : Option Bool := none
  stateImages : List StateImage
  deriving DecidableEq

structure ImageAsset where
  id : String
  name : String
  deriving DecidableEq

structure OutgoingTransition where
  id : String
  workflows : List String
  fromState : String
  toState : Option String := none
  activateStates : List String
  deriving DecidableEq

structure IncomingTransition where
  id : String
  workflows : List String
  toState : String
  deriving DecidableEq

/-- `Transition`, by its `type`. -/
inductive Transition where
  | outgoing (transition : OutgoingTransition)
  | incoming (transition : IncomingTransition)
  deriving DecidableEq

namespace Transition

def id : Transition → String
  | .outgoing transition => transition.id
  | .incoming transition => transition.id

def workflows : Transition → List String
  | .outgoing transition => transition.workflows
  | .incoming transition => transition.workflows

end Transition

structure Project where
  workflows : List Workflow
  states : List State
  images : List ImageAsset
  transitions : List Transition
  deriving DecidableEq

namespace Project

def workflowIds (project : Project) : List String := project.workflows.map (·.id)

def stateIds (project : Project) : List String := project.states.map (·.id)

def imageIds (project : Project) : List String := project.images.map (·.id)

end Project

inductive ReferenceType where
  | workflow
  | state
  | image
  deriving DecidableEq

def ReferenceType.name : ReferenceType → String
  | workflow => "workflow"
  | state => "state"
  | image => "image"

inductive SourceType where
  | workflow
  | state
  | transition
  deriving DecidableEq

structure ReferenceSource where
  type : SourceType
  id : String
  name : String
  deriving DecidableEq

structure BrokenReference where
  type : ReferenceType
  source : ReferenceSource
  referencedId : JsValue
  location : Option String := none
  message : String
  deriving DecidableEq

/-- `ids.has(value)` -/
def isKnown (ids : List String) : JsValue → Bool
  | some (.str id) => id ∈ ids
  | _ => false

/-- `config.target?.image` -/
def targetImage (config : Json) : JsValue := (config.child? "target").bind (·.child? "image")

section Messages

variable (numberText : Rat → String)

def brokenInAction (workflow : Workflow) (action : Action) (type : ReferenceType)
    (ids : List String) (value : JsValue) : List BrokenReference :=
  if value.truthy && !isKnown ids value then
    let label := match action.name with
      | none | some "" => action.id
      | some name => name
    [{ type := type
       source := { type := .workflow, id := workflow.id, name := workflow.name }
       referencedId := value
       location := some action.id
       message := s!"Action \"{label}\" references missing {type.name} " ++
         s!"\"{value.text numberText}\"" }]
  else []

def findBrokenActionReferences (project : Project) (workflow : Workflow) (action : Action) :
    Js (List BrokenReference) :=
  match action.config with
  | none | some .null => .error .typeError
  | some config =>
      let broken := brokenInAction numberText workflow action
      .ok <|
        (if action.type.name = "RUN_WORKFLOW" then
          broken .workflow project.workflowIds (config.child? "workflowId") else []) ++
        (if action.type.name = "GO_TO_STATE" then
          broken .state project.stateIds (config.child? "stateId") else []) ++
        broken .image project.imageIds (targetImage config) ++
        broken .image project.imageIds (config.child? "imageId")

def findBrokenWorkflowReferences (project : Project) (workflow : Workflow) :
    Js (List BrokenReference) := do
  return (← workflow.actions.mapM (findBrokenActionReferences numberText project workflow)).flatten

def findBrokenStateReferences (project : Project) (state : State) : List BrokenReference :=
  state.stateImages.flatMap fun stateImage =>
    stateImage.patterns.flatMap fun pattern =>
      match pattern.imageId with
      | none | some "" => []
      | some imageId =>
          if imageId ∈ project.imageIds then []
          else
            [{ type := .image
               source := { type := .state, id := state.id, name := state.name }
               referencedId := some (.str imageId)
               location := some stateImage.id
               message := s!"State image \"{stateImage.name}\" pattern references " ++
                 s!"missing image \"{imageId}\"" }]

def brokenInTransition (transition : Transition) (type : ReferenceType) (role : String)
    (ids : List String) (id : String) : List BrokenReference :=
  if id ∈ ids then []
  else
    [{ type := type
       source := { type := .transition, id := transition.id, name := transition.id }
       referencedId := some (.str id)
       message := s!"Transition references missing {role} \"{id}\"" }]

def findBrokenTransitionReferences (project : Project) (transition : Transition) :
    List BrokenReference :=
  let state := brokenInTransition transition .state
  transition.workflows.flatMap
      (brokenInTransition transition .workflow "workflow" project.workflowIds) ++
    match transition with
    | .outgoing outgoing =>
        state "from state" project.stateIds outgoing.fromState ++
        (match outgoing.toState with
          | none | some "" => []
          | some toState => state "to state" project.stateIds toState) ++
        outgoing.activateStates.flatMap (state "activate state" project.stateIds)
    | .incoming incoming => state "to state" project.stateIds incoming.toState

def validateAllReferences (project : Project) : Js (List BrokenReference) := do
  let inWorkflows ← project.workflows.mapM (findBrokenWorkflowReferences numberText project)
  return inWorkflows.flatten ++
    project.states.flatMap (findBrokenStateReferences project) ++
    project.transitions.flatMap (findBrokenTransitionReferences project)

end Messages

/-! ### Images -/

structure ImageUse where
  type : SourceType
  id : String
  name : String
  deriving DecidableEq

structure ImageAnalysis where
  imageId : String
  name : String
  isUsed : Bool
  usageCount : Nat
  usedIn : List ImageUse
  deriving DecidableEq

def usedInState (image : ImageAsset) (state : State) : Bool :=
  state.stateImages.any fun si => si.patterns.any fun p => p.imageId = some image.id

/-- The action's config names the image. An action without a config throws. -/
def usedInAction (image : ImageAsset) (action : Action) : Js Bool :=
  match action.config with
  | none | some .null => .error .typeError
  | some config =>
      .ok (targetImage config = some (.str image.id) ||
        config.child? "imageId" = some (.str image.id))

/-- `some` stops at the first action that names the image. -/
def usedInWorkflow (image : ImageAsset) (workflow : Workflow) : Js Bool :=
  workflow.actions.anyM (usedInAction image)

def analyzeImage (project : Project) (image : ImageAsset) : Js ImageAnalysis := do
  let states := project.states.filter (usedInState image)
  let workflows ← project.workflows.filterM (usedInWorkflow image)
  let usedIn :=
    states.map (fun state => { type := .state, id := state.id, name := state.name }) ++
    workflows.map fun workflow => { type := .workflow, id := workflow.id, name := workflow.name }
  return {
    imageId := image.id
    name := image.name
    isUsed := 0 < usedIn.length
    usageCount := usedIn.length
    usedIn := usedIn }

def analyzeImages (project : Project) : Js (List ImageAnalysis) :=
  project.images.mapM (analyzeImage project)

def findUnusedImages (project : Project) : Js (List String) := do
  return ((← analyzeImages project).filter (!·.isUsed)).map (·.imageId)

/-! ### Workflows -/

/-- `dependencies.add(value)`: an object is never one that the set has already. -/
def addDependency (dependencies : List Json) (value : Json) : List Json :=
  match value with
  | .arr _ | .obj _ => dependencies ++ [value]
  | _ => if value ∈ dependencies then dependencies else dependencies ++ [value]

/-- The dependency that a `RUN_WORKFLOW` action adds. -/
def addRunWorkflow (dependencies : List Json) (action : Action) : Js (List Json) :=
  if action.type.name ≠ "RUN_WORKFLOW" then .ok dependencies
  else
    match action.config with
    | none | some .null => .error .typeError
    | some config =>
        match config.child? "workflowId" with
        | none => .ok dependencies
        | some workflowId =>
            .ok (if workflowId.truthy then addDependency dependencies workflowId
              else dependencies)

def analyzeDependencies (workflow : Workflow) : Js (List Json) :=
  workflow.actions.foldlM addRunWorkflow []

def findUnusedWorkflows (project : Project) : Js (List String) := do
  let used := (← project.workflows.mapM analyzeDependencies).flatten
  return (project.workflows.filter fun w => .str w.id ∉ used).map (·.id)

/-! ### States -/

def statesInTransition : Transition → List String
  | .outgoing t =>
      t.fromState :: (match t.toState with
        | none | some "" => []
        | some toState => [toState]) ++ t.activateStates
  | .incoming t => [t.toState]

def findOrphanedStates (project : Project) : List String :=
  let statesInTransitions := project.transitions.flatMap statesInTransition
  (project.states.filter fun s =>
    s.id ∉ statesInTransitions && !(s.initial.getD false)).map (·.id)

end Qontinui.Optimization
