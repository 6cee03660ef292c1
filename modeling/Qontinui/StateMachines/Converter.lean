import Qontinui.Base.Json
import Qontinui.Base.Numbered
import Qontinui.Base.ObjectMap

/-!
Importing a generated state machine into a project: the check of the generated config, and the
merge, which gives everything that it copies a new id and renames the references to it.
-/

namespace Qontinui.StateMachines

open Numbered

/-! ### Configs -/

abbrev OtherFields := List (String × Json)

structure ImageAsset where
  id : String
  rest : OtherFields := []
deriving DecidableEq

structure Pattern where
  id : String
  imageId : String
  rest : OtherFields := []
deriving DecidableEq

structure StateImage where
  id : String
  name : String
  patterns : List Pattern
  rest : OtherFields := []
deriving DecidableEq

structure State where
  id : String
  stateImages : List StateImage
  isInitial : Option Bool := none
  rest : OtherFields := []
deriving DecidableEq

structure OutgoingTransition where
  id : String
  fromState : String
  toState : String
  activateStates : List String
  deactivateStates : List String
  rest : OtherFields := []
deriving DecidableEq

structure IncomingTransition where
  id : String
  toState : String
  rest : OtherFields := []
deriving DecidableEq

/-- `Transition`, by its `type`. -/
inductive Transition
  | outgoing (transition : OutgoingTransition)
  | incoming (transition : IncomingTransition)
deriving DecidableEq

def Transition.id : Transition → String
  | .outgoing transition => transition.id
  | .incoming transition => transition.id

structure ConfigMetadata where
  name : String
  modified : String
  rest : OtherFields := []
deriving DecidableEq

structure QontinuiConfig where
  version : String
  metadata : ConfigMetadata
  images : List ImageAsset
  states : List State
  transitions : List Transition
  rest : OtherFields := []
deriving DecidableEq

/-! ### Merging -/

/-- The `Map` from old ids to new ones. -/
abbrev IdMapping := ObjectMap String

/-- `idMapping.get(id) || id`. -/
def renamed (idMapping : IdMapping) (id : String) : String :=
  match idMapping.get? id with
  | none => id
  | some newId => if newId = "" then id else newId

def copyImage (timestamp i : Nat) (idMapping : IdMapping) (img : ImageAsset) :
    ImageAsset × IdMapping :=
  let newId := freshId img.id timestamp i
  ({ img with id := newId }, idMapping.set img.id newId)

def copyPattern (timestamp : Nat) (idMapping : IdMapping) (k : Nat) (p : Pattern) : Pattern :=
  { p with id := freshId p.id timestamp k, imageId := renamed idMapping p.imageId }

def copyStateImage (timestamp j : Nat) (idMapping : IdMapping) (si : StateImage) :
    StateImage × IdMapping :=
  let newSiId := freshId si.id timestamp j
  let idMapping := idMapping.set si.id newSiId
  ({ si with
      id := newSiId
      patterns := si.patterns.mapIdx (copyPattern timestamp idMapping) }, idMapping)

def copyState (timestamp i : Nat) (idMapping : IdMapping) (state : State) : State × IdMapping :=
  let newStateId := freshId state.id timestamp i
  let copied := mapIndexed (copyStateImage timestamp) 0 (idMapping.set state.id newStateId)
    state.stateImages
  ({ state with id := newStateId, stateImages := copied.1 }, copied.2)

/-- A transition gets an id of its own, and one that goes out has its states renamed. -/
def copyTransition (timestamp : Nat) (idMapping : IdMapping) (i : Nat) : Transition → Transition
  | .outgoing outgoing => .outgoing
      { outgoing with
        id := freshId "transition" timestamp i
        fromState := renamed idMapping outgoing.fromState
        toState := renamed idMapping outgoing.toState
        activateStates := outgoing.activateStates.map (renamed idMapping)
        deactivateStates := outgoing.deactivateStates.map (renamed idMapping) }
  | .incoming transition => .incoming { transition with id := freshId "transition" timestamp i }

def newImages (timestamp : Nat) (generated : QontinuiConfig) : List ImageAsset × IdMapping :=
  mapIndexed (copyImage timestamp) 0 .empty generated.images

def newStates (timestamp : Nat) (generated : QontinuiConfig) : List State × IdMapping :=
  mapIndexed (copyState timestamp) 0 (newImages timestamp generated).2 generated.states

def newTransitions (timestamp : Nat) (generated : QontinuiConfig) : List Transition :=
  generated.transitions.mapIdx (copyTransition timestamp (newStates timestamp generated).2)

/-- `mergeWithExistingConfig`; `timestamp` and `now` are what the clock shows. -/
def mergeWithExistingConfig (existing generated : QontinuiConfig) (timestamp : Nat)
    (now : String) : QontinuiConfig :=
  { existing with
    metadata := { existing.metadata with modified := now }
    images := existing.images ++ (newImages timestamp generated).1
    states := existing.states ++ (newStates timestamp generated).1
    transitions := existing.transitions ++ newTransitions timestamp generated }

/-! ### Validation -/

structure ValidationResult where
  valid : Bool
  errors : List String
  warnings : List String
deriving DecidableEq, Repr

def imageErrors (config : QontinuiConfig) : List String :=
  let imageIds := config.images.map (·.id)
  config.states.flatMap fun state => state.stateImages.flatMap fun si =>
    si.patterns.filterMap fun pattern =>
      if imageIds.contains pattern.imageId then none
      else some ("State image \"" ++ si.name ++ "\" references missing image \"" ++
        pattern.imageId ++ "\"")

def stateErrors (config : QontinuiConfig) : List String :=
  let stateIds := config.states.map (·.id)
  let missing (id state : String) : List String :=
    if stateIds.contains state then []
    else ["Transition \"" ++ id ++ "\" references missing state \"" ++ state ++ "\""]
  config.transitions.flatMap fun
    | .outgoing outgoing =>
        missing outgoing.id outgoing.fromState ++ missing outgoing.id outgoing.toState
    | .incoming _ => []

/-- `validateGeneratedConfig`. The lists of a `QontinuiConfig` are arrays, so the checks of that
find nothing. -/
def validateGeneratedConfig (config : QontinuiConfig) : ValidationResult :=
  let errors :=
    (if config.version = "" then ["Missing version field"] else []) ++
    (if config.metadata.name = "" then ["Missing metadata.name field"] else []) ++
    imageErrors config ++ stateErrors config
  { valid := errors.isEmpty
    errors
    warnings :=
      (if config.states.isEmpty then ["No states defined in config"] else []) ++
      (if !config.states.any (·.isInitial == some true) && !config.states.isEmpty then
        ["No initial state defined"] else []) }

end Qontinui.StateMachines
