import Mathlib.Logic.Function.Basic
import Qontinui.Base.JsonPath
import Qontinui.Base.JsText

/-!
The auto-save service between its events. A save is a pass that gives the turn away at each
`await` and reads the current workflow anew when it goes on; edits and other passes come in
between.
-/

namespace Qontinui

abbrev WorkflowObject := List (String × Json)

/-- The fields of `workflow.metadata`. -/
def WorkflowObject.metadata (workflow : WorkflowObject) : List (String × Json) :=
  match workflow.lookup "metadata" with
  | some (.obj fields) => fields
  | _ => []

def WorkflowObject.stamped (workflow : WorkflowObject) (now : String) : WorkflowObject :=
  Fields.set "metadata" (.obj (Fields.set "updated" (.str now) workflow.metadata)) workflow

inductive SaveStatus where
  | idle
  | saving
  | saved
  | error
  deriving Repr, DecidableEq

structure AutoSaveConfig where
  maxHistorySize : Nat := 5
  enableConflictDetection : Bool := true
  deriving Repr, DecidableEq

structure SaveState where
  status : SaveStatus := .idle
  lastSaved : Option String := none
  lastError : Option String := none
  hasUnsavedChanges : Bool := false
  deriving Repr, DecidableEq

/-- What the service calls: the text of a number, the messages of `validateWorkflow` on a
workflow that is not valid, and the workflow that is loaded from a stored value. -/
structure Callees where
  numberText : Rat → String
  validationErrors : WorkflowObject → Option (List String)
  loadedWorkflow : Json → Option WorkflowObject

/-- The time of an event, and the message with which the storage refuses to be written then. -/
structure SaveMoment where
  now : String := ""
  refusal : Option String := none
  deriving Repr, DecidableEq

/-- Where a call of `performAutoSave` waits, with the hash that it has computed at its start. -/
inductive SavePass where
  | detecting (currentHash : String) (savedHash : Option String)
  | detected (currentHash : String) (hasConflict : Bool)
  | resolving (currentHash : String)
  | saving (currentHash : String) (result : Except String Unit)
  | recording (currentHash : String) (result : Except String Unit)

/-- The service with its passes, and the workflow of the last `setWorkflow`. -/
structure AutoSaveService where
  config : AutoSaveConfig := {}
  currentWorkflow : Option WorkflowObject := none
  currentHash : Option String := none
  saveState : SaveState := {}
  localStorage : String → Option Json
  passes : List SavePass := []
  lastSet : Option WorkflowObject := none

/-- What may happen to the service: a call, or a pass that goes on. -/
inductive AutoSaveEvent where
  | setWorkflow (workflow : Option WorkflowObject)
  | updateWorkflow (workflow : WorkflowObject)
  | performAutoSave (moment : SaveMoment)
  | resume (index : Nat) (moment : SaveMoment)

namespace AutoSaveService

def newService (config : AutoSaveConfig) (storage : String → Option Json) : AutoSaveService :=
  { config := config, localStorage := storage }

section Steps

variable (callees : Callees)

def idText (workflow : WorkflowObject) : String :=
  JsValue.text callees.numberText (workflow.lookup "id")

def getAutoSaveKey (workflow : WorkflowObject) : String :=
  "workflow-autosave:" ++ idText callees workflow

def getHistoryKey (workflow : WorkflowObject) : String :=
  "workflow-history:" ++ idText callees workflow

def hashWorkflow (workflow : WorkflowObject) : String :=
  base36 (hashText (stringify callees.numberText (.obj workflow)))

/-- `workflowFileManager.saveWorkflow`. -/
def saveWorkflow (moment : SaveMoment) (workflow : WorkflowObject) (key : String)
    (storage : String → Option Json) : Except String Unit × (String → Option Json) :=
  match callees.validationErrors workflow with
  | some messages =>
      (.error ("Workflow validation failed: " ++ ", ".intercalate messages), storage)
  | none =>
      match moment.refusal with
      | some message => (.error ("Failed to save workflow: " ++ message), storage)
      | none => (.ok (), Function.update storage key (some (.obj (workflow.stamped moment.now))))

/-- What `null.id` throws. -/
def nullError (property : String) : String :=
  "Cannot read properties of null (reading \x27" ++ property ++ "\x27)"

/-- The history that `addToHistory` adds to. -/
def historyEntries : Option Json → Except String (List Json)
  | none => .ok []
  | some (.arr entries) => .ok entries
  | some .null => .error (nullError "unshift")
  | some _ => .error "history.unshift is not a function"

/-- An `AutoSaveEntry`. -/
def historyEntry (now : String) (workflow : WorkflowObject) : Json :=
  .obj [("workflow", .obj workflow), ("timestamp", .str now),
    ("hash", .str (hashWorkflow callees workflow)), ("autoSaved", .bool true)]

def addToHistory (moment : SaveMoment) (maxHistorySize : Nat) (workflow : WorkflowObject)
    (storage : String → Option Json) : Except String Unit × (String → Option Json) :=
  match historyEntries (storage (getHistoryKey callees workflow)) with
  | .error message => (.error message, storage)
  | .ok history =>
      match moment.refusal with
      | some message => (.error message, storage)
      | none =>
          (.ok (), Function.update storage (getHistoryKey callees workflow)
            (some (.arr ((historyEntry callees moment.now workflow :: history).take
              maxHistorySize))))

/-- The `catch` of `performAutoSave`. -/
def failed (service : AutoSaveService) (message : String) : AutoSaveService :=
  { service with
    saveState := { service.saveState with status := .error, lastError := some message } }

/-- `performAutoSave` from the save on. -/
def beginSave (service : AutoSaveService) (moment : SaveMoment) (currentHash : String) :
    AutoSaveService × Option SavePass :=
  match service.currentWorkflow with
  | none => (service.failed (nullError "id"), none)
  | some workflow =>
      let saved := saveWorkflow callees moment workflow (getAutoSaveKey callees workflow)
        service.localStorage
      ({ service with localStorage := saved.2 }, some (.saving currentHash saved.1))

/-- The rest of a pass up to the next `await`, or to its end. -/
def proceed (service : AutoSaveService) (moment : SaveMoment) :
    SavePass → AutoSaveService × Option SavePass
  | .detecting currentHash savedHash =>
      (service, some (.detected currentHash
        (savedHash.any fun hash => some hash != service.currentHash)))
  | .detected currentHash hasConflict =>
      if hasConflict then (service, some (.resolving currentHash))
      else service.beginSave callees moment currentHash
  | .resolving currentHash => service.beginSave callees moment currentHash
  | .saving _ (.error message) => (service.failed message, none)
  | .saving currentHash (.ok ()) =>
      match service.currentWorkflow with
      | none => (service, some (.recording currentHash (.error (nullError "id"))))
      | some workflow =>
          let added := addToHistory callees moment service.config.maxHistorySize workflow
            service.localStorage
          ({ service with localStorage := added.2 }, some (.recording currentHash added.1))
  | .recording _ (.error message) => (service.failed message, none)
  | .recording currentHash (.ok ()) =>
      ({ service with
          currentHash := some currentHash
          saveState := ⟨.saved, some moment.now, none, false⟩ }, none)

def setWorkflow (service : AutoSaveService) (workflow : Option WorkflowObject) :
    AutoSaveService :=
  { service with
    currentWorkflow := workflow
    currentHash := workflow.map (hashWorkflow callees)
    saveState := { service.saveState with hasUnsavedChanges := false }
    lastSet := workflow }

def updateWorkflow (service : AutoSaveService) (workflow : WorkflowObject) : AutoSaveService :=
  let hasChanges := some (hashWorkflow callees workflow) != service.currentHash
  { service with
    currentWorkflow := some workflow
    saveState := { service.saveState with
      hasUnsavedChanges := hasChanges || service.saveState.hasUnsavedChanges } }

/-- `performAutoSave` up to its first `await`. -/
def performAutoSave (service : AutoSaveService) (moment : SaveMoment) : AutoSaveService :=
  match service.currentWorkflow with
  | none => service
  | some workflow =>
      let currentHash := hashWorkflow callees workflow
      if some currentHash = service.currentHash ∧ service.saveState.hasUnsavedChanges = false then
        service
      else
        let saving := { service with saveState := { service.saveState with status := .saving } }
        if service.config.enableConflictDetection then
          let saved := (service.localStorage (getAutoSaveKey callees workflow)).bind
            callees.loadedWorkflow
          { saving with
            passes := service.passes ++
              [.detecting currentHash (saved.map (hashWorkflow callees))] }
        else
          let (saved, pass) := saving.beginSave callees moment currentHash
          { saved with passes := saved.passes ++ pass.toList }

def step (service : AutoSaveService) : AutoSaveEvent → AutoSaveService
  | .setWorkflow workflow => service.setWorkflow callees workflow
  | .updateWorkflow workflow => service.updateWorkflow callees workflow
  | .performAutoSave moment => service.performAutoSave callees moment
  | .resume index moment =>
      match service.passes[index]? with
      | none => service
      | some pass =>
          match service.proceed callees moment pass with
          | (next, some pass) => { next with passes := next.passes.set index pass }
          | (next, none) => { next with passes := next.passes.eraseIdx index }

end Steps

end AutoSaveService

end Qontinui
