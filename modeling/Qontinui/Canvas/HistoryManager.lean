import Qontinui.Base.Timeline
import Qontinui.Workflow.ActionTypes

/-!
The history manager: entries with an index, a pending record that a timer or the
end of a batch adds, and time travel over the entries.

Ids and times of entries are left out, since nothing reads them, and an added
workflow is the JSON text of one parsed again, so it is the workflow itself.
-/

namespace Qontinui

inductive HistoryManager.OperationType where
  | add
  | update
  | delete
  | move
  | connect
  | batch
  | other
  deriving DecidableEq

structure HistoryEntry where
  workflow : Workflow
  description : Option String
  operationType : Option HistoryManager.OperationType
  deriving DecidableEq

structure PendingRecord where
  workflow : Workflow
  description : Option String
  operationType : Option HistoryManager.OperationType
  deriving DecidableEq

/-- The handle of a timeout that is kept: none, one that is armed, or one that fired. -/
inductive DebounceTimer where
  | none
  | armed
  | fired
  deriving DecidableEq

structure HistoryManager where
  maxSize : Nat := 50
  entries : List HistoryEntry := []
  currentIndex : Int := -1
  inBatch : Bool := false
  batchDescription : Option String := none
  pendingRecord : Option PendingRecord := none
  debounceTimer : DebounceTimer := .none
  deriving DecidableEq

namespace HistoryManager

variable (manager : HistoryManager)

def addEntry (workflow : Workflow) (description : Option String)
    (operationType : Option OperationType) : HistoryManager :=
  let (entries, currentIndex) := Timeline.pushEntry manager.maxSize manager.entries
    manager.currentIndex { workflow, description, operationType }
  { manager with entries, currentIndex }

/-- Outside of a batch the timer starts anew. -/
def record (workflow : Workflow) (description : Option String)
    (operationType : Option OperationType) : HistoryManager :=
  let pendingRecord := some { workflow, description, operationType }
  if manager.inBatch then { manager with pendingRecord }
  else { manager with pendingRecord, debounceTimer := .armed }

def recordImmediate (workflow : Workflow) (description : Option String)
    (operationType : Option OperationType) : HistoryManager :=
  { manager with debounceTimer := .none }.addEntry workflow description operationType

def startBatch (description : Option String) : HistoryManager :=
  { manager with inBatch := true, batchDescription := description }

/-- The pending record is added whether or not it was made in the batch. -/
def endBatch : HistoryManager :=
  if manager.inBatch then
    let closed := { manager with inBatch := false }
    let recorded :=
      match manager.pendingRecord with
      | none => closed
      | some pending =>
          closed.addEntry pending.workflow
            ((manager.batchDescription.filter (· ≠ "")).or pending.description) (some .batch)
    { recorded with batchDescription := none, pendingRecord := none }
  else manager

def flushPendingRecord : HistoryManager :=
  match manager.pendingRecord with
  | none => manager
  | some pending =>
      { manager.addEntry pending.workflow pending.description pending.operationType with
        pendingRecord := none, debounceTimer := .none }

def timerFires : HistoryManager :=
  if manager.debounceTimer = .armed then
    { manager with debounceTimer := .fired }.flushPendingRecord
  else manager

def canUndo : Bool := manager.currentIndex > 0

def canRedo : Bool := manager.currentIndex < manager.entries.length - 1

def getCurrentState : Option HistoryEntry :=
  if manager.currentIndex < 0 then none else manager.entries[manager.currentIndex.toNat]?

def moveTo (index : Int) : Option HistoryEntry × HistoryManager :=
  (manager.entries[index.toNat]?, { manager with currentIndex := index })

def undo : Option HistoryEntry × HistoryManager :=
  if manager.canUndo then manager.moveTo (manager.currentIndex - 1) else (none, manager)

def redo : Option HistoryEntry × HistoryManager :=
  if manager.canRedo then manager.moveTo (manager.currentIndex + 1) else (none, manager)

def jumpTo (index : Int) : Option HistoryEntry × HistoryManager :=
  if index < 0 ∨ index ≥ manager.entries.length then (none, manager) else manager.moveTo index

/-- A call of the manager, or the timeout of its timer. -/
inductive Event where
  | record (workflow : Workflow) (description : Option String)
      (operationType : Option OperationType)
  | recordImmediate (workflow : Workflow) (description : Option String)
      (operationType : Option OperationType)
  | startBatch (description : Option String)
  | endBatch
  | undo
  | redo
  | jumpTo (index : Int)
  | timerFires

def step : Event → HistoryManager
  | .record workflow description operationType =>
      manager.record workflow description operationType
  | .recordImmediate workflow description operationType =>
      manager.recordImmediate workflow description operationType
  | .startBatch description => manager.startBatch description
  | .endBatch => manager.endBatch
  | .undo => manager.undo.2
  | .redo => manager.redo.2
  | .jumpTo index => (manager.jumpTo index).2
  | .timerFires => manager.timerFires

end HistoryManager
end Qontinui
