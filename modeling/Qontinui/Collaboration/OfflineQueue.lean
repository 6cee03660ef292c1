import Qontinui.Collaboration.SyncService

/-!
The offline queue of `SyncService`. A pass over the queue is suspended while an
attempt awaits its outcome and while it waits before going on; changes can be queued
in between, and the loop then sees them, since it walks the array itself. The calls of
`syncResource` and its successes are logged.
-/

namespace Qontinui

/-- The `queuedAt` of an operation: a `Date`, or the text that a restart leaves of it. -/
inductive QueuedAt where
  | date (time : Int)
  | text (time : Int)
  deriving Repr, DecidableEq

/-- Only a `Date` has a `getTime`. -/
def QueuedAt.getTime : QueuedAt → Js Int
  | .date time => pure time
  | .text _ => throw .typeError

inductive QueueStatus where
  | queued
  | processing
  | completed
  | failed
  deriving Repr, DecidableEq

/-- An operation of the queue. The ticket is not in the source: it numbers the calls
that queued the operations. -/
structure SyncOperation where
  id : String
  type : OperationType
  resourceType : ResourceType
  resourceId : String
  change : Change
  priority : Int
  retryCount : Nat
  queuedAt : QueuedAt
  status : QueueStatus
  ticket : Nat
  deriving Repr, DecidableEq

/-- What `processOfflineQueue` distinguishes of the outcome of an attempt made online. -/
inductive SyncOutcome where
  | success
  | conflict
  | error
  deriving Repr, DecidableEq

structure QueueConfig where
  maxRetries : Nat := 3
  maxQueueSize : Nat := 100
  enableOfflineQueue : Bool := true
  deriving Repr, DecidableEq

/-- A pass at an `await`: the operation it holds, where that is in the array, and the
index the loop goes on with. -/
structure Pass where
  operation : SyncOperation
  position : Option Nat
  nextIndex : Nat
  waiting : Bool
  processedIds : List String
  deriving Repr, DecidableEq

structure OfflineQueue where
  config : QueueConfig := {}
  syncQueue : List SyncOperation := []
  isOnline : Bool := true
  processingQueue : Bool := false
  pass : Option Pass := none
  storage : Option (List SyncOperation) := none
  tickets : Nat := 0
  attempts : List SyncOperation := []
  pushed : List SyncOperation := []
  deriving Repr, DecidableEq

/-- What the program reads of its surroundings at an event: the clock, and the id and
user of a change that the event queues itself. -/
structure Moment where
  now : Int
  freshId : String
  userId : Option String
  deriving Repr, DecidableEq

namespace OfflineQueue

/-- `JSON.stringify` and `JSON.parse` turn the date into text. -/
def storedOperation (operation : SyncOperation) : SyncOperation :=
  match operation.queuedAt with
  | .date time => { operation with queuedAt := .text time }
  | .text _ => operation

def saveQueueToStorage (queue : OfflineQueue) : OfflineQueue :=
  { queue with storage := some (queue.syncQueue.map storedOperation) }

def loadQueueFromStorage (queue : OfflineQueue) : OfflineQueue :=
  match queue.storage with
  | some stored => { queue with syncQueue := stored }
  | none => queue

/-- `syncQueue.shift()`. A pass keeps its next index, and loses sight of the operation
it holds if that is the one removed. -/
def shift (queue : OfflineQueue) : OfflineQueue :=
  { queue with
    syncQueue := queue.syncQueue.tail
    pass := queue.pass.map fun pass =>
      { pass with
        position := pass.position.bind fun position =>
          if position = 0 then none else some (position - 1) } }

def queueOfflineChange (queue : OfflineQueue) (change : Change) (now : Int) : OfflineQueue :=
  if !queue.config.enableOfflineQueue then queue
  else
    let roomy := if queue.config.maxQueueSize ≤ queue.syncQueue.length then queue.shift else queue
    let operation : SyncOperation :=
      { id := change.id
        type := change.type
        resourceType := change.resourceType
        resourceId := change.resourceId
        change := change
        priority := 1
        retryCount := 0
        queuedAt := .date now
        status := .queued
        ticket := queue.tickets }
    saveQueueToStorage { roomy with
      syncQueue := roomy.syncQueue ++ [operation]
      tickets := queue.tickets + 1 }

/-- Higher priority first, then older first. -/
def compareOperations (a b : SyncOperation) : Js Int :=
  if a.priority ≠ b.priority then pure (b.priority - a.priority)
  else do
    let timeA ← a.queuedAt.getTime
    let timeB ← b.queuedAt.getTime
    pure (timeA - timeB)

def insertOperation (operation : SyncOperation) : List SyncOperation → Js (List SyncOperation)
  | [] => pure [operation]
  | next :: rest => do
      if (← compareOperations operation next) ≤ 0 then pure (operation :: next :: rest)
      else
        let inserted ← insertOperation operation rest
        pure (next :: inserted)

/-- `syncQueue.sort`: stable, and it throws what the comparison throws. -/
def sortQueue : List SyncOperation → Js (List SyncOperation)
  | [] => pure []
  | operation :: rest => do
      let sorted ← sortQueue rest
      insertOperation operation sorted

/-- Write the operation that a pass holds back to its place in the array. -/
def writeBack (queue : OfflineQueue) (pass : Pass) : OfflineQueue :=
  { queue with
    pass := some pass
    syncQueue :=
      match pass.position with
      | some position => queue.syncQueue.set position pass.operation
      | none => queue.syncQueue }

/-- A failed attempt is counted and gives up at the maximum. -/
def failedOperation (queue : OfflineQueue) (operation : SyncOperation) : SyncOperation :=
  { operation with
    retryCount := operation.retryCount + 1
    status :=
      if queue.config.maxRetries ≤ operation.retryCount + 1 then .failed else .queued }

/-- Count a failed attempt and wait before going on. -/
def retryLater (queue : OfflineQueue) : OfflineQueue :=
  match queue.pass with
  | some pass =>
      queue.writeBack
        { pass with operation := queue.failedOperation pass.operation, waiting := true }
  | none => queue

/-- The change that `syncResource` queues while offline. -/
def pendingChange (operation : SyncOperation) (moment : Moment) : Change :=
  { id := moment.freshId
    type := .update
    resourceType := operation.resourceType
    resourceId := operation.resourceId
    path := []
    value := operation.change.value
    timestamp := moment.now
    userId := if moment.userId.getD "" = "" then "unknown-user" else moment.userId.getD "" }

/-- Attempt an operation. Offline, `syncResource` queues its value again and the attempt
has failed when it returns. -/
def startAttempt (queue : OfflineQueue) (index : Nat) (operation : SyncOperation)
    (processedIds : List String) (moment : Moment) : OfflineQueue :=
  let attempted := { operation with status := .processing }
  let held := queue.writeBack
    { operation := attempted
      position := some index
      nextIndex := index + 1
      waiting := false
      processedIds := processedIds }
  let called := { held with attempts := held.attempts ++ [attempted] }
  if queue.isOnline then called
  else (called.queueOfflineChange (pendingChange operation moment) moment.now).retryLater

/-- Remove the processed operations and save what remains. -/
def finishPass (queue : OfflineQueue) (processedIds : List String) : OfflineQueue :=
  let remaining := queue.syncQueue.filter fun operation => !processedIds.contains operation.id
  { saveQueueToStorage { queue with syncQueue := remaining, pass := none } with
    processingQueue := false }

/-- The next operation to attempt, at or after an index, and the processed ids with those
of the completed operations before it. -/
def nextAttempt (index : Nat) (processedIds : List String) :
    List SyncOperation → Option (Nat × SyncOperation) × List String
  | [] => (none, processedIds)
  | operation :: rest =>
      if operation.status = .completed then
        nextAttempt (index + 1) (processedIds ++ [operation.id]) rest
      else (some (index, operation), processedIds)

def advance (queue : OfflineQueue) (index : Nat) (processedIds : List String)
    (moment : Moment) : OfflineQueue :=
  match nextAttempt index processedIds (queue.syncQueue.drop index) with
  | (some (next, operation), processedIds) =>
      queue.startAttempt next operation processedIds moment
  | (none, processedIds) => queue.finishPass processedIds

/-- Process the offline queue up to its first attempt. A sort that throws leaves the
queue marked as being processed. -/
def processOfflineQueue (queue : OfflineQueue) (moment : Moment) : OfflineQueue :=
  if !queue.isOnline || queue.processingQueue || queue.syncQueue.isEmpty then queue
  else
    match sortQueue queue.syncQueue with
    | .error _ => { queue with processingQueue := true }
    | .ok sorted =>
        advance { queue with processingQueue := true, syncQueue := sorted } 0 [] moment

def settleAttempt (queue : OfflineQueue) (outcome : SyncOutcome) (moment : Moment) :
    OfflineQueue :=
  match queue.pass with
  | some pass =>
      if pass.waiting then queue
      else
        match outcome with
        | .success =>
            let completed := { pass.operation with status := .completed }
            let written := queue.writeBack { pass with operation := completed }
            advance { written with pushed := queue.pushed ++ [completed] } pass.nextIndex
              (pass.processedIds ++ [completed.id]) moment
        | .conflict =>
            let written := queue.writeBack
              { pass with operation := queue.failedOperation pass.operation }
            written.advance pass.nextIndex pass.processedIds moment
        | .error => queue.retryLater
  | none => queue

/-- The wait after a failed attempt is over. -/
def resumePass (queue : OfflineQueue) (moment : Moment) : OfflineQueue :=
  match queue.pass with
  | some pass =>
      if pass.waiting then queue.advance pass.nextIndex pass.processedIds moment else queue
  | none => queue

inductive QueueEvent where
  | queueOfflineChange (change : Change)
  | processOfflineQueue
  | attemptSettles (outcome : SyncOutcome)
  | retryDelayOver
  | online
  | offline
  deriving Repr, DecidableEq

structure QueueOccurrence where
  event : QueueEvent
  moment : Moment
  deriving Repr, DecidableEq

def step (queue : OfflineQueue) (occurrence : QueueOccurrence) : OfflineQueue :=
  let moment := occurrence.moment
  match occurrence.event with
  | .queueOfflineChange change => queue.queueOfflineChange change moment.now
  | .processOfflineQueue => queue.processOfflineQueue moment
  | .attemptSettles outcome => queue.settleAttempt outcome moment
  | .retryDelayOver => queue.resumePass moment
  | .online => processOfflineQueue { queue with isOnline := true } moment
  | .offline => { queue with isOnline := false }

/-- A new service over the same storage, after it has loaded its queue. -/
def restart (queue : OfflineQueue) : OfflineQueue :=
  loadQueueFromStorage
    { config := queue.config
      isOnline := queue.isOnline
      storage := queue.storage
      tickets := queue.tickets
      attempts := queue.attempts
      pushed := queue.pushed }

end OfflineQueue

end Qontinui
