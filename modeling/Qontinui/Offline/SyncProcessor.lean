import Mathlib.Data.List.Sort
import Mathlib.Data.String.Basic
import Qontinui.Base.Json
import Qontinui.Base.Runs

/-!
The store of the IndexedDB sync queue and what `SyncQueue` reads from it and writes to it.
The records of the store are ordered by their key.

`SyncProcessor` over the store of the sync queue. A pass awaits one storage request, or
the operation of one item, at a time. Between its steps items can be queued, a forced
second pass can start, and the process can crash, which only the store survives. The
calls of `processItem` are logged.
-/

namespace Qontinui

inductive SyncOperationType where
  | uploadScreenshot
  | uploadMultipleScreenshots
  | deleteScreenshot
  | updateScreenshot
  | createPattern
  | updatePattern
  | deletePattern
  deriving Repr, DecidableEq

def SyncOperationType.text : SyncOperationType → String
  | .uploadScreenshot => "upload_screenshot"
  | .uploadMultipleScreenshots => "upload_multiple_screenshots"
  | .deleteScreenshot => "delete_screenshot"
  | .updateScreenshot => "update_screenshot"
  | .createPattern => "create_pattern"
  | .updatePattern => "update_pattern"
  | .deletePattern => "delete_pattern"

inductive SyncStatus where
  | pending
  | syncing
  | completed
  | failed
  | cancelled
  deriving Repr, DecidableEq

/-- The time of a `Date`, in milliseconds. An invalid date has none. -/
abbrev JsDate := Option Int

/-- `new Date(time)` is invalid beyond 100,000,000 days. -/
def newDate (time : Int) : JsDate :=
  if time.natAbs ≤ 8640000000000000 then some time else none

structure SyncQueueItem where
  id : String
  type : SyncOperationType
  status : SyncStatus
  priority : Int
  metadata : List (String × Json)
  retryCount : Nat
  maxRetries : Nat
  lastError : Option String := none
  createdAt : Int
  updatedAt : Int
  syncedAt : Option Int := none
  nextRetryAt : Option JsDate := none
  deriving Repr, DecidableEq

namespace SyncQueue

abbrev Store := List SyncQueueItem

def get (store : Store) (id : String) : Option SyncQueueItem :=
  store.find? fun item => item.id = id

def put (store : Store) (item : SyncQueueItem) : Store :=
  store.filter (fun other => other.id < item.id) ++
    item :: store.filter fun other => item.id < other.id

/-- The store does not take a second item of one key. -/
def add (store : Store) (item : SyncQueueItem) : Store :=
  if (get store item.id).isSome then store else put store item

/-- Higher priority first, then older first. -/
def compareItems (a b : SyncQueueItem) : Int :=
  if a.priority ≠ b.priority then b.priority - a.priority else a.createdAt - b.createdAt

def getAll (store : Store) (status : SyncStatus) : List SyncQueueItem :=
  (store.filter fun item => item.status = status).insertionSort fun a b => compareItems a b ≤ 0

/-- Retry if no `nextRetryAt` is set, or if it is past the retry time. -/
def readyToRetry (now : Int) (item : SyncQueueItem) : Bool :=
  match item.nextRetryAt with
  | none => true
  | some none => false
  | some (some time) => time ≤ now

def getReadyToRetry (store : Store) (now : Int) : List SyncQueueItem :=
  (getAll store .failed).filter (readyToRetry now)

/-- What `markFailed` writes. Without a retry the last retry time is kept. -/
def failedItem (item : SyncQueueItem) (error : String) (now : Int) : SyncQueueItem :=
  let retryCount := item.retryCount + 1
  let failed :=
    { item with
      status := .failed
      retryCount := retryCount
      lastError := some error
      updatedAt := now }
  if retryCount < item.maxRetries then
    { failed with nextRetryAt := some (newDate (now + 2 ^ retryCount * 1000)) }
  else failed

/-- What `markCompleted` writes. -/
def completedItem (item : SyncQueueItem) (metadata : List (String × Json)) (now : Int) :
    SyncQueueItem :=
  { item with
    status := .completed
    syncedAt := some now
    updatedAt := now
    metadata := metadata.foldl (fun fields field => Fields.set field.1 field.2 fields)
      item.metadata }

variable {item : SyncQueueItem} {store : Store}

theorem mem_put {other : SyncQueueItem} :
    other ∈ put store item ↔ other = item ∨ other ∈ store ∧ other.id ≠ item.id := by
  simp only [put, List.mem_append, List.mem_cons, List.mem_filter, decide_eq_true_eq]
  constructor
  · rintro (⟨hmem, hlt⟩ | rfl | ⟨hmem, hlt⟩)
    · exact Or.inr ⟨hmem, ne_of_lt hlt⟩
    · exact Or.inl rfl
    · exact Or.inr ⟨hmem, (ne_of_lt hlt).symm⟩
  · rintro (rfl | ⟨hmem, hne⟩)
    · exact Or.inr (Or.inl rfl)
    · rcases lt_or_gt_of_ne hne with hlt | hgt
      · exact Or.inl ⟨hmem, hlt⟩
      · exact Or.inr (Or.inr ⟨hmem, hgt⟩)

theorem exists_put (record : SyncQueueItem) (h : item ∈ store) :
    ∃ stored ∈ put store record, stored.id = item.id := by
  by_cases hsame : item.id = record.id
  · exact ⟨record, mem_put.mpr (Or.inl rfl), hsame.symm⟩
  · exact ⟨item, mem_put.mpr (Or.inr ⟨h, hsame⟩), rfl⟩

theorem get_some {id : String} (h : get store id = some item) : item ∈ store ∧ item.id = id := by
  refine ⟨List.mem_of_find?_eq_some h, ?_⟩
  simpa using List.find?_some h

theorem get_none {id : String} (h : get store id = none) (hitem : item ∈ store) : item.id ≠ id := by
  simpa using List.find?_eq_none.mp h item hitem

theorem mem_get_all {status : SyncStatus} :
    item ∈ getAll store status ↔ item ∈ store ∧ item.status = status := by
  simp [getAll]

theorem mem_get_ready_to_retry {now : Int} :
    item ∈ getReadyToRetry store now ↔
      item ∈ store ∧ item.status = .failed ∧ readyToRetry now item = true := by
  simp [getReadyToRetry, mem_get_all, and_assoc]

@[simp] theorem failed_item_id (item : SyncQueueItem) (error : String) (now : Int) :
    (failedItem item error now).id = item.id := by
  simp only [failedItem]
  split <;> rfl

@[simp] theorem failed_item_status (item : SyncQueueItem) (error : String) (now : Int) :
    (failedItem item error now).status = .failed := by
  simp only [failedItem]
  split <;> rfl

@[simp] theorem failed_item_retry_count (item : SyncQueueItem) (error : String) (now : Int) :
    (failedItem item error now).retryCount = item.retryCount + 1 := by
  simp only [failedItem]
  split <;> rfl

@[simp] theorem failed_item_max_retries (item : SyncQueueItem) (error : String) (now : Int) :
    (failedItem item error now).maxRetries = item.maxRetries := by
  simp only [failedItem]
  split <;> rfl

end SyncQueue

structure SyncResult where
  success : Bool
  error : Option String := none
  data : List (String × Json) := []
  deriving Repr, DecidableEq

/-- What a pass is awaiting for the item it handles. The records are those that the
requests write. -/
inductive ItemStage where
  | markSyncing (record : SyncQueueItem)
  | process
  | completedGet (data : List (String × Json))
  | completedPut (record : SyncQueueItem)
  | failedGet (error : String) (caught : Bool)
  | failedPut (record : SyncQueueItem) (caught : Bool)
  deriving Repr, DecidableEq

inductive PassPhase where
  | getPending
  | getReadyToRetry (pending : List SyncQueueItem)
  | handle (item : SyncQueueItem) (rest : List SyncQueueItem) (stage : ItemStage)
  deriving Repr, DecidableEq

/-- A call of `processQueue` that is under way, with the items it has selected. -/
structure QueuePass where
  itemsToProcess : List SyncQueueItem := []
  phase : PassPhase := .getPending
  deriving Repr, DecidableEq

structure SyncProcessor where
  store : SyncQueue.Store := []
  processing : Bool := false
  passes : List QueuePass := []
  attempts : List String := []
  deriving Repr, DecidableEq

/-- How an `await` of a pass ends. -/
inductive AwaitOutcome where
  | succeeds
  | fails (message : String)
  | returns (result : SyncResult)
  deriving Repr, DecidableEq

namespace SyncProcessor

open SyncQueue

/-- Start a pass. A pass that is forced starts beside a running one. -/
def processQueue (state : SyncProcessor) (force onLine : Bool) : SyncProcessor :=
  if state.processing && !force then state
  else if !onLine then state
  else { state with processing := true, passes := state.passes ++ [{}] }

/-- `enqueue`, once the store has taken the item. -/
def enqueue (state : SyncProcessor) (id : String) (type : SyncOperationType) (priority : Int)
    (maxRetries : Nat) (metadata : List (String × Json)) (now : Int) : SyncProcessor :=
  { state with
    store := add state.store
      { id := id
        type := type
        status := .pending
        priority := priority
        metadata := metadata
        retryCount := 0
        maxRetries := maxRetries
        createdAt := now
        updatedAt := now } }

/-- The operation of an item. The types that no case handles fail. -/
def processItem (item : SyncQueueItem) (result : SyncResult) : SyncResult :=
  match item.type with
  | .uploadScreenshot | .uploadMultipleScreenshots | .deleteScreenshot | .updateScreenshot =>
      result
  | type => { success := false, error := some ("Unknown operation type: " ++ type.text) }

/-- `result.error || "Unknown error"`. -/
def errorText (result : SyncResult) : String :=
  if result.error.getD "" = "" then "Unknown error" else result.error.getD ""

def endPass (state : SyncProcessor) (index : Nat) : SyncProcessor :=
  { state with processing := false, passes := state.passes.eraseIdx index }

def setPass (state : SyncProcessor) (index : Nat) (pass : QueuePass) : SyncProcessor :=
  { state with passes := state.passes.set index pass }

/-- Go on to the next item of a pass: ask the store to mark it as syncing. -/
def nextItem (state : SyncProcessor) (index : Nat) (itemsToProcess : List SyncQueueItem)
    (now : Int) : List SyncQueueItem → SyncProcessor
  | [] => state.endPass index
  | item :: rest =>
      state.setPass index
        { itemsToProcess := itemsToProcess
          phase := .handle item rest
            (.markSyncing { item with status := .syncing, updatedAt := now }) }

/-- A pass that awaits something for an item gets its outcome. A failure that is not
caught yet is marked, the second one ends the pass. -/
def stepItem (state : SyncProcessor) (index : Nat) (itemsToProcess : List SyncQueueItem)
    (item : SyncQueueItem) (rest : List SyncQueueItem) (stage : ItemStage)
    (outcome : AwaitOutcome) (now : Int) : SyncProcessor :=
  let await (state : SyncProcessor) (stage : ItemStage) : SyncProcessor :=
    state.setPass index
      { itemsToProcess := itemsToProcess, phase := .handle item rest stage }
  match stage, outcome with
  | .markSyncing record, .succeeds =>
      await { state with
        store := put state.store record
        attempts := state.attempts ++ [item.id] } .process
  | .markSyncing _, .fails message => await state (.failedGet message true)
  | .process, .returns result =>
      let result := processItem item result
      if result.success then await state (.completedGet result.data)
      else await state (.failedGet (errorText result) false)
  | .completedGet data, .succeeds =>
      match get state.store item.id with
      | some found => await state (.completedPut (completedItem found data now))
      | none => state.nextItem index itemsToProcess now rest
  | .completedGet _, .fails message => await state (.failedGet message true)
  | .completedPut record, .succeeds =>
      nextItem { state with store := put state.store record } index itemsToProcess now rest
  | .completedPut _, .fails message => await state (.failedGet message true)
  | .failedGet error caught, .succeeds =>
      match get state.store item.id with
      | some found => await state (.failedPut (failedItem found error now) caught)
      | none => state.nextItem index itemsToProcess now rest
  | .failedPut record _, .succeeds =>
      nextItem { state with store := put state.store record } index itemsToProcess now rest
  | .failedGet _ caught, .fails message | .failedPut _ caught, .fails message =>
      if caught then state.endPass index else await state (.failedGet message true)
  | _, _ => state

/-- A step for an item that is started: the pass stays as it is, goes on awaiting something
for the item, comes to the next one, or ends. -/
inductive StepsOn (state : SyncProcessor) (index : Nat) (itemsToProcess : List SyncQueueItem)
    (item : SyncQueueItem) (rest : List SyncQueueItem) (now : Int) : SyncProcessor → Prop where
  | stays : StepsOn state index itemsToProcess item rest now state
  | awaits (stage : ItemStage) (unmarked : ∀ record, stage ≠ .markSyncing record)
      (processed : stage ≠ .process) :
      StepsOn state index itemsToProcess item rest now
        (state.setPass index
          { itemsToProcess := itemsToProcess, phase := .handle item rest stage })
  | comesToNext (store : Store) :
      StepsOn state index itemsToProcess item rest now
        (nextItem { state with store := store } index itemsToProcess now rest)
  | ends : StepsOn state index itemsToProcess item rest now (state.endPass index)

theorem step_item_cases {stage : ItemStage} (hstage : ∀ record, stage ≠ .markSyncing record)
    (state : SyncProcessor) (index : Nat) (itemsToProcess : List SyncQueueItem)
    (item : SyncQueueItem) (rest : List SyncQueueItem) (outcome : AwaitOutcome) (now : Int) :
    StepsOn state index itemsToProcess item rest now
      (state.stepItem index itemsToProcess item rest stage outcome now) := by
  cases stage with
  | markSyncing record => exact absurd rfl (hstage record)
  | process =>
      cases outcome with
      | succeeds | fails => exact .stays
      | returns result =>
          simp only [stepItem]
          split <;> exact .awaits _ (by simp) (by simp)
  | completedGet data =>
      cases outcome with
      | succeeds =>
          simp only [stepItem]
          split
          · exact .awaits _ (by simp) (by simp)
          · exact .comesToNext state.store
      | fails => exact .awaits _ (by simp) (by simp)
      | returns => exact .stays
  | completedPut record =>
      cases outcome with
      | succeeds => exact .comesToNext _
      | fails => exact .awaits _ (by simp) (by simp)
      | returns => exact .stays
  | failedGet error caught =>
      cases outcome with
      | succeeds =>
          simp only [stepItem]
          split
          · exact .awaits _ (by simp) (by simp)
          · exact .comesToNext state.store
      | fails =>
          simp only [stepItem]
          split
          · exact .ends
          · exact .awaits _ (by simp) (by simp)
      | returns => exact .stays
  | failedPut record caught =>
      cases outcome with
      | succeeds => exact .comesToNext _
      | fails =>
          simp only [stepItem]
          split
          · exact .ends
          · exact .awaits _ (by simp) (by simp)
      | returns => exact .stays

def stepPass (state : SyncProcessor) (index : Nat) (outcome : AwaitOutcome) (now : Int) :
    SyncProcessor :=
  match state.passes[index]? with
  | none => state
  | some pass =>
      match pass.phase, outcome with
      | .getPending, .succeeds =>
          state.setPass index
            { pass with phase := .getReadyToRetry (getAll state.store .pending) }
      | .getReadyToRetry pending, .succeeds =>
          let itemsToProcess := pending ++ getReadyToRetry state.store now
          state.nextItem index itemsToProcess now itemsToProcess
      | .getPending, .fails _ | .getReadyToRetry _, .fails _ => state.endPass index
      | .handle item rest stage, outcome =>
          state.stepItem index pass.itemsToProcess item rest stage outcome now
      | _, _ => state

inductive ProcessorEvent where
  | enqueue (id : String) (type : SyncOperationType) (priority : Int) (maxRetries : Nat)
      (metadata : List (String × Json)) (now : Int)
  | processQueue (force onLine : Bool)
  | stepPass (index : Nat) (outcome : AwaitOutcome) (now : Int)
  | crash
  deriving Repr, DecidableEq

def step (state : SyncProcessor) : ProcessorEvent → SyncProcessor
  | .enqueue id type priority maxRetries metadata now =>
      state.enqueue id type priority maxRetries metadata now
  | .processQueue force onLine => state.processQueue force onLine
  | .stepPass index outcome now => state.stepPass index outcome now
  | .crash => { state with processing := false, passes := [] }

end SyncProcessor

end Qontinui
