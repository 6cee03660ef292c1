import Qontinui.Collaboration.Apply

/-!
`SyncService`: a remote change that meets an unconfirmed optimistic update is
transformed against it. The conversions between changes and operations carry
neither positions nor source and target ids, in either direction.
-/

namespace Qontinui

/-- A change as clients exchange it. -/
structure Change where
  id : String
  type : OperationType
  resourceType : ResourceType
  resourceId : String
  path : List String
  value : JsValue
  oldValue : JsValue := none
  timestamp : Int
  userId : String
  deriving Repr, DecidableEq

structure OptimisticUpdate where
  id : String
  change : Change
  originalState : Json
  confirmed : Bool
  rollback : Bool
  deriving Repr, DecidableEq

/-- An update of type `change` received over the WebSocket. -/
structure RemoteUpdate where
  resourceType : ResourceType
  resourceId : String
  change : Option Change
  deriving Repr, DecidableEq

/-- The detail of the `remote-change` event. -/
structure RemoteChange where
  resourceType : ResourceType
  resourceId : String
  change : Change
  deriving Repr, DecidableEq

/-- The part of the service that remote changes read. -/
structure SyncService where
  optimisticUpdates : List (String × OptimisticUpdate) := []
  enableOptimisticUpdates : Bool := true
  deriving Repr, DecidableEq

namespace SyncService

open OperationalTransform

def optimisticKey (resourceType : ResourceType) (resourceId : String) : String :=
  resourceType.name ++ "-" ++ resourceId

/-- The update that is stored until the server confirms it; the timer that rolls
it back is not modelled. -/
def applyOptimisticUpdate (service : SyncService) (change : Change)
    (originalState : Json) : SyncService :=
  if !service.enableOptimisticUpdates then service
  else
    let optimistic : OptimisticUpdate :=
      { id := change.id, change := change, originalState := originalState
        confirmed := false, rollback := false }
    let key := optimisticKey change.resourceType change.resourceId
    { service with
      optimisticUpdates := Fields.set key optimistic service.optimisticUpdates }

def changeToOperation (change : Change) : Operation :=
  { type := change.type
    path := change.path
    value := change.value
    oldValue := change.oldValue
    timestamp := change.timestamp
    userId := change.userId
    operationId := change.id }

def operationToChange (operation : Operation) (resourceType : ResourceType)
    (resourceId : String) : Change :=
  { id := operation.operationId
    type := operation.type
    resourceType := resourceType
    resourceId := resourceId
    path := operation.path
    value := operation.value
    oldValue := operation.oldValue
    timestamp := operation.timestamp
    userId := operation.userId }

def handleRemoteChange (service : SyncService) (update : RemoteUpdate) : Option RemoteChange :=
  match update.change with
  | none => none
  | some change =>
      let key := optimisticKey update.resourceType update.resourceId
      match service.optimisticUpdates.lookup key with
      | some optimistic =>
          if !optimistic.confirmed then
            let localOp := changeToOperation optimistic.change
            let remoteOp := changeToOperation change
            let remoteTransformed := (transform localOp remoteOp).2
            some
              { resourceType := update.resourceType
                resourceId := update.resourceId
                change :=
                  operationToChange remoteTransformed update.resourceType update.resourceId }
          else
            some
              { resourceType := update.resourceType, resourceId := update.resourceId
                change := change }
      | none =>
          some
            { resourceType := update.resourceType, resourceId := update.resourceId
              change := change }

/-- A client applies its own change, optimistically, and then what its service
dispatches for the remote one. -/
def clientDocument (doc : Json) (own remote : Change) : Js Json := do
  let next ← apply doc (changeToOperation own)
  let service := applyOptimisticUpdate {} own doc
  let update : RemoteUpdate :=
    { resourceType := remote.resourceType, resourceId := remote.resourceId
      change := some remote }
  match handleRemoteChange service update with
  | some event => apply next (changeToOperation event.change)
  | none => pure next

/-- Two clients that make their changes concurrently end with one document. -/
def ClientsConverge (doc : Json) (change1 change2 : Change) : Prop :=
  ∃ final, clientDocument doc change1 change2 = .ok final ∧
    clientDocument doc change2 change1 = .ok final

/-- What is left of an operation after it was converted to a change and back. -/
def converted (op : Operation) : Operation :=
  { op with position := none, newPosition := none, sourceId := none, targetId := none }

theorem changeToOperation_operationToChange (op : Operation) (resourceType : ResourceType)
    (resourceId : String) :
    changeToOperation (operationToChange op resourceType resourceId) = converted op := rfl

theorem clientDocument_eq {doc : Json} {own remote : Change}
    (htype : remote.resourceType = own.resourceType) (hid : remote.resourceId = own.resourceId) :
    clientDocument doc own remote = applyThen doc (changeToOperation own)
      (converted (transform (changeToOperation own) (changeToOperation remote)).2) := by
  have hevent : handleRemoteChange (applyOptimisticUpdate {} own doc)
      { resourceType := remote.resourceType, resourceId := remote.resourceId
        change := some remote } =
      some { resourceType := remote.resourceType, resourceId := remote.resourceId
             change := operationToChange
               (transform (changeToOperation own) (changeToOperation remote)).2
               remote.resourceType remote.resourceId } := by
    simp [handleRemoteChange, applyOptimisticUpdate, htype, hid]
  simp only [clientDocument, hevent, changeToOperation_operationToChange, applyThen]

/-- Both changes are made to one resource. -/
structure SameResource (change1 change2 : Change) : Prop where
  type : change2.resourceType = change1.resourceType
  id : change2.resourceId = change1.resourceId

theorem SameResource.symm {change1 change2 : Change} (h : SameResource change1 change2) :
    SameResource change2 change1 :=
  ⟨h.type.symm, h.id.symm⟩

/-- What a client applies for a remote operation, next to its own one. -/
def received (own remote : Operation) : Operation := converted (transform own remote).2

theorem clientsConverge_iff {doc : Json} {change1 change2 : Change}
    (h : SameResource change1 change2) :
    ClientsConverge doc change1 change2 ↔
      ∃ final,
        applyThen doc (changeToOperation change1)
          (received (changeToOperation change1) (changeToOperation change2)) = .ok final ∧
        applyThen doc (changeToOperation change2)
          (received (changeToOperation change2) (changeToOperation change1)) = .ok final := by
  rw [ClientsConverge, clientDocument_eq h.type h.id, clientDocument_eq h.symm.type h.symm.id]
  rfl

end SyncService

end Qontinui
