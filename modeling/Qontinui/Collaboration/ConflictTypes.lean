import Qontinui.Base.Json

/-!
The types of collaborative editing: the operations clients exchange, the result
of transforming two of them against each other, conflicts and their resolutions.
-/

namespace Qontinui

inductive OperationType where
  | insert
  | delete
  | update
  | move
  | connect
  | disconnect
  deriving Repr, DecidableEq

/-- One edit of a document. `timestamp` is the `Date` in milliseconds; optional
fields that are absent are `none`. -/
structure Operation where
  type : OperationType
  path : List String
  value : JsValue := none
  oldValue : JsValue := none
  timestamp : Int
  userId : String
  operationId : String
  position : Option Int := none
  newPosition : Option Int := none
  sourceId : Option String := none
  targetId : Option String := none
  deriving Repr, DecidableEq

namespace Operation

/-- `op.position ?? 0`. -/
def pos (op : Operation) : Int := op.position.getD 0

/-- `op.newPosition ?? 0`. -/
def newPos (op : Operation) : Int := op.newPosition.getD 0

end Operation

structure TransformResult where
  op1Prime : Operation
  op2Prime : Operation
  success : Bool
  warnings : Option (List String) := none
  deriving Repr, DecidableEq

inductive ResourceType where
  | workflow
  | state
  | image
  | transition
  | action
  | connection
  deriving Repr, DecidableEq

namespace ResourceType

def name : ResourceType → String
  | workflow => "workflow"
  | state => "state"
  | image => "image"
  | transition => "transition"
  | action => "action"
  | connection => "connection"

end ResourceType

inductive ConflictType where
  | actionModified
  | actionRemoved
  | propertyChanged
  | connectionChanged
  | structureChanged
  | metadataChanged
  deriving Repr, DecidableEq

inductive ResolutionStrategy where
  | keepLocal
  | keepRemote
  | merge
  | manual
  deriving Repr, DecidableEq

inductive ConflictSeverity where
  | low
  | medium
  | high
  deriving Repr, DecidableEq

/-- A conflict between two versions. The segments of `path` are keys and, inside
the lists of actions and connections, the ids of items, which are whatever the
items hold. The generated id and the time of creation are not modelled. -/
structure Conflict where
  type : ConflictType
  resourceType : ResourceType
  resourceId : String
  localVersion : JsValue
  serverVersion : JsValue
  baseVersion : JsValue
  path : List JsValue
  severity : ConflictSeverity
  autoResolvable : Bool
  deriving Repr, DecidableEq

/-- The resolution of a conflict, which stands here for its id. -/
structure Resolution where
  conflict : Conflict
  strategy : ResolutionStrategy
  resolvedValue : JsValue
  deriving Repr, DecidableEq

structure MergeResult where
  success : Bool
  conflicts : List Conflict
  mergedVersion : Json
  resolutions : List Resolution
  deriving Repr, DecidableEq

end Qontinui
