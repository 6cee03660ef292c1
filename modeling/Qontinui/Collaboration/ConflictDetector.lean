import Mathlib.Algebra.GroupWithZero.Nat
import Mathlib.Data.List.Infix
import Qontinui.Collaboration.Apply

/-!
`ConflictDetector`: conflicts between a local and a remote version of a resource
and their common base, and the three-way merge on top of them. The versions were
parsed separately, so no two of them share an object or an array and `===` never
holds between those.
-/

namespace Qontinui

namespace Json

/-- `typeof value === "object"`: so is `null`. -/
def isObject : Json → Bool
  | .null | .arr _ | .obj _ => true
  | _ => false

/-- `Object.keys(value)`. -/
def keys : Json → List String
  | .obj fields => fields.map Prod.fst
  | .arr items => (List.range items.length).map toString
  | _ => []

/-- `value[key]`, or `undefined` where `value` has no properties. -/
def property (value : Json) (key : String) : JsValue :=
  match value.readKey key with
  | .ok child => child
  | .error _ => none

/-- Only what lies inside a container is an object again. -/
theorem sizeOf_property_lt {value child : Json} {key : String}
    (h : value.property key = some child) (hchild : child.isObject = true) :
    sizeOf child < sizeOf value := by
  cases value with
  | obj fields =>
      have := sizeOf_lookup_lt (h : fields.lookup key = some child)
      simp only [obj.sizeOf_spec]
      omega
  | arr items =>
      cases hi : arrayIndex? key with
      | none =>
          simp only [property, readKey, hi] at h
          split_ifs at h
          · cases h
            cases hchild
      | some i =>
          simp only [property, readKey, hi] at h
          have := List.sizeOf_lt_of_mem (List.mem_of_getElem? h)
          simp only [arr.sizeOf_spec]
          omega
  | str s =>
      simp only [property, readKey] at h
      split at h
      · next heq =>
          split at heq
          · cases heq
            obtain ⟨c, _, rfl⟩ := Option.map_eq_some_iff.mp h
            cases hchild
          · split_ifs at heq
            · cases heq
              cases h
              cases hchild
            · cases heq
              cases h
      · cases h
  | _ => simp [property, readKey] at h

end Json

/-- `a === b` between values that share no object or array. -/
def strictEquals : JsValue → JsValue → Bool
  | some (.arr _), _ => false
  | some (.obj _), _ => false
  | a, b => a == b

/-- The `length` of a string, in UTF-16 code units. -/
def utf16Length (s : String) : Nat :=
  (s.toList.map fun c => if c.toNat < 0x10000 then 1 else 2).sum

/-- `text.includes(part)`. -/
def includes (text part : String) : Bool := decide (part.toList <:+: text.toList)

def keyPath (path : List String) : List JsValue := path.map fun key => some (.str key)

/-- `typeof value === "object" && !Array.isArray(value)`: `null` and objects. -/
def isRecord : JsValue → Bool
  | some .null | some (.obj _) => true
  | _ => false

theorem sizeOf_record_lt {value : Json} {key : String}
    (h : isRecord (value.property key) = true) :
    sizeOf (value.property key) < sizeOf (some value) := by
  cases hchild : value.property key with
  | none => simp [hchild, isRecord] at h
  | some child =>
      have hobject : child.isObject = true := by
        rw [hchild] at h
        cases child <;> first | rfl | simp [isRecord] at h
      have hlt := Json.sizeOf_property_lt hchild hobject
      simp only [Option.some.sizeOf_spec]
      omega

structure ConflictDetectorConfig where
  detectPropertyChanges : Bool := true
  detectStructuralChanges : Bool := true
  minimumSeverity : ConflictSeverity := .low
  customRules : List (Json → Json → Json → Option Conflict) := []

namespace ConflictDetector

/-- Determine if a conflict can be automatically resolved. -/
def isAutoResolvable (type : ConflictType) (localValue remoteValue baseValue : JsValue) : Bool :=
  match type with
  | .propertyChanged =>
      match localValue, remoteValue, baseValue with
      | some (.num _), some (.num _), some (.num _) => true
      | _, _, _ => false
  | .metadataChanged => true
  | _ => false

def determineSeverity : ConflictType → ConflictSeverity
  | .actionRemoved | .structureChanged | .connectionChanged => .high
  | .actionModified => .medium
  | _ => .low

def inferResourceType (path : List JsValue) : ResourceType :=
  match path with
  | some (.str firstSegment) :: _ =>
      let segment := firstSegment.toLower
      if includes segment "action" then .action
      else if includes segment "connection" then .connection
      else if includes segment "state" then .state
      else if includes segment "image" then .image
      else if includes segment "transition" then .transition
      else .workflow
  | _ => .workflow

def createConflict (type : ConflictType) (localValue remoteValue baseValue : JsValue)
    (path : List JsValue) : Conflict where
  type := type
  resourceType := inferResourceType path
  resourceId :=
    match path with
    | some (.str segment) :: _ => segment
    | _ => ""
  localVersion := localValue
  serverVersion := remoteValue
  baseVersion := baseValue
  path := path
  severity := determineSeverity type
  autoResolvable := isAutoResolvable type localValue remoteValue baseValue

def allDiffer (localValue remoteValue baseValue : JsValue) : Bool :=
  !strictEquals localValue baseValue && !strictEquals remoteValue baseValue &&
    !strictEquals localValue remoteValue

/-- One side has deleted a value that the other has changed. -/
def removedOrChanged (localValue remoteValue baseValue : JsValue) : Bool :=
  (localValue.isNone && !strictEquals remoteValue baseValue && baseValue.isSome) ||
    (remoteValue.isNone && !strictEquals localValue baseValue && baseValue.isSome)

def allKeys (localVersion remote base : Json) : List String :=
  (localVersion.keys ++ remote.keys ++ base.keys).eraseDups

def detectPropertyConflicts (localVersion remote base : JsValue) (path : List String) :
    List Conflict :=
  match localVersion, remote, base with
  | some localVersion, some remote, some base =>
      if !localVersion.truthy || !remote.truthy || !base.truthy then []
      else if !localVersion.isObject || !remote.isObject || !base.isObject then
        if allDiffer localVersion remote base then
          [createConflict .propertyChanged localVersion remote base (keyPath path)]
        else []
      else
        (allKeys localVersion remote base).flatMap fun key =>
          let localValue := localVersion.property key
          let remoteValue := remote.property key
          let baseValue := base.property key
          let keyed := path ++ [key]
          let changed :=
            if allDiffer localValue remoteValue baseValue then
              if _ : isRecord localValue ∧ isRecord remoteValue ∧ isRecord baseValue then
                detectPropertyConflicts localValue remoteValue baseValue keyed
              else
                [createConflict .propertyChanged localValue remoteValue baseValue (keyPath keyed)]
            else []
          let removed :=
            if removedOrChanged localValue remoteValue baseValue then
              [createConflict .actionRemoved localValue remoteValue baseValue (keyPath keyed)]
            else []
          changed ++ removed
  | _, _, _ => []
termination_by localVersion
decreasing_by
  exact sizeOf_record_lt (And.left ‹isRecord _ ∧ _›)

/-- The items of a list under their ids, as `new Map` keeps them: an item replaces the
one before it of its id. An id that is an object or a list is that of no other item and
is left out, since a conflict takes two items. -/
def itemsById (list : JsValue) : Js (List (JsValue × Json)) :=
  match list with
  | some (.arr items) => do
      let entries ← items.mapM fun item => do
        let id ← item.readKey "id"
        pure (id, item)
      let named := entries.filter fun entry =>
        match entry.1 with
        | some (.arr _) | some (.obj _) => false
        | _ => true
      pure (named.foldl (fun map entry => Fields.set entry.1 entry.2 map) [])
  | _ => throw .typeError

def detectArrayConflicts (localVersion remote base : JsValue) (path : List JsValue)
    (conflictType : ConflictType) : Js (List Conflict) := do
  let localMap ← itemsById localVersion
  let remoteMap ← itemsById remote
  let baseMap ← itemsById base
  let allIds := (localMap ++ remoteMap ++ baseMap).map Prod.fst |>.eraseDups
  pure (allIds.flatMap fun id =>
    let localItem := localMap.lookup id
    let remoteItem := remoteMap.lookup id
    let baseItem := baseMap.lookup id
    let conflict (type : ConflictType) : Conflict :=
      createConflict type localItem remoteItem baseItem (path ++ [id])
    let modified :=
      if JsValue.truthy localItem && JsValue.truthy remoteItem && JsValue.truthy baseItem &&
          localItem ≠ baseItem && remoteItem ≠ baseItem && localItem ≠ remoteItem then
        [conflict conflictType]
      else []
    let localRemoved :=
      if !JsValue.truthy localItem && JsValue.truthy remoteItem && JsValue.truthy baseItem &&
          remoteItem ≠ baseItem then
        [conflict .actionRemoved]
      else []
    let remoteRemoved :=
      if JsValue.truthy localItem && !JsValue.truthy remoteItem && JsValue.truthy baseItem &&
          localItem ≠ baseItem then
        [conflict .actionRemoved]
      else []
    modified ++ localRemoved ++ remoteRemoved)

/-- The conflicts of one list of items, where all versions have one. -/
def detectItemConflicts (localVersion remote base : Json) (key : String)
    (conflictType : ConflictType) : Js (List Conflict) := do
  let localItems ← localVersion.readKey key
  if !JsValue.truthy localItems then pure []
  else
    let remoteItems ← remote.readKey key
    if !JsValue.truthy remoteItems then pure []
    else
      let baseItems ← base.readKey key
      if !JsValue.truthy baseItems then pure []
      else detectArrayConflicts localItems remoteItems baseItems [some (.str key)] conflictType

def detectStructuralConflicts (localVersion remote base : Json) : Js (List Conflict) := do
  let actions ← detectItemConflicts localVersion remote base "actions" .actionModified
  let connections ← detectItemConflicts localVersion remote base "connections" .connectionChanged
  pure (actions ++ connections)

def getSeverityLevel : ConflictSeverity → Nat
  | .low => 1
  | .medium => 2
  | .high => 3

/-- Detect conflicts between local, server, and base versions. -/
def detectConflicts (config : ConflictDetectorConfig)
    (localVersion serverVersion baseVersion : Json) : Js (List Conflict) := do
  let propertyConflicts :=
    if config.detectPropertyChanges then
      detectPropertyConflicts localVersion serverVersion baseVersion []
    else []
  let structural ←
    if config.detectStructuralChanges then
      detectStructuralConflicts localVersion serverVersion baseVersion
    else pure []
  let custom := config.customRules.filterMap fun rule =>
    rule localVersion serverVersion baseVersion
  pure ((propertyConflicts ++ structural ++ custom).filter fun conflict =>
    getSeverityLevel config.minimumSeverity ≤ getSeverityLevel conflict.severity)

/-- `{ ...base, ...server, ...local }`. -/
def spreadAll (values : List JsValue) : Json :=
  .obj (values.foldl (fun fields value => (OperationalTransform.spreadFields value).foldl
    (fun fields field => Fields.set field.1 field.2 fields) fields) [])

def attemptAutoMerge (conflict : Conflict) : JsValue :=
  match conflict.type with
  | .propertyChanged =>
      match conflict.localVersion, conflict.serverVersion, conflict.baseVersion with
      | some (.num localVersion), some (.num serverVersion), some (.num baseVersion) =>
          let localDelta := localVersion - baseVersion
          let remoteDelta := serverVersion - baseVersion
          some (.num (baseVersion + localDelta + remoteDelta))
      | some (.str localVersion), some (.str serverVersion), _ =>
          if utf16Length serverVersion ≤ utf16Length localVersion then some (.str localVersion)
          else some (.str serverVersion)
      | localVersion, _, _ => localVersion
  | .metadataChanged =>
      some (spreadAll [conflict.baseVersion, conflict.serverVersion, conflict.localVersion])
  | _ => conflict.localVersion

def resolveConflict (conflict : Conflict) (strategy : ResolutionStrategy) : Js JsValue :=
  match strategy with
  | .keepLocal => pure conflict.localVersion
  | .keepRemote => pure conflict.serverVersion
  | .merge => pure (attemptAutoMerge conflict)
  | .manual => throw (.error "Manual resolution required - no automatic resolution available")

end ConflictDetector

end Qontinui
