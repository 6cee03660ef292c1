import Qontinui.Collaboration.ConflictDetector

/-!
The three-way merge of `ConflictDetector`. The merged version starts as a shallow copy of
the base: what a resolution writes below a key of the copy is written to the base too,
unless the copy has been given a value of its own there.

What `detectPropertyConflicts` reports. Below a key at which three objects meet the
search goes on; other values that all differ are a conflict, unless each of them is an
object or `null`, where the `null` ends the search.
-/

namespace Qontinui.ConflictDetector

section Merge

/-- The merged version under way, the base that it shares its values with, and the keys
it shares no more. -/
structure Merge where
  merged : List (String × Json)
  base : Json
  owned : List String := []
  deriving Repr, DecidableEq

/-- `target[key] = value` on an object. -/
def setProperty (fields : List (String × Json)) (key : String) : JsValue → List (String × Json)
  | some value => Fields.set key value fields
  | none => Fields.erase key fields

/-- Write below a value, with an object wherever the path meets a falsy value. -/
def setBelow (current : Json) (lastKey : String) (value : JsValue) : List String → Js Json
  | [] => current.writeKey lastKey value
  | key :: keys => do
      let child ← current.readKey key
      match child with
      | some child =>
          if child.truthy then
            let written ← setBelow child lastKey value keys
            pure (current.replaceKey key written)
          else
            let created ← setBelow (.obj []) lastKey value keys
            current.writeKey key (some created)
      | none =>
          let created ← setBelow (.obj []) lastKey value keys
          current.writeKey key (some created)

/-- Apply resolution to merged version. Empty keys on the way are skipped. -/
def applyResolution (merge : Merge) (path : List String) (value : JsValue) : Js Merge :=
  match path.getLast? with
  | none => pure merge
  | some lastKey =>
      match path.dropLast.filter (fun key => key ≠ "") with
      | [] =>
          pure { merge with
            merged := setProperty merge.merged lastKey value
            owned := lastKey :: merge.owned }
      | key :: keys =>
          let child := merge.merged.lookup key
          if JsValue.truthy child then do
            let written ← setBelow (child.getD .null) lastKey value keys
            pure { merge with
              merged := Fields.set key written merge.merged
              base :=
                if key ∈ merge.owned then merge.base else merge.base.replaceKey key written }
          else do
            let created ← setBelow (.obj []) lastKey value keys
            pure { merge with
              merged := Fields.set key created merge.merged
              owned := key :: merge.owned }

def hasConflict (conflicts : List Conflict) (key : String) : Bool :=
  conflicts.any fun conflict => conflict.path.head? = some (some (.str key))

def applyNonConflictingChanges (target : List (String × Json)) (source base : Json)
    (conflicts : List Conflict) : List (String × Json) :=
  if !source.truthy || !source.isObject then target
  else
    source.keys.foldl (fun target key =>
      if hasConflict conflicts key then target
      else if source.property key ≠ base.property key then
        setProperty target key (source.property key)
      else target) target

def conflictKeys (conflict : Conflict) : List String :=
  conflict.path.filterMap fun
    | some (.str key) => some key
    | _ => none

/-- Try to auto-resolve a conflict. What throws is left unresolved. -/
def autoResolve (state : Merge × List Resolution) (conflict : Conflict) :
    Merge × List Resolution :=
  if conflict.autoResolvable then
    let resolved : Js (Merge × JsValue) := do
      let resolvedValue ← resolveConflict conflict .merge
      let merge ← applyResolution state.1 (conflictKeys conflict) resolvedValue
      pure (merge, resolvedValue)
    match resolved with
    | .ok (merge, resolvedValue) =>
        (merge, state.2 ++ [⟨conflict, .merge, resolvedValue⟩])
    | .error _ => state
  else state

def threeWayMerge (config : ConflictDetectorConfig) (localVersion remote base : Json) :
    Js MergeResult := do
  let conflicts ← detectConflicts config localVersion remote base
  let copied : Merge := { merged := OperationalTransform.spreadFields base, base := base }
  let (merge, resolutions) := conflicts.foldl autoResolve (copied, [])
  let withLocal := applyNonConflictingChanges merge.merged localVersion merge.base conflicts
  let withRemote := applyNonConflictingChanges withLocal remote merge.base conflicts
  let unresolved := conflicts.filter fun conflict => !conflict.autoResolvable
  pure
    { success := unresolved.isEmpty
      conflicts := unresolved
      mergedVersion := .obj withRemote
      resolutions := resolutions }

end Merge

open Json

theorem eq_of_strictEquals {a b : JsValue} (h : strictEquals a b = true) : a = b := by
  unfold strictEquals at h
  split at h
  · cases h
  · cases h
  · exact eq_of_beq h

theorem not_strictEquals {a b : JsValue} (h : ¬ Same a b) : strictEquals a b = false := by
  by_contra heq
  exact h (eq_of_strictEquals (by simpa using heq) ▸ Same.refl a)

variable {baseValue localValue remoteValue : JsValue} {localVersion : Json}

theorem allDiffer_of_not_same (hlocal : ¬ Same localValue baseValue)
    (hremote : ¬ Same remoteValue baseValue) (hboth : ¬ Same localValue remoteValue) :
    allDiffer localValue remoteValue baseValue = true := by
  simp [allDiffer, not_strictEquals hlocal, not_strictEquals hremote, not_strictEquals hboth]

/-- Each of three values is an object or `null`. -/
def allRecords (localValue remoteValue baseValue : JsValue) : Bool :=
  isRecord localValue && isRecord remoteValue && isRecord baseValue

/-- The conflicts of three values with one another, without those of what they hold. -/
def valueConflicts (localValue remoteValue baseValue : JsValue) (keyed : List String) :
    List Conflict :=
  (if allDiffer localValue remoteValue baseValue && !allRecords localValue remoteValue baseValue
    then [createConflict .propertyChanged localValue remoteValue baseValue (keyPath keyed)]
    else []) ++
  if removedOrChanged localValue remoteValue baseValue then
    [createConflict .actionRemoved localValue remoteValue baseValue (keyPath keyed)]
  else []

def keyConflicts (localValue remoteValue baseValue : JsValue) (keyed : List String) :
    List Conflict :=
  (if allDiffer localValue remoteValue baseValue then
    if allRecords localValue remoteValue baseValue then
      detectPropertyConflicts localValue remoteValue baseValue keyed
    else [createConflict .propertyChanged localValue remoteValue baseValue (keyPath keyed)]
  else []) ++
    if removedOrChanged localValue remoteValue baseValue then
      [createConflict .actionRemoved localValue remoteValue baseValue (keyPath keyed)]
    else []

variable {remote base : Json} {key : String}

theorem detect_containers (path : List String)
    (hlocal : localVersion.isObject = true ∧ localVersion.truthy = true)
    (hremote : remote.isObject = true ∧ remote.truthy = true)
    (hbase : base.isObject = true ∧ base.truthy = true) :
    detectPropertyConflicts localVersion remote base path =
      (allKeys localVersion remote base).flatMap fun key =>
        keyConflicts (localVersion.property key) (remote.property key) (base.property key)
          (path ++ [key]) := by
  rw [detectPropertyConflicts]
  simp only [hlocal, hremote, hbase, Bool.not_true, Bool.or_self, Bool.false_eq_true, if_false,
    dite_eq_ite]
  simp only [keyConflicts, allRecords, Bool.and_eq_true, and_assoc]

theorem detect_falsy {localVersion remote base : JsValue} (path : List String)
    (h : (JsValue.truthy localVersion && JsValue.truthy remote && JsValue.truthy base) = false) :
    detectPropertyConflicts localVersion remote base path = [] := by
  unfold detectPropertyConflicts
  split
  · next l r b =>
      simp only [JsValue.truthy] at h
      rw [if_pos]
      grind
  · rfl

theorem detect_primitives (path : List String)
    (htruthy : (localVersion.truthy && remote.truthy && base.truthy) = true)
    (h : (localVersion.isObject && remote.isObject && base.isObject) = false) :
    detectPropertyConflicts localVersion remote base path =
      if allDiffer localVersion remote base then
        [createConflict .propertyChanged localVersion remote base (keyPath path)]
      else [] := by
  rw [detectPropertyConflicts]
  simp only [Bool.and_eq_true] at htruthy
  simp only [htruthy, Bool.not_true, Bool.or_self, Bool.false_eq_true, if_false]
  rw [if_pos (by grind)]

theorem mem_allKeys :
    key ∈ allKeys localVersion remote base ↔
      key ∈ localVersion.keys ∨ key ∈ remote.keys ∨ key ∈ base.keys := by
  simp [allKeys, List.mem_eraseDups]

def AllObjects (localValue remoteValue baseValue : JsValue) : Prop :=
  ∃ l r b, localValue = some (.obj l) ∧ remoteValue = some (.obj r) ∧ baseValue = some (.obj b)

section

variable (h : AllObjects localValue remoteValue baseValue)
include h

theorem AllObjects.allRecords : allRecords localValue remoteValue baseValue = true := by
  obtain ⟨l, r, b, rfl, rfl, rfl⟩ := h
  rfl

theorem AllObjects.allDiffer : allDiffer localValue remoteValue baseValue = true := by
  obtain ⟨l, r, b, rfl, rfl, rfl⟩ := h
  rfl

theorem AllObjects.not_removed : removedOrChanged localValue remoteValue baseValue = false := by
  obtain ⟨l, r, b, rfl, rfl, rfl⟩ := h
  rfl

end

theorem exists_obj_of_isRecord {value : JsValue} (h : isRecord value = true)
    (htruthy : JsValue.truthy value = true) : ∃ fields, value = some (.obj fields) := by
  cases value with
  | none => cases h
  | some value =>
      cases value with
      | obj fields => exact ⟨fields, rfl⟩
      | null => cases htruthy
      | _ => cases h

theorem detect_null (keyed : List String)
    (hrecords : allRecords localValue remoteValue baseValue = true)
    (h : ¬ AllObjects localValue remoteValue baseValue) :
    detectPropertyConflicts localValue remoteValue baseValue keyed = [] := by
  apply detect_falsy
  by_contra htruthy
  simp only [ConflictDetector.allRecords, Bool.and_eq_true] at hrecords
  simp only [Bool.not_eq_false, Bool.and_eq_true] at htruthy
  obtain ⟨l, rfl⟩ := exists_obj_of_isRecord hrecords.1.1 htruthy.1.1
  obtain ⟨r, rfl⟩ := exists_obj_of_isRecord hrecords.1.2 htruthy.1.2
  obtain ⟨b, rfl⟩ := exists_obj_of_isRecord hrecords.2 htruthy.2
  exact h ⟨l, r, b, rfl, rfl, rfl⟩

theorem keyConflicts_objects (l r b : List (String × Json)) (keyed : List String) :
    keyConflicts (some (.obj l)) (some (.obj r)) (some (.obj b)) keyed =
      (allKeys (.obj l) (.obj r) (.obj b)).flatMap fun key =>
        keyConflicts (l.lookup key) (r.lookup key) (b.lookup key) (keyed ++ [key]) := by
  have hobjects : AllObjects (some (.obj l)) (some (.obj r)) (some (.obj b)) :=
    ⟨l, r, b, rfl, rfl, rfl⟩
  rw [keyConflicts, if_pos hobjects.allDiffer, if_pos hobjects.allRecords,
    hobjects.not_removed, detect_containers keyed ⟨rfl, rfl⟩ ⟨rfl, rfl⟩ ⟨rfl, rfl⟩]
  exact List.append_nil _

theorem detect_root (localVersion remote base : List (String × Json)) :
    detectPropertyConflicts (some (.obj localVersion)) (some (.obj remote)) (some (.obj base)) [] =
      keyConflicts (some (.obj localVersion)) (some (.obj remote)) (some (.obj base)) [] := by
  rw [keyConflicts_objects]
  exact detect_containers [] ⟨rfl, rfl⟩ ⟨rfl, rfl⟩ ⟨rfl, rfl⟩

theorem keyConflicts_other (keyed : List String) (h : ¬ AllObjects localValue remoteValue baseValue) :
    keyConflicts localValue remoteValue baseValue keyed =
      valueConflicts localValue remoteValue baseValue keyed := by
  by_cases hrecords : allRecords localValue remoteValue baseValue = true
  · simp [keyConflicts, valueConflicts, hrecords, detect_null keyed hrecords h]
  · simp [keyConflicts, valueConflicts, hrecords]

theorem valueConflicts_objects (keyed : List String)
    (h : AllObjects localValue remoteValue baseValue) :
    valueConflicts localValue remoteValue baseValue keyed = [] := by
  simp [valueConflicts, h.allRecords, h.not_removed]

/-- Three objects meet at every step of a path. -/
def Searched : JsValue → JsValue → JsValue → List String → Prop
  | _, _, _, [] => True
  | some (.obj l), some (.obj r), some (.obj b), key :: path =>
      Searched (l.lookup key) (r.lookup key) (b.lookup key) path
  | _, _, _, _ :: _ => False

theorem Searched.objects {path : List String}
    (h : Searched localValue remoteValue baseValue (key :: path)) :
    AllObjects localValue remoteValue baseValue := by
  unfold Searched at h
  split at h
  · contradiction
  · next l r b _ _ _ => exact ⟨l, r, b, rfl, rfl, rfl⟩
  · exact h.elim

theorem mem_keys_obj {fields : List (String × Json)} :
    key ∈ (Json.obj fields).keys ↔ fields.lookup key ≠ none := by
  simp only [keys, List.mem_map, ne_eq, List.lookup_eq_none_iff, not_forall]
  constructor
  · rintro ⟨field, hfield, rfl⟩
    exact ⟨field, hfield, by simp⟩
  · rintro ⟨field, hfield, heq⟩
    exact ⟨field, hfield, (by simpa using heq : key = field.1).symm⟩

theorem property_obj (fields : List (String × Json)) (key : String) :
    (Json.obj fields).property key = fields.lookup key := rfl

theorem under_obj (fields : List (String × Json)) (key : String) (path : List String) :
    under (some (.obj fields)) (key :: path) = under (fields.lookup key) path := rfl

theorem sizeOf_field_lt (fields : List (String × Json)) (key : String) :
    sizeOf (fields.lookup key) < sizeOf (some (Json.obj fields)) := by
  cases h : fields.lookup key with
  | none =>
      simp only [Option.none.sizeOf_spec, Option.some.sizeOf_spec, obj.sizeOf_spec]
      omega
  | some child =>
      have := sizeOf_lookup_lt h
      simp only [Option.some.sizeOf_spec, obj.sizeOf_spec]
      omega

theorem exists_of_mem_keyConflicts {localValue remoteValue baseValue : JsValue}
    {keyed : List String} {conflict : Conflict}
    (h : conflict ∈ keyConflicts localValue remoteValue baseValue keyed) :
    ∃ path, Searched localValue remoteValue baseValue path ∧
      conflict ∈ valueConflicts (under localValue path) (under remoteValue path)
        (under baseValue path) (keyed ++ path) := by
  by_cases hobjects : AllObjects localValue remoteValue baseValue
  · obtain ⟨l, r, b, hlocal, rfl, rfl⟩ := hobjects
    rw [hlocal, keyConflicts_objects] at h
    obtain ⟨key, _, hkey⟩ := List.mem_flatMap.mp h
    obtain ⟨path, hsearched, hpath⟩ := exists_of_mem_keyConflicts hkey
    rw [hlocal]
    refine ⟨key :: path, hsearched, ?_⟩
    simpa [under_obj] using hpath
  · rw [keyConflicts_other keyed hobjects] at h
    exact ⟨[], trivial, by simpa using h⟩
termination_by sizeOf localValue
decreasing_by
  rw [hlocal]
  exact sizeOf_field_lt l key

theorem mem_keyConflicts {keyed path : List String} {conflict : Conflict}
    (hsearched : Searched localValue remoteValue baseValue path)
    (h : conflict ∈ valueConflicts (under localValue path) (under remoteValue path)
      (under baseValue path) (keyed ++ path)) :
    conflict ∈ keyConflicts localValue remoteValue baseValue keyed := by
  induction path generalizing localValue remoteValue baseValue keyed with
  | nil =>
      simp only [under_nil, List.append_nil] at h
      by_cases hobjects : AllObjects localValue remoteValue baseValue
      · simp [valueConflicts_objects keyed hobjects] at h
      · rwa [keyConflicts_other keyed hobjects]
  | cons key path ih =>
      obtain ⟨l, r, b, rfl, rfl, rfl⟩ := hsearched.objects
      rw [keyConflicts_objects]
      refine List.mem_flatMap.mpr ⟨key, ?_, ih hsearched (by simpa [under_obj] using h)⟩
      by_contra hkey
      have habsent : l.lookup key = none ∧ r.lookup key = none ∧ b.lookup key = none := by
        refine ⟨?_, ?_, ?_⟩ <;> by_contra hsome <;>
          exact hkey (mem_allKeys.mpr (by simp [mem_keys_obj, hsome]))
      simp only [under_obj, habsent] at h
      exact absurd h List.not_mem_nil

end Qontinui.ConflictDetector
