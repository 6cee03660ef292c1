import Qontinui.MergeService.KeyPaths

/-!
The objects that the merge goes through key by key without a conflict: those that all
three versions have and that differ pairwise, all the way down from the root. The merge
drops a local change only where a conflict has been reported: at the path of the change
or above it.
-/

namespace Qontinui.ConflictResolution

variable {baseData localData remoteData : Dict} {key : String} {order : SetOrder} {data : Dict}

theorem mem_allKeys :
    key ∈ order.allKeys baseData localData remoteData ↔
      (baseData.lookup key).isSome ∨ (localData.lookup key).isSome ∨
        (remoteData.lookup key).isSome := by
  simp only [SetOrder.allKeys, order.mem_iterate, List.mem_append, Fields.lookup_isSome_iff,
    or_assoc]

theorem Dict.get_of_none (h : ¬ (data.lookup key).isSome) : data.get key = .null := by
  rw [Dict.get_eq, Option.not_isSome_iff_eq_none.mp h]
  rfl

theorem conflictsAt_null (order : SetOrder) (field : String) :
    conflictsAt order field .null .null .null = [] := rfl

theorem mem_detectConflicts {path : String} {conflict : ConflictChange} :
    conflict ∈ detectConflicts order baseData localData remoteData path ↔
      ∃ key, conflict ∈ conflictsAt order (fieldPath path key) (baseData.get key)
        (localData.get key) (remoteData.get key) := by
  rw [detectConflicts_eq, List.mem_flatMap]
  constructor
  · rintro ⟨key, _, hconflict⟩
    exact ⟨key, hconflict⟩
  · rintro ⟨key, hconflict⟩
    refine ⟨key, ?_, hconflict⟩
    by_contra hkey
    simp only [mem_allKeys, not_or] at hkey
    rw [Dict.get_of_none hkey.1, Dict.get_of_none hkey.2.1, Dict.get_of_none hkey.2.2,
      conflictsAt_null] at hconflict
    cases hconflict

theorem lookup_map_key {keys : List String} (value : String → Json) (key : String) :
    (keys.map fun k => (k, value k)).lookup key =
      if key ∈ keys then some (value key) else none := by
  induction keys with
  | nil => rfl
  | cons k keys ih =>
      rw [List.map_cons, Fields.lookup_cons, ih]
      by_cases hk : k = key
      · subst hk
        simp
      · simp [hk, Ne.symm hk]

theorem lookup_recursiveMerge (order : SetOrder) (baseData localData remoteData : Dict)
    (key : String) :
    (recursiveMerge order baseData localData remoteData).lookup key =
      if (baseData.lookup key).isSome ∨ (localData.lookup key).isSome ∨
          (remoteData.lookup key).isSome then
        some (mergedValue order (baseData.get key) (localData.get key) (remoteData.get key))
      else none := by
  rw [recursiveMerge_eq, lookup_map_key]
  simp only [mem_allKeys]

theorem get_recursiveMerge (order : SetOrder) (baseData localData remoteData : Dict)
    (key : String) :
    (recursiveMerge order baseData localData remoteData).get key =
      mergedValue order (baseData.get key) (localData.get key) (remoteData.get key) := by
  rw [Dict.get_eq, lookup_recursiveMerge]
  split
  · rfl
  · next hnone =>
      simp only [not_or] at hnone
      rw [Dict.get_of_none hnone.1, Dict.get_of_none hnone.2.1, Dict.get_of_none hnone.2.2]
      rfl

abbrev Unequal (a b : Json) : Prop := ¬ valuesEqual a b = true

/-- The path leads through objects of all three versions that differ pairwise. -/
def MergedAt (baseData localData remoteData : Dict) : List String → Prop
  | [] => True
  | key :: path =>
      ∃ baseFields localFields remoteFields,
        baseData.get key = .obj baseFields ∧ localData.get key = .obj localFields ∧
        remoteData.get key = .obj remoteFields ∧
        Unequal (.obj localFields) (.obj remoteFields) ∧
        Unequal (.obj localFields) (.obj baseFields) ∧
        Unequal (.obj remoteFields) (.obj baseFields) ∧
        MergedAt baseFields localFields remoteFields path

theorem lookup_of_get {fields : Dict} (h : data.get key = .obj fields) :
    data.lookup key = some (.obj fields) := by
  rw [Dict.get_eq] at h
  cases hlookup : data.lookup key with
  | none =>
      rw [hlookup] at h
      cases h
  | some value =>
      rw [hlookup] at h
      exact congrArg some h

theorem mergedValue_obj (order : SetOrder) {baseFields localFields remoteFields : Dict}
    (hsides : Unequal (.obj localFields) (.obj remoteFields))
    (hlocal : Unequal (.obj localFields) (.obj baseFields))
    (hremote : Unequal (.obj remoteFields) (.obj baseFields)) :
    mergedValue order (.obj baseFields) (.obj localFields) (.obj remoteFields) =
      .obj (recursiveMerge order baseFields localFields remoteFields) := by
  rw [mergedValue, if_neg hsides, if_neg hlocal, if_neg hremote]
  rfl

theorem MergedAt.valueAt_recursiveMerge (order : SetOrder) {path : List String}
    (h : MergedAt baseData localData remoteData path) :
    ∃ baseFields localFields remoteFields,
      valueAt baseData path = some (.obj baseFields) ∧
      valueAt localData path = some (.obj localFields) ∧
      valueAt remoteData path = some (.obj remoteFields) ∧
      valueAt (recursiveMerge order baseData localData remoteData) path =
        some (.obj (recursiveMerge order baseFields localFields remoteFields)) := by
  induction path generalizing baseData localData remoteData with
  | nil => exact ⟨_, _, _, below_nil _, below_nil _, below_nil _, below_nil _⟩
  | cons key path ih =>
      obtain ⟨baseFields, localFields, remoteFields, hb, hl, hr, hsides, hlocal, hremote, hrest⟩ := h
      have hb' := lookup_of_get hb
      have hmerged : (recursiveMerge order baseData localData remoteData).lookup key =
          some (.obj (recursiveMerge order baseFields localFields remoteFields)) := by
        rw [lookup_recursiveMerge, if_pos (.inl (by rw [hb']; rfl)), hb, hl, hr,
          mergedValue_obj order hsides hlocal hremote]
      simp only [valueAt_cons, hb', lookup_of_get hl, lookup_of_get hr, hmerged]
      exact ih hrest

/-- What is detected and written at a key: without a conflict the sides agree there, or one
of them is the base, or all three are objects. -/
inductive KeyMerge (order order' : SetOrder) (field : String)
    (baseValue localValue remoteValue : Json) : Prop where
  | sides (h : valuesEqual localValue remoteValue = true)
      (hmerged : mergedValue order' baseValue localValue remoteValue = localValue)
  | takesRemote (hsides : Unequal localValue remoteValue)
      (h : valuesEqual localValue baseValue = true)
      (hmerged : mergedValue order' baseValue localValue remoteValue = remoteValue)
  | takesLocal (hsides : Unequal localValue remoteValue)
      (h : valuesEqual remoteValue baseValue = true)
      (hmerged : mergedValue order' baseValue localValue remoteValue = localValue)
  | nested (baseFields localFields remoteFields : Dict)
      (hb : baseValue = .obj baseFields) (hl : localValue = .obj localFields)
      (hr : remoteValue = .obj remoteFields)
      (hsides : Unequal localValue remoteValue)
      (hlocal : Unequal localValue baseValue) (hremote : Unequal remoteValue baseValue)
      (hconflicts : conflictsAt order field baseValue localValue remoteValue =
        detectConflicts order baseFields localFields remoteFields field)
      (hmerged : mergedValue order' baseValue localValue remoteValue =
        .obj (recursiveMerge order' baseFields localFields remoteFields))
  | reported (hlocal : Unequal localValue baseValue) (hremote : Unequal remoteValue baseValue)
      (hconflicts : conflictsAt order field baseValue localValue remoteValue =
        [{ field, baseValue, localValue, remoteValue
           conflictType := determineConflictType baseValue localValue remoteValue }])

theorem keyMerge (order order' : SetOrder) (field : String)
    (baseValue localValue remoteValue : Json) :
    KeyMerge order order' field baseValue localValue remoteValue := by
  by_cases hsides : valuesEqual localValue remoteValue = true
  · apply KeyMerge.sides hsides
    unfold mergedValue
    rw [if_pos hsides]
  by_cases hlocal : valuesEqual localValue baseValue = true
  · apply KeyMerge.takesRemote hsides hlocal
    unfold mergedValue
    rw [if_neg hsides, if_pos hlocal]
  by_cases hremote : valuesEqual remoteValue baseValue = true
  · apply KeyMerge.takesLocal hsides hremote
    unfold mergedValue
    rw [if_neg hsides, if_neg hlocal, if_pos hremote]
  by_cases hobjects : ∃ baseFields localFields remoteFields, baseValue = .obj baseFields ∧
      localValue = .obj localFields ∧ remoteValue = .obj remoteFields
  · obtain ⟨baseFields, localFields, remoteFields, rfl, rfl, rfl⟩ := hobjects
    apply KeyMerge.nested baseFields localFields remoteFields rfl rfl rfl hsides hlocal hremote
    · rw [conflictsAt, if_neg hsides]
    · exact mergedValue_obj order' hsides hlocal hremote
  · apply KeyMerge.reported hlocal hremote
    unfold conflictsAt
    rw [if_neg hsides]
    split
    · next baseFields localFields remoteFields =>
        exact absurd ⟨baseFields, localFields, remoteFields, rfl, rfl, rfl⟩ hobjects
    · simp [hlocal, hremote]

/-! ### The overrides that a merge reports -/

/-- The field that a conflict at a key path below `field` names. -/
def fieldAt (field : String) (path : List String) : String := path.foldl fieldPath field

/-- A conflict with the values at a key path is among those reported. -/
def ReportedAt (conflicts : List ConflictChange) (baseData localData remoteData : Dict)
    (field : String) (path : List String) : Prop :=
  ∃ conflict ∈ conflicts, conflict.field = fieldAt field path ∧
    conflict.baseValue = (valueAt baseData path).getD .null ∧
    conflict.localValue = (valueAt localData path).getD .null ∧
    conflict.remoteValue = (valueAt remoteData path).getD .null

theorem agree_of_get {other : Dict} (h : valuesEqual (data.get key) (other.get key) = true)
    (path : List String) : Agree (valueAt data (key :: path)) (valueAt other (key :: path)) := by
  rw [valueAt_cons, valueAt_cons]
  exact Agree.below h path

theorem mem_detectConflicts_nested {field : String} {conflicts : List ConflictChange}
    (h : conflictsAt order (fieldPath field key) (baseData.get key) (localData.get key)
      (remoteData.get key) = conflicts) {conflict : ConflictChange} (hmem : conflict ∈ conflicts) :
    conflict ∈ detectConflicts order baseData localData remoteData field := by
  rw [mem_detectConflicts]
  exact ⟨key, h ▸ hmem⟩

theorem reported_of_overridden (order order' : SetOrder) (baseData localData remoteData : Dict)
    (field : String) (path : List String)
    (hchanged : ¬ Agree (valueAt localData path) (valueAt baseData path))
    (hdropped : ¬ Agree (valueAt (recursiveMerge order' baseData localData remoteData) path)
      (valueAt localData path))
    (hmerged : ¬ MergedAt baseData localData remoteData path) :
    ∃ above rest, above ≠ [] ∧ path = above ++ rest ∧
      ReportedAt (detectConflicts order baseData localData remoteData field)
        baseData localData remoteData field above := by
  induction path generalizing baseData localData remoteData field with
  | nil => exact absurd trivial hmerged
  | cons key path ih =>
      cases keyMerge order order' (fieldPath field key) (baseData.get key) (localData.get key)
        (remoteData.get key) with
      | sides _ hkept | takesLocal _ _ hkept =>
          -- the merge has the local value
          apply absurd _ hdropped
          apply agree_of_get
          rw [get_recursiveMerge, hkept]
          exact valuesEqual_refl _
      | takesRemote _ hlocal _ =>
          exact absurd (agree_of_get hlocal path) hchanged
      | reported hlocal hremote hconflicts =>
          refine ⟨[key], path, List.cons_ne_nil _ _, rfl, _,
            mem_detectConflicts_nested hconflicts (List.mem_singleton_self _), rfl, ?_, ?_, ?_⟩
          all_goals simp [Dict.get_eq]
      | nested baseFields localFields remoteFields hb hl hr hsides hlocal hremote hconflicts
          hkept =>
          have hlookup : (recursiveMerge order' baseData localData remoteData).lookup key =
              some (.obj (recursiveMerge order' baseFields localFields remoteFields)) := by
            apply lookup_of_get
            rw [get_recursiveMerge, hkept]
          rw [hl, hr] at hsides
          rw [hl, hb] at hlocal
          rw [hr, hb] at hremote
          simp only [valueAt_cons, lookup_of_get hb, lookup_of_get hl, hlookup]
            at hchanged hdropped
          obtain ⟨above, rest, habove, rfl, conflict, hmem, hfield, hvalues⟩ :=
            ih baseFields localFields remoteFields (fieldPath field key) hchanged hdropped
              fun h => hmerged ⟨_, _, _, hb, hl, hr, hsides, hlocal, hremote, h⟩
          refine ⟨key :: above, rest, List.cons_ne_nil _ _, rfl, conflict,
            mem_detectConflicts_nested hconflicts hmem, hfield, ?_⟩
          simp only [valueAt_cons, lookup_of_get hb, lookup_of_get hl, lookup_of_get hr]
          exact hvalues

/-- At a key path where the local value differs from the base and the merged value from the
local one, and which is not that of an object merged key by key, a conflict is reported, or
on the way there. -/
theorem recursive_overrides_reported (order order' : SetOrder)
    (baseData localData remoteData merged : Dict) (path : List String)
    (hmerge : applyMergeStrategy order' (some baseData) (some localData) (some remoteData)
      "recursive" = .ok merged)
    (hchanged : ¬ Agree (valueAt localData path) (valueAt baseData path))
    (hdropped : ¬ Agree (valueAt merged path) (valueAt localData path))
    (hobject : ¬ MergedAt baseData localData remoteData path) :
    ∃ above rest, above ≠ [] ∧ path = above ++ rest ∧
      ReportedAt (detectConflicts order baseData localData remoteData "")
        baseData localData remoteData "" above := by
  cases hmerge
  exact reported_of_overridden order order' baseData localData remoteData "" path hchanged
    hdropped hobject

/-- Both sides change the only number, each in its own way. -/
theorem recursive_overrides_reported_number :
    ∃ above rest, above ≠ [] ∧ ["a"] = above ++ rest ∧
      ReportedAt (detectConflicts insertionOrder [("a", .num 1)] [("a", .num 2)] [("a", .num 3)] "")
        [("a", .num 1)] [("a", .num 2)] [("a", .num 3)] "" above := by
  apply recursive_overrides_reported insertionOrder insertionOrder [("a", .num 1)]
    [("a", .num 2)] [("a", .num 3)] [("a", .num 3)] ["a"]
  · simp only [applyMergeStrategy, recursiveMerge_eq]
    decide +kernel
  · decide +kernel
  · decide +kernel
  · rintro ⟨fields, _, _, h, _⟩
    cases h

end Qontinui.ConflictResolution
