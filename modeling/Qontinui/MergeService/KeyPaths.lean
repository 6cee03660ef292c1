import Qontinui.MergeService.ConflictResolution

/-!
What the detection and the merge do at one key, and the key paths through the objects
that the merge goes through key by key.
-/

namespace Qontinui.ConflictResolution

def below : Option Json → List String → Option Json
  | value, [] => value
  | some (.obj fields), key :: path => below (fields.lookup key) path
  | _, _ :: _ => none

def valueAt (data : Dict) (path : List String) : Option Json := below (some (.obj data)) path

@[simp] theorem below_nil (value : Option Json) : below value [] = value := by
  cases value with
  | none => rfl
  | some value => cases value <;> rfl

@[simp] theorem below_none (path : List String) : below none path = none := by
  cases path <;> rfl

@[simp] theorem below_obj (fields : Dict) (key : String) (path : List String) :
    below (some (.obj fields)) (key :: path) = below (fields.lookup key) path := rfl

@[simp] theorem below_null (key : String) (path : List String) :
    below (some .null) (key :: path) = none := rfl

@[simp] theorem valueAt_cons (data : Dict) (key : String) (path : List String) :
    valueAt data (key :: path) = below (data.lookup key) path := rfl

/-! ### Equality below a key -/

/-- Equal values, an absent one read as `None`. -/
def Agree (a b : Option Json) : Prop := valuesEqual (a.getD .null) (b.getD .null) = true

instance (a b : Option Json) : Decidable (Agree a b) :=
  inferInstanceAs (Decidable (_ = true))

theorem valuesEqual_refl (a : Json) : valuesEqual a a = true := by
  rw [valuesEqual_iff]
  cases a with
  | null => exact .null rfl rfl
  | bool | num | str => exact .scalar _ rfl rfl
  | arr items =>
      apply Alike.arr items items rfl rfl
      intro i
      cases hitem : items[i]? with
      | none => trivial
      | some item =>
          have hlt := List.sizeOf_lt_of_mem (List.mem_of_getElem? hitem)
          exact valuesEqual_refl item
  | obj fields =>
      apply Alike.obj fields fields rfl rfl
      intro key
      cases hfield : fields.lookup key with
      | none => trivial
      | some value =>
          have hlt := Json.sizeOf_lookup_lt hfield
          exact valuesEqual_refl value
termination_by sizeOf a
decreasing_by
  · rw [Json.arr.sizeOf_spec]
    omega
  · rw [Json.obj.sizeOf_spec]
    omega

theorem SameAt.refl (a : Option Json) : SameAt a a := by
  cases a with
  | none => trivial
  | some a => exact valuesEqual_refl a

variable {a b : Option Json}

theorem SameAt.agree (h : SameAt a b) : Agree a b := by
  cases a with
  | none =>
      cases b with
      | none => rfl
      | some b => exact h.elim
  | some a =>
      cases b with
      | none => exact h.elim
      | some b => exact h

theorem Agree.sameAt_or (h : Agree a b) :
    SameAt a b ∨ (a = none ∧ b = some .null) ∨ (a = some .null ∧ b = none) := by
  cases a with
  | none =>
      cases b with
      | none => exact .inl trivial
      | some b =>
          cases b with
          | null => exact .inr (.inl ⟨rfl, rfl⟩)
          | bool | num | str | arr | obj => cases h
  | some a =>
      cases b with
      | none =>
          cases a with
          | null => exact .inr (.inr ⟨rfl, rfl⟩)
          | bool | num | str | arr | obj => cases h
      | some b => exact .inl h

theorem SameAt.below (h : SameAt a b) (path : List String) :
    SameAt (below a path) (below b path) := by
  induction path generalizing a b with
  | nil => simpa using h
  | cons key path ih =>
      cases a with
      | none =>
          cases b with
          | none => trivial
          | some b => exact h.elim
      | some a =>
          cases b with
          | none => exact h.elim
          | some b =>
              cases (valuesEqual_iff a b).mp h with
              | null ha hb =>
                  subst ha hb
                  trivial
              | scalar x ha hb => cases a <;> cases b <;> trivial
              | arr xs ys ha hb _ =>
                  subst ha hb
                  trivial
              | obj fs gs ha hb hfields =>
                  subst ha hb
                  exact ih (hfields key)

theorem Agree.sameAt_below (h : Agree a b) (key : String) (path : List String) :
    SameAt (below a (key :: path)) (below b (key :: path)) := by
  rcases h.sameAt_or with hsame | ⟨rfl, rfl⟩ | ⟨rfl, rfl⟩
  · exact hsame.below _
  · trivial
  · trivial

theorem Agree.below (h : Agree a b) (path : List String) : Agree (below a path) (below b path) := by
  cases path with
  | nil => simpa using h
  | cons key path => exact (h.sameAt_below key path).agree

theorem Dict.get_eq (data : Dict) (key : String) :
    data.get key = (data.lookup key).getD .null := rfl

theorem below_get (data : Dict) (key next : String) (path : List String) :
    below (some (data.get key)) (next :: path) = below (data.lookup key) (next :: path) := by
  rw [Dict.get_eq]
  cases data.lookup key with
  | none => simp
  | some value => rfl

/-! ### One key -/

/-- What `detect_conflicts` reports for one key. -/
def conflictsAt (order : SetOrder) (field : String) (baseValue localValue remoteValue : Json) :
    List ConflictChange :=
  if valuesEqual localValue remoteValue then []
  else
    match baseValue, localValue, remoteValue with
    | .obj baseFields, .obj localFields, .obj remoteFields =>
        detectConflicts order baseFields localFields remoteFields field
    | _, _, _ =>
        if valuesEqual localValue baseValue && !valuesEqual remoteValue baseValue then []
        else if valuesEqual remoteValue baseValue && !valuesEqual localValue baseValue then []
        else
          [{ field, baseValue, localValue, remoteValue
             conflictType := determineConflictType baseValue localValue remoteValue }]

theorem detectConflicts_eq (order : SetOrder) (baseData localData remoteData : Dict)
    (path : String) :
    detectConflicts order baseData localData remoteData path =
      (order.allKeys baseData localData remoteData).flatMap fun key =>
        conflictsAt order (fieldPath path key) (baseData.get key) (localData.get key)
          (remoteData.get key) := by
  rw [detectConflicts]
  congr 1
  funext key
  unfold conflictsAt
  cases baseData.get key <;> cases localData.get key <;> cases remoteData.get key <;> rfl

/-- What `_recursive_merge` writes to one key. -/
def mergedValue (order : SetOrder) (baseValue localValue remoteValue : Json) : Json :=
  if valuesEqual localValue remoteValue then localValue
  else if valuesEqual localValue baseValue then remoteValue
  else if valuesEqual remoteValue baseValue then localValue
  else
    match localValue, remoteValue with
    | .obj localFields, .obj remoteFields =>
        .obj (recursiveMerge order (dictOr baseValue) localFields remoteFields)
    | _, _ => remoteValue

theorem recursiveMerge_eq (order : SetOrder) (baseData localData remoteData : Dict) :
    recursiveMerge order baseData localData remoteData =
      (order.allKeys baseData localData remoteData).map fun key =>
        (key, mergedValue order (baseData.get key) (localData.get key)
          (remoteData.get key)) := by
  rw [recursiveMerge]
  congr 1
  funext key
  unfold mergedValue
  cases localData.get key <;> cases remoteData.get key <;> rfl

end Qontinui.ConflictResolution
