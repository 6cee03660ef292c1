import Mathlib.Data.List.Dedup
import Qontinui.Base.Json

/-!
The backend's three-way merge: the conflicts it detects between two edits of a
document, and the document it merges them to. Both go through the keys of all
three versions, in the order in which Python iterates over a set, which is left
open here.

`_values_equal` is an equivalence that looks at the values below every key alike, and
what the two algorithms do at one key follows.
-/

namespace Qontinui.ConflictResolution

/-- A `dict`; of two fields with one key the first counts. -/
abbrev Dict := List (String × Json)

/-- `data.get(key)`: an absent key reads as `None`. -/
def Dict.get (data : Dict) (key : String) : Json := (data.lookup key).getD .null

/-- Python's `==` between values that are not both lists or both dicts: `True` and `1` are
equal. -/
def directlyEqual : Json → Json → Bool
  | .bool a, .bool b => a == b
  | .bool a, .num b => (if a then 1 else 0) == b
  | .num a, .bool b => a == (if b then 1 else 0)
  | .num a, .num b => a == b
  | .str a, .str b => a == b
  | _, _ => false

mutual

/-- `_values_equal`. -/
def valuesEqual : Json → Json → Bool
  | .null, .null => true
  | .null, _ => false
  | .arr xs, .arr ys => itemsEqual xs ys
  | .obj fs, .obj gs => fieldsWithin [] fs gs && gs.all fun field => (fs.lookup field.1).isSome
  | a, b => directlyEqual a b

def itemsEqual : List Json → List Json → Bool
  | [], [] => true
  | x :: xs, y :: ys => valuesEqual x y && itemsEqual xs ys
  | _, _ => false

/-- The fields whose key has not been seen have equals on the other side. -/
def fieldsWithin (seen : List String) : Dict → Dict → Bool
  | [], _ => true
  | (key, v) :: rest, gs =>
      (key ∈ seen ||
        match gs.lookup key with
        | some w => valuesEqual v w
        | none => false) &&
      fieldsWithin (key :: seen) rest gs

end

/-- The order in which the elements of a set come. -/
structure SetOrder where
  iterate : List String → List String
  mem_iterate : ∀ keys key, key ∈ iterate keys ↔ key ∈ keys
  nodup_iterate : ∀ keys, (iterate keys).Nodup

def insertionOrder : SetOrder where
  iterate := List.dedup
  mem_iterate _ _ := List.mem_dedup
  nodup_iterate := List.nodup_dedup

/-- `set(base_data.keys()) | set(local_data.keys()) | set(remote_data.keys())`. -/
def SetOrder.allKeys (order : SetOrder) (baseData localData remoteData : Dict) : List String :=
  order.iterate (baseData.map Prod.fst ++ localData.map Prod.fst ++ remoteData.map Prod.fst)

inductive ConflictType where
  | modifyModify
  | modifyDelete
  | deleteModify
  | addAdd
deriving DecidableEq, Repr

structure ConflictChange where
  field : String
  baseValue : Json
  localValue : Json
  remoteValue : Json
  conflictType : ConflictType
deriving DecidableEq, Repr

/-- `_determine_conflict_type`. -/
def determineConflictType (baseValue localValue remoteValue : Json) : ConflictType :=
  if baseValue = .null ∧ localValue ≠ .null ∧ remoteValue ≠ .null then .addAdd
  else if baseValue ≠ .null ∧ localValue ≠ .null ∧ remoteValue = .null then .modifyDelete
  else if baseValue ≠ .null ∧ localValue = .null ∧ remoteValue ≠ .null then .deleteModify
  else .modifyModify

/-- `f"{path}.{key}" if path else key`. -/
def fieldPath (path key : String) : String := if path = "" then key else path ++ "." ++ key

theorem sizeOf_get_lt {data fields : Dict} {key : String} (h : data.get key = .obj fields) :
    sizeOf fields < sizeOf data := by
  unfold Dict.get at h
  cases hlookup : data.lookup key with
  | none =>
      rw [hlookup] at h
      cases h
  | some value =>
      rw [hlookup] at h
      have hvalue : value = .obj fields := h
      have hlt := Json.sizeOf_lookup_lt hlookup
      rw [hvalue, Json.obj.sizeOf_spec] at hlt
      omega

/-- `detect_conflicts`. -/
def detectConflicts (order : SetOrder) (baseData localData remoteData : Dict) (path : String) :
    List ConflictChange :=
  (order.allKeys baseData localData remoteData).flatMap fun key =>
    let baseValue := baseData.get key
    let localValue := localData.get key
    let remoteValue := remoteData.get key
    if valuesEqual localValue remoteValue then []
    else
      match baseValue, _hlocal : localValue, remoteValue with
      | .obj baseFields, .obj localFields, .obj remoteFields =>
          detectConflicts order baseFields localFields remoteFields (fieldPath path key)
      | _, _, _ =>
          -- one side unchanged: taken over without a word
          if valuesEqual localValue baseValue && !valuesEqual remoteValue baseValue then []
          else if valuesEqual remoteValue baseValue && !valuesEqual localValue baseValue then []
          else
            [{ field := fieldPath path key, baseValue, localValue, remoteValue
               conflictType := determineConflictType baseValue localValue remoteValue }]
termination_by sizeOf localData
decreasing_by exact sizeOf_get_lt ‹_›

/-- `base_value if isinstance(base_value, dict) else {}`. -/
def dictOr : Json → Dict
  | .obj fields => fields
  | _ => []

/-- `_recursive_merge`: where both sides changed differently, the remote wins. -/
def recursiveMerge (order : SetOrder) (baseData localData remoteData : Dict) : Dict :=
  (order.allKeys baseData localData remoteData).map fun key =>
    let baseValue := baseData.get key
    let localValue := localData.get key
    let remoteValue := remoteData.get key
    (key,
      if valuesEqual localValue remoteValue then localValue
      else if valuesEqual localValue baseValue then remoteValue
      else if valuesEqual remoteValue baseValue then localValue
      else
        match _hlocal : localValue, remoteValue with
        | .obj localFields, .obj remoteFields =>
            .obj (recursiveMerge order (dictOr baseValue) localFields remoteFields)
        | _, _ => remoteValue)
termination_by sizeOf localData
decreasing_by exact sizeOf_get_lt ‹_›

/-- `apply_merge_strategy`. -/
def applyMergeStrategy (order : SetOrder) (baseData localData remoteData : Option Dict)
    (strategy : String) : Except String Dict :=
  if strategy = "theirs" then .ok (remoteData.getD [])
  else if strategy = "ours" then .ok (localData.getD [])
  else if strategy = "recursive" then
    .ok (recursiveMerge order (baseData.getD []) (localData.getD []) (remoteData.getD []))
  else .error ("Unknown merge strategy: " ++ strategy)

def SameAt : Option Json → Option Json → Prop
  | none, none => True
  | some a, some b => valuesEqual a b = true
  | _, _ => False

/-! ### The cases of a comparison -/

theorem itemsEqual_iff (xs ys : List Json) :
    itemsEqual xs ys = true ↔ ∀ i : Nat, SameAt xs[i]? ys[i]? := by
  induction xs generalizing ys with
  | nil =>
      cases ys with
      | nil => simp [itemsEqual, SameAt]
      | cons y ys =>
          simp only [itemsEqual, Bool.false_eq_true, false_iff]
          exact fun h => h 0
  | cons x xs ih =>
      cases ys with
      | nil =>
          simp only [itemsEqual, Bool.false_eq_true, false_iff]
          exact fun h => h 0
      | cons y ys =>
          simp only [itemsEqual, Bool.and_eq_true, ih]
          constructor
          · rintro ⟨hxy, hrest⟩ i
            cases i with
            | zero => exact hxy
            | succ i => simpa using hrest i
          · intro h
            exact ⟨h 0, fun i => by simpa using h (i + 1)⟩

theorem valuesEqual_arr_iff (xs ys : List Json) :
    valuesEqual (.arr xs) (.arr ys) = true ↔ ∀ i : Nat, SameAt xs[i]? ys[i]? := by
  rw [valuesEqual, itemsEqual_iff]

theorem fieldsWithin_iff (seen : List String) (fs gs : Dict) :
    fieldsWithin seen fs gs = true ↔
      ∀ key, key ∉ seen → ∀ v, fs.lookup key = some v →
        ∃ w, gs.lookup key = some w ∧ valuesEqual v w = true := by
  induction fs generalizing seen with
  | nil => simp [fieldsWithin]
  | cons field rest ih =>
      obtain ⟨k, v⟩ := field
      simp only [fieldsWithin, Bool.and_eq_true, Bool.or_eq_true, decide_eq_true_eq, ih,
        Fields.lookup_cons]
      constructor
      · rintro ⟨hhead, hrest⟩ key hkey value hvalue
        split at hvalue
        · next heq =>
            subst heq
            cases hvalue
            have hfound := hhead.resolve_left hkey
            split at hfound
            · next w hw => exact ⟨w, hw, hfound⟩
            · cases hfound
        · next hne =>
            apply hrest key _ value hvalue
            simpa [Ne.symm hne] using hkey
      · intro h
        constructor
        · by_cases hseen : k ∈ seen
          · exact .inl hseen
          · obtain ⟨w, hw, heq⟩ := h k hseen v (if_pos rfl)
            right
            rw [hw]
            exact heq
        · intro key hkey value hvalue
          simp only [List.mem_cons, not_or] at hkey
          apply h key hkey.2 value
          rwa [if_neg (Ne.symm hkey.1)]

theorem valuesEqual_obj_iff (fs gs : Dict) :
    valuesEqual (.obj fs) (.obj gs) = true ↔
      ∀ key, SameAt (fs.lookup key) (gs.lookup key) := by
  have hkeys : (gs.all fun field => (fs.lookup field.1).isSome) = true ↔
      ∀ key, (gs.lookup key).isSome → (fs.lookup key).isSome := by
    simp only [List.all_eq_true, Fields.lookup_isSome_iff, List.mem_map]
    constructor
    · rintro h key ⟨field, hfield, rfl⟩
      exact h field hfield
    · exact fun h field hfield => h field.1 ⟨field, hfield, rfl⟩
  rw [valuesEqual, Bool.and_eq_true, fieldsWithin_iff, hkeys]
  constructor
  · rintro ⟨hleft, hright⟩ key
    cases hf : fs.lookup key with
    | none =>
        cases hg : gs.lookup key with
        | none => trivial
        | some w =>
            have hsome := hright key (by rw [hg]; rfl)
            rw [hf] at hsome
            cases hsome
    | some v =>
        obtain ⟨w, hw, heq⟩ := hleft key List.not_mem_nil v hf
        rw [hw]
        exact heq
  · intro h
    constructor
    · intro key _ v hv
      have hsame := h key
      rw [hv] at hsame
      cases hg : gs.lookup key with
      | none =>
          rw [hg] at hsame
          exact hsame.elim
      | some w =>
          rw [hg] at hsame
          exact ⟨w, rfl, hsame⟩
    · intro key hkey
      obtain ⟨w, hw⟩ := Option.isSome_iff_exists.mp hkey
      have hsame := h key
      rw [hw] at hsame
      cases hf : fs.lookup key with
      | none =>
          rw [hf] at hsame
          exact hsame.elim
      | some v => rfl

/-- What `==` compares two scalars by. -/
def scalar : Json → Option (Rat ⊕ String)
  | .bool b => some (.inl (if b then 1 else 0))
  | .num n => some (.inl n)
  | .str s => some (.inr s)
  | _ => none

/-- The ways in which two values can be equal. -/
inductive Alike (a b : Json) : Prop where
  | null (ha : a = .null) (hb : b = .null)
  | scalar (x : Rat ⊕ String) (ha : scalar a = some x) (hb : scalar b = some x)
  | arr (xs ys : List Json) (ha : a = .arr xs) (hb : b = .arr ys)
      (h : ∀ i : Nat, SameAt xs[i]? ys[i]?)
  | obj (fs gs : Dict) (ha : a = .obj fs) (hb : b = .obj gs)
      (h : ∀ key, SameAt (fs.lookup key) (gs.lookup key))

theorem valuesEqual_iff (a b : Json) : valuesEqual a b = true ↔ Alike a b := by
  constructor
  · intro h
    cases a with
    | null => cases b <;> first | exact .null rfl rfl | cases h
    | arr xs =>
        cases b with
        | arr ys => exact .arr xs ys rfl rfl ((valuesEqual_arr_iff xs ys).mp h)
        | null | bool | num | str | obj => cases h
    | obj fs =>
        cases b with
        | obj gs => exact .obj fs gs rfl rfl ((valuesEqual_obj_iff fs gs).mp h)
        | null | bool | num | str | arr => cases h
    | bool | num =>
        cases b with
        | bool y | num y =>
            apply Alike.scalar _ rfl
            simp only [valuesEqual, directlyEqual, beq_iff_eq] at h
            simp [scalar, h]
        | null | str | arr | obj => cases h
    | str x =>
        cases b with
        | str y =>
            apply Alike.scalar _ rfl
            simp only [valuesEqual, directlyEqual, beq_iff_eq] at h
            simp [scalar, h]
        | null | bool | num | arr | obj => cases h
  · intro h
    cases h with
    | null ha hb =>
        subst ha hb
        rfl
    | arr xs ys ha hb h =>
        subst ha hb
        exact (valuesEqual_arr_iff xs ys).mpr h
    | obj fs gs ha hb h =>
        subst ha hb
        exact (valuesEqual_obj_iff fs gs).mpr h
    | scalar x ha hb =>
        cases a with
        | null | arr | obj => cases ha
        | bool c =>
            cases b with
            | null | arr | obj => cases hb
            | bool d =>
                have heq := ha.trans hb.symm
                revert heq
                cases c <;> cases d <;> simp [scalar, valuesEqual, directlyEqual]
            | num y =>
                have heq := ha.trans hb.symm
                simpa [scalar, valuesEqual, directlyEqual] using heq
            | str y => cases ha.trans hb.symm
        | num n =>
            cases b with
            | null | arr | obj => cases hb
            | bool y | num y =>
                have heq := ha.trans hb.symm
                simpa [scalar, valuesEqual, directlyEqual] using heq
            | str y => cases ha.trans hb.symm
        | str t =>
            cases b with
            | null | arr | obj => cases hb
            | str y =>
                have heq := ha.trans hb.symm
                simpa [scalar, valuesEqual, directlyEqual] using heq
            | bool y | num y => cases ha.trans hb.symm

variable {a b : Option Json}

theorem SameAt.symm_of (h : SameAt a b)
    (hvalues : ∀ v w, a = some v → b = some w → valuesEqual v w = true → valuesEqual w v = true) :
    SameAt b a := by
  cases a with
  | none => cases b <;> exact h
  | some v =>
      cases b with
      | none => exact h
      | some w => exact hvalues v w rfl rfl h

theorem SameAt.trans_of {c : Option Json} (h : SameAt a b) (h' : SameAt b c)
    (hvalues : ∀ v w x, a = some v → b = some w → c = some x → valuesEqual v w = true →
      valuesEqual w x = true → valuesEqual v x = true) : SameAt a c := by
  cases b with
  | none =>
      cases a with
      | none => exact h'
      | some v => exact h.elim
  | some w =>
      cases a with
      | none => exact h.elim
      | some v =>
          cases c with
          | none => exact h'
          | some x => exact hvalues v w x rfl rfl rfl h h'

theorem valuesEqual_symm (a b : Json) (h : valuesEqual a b = true) : valuesEqual b a = true := by
  rw [valuesEqual_iff] at h ⊢
  cases h with
  | null ha hb => exact .null hb ha
  | scalar x ha hb => exact .scalar x hb ha
  | arr xs ys ha hb h =>
      refine .arr ys xs hb ha fun i => (h i).symm_of fun v w hv _ => ?_
      have hlt := List.sizeOf_lt_of_mem (List.mem_of_getElem? hv)
      exact valuesEqual_symm v w
  | obj fs gs ha hb h =>
      refine .obj gs fs hb ha fun key => (h key).symm_of fun v w hv _ => ?_
      have hlt := Json.sizeOf_lookup_lt hv
      exact valuesEqual_symm v w
termination_by sizeOf a
decreasing_by
  all_goals subst ha
  · simp only [Json.arr.sizeOf_spec]
    omega
  · simp only [Json.obj.sizeOf_spec]
    omega

theorem valuesEqual_trans (a b c : Json) (h : valuesEqual a b = true)
    (h' : valuesEqual b c = true) : valuesEqual a c = true := by
  rw [valuesEqual_iff] at h h' ⊢
  cases h with
  | null ha hb =>
      subst hb
      cases h' with
      | null _ hc => exact .null ha hc
      | scalar _ hb _ | arr _ _ hb _ _ | obj _ _ hb _ _ => cases hb
  | scalar x ha hb =>
      cases h' with
      | scalar y hb' hc => exact .scalar x ha (hc.trans (hb'.symm.trans hb))
      | null hb' _ | arr _ _ hb' _ _ | obj _ _ hb' _ _ =>
          subst hb'
          cases hb
  | arr xs ys ha hb h =>
      subst hb
      cases h' with
      | arr _ zs hb' hc h' =>
          cases hb'
          refine .arr xs zs ha hc fun i => (h i).trans_of (h' i) fun v w x hv _ _ => ?_
          have hlt := List.sizeOf_lt_of_mem (List.mem_of_getElem? hv)
          exact valuesEqual_trans v w x
      | null hb' _ | obj _ _ hb' _ _ | scalar _ hb' _ => cases hb'
  | obj fs gs ha hb h =>
      subst hb
      cases h' with
      | obj _ ks hb' hc h' =>
          cases hb'
          refine .obj fs ks ha hc fun key => (h key).trans_of (h' key) fun v w x hv _ _ => ?_
          have hlt := Json.sizeOf_lookup_lt hv
          exact valuesEqual_trans v w x
      | null hb' _ | arr _ _ hb' _ _ | scalar _ hb' _ => cases hb'
termination_by sizeOf a
decreasing_by
  all_goals subst ha
  · simp only [Json.arr.sizeOf_spec]
    omega
  · simp only [Json.obj.sizeOf_spec]
    omega

theorem SameAt.symm (h : SameAt a b) : SameAt b a :=
  h.symm_of fun v w _ _ => valuesEqual_symm v w

theorem SameAt.trans {c : Option Json} (h : SameAt a b) (h' : SameAt b c) : SameAt a c :=
  h.trans_of h' fun v w x _ _ _ => valuesEqual_trans v w x

end Qontinui.ConflictResolution
