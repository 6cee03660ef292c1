import Qontinui.Collaboration.StructuralConflicts

/-!
When two changes of the same property are reported. The search follows objects down the
path. It reports where three values meet that are not all objects or `null`, gives up
where a `null` is among them, and below the end of the path needs two changes of one
field.
-/

namespace Qontinui.ConflictDetector

open Json

/-- A value shows whatever the other one shows in place of the base. -/
def Contains (value other base : JsValue) : Prop :=
  ∀ path, shape (under other path) ≠ shape (under base path) →
    shape (under value path) = shape (under other path)

/-- Both versions differ from the base at a path and from each other, and neither
contains the change of the other one. -/
structure Clash (localVersion remote base : Json) (path : List String) : Prop where
  localDiffers : ¬ Same (localVersion.at? path) (base.at? path)
  remoteDiffers : ¬ Same (remote.at? path) (base.at? path)
  differ : ¬ Same (localVersion.at? path) (remote.at? path)
  notInLocal : ¬ Contains (localVersion.at? path) (remote.at? path) (base.at? path)
  notInRemote : ¬ Contains (remote.at? path) (localVersion.at? path) (base.at? path)

/-- One of two paths leads to the other one. -/
def Comparable (path other : List JsValue) : Prop := path <+: other ∨ other <+: path

def Reports (localVersion remote base : Json) (path : List String) : Prop :=
  ∃ conflicts, detectConflicts {} localVersion remote base = .ok conflicts ∧
    ∃ conflict ∈ conflicts, Comparable conflict.path (keyPath path)

/-- Three values that all differ without being all objects or `null`, or a deletion
against a change. -/
def Conflicting (localValue remoteValue baseValue : JsValue) : Prop :=
  (allDiffer localValue remoteValue baseValue = true ∧
    allRecords localValue remoteValue baseValue = false) ∨
  removedOrChanged localValue remoteValue baseValue = true

def FoundBelow (localValue remoteValue baseValue : JsValue) : Prop :=
  ∃ path, Searched localValue remoteValue baseValue path ∧
    Conflicting (under localValue path) (under remoteValue path) (under baseValue path)

/-- On the way along a path objects lead to values that are not all objects or `null`, or
to conflicting values below its end. -/
def FoundAlong (localValue remoteValue baseValue : JsValue) (path : List String) : Prop :=
  (∃ top, top <+: path ∧ Searched localValue remoteValue baseValue top ∧
    allRecords (under localValue top) (under remoteValue top) (under baseValue top) = false) ∨
  ∃ rest, Searched localValue remoteValue baseValue (path ++ rest) ∧
    Conflicting (under localValue (path ++ rest)) (under remoteValue (path ++ rest))
      (under baseValue (path ++ rest))

/-- What the search finds of changes at a path, where it looks into all versions. -/
def FoundInside (localVersion remote base : Json) : List String → Prop
  | [] => ∃ key ∈ allKeys localVersion remote base,
      FoundBelow (localVersion.property key) (remote.property key) (base.property key)
  | key :: path =>
      allDiffer (localVersion.property key) (remote.property key) (base.property key) = true ∧
        FoundAlong (localVersion.property key) (remote.property key) (base.property key) path

/-- The lists of items can be read, no version is falsy, and one of them is no object or
list, or the search finds something inside. -/
def Noticed (localVersion remote base : Json) (path : List String) : Prop :=
  Readable localVersion remote base ∧
    (localVersion.truthy && remote.truthy && base.truthy) = true ∧
    ((localVersion.isObject && remote.isObject && base.isObject) = false ∨
      FoundInside localVersion remote base path)

section Values

variable {localValue remoteValue baseValue : JsValue}

theorem mem_valueConflicts {keyed : List String} {conflict : Conflict}
    (h : conflict ∈ valueConflicts localValue remoteValue baseValue keyed) :
    conflict.path = keyPath keyed ∧ Conflicting localValue remoteValue baseValue := by
  rcases List.mem_append.mp h with hmem | hmem <;> split at hmem <;> simp at hmem
  · next hdiffer =>
      subst hmem
      exact ⟨rfl, .inl (by simpa using hdiffer)⟩
  · next hremoved =>
      subst hmem
      exact ⟨rfl, .inr hremoved⟩

theorem exists_mem_valueConflicts (h : Conflicting localValue remoteValue baseValue)
    (keyed : List String) :
    ∃ conflict ∈ valueConflicts localValue remoteValue baseValue keyed,
      conflict.path = keyPath keyed := by
  rcases h with ⟨hdiffer, hrecords⟩ | hremoved
  · exact ⟨createConflict .propertyChanged localValue remoteValue baseValue (keyPath keyed),
      by simp [valueConflicts, hdiffer, hrecords], rfl⟩
  · exact ⟨createConflict .actionRemoved localValue remoteValue baseValue (keyPath keyed),
      by simp [valueConflicts, hremoved], rfl⟩

theorem exists_keyConflict_iff {keyed : List String} {path : List JsValue} :
    (∃ conflict ∈ keyConflicts localValue remoteValue baseValue keyed,
      Comparable conflict.path path) ↔
      ∃ found, Searched localValue remoteValue baseValue found ∧
        Conflicting (under localValue found) (under remoteValue found) (under baseValue found) ∧
        Comparable (keyPath (keyed ++ found)) path := by
  constructor
  · rintro ⟨conflict, hconflict, hnear⟩
    obtain ⟨found, hsearched, hfound⟩ := exists_of_mem_keyConflicts hconflict
    obtain ⟨heq, hconflicting⟩ := mem_valueConflicts hfound
    exact ⟨found, hsearched, hconflicting, heq ▸ hnear⟩
  · rintro ⟨found, hsearched, hconflicting, hnear⟩
    obtain ⟨conflict, hmem, heq⟩ := exists_mem_valueConflicts hconflicting (keyed ++ found)
    exact ⟨conflict, mem_keyConflicts hsearched hmem, heq ▸ hnear⟩

theorem removed_not_records (h : removedOrChanged localValue remoteValue baseValue = true) :
    allRecords localValue remoteValue baseValue = false := by
  cases localValue with
  | none => rfl
  | some l =>
      cases remoteValue with
      | none => simp [allRecords, isRecord]
      | some r => simp [removedOrChanged] at h

theorem Conflicting.not_objects (h : Conflicting localValue remoteValue baseValue) :
    allRecords localValue remoteValue baseValue = false := by
  rcases h with ⟨_, hrecords⟩ | hremoved
  · exact hrecords
  · exact removed_not_records hremoved

theorem comparable_keyPath (keyed path other : List String) :
    Comparable (keyPath (keyed ++ path)) (keyPath (keyed ++ other)) ↔
      path <+: other ∨ other <+: path := by
  have hinj : Function.Injective fun key : String => some (Json.str key) := by
    intro a b h
    simpa using h
  simp only [Comparable, keyPath, List.prefix_map_iff_of_injective hinj,
    List.prefix_append_right_inj]

theorem foundAlong_iff {path : List String}
    (hdiffer : ∀ top, top <+: path → allDiffer (under localValue top) (under remoteValue top)
      (under baseValue top) = true) (keyed : List String) :
    (∃ found, Searched localValue remoteValue baseValue found ∧
      Conflicting (under localValue found) (under remoteValue found) (under baseValue found) ∧
      Comparable (keyPath (keyed ++ found)) (keyPath (keyed ++ path))) ↔
      FoundAlong localValue remoteValue baseValue path := by
  simp only [comparable_keyPath]
  constructor
  · rintro ⟨found, hsearched, hconflicting, htop | ⟨rest, rfl⟩⟩
    · exact .inl ⟨found, htop, hsearched, hconflicting.not_objects⟩
    · exact .inr ⟨rest, hsearched, hconflicting⟩
  · rintro (⟨top, htop, hsearched, hrecords⟩ | ⟨rest, hsearched, hconflicting⟩)
    · exact ⟨top, hsearched, .inl ⟨hdiffer top htop, hrecords⟩, .inl htop⟩
    · exact ⟨path ++ rest, hsearched, hconflicting, .inr (List.prefix_append path rest)⟩

end Values

section Documents

variable {child value base localVersion remote : Json} {key : String} {path : List String}

theorem property_of_child? (h : value.child? key = some child) : value.property key = some child :=
  property_of_readKey (readKey_of_child? h)

theorem not_isObject_of_property (h : value.child? key = none)
    (hproperty : value.property key = some child) : child.isObject = false := by
  cases value with
  | obj fields => cases h.symm.trans (hproperty : fields.lookup key = some child)
  | arr items =>
      cases hi : arrayIndex? key with
      | some i =>
          simp only [child?, hi, Option.bind_some] at h
          simp [property, readKey, hi, h] at hproperty
      | none =>
          simp only [property, readKey, hi] at hproperty
          split_ifs at hproperty
          cases hproperty
          rfl
  | str s =>
      cases hi : arrayIndex? key with
      | some i =>
          simp only [property, readKey, hi] at hproperty
          obtain ⟨c, _, rfl⟩ := Option.map_eq_some_iff.mp hproperty
          rfl
      | none =>
          simp only [property, readKey, hi] at hproperty
          split_ifs at hproperty
          cases hproperty
          rfl
  | _ => simp [property, readKey] at hproperty

theorem under_property {below : String} :
    under (value.property key) (below :: path) = value.at? (key :: below :: path) := by
  cases h : value.child? key with
  | some child =>
      rw [property_of_child? h, at?_cons_of_child? h]
      rfl
  | none =>
      have hat : value.at? (key :: below :: path) = none := by simp [at?, h]
      rw [hat]
      cases hproperty : value.property key with
      | none => rfl
      | some child =>
          have hprimitive := not_isObject_of_property h hproperty
          cases child <;> first | rfl | cases hprimitive

theorem mem_keys_of_child? (h : value.child? key = some child) : key ∈ value.keys := by
  cases value with
  | obj fields =>
      have hlookup : fields.lookup key = some child := h
      exact mem_keys_obj.mpr (by simp [hlookup])
  | arr items =>
      cases hi : arrayIndex? key with
      | none => simp [child?, hi] at h
      | some i =>
          simp only [child?, hi, Option.bind_some] at h
          have hlt : i < items.length := (List.getElem?_eq_some_iff.mp h).1
          exact List.mem_map.mpr ⟨i, List.mem_range.mpr hlt, toString_of_arrayIndex? hi⟩
  | _ => cases h

theorem Clash.allDiffer {top : List String} (h : Clash localVersion remote base path)
    (htop : top <+: path) :
    allDiffer (localVersion.at? top) (remote.at? top) (base.at? top) = true := by
  obtain ⟨rest, rfl⟩ := htop
  have hbelow : ∀ {a b : Json}, ¬ Same (a.at? (top ++ rest)) (b.at? (top ++ rest)) →
      ¬ Same (a.at? top) (b.at? top) := by
    intro a b hdiffers hsame
    exact hdiffers (by rw [at?_append, at?_append]; exact hsame.under rest)
  exact allDiffer_of_not_same (hbelow h.localDiffers) (hbelow h.remoteDiffers) (hbelow h.differ)

theorem Clash.mem_allKeys {localVersion remote base : Json} {key : String} {path : List String}
    (h : Clash localVersion remote base (key :: path)) :
    key ∈ allKeys localVersion remote base := by
  have hsome : ∃ child, localVersion.child? key = some child ∨ remote.child? key = some child := by
    cases hlocal : localVersion.child? key with
    | some child => exact ⟨child, .inl rfl⟩
    | none =>
        cases hremote : remote.child? key with
        | some child => exact ⟨child, .inr rfl⟩
        | none =>
            refine absurd ?_ h.differ
            simp only [at?, hlocal, hremote, Option.bind_none]
            exact Same.refl none
  obtain ⟨child, hlocal | hremote⟩ := hsome
  · exact ConflictDetector.mem_allKeys.mpr (.inl (mem_keys_of_child? hlocal))
  · exact ConflictDetector.mem_allKeys.mpr (.inr (.inl (mem_keys_of_child? hremote)))

theorem Clash.allDiffer_property {top : List String}
    (h : Clash localVersion remote base (key :: path))
    (hkey : ConflictDetector.allDiffer (localVersion.property key) (remote.property key)
      (base.property key) = true) (htop : top <+: path) :
    ConflictDetector.allDiffer (under (localVersion.property key) top)
      (under (remote.property key) top) (under (base.property key) top) = true := by
  cases top with
  | nil => simpa using hkey
  | cons below top =>
      rw [under_property, under_property, under_property]
      exact h.allDiffer (List.cons_prefix_cons.mpr ⟨rfl, htop⟩)

theorem strictEquals_none_some (value : Json) : strictEquals none (some value) = false := rfl

theorem strictEquals_some_none (value : Json) : strictEquals (some value) none = false := by
  cases value <;> rfl

theorem removed_differ {localValue remoteValue baseValue : JsValue}
    (h : removedOrChanged localValue remoteValue baseValue = true)
    (hdiffer : allDiffer localValue remoteValue baseValue = false) :
    localValue = none ∧ remoteValue = none := by
  cases localValue <;> cases remoteValue <;> cases baseValue <;>
    simp_all [removedOrChanged, allDiffer, strictEquals_none_some, strictEquals_some_none]

theorem Clash.differ_of_found {found : List String}
    (h : Clash localVersion remote base (key :: path))
    (hsearched : Searched (localVersion.property key) (remote.property key) (base.property key)
      found) (hconflicting : Conflicting (under (localVersion.property key) found)
      (under (remote.property key) found) (under (base.property key) found)) :
    ConflictDetector.allDiffer (localVersion.property key) (remote.property key)
      (base.property key) = true := by
  cases found with
  | cons below found => exact hsearched.objects.allDiffer
  | nil =>
      simp only [under_nil] at hconflicting
      rcases hconflicting with ⟨hdiffer, _⟩ | hremoved
      · exact hdiffer
      · by_contra hdiffer
        obtain ⟨hlocal, hremote⟩ := removed_differ hremoved (by simpa using hdiffer)
        have habsent : ∀ {value : Json}, value.property key = none → value.child? key = none := by
          intro value hvalue
          by_contra hchild
          obtain ⟨child, hsome⟩ := Option.ne_none_iff_exists'.mp hchild
          rw [property_of_child? hsome] at hvalue
          cases hvalue
        refine absurd ?_ h.differ
        simp only [at?, habsent hlocal, habsent hremote, Option.bind_none]
        exact Same.refl none

theorem exists_conflict_iff {path : List JsValue} :
    (∃ conflict ∈ (allKeys localVersion remote base).flatMap fun key =>
      keyConflicts (localVersion.property key) (remote.property key) (base.property key) [key],
      Comparable conflict.path path) ↔
      ∃ key ∈ allKeys localVersion remote base, ∃ found,
        Searched (localVersion.property key) (remote.property key) (base.property key) found ∧
        Conflicting (under (localVersion.property key) found)
          (under (remote.property key) found) (under (base.property key) found) ∧
        Comparable (keyPath ([key] ++ found)) path := by
  constructor
  · rintro ⟨conflict, hconflict, hnear⟩
    obtain ⟨key, hkey, hmem⟩ := List.mem_flatMap.mp hconflict
    exact ⟨key, hkey, exists_keyConflict_iff.mp ⟨conflict, hmem, hnear⟩⟩
  · rintro ⟨key, hkey, hfound⟩
    obtain ⟨conflict, hmem, hnear⟩ := exists_keyConflict_iff.mpr hfound
    exact ⟨conflict, List.mem_flatMap.mpr ⟨key, hkey, hmem⟩, hnear⟩

theorem head_eq_of_comparable {other : String} {rest : List String}
    (h : Comparable (keyPath (key :: path)) (keyPath (other :: rest))) : key = other := by
  rcases (comparable_keyPath [] _ _).mp h with hp | hp
  · exact (List.cons_prefix_cons.mp hp).1
  · exact (List.cons_prefix_cons.mp hp).1.symm

theorem Clash.inside_iff (h : Clash localVersion remote base path) :
    (∃ conflict ∈ (allKeys localVersion remote base).flatMap fun key =>
      keyConflicts (localVersion.property key) (remote.property key) (base.property key) [key],
      Comparable conflict.path (keyPath path)) ↔ FoundInside localVersion remote base path := by
  rw [exists_conflict_iff]
  cases path with
  | nil =>
      constructor
      · rintro ⟨key, hkey, found, hsearched, hconflicting, _⟩
        exact ⟨key, hkey, found, hsearched, hconflicting⟩
      · rintro ⟨key, hkey, found, hsearched, hconflicting⟩
        exact ⟨key, hkey, found, hsearched, hconflicting, .inr List.nil_prefix⟩
  | cons key path =>
      constructor
      · rintro ⟨other, _, found, hsearched, hconflicting, hnear⟩
        obtain rfl : other = key := head_eq_of_comparable hnear
        have hdiffer := h.differ_of_found hsearched hconflicting
        exact ⟨hdiffer, (foundAlong_iff (fun top htop => h.allDiffer_property hdiffer htop)
          [other]).mp ⟨found, hsearched, hconflicting, hnear⟩⟩
      · rintro ⟨hdiffer, hfound⟩
        exact ⟨key, h.mem_allKeys, (foundAlong_iff
          (fun top htop => h.allDiffer_property hdiffer htop) [key]).mpr hfound⟩

theorem Clash.property_iff (h : Clash localVersion remote base path) :
    (∃ conflict ∈ detectPropertyConflicts localVersion remote base [],
      Comparable conflict.path (keyPath path)) ↔
      (localVersion.truthy && remote.truthy && base.truthy) = true ∧
        ((localVersion.isObject && remote.isObject && base.isObject) = false ∨
          FoundInside localVersion remote base path) := by
  by_cases htruthy : (localVersion.truthy && remote.truthy && base.truthy) = true
  · by_cases hobjects : (localVersion.isObject && remote.isObject && base.isObject) = true
    · simp only [htruthy, hobjects, true_and, Bool.true_eq_false, false_or]
      simp only [Bool.and_eq_true] at htruthy hobjects
      rw [detect_containers [] ⟨hobjects.1.1, htruthy.1.1⟩ ⟨hobjects.1.2, htruthy.1.2⟩
        ⟨hobjects.2, htruthy.2⟩]
      exact h.inside_iff
    · have hroot : ConflictDetector.allDiffer (some localVersion) (some remote) (some base) =
          true := h.allDiffer List.nil_prefix
      rw [detect_primitives [] htruthy (by simpa using hobjects), if_pos hroot]
      exact iff_of_true ⟨_, List.mem_singleton_self _, .inl List.nil_prefix⟩
        ⟨htruthy, .inl (by simpa using hobjects)⟩
  · rw [detect_falsy [] (by simpa [JsValue.truthy] using htruthy)]
    simp [htruthy]

theorem child?_of_itemList (h : IsItemList (value.property key)) :
    ∃ items, value.child? key = some (.arr items) := by
  obtain ⟨items, hitems, _⟩ := h
  cases hchild : value.child? key with
  | none => cases not_isObject_of_property hchild hitems
  | some child =>
      rw [property_of_child? hchild] at hitems
      exact ⟨items, hitems⟩

theorem isObject_of_child? (h : value.child? key = some child) : value.isObject = true := by
  cases value <;> first | rfl | cases h

theorem structural_near {path : List JsValue} {structural : List Conflict} {conflict : Conflict}
    (hstructural : detectStructuralConflicts localVersion remote base = .ok structural)
    (hconflict : conflict ∈ structural) (hnear : Comparable conflict.path path) :
    ∃ conflict ∈ detectPropertyConflicts localVersion remote base [],
      Comparable conflict.path path := by
  obtain ⟨_, key, id, hpath, hlocal, hremote, hbase⟩ :=
    mem_detectStructuralConflicts hstructural hconflict
  obtain ⟨l, hl⟩ := child?_of_itemList hlocal
  obtain ⟨r, hr⟩ := child?_of_itemList hremote
  obtain ⟨b, hb⟩ := child?_of_itemList hbase
  rw [detect_containers [] ⟨isObject_of_child? hl, truthy_of_child? hl⟩
    ⟨isObject_of_child? hr, truthy_of_child? hr⟩ ⟨isObject_of_child? hb, truthy_of_child? hb⟩]
  refine exists_conflict_iff.mpr
    ⟨key, mem_allKeys.mpr (.inl (mem_keys_of_child? hl)), [], trivial, .inl ?_, ?_⟩
  · simp [property_of_child? hl, property_of_child? hr, property_of_child? hb, allDiffer,
      allRecords, strictEquals, isRecord]
  · have htop : keyPath [key] <+: conflict.path := by
      rw [hpath]
      exact ⟨[id], rfl⟩
    rcases hnear with hbelow | habove
    · exact .inl (htop.trans hbelow)
    · exact List.prefix_or_prefix_of_prefix htop habove

theorem ne_null_of_truthy (h : value.truthy = true) : value ≠ .null := by
  rintro rfl
  cases h

theorem readable_iff (h : (localVersion.truthy && remote.truthy && base.truthy) = true) :
    (∃ structural, detectStructuralConflicts localVersion remote base = .ok structural) ↔
      Readable localVersion remote base := by
  simp only [Bool.and_eq_true] at h
  exact detectStructuralConflicts_ok_iff (ne_null_of_truthy h.1.1) (ne_null_of_truthy h.1.2)
    (ne_null_of_truthy h.2)

end Documents

/-- Two changes that clash at a path are reported exactly where `Noticed` says. -/
theorem clash_reported_iff {localVersion remote base : Json} {path : List String}
    (h : Clash localVersion remote base path) :
    Reports localVersion remote base path ↔ Noticed localVersion remote base path := by
  constructor
  · rintro ⟨conflicts, hdetect, conflict, hconflict, hnear⟩
    obtain ⟨structural, hstructural, rfl⟩ := detectConflicts_default.mp hdetect
    have hproperty : ∃ conflict ∈ detectPropertyConflicts localVersion remote base [],
        Comparable conflict.path (keyPath path) := by
      rcases List.mem_append.mp hconflict with hmem | hmem
      · exact ⟨conflict, hmem, hnear⟩
      · exact structural_near hstructural hmem hnear
    have hnoticed := h.property_iff.mp hproperty
    exact ⟨(readable_iff hnoticed.1).mp ⟨structural, hstructural⟩, hnoticed⟩
  · rintro ⟨hreadable, hnoticed⟩
    obtain ⟨structural, hstructural⟩ := (readable_iff hnoticed.1).mpr hreadable
    obtain ⟨conflict, hmem, hnear⟩ := h.property_iff.mpr hnoticed
    exact ⟨_, detectConflicts_default.mpr ⟨structural, hstructural, rfl⟩, conflict,
      List.mem_append_left _ hmem, hnear⟩

theorem clash_reported_iff_numbers :
    Reports (.obj [("count", .num 2)]) (.obj [("count", .num 3)]) (.obj [("count", .num 1)])
        ["count"] ↔
      Noticed (.obj [("count", .num 2)]) (.obj [("count", .num 3)]) (.obj [("count", .num 1)])
        ["count"] :=
  clash_reported_iff
    { localDiffers := fun h => absurd (h []) (by decide)
      remoteDiffers := fun h => absurd (h []) (by decide)
      differ := fun h => absurd (h []) (by decide)
      notInLocal := fun h => absurd (h [] (by decide)) (by decide)
      notInRemote := fun h => absurd (h [] (by decide)) (by decide) }

/-- The local version has set an object to `null` in which the remote has changed a
field, and no conflict is reported. -/
theorem clash_with_null_unreported :
    Clash (.obj [("area", .null)]) (.obj [("area", .obj [("x", .num 2)])])
        (.obj [("area", .obj [("x", .num 1)])]) ["area"] ∧
      ¬ Reports (.obj [("area", .null)]) (.obj [("area", .obj [("x", .num 2)])])
        (.obj [("area", .obj [("x", .num 1)])]) ["area"] := by
  constructor
  · exact
      { localDiffers := fun h => absurd (h []) (by decide)
        remoteDiffers := fun h => absurd (h ["x"]) (by decide)
        differ := fun h => absurd (h []) (by decide)
        notInLocal := fun h => absurd (h ["x"] (by decide)) (by decide)
        notInRemote := fun h => absurd (h [] (by decide)) (by decide) }
  · rintro ⟨conflicts, hdetect, conflict, hconflict, _⟩
    obtain ⟨structural, hstructural, rfl⟩ := detectConflicts_default.mp hdetect
    have hproperty : detectPropertyConflicts (some (.obj [("area", .null)]))
        (some (.obj [("area", .obj [("x", .num 2)])]))
        (some (.obj [("area", .obj [("x", .num 1)])])) [] = [] := by
      rw [detect_root, keyConflicts_objects]
      change keyConflicts (some .null) (some (.obj _)) (some (.obj _)) ["area"] ++ [] = []
      rw [keyConflicts_other]
      · rfl
      · rintro ⟨_, _, _, hnull, _⟩
        cases hnull
    have hnone : detectStructuralConflicts (.obj [("area", .null)])
        (.obj [("area", .obj [("x", .num 2)])]) (.obj [("area", .obj [("x", .num 1)])]) =
          .ok [] := rfl
    rw [hnone] at hstructural
    cases hstructural
    rw [hproperty] at hconflict
    cases hconflict

end Qontinui.ConflictDetector
