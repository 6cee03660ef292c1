import Qontinui.Collaboration.SilentOverwrite

/-!
When every reported conflict is one. Arrays and objects are compared by reference, so two
equal ones count as different, and items of a list by their text, so two that differ in the
order of their keys do. What has gone from both sides counts as deleted against a change.
-/

namespace Qontinui.ConflictDetector

open Json FallibleLoops

/-- Each of three values differs in structure from the others. -/
def Distinct (localValue remoteValue baseValue : JsValue) : Prop :=
  ¬ Same localValue baseValue ∧ ¬ Same remoteValue baseValue ∧ ¬ Same localValue remoteValue

/-- The values that a conflict shows at its path are those of two different changes. -/
def Genuine (conflict : Conflict) : Prop :=
  Distinct conflict.localVersion conflict.serverVersion conflict.baseVersion

def isContainer : JsValue → Bool
  | some (.arr _) | some (.obj _) => true
  | _ => false

/-- Two arrays or objects that no comparison by reference takes for equal, as they are. -/
def SameContainer (a b : JsValue) : Prop := isContainer a = true ∧ Same a b

/-- No two of the values at a place are equal arrays, or equal objects beside a third value
that is neither an object nor `null`, and not both sides lack what the base has there. -/
structure Clear (localValue remoteValue baseValue : JsValue) : Prop where
  containers : allRecords localValue remoteValue baseValue = false →
    ¬ SameContainer localValue baseValue ∧ ¬ SameContainer remoteValue baseValue ∧
      ¬ SameContainer localValue remoteValue
  kept : baseValue ≠ none → localValue ≠ none ∨ remoteValue ≠ none

/-- Every place that the search for changed properties comes to is clear: the versions
themselves where one is no container, and else what objects lead to from each key. -/
def PropertiesClear (localVersion remote base : Json) : Prop :=
  (localVersion.truthy && remote.truthy && base.truthy) = true →
    if (localVersion.isObject && remote.isObject && base.isObject) = true then
      ∀ key ∈ allKeys localVersion remote base, ∀ path,
        Searched (localVersion.property key) (remote.property key) (base.property key) path →
        Clear (under (localVersion.property key) path) (under (remote.property key) path)
          (under (base.property key) path)
    else Clear (some localVersion) (some remote) (some base)

/-- Two values of the same structure and of different text. -/
def Reordered (a b : JsValue) : Prop := a ≠ b ∧ Same a b

/-- Where two items differ in the order of their keys alone, the third one has the text of
one of them, or is a base that is no item at all. -/
structure ItemClear (localItem remoteItem baseItem : JsValue) : Prop where
  localOrder : Reordered localItem baseItem → remoteItem = localItem ∨ remoteItem = baseItem
  remoteOrder : Reordered remoteItem baseItem → localItem = remoteItem ∨ localItem = baseItem
  bothOrder : Reordered localItem remoteItem → JsValue.truthy baseItem = true →
    baseItem = localItem ∨ baseItem = remoteItem

def itemWithId (list : JsValue) (id : JsValue) : JsValue :=
  match list with
  | some (.arr items) => items.reverse.find? fun item => item.property "id" = id
  | _ => none

/-- The items that the versions have under a key are clear, id by id. -/
def ItemsClear (localVersion remote base : Json) (key : String) : Prop :=
  allPresent localVersion remote base key = true → ∀ id, isContainer id = false →
    ItemClear (itemWithId (localVersion.property key) id) (itemWithId (remote.property key) id)
      (itemWithId (base.property key) id)

/-! ### Equality of structure -/

section Values

variable {a b : JsValue}

theorem same_none (h : Same none b) : b = none := by
  cases b with
  | none => rfl
  | some y => cases y <;> cases h.shape

theorem eq_or_container_of_same (h : Same a b) :
    a = b ∨ isContainer a = true ∧ isContainer b = true := by
  have hshape := h.shape
  cases a with
  | none => exact .inl (same_none h).symm
  | some x =>
      cases b with
      | none => exact .inl (same_none h.symm)
      | some y => cases x <;> cases y <;> simp_all [shape, isContainer]

theorem isContainer_iff : isContainer a = true ↔
    (∃ items, a = some (.arr items)) ∨ ∃ fields, a = some (.obj fields) := by
  cases a with
  | none => simp [isContainer]
  | some x => cases x <;> simp [isContainer]

theorem not_strictEquals_of_container (h : isContainer a = true) : strictEquals a b = false := by
  rcases isContainer_iff.mp h with ⟨items, rfl⟩ | ⟨fields, rfl⟩ <;> rfl

theorem strictEquals_iff : strictEquals a b = true ↔ a = b ∧ isContainer a = false := by
  cases a with
  | none => simp [strictEquals, isContainer]
  | some x => cases x <;> simp [strictEquals, isContainer]

theorem truthy_of_container (h : isContainer a = true) : JsValue.truthy a = true := by
  rcases isContainer_iff.mp h with ⟨items, rfl⟩ | ⟨fields, rfl⟩ <;> rfl

theorem same_of_not_strictEquals_iff :
    strictEquals a b = false ∧ Same a b ↔ SameContainer a b := by
  constructor
  · rintro ⟨hdiffer, hsame⟩
    refine ⟨?_, hsame⟩
    rcases eq_or_container_of_same hsame with rfl | hcontainer
    · by_contra hnot
      exact absurd (strictEquals_iff.mpr ⟨rfl, by simpa using hnot⟩) (by simp [hdiffer])
    · exact hcontainer.1
  · exact fun h => ⟨not_strictEquals_of_container h.1, h.2⟩

theorem Reordered.containers (h : Reordered a b) :
    isContainer a = true ∧ isContainer b = true :=
  (eq_or_container_of_same h.2).resolve_left h.1

theorem SameContainer.container (h : SameContainer a b) : isContainer b = true := by
  rcases eq_or_container_of_same h.2 with rfl | hcontainer
  · exact h.1
  · exact hcontainer.2

end Values

/-! ### One place -/

section Place

variable {localValue remoteValue baseValue : JsValue}

theorem allDiffer_iff : allDiffer localValue remoteValue baseValue = true ↔
    strictEquals localValue baseValue = false ∧ strictEquals remoteValue baseValue = false ∧
      strictEquals localValue remoteValue = false := by
  simp [allDiffer, and_assoc]

theorem allDiffer_of_copy
    (h : SameContainer localValue baseValue ∨ SameContainer remoteValue baseValue ∨
      SameContainer localValue remoteValue) :
    allDiffer localValue remoteValue baseValue = true := by
  have hback : ∀ {a b : JsValue}, isContainer b = true → strictEquals a b = false := by
    intro a b hb
    by_contra heq
    obtain ⟨rfl, hnot⟩ := strictEquals_iff.mp (by simpa using heq)
    simp [hb] at hnot
  rw [allDiffer_iff]
  rcases h with h | h | h
  · exact ⟨not_strictEquals_of_container h.1, hback h.container,
      not_strictEquals_of_container h.1⟩
  · exact ⟨hback h.container, not_strictEquals_of_container h.1, hback h.1⟩
  · exact ⟨not_strictEquals_of_container h.1, not_strictEquals_of_container h.container,
      not_strictEquals_of_container h.1⟩

theorem removedOrChanged_iff : removedOrChanged localValue remoteValue baseValue = true ↔
    baseValue ≠ none ∧ (localValue = none ∧ strictEquals remoteValue baseValue = false ∨
      remoteValue = none ∧ strictEquals localValue baseValue = false) := by
  simp only [removedOrChanged, Bool.or_eq_true, Bool.and_eq_true, Option.isNone_iff_eq_none,
    Bool.not_eq_true', Option.isSome_iff_ne_none]
  tauto

theorem not_same_of_none {value : JsValue} (h : value ≠ none) : ¬ Same none value :=
  fun hsame => h (same_none hsame)

/-- A place shows no false conflict exactly where it is clear. -/
theorem clear_iff : (Conflicting localValue remoteValue baseValue →
    Distinct localValue remoteValue baseValue) ↔ Clear localValue remoteValue baseValue := by
  constructor
  · intro h
    refine ⟨fun hrecords => ?_, fun hbase => ?_⟩
    · by_contra hcopy
      have hpair : SameContainer localValue baseValue ∨ SameContainer remoteValue baseValue ∨
          SameContainer localValue remoteValue := by tauto
      obtain ⟨hlocal, hremote, hboth⟩ := h (.inl ⟨allDiffer_of_copy hpair, hrecords⟩)
      rcases hpair with hpair | hpair | hpair
      · exact hlocal hpair.2
      · exact hremote hpair.2
      · exact hboth hpair.2
    · by_contra hnone
      have hgone : localValue = none ∧ remoteValue = none := by tauto
      obtain ⟨rfl, rfl⟩ := hgone
      have hdiffer : strictEquals none baseValue = false :=
        not_strictEquals (not_same_of_none hbase)
      exact (h (.inr (removedOrChanged_iff.mpr ⟨hbase, .inl ⟨rfl, hdiffer⟩⟩))).2.2 (Same.refl _)
  · intro h hconflicting
    have hrecords := h.containers hconflicting.not_objects
    have hapart : ∀ {a b : JsValue}, strictEquals a b = false → ¬ SameContainer a b → ¬ Same a b :=
      fun hdiffer hcopy hsame => hcopy (same_of_not_strictEquals_iff.mp ⟨hdiffer, hsame⟩)
    rcases hconflicting with ⟨hdiffer, _⟩ | hremoved
    · obtain ⟨hlocal, hremote, hboth⟩ := allDiffer_iff.mp hdiffer
      exact ⟨hapart hlocal hrecords.1, hapart hremote hrecords.2.1, hapart hboth hrecords.2.2⟩
    · obtain ⟨hbase, ⟨rfl, hremote⟩ | ⟨rfl, hlocal⟩⟩ := removedOrChanged_iff.mp hremoved
      · exact ⟨not_same_of_none hbase, hapart hremote hrecords.2.1,
          not_same_of_none ((h.kept hbase).resolve_left (by simp))⟩
      · exact ⟨hapart hlocal hrecords.1, not_same_of_none hbase, fun hsame =>
          not_same_of_none ((h.kept hbase).resolve_right (by simp)) hsame.symm⟩

theorem versions_of_mem_valueConflicts {keyed : List String} {conflict : Conflict}
    (h : conflict ∈ valueConflicts localValue remoteValue baseValue keyed) :
    conflict.localVersion = localValue ∧ conflict.serverVersion = remoteValue ∧
      conflict.baseVersion = baseValue := by
  rcases List.mem_append.mp h with hmem | hmem <;> split at hmem <;> simp at hmem <;>
    exact hmem ▸ ⟨rfl, rfl, rfl⟩

theorem genuine_valueConflicts_iff (keyed : List String) :
    (∀ conflict ∈ valueConflicts localValue remoteValue baseValue keyed, Genuine conflict) ↔
      Clear localValue remoteValue baseValue := by
  rw [← clear_iff]
  constructor
  · rintro h (⟨hdiffer, hrecords⟩ | hremoved)
    · exact h (createConflict .propertyChanged localValue remoteValue baseValue (keyPath keyed))
        (by simp [valueConflicts, hdiffer, hrecords])
    · exact h (createConflict .actionRemoved localValue remoteValue baseValue (keyPath keyed))
        (by simp [valueConflicts, hremoved])
  · intro h conflict hmem
    have hdistinct := h (mem_valueConflicts hmem).2
    obtain ⟨hlocal, hremote, hbase⟩ := versions_of_mem_valueConflicts hmem
    rwa [Genuine, hlocal, hremote, hbase]

theorem genuine_keyConflicts_iff (keyed : List String) :
    (∀ conflict ∈ keyConflicts localValue remoteValue baseValue keyed, Genuine conflict) ↔
      ∀ path, Searched localValue remoteValue baseValue path →
        Clear (under localValue path) (under remoteValue path) (under baseValue path) := by
  constructor
  · intro h path hsearched
    exact (genuine_valueConflicts_iff (keyed ++ path)).mp fun conflict hmem =>
      h conflict (mem_keyConflicts hsearched hmem)
  · intro h conflict hmem
    obtain ⟨path, hsearched, hvalue⟩ := exists_of_mem_keyConflicts hmem
    exact (genuine_valueConflicts_iff (keyed ++ path)).mpr (h path hsearched) conflict hvalue

end Place

/-! ### Properties -/

section Documents

variable {localVersion remote base : Json} {key : String}

theorem genuine_primitives_iff
    (htruthy : (localVersion.truthy && remote.truthy && base.truthy) = true)
    (h : (localVersion.isObject && remote.isObject && base.isObject) = false) :
    (∀ conflict ∈ detectPropertyConflicts localVersion remote base [], Genuine conflict) ↔
      Clear (some localVersion) (some remote) (some base) := by
  have hrecords : allRecords (some localVersion) (some remote) (some base) = false := by
    have hobject : ∀ value : Json, isRecord (some value) = true → value.isObject = true := by
      intro value hvalue
      cases value <;> first | rfl | cases hvalue
    by_contra hall
    simp only [allRecords, Bool.not_eq_false, Bool.and_eq_true] at hall
    simp [hobject _ hall.1.1, hobject _ hall.1.2, hobject _ hall.2] at h
  have hvalues : detectPropertyConflicts localVersion remote base [] =
      valueConflicts localVersion remote base [] := by
    rw [detect_primitives [] htruthy h, valueConflicts, hrecords]
    simp [removedOrChanged]
  rw [hvalues, genuine_valueConflicts_iff]

theorem genuine_properties_iff :
    (∀ conflict ∈ detectPropertyConflicts localVersion remote base [], Genuine conflict) ↔
      PropertiesClear localVersion remote base := by
  unfold PropertiesClear
  by_cases htruthy : (localVersion.truthy && remote.truthy && base.truthy) = true
  · simp only [htruthy, true_implies]
    split
    · next hobjects =>
        simp only [Bool.and_eq_true] at htruthy hobjects
        rw [detect_containers [] ⟨hobjects.1.1, htruthy.1.1⟩ ⟨hobjects.1.2, htruthy.1.2⟩
          ⟨hobjects.2, htruthy.2⟩]
        simp only [List.mem_flatMap, forall_exists_index, and_imp]
        constructor
        · intro h key hkey
          exact (genuine_keyConflicts_iff _).mp fun conflict hmem => h conflict key hkey hmem
        · intro h conflict key hkey
          exact (genuine_keyConflicts_iff _).mpr (h key hkey) conflict
    · next hobjects => exact genuine_primitives_iff htruthy (by simpa using hobjects)
  · rw [detect_falsy [] (by simpa [JsValue.truthy] using htruthy)]
    simp [htruthy]

end Documents

/-! ### Items -/

theorem entries_of_reads {items : List Json} {entries : List (JsValue × Json)}
    (h : (items.mapM fun item => do
      let id ← item.readKey "id"
      pure (id, item) : Js (List (JsValue × Json))) = .ok entries) :
    entries = items.map fun item => (item.property "id", item) := by
  induction items generalizing entries with
  | nil =>
      cases h
      rfl
  | cons item items ih =>
      simp only [List.mapM_cons, bind_eq_ok_iff, pure_ok_iff] at h
      obtain ⟨_, ⟨id, hid, rfl⟩, rest, hrest, rfl⟩ := h
      rw [ih hrest, List.map_cons, property_of_readKey hid]

theorem lookup_itemsById {list : JsValue} {map : List (JsValue × Json)}
    (h : itemsById list = .ok map) (id : JsValue) :
    map.lookup id = if isContainer id then none else itemWithId list id := by
  unfold itemsById at h
  split at h
  · next items =>
      obtain ⟨entries, hentries, hmap⟩ := bind_eq_ok_iff.mp h
      rw [entries_of_reads hentries] at hmap
      rw [← pure_ok_iff.mp hmap, Fields.lookup_foldl_set, ← List.filter_reverse,
        ← List.map_reverse, List.find?_filter, List.find?_map, itemWithId]
      split
      · next hcontainer =>
          rw [List.find?_eq_none.mpr]
          · rfl
          · rintro item _ hfound
            simp only [Function.comp_apply, decide_eq_true_eq] at hfound
            obtain ⟨hkept, rfl⟩ := hfound
            rcases isContainer_iff.mp hcontainer with ⟨_, hid⟩ | ⟨_, hid⟩ <;> simp [hid] at hkept
      · next hid =>
          simp only [Option.map_map, Function.comp_def, List.lookup_nil, Option.or_none,
            Option.map_id_fun']
          refine congrArg (fun found => items.reverse.find? found) (funext fun item => ?_)
          by_cases hitem : item.property "id" = id
          · rw [hitem]
            cases id with
            | none => simp
            | some value => cases value <;> simp_all [isContainer]
          · simp [hitem]
  · cases h


/-- Three items that are reported: changed on both sides, or gone from one of them. -/
def ItemClash (localItem remoteItem baseItem : JsValue) : Prop :=
  JsValue.truthy baseItem = true ∧
    (JsValue.truthy localItem = true ∧ JsValue.truthy remoteItem = true ∧
        localItem ≠ baseItem ∧ remoteItem ≠ baseItem ∧ localItem ≠ remoteItem ∨
      JsValue.truthy localItem = false ∧ JsValue.truthy remoteItem = true ∧
        remoteItem ≠ baseItem ∨
      JsValue.truthy localItem = true ∧ JsValue.truthy remoteItem = false ∧
        localItem ≠ baseItem)

theorem not_same_of_truthy {a b : JsValue} (ha : JsValue.truthy a = false)
    (hb : JsValue.truthy b = true) : ¬ Same a b := by
  intro h
  rcases eq_or_container_of_same h with rfl | hcontainer
  · simp [ha] at hb
  · simp [truthy_of_container hcontainer.1] at ha

/-- The items of an id show no false conflict exactly where they are clear. -/
theorem itemClear_iff {localItem remoteItem baseItem : JsValue} :
    (ItemClash localItem remoteItem baseItem → Distinct localItem remoteItem baseItem) ↔
      ItemClear localItem remoteItem baseItem := by
  have htruthy : ∀ {a b : JsValue}, Reordered a b →
      JsValue.truthy a = true ∧ JsValue.truthy b = true := fun h =>
    ⟨truthy_of_container h.containers.1, truthy_of_container h.containers.2⟩
  constructor
  · intro h
    refine ⟨fun horder => ?_, fun horder => ?_, fun horder hbase => ?_⟩
    · by_contra hother
      have hne : remoteItem ≠ localItem ∧ remoteItem ≠ baseItem := by tauto
      have ⟨hl, hb⟩ := htruthy horder
      refine (h ⟨hb, ?_⟩).1 horder.2
      cases hr : JsValue.truthy remoteItem with
      | true => exact .inl ⟨hl, rfl, horder.1, hne.2, hne.1.symm⟩
      | false => exact .inr (.inr ⟨hl, rfl, horder.1⟩)
    · by_contra hother
      have hne : localItem ≠ remoteItem ∧ localItem ≠ baseItem := by tauto
      have ⟨hr, hb⟩ := htruthy horder
      refine (h ⟨hb, ?_⟩).2.1 horder.2
      cases hl : JsValue.truthy localItem with
      | true => exact .inl ⟨rfl, hr, hne.2, horder.1, hne.1⟩
      | false => exact .inr (.inl ⟨rfl, hr, horder.1⟩)
    · by_contra hother
      have hne : baseItem ≠ localItem ∧ baseItem ≠ remoteItem := by tauto
      have ⟨hl, hr⟩ := htruthy horder
      exact (h ⟨hbase, .inl ⟨hl, hr, hne.1.symm, hne.2.symm, horder.1⟩⟩).2.2 horder.2
  · rintro h ⟨hb, ⟨hl, hr, hlb, hrb, hlr⟩ | ⟨hl, hr, hrb⟩ | ⟨hl, hr, hlb⟩⟩
    · refine ⟨fun hsame => ?_, fun hsame => ?_, fun hsame => ?_⟩
      · have := h.localOrder ⟨hlb, hsame⟩
        tauto
      · have := h.remoteOrder ⟨hrb, hsame⟩
        tauto
      · have := h.bothOrder ⟨hlr, hsame⟩ hb
        tauto
    · refine ⟨not_same_of_truthy hl hb, fun hsame => ?_, not_same_of_truthy hl hr⟩
      rcases h.remoteOrder ⟨hrb, hsame⟩ with rfl | rfl <;> simp_all
    · refine ⟨fun hsame => ?_, not_same_of_truthy hr hb, fun hsame =>
        not_same_of_truthy hr hl hsame.symm⟩
      rcases h.localOrder ⟨hlb, hsame⟩ with rfl | rfl <;> simp_all

section Lists

variable {localItems remoteItems baseItems : JsValue} {path : List JsValue}
  {type : ConflictType} {conflicts : List Conflict}

def Shows (conflict : Conflict) (localValue remoteValue baseValue : JsValue) : Prop :=
  conflict.localVersion = localValue ∧ conflict.serverVersion = remoteValue ∧
    conflict.baseVersion = baseValue

theorem genuine_of_shows {conflict : Conflict} {localValue remoteValue baseValue : JsValue}
    (h : Shows conflict localValue remoteValue baseValue) :
    Genuine conflict ↔ Distinct localValue remoteValue baseValue := by
  rw [Genuine, h.1, h.2.1, h.2.2]

section

variable (h : detectArrayConflicts localItems remoteItems baseItems path type = .ok conflicts)
include h

theorem shows_of_mem_array {conflict : Conflict} (hconflict : conflict ∈ conflicts) :
    ∃ id, isContainer id = false ∧
      Shows conflict (itemWithId localItems id) (itemWithId remoteItems id)
        (itemWithId baseItems id) ∧
      ItemClash (itemWithId localItems id) (itemWithId remoteItems id)
        (itemWithId baseItems id) := by
  simp only [detectArrayConflicts, bind_eq_ok_iff, pure_ok_iff] at h
  obtain ⟨localMap, hlocal, remoteMap, hremote, baseMap, hbase, rfl⟩ := h
  obtain ⟨id, _, hid⟩ := List.mem_flatMap.mp hconflict
  refine ⟨id, ?_⟩
  simp only [lookup_itemsById hlocal, lookup_itemsById hremote, lookup_itemsById hbase] at hid
  cases hcontainer : isContainer id with
  | true => simp [hcontainer, JsValue.truthy] at hid
  | false =>
      simp only [hcontainer, Bool.false_eq_true, if_false, List.mem_append] at hid
      rcases hid with (hid | hid) | hid <;> split at hid <;> simp at hid <;>
        next hclash => exact ⟨rfl, hid ▸ ⟨rfl, rfl, rfl⟩, by simp_all [ItemClash]⟩

theorem exists_mem_array {id : JsValue} (hid : isContainer id = false)
    (hclash : ItemClash (itemWithId localItems id) (itemWithId remoteItems id)
      (itemWithId baseItems id)) :
    ∃ conflict ∈ conflicts, Shows conflict (itemWithId localItems id)
      (itemWithId remoteItems id) (itemWithId baseItems id) := by
  simp only [detectArrayConflicts, bind_eq_ok_iff, pure_ok_iff] at h
  obtain ⟨localMap, hlocal, remoteMap, hremote, baseMap, hbase, rfl⟩ := h
  have hlookup : ∀ {list : JsValue} {map : List (JsValue × Json)}, itemsById list = .ok map →
      map.lookup id = itemWithId list id := by
    intro list map hmap
    rw [lookup_itemsById hmap, hid, if_neg (by simp)]
  have hkey : id ∈ ((localMap ++ remoteMap ++ baseMap).map Prod.fst).eraseDups := by
    rw [List.mem_eraseDups, List.map_append, List.mem_append]
    refine .inr ?_
    by_contra hnone
    have habsent : baseMap.lookup id = none := List.lookup_eq_none_iff.mpr fun entry hentry => by
      simpa using fun heq : id = entry.1 => hnone (heq ▸ List.mem_map_of_mem hentry)
    rw [← hlookup hbase, habsent] at hclash
    cases hclash.1
  rw [← hlookup hlocal, ← hlookup hremote, ← hlookup hbase] at hclash ⊢
  have hshown : ∀ kind : ConflictType, Shows (createConflict kind (localMap.lookup id)
      (remoteMap.lookup id) (baseMap.lookup id) (path ++ [id])) (localMap.lookup id)
      (remoteMap.lookup id) (baseMap.lookup id) := fun _ => ⟨rfl, rfl, rfl⟩
  obtain ⟨hb, ⟨hl, hr, hlb, hrb, hlr⟩ | ⟨hl, hr, hrb⟩ | ⟨hl, hr, hlb⟩⟩ := hclash
  · exact ⟨_, List.mem_flatMap.mpr ⟨id, hkey, by simp [hl, hr, hb, hlb, hrb, hlr]⟩, hshown type⟩
  · exact ⟨_, List.mem_flatMap.mpr ⟨id, hkey, by simp [hl, hr, hb, hrb]⟩, hshown .actionRemoved⟩
  · exact ⟨_, List.mem_flatMap.mpr ⟨id, hkey, by simp [hl, hr, hb, hlb]⟩, hshown .actionRemoved⟩

theorem genuine_array_iff :
    (∀ conflict ∈ conflicts, Genuine conflict) ↔ ∀ id, isContainer id = false →
      ItemClear (itemWithId localItems id) (itemWithId remoteItems id)
        (itemWithId baseItems id) := by
  simp only [← itemClear_iff]
  constructor
  · intro hgenuine id hid hclash
    obtain ⟨conflict, hmem, hshows⟩ := exists_mem_array h hid hclash
    exact (genuine_of_shows hshows).mp (hgenuine conflict hmem)
  · intro hclear conflict hmem
    obtain ⟨id, hid, hshows, hclash⟩ := shows_of_mem_array h hmem
    exact (genuine_of_shows hshows).mpr (hclear id hid hclash)

end

end Lists

section Structure

variable {localVersion remote base : Json} {key : String} {type : ConflictType}
  {conflicts : List Conflict}

section

variable (h : detectItemConflicts localVersion remote base key type = .ok conflicts)
include h

/-- Lists are compared where all versions have one, and nothing is reported elsewhere. -/
theorem detectItemConflicts_ok :
    (allPresent localVersion remote base key = true ∧
      detectArrayConflicts (localVersion.property key) (remote.property key)
        (base.property key) [some (.str key)] type = .ok conflicts) ∨
      allPresent localVersion remote base key = false ∧ conflicts = [] := by
  simp only [detectItemConflicts, bind_eq_ok_iff] at h
  obtain ⟨localItems, hlocal, h⟩ := h
  rw [allPresent, property_of_readKey hlocal]
  cases hl : JsValue.truthy localItems with
  | false =>
      simp only [hl, Bool.not_false, if_true, pure_ok_iff] at h
      exact .inr ⟨rfl, h.symm⟩
  | true =>
      simp only [hl, Bool.not_true, Bool.false_eq_true, if_false, bind_eq_ok_iff] at h
      obtain ⟨remoteItems, hremote, h⟩ := h
      rw [property_of_readKey hremote]
      cases hr : JsValue.truthy remoteItems with
      | false =>
          simp only [hr, Bool.not_false, if_true, pure_ok_iff] at h
          exact .inr ⟨rfl, h.symm⟩
      | true =>
          simp only [hr, Bool.not_true, Bool.false_eq_true, if_false, bind_eq_ok_iff] at h
          obtain ⟨baseItems, hbase, h⟩ := h
          rw [property_of_readKey hbase]
          cases hb : JsValue.truthy baseItems with
          | false =>
              simp only [hb, Bool.not_false, if_true, pure_ok_iff] at h
              exact .inr ⟨rfl, h.symm⟩
          | true =>
              simp only [hb, Bool.not_true, Bool.false_eq_true, if_false] at h
              exact .inl ⟨rfl, h⟩

theorem genuine_items_iff :
    (∀ conflict ∈ conflicts, Genuine conflict) ↔ ItemsClear localVersion remote base key := by
  rcases detectItemConflicts_ok h with ⟨hpresent, harray⟩ | ⟨habsent, rfl⟩
  · simp only [ItemsClear, hpresent, true_implies]
    exact genuine_array_iff harray
  · simp [ItemsClear, habsent]

end

theorem genuine_structural_iff
    (h : detectStructuralConflicts localVersion remote base = .ok conflicts) :
    (∀ conflict ∈ conflicts, Genuine conflict) ↔
      ItemsClear localVersion remote base "actions" ∧
        ItemsClear localVersion remote base "connections" := by
  simp only [detectStructuralConflicts, bind_eq_ok_iff, pure_ok_iff] at h
  obtain ⟨actions, hactions, connections, hconnections, rfl⟩ := h
  rw [List.forall_mem_append, genuine_items_iff hactions, genuine_items_iff hconnections]

end Structure

/-! ### A side that changed nothing -/

theorem same_property {a b : Json} (h : Same (some a) (some b)) (key : String) :
    Same (a.property key) (b.property key) := by
  have hchild : Same (under (some a) [key]) (under (some b) [key]) := h.under [key]
  cases a with
  | arr xs =>
      cases b with
      | arr ys =>
          have hlength : xs.length = ys.length := by simpa [shape] using h.shape
          cases hi : arrayIndex? key with
          | some i => simpa [property, readKey, hi, under, at?, child?] using hchild
          | none =>
              simp only [property, readKey, hi, hlength]
              exact Same.refl _
      | _ => cases h.shape
  | obj fs =>
      cases b with
      | obj gs => simpa [property_obj, under, at?, child?] using hchild
      | _ => cases h.shape
  | _ =>
      have heq := (eq_or_container_of_same h).resolve_right (by simp [isContainer])
      cases heq
      exact Same.refl _

theorem forall₂_of_same {xs ys : List Json} (h : Same (some (.arr xs)) (some (.arr ys))) :
    List.Forall₂ (fun x y => Same (some x) (some y)) xs ys := by
  refine List.forall₂_iff_get.mpr ⟨by simpa [shape] using h.shape, fun i hx hy => ?_⟩
  have hchild : Same (under (some (.arr xs)) [toString i]) (under (some (.arr ys)) [toString i]) :=
    h.under [toString i]
  simpa only [under, Option.bind_some, at?, child?, arrayIndex?_toString,
    List.getElem?_eq_getElem hx, List.getElem?_eq_getElem hy, List.get_eq_getElem] using hchild

theorem same_find {xs ys : List Json} {id : JsValue} (hid : isContainer id = false)
    (h : List.Forall₂ (fun x y => Same (some x) (some y)) xs ys) :
    Same (xs.find? fun item => item.property "id" = id)
      (ys.find? fun item => item.property "id" = id) := by
  induction h with
  | nil => exact Same.refl _
  | @cons x y xs ys hxy _ ih =>
      have hiff : x.property "id" = id ↔ y.property "id" = id := by
        rcases eq_or_container_of_same (same_property hxy "id") with heq | ⟨hx, hy⟩
        · rw [heq]
        · constructor <;> rintro rfl <;> simp_all
      by_cases hx : x.property "id" = id
      · rw [List.find?_cons_of_pos (by simpa using hx),
          List.find?_cons_of_pos (by simpa using hiff.mp hx)]
        exact hxy
      · rw [List.find?_cons_of_neg (by simpa using hx),
          List.find?_cons_of_neg (by simpa using fun hy => hx (hiff.mpr hy))]
        exact ih

theorem same_itemWithId {a b id : JsValue} (hid : isContainer id = false) (h : Same a b) :
    Same (itemWithId a id) (itemWithId b id) := by
  rcases eq_or_container_of_same h with rfl | ⟨ha, hb⟩
  · exact Same.refl _
  · rcases isContainer_iff.mp ha with ⟨xs, rfl⟩ | ⟨fs, rfl⟩ <;>
      rcases isContainer_iff.mp hb with ⟨ys, rfl⟩ | ⟨gs, rfl⟩
    · exact same_find hid (List.forall₂_reverse_iff.mpr (forall₂_of_same h))
    · cases h.shape
    · cases h.shape
    · exact Same.refl _

/-- The value at a place of a document: the document, what lies below one of its keys, or an
item of a list under a key. -/
inductive Place where
  | root
  | below (key : String) (path : List String)
  | item (key : String) (id : JsValue)

def Place.read (place : Place) (doc : Json) : JsValue :=
  match place with
  | .root => some doc
  | .below key path => under (doc.property key) path
  | .item key id => if isContainer id then none else itemWithId (doc.property key) id

theorem Place.same_read (place : Place) {a b : Json} (h : Same (some a) (some b)) :
    Same (place.read a) (place.read b) := by
  cases place with
  | root => exact h
  | below key path => exact (same_property h key).under path
  | item key id =>
      simp only [Place.read]
      split
      · exact Same.refl _
      · next hid => exact same_itemWithId (by simpa using hid) (same_property h key)

section

variable {localVersion remote base : Json} {conflicts : List Conflict}
  (h : detectConflicts {} localVersion remote base = .ok conflicts)
include h

/-- A conflict shows what the versions hold at one place. -/
theorem shows_place {conflict : Conflict} (hconflict : conflict ∈ conflicts) :
    ∃ place : Place,
      Shows conflict (place.read localVersion) (place.read remote) (place.read base) := by
  obtain ⟨structural, hstructural, rfl⟩ := detectConflicts_default.mp h
  rcases List.mem_append.mp hconflict with hmem | hmem
  · by_cases htruthy : (localVersion.truthy && remote.truthy && base.truthy) = true
    · by_cases hobjects : (localVersion.isObject && remote.isObject && base.isObject) = true
      · simp only [Bool.and_eq_true] at htruthy hobjects
        rw [detect_containers [] ⟨hobjects.1.1, htruthy.1.1⟩ ⟨hobjects.1.2, htruthy.1.2⟩
          ⟨hobjects.2, htruthy.2⟩] at hmem
        obtain ⟨key, _, hkey⟩ := List.mem_flatMap.mp hmem
        obtain ⟨path, _, hvalue⟩ := exists_of_mem_keyConflicts hkey
        exact ⟨.below key path, versions_of_mem_valueConflicts hvalue⟩
      · rw [detect_primitives [] htruthy (by simpa using hobjects)] at hmem
        split at hmem
        · rw [List.mem_singleton] at hmem
          exact ⟨.root, hmem ▸ ⟨rfl, rfl, rfl⟩⟩
        · cases hmem
    · rw [detect_falsy [] (by simpa [JsValue.truthy] using htruthy)] at hmem
      cases hmem
  · simp only [detectStructuralConflicts, bind_eq_ok_iff, pure_ok_iff] at hstructural
    obtain ⟨actions, hactions, connections, hconnections, rfl⟩ := hstructural
    have hitem : ∀ {key : String} {type : ConflictType} {found : List Conflict},
        detectItemConflicts localVersion remote base key type = .ok found → conflict ∈ found →
        ∃ place : Place,
          Shows conflict (place.read localVersion) (place.read remote) (place.read base) := by
      intro key type found hfound hin
      rcases detectItemConflicts_ok hfound with ⟨_, harray⟩ | ⟨_, rfl⟩
      · obtain ⟨id, hid, hshows, _⟩ := shows_of_mem_array harray hin
        exact ⟨.item key id, by simpa [Place.read, hid] using hshows⟩
      · cases hin
    rcases List.mem_append.mp hmem with hin | hin
    · exact hitem hactions hin
    · exact hitem hconnections hin

theorem no_conflicts_of_unchanged (hgenuine : ∀ conflict ∈ conflicts, Genuine conflict)
    (hsame : Same (some localVersion) (some base) ∨ Same (some remote) (some base)) :
    conflicts = [] := by
  refine List.eq_nil_iff_forall_not_mem.mpr fun conflict hmem => ?_
  obtain ⟨place, hshows⟩ := shows_place h hmem
  have hdistinct := (genuine_of_shows hshows).mp (hgenuine conflict hmem)
  rcases hsame with hlocal | hremote
  · exact hdistinct.1 (place.same_read hlocal)
  · exact hdistinct.2.1 (place.same_read hremote)

end

/-- Every reported conflict is about three different values, and a side like the base has
none, exactly where the versions are clear. -/
theorem conflicts_genuine_iff {localVersion remote base : Json} {conflicts : List Conflict}
    (h : detectConflicts {} localVersion remote base = .ok conflicts) :
    ((∀ conflict ∈ conflicts, Genuine conflict) ∧
      (Same (some localVersion) (some base) ∨ Same (some remote) (some base) →
        conflicts = [])) ↔
      PropertiesClear localVersion remote base ∧
        ItemsClear localVersion remote base "actions" ∧
        ItemsClear localVersion remote base "connections" := by
  have hgenuine : (∀ conflict ∈ conflicts, Genuine conflict) ↔
      PropertiesClear localVersion remote base ∧
        ItemsClear localVersion remote base "actions" ∧
        ItemsClear localVersion remote base "connections" := by
    obtain ⟨structural, hstructural, rfl⟩ := detectConflicts_default.mp h
    rw [List.forall_mem_append, genuine_properties_iff, genuine_structural_iff hstructural]
  rw [← hgenuine]
  exact ⟨And.left, fun hall => ⟨hall, no_conflicts_of_unchanged h hall⟩⟩

theorem conflicts_genuine_iff_names :
    ∃ conflicts, detectConflicts {} (.obj [("name", .str "a")]) (.obj [("name", .str "b")])
        (.obj [("name", .str "c")]) = .ok conflicts ∧
      (((∀ conflict ∈ conflicts, Genuine conflict) ∧
        (Same (some (.obj [("name", .str "a")])) (some (.obj [("name", .str "c")])) ∨
          Same (some (.obj [("name", .str "b")])) (some (.obj [("name", .str "c")])) →
          conflicts = [])) ↔
        PropertiesClear (.obj [("name", .str "a")]) (.obj [("name", .str "b")])
            (.obj [("name", .str "c")]) ∧
          ItemsClear (.obj [("name", .str "a")]) (.obj [("name", .str "b")])
            (.obj [("name", .str "c")]) "actions" ∧
          ItemsClear (.obj [("name", .str "a")]) (.obj [("name", .str "b")])
            (.obj [("name", .str "c")]) "connections") :=
  ⟨_, detectConflicts_default.mpr ⟨[], rfl, rfl⟩,
    conflicts_genuine_iff (detectConflicts_default.mpr ⟨[], rfl, rfl⟩)⟩

/-- Nobody has changed anything, and the equal lists of actions are in conflict. -/
theorem equal_lists_conflict :
    ∃ conflicts, detectConflicts {} (.obj [("actions", .arr [])]) (.obj [("actions", .arr [])])
        (.obj [("actions", .arr [])]) = .ok conflicts ∧
      ∃ conflict ∈ conflicts, ¬ Genuine conflict := by
  refine ⟨_, detectConflicts_default.mpr ⟨[], rfl, rfl⟩,
    createConflict .propertyChanged (some (.arr [])) (some (.arr [])) (some (.arr []))
      (keyPath ["actions"]), ?_, fun h => h.1 (Same.refl _)⟩
  have hsearched : Searched (some (.obj [("actions", .arr [])]))
      (some (.obj [("actions", .arr [])])) (some (.obj [("actions", .arr [])])) ["actions"] :=
    trivial
  rw [List.append_nil, detect_root]
  exact mem_keyConflicts hsearched (List.mem_append_left _ (List.mem_singleton.mpr rfl))

end Qontinui.ConflictDetector
