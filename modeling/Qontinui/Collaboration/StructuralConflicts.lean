import Qontinui.Base.FallibleLoops
import Qontinui.Collaboration.PropertyConflicts

/-!
What `detectStructuralConflicts` reports, and when it throws: where all versions have
`actions`, or `connections`, each of these is to be a list without `null`.
-/

namespace Qontinui.ConflictDetector

open Json FallibleLoops

theorem pure_ok_iff {α : Type} {value result : α} :
    (pure value : Js α) = .ok result ↔ value = result := by
  simp [pure, Except.pure]

def IsItemList (value : JsValue) : Prop := ∃ items, value = some (.arr items) ∧ Json.null ∉ items

variable {value : Json}

theorem readKey_eq_property (key : String) (h : value ≠ .null) :
    value.readKey key = .ok (value.property key) := by
  cases value with
  | null => exact absurd rfl h
  | str | arr =>
      cases hi : arrayIndex? key <;> simp [property, readKey, hi]
  | _ => rfl

theorem property_of_readKey {key : String} {child : JsValue} (h : value.readKey key = .ok child) :
    value.property key = child := by
  simp [property, h]

theorem readKey_ok_iff {key : String} :
    (∃ child, value.readKey key = .ok child) ↔ value ≠ .null := by
  constructor
  · rintro ⟨child, hchild⟩ rfl
    cases hchild
  · exact fun h => ⟨_, readKey_eq_property key h⟩

theorem reads_ok_iff {items : List Json} :
    (∃ entries, (items.mapM fun item => do
      let id ← item.readKey "id"
      pure (id, item) : Js (List (JsValue × Json))) = .ok entries) ↔ Json.null ∉ items := by
  rw [mapM_returns_iff]
  simp only [bind_eq_ok_iff, pure_ok_iff]
  constructor
  · intro h hnull
    obtain ⟨_, id, hid, _⟩ := h .null hnull
    cases hid
  · intro h item hitem
    obtain ⟨id, hid⟩ := readKey_ok_iff.mpr (show item ≠ .null from fun heq => h (heq ▸ hitem))
    exact ⟨_, id, hid, rfl⟩

theorem itemsById_ok_iff {list : JsValue} :
    (∃ map, itemsById list = .ok map) ↔ IsItemList list := by
  unfold itemsById
  split
  · next items =>
      constructor
      · rintro ⟨_, hmap⟩
        obtain ⟨entries, hentries, _⟩ := bind_eq_ok_iff.mp hmap
        exact ⟨items, rfl, reads_ok_iff.mp ⟨entries, hentries⟩⟩
      · rintro ⟨_, heq, hnull⟩
        cases heq
        obtain ⟨entries, hentries⟩ := reads_ok_iff.mpr hnull
        exact ⟨_, bind_eq_ok_iff.mpr ⟨entries, hentries, rfl⟩⟩
  · next hnot =>
      constructor
      · rintro ⟨map, hmap⟩
        cases hmap
      · rintro ⟨items, heq, _⟩
        exact absurd heq (hnot items)

theorem detectArrayConflicts_ok_iff {localItems remoteItems baseItems : JsValue}
    {path : List JsValue} {type : ConflictType} :
    (∃ conflicts, detectArrayConflicts localItems remoteItems baseItems path type =
      .ok conflicts) ↔
      IsItemList localItems ∧ IsItemList remoteItems ∧ IsItemList baseItems := by
  simp only [detectArrayConflicts, bind_eq_ok_iff, pure_ok_iff, ← itemsById_ok_iff]
  constructor
  · rintro ⟨_, localMap, hlocal, remoteMap, hremote, baseMap, hbase, _⟩
    exact ⟨⟨localMap, hlocal⟩, ⟨remoteMap, hremote⟩, baseMap, hbase⟩
  · rintro ⟨⟨localMap, hlocal⟩, ⟨remoteMap, hremote⟩, baseMap, hbase⟩
    exact ⟨_, localMap, hlocal, remoteMap, hremote, baseMap, hbase, rfl⟩

theorem mem_detectArrayConflicts {localItems remoteItems baseItems : JsValue}
    {path : List JsValue} {type : ConflictType} {conflicts : List Conflict} {conflict : Conflict}
    (h : detectArrayConflicts localItems remoteItems baseItems path type = .ok conflicts)
    (hconflict : conflict ∈ conflicts) :
    ∃ id kind localItem remoteItem baseItem,
      conflict = createConflict kind localItem remoteItem baseItem (path ++ [id]) ∧
        (kind = type ∨ kind = .actionRemoved) := by
  simp only [detectArrayConflicts, bind_eq_ok_iff, pure_ok_iff] at h
  obtain ⟨localMap, _, remoteMap, _, baseMap, _, rfl⟩ := h
  obtain ⟨id, _, hid⟩ := List.mem_flatMap.mp hconflict
  refine ⟨id, ?_⟩
  simp only [List.mem_append] at hid
  rcases hid with (hid | hid) | hid <;> split at hid <;> simp at hid
  · exact ⟨_, _, _, _, hid, .inl rfl⟩
  · exact ⟨_, _, _, _, hid, .inr rfl⟩
  · exact ⟨_, _, _, _, hid, .inr rfl⟩

def allPresent (localVersion remote base : Json) (key : String) : Bool :=
  JsValue.truthy (localVersion.property key) && JsValue.truthy (remote.property key) &&
    JsValue.truthy (base.property key)

def AllItemLists (localVersion remote base : Json) (key : String) : Prop :=
  IsItemList (localVersion.property key) ∧ IsItemList (remote.property key) ∧
    IsItemList (base.property key)

/-- What all versions have under the two keys of items are lists of items. -/
def Readable (localVersion remote base : Json) : Prop :=
  ∀ key ∈ ["actions", "connections"], allPresent localVersion remote base key = true →
    AllItemLists localVersion remote base key

section Items

variable {localVersion remote base : Json} {key : String} {type : ConflictType}
  {conflicts : List Conflict} {conflict : Conflict}

theorem detectItemConflicts_eq (hlocal : localVersion ≠ .null) (hremote : remote ≠ .null)
    (hbase : base ≠ .null) :
    detectItemConflicts localVersion remote base key type =
      if allPresent localVersion remote base key then
        detectArrayConflicts (localVersion.property key) (remote.property key)
          (base.property key) [some (.str key)] type
      else .ok [] := by
  simp only [detectItemConflicts, readKey_eq_property key hlocal, readKey_eq_property key hremote,
    readKey_eq_property key hbase, bind, Except.bind, pure, Except.pure, allPresent]
  by_cases hl : JsValue.truthy (localVersion.property key) = true <;>
    by_cases hr : JsValue.truthy (remote.property key) = true <;>
    by_cases hb : JsValue.truthy (base.property key) = true <;>
    simp [hl, hr, hb]

theorem detectItemConflicts_ok_iff (hlocal : localVersion ≠ .null) (hremote : remote ≠ .null)
    (hbase : base ≠ .null) :
    (∃ conflicts, detectItemConflicts localVersion remote base key type = .ok conflicts) ↔
      (allPresent localVersion remote base key = true →
        AllItemLists localVersion remote base key) := by
  rw [detectItemConflicts_eq hlocal hremote hbase]
  by_cases hpresent : allPresent localVersion remote base key = true
  · simp only [hpresent, if_true, detectArrayConflicts_ok_iff, AllItemLists, forall_const]
  · simp [hpresent]

theorem mem_detectItemConflicts
    (h : detectItemConflicts localVersion remote base key type = .ok conflicts)
    (hconflict : conflict ∈ conflicts) :
    AllItemLists localVersion remote base key ∧ ∃ id kind localItem remoteItem baseItem,
      conflict = createConflict kind localItem remoteItem baseItem [some (.str key), id] ∧
        (kind = type ∨ kind = .actionRemoved) := by
  simp only [detectItemConflicts, bind_eq_ok_iff] at h
  obtain ⟨localItems, hlocal, h⟩ := h
  have hnone : ∀ {found : List Conflict}, (pure [] : Js (List Conflict)) = .ok found →
      conflict ∉ found := by
    intro found hfound
    cases hfound
    exact List.not_mem_nil
  split at h
  · exact absurd hconflict (hnone h)
  · obtain ⟨remoteItems, hremote, h⟩ := bind_eq_ok_iff.mp h
    split at h
    · exact absurd hconflict (hnone h)
    · obtain ⟨baseItems, hbase, h⟩ := bind_eq_ok_iff.mp h
      split at h
      · exact absurd hconflict (hnone h)
      · rw [AllItemLists, property_of_readKey hlocal, property_of_readKey hremote,
          property_of_readKey hbase]
        exact ⟨detectArrayConflicts_ok_iff.mp ⟨_, h⟩, mem_detectArrayConflicts h hconflict⟩

theorem detectStructuralConflicts_ok_iff (hlocal : localVersion ≠ .null) (hremote : remote ≠ .null)
    (hbase : base ≠ .null) :
    (∃ conflicts, detectStructuralConflicts localVersion remote base = .ok conflicts) ↔
      Readable localVersion remote base := by
  have hactions : (∃ conflicts, detectItemConflicts localVersion remote base "actions"
      .actionModified = .ok conflicts) ↔ _ := detectItemConflicts_ok_iff hlocal hremote hbase
  have hconnections : (∃ conflicts, detectItemConflicts localVersion remote base "connections"
      .connectionChanged = .ok conflicts) ↔ _ := detectItemConflicts_ok_iff hlocal hremote hbase
  simp only [detectStructuralConflicts, bind_eq_ok_iff, pure_ok_iff, Readable, List.forall_mem_cons,
    List.not_mem_nil, false_implies, implies_true, and_true]
  rw [← hactions, ← hconnections]
  constructor
  · rintro ⟨_, actions, hactions, connections, hconnections, _⟩
    exact ⟨⟨actions, hactions⟩, connections, hconnections⟩
  · rintro ⟨⟨actions, hactions⟩, connections, hconnections⟩
    exact ⟨_, actions, hactions, connections, hconnections, rfl⟩

theorem mem_detectStructuralConflicts
    (h : detectStructuralConflicts localVersion remote base = .ok conflicts)
    (hconflict : conflict ∈ conflicts) :
    conflict.autoResolvable = false ∧ ∃ key id,
      conflict.path = [some (.str key), id] ∧ AllItemLists localVersion remote base key := by
  simp only [detectStructuralConflicts, bind_eq_ok_iff, pure_ok_iff] at h
  obtain ⟨actions, hactions, connections, hconnections, rfl⟩ := h
  rcases List.mem_append.mp hconflict with hmem | hmem
  · obtain ⟨hlists, id, kind, l, r, b, rfl, rfl | rfl⟩ :=
      mem_detectItemConflicts hactions hmem
    · exact ⟨rfl, "actions", id, rfl, hlists⟩
    · exact ⟨rfl, "actions", id, rfl, hlists⟩
  · obtain ⟨hlists, id, kind, l, r, b, rfl, rfl | rfl⟩ :=
      mem_detectItemConflicts hconnections hmem
    · exact ⟨rfl, "connections", id, rfl, hlists⟩
    · exact ⟨rfl, "connections", id, rfl, hlists⟩

end Items

theorem severity_passes (severity : ConflictSeverity) :
    getSeverityLevel .low ≤ getSeverityLevel severity := by
  cases severity <;> decide

theorem detectConflicts_default {localVersion remote base : Json} {conflicts : List Conflict} :
    detectConflicts {} localVersion remote base = .ok conflicts ↔
      ∃ structural, detectStructuralConflicts localVersion remote base = .ok structural ∧
        conflicts = detectPropertyConflicts localVersion remote base [] ++ structural := by
  simp only [detectConflicts, if_true, bind_eq_ok_iff, pure_ok_iff, List.filterMap_nil,
    List.append_nil, severity_passes, decide_true, List.filter_true]
  simp only [eq_comm]

end Qontinui.ConflictDetector
