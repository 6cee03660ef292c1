import Mathlib.Logic.Function.Basic
import Qontinui.Base.Fields

/-!
JavaScript objects used as maps from strings: their keys in the order they were
written, each of them once.
-/

namespace Qontinui

/-- An object used as a map. No key occurs twice. -/
structure ObjectMap (β : Type*) where
  entries : List (String × β)
  nodup : (entries.map Prod.fst).Nodup

namespace ObjectMap

variable {β γ : Type*} {m : ObjectMap β} {key : String}

@[ext] theorem ext {m' : ObjectMap β} (h : m.entries = m'.entries) : m = m' := by
  cases m; cases m'; cases h; rfl

instance [DecidableEq β] : DecidableEq (ObjectMap β) := fun m m' =>
  decidable_of_iff (m.entries = m'.entries) ⟨ext, congrArg entries⟩

def empty : ObjectMap β := ⟨[], List.nodup_nil⟩

/-- `map[key]`; `none` is `undefined`. -/
def get? (m : ObjectMap β) (key : String) : Option β := m.entries.lookup key

/-- `Object.keys(map)`. -/
def keys (m : ObjectMap β) : List String := m.entries.map Prod.fst

/-- `Object.values(map)`. -/
def values (m : ObjectMap β) : List β := m.entries.map Prod.snd

/-- `map[key] = value`. -/
def set (m : ObjectMap β) (key : String) (value : β) : ObjectMap β where
  entries := Fields.set key value m.entries
  nodup := Fields.nodup_set key value m.nodup

/-- `delete map[key]`. -/
def erase (m : ObjectMap β) (key : String) : ObjectMap β where
  entries := Fields.erase key m.entries
  nodup := m.nodup.sublist (List.filter_sublist.map Prod.fst)

def mapValues (f : β → γ) (m : ObjectMap β) : ObjectMap γ where
  entries := m.entries.map fun entry => (entry.1, f entry.2)
  nodup := by simpa [Function.comp_def] using m.nodup

theorem keys_filterMap_sublist (f : String → β → Option γ) (entries : List (String × β)) :
    ((entries.filterMap fun entry => (f entry.1 entry.2).map (entry.1, ·)).map Prod.fst).Sublist
      (entries.map Prod.fst) := by
  induction entries with
  | nil => exact List.Sublist.slnil
  | cons entry rest ih =>
      rw [List.filterMap_cons]
      cases f entry.1 entry.2 with
      | none => exact ih.cons entry.1
      | some value => exact ih.cons_cons entry.1

/-- The map with every entry replaced or left out. -/
def filterMap (f : String → β → Option γ) (m : ObjectMap β) : ObjectMap γ where
  entries := m.entries.filterMap fun entry => (f entry.1 entry.2).map (entry.1, ·)
  nodup := m.nodup.sublist (keys_filterMap_sublist f m.entries)

@[simp] theorem get?_empty (key : String) : (empty : ObjectMap β).get? key = none := rfl

@[simp] theorem get?_set_self (m : ObjectMap β) (key : String) (value : β) :
    (m.set key value).get? key = some value := Fields.lookup_set_self key value m.entries

theorem get?_set_ne (m : ObjectMap β) {other : String} (h : other ≠ key) (value : β) :
    (m.set key value).get? other = m.get? other := Fields.lookup_set_ne h value m.entries

theorem update_get? (m : ObjectMap β) (key : String) (value : β) :
    Function.update m.get? key (some value) = (m.set key value).get? := by
  funext other
  by_cases h : other = key
  · rw [h, Function.update_self, get?_set_self]
  · rw [Function.update_of_ne h, get?_set_ne m h]

@[simp] theorem get?_erase_self (m : ObjectMap β) (key : String) :
    (m.erase key).get? key = none := Fields.lookup_erase_self key m.entries

theorem get?_erase_ne (m : ObjectMap β) {other : String} (h : other ≠ key) :
    (m.erase key).get? other = m.get? other := Fields.lookup_erase_ne h m.entries

theorem erase_eq_self_iff : m.erase key = m ↔ m.get? key = none := by
  constructor
  · intro h
    rw [← h, get?_erase_self]
  · intro h
    exact ext (Fields.erase_of_lookup h)

@[simp] theorem get?_mapValues (f : β → γ) (m : ObjectMap β) (key : String) :
    (m.mapValues f).get? key = (m.get? key).map f := by
  simp only [get?, mapValues]
  induction m.entries with
  | nil => rfl
  | cons entry rest ih =>
      rw [List.map_cons, Fields.lookup_cons, Fields.lookup_cons]
      split_ifs
      · rfl
      · exact ih

theorem get?_eq_some_iff {value : β} :
    m.get? key = some value ↔ (key, value) ∈ m.entries := Fields.lookup_eq_some_iff m.nodup

theorem mem_keys_iff : key ∈ m.keys ↔ ∃ value, m.get? key = some value := by
  rw [keys, ← Fields.lookup_isSome_iff, Option.isSome_iff_exists]
  rfl

theorem mem_values_iff {value : β} : value ∈ m.values ↔ ∃ key, m.get? key = some value := by
  simp [values, get?_eq_some_iff]

theorem get?_filterMap (f : String → β → Option γ) (m : ObjectMap β) (key : String) :
    (m.filterMap f).get? key = (m.get? key).bind (f key) := by
  apply Option.ext
  intro value
  rw [get?_eq_some_iff, Option.bind_eq_some_iff]
  simp only [filterMap, List.mem_filterMap, Option.map_eq_some_iff, Prod.mk.injEq]
  constructor
  · rintro ⟨entry, hentry, replaced, hreplaced, rfl, rfl⟩
    exact ⟨entry.2, get?_eq_some_iff.mpr hentry, hreplaced⟩
  · rintro ⟨original, horiginal, hvalue⟩
    exact ⟨(key, original), get?_eq_some_iff.mp horiginal, value, hvalue, rfl, rfl⟩

theorem get?_foldl_set_const {α : Type*} (key : α → String) (value : β) (items : List α)
    (built : ObjectMap β) (other : String) :
    (items.foldl (fun map item => map.set (key item) value) built).get? other =
      if other ∈ items.map key then some value else built.get? other := by
  induction items generalizing built with
  | nil => simp
  | cons item rest ih =>
      rw [List.foldl_cons, ih]
      by_cases h : other = key item
      · simp [h]
      · simp [h, get?_set_ne _ h]

theorem entries_foldl_set {α : Type*} (key : α → String) (value : α → β) (items : List α)
    (built : ObjectMap β) :
    (items.foldl (fun map item => map.set (key item) (value item)) built).entries =
      (items.map fun item => (key item, value item)).foldl
        (fun fields entry => Fields.set entry.1 entry.2 fields) built.entries := by
  induction items generalizing built with
  | nil => rfl
  | cons item rest ih => exact ih (built.set (key item) (value item))

end ObjectMap
end Qontinui
