import Mathlib.Data.List.Basic
import Mathlib.Tactic.SplitIfs

/-!
Association lists that keep the order of their keys, the way a JavaScript
object keeps the order of its properties: writing an existing key replaces its
value in place, writing a new key appends it.
-/

namespace Qontinui.Fields

variable {κ β : Type*} [DecidableEq κ]

/-- Write `value` at `key`. -/
def set (key : κ) (value : β) : List (κ × β) → List (κ × β)
  | [] => [(key, value)]
  | (k, v) :: rest => if k = key then (key, value) :: rest else (k, v) :: set key value rest

/-- Remove `key`. -/
def erase (key : κ) (fields : List (κ × β)) : List (κ × β) :=
  fields.filter (fun field => field.1 ≠ key)

theorem lookup_cons (key k : κ) (v : β) (rest : List (κ × β)) :
    ((k, v) :: rest).lookup key = if k = key then some v else rest.lookup key := by
  by_cases h : k = key
  · subst h; simp
  · have h' : (key == k) = false := by simpa using Ne.symm h
    simp [List.lookup_cons, h, h']

@[simp] theorem lookup_set_self (key : κ) (value : β) (fields : List (κ × β)) :
    (set key value fields).lookup key = some value := by
  induction fields with
  | nil => simp [set]
  | cons field rest ih =>
      obtain ⟨k, v⟩ := field
      by_cases h : k = key
      · simp [set, h]
      · simpa [set, h, lookup_cons] using ih

variable {key : κ} {fields : List (κ × β)} {value : β} {other : κ}

theorem lookup_set_ne (h : other ≠ key) (value : β) (fields : List (κ × β)) :
    (set key value fields).lookup other = fields.lookup other := by
  induction fields with
  | nil => simp [set, lookup_cons, Ne.symm h]
  | cons field rest ih =>
      obtain ⟨k, v⟩ := field
      by_cases hk : k = key
      · subst hk
        simp [set, lookup_cons, Ne.symm h]
      · simp [set, hk, lookup_cons, ih]

@[simp] theorem set_set (key : κ) (first second : β) (fields : List (κ × β)) :
    set key second (set key first fields) = set key second fields := by
  induction fields with
  | nil => simp [set]
  | cons field rest ih =>
      obtain ⟨k, v⟩ := field
      by_cases h : k = key <;> simp [set, h, ih]

theorem set_of_lookup (h : fields.lookup key = some value) : set key value fields = fields := by
  induction fields with
  | nil => cases h
  | cons field rest ih =>
      obtain ⟨k, v⟩ := field
      rw [lookup_cons] at h
      by_cases hk : k = key
      · rw [if_pos hk] at h
        cases h
        simp [set, hk]
      · rw [if_neg hk] at h
        simp [set, hk, ih h]

theorem set_comm_of_lookup (hne : key ≠ other) (hkey : (fields.lookup key).isSome)
    (value value' : β) :
    set key value (set other value' fields) = set other value' (set key value fields) := by
  induction fields with
  | nil => cases hkey
  | cons field rest ih =>
      obtain ⟨k, v⟩ := field
      rw [lookup_cons] at hkey
      by_cases hk : k = key
      · have ho : k ≠ other := fun h => hne (hk.symm.trans h)
        subst hk
        simp [set, ho]
      · rw [if_neg hk] at hkey
        by_cases ho : k = other
        · subst ho
          simp [set, hk]
        · simp [set, hk, ho, ih hkey]

@[simp] theorem lookup_erase_self (key : κ) (fields : List (κ × β)) :
    (erase key fields).lookup key = none := by
  induction fields with
  | nil => rfl
  | cons field rest ih =>
      obtain ⟨k, v⟩ := field
      by_cases h : k = key
      · simpa [erase, h] using ih
      · simpa [erase, h, lookup_cons] using ih

theorem lookup_erase_ne (h : other ≠ key) (fields : List (κ × β)) :
    (erase key fields).lookup other = fields.lookup other := by
  induction fields with
  | nil => rfl
  | cons field rest ih =>
      obtain ⟨k, v⟩ := field
      by_cases hk : k = key
      · subst hk
        simpa [erase, lookup_cons, Ne.symm h] using ih
      · simp only [erase, ne_eq, decide_not] at ih
        simp [erase, hk, lookup_cons, ih]

theorem erase_comm (key other : κ) (fields : List (κ × β)) :
    erase other (erase key fields) = erase key (erase other fields) := by
  simp only [erase, List.filter_filter]
  congr 1
  funext field
  exact Bool.and_comm _ _

theorem erase_set_of_ne (hne : other ≠ key) (value : β) (fields : List (κ × β)) :
    erase other (set key value fields) = set key value (erase other fields) := by
  induction fields with
  | nil => simp [set, erase, hne.symm]
  | cons field rest ih =>
      obtain ⟨k, v⟩ := field
      simp only [erase, ne_eq, decide_not] at ih
      by_cases hk : k = key
      · subst hk
        simp [set, erase, hne.symm]
      · by_cases ho : k = other
        · subst ho
          simp [set, erase, hk, ih]
        · simp [set, erase, hk, ho, ih]

theorem erase_set_self (key : κ) (value : β) (fields : List (κ × β)) :
    erase key (set key value fields) = erase key fields := by
  induction fields with
  | nil => simp [set, erase]
  | cons field rest ih =>
      obtain ⟨k, v⟩ := field
      simp only [erase, ne_eq, decide_not] at ih
      by_cases h : k = key <;> simp [set, erase, h, ih]

theorem erase_of_lookup (h : fields.lookup key = none) : erase key fields = fields := by
  induction fields with
  | nil => rfl
  | cons field rest ih =>
      obtain ⟨k, v⟩ := field
      rw [lookup_cons] at h
      by_cases hk : k = key
      · rw [if_pos hk] at h; cases h
      · rw [if_neg hk] at h
        have hrest := ih h
        simp only [erase, ne_eq, decide_not] at hrest
        simp [erase, hk, hrest]

theorem lookup_eq_some_iff (hnodup : (fields.map Prod.fst).Nodup) :
    fields.lookup key = some value ↔ (key, value) ∈ fields := by
  induction fields with
  | nil => simp
  | cons field rest ih =>
      obtain ⟨k, v⟩ := field
      obtain ⟨hk, hrest⟩ := List.nodup_cons.mp hnodup
      rw [lookup_cons, List.mem_cons]
      by_cases h : k = key
      · subst h
        have hnot : (k, value) ∉ rest := fun hmem =>
          hk (List.mem_map.mpr ⟨(k, value), hmem, rfl⟩)
        simp [hnot, eq_comm]
      · simp [h, Ne.symm h, ih hrest]

theorem mem_of_lookup (h : fields.lookup key = some value) : (key, value) ∈ fields := by
  induction fields with
  | nil => cases h
  | cons field rest ih =>
      obtain ⟨k, v⟩ := field
      rw [lookup_cons] at h
      split at h
      · next hk =>
          cases h
          exact hk ▸ List.mem_cons_self
      · exact List.mem_cons_of_mem _ (ih h)

theorem lookup_isSome_iff (key : κ) (fields : List (κ × β)) :
    (fields.lookup key).isSome ↔ key ∈ fields.map Prod.fst := by
  induction fields with
  | nil => simp
  | cons field rest ih =>
      obtain ⟨k, v⟩ := field
      rw [lookup_cons, List.map_cons, List.mem_cons]
      by_cases h : k = key
      · simp [h]
      · simp [h, Ne.symm h, ih]

theorem set_of_absent (h : fields.lookup key = none) :
    set key value fields = fields ++ [(key, value)] := by
  induction fields with
  | nil => rfl
  | cons field rest ih =>
      obtain ⟨k, v⟩ := field
      rw [lookup_cons] at h
      by_cases hk : k = key
      · rw [if_pos hk] at h; cases h
      · rw [if_neg hk] at h
        rw [set, if_neg hk, ih h, List.cons_append]

@[simp] theorem mem_erase {field : κ × β} :
    field ∈ erase key fields ↔ field ∈ fields ∧ field.1 ≠ key := by
  simp [erase]

theorem nodup_erase (key : κ) (hnodup : (fields.map Prod.fst).Nodup) :
    ((erase key fields).map Prod.fst).Nodup :=
  hnodup.sublist (List.filter_sublist.map _)

theorem mem_of_mem_set {field : κ × β} (h : field ∈ set key value fields) :
    field ∈ fields ∨ field = (key, value) := by
  induction fields with
  | nil => exact .inr (List.mem_singleton.mp h)
  | cons other rest ih =>
      simp only [set] at h
      split at h
      · exact (List.mem_cons.mp h).symm.imp_left (List.mem_cons_of_mem _)
      · rcases List.mem_cons.mp h with heq | hrest
        · exact .inl (heq ▸ List.mem_cons_self)
        · exact (ih hrest).imp_left (List.mem_cons_of_mem _)

theorem mem_keys_set (key other : κ) (value : β) (fields : List (κ × β)) :
    other ∈ (set key value fields).map Prod.fst ↔ other = key ∨ other ∈ fields.map Prod.fst := by
  rw [← lookup_isSome_iff, ← lookup_isSome_iff]
  by_cases h : other = key
  · simp [h]
  · simp [lookup_set_ne h, h]

theorem nodup_set (key : κ) (value : β) (hnodup : (fields.map Prod.fst).Nodup) :
    ((set key value fields).map Prod.fst).Nodup := by
  induction fields with
  | nil => simp [set]
  | cons field rest ih =>
      obtain ⟨k, v⟩ := field
      obtain ⟨hk, hrest⟩ := List.nodup_cons.mp hnodup
      by_cases h : k = key
      · subst h
        simpa [set] using hnodup
      · rw [set, if_neg h, List.map_cons, List.nodup_cons]
        refine ⟨fun hmem => ?_, ih hrest⟩
        rcases (mem_keys_set key k value rest).mp hmem with heq | hin
        · exact h heq
        · exact hk hin

theorem foldl_set_of_nodup {entries : List (κ × β)} (h : ((fields ++ entries).map Prod.fst).Nodup) :
    entries.foldl (fun fields entry => set entry.1 entry.2 fields) fields = fields ++ entries := by
  induction entries generalizing fields with
  | nil => exact (List.append_nil _).symm
  | cons entry rest ih =>
      have hsplit : fields ++ entry :: rest = fields ++ [entry] ++ rest := by simp
      have habsent : fields.lookup entry.1 = none := by
        rw [← Option.not_isSome_iff_eq_none, lookup_isSome_iff]
        intro hmem
        rw [List.map_append, List.map_cons] at h
        exact (List.nodup_append.mp h).2.2 _ hmem _ List.mem_cons_self rfl
      rw [List.foldl_cons, set_of_absent habsent, ih (hsplit ▸ h), hsplit]

theorem lookup_foldl_set [BEq κ] [LawfulBEq κ] (key : κ) (entries fields : List (κ × β)) :
    (entries.foldl (fun fields entry => set entry.1 entry.2 fields) fields).lookup key =
      ((entries.reverse.find? fun entry => entry.1 = key).map Prod.snd).or
        (fields.lookup key) := by
  obtain rfl : ‹BEq κ› = instBEqOfDecidableEq := lawful_beq_subsingleton _ _
  induction entries generalizing fields with
  | nil => rfl
  | cons entry rest ih =>
      rw [List.foldl_cons, ih, List.reverse_cons, List.find?_append]
      by_cases h : entry.1 = key
      · subst h
        cases hrest : rest.reverse.find? fun other => other.1 = entry.1 <;> simp
      · simp [h, lookup_set_ne (Ne.symm h)]

end Qontinui.Fields
