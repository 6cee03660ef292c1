import Mathlib.Algebra.BigOperators.Group.List.Basic
import Mathlib.Data.List.Induction
import Qontinui.Base.Fields

/-!
Dictionaries that make a default value for a key they do not hold, and the sums of what
they hold: an update of one key changes a sum by what it adds at that key.
-/

namespace Qontinui

/-- A `defaultdict`: its keys in the order they were first used, each of them once. -/
structure DefaultDict (κ β : Type*) where
  items : List (κ × β)
  nodup : (items.map Prod.fst).Nodup

namespace DefaultDict

variable {κ β : Type*} [DecidableEq κ] [Inhabited β]

def empty : DefaultDict κ β := ⟨[], List.nodup_nil⟩

/-- The value at `key`; reading an absent key gives the default. -/
def get (dict : DefaultDict κ β) (key : κ) : β := (dict.items.lookup key).getD default

/-- `dict[key] = f(dict[key])`. -/
def update (dict : DefaultDict κ β) (key : κ) (f : β → β) : DefaultDict κ β where
  items := Fields.set key (f (dict.get key)) dict.items
  nodup := Fields.nodup_set key _ dict.nodup

def keys (dict : DefaultDict κ β) : List κ := dict.items.map Prod.fst

@[simp] theorem get_empty (key : κ) : (empty : DefaultDict κ β).get key = default := rfl

omit [DecidableEq κ] [Inhabited β] in
@[simp] theorem keys_empty : (empty : DefaultDict κ β).keys = [] := rfl

theorem get_update (dict : DefaultDict κ β) (key other : κ) (f : β → β) :
    (dict.update key f).get other = if other = key then f (dict.get key) else dict.get other := by
  unfold update get
  split_ifs with h
  · rw [h, Fields.lookup_set_self, Option.getD_some]
  · rw [Fields.lookup_set_ne h]

@[simp] theorem mem_keys_update {dict : DefaultDict κ β} {key other : κ} {f : β → β} :
    other ∈ (dict.update key f).keys ↔ other = key ∨ other ∈ dict.keys :=
  Fields.mem_keys_set key other _ dict.items

theorem get_of_mem {dict : DefaultDict κ β} {item : κ × β} (h : item ∈ dict.items) :
    dict.get item.1 = item.2 := by
  have hlookup : dict.items.lookup item.1 = some item.2 :=
    (Fields.lookup_eq_some_iff dict.nodup).mpr h
  rw [get, hlookup, Option.getD_some]

section Sums

variable {A : Type*} [AddCommMonoid A]

/-- The sum of what `weight` reads at each key. -/
def sum (dict : DefaultDict κ β) (weight : κ → β → A) : A :=
  (dict.items.map fun item => weight item.1 item.2).sum

theorem sum_update {dict : DefaultDict κ β} {key : κ} {f : β → β} {weight : κ → β → A}
    {amount : A} (hdefault : weight key default = 0)
    (hf : ∀ value, weight key (f value) = weight key value + amount) :
    (dict.update key f).sum weight = dict.sum weight + amount := by
  obtain ⟨items, hnodup⟩ := dict
  unfold update get sum
  induction items with
  | nil =>
      have hfirst := hf default
      rw [hdefault] at hfirst
      simpa [Fields.set] using hfirst
  | cons item rest ih =>
      obtain ⟨k, v⟩ := item
      rw [List.map_cons, List.nodup_cons] at hnodup
      simp only [Fields.set, Fields.lookup_cons]
      split_ifs with h
      · subst h
        rw [Option.getD_some, List.map_cons, List.sum_cons, List.map_cons, List.sum_cons, hf,
          add_right_comm]
      · rw [List.map_cons, List.sum_cons, List.map_cons, List.sum_cons, ih hnodup.2, add_assoc]

end Sums

section Groups

variable {α : Type*} {key : α → κ}

/-- The items of each key, in their order: `groups[key(x)].append(x)` for every item. -/
def groupBy (key : α → κ) (items : List α) : DefaultDict κ (List α) :=
  items.foldl (fun groups x => groups.update (key x) (· ++ [x])) .empty

theorem groupBy_append_singleton (items : List α) (x : α) :
    groupBy key (items ++ [x]) = (groupBy key items).update (key x) (· ++ [x]) :=
  List.foldl_append

theorem get_groupBy (items : List α) (k : κ) :
    (groupBy key items).get k = items.filter fun x => decide (key x = k) := by
  induction items using List.reverseRecOn with
  | nil => rfl
  | append_singleton items x ih =>
      rw [groupBy_append_singleton, get_update, List.filter_append]
      split_ifs with h
      · rw [← h, ih]
        simp [h]
      · rw [ih]
        simp [Ne.symm h]

theorem mem_keys_groupBy {items : List α} {k : κ} :
    k ∈ (groupBy key items).keys ↔ ∃ x ∈ items, key x = k := by
  induction items using List.reverseRecOn with
  | nil => simp [groupBy]
  | append_singleton items x ih =>
      rw [groupBy_append_singleton, mem_keys_update, ih]
      simp [or_and_right, exists_or, or_comm, eq_comm]

omit [Inhabited β] in
theorem flatMap_filter_perm {keys : List κ} (hkeys : keys.Nodup) (items : List α) :
    (keys.flatMap fun k => items.filter fun x => decide (key x = k)).Perm
      (items.filter fun x => decide (key x ∈ keys)) := by
  induction keys with
  | nil => simp
  | cons k keys ih =>
      rw [List.nodup_cons] at hkeys
      have hsplit := List.filter_append_perm (fun x => decide (key x = k))
        (items.filter fun x => decide (key x ∈ k :: keys))
      rw [List.filter_filter, List.filter_filter] at hsplit
      refine List.Perm.trans ?_ hsplit
      rw [List.flatMap_cons]
      apply List.Perm.append
      · apply List.Perm.of_eq
        apply List.filter_congr
        intro x _
        by_cases h : key x = k <;> simp [h]
      · apply (ih hkeys.2).trans
        apply List.Perm.of_eq
        apply List.filter_congr
        intro x _
        by_cases h : key x = k
        · simp [h, hkeys.1]
        · simp [h]

theorem groupBy_perm (items : List α) {keys : List κ}
    (hkeys : keys.Perm (groupBy key items).keys) :
    (keys.flatMap (groupBy key items).get).Perm items := by
  have hnodup : keys.Nodup := hkeys.nodup_iff.mpr (groupBy key items).nodup
  have hall : (items.filter fun x => decide (key x ∈ keys)) = items := by
    apply List.filter_eq_self.mpr
    intro x hx
    rw [decide_eq_true_eq, hkeys.mem_iff]
    exact mem_keys_groupBy.mpr ⟨x, hx, rfl⟩
  have hperm : (keys.flatMap fun k => items.filter fun x => decide (key x = k)).Perm _ :=
    flatMap_filter_perm hnodup items
  rw [hall] at hperm
  rwa [funext (get_groupBy items)]

end Groups

end DefaultDict

theorem measure_foldl {σ α A : Type*} [AddMonoid A] {step : σ → α → σ} (measure : σ → A)
    {amount : α → A} (hstep : ∀ s x, measure (step s x) = measure s + amount x) (s : σ)
    (items : List α) :
    measure (items.foldl step s) = measure s + (items.map amount).sum := by
  induction items generalizing s with
  | nil => simp
  | cons x rest ih => rw [List.foldl_cons, ih, hstep, List.map_cons, List.sum_cons, add_assoc]

theorem holds_foldl {σ α : Type*} {step : σ → α → σ} (P : σ → Prop) {because : α → Prop}
    (hstep : ∀ s x, P (step s x) ↔ P s ∨ because x) (s : σ) (items : List α) :
    P (items.foldl step s) ↔ P s ∨ ∃ x ∈ items, because x := by
  induction items generalizing s with
  | nil => simp
  | cons x rest ih => rw [List.foldl_cons, ih, hstep, or_assoc, List.exists_mem_cons_iff]

end Qontinui
