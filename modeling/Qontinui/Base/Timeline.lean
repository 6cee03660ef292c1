import Mathlib.Logic.Function.Iterate
import Mathlib.Tactic.SplitIfs

/-!
Linear undo histories: a present value between the values before it and the
values that an undo took back. A new value drops what was taken back, and the
oldest value once there are more values beside it than a limit allows.
-/

namespace Qontinui

/-- The latest value of the past and the next value of the future come first. -/
structure Timeline (α : Type*) (limit : Nat) where
  past : List α
  present : α
  future : List α
  within : past.length + future.length ≤ limit

namespace Timeline

variable {α : Type*} {limit : Nat} {t : Timeline α limit}

def start (limit : Nat) (x : α) : Timeline α limit := ⟨[], x, [], Nat.zero_le limit⟩

/-- A new present over what the limit leaves of the past. -/
def record (t : Timeline α limit) (x : α) : Timeline α limit where
  past := (t.present :: t.past).take limit
  present := x
  future := []
  within := List.length_take_le limit _

def undo : Timeline α limit → Timeline α limit
  | ⟨[], present, future, h⟩ => ⟨[], present, future, h⟩
  | ⟨x :: past, present, future, h⟩ => ⟨past, x, present :: future, by simp at h ⊢; omega⟩

def redo : Timeline α limit → Timeline α limit
  | ⟨past, present, [], h⟩ => ⟨past, present, [], h⟩
  | ⟨past, present, x :: future, h⟩ => ⟨present :: past, x, future, by simp at h ⊢; omega⟩

def shown (t : Timeline α limit) : List α := t.present :: t.past

def entries (t : Timeline α limit) : List α := t.past.reverse ++ t.present :: t.future

theorem length_entries (t : Timeline α limit) :
    t.entries.length = t.past.length + t.future.length + 1 := by
  simp [entries]
  omega

theorem getElem?_entries (t : Timeline α limit) : t.entries[t.past.length]? = some t.present := by
  simp [entries]

theorem take_entries (t : Timeline α limit) :
    t.entries.take (t.past.length + 1) = t.shown.reverse := by
  have h : t.past.length + 1 = t.past.reverse.length + 1 := by simp
  rw [h, entries, List.take_length_add_append]
  simp [shown]

theorem exists_of_getElem? (limit : Nat) {xs : List α} {index : Nat} {x : α}
    (h : xs[index]? = some x) (hlength : xs.length ≤ limit + 1) :
    ∃ t : Timeline α limit, t.entries = xs ∧ t.past.length = index ∧ t.present = x := by
  obtain ⟨hlt, rfl⟩ := List.getElem?_eq_some_iff.mp h
  refine ⟨⟨(xs.take index).reverse, xs[index], xs.drop (index + 1), ?_⟩, ?_, ?_, rfl⟩
  · simp
    omega
  · simp [entries]
  · simp
    omega

@[simp] theorem entries_undo (t : Timeline α limit) : t.undo.entries = t.entries := by
  obtain ⟨past, present, future, h⟩ := t
  cases past with
  | nil => rfl
  | cons x past => simp [undo, entries]

@[simp] theorem entries_redo (t : Timeline α limit) : t.redo.entries = t.entries := by
  obtain ⟨past, present, future, h⟩ := t
  cases future with
  | nil => rfl
  | cons x future => simp [redo, entries]

@[simp] theorem past_undo (t : Timeline α limit) : t.undo.past = t.past.tail := by
  obtain ⟨past, present, future, h⟩ := t
  cases past <;> rfl

theorem length_past_redo (h : t.future ≠ []) : t.redo.past.length = t.past.length + 1 := by
  obtain ⟨past, present, future, hwithin⟩ := t
  cases future with
  | nil => exact absurd rfl h
  | cons x future => rfl

theorem shown_undo (h : t.past ≠ []) : t.undo.shown = t.shown.tail := by
  obtain ⟨past, present, future, hwithin⟩ := t
  cases past with
  | nil => exact absurd rfl h
  | cons x past => rfl

theorem redo_undo (h : t.past ≠ []) : t.undo.redo = t := by
  obtain ⟨past, present, future, hwithin⟩ := t
  cases past with
  | nil => exact absurd rfl h
  | cons x past => rfl

theorem past_undo_iterate (k : Nat) (t : Timeline α limit) :
    (undo^[k] t).past = t.past.drop k := by
  induction k with
  | zero => rfl
  | succ k ih => rw [Function.iterate_succ_apply', past_undo, ih, List.tail_drop]

theorem past_undo_iterate_ne {k : Nat} (h : k < t.past.length) : (undo^[k] t).past ≠ [] := by
  rw [past_undo_iterate]
  simpa using h

theorem shown_undo_iterate {k : Nat} (h : k ≤ t.past.length) :
    (undo^[k] t).shown = t.shown.drop k := by
  induction k with
  | zero => rfl
  | succ k ih =>
      rw [Function.iterate_succ_apply', shown_undo (past_undo_iterate_ne h), ih (by omega),
        List.tail_drop]

theorem redo_iterate_undo_iterate {k : Nat} (h : k ≤ t.past.length) :
    redo^[k] (undo^[k] t) = t := by
  induction k with
  | zero => rfl
  | succ k ih =>
      rw [Function.iterate_succ_apply redo, Function.iterate_succ_apply' undo,
        redo_undo (past_undo_iterate_ne h)]
      exact ih (by omega)

@[simp] theorem length_past_record (t : Timeline α limit) (x : α) :
    (t.record x).past.length = min limit (t.past.length + 1) := by
  simp [record]

theorem entries_record (t : Timeline α limit) (x : α) :
    (t.record x).entries =
      if limit < t.past.length + 1 then (t.shown.reverse ++ [x]).drop 1
      else t.shown.reverse ++ [x] := by
  have hentries : (t.record x).entries = (t.shown.take limit).reverse ++ [x] := rfl
  have hlength : t.shown.length = t.past.length + 1 := rfl
  rw [hentries]
  split_ifs with h
  · have hwithin := t.within
    have htake : t.shown.take limit = t.shown.dropLast := by
      rw [List.dropLast_eq_take, hlength]
      congr 1
      omega
    rw [htake, List.drop_append_of_le_length (by simp; omega), List.drop_one, List.tail_reverse]
  · rw [List.take_of_length_le (by omega)]

theorem shown_record (t : Timeline α limit) (x : α) :
    (t.record x).shown = (x :: t.shown).take (limit + 1) := rfl

/-- An array of values and an index of it, after a new value behind the index; the
oldest value goes where there are more than `size`. -/
def pushEntry (size : Nat) (entries : List α) (index : Int) (x : α) : List α × Int :=
  let newEntries := entries.take (index + 1).toNat ++ [x]
  if newEntries.length > size then (newEntries.drop 1, index) else (newEntries, index + 1)

theorem mem_pushEntry {size : Nat} {entries : List α} {index : Int} {x y : α}
    (h : y ∈ (pushEntry size entries index x).1) : y ∈ entries ∨ y = x := by
  have hnew : y ∈ entries.take (index + 1).toNat ++ [x] := by
    unfold pushEntry at h
    dsimp only at h
    split at h
    · exact List.mem_of_mem_drop h
    · exact h
  rcases List.mem_append.mp hnew with hold | hlast
  · exact .inl (List.mem_of_mem_take hold)
  · exact .inr (List.mem_singleton.mp hlast)

theorem getElem?_pushEntry {size : Nat} {entries : List α} {index : Int} (hsize : 0 < size)
    (hlow : -1 ≤ index) (hrange : index < entries.length) (x : α) :
    0 ≤ (pushEntry size entries index x).2 ∧
      (pushEntry size entries index x).1[(pushEntry size entries index x).2.toNat]? = some x := by
  have hlength : (entries.take (index + 1).toNat).length = (index + 1).toNat := by
    rw [List.length_take]
    omega
  simp only [pushEntry]
  split
  · next hfull =>
      rw [List.length_append, hlength, List.length_singleton] at hfull
      have hindex : 0 ≤ index := by omega
      refine ⟨hindex, ?_⟩
      rw [List.getElem?_drop, List.getElem?_append_right (by omega), hlength,
        show 1 + index.toNat - (index + 1).toNat = 0 by omega]
      rfl
  · refine ⟨by omega, ?_⟩
    rw [List.getElem?_append_right (by omega), hlength, Nat.sub_self]
    rfl

theorem pushEntry_nil (limit : Nat) (x : α) :
    pushEntry (limit + 1) [] (-1) x = ((start limit x).entries, 0) := by
  simp [pushEntry, start, entries]

theorem pushEntry_entries (t : Timeline α limit) (x : α) :
    pushEntry (limit + 1) t.entries t.past.length x =
      ((t.record x).entries, ((t.record x).past.length : Int)) := by
  have htake : ((t.past.length : Int) + 1).toNat = t.past.length + 1 := by omega
  have hlength : (t.shown.reverse ++ [x]).length = t.past.length + 2 := by simp [shown]
  have hwithin := t.within
  simp only [pushEntry, htake, take_entries, hlength, entries_record, length_past_record]
  by_cases hfull : limit < t.past.length + 1
  · rw [if_pos (by omega), if_pos hfull, Nat.min_eq_left (by omega)]
    congr 1
    omega
  · rw [if_neg (by omega), if_neg hfull, Nat.min_eq_right (by omega)]
    rfl

theorem shown_foldl_record (t : Timeline α limit) (xs : List α) :
    (xs.foldl record t).shown = (xs.reverse ++ t.shown).take (limit + 1) := by
  induction xs generalizing t with
  | nil =>
      rw [List.foldl_nil, List.reverse_nil, List.nil_append, List.take_of_length_le]
      have := t.within
      simp only [shown, List.length_cons]
      omega
  | cons x xs ih =>
      rw [List.foldl_cons, ih, shown_record, List.reverse_cons, List.append_assoc,
        List.singleton_append, List.take_append, List.take_take, List.take_append,
        Nat.min_eq_left (Nat.sub_le _ _)]

theorem undo_foldl_record (t : Timeline α limit) (xs : List α) (hxs : xs.length ≤ limit) :
    (undo^[xs.length] (xs.foldl record t)).present = t.present ∧
      redo^[xs.length] (undo^[xs.length] (xs.foldl record t)) = xs.foldl record t := by
  have hshown := shown_foldl_record t xs
  have hpast : xs.length ≤ (xs.foldl record t).past.length := by
    have hlength := congrArg List.length hshown
    simp only [shown, List.length_cons, List.length_take, List.length_append,
      List.length_reverse] at hlength
    omega
  refine ⟨?_, redo_iterate_undo_iterate hpast⟩
  have hhead := congrArg List.head? (shown_undo_iterate hpast)
  rw [hshown, List.head?_drop, List.getElem?_take_of_lt (by omega),
    List.getElem?_append_right (by simp)] at hhead
  simpa [shown] using hhead

end Timeline
end Qontinui
