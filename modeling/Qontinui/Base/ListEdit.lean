import Mathlib.Data.List.InsertIdx
import Mathlib.Data.List.Nodup
import Mathlib.Data.List.Perm.Basic
import Mathlib.Tactic.SplitIfs

/-!
Positional edits of lists: insertion and removal at an index, the one-element
move built from the two, and what such edits keep. Everything is stated over
an arbitrary element type. An edit is compared with another one through the
index it reads from (`moveSource`), so that two edit sequences agree on a list
without repetitions exactly when they read the same indices.
-/

namespace Qontinui.ListEdit

variable {α : Type*}

/-- Take the element at `source` out and put it back at index `target` of the
shortened list. Nothing happens when `source` is out of range. -/
def move (xs : List α) (source target : Nat) : List α :=
  match xs[source]? with
  | none => xs
  | some item => (xs.eraseIdx source).insertIdx target item

/-- The index of the original list that position `k` of the moved list shows. -/
def moveSource (source target k : Nat) : Nat :=
  if k = target then source
  else if k < target then (if k < source then k else k + 1)
  else (if k - 1 < source then k - 1 else k)

variable {source target i : Nat}

variable (xs : List α)

theorem length_move (hs : source < xs.length) (ht : target < xs.length) :
    (move xs source target).length = xs.length := by
  simp only [move, List.getElem?_eq_getElem hs]
  rw [List.length_insertIdx_of_le_length (by rw [List.length_eraseIdx_of_lt hs]; omega),
    List.length_eraseIdx_of_lt hs]
  omega

theorem getElem?_move (hs : source < xs.length) (ht : target < xs.length) (k : Nat) :
    (move xs source target)[k]? = xs[moveSource source target k]? := by
  have hlen : (xs.eraseIdx source).length = xs.length - 1 := List.length_eraseIdx_of_lt hs
  simp only [move, List.getElem?_eq_getElem hs, List.getElem?_insertIdx,
    List.getElem?_eraseIdx, moveSource]
  by_cases hk : k = target
  · rw [if_neg (by omega), if_pos hk, if_pos (by omega), if_pos hk,
      List.getElem?_eq_getElem hs]
  · by_cases hlt : k < target
    · simp only [hk, hlt, if_true, if_false]
      split <;> rfl
    · simp only [hk, hlt, if_false]
      split
      · rfl
      · rw [show k - 1 + 1 = k by omega]

theorem moveSource_self (source k : Nat) : moveSource source source k = k := by
  unfold moveSource
  split_ifs <;> omega

theorem move_self (h : i < xs.length) : move xs i i = xs := by
  apply List.ext_getElem?
  intro k
  rw [getElem?_move xs h h, moveSource_self]

theorem moveSource_injective {j : Nat} (h : moveSource source target i = moveSource source target j) :
    i = j := by
  unfold moveSource at h
  split_ifs at h <;> omega

theorem moveSource_reverse (source target k : Nat) :
    moveSource source target (moveSource target source k) = k := by
  unfold moveSource
  split_ifs <;> omega

theorem eraseIdx_eraseIdx_of_le {j : Nat} (h : i ≤ j) :
    (xs.eraseIdx (j + 1)).eraseIdx i = (xs.eraseIdx i).eraseIdx j := by
  apply List.ext_getElem?
  intro k
  simp only [List.getElem?_eraseIdx]
  split_ifs <;> first | rfl | omega

theorem mem_replace_of_ne [DecidableEq α] {xs : List α} {a b c : α} (h : c ∈ xs) (hne : c ≠ a) :
    c ∈ xs.replace a b := by
  induction xs with
  | nil => cases h
  | cons x xs ih =>
      rw [List.replace_cons]
      split
      · next heq =>
          rw [beq_iff_eq] at heq
          subst heq
          exact List.mem_cons_of_mem b ((List.mem_cons.mp h).resolve_left hne)
      · rcases List.mem_cons.mp h with rfl | hrest
        · exact List.mem_cons_self
        · exact List.mem_cons_of_mem x (ih hrest)

theorem mem_replace_self_iff [DecidableEq α] {xs : List α} {a b : α} :
    a ∈ xs.replace a b ↔ (a = b ∧ a ∈ xs) ∨ 1 < xs.count a := by
  induction xs with
  | nil => simp
  | cons x xs ih =>
      by_cases hx : a = x
      · subst hx
        rw [List.replace_cons_self, List.mem_cons, List.count_cons_self]
        have hcount : a ∈ xs ↔ 1 < xs.count a + 1 := by
          rw [← List.count_pos_iff]
          omega
        rw [← hcount]
        simp
      · rw [List.replace_cons, beq_eq_false_iff_ne.mpr hx, List.mem_cons, ih,
          List.count_cons_of_ne (Ne.symm hx)]
        simp [hx]

section Reads

variable {left right base : List α} {read read' : Nat → Nat}

theorem eq_of_reads (hlength : left.length = right.length)
    (hleft : ∀ k < left.length, left[k]? = base[read k]?)
    (hright : ∀ k < left.length, right[k]? = base[read' k]?)
    (h : ∀ k < left.length, read k = read' k) : left = right := by
  apply List.ext_getElem?
  intro k
  rcases Nat.lt_or_ge k left.length with hk | hk
  · rw [hleft k hk, hright k hk, h k hk]
  · rw [List.getElem?_eq_none hk, List.getElem?_eq_none (by omega)]

theorem reads_of_eq (hnodup : base.Nodup)
    (hleft : ∀ k < left.length, left[k]? = base[read k]?)
    (hright : ∀ k < left.length, right[k]? = base[read' k]?) (h : left = right) :
    ∀ k < left.length, read k = read' k := by
  intro k hk
  have hshown := hleft k hk
  have hrange : read k < base.length := by
    by_contra hge
    rw [List.getElem?_eq_getElem hk, List.getElem?_eq_none (by omega)] at hshown
    cases hshown
  apply (List.getElem?_inj hrange hnodup).mp
  rw [← hshown, ← hright k hk, h]

end Reads

/-- The indices other than `gap`, counted from 0. -/
def skip (gap k : Nat) : Nat := if k < gap then k else k + 1

theorem getElem?_eraseIdx_skip (gap k : Nat) : (xs.eraseIdx gap)[k]? = xs[skip gap k]? := by
  rw [List.getElem?_eraseIdx, skip]
  split <;> rfl

theorem getElem?_insertIdx_skip (a : α) (gap k : Nat) :
    (xs.insertIdx gap a)[skip gap k]? = xs[k]? := by
  rw [skip, List.getElem?_insertIdx]
  by_cases hk : k < gap
  · rw [if_pos hk, if_pos hk]
  · rw [if_neg hk, if_neg (by omega), if_neg (by omega), Nat.add_sub_cancel]

theorem getElem?_insertIdx_gap (a : α) {gap : Nat} (h : gap ≤ xs.length) :
    (xs.insertIdx gap a)[gap]? = some a := by
  rw [List.getElem?_insertIdx, if_neg (by omega), if_pos rfl, if_pos (by omega)]

theorem set_insertIdx_skip (a b : α) {gap : Nat} (h : gap ≤ xs.length) (i : Nat) :
    (xs.insertIdx gap a).set (skip gap i) b = (xs.set i b).insertIdx gap a := by
  apply List.ext_getElem?
  intro k
  simp only [List.getElem?_set, List.getElem?_insertIdx, List.length_insertIdx_of_le_length h,
    List.length_set]
  unfold skip
  split_ifs <;> first | rfl | omega

theorem set_eraseIdx_eq_iff {xs : List α} {p : Nat} {x y e e' : α} (he : xs[i]? = some e)
    (hx : (xs.eraseIdx p)[i]? = some x) :
    (xs.eraseIdx p).set i y = (xs.set i e').eraseIdx p ↔
      (i < p ∧ y = e') ∨ (i = p ∧ y = x) ∨ (p < i ∧ y = x ∧ e' = e) := by
  have hlt := (List.getElem?_eq_some_iff.mp he).1
  have hlt' := (List.getElem?_eq_some_iff.mp hx).1
  constructor
  · intro h
    have hget := fun k : Nat => congrArg (fun zs : List α => zs[k]?) h
    simp only [List.getElem?_set, List.getElem?_eraseIdx] at hget
    have hi := hget i
    have hi' := hget (i - 1)
    rw [List.getElem?_eraseIdx] at hx
    clear h hget
    grind
  · intro h
    apply List.ext_getElem?
    intro k
    simp only [List.getElem?_set, List.getElem?_eraseIdx]
    rw [List.getElem?_eraseIdx] at hx
    grind

/-- The same for a move: the write follows the element only when the move keeps
the index. -/
theorem set_move_eq_iff {xs : List α} {f t : Nat} {x y e e' : α} (hf : f < xs.length)
    (ht : t < xs.length) (he : xs[i]? = some e) (hx : (move xs f t)[i]? = some x) :
    (move xs f t).set i y = move (xs.set i e') f t ↔
      (moveSource f t i = i ∧ y = e') ∨ (moveSource f t i ≠ i ∧ y = x ∧ e' = e) := by
  have hlt := (List.getElem?_eq_some_iff.mp he).1
  have hlength := length_move xs hf ht
  have hread : ∀ k, ((move xs f t).set i y)[k]? =
      if i = k then some y else xs[moveSource f t k]? := by
    intro k
    rw [List.getElem?_set, hlength, getElem?_move xs hf ht]
    split_ifs <;> rfl
  have hread' : ∀ k, (move (xs.set i e') f t)[k]? =
      if i = moveSource f t k then some e' else xs[moveSource f t k]? := by
    intro k
    rw [getElem?_move _ (by simpa using hf) (by simpa using ht), List.getElem?_set]
    split_ifs <;> rfl
  rw [getElem?_move xs hf ht] at hx
  constructor
  · intro h
    have hget := fun k : Nat => congrArg (fun zs : List α => zs[k]?) h
    simp only [hread, hread'] at hget
    have hi := hget i
    have hj := hget (moveSource t f i)
    rw [moveSource_reverse] at hj
    rw [if_pos rfl] at hi
    rcases eq_or_ne (moveSource f t i) i with hfix | hmoved
    · rw [if_pos hfix.symm] at hi
      exact Or.inl ⟨hfix, Option.some.inj hi⟩
    · have hne : i ≠ moveSource t f i := by
        intro heq
        apply hmoved
        calc moveSource f t i = moveSource f t (moveSource t f i) := by rw [← heq]
          _ = i := moveSource_reverse f t i
      rw [if_neg hmoved.symm, hx] at hi
      rw [if_neg hne, if_pos rfl, he] at hj
      exact Or.inr ⟨hmoved, Option.some.inj hi, (Option.some.inj hj).symm⟩
  · intro h
    apply List.ext_getElem?
    intro k
    rw [hread, hread']
    rcases h with ⟨hfix, rfl⟩ | ⟨_, rfl, rfl⟩
    · have hiff : i = k ↔ i = moveSource f t k := by
        constructor
        · rintro rfl
          exact hfix.symm
        · intro heq
          exact moveSource_injective (hfix.trans heq)
      simp only [hiff]
    · rcases eq_or_ne i k with rfl | hk
      · rw [if_pos rfl, ← hx]
        split
        · next heq => rw [← heq, he]
        · rfl
      · rw [if_neg hk]
        split
        · next heq => rw [← heq, he]
        · rfl

/-- The elements whose index is not marked as gone, in their original order. -/
def survivors (gone : Nat → Bool) (xs : List α) : List α :=
  ((xs.zipIdx).filter (fun entry => !gone entry.2)).map Prod.fst

theorem survivors_cons (gone : Nat → Bool) (x : α) (xs : List α) :
    survivors gone (x :: xs) =
      (if gone 0 then [] else [x]) ++ survivors (fun i => gone (i + 1)) xs := by
  have hshift : ((xs.zipIdx 1).filter (fun entry => !gone entry.2)).map Prod.fst =
      survivors (fun i => gone (i + 1)) xs := by
    rw [List.zipIdx_eq_map_add, List.filter_map, List.map_map]
    simp [survivors, Function.comp_def, Nat.add_comm 1]
  cases hgone : gone 0 <;>
    simp [survivors, List.zipIdx_cons, hgone, hshift]

theorem survivors_none : survivors (fun _ => false) xs = xs := by
  induction xs with
  | nil => rfl
  | cons x xs ih => rw [survivors_cons, ih]; rfl

theorem survivors_one (p : Nat) : survivors (fun i => p == i) xs = xs.eraseIdx p := by
  induction xs generalizing p with
  | nil => rfl
  | cons x xs ih =>
      rw [survivors_cons]
      cases p with
      | zero => simpa using survivors_none xs
      | succ p => simpa using ih p

theorem survivors_two {p q : Nat} (h : p < q) :
    survivors (fun i => p == i || q == i) xs = (xs.eraseIdx q).eraseIdx p := by
  induction xs generalizing p q with
  | nil => rfl
  | cons x xs ih =>
      obtain ⟨q, rfl⟩ : ∃ r, q = r + 1 := ⟨q - 1, by omega⟩
      rw [survivors_cons]
      cases p with
      | zero => simpa using survivors_one xs q
      | succ p =>
          have hpq : p < q := by omega
          simpa using ih hpq

/-- `result` holds exactly the elements of `kept`, in the order of `kept`,
together with the elements of `added`. -/
structure Merges (kept added result : List α) : Prop where
  order : kept.Sublist result
  exact : result.Perm (kept ++ added)

theorem Merges.refl : Merges xs [] xs :=
  ⟨List.Sublist.refl xs, by simp⟩

theorem Merges.insertIdx {kept added result : List α} (h : Merges kept added result)
    (a : α) {i : Nat} (hi : i ≤ result.length) :
    Merges kept (a :: added) (result.insertIdx i a) := by
  refine ⟨h.order.trans (List.sublist_insertIdx result i a), ?_⟩
  calc (result.insertIdx i a).Perm (a :: result) := List.perm_insertIdx a result hi
    _ |>.Perm (a :: (kept ++ added)) := h.exact.cons a
    _ |>.Perm (kept ++ a :: added) := List.perm_middle.symm

theorem Merges.perm {kept added added' result : List α} (h : Merges kept added result)
    (hperm : added.Perm added') : Merges kept added' result :=
  ⟨h.order, h.exact.trans (hperm.append_left kept)⟩

end Qontinui.ListEdit
