import Mathlib.Data.List.Forall2
import Mathlib.Data.List.Induction
import Mathlib.Data.List.Nodup
import Mathlib.Tactic.SplitIfs

/-!
Lists whose elements are numbered by their positions: a map whose callback also reads and
writes a state, the last position that was written for a name, and names made fresh by a
position at their end.
-/

namespace Qontinui.Numbered

section Map

variable {α β σ ε : Type*} {f : Nat → σ → α → β × σ}

/-- `xs.map((x, i) => …)`, numbered from `i`, with a callback that reads and writes a state. -/
def mapIndexed (f : Nat → σ → α → β × σ) : Nat → σ → List α → List β × σ
  | _, s, [] => ([], s)
  | i, s, x :: rest =>
      ((f i s x).1 :: (mapIndexed f (i + 1) (f i s x).2 rest).1,
        (mapIndexed f (i + 1) (f i s x).2 rest).2)

theorem getElem?_mapIndexed (xs : List α) (i : Nat) (s : σ) (k : Nat) :
    (mapIndexed f i s xs).1[k]? =
      xs[k]?.map fun x => (f (i + k) (mapIndexed f i s (xs.take k)).2 x).1 := by
  induction xs generalizing i s k with
  | nil => simp [mapIndexed]
  | cons x rest ih =>
      cases k with
      | zero => rfl
      | succ k =>
          rw [mapIndexed, List.getElem?_cons_succ, ih, List.getElem?_cons_succ, List.take_succ_cons,
            mapIndexed, Nat.add_right_comm, Nat.add_assoc]

theorem mapIndexed_state (f : Nat → σ → α → β × σ) (R : σ → List ε → Prop)
    (written : α × Nat → List ε)
    (hstep : ∀ i s x entries, R s entries → R (f i s x).2 (entries ++ written (x, i)))
    (xs : List α) (i : Nat) {s : σ} {entries : List ε} (h : R s entries) :
    R (mapIndexed f i s xs).2 (entries ++ (xs.zipIdx i).flatMap written) := by
  induction xs generalizing i s entries with
  | nil => simpa [mapIndexed] using h
  | cons x rest ih =>
      rw [List.zipIdx_cons, List.flatMap_cons, ← List.append_assoc]
      exact ih (i + 1) (hstep i s x entries h)

theorem zipIdx_take_succ {xs : List α} {j : Nat} {x : α} (h : xs[j]? = some x) :
    (xs.take (j + 1)).zipIdx = (xs.take j).zipIdx ++ [(x, j)] := by
  have hlength : (xs.take j).length = j := by
    rw [List.length_take, Nat.min_eq_left (Nat.le_of_lt (List.getElem?_eq_some_iff.mp h).1)]
  rw [List.take_add_one, h, Option.toList_some, List.zipIdx_append, hlength, Nat.zero_add]
  rfl

variable {R : α → β → Prop}

theorem forall₂_mapIndexed (h : ∀ i s x, R x (f i s x).1) (xs : List α) (i : Nat) (s : σ) :
    List.Forall₂ R xs (mapIndexed f i s xs).1 := by
  induction xs generalizing i s with
  | nil => exact .nil
  | cons x rest ih => exact .cons (h i s x) (ih _ _)

theorem getElem?_of_forall₂ {xs : List α} {ys : List β} (h : List.Forall₂ R xs ys) {i : Nat} {x : α}
    (hx : xs[i]? = some x) : ∃ y, ys[i]? = some y ∧ R x y := by
  induction h generalizing i with
  | nil => cases hx
  | cons hxy _ ih =>
      cases i with
      | zero =>
          cases hx
          exact ⟨_, rfl, hxy⟩
      | succ i => exact ih hx

theorem forall₂_mapIdx {g : Nat → α → β} (h : ∀ i x, R x (g i x)) (xs : List α) :
    List.Forall₂ R xs (xs.mapIdx g) := by
  induction xs generalizing g with
  | nil => exact .nil
  | cons x rest ih =>
      rw [List.mapIdx_cons]
      exact .cons (h 0 x) (ih fun i => h (i + 1))

end Map

def lastPosition (entries : List (String × Nat)) (name : String) : Option Nat :=
  entries.reverse.lookup name

theorem lastPosition_concat (entries : List (String × Nat)) (key name : String) (n : Nat) :
    lastPosition (entries ++ [(key, n)]) name =
      if name = key then some n else lastPosition entries name := by
  rw [lastPosition, List.reverse_append, List.reverse_singleton, List.singleton_append,
    List.lookup_cons]
  split_ifs with h
  · rw [h, beq_self_eq_true]
  · rw [beq_false_of_ne h]
    rfl

theorem lastPosition_isSome {entries : List (String × Nat)} {name : String} {n : Nat}
    (h : (name, n) ∈ entries) : ∃ last, lastPosition entries name = some last := by
  induction entries using List.reverseRecOn with
  | nil => cases h
  | append_singleton entries entry ih =>
      obtain ⟨key, m⟩ := entry
      rw [lastPosition_concat]
      split_ifs with heq
      · exact ⟨m, rfl⟩
      · rcases List.mem_append.mp h with h | h
        · exact ih h
        · cases List.mem_singleton.mp h
          exact absurd rfl heq

/-! ### Fresh names -/

/-- `${name}_${stamp}_${i}`. -/
def freshId (name : String) (stamp i : Nat) : String :=
  name ++ "_" ++ toString stamp ++ "_" ++ toString i

theorem toList_freshId (name : String) (stamp i : Nat) :
    (freshId name stamp i).toList =
      (name.toList ++ '_' :: Nat.toDigits 10 stamp) ++ '_' :: Nat.toDigits 10 i := by
  simp [freshId]

theorem split_at_last {α : Type*} {c : α} {xs ys xs' ys' : List α}
    (h : xs ++ c :: ys = xs' ++ c :: ys') (hys : c ∉ ys) (hys' : c ∉ ys') :
    xs = xs' ∧ ys = ys' := by
  rcases List.append_eq_append_iff.mp h with ⟨zs, rfl, hzs⟩ | ⟨zs, rfl, hzs⟩
  · cases zs with
    | nil => simpa using hzs
    | cons z zs =>
        rw [List.cons_append, List.cons.injEq] at hzs
        rw [hzs.2] at hys
        exact absurd (List.mem_append_right _ List.mem_cons_self) hys
  · cases zs with
    | nil => simpa [eq_comm] using hzs
    | cons z zs =>
        rw [List.cons_append, List.cons.injEq] at hzs
        rw [hzs.2] at hys'
        exact absurd (List.mem_append_right _ List.mem_cons_self) hys'

theorem freshId_inj {name name' : String} {stamp i i' : Nat}
    (h : freshId name stamp i = freshId name' stamp i') : name = name' ∧ i = i' := by
  have hchars := congrArg String.toList h
  rw [toList_freshId, toList_freshId] at hchars
  obtain ⟨hfront, hdigits⟩ := split_at_last hchars Nat.underscore_not_in_toDigits
    Nat.underscore_not_in_toDigits
  constructor
  · exact String.toList_inj.mp (List.append_cancel_right hfront)
  · have hvalue := congrArg (fun digits => Nat.ofDigitChars 10 digits 0) hdigits
    simpa using hvalue

theorem freshId_ne_self (name : String) (stamp i : Nat) : freshId name stamp i ≠ name := by
  intro h
  have hlength := congrArg (fun text => text.toList.length) h
  simp [toList_freshId] at hlength

theorem freshId_ne_empty (name : String) (stamp i : Nat) : freshId name stamp i ≠ "" := by
  intro h
  have hchars := congrArg String.toList h
  rw [toList_freshId] at hchars
  simp at hchars

theorem nodup_numbered {α β : Type*} {g : α × Nat → β} (h : ∀ a b, g a = g b → a.2 = b.2)
    (xs : List α) (i : Nat) : ((xs.zipIdx i).map g).Nodup := by
  induction xs generalizing i with
  | nil => exact List.nodup_nil
  | cons x rest ih =>
      rw [List.zipIdx_cons, List.map_cons, List.nodup_cons]
      refine ⟨fun hmem => ?_, ih (i + 1)⟩
      obtain ⟨entry, hentry, heq⟩ := List.mem_map.mp hmem
      have hle := (List.mem_zipIdx hentry).1
      have hposition := h _ _ heq
      omega

end Qontinui.Numbered
