import Qontinui.Base.PathLength
import Qontinui.Base.Worklist
import Mathlib.Data.Prod.Lex

/-!
Values of the nodes of a graph found by relaxation from a queue: an entry offers the
nodes that follow it its value and one more, and a node takes an offer that is allowed and
better than what it has, and is queued again. What a node ends up with is the length of a
path, and as good as the length of every other one. With "no more than" for "as good as"
the lengths are those of shortest paths, with "no less than" those of longest ones.
-/

namespace Qontinui.Relaxation

open Paths Worklist

variable {α : Type*} [DecidableEq α]

/-- Which values are as good as others, and which may be taken at all. -/
structure Preference where
  good : Nat → Nat → Bool
  allowed : Nat → Bool
  refl : ∀ m, good m m = true
  trans : ∀ {m n k}, good m n = true → good n k = true → good m k = true
  total : ∀ {m n}, good m n = false → good n m = true
  succ : ∀ {m n}, good m n = true → good (m + 1) (n + 1) = true

theorem decide_le_self (m : Nat) : decide (m ≤ m) = true := by simp

variable (preference : Preference) (next : α → List α)

def relax (value : Nat) (table : α → Option Nat) (node : α) :
    (α → Option Nat) × List (α × Nat) :=
  if preference.allowed value = true ∧
      ∀ current, table node = some current → preference.good current value = false then
    (Function.update table node (some value), [(node, value)])
  else (table, [])

def visit (table : α → Option Nat) (entry : α × Nat) : (α → Option Nat) × List (α × Nat) :=
  pushAll (relax preference (entry.2 + 1)) table (next entry.1)

/-- The values are lengths of paths, the starts have good ones, and a value that is not
queued has been offered to all that follow, except for the pending offers. -/
structure Searching (starts : Set α) (pending : α × Nat → α → Prop) (table : α → Option Nat)
    (queue : List (α × Nat)) : Prop where
  begun : ∀ a ∈ starts, ∃ value, table a = some value ∧ preference.good value 0 = true
  paths : ∀ a value, table a = some value → PathTo (fun a b => b ∈ next a) starts value a
  queued : ∀ entry ∈ queue, PathTo (fun a b => b ∈ next a) starts entry.2 entry.1
  offered : ∀ a value, table a = some value → (a, value) ∈ queue ∨ ∀ b ∈ next a,
    pending (a, value) b ∨ preference.allowed (value + 1) = false ∨
      ∃ other, table b = some other ∧ preference.good other (value + 1) = true

variable {preference next} {starts : Set α} {table : α → Option Nat}

theorem relax_cases (preference : Preference) (value : Nat) (table : α → Option Nat) (node : α) :
    (preference.allowed value = true ∧
        (∀ current, table node = some current → preference.good current value = false) ∧
        relax preference value table node =
          (Function.update table node (some value), [(node, value)])) ∨
      ((preference.allowed value = false ∨
          ∃ current, table node = some current ∧ preference.good current value = true) ∧
        relax preference value table node = (table, [])) := by
  unfold relax
  split
  · next h => exact .inl ⟨h.1, h.2, rfl⟩
  · next h =>
      refine .inr ⟨?_, rfl⟩
      by_contra hnone
      simp only [not_or, Bool.not_eq_false, not_exists, not_and, Bool.not_eq_true] at hnone
      exact h hnone

/-- One offer that was pending is made. -/
theorem searching_relax {entry : α × Nat} {node : α} {rest : List α} {queue : List (α × Nat)}
    (h : Searching preference next starts (fun e b => e = entry ∧ b ∈ node :: rest) table queue)
    (hpath : PathTo (fun a b => b ∈ next a) starts entry.2 entry.1) (hnode : node ∈ next entry.1) :
    Searching preference next starts (fun e b => e = entry ∧ b ∈ rest)
      (relax preference (entry.2 + 1) table node).1
      (queue ++ (relax preference (entry.2 + 1) table node).2) := by
  rcases relax_cases preference (entry.2 + 1) table node with
    ⟨hallowed, hbetter, heq⟩ | ⟨hrefused, heq⟩
  · rw [heq]
    have hupdate : ∀ {a value}, Function.update table node (some (entry.2 + 1)) a = some value →
        a = node ∧ value = entry.2 + 1 ∨ a ≠ node ∧ table a = some value := by
      intro a value hvalue
      by_cases ha : a = node
      · subst ha
        rw [Function.update_self] at hvalue
        exact .inl ⟨rfl, (Option.some.inj hvalue).symm⟩
      · rw [Function.update_of_ne ha] at hvalue
        exact .inr ⟨ha, hvalue⟩
    have hkept : ∀ {b other limit}, table b = some other → preference.good other limit = true →
        ∃ later, Function.update table node (some (entry.2 + 1)) b = some later ∧
          preference.good later limit = true := by
      intro b other limit hother hgood
      by_cases hb : b = node
      · subst hb
        have hworse := preference.total (hbetter other hother)
        exact ⟨entry.2 + 1, Function.update_self .., preference.trans hworse hgood⟩
      · exact ⟨other, by rw [Function.update_of_ne hb, hother], hgood⟩
    refine ⟨?_, ?_, ?_, ?_⟩
    · intro a ha
      obtain ⟨value, hvalue, hgood⟩ := h.begun a ha
      exact hkept hvalue hgood
    · intro a value hvalue
      rcases hupdate hvalue with ⟨rfl, rfl⟩ | ⟨-, hold⟩
      · exact hpath.snoc hnode
      · exact h.paths a value hold
    · intro other hother
      rcases List.mem_append.mp hother with hold | hnew
      · exact h.queued other hold
      · rw [List.mem_singleton.mp hnew]
        exact hpath.snoc hnode
    · intro a value hvalue
      rcases hupdate hvalue with ⟨rfl, rfl⟩ | ⟨hne, hold⟩
      · exact .inl (List.mem_append_right _ (List.mem_singleton.mpr rfl))
      · rcases h.offered a value hold with hqueued | hoffered
        · exact .inl (List.mem_append_left _ hqueued)
        · refine .inr fun b hb => ?_
          rcases hoffered b hb with ⟨hentry, hpending⟩ | hlimit | ⟨other, hother, hgood⟩
          · rcases List.mem_cons.mp hpending with rfl | hrest
            · subst hentry
              exact .inr (.inr ⟨_, Function.update_self .., preference.refl _⟩)
            · exact .inl ⟨hentry, hrest⟩
          · exact .inr (.inl hlimit)
          · exact .inr (.inr (hkept hother hgood))
  · rw [heq, List.append_nil]
    refine ⟨h.begun, h.paths, h.queued, fun a value hvalue => ?_⟩
    rcases h.offered a value hvalue with hqueued | hoffered
    · exact .inl hqueued
    · refine .inr fun b hb => ?_
      rcases hoffered b hb with ⟨hentry, hpending⟩ | hdone
      · rcases List.mem_cons.mp hpending with rfl | hrest
        · subst hentry
          exact .inr hrefused
        · exact .inl ⟨hentry, hrest⟩
      · exact .inr hdone

theorem searching_visit {entry : α × Nat} {rest : List (α × Nat)}
    (h : Searching preference next starts (fun _ _ => False) table (entry :: rest)) :
    Searching preference next starts (fun _ _ => False) (visit preference next table entry).1
      (rest ++ (visit preference next table entry).2) := by
  have hpath := h.queued entry List.mem_cons_self
  have hstart : Searching preference next starts (fun e b => e = entry ∧ b ∈ next entry.1) table
      (rest ++ []) := by
    rw [List.append_nil]
    refine ⟨h.begun, h.paths, fun other hother => h.queued other (List.mem_cons_of_mem _ hother),
      fun a value hvalue => ?_⟩
    rcases h.offered a value hvalue with hqueued | hoffered
    · rcases List.mem_cons.mp hqueued with hentry | hrest
      · exact .inr fun b hb => .inl ⟨hentry, by rw [← hentry]; exact hb⟩
      · exact .inl hrest
    · exact .inr fun b hb => (hoffered b hb).imp_left False.elim
  let invariant : (α → Option Nat) → List (α × Nat) → List α → Prop := fun table pushed items =>
    (∀ b ∈ items, b ∈ next entry.1) ∧
      Searching preference next starts (fun e b => e = entry ∧ b ∈ items) table (rest ++ pushed)
  have hrelax : ∀ {table pushed item items}, invariant table pushed (item :: items) →
      invariant (relax preference (entry.2 + 1) table item).1
        (pushed ++ (relax preference (entry.2 + 1) table item).2) items := by
    rintro table pushed item items ⟨hitems, hsearching⟩
    refine ⟨fun b hb => hitems b (List.mem_cons_of_mem _ hb), ?_⟩
    rw [← List.append_assoc]
    exact searching_relax hsearching hpath (hitems item List.mem_cons_self)
  have hbegin : invariant table [] (next entry.1) := ⟨fun _ hb => hb, hstart⟩
  obtain ⟨-, hall⟩ := pushAll_invariant invariant hrelax hbegin
  refine ⟨hall.begun, hall.paths, hall.queued, fun a value hvalue => ?_⟩
  exact (hall.offered a value hvalue).imp_right fun hoffered b hb =>
    (hoffered b hb).imp_left fun hpending => by simp at hpending

/-! ### The end of the search -/

/-- How far a table is from being settled: the nodes without a value, and then how much
better the values can become. -/
def rank (height : Nat → Nat) (nodes : List α) (table : α → Option Nat) : Nat ×ₗ Nat :=
  toLex ((nodes.map fun a => if table a = none then 1 else 0).sum,
    (nodes.map fun a => (table a).elim 0 height).sum)

theorem rank_update_lt {height : Nat → Nat} {nodes : List α} {node : α} {value : Nat}
    (hnode : node ∈ nodes)
    (hheight : ∀ current, table node = some current → height value < height current) :
    rank height nodes (Function.update table node (some value)) < rank height nodes table := by
  rw [rank, rank, Prod.Lex.toLex_lt_toLex]
  cases hcurrent : table node with
  | none => exact .inl (unplaced_update_lt hnode hcurrent value)
  | some current =>
      refine .inr ⟨unplaced_update_eq hcurrent nodes value,
        List.sum_lt_sum _ _ (fun a _ => ?_) ⟨node, hnode, ?_⟩⟩
      · by_cases ha : a = node
        · simpa [ha, hcurrent] using (hheight current hcurrent).le
        · simp [Function.update_of_ne ha]
      · simpa [hcurrent] using hheight current hcurrent

theorem exists_drain_visit {height : Nat → Nat} {nodes : List α}
    (hheight : ∀ {value current}, preference.allowed value = true →
      preference.good current value = false → height value < height current)
    (hnodes : ∀ a, ∀ b ∈ next a, b ∈ nodes) (table : α → Option Nat) (queue : List (α × Nat)) :
    ∃ fuel final, drain (visit preference next) fuel table queue = some final := by
  have hrelax : ∀ {table : α → Option Nat} {node value}, node ∈ nodes →
      rank height nodes (relax preference value table node).1 < rank height nodes table ∨
        rank height nodes (relax preference value table node).1 = rank height nodes table ∧
          (relax preference value table node).2 = [] := by
    intro table node value hnode
    rcases relax_cases preference value table node with
      ⟨hallowed, hbetter, heq⟩ | ⟨-, heq⟩
    · rw [heq]
      exact .inl (rank_update_lt hnode fun current hcurrent =>
        hheight hallowed (hbetter current hcurrent))
    · rw [heq]
      exact .inr ⟨rfl, rfl⟩
  refine exists_drain (fun _ _ => True) (rank height nodes) (fun _ => trivial)
    (fun {table entry rest} _ => ?_) trivial
  exact pushAll_rank (rank height nodes)
    (fun table node hnode => hrelax (hnodes entry.1 node hnode)) table

omit [DecidableEq α] in
theorem Searching.outcome (h : Searching preference next starts (fun _ _ => False) table [])
    (hallowed : ∀ {n a}, PathTo (fun a b => b ∈ next a) starts n a → preference.allowed n = true)
    {n : Nat} {a : α} (hpath : PathTo (fun a b => b ∈ next a) starts n a) :
    ∃ value, table a = some value ∧ PathTo (fun a b => b ∈ next a) starts value a ∧
      preference.good value n = true := by
  induction hpath with
  | start ha =>
      obtain ⟨value, hvalue, hgood⟩ := h.begun _ ha
      exact ⟨value, hvalue, h.paths _ _ hvalue, hgood⟩
  | snoc _ hstep ih =>
      obtain ⟨value, hvalue, hto, hgood⟩ := ih
      rcases h.offered _ _ hvalue with hqueued | hoffered
      · cases hqueued
      · rcases hoffered _ hstep with hpending | hlimit | ⟨other, hother, hbetter⟩
        · exact hpending.elim
        · rw [hallowed (hto.snoc hstep)] at hlimit
          cases hlimit
        · exact ⟨other, hother, h.paths _ _ hother,
            preference.trans hbetter (preference.succ hgood)⟩

end Qontinui.Relaxation
