import Qontinui.Base.PathLength
import Qontinui.Base.Worklist

/-!
Layers of the nodes of a graph from one pass over a queue. The first visit of a node gives
it its layer and queues all that follow it one layer further; a later visit can only raise
its layer. Since the queue is in the order of the layers, a node is first visited at its
least distance from the starts.
-/

namespace Qontinui.BreadthFirst

open Paths Worklist

variable {α : Type*} [DecidableEq α] (next : α → List α)

def Edge (a b : α) : Prop := b ∈ next a

def distances (starts : Set α) (a : α) : Set Nat := {n | PathTo (Edge next) starts n a}

def visit (table : α → Option Nat) (entry : α × Nat) : (α → Option Nat) × List (α × Nat) :=
  match table entry.1 with
  | some current =>
      (if current < entry.2 then Function.update table entry.1 (some entry.2) else table, [])
  | none =>
      (Function.update table entry.1 (some entry.2),
        (next entry.1).map fun b => (b, entry.2 + 1))

/-- A layer is that of a start, or follows the least distance of a predecessor. -/
def Origin (starts : Set α) (a : α) (layer : Nat) : Prop :=
  layer = 0 ∧ a ∈ starts ∨
    ∃ b least, Edge next b a ∧ IsLeast (distances next starts b) least ∧ layer = least + 1

/-- The state of a search: a queue in order, and layers that have origins; from a node with
a layer all that follow it are queued or have one that is large enough. -/
structure Layering (starts : Set α) (table : α → Option Nat) (queue : List (α × Nat)) :
    Prop where
  sorted : queue.Pairwise fun x y => x.2 ≤ y.2 ∧ y.2 ≤ x.2 + 1
  begun : ∀ a ∈ starts, (a, 0) ∈ queue ∨ (table a).isSome
  queued : ∀ entry ∈ queue, Origin next starts entry.1 entry.2
  placed : ∀ a layer, table a = some layer → Origin next starts a layer
  offered : ∀ a, (table a).isSome → ∃ least, IsLeast (distances next starts a) least ∧
    ∀ b ∈ next a, (b, least + 1) ∈ queue ∨ ∃ layer, table b = some layer ∧ least + 1 ≤ layer

variable {next} {starts : Set α} {table : α → Option Nat}

omit [DecidableEq α] in
theorem Origin.mem_distances {a : α} {layer : Nat} (h : Origin next starts a layer) :
    layer ∈ distances next starts a := by
  rcases h with ⟨rfl, ha⟩ | ⟨b, least, hedge, hleast, rfl⟩
  · exact .start ha
  · exact hleast.1.snoc hedge

omit [DecidableEq α] in
theorem Layering.ahead {queue : List (α × Nat)} (h : Layering next starts table queue) {n : Nat}
    {a : α} (hpath : PathTo (Edge next) starts n a) :
    (table a).isSome ∨ ∃ entry ∈ queue, entry.2 ≤ n := by
  induction hpath with
  | start ha =>
      rcases h.begun _ ha with hqueued | hplaced
      · exact .inr ⟨_, hqueued, Nat.le_refl 0⟩
      · exact .inl hplaced
  | @snoc n a b hpath hedge ih =>
      rcases ih with hplaced | ⟨entry, hentry, hle⟩
      · obtain ⟨least, hleast, hoffered⟩ := h.offered a hplaced
        rcases hoffered b hedge with hqueued | ⟨layer, hlayer, -⟩
        · exact .inr ⟨_, hqueued, Nat.succ_le_succ (hleast.2 hpath)⟩
        · exact .inl (by rw [hlayer]; rfl)
      · exact .inr ⟨entry, hentry, hle.trans (Nat.le_succ n)⟩

variable {rest : List (α × Nat)} {entry : α × Nat}

omit [DecidableEq α] in
theorem Layering.isLeast_first (h : Layering next starts table (entry :: rest))
    (hfirst : table entry.1 = none) : IsLeast (distances next starts entry.1) entry.2 := by
  refine ⟨(h.queued entry List.mem_cons_self).mem_distances, fun n hn => ?_⟩
  rcases h.ahead hn with hplaced | ⟨other, hother, hle⟩
  · rw [hfirst] at hplaced
    cases hplaced
  · rcases List.mem_cons.mp hother with rfl | hrest
    · exact hle
    · exact ((List.pairwise_cons.mp h.sorted).1 other hrest).1.trans hle

omit [DecidableEq α] in
/-- What an entry changes: its node gets a layer that is large enough, and what is pushed
follows a node at its least distance. -/
theorem Layering.handle {pushed : List (α × Nat)} {after : α → Option Nat}
    (h : Layering next starts table (entry :: rest))
    (hkept : ∀ a layer, table a = some layer → ∃ other, after a = some other ∧ layer ≤ other)
    (hplaced : ∃ layer, after entry.1 = some layer ∧ entry.2 ≤ layer)
    (hnew : ∀ a layer, after a = some layer → table a = some layer ∨ (a, layer) = entry)
    (hpushed : (table entry.1).isSome ∧ pushed = [] ∨
      IsLeast (distances next starts entry.1) entry.2 ∧
        pushed = (next entry.1).map fun b => (b, entry.2 + 1)) :
    Layering next starts after (rest ++ pushed) := by
  obtain ⟨hhead, hrest⟩ := List.pairwise_cons.mp h.sorted
  have hsome : ∀ a, (table a).isSome → (after a).isSome := by
    intro a ha
    obtain ⟨layer, hlayer⟩ := Option.isSome_iff_exists.mp ha
    obtain ⟨other, hother, -⟩ := hkept a layer hlayer
    rw [hother]
    rfl
  have hmem : ∀ item ∈ entry :: rest, item ∈ rest ++ pushed ∨
      ∃ layer, after item.1 = some layer ∧ item.2 ≤ layer := by
    intro item hitem
    rcases List.mem_cons.mp hitem with rfl | hitem
    · exact .inr hplaced
    · exact .inl (List.mem_append_left _ hitem)
  have hlater : ∀ item ∈ pushed, item.2 = entry.2 + 1 ∧ Origin next starts item.1 item.2 := by
    intro item hitem
    rcases hpushed with ⟨-, rfl⟩ | ⟨hleast, rfl⟩
    · cases hitem
    · obtain ⟨b, hb, rfl⟩ := List.mem_map.mp hitem
      exact ⟨rfl, .inr ⟨entry.1, entry.2, hb, hleast, rfl⟩⟩
  refine ⟨?_, fun a ha => ?_, fun item hitem => ?_, fun a layer hlayer => ?_, fun a ha => ?_⟩
  · refine List.pairwise_append.mpr ⟨hrest, ?_, fun x hx y hy => ?_⟩
    · refine List.Pairwise.imp_of_mem (fun hx hy _ => ?_)
        (List.pairwise_of_forall fun _ _ => trivial)
      have := (hlater _ hx).1
      have := (hlater _ hy).1
      omega
    · have := hhead x hx
      have := (hlater y hy).1
      omega
  · rcases h.begun a ha with hqueued | hbefore
    · rcases hmem _ hqueued with hstill | ⟨layer, hlayer, -⟩
      · exact .inl hstill
      · exact .inr (by rw [hlayer]; rfl)
    · exact .inr (hsome a hbefore)
  · rcases List.mem_append.mp hitem with hold | hpush
    · exact h.queued item (List.mem_cons_of_mem _ hold)
    · exact (hlater item hpush).2
  · rcases hnew a layer hlayer with hold | rfl
    · exact h.placed a layer hold
    · exact h.queued _ List.mem_cons_self
  · have hearlier : (table a).isSome → ∃ least, IsLeast (distances next starts a) least ∧
        ∀ b ∈ next a, (b, least + 1) ∈ rest ++ pushed ∨
          ∃ layer, after b = some layer ∧ least + 1 ≤ layer := by
      intro hbefore
      obtain ⟨least, hleast, hoffered⟩ := h.offered a hbefore
      refine ⟨least, hleast, fun b hb => ?_⟩
      rcases hoffered b hb with hqueued | ⟨layer, hlayer, hle⟩
      · exact hmem _ hqueued
      · obtain ⟨other, hother, hmore⟩ := hkept b layer hlayer
        exact .inr ⟨other, hother, hle.trans hmore⟩
    obtain ⟨layer, hlayer⟩ := Option.isSome_iff_exists.mp ha
    rcases hnew a layer hlayer with hold | rfl
    · exact hearlier (by rw [hold]; rfl)
    · rcases hpushed with ⟨hbefore, -⟩ | ⟨hleast, rfl⟩
      · exact hearlier hbefore
      · exact ⟨layer, hleast, fun b hb =>
          .inl (List.mem_append_right _ (List.mem_map_of_mem hb))⟩

theorem layering_visit (h : Layering next starts table (entry :: rest)) :
    Layering next starts (visit next table entry).1 (rest ++ (visit next table entry).2) := by
  have hupdate : ∀ a layer, Function.update table entry.1 (some entry.2) a = some layer →
      table a = some layer ∨ (a, layer) = entry := by
    intro a layer hlayer
    by_cases ha : a = entry.1
    · subst ha
      rw [Function.update_self, Option.some.injEq] at hlayer
      exact .inr (by rw [← hlayer])
    · rw [Function.update_of_ne ha] at hlayer
      exact .inl hlayer
  have hothers : ∀ a layer, a ≠ entry.1 → table a = some layer →
      ∃ other, Function.update table entry.1 (some entry.2) a = some other ∧ layer ≤ other :=
    fun a layer ha hlayer => ⟨layer, by rw [Function.update_of_ne ha, hlayer], le_rfl⟩
  unfold visit
  cases hcurrent : table entry.1 with
  | none =>
      refine h.handle (fun a layer hlayer => hothers a layer ?_ hlayer)
        ⟨entry.2, Function.update_self .., le_rfl⟩ hupdate (.inr ⟨h.isLeast_first hcurrent, rfl⟩)
      rintro rfl
      rw [hcurrent] at hlayer
      cases hlayer
  | some current =>
      have hplaced : (table entry.1).isSome := by rw [hcurrent]; rfl
      simp only
      split
      · next hless =>
          refine h.handle (fun a layer hlayer => ?_)
            ⟨entry.2, Function.update_self .., le_rfl⟩ hupdate (.inl ⟨hplaced, rfl⟩)
          by_cases ha : a = entry.1
          · subst ha
            rw [hcurrent, Option.some.injEq] at hlayer
            exact ⟨entry.2, Function.update_self .., by omega⟩
          · exact hothers a layer ha hlayer
      · next hle =>
          exact h.handle (fun a layer hlayer => ⟨layer, hlayer, le_rfl⟩)
            ⟨current, hcurrent, Nat.not_lt.mp hle⟩ (fun a layer hlayer => .inl hlayer)
            (.inl ⟨hplaced, rfl⟩)

/-! ### The end of the search -/

/-- The search ends, since each node queues what follows it once. -/
theorem exists_layering {nodes : List α} {queue : List (α × Nat)}
    (hnodes : ∀ a, ∀ b ∈ next a, b ∈ nodes) (h : Layering next starts table queue)
    (hqueue : ∀ entry ∈ queue, entry.1 ∈ nodes) :
    ∃ fuel final, drain (visit next) fuel table queue = some final ∧
      Layering next starts final [] := by
  have hwithin : ∀ {table : α → Option Nat} {entry : α × Nat} {rest : List (α × Nat)},
      (∀ item ∈ entry :: rest, item.1 ∈ nodes) →
        ∀ item ∈ rest ++ (visit next table entry).2, item.1 ∈ nodes := by
    intro table entry rest hitems item hitem
    rcases List.mem_append.mp hitem with hrest | hpushed
    · exact hitems item (List.mem_cons_of_mem _ hrest)
    · unfold visit at hpushed
      split at hpushed
      · cases hpushed
      · obtain ⟨b, hb, rfl⟩ := List.mem_map.mp hpushed
        exact hnodes entry.1 b hb
  have hrank : ∀ {table : α → Option Nat} {entry : α × Nat} {rest : List (α × Nat)},
      (∀ item ∈ entry :: rest, item.1 ∈ nodes) →
        unplaced nodes (visit next table entry).1 < unplaced nodes table ∨
          unplaced nodes (visit next table entry).1 = unplaced nodes table ∧
            (visit next table entry).2 = [] := by
    intro table entry rest hitems
    unfold visit
    cases hcurrent : table entry.1 with
    | none => exact .inl (unplaced_update_lt (hitems entry List.mem_cons_self) hcurrent entry.2)
    | some current =>
        refine .inr ⟨?_, rfl⟩
        simp only
        split
        · exact unplaced_update_eq hcurrent nodes entry.2
        · rfl
  obtain ⟨fuel, final, hfinal⟩ := exists_drain
    (fun _ (queue : List (α × Nat)) => ∀ item ∈ queue, item.1 ∈ nodes) (unplaced nodes)
    hwithin hrank hqueue
  exact ⟨fuel, final, hfinal, drain_invariant (Layering next starts) layering_visit h hfinal⟩

omit [DecidableEq α] in
theorem Layering.outcome (h : Layering next starts table []) {n : Nat} {a : α}
    (hn : n ∈ distances next starts a) :
    (table a).isSome ∧ ∃ least, IsLeast (distances next starts a) least ∧
      ∀ b ∈ next a, ∃ layer, table b = some layer ∧ least + 1 ≤ layer := by
  have hplaced : (table a).isSome := (h.ahead hn).resolve_right (by simp)
  obtain ⟨least, hleast, hoffered⟩ := h.offered a hplaced
  exact ⟨hplaced, least, hleast, fun b hb => (hoffered b hb).resolve_left (by simp)⟩

end Qontinui.BreadthFirst
