import Mathlib.Algebra.GroupWithZero.Nat
import Mathlib.Algebra.Order.BigOperators.Group.List
import Mathlib.Algebra.Order.Group.Nat
import Mathlib.Data.List.Basic
import Mathlib.Logic.Function.Basic
import Mathlib.Order.WellFounded

/-!
Loops over a queue. The visit of the first entry changes the state and pushes entries
behind the others, and the loop ends when the queue is empty. An invariant of the visits
is one of the loop, and the loop ends if no visit that pushes anything leaves the state
where it was, as when the table that the loop fills gets a value for another node.
-/

namespace Qontinui.Worklist

variable {σ ε α : Type*}

/-- Handle the entries of a queue, the first one first. `none`: the fuel ran out. -/
def drain (visit : σ → ε → σ × List ε) : Nat → σ → List ε → Option σ
  | _, state, [] => some state
  | 0, _, _ :: _ => none
  | fuel + 1, state, entry :: rest =>
      drain visit fuel (visit state entry).1 (rest ++ (visit state entry).2)

/-- Handle items one after the other, each of which may push entries. -/
def pushAll (relax : σ → α → σ × List ε) : σ → List α → σ × List ε
  | state, [] => (state, [])
  | state, item :: rest =>
      let relaxed := relax state item
      let later := pushAll relax relaxed.1 rest
      (later.1, relaxed.2 ++ later.2)

variable {visit : σ → ε → σ × List ε} {relax : σ → α → σ × List ε}

@[simp] theorem drain_nil (fuel : Nat) (state : σ) : drain visit fuel state [] = some state := by
  cases fuel <;> rfl

variable {state : σ} {queue : List ε}

theorem drain_mono {fuel more : Nat} {final : σ} (h : drain visit fuel state queue = some final)
    (hle : fuel ≤ more) : drain visit more state queue = some final := by
  induction fuel generalizing more state queue with
  | zero =>
      cases queue with
      | nil => simpa using h
      | cons entry rest => cases h
  | succ fuel ih =>
      cases queue with
      | nil => simpa using h
      | cons entry rest =>
          cases more with
          | zero => exact absurd hle (Nat.not_succ_le_zero fuel)
          | succ more =>
              rw [drain] at h ⊢
              exact ih h (Nat.le_of_succ_le_succ hle)

theorem drain_invariant (invariant : σ → List ε → Prop)
    (hvisit : ∀ {state entry rest}, invariant state (entry :: rest) →
      invariant (visit state entry).1 (rest ++ (visit state entry).2)) {fuel : Nat} {final : σ}
    (hstart : invariant state queue) (h : drain visit fuel state queue = some final) :
    invariant final [] := by
  induction fuel generalizing state queue with
  | zero =>
      cases queue with
      | nil =>
          cases h
          exact hstart
      | cons entry rest => cases h
  | succ fuel ih =>
      cases queue with
      | nil =>
          cases h
          exact hstart
      | cons entry rest => exact ih (hvisit hstart) h

theorem exists_drain {β : Type*} [LT β] [WellFoundedLT β] (invariant : σ → List ε → Prop)
    (rank : σ → β) (hvisit : ∀ {state entry rest}, invariant state (entry :: rest) →
      invariant (visit state entry).1 (rest ++ (visit state entry).2))
    (hrank : ∀ {state entry rest}, invariant state (entry :: rest) →
      rank (visit state entry).1 < rank state ∨
        rank (visit state entry).1 = rank state ∧ (visit state entry).2 = [])
    (hstart : invariant state queue) : ∃ fuel final, drain visit fuel state queue = some final := by
  -- on the rank, and for one rank on the length of the queue
  induction hvalue : rank state using WellFoundedLT.induction generalizing state queue with
  | ind value ih =>
      induction queue generalizing state with
      | nil => exact ⟨0, state, rfl⟩
      | cons entry rest ihRest =>
          have hnext := hvisit hstart
          have hended : ∃ fuel final,
              drain visit fuel (visit state entry).1 (rest ++ (visit state entry).2) =
                some final := by
            rcases hrank hstart with hless | ⟨hsame, hpushed⟩
            · exact ih _ (hvalue ▸ hless) hnext rfl
            · rw [hpushed, List.append_nil] at hnext ⊢
              exact ihRest hnext (hsame.trans hvalue)
          obtain ⟨fuel, final, hfinal⟩ := hended
          exact ⟨fuel + 1, final, hfinal⟩

theorem pushAll_invariant (invariant : σ → List ε → List α → Prop)
    (hrelax : ∀ {state pushed item rest}, invariant state pushed (item :: rest) →
      invariant (relax state item).1 (pushed ++ (relax state item).2) rest) {pushed : List ε}
    {items : List α} (hstart : invariant state pushed items) :
    invariant (pushAll relax state items).1 (pushed ++ (pushAll relax state items).2) [] := by
  induction items generalizing state pushed with
  | nil => simpa [pushAll] using hstart
  | cons item rest ih =>
      have hrest := ih (hrelax hstart)
      rw [List.append_assoc] at hrest
      exact hrest

theorem pushAll_rank {β : Type*} [Preorder β] (rank : σ → β) {items : List α}
    (hrank : ∀ state, ∀ item ∈ items, rank (relax state item).1 < rank state ∨
      rank (relax state item).1 = rank state ∧ (relax state item).2 = []) (state : σ) :
    rank (pushAll relax state items).1 < rank state ∨
      rank (pushAll relax state items).1 = rank state ∧ (pushAll relax state items).2 = [] := by
  induction items generalizing state with
  | nil => exact .inr ⟨rfl, rfl⟩
  | cons item rest ih =>
      have hlater := ih (fun state other hother =>
        hrank state other (List.mem_cons_of_mem _ hother)) (relax state item).1
      simp only [pushAll]
      rcases hrank state item List.mem_cons_self with hless | ⟨hsame, hnone⟩
      · rcases hlater with hrest | ⟨hrest, -⟩
        · exact .inl (hrest.trans hless)
        · exact .inl (hrest ▸ hless)
      · rcases hlater with hrest | ⟨hrest, hpushed⟩
        · exact .inl (hsame ▸ hrest)
        · exact .inr ⟨hrest.trans hsame, by rw [hnone, hpushed, List.append_nil]⟩

section Tables

variable [DecidableEq α] {β : Type*} {table : α → Option β} {node : α}

def unplaced (nodes : List α) (table : α → Option β) : Nat :=
  (nodes.map fun a => if table a = none then 1 else 0).sum

theorem unplaced_update_lt {nodes : List α} (hnode : node ∈ nodes) (hnone : table node = none)
    (value : β) :
    unplaced nodes (Function.update table node (some value)) < unplaced nodes table := by
  refine List.sum_lt_sum _ _ (fun a _ => ?_) ⟨node, hnode, by simp [hnone]⟩
  by_cases ha : a = node
  · simp [ha]
  · simp [Function.update_of_ne ha]

theorem unplaced_update_eq {current : β} (hcurrent : table node = some current)
    (nodes : List α) (value : β) :
    unplaced nodes (Function.update table node (some value)) = unplaced nodes table := by
  refine congrArg List.sum (List.map_congr_left fun a _ => ?_)
  by_cases ha : a = node
  · simp [ha, hcurrent]
  · simp [Function.update_of_ne ha]

end Tables

section Simulation

variable {τ ε' : Type*} {image : τ → ε' → τ × List ε'} {imageRelax : τ → α → τ × List ε'}
  (f : σ → τ) (g : ε → ε')

theorem pushAll_map (invariant : σ → Prop) {items : List α}
    (hkeep : ∀ state, ∀ item ∈ items, invariant state → invariant (relax state item).1)
    (hrelax : ∀ state, ∀ item ∈ items, invariant state → imageRelax (f state) item =
      (f (relax state item).1, (relax state item).2.map g))
    {state : σ} (hstart : invariant state) :
    invariant (pushAll relax state items).1 ∧ pushAll imageRelax (f state) items =
      (f (pushAll relax state items).1, (pushAll relax state items).2.map g) := by
  induction items generalizing state with
  | nil => exact ⟨hstart, rfl⟩
  | cons item rest ih =>
      obtain ⟨hkept, hrest⟩ := ih
        (fun state other hother => hkeep state other (List.mem_cons_of_mem _ hother))
        (fun state other hother => hrelax state other (List.mem_cons_of_mem _ hother))
        (hkeep state item List.mem_cons_self hstart)
      refine ⟨hkept, ?_⟩
      simp only [pushAll, hrelax state item List.mem_cons_self hstart, hrest, List.map_append]

theorem drain_map (invariant : σ → Prop)
    (hvisit : ∀ state entry, invariant state → invariant (visit state entry).1 ∧
      image (f state) (g entry) = (f (visit state entry).1, (visit state entry).2.map g))
    (fuel : Nat) {state : σ} (hstart : invariant state) (queue : List ε) :
    drain image fuel (f state) (queue.map g) = (drain visit fuel state queue).map f := by
  induction fuel generalizing state queue with
  | zero => cases queue <;> rfl
  | succ fuel ih =>
      cases queue with
      | nil => rfl
      | cons entry rest =>
          obtain ⟨hkept, himage⟩ := hvisit state entry hstart
          rw [List.map_cons, drain, drain, himage, ← List.map_append]
          exact ih hkept _

end Simulation

end Qontinui.Worklist
