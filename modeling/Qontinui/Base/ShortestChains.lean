import Mathlib.Data.Set.Basic
import Mathlib.Data.List.Induction
import Mathlib.Data.List.Pairwise

/-!
Shortest chains of labelled edges by breadth-first search, where a node is marked when it is
queued: what the places settled and the places queued say of every chain from the source.
-/

namespace Qontinui.Chains

variable {V E : Type*} (tail head : E → V) (edges : Set E)

/-- The edges lead from one node to another, each from where the one before it ends. -/
def Leads : V → List E → V → Prop
  | a, [], b => a = b
  | a, e :: path, b => e ∈ edges ∧ tail e = a ∧ Leads (head e) path b

abbrev Place (V E : Type*) := V × List E

/-- The state of a search that has not met its target: the places it has settled, then those
in the queue, in the order of their lengths. What follows a settled place is known, no
further than one edge on. -/
structure Frontier (source target : V) (settled queue : List (Place V E)) : Prop where
  chains : ∀ place ∈ settled ++ queue, Leads tail head edges source place.2 place.1
  started : (source, []) ∈ settled ++ queue
  ordered : (settled ++ queue).Pairwise fun x y => x.2.length ≤ y.2.length
  near : queue.Pairwise fun x y => y.2.length ≤ x.2.length + 1
  closed : ∀ place ∈ settled, ∀ e ∈ edges, tail e = place.1 →
    ∃ next ∈ settled ++ queue, next.1 = head e ∧ next.2.length ≤ place.2.length + 1
  missed : ∀ place ∈ settled, place.1 ≠ target

variable {tail head edges} {source target : V} {settled queue : List (Place V E)} {path : List E}

theorem leads_snoc {a b : V} {e : E} :
    Leads tail head edges a (path ++ [e]) b ↔
      Leads tail head edges a path (tail e) ∧ e ∈ edges ∧ head e = b := by
  induction path generalizing a with
  | nil => simp [Leads, and_left_comm, eq_comm]
  | cons first path ih => simp [Leads, ih, and_assoc]

theorem frontier_start : Frontier tail head edges source target [] [(source, [])] where
  chains := by simp [Leads]
  started := by simp
  ordered := by simp
  near := by simp
  closed := by simp
  missed := by simp

theorem Frontier.ahead (h : Frontier tail head edges source target settled queue) {b : V}
    (hpath : Leads tail head edges source path b) :
    (∃ place ∈ settled, place.1 = b ∧ place.2.length ≤ path.length) ∨
      ∃ place ∈ queue, place.2.length ≤ path.length := by
  induction path using List.reverseRecOn generalizing b with
  | nil =>
      cases hpath
      rcases List.mem_append.mp h.started with hsettled | hqueued
      · exact .inl ⟨_, hsettled, rfl, le_rfl⟩
      · exact .inr ⟨_, hqueued, le_rfl⟩
  | append_singleton path e ih =>
      obtain ⟨hbefore, he, rfl⟩ := leads_snoc.mp hpath
      rw [List.length_append, List.length_singleton]
      rcases ih hbefore with ⟨place, hplace, hnode, hle⟩ | ⟨place, hplace, hle⟩
      · obtain ⟨next, hnext, hhead, hnear⟩ := h.closed place hplace e he hnode.symm
        rcases List.mem_append.mp hnext with hsettled | hqueued
        · exact .inl ⟨next, hsettled, hhead, by omega⟩
        · exact .inr ⟨next, hqueued, by omega⟩
      · exact .inr ⟨place, hplace, by omega⟩

theorem Frontier.length_le {place : Place V E}
    (h : Frontier tail head edges source target settled (place :: queue))
    (hpath : Leads tail head edges source path target) : place.2.length ≤ path.length := by
  rcases h.ahead hpath with ⟨other, hother, hnode, -⟩ | ⟨other, hother, hle⟩
  · exact absurd hnode (h.missed other hother)
  · have hqueue := (List.pairwise_append.mp h.ordered).2.1
    rcases List.mem_cons.mp hother with rfl | hrest
    · exact hle
    · exact ((List.pairwise_cons.mp hqueue).1 other hrest).trans hle

theorem Frontier.not_leads (h : Frontier tail head edges source target settled [])
    (path : List E) : ¬ Leads tail head edges source path target := by
  intro hpath
  rcases h.ahead hpath with ⟨place, hplace, hnode, -⟩ | ⟨place, hplace, -⟩
  · exact h.missed place hplace hnode
  · cases hplace

/-- A place that is not at the target is settled: what is pushed follows it, and with that
all that follows it is known. -/
theorem Frontier.settle {place : Place V E} {pushed : List (Place V E)}
    (h : Frontier tail head edges source target settled (place :: queue))
    (hmissed : place.1 ≠ target)
    (hpushed : ∀ new ∈ pushed, ∃ e ∈ edges, tail e = place.1 ∧ new = (head e, place.2 ++ [e]))
    (hknown : ∀ e ∈ edges, tail e = place.1 →
      ∃ next ∈ settled ++ place :: queue ++ pushed, next.1 = head e) :
    Frontier tail head edges source target (settled ++ [place]) (queue ++ pushed) := by
  have hplaces : settled ++ [place] ++ (queue ++ pushed) =
      settled ++ place :: queue ++ pushed := by simp
  have hlength : ∀ new ∈ pushed, new.2.length = place.2.length + 1 := by
    intro new hnew
    obtain ⟨e, -, -, rfl⟩ := hpushed new hnew
    simp
  obtain ⟨-, hqueue, hbefore⟩ := List.pairwise_append.mp h.ordered
  have hfirst := (List.pairwise_cons.mp hqueue).1
  obtain ⟨hspan, hnear⟩ := List.pairwise_cons.mp h.near
  have hbound : ∀ known ∈ settled ++ place :: queue,
      known.2.length ≤ place.2.length + 1 := by
    intro known hmem
    rcases List.mem_append.mp hmem with hsettled | hqueued
    · exact (hbefore known hsettled place List.mem_cons_self).trans (Nat.le_succ _)
    · rcases List.mem_cons.mp hqueued with rfl | hrest
      · exact Nat.le_succ _
      · exact hspan known hrest
  have hequal : pushed.Pairwise fun x y => x.2.length = y.2.length :=
    List.Pairwise.imp_of_mem
      (fun hx hy _ => (hlength _ hx).trans (hlength _ hy).symm)
      (List.pairwise_of_forall (R := fun _ _ => True) fun _ _ => trivial)
  refine ⟨?_, ?_, ?_, ?_, ?_, ?_⟩
  · rw [hplaces]
    intro known hmem
    rcases List.mem_append.mp hmem with hold | hnew
    · exact h.chains known hold
    · obtain ⟨e, he, htail, rfl⟩ := hpushed known hnew
      have hplace := h.chains place (List.mem_append_right _ List.mem_cons_self)
      rw [← htail] at hplace
      exact leads_snoc.mpr ⟨hplace, he, rfl⟩
  · rw [hplaces]
    exact List.mem_append_left _ h.started
  · rw [hplaces]
    refine List.pairwise_append.mpr ⟨h.ordered, hequal.imp Eq.le, fun x hx y hy => ?_⟩
    rw [hlength y hy]
    exact hbound x hx
  · refine List.pairwise_append.mpr ⟨hnear, ?_, fun x hx y hy => ?_⟩
    · exact hequal.imp fun {x y} hxy => by omega
    · rw [hlength y hy]
      exact Nat.succ_le_succ (hfirst x hx)
  · rw [hplaces]
    intro known hmem e he htail
    rcases List.mem_append.mp hmem with hold | hnew
    · obtain ⟨next, hnext, hnode, hle⟩ := h.closed known hold e he htail
      exact ⟨next, List.mem_append_left _ hnext, hnode, hle⟩
    · obtain rfl : known = place := List.mem_singleton.mp hnew
      obtain ⟨next, hnext, hnode⟩ := hknown e he htail
      refine ⟨next, hnext, hnode, ?_⟩
      rcases List.mem_append.mp hnext with hold | hpush
      · exact hbound next hold
      · exact (hlength next hpush).le
  · intro known hmem
    rcases List.mem_append.mp hmem with hold | hnew
    · exact h.missed known hold
    · obtain rfl : known = place := List.mem_singleton.mp hnew
      exact hmissed

end Qontinui.Chains
