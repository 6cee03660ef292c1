import Mathlib.Data.List.Perm.Subperm
import Mathlib.Logic.Relation
import Mathlib.Order.Bounds.Basic

/-!
Paths of a directed graph with the number of their edges, from any of a set of starts.
-/

namespace Qontinui.Paths

variable {α : Type*} {edge : α → α → Prop} {starts : Set α}

/-- A path of so many edges leads from one of the starts to a node. -/
inductive PathTo (edge : α → α → Prop) (starts : Set α) : Nat → α → Prop
  | start {a : α} (h : a ∈ starts) : PathTo edge starts 0 a
  | snoc {n : Nat} {a b : α} (path : PathTo edge starts n a) (step : edge a b) :
      PathTo edge starts (n + 1) b

variable {b : α} {n : Nat}

theorem exists_pathTo_iff :
    (∃ n, PathTo edge starts n b) ↔ ∃ a ∈ starts, Relation.ReflTransGen edge a b := by
  constructor
  · rintro ⟨n, h⟩
    induction h with
    | start h => exact ⟨_, h, .refl⟩
    | snoc _ step ih =>
        obtain ⟨a, ha, hreach⟩ := ih
        exact ⟨a, ha, hreach.tail step⟩
  · rintro ⟨a, ha, hreach⟩
    induction hreach with
    | refl => exact ⟨0, .start ha⟩
    | tail _ step ih =>
        obtain ⟨n, hpath⟩ := ih
        exact ⟨n + 1, hpath.snoc step⟩

theorem pathTo_succ_iff {a : α} :
    PathTo edge {a} (n + 1) b ↔ ∃ c, edge a c ∧ PathTo edge {c} n b := by
  constructor
  · intro h
    induction n generalizing b with
    | zero =>
        cases h with
        | snoc path step =>
            cases path with
            | start ha => exact ⟨b, ha ▸ step, .start rfl⟩
    | succ n ih =>
        cases h with
        | snoc path step =>
            obtain ⟨c, hc, hpath⟩ := ih path
            exact ⟨c, hc, hpath.snoc step⟩
  · rintro ⟨c, hc, hpath⟩
    induction hpath with
    | start hstart =>
        cases hstart
        exact .snoc (.start rfl) hc
    | snoc _ step ih => exact .snoc ih step

theorem PathTo.le_of_edges {value : α → Nat} (hedge : ∀ a b, edge a b → value a + 1 ≤ value b)
    (h : PathTo edge starts n b) : n ≤ value b := by
  induction h with
  | start => exact Nat.zero_le _
  | snoc _ step ih => exact (Nat.succ_le_succ ih).trans (hedge _ _ step)

theorem PathTo.exists_nodes (h : PathTo edge starts n b) :
    ∃ nodes : List α, nodes.length = n ∧
      (b :: nodes).Pairwise (fun x y => Relation.TransGen edge y x) ∧
      ∀ x ∈ b :: nodes, x ∈ starts ∨ ∃ y, edge y x := by
  induction h with
  | start h => exact ⟨[], rfl, List.pairwise_singleton _ _, by simp [h]⟩
  | @snoc n a b _ step ih =>
      obtain ⟨nodes, hlength, hpairwise, hnodes⟩ := ih
      refine ⟨a :: nodes, by simp [hlength], List.pairwise_cons.mpr ⟨?_, hpairwise⟩, ?_⟩
      · intro y hy
        rcases List.mem_cons.mp hy with rfl | hy
        · exact .single step
        · exact ((List.pairwise_cons.mp hpairwise).1 y hy).tail step
      · intro x hx
        rcases List.mem_cons.mp hx with rfl | hx
        · exact .inr ⟨a, step⟩
        · exact hnodes x hx

theorem PathTo.length_lt {nodes : List α} (hstarts : ∀ a ∈ starts, a ∈ nodes)
    (hedges : ∀ a b, edge a b → b ∈ nodes) (hacyclic : ∀ a, ¬ Relation.TransGen edge a a)
    (h : PathTo edge starts n b) : n < nodes.length := by
  obtain ⟨path, hlength, hpairwise, hpath⟩ := h.exists_nodes
  have hnodup : (b :: path).Nodup := by
    refine hpairwise.imp fun {x y} hxy hsame => ?_
    rw [hsame] at hxy
    exact hacyclic y hxy
  have hsubset : b :: path ⊆ nodes := by
    intro x hx
    rcases hpath x hx with hstart | ⟨y, hy⟩
    · exact hstarts x hstart
    · exact hedges y x hy
  have hle := (hnodup.subperm hsubset).length_le
  rw [List.length_cons, hlength] at hle
  exact hle

end Qontinui.Paths
