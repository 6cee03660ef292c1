import Mathlib.Data.List.Nodup
import Mathlib.Data.List.Flatten
import Mathlib.Logic.Relation
import Mathlib.Order.WellFounded
import Mathlib.Data.Set.Finite.Basic

/-!
Depth-first search over a successor function, and what its outcome says of the
graph: a search that comes to an end leaves its nodes in an order in which the
successors of a node come after it, and a search that meets a node of its own
path has found a cycle.
-/

namespace Qontinui.DepthFirst

variable {α : Type*} (next : α → List α)

def Step (a b : α) : Prop := b ∈ next a

abbrev Reaches : α → α → Prop := Relation.ReflTransGen (Step next)

/-- A path of at least one edge that comes back. -/
def OnCycle (a : α) : Prop := Relation.TransGen (Step next) a a

/-- Nodes in an order in which the successors of each come after it. -/
inductive Ordered : List α → Prop
  | nil : Ordered []
  | cons {v : α} {done : List α} (fresh : v ∉ done) (closed : ∀ w ∈ next v, w ∈ done)
      (rest : Ordered done) : Ordered (v :: done)

variable {next} {order : List α} {edge : α → α → Prop}

theorem Ordered.nodup (h : Ordered next order) : order.Nodup := by
  induction h with
  | nil => exact List.nodup_nil
  | cons fresh _ _ ih => exact List.nodup_cons.mpr ⟨fresh, ih⟩

variable {v first : α} {done rest : List α}

theorem Ordered.closed (h : Ordered next order) {w : α} (hv : v ∈ order) (hw : Step next v w) :
    w ∈ order := by
  induction h with
  | nil => cases hv
  | cons fresh hclosed _ ih =>
      rcases List.mem_cons.mp hv with rfl | hv
      · exact List.mem_cons_of_mem _ (hclosed w hw)
      · exact List.mem_cons_of_mem _ (ih hv)

theorem Ordered.closed_reaches (h : Ordered next order) {w : α} (hv : v ∈ order)
    (hw : Reaches next v w) : w ∈ order := by
  induction hw with
  | refl => exact hv
  | tail _ hstep ih => exact h.closed ih hstep

theorem Ordered.behind (h : Ordered next (v :: done)) {w : α}
    (hw : Relation.TransGen (Step next) v w) : w ∈ done := by
  obtain ⟨u, hvu, huw⟩ := Relation.TransGen.head'_iff.mp hw
  cases h with
  | cons _ hclosed hrest => exact hrest.closed_reaches (hclosed u hvu) huw

theorem Ordered.pairwise (h : Ordered next order) : order.Pairwise fun a b => ¬ Step next b a := by
  induction h with
  | nil => exact .nil
  | cons fresh _ hrest ih =>
      exact .cons (fun b hb hstep => fresh (hrest.closed hb hstep)) ih

theorem Ordered.idxOf_lt [DecidableEq α] {order : List α} (h : Ordered next order) {v w : α}
    (hv : v ∈ order) (hw : Step next v w) : order.idxOf v < order.idxOf w := by
  induction h with
  | nil => cases hv
  | @cons u done fresh hclosed hrest ih =>
      rcases List.mem_cons.mp hv with rfl | hlater
      · have hne : v ≠ w := fun heq => fresh (heq ▸ hclosed w hw)
        rw [List.idxOf_cons_self, List.idxOf_cons_ne _ hne]
        exact Nat.succ_pos _
      · have hne : u ≠ v := fun heq => fresh (heq ▸ hlater)
        have hne' : u ≠ w := fun heq => fresh (heq ▸ hrest.closed hlater hw)
        rw [List.idxOf_cons_ne _ hne, List.idxOf_cons_ne _ hne']
        exact Nat.succ_lt_succ (ih hlater)

theorem Ordered.not_onCycle (h : Ordered next order) (hv : v ∈ order) : ¬ OnCycle next v := by
  induction h with
  | nil => cases hv
  | cons fresh hclosed hrest ih =>
      intro hcycle
      rcases List.mem_cons.mp hv with rfl | hv
      · exact fresh ((Ordered.cons fresh hclosed hrest).behind hcycle)
      · exact ih hv hcycle

/-- What a search that came to an end has done to the list of finished nodes. -/
structure Explored (next : α → List α) (stack done done' : List α) (starts : List α) : Prop where
  ordered : Ordered next done'
  keeps : done ⊆ done'
  covers : ∀ v ∈ starts, v ∈ done'
  reached : ∀ v ∈ done', v ∈ done ∨ ∃ s ∈ starts, Reaches next s v
  clear : ∀ v ∈ done', v ∈ done ∨ v ∉ stack

theorem explored_foldlM {visit : List α → α → Option (List α)} {stack : List α}
    (hvisit : ∀ {done done' : List α} {v : α}, Ordered next done → visit done v = some done' →
      Explored next stack done done' [v]) {starts done' : List α} (hdone : Ordered next done)
    (h : starts.foldlM visit done = some done') : Explored next stack done done' starts := by
  induction starts generalizing done with
  | nil =>
      cases h
      exact ⟨hdone, List.Subset.refl _, by simp, fun v hv => .inl hv, fun v hv => .inl hv⟩
  | cons v rest ih =>
      rw [List.foldlM_cons] at h
      obtain ⟨mid, hmid, hrest⟩ := Option.bind_eq_some_iff.mp h
      have first := hvisit hdone hmid
      have later := ih first.ordered hrest
      refine ⟨later.ordered, List.Subset.trans first.keeps later.keeps, ?_, ?_, ?_⟩
      · intro w hw
        rcases List.mem_cons.mp hw with rfl | hw
        · exact later.keeps (first.covers w (by simp))
        · exact later.covers w hw
      · intro w hw
        rcases later.reached w hw with hw | ⟨s, hs, hreach⟩
        · rcases first.reached w hw with hw | ⟨s, hs, hreach⟩
          · exact .inl hw
          · cases List.mem_singleton.mp hs
            exact .inr ⟨v, by simp, hreach⟩
        · exact .inr ⟨s, List.mem_cons_of_mem _ hs, hreach⟩
      · intro w hw
        rcases later.clear w hw with hw | hw
        · exact first.clear w hw
        · exact .inr hw

theorem foldlM_eq_none {visit : List α → α → Option (List α)} {starts : List α}
    (h : starts.foldlM visit done = none) : ∃ v ∈ starts, ∃ mid, visit mid v = none := by
  induction starts generalizing done with
  | nil => cases h
  | cons v rest ih =>
      rw [List.foldlM_cons] at h
      cases hv : visit done v with
      | none => exact ⟨v, by simp, done, hv⟩
      | some mid =>
          rw [hv] at h
          obtain ⟨w, hw, hnone⟩ := ih h
          exact ⟨w, List.mem_cons_of_mem _ hw, hnone⟩

theorem reached_from_source {nodes : List α}
    (hnodes : ∀ a ∈ nodes, ∀ b, Step next b a → b ∈ nodes)
    (hacyclic : ∀ a ∈ nodes, ¬ OnCycle next a) {a : α} (ha : a ∈ nodes) :
    ∃ s ∈ nodes, (∀ b, ¬ Step next b s) ∧ Reaches next s a := by
  let before : {x // x ∈ nodes} → {x // x ∈ nodes} → Prop :=
    fun x y => Relation.TransGen (Step next) x.1 y.1
  have htrans : IsTrans _ before := ⟨fun _ _ _ => Relation.TransGen.trans⟩
  have hirrefl : Std.Irrefl before := ⟨fun x => hacyclic x.1 x.2⟩
  have hfinite : Finite {x // x ∈ nodes} := List.finite_toSet nodes
  have hwf : WellFounded before := Finite.wellFounded_of_trans_of_irrefl before
  let start : {x // x ∈ nodes} := ⟨a, ha⟩
  change ∃ s ∈ nodes, (∀ b, ¬ Step next b s) ∧ Reaches next s start.1
  induction start using hwf.induction with
  | _ x ih =>
      by_cases hpred : ∃ b, Step next b x.1
      · obtain ⟨b, hb⟩ := hpred
        obtain ⟨s, hs, hsource, hreach⟩ := ih ⟨b, hnodes x.1 x.2 b hb⟩ (.single hb)
        exact ⟨s, hs, hsource, hreach.tail hb⟩
      · exact ⟨x.1, x.2, fun b hb => hpred ⟨b, hb⟩, .refl⟩

theorem reached_from_first_iff (hnodup : (first :: rest).Nodup) (hforward : ∀ {a b}, edge a b →
      ∃ i j : Nat, i < j ∧ (first :: rest)[i]? = some a ∧ (first :: rest)[j]? = some b) :
    (∀ a ∈ first :: rest, Relation.ReflTransGen edge first a) ↔ ∀ a ∈ rest, ∃ b, edge b a := by
  constructor
  · intro hreached a ha
    rcases Relation.ReflTransGen.cases_tail (hreached a (List.mem_cons_of_mem _ ha)) with
      heq | ⟨b, _, hb⟩
    · exact absurd (heq ▸ ha) (List.nodup_cons.mp hnodup).1
    · exact ⟨b, hb⟩
  · intro hpred a ha
    obtain ⟨index, hindex⟩ := List.mem_iff_getElem?.mp ha
    -- the predecessor of a node stands before it
    induction index using Nat.strong_induction_on generalizing a with
    | _ index ih =>
        cases index with
        | zero =>
            cases hindex
            exact .refl
        | succ index =>
            obtain ⟨b, hb⟩ := hpred a (List.mem_of_getElem? hindex)
            obtain ⟨i, j, hlt, hi, hj⟩ := hforward hb
            have hsame : j = index + 1 := by
              obtain ⟨hjlt, hjget⟩ := List.getElem?_eq_some_iff.mp hj
              obtain ⟨hilt, higet⟩ := List.getElem?_eq_some_iff.mp hindex
              exact (List.Nodup.getElem_inj_iff hnodup).mp (hjget.trans higet.symm)
            exact (ih i (by omega) b (List.mem_of_getElem? hi) hi).tail hb

theorem not_onCycle_of_unique (hunique : ∀ {a b c}, Step next a c → Step next b c → a = b) {s : α}
    (hsource : ∀ b, ¬ Step next b s) (hv : Reaches next s v) : ¬ OnCycle next v := by
  induction hv with
  | refl =>
      intro hcycle
      obtain ⟨b, _, hb⟩ := Relation.TransGen.tail'_iff.mp hcycle
      exact hsource b hb
  | tail _ hstep ih =>
      intro hcycle
      obtain ⟨b, hreach, hb⟩ := Relation.TransGen.tail'_iff.mp hcycle
      cases hunique hstep hb
      exact ih (.head' hstep hreach)

theorem reached_of_isChain (h : (first :: rest).IsChain edge) :
    ∀ a ∈ first :: rest, Relation.ReflTransGen edge first a := by
  induction rest generalizing first with
  | nil =>
      intro a ha
      cases List.mem_singleton.mp ha
      exact .refl
  | cons next rest ih =>
      obtain ⟨hstep, hrest⟩ := List.isChain_cons_cons.mp h
      intro a ha
      rcases List.mem_cons.mp ha with rfl | ha
      · exact .refl
      · exact .head hstep (ih hrest a ha)

theorem pred_of_isChain (h : (first :: rest).IsChain edge) (hnodup : (first :: rest).Nodup) {a : α}
    (ha : a ∈ rest) : ∃ b ∈ first :: rest, edge b a ∧ b ≠ a := by
  induction rest generalizing first with
  | nil => cases ha
  | cons next rest ih =>
      obtain ⟨hstep, hrest⟩ := List.isChain_cons_cons.mp h
      obtain ⟨hfirst, hnodup⟩ := List.nodup_cons.mp hnodup
      rcases List.mem_cons.mp ha with rfl | ha
      · exact ⟨first, by simp, hstep, fun heq => hfirst (by simp [heq])⟩
      · obtain ⟨b, hb, hedge, hne⟩ := ih hrest hnodup ha
        exact ⟨b, List.mem_cons_of_mem _ hb, hedge, hne⟩

theorem eq_of_isChain {path : List α} (hperm : order.Perm path) (hnodup : path.Nodup)
    (horder : order.Pairwise fun a b => ¬ edge b a) (hpath : path.IsChain edge) : order = path := by
  induction path generalizing order with
  | nil => exact hperm.eq_nil
  | cons first rest ih =>
      cases order with
      | nil => exact absurd hperm.symm.eq_nil (by simp)
      | cons head others =>
          obtain ⟨hhead, hothers⟩ := List.pairwise_cons.mp horder
          have hmem : head ∈ first :: rest := hperm.mem_iff.mp (by simp)
          rcases List.mem_cons.mp hmem with rfl | hlater
          · rw [ih hperm.cons_inv (List.nodup_cons.mp hnodup).2 hothers hpath.of_cons]
          · -- the predecessor of the head in the chain would come behind it
            obtain ⟨b, hb, hedge, hne⟩ := pred_of_isChain hpath hnodup hlater
            have hbOthers : b ∈ others :=
              (List.mem_cons.mp (hperm.mem_iff.mpr hb)).resolve_left hne
            exact absurd hedge (hhead b hbOthers)

section Marks

variable [DecidableEq α]

def unmarked (nodes marked : List α) : Nat := (nodes.filter (· ∉ marked)).length

theorem unmarked_le_length (nodes marked : List α) : unmarked nodes marked ≤ nodes.length :=
  List.length_filter_le _ nodes

variable {nodes marked marked' : List α}

theorem filter_unmarked (h : marked ⊆ marked') :
    nodes.filter (· ∉ marked') = (nodes.filter (· ∉ marked)).filter (· ∉ marked') := by
  rw [List.filter_filter]
  apply List.filter_congr
  intro a _
  by_cases ha : a ∈ marked'
  · simp [ha]
  · have ha' : a ∉ marked := fun hmem => ha (h hmem)
    simp [ha, ha']

theorem unmarked_mono (h : marked ⊆ marked') : unmarked nodes marked' ≤ unmarked nodes marked := by
  rw [unmarked, filter_unmarked h]
  exact List.length_filter_le _ _

theorem unmarked_lt {v : α} (hv : v ∈ nodes) (hfresh : v ∉ marked) (h : marked ⊆ marked')
    (hmarked : v ∈ marked') : unmarked nodes marked' < unmarked nodes marked := by
  rw [unmarked, filter_unmarked h]
  apply List.length_filter_lt_length_iff_exists.mpr
  exact ⟨v, List.mem_filter.mpr ⟨hv, by simpa using hfresh⟩, by simpa using hmarked⟩

end Marks

section Search

variable [DecidableEq α] (next)

/-- The search from one node below the path `stack`, with the nodes whose search is
over in `done`, the latest first. `none`: the path met itself, or the fuel ran out. -/
def explore : Nat → List α → List α → α → Option (List α)
  | 0, _, _, _ => none
  | fuel + 1, stack, done, v =>
      if v ∈ stack then none
      else if v ∈ done then some done
      else ((next v).foldlM (explore fuel (v :: stack)) done).map (v :: ·)

variable {next} {done stack : List α} {fuel : Nat} {v : α}

theorem explore_of_mem_stack (h : v ∈ stack) : explore next (fuel + 1) stack done v = none := by
  simp [explore, h]

theorem explore_of_mem_done (hs : v ∉ stack) (h : v ∈ done) :
    explore next (fuel + 1) stack done v = some done := by
  simp [explore, hs, h]

theorem explore_of_fresh (hs : v ∉ stack) (hd : v ∉ done) :
    explore next (fuel + 1) stack done v =
      ((next v).foldlM (explore next fuel (v :: stack)) done).map (v :: ·) := by
  simp [explore, hs, hd]

/-- A search that comes to an end has put its node and all that follows in order. -/
theorem explored_of_explore {done' : List α} (hdone : Ordered next done)
    (h : explore next fuel stack done v = some done') : Explored next stack done done' [v] := by
  induction fuel generalizing stack done done' v with
  | zero => cases h
  | succ fuel ih =>
      by_cases hs : v ∈ stack
      · rw [explore_of_mem_stack hs] at h
        cases h
      by_cases hd : v ∈ done
      · rw [explore_of_mem_done hs hd] at h
        cases h
        exact ⟨hdone, List.Subset.refl _, by simpa using hd, fun w hw => .inl hw,
          fun w hw => .inl hw⟩
      rw [explore_of_fresh hs hd] at h
      obtain ⟨inner, hinner, rfl⟩ := Option.map_eq_some_iff.mp h
      have below := explored_foldlM ih hdone hinner
      have hfresh : v ∉ inner := fun hv => by
        rcases below.clear v hv with hv | hv
        · exact hd hv
        · exact hv (by simp)
      refine ⟨.cons hfresh below.covers below.ordered, ?_, by simp, ?_, ?_⟩
      · exact fun w hw => List.mem_cons_of_mem _ (below.keeps hw)
      · intro w hw
        rcases List.mem_cons.mp hw with rfl | hw
        · exact .inr ⟨w, by simp, .refl⟩
        · rcases below.reached w hw with hw | ⟨s, hs, hreach⟩
          · exact .inl hw
          · exact .inr ⟨v, by simp, .head hs hreach⟩
      · intro w hw
        rcases List.mem_cons.mp hw with rfl | hw
        · exact .inr hs
        · rcases below.clear w hw with hw | hw
          · exact .inl hw
          · exact .inr fun hmem => hw (List.mem_cons_of_mem _ hmem)

theorem explored_all {starts done' : List α} (hdone : Ordered next done)
    (h : starts.foldlM (explore next fuel stack) done = some done') :
    Explored next stack done done' starts :=
  explored_foldlM explored_of_explore hdone h

theorem onCycle_of_explore {nodes : List α} (hnodes : ∀ a ∈ nodes, ∀ b ∈ next a, b ∈ nodes)
    (hnodup : stack.Nodup) (hstack : stack ⊆ nodes) (hv : v ∈ nodes)
    (hpath : ∀ s ∈ stack, Relation.TransGen (Step next) s v)
    (hfuel : nodes.length < fuel + stack.length) (h : explore next fuel stack done v = none) :
    ∃ c, Reaches next v c ∧ OnCycle next c := by
  induction fuel generalizing stack done v with
  | zero =>
      have hlen := (hnodup.subperm hstack).length_le
      omega
  | succ fuel ih =>
      by_cases hs : v ∈ stack
      · exact ⟨v, .refl, hpath v hs⟩
      by_cases hd : v ∈ done
      · rw [explore_of_mem_done hs hd] at h
        cases h
      rw [explore_of_fresh hs hd, Option.map_eq_none_iff] at h
      obtain ⟨w, hw, mid, hnone⟩ := foldlM_eq_none h
      have hstack' : v :: stack ⊆ nodes := List.cons_subset.mpr ⟨hv, hstack⟩
      have hpath' : ∀ s ∈ v :: stack, Relation.TransGen (Step next) s w := by
        intro s hs
        rcases List.mem_cons.mp hs with rfl | hs
        · exact .single hw
        · exact (hpath s hs).tail hw
      obtain ⟨c, hc, hcycle⟩ := ih (List.nodup_cons.mpr ⟨hs, hnodup⟩) hstack'
        (hnodes v hv w hw) hpath' (by simpa using by omega) hnone
      exact ⟨c, .head hw hc, hcycle⟩

end Search

end Qontinui.DepthFirst
