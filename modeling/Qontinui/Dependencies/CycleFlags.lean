import Qontinui.Base.FirstChains
import Qontinui.Dependencies.Graph

/-!
Which workflows and references the graph marks as circular. The search for cycles enters each
workflow along the first of the chains that lead to it and finds a cycle where such a chain can
be closed, so a reference to a workflow that the search has already left is on no cycle it finds.
-/

namespace Qontinui.Dependencies

open DepthFirst FallibleLoops FirstChains
open Relation (TransGen ReflTransGen)

/-- The cycle of a closing, which is a chain in reverse and the id that it comes back to. -/
def cycleOf : List String → List String
  | [] => []
  | v :: p => p.reverse.drop (p.reverse.idxOf v) ++ [v]

/-! ### Neighbours on a cycle -/

variable {l r : List String} {a b v : String}

theorem mem_zip_tail_iff : (a, b) ∈ l.zip l.tail ↔ [a, b] <:+: l := by
  induction l with
  | nil => simp
  | cons x l ih =>
      cases l with
      | nil => simp [List.infix_cons_iff, List.prefix_cons_iff]
      | cons y l =>
          rw [List.infix_cons_iff, ← ih, List.tail_cons, List.zip_cons_cons, List.mem_cons,
            Prod.mk.injEq, List.tail_cons]
          simp [List.cons_prefix_cons]

theorem mem_cyclePairs_cons : (a, b) ∈ cyclePairs (v :: l) ↔ [a, b] <:+: v :: (l ++ [v]) := by
  have hzip : cyclePairs (v :: l) = (v :: (l ++ [v])).zip (v :: (l ++ [v])).tail := by
    have hsplit : (v :: (l ++ [v])).zip (v :: (l ++ [v])).tail =
        (v :: l ++ [v]).zip ((l ++ [v]) ++ []) := by simp
    rw [hsplit, List.zip_append (by simp)]
    simp [cyclePairs, List.rotate_cons_succ]
  rw [hzip, mem_zip_tail_iff]

/-- Neighbours in the part of a chain above one of its nodes. -/
theorem infix_above_iff (hnodup : (l ++ v :: r).Nodup) :
    [b, a] <:+: l ++ [v] ↔ ∃ q, b :: a :: q <:+ l ++ v :: r ∧ v ∈ a :: q := by
  constructor
  · rintro ⟨s, t, heq⟩
    refine ⟨t ++ r, ⟨s, ?_⟩, ?_⟩
    · have hsplit : l ++ v :: r = l ++ [v] ++ r := by simp
      rw [hsplit, ← heq]
      simp
    · rcases List.eq_nil_or_concat t with rfl | ⟨t, x, rfl⟩
      · have hlast : a = v := by simpa using congrArg List.getLast? heq
        simp [hlast]
      · have hlast : s ++ [b, a] ++ t.concat x = (s ++ [b, a] ++ t) ++ [x] := by simp
        rw [hlast] at heq
        have hx : x = v := by simpa using (List.append_inj' heq rfl).2
        simp [hx]
  · rintro ⟨q, ⟨e, heq⟩, hv⟩
    obtain ⟨f, g, hfg⟩ := List.append_of_mem hv
    have hwhole : l ++ v :: r = (e ++ b :: f) ++ v :: g := by
      rw [← heq, hfg]
      simp
    have hl : v ∉ l := fun hmem =>
      (List.nodup_append.mp hnodup).2.2 v hmem v List.mem_cons_self rfl
    have hr : v ∉ r := (List.nodup_cons.mp (List.nodup_append.mp hnodup).2.1).1
    obtain ⟨rfl, -, -⟩ := (List.append_cons_inj_of_notMem hl hr).mp hwhole
    cases f with
    | nil =>
        cases hfg
        exact ⟨e, [], by simp⟩
    | cons x f =>
        cases hfg
        exact ⟨e, f ++ [v], by simp⟩

theorem cycleOf_append (hnodup : (l ++ v :: r).Nodup) :
    cycleOf (v :: (l ++ v :: r)) = v :: (l.reverse ++ [v]) := by
  have hr : v ∉ r.reverse := by
    rw [List.mem_reverse]
    exact (List.nodup_cons.mp (List.nodup_append.mp hnodup).2.1).1
  have hreverse : (l ++ v :: r).reverse = r.reverse ++ v :: l.reverse := by simp
  rw [cycleOf, hreverse, List.idxOf_append_of_notMem hr, List.idxOf_cons_self, Nat.add_zero,
    List.drop_left, List.cons_append]

theorem pair_infix_reverse : [a, b] <:+: l ↔ [b, a] <:+: l.reverse := by
  rw [← List.reverse_infix]
  simp

theorem infix_cycleOf_iff {p : List String} (hnodup : p.Nodup) (hv : v ∈ p) :
    [a, b] <:+: cycleOf (v :: p) ↔
      (b = v ∧ p.head? = some a) ∨ ∃ q, b :: a :: q <:+ p ∧ v ∈ a :: q := by
  obtain ⟨l, r, rfl⟩ := List.append_of_mem hv
  have hfirst : [b, a] <+: v :: (l ++ [v]) ↔ b = v ∧ (l ++ v :: r).head? = some a := by
    rw [List.cons_prefix_cons]
    cases l with
    | nil | cons => simp [List.cons_prefix_cons, eq_comm]
  rw [cycleOf_append hnodup, pair_infix_reverse, List.reverse_cons, List.reverse_append,
    List.reverse_reverse, List.reverse_singleton, List.singleton_append, List.cons_append,
    List.infix_cons_iff, hfirst, infix_above_iff hnodup]

theorem mem_cyclePairs_iff {p : List String} (hnodup : p.Nodup) (hv : v ∈ p) :
    (a, b) ∈ cyclePairs (cycleOf (v :: p)) ↔
      (a = v ∧ b = v) ∨ (b = v ∧ p.head? = some a) ∨ ∃ q, b :: a :: q <:+ p ∧ v ∈ a :: q := by
  rw [← infix_cycleOf_iff hnodup hv]
  obtain ⟨l, r, rfl⟩ := List.append_of_mem hv
  rw [cycleOf_append hnodup, mem_cyclePairs_cons, pair_infix_reverse,
    pair_infix_reverse (l := v :: (l.reverse ++ [v]))]
  simp [List.infix_cons_iff, List.cons_prefix_cons, and_comm]

/-! ### What the search for cycles has found -/

section Search

variable {minText : List String → String} {workflows : List Workflow} {starts : List String}

def textOf (minText : List String → String) (c : List String) : String :=
  normalizeCycle minText (cycleOf c)

/-- The state of the search once some chains and closings are tried. -/
structure Searched (minText : List String → String) (starts : List String)
    (next : String → List String) (tried : List String → Prop) (search : CycleSearch) : Prop where
  visited : ∀ v, v ∈ search.visited ↔ ∃ p, Chain starts next (v :: p) ∧ tried (v :: p)
  cycles : ∀ cycle, cycle ∈ search.cycles ↔
    ∃ c, Kept starts next (textOf minText) c ∧ tried c ∧ cycleOf c = cycle
  texts : ∀ c, Closing starts next c → tried c →
    ∃ cycle ∈ search.cycles, normalizeCycle minText cycle = textOf minText c

/-- What is tried when the search comes to the first id of `c` along the rest. -/
abbrev Met (starts : List String) (next : String → List String) (c q : List String) : Prop :=
  Before starts next q c ∨ q <:+ c.tail

/-- What is tried when the search leaves that id again. -/
abbrev Left (starts : List String) (next : String → List String) (c q : List String) : Prop :=
  Met starts next c q ∨ c <:+ q

variable {next : String → List String} {id : String} {p : List String} {search : CycleSearch}

theorem Searched.congr {tried tried' : List String → Prop}
    (h : Searched minText starts next tried search)
    (htried : ∀ v p, Chain starts next p → v ∈ choices starts next p →
      (tried (v :: p) ↔ tried' (v :: p))) :
    Searched minText starts next tried' search := by
  have hchain : ∀ v p, Chain starts next (v :: p) → (tried (v :: p) ↔ tried' (v :: p)) := by
    intro v p hp
    cases hp with
    | cons choice _ rest => exact htried v p rest choice
  have hclosing : ∀ c, Closing starts next c → (tried c ↔ tried' c) := by
    intro c hc
    cases hc with
    | close first choice _ => exact htried _ _ first.chain choice
  refine ⟨fun v => ?_, fun cycle => ?_, fun c hc hc' => h.texts c hc ((hclosing c hc).mpr hc')⟩
  · rw [h.visited]
    exact exists_congr fun p => and_congr_right (hchain v p)
  · rw [h.cycles]
    exact exists_congr fun c =>
      and_congr_right fun hkept => and_congr_left fun _ => hclosing c hkept.closing

theorem mem_recordCycle {cycles : List (List String)} {cycle new : List String} :
    cycle ∈ recordCycle minText cycles new ↔ cycle ∈ cycles ∨ cycle = new ∧
      ∀ c ∈ cycles, normalizeCycle minText c ≠ normalizeCycle minText new := by
  unfold recordCycle
  split
  · next hold =>
      obtain ⟨c, hc, heq⟩ := List.any_eq_true.mp hold
      constructor
      · exact Or.inl
      · rintro (hmem | ⟨-, hnew⟩)
        · exact hmem
        · exact absurd (by simpa using heq) (hnew c hc)
  · next hnew =>
      simp only [List.any_eq_true, beq_iff_eq, not_exists, not_and] at hnew
      rw [List.mem_append, List.mem_singleton]
      exact or_congr_right ⟨fun h => ⟨h, hnew⟩, And.left⟩

/-- A closing is recorded unless one with the same text is. -/
theorem Searched.record (hclosing : Closing starts next (id :: p))
    (h : Searched minText starts next (Met starts next (id :: p)) search) :
    Searched minText starts next (Left starts next (id :: p))
      { search with cycles := recordCycle minText search.cycles (cycleOf (id :: p)) } := by
  have hchain := hclosing.first.chain
  have hover : ∀ c, Closing starts next c → id :: p <:+ c → id :: p = c := by
    intro c hc hsuffix
    rcases hc.suffix_cases hsuffix with heq | heq | hfirst
    · exact heq
    · cases heq
    · exact absurd (List.suffix_refl _) (hclosing.not_suffix hfirst.chain)
  have hnew : (∀ cycle ∈ search.cycles,
      normalizeCycle minText cycle ≠ textOf minText (id :: p)) ↔
      Kept starts next (textOf minText) (id :: p) := by
    constructor
    · intro hall
      refine ⟨hclosing, fun d hd hbefore heq => ?_⟩
      obtain ⟨cycle, hcycle, htext⟩ := h.texts d hd (.inl hbefore)
      exact hall cycle hcycle (htext.trans heq)
    · intro hkept cycle hcycle
      obtain ⟨c, hc, htried, rfl⟩ := (h.cycles cycle).mp hcycle
      rcases htried with hbefore | hsuffix
      · exact hkept.new c hc.closing hbefore
      · exact absurd hsuffix (hc.closing.not_suffix hchain)
  refine ⟨fun v => ?_, fun cycle => ?_, fun c hc htried => ?_⟩
  · rw [h.visited]
    refine exists_congr fun q => and_congr_right fun hq => ⟨Or.inl, fun htried => ?_⟩
    exact htried.resolve_right (hclosing.not_suffix hq)
  · rw [mem_recordCycle, h.cycles]
    constructor
    · rintro (⟨c, hc, htried, heq⟩ | ⟨rfl, hall⟩)
      · exact ⟨c, hc, .inl htried, heq⟩
      · exact ⟨id :: p, hnew.mp hall, .inr (List.suffix_refl _), rfl⟩
    · rintro ⟨c, hc, htried | hsuffix, rfl⟩
      · exact .inl ⟨c, hc, htried, rfl⟩
      · cases hover c hc.closing hsuffix
        exact .inr ⟨rfl, hnew.mpr hc⟩
  · rcases htried with htried | hsuffix
    · obtain ⟨cycle, hcycle, htext⟩ := h.texts c hc htried
      exact ⟨cycle, mem_recordCycle.mpr (.inl hcycle), htext⟩
    · cases hover c hc hsuffix
      by_cases hall : ∀ cycle ∈ search.cycles,
          normalizeCycle minText cycle ≠ textOf minText (id :: p)
      · exact ⟨cycleOf (id :: p), mem_recordCycle.mpr (.inr ⟨rfl, hall⟩), rfl⟩
      · push Not at hall
        obtain ⟨cycle, hcycle, htext⟩ := hall
        exact ⟨cycle, mem_recordCycle.mpr (.inl hcycle), htext⟩

theorem Searched.skip (hfresh : id ∉ p) (hvisited : id ∈ search.visited)
    (h : Searched minText starts next (Met starts next (id :: p)) search) :
    Searched minText starts next (Left starts next (id :: p)) search := by
  obtain ⟨q, hq, htried⟩ := (h.visited id).mp hvisited
  have hbefore : Before starts next (id :: q) (id :: p) :=
    htried.resolve_right fun hsuffix => hfresh (hsuffix.subset List.mem_cons_self)
  have hnone : ∀ c, Closing starts next c → ¬ id :: p <:+ c := by
    intro c hc hsuffix
    rcases hc.suffix_cases hsuffix with rfl | heq | hfirst
    · exact hfresh hc.back
    · cases heq
    · exact hfirst.first id q hq rfl hbefore
  refine ⟨fun v => ?_, fun cycle => ?_, fun c hc htried => ?_⟩
  · rw [h.visited]
    constructor
    · rintro ⟨r, hr, htried⟩
      exact ⟨r, hr, .inl htried⟩
    · rintro ⟨r, hr, htried | ⟨e, heq⟩⟩
      · exact ⟨r, hr, htried⟩
      · obtain ⟨r', hr', hless⟩ := exists_before hq hbefore (heq.symm ▸ hr)
          (show (e ++ id :: p).head? = some v by rw [heq]; rfl)
        exact ⟨r', hr', .inl hless⟩
  · rw [h.cycles]
    exact exists_congr fun c => and_congr_right fun hc => and_congr_left fun _ =>
      ⟨Or.inl, fun htried => htried.resolve_right (hnone c hc.closing)⟩
  · exact h.texts c hc (htried.resolve_right (hnone c hc))

/-- What is tried once a chain is, and some of its choices with all that goes on from them. -/
def Tried (starts : List String) (next : String → List String) (c done : List String)
    (q : List String) : Prop :=
  (Before starts next q c ∨ q <:+ c) ∨ ∃ b ∈ done, b :: c <:+ q

theorem tried_iff_before {c done rest : List String} {b : String}
    (hchoices : choices starts next c = done ++ b :: rest)
    (hnodup : (choices starts next c).Nodup) (q : List String) :
    Tried starts next c done q ↔ Met starts next (b :: c) q := by
  have hprecedes : ∀ a, Precedes (choices starts next c) a b ↔ a ∈ done := by
    intro a
    rw [hchoices] at hnodup ⊢
    exact precedes_iff hnodup
  have hbefore : Before starts next q (b :: c) ↔
      Before starts next q c ∨ ∃ a ∈ done, a :: c <:+ q := by
    rw [Before]
    simp only [hprecedes]
  rw [Tried, Met, hbefore, List.tail_cons, or_right_comm]

theorem searched_foldlM {c : List String} {visit : CycleSearch → String → Option CycleSearch}
    (hnodup : (choices starts next c).Nodup)
    (hvisit : ∀ b ∈ choices starts next c, ∀ s t, s.recursionStack = c.reverse →
      Searched minText starts next (Met starts next (b :: c)) s → visit s b = some t →
      t.recursionStack = c.reverse ∧ Searched minText starts next (Left starts next (b :: c)) t)
    {s t : CycleSearch} (hstack : s.recursionStack = c.reverse)
    (h : Searched minText starts next (Tried starts next c []) s)
    (hrun : (choices starts next c).foldlM visit s = some t) :
    t.recursionStack = c.reverse ∧
      Searched minText starts next (Tried starts next c (choices starts next c)) t := by
  refine foldlM_invariant (fun done s => s.recursionStack = c.reverse ∧
    Searched minText starts next (Tried starts next c done) s) ?_ ⟨hstack, h⟩ hrun
  rintro done b rest s t hchoices ⟨hstack, h⟩ hb
  have hcall := tried_iff_before hchoices hnodup
  obtain ⟨hstack', h'⟩ := hvisit b (by simp [hchoices]) s t hstack
    (h.congr fun v p _ _ => hcall (v :: p)) hb
  refine ⟨hstack', h'.congr fun v p _ _ => ?_⟩
  rw [Left, ← hcall (v :: p), Tried, Tried, or_assoc]
  refine or_congr_right ?_
  simp only [List.mem_append, List.mem_singleton, or_and_right, exists_or, exists_eq_left]

theorem Searched.enter (hc : FirstChain starts next (id :: p))
    (h : Searched minText starts next (Met starts next (id :: p)) search) (stack : List String) :
    Searched minText starts next (Tried starts next (id :: p) [])
      ⟨search.cycles, add search.visited id, stack⟩ := by
  have htried : ∀ q, Tried starts next (id :: p) [] q ↔
      Met starts next (id :: p) q ∨ q = id :: p := by
    intro q
    simp only [Tried, Met, List.tail_cons, List.suffix_cons_iff, List.not_mem_nil, false_and, exists_false, or_false]
    rw [or_comm (a := q = id :: p), or_assoc]
  refine ⟨fun v => ?_, fun cycle => ?_, fun c hc' hc'' => ?_⟩
  · rw [mem_add, h.visited]
    simp only [htried]
    constructor
    · rintro (⟨q, hq, htried⟩ | rfl)
      · exact ⟨q, hq, .inl htried⟩
      · exact ⟨p, hc.chain, .inr rfl⟩
    · rintro ⟨q, hq, htried | heq⟩
      · exact .inl ⟨q, hq, htried⟩
      · exact .inr (List.cons.inj heq).1
  · rw [h.cycles]
    refine exists_congr fun c => and_congr_right fun hkept => and_congr_left fun _ => ?_
    rw [htried]
    exact ⟨Or.inl, fun h => h.resolve_right fun heq =>
      hkept.closing.not_suffix hc.chain (heq ▸ List.suffix_refl _)⟩
  · exact h.texts c hc' (((htried c).mp hc'').resolve_right fun heq =>
      hc'.not_suffix hc.chain (heq ▸ List.suffix_refl _))

theorem Searched.leave
    (h : Searched minText starts next
      (Tried starts next (id :: p) (choices starts next (id :: p))) search) (stack : List String) :
    Searched minText starts next (Left starts next (id :: p))
      ⟨search.cycles, search.visited, stack⟩ := by
  have hsame : Searched minText starts next
      (Tried starts next (id :: p) (choices starts next (id :: p)))
      ⟨search.cycles, search.visited, stack⟩ := ⟨h.visited, h.cycles, h.texts⟩
  refine hsame.congr fun v q hq hv => ?_
  have hgoes : (v :: q = id :: p ∨ ∃ b ∈ choices starts next (id :: p), b :: id :: p <:+ v :: q) ↔
      id :: p <:+ v :: q := by
    constructor
    · rintro (heq | ⟨b, -, hsuffix⟩)
      · exact heq ▸ List.suffix_refl _
      · exact (List.suffix_cons b (id :: p)).trans hsuffix
    · intro hsuffix
      rcases List.suffix_cons_iff.mp hsuffix with heq | ⟨e, rfl⟩
      · exact .inl heq.symm
      · rcases List.eq_nil_or_concat e with rfl | ⟨e, b, rfl⟩
        · exact .inr ⟨v, hv, List.suffix_refl _⟩
        · have hb : b :: id :: p <:+ e.concat b ++ id :: p := ⟨e, by simp⟩
          cases hq.of_suffix hb with
          | cons hchoice _ _ => exact .inr ⟨b, hchoice, hb.trans (List.suffix_cons v _)⟩
  rw [Tried, Left, Met, List.tail_cons, List.suffix_cons_iff, ← hgoes]
  tauto

theorem idxOf?_of_mem {items : List String} {x : String} (h : x ∈ items) :
    items.idxOf? x = some (items.idxOf x) := by
  obtain ⟨i, hi⟩ := Option.isSome_iff_exists.mp (List.isSome_idxOf?.mpr h)
  rw [List.idxOf_eq_getD_idxOf?, hi, Option.getD_some]

/-- The search below an id, at the end of a first chain, tries all that goes on from there. -/
theorem cycleDfs_searched (hnodup : ∀ v, (searched workflows v).Nodup) {fuel : Nat}
    {after : CycleSearch} (hp : FirstChain starts (searched workflows) p)
    (hid : id ∈ choices starts (searched workflows) p)
    (hstack : search.recursionStack = p.reverse)
    (h : Searched minText starts (searched workflows) (Met starts (searched workflows) (id :: p))
      search)
    (hrun : cycleDfs minText workflows fuel id p.reverse search = some after) :
    after.recursionStack = p.reverse ∧ Searched minText starts (searched workflows)
      (Left starts (searched workflows) (id :: p)) after := by
  induction fuel generalizing id p search after with
  | zero => cases hrun
  | succ fuel ih =>
      obtain ⟨cycles, visited, stack⟩ := search
      obtain rfl : stack = p.reverse := hstack
      rw [cycleDfs] at hrun
      dsimp only at hrun
      split at hrun
      · next hmem =>
          have hback : id ∈ p := List.mem_reverse.mp hmem
          rw [idxOf?_of_mem hmem] at hrun
          cases hrun
          exact ⟨rfl, Searched.record (.close hp hid hback) h⟩
      · next hmem =>
          have hfresh : id ∉ p := fun hback => hmem (List.mem_reverse.mpr hback)
          split at hrun
          · next hvisited =>
              cases hrun
              exact ⟨rfl, h.skip hfresh hvisited⟩
          · next hnew =>
              have hc : FirstChain starts (searched workflows) (id :: p) := by
                refine ⟨.cons hid hfresh hp.chain, fun v q hq hhead hbefore => ?_⟩
                cases hhead
                exact hnew ((h.visited id).mpr ⟨q, hq, .inl hbefore⟩)
              have hpath : p.reverse ++ [id] = (id :: p).reverse := List.reverse_cons.symm
              have hadd : add p.reverse id = (id :: p).reverse := by
                rw [add, if_neg hmem, hpath]
              rw [hadd, hpath] at hrun
              obtain ⟨below, hbelow, hlast⟩ := Option.bind_eq_some_iff.mp hrun
              cases hlast
              have hchoices : (choices starts (searched workflows) (id :: p)).Nodup := hnodup id
              obtain ⟨hstack, hall⟩ := searched_foldlM hchoices
                (fun b hb s t hs hsearched hvisit => ih hc hb hs hsearched hvisit) rfl
                (h.enter hc (id :: p).reverse) hbelow
              refine ⟨?_, hall.leave _⟩
              rw [hstack, List.reverse_cons, List.filter_append, List.filter_eq_self.mpr]
              · simp
              · intro x hx
                have hne : x ≠ id := fun heq => hmem (heq ▸ hx)
                simpa using hne

theorem findCircularDependencies_eq : findCircularDependencies minText workflows =
    ((workflows.map (·.id)).foldlM (fun (search : CycleSearch) id =>
      if id ∈ search.visited then some search
      else cycleDfs minText workflows (enough workflows) id [] search) ⟨[], [], []⟩).map
        (·.cycles) := by
  rw [List.foldlM_map]
  rfl

/-- The cycles that the search finds: those of the closings that no closing before them has the
text of. -/
theorem mem_findCircularDependencies (hdistinct : DistinctIds workflows)
    {cycles : List (List String)} (h : findCircularDependencies minText workflows = some cycles)
    {cycle : List String} :
    cycle ∈ cycles ↔ ∃ c, Kept (workflows.map (·.id)) (getDependencies workflows)
      (textOf minText) c ∧ cycleOf c = cycle := by
  rw [findCircularDependencies_eq] at h
  obtain ⟨search, hrun, rfl⟩ := Option.map_eq_some_iff.mp h
  have hnodup : ∀ v, (searched workflows v).Nodup := by
    rw [searched_eq hdistinct]
    exact nodup_getDependencies workflows
  have hroot : FirstChain (workflows.map (·.id)) (searched workflows) [] :=
    ⟨.nil, by simp⟩
  have hstart : Searched minText (workflows.map (·.id)) (searched workflows)
      (Tried (workflows.map (·.id)) (searched workflows) [] []) ⟨[], [], []⟩ := by
    have hnone : ∀ v p, ¬ Tried (workflows.map (·.id)) (searched workflows) [] [] (v :: p) := by
      simp [Tried, Before]
    have hclosing : ∀ c, Closing (workflows.map (·.id)) (searched workflows) c →
        ¬ Tried (workflows.map (·.id)) (searched workflows) [] [] c := by
      intro c hc
      cases hc with
      | close _ _ _ => exact hnone _ _
    refine ⟨fun v => by simp [hnone], fun cycle => ?_, fun c hc htried => ?_⟩
    · refine ⟨fun hmem => absurd hmem List.not_mem_nil, ?_⟩
      rintro ⟨c, hc, htried, -⟩
      exact absurd htried (hclosing c hc.closing)
    · exact absurd htried (hclosing c hc)
  have hchoices : (choices (workflows.map (·.id)) (searched workflows) []).Nodup := hdistinct
  have hvisit : ∀ id ∈ choices (workflows.map (·.id)) (searched workflows) [], ∀ s t,
      s.recursionStack = ([] : List String).reverse →
      Searched minText (workflows.map (·.id)) (searched workflows)
        (Met (workflows.map (·.id)) (searched workflows) [id]) s →
      (if id ∈ s.visited then some s
        else cycleDfs minText workflows (enough workflows) id [] s) = some t →
      t.recursionStack = ([] : List String).reverse ∧
      Searched minText (workflows.map (·.id)) (searched workflows)
        (Left (workflows.map (·.id)) (searched workflows) [id]) t := by
    intro id hid s t hs hsearched hvisit
    split at hvisit
    · next hvisited =>
        cases hvisit
        exact ⟨hs, hsearched.skip List.not_mem_nil hvisited⟩
    · exact cycleDfs_searched hnodup hroot hid hs hsearched hvisit
  obtain ⟨-, hall⟩ := searched_foldlM hchoices hvisit rfl hstart hrun
  rw [← searched_eq hdistinct, hall.cycles]
  refine exists_congr fun c => and_congr_right fun hc => and_iff_right ?_
  -- every closing goes on from a start
  obtain ⟨v, p, rfl⟩ : ∃ v p, c = v :: p := by
    cases hc.closing with
    | close _ _ _ => exact ⟨_, _, rfl⟩
  rcases List.eq_nil_or_concat p with rfl | ⟨e, b, rfl⟩
  · exact absurd hc.closing.back List.not_mem_nil
  · have hb : [b] <:+ e.concat b := ⟨e, by simp⟩
    cases hc.closing.first.chain.of_suffix hb with
    | cons hchoice _ _ => exact .inr ⟨b, hchoice, hb.trans (List.suffix_cons v _)⟩

end Search

/-! ### The flags -/

section Flags

variable {minText : List String → String} {workflows : List Workflow}

/-- The search follows a reference to an id that it first meets there, or back to an id on its way
with a cycle that it records. A reference of a workflow to itself may be on the seam of a cycle
too, where the first id stands next to its repetition at the end. -/
def Followed (minText : List String → String) (workflows : List Workflow) (a b : String) : Prop :=
  (∃ p, FirstChain (workflows.map (·.id)) (getDependencies workflows) (b :: a :: p)) ∨
  (∃ p, Kept (workflows.map (·.id)) (getDependencies workflows) (textOf minText)
    (b :: a :: p)) ∨
  a = b ∧ ∃ p, Kept (workflows.map (·.id)) (getDependencies workflows) (textOf minText) (b :: p)

variable {a b : String}

theorem onCycle_of_mem_cyclePairs {starts : List String} {next : String → List String} {v : String}
    {p : List String} (hc : Closing starts next (v :: p))
    (h : (a, b) ∈ cyclePairs (cycleOf (v :: p))) : OnCycle next a ∧ Reaches next b a := by
  have hchain := hc.first.chain
  rw [mem_cyclePairs_iff hchain.nodup hc.back] at h
  cases hc with
  | close first choice back =>
      cases p with
      | nil => cases back
      | cons u p =>
          have hvu : Reaches next v u := hchain.reaches back
          have huv : Step next u v := choice
          rcases h with ⟨rfl, rfl⟩ | ⟨rfl, hhead⟩ | ⟨q, hq, hv⟩
          · exact ⟨.tail' hvu huv, .refl⟩
          · cases hhead
            exact ⟨.head' huv hvu, hvu⟩
          · have hbq := hchain.of_suffix hq
            have hbu : Reaches next b u := hchain.reaches (hq.subset List.mem_cons_self)
            cases hbq with
            | cons hab _ haq =>
                have hba : Reaches next b a := (hbu.tail huv).trans (haq.reaches hv)
                exact ⟨.head' hab hba, hba⟩

theorem followed_of_mem_cyclePairs {c : List String}
    (hc : Kept (workflows.map (·.id)) (getDependencies workflows) (textOf minText) c)
    (h : (a, b) ∈ cyclePairs (cycleOf c)) : Followed minText workflows a b := by
  obtain ⟨v, p, rfl⟩ : ∃ v p, c = v :: p := by
    cases hc.closing with
    | close _ _ _ => exact ⟨_, _, rfl⟩
  rw [mem_cyclePairs_iff hc.closing.first.chain.nodup hc.closing.back] at h
  rcases h with ⟨rfl, rfl⟩ | ⟨rfl, hhead⟩ | ⟨q, hq, -⟩
  · exact .inr (.inr ⟨rfl, p, hc⟩)
  · obtain ⟨p', rfl⟩ := List.head?_eq_some_iff.mp hhead
    exact .inr (.inl ⟨p', hc⟩)
  · exact .inl ⟨q, hc.closing.first.of_suffix hq⟩

theorem exists_kept_of_followed (hall : ∀ x y, Step (getDependencies workflows) x y →
      Reaches (getDependencies workflows) y x → Followed minText workflows x y)
    (hab : Step (getDependencies workflows) a b) (hba : Reaches (getDependencies workflows) b a) :
    ∃ c, Kept (workflows.map (·.id)) (getDependencies workflows) (textOf minText) c ∧
      (a, b) ∈ cyclePairs (cycleOf c) := by
  rcases hall a b hab hba with ⟨p, hfirst⟩ | ⟨p, hkept⟩ | ⟨rfl, p, hkept⟩
  · obtain ⟨v, q, hkept, hsuffix, hv⟩ := exists_kept_over (textOf minText) hfirst hba
      fun x y hxy hyx => (hall x y hxy hyx).imp_right (Or.imp_right And.left)
    refine ⟨v :: q, hkept, ?_⟩
    rw [mem_cyclePairs_iff hkept.closing.first.chain.nodup hkept.closing.back]
    exact .inr (.inr ⟨p, hsuffix, hv⟩)
  · refine ⟨b :: a :: p, hkept, ?_⟩
    rw [mem_cyclePairs_iff hkept.closing.first.chain.nodup hkept.closing.back]
    exact .inr (.inl ⟨rfl, rfl⟩)
  · refine ⟨a :: p, hkept, ?_⟩
    rw [mem_cyclePairs_iff hkept.closing.first.chain.nodup hkept.closing.back]
    exact .inl ⟨rfl, rfl⟩

/-- The flags of a graph say which workflows and references are on a cycle. -/
structure FlagsExact (workflows : List Workflow) (graph : DependencyGraph) : Prop where
  nodes : ∀ id node, graph.nodes.get? id = some node →
    (node.isCircular = true ↔ TransGen (Refers workflows) id id)
  edges : ∀ edge ∈ graph.edges,
    (edge.isCyclic = true ↔ ReflTransGen (Refers workflows) edge.toId edge.fromId)

/-- The flags of a fresh graph are exact if and only if the search for cycles follows every
reference that is on a cycle. -/
theorem flags_exact_iff (minText : List String → String) (hdistinct : DistinctIds workflows)
    {analyzer : Analyzer} {now : Int} {useCache : Bool}
    (hfresh : analyzer.cached now useCache = none) :
    ∃ graph after,
      buildDependencyGraph minText now workflows useCache analyzer = some (graph, after) ∧
      (FlagsExact workflows graph ↔
        ∀ a b, Refers workflows a b → ReflTransGen (Refers workflows) b a →
          Followed minText workflows a b) := by
  obtain ⟨graph, hgraph⟩ := freshGraph_returns minText now hdistinct
  refine ⟨graph, ⟨some graph, now⟩, by simp [buildDependencyGraph, hfresh, hgraph], ?_⟩
  obtain ⟨hcycles, hshows, -⟩ := freshGraph_shows hdistinct hgraph
  have hpainted : ∀ a b, (a, b) ∈ graph.cycles.flatMap cyclePairs ↔
      ∃ c, Kept (workflows.map (·.id)) (getDependencies workflows) (textOf minText) c ∧
        (a, b) ∈ cyclePairs (cycleOf c) := by
    intro a b
    simp only [List.mem_flatMap, mem_findCircularDependencies hdistinct hcycles]
    constructor
    · rintro ⟨_, ⟨c, hc, rfl⟩, hpair⟩
      exact ⟨c, hc, hpair⟩
    · rintro ⟨c, hc, hpair⟩
      exact ⟨_, ⟨c, hc, rfl⟩, hpair⟩
  have hsound : ∀ a b, (a, b) ∈ graph.cycles.flatMap cyclePairs →
      TransGen (Refers workflows) a a ∧ ReflTransGen (Refers workflows) b a := by
    intro a b hpair
    obtain ⟨c, hc, hmem⟩ := (hpainted a b).mp hpair
    rw [← step_getDependencies hdistinct]
    cases hc.closing with
    | close first choice back => exact onCycle_of_mem_cyclePairs (.close first choice back) hmem
  constructor
  · intro hexact a b hab hba
    obtain ⟨edge, hedge, hends⟩ := List.mem_map.mp ((hshows.edges a b).mpr hab)
    cases hends
    have hflag := (hshows.isCyclic edge hedge).mp ((hexact.edges edge hedge).mpr hba)
    obtain ⟨c, hc, hmem⟩ := (hpainted _ _).mp hflag
    exact followed_of_mem_cyclePairs hc hmem
  · intro hall
    have hcomplete : ∀ a b, Refers workflows a b → ReflTransGen (Refers workflows) b a →
        (a, b) ∈ graph.cycles.flatMap cyclePairs := by
      intro a b hab hba
      rw [hpainted]
      rw [← step_getDependencies hdistinct] at hall hab hba
      exact exists_kept_of_followed hall hab hba
    refine ⟨fun id node hnode => ?_, fun edge hedge => ?_⟩
    · rw [(hshows.nodes id node hnode).isCircular]
      constructor
      · rintro ⟨⟨a, b⟩, hpair, rfl⟩
        exact (hsound a b hpair).1
      · intro hcycle
        obtain ⟨b, hab, hba⟩ := TransGen.head'_iff.mp hcycle
        exact ⟨(id, b), hcomplete id b hab hba, rfl⟩
    · rw [hshows.isCyclic edge hedge]
      constructor
      · exact fun hpair => (hsound _ _ hpair).2
      · have hrefers := (hshows.edges edge.fromId edge.toId).mp (List.mem_map.mpr ⟨edge, hedge, rfl⟩)
        exact hcomplete _ _ hrefers

/-- The flags of two workflows that run each other. -/
theorem loop_flags_exact_iff :
    ∃ graph after, buildDependencyGraph (fun _ => "NaN") 0
        [runner "A" ["B"], runner "B" ["A"]] false ⟨none, 0⟩ = some (graph, after) ∧
      (FlagsExact [runner "A" ["B"], runner "B" ["A"]] graph ↔
        ∀ a b, Refers [runner "A" ["B"], runner "B" ["A"]] a b →
          ReflTransGen (Refers [runner "A" ["B"], runner "B" ["A"]]) b a →
          Followed (fun _ => "NaN") [runner "A" ["B"], runner "B" ["A"]] a b) :=
  flags_exact_iff (fun _ => "NaN") (by decide) rfl

/-- `C` refers to `B`, which the search has left when it comes to `C`. -/
def rejoining : List Workflow := [runner "A" ["B", "C"], runner "B" ["A"], runner "C" ["B"]]

/-- `C` runs `B`, `B` runs `A` and `A` runs `C`, but `C` is not marked as circular. -/
theorem rejoining_workflow_unmarked :
    DistinctIds rejoining ∧ TransGen (Refers rejoining) "C" "C" ∧
      ((buildDependencyGraph (fun _ => "NaN") 0 rejoining false ⟨none, 0⟩).bind fun built =>
        (built.1.nodes.get? "C").map (·.isCircular)) = some false := by
  have hdistinct : DistinctIds rejoining := by decide
  refine ⟨hdistinct, ?_, by decide +kernel⟩
  have hCB : Refers rejoining "C" "B" := (mem_getDependencies hdistinct).mp (by decide)
  have hBA : Refers rejoining "B" "A" := (mem_getDependencies hdistinct).mp (by decide)
  have hAC : Refers rejoining "A" "C" := (mem_getDependencies hdistinct).mp (by decide)
  exact ((TransGen.single hCB).tail hBA).tail hAC

end Flags

/-! ### Whether there is a cycle -/

section Acyclic

variable {minText : List String → String} {workflows : List Workflow} {search after : CycleSearch}
  {path ids : List String} {id : String} {fuel : Nat}

/-- Every way along references from the id comes to an end. -/
abbrev Ends (workflows : List Workflow) (id : String) : Prop :=
  Acc (fun b a => Step (searched workflows) a b) id

/-- What the search has left leads to no cycle. -/
structure Clear (workflows : List Workflow) (path : List String) (search : CycleSearch) :
    Prop where
  stack : search.recursionStack = path.reverse
  visited : ∀ x ∈ search.visited, x ∈ path ∨ Ends workflows x

/-- No cycle is found up to a state that a visit of some ids leaves, and none is there. -/
def Passes (workflows : List Workflow) (path ids : List String) (search after : CycleSearch) :
    Prop :=
  search.cycles = [] ∧
    (Clear workflows path search → Clear workflows path after ∧ ∀ id ∈ ids, Ends workflows id)

theorem passes_foldlM {visit : CycleSearch → String → Option CycleSearch}
    (hvisit : ∀ {s t id}, visit s id = some t → t.cycles = [] → Passes workflows path [id] s t)
    (hrun : ids.foldlM visit search = some after) (hnone : after.cycles = []) :
    Passes workflows path ids search after := by
  induction ids generalizing search with
  | nil =>
      cases hrun
      exact ⟨hnone, fun h => ⟨h, by simp⟩⟩
  | cons id rest ih =>
      rw [List.foldlM_cons] at hrun
      obtain ⟨mid, hmid, hrest⟩ := Option.bind_eq_some_iff.mp hrun
      obtain ⟨hmidNone, hlater⟩ := ih hrest
      obtain ⟨hfirstNone, hfirst⟩ := hvisit hmid hmidNone
      refine ⟨hfirstNone, fun h => ?_⟩
      obtain ⟨hclear, hid⟩ := hfirst h
      obtain ⟨hclear, hids⟩ := hlater hclear
      exact ⟨hclear, List.forall_mem_cons.mpr ⟨hid id List.mem_cons_self, hids⟩⟩

theorem recordCycle_ne_nil (cycles : List (List String)) (new : List String) :
    recordCycle minText cycles new ≠ [] := by
  unfold recordCycle
  split
  · rintro rfl
    contradiction
  · exact List.append_ne_nil_of_right_ne_nil _ (List.cons_ne_nil _ _)

theorem passes_cycleDfs
    (hrun : cycleDfs minText workflows fuel id path.reverse search = some after)
    (hnone : after.cycles = []) : Passes workflows path [id] search after := by
  induction fuel generalizing id path search after with
  | zero => cases hrun
  | succ fuel ih =>
      rw [cycleDfs] at hrun
      split at hrun
      · next hmem =>
        split at hrun <;> cases hrun
        · exact absurd hnone (recordCycle_ne_nil _ _)
        · next hindex =>
            refine ⟨hnone, fun h => ?_⟩
            rw [idxOf?_of_mem (h.stack ▸ hmem)] at hindex
            cases hindex
      next hstack =>
      split at hrun
      · next hvisited =>
          cases hrun
          refine ⟨hnone, fun h => ⟨h, ?_⟩⟩
          rw [h.stack, List.mem_reverse] at hstack
          simpa using (h.visited id hvisited).resolve_left hstack
      · obtain ⟨below, hbelow, hlast⟩ := Option.bind_eq_some_iff.mp hrun
        cases hlast
        rw [← List.reverse_cons] at hbelow
        obtain ⟨hbefore, hloop⟩ := passes_foldlM (fun hvisit => ih hvisit) hbelow hnone
        refine ⟨hbefore, fun h => ?_⟩
        rw [h.stack, List.mem_reverse] at hstack
        obtain ⟨hclear, hends⟩ := hloop ⟨by simp [add, h.stack, hstack], fun x hx => by
          rw [mem_add] at hx
          rcases hx with hx | rfl
          · exact (h.visited x hx).imp_left (List.mem_cons_of_mem _)
          · exact .inl List.mem_cons_self⟩
        have hid : Ends workflows id := .intro _ hends
        refine ⟨⟨?_, fun x hx => ?_⟩, by simpa using hid⟩
        · have hne : ∀ x ∈ path.reverse, x ≠ id := fun x hx heq =>
            hstack (List.mem_reverse.mp (heq ▸ hx))
          simpa [hclear.stack] using hne
        · rcases hclear.visited x hx with hx | hx
          · rcases List.mem_cons.mp hx with rfl | hx
            · exact .inr hid
            · exact .inl hx
          · exact .inr hx

theorem Ends.not_onCycle (h : Ends workflows id) : ¬ OnCycle (searched workflows) id := by
  induction h with
  | intro id _ ih =>
      intro hcycle
      obtain ⟨next, hstep, hback⟩ := TransGen.head'_iff.mp hcycle
      exact ih next hstep (.tail' hback hstep)

theorem ends_of_no_cycles (h : findCircularDependencies minText workflows = some []) :
    ∀ id ∈ workflows.map (·.id), Ends workflows id := by
  rw [findCircularDependencies_eq] at h
  obtain ⟨search, hrun, hnone⟩ := Option.map_eq_some_iff.mp h
  have hvisit {s t : CycleSearch} {id : String} (hstep : (if id ∈ s.visited then some s
      else cycleDfs minText workflows (enough workflows) id [] s) = some t)
      (hnone : t.cycles = []) : Passes workflows [] [id] s t := by
    split at hstep
    · next hvisited =>
        cases hstep
        exact ⟨hnone, fun h => ⟨h, by simpa using h.visited id hvisited⟩⟩
    · exact passes_cycleDfs hstep hnone
  obtain ⟨-, hends⟩ := passes_foldlM hvisit hrun hnone
  exact (hends ⟨rfl, by simp⟩).2

theorem step_of_infix {starts : List String} {next : String → List String} {v a b : String}
    {p : List String} (hc : Closing starts next (v :: p)) (h : [a, b] <:+: cycleOf (v :: p)) :
    Step next a b := by
  rw [infix_cycleOf_iff hc.first.chain.nodup hc.back] at h
  cases hc with
  | close first choice back =>
      rcases h with ⟨rfl, hhead⟩ | ⟨q, hq, -⟩
      · obtain ⟨p, rfl⟩ := List.head?_eq_some_iff.mp hhead
        exact choice
      · cases first.chain.of_suffix hq with
        | cons hab _ _ => exact hab

/-- Every cycle that is found goes along references from a workflow back to it, and one is found
if any workflow refers back to itself. -/
theorem findCircularDependencies_spec (minText : List String → String)
    (hdistinct : DistinctIds workflows) :
    ∃ cycles, findCircularDependencies minText workflows = some cycles ∧
      (∀ cycle ∈ cycles, (∃ id inner, cycle = id :: (inner ++ [id])) ∧
        ∀ a b, [a, b] <:+: cycle → Refers workflows a b) ∧
      (cycles = [] ↔ ∀ id, ¬ TransGen (Refers workflows) id id) := by
  obtain ⟨cycles, hcycles⟩ := findCircularDependencies_returns minText hdistinct
  rw [← step_getDependencies hdistinct]
  have hfound : ∀ cycle ∈ cycles, ∃ v p, Closing (workflows.map (·.id))
      (getDependencies workflows) (v :: p) ∧ cycleOf (v :: p) = cycle := by
    intro cycle hcycle
    obtain ⟨c, hc, heq⟩ := (mem_findCircularDependencies hdistinct hcycles).mp hcycle
    cases hc.closing with
    | @close v p _ _ _ => exact ⟨v, p, hc.closing, heq⟩
  refine ⟨cycles, hcycles, fun cycle hcycle => ?_, fun h id hcycle => ?_, fun hacyclic => ?_⟩
  · obtain ⟨v, p, hc, rfl⟩ := hfound cycle hcycle
    obtain ⟨l, r, rfl⟩ := List.append_of_mem hc.back
    exact ⟨⟨v, l.reverse, cycleOf_append hc.first.chain.nodup⟩, fun _ _ => step_of_infix hc⟩
  · obtain ⟨_, hstep, -⟩ := TransGen.head'_iff.mp hcycle
    obtain ⟨workflow, hworkflow, rfl, -⟩ := (mem_getDependencies hdistinct).mp hstep
    rw [← searched_eq hdistinct] at hcycle
    rw [h] at hcycles
    exact (ends_of_no_cycles hcycles _ (List.mem_map_of_mem hworkflow)).not_onCycle hcycle
  · refine List.eq_nil_iff_forall_not_mem.mpr fun cycle hcycle => ?_
    obtain ⟨v, p, hc, -⟩ := hfound cycle hcycle
    have hseam : (v, v) ∈ cyclePairs (cycleOf (v :: p)) :=
      (mem_cyclePairs_iff hc.first.chain.nodup hc.back).mpr (.inl ⟨rfl, rfl⟩)
    exact hacyclic v (onCycle_of_mem_cyclePairs hc hseam).1

/-- Two workflows that run each other. -/
theorem findCircularDependencies_loop :
    ∃ cycles, findCircularDependencies (fun _ => "NaN") [runner "A" ["B"], runner "B" ["A"]] =
        some cycles ∧
      (∀ cycle ∈ cycles, (∃ id inner, cycle = id :: (inner ++ [id])) ∧
        ∀ a b, [a, b] <:+: cycle → Refers [runner "A" ["B"], runner "B" ["A"]] a b) ∧
      (cycles = [] ↔ ∀ id, ¬ TransGen (Refers [runner "A" ["B"], runner "B" ["A"]]) id id) :=
  findCircularDependencies_spec (fun _ => "NaN") (by decide)

end Acyclic

end Qontinui.Dependencies
