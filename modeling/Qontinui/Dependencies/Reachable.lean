import Qontinui.Dependencies.Graph

/-!
What `getAllDependencies` and `getAllDependents` find. Their searches share one set of visited
ids, so what is returned below the start may be partial; at the start it is all that can be
reached, as every visited id has brought its direct neighbours with it.
-/

namespace Qontinui.Dependencies

open DepthFirst FallibleLoops
open Relation (TransGen)

section Search

variable {direct : String → List String}

/-- What a search from an id has found and visited once some direct neighbours are handled. -/
structure Gathered (direct : String → List String) (visited : List String) (id : String)
    (handled : List String) (found : List String × List String) : Prop where
  nodup : found.1.Nodup
  keeps : visited ⊆ found.2
  handled : ∀ dep ∈ handled, dep ∈ found.1 ∧ dep ∈ found.2
  closed : ∀ v ∈ found.2, v ∈ visited ∨ ∀ w ∈ direct v, w ∈ found.1 ∧ w ∈ found.2
  sound : ∀ w ∈ found.1, TransGen (Step direct) id w

variable {found : List String × List String} {visited : List String} {id : String} {fuel : Nat}

theorem Gathered.extend {dep : String} {handled : List String} {sub : List String × List String}
    (h : Gathered direct visited id handled found) (hstep : Step direct id dep)
    (hsub : Gathered direct found.2 dep [] sub) (hdep : dep ∈ sub.2) :
    Gathered direct visited id (handled ++ [dep]) (sub.1.foldl add (add found.1 dep), sub.2) := by
  have hmem : ∀ w, w ∈ sub.1.foldl add (add found.1 dep) ↔ (w ∈ found.1 ∨ w = dep) ∨ w ∈ sub.1 :=
    fun w => by rw [mem_foldl_add, mem_add]
  refine ⟨nodup_foldl_add (nodup_add h.nodup dep), List.Subset.trans h.keeps hsub.keeps, ?_, ?_, ?_⟩
  · intro w hw
    rcases List.mem_append.mp hw with hw | hw
    · obtain ⟨hfound, hvisited⟩ := h.handled w hw
      exact ⟨(hmem w).mpr (.inl (.inl hfound)), hsub.keeps hvisited⟩
    · cases List.mem_singleton.mp hw
      exact ⟨(hmem dep).mpr (.inl (.inr rfl)), hdep⟩
  · intro v hv
    rcases hsub.closed v hv with hv | hnext
    · rcases h.closed v hv with hv | hnext
      · exact .inl hv
      · refine .inr fun w hw => ?_
        obtain ⟨hfound, hvisited⟩ := hnext w hw
        exact ⟨(hmem w).mpr (.inl (.inl hfound)), hsub.keeps hvisited⟩
    · refine .inr fun w hw => ?_
      obtain ⟨hfound, hvisited⟩ := hnext w hw
      exact ⟨(hmem w).mpr (.inr hfound), hvisited⟩
  · intro w hw
    rcases (hmem w).mp hw with (hw | rfl) | hw
    · exact h.sound w hw
    · exact .single hstep
    · exact .head hstep (hsub.sound w hw)

theorem getAll_gathered (h : getAll direct fuel id visited = some found) :
    Gathered direct visited id [] found ∧ id ∈ found.2 := by
  induction fuel generalizing id visited found with
  | zero => cases h
  | succ fuel ih =>
      rw [getAll] at h
      split at h
      · next hvisited =>
          cases h
          exact ⟨⟨List.nodup_nil, List.Subset.refl _, by simp, fun v hv => .inl hv, by simp⟩,
            hvisited⟩
      · have hstart : Gathered direct (add visited id) id [] ([], add visited id) :=
          ⟨List.nodup_nil, List.Subset.refl _, by simp, fun v hv => .inl hv, by simp⟩
        have hall : Gathered direct (add visited id) id (direct id) found := by
          refine foldlM_invariant (Gathered direct (add visited id) id) ?_ hstart h
          intro handled dep rest s t hitems hinv hrun
          simp only [Option.bind_eq_bind, Option.bind_eq_some_iff, Option.pure_def,
            Option.some.injEq] at hrun
          obtain ⟨sub, hsub, rfl⟩ := hrun
          obtain ⟨hgathered, hdep⟩ := ih hsub
          exact hinv.extend (by simp [Step, hitems]) hgathered hdep
        refine ⟨⟨hall.nodup, List.Subset.trans (subset_add visited id) hall.keeps, by simp, ?_,
          hall.sound⟩, hall.keeps (mem_add.mpr (.inr rfl))⟩
        intro v hv
        rcases hall.closed v hv with hv | hnext
        · rcases mem_add.mp hv with hv | rfl
          · exact .inl hv
          · exact .inr hall.handled
        · exact .inr hnext

theorem mem_getAll_iff (h : getAll direct fuel id [] = some found) {w : String} :
    w ∈ found.1 ↔ TransGen (Step direct) id w := by
  obtain ⟨hgathered, hid⟩ := getAll_gathered h
  constructor
  · exact hgathered.sound w
  · have hclosed : ∀ v ∈ found.2, ∀ w, Step direct v w → w ∈ found.1 ∧ w ∈ found.2 :=
      fun v hv => (hgathered.closed v hv).resolve_left List.not_mem_nil
    intro hreach
    suffices hboth : w ∈ found.1 ∧ w ∈ found.2 from hboth.1
    induction hreach with
    | single hstep => exact hclosed id hid _ hstep
    | tail _ hstep ih => exact hclosed _ ih.2 _ hstep

theorem getAll_returns {nodes : List String} (hnodes : ∀ a, ∀ b ∈ direct a, b ∈ nodes)
    (hid : id ∈ nodes) (hfuel : unmarked nodes visited < fuel) :
    ∃ found, getAll direct fuel id visited = some found := by
  induction fuel generalizing id visited with
  | zero => cases hfuel
  | succ fuel ih =>
      rw [getAll]
      split
      · exact ⟨_, rfl⟩
      · next hfresh =>
          have hlt := unmarked_add_lt hid hfresh hfuel
          have hall : ∀ found : List String × List String, ∀ dep ∈ direct id,
              add visited id ⊆ found.2 → ∃ found', (do
                let sub ← getAll direct fuel dep found.2
                return (sub.1.foldl add (add found.1 dep), sub.2)) = some found' ∧
                  add visited id ⊆ found'.2 := by
            intro found dep hdep hkeeps
            obtain ⟨sub, hsub⟩ := ih (hnodes id dep hdep)
              (Nat.lt_of_le_of_lt (unmarked_mono hkeeps) hlt)
            refine ⟨(sub.1.foldl add (add found.1 dep), sub.2), ?_,
              List.Subset.trans hkeeps (getAll_gathered hsub).1.keeps⟩
            simp [hsub]
          obtain ⟨found, hfound, -⟩ := foldlM_succeeds
            (fun found : List String × List String => add visited id ⊆ found.2) hall
            (s := ([], add visited id)) (List.Subset.refl _)
          exact ⟨found, hfound⟩

theorem getAll_exact {workflows : List Workflow}
    (hdirect : ∀ a, ∀ b ∈ direct a, b ∈ mentioned workflows) (id : String) :
    ∃ found, (getAll direct (enough workflows) id []).map (·.1) = some found ∧ found.Nodup ∧
      ∀ w, w ∈ found ↔ TransGen (Step direct) id w := by
  obtain ⟨found, hfound⟩ := getAll_returns
    (fun a b hb => List.mem_cons_of_mem id (hdirect a b hb)) List.mem_cons_self
    (unmarked_cons_lt_enough workflows id)
  exact ⟨found.1, by simp [hfound], (getAll_gathered hfound).1.nodup, fun w =>
    mem_getAll_iff hfound⟩

end Search

variable {workflows : List Workflow}

theorem getAllDependencies_exact (hdistinct : DistinctIds workflows) (a : String) :
    ∃ below, getAllDependencies workflows a = some below ∧ below.Nodup ∧
      ∀ b, b ∈ below ↔ TransGen (Refers workflows) a b := by
  rw [← step_getDependencies hdistinct]
  exact getAll_exact (fun _ _ hb => ((mem_getDependencies hdistinct).mp hb).mentioned_right) a

theorem getAllDependents_exact (workflows : List Workflow) (b : String) :
    ∃ above, getAllDependents workflows b = some above ∧ above.Nodup ∧
      ∀ a, a ∈ above ↔ TransGen (Refers workflows) a b := by
  have hmentioned : ∀ b, ∀ a ∈ getDependents workflows b, a ∈ mentioned workflows :=
    fun b a ha => (mem_getDependents.mp ha).mentioned_left
  have hexact := getAll_exact hmentioned b
  simp only [step_getDependents, Relation.transGen_swap] at hexact
  exact hexact

/-- All dependencies of an id are what it leads to by one or more references, all dependents
what leads to it, so the two ways of asking agree. -/
theorem transitive_dependencies_exact (hdistinct : DistinctIds workflows) :
    (∀ a, ∃ below, getAllDependencies workflows a = some below ∧ below.Nodup ∧
      ∀ b, b ∈ below ↔ TransGen (Refers workflows) a b) ∧
    (∀ b, ∃ above, getAllDependents workflows b = some above ∧ above.Nodup ∧
      ∀ a, a ∈ above ↔ TransGen (Refers workflows) a b) ∧
    ∀ a b below above, getAllDependencies workflows a = some below →
      getAllDependents workflows b = some above → (b ∈ below ↔ a ∈ above) := by
  refine ⟨getAllDependencies_exact hdistinct, getAllDependents_exact workflows, ?_⟩
  intro a b below above hbelow habove
  obtain ⟨below', hbelow', -, hmem⟩ := getAllDependencies_exact hdistinct a
  obtain ⟨above', habove', -, hmem'⟩ := getAllDependents_exact workflows b
  cases hbelow.symm.trans hbelow'
  cases habove.symm.trans habove'
  rw [hmem b, hmem' a]

/-- Of two workflows that run each other, each is among all its own dependencies. -/
theorem loop_dependencies_exact :
    ∃ below, getAllDependencies [runner "a" ["b"], runner "b" ["a"]] "a" = some below ∧
      below.Nodup ∧
      ∀ b, b ∈ below ↔ TransGen (Refers [runner "a" ["b"], runner "b" ["a"]]) "a" b :=
  (transitive_dependencies_exact (by decide)).1 "a"

end Qontinui.Dependencies
