import Qontinui.Dependencies.Depths
import Qontinui.Dependencies.Reachable

/-!
What `getImpactAnalysis` reports as critical paths. The search goes down the dependencies until it
meets the workflow, and then up its dependents on the same path, so a path that it saves goes on
from the workflow against the direction of the references.
-/

namespace Qontinui.Dependencies

open DepthFirst FallibleLoops

variable {workflows : List Workflow}

section Search

variable {ids : List String} {refers : String → String → Prop} {circular : String → Prop}
  {cyclic : String × String → Prop} {nodes : ObjectMap DependencyNode} {edges : List DependencyEdge}
  {workflowId : String} {path visited : List String} {saved : List (List String)} {fuel : Nat}

theorem mem_searchEach {search : String → Option (List (List String))} {next : List String}
    (h : searchEach search next = some saved) :
    path ∈ saved ↔ ∃ id ∈ next, ∃ below, search id = some below ∧ path ∈ below := by
  obtain ⟨parts, hparts, rfl⟩ := Option.map_eq_some_iff.mp h
  rw [mapM_eq_some_iff] at hparts
  rw [List.mem_flatten]
  constructor
  · rintro ⟨below, hbelow, hpath⟩
    obtain ⟨id, hid, hrun⟩ := mem_right_of_forall₂ hparts hbelow
    exact ⟨id, hid, below, hrun, hpath⟩
  · rintro ⟨id, hid, below, hrun, hpath⟩
    obtain ⟨below', hbelow, hrun'⟩ := mem_left_of_forall₂ hparts hid
    cases hrun.symm.trans hrun'
    exact ⟨below, hbelow, hpath⟩

theorem searchEach_returns {search : String → Option (List (List String))} {next : List String}
    (h : ∀ id ∈ next, ∃ below, search id = some below) :
    ∃ saved, searchEach search next = some saved := by
  obtain ⟨parts, hparts⟩ := mapM_returns h
  exact ⟨parts.flatten, by rw [searchEach, hparts, Option.map_some]⟩

variable {id : String}

theorem findPathsThrough_prefix
    (h : findPathsThrough nodes workflowId fuel id visited path = some saved) :
    ∀ p ∈ saved, path ++ [id] <+: p := by
  induction fuel generalizing id visited path saved with
  | zero => cases h
  | succ fuel ih =>
      have hbelow : ∀ next, searchEach (fun other => findPathsThrough nodes workflowId fuel other
          (add visited id) (path ++ [id])) next = some saved → ∀ p ∈ saved, path ++ [id] <+: p := by
        intro next hrun p hp
        obtain ⟨other, -, below, hsearch, hmem⟩ := (mem_searchEach hrun).mp hp
        exact (List.prefix_append _ _).trans (ih hsearch p hmem)
      rw [findPathsThrough] at h
      split at h
      · cases h
        simp
      · split at h
        · split at h
          · split at h
            · cases h
              simp
            · exact hbelow _ h
          · cases h
            simp
        · split at h
          · exact hbelow _ h
          · cases h
            simp

section

variable (hshows : Shows ids refers circular cyclic ⟨nodes, edges⟩)
include hshows

/-- Where something depends on the workflow, a saved path goes on from it to what does. -/
theorem findPathsThrough_turns (hdependent : ∃ a, refers a workflowId) (hpath : workflowId ∉ path)
    (h : findPathsThrough nodes workflowId fuel id visited path = some saved) :
    ∀ p ∈ saved, ∃ d, refers d workflowId ∧ [workflowId, d] <:+: p := by
  induction fuel generalizing id visited path saved with
  | zero => cases h
  | succ fuel ih =>
      rw [findPathsThrough] at h
      split at h
      · cases h
        simp
      · split at h
        · next hmet =>
            have hid : id = workflowId := by
              rcases hmet with hid | hmem
              · exact hid
              · exact (List.mem_singleton.mp ((List.mem_append.mp hmem).resolve_left hpath)).symm
            subst hid
            split at h
            · next node hnode =>
                have hnodeShows := hshows.nodes id node hnode
                split at h
                · next hzero =>
                    obtain ⟨a, ha⟩ := hdependent
                    exact absurd ha (hnodeShows.inDegree_eq_zero_iff.mp hzero a)
                · intro p hp
                  obtain ⟨d, hd, below, hsearch, hmem⟩ := (mem_searchEach h).mp hp
                  obtain ⟨t, rfl⟩ := findPathsThrough_prefix hsearch p hmem
                  exact ⟨d, (hnodeShows.dependents d).mp hd, path, t, by simp⟩
            · cases h
              simp
        · next hmet =>
            split at h
            · intro p hp
              obtain ⟨dep, -, below, hsearch, hmem⟩ := (mem_searchEach h).mp hp
              exact ih (fun hmem => hmet (.inr hmem)) hsearch p hmem
            · cases h
              simp

theorem findPathsThrough_elsewhere (hnone : ∀ a, ¬ refers a workflowId) (hpath : workflowId ∉ path)
    (hid : id ≠ workflowId)
    (h : findPathsThrough nodes workflowId fuel id visited path = some saved) : saved = [] := by
  induction fuel generalizing id visited path saved with
  | zero => cases h
  | succ fuel ih =>
      rw [findPathsThrough] at h
      have hnot : workflowId ∉ path ++ [id] := by simp [hpath, Ne.symm hid]
      split at h
      · cases h
        rfl
      · rw [if_neg (not_or.mpr ⟨hid, hnot⟩)] at h
        split at h
        · next node hnode =>
            rw [List.eq_nil_iff_forall_not_mem]
            intro p hp
            obtain ⟨dep, hdep, below, hsearch, hmem⟩ := (mem_searchEach h).mp hp
            have hrefers := ((hshows.nodes id node hnode).dependencies dep).mp hdep
            have hne : dep ≠ workflowId := fun heq => hnone id (heq ▸ hrefers)
            rw [ih hnot hne hsearch] at hmem
            cases hmem
        · cases h
          rfl

theorem findPathsThrough_root (hnone : ∀ a, ¬ refers a workflowId) (hid : workflowId ∈ ids) :
    findPathsThrough nodes workflowId (fuel + 1) workflowId [] [] = some [[workflowId]] := by
  obtain ⟨node, hnode⟩ := (hshows.listed workflowId).mpr hid
  have hzero := (hshows.nodes workflowId node hnode).inDegree_eq_zero_iff.mpr hnone
  have hget : nodes.get? workflowId = some node := hnode
  simp [findPathsThrough, hget, hzero]

theorem findPathsThrough_returns {known : List String}
    (hknown : ∀ a b, refers a b → a ∈ known ∧ b ∈ known) (hid : id ∈ known)
    (hfuel : unmarked known visited < fuel) :
    ∃ saved, findPathsThrough nodes workflowId fuel id visited path = some saved := by
  induction fuel generalizing id visited path with
  | zero => cases hfuel
  | succ fuel ih =>
      rw [findPathsThrough]
      split
      · exact ⟨_, rfl⟩
      · next hfresh =>
          have hlt := unmarked_add_lt hid hfresh hfuel
          have hbelow : ∀ next : List String, (∀ other ∈ next, other ∈ known) →
              ∃ saved, searchEach (fun other => findPathsThrough nodes workflowId fuel other
                (add visited id) (path ++ [id])) next = some saved :=
            fun next hnext => searchEach_returns fun other hother => ih (hnext other hother) hlt
          split
          · split
            · next node hnode =>
                split
                · exact ⟨_, rfl⟩
                · exact hbelow _ fun d hd =>
                    (hknown d id (((hshows.nodes id node hnode).dependents d).mp hd)).1
            · exact ⟨_, rfl⟩
          · split
            · next node hnode =>
                exact hbelow _ fun dep hdep =>
                  (hknown id dep (((hshows.nodes id node hnode).dependencies dep).mp hdep)).2
            · exact ⟨_, rfl⟩

end

end Search

/-! ### The paths of an impact analysis -/

/-- There are paths, and each of them leads through a workflow from one that nothing depends on,
along references. -/
structure PathsThrough (workflows : List Workflow) (id : String) (paths : List (List String)) :
    Prop where
  nonempty : paths ≠ []
  through : ∀ path ∈ paths, id ∈ path
  starts : ∀ path ∈ paths, ∃ root, path.head? = some root ∧ ∀ a, ¬ Refers workflows a root
  references : ∀ path ∈ paths, path.IsChain (Refers workflows)

theorem findCriticalPaths_returns {minText : List String → String} {now : Int}
    (hdistinct : DistinctIds workflows) {graph : DependencyGraph}
    (hgraph : freshGraph minText now workflows = some graph) (id : String) :
    ∃ paths, findCriticalPaths (enough workflows) graph id = some paths := by
  obtain ⟨-, hshows, hroots⟩ := freshGraph_shows hdistinct hgraph
  have hsearch : ∀ rootId ∈ graph.roots, ∃ below,
      findPathsThrough graph.nodes id (enough workflows) rootId [] [] = some below :=
    fun rootId hroot => findPathsThrough_returns hshows
      (fun _ _ hab => ⟨hab.mentioned_left, hab.mentioned_right⟩)
      (List.mem_append_left _ ((hroots rootId).mp hroot).1) (unmarked_lt_enough workflows [])
  obtain ⟨saved, hsaved⟩ := searchEach_returns hsearch
  exact ⟨saved.take 10, by rw [findCriticalPaths, hsaved, Option.map_some]⟩

theorem findCriticalPaths_eq {minText : List String → String} {now : Int}
    (hdistinct : DistinctIds workflows) {graph : DependencyGraph}
    (hgraph : freshGraph minText now workflows = some graph) {id : String}
    {paths : List (List String)}
    (h : findCriticalPaths (enough workflows) graph id = some paths) :
    ∃ saved : List (List String), paths = saved.take 10 ∧ ∀ path, path ∈ saved ↔
      ∃ root ∈ workflows.map (·.id), (∀ a, ¬ Refers workflows a root) ∧ ∃ below,
        findPathsThrough graph.nodes id (enough workflows) root [] [] = some below ∧
          path ∈ below := by
  obtain ⟨-, -, hroots⟩ := freshGraph_shows hdistinct hgraph
  obtain ⟨saved, hsaved, rfl⟩ := Option.map_eq_some_iff.mp h
  refine ⟨saved, rfl, fun path => ?_⟩
  rw [mem_searchEach hsaved]
  simp only [hroots, and_assoc]

/-- The critical paths of a workflow are paths through it if and only if nothing depends on it. -/
theorem critical_paths_iff (minText : List String → String) (hdistinct : DistinctIds workflows)
    (hacyclic : Acyclic workflows) {id : String}
    (hid : id ∈ workflows.map (·.id)) {analyzer : Analyzer} {now : Int}
    (hfresh : analyzer.cached now true = none) :
    ∃ analysis after,
      getImpactAnalysis minText now id workflows analyzer = some (analysis, after) ∧
      (PathsThrough workflows id analysis.criticalPaths ↔ ∀ a, ¬ Refers workflows a id) := by
  obtain ⟨graph, hgraph⟩ := freshGraph_returns minText now hdistinct
  obtain ⟨above, habove, -⟩ := getAllDependents_exact workflows id
  obtain ⟨paths, hpaths⟩ := findCriticalPaths_returns hdistinct hgraph id
  have hbuilt : buildDependencyGraph minText now workflows true analyzer =
      some (graph, ⟨some graph, now⟩) := by
    simp [buildDependencyGraph, hfresh, hgraph]
  refine ⟨_, ⟨some graph, now⟩, Option.bind_eq_some_iff.mpr ⟨above, habove,
    Option.bind_eq_some_iff.mpr ⟨(graph, ⟨some graph, now⟩), hbuilt,
      Option.bind_eq_some_iff.mpr ⟨paths, hpaths, rfl⟩⟩⟩, ?_⟩
  change PathsThrough workflows id paths ↔ _
  obtain ⟨-, hshows, -⟩ := freshGraph_shows hdistinct hgraph
  obtain ⟨saved, rfl, hsaved⟩ := findCriticalPaths_eq hdistinct hgraph hpaths
  constructor
  · intro hright a ha
    obtain ⟨path, hpath⟩ := List.exists_mem_of_ne_nil _ hright.nonempty
    obtain ⟨root, -, -, below, hrun, hmem⟩ := (hsaved path).mp (List.mem_of_mem_take hpath)
    obtain ⟨d, hd, hpair⟩ :=
      findPathsThrough_turns hshows ⟨a, ha⟩ List.not_mem_nil hrun path hmem
    -- the path goes on from the workflow to what depends on it
    have hchain := List.IsChain.infix (hright.references path hpath) hpair
    have hstep : Refers workflows id d := List.isChain_pair.mp hchain
    exact hacyclic id (.tail (.single hstep) hd)
  · intro hnone
    have honly : ∀ path, path ∈ saved ↔ path = [id] := by
      intro path
      rw [hsaved]
      have hself : findPathsThrough graph.nodes id (enough workflows) id [] [] = some [[id]] :=
        findPathsThrough_root hshows hnone hid
      constructor
      · rintro ⟨root, -, -, below, hrun, hmem⟩
        by_cases hroot : root = id
        · rw [hroot, hself] at hrun
          cases hrun
          exact List.mem_singleton.mp hmem
        · rw [findPathsThrough_elsewhere hshows hnone List.not_mem_nil hroot hrun] at hmem
          cases hmem
      · rintro rfl
        exact ⟨id, hid, hnone, [[id]], hself, List.mem_singleton.mpr rfl⟩
    have htaken : ∀ path ∈ saved.take 10, path = [id] := fun path hpath =>
      (honly path).mp (List.mem_of_mem_take hpath)
    refine ⟨?_, fun path hpath => ?_, fun path hpath => ?_, fun path hpath => ?_⟩
    · obtain ⟨path, rest, heq⟩ := List.exists_cons_of_ne_nil
        (List.ne_nil_of_mem ((honly [id]).mpr rfl))
      rw [heq]
      exact List.cons_ne_nil _ _
    · rw [htaken path hpath]
      exact List.mem_singleton.mpr rfl
    · rw [htaken path hpath]
      exact ⟨id, rfl, hnone⟩
    · rw [htaken path hpath]
      exact List.isChain_singleton _

/-- The critical paths of a workflow that another runs. -/
theorem caller_critical_paths_iff :
    ∃ analysis after,
      getImpactAnalysis (fun _ => "NaN") 0 "B" caller ⟨none, 0⟩ = some (analysis, after) ∧
      (PathsThrough caller "B" analysis.criticalPaths ↔ ∀ a, ¬ Refers caller a "B") :=
  critical_paths_iff (fun _ => "NaN") (by decide) caller_acyclic (by decide) (by decide)

/-- `A` runs `B`, but no path leads through `B`. -/
theorem caller_critical_paths_missing :
    DistinctIds caller ∧ Acyclic caller ∧ RefersToListed caller ∧
      (getImpactAnalysis (fun _ => "NaN") 0 "B" caller (Analyzer.invalidateCache ⟨none, 0⟩)).map
        (·.1.criticalPaths) = some [] :=
  ⟨by decide, caller_acyclic, caller_refersToListed, by decide +kernel⟩

end Qontinui.Dependencies
