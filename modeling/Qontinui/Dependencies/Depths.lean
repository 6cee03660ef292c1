import Mathlib.Order.Lattice.Nat
import Qontinui.Base.PathLength
import Qontinui.Dependencies.Graph

/-!
The two depths of a workflow. `getDependencyDepth` counts the references on the longest chain
that starts at it; the depth in the graph is taken down on the way from where the search
started, and leaves are visited before any other node, so it stays below that number.
-/

namespace Qontinui.Dependencies

open DepthFirst FallibleLoops Paths
open Relation (TransGen ReflTransGen)

variable {workflows : List Workflow}

def Acyclic (workflows : List Workflow) : Prop := ∀ a, ¬ TransGen (Refers workflows) a a

def RefersToListed (workflows : List Workflow) : Prop :=
  ∀ a b, Refers workflows a b → b ∈ workflows.map (·.id)

def chainLengths (workflows : List Workflow) (id : String) : Set Nat :=
  {n | ∃ b, PathTo (Refers workflows) {id} n b}

/-! ### The tree -/

theorem zero_mem_chainLengths (id : String) : 0 ∈ chainLengths workflows id :=
  ⟨id, .start rfl⟩

variable {id : String}

theorem succ_mem_chainLengths {n : Nat} :
    n + 1 ∈ chainLengths workflows id ↔ ∃ dep, Refers workflows id dep ∧
      n ∈ chainLengths workflows dep := by
  simp only [chainLengths, Set.mem_ofPred_eq, pathTo_succ_iff]
  constructor
  · rintro ⟨b, dep, hdep, hpath⟩
    exact ⟨dep, hdep, b, hpath⟩
  · rintro ⟨dep, hdep, b, hpath⟩
    exact ⟨b, dep, hdep, hpath⟩

theorem foldl_max_isGreatest (trees : List DependencyTree) (depth : Nat) :
    IsGreatest {n | n = depth ∨ ∃ tree ∈ trees, n = tree.depth}
      (trees.foldl (fun maxDepth tree => max maxDepth tree.depth) depth) := by
  induction trees generalizing depth with
  | nil => simp [IsGreatest, upperBounds]
  | cons tree rest ih =>
      obtain ⟨hmem, hupper⟩ := ih (max depth tree.depth)
      rw [List.foldl_cons]
      have hle := hupper (.inl rfl)
      constructor
      · rcases hmem with heq | ⟨other, hother, heq⟩
        · rcases le_total depth tree.depth with h | h
          · exact .inr ⟨tree, List.mem_cons_self, by rw [heq, max_eq_right h]⟩
          · exact .inl (by rw [heq, max_eq_left h])
        · exact .inr ⟨other, List.mem_cons_of_mem tree hother, heq⟩
      · rintro n (rfl | ⟨other, hother, rfl⟩)
        · exact (le_max_left _ _).trans hle
        · rcases List.mem_cons.mp hother with rfl | hother
          · exact (le_max_right _ _).trans hle
          · exact hupper (.inr ⟨other, hother, rfl⟩)

section

variable (hdistinct : DistinctIds workflows)
include hdistinct

/-- Without cycles a tree is as deep as the longest chain from its root, counted from the depth
that the root has. -/
theorem buildDependencyTree_depth (hacyclic : Acyclic workflows) {fuel : Nat}
    {visited : List String} {depth : Nat} {tree : DependencyTree}
    (hvisited : ∀ v ∈ visited, TransGen (Refers workflows) v id)
    (h : buildDependencyTree workflows fuel id visited depth = some tree) :
    IsGreatest {m | ∃ n ∈ chainLengths workflows id, m = depth + n} tree.depth := by
  induction fuel generalizing id visited depth tree with
  | zero => cases h
  | succ fuel ih =>
      rw [buildDependencyTree, if_neg fun hmem => hacyclic id (hvisited id hmem)] at h
      obtain ⟨trees, htrees, hlast⟩ := Option.bind_eq_some_iff.mp h
      cases hlast
      rw [mapM_eq_some_iff] at htrees
      have hchild : ∀ dep tree, Refers workflows id dep →
          buildDependencyTree workflows fuel dep (add visited id) (depth + 1) = some tree →
          IsGreatest {m | ∃ n ∈ chainLengths workflows dep, m = depth + 1 + n} tree.depth := by
        intro dep tree hdep htree
        refine ih (fun v hv => ?_) htree
        rcases mem_add.mp hv with hv | rfl
        · exact (hvisited v hv).tail hdep
        · exact .single hdep
      obtain ⟨hmem, hupper⟩ := foldl_max_isGreatest trees depth
      constructor
      · rcases hmem with heq | ⟨tree, htree, heq⟩
        · exact ⟨0, zero_mem_chainLengths id, heq⟩
        · obtain ⟨dep, hdep, hrun⟩ := mem_right_of_forall₂ htrees htree
          have hrefers := (mem_getDependencies hdistinct).mp hdep
          obtain ⟨n, hn, hdepth⟩ := (hchild dep tree hrefers hrun).1
          exact ⟨n + 1, succ_mem_chainLengths.mpr ⟨dep, hrefers, hn⟩,
            heq.trans (hdepth.trans (by omega))⟩
      · rintro m ⟨n, hn, rfl⟩
        cases n with
        | zero => exact hupper (.inl rfl)
        | succ n =>
            obtain ⟨dep, hrefers, hn⟩ := succ_mem_chainLengths.mp hn
            obtain ⟨tree, htree, hrun⟩ :=
              mem_left_of_forall₂ htrees ((mem_getDependencies hdistinct).mpr hrefers)
            have hle := (hchild dep tree hrefers hrun).2 ⟨n, hn, rfl⟩
            have hle' := hupper (.inr ⟨tree, htree, rfl⟩)
            exact le_trans (by omega) hle'

theorem buildDependencyTree_returns {nodes : List String} (hnodes : mentioned workflows ⊆ nodes)
    {fuel : Nat} {visited : List String} (hid : id ∈ nodes) (hfuel : unmarked nodes visited < fuel)
    (depth : Nat) : ∃ tree, buildDependencyTree workflows fuel id visited depth = some tree := by
  induction fuel generalizing id visited depth with
  | zero => cases hfuel
  | succ fuel ih =>
      rw [buildDependencyTree]
      split
      · exact ⟨_, rfl⟩
      · next hfresh =>
          have hlt := unmarked_add_lt hid hfresh hfuel
          obtain ⟨trees, htrees⟩ := mapM_returns fun dep hdep =>
            ih (hnodes ((mem_getDependencies hdistinct).mp hdep).mentioned_right) hlt (depth + 1)
          exact ⟨_, Option.bind_eq_some_iff.mpr ⟨trees, htrees, rfl⟩⟩

theorem getDependencyDepth_isGreatest (hacyclic : Acyclic workflows) (id : String) :
    ∃ depth, getDependencyDepth workflows id = some depth ∧
      IsGreatest (chainLengths workflows id) depth := by
  obtain ⟨tree, htree⟩ := buildDependencyTree_returns hdistinct
    (List.subset_cons_self id (mentioned workflows)) List.mem_cons_self
    (unmarked_cons_lt_enough workflows id) 0
  refine ⟨tree.depth, by simp [getDependencyDepth, htree], ?_⟩
  have hgreatest := buildDependencyTree_depth hdistinct hacyclic (by simp) htree
  simpa using hgreatest

end

/-! ### Depths in the graph -/

section Search

variable {edges : List DependencyEdge} {inCycle : List String} {bound : Nat}

/-- Every depth that is set is at most the bound. -/
def Below (bound : Nat) (search : DepthSearch) : Prop :=
  ∀ id depth, search.depths.get? id = some depth → depth ≤ bound

theorem below_empty (bound : Nat) : Below bound ⟨[], .empty⟩ := by
  intro id depth hget
  cases hget

theorem Below.getD_le {search : DepthSearch} (h : Below bound search) (id : String) :
    (search.depths.get? id).getD 0 ≤ bound := by
  cases hget : search.depths.get? id with
  | none => exact Nat.zero_le bound
  | some depth => exact h id depth hget

/-- Depths stay below a bound that no node exceeds where it is first met. -/
theorem depthDfs_below (met : String → Nat → Prop) (seen : List String)
    (hnext : ∀ id depth, met id depth → ∀ edge ∈ edges, edge.fromId = id →
      met edge.toId (depth + 1))
    (hbound : ∀ id depth, met id depth → id ∈ seen ∨ depth ≤ bound) {fuel : Nat} {id : String}
    {depth : Nat} {search : DepthSearch} {after : Nat × DepthSearch} (hmet : met id depth)
    (hseen : seen ⊆ search.visited) (hbelow : Below bound search)
    (h : depthDfs edges inCycle fuel id depth search = some after) :
    after.1 ≤ bound ∧ Below bound after.2 ∧ search.visited ⊆ after.2.visited ∧
      id ∈ after.2.visited := by
  induction fuel generalizing id depth search after with
  | zero => cases h
  | succ fuel ih =>
      rw [depthDfs] at h
      split at h
      · next hvisited =>
          cases h
          exact ⟨hbelow.getD_le id, hbelow, List.Subset.refl _, hvisited⟩
      · next hfresh =>
          obtain ⟨below, hrun, hlast⟩ := Option.bind_eq_some_iff.mp h
          cases hlast
          have hdepth : depth ≤ bound :=
            (hbound id depth hmet).resolve_left fun hmem => hfresh (hseen hmem)
          have hall : below.1 ≤ bound ∧ Below bound below.2 ∧
              add search.visited id ⊆ below.2.visited := by
            refine foldlM_invariant (fun _ (found : Nat × DepthSearch) => found.1 ≤ bound ∧
              Below bound found.2 ∧ add search.visited id ⊆ found.2.visited) ?_
              ⟨hdepth, hbelow, List.Subset.refl _⟩ hrun
            rintro done edge rest found next hitems ⟨hle, hfound, hkeeps⟩ hstep
            split at hstep
            · obtain ⟨child, hchild, hnextEq⟩ := Option.bind_eq_some_iff.mp hstep
              cases hnextEq
              have hedge : edge ∈ edges.filter (·.fromId == id) := by simp [hitems]
              obtain ⟨hmem, hfrom⟩ := List.mem_filter.mp hedge
              have hmet' := hnext id depth hmet edge hmem (by simpa using hfrom)
              obtain ⟨hchildLe, hchildBelow, hchildKeeps, -⟩ := ih hmet'
                (List.Subset.trans hseen
                  (List.Subset.trans (subset_add search.visited id) hkeeps)) hfound hchild
              exact ⟨max_le hle hchildLe, hchildBelow, List.Subset.trans hkeeps hchildKeeps⟩
            · cases hstep
              exact ⟨hle, hfound, hkeeps⟩
          obtain ⟨hle, hbelow', hkeeps⟩ := hall
          refine ⟨hle, fun other value hget => ?_,
            List.Subset.trans (subset_add search.visited id) hkeeps,
            hkeeps (mem_add.mpr (.inr rfl))⟩
          by_cases hother : other = id
          · rw [hother, ObjectMap.get?_set_self] at hget
            cases hget
            exact hle
          · rw [ObjectMap.get?_set_ne _ hother] at hget
            exact hbelow' other value hget

/-- All depths that are calculated stay below a bound that no chain of references exceeds before
its last id, which may be a leaf. -/
theorem calculateDepths_below {ids : List String} {refers : String → String → Prop}
    {circular : String → Prop} {cyclic : String × String → Prop}
    {nodes after : ObjectMap DependencyNode} {cycles : List (List String)} {fuel : Nat}
    (hshows : Shows ids refers circular cyclic ⟨nodes, edges⟩)
    (hlisted : ∀ a b, refers a b → b ∈ ids)
    (hbound : ∀ root id depth, root ∈ ids → PathTo refers {root} depth id →
      (∀ b, ¬ refers id b) ∨ depth ≤ bound)
    (h : calculateDepths fuel nodes edges cycles = some after) :
    ∃ search, Below bound search ∧ after = updateDepths search.depths nodes := by
  obtain ⟨leaves, hleaves, h⟩ := Option.bind_eq_some_iff.mp h
  obtain ⟨all, hall, hlast⟩ := Option.bind_eq_some_iff.mp h
  have hedge : ∀ edge ∈ edges, refers edge.fromId edge.toId := fun edge hmem =>
    (hshows.edges edge.fromId edge.toId).mp (List.mem_map.mpr ⟨edge, hmem, rfl⟩)
  have hleaf : ∀ entry ∈ nodes.entries, entry.2.outDegree = 0 ↔ ∀ b, ¬ refers entry.1 b := by
    intro entry hentry
    exact (hshows.nodes entry.1 entry.2
      (ObjectMap.get?_eq_some_iff.mpr hentry)).outDegree_eq_zero_iff
  -- the leaves are visited first
  have hfirst : Below bound leaves ∧
      ∀ entry ∈ nodes.entries, entry.2.outDegree = 0 → entry.1 ∈ leaves.visited := by
    refine foldlM_invariant (fun done (search : DepthSearch) => Below bound search ∧
      ∀ entry ∈ done, entry.2.outDegree = 0 → entry.1 ∈ search.visited) ?_
      ⟨below_empty bound, by simp⟩ hleaves
    rintro done entry rest search next hitems ⟨hbelow, hvisited⟩ hstep
    split at hstep
    · next hdegree =>
        obtain ⟨result, hrun, hnext⟩ := Option.map_eq_some_iff.mp hstep
        cases hnext
        have hnone := (hleaf entry (by simp [hitems])).mp hdegree
        obtain ⟨-, hbelow', hkeeps, hmem⟩ := depthDfs_below
          (fun id depth => id = entry.1 ∧ depth = 0) []
          (fun id depth hmet edge hmem hfrom =>
            absurd (hedge edge hmem) (hfrom ▸ hmet.1 ▸ hnone edge.toId))
          (fun id depth hmet => .inr (hmet.2 ▸ Nat.zero_le bound)) ⟨rfl, rfl⟩
          (List.nil_subset _) hbelow hrun
        refine ⟨hbelow', fun other hother hzero => ?_⟩
        rcases List.mem_append.mp hother with hother | hother
        · exact hkeeps (hvisited other hother hzero)
        · cases List.mem_singleton.mp hother
          exact hmem
    · next hdegree =>
        cases hstep
        refine ⟨hbelow, fun other hother hzero => ?_⟩
        rcases List.mem_append.mp hother with hother | hother
        · exact hvisited other hother hzero
        · cases List.mem_singleton.mp hother
          exact absurd hzero hdegree
  obtain ⟨hbelowLeaves, hleavesVisited⟩ := hfirst
  have hpathListed : ∀ root id depth, root ∈ ids → PathTo refers {root} depth id → id ∈ ids := by
    intro root id depth hroot hpath
    cases hpath with
    | start hstart => exact (Set.mem_singleton_iff.mp hstart) ▸ hroot
    | snoc _ hstep => exact hlisted _ _ hstep
  have hmetBound : ∀ id depth, (∃ root ∈ ids, PathTo refers {root} depth id) →
      id ∈ leaves.visited ∨ depth ≤ bound := by
    rintro id depth ⟨root, hroot, hpath⟩
    rcases hbound root id depth hroot hpath with hnone | hle
    · obtain ⟨node, hnode⟩ := (hshows.listed id).mpr (hpathListed root id depth hroot hpath)
      have hentry := ObjectMap.get?_eq_some_iff.mp hnode
      exact .inl (hleavesVisited (id, node) hentry ((hleaf (id, node) hentry).mpr hnone))
    · exact .inr hle
  have hsecond : Below bound all ∧ leaves.visited ⊆ all.visited := by
    refine foldlM_invariant (fun _ (search : DepthSearch) =>
      Below bound search ∧ leaves.visited ⊆ search.visited) ?_
      ⟨hbelowLeaves, List.Subset.refl _⟩ hall
    rintro done entry rest search next hitems ⟨hbelow, hkeeps⟩ hstep
    split at hstep
    · obtain ⟨result, hrun, hnext⟩ := Option.map_eq_some_iff.mp hstep
      cases hnext
      have hroot : entry.1 ∈ ids := (hshows.listed entry.1).mp
        ⟨entry.2, ObjectMap.get?_eq_some_iff.mpr (by simp [hitems])⟩
      obtain ⟨-, hbelow', hkeeps', -⟩ := depthDfs_below
        (fun id depth => ∃ root ∈ ids, PathTo refers {root} depth id) leaves.visited
        (fun id depth hmet edge hmem hfrom => by
          obtain ⟨root, hroot, hpath⟩ := hmet
          exact ⟨root, hroot, hpath.snoc (hfrom ▸ hedge edge hmem)⟩)
        hmetBound ⟨entry.1, hroot, .start rfl⟩ hkeeps hbelow hrun
      exact ⟨hbelow', List.Subset.trans hkeeps hkeeps'⟩
    · cases hstep
      exact ⟨hbelow, hkeeps⟩
  cases hlast
  exact ⟨all, hsecond.1, rfl⟩

end Search

/-- No depth is set before all are calculated. -/
def Unset (nodes : ObjectMap DependencyNode) : Prop :=
  ∀ id node, nodes.get? id = some node → node.depth = 0

theorem Unset.modify {nodes : ObjectMap DependencyNode} (h : Unset nodes)
    {write : DependencyNode → DependencyNode} (hwrite : ∀ node, (write node).depth = node.depth) :
    Unset (modify nodes id write) := by
  intro other node hnode
  obtain ⟨before, hbefore, ⟨-, rfl⟩ | ⟨-, rfl⟩⟩ := exists_of_get?_modify hnode
  · rw [hwrite, h other before hbefore]
  · exact h other node hbefore

theorem addDependency_depth (targetId : String) (node : DependencyNode) :
    (addDependency targetId node).depth = node.depth := by
  unfold addDependency
  split <;> rfl

theorem addDependent_depth (sourceId : String) (node : DependencyNode) :
    (addDependent sourceId node).depth = node.depth := by
  unfold addDependent
  split <;> rfl

theorem markCycles_unset (hdistinct : DistinctIds workflows) (cycles : List (List String)) :
    Unset (markCycles cycles (addReferences workflows ⟨initializeNodes workflows, []⟩)).nodes := by
  have hstart : Unset (initializeNodes workflows) := by
    intro id node hnode
    rw [initializeNodes, get?_keyed hdistinct] at hnode
    obtain ⟨w, -, -, rfl⟩ := hnode
    rfl
  have hreferences : Unset (addReferences workflows ⟨initializeNodes workflows, []⟩).nodes := by
    refine List.foldlRecOn (motive := fun links : Links => Unset links.nodes) workflows _ hstart ?_
    intro links hlinks workflow _
    refine List.foldlRecOn (motive := fun links : Links => Unset links.nodes) _ _ hlinks ?_
    intro links hlinks action _
    unfold addReference
    split
    · exact hlinks
    · exact (hlinks.modify (addDependency_depth _)).modify (addDependent_depth _)
  refine List.foldlRecOn (motive := fun links : Links => Unset links.nodes) cycles _ hreferences ?_
  intro links hlinks cycle _
  refine List.foldlRecOn (motive := fun links : Links => Unset links.nodes) _ _ hlinks ?_
  intro links hlinks pair _
  exact hlinks.modify fun _ => rfl

theorem freshGraph_depth_le {minText : List String → String} {now : Int} {graph : DependencyGraph}
    {bound : Nat} (hdistinct : DistinctIds workflows) (hlisted : RefersToListed workflows)
    (hbound : ∀ root id depth, root ∈ workflows.map (·.id) →
      PathTo (Refers workflows) {root} depth id → (∀ b, ¬ Refers workflows id b) ∨ depth ≤ bound)
    (hgraph : freshGraph minText now workflows = some graph) {node : DependencyNode}
    (hnode : graph.nodes.get? id = some node) : node.depth ≤ bound := by
  obtain ⟨cycles, nodes, -, hnodes, rfl⟩ := freshGraph_eq_some_iff.mp hgraph
  obtain ⟨search, hbelow, rfl⟩ := calculateDepths_below (markCycles_shows hdistinct cycles)
    hlisted hbound hnodes
  change (updateDepths _ _).get? id = some node at hnode
  rw [get?_updateDepths] at hnode
  obtain ⟨before, hbefore, rfl⟩ := Option.map_eq_some_iff.mp hnode
  rw [markCycles_unset hdistinct cycles id before hbefore]
  exact hbelow.getD_le id

theorem exists_longest_chain (hacyclic : Acyclic workflows) {a b : String}
    (hab : Refers workflows a b) :
    ∃ m root, m + 1 ∈ chainLengths workflows root ∧
      ∀ start, ∀ n ∈ chainLengths workflows start, n ≤ m + 1 := by
  have hbounded : BddAbove {n | ∃ start, n ∈ chainLengths workflows start} := by
    refine ⟨(mentioned workflows).length, ?_⟩
    rintro n ⟨start, c, hpath⟩
    have hlt : n < (start :: mentioned workflows).length :=
      hpath.length_lt (fun x hx => by simp [Set.mem_singleton_iff.mp hx])
        (fun x y hxy => List.mem_cons_of_mem _ hxy.mentioned_right) hacyclic
    exact Nat.le_of_lt_succ hlt
  have hone : 1 ∈ {n | ∃ start, n ∈ chainLengths workflows start} :=
    ⟨a, succ_mem_chainLengths.mpr ⟨b, hab, zero_mem_chainLengths b⟩⟩
  have hmem := Nat.sSup_mem ⟨1, hone⟩ hbounded
  have hle := le_csSup hbounded hone
  obtain ⟨m, hm⟩ := Nat.exists_eq_add_of_le' hle
  rw [hm] at hmem
  obtain ⟨root, hroot⟩ := hmem
  exact ⟨m, root, hroot, fun start n hn => hm ▸ le_csSup hbounded ⟨start, hn⟩⟩

/-- The two depths of every workflow are the number of references on the longest chain that starts
at it, and 0 only where it has no dependencies. -/
def DepthsAgree (workflows : List Workflow) (graph : DependencyGraph) : Prop :=
  ∀ id node, graph.nodes.get? id = some node →
    getDependencyDepth workflows id = some node.depth ∧
    IsGreatest (chainLengths workflows id) node.depth ∧
    (node.depth = 0 ↔ getDependencies workflows id = [])

/-- The depths in a fresh graph are right only where there is nothing to count. -/
theorem depths_agree_iff (minText : List String → String) (hdistinct : DistinctIds workflows)
    (hacyclic : Acyclic workflows) (hlisted : RefersToListed workflows) {analyzer : Analyzer}
    {now : Int} {useCache : Bool} (hfresh : analyzer.cached now useCache = none) :
    ∃ graph after,
      buildDependencyGraph minText now workflows useCache analyzer = some (graph, after) ∧
      (DepthsAgree workflows graph ↔ ∀ a b, ¬ Refers workflows a b) := by
  obtain ⟨graph, hgraph⟩ := freshGraph_returns minText now hdistinct
  refine ⟨graph, ⟨some graph, now⟩, by simp [buildDependencyGraph, hfresh, hgraph], ?_⟩
  obtain ⟨-, hshows, -⟩ := freshGraph_shows hdistinct hgraph
  constructor
  · intro hagree a b hab
    obtain ⟨m, root, hm, hgreatest⟩ := exists_longest_chain hacyclic hab
    obtain ⟨dep, hdep, -⟩ := succ_mem_chainLengths.mp hm
    obtain ⟨node, hnode⟩ := (hshows.listed root).mpr hdep.mem_left
    have hge := (hagree root node hnode).2.1.2 hm
    have hle : node.depth ≤ m := by
      refine freshGraph_depth_le hdistinct hlisted (fun start id depth _ hpath => ?_) hgraph hnode
      by_cases hnext : ∃ b, Refers workflows id b
      · obtain ⟨b, hb⟩ := hnext
        exact .inr (Nat.le_of_succ_le_succ (hgreatest start (depth + 1) ⟨b, hpath.snoc hb⟩))
      · exact .inl fun b hb => hnext ⟨b, hb⟩
    omega
  · intro hnone id node hnode
    have hdepth : node.depth = 0 := Nat.le_zero.mp
      (freshGraph_depth_le hdistinct hlisted (fun _ id _ _ _ => .inl (hnone id)) hgraph hnode)
    obtain ⟨depth, hget, hgreatest⟩ := getDependencyDepth_isGreatest hdistinct hacyclic id
    have hzero : depth = 0 := by
      cases depth with
      | zero => rfl
      | succ n =>
          obtain ⟨dep, hdep, -⟩ := succ_mem_chainLengths.mp hgreatest.1
          exact absurd hdep (hnone id dep)
    rw [hzero] at hget hgreatest
    rw [hdepth]
    refine ⟨hget, hgreatest, fun _ => ?_, fun _ => rfl⟩
    rw [List.eq_nil_iff_forall_not_mem]
    exact fun dep hdep => hnone id dep ((mem_getDependencies hdistinct).mp hdep)

/-- `A` runs `B`. -/
def caller : List Workflow := [runner "A" ["B"], runner "B" []]

theorem caller_refers {a b : String} (h : Refers caller a b) : a = "A" ∧ b = "B" := by
  obtain ⟨w, hw, rfl, hnames⟩ := h
  rw [← mem_analyzeDependencies] at hnames
  simp only [caller, List.mem_cons, List.not_mem_nil, or_false] at hw
  rcases hw with rfl | rfl
  · exact ⟨rfl, List.mem_singleton.mp hnames⟩
  · exact absurd hnames List.not_mem_nil

theorem caller_acyclic : Acyclic caller := by
  intro a h
  obtain ⟨b, hab, -⟩ := TransGen.head'_iff.mp h
  obtain ⟨c, -, hca⟩ := TransGen.tail'_iff.mp h
  exact absurd ((caller_refers hab).1.symm.trans (caller_refers hca).2) (by decide)

theorem caller_refersToListed : RefersToListed caller := by
  intro a b h
  rw [(caller_refers h).2]
  decide

/-- The depths of two workflows of which one runs the other. -/
theorem caller_depths_agree_iff :
    ∃ graph after, buildDependencyGraph (fun _ => "NaN") 0 caller false ⟨none, 0⟩ =
        some (graph, after) ∧
      (DepthsAgree caller graph ↔ ∀ a b, ¬ Refers caller a b) :=
  depths_agree_iff (fun _ => "NaN") (by decide) caller_acyclic caller_refersToListed rfl

/-- `A` has a dependency and the depth 1, but 0 in the graph. -/
theorem caller_depths_differ :
    DistinctIds caller ∧ Acyclic caller ∧ RefersToListed caller ∧
      ((buildDependencyGraph (fun _ => "NaN") 0 caller false ⟨none, 0⟩).bind fun built =>
        (built.1.nodes.get? "A").map (·.depth)) = some 0 ∧
      getDependencyDepth caller "A" = some 1 :=
  ⟨by decide, caller_acyclic, caller_refersToListed, by decide +kernel, by decide +kernel⟩

end Qontinui.Dependencies
