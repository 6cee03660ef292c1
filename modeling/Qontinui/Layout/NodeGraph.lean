import Qontinui.Base.DepthFirst
import Qontinui.Base.Relaxation
import Qontinui.Workflow.ActionTypes

/-!
The depths that the auto layout of the workflow converter assigns: the graph of its nodes,
and the search that queues a node again whenever a longer path to it turns up. A depth is
never more than the number of nodes, so the search ends on cycles too.
-/

namespace Qontinui.AutoLayout

open Paths Relaxation Worklist

structure LayoutNode where
  action : Action
  depth : Nat := 0
  children : List String := []
  parents : List String := []
  deriving DecidableEq

abbrev Nodes := ObjectMap LayoutNode

/-- A change of a node, if there is one under the id. -/
def modifyNode (nodes : Nodes) (id : String) (f : LayoutNode → LayoutNode) : Nodes :=
  match nodes.get? id with
  | none => nodes
  | some node => nodes.set id (f node)

/-- Enter a connection at both its nodes, if its target has one. -/
def addConnection (sourceId : String) (nodes : Nodes) (conn : Connection) : Nodes :=
  match nodes.get? conn.action with
  | none => nodes
  | some _ =>
      modifyNode
        (modifyNode nodes sourceId fun node =>
          { node with children := node.children ++ [conn.action] })
        conn.action fun node => { node with parents := node.parents ++ [sourceId] }

def addOutputs (nodes : Nodes) (entry : String × Outputs) : Nodes :=
  match nodes.get? entry.1 with
  | none => nodes
  | some _ => entry.2.connections.foldl (addConnection entry.1) nodes

def buildNodeGraph (connections : Connections) (actions : List Action) : Nodes :=
  connections.entries.foldl addOutputs
    (actions.foldl (fun nodes action => nodes.set action.id { action := action }) .empty)

/-- A node in the queue, with the depth it had when it was pushed. -/
structure QueuedNode where
  nodeId : String
  depth : Nat
  deriving DecidableEq

/-- The nodes with the depths found so far, and those that have been queued. -/
structure DepthSearch where
  nodes : Nodes
  visited : List String
  deriving DecidableEq

def offerDepth (maxDepth newDepth : Nat) (search : DepthSearch) (childId : String) :
    DepthSearch × List QueuedNode :=
  match search.nodes.get? childId with
  | none => (search, [])
  | some childNode =>
      if newDepth > maxDepth then (search, [])
      else if childId ∉ search.visited ∨ childNode.depth < newDepth then
        ({ nodes := search.nodes.set childId { childNode with depth := newDepth }
           visited := childId :: search.visited },
          [{ nodeId := childId, depth := newDepth }])
      else (search, [])

def visitChildren (maxDepth : Nat) (search : DepthSearch) (queued : QueuedNode) :
    DepthSearch × List QueuedNode :=
  match search.nodes.get? queued.nodeId with
  | none => (search, [])
  | some node => pushAll (offerDepth maxDepth (queued.depth + 1)) search node.children

/-- The nodes without parents; if there are none, that of the first action. -/
def entryPoints (actions : List Action) (nodes : Nodes) : List LayoutNode :=
  match nodes.values.filter fun node => node.parents.length = 0, actions with
  | [], firstAction :: _ => (nodes.get? firstAction.id).toList
  | entries, _ => entries

def entryIds (actions : List Action) (nodes : Nodes) : List String :=
  (entryPoints actions nodes).map fun node => node.action.id

/-- Calculate depth for each node. The entry points have depth 0 from the start. -/
def calculateDepths (actions : List Action) (nodes : Nodes) (fuel : Nat) : Option Nodes :=
  let maxDepth := nodes.keys.length
  (drain (visitChildren maxDepth) fuel { nodes := nodes, visited := entryIds actions nodes }
    ((entryIds actions nodes).map fun id => { nodeId := id, depth := 0 })).map DepthSearch.nodes

/-! ### The graph of the nodes -/

/-- The nodes are those of the listed actions, with the connections among them. -/
structure Represents (ids : List String) (edge : String → String → Prop) (nodes : Nodes) :
    Prop where
  listed : ∀ id, (∃ node, nodes.get? id = some node) ↔ id ∈ ids
  named : ∀ {id node}, nodes.get? id = some node → node.action.id = id
  unplaced : ∀ {id node}, nodes.get? id = some node → node.depth = 0
  children : ∀ {id node}, nodes.get? id = some node →
    ∀ child, child ∈ node.children ↔ child ∈ ids ∧ edge id child
  parents : ∀ {id node}, nodes.get? id = some node →
    ∀ parent, parent ∈ node.parents ↔ parent ∈ ids ∧ edge parent id

theorem get?_modifyNode (nodes : Nodes) (id other : String) (f : LayoutNode → LayoutNode) :
    (modifyNode nodes id f).get? other =
      if other = id then (nodes.get? id).map f else nodes.get? other := by
  by_cases hid : other = id
  · subst hid
    cases hnode : nodes.get? other with
    | none | some => simp [modifyNode, hnode]
  · rw [if_neg hid]
    unfold modifyNode
    split
    · rfl
    · exact ObjectMap.get?_set_ne _ hid _

theorem get?_addConnection (nodes : Nodes) (sourceId : String) {conn : Connection}
    {target : LayoutNode} (htarget : nodes.get? conn.action = some target) (id : String) :
    (addConnection sourceId nodes conn).get? id = (nodes.get? id).map fun node =>
      { node with
        children := node.children ++ if id = sourceId then [conn.action] else []
        parents := node.parents ++ if id = conn.action then [sourceId] else [] } := by
  simp only [addConnection, htarget, get?_modifyNode]
  by_cases hid : id = conn.action
  · by_cases hsource : conn.action = sourceId
    · simp [hid, hsource, Function.comp_def]
    · simp [hid, hsource, htarget]
  · by_cases hsource : id = sourceId
    · subst hsource
      simp [hid]
    · simp [hid, hsource]

section Graph

variable {ids : List String} {edge : String → String → Prop} {nodes : Nodes}

theorem Represents.congr (h : Represents ids edge nodes) {other : String → String → Prop}
    (hsame : ∀ a ∈ ids, ∀ b ∈ ids, other a b ↔ edge a b) : Represents ids other nodes where
  listed := h.listed
  named := h.named
  unplaced := h.unplaced
  children {id node} hnode child := by
    have hid := (h.listed id).mp ⟨node, hnode⟩
    rw [h.children hnode]
    exact and_congr_right fun hchild => (hsame id hid child hchild).symm
  parents {id node} hnode parent := by
    have hid := (h.listed id).mp ⟨node, hnode⟩
    rw [h.parents hnode]
    exact and_congr_right fun hparent => (hsame parent hparent id hid).symm

theorem Represents.addConnection (h : Represents ids edge nodes) {sourceId : String}
    (hsource : sourceId ∈ ids) (conn : Connection) :
    Represents ids (fun a b => edge a b ∨ a = sourceId ∧ b = conn.action)
      (addConnection sourceId nodes conn) := by
  cases htarget : nodes.get? conn.action with
  | none =>
      have hsame : AutoLayout.addConnection sourceId nodes conn = nodes := by
        simp only [AutoLayout.addConnection, htarget]
      rw [hsame]
      refine h.congr fun a _ b hb => or_iff_left ?_
      rintro ⟨-, rfl⟩
      obtain ⟨node, hnode⟩ := (h.listed _).mpr hb
      simp [htarget] at hnode
  | some target =>
      have hget := get?_addConnection nodes sourceId htarget
      have hconn : conn.action ∈ ids := (h.listed _).mp ⟨target, htarget⟩
      refine ⟨fun id => ?_, ?_, ?_, ?_, ?_⟩
      · simp only [hget, Option.map_eq_some_iff, ← h.listed]
        exact ⟨fun ⟨_, node, hnode, _⟩ => ⟨node, hnode⟩, fun ⟨node, hnode⟩ => ⟨_, node, hnode, rfl⟩⟩
      · intro id node hnode
        obtain ⟨old, hold, rfl⟩ := Option.map_eq_some_iff.mp (hget id ▸ hnode)
        exact (h.named hold : old.action.id = id)
      · intro id node hnode
        obtain ⟨old, hold, rfl⟩ := Option.map_eq_some_iff.mp (hget id ▸ hnode)
        exact (h.unplaced hold : old.depth = 0)
      · intro id node hnode child
        obtain ⟨old, hold, rfl⟩ := Option.map_eq_some_iff.mp (hget id ▸ hnode)
        rw [List.mem_append, h.children hold]
        by_cases hid : id = sourceId
        · simp only [hid, if_true, List.mem_singleton, true_and, and_or_left]
          exact or_congr_right ⟨fun heq => ⟨heq ▸ hconn, heq⟩, And.right⟩
        · simp [hid]
      · intro id node hnode parent
        obtain ⟨old, hold, rfl⟩ := Option.map_eq_some_iff.mp (hget id ▸ hnode)
        rw [List.mem_append, h.parents hold]
        by_cases hid : id = conn.action
        · simp only [hid, if_true, List.mem_singleton, and_true, and_or_left]
          exact or_congr_right ⟨fun heq => ⟨heq ▸ hsource, heq⟩, And.right⟩
        · simp [hid]

theorem Represents.addOutputs (h : Represents ids edge nodes) (entry : String × Outputs) :
    Represents ids (fun a b => edge a b ∨ a = entry.1 ∧ b ∈ entry.2.targets)
      (addOutputs nodes entry) := by
  obtain ⟨sourceId, outputs⟩ := entry
  cases hsource : nodes.get? sourceId with
  | none =>
      have hsame : AutoLayout.addOutputs nodes (sourceId, outputs) = nodes := by
        simp only [AutoLayout.addOutputs, hsource]
      rw [hsame]
      refine h.congr fun a ha b _ => or_iff_left ?_
      rintro ⟨rfl, -⟩
      obtain ⟨node, hnode⟩ := (h.listed _).mpr ha
      simp [hsource] at hnode
  | some source =>
      have hfold : AutoLayout.addOutputs nodes (sourceId, outputs) =
          outputs.connections.foldl (AutoLayout.addConnection sourceId) nodes := by
        simp only [AutoLayout.addOutputs, hsource]
      have hmem : sourceId ∈ ids := (h.listed _).mp ⟨source, hsource⟩
      rw [hfold]
      simp only [Outputs.targets]
      clear hfold hsource
      induction outputs.connections generalizing edge nodes with
      | nil => exact h.congr (by simp)
      | cons conn rest ih =>
          refine (ih (h.addConnection hmem conn)).congr fun a _ b _ => ?_
          simp only [List.map_cons, List.mem_cons]
          tauto

theorem Represents.set (h : Represents ids (fun _ _ => False) nodes) (action : Action) :
    Represents (ids ++ [action.id]) (fun _ _ => False)
      (nodes.set action.id { action := action }) := by
  have hget : ∀ {id node}, (nodes.set action.id { action := action }).get? id = some node →
      id = action.id ∧ node = { action := action } ∨ nodes.get? id = some node := by
    intro id node hnode
    by_cases hid : id = action.id
    · subst hid
      rw [ObjectMap.get?_set_self] at hnode
      exact .inl ⟨rfl, (Option.some.inj hnode).symm⟩
    · rw [ObjectMap.get?_set_ne _ hid] at hnode
      exact .inr hnode
  refine ⟨fun id => ?_, ?_, ?_, ?_, ?_⟩
  · by_cases hid : id = action.id
    · simp [hid]
    · simp [ObjectMap.get?_set_ne _ hid, h.listed, hid]
  · intro id node hnode
    rcases hget hnode with ⟨rfl, rfl⟩ | hold
    · rfl
    · exact h.named hold
  · intro id node hnode
    rcases hget hnode with ⟨rfl, rfl⟩ | hold
    · rfl
    · exact h.unplaced hold
  · intro id node hnode child
    rcases hget hnode with ⟨rfl, rfl⟩ | hold
    · simp
    · simp [h.children hold]
  · intro id node hnode parent
    rcases hget hnode with ⟨rfl, rfl⟩ | hold
    · simp
    · simp [h.parents hold]

theorem represents_set (actions : List Action) :
    Represents (actions.map Action.id) (fun _ _ => False)
      (actions.foldl (fun nodes action => nodes.set action.id { action := action }) .empty) := by
  have hfold : ∀ {ids nodes}, Represents ids (fun _ _ => False) nodes →
      Represents (ids ++ actions.map Action.id) (fun _ _ => False)
        (actions.foldl (fun nodes action => nodes.set action.id { action := action }) nodes) := by
    induction actions with
    | nil => exact fun h => by simpa using h
    | cons action rest ih =>
        intro ids nodes h
        have hrest := ih (h.set action)
        rwa [List.append_assoc] at hrest
  have hempty : Represents [] (fun _ _ => False) (ObjectMap.empty : Nodes) :=
    ⟨by simp, by simp, by simp, by simp, by simp⟩
  exact hfold hempty

def Listed (connections : Connections) (actions : List Action) (a b : String) : Prop :=
  a ∈ actions.map Action.id ∧ b ∈ actions.map Action.id ∧ connections.Leads a b

theorem represents_buildNodeGraph (connections : Connections) (actions : List Action) :
    Represents (actions.map Action.id) connections.Leads
      (buildNodeGraph connections actions) := by
  have hfold : ∀ (entries : List (String × Outputs)) {edge nodes},
      Represents (actions.map Action.id) edge nodes →
      Represents (actions.map Action.id)
        (fun a b => edge a b ∨ ∃ outputs, (a, outputs) ∈ entries ∧ b ∈ outputs.targets)
        (entries.foldl AutoLayout.addOutputs nodes) := by
    intro entries
    induction entries with
    | nil => exact fun h => h.congr (by simp)
    | cons entry rest ih =>
        intro edge nodes h
        refine (ih (h.addOutputs entry)).congr fun a _ b _ => ?_
        simp only [List.mem_cons]
        constructor
        · rintro (hedge | ⟨outputs, heq | hrest, hb⟩)
          · exact .inl (.inl hedge)
          · exact .inl (.inr ⟨congrArg Prod.fst heq, by rw [← heq]; exact hb⟩)
          · exact .inr ⟨outputs, hrest, hb⟩
        · rintro ((hedge | ⟨rfl, hb⟩) | ⟨outputs, hrest, hb⟩)
          · exact .inl hedge
          · exact .inr ⟨entry.2, .inl rfl, hb⟩
          · exact .inr ⟨outputs, .inr hrest, hb⟩
  refine (hfold connections.entries (represents_set actions)).congr fun a _ b _ => ?_
  simp only [Connections.Leads, ObjectMap.get?_eq_some_iff, false_or]

end Graph

/-! ### The search for depths -/

/-- A longer path is better, but none is longer than `maxDepth`. -/
def longer (maxDepth : Nat) : Preference where
  good m n := n ≤ m
  allowed n := n ≤ maxDepth
  refl := Relaxation.decide_le_self
  trans := by
    simp only [decide_eq_true_eq]
    exact fun hnm hkn => hkn.trans hnm
  total := by
    simp only [decide_eq_false_iff_not, decide_eq_true_eq, Nat.not_le]
    exact Nat.le_of_lt
  succ := by simp

def childrenOf (nodes : Nodes) (id : String) : List String :=
  ((nodes.get? id).map LayoutNode.children).getD []

def DepthSearch.table (search : DepthSearch) (id : String) : Option Nat :=
  if id ∈ search.visited then (search.nodes.get? id).map LayoutNode.depth else none

def QueuedNode.entry (queued : QueuedNode) : String × Nat := (queued.nodeId, queued.depth)

def SameGraph (nodes : Nodes) (search : DepthSearch) : Prop :=
  ∀ id, (search.nodes.get? id).map LayoutNode.children = (nodes.get? id).map LayoutNode.children

section Search

variable {nodes : Nodes} {search : DepthSearch}

theorem SameGraph.offerDepth (h : SameGraph nodes search) (maxDepth newDepth : Nat)
    (childId : String) :
    SameGraph nodes (AutoLayout.offerDepth maxDepth newDepth search childId).1 := by
  unfold AutoLayout.offerDepth
  split
  · exact h
  · next childNode hchild =>
      split
      · exact h
      · split
        · intro id
          by_cases hid : id = childId
          · subst hid
            rw [← h id, hchild, ObjectMap.get?_set_self]
            rfl
          · rw [← h id, ObjectMap.get?_set_ne _ hid]
        · exact h

theorem offerDepth_image (maxDepth newDepth : Nat) {childId : String}
    (hchild : (search.nodes.get? childId).isSome) :
    relax (longer maxDepth) newDepth search.table childId =
      ((offerDepth maxDepth newDepth search childId).1.table,
        (offerDepth maxDepth newDepth search childId).2.map QueuedNode.entry) := by
  obtain ⟨childNode, hnode⟩ := Option.isSome_iff_exists.mp hchild
  have hset : Function.update search.table childId (some newDepth) =
      DepthSearch.table
        { nodes := search.nodes.set childId { childNode with depth := newDepth }
          visited := childId :: search.visited } := by
    funext id
    by_cases hid : id = childId
    · subst hid
      simp [DepthSearch.table]
    · simp [DepthSearch.table, hid, ObjectMap.get?_set_ne _ hid]
  rw [relax, hset, offerDepth, hnode]
  by_cases hmax : newDepth > maxDepth
  · simp [longer, hmax]
  · by_cases hvisited : childId ∈ search.visited
    · by_cases hless : childNode.depth < newDepth
      · simp [longer, hmax, hvisited, hless, DepthSearch.table, hnode, QueuedNode.entry]
      · simp [longer, hmax, hvisited, hless, DepthSearch.table, hnode]
    · simp [longer, hmax, hvisited, DepthSearch.table, QueuedNode.entry]

theorem SameGraph.get?_isSome (h : SameGraph nodes search) (id : String) :
    (search.nodes.get? id).isSome = (nodes.get? id).isSome := by
  have hsame := congrArg Option.isSome (h id)
  simpa using hsame

theorem visitChildren_image (h : SameGraph nodes search) (maxDepth : Nat)
    (hchildren : ∀ id, ∀ child ∈ childrenOf nodes id, (nodes.get? child).isSome = true)
    (queued : QueuedNode) :
    SameGraph nodes (visitChildren maxDepth search queued).1 ∧
      Relaxation.visit (longer maxDepth) (childrenOf nodes) search.table queued.entry =
        ((visitChildren maxDepth search queued).1.table,
          (visitChildren maxDepth search queued).2.map QueuedNode.entry) := by
  have hsame := h queued.nodeId
  cases hnode : search.nodes.get? queued.nodeId with
  | none =>
      rw [hnode, Option.map_none] at hsame
      have hnone : childrenOf nodes queued.nodeId = [] := by
        rw [childrenOf, ← hsame, Option.getD_none]
      have hvisit : visitChildren maxDepth search queued = (search, []) := by
        simp only [visitChildren, hnode]
      rw [hvisit]
      refine ⟨h, ?_⟩
      simp only [Relaxation.visit, QueuedNode.entry, hnone, pushAll, List.map_nil]
  | some node =>
      rw [hnode, Option.map_some] at hsame
      have hvisit : visitChildren maxDepth search queued =
          pushAll (offerDepth maxDepth (queued.depth + 1)) search node.children := by
        simp only [visitChildren, hnode]
      have hsome : childrenOf nodes queued.nodeId = node.children := by
        rw [childrenOf, ← hsame, Option.getD_some]
      have himage : ∀ search, ∀ child ∈ node.children, SameGraph nodes search →
          relax (longer maxDepth) (queued.depth + 1) search.table child =
            ((offerDepth maxDepth (queued.depth + 1) search child).1.table,
              (offerDepth maxDepth (queued.depth + 1) search child).2.map QueuedNode.entry) := by
        intro search child hchild hsearch
        refine offerDepth_image maxDepth (queued.depth + 1) ?_
        rw [hsearch.get?_isSome]
        exact hchildren queued.nodeId child (hsome ▸ hchild)
      have hpushed := pushAll_map DepthSearch.table QueuedNode.entry (SameGraph nodes)
        (fun search child _ hsearch => hsearch.offerDepth maxDepth (queued.depth + 1) child)
        himage h
      rw [hvisit]
      rwa [Relaxation.visit, QueuedNode.entry, hsome]

end Search

section Depths

variable (connections : Connections) (actions : List Action)

/-- The length of some path from a listed action that no listed action leads to. -/
def entryDistances (id : String) : Set Nat :=
  {n | PathTo (Listed connections actions)
    {e | e ∈ actions.map Action.id ∧ ∀ a, ¬ Listed connections actions a e} n id}

/-- The search begins at nodes of depth 0. -/
theorem searching_entries (maxDepth : Nat) {entries : List String}
    (hentries : ∀ id ∈ entries, id ∈ actions.map Action.id) :
    let search : DepthSearch :=
      { nodes := buildNodeGraph connections actions, visited := entries }
    Searching (longer maxDepth) (childrenOf (buildNodeGraph connections actions))
      {e | e ∈ entries} (fun _ _ => False) search.table
      ((entries.map fun id => { nodeId := id, depth := 0 }).map QueuedNode.entry) := by
  have hgraph := represents_buildNodeGraph connections actions
  intro search
  have htable : ∀ {id}, id ∈ entries → search.table id = some 0 := by
    intro id hid
    obtain ⟨node, hnode⟩ := (hgraph.listed id).mpr (hentries id hid)
    simp [DepthSearch.table, search, hid, hnode, hgraph.unplaced hnode]
  have hzero : ∀ {id value}, search.table id = some value → id ∈ entries ∧ value = 0 := by
    intro id value hvalue
    by_cases hid : id ∈ entries
    · rw [htable hid] at hvalue
      exact ⟨hid, (Option.some.inj hvalue).symm⟩
    · simp [DepthSearch.table, search, hid] at hvalue
  have hqueue : ∀ {entry : String × Nat},
      entry ∈ (entries.map fun id => { nodeId := id, depth := 0 }).map QueuedNode.entry ↔
        entry.1 ∈ entries ∧ entry.2 = 0 := by
    rintro ⟨id, depth⟩
    simp [QueuedNode.entry, eq_comm]
  refine ⟨fun id hid => ⟨0, htable hid, rfl⟩, fun id value hvalue => ?_, fun entry hentry => ?_,
    fun id value hvalue => .inl (hqueue.mpr (hzero hvalue))⟩
  · obtain ⟨hid, rfl⟩ := hzero hvalue
    exact .start hid
  · obtain ⟨hid, hdepth⟩ := hqueue.mp hentry
    rw [hdepth]
    exact .start hid

variable {connections actions}

theorem mem_childrenOf {a b : String} :
    b ∈ childrenOf (buildNodeGraph connections actions) a ↔ Listed connections actions a b := by
  have hgraph := represents_buildNodeGraph connections actions
  unfold childrenOf Listed
  cases hnode : (buildNodeGraph connections actions).get? a with
  | none =>
      have hunlisted : a ∉ actions.map Action.id := fun ha => by
        obtain ⟨node, hsome⟩ := (hgraph.listed a).mpr ha
        simp [hnode] at hsome
      simp [hunlisted]
  | some node =>
      have hlisted := (hgraph.listed a).mp ⟨node, hnode⟩
      rw [Option.map_some, Option.getD_some, hgraph.children hnode]
      exact ⟨fun h => ⟨hlisted, h⟩, And.right⟩

variable {id : String}

theorem mem_sources :
    id ∈ ((buildNodeGraph connections actions).values.filter fun node =>
        node.parents.length = 0).map (fun node => node.action.id) ↔
      id ∈ actions.map Action.id ∧ ∀ a, ¬ Listed connections actions a id := by
  have hgraph := represents_buildNodeGraph connections actions
  have hparents : ∀ {id node}, (buildNodeGraph connections actions).get? id = some node →
      (node.parents.length = 0 ↔ ∀ a, ¬ Listed connections actions a id) := by
    intro id node hnode
    have hid := (hgraph.listed id).mp ⟨node, hnode⟩
    rw [List.length_eq_zero_iff, List.eq_nil_iff_forall_not_mem]
    refine forall_congr' fun a => not_congr ?_
    rw [hgraph.parents hnode, Listed]
    exact and_congr_right fun _ => (and_iff_right hid).symm
  constructor
  · intro hmem
    obtain ⟨node, hsource, rfl⟩ := List.mem_map.mp hmem
    obtain ⟨hvalue, hnone⟩ := List.mem_filter.mp hsource
    obtain ⟨key, hnode⟩ := ObjectMap.mem_values_iff.mp hvalue
    rw [hgraph.named hnode]
    exact ⟨(hgraph.listed key).mp ⟨node, hnode⟩,
      (hparents hnode).mp (of_decide_eq_true hnone)⟩
  · rintro ⟨hid, hnone⟩
    obtain ⟨node, hnode⟩ := (hgraph.listed id).mpr hid
    refine List.mem_map.mpr ⟨node, List.mem_filter.mpr ⟨?_, ?_⟩, hgraph.named hnode⟩
    · exact ObjectMap.mem_values_iff.mpr ⟨id, hnode⟩
    · exact decide_eq_true ((hparents hnode).mpr hnone)

theorem mem_entryIds (h : id ∈ entryIds actions (buildNodeGraph connections actions)) :
    id ∈ actions.map Action.id := by
  unfold entryIds entryPoints at h
  split at h
  · next firstAction rest _ =>
      have hgraph := represents_buildNodeGraph connections (firstAction :: rest)
      obtain ⟨node, hnode, rfl⟩ := List.mem_map.mp h
      have hget := Option.mem_toList.mp hnode
      rw [hgraph.named hget]
      simp
  · exact (mem_sources.mp h).1

section

variable (hacyclic : ∀ a, ¬ Relation.TransGen (Listed connections actions) a a)
include hacyclic

theorem exists_entryDistance (hid : id ∈ actions.map Action.id) :
    ∃ n, n ∈ entryDistances connections actions id := by
  have hstep : DepthFirst.Step (childrenOf (buildNodeGraph connections actions)) =
      Listed connections actions := by
    funext a b
    exact propext mem_childrenOf
  obtain ⟨s, hs, hsource, hreach⟩ := DepthFirst.reached_from_source
    (fun a _ b hb => (mem_childrenOf.mp hb).1)
    (fun a _ => by rw [DepthFirst.OnCycle, hstep]; exact hacyclic a) hid
  rw [hstep] at hsource
  rw [DepthFirst.Reaches, hstep] at hreach
  exact exists_pathTo_iff.mpr ⟨s, ⟨hs, hsource⟩, hreach⟩

theorem entryIds_acyclic (id : String) :
    id ∈ entryIds actions (buildNodeGraph connections actions) ↔
      id ∈ actions.map Action.id ∧ ∀ a, ¬ Listed connections actions a id := by
  rw [← mem_sources]
  unfold entryIds entryPoints
  split
  · next firstAction rest hnone =>
      exfalso
      obtain ⟨n, hpath⟩ := exists_entryDistance hacyclic
        (List.mem_map_of_mem List.mem_cons_self : firstAction.id ∈ _)
      obtain ⟨a, ha, -⟩ := exists_pathTo_iff.mp ⟨n, hpath⟩
      have hmem := mem_sources.mpr ha
      rw [hnone] at hmem
      cases hmem
  · rfl

end

/-- The search ends, cycles or not. -/
theorem exists_search (connections : Connections) (actions : List Action) :
    ∃ (enough : Nat) (search : DepthSearch),
      (∀ fuel, enough ≤ fuel →
        calculateDepths actions (buildNodeGraph connections actions) fuel = some search.nodes) ∧
      Searching (longer (buildNodeGraph connections actions).keys.length)
        (childrenOf (buildNodeGraph connections actions))
        {e | e ∈ entryIds actions (buildNodeGraph connections actions)} (fun _ _ => False)
        search.table [] := by
  have hgraph := represents_buildNodeGraph connections actions
  have hchildren : ∀ id, ∀ child ∈ childrenOf (buildNodeGraph connections actions) id,
      child ∈ actions.map Action.id := fun id child hchild => (mem_childrenOf.mp hchild).2.1
  have hexists : ∀ id, ∀ child ∈ childrenOf (buildNodeGraph connections actions) id,
      ((buildNodeGraph connections actions).get? child).isSome = true := fun id child hchild =>
    Option.isSome_iff_exists.mpr ((hgraph.listed child).mpr (hchildren id child hchild))
  have hheight : ∀ {value current},
      (longer (buildNodeGraph connections actions).keys.length).allowed value = true →
      (longer (buildNodeGraph connections actions).keys.length).good current value = false →
      (buildNodeGraph connections actions).keys.length - value <
        (buildNodeGraph connections actions).keys.length - current := by
    simp only [longer, decide_eq_true_eq, decide_eq_false_iff_not]
    omega
  have hstart := searching_entries connections actions
    (buildNodeGraph connections actions).keys.length
    (fun id (hid : id ∈ entryIds actions (buildNodeGraph connections actions)) => mem_entryIds hid)
  obtain ⟨enough, table, htable⟩ := exists_drain_visit hheight hchildren _ _
  have hended := drain_invariant _ searching_visit hstart htable
  rw [drain_map DepthSearch.table QueuedNode.entry
    (SameGraph (buildNodeGraph connections actions))
    (fun search queued h => visitChildren_image h _ hexists queued) enough (fun _ => rfl),
    Option.map_eq_some_iff] at htable
  obtain ⟨search, hsearch, rfl⟩ := htable
  refine ⟨enough, search, fun fuel hle => ?_, hended⟩
  rw [calculateDepths, drain_mono hsearch hle, Option.map_some]

/-- Without a cycle every path to a node is no longer than its depth, and some path is as long. -/
theorem exists_depth {search : DepthSearch}
    (hended : Searching (longer (buildNodeGraph connections actions).keys.length)
      (childrenOf (buildNodeGraph connections actions))
      {e | e ∈ entryIds actions (buildNodeGraph connections actions)} (fun _ _ => False)
      search.table [])
    (hacyclic : ∀ a, ¬ Relation.TransGen (Listed connections actions) a a) {n : Nat} {v : String}
    (hn : n ∈ entryDistances connections actions v) :
    ∃ node, search.nodes.get? v = some node ∧
      node.depth ∈ entryDistances connections actions v ∧ n ≤ node.depth := by
  have hgraph := represents_buildNodeGraph connections actions
  have hedge : (fun a b => b ∈ childrenOf (buildNodeGraph connections actions) a) =
      Listed connections actions := by
    funext a b
    exact propext mem_childrenOf
  have hstarts : {e | e ∈ entryIds actions (buildNodeGraph connections actions)} =
      {e | e ∈ actions.map Action.id ∧ ∀ a, ¬ Listed connections actions a e} :=
    Set.ext (entryIds_acyclic hacyclic)
  rw [hstarts] at hended
  have hkeys : ∀ id ∈ actions.map Action.id, id ∈ (buildNodeGraph connections actions).keys :=
    fun id hid => ObjectMap.mem_keys_iff.mpr ((hgraph.listed id).mpr hid)
  have hallowed : ∀ {n a}, PathTo (fun a b => b ∈ childrenOf (buildNodeGraph connections actions) a)
      {e | e ∈ actions.map Action.id ∧ ∀ a, ¬ Listed connections actions a e} n a →
      (longer (buildNodeGraph connections actions).keys.length).allowed n = true := by
    intro n a hpath
    rw [hedge] at hpath
    exact decide_eq_true (hpath.length_lt (fun a ha => hkeys a ha.1)
      (fun a b hab => hkeys b hab.2.1) hacyclic).le
  obtain ⟨value, hvalue, hpath, hgood⟩ := hended.outcome hallowed (by rw [hedge]; exact hn)
  unfold DepthSearch.table at hvalue
  split at hvalue
  · obtain ⟨node, hnode, rfl⟩ := Option.map_eq_some_iff.mp hvalue
    rw [hedge] at hpath
    exact ⟨node, hnode, hpath, of_decide_eq_true hgood⟩
  · cases hvalue

end Depths

/-- The search for depths ends, cycles or not; without cycles the depth of an action is the
length of the longest path to it, and so every connection leads to a greater depth. -/
theorem calculateDepths_spec (connections : Connections) (actions : List Action) :
    ∃ nodes : Nodes,
      (∃ enough, ∀ fuel, enough ≤ fuel →
        calculateDepths actions (buildNodeGraph connections actions) fuel = some nodes) ∧
        ((∀ a, ¬ Relation.TransGen (Listed connections actions) a a) →
          (∀ u v, Listed connections actions u v → ∃ source target,
            nodes.get? u = some source ∧ nodes.get? v = some target ∧
              source.depth + 1 ≤ target.depth) ∧
          ∀ v ∈ actions.map Action.id, ∃ node, nodes.get? v = some node ∧
            IsGreatest (entryDistances connections actions v) node.depth) := by
  obtain ⟨enough, search, hsearch, hended⟩ := exists_search connections actions
  refine ⟨search.nodes, ⟨enough, hsearch⟩, fun hacyclic => ?_⟩
  have hgreatest : ∀ v ∈ actions.map Action.id, ∃ node, search.nodes.get? v = some node ∧
      IsGreatest (entryDistances connections actions v) node.depth := by
    intro v hv
    obtain ⟨n, hn⟩ := exists_entryDistance hacyclic hv
    obtain ⟨node, hnode, hpath, -⟩ := exists_depth hended hacyclic hn
    refine ⟨node, hnode, hpath, fun m hm => ?_⟩
    obtain ⟨other, hother, -, hle⟩ := exists_depth hended hacyclic hm
    rw [hnode] at hother
    cases hother
    exact hle
  refine ⟨fun u v huv => ?_, hgreatest⟩
  obtain ⟨source, hsource, hsourceDepth⟩ := hgreatest u huv.1
  obtain ⟨target, htarget, htargetDepth⟩ := hgreatest v huv.2.1
  exact ⟨source, target, hsource, htarget, htargetDepth.2 (hsourceDepth.1.snoc huv)⟩

end Qontinui.AutoLayout
