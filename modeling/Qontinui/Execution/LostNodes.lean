import Mathlib.Data.List.Induction
import Qontinui.Base.FallibleLoops
import Qontinui.Execution.Tree

/-!
Which nodes of an execution its tree shows: roots are the nodes without a parent, so a node
whose chain of parents loops lies under none of them.
-/

namespace Qontinui.Execution

open ParentLinks FallibleLoops

section Shape

variable {Time Metadata Shown : Type}

namespace DisplayNode

def id : DisplayNode Time Shown → String
  | .mk id _ _ _ _ _ _ _ _ _ _ _ => id

def children : DisplayNode Time Shown → List (DisplayNode Time Shown)
  | .mk _ _ _ _ _ _ _ _ _ children _ _ => children

mutual

def ids : DisplayNode Time Shown → List String
  | .mk id _ _ _ _ _ _ _ _ children _ _ => id :: idsOfAll children

def idsOfAll : List (DisplayNode Time Shown) → List String
  | [] => []
  | tree :: rest => ids tree ++ idsOfAll rest

end

/-- A node of a tree. -/
inductive Inside (node : DisplayNode Time Shown) : DisplayNode Time Shown → Prop
  | here : Inside node node
  | child {tree child : DisplayNode Time Shown} (hmem : child ∈ tree.children)
      (h : Inside node child) : Inside node tree

theorem idsOfAll_eq (forest : List (DisplayNode Time Shown)) :
    idsOfAll forest = forest.flatMap ids := by
  induction forest with
  | nil => rw [idsOfAll, List.flatMap_nil]
  | cons tree rest ih => rw [idsOfAll, List.flatMap_cons, ih]

theorem ids_eq (tree : DisplayNode Time Shown) :
    tree.ids = tree.id :: tree.children.flatMap ids := by
  cases tree with
  | mk => rw [ids, idsOfAll_eq, id, children]

end DisplayNode

def ChildOf (forest : List (DisplayNode Time Shown)) (parent child : String) : Prop :=
  ∃ tree ∈ forest, ∃ node : DisplayNode Time Shown, node.Inside tree ∧ node.id = parent ∧
    ∃ under ∈ node.children, under.id = child

/-- The parent that the first event of a node says, where that is a node. -/
def parentOf (events : List (ExecutionTreeEvent Time Metadata)) (id : String) : Option String :=
  ((events.find? fun event => event.nodeId == id).bind (·.parentNodeId)).filter fun parent =>
    events.any fun event => event.nodeId == parent

def AcyclicChain (events : List (ExecutionTreeEvent Time Metadata)) (id : String) : Prop :=
  ∀ n m ancestor, Climbs (parentOf events) n id ancestor →
    ¬ Climbs (parentOf events) (m + 1) ancestor ancestor

/-- The forest has every node once, under its parent where the chain of parents has no loop. -/
structure KeepsNodes (events : List (ExecutionTreeEvent Time Metadata))
    (forest : List (DisplayNode Time Shown)) : Prop where
  once : ∀ event ∈ events, (forest.flatMap DisplayNode.ids).count event.nodeId = 1
  only : ∀ id ∈ forest.flatMap DisplayNode.ids, ∃ event ∈ events, event.nodeId = id
  under : ∀ id parent, parentOf events id = some parent → AcyclicChain events id →
    ChildOf forest parent id

/-- The parent under which a node is linked: the empty id is none. -/
def linkedParent (events : List (ExecutionTreeEvent Time Metadata)) (id : String) :
    Option String := (parentOf events id).filter (· ≠ "")

/-- Every chain of links ends, and in fewer links than `build_tree` has frames. -/
def ChainsEnd (frames : Nat) (events : List (ExecutionTreeEvent Time Metadata)) : Prop :=
  ∀ event ∈ events, ∃ links < frames, ∃ root,
    Climbs (linkedParent events) links event.nodeId root ∧ linkedParent events root = none

/-- No node lies under the node of the empty id, unless in a loop. -/
def NoEmptyParent (events : List (ExecutionTreeEvent Time Metadata)) : Prop :=
  ∀ id, parentOf events id = some "" → ¬ AcyclicChain events id

/-! ### Building a tree -/

/-- Nodes whose children are those that link to them. -/
structure Linked (up : String → Option String) (nodes : List (NodeData Time Metadata)) : Prop where
  nodup : (nodes.map (·.id)).Nodup
  childrenNodup : ∀ node ∈ nodes, node.childrenIds.Nodup
  children : ∀ node ∈ nodes, ∀ child, child ∈ node.childrenIds ↔ up child = some node.id
  known : ∀ child parent, up child = some parent → child ∈ nodes.map (·.id)

variable {schema : Schema Time Metadata Shown} {nodes : List (NodeData Time Metadata)}
  {up : String → Option String} {frames : Nat} {tree : DisplayNode Time Shown}
  {parent child : String} {events : List (ExecutionTreeEvent Time Metadata)}

theorem buildTree_eq_ok {id : String} (h : buildTree schema nodes frames id = .ok tree) :
    ∃ rest node, frames = rest + 1 ∧ node ∈ nodes ∧ node.id = id ∧ tree.id = id ∧
      List.Forall₂ (fun child under => buildTree schema nodes rest child = .ok under)
        node.childrenIds tree.children := by
  cases frames with
  | zero => cases h
  | succ rest =>
      rw [buildTree] at h
      cases hfind : nodes.find? fun node => node.id == id with
      | none =>
          rw [hfind] at h
          cases h
      | some node =>
          rw [hfind] at h
          obtain ⟨children, hchildren, h⟩ := bind_eq_ok_iff.mp h
          cases h
          have hid : node.id = id := by simpa using List.find?_some hfind
          exact ⟨rest, node, rfl, List.mem_of_find?_eq_some hfind, hid, hid,
            mapM_eq_ok_iff.mp hchildren⟩

theorem buildTree_returns (hlinked : Linked up nodes) {id : String} (hid : id ∈ nodes.map (·.id))
    (hdepth : ∀ n x, Climbs up n x id → n < frames) :
    ∃ tree, buildTree schema nodes frames id = .ok tree := by
  induction frames generalizing id with
  | zero => exact absurd (hdepth 0 id (.here id)) (Nat.lt_irrefl 0)
  | succ frames ih =>
      obtain ⟨node, hfind⟩ : ∃ node, (nodes.find? fun node => node.id == id) = some node := by
        obtain ⟨node, hnode, rfl⟩ := List.mem_map.mp hid
        exact Option.isSome_iff_exists.mp (List.find?_isSome.mpr ⟨node, hnode, beq_self_eq_true _⟩)
      have hmem := List.mem_of_find?_eq_some hfind
      have hnode : node.id = id := by simpa using List.find?_some hfind
      obtain ⟨children, hchildren⟩ := mapM_returns_iff.mpr
        (show ∀ child ∈ node.childrenIds, ∃ tree, buildTree schema nodes frames child = .ok tree by
          intro child hchild
          have hup := (hlinked.children node hmem child).mp hchild
          refine ih (hlinked.known _ _ hup) fun n x hx => ?_
          have hlong := hdepth (n + 1) x (hx.trans (.single (hnode ▸ hup)))
          omega)
      refine ⟨buildDisplayNode schema node children, ?_⟩
      rw [buildTree, hfind]
      exact bind_eq_ok_iff.mpr ⟨children, hchildren, rfl⟩

variable {x : String}

section

variable {id : String} (h : buildTree schema nodes frames id = .ok tree)
include h

theorem buildTree_depth (hlinked : Linked up nodes) {n : Nat} (hx : Climbs up n x id) :
    n < frames := by
  induction n generalizing frames id tree with
  | zero =>
      obtain ⟨rest, node, rfl, -⟩ := buildTree_eq_ok h
      exact Nat.succ_pos rest
  | succ n ih =>
      obtain ⟨rest, node, rfl, hmem, rfl, -, hchildren⟩ := buildTree_eq_ok h
      obtain ⟨child, hclimbs, hup⟩ := hx.last
      have hchild := (hlinked.children node hmem child).mpr hup
      obtain ⟨under, -, hunder⟩ := mem_left_of_forall₂ hchildren hchild
      exact Nat.succ_lt_succ (ih hunder hclimbs)

theorem mem_ids_buildTree (hlinked : Linked up nodes) : x ∈ tree.ids ↔ ∃ n, Climbs up n x id := by
  induction frames generalizing id tree with
  | zero => cases h
  | succ frames ih =>
      obtain ⟨rest, node, hframes, hmem, rfl, hid, hchildren⟩ := buildTree_eq_ok h
      cases hframes
      rw [DisplayNode.ids_eq, List.mem_cons, List.mem_flatMap, hid]
      constructor
      · rintro (rfl | ⟨under, hunder, hx⟩)
        · exact ⟨0, .here _⟩
        · obtain ⟨child, hchild, hbuilt⟩ := mem_right_of_forall₂ hchildren hunder
          obtain ⟨n, hn⟩ := (ih hbuilt).mp hx
          exact ⟨n + 1, hn.trans (.single ((hlinked.children node hmem child).mp hchild))⟩
      · rintro ⟨n, hn⟩
        cases n with
        | zero => exact .inl hn.zero_eq
        | succ n =>
            obtain ⟨child, hclimbs, hup⟩ := hn.last
            have hchild := (hlinked.children node hmem child).mpr hup
            obtain ⟨under, hunder, hbuilt⟩ := mem_left_of_forall₂ hchildren hchild
            exact .inr ⟨under, hunder, (ih hbuilt).mpr ⟨n, hclimbs⟩⟩

theorem buildTree_acyclic (hlinked : Linked up nodes) {n : Nat} : ¬ Climbs up (n + 1) id id := by
  intro hcycle
  have hlong : ∀ times, ∃ m, times ≤ m ∧ Climbs up m id id := by
    intro times
    induction times with
    | zero => exact ⟨0, Nat.le_refl 0, .here id⟩
    | succ times ih =>
        obtain ⟨m, hle, hm⟩ := ih
        exact ⟨m + (n + 1), by omega, hm.trans hcycle⟩
  obtain ⟨m, hle, hm⟩ := hlong frames
  have hlt := buildTree_depth h hlinked hm
  omega

end

theorem siblings_apart {a b : String} (hacyclic : ∀ n, ¬ Climbs up (n + 1) parent parent)
    (ha : up a = some parent) (hb : up b = some parent) {n m : Nat} (hn : Climbs up n x a)
    (hm : Climbs up m x b) : a = b := by
  -- the way up from one of them to the other would pass their parent
  have hway : ∀ {a b : String} {k}, up a = some parent → up b = some parent → Climbs up k a b →
      a = b := by
    intro a b k ha hb hk
    cases hk with
    | here => rfl
    | link hup rest =>
        cases ha.symm.trans hup
        exact absurd (rest.trans (.single hb)) (hacyclic _)
  rcases Nat.le_total n m with hle | hle
  · obtain ⟨k, rfl⟩ := Nat.exists_eq_add_of_le hle
    exact hway ha hb (hn.linear hm)
  · obtain ⟨k, rfl⟩ := Nat.exists_eq_add_of_le hle
    exact (hway hb ha (hm.linear hn)).symm

theorem nodup_of_apart (hlinked : Linked up nodes) {ids : List String}
    {trees : List (DisplayNode Time Shown)}
    (h : List.Forall₂ (fun id tree => buildTree schema nodes frames id = .ok tree) ids trees)
    (hids : ids.Nodup) (hnodup : ∀ tree ∈ trees, tree.ids.Nodup)
    (hapart : ∀ a ∈ ids, ∀ b ∈ ids, ∀ n m x, Climbs up n x a → Climbs up m x b → a = b) :
    (trees.flatMap DisplayNode.ids).Nodup := by
  induction h with
  | nil => exact .nil
  | @cons id tree ids trees hbuilt hrest ih =>
      obtain ⟨hfirst, hids⟩ := List.nodup_cons.mp hids
      have hlater := ih hids (fun tree htree => hnodup tree (List.mem_cons_of_mem _ htree))
        fun a ha b hb => hapart a (List.mem_cons_of_mem _ ha) b (List.mem_cons_of_mem _ hb)
      rw [List.flatMap_cons]
      refine List.nodup_append'.mpr ⟨hnodup tree List.mem_cons_self, hlater, ?_⟩
      intro x hx hx'
      obtain ⟨other, hother, hin⟩ := List.mem_flatMap.mp hx'
      obtain ⟨b, hb, hbuilt'⟩ := mem_right_of_forall₂ hrest hother
      obtain ⟨n, hn⟩ := (mem_ids_buildTree hbuilt hlinked).mp hx
      obtain ⟨m, hm⟩ := (mem_ids_buildTree hbuilt' hlinked).mp hin
      have heq := hapart id List.mem_cons_self b (List.mem_cons_of_mem _ hb) n m x hn hm
      exact hfirst (heq ▸ hb)

theorem nodup_buildTree (hlinked : Linked up nodes) {id : String}
    (h : buildTree schema nodes frames id = .ok tree) : tree.ids.Nodup := by
  induction frames generalizing id tree with
  | zero => cases h
  | succ frames ih =>
      have hacyclic : ∀ n, ¬ Climbs up (n + 1) id id := fun n => buildTree_acyclic h hlinked
      obtain ⟨rest, node, hframes, hmem, rfl, hid, hchildren⟩ := buildTree_eq_ok h
      cases hframes
      rw [DisplayNode.ids_eq, hid]
      refine List.nodup_cons.mpr ⟨?_, ?_⟩
      · intro hin
        obtain ⟨under, hunder, hx⟩ := List.mem_flatMap.mp hin
        obtain ⟨child, hchild, hbuilt⟩ := mem_right_of_forall₂ hchildren hunder
        obtain ⟨n, hn⟩ := (mem_ids_buildTree hbuilt hlinked).mp hx
        have hup := (hlinked.children node hmem child).mp hchild
        exact hacyclic n (hn.trans (.single hup))
      · refine nodup_of_apart hlinked hchildren (hlinked.childrenNodup node hmem) ?_ ?_
        · intro under hunder
          obtain ⟨child, -, hbuilt⟩ := mem_right_of_forall₂ hchildren hunder
          exact ih hbuilt
        · intro a ha b hb n m x hn hm
          exact siblings_apart hacyclic ((hlinked.children node hmem a).mp ha)
            ((hlinked.children node hmem b).mp hb) hn hm

theorem children_of_inside {id : String} {node : DisplayNode Time Shown}
    (h : buildTree schema nodes frames id = .ok tree) (hin : node.Inside tree) :
    ∃ rest, buildTree schema nodes rest node.id = .ok node := by
  induction hin generalizing frames id with
  | here =>
      obtain ⟨rest, data, rfl, -, -, hid, -⟩ := buildTree_eq_ok h
      exact ⟨rest + 1, hid ▸ h⟩
  | child hmem _ ih =>
      obtain ⟨rest, data, -, -, -, -, hchildren⟩ := buildTree_eq_ok h
      obtain ⟨child, -, hbuilt⟩ := mem_right_of_forall₂ hchildren hmem
      exact ih hbuilt

theorem mem_ids_of_inside {node : DisplayNode Time Shown} (h : node.Inside tree) :
    node.id ∈ tree.ids := by
  induction h with
  | here =>
      rw [DisplayNode.ids_eq]
      exact List.mem_cons_self
  | child hmem _ ih =>
      rw [DisplayNode.ids_eq]
      exact List.mem_cons_of_mem _ (List.mem_flatMap.mpr ⟨_, hmem, ih⟩)

theorem inside_of_mem_ids {id : String} (h : buildTree schema nodes frames id = .ok tree)
    (hx : x ∈ tree.ids) : ∃ node : DisplayNode Time Shown, node.Inside tree ∧ node.id = x := by
  induction frames generalizing id tree with
  | zero => cases h
  | succ frames ih =>
      obtain ⟨rest, data, hframes, -, -, hid, hchildren⟩ := buildTree_eq_ok h
      cases hframes
      rw [DisplayNode.ids_eq, List.mem_cons, List.mem_flatMap] at hx
      rcases hx with rfl | ⟨under, hunder, hx⟩
      · exact ⟨tree, .here, rfl⟩
      · obtain ⟨child, -, hbuilt⟩ := mem_right_of_forall₂ hchildren hunder
        obtain ⟨node, hin, hnode⟩ := ih hbuilt hx
        exact ⟨node, .child hunder hin, hnode⟩

theorem childOf_buildTree_iff (hlinked : Linked up nodes) {id : String}
    (h : buildTree schema nodes frames id = .ok tree) :
    (∃ node : DisplayNode Time Shown, node.Inside tree ∧ node.id = parent ∧
      ∃ under ∈ node.children, under.id = child) ↔
      parent ∈ tree.ids ∧ up child = some parent := by
  constructor
  · rintro ⟨node, hin, rfl, under, hunder, rfl⟩
    obtain ⟨rest, hbuilt⟩ := children_of_inside h hin
    obtain ⟨_, data, rfl, hmem, hid, -, hchildren⟩ := buildTree_eq_ok hbuilt
    obtain ⟨child, hchild, hbuilt'⟩ := mem_right_of_forall₂ hchildren hunder
    obtain ⟨-, -, -, -, -, hunderId, -⟩ := buildTree_eq_ok hbuilt'
    rw [hunderId, ← hid]
    exact ⟨hid ▸ mem_ids_of_inside hin, (hlinked.children data hmem child).mp hchild⟩
  · rintro ⟨hparent, hup⟩
    obtain ⟨node, hin, rfl⟩ := inside_of_mem_ids h hparent
    obtain ⟨rest, hbuilt⟩ := children_of_inside h hin
    obtain ⟨_, data, rfl, hmem, hid, -, hchildren⟩ := buildTree_eq_ok hbuilt
    have hchild := (hlinked.children data hmem child).mpr (hid ▸ hup)
    obtain ⟨under, hunder, hbuilt'⟩ := mem_left_of_forall₂ hchildren hchild
    obtain ⟨-, -, -, -, -, hunderId, -⟩ := buildTree_eq_ok hbuilt'
    exact ⟨node, hin, rfl, under, hunder, hunderId⟩

/-! ### The nodes of the events -/

variable (schema) in
/-- What the entries say of the events they were made from. -/
structure Built (events : List (ExecutionTreeEvent Time Metadata))
    (nodes : List (NodeData Time Metadata)) : Prop where
  nodup : (nodes.map (·.id)).Nodup
  known : ∀ id, id ∈ nodes.map (·.id) ↔ ∃ event ∈ events, event.nodeId = id
  first : ∀ node ∈ nodes, (events.find? fun event => event.nodeId == node.id).map
    (·.parentNodeId) = some node.parentId
  childless : ∀ node ∈ nodes, node.childrenIds = []

theorem hasNode_iff {id : String} : hasNode nodes id = true ↔ id ∈ nodes.map (·.id) := by
  simp [hasNode]

theorem built_addEvent (h : Built events nodes) (event : ExecutionTreeEvent Time Metadata) :
    Built (events ++ [event]) (addEvent schema nodes event) := by
  -- the first event of a node that has an entry is an earlier one
  have hearlier : ∀ node ∈ nodes, ((events ++ [event]).find? fun e => e.nodeId == node.id).map
      (·.parentNodeId) = some node.parentId := by
    intro node hnode
    obtain ⟨first, hfirst, -⟩ := Option.map_eq_some_iff.mp (h.first node hnode)
    rw [List.find?_append, hfirst, Option.some_or, ← hfirst, h.first node hnode]
  unfold addEvent
  split
  · next hhas =>
      have hkept : ∀ node : NodeData Time Metadata,
          (if node.id = event.nodeId then updateNode schema event node else node).id = node.id ∧
          (if node.id = event.nodeId then updateNode schema event node else node).parentId =
            node.parentId ∧
          (if node.id = event.nodeId then updateNode schema event node else node).childrenIds =
            node.childrenIds := by
        intro node
        split <;> exact ⟨rfl, rfl, rfl⟩
      have hids : (nodes.map fun node => if node.id = event.nodeId then
          updateNode schema event node else node).map (·.id) = nodes.map (·.id) := by
        rw [List.map_map]
        exact List.map_congr_left fun node _ => (hkept node).1
      refine ⟨hids ▸ h.nodup, ?_, ?_, ?_⟩
      · intro id
        rw [hids, h.known]
        constructor
        · rintro ⟨e, he, rfl⟩
          exact ⟨e, List.mem_append_left _ he, rfl⟩
        · rintro ⟨e, he, rfl⟩
          rcases List.mem_append.mp he with hold | hnew
          · exact ⟨e, hold, rfl⟩
          · obtain rfl := List.mem_singleton.mp hnew
            exact (h.known _).mp (hasNode_iff.mp hhas)
      · intro node hnode
        obtain ⟨old, hold, rfl⟩ := List.mem_map.mp hnode
        rw [(hkept old).1, (hkept old).2.1]
        exact hearlier old hold
      · intro node hnode
        obtain ⟨old, hold, rfl⟩ := List.mem_map.mp hnode
        rw [(hkept old).2.2]
        exact h.childless old hold
  · next hhas =>
      rw [hasNode_iff] at hhas
      refine ⟨?_, ?_, ?_, ?_⟩
      · rw [List.map_append]
        refine List.nodup_append'.mpr ⟨h.nodup, List.nodup_singleton _, ?_⟩
        exact List.disjoint_singleton.mpr hhas
      · intro id
        rw [List.map_append, List.mem_append, h.known]
        simp only [List.map_cons, List.map_nil, List.mem_singleton, List.mem_append, or_and_right,
          exists_or, exists_eq_left, newNode]
        rw [eq_comm (a := id)]
      · intro node hnode
        rcases List.mem_append.mp hnode with hold | hnew
        · exact hearlier node hold
        · obtain rfl := List.mem_singleton.mp hnew
          have hnone : (events.find? fun e => e.nodeId == event.nodeId) = none := by
            rw [List.find?_eq_none]
            intro e he heq
            exact hhas ((h.known _).mpr ⟨e, he, by simpa using heq⟩)
          rw [newNode, List.find?_append, hnone]
          simp
      · intro node hnode
        rcases List.mem_append.mp hnode with hold | hnew
        · exact h.childless node hold
        · obtain rfl := List.mem_singleton.mp hnew
          rfl

theorem built_foldl (events : List (ExecutionTreeEvent Time Metadata)) :
    Built events (events.foldl (addEvent schema) []) := by
  induction events using List.reverseRecOn with
  | nil => exact ⟨.nil, by simp, by simp, by simp⟩
  | append_singleton events event ih =>
      rw [List.foldl_concat]
      exact built_addEvent ih event

def childrenOf (nodes : List (NodeData Time Metadata)) (id : String) : List String :=
  (nodes.filter fun node => linkOf nodes node = some id).map (·.id)

theorem foldl_link (rest linked : List (NodeData Time Metadata)) :
    rest.foldl (fun linked node =>
      match linkOf nodes node with
      | some parent => appendChild linked node.id parent
      | none => linked) linked =
    linked.map fun node => { node with
      childrenIds := node.childrenIds ++
        (rest.filter fun child => linkOf nodes child = some node.id).map (·.id) } := by
  induction rest generalizing linked with
  | nil => simp
  | cons child rest ih =>
      rw [List.foldl_cons, ih]
      cases hlink : linkOf nodes child with
      | none => simp [hlink]
      | some parent =>
          unfold appendChild
          rw [List.map_map]
          apply List.map_congr_left
          intro node _
          by_cases hnode : node.id = parent
          · simp [hnode, hlink]
          · simp [hnode, hlink, Ne.symm hnode]

theorem linkChildren_eq (nodes : List (NodeData Time Metadata)) :
    linkChildren nodes = nodes.map fun node => { node with
      childrenIds := node.childrenIds ++ childrenOf nodes node.id } :=
  foldl_link nodes nodes

theorem map_id_linkChildren (nodes : List (NodeData Time Metadata)) :
    (linkChildren nodes).map (·.id) = nodes.map (·.id) := by
  rw [linkChildren_eq, List.map_map]
  rfl

theorem linkOf_built (h : Built events nodes) {node : NodeData Time Metadata} (hnode : node ∈ nodes) :
    linkOf nodes node = linkedParent events node.id := by
  obtain ⟨first, hfirst, hparent⟩ := Option.map_eq_some_iff.mp (h.first node hnode)
  have hhas : hasNode nodes = fun id => events.any fun event => event.nodeId == id := by
    funext id
    rw [Bool.eq_iff_iff, hasNode_iff, h.known]
    simp
  unfold linkOf linkedParent parentOf truthyText
  rw [hfirst, Option.bind_some, hparent, hhas]
  rw [Option.filter_filter, Option.filter_filter]
  simp only [Bool.and_comm]

theorem exists_of_linkedParent (h : linkedParent events child = some parent) :
    ∃ event ∈ events, event.nodeId = child := by
  unfold linkedParent parentOf at h
  cases hfirst : events.find? fun event => event.nodeId == child with
  | none =>
      rw [hfirst] at h
      cases h
  | some first =>
      exact ⟨first, List.mem_of_find?_eq_some hfirst, by simpa using List.find?_some hfirst⟩

theorem parentOf_of_linkedParent (h : linkedParent events child = some parent) :
    parentOf events child = some parent := (Option.filter_eq_some_iff.mp h).1

theorem exists_of_parentOf (h : parentOf events child = some parent) :
    ∃ event ∈ events, event.nodeId = parent := by
  simpa using (Option.filter_eq_some_iff.mp h).2

theorem linked_of_built (h : Built events nodes) :
    Linked (linkedParent events) (linkChildren nodes) := by
  refine ⟨?_, ?_, ?_, ?_⟩
  · rw [map_id_linkChildren]
    exact h.nodup
  · intro node hnode
    rw [linkChildren_eq] at hnode
    obtain ⟨old, hold, rfl⟩ := List.mem_map.mp hnode
    dsimp only
    rw [h.childless old hold, List.nil_append]
    exact h.nodup.sublist (List.filter_sublist.map _)
  · intro node hnode child
    rw [linkChildren_eq] at hnode
    obtain ⟨old, hold, rfl⟩ := List.mem_map.mp hnode
    dsimp only
    rw [h.childless old hold, List.nil_append, childrenOf, List.mem_map]
    constructor
    · rintro ⟨under, hunder, rfl⟩
      obtain ⟨hmem, hlink⟩ := List.mem_filter.mp hunder
      rw [← linkOf_built h hmem]
      exact of_decide_eq_true hlink
    · intro hup
      obtain ⟨under, hmem, rfl⟩ := List.mem_map.mp ((h.known child).mpr (exists_of_linkedParent hup))
      rw [← linkOf_built h hmem] at hup
      exact ⟨under, List.mem_filter.mpr ⟨hmem, decide_eq_true hup⟩, rfl⟩
  · intro child parent hup
    rw [map_id_linkChildren]
    exact (h.known child).mpr (exists_of_linkedParent hup)

theorem rootNodeIds_linkChildren (nodes : List (NodeData Time Metadata)) :
    rootNodeIds (linkChildren nodes) = rootNodeIds nodes := by
  have hhas : hasNode (linkChildren nodes) = hasNode nodes := by
    funext id
    rw [Bool.eq_iff_iff, hasNode_iff, hasNode_iff, map_id_linkChildren]
  unfold rootNodeIds linkOf
  rw [hhas, linkChildren_eq, List.filter_map, List.map_map]
  rfl

theorem mem_rootNodeIds (h : Built events nodes) {id : String} :
    id ∈ rootNodeIds nodes ↔ id ∈ nodes.map (·.id) ∧ linkedParent events id = none := by
  unfold rootNodeIds
  rw [List.mem_map, List.mem_map]
  constructor
  · rintro ⟨node, hnode, rfl⟩
    obtain ⟨hmem, hroot⟩ := List.mem_filter.mp hnode
    rw [← linkOf_built h hmem]
    exact ⟨⟨node, hmem, rfl⟩, Option.isNone_iff_eq_none.mp hroot⟩
  · rintro ⟨⟨node, hmem, rfl⟩, hroot⟩
    rw [← linkOf_built h hmem] at hroot
    exact ⟨node, List.mem_filter.mpr ⟨hmem, Option.isNone_iff_eq_none.mpr hroot⟩, rfl⟩

theorem rootNodeIds_nodup (h : Built events nodes) : (rootNodeIds nodes).Nodup :=
  h.nodup.sublist (List.filter_sublist.map _)

/-! ### The forest -/

/-- Trees built from the nodes of the events, one for each root. -/
structure Forest (schema : Schema Time Metadata Shown) (frames : Nat)
    (events : List (ExecutionTreeEvent Time Metadata)) (nodes : List (NodeData Time Metadata))
    (forest : List (DisplayNode Time Shown)) : Prop where
  built : Built events nodes
  trees : List.Forall₂ (fun id tree =>
    buildTree schema (linkChildren nodes) frames id = .ok tree) (rootNodeIds nodes) forest

theorem getExecutionTree_eq_ok_iff (hne : events ≠ []) {forest : List (DisplayNode Time Shown)} :
    (∃ response, getExecutionTree schema frames events = .ok (some response) ∧
      response.rootNodes = forest) ↔
      Forest schema frames events (events.foldl (addEvent schema) []) forest := by
  have hempty : events.isEmpty = false := by simpa using hne
  have hbuilt : Built events (events.foldl (addEvent schema) []) := built_foldl events
  unfold getExecutionTree
  rw [hempty, if_neg Bool.false_ne_true]
  dsimp only
  unfold nodesOf
  rw [rootNodeIds_linkChildren]
  constructor
  · rintro ⟨response, h, rfl⟩
    obtain ⟨trees, htrees, h⟩ := bind_eq_ok_iff.mp h
    cases h
    exact ⟨hbuilt, mapM_eq_ok_iff.mp htrees⟩
  · intro h
    exact ⟨_, bind_eq_ok_iff.mpr ⟨forest, mapM_eq_ok_iff.mpr h.trees, rfl⟩, rfl⟩

section Built

variable {frames : Nat} {events : List (ExecutionTreeEvent Time Metadata)}
  {forest : List (DisplayNode Time Shown)}

section

variable (h : Forest schema frames events nodes forest)
include h

theorem Forest.mem_ids_iff {id : String} :
    id ∈ forest.flatMap DisplayNode.ids ↔
      ∃ root ∈ rootNodeIds nodes, ∃ n, Climbs (linkedParent events) n id root := by
  have hlinked := linked_of_built h.built
  rw [List.mem_flatMap]
  constructor
  · rintro ⟨tree, htree, hid⟩
    obtain ⟨root, hroot, hbuilt⟩ := mem_right_of_forall₂ h.trees htree
    exact ⟨root, hroot, (mem_ids_buildTree hbuilt hlinked).mp hid⟩
  · rintro ⟨root, hroot, hid⟩
    obtain ⟨tree, htree, hbuilt⟩ := mem_left_of_forall₂ h.trees hroot
    exact ⟨tree, htree, (mem_ids_buildTree hbuilt hlinked).mpr hid⟩

theorem Forest.nodup : (forest.flatMap DisplayNode.ids).Nodup := by
  have hlinked := linked_of_built h.built
  refine nodup_of_apart hlinked h.trees (rootNodeIds_nodup h.built) ?_ ?_
  · intro tree htree
    obtain ⟨root, -, hbuilt⟩ := mem_right_of_forall₂ h.trees htree
    exact nodup_buildTree hlinked hbuilt
  · intro a ha b hb n m x hn hm
    have hrootA := ((mem_rootNodeIds h.built).mp ha).2
    have hrootB := ((mem_rootNodeIds h.built).mp hb).2
    rcases Nat.le_total n m with hle | hle
    · obtain ⟨k, rfl⟩ := Nat.exists_eq_add_of_le hle
      exact (hn.linear hm).eq_of_root hrootA
    · obtain ⟨k, rfl⟩ := Nat.exists_eq_add_of_le hle
      exact ((hm.linear hn).eq_of_root hrootB).symm

theorem Forest.childOf_iff {parent child : String} : ChildOf forest parent child ↔
      parent ∈ forest.flatMap DisplayNode.ids ∧ linkedParent events child = some parent := by
  have hlinked := linked_of_built h.built
  unfold ChildOf
  constructor
  · rintro ⟨tree, htree, hnode⟩
    obtain ⟨root, -, hbuilt⟩ := mem_right_of_forall₂ h.trees htree
    obtain ⟨hparent, hup⟩ := (childOf_buildTree_iff hlinked hbuilt).mp hnode
    exact ⟨List.mem_flatMap.mpr ⟨tree, htree, hparent⟩, hup⟩
  · rintro ⟨hparent, hup⟩
    obtain ⟨tree, htree, hin⟩ := List.mem_flatMap.mp hparent
    obtain ⟨root, -, hbuilt⟩ := mem_right_of_forall₂ h.trees htree
    exact ⟨tree, htree, (childOf_buildTree_iff hlinked hbuilt).mpr ⟨hin, hup⟩⟩

theorem Forest.mem_of_climbs {links : Nat} {id root : String}
    (hid : ∃ event ∈ events, event.nodeId = id)
    (hclimbs : Climbs (linkedParent events) links id root) (hroot : linkedParent events root = none) :
    id ∈ forest.flatMap DisplayNode.ids := by
  refine h.mem_ids_iff.mpr ⟨root, (mem_rootNodeIds h.built).mpr ⟨?_, hroot⟩, links, hclimbs⟩
  rw [h.built.known]
  cases links with
  | zero => exact hclimbs.zero_eq ▸ hid
  | succ links =>
      obtain ⟨child, -, hup⟩ := hclimbs.last
      exact exists_of_parentOf (parentOf_of_linkedParent hup)

theorem Forest.chainsEnd (hall : ∀ event ∈ events, event.nodeId ∈ forest.flatMap DisplayNode.ids) :
    ChainsEnd frames events := by
  intro event hevent
  obtain ⟨root, hroot, n, hclimbs⟩ := h.mem_ids_iff.mp (hall event hevent)
  obtain ⟨tree, -, hbuilt⟩ := mem_left_of_forall₂ h.trees hroot
  exact ⟨n, buildTree_depth hbuilt (linked_of_built h.built) hclimbs, root, hclimbs,
    ((mem_rootNodeIds h.built).mp hroot).2⟩

end

theorem forest_of_chainsEnd (hbuilt : Built events nodes) (h : ChainsEnd frames events) :
    ∃ forest : List (DisplayNode Time Shown), Forest schema frames events nodes forest := by
  have hlinked := linked_of_built hbuilt
  obtain ⟨forest, hforest⟩ := mapM_returns_iff.mpr (show ∀ root ∈ rootNodeIds nodes,
      ∃ tree, buildTree schema (linkChildren nodes) frames root = .ok tree by
    intro root hroot
    obtain ⟨hmem, hnone⟩ := (mem_rootNodeIds hbuilt).mp hroot
    refine buildTree_returns hlinked (by rwa [map_id_linkChildren]) ?_
    intro n x hx
    obtain ⟨event, hevent, rfl⟩ : ∃ event ∈ events, event.nodeId = x := by
      cases hx with
      | here => exact (hbuilt.known _).mp hmem
      | link hup _ => exact exists_of_linkedParent hup
    obtain ⟨links, hlt, top, hclimbs, htop⟩ := h event hevent
    exact (hx.le_of_root hclimbs htop).trans_lt hlt)
  exact ⟨forest, hbuilt, mapM_eq_ok_iff.mp hforest⟩

theorem Forest.keepsNodes (h : Forest schema frames events nodes forest)
    (hchains : ChainsEnd frames events) (hempty : NoEmptyParent events) :
    KeepsNodes events forest := by
  have hmem : ∀ id, (∃ event ∈ events, event.nodeId = id) →
      id ∈ forest.flatMap DisplayNode.ids := by
    rintro id ⟨event, hevent, rfl⟩
    obtain ⟨links, -, root, hclimbs, hroot⟩ := hchains event hevent
    exact h.mem_of_climbs ⟨event, hevent, rfl⟩ hclimbs hroot
  refine ⟨?_, ?_, ?_⟩
  · intro event hevent
    exact List.count_eq_one_of_mem h.nodup (hmem _ ⟨event, hevent, rfl⟩)
  · intro id hid
    obtain ⟨root, hroot, n, hclimbs⟩ := h.mem_ids_iff.mp hid
    cases hclimbs with
    | here => exact (h.built.known _).mp ((mem_rootNodeIds h.built).mp hroot).1
    | link hup _ => exact exists_of_linkedParent hup
  · intro id parent hparent hacyclic
    have hne : parent ≠ "" := by
      rintro rfl
      exact hempty id hparent hacyclic
    have hlinked : linkedParent events id = some parent := by
      rw [linkedParent, hparent, Option.filter_some, if_pos (by simpa using hne)]
    exact h.childOf_iff.mpr ⟨hmem parent (exists_of_parentOf hparent), hlinked⟩

theorem Forest.noEmptyParent (h : Forest schema frames events nodes forest)
    (hkeeps : KeepsNodes events forest) : NoEmptyParent events := by
  intro id hparent hacyclic
  have hchild := (h.childOf_iff.mp (hkeeps.under id "" hparent hacyclic)).2
  rw [linkedParent, hparent] at hchild
  cases hchild

end Built

/-- From a run with events, a tree is built that has every node once, under its parent, if and
only if every chain of parents ends within the frames of the stack and no node lies under the
node of the empty id. -/
theorem getExecutionTree_keeps_iff (schema : Schema Time Metadata Shown) (frames : Nat)
    (events : List (ExecutionTreeEvent Time Metadata)) (hne : events ≠ []) :
    (∃ response, getExecutionTree schema frames events = .ok (some response) ∧
      KeepsNodes events response.rootNodes) ↔
      ChainsEnd frames events ∧ NoEmptyParent events := by
  have hbuilt : Built events (events.foldl (addEvent schema) []) := built_foldl events
  constructor
  · rintro ⟨response, hresponse, hkeeps⟩
    have hforest := (getExecutionTree_eq_ok_iff hne).mp ⟨response, hresponse, rfl⟩
    refine ⟨hforest.chainsEnd fun event hevent => ?_, hforest.noEmptyParent hkeeps⟩
    exact List.count_pos_iff.mp (hkeeps.once event hevent ▸ Nat.one_pos)
  · rintro ⟨hchains, hempty⟩
    obtain ⟨forest, hforest⟩ : ∃ forest, Forest schema frames events _ forest :=
      forest_of_chainsEnd hbuilt hchains
    obtain ⟨response, hresponse, rfl⟩ := (getExecutionTree_eq_ok_iff hne).mpr hforest
    exact ⟨response, hresponse, hforest.keepsNodes hchains hempty⟩

end Shape

def running (id : String) (parent : Option String) : ExecutionTreeEvent Nat Unit :=
  { nodeId := id, nodeType := .action, nodeName := "Click", parentNodeId := parent
    status := .running, errorMessage := none, nodeStartTimestamp := none
    nodeEndTimestamp := none, durationMs := none, nodeMetadata := none }

def plainSchema : Schema Nat Unit Unit :=
  { zero := 0, isZero := (· == 0), seconds := (· / 1000)
    elapsed := fun starts ends => (ends.foldl max 0 - starts.foldl min 0) * 1000
    shown := fun _ => () }

/-- A parent that arrives after its child. -/
theorem late_parent_kept :
    (∃ response, getExecutionTree plainSchema 900 [running "b" (some "a"), running "a" none] =
        .ok (some response) ∧
      KeepsNodes [running "b" (some "a"), running "a" none] response.rootNodes) ↔
      ChainsEnd 900 [running "b" (some "a"), running "a" none] ∧
        NoEmptyParent [running "b" (some "a"), running "a" none] :=
  getExecutionTree_keeps_iff plainSchema 900 _ (List.cons_ne_nil _ _)

/-- A node that is its own parent is in no tree, however many frames there are. -/
theorem own_parent_lost :
    ¬ ∀ events : List (ExecutionTreeEvent Nat Unit), events ≠ [] → ∃ frames response,
      getExecutionTree plainSchema frames events = .ok (some response) ∧
        KeepsNodes events response.rootNodes := by
  intro hall
  obtain ⟨frames, response, hresponse, hkeeps⟩ :=
    hall [running "a" (some "a")] (List.cons_ne_nil _ _)
  have hforest := (getExecutionTree_eq_ok_iff (List.cons_ne_nil _ _)).mp ⟨response, hresponse, rfl⟩
  have hchains := hforest.chainsEnd fun event hevent =>
    List.count_pos_iff.mp (hkeeps.once event hevent ▸ Nat.one_pos)
  obtain ⟨links, -, root, hclimbs, hroot⟩ := hchains _ List.mem_cons_self
  have hself : linkedParent [running "a" (some "a")] "a" = some "a" := by decide
  rw [hclimbs.eq_of_self hself] at hroot
  cases hroot.symm.trans hself

example : rootNodeIds (nodesOf plainSchema [running "a" (some "b"), running "b" (some "a"),
    running "c" (some "b"), running "d" none]) = ["d"] := by decide

end Qontinui.Execution
