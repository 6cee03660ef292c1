import Qontinui.Base.FallibleLoops
import Qontinui.Dependencies.Analyzer

/-!
What the lists, nodes and edges of the analyzer say: which workflow refers to which.
-/

namespace Qontinui.Dependencies

open DepthFirst FallibleLoops

def DistinctIds (workflows : List Workflow) : Prop := (workflows.map (·.id)).Nodup

instance (workflows : List Workflow) : Decidable (DistinctIds workflows) :=
  inferInstanceAs (Decidable (workflows.map (·.id)).Nodup)

/-- A `RUN_WORKFLOW` action of a workflow names another. -/
def Names (workflow : Workflow) (targetId : String) : Prop :=
  ∃ action ∈ workflow.actions, action.type.name = "RUN_WORKFLOW" ∧
    action.workflowId = some targetId ∧ targetId ≠ ""

def Refers (workflows : List Workflow) (a b : String) : Prop :=
  ∃ workflow ∈ workflows, workflow.id = a ∧ Names workflow b

/-- A workflow of which each action runs another. -/
def runner (id : String) (targets : List String) : Workflow :=
  { id := id
    name := id
    category := none
    actions := targets.map fun targetId =>
      { id := targetId, type := .ofName "RUN_WORKFLOW", workflowId := some targetId }
    tags := none }

/-! ### Sets in order -/

variable {set : List String} {workflow : Workflow}

@[simp] theorem mem_add {item x : String} : x ∈ add set item ↔ x ∈ set ∨ x = item := by
  unfold add
  split
  · next h =>
      constructor
      · exact Or.inl
      · rintro (hx | rfl)
        · exact hx
        · exact h
  · simp

theorem nodup_add (h : set.Nodup) (item : String) : (add set item).Nodup := by
  unfold add
  split
  · exact h
  · next hnew => exact List.nodup_append.mpr ⟨h, List.nodup_singleton _, by grind⟩

theorem subset_add (set : List String) (item : String) : set ⊆ add set item :=
  fun _ hx => mem_add.mpr (.inl hx)

theorem unmarked_add_lt {nodes visited : List String} {id : String} {fuel : Nat} (hid : id ∈ nodes)
    (hfresh : id ∉ visited) (hfuel : unmarked nodes visited < fuel + 1) :
    unmarked nodes (add visited id) < fuel :=
  (unmarked_lt hid hfresh (subset_add visited id) (mem_add.mpr (.inr rfl))).trans_le
    (Nat.lt_succ_iff.mp hfuel)

theorem mem_foldl_add {items : List String} {x : String} :
    x ∈ items.foldl add set ↔ x ∈ set ∨ x ∈ items := by
  induction items generalizing set with
  | nil => simp
  | cons item rest ih => rw [List.foldl_cons, ih, mem_add, List.mem_cons, or_assoc]

theorem nodup_foldl_add {items : List String} (h : set.Nodup) : (items.foldl add set).Nodup := by
  induction items generalizing set with
  | nil => exact h
  | cons item rest ih => exact ih (nodup_add h item)

/-! ### References -/

variable {targetId a b : String}

theorem targetOf_eq_some_iff {action : Action} :
    targetOf action = some targetId ↔ action.workflowId = some targetId ∧ targetId ≠ "" := by
  simp only [targetOf, Option.filter_eq_some_iff, decide_eq_true_eq]

theorem mem_findRunWorkflowActions {action : Action} :
    action ∈ findRunWorkflowActions workflow ↔
      action ∈ workflow.actions ∧ action.type.name = "RUN_WORKFLOW" := by
  simp [findRunWorkflowActions, isActionOfType]

theorem names_iff :
    Names workflow targetId ↔
      ∃ action ∈ findRunWorkflowActions workflow, targetOf action = some targetId := by
  simp only [Names, mem_findRunWorkflowActions, targetOf_eq_some_iff, and_assoc]

theorem analyzeDependencies_eq (workflow : Workflow) :
    analyzeDependencies workflow =
      ((findRunWorkflowActions workflow).filterMap targetOf).foldl add [] := by
  rw [analyzeDependencies, findRunWorkflowActions]
  generalize ([] : List String) = set
  induction workflow.actions generalizing set with
  | nil => rfl
  | cons action rest ih =>
      rw [List.foldl_cons, ih, List.filter_cons]
      cases isActionOfType action "RUN_WORKFLOW" with
      | false => rfl
      | true =>
          rw [if_pos rfl, if_pos rfl, List.filterMap_cons]
          cases targetOf action with
          | none | some => rfl

theorem mem_analyzeDependencies :
    targetId ∈ analyzeDependencies workflow ↔ Names workflow targetId := by
  simp only [analyzeDependencies_eq, mem_foldl_add, List.not_mem_nil, false_or,
    List.mem_filterMap, names_iff]

theorem nodup_analyzeDependencies (workflow : Workflow) : (analyzeDependencies workflow).Nodup := by
  rw [analyzeDependencies_eq]
  exact nodup_foldl_add List.nodup_nil

theorem nodup_getDependencies (workflows : List Workflow) (id : String) :
    (getDependencies workflows id).Nodup := by
  unfold getDependencies
  split
  · exact nodup_analyzeDependencies _
  · exact List.nodup_nil

section Distinct

variable {workflows : List Workflow}

theorem DistinctIds.eq_of_id (h : DistinctIds workflows) {w w' : Workflow} (hw : w ∈ workflows)
    (hw' : w' ∈ workflows) (hid : w.id = w'.id) : w = w' :=
  List.inj_on_of_nodup_map h hw hw' hid

theorem DistinctIds.find?_eq_some_iff (h : DistinctIds workflows) {id : String} {w : Workflow} :
    workflows.find? (·.id == id) = some w ↔ w ∈ workflows ∧ w.id = id := by
  constructor
  · intro hfind
    exact ⟨List.mem_of_find?_eq_some hfind, by simpa using List.find?_some hfind⟩
  · rintro ⟨hw, hid⟩
    cases hfind : workflows.find? (·.id == id) with
    | none => exact absurd (by simpa using hid) (List.find?_eq_none.mp hfind w hw)
    | some w' =>
        have hid' : w'.id = id := by simpa using List.find?_some hfind
        rw [h.eq_of_id (List.mem_of_find?_eq_some hfind) hw (hid'.trans hid.symm)]

variable {a b : String}

theorem mem_getDependencies (h : DistinctIds workflows) :
    b ∈ getDependencies workflows a ↔ Refers workflows a b := by
  unfold getDependencies
  constructor
  · intro hb
    cases hfind : workflows.find? (·.id == a) with
    | none => simp [hfind] at hb
    | some w =>
        obtain ⟨hw, hid⟩ := h.find?_eq_some_iff.mp hfind
        rw [hfind] at hb
        exact ⟨w, hw, hid, mem_analyzeDependencies.mp hb⟩
  · rintro ⟨w, hw, hid, hnames⟩
    rw [h.find?_eq_some_iff.mpr ⟨hw, hid⟩]
    exact mem_analyzeDependencies.mpr hnames

theorem mem_getDependents : a ∈ getDependents workflows b ↔ Refers workflows a b := by
  simp only [getDependents, List.mem_map, List.mem_filter, decide_eq_true_eq,
    mem_analyzeDependencies, Refers]
  constructor
  · rintro ⟨w, ⟨hw, hnames⟩, hid⟩
    exact ⟨w, hw, hid, hnames⟩
  · rintro ⟨w, hw, hid, hnames⟩
    exact ⟨w, ⟨hw, hnames⟩, hid⟩

theorem step_getDependencies (h : DistinctIds workflows) :
    Step (getDependencies workflows) = Refers workflows := by
  funext a b
  exact propext (mem_getDependencies h)

theorem step_getDependents :
    Step (getDependents workflows) = Function.swap (Refers workflows) := by
  funext b a
  exact propext mem_getDependents

theorem Refers.mem_left (h : Refers workflows a b) : a ∈ workflows.map (·.id) := by
  obtain ⟨w, hw, hid, -⟩ := h
  exact List.mem_map.mpr ⟨w, hw, hid⟩

theorem Refers.mentioned_left (h : Refers workflows a b) :
    a ∈ mentioned workflows := List.mem_append_left _ h.mem_left

theorem Refers.mentioned_right (h : Refers workflows a b) : b ∈ mentioned workflows := by
  obtain ⟨w, hw, -, hnames⟩ := h
  exact List.mem_append_right _
    (List.mem_flatMap.mpr ⟨w, hw, mem_analyzeDependencies.mpr hnames⟩)

end Distinct

/-! ### Writes to the graph -/

theorem get?_modify {nodes : ObjectMap DependencyNode} {id other : String}
    {write : DependencyNode → DependencyNode} :
    (modify nodes id write).get? other =
      if other = id then (nodes.get? other).map write else nodes.get? other := by
  unfold modify
  split
  · next node hget =>
      by_cases h : other = id
      · rw [if_pos h, h, hget, ObjectMap.get?_set_self, Option.map_some]
      · rw [if_neg h, ObjectMap.get?_set_ne nodes h]
  · next hget =>
      split
      · next h => rw [h, hget, Option.map_none]
      · rfl

def DependencyEdge.ends (edge : DependencyEdge) : String × String := (edge.fromId, edge.toId)

theorem joins_iff {edge : DependencyEdge} : edge.joins a b = true ↔ edge.ends = (a, b) := by
  simp [DependencyEdge.joins, DependencyEdge.ends]

theorem map_ends_modifyEdge {write : DependencyEdge → DependencyEdge}
    (hwrite : ∀ edge, (write edge).ends = edge.ends) (edges : List DependencyEdge) :
    (modifyEdge a b write edges).map (·.ends) = edges.map (·.ends) := by
  induction edges with
  | nil => rfl
  | cons edge rest ih =>
      rw [modifyEdge]
      split
      · rw [List.map_cons, List.map_cons, hwrite]
      · rw [List.map_cons, List.map_cons, ih]

theorem modifyEdge_eq_map {write : DependencyEdge → DependencyEdge} {edges : List DependencyEdge}
    (hnodup : (edges.map (·.ends)).Nodup) :
    modifyEdge a b write edges =
      edges.map fun edge => if edge.ends = (a, b) then write edge else edge := by
  induction edges with
  | nil => rfl
  | cons edge rest ih =>
      obtain ⟨hfirst, hrest⟩ := List.nodup_cons.mp hnodup
      rw [modifyEdge, List.map_cons]
      by_cases h : edge.ends = (a, b)
      · rw [if_pos (joins_iff.mpr h), if_pos h]
        congr 1
        rw [List.map_congr_left, List.map_id']
        intro other hother
        exact if_neg fun heq => hfirst (List.mem_map.mpr ⟨other, hother, heq.trans h.symm⟩)
      · rw [if_neg fun hjoins => h (joins_iff.mp hjoins), if_neg h, ih hrest]

/-! ### Nodes and edges -/

/-- A node says which ids its own refers to and which refer to it. -/
structure NodeShows (out into : String → Prop) (circular : Prop) (node : DependencyNode) :
    Prop where
  dependencies : ∀ x, x ∈ node.dependencies ↔ out x
  dependents : ∀ x, x ∈ node.dependents ↔ into x
  outDegree : node.outDegree = node.dependencies.length
  inDegree : node.inDegree = node.dependents.length
  isCircular : node.isCircular = true ↔ circular

/-- Nodes and edges show the references between ids, and which of them are marked. -/
structure Shows (ids : List String) (refers : String → String → Prop) (circular : String → Prop)
    (cyclic : String × String → Prop) (links : Links) : Prop where
  listed : ∀ id, (∃ node, links.nodes.get? id = some node) ↔ id ∈ ids
  nodes : ∀ id node, links.nodes.get? id = some node →
    NodeShows (refers id) (refers · id) (circular id) node
  edges : ∀ a b, (a, b) ∈ links.edges.map (·.ends) ↔ refers a b
  nodup : (links.edges.map (·.ends)).Nodup
  isCyclic : ∀ edge ∈ links.edges, edge.isCyclic = true ↔ cyclic edge.ends

section Nodes

variable {out into : String → Prop} {circular : Prop} {node : DependencyNode}

section

variable (h : NodeShows out into circular node)
include h

theorem NodeShows.congr {out' into' : String → Prop} {circular' : Prop} (hout : ∀ x, out x ↔ out' x)
    (hinto : ∀ x, into x ↔ into' x) (hcircular : circular ↔ circular') :
    NodeShows out' into' circular' node :=
  ⟨fun x => (h.dependencies x).trans (hout x), fun x => (h.dependents x).trans (hinto x),
    h.outDegree, h.inDegree, h.isCircular.trans hcircular⟩

theorem NodeShows.outDegree_eq_zero_iff : node.outDegree = 0 ↔ ∀ x, ¬ out x := by
  rw [h.outDegree, List.length_eq_zero_iff, List.eq_nil_iff_forall_not_mem]
  simp only [h.dependencies]

theorem NodeShows.inDegree_eq_zero_iff : node.inDegree = 0 ↔ ∀ x, ¬ into x := by
  rw [h.inDegree, List.length_eq_zero_iff, List.eq_nil_iff_forall_not_mem]
  simp only [h.dependents]

end

theorem NodeShows.addDependency (h : NodeShows out into circular node) (targetId : String) :
    NodeShows (fun x => out x ∨ x = targetId) into circular (addDependency targetId node) := by
  unfold Dependencies.addDependency
  split
  · next hold =>
      refine h.congr (fun x => ⟨Or.inl, ?_⟩) (fun _ => Iff.rfl) Iff.rfl
      rintro (hx | rfl)
      · exact hx
      · exact (h.dependencies x).mp hold
  · refine ⟨fun x => ?_, h.dependents, ?_, h.inDegree, h.isCircular⟩
    · rw [List.mem_append, List.mem_singleton, h.dependencies x]
    · simp [h.outDegree]

theorem NodeShows.addDependent (h : NodeShows out into circular node) (sourceId : String) :
    NodeShows out (fun x => into x ∨ x = sourceId) circular (addDependent sourceId node) := by
  unfold Dependencies.addDependent
  split
  · next hold =>
      refine h.congr (fun _ => Iff.rfl) (fun x => ⟨Or.inl, ?_⟩) Iff.rfl
      rintro (hx | rfl)
      · exact hx
      · exact (h.dependents x).mp hold
  · refine ⟨h.dependencies, fun x => ?_, h.outDegree, ?_, h.isCircular⟩
    · rw [List.mem_append, List.mem_singleton, h.dependents x]
    · simp [h.inDegree]

end Nodes

section Links

variable {ids : List String} {refers : String → String → Prop} {circular : String → Prop}
  {cyclic : String × String → Prop} {links : Links}

theorem Shows.congr {refers' : String → String → Prop} {circular' : String → Prop}
    {cyclic' : String × String → Prop} (h : Shows ids refers circular cyclic links)
    (hrefers : ∀ a b, refers a b ↔ refers' a b) (hcircular : ∀ a, circular a ↔ circular' a)
    (hcyclic : ∀ pair, cyclic pair ↔ cyclic' pair) : Shows ids refers' circular' cyclic' links := by
  have h₁ : refers = refers' := funext₂ fun a b => propext (hrefers a b)
  have h₂ : circular = circular' := funext fun a => propext (hcircular a)
  have h₃ : cyclic = cyclic' := funext fun pair => propext (hcyclic pair)
  exact h₁ ▸ h₂ ▸ h₃ ▸ h

theorem exists_get?_modify {nodes : ObjectMap DependencyNode} {id other : String}
    {write : DependencyNode → DependencyNode} :
    (∃ node, (modify nodes id write).get? other = some node) ↔
      ∃ node, nodes.get? other = some node := by
  rw [get?_modify]
  split
  · simp only [Option.map_eq_some_iff]
    constructor
    · rintro ⟨_, node, hnode, -⟩
      exact ⟨node, hnode⟩
    · rintro ⟨node, hnode⟩
      exact ⟨write node, node, hnode, rfl⟩
  · exact Iff.rfl

theorem exists_of_get?_modify {nodes : ObjectMap DependencyNode} {id other : String}
    {write : DependencyNode → DependencyNode} {node : DependencyNode}
    (h : (modify nodes id write).get? other = some node) :
    ∃ before, nodes.get? other = some before ∧
      (other = id ∧ node = write before ∨ other ≠ id ∧ node = before) := by
  rw [get?_modify] at h
  split at h
  · next heq =>
      obtain ⟨before, hbefore, rfl⟩ := Option.map_eq_some_iff.mp h
      exact ⟨before, hbefore, .inl ⟨heq, rfl⟩⟩
  · next hne => exact ⟨node, h, .inr ⟨hne, rfl⟩⟩

section

variable (h : Shows ids refers circular cyclic links)
include h

theorem addEdge_shows {a b : String} (actionId : String) (hcyclic : ¬ cyclic (a, b)) :
    (∀ x y, (x, y) ∈ (addEdge a b actionId links.edges).map (·.ends) ↔
      refers x y ∨ x = a ∧ y = b) ∧
    ((addEdge a b actionId links.edges).map (·.ends)).Nodup ∧
    ∀ edge ∈ addEdge a b actionId links.edges, edge.isCyclic = true ↔ cyclic edge.ends := by
  unfold addEdge
  have hany : links.edges.any (·.joins a b) = true ↔ refers a b := by
    rw [← h.edges, List.any_eq_true, List.mem_map]
    simp only [joins_iff]
  split
  · next hold =>
      rw [map_ends_modifyEdge]
      refine ⟨fun x y => ?_, h.nodup, fun edge hedge => ?_⟩
      · rw [h.edges]
        constructor
        · exact Or.inl
        · rintro (hxy | ⟨rfl, rfl⟩)
          · exact hxy
          · exact hany.mp hold
      · rw [modifyEdge_eq_map h.nodup] at hedge
        obtain ⟨before, hbefore, rfl⟩ := List.mem_map.mp hedge
        split <;> exact h.isCyclic before hbefore
      · exact fun _ => rfl
  · next hnew =>
      rw [hany] at hnew
      rw [List.map_append, List.map_singleton]
      refine ⟨fun x y => ?_, ?_, fun edge hedge => ?_⟩
      · rw [List.mem_append, List.mem_singleton, h.edges, DependencyEdge.ends, Prod.mk.injEq]
      · rw [List.nodup_append]
        refine ⟨h.nodup, List.nodup_singleton _, ?_⟩
        rintro pair hpair _ hother rfl
        cases List.mem_singleton.mp hother
        exact hnew ((h.edges a b).mp hpair)
      · rcases List.mem_append.mp hedge with hedge | hedge
        · exact h.isCyclic edge hedge
        · cases List.mem_singleton.mp hedge
          simpa [DependencyEdge.ends] using hcyclic

theorem addReference_shows (hcyclic : ∀ pair, ¬ cyclic pair) (sourceId : String) (action : Action) :
    Shows ids (fun a b => refers a b ∨ a = sourceId ∧ targetOf action = some b) circular cyclic
      (addReference sourceId links action) := by
  unfold addReference
  cases targetOf action with
  | none => exact h.congr (fun a b => by simp) (fun _ => Iff.rfl) fun _ => Iff.rfl
  | some targetId =>
      obtain ⟨hedges, hnodup, hflags⟩ :=
        addEdge_shows h action.id (hcyclic (sourceId, targetId))
      refine ⟨fun id => ?_, fun id node hnode => ?_, fun a b => ?_, hnodup, hflags⟩
      · rw [exists_get?_modify, exists_get?_modify, h.listed]
      · obtain ⟨middle, hmiddle, hlast⟩ := exists_of_get?_modify hnode
        obtain ⟨before, hbefore, hfirst⟩ := exists_of_get?_modify hmiddle
        have hshows := h.nodes id before hbefore
        have hmid : NodeShows (fun x => refers id x ∨ id = sourceId ∧ x = targetId)
            (refers · id) (circular id) middle := by
          rcases hfirst with ⟨rfl, rfl⟩ | ⟨hne, rfl⟩
          · exact (hshows.addDependency targetId).congr (fun x => by simp) (fun _ => Iff.rfl) Iff.rfl
          · exact hshows.congr (fun x => by simp [hne]) (fun _ => Iff.rfl) Iff.rfl
        rcases hlast with ⟨rfl, rfl⟩ | ⟨hne, rfl⟩
        · exact (hmid.addDependent sourceId).congr (fun x => by simp [eq_comm])
            (fun x => by simp) Iff.rfl
        · exact hmid.congr (fun x => by simp [eq_comm])
            (fun x => by simp [Ne.symm hne]) Iff.rfl
      · rw [hedges, Option.some.injEq, eq_comm (a := targetId)]

theorem foldl_addReference_shows {references : List (String × Action)}
    (hcyclic : ∀ pair, ¬ cyclic pair) :
    Shows ids (fun a b => refers a b ∨ ∃ r ∈ references, r.1 = a ∧ targetOf r.2 = some b) circular
      cyclic (references.foldl (fun links r => addReference r.1 links r.2) links) := by
  induction references generalizing links refers with
  | nil => exact h.congr (fun a b => by simp) (fun _ => Iff.rfl) fun _ => Iff.rfl
  | cons r rest ih =>
      refine (ih (addReference_shows h hcyclic r.1 r.2)).congr
        (fun a b => ?_) (fun _ => Iff.rfl) fun _ => Iff.rfl
      simp only [List.mem_cons, exists_eq_or_imp, or_assoc, eq_comm (a := a)]

theorem markPair_shows (pair : String × String) :
    Shows ids refers (fun id => circular id ∨ pair.1 = id) (fun other => cyclic other ∨ pair = other)
      (markPair links pair) := by
  refine ⟨fun id => ?_, fun id node hnode => ?_, fun a b => ?_, ?_, fun edge hedge => ?_⟩
  · rw [markPair, exists_get?_modify, h.listed]
  · obtain ⟨before, hbefore, hlast⟩ := exists_of_get?_modify hnode
    have hshows := h.nodes id before hbefore
    rcases hlast with ⟨rfl, rfl⟩ | ⟨hne, rfl⟩
    · exact ⟨hshows.dependencies, hshows.dependents, hshows.outDegree, hshows.inDegree, by simp⟩
    · exact hshows.congr (fun _ => Iff.rfl) (fun _ => Iff.rfl) (by simp [Ne.symm hne])
  · rw [markPair, map_ends_modifyEdge, h.edges]
    exact fun _ => rfl
  · rw [markPair, map_ends_modifyEdge]
    · exact h.nodup
    · exact fun _ => rfl
  · rw [markPair, modifyEdge_eq_map h.nodup] at hedge
    obtain ⟨before, hbefore, rfl⟩ := List.mem_map.mp hedge
    split
    · next hends => simp [DependencyEdge.ends] at hends ⊢; simp [hends]
    · next hends =>
        rw [h.isCyclic before hbefore]
        constructor
        · exact Or.inl
        · rintro (hcyclic | rfl)
          · exact hcyclic
          · exact absurd rfl hends

theorem foldl_markPair_shows {pairs : List (String × String)} :
    Shows ids refers (fun id => circular id ∨ ∃ pair ∈ pairs, pair.1 = id)
      (fun other => cyclic other ∨ other ∈ pairs) (pairs.foldl markPair links) := by
  induction pairs generalizing links circular cyclic with
  | nil => exact h.congr (fun _ _ => Iff.rfl) (fun _ => by simp) fun _ => by simp
  | cons pair rest ih =>
      refine (ih (markPair_shows h pair)).congr (fun _ _ => Iff.rfl) (fun id => ?_) fun other => ?_
      · simp only [List.mem_cons, exists_eq_or_imp, or_assoc]
      · rw [or_assoc, List.mem_cons, eq_comm (a := other)]

end

end Links

/-! ### The graph of a list of workflows -/

section Graph

variable {minText : List String → String} {now : Int} {workflows : List Workflow} {id : String}
  {fuel : Nat}

section

variable (h : DistinctIds workflows)
include h

theorem get?_keyed {β : Type} (value : Workflow → β) {v : β} :
    (workflows.foldl (fun map workflow => map.set workflow.id (value workflow))
      ObjectMap.empty).get? id = some v ↔ ∃ w ∈ workflows, w.id = id ∧ value w = v := by
  have hkeys : (([] ++ workflows.map fun w : Workflow => (w.id, value w)).map Prod.fst).Nodup := by
    rw [List.nil_append, List.map_map]
    exact h
  rw [ObjectMap.get?_eq_some_iff, ObjectMap.entries_foldl_set]
  change (id, v) ∈ List.foldl _ [] _ ↔ _
  rw [Fields.foldl_set_of_nodup hkeys, List.nil_append, List.mem_map]
  simp only [Prod.mk.injEq]

theorem searched_eq : searched workflows = getDependencies workflows := by
  funext id
  have hiff : ∀ w, (workflowMap workflows).get? id = some w ↔
      workflows.find? (·.id == id) = some w := by
    intro w
    rw [workflowMap, get?_keyed h, h.find?_eq_some_iff]
    constructor
    · rintro ⟨_, hw, hid, rfl⟩
      exact ⟨hw, hid⟩
    · rintro ⟨hw, hid⟩
      exact ⟨w, hw, hid, rfl⟩
  rw [searched, getDependencies, Option.ext hiff]

theorem initializeNodes_shows :
    Shows (workflows.map (·.id)) (fun _ _ => False) (fun _ => False) (fun _ => False)
      ⟨initializeNodes workflows, []⟩ := by
  refine ⟨fun id => ?_, fun id node hnode => ?_, by simp, List.nodup_nil, by simp⟩
  · simp only [initializeNodes, get?_keyed h, List.mem_map]
    constructor
    · rintro ⟨_, w, hw, hid, -⟩
      exact ⟨w, hw, hid⟩
    · rintro ⟨w, hw, hid⟩
      exact ⟨newNode w, w, hw, hid, rfl⟩
  · rw [initializeNodes, get?_keyed h] at hnode
    obtain ⟨w, -, -, rfl⟩ := hnode
    exact ⟨by simp [newNode], by simp [newNode], rfl, rfl, by simp [newNode]⟩

theorem addReferences_shows :
    Shows (workflows.map (·.id)) (Refers workflows) (fun _ => False) (fun _ => False)
      (addReferences workflows ⟨initializeNodes workflows, []⟩) := by
  have hflat : addReferences workflows ⟨initializeNodes workflows, []⟩ =
      (workflows.flatMap fun w => (findRunWorkflowActions w).map fun action => (w.id, action)).foldl
        (fun links r => addReference r.1 links r.2) ⟨initializeNodes workflows, []⟩ := by
    rw [addReferences, List.foldl_flatMap]
    simp only [List.foldl_map]
  rw [hflat]
  refine (foldl_addReference_shows (initializeNodes_shows h) fun _ => not_false).congr
    (fun a b => ?_) (fun _ => Iff.rfl) fun _ => Iff.rfl
  simp only [false_or, List.mem_flatMap, List.mem_map, Refers, names_iff]
  constructor
  · rintro ⟨_, ⟨w, hw, action, haction, rfl⟩, hid, htarget⟩
    exact ⟨w, hw, hid, action, haction, htarget⟩
  · rintro ⟨w, hw, hid, action, haction, htarget⟩
    exact ⟨_, ⟨w, hw, action, haction, rfl⟩, hid, htarget⟩

theorem markCycles_shows (cycles : List (List String)) :
    Shows (workflows.map (·.id)) (Refers workflows)
      (fun id => ∃ pair ∈ cycles.flatMap cyclePairs, pair.1 = id)
      (· ∈ cycles.flatMap cyclePairs)
      (markCycles cycles (addReferences workflows ⟨initializeNodes workflows, []⟩)) := by
  rw [markCycles, ← List.foldl_flatMap]
  exact (foldl_markPair_shows (addReferences_shows h)).congr (fun _ _ => Iff.rfl)
    (fun _ => by simp only [false_or]) fun _ => by simp only [false_or]

end

theorem get?_foldl_depths {entries : List (String × Nat)} (h : (entries.map Prod.fst).Nodup)
    (nodes : ObjectMap DependencyNode) (id : String) :
    (entries.foldl (fun nodes entry =>
      modify nodes entry.1 fun node => { node with depth := entry.2 }) nodes).get? id =
      (nodes.get? id).map fun node =>
        { node with depth := (entries.lookup id).getD node.depth } := by
  induction entries generalizing nodes with
  | nil =>
      rw [List.foldl_nil]
      cases nodes.get? id <;> rfl
  | cons entry rest ih =>
      obtain ⟨hfirst, hrest⟩ := List.nodup_cons.mp h
      rw [List.foldl_cons, ih hrest, get?_modify]
      by_cases hid : id = entry.1
      · have habsent : rest.lookup id = none := by
          rw [← Option.not_isSome_iff_eq_none, Fields.lookup_isSome_iff, hid]
          exact hfirst
        rw [if_pos hid, Option.map_map, habsent, Fields.lookup_cons, if_pos hid.symm]
        rfl
      · rw [if_neg hid, Fields.lookup_cons, if_neg (Ne.symm hid)]

theorem get?_updateDepths (depths : ObjectMap Nat) (nodes : ObjectMap DependencyNode)
    (id : String) :
    (updateDepths depths nodes).get? id = (nodes.get? id).map fun node =>
      { node with depth := (depths.get? id).getD node.depth } :=
  get?_foldl_depths depths.nodup nodes id

/-! ### The searches come to an end -/

theorem mem_mentioned_of_searched (h : DistinctIds workflows) {a b : String}
    (hb : b ∈ searched workflows a) : b ∈ mentioned workflows := by
  rw [searched_eq h] at hb
  exact ((mem_getDependencies h).mp hb).mentioned_right

theorem cycleDfs_returns (minText : List String → String) (h : DistinctIds workflows)
    (path : List String) {search : CycleSearch} (hid : id ∈ mentioned workflows)
    (hfuel : unmarked (mentioned workflows) search.visited < fuel) :
    ∃ after, cycleDfs minText workflows fuel id path search = some after ∧
      search.visited ⊆ after.visited := by
  induction fuel generalizing id path search with
  | zero => cases hfuel
  | succ fuel ih =>
      rw [cycleDfs]
      split
      · split
        · exact ⟨_, rfl, List.Subset.refl _⟩
        · exact ⟨_, rfl, List.Subset.refl _⟩
      · split
        · exact ⟨_, rfl, List.Subset.refl _⟩
        · next hfresh =>
            have hlt := unmarked_add_lt hid hfresh hfuel
            have hbelow : ∀ below : CycleSearch, ∀ dep ∈ searched workflows id,
                add search.visited id ⊆ below.visited → ∃ after,
                  cycleDfs minText workflows fuel dep (path ++ [id]) below = some after ∧
                    add search.visited id ⊆ after.visited := by
              intro below dep hdep hkeeps
              obtain ⟨after, hafter, hkeeps'⟩ := ih _ (mem_mentioned_of_searched h hdep)
                (Nat.lt_of_le_of_lt (unmarked_mono hkeeps) hlt)
              exact ⟨after, hafter, List.Subset.trans hkeeps hkeeps'⟩
            obtain ⟨below, hrun, hkeeps⟩ := foldlM_succeeds
              (fun below : CycleSearch => add search.visited id ⊆ below.visited) hbelow
              (s := ⟨search.cycles, add search.visited id, add search.recursionStack id⟩)
              (List.Subset.refl _)
            exact ⟨{ below with recursionStack := below.recursionStack.filter (· ≠ id) },
              Option.bind_eq_some_iff.mpr ⟨below, hrun, rfl⟩,
              List.Subset.trans (subset_add search.visited id) hkeeps⟩

theorem unmarked_lt_enough (workflows : List Workflow) (marked : List String) :
    unmarked (mentioned workflows) marked < enough workflows :=
  (unmarked_le_length (mentioned workflows) marked).trans_lt (Nat.lt_add_of_pos_right Nat.two_pos)

theorem unmarked_cons_lt_enough (workflows : List Workflow) (id : String) :
    unmarked (id :: mentioned workflows) [] < enough workflows :=
  (unmarked_le_length (id :: mentioned workflows) []).trans_lt (Nat.lt_succ_self _)

theorem findCircularDependencies_returns (minText : List String → String)
    (h : DistinctIds workflows) :
    ∃ cycles, findCircularDependencies minText workflows = some cycles := by
  have hstep : ∀ search : CycleSearch, ∀ workflow ∈ workflows, True → ∃ after,
      (if workflow.id ∈ search.visited then some search
        else cycleDfs minText workflows (enough workflows) workflow.id [] search) = some after ∧
        True := by
    intro search workflow hworkflow _
    split
    · exact ⟨search, rfl, trivial⟩
    · obtain ⟨after, hafter, -⟩ := cycleDfs_returns minText h []
        (List.mem_append_left _ (List.mem_map_of_mem hworkflow))
        (unmarked_lt_enough workflows search.visited)
      exact ⟨after, hafter, trivial⟩
  obtain ⟨search, hsearch, -⟩ := foldlM_succeeds (fun _ => True) hstep (s := ⟨[], [], []⟩) trivial
  exact ⟨search.cycles, by simp [findCircularDependencies, hsearch]⟩

theorem depthDfs_returns {edges : List DependencyEdge} {nodes : List String} (inCycle : List String)
    (hedges : ∀ edge ∈ edges, edge.toId ∈ nodes) (depth : Nat) {search : DepthSearch}
    (hid : id ∈ nodes) (hfuel : unmarked nodes search.visited < fuel) :
    ∃ after, depthDfs edges inCycle fuel id depth search = some after ∧
      search.visited ⊆ after.2.visited := by
  induction fuel generalizing id depth search with
  | zero => cases hfuel
  | succ fuel ih =>
      rw [depthDfs]
      split
      · exact ⟨_, rfl, List.Subset.refl _⟩
      · next hfresh =>
          have hlt := unmarked_add_lt hid hfresh hfuel
          have hbelow : ∀ found : Nat × DepthSearch, ∀ edge ∈ edges.filter (·.fromId == id),
              add search.visited id ⊆ found.2.visited → ∃ after,
                (if edge.toId ∉ inCycle ∨ id ∉ inCycle then do
                  let child ← depthDfs edges inCycle fuel edge.toId (depth + 1) found.2
                  return (max found.1 child.1, child.2)
                else some found) = some after ∧ add search.visited id ⊆ after.2.visited := by
            intro found edge hedge hkeeps
            split
            · obtain ⟨child, hchild, hkeeps'⟩ := ih (depth + 1)
                (hedges edge (List.mem_of_mem_filter hedge))
                (Nat.lt_of_le_of_lt (unmarked_mono hkeeps) hlt)
              exact ⟨(max found.1 child.1, child.2), by simp [hchild],
                List.Subset.trans hkeeps hkeeps'⟩
            · exact ⟨found, rfl, hkeeps⟩
          obtain ⟨below, hrun, hkeeps⟩ := foldlM_succeeds
            (fun found : Nat × DepthSearch => add search.visited id ⊆ found.2.visited) hbelow
            (s := (depth, ⟨add search.visited id, search.depths⟩)) (List.Subset.refl _)
          exact ⟨(below.1, { below.2 with depths := below.2.depths.set id below.1 }),
            Option.bind_eq_some_iff.mpr ⟨below, hrun, rfl⟩,
            List.Subset.trans (subset_add search.visited id) hkeeps⟩

theorem calculateDepths_returns {edges : List DependencyEdge} {ids : List String}
    {nodes : ObjectMap DependencyNode} (hedges : ∀ edge ∈ edges, edge.toId ∈ ids)
    (hnodes : ∀ entry ∈ nodes.entries, entry.1 ∈ ids) (hfuel : ids.length < fuel)
    (cycles : List (List String)) :
    ∃ after, calculateDepths fuel nodes edges cycles = some after := by
  have hdfs : ∀ search : DepthSearch, ∀ entry ∈ nodes.entries, ∃ after,
      (depthDfs edges (cycles.flatten.foldl add []) fuel entry.1 0 search).map (·.2) =
        some after := by
    intro search entry hentry
    obtain ⟨after, hafter, -⟩ := depthDfs_returns (cycles.flatten.foldl add []) hedges 0
      (hnodes entry hentry)
      (Nat.lt_of_le_of_lt (unmarked_le_length ids search.visited) hfuel)
    exact ⟨after.2, by rw [hafter, Option.map_some]⟩
  have hguard : ∀ (guard : DepthSearch → String × DependencyNode → Prop)
      [∀ search entry, Decidable (guard search entry)] (start : DepthSearch), ∃ search,
      nodes.entries.foldlM (fun (search : DepthSearch) entry =>
        if guard search entry then
          (depthDfs edges (cycles.flatten.foldl add []) fuel entry.1 0 search).map (·.2)
        else some search) start = some search := by
    intro guard _ start
    have hstep : ∀ search : DepthSearch, ∀ entry ∈ nodes.entries, True → ∃ after,
        (if guard search entry then
          (depthDfs edges (cycles.flatten.foldl add []) fuel entry.1 0 search).map (·.2)
        else some search) = some after ∧ True := by
      intro search entry hentry _
      split
      · obtain ⟨after, hafter⟩ := hdfs search entry hentry
        exact ⟨after, hafter, trivial⟩
      · exact ⟨search, rfl, trivial⟩
    obtain ⟨search, hsearch, -⟩ := foldlM_succeeds (fun _ => True) hstep (s := start) trivial
    exact ⟨search, hsearch⟩
  obtain ⟨leaves, hleaves⟩ := hguard (fun _ entry => entry.2.outDegree = 0) ⟨[], .empty⟩
  obtain ⟨all, hall⟩ := hguard (fun search entry => entry.1 ∉ search.visited) leaves
  exact ⟨updateDepths all.depths nodes, Option.bind_eq_some_iff.mpr
    ⟨leaves, hleaves, Option.bind_eq_some_iff.mpr ⟨all, hall, rfl⟩⟩⟩

theorem freshGraph_eq_some_iff {graph : DependencyGraph} :
    freshGraph minText now workflows = some graph ↔
      ∃ cycles nodes, findCircularDependencies minText workflows = some cycles ∧
        calculateDepths (enough workflows)
          (markCycles cycles (addReferences workflows ⟨initializeNodes workflows, []⟩)).nodes
          (markCycles cycles (addReferences workflows ⟨initializeNodes workflows, []⟩)).edges
          cycles = some nodes ∧
        graph = {
          nodes := nodes
          edges := (markCycles cycles (addReferences workflows ⟨initializeNodes workflows, []⟩)).edges
          cycles := cycles
          roots := (nodes.entries.filter fun entry => entry.2.inDegree == 0).map (·.1)
          leaves := (nodes.entries.filter fun entry => entry.2.outDegree == 0).map (·.1)
          timestamp := now } := by
  simp only [freshGraph, Option.bind_eq_bind, Option.bind_eq_some_iff, Option.pure_def,
    Option.some.injEq, eq_comm (b := graph), exists_and_left]

theorem freshGraph_returns (minText : List String → String) (now : Int) (h : DistinctIds workflows) :
    ∃ graph, freshGraph minText now workflows = some graph := by
  obtain ⟨cycles, hcycles⟩ := findCircularDependencies_returns minText h
  have hshows := markCycles_shows h cycles
  have hedges : ∀ edge ∈
      (markCycles cycles (addReferences workflows ⟨initializeNodes workflows, []⟩)).edges,
      edge.toId ∈ mentioned workflows := by
    intro edge hedge
    exact ((hshows.edges edge.fromId edge.toId).mp
      (List.mem_map.mpr ⟨edge, hedge, rfl⟩)).mentioned_right
  have hnodes : ∀ entry ∈
      (markCycles cycles (addReferences workflows ⟨initializeNodes workflows, []⟩)).nodes.entries,
      entry.1 ∈ mentioned workflows := by
    intro entry hentry
    exact List.mem_append_left _
      ((hshows.listed entry.1).mp ⟨entry.2, ObjectMap.get?_eq_some_iff.mpr hentry⟩)
  have hfuel : (mentioned workflows).length < enough workflows :=
    Nat.lt_add_of_pos_right Nat.two_pos
  obtain ⟨nodes, hrun⟩ := calculateDepths_returns hedges hnodes hfuel cycles
  exact ⟨_, freshGraph_eq_some_iff.mpr ⟨cycles, nodes, hcycles, hrun, rfl⟩⟩

/-- What a fresh graph shows, whatever its depths are. -/
theorem freshGraph_shows (h : DistinctIds workflows) {graph : DependencyGraph}
    (hgraph : freshGraph minText now workflows = some graph) :
    findCircularDependencies minText workflows = some graph.cycles ∧
    Shows (workflows.map (·.id)) (Refers workflows)
      (fun id => ∃ pair ∈ graph.cycles.flatMap cyclePairs, pair.1 = id)
      (· ∈ graph.cycles.flatMap cyclePairs) ⟨graph.nodes, graph.edges⟩ ∧
    ∀ id, id ∈ graph.roots ↔ id ∈ workflows.map (·.id) ∧ ∀ a, ¬ Refers workflows a id := by
  obtain ⟨cycles, nodes, hcycles, hnodes, rfl⟩ := freshGraph_eq_some_iff.mp hgraph
  obtain ⟨leaves, -, hall⟩ := Option.bind_eq_some_iff.mp hnodes
  obtain ⟨all, -, hlast⟩ := Option.bind_eq_some_iff.mp hall
  cases hlast
  have hmarked := markCycles_shows h cycles
  have hshows : Shows (workflows.map (·.id)) (Refers workflows)
      (fun id => ∃ pair ∈ cycles.flatMap cyclePairs, pair.1 = id)
      (· ∈ cycles.flatMap cyclePairs)
      ⟨updateDepths all.depths
        (markCycles cycles (addReferences workflows ⟨initializeNodes workflows, []⟩)).nodes,
        (markCycles cycles (addReferences workflows ⟨initializeNodes workflows, []⟩)).edges⟩ := by
    refine ⟨fun id => ?_, fun id node hnode => ?_, hmarked.edges, hmarked.nodup, hmarked.isCyclic⟩
    · rw [← hmarked.listed id, get?_updateDepths]
      simp only [Option.map_eq_some_iff]
      constructor
      · rintro ⟨_, node, hnode, -⟩
        exact ⟨node, hnode⟩
      · rintro ⟨node, hnode⟩
        exact ⟨_, node, hnode, rfl⟩
    · rw [get?_updateDepths] at hnode
      obtain ⟨before, hbefore, rfl⟩ := Option.map_eq_some_iff.mp hnode
      have hnodeShows := hmarked.nodes id before hbefore
      exact ⟨hnodeShows.dependencies, hnodeShows.dependents, hnodeShows.outDegree,
        hnodeShows.inDegree, hnodeShows.isCircular⟩
  refine ⟨hcycles, hshows, fun id => ?_⟩
  simp only [List.mem_map, List.mem_filter, beq_iff_eq]
  constructor
  · rintro ⟨entry, ⟨hentry, hdegree⟩, rfl⟩
    have hget := ObjectMap.get?_eq_some_iff.mpr hentry
    exact ⟨List.mem_map.mp ((hshows.listed entry.1).mp ⟨entry.2, hget⟩),
      (hshows.nodes entry.1 entry.2 hget).inDegree_eq_zero_iff.mp hdegree⟩
  · rintro ⟨hid, hnone⟩
    obtain ⟨node, hget⟩ := (hshows.listed id).mpr (List.mem_map.mpr hid)
    exact ⟨(id, node), ⟨ObjectMap.get?_eq_some_iff.mp hget,
      (hshows.nodes id node hget).inDegree_eq_zero_iff.mpr hnone⟩, rfl⟩

end Graph

end Qontinui.Dependencies
