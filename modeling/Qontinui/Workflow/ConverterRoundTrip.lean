import Mathlib.Data.List.Chain
import Qontinui.Workflow.ConversionLoss
import Qontinui.Workflow.GraphCoverage
import Qontinui.Workflow.ProcessConversion

/-!
Plain actions as a graph and back. The graph is a chain, which is linearizable
and sorts into the old order; what the way back leaves out of an action are its
expectations, and base and execution settings that are falsy.
-/

namespace Qontinui.SequentialToGraph

open Workflow LinearizabilityChecker GraphToSequential

/-! ### The graph of plain actions -/

theorem processActions_plain {items : List (Action × String)}
    (hplain : ∀ item ∈ items, isControlFlowAction item.1.type = false)
    {converter converter' : Converter}
    (h : items.foldlM processAction converter = some converter') :
    converter'.connections = converter.connections := by
  induction items generalizing converter with
  | nil =>
      cases h
      rfl
  | cons item rest ih =>
      have hfirst := hplain item (by simp)
      rw [List.foldlM_cons] at h
      obtain ⟨mid, hmid, hrest⟩ := Option.bind_eq_some_iff.mp h
      simp only [processAction, hfirst, Bool.false_eq_true, if_false] at hmid
      cases hmid
      have hsame := ih (fun other hother => hplain other (List.mem_cons_of_mem _ hother)) hrest
      exact hsame

theorem push_of_absent {connections : Connections} {sourceId targetId : String}
    (h : connections.get? sourceId = none) :
    connections.push sourceId .main 0 { action := targetId, type := "main", index := 0 } =
      connections.set sourceId (.leadsTo targetId) := by
  rw [Connections.push, h]
  rfl

/-- Connecting each plain action to the next one builds a chain. -/
theorem linear_chain {items : List (Action × String)}
    (hplain : ∀ item ∈ items, isControlFlowAction item.1.type = false)
    (hids : ∀ item ∈ items, item.2 ≠ "") (hnodup : (items.map Prod.snd).Nodup)
    (front : List (Action × String)) {rest : List (Action × String)}
    (hsplit : items = front ++ rest) {converter : Converter}
    (hnodes : converter.actionNodes.entries =
      items.map fun item => (item.2, createNode item.1 item.2))
    (hfresh : ∀ item ∈ rest, converter.connections.get? item.2 = none) :
    ((List.range' front.length (rest.length - 1)).foldl connectNext converter).connections =
      chain converter.connections (rest.map Prod.snd) := by
  induction rest generalizing front converter with
  | nil => rfl
  | cons item others ih =>
      cases others with
      | nil => rfl
      | cons next others =>
          have hitem : items[front.length]? = some item := by simp [hsplit]
          have hnext : items[front.length + 1]? = some next := by simp [hsplit]
          have hitemMem := List.mem_of_getElem? hitem
          have hnextMem := List.mem_of_getElem? hnext
          have hnode : converter.actionNodes.get? item.2 = some (createNode item.1 item.2) := by
            rw [ObjectMap.get?_eq_some_iff, hnodes]
            exact List.mem_map.mpr ⟨item, hitemMem, rfl⟩
          have hflag : (createNode item.1 item.2).isControlFlow = false :=
            hplain item hitemMem
          have hstep : connectNext converter front.length =
              addConnection converter item.2 next.2 .main 0 0 := by
            simp only [connectNext, keys_getElem? hnodes, hitem, hnext, Option.map_some]
            rw [if_neg (by simp [hids item hitemMem, hids next hnextMem]), hnode]
            simp only [hflag, Bool.false_eq_true, if_false]
          have hconnections : (connectNext converter front.length).connections =
              converter.connections.set item.2 (.leadsTo next.2) := by
            rw [hstep]
            exact push_of_absent (hfresh item (by simp))
          have hnotItem : ∀ other ∈ next :: others, other.2 ≠ item.2 := by
            intro other hother heq
            rw [hsplit, List.map_append, List.map_cons] at hnodup
            exact (List.nodup_cons.mp hnodup.of_append_right).1
              (heq ▸ List.mem_map_of_mem hother)
          have hrange : List.range' front.length ((item :: next :: others).length - 1) =
              front.length :: List.range' (front ++ [item]).length
                ((next :: others).length - 1) := by
            simp [List.range'_succ]
          rw [hrange, List.foldl_cons, ih (front ++ [item]) (by simp [hsplit])
            (by rw [hstep]; exact hnodes) ?_]
          · rw [hconnections]
            rfl
          · intro other hother
            rw [hconnections, ObjectMap.get?_set_ne _ (hnotItem other hother)]
            exact hfresh other (List.mem_cons_of_mem _ hother)

/-- The graph of a list of plain actions: a chain of its ids. -/
structure ChainOf (workflow : Workflow) (list : List Action) : Prop where
  format : workflow.format = "graph"
  actions : ∃ position : String → JsValue, workflow.actions =
    list.map fun action => { action with position := position action.id }
  connections : workflow.connections = chain .empty (list.map Action.id)

theorem extractNestedActions_plain {action : Action}
    (h : isControlFlowAction action.type = false) : extractNestedActions action = some [] := by
  unfold extractNestedActions
  cases htype : action.type <;> simp [htype, isControlFlowAction] at h ⊢

theorem convert_chainOf (env : Environment) {options : ConverterOptions} {actions : List Action}
    (hpreserve : options.preserveActionIds = true) (hnodup : (actions.map Action.id).Nodup)
    (hids : ∀ action ∈ actions, action.id ≠ "")
    (hplain : ∀ action ∈ actions, isControlFlowAction action.type = false) :
    ∃ result, convert env options actions = some result ∧ ChainOf result.workflow actions := by
  have hsnd : (actions.map fun action => (action, action.id)).map Prod.snd =
      actions.map Action.id := by simp [Function.comp_def]
  have hplainItems : ∀ item ∈ actions.map fun action => (action, action.id),
      isControlFlowAction item.1.type = false := List.forall_mem_map.mpr hplain
  have hidItems : ∀ item ∈ actions.map fun action => (action, action.id), item.2 ≠ "" :=
    List.forall_mem_map.mpr hids
  have hnodupItems := hsnd ▸ hnodup
  obtain ⟨processed, hsome, hprocessed⟩ := @processActions_processed
    { warnings := if actions = [] then ["Empty action list provided"] else [] } _
    (fun item hitem => ⟨[], extractNestedActions_plain (hplainItems item hitem)⟩) hnodupItems
    (fun _ _ => rfl)
  have hnodes : processed.actionNodes.entries =
      (actions.map fun action => (action, action.id)).map fun item =>
        (item.2, createNode item.1 item.2) := hprocessed.nodes
  have hempty : processed.connections = .empty := processActions_plain hplainItems hsome
  have hlinear := linear_chain hplainItems hidItems hnodupItems [] rfl hnodes
    (fun _ _ => by rw [hempty]; rfl)
  have hkeep := (linear_leads (List.range (actions.length - 1)) hnodes).1
  refine ⟨_, by rw [convert, namedActions_preserved hpreserve]
                simp only [hsome, bind, Option.bind_some]; rfl, rfl, ?_, ?_⟩
  · simp only [positionedActions, buildLinearConnections, hkeep, ObjectMap.values, hnodes,
      List.map_map]
    exact ⟨_, rfl⟩
  · rw [hsnd, hempty] at hlinear
    simpa [buildLinearConnections, List.range_eq_range'] using hlinear

/-! ### The chain as a linear workflow -/

section Chain

variable {workflow : Workflow} {actions : List Action}

theorem ChainOf.actionIds (h : ChainOf workflow actions) :
    workflow.actionIds = actions.map Action.id := by
  obtain ⟨position, hactions⟩ := h.actions
  simp [Workflow.actionIds, hactions, Function.comp_def]

theorem ChainOf.isChain (h : ChainOf workflow actions)
    (hnodup : (actions.map Action.id).Nodup) : workflow.actionIds.IsChain workflow.Connected := by
  rw [h.actionIds]
  refine (chain_chained .empty hnodup fun _ _ => rfl).isChain.imp fun a b hab => ?_
  rw [Connected, h.connections]
  exact leads_of_nextInChain hab

section

variable (h : ChainOf workflow actions)
include h

theorem ChainOf.targets (hnodup : (actions.map Action.id).Nodup) :
    workflow.connections.targets = (actions.map Action.id).tail := by
  rw [h.connections, chain_targets .empty hnodup fun _ _ => rfl]
  rfl

theorem ChainOf.type_plain (hplain : ∀ action ∈ actions, isControlFlowAction action.type = false) :
    ∀ action ∈ workflow.actions, isControlFlowAction action.type = false := by
  obtain ⟨position, hactions⟩ := h.actions
  rw [hactions]
  exact List.forall_mem_map.mpr hplain

theorem ChainOf.linear (hlength : 2 ≤ actions.length) (hnodup : (actions.map Action.id).Nodup)
    (hplain : ∀ action ∈ actions, isControlFlowAction action.type = false) : Linear workflow := by
  have htargets := h.targets hnodup
  match actions, hlength with
  | first :: second :: rest, _ =>
      simp only [List.map_cons, List.tail_cons] at htargets
      have hfirst : first.id ∉ second.id :: rest.map Action.id := (List.nodup_cons.mp hnodup).1
      refine ⟨h.format, ?_, ⟨first.id, ?_⟩, ?_, ?_⟩
      · intro hkeys
        have hnone : workflow.connections.targets = [] := by
          have hentries : workflow.connections.entries = [] := List.map_eq_nil_iff.mp hkeys
          simp [Connections.targets, ObjectMap.values, hentries]
        rw [htargets] at hnone
        cases hnone
      · rw [getEntryPoints, h.actionIds, htargets, List.map_cons,
          List.filter_cons_of_pos (by simpa using hfirst)]
        rw [List.filter_eq_nil_iff.mpr fun id hid => by
          simpa only [decide_eq_true_eq, not_not, List.map_cons] using hid]
      · rw [findMergeNodes, htargets, List.filter_eq_nil_iff]
        intro id _
        have hcount := List.nodup_iff_count_le_one.mp (List.nodup_cons.mp hnodup).2 id
        simpa using hcount
      · intro action haction htype
        have := h.type_plain hplain action haction
        simp [isControlFlowAction, htype] at this

end

theorem ChainOf.check (h : ChainOf workflow actions) (hlength : 2 ≤ actions.length)
    (hnodup : (actions.map Action.id).Nodup)
    (hplain : ∀ action ∈ actions, isControlFlowAction action.type = false) :
    (check workflow).linearizable = true := by
  apply (h.linear hlength hnodup hplain).check
  rw [findParallelBranches, List.map_eq_nil_iff, List.filter_eq_nil_iff]
  rintro ⟨id, outputs⟩ hentry
  have hvalue : outputs ∈ workflow.connections.values := List.mem_map.mpr ⟨_, hentry, rfl⟩
  rw [h.connections] at hvalue
  rcases chain_values .empty _ hvalue with hempty | ⟨target, _, rfl⟩
  · cases hempty
  · simp [Outputs.leadsTo]

theorem ChainOf.sorted_eq (h : ChainOf workflow actions)
    (hnodup : (actions.map Action.id).Nodup) (hlinear : Linear workflow) {sorted : List Action}
    (hsorted : Sorted workflow sorted) : sorted = workflow.actions := by
  have hids := h.actionIds
  have hnodupIds : workflow.actionIds.Nodup := hids ▸ hnodup
  have hchain := h.isChain hnodup
  obtain ⟨e, he⟩ := hlinear.entry
  have hreached : ∀ action ∈ workflow.actions, workflow.ReachedFromEntry action.id := by
    intro action haction
    have hmem : action.id ∈ workflow.actionIds := List.mem_map_of_mem haction
    cases hactionIds : workflow.actionIds with
    | nil => rw [hactionIds] at hmem; cases hmem
    | cons first rest =>
        rw [hactionIds] at hchain hmem
        have hentry : first ∈ workflow.getEntryPoints := by
          rw [mem_getEntryPoints, h.targets hnodup, ← hids, hactionIds]
          exact ⟨by simp, (List.nodup_cons.mp (hactionIds ▸ hnodupIds)).1⟩
        exact ⟨first, hentry, DepthFirst.reached_of_isChain hchain _ hmem⟩
  have hperm : sorted.Perm workflow.actions := by
    refine (List.perm_ext_iff_of_nodup hsorted.nodup.of_map hnodupIds.of_map).mpr fun action => ?_
    exact (hsorted.mem action).trans (and_iff_left_of_imp (hreached action))
  have hpath : workflow.actions.IsChain fun a b => workflow.Connected a.id b.id :=
    List.isChain_map Action.id |>.mp hchain
  exact DepthFirst.eq_of_isChain hperm hnodupIds.of_map hsorted.order hpath

/-- A chain of plain actions converts to its actions, cleaned up. -/
theorem ChainOf.convert (h : ChainOf workflow actions) (hlength : 2 ≤ actions.length)
    (hnodup : (actions.map Action.id).Nodup)
    (hplain : ∀ action ∈ actions, isControlFlowAction action.type = false)
    (hcomplete : ∀ action ∈ actions,
      action.id ≠ "" ∧ action.type.truthy = true ∧ action.config.truthy = true) :
    GraphToSequential.convert workflow {} = .ok (actions.map (cleanupAction {})) := by
  have hcheck := h.check hlength hnodup hplain
  obtain ⟨sorted, hsorted⟩ := sorted_of_linear (linear_of_check hcheck) (h.actionIds ▸ hnodup)
  have hsame := h.sorted_eq hnodup (linear_of_check hcheck) hsorted
  subst hsame
  have hnotBranching : ∀ action ∈ workflow.actions, action.type ≠ .IF ∧ action.type ≠ .LOOP := by
    intro action haction
    have := h.type_plain hplain action haction
    constructor <;> intro htype <;> simp [isControlFlowAction, htype] at this
  have hrebuilt : workflow.actions.map (rebuilt workflow) = workflow.actions :=
    (List.map_congr_left fun action haction =>
      rebuilt_of_not_branching (hnotBranching action haction).1
        (hnotBranching action haction).2).trans (List.map_id _)
  obtain ⟨position, hactions⟩ := h.actions
  have hcleaned : workflow.actions.map (cleanupAction {}) = actions.map (cleanupAction {}) := by
    rw [hactions, List.map_map]
    rfl
  have hcompleteWorkflow : ∀ action ∈ workflow.actions, action.id ≠ "" ∧
      action.type.truthy = true ∧ (action.config.truthy = true ∨ Rebuilds workflow action) := by
    intro action haction
    rw [hactions] at haction
    obtain ⟨original, horiginal, rfl⟩ := List.mem_map.mp haction
    obtain ⟨hid, htype, hconfig⟩ := hcomplete original horiginal
    exact ⟨hid, htype, .inl hconfig⟩
  refine (convert_of_branchless hcheck hsorted fun action haction =>
    branchActions_of_not_branching (hnotBranching action haction).1
      (hnotBranching action haction).2).mpr
    ⟨by rw [hrebuilt, hcleaned], hcompleteWorkflow, fun action haction htype => ?_⟩
  exact absurd htype (hnotBranching action haction).2

end Chain

/-! ### The round trip -/

def unplaced (action : Action) : Action := { action with position := none }

/-- To a graph and back the list comes out as it was, up to positions. -/
def RoundTrips (env : Environment) (options : ConverterOptions) (actions : List Action) : Prop :=
  ∃ result, SequentialToGraph.convert env options actions = some result ∧
    GraphToSequential.convert result.workflow {} = .ok (actions.map unplaced)

/-- The action has no expectations, and base and execution settings only where truthy. -/
def KeepsFields (action : Action) : Prop :=
  action.expectations = none ∧ (∀ value, action.base = some value → value.truthy = true) ∧
    ∀ value, action.execution = some value → value.truthy = true

theorem filter_eq_self_iff {α : Type*} {p : α → Bool} {value : Option α} :
    value.filter p = value ↔ ∀ x, value = some x → p x = true := by
  cases value with
  | none => simp
  | some x => cases h : p x <;> simp [Option.filter, h]

theorem cleanup_eq_unplaced_iff {action : Action} (hname : action.name ≠ some "") :
    cleanupAction {} action = unplaced action ↔ KeepsFields action := by
  have hfilter : (action.name.filter fun name => name ≠ "") = action.name :=
    filter_eq_self_iff.mpr fun name h => by
      have : name ≠ "" := fun heq => hname (heq ▸ h)
      simpa using this
  have hparts : cleanupAction {} action = unplaced action ↔
      action.base.filter Json.truthy = action.base ∧
        action.execution.filter Json.truthy = action.execution ∧ none = action.expectations := by
    simp only [cleanupAction, unplaced, if_true, hfilter, Action.mk.injEq, true_and]
  rw [hparts, filter_eq_self_iff, filter_eq_self_iff, KeepsFields, eq_comm (a := none)]
  tauto

def expectantClicks : List Action :=
  [{ id := "a", type := .other "CLICK" ActionType.click_plain, config := some (.obj []),
     expectations := some (.obj [("isCheckpoint", .bool true)]) },
    { id := "b", type := .other "CLICK" ActionType.click_plain, config := some (.obj []) }]

end Qontinui.SequentialToGraph
