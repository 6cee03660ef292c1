import Qontinui.Workflow.GraphToSequential

/-!
When a linearizable workflow converts whole: exactly when every action is
reached, no IF or LOOP action has a branch of actions, and each action passes
the checks of the outcome.
-/

namespace Qontinui.GraphToSequential

open PatternDetector Workflow LinearizabilityChecker

variable {workflow : Workflow}

/-! ### The checks of the outcome -/

theorem firstError_ok_iff {α : Type*} {check : α → Except ConversionError Unit} {items : List α} :
    firstError check items = .ok () ↔ ∀ item ∈ items, check item = .ok () := by
  induction items with
  | nil => simp [firstError]
  | cons item rest ih =>
      rw [firstError, List.forall_mem_cons, ← ih]
      cases check item with
      | error | ok => simp [bind, Except.bind]

variable {action : Action} {actions result converted sorted : List Action} {processed : List String}
  {start : String}

theorem validateStructure_ok_iff {index : Nat} :
    validateStructure (action, index) = .ok () ↔
      action.id ≠ "" ∧ action.type.truthy = true ∧ action.config.truthy = true := by
  simp only [validateStructure]
  split_ifs with hid htype hconfig <;> simp_all

theorem validateUnique_ok_iff {ids : List String} :
    validateUnique ids actions = .ok () ↔
      (actions.map Action.id).Nodup ∧ ∀ action ∈ actions, action.id ∉ ids := by
  induction actions generalizing ids with
  | nil => simp [validateUnique]
  | cons action rest ih =>
      rw [validateUnique, List.map_cons, List.nodup_cons, List.forall_mem_cons]
      split_ifs with h
      · simp [h]
      · rw [ih]
        constructor
        · rintro ⟨hnodup, hfresh⟩
          refine ⟨⟨fun hmem => ?_, hnodup⟩, h, fun other hother hin =>
            hfresh other hother (List.mem_cons_of_mem _ hin)⟩
          obtain ⟨other, hother, heq⟩ := List.mem_map.mp hmem
          exact hfresh other hother (by simp [heq])
        · rintro ⟨⟨hnot, hnodup⟩, _, hfresh⟩
          refine ⟨hnodup, fun other hother hin => ?_⟩
          rcases List.mem_cons.mp hin with heq | hin
          · exact hnot (heq ▸ List.mem_map_of_mem hother)
          · exact hfresh other hother hin

theorem validateActionReferences_ok_iff {validIds : List String} :
    validateActionReferences validIds action = .ok () ↔
      ∀ reference ∈ branchReferences action, reference ∈ validIds.map Json.str := by
  unfold validateActionReferences
  rw [firstError_ok_iff]
  refine forall₂_congr fun reference _ => ?_
  split_ifs with h <;> simp [h]

/-- The outcome passes its checks exactly if each action is complete, no id occurs twice
and every branch reference names an action of the list. -/
theorem validateSequentialWorkflow_ok_iff :
    validateSequentialWorkflow actions = .ok () ↔
      (∀ action ∈ actions,
        action.id ≠ "" ∧ action.type.truthy = true ∧ action.config.truthy = true) ∧
      (actions.map Action.id).Nodup ∧
      ∀ action ∈ actions, ∀ reference ∈ branchReferences action,
        reference ∈ (actions.map Action.id).map Json.str := by
  have hstructure : firstError validateStructure actions.zipIdx = .ok () ↔
      ∀ action ∈ actions,
        action.id ≠ "" ∧ action.type.truthy = true ∧ action.config.truthy = true := by
    rw [firstError_ok_iff]
    constructor
    · intro h action haction
      obtain ⟨index, hlt, rfl⟩ := List.mem_iff_getElem.mp haction
      exact validateStructure_ok_iff.mp (h (actions[index], index)
        (List.mem_zipIdx_iff_getElem?.mpr (by simp)))
    · rintro h ⟨action, index⟩ hitem
      have haction := List.mem_of_getElem? (List.mem_zipIdx_iff_getElem?.mp hitem)
      exact validateStructure_ok_iff.mpr (h action haction)
  have hreferences : firstError (validateActionReferences (actions.map Action.id)) actions =
      .ok () ↔ ∀ action ∈ actions, ∀ reference ∈ branchReferences action,
        reference ∈ (actions.map Action.id).map Json.str := by
    rw [firstError_ok_iff]
    exact forall₂_congr fun action _ => validateActionReferences_ok_iff
  have hunique : validateUnique [] actions = .ok () ↔ (actions.map Action.id).Nodup := by
    simp [validateUnique_ok_iff]
  rw [← hstructure, ← hreferences, ← hunique]
  unfold validateSequentialWorkflow
  cases firstError validateStructure actions.zipIdx with
  | error e => simp [bind, Except.bind]
  | ok _ =>
      cases validateUnique [] actions with
      | error | ok => simp [bind, Except.bind]

/-! ### Branches -/

def branchStarts (workflow : Workflow) (action : Action) : List String :=
  match action.type with
  | .IF =>
      match (workflow.connections.get? action.id).bind Outputs.main with
      | some [trueBranch, falseBranch] =>
          ((firstTarget trueBranch).toList ++ (firstTarget falseBranch).toList).filter (· ≠ "")
      | _ => []
  | .LOOP => (firstBodyAction workflow action).toList
  | _ => []

def branchActions (workflow : Workflow) (action : Action) : List Action :=
  match action.type with
  | .IF =>
      match detectIfPattern workflow action with
      | none => []
      | some pattern => pattern.thenBranch ++ pattern.elseBranch
  | .LOOP =>
      match detectLoopPattern workflow action with
      | none => []
      | some pattern => pattern.bodyActions
  | _ => []

theorem rebuildStep_of_fresh {rebuild : List Action → List Action} (h : action.id ∉ processed) :
    ∃ rebuilt : Action, rebuilt.id = action.id ∧
      rebuildStep workflow rebuild (result, processed) action =
        (result ++ [rebuilt],
          action.id :: (branchActions workflow action).map Action.id ++ processed) := by
  simp only [rebuildStep, if_neg h, branchActions]
  cases action.type with
  | IF =>
      simp only [reconstructIf]
      cases detectIfPattern workflow action with
      | none => exact ⟨action, rfl, rfl⟩
      | some pattern => exact ⟨_, by rfl, rfl⟩
  | LOOP =>
      simp only [reconstructLoop]
      cases detectLoopPattern workflow action with
      | none => exact ⟨action, rfl, rfl⟩
      | some pattern => exact ⟨_, by rfl, rfl⟩
  | _ => exact ⟨action, rfl, rfl⟩

def kept (workflow : Workflow) : List String → List Action → List Action
  | _, [] => []
  | processed, action :: rest =>
      if action.id ∈ processed then kept workflow processed rest
      else
        action :: kept workflow
          (action.id :: (branchActions workflow action).map Action.id ++ processed) rest

theorem rebuild_ids {rebuild : List Action → List Action} :
    (actions.foldl (rebuildStep workflow rebuild) (result, processed)).1.map Action.id =
      result.map Action.id ++ (kept workflow processed actions).map Action.id := by
  induction actions generalizing result processed with
  | nil => simp [kept]
  | cons action rest ih =>
      rw [List.foldl_cons, kept]
      by_cases h : action.id ∈ processed
      · simp only [rebuildStep, if_pos h]
        exact ih
      · obtain ⟨rebuilt, hid, hstep⟩ : ∃ rebuilt : Action, rebuilt.id = action.id ∧
            rebuildStep workflow rebuild (result, processed) action =
              (result ++ [rebuilt],
                action.id :: (branchActions workflow action).map Action.id ++ processed) :=
          rebuildStep_of_fresh h
        rw [hstep, ih, if_neg h]
        simp [hid]

theorem kept_subset : kept workflow processed actions ⊆ actions := by
  induction actions generalizing processed with
  | nil => simp [kept]
  | cons action rest ih =>
      rw [kept]
      split_ifs
      · exact fun _ h => List.mem_cons_of_mem _ (ih h)
      · exact List.cons_subset_cons _ ih

theorem not_processed_of_kept (h : action ∈ kept workflow processed actions) :
    action.id ∉ processed := by
  induction actions generalizing processed with
  | nil => cases h
  | cons first rest ih =>
      rw [kept] at h
      split_ifs at h with hfirst
      · exact ih h
      · rcases List.mem_cons.mp h with rfl | h
        · exact hfirst
        · exact fun hmem => ih h (by simp [hmem])

theorem branch_not_kept {other : Action}
    (horder : actions.Pairwise fun a b => ¬ workflow.Connected b.id a.id)
    (haction : action ∈ kept workflow processed actions)
    (hother : other ∈ branchActions workflow action)
    (hconnected : workflow.Connected action.id other.id) (hne : other.id ≠ action.id) :
    other.id ∉ (kept workflow processed actions).map Action.id := by
  induction actions generalizing processed with
  | nil => cases haction
  | cons first rest ih =>
      obtain ⟨hfirst, hrest⟩ := List.pairwise_cons.mp horder
      rw [kept] at haction ⊢
      split_ifs at haction ⊢ with hprocessed
      · exact ih hrest haction
      rw [List.map_cons, List.mem_cons, not_or]
      rcases List.mem_cons.mp haction with rfl | hlater
      · refine ⟨hne, fun hmem => ?_⟩
        obtain ⟨same, hsame, heq⟩ := List.mem_map.mp hmem
        apply not_processed_of_kept hsame
        have hid : other.id ∈ (branchActions workflow action).map Action.id :=
          List.mem_map_of_mem hother
        simp only [List.cons_append, List.mem_cons, List.mem_append]
        exact .inr (.inl (heq ▸ hid))
      · refine ⟨fun heq => ?_, ih hrest hlater⟩
        exact hfirst action (kept_subset hlater) (heq ▸ hconnected)

/-! ### Where branches start -/

theorem connected_of_mainTarget {a : String} {main : List (List Connection)}
    {output : List Connection} (hmain : (workflow.connections.get? a).bind Outputs.main = some main)
    (houtput : output ∈ main) (hstart : firstTarget output = some start) :
    workflow.Connected a start := by
  obtain ⟨outputs, houtputs, hget⟩ := Option.bind_eq_some_iff.mp hmain
  obtain ⟨conn, hconn, rfl⟩ := Option.map_eq_some_iff.mp hstart
  refine ⟨outputs, houtputs, List.mem_map_of_mem (Outputs.mem_connections_iff.mpr ⟨.main, ?_⟩)⟩
  have hflat : conn ∈ main.flatten :=
    List.mem_flatten.mpr ⟨output, houtput, List.mem_of_head? hconn⟩
  simpa [Outputs.ofType, Outputs.get, hget] using hflat

theorem connected_of_branchStart (h : start ∈ branchStarts workflow action) :
    workflow.Connected action.id start := by
  unfold branchStarts at h
  split at h
  · split at h
    · next _ trueBranch falseBranch hmain =>
        have hmem := (List.mem_filter.mp h).1
        rcases List.mem_append.mp hmem with htrue | hfalse
        · exact connected_of_mainTarget hmain (by simp) (Option.mem_toList.mp htrue)
        · exact connected_of_mainTarget hmain (by simp) (Option.mem_toList.mp hfalse)
    · cases h
  · have hbody := Option.mem_toList.mp h
    unfold firstBodyAction at hbody
    obtain ⟨main, hmain, hfirst⟩ := Option.bind_eq_some_iff.mp hbody
    obtain ⟨output, houtput, htarget⟩ := Option.bind_eq_some_iff.mp hfirst
    exact connected_of_mainTarget hmain (List.mem_of_getElem? houtput)
      (Option.filter_eq_some_iff.mp htarget).1
  · cases h

theorem ne_empty_of_branchStart (h : start ∈ branchStarts workflow action) : start ≠ "" := by
  unfold branchStarts at h
  split at h
  · split at h
    · simpa using (List.mem_filter.mp h).2
    · cases h
  · have hbody := Option.mem_toList.mp h
    unfold firstBodyAction at hbody
    obtain ⟨main, _, hfirst⟩ := Option.bind_eq_some_iff.mp hbody
    obtain ⟨output, _, htarget⟩ := Option.bind_eq_some_iff.mp hfirst
    simpa using (Option.filter_eq_some_iff.mp htarget).2
  · cases h

theorem extractBranchActions_eq_nil {start : Option String}
    (h : ∀ id, start = some id → id ≠ "" → workflow.getActionById id = none) :
    extractBranchActions workflow start = [] := by
  cases start with
  | none => rfl
  | some id =>
      rw [extractBranchActions, searchDepth, followBranch]
      by_cases hid : id = ""
      · rw [if_pos (.inl hid)]
      · rw [if_neg (by simp [hid]), h id rfl hid]

theorem mem_extractBranchActions (hne : start ≠ "") (h : workflow.getActionById start = some action) :
    action ∈ extractBranchActions workflow (some start) := by
  rw [extractBranchActions, searchDepth, followBranch, if_neg (by simp [hne]), h]
  simp only
  split_ifs
  · simp
  · split <;> simp

theorem foldl_grows {visit : List Action × List String → String → List Action × List String}
    (h : ∀ state id, state.1 ⊆ (visit state id).1) (ids : List String)
    (state : List Action × List String) : state.1 ⊆ (ids.foldl visit state).1 := by
  induction ids generalizing state with
  | nil => exact List.Subset.refl _
  | cons id rest ih => exact List.Subset.trans (h state id) (ih _)

variable {loopId : String} {fuel : Nat}

theorem traverseBody_grows (state : List Action × List String) (id : String) :
    state.1 ⊆ (traverseBody workflow loopId fuel state id).1 := by
  induction fuel generalizing state id with
  | zero => exact List.Subset.refl _
  | succ fuel ih =>
      obtain ⟨body, visited⟩ := state
      rw [traverseBody]
      split_ifs
      · exact List.Subset.refl _
      · split
        · exact List.Subset.refl _
        · exact List.Subset.refl _
      · split
        · exact List.Subset.refl _
        · exact List.Subset.trans (List.subset_append_left body _) (foldl_grows ih _ (_, _))

theorem extractLoopBodyActions_eq_nil (h : workflow.getActionById start = none) :
    extractLoopBodyActions workflow loopId start = [] := by
  rw [extractLoopBodyActions, searchDepth, traverseBody, if_neg (by simp), h]

theorem mem_extractLoopBodyActions (hne : start ≠ loopId)
    (h : workflow.getActionById start = some action) :
    action ∈ extractLoopBodyActions workflow loopId start := by
  rw [extractLoopBodyActions, searchDepth, traverseBody, if_neg (by simp), h]
  simp only [if_neg hne]
  exact foldl_grows traverseBody_grows _ _ (by simp)

/-- Where no branch starts at an action, rebuilding takes nothing out. -/
theorem branchActions_eq_nil
    (h : ∀ start ∈ branchStarts workflow action, start ∉ workflow.actionIds) :
    branchActions workflow action = [] := by
  have hnone : ∀ start ∈ branchStarts workflow action, workflow.getActionById start = none := by
    intro start hstart
    have hnot := h start hstart
    rw [← getActionById_isSome_iff, Option.not_isSome_iff_eq_none] at hnot
    exact hnot
  unfold branchStarts at hnone
  unfold branchActions
  cases htype : action.type with
  | IF =>
      simp only [htype, detectIfPattern] at hnone ⊢
      cases hmain : (workflow.connections.get? action.id).bind Outputs.main with
      | none => simp
      | some main =>
          rw [hmain] at hnone
          rcases main with _ | ⟨trueBranch, _ | ⟨falseBranch, _ | ⟨third, rest⟩⟩⟩
          · simp
          · simp
          · have htrue : extractBranchActions workflow (firstTarget trueBranch) = [] :=
              extractBranchActions_eq_nil fun id hid hne => hnone id (by simp [hid, hne])
            have hfalse : extractBranchActions workflow (firstTarget falseBranch) = [] :=
              extractBranchActions_eq_nil fun id hid hne => hnone id (by simp [hid, hne])
            simp [htrue, hfalse]
          · simp
  | LOOP =>
      simp only [htype, detectLoopPattern] at hnone ⊢
      cases hbody : firstBodyAction workflow action with
      | none => simp
      | some start =>
          have hstart := hnone start (by simp [hbody])
          simp [extractLoopBodyActions_eq_nil hstart]
  | _ => rfl

theorem mem_branchActions {other : Action} (hstart : start ∈ branchStarts workflow action)
    (hne : start ≠ action.id) (hother : workflow.getActionById start = some other) :
    other ∈ branchActions workflow action := by
  have hempty := ne_empty_of_branchStart hstart
  unfold branchStarts at hstart
  unfold branchActions
  cases htype : action.type with
  | IF =>
      simp only [htype, detectIfPattern] at hstart ⊢
      generalize (workflow.connections.get? action.id).bind Outputs.main = main at hstart ⊢
      rcases main with _ | _ | ⟨trueBranch, _ | ⟨falseBranch, _ | ⟨third, rest⟩⟩⟩
      · cases hstart
      · cases hstart
      · cases hstart
      · simp only [ne_eq, not_true_eq_false, if_false, List.mem_append]
        have hmem := (List.mem_filter.mp hstart).1
        rcases List.mem_append.mp hmem with htrue | hfalse
        · rw [Option.mem_toList.mp htrue]
          exact .inl (mem_extractBranchActions hempty hother)
        · rw [Option.mem_toList.mp hfalse]
          exact .inr (mem_extractBranchActions hempty hother)
      · cases hstart
  | LOOP =>
      simp only [htype, detectLoopPattern] at hstart ⊢
      rw [Option.mem_toList.mp hstart]
      simpa using mem_extractLoopBodyActions hne hother
  | _ => simp [htype] at hstart

/-! ### The sorted actions -/

theorem map_id_filterMap_sublist (order : List String) :
    ((order.filterMap workflow.getActionById).map Action.id).Sublist order := by
  induction order with
  | nil => exact .slnil
  | cons id rest ih =>
      cases hfound : workflow.getActionById id with
      | none => simpa [hfound] using ih.cons id
      | some action =>
          have hid : action.id = id := (getActionById_eq_some hfound).2
          simpa [hfound, hid] using ih.cons_cons id

/-- What the topological sort of a linearizable workflow gives. -/
structure Sorted (workflow : Workflow) (sorted : List Action) : Prop where
  sorts : topologicalSort workflow = .ok sorted
  nodup : (sorted.map Action.id).Nodup
  order : sorted.Pairwise fun a b => ¬ workflow.Connected b.id a.id
  mem : ∀ action, action ∈ sorted ↔
    action ∈ workflow.actions ∧ workflow.ReachedFromEntry action.id

theorem sorted_of_linear (h : Linear workflow) (hnodup : workflow.actionIds.Nodup) :
    ∃ sorted, Sorted workflow sorted := by
  obtain ⟨order, horder⟩ := h.topologicalOrder
  have hordered := topologicalOrder_ordered horder
  have hsublist : ((order.filterMap workflow.getActionById).map Action.id).Sublist order :=
    map_id_filterMap_sublist order
  refine ⟨order.filterMap workflow.getActionById, ?_, hordered.nodup.sublist hsublist, ?_, ?_⟩
  · rw [topologicalSort, horder]
  · have hpairwise := hordered.pairwise.sublist hsublist
    rw [step_getNextActions] at hpairwise
    exact List.pairwise_map.mp hpairwise
  · intro action
    rw [List.mem_filterMap, ← mem_topologicalOrder horder]
    constructor
    · rintro ⟨id, hid, hfound⟩
      obtain ⟨haction, rfl⟩ := getActionById_eq_some hfound
      exact ⟨haction, hid⟩
    · rintro ⟨haction, hid⟩
      exact ⟨action.id, hid, getActionById_of_mem hnodup haction⟩

/-! ### Rebuilding without branches -/

def rebuilt (workflow : Workflow) (action : Action) : Action :=
  match action.type with
  | .IF =>
      let fields := Fields.set "elseActions" (.arr [])
        (Fields.set "thenActions" (.arr []) (spread action.config))
      { action with config := some (.obj fields) }
  | .LOOP =>
      if (firstBodyAction workflow action).isSome then
        { action with config := some (.obj (Fields.set "actions" (.arr []) (spread action.config))) }
      else action
  | _ => action

theorem rebuilt_of_not_branching (hif : action.type ≠ .IF) (hloop : action.type ≠ .LOOP) :
    rebuilt workflow action = action := by
  unfold rebuilt
  split
  · next h => exact absurd h hif
  · next h => exact absurd h hloop
  · rfl

theorem branchActions_of_not_branching (hif : action.type ≠ .IF) (hloop : action.type ≠ .LOOP) :
    branchActions workflow action = [] := by
  unfold branchActions
  split
  · next h => exact absurd h hif
  · next h => exact absurd h hloop
  · rfl

theorem rebuilt_id (action : Action) : (rebuilt workflow action).id = action.id := by
  unfold rebuilt
  split
  · rfl
  · split_ifs <;> rfl
  · rfl

theorem rebuilt_type (action : Action) : (rebuilt workflow action).type = action.type := by
  unfold rebuilt
  split
  · rfl
  · split_ifs <;> rfl
  · rfl

theorem rebuildControlFlow_nil (fuel : Nat) : rebuildControlFlow workflow fuel [] = [] := by
  cases fuel <;> rfl

theorem main_of_ifBranchIssue (h : ifBranchIssue workflow action = []) :
    ∃ trueBranch falseBranch,
      (workflow.connections.get? action.id).bind Outputs.main = some [trueBranch, falseBranch] := by
  unfold ifBranchIssue at h
  split at h
  · next trueBranch falseBranch hmain => exact ⟨trueBranch, falseBranch, hmain⟩
  · cases h

theorem rebuildStep_of_branchless (hfresh : action.id ∉ processed)
    (hif : action.type = .IF → ifBranchIssue workflow action = [])
    (hbranch : branchActions workflow action = []) :
    rebuildStep workflow (rebuildControlFlow workflow fuel) (result, processed) action =
      (result ++ [rebuilt workflow action], action.id :: processed) := by
  have hnil : rebuildControlFlow workflow fuel [] = [] := rebuildControlFlow_nil fuel
  simp only [rebuildStep, if_neg hfresh]
  unfold branchActions at hbranch
  cases htype : action.type with
  | IF =>
      obtain ⟨trueBranch, falseBranch, hmain⟩ := main_of_ifBranchIssue (hif htype)
      simp only [htype, detectIfPattern, hmain, ne_eq, not_true_eq_false, if_false,
        List.append_eq_nil_iff] at hbranch
      simp [reconstructIf, rebuilt, detectIfPattern, htype, hmain, hbranch.1, hbranch.2, hnil,
        idArray]
  | LOOP =>
      simp only [htype, detectLoopPattern] at hbranch
      cases hbody : firstBodyAction workflow action with
      | none => simp [reconstructLoop, rebuilt, detectLoopPattern, htype, hbody]
      | some start =>
          simp only [hbody, ne_eq, not_true_eq_false, if_false] at hbranch
          simp [reconstructLoop, rebuilt, detectLoopPattern, htype, hbody, hbranch, hnil, idArray]
  | _ => simp [rebuilt, htype]

theorem rebuild_of_branchless (hnodup : (actions.map Action.id).Nodup)
    (hfresh : ∀ action ∈ actions, action.id ∉ processed)
    (hif : ∀ action ∈ actions, action.type = .IF → ifBranchIssue workflow action = [])
    (hbranch : ∀ action ∈ actions, branchActions workflow action = []) :
    (actions.foldl (rebuildStep workflow (rebuildControlFlow workflow fuel))
      (result, processed)).1 = result ++ actions.map (rebuilt workflow) := by
  induction actions generalizing result processed with
  | nil => simp
  | cons action rest ih =>
      obtain ⟨hfirst, hrest⟩ := List.nodup_cons.mp hnodup
      rw [List.foldl_cons, rebuildStep_of_branchless (hfresh action (by simp))
        (hif action (by simp)) (hbranch action (by simp))]
      rw [ih hrest ?_ (fun other h => hif other (List.mem_cons_of_mem _ h))
        (fun other h => hbranch other (List.mem_cons_of_mem _ h))]
      · simp
      · intro other hother hmem
        rcases List.mem_cons.mp hmem with heq | hmem
        · exact hfirst (heq ▸ List.mem_map_of_mem hother)
        · exact hfresh other (List.mem_cons_of_mem _ hother) hmem

/-! ### Whole conversions -/

/-- `convert` returns a list in which every action of the workflow occurs exactly once
and every branch reference names an action of the list. -/
def ConvertsWhole (workflow : Workflow) : Prop :=
  ∃ converted, convert workflow {} = .ok converted ∧
    (∀ action ∈ workflow.actions, (converted.map Action.id).count action.id = 1) ∧
    ∀ action ∈ converted, ∀ reference ∈ branchReferences action,
      reference ∈ (converted.map Action.id).map Json.str

def Rebuilds (workflow : Workflow) (action : Action) : Prop :=
  action.type = .IF ∨ action.type = .LOOP ∧ (firstBodyAction workflow action).isSome

/-- What a linearizable workflow needs besides. -/
structure Convertible (workflow : Workflow) : Prop where
  reached : ∀ id ∈ workflow.actionIds, workflow.ReachedFromEntry id
  branchless : ∀ action ∈ workflow.actions, ∀ start ∈ branchStarts workflow action,
    start ∉ workflow.actionIds
  complete : ∀ action ∈ workflow.actions, action.id ≠ "" ∧ action.type.truthy = true ∧
    (action.config.truthy = true ∨ Rebuilds workflow action)
  references : ∀ action ∈ workflow.actions, action.type = .LOOP →
    firstBodyAction workflow action = none →
      ∀ reference ∈ referencesAt action "actions", reference ∈ workflow.actionIds.map Json.str

theorem convert_of_sorted (hcheck : (check workflow).linearizable = true)
    (hsorted : Sorted workflow sorted) :
    convert workflow {} = .ok converted ↔
      converted =
        (rebuildControlFlow workflow workflow.searchDepth sorted).map (cleanupAction {}) ∧
      validateSequentialWorkflow converted = .ok () := by
  have hlinear := linear_of_check hcheck
  rw [convert, if_neg (by simpa using hlinear.format), if_neg hlinear.connections]
  simp only [hcheck, Bool.true_eq_false, if_false, hsorted.sorts]
  show convertSorted workflow {} sorted = _ ↔ _
  simp only [convertSorted, if_true]
  generalize (rebuildControlFlow workflow workflow.searchDepth sorted).map
    (cleanupAction {}) = cleaned
  cases hvalid : validateSequentialWorkflow cleaned with
  | error e =>
      constructor
      · intro h
        cases h
      · rintro ⟨rfl, hok⟩
        rw [hvalid] at hok
        cases hok
  | ok _ =>
      constructor
      · rintro h
        cases h
        exact ⟨rfl, hvalid⟩
      · rintro ⟨rfl, _⟩
        rfl

theorem cleanup_ids (actions : List Action) :
    (actions.map (cleanupAction {})).map Action.id = actions.map Action.id := by
  simp [cleanupAction, Function.comp_def]

theorem config_truthy_rebuilt :
    (rebuilt workflow action).config.truthy = true ↔
      action.config.truthy = true ∨ Rebuilds workflow action := by
  unfold rebuilt Rebuilds
  split
  · next htype => simp [htype, JsValue.truthy, Json.truthy]
  · next htype => split_ifs with hbody <;> simp [htype, hbody, JsValue.truthy, Json.truthy]
  · next hif hloop =>
      have hIF : action.type ≠ .IF := hif
      have hLOOP : action.type ≠ .LOOP := hloop
      simp [hIF, hLOOP]

theorem branchReferences_rebuilt :
    branchReferences (cleanupAction {} (rebuilt workflow action)) =
      if action.type = .LOOP ∧ firstBodyAction workflow action = none then
        referencesAt action "actions"
      else [] := by
  have hne : "thenActions" ≠ "elseActions" := by decide
  unfold branchReferences
  rw [show (cleanupAction {} (rebuilt workflow action)).type = action.type from
    rebuilt_type action]
  cases htype : action.type with
  | IF =>
      simp [branchFields, referencesAt, cleanupAction, rebuilt, htype, Json.child?,
        Fields.lookup_set_ne hne]
  | LOOP =>
      cases hbody : firstBodyAction workflow action with
      | none => simp [branchFields, referencesAt, cleanupAction, rebuilt, htype, hbody]
      | some start =>
          simp [branchFields, referencesAt, cleanupAction, rebuilt, htype, hbody, Json.child?]
  | _ => simp [branchFields]

/-- Where nothing is taken out, the conversion succeeds on complete actions whose loops
name actions, and then gives all sorted actions. -/
theorem convert_of_branchless (hcheck : (check workflow).linearizable = true)
    (hsorted : Sorted workflow sorted)
    (hbranch : ∀ action ∈ sorted, branchActions workflow action = []) :
    convert workflow {} = .ok converted ↔
      converted = (sorted.map (rebuilt workflow)).map (cleanupAction {}) ∧
      (∀ action ∈ sorted, action.id ≠ "" ∧ action.type.truthy = true ∧
        (action.config.truthy = true ∨ Rebuilds workflow action)) ∧
      ∀ action ∈ sorted, action.type = .LOOP → firstBodyAction workflow action = none →
        ∀ reference ∈ referencesAt action "actions",
          reference ∈ (sorted.map Action.id).map Json.str := by
  have hlinear := linear_of_check hcheck
  have hids : ((sorted.map (rebuilt workflow)).map (cleanupAction {})).map Action.id =
      sorted.map Action.id := by
    simp [cleanupAction, Function.comp_def, rebuilt_id]
  rw [convert_of_sorted hcheck hsorted, searchDepth, rebuildControlFlow,
    rebuild_of_branchless hsorted.nodup (by simp)
      (fun action h => hlinear.branches action ((hsorted.mem action).mp h).1) hbranch,
    List.nil_append]
  refine and_congr_right fun hconverted => ?_
  rw [hconverted, validateSequentialWorkflow_ok_iff, hids]
  simp only [hsorted.nodup, true_and, List.forall_mem_map, branchReferences_rebuilt]
  refine and_congr ?_ ?_
  · refine forall₂_congr fun action _ => ?_
    show (rebuilt workflow action).id ≠ "" ∧ (rebuilt workflow action).type.truthy = true ∧
      (rebuilt workflow action).config.truthy = true ↔ _
    rw [rebuilt_id, rebuilt_type, config_truthy_rebuilt]
  · refine forall₂_congr fun action _ => ?_
    by_cases hloop : action.type = .LOOP ∧ firstBodyAction workflow action = none
    · simp [hloop]
    · rw [if_neg hloop]
      rw [not_and] at hloop
      simp only [List.not_mem_nil, false_imp_iff, implies_true, true_iff]
      exact fun htype hbody => absurd hbody (hloop htype)

theorem branchless_of_converted (hnodup : workflow.actionIds.Nodup)
    (hcheck : (check workflow).linearizable = true) (hsorted : Sorted workflow sorted)
    (hconvert : convert workflow {} = .ok converted)
    (hall : ∀ action ∈ workflow.actions, action.id ∈ converted.map Action.id)
    (haction : action ∈ workflow.actions) (hstart : start ∈ branchStarts workflow action) :
    start ∉ workflow.actionIds := by
  intro hmem
  have hconverted : converted.map Action.id = (kept workflow [] sorted).map Action.id := by
    rw [((convert_of_sorted hcheck hsorted).mp hconvert).1, cleanup_ids, searchDepth,
      rebuildControlFlow, rebuild_ids]
    rfl
  rw [hconverted] at hall
  obtain ⟨other, hother⟩ := Option.isSome_iff_exists.mp (getActionById_isSome_iff.mpr hmem)
  obtain ⟨hotherMem, hotherId⟩ := getActionById_eq_some hother
  have hkept : ∀ a ∈ workflow.actions, a ∈ kept workflow [] sorted := by
    intro a ha
    obtain ⟨b, hb, hid⟩ := List.mem_map.mp (hall a ha)
    have hbMem := ((hsorted.mem b).mp (kept_subset hb)).1
    rwa [List.inj_on_of_nodup_map hnodup hbMem ha hid] at hb
  have hconnected : workflow.Connected action.id other.id :=
    hotherId ▸ connected_of_branchStart hstart
  -- an action that leads to itself would lie on a cycle below the entry point
  have hne : other.id ≠ action.id := by
    intro heq
    have hreached := ((hsorted.mem action).mp (kept_subset (hkept action haction))).2
    have hcycles := (linear_of_check hcheck).hasCycles_eq_false
    exact not_cycle_of_reached hcycles hreached (.single (heq ▸ hconnected))
  refine branch_not_kept hsorted.order (hkept action haction) ?_ hconnected hne
    (hall other hotherMem)
  exact mem_branchActions hstart (hotherId ▸ hne) hother

theorem rebuilt_ids (sorted : List Action) :
    ((sorted.map (rebuilt workflow)).map (cleanupAction {})).map Action.id =
      sorted.map Action.id := by
  simp [cleanupAction, Function.comp_def, rebuilt_id]

theorem ConvertsWhole.convertible (hnodup : workflow.actionIds.Nodup)
    (hcheck : (check workflow).linearizable = true) (hsorted : Sorted workflow sorted)
    (h : ConvertsWhole workflow) : Convertible workflow := by
  obtain ⟨converted, hconvert, hcount, _⟩ := h
  have hall : ∀ action ∈ workflow.actions, action.id ∈ converted.map Action.id :=
    fun action haction => List.count_pos_iff.mp (by rw [hcount action haction]; exact one_pos)
  have hbranchless : ∀ action ∈ workflow.actions, ∀ start ∈ branchStarts workflow action,
      start ∉ workflow.actionIds := fun action haction start hstart =>
    branchless_of_converted hnodup hcheck hsorted hconvert hall haction hstart
  have hbranch : ∀ action ∈ sorted, branchActions workflow action = [] := fun action haction =>
    branchActions_eq_nil (hbranchless action ((hsorted.mem action).mp haction).1)
  obtain ⟨hconverted, hcomplete, hreferences⟩ :=
    (convert_of_branchless hcheck hsorted hbranch).mp hconvert
  have hsortedMem : ∀ action ∈ workflow.actions, action ∈ sorted := by
    intro action haction
    have hid := hall action haction
    rw [hconverted, rebuilt_ids] at hid
    obtain ⟨other, hother, hid⟩ := List.mem_map.mp hid
    have hotherMem := ((hsorted.mem other).mp hother).1
    rwa [List.inj_on_of_nodup_map hnodup hotherMem haction hid] at hother
  refine ⟨?_, hbranchless, fun action haction => hcomplete action (hsortedMem action haction), ?_⟩
  · intro id hid
    obtain ⟨action, haction, rfl⟩ := List.mem_map.mp hid
    exact ((hsorted.mem action).mp (hsortedMem action haction)).2
  · intro action haction htype hbody reference hreference
    have hmem := hreferences action (hsortedMem action haction) htype hbody reference hreference
    obtain ⟨id, hid, rfl⟩ := List.mem_map.mp hmem
    obtain ⟨other, hother, rfl⟩ := List.mem_map.mp hid
    exact List.mem_map_of_mem (List.mem_map_of_mem ((hsorted.mem other).mp hother).1)

theorem Convertible.convertsWhole (hcheck : (check workflow).linearizable = true)
    (hsorted : Sorted workflow sorted) (h : Convertible workflow) : ConvertsWhole workflow := by
  have hsortedMem : ∀ action, action ∈ sorted ↔ action ∈ workflow.actions := fun action =>
    (hsorted.mem action).trans (and_iff_left_of_imp fun haction =>
      h.reached action.id (List.mem_map_of_mem haction))
  have hbranch : ∀ action ∈ sorted, branchActions workflow action = [] := fun action haction =>
    branchActions_eq_nil (h.branchless action ((hsortedMem action).mp haction))
  have hids : ∀ reference, reference ∈ (sorted.map Action.id).map Json.str ↔
      reference ∈ workflow.actionIds.map Json.str := by
    intro reference
    simp only [List.mem_map, hsortedMem, actionIds]
  have hconvert := (convert_of_branchless hcheck hsorted hbranch).mpr ⟨rfl,
    fun action haction => h.complete action ((hsortedMem action).mp haction),
    fun action haction htype hbody reference hreference => (hids reference).mpr
      (h.references action ((hsortedMem action).mp haction) htype hbody reference hreference)⟩
  have hvalid := ((convert_of_sorted hcheck hsorted).mp hconvert).2
  obtain ⟨_, _, hreferences⟩ := validateSequentialWorkflow_ok_iff.mp hvalid
  refine ⟨_, hconvert, fun action haction => ?_, hreferences⟩
  rw [rebuilt_ids]
  exact List.count_eq_one_of_mem hsorted.nodup
    (List.mem_map_of_mem ((hsortedMem action).mpr haction))

/-- A linearizable workflow converts whole exactly if it is convertible. -/
theorem converts_whole_iff (workflow : Workflow) (hnodup : workflow.actionIds.Nodup)
    (h : (canLinearize workflow).linearizable = true) :
    ConvertsWhole workflow ↔ Convertible workflow := by
  have hcheck : (check workflow).linearizable = true := by
    unfold canLinearize at h
    split_ifs at h
    exact h
  obtain ⟨sorted, hsorted⟩ := sorted_of_linear (linear_of_check hcheck) hnodup
  exact ⟨ConvertsWhole.convertible hnodup hcheck hsorted, Convertible.convertsWhole hcheck hsorted⟩

/-- An IF action with one action in each branch. -/
def guarded : Workflow where
  id := "w"
  name := "guarded"
  version := "1.0.0"
  format := "graph"
  actions := [
    { id := "check", type := .IF, config := some (.obj []) },
    { id := "yes", type := .other "CLICK" ActionType.click_plain, config := some (.obj []) },
    { id := "no", type := .other "CLICK" ActionType.click_plain, config := some (.obj []) }]
  connections := ⟨[("check", { main := some [
    [{ action := "yes", type := "main", index := 0 }],
    [{ action := "no", type := "main", index := 0 }]] })], by decide⟩

theorem converts_whole_iff_guarded : ConvertsWhole guarded ↔ Convertible guarded :=
  converts_whole_iff guarded (by decide) (by decide)

/-- It is linearizable, and its conversion throws. -/
theorem linearizable_not_converted :
    guarded.actionIds.Nodup ∧ (canLinearize guarded).linearizable = true ∧
      convert guarded {} = .error
        (.workflowValidation "Action check references non-existent action: yes") := by
  decide

end Qontinui.GraphToSequential
