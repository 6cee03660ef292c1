import Mathlib.Data.Set.Function
import Qontinui.Canvas.ConnectedActions

/-!
A copy and the paste after it: the selected actions and the connections between
them once more under new ids, beside a workflow that is otherwise as it was. A
copy of nothing keeps the clipboard, so the paste after it brings what an earlier
copy took.
-/

namespace Qontinui

/-- The connections at `connections[id][type][outputIndex]`. -/
def Connections.atOutput (connections : Connections) (id : String) (type : ConnectionType)
    (outputIndex : Nat) : List Connection :=
  (((connections.get? id).bind fun outputs => outputs.get type).bind fun lists =>
    lists[outputIndex]?).getD []

namespace Canvas

open Runs

def selectedActions (workflow : Workflow) (selectedNodes : List String) : List Action :=
  workflow.actions.filter (·.id ∈ selectedNodes)

/-- The ids generated for the selected actions are pairwise different, and no action has
one of them. -/
structure FreshIds (workflow : Workflow) (selectedNodes : List String)
    (suffixes : Nat → String) : Prop where
  distinct : ∀ i < (selectedActions workflow selectedNodes).length,
    ∀ j < (selectedActions workflow selectedNodes).length,
      generateActionId (suffixes i) = generateActionId (suffixes j) → i = j
  fresh : ∀ i < (selectedActions workflow selectedNodes).length,
    generateActionId (suffixes i) ∉ workflow.actionIds

/-- `pasted` is the workflow and a copy of its selected part under `rename`, shifted by
`offset`. -/
structure CopiesSelection (workflow pasted : Workflow) (selectedNodes : List String)
    (suffixes : Nat → String) (rename : String → String) (offset : Offset) : Prop where
  actions : pasted.actions = workflow.actions ++
    (selectedActions workflow selectedNodes).mapIdx fun index action =>
      { action with
        id := generateActionId (suffixes index)
        position := positionOf (coordinate action.position 0 + offset.x)
          (coordinate action.position 1 + offset.y) }
  /-- The new id of a selected id is that of a clone of an action with it. -/
  renames : ∀ id ∈ selectedNodes, ∃ index action,
    (selectedActions workflow selectedNodes)[index]? = some action ∧ action.id = id ∧
      rename id = generateActionId (suffixes index)
  injective : Set.InjOn rename {id | id ∈ selectedNodes}
  copied : ∀ id ∈ selectedNodes, ∀ type outputIndex,
    pasted.connections.atOutput (rename id) type outputIndex =
      ((workflow.connections.atOutput id type outputIndex).filter
        (·.action ∈ selectedNodes)).map fun conn => { conn with action := rename conn.action }
  separate : ∀ id ∈ selectedNodes, workflow.connections.get? (rename id) = none
  kept : ∀ id, (∀ selected ∈ selectedNodes, id ≠ rename selected) →
    pasted.connections.get? id = workflow.connections.get? id
  others : { pasted with actions := workflow.actions, connections := workflow.connections } =
    workflow

section Connections

variable {connections : Connections}

theorem get?_foldl_copy (connections : Connections) (selectedNodes : List String) (id : String)
    (nodeIds : List String) (built : Connections) :
    (nodeIds.foldl (fun connectionsToCopy nodeId =>
      match connections.get? nodeId with
      | none => connectionsToCopy
      | some outputs => connectionsToCopy.set nodeId (filterTargets (· ∈ selectedNodes) outputs))
      built).get? id =
    if id ∈ nodeIds ∧ (connections.get? id).isSome then
      (connections.get? id).map (filterTargets (· ∈ selectedNodes))
    else built.get? id := by
  induction nodeIds generalizing built with
  | nil => simp
  | cons nodeId rest ih =>
      rw [List.foldl_cons, ih]
      by_cases hid : id = nodeId
      · subst hid
        cases hget : connections.get? id <;> simp
      · cases connections.get? nodeId with
        | none => simp [hid]
        | some outputs => simp [hid, ObjectMap.get?_set_ne _ hid]

theorem get?_copyConnections (connections : Connections) (selectedNodes : List String)
    (id : String) :
    (copyConnections connections selectedNodes).get? id =
      if id ∈ selectedNodes then
        (connections.get? id).map (filterTargets (· ∈ selectedNodes))
      else none := by
  refine (get?_foldl_copy connections selectedNodes id selectedNodes .empty).trans ?_
  cases connections.get? id <;> simp

theorem entries_updateConnections {oldToNewIdMap : ObjectMap String}
    (hinj : Set.InjOn (renamed oldToNewIdMap) {id | id ∈ connections.keys}) :
    (updateConnectionsForClonedActions connections oldToNewIdMap).entries =
      connections.entries.map fun entry => (renamed oldToNewIdMap entry.1,
        mapOutputs (List.map fun conn =>
          { conn with action := renamed oldToNewIdMap conn.action }) entry.2) := by
  refine (ObjectMap.entries_foldl_set _ _ _ .empty).trans ?_
  refine (Fields.foldl_set_of_nodup ?_).trans (List.nil_append _)
  have hkeys := connections.nodup.map_on fun a ha b hb => hinj ha hb
  simpa [ObjectMap.empty, ObjectMap.keys, Function.comp_def] using hkeys

theorem get?_foldl_merge (id : String) {entries : List (String × Outputs)}
    (hnodup : (entries.map Prod.fst).Nodup) (built : Connections) :
    (entries.foldl (fun connections (sourceId, pasted) =>
      connections.set sourceId
        (mergeOutputs ((connections.get? sourceId).getD {}) pasted)) built).get? id =
    match entries.lookup id with
    | none => built.get? id
    | some pasted => some (mergeOutputs ((built.get? id).getD {}) pasted) := by
  induction entries generalizing built with
  | nil => rfl
  | cons entry rest ih =>
      obtain ⟨key, pasted⟩ := entry
      obtain ⟨hkey, hrest⟩ := List.nodup_cons.mp hnodup
      rw [List.foldl_cons, ih hrest, Fields.lookup_cons]
      by_cases hid : key = id
      · subst hid
        have habsent : rest.lookup key = none := by
          rw [← Option.not_isSome_iff_eq_none, Fields.lookup_isSome_iff]
          exact hkey
        simp [habsent]
      · rw [if_neg hid, ObjectMap.get?_set_ne _ (Ne.symm hid)]

theorem get?_mergeConnections (connections newConnections : Connections) (id : String) :
    (mergeConnections connections newConnections).get? id =
      match newConnections.get? id with
      | none => connections.get? id
      | some pasted => some (mergeOutputs ((connections.get? id).getD {}) pasted) :=
  get?_foldl_merge id newConnections.nodup connections

end Connections

section Pasting

variable {workflow : Workflow} {selectedNodes : List String} {offset : Offset}
  {suffixes : Nat → String}

def pastedId (workflow : Workflow) (selectedNodes : List String) (offset : Offset)
    (suffixes : Nat → String) (id : String) : String :=
  let nodes := selectedActions workflow selectedNodes
  renamed (Store.oldToNewIdMap nodes (Store.clones nodes offset suffixes)) id

variable {id : String}

section

variable (hselected : ∀ id ∈ selectedNodes, id ∈ workflow.actionIds)
include hselected

theorem exists_pastedId (offset : Offset) (suffixes : Nat → String) (hid : id ∈ selectedNodes) :
    ∃ index action, (selectedActions workflow selectedNodes)[index]? = some action ∧
      action.id = id ∧
      pastedId workflow selectedNodes offset suffixes id = generateActionId (suffixes index) := by
  obtain ⟨action, haction, rfl⟩ := List.mem_map.mp (hselected id hid)
  exact exists_renamed (List.mem_map_of_mem (List.mem_filter.mpr ⟨haction, decide_eq_true hid⟩))

section

variable (hfresh : FreshIds workflow selectedNodes suffixes)
include hfresh

theorem pastedId_injOn :
    Set.InjOn (pastedId workflow selectedNodes offset suffixes) {id | id ∈ selectedNodes} := by
  intro a ha b hb hab
  obtain ⟨i, first, hi, rfl, hfirst⟩ := exists_pastedId hselected offset suffixes ha
  obtain ⟨j, second, hj, rfl, hsecond⟩ := exists_pastedId hselected offset suffixes hb
  rw [hfirst, hsecond] at hab
  have hij := hfresh.distinct i (List.getElem?_eq_some_iff.mp hi).1 j
    (List.getElem?_eq_some_iff.mp hj).1 hab
  subst hij
  rw [Option.some.inj (hi.symm.trans hj)]

theorem pastedId_fresh (hconnects : workflow.ConnectsActions) (hid : id ∈ selectedNodes) :
    workflow.connections.get? (pastedId workflow selectedNodes offset suffixes id) = none := by
  obtain ⟨index, action, hindex, -, hnew⟩ := exists_pastedId hselected offset suffixes hid
  rw [hnew, ← Option.not_isSome_iff_eq_none, Option.isSome_iff_exists]
  rintro ⟨outputs, hget⟩
  refine hfresh.fresh index (List.getElem?_eq_some_iff.mp hindex).1 (hconnects _ ?_)
  exact Connections.names_iff.mpr (.inl (ObjectMap.mem_keys_iff.mpr ⟨outputs, hget⟩))

/-- The connections on the clipboard under their new ids. -/
theorem get?_pasted {newId : String} {outputs : Outputs} :
    let nodes := selectedActions workflow selectedNodes
    (updateConnectionsForClonedActions (copyConnections workflow.connections selectedNodes)
        (Store.oldToNewIdMap nodes (Store.clones nodes offset suffixes))).get? newId =
          some outputs ↔
      ∃ id ∈ selectedNodes, newId = pastedId workflow selectedNodes offset suffixes id ∧
        ∃ original, workflow.connections.get? id = some original ∧
          outputs = mapOutputs (List.map fun conn =>
            { conn with action := pastedId workflow selectedNodes offset suffixes conn.action })
            (filterTargets (· ∈ selectedNodes) original) := by
  intro nodes
  have hkeys : ∀ id ∈ (copyConnections workflow.connections selectedNodes).keys,
      id ∈ selectedNodes := by
    intro id hid
    obtain ⟨outputs, hget⟩ := ObjectMap.mem_keys_iff.mp hid
    by_contra hnot
    rw [get?_copyConnections, if_neg hnot] at hget
    cases hget
  rw [ObjectMap.get?_eq_some_iff,
    entries_updateConnections ((pastedId_injOn hselected hfresh).mono hkeys), List.mem_map]
  constructor
  · rintro ⟨entry, hentry, heq⟩
    obtain ⟨rfl, rfl⟩ := Prod.mk.inj heq
    have hget := ObjectMap.get?_eq_some_iff.mpr hentry
    have hid := hkeys entry.1 (ObjectMap.mem_keys_iff.mpr ⟨_, hget⟩)
    rw [get?_copyConnections, if_pos hid, Option.map_eq_some_iff] at hget
    obtain ⟨original, horiginal, hfiltered⟩ := hget
    exact ⟨entry.1, hid, rfl, original, horiginal, by rw [hfiltered]; rfl⟩
  · rintro ⟨id, hid, rfl, original, horiginal, rfl⟩
    refine ⟨(id, filterTargets (· ∈ selectedNodes) original), ?_, rfl⟩
    rw [← ObjectMap.get?_eq_some_iff, get?_copyConnections, if_pos hid, horiginal]
    rfl

theorem get?_pasteInto (hconnects : workflow.ConnectsActions) (hid : id ∈ selectedNodes) :
    let nodes := selectedActions workflow selectedNodes
    (Store.pasteInto workflow nodes (Store.clones nodes offset suffixes)
        (copyConnections workflow.connections selectedNodes)).connections.get?
          (pastedId workflow selectedNodes offset suffixes id) =
      (workflow.connections.get? id).map fun original =>
        mapOutputs (List.map fun conn =>
          { conn with action := pastedId workflow selectedNodes offset suffixes conn.action })
          (filterTargets (· ∈ selectedNodes) original) := by
  intro nodes
  refine (get?_mergeConnections _ _ _).trans ?_
  rw [pastedId_fresh hselected hfresh hconnects hid]
  cases horiginal : workflow.connections.get? id with
  | none =>
      split
      · rfl
      · next pasted hpasted =>
          obtain ⟨other, hother, heq, original, hsome, -⟩ :=
            (get?_pasted hselected hfresh).mp hpasted
          rw [← pastedId_injOn hselected hfresh hid hother heq, horiginal] at hsome
          cases hsome
  | some original =>
      rw [(get?_pasted hselected hfresh).mpr ⟨id, hid, rfl, original, horiginal, rfl⟩]
      simp [mergeOutputs]

end

end

theorem pasteInto_copiesSelection (hconnects : workflow.ConnectsActions)
    (hselected : ∀ id ∈ selectedNodes, id ∈ workflow.actionIds)
    (hfresh : FreshIds workflow selectedNodes suffixes) (offset : Offset) :
    let nodes := selectedActions workflow selectedNodes
    CopiesSelection workflow
      (Store.pasteInto workflow nodes (Store.clones nodes offset suffixes)
        (copyConnections workflow.connections selectedNodes))
      selectedNodes suffixes (pastedId workflow selectedNodes offset suffixes) offset where
  actions := rfl
  renames id hid := exists_pastedId hselected offset suffixes hid
  injective := pastedId_injOn hselected hfresh
  separate id hid := pastedId_fresh hselected hfresh hconnects hid
  others := rfl
  kept := by
    intro id hid
    refine (get?_mergeConnections _ _ id).trans ?_
    split
    · rfl
    · next pasted hpasted =>
        obtain ⟨selected, hselectedId, heq, -⟩ := (get?_pasted hselected hfresh).mp hpasted
        exact absurd heq (hid selected hselectedId)
  copied := by
    intro id hid type outputIndex
    rw [Connections.atOutput, Connections.atOutput, get?_pasteInto hselected hfresh hconnects hid]
    cases workflow.connections.get? id with
    | none => rfl
    | some original =>
        simp only [Option.map_some, Option.bind_some, filterTargets, get_mapOutputs]
        cases original.get type with
        | none => rfl
        | some lists => cases h : lists[outputIndex]? <;> simp [h]

/-- A copy of existing actions and the paste after it copy the selection, unless nothing is
selected and the clipboard holds what an earlier copy took. -/
theorem paste_copies_selection (store : Store) (workflow : Workflow) (position : Option Offset)
    (suffixes : Nat → String) (hworkflow : store.workflow = some workflow)
    (hconnects : workflow.ConnectsActions)
    (hselected : ∀ id ∈ store.selectedNodes, id ∈ workflow.actionIds)
    (hfresh : FreshIds workflow store.selectedNodes suffixes)
    (hcopied : store.selectedNodes ≠ [] ∨ store.clipboardNodes = []) :
    ∃ pasted rename offset, (store.copy.paste position suffixes).workflow = some pasted ∧
      CopiesSelection workflow pasted store.selectedNodes suffixes rename offset := by
  by_cases hnone : store.selectedNodes = []
  · have hcopy : store.copy = store := by
      unfold Store.copy
      split
      · rfl
      · rw [if_pos hnone]
    have hempty := hcopied.resolve_left (not_not_intro hnone)
    refine ⟨workflow, id, ⟨0, 0⟩, ?_, ?_⟩
    · rw [hcopy, paste_of_empty position suffixes hempty, hworkflow]
    · rw [hnone]
      constructor <;> simp [selectedActions]
  · obtain ⟨selected, hmem⟩ := List.exists_mem_of_ne_nil _ hnone
    obtain ⟨action, haction, rfl⟩ := List.mem_map.mp (hselected selected hmem)
    have hnodes : selectedActions workflow store.selectedNodes ≠ [] :=
      List.ne_nil_of_mem (List.mem_filter.mpr ⟨haction, decide_eq_true hmem⟩)
    have hcopy : store.copy =
        { store with
          clipboardNodes := selectedActions workflow store.selectedNodes
          clipboardConnections := copyConnections workflow.connections store.selectedNodes } := by
      simp only [Store.copy, hworkflow, if_neg hnone, selectedActions]
    refine ⟨_, _, Store.pasteOffset (selectedActions workflow store.selectedNodes) position, ?_,
      pasteInto_copiesSelection hconnects hselected hfresh _⟩
    rw [hcopy]
    simp only [Store.paste, hworkflow, if_neg hnodes, workflow_recordHistory]

end Pasting

def oneSelected : Store := run step {} [.setWorkflow twoClicks, .selectNode "a" false]

theorem paste_copies_selection_oneSelected :
    ∃ pasted rename offset, (oneSelected.copy.paste none toString).workflow = some pasted ∧
      CopiesSelection twoClicks pasted oneSelected.selectedNodes toString rename offset :=
  paste_copies_selection oneSelected twoClicks none toString rfl connects_twoClicks (by decide)
    ⟨by decide, by decide⟩ (.inl (by decide))

/-- The click that was copied before the selection was cleared is pasted again. -/
theorem paste_of_earlier_copy :
    ¬ ∀ (store : Store) (workflow : Workflow) (position : Option Offset) (suffixes : Nat → String),
      store.workflow = some workflow → workflow.ConnectsActions →
      (∀ id ∈ store.selectedNodes, id ∈ workflow.actionIds) →
      FreshIds workflow store.selectedNodes suffixes →
      ∃ pasted rename offset, (store.copy.paste position suffixes).workflow = some pasted ∧
        CopiesSelection workflow pasted store.selectedNodes suffixes rename offset := by
  intro h
  obtain ⟨pasted, rename, offset, hpasted, hcopies⟩ :=
    h (run step {} [.setWorkflow twoClicks, .selectNode "a" false, .copy, .clearSelection])
      twoClicks none toString rfl connects_twoClicks (by decide) ⟨by decide, by decide⟩
  have hlength : pasted.actions.length = 2 := by
    rw [hcopies.actions, List.length_append, List.length_mapIdx]
    rfl
  cases hpasted
  revert hlength
  decide

end Canvas
end Qontinui
