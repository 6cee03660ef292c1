import Qontinui.Base.ListEdit
import Qontinui.Canvas.History
import Qontinui.Canvas.NamedActions

/-!
Connections between actions that exist. The operations keep them so, through the
history and the clipboard too, but for two: a connecting gesture is completed
from an action that is gone by then, and an update gives an action another id.
-/

namespace Qontinui

def Workflow.ConnectsActions (workflow : Workflow) : Prop :=
  ∀ id, workflow.connections.Names id → id ∈ workflow.actionIds

instance (workflow : Workflow) : Decidable workflow.ConnectsActions :=
  decidable_of_iff
    (∀ id ∈ workflow.connections.keys ++ workflow.connections.targets, id ∈ workflow.actionIds)
    (forall_congr' fun id => by
      rw [List.mem_append, Connections.names_iff])

namespace Canvas

open Runs

def Store.HasAction (store : Store) (id : String) : Prop :=
  ∃ workflow, store.workflow = some workflow ∧ id ∈ workflow.actionIds

def NoDangling (store : Store) : Prop :=
  ∀ workflow, store.workflow = some workflow → workflow.ConnectsActions

/-- Workflow, snapshots and clipboard connect only actions they hold. -/
structure Connected (store : Store) : Prop where
  workflow : NoDangling store
  history : ∀ state ∈ store.history, state.workflow.ConnectsActions
  clipboard : ∀ id, store.clipboardConnections.Names id →
    id ∈ store.clipboardNodes.map Action.id

/-- The ids that an operation connects are actions at the time of the call, and a
workflow that is set connects its actions. -/
def ConnectsPresent (store : Store) : Op → Prop
  | .setWorkflow workflow => workflow.ConnectsActions
  | .addConnection sourceId _ _ targetId _ => store.HasAction sourceId ∧ store.HasAction targetId
  | .finishConnecting targetId _ => store.HasAction targetId
  | _ => True

/-- The action that a completed gesture started from is still there, and an action
that connections name keeps its id. -/
def KeepsNamed (store : Store) : Op → Prop
  | .finishConnecting _ _ =>
      ∀ source, store.connectingFrom = some source → store.HasAction source.actionId
  | .updateAction actionId updates =>
      ∀ workflow newId, store.workflow = some workflow → updates.id = some newId →
        newId = actionId ∨ ¬ workflow.connections.Names actionId ∨
          1 < workflow.actionIds.count actionId
  | _ => True

section Edits

variable {workflow : Workflow}

theorem connects_of_subset {edited : Workflow} (h : workflow.ConnectsActions)
    (hnames : ∀ id, edited.connections.Names id → workflow.connections.Names id)
    (hids : ∀ id ∈ workflow.actionIds, id ∈ edited.actionIds) : edited.ConnectsActions :=
  fun id hid => hids id (h id (hnames id hid))

theorem actionIds_modifyAction (workflow : Workflow) (actionId newId : String)
    {change : Action → Action}
    (hchange : ∀ action, action.id = actionId → (change action).id = newId) :
    (modifyAction workflow actionId change).actionIds =
      workflow.actionIds.replace actionId newId := by
  simp only [modifyAction, Workflow.actionIds]
  induction workflow.actions with
  | nil => rfl
  | cons action rest ih =>
      rw [List.findIdx_cons, List.map_cons, List.replace_cons]
      by_cases h : action.id = actionId
      · simp [h, hchange action h]
      · have hne : (actionId == action.id) = false := beq_eq_false_iff_ne.mpr (Ne.symm h)
        simpa [h, hne] using ih

section

variable (h : workflow.ConnectsActions)
include h

theorem connects_modifyAction_iff (actionId newId : String) {change : Action → Action}
    (hchange : ∀ action, action.id = actionId → (change action).id = newId) :
    (modifyAction workflow actionId change).ConnectsActions ↔
      newId = actionId ∨ ¬ workflow.connections.Names actionId ∨
        1 < workflow.actionIds.count actionId := by
  have hids := actionIds_modifyAction workflow actionId newId hchange
  constructor
  · intro hmodified
    by_cases hnames : workflow.connections.Names actionId
    · have hid := hmodified actionId hnames
      rw [hids, ListEdit.mem_replace_self_iff] at hid
      rcases hid with ⟨hsame, -⟩ | hcount
      · exact .inl hsame.symm
      · exact .inr (.inr hcount)
    · exact .inr (.inl hnames)
  · intro hkept id hid
    rw [hids]
    by_cases heq : id = actionId
    · subst heq
      rw [ListEdit.mem_replace_self_iff]
      rcases hkept with hsame | hunnamed | hcount
      · exact .inl ⟨hsame.symm, h id hid⟩
      · exact absurd hid hunnamed
      · exact .inr hcount
    · exact ListEdit.mem_replace_of_ne (h id hid) heq

theorem connects_movePositions (updates : List (String × Rat × Rat)) :
    (movePositions workflow updates).ConnectsActions := by
  unfold movePositions
  induction updates generalizing workflow with
  | nil => exact h
  | cons update rest ih =>
      obtain ⟨actionId, x, y⟩ := update
      have hmoved : (modifyAction workflow actionId fun action =>
          { action with position := positionOf x y }).ConnectsActions := by
        refine (connects_modifyAction_iff h actionId actionId ?_).mpr (.inl rfl)
        exact fun _ hid => hid
      exact ih hmoved

theorem connects_removeActions (actionIds : List String) :
    (removeActions workflow actionIds).ConnectsActions := by
  intro id hid
  obtain ⟨hnames, hkept⟩ := names_removeActions hid
  obtain ⟨action, haction, rfl⟩ := List.mem_map.mp (h id hnames)
  exact List.mem_map.mpr ⟨action, List.mem_filter.mpr ⟨haction, decide_eq_true hkept⟩, rfl⟩

theorem connects_connect_iff {sourceId outputType targetId : String} {outputIndex targetIndex : Int}
    (htarget : targetId ∈ workflow.actionIds) :
    (connect workflow sourceId outputType outputIndex targetId targetIndex).ConnectsActions ↔
      sourceId ∈ workflow.actionIds := by
  constructor
  · intro hconnected
    exact hconnected sourceId (Connections.names_set_source _ _ _)
  · intro hsource id hid
    rcases names_connect hid with hold | rfl | rfl
    · exact h id hold
    · exact hsource
    · exact htarget

end

theorem actionIds_disconnect {disconnected : Workflow} {sourceId outputType targetId : String}
    {outputIndex : Int}
    (h : disconnect workflow sourceId outputType outputIndex targetId = some disconnected) :
    disconnected.actionIds = workflow.actionIds := by
  simp only [disconnect, Option.bind_eq_bind, Option.bind_eq_some_iff, Option.pure_def,
    Option.some.injEq] at h
  obtain ⟨sourceConns, -, type, -, outputs, -, rfl⟩ := h
  rfl

end Edits

section Paste

variable {nodes : List Action} {offset : Offset} {suffixes : Nat → String}

theorem exists_renamed {id : String} (hid : id ∈ nodes.map Action.id) :
    ∃ index action, nodes[index]? = some action ∧ action.id = id ∧
      renamed (Store.oldToNewIdMap nodes (Store.clones nodes offset suffixes)) id =
        generateActionId (suffixes index) := by
  let pairs := (nodes.zip (Store.clones nodes offset suffixes)).map fun pair =>
    (pair.1.id, pair.2.id)
  have hpairs : pairs = nodes.mapIdx fun index action =>
      (action.id, generateActionId (suffixes index)) := by
    refine List.ext_getElem (by simp [pairs, Store.clones]) fun index hleft hright => ?_
    simp [pairs, Store.clones, cloneAction]
  have hlookup : (Store.oldToNewIdMap nodes (Store.clones nodes offset suffixes)).get? id =
      ((pairs.reverse.find? fun entry => entry.1 = id).map Prod.snd).or none :=
    (congrArg (List.lookup id) (ObjectMap.entries_foldl_set _ _ _ .empty)).trans
      (Fields.lookup_foldl_set id pairs [])
  obtain ⟨entry, hfind⟩ : ∃ entry, pairs.reverse.find? (fun entry => entry.1 = id) =
      some entry := by
    obtain ⟨action, haction, rfl⟩ := List.mem_map.mp hid
    obtain ⟨index, hindex, rfl⟩ := List.mem_iff_getElem.mp haction
    rw [← Option.isSome_iff_exists, List.find?_isSome]
    refine ⟨(nodes[index].id, generateActionId (suffixes index)), ?_, by simp⟩
    rw [List.mem_reverse, hpairs]
    exact List.mem_mapIdx.mpr ⟨index, hindex, rfl⟩
  have hmem := List.mem_of_find?_eq_some hfind
  rw [List.mem_reverse, hpairs] at hmem
  obtain ⟨index, hindex, rfl⟩ := List.mem_mapIdx.mp hmem
  refine ⟨index, nodes[index], by simp [hindex], by simpa using List.find?_some hfind, ?_⟩
  have hne : generateActionId (suffixes index) ≠ "" := by simp [generateActionId]
  rw [renamed, hlookup, hfind]
  simp [Option.filter, hne]

theorem connects_pasteInto {workflow : Workflow} (h : workflow.ConnectsActions)
    {clipboardConnections : Connections}
    (hclipboard : ∀ id, clipboardConnections.Names id → id ∈ nodes.map Action.id) :
    (Store.pasteInto workflow nodes (Store.clones nodes offset suffixes)
      clipboardConnections).ConnectsActions := by
  intro id hid
  have hmem : (Store.pasteInto workflow nodes (Store.clones nodes offset suffixes)
      clipboardConnections).actionIds =
        workflow.actionIds ++ (Store.clones nodes offset suffixes).map Action.id :=
    List.map_append
  rw [hmem, List.mem_append]
  rcases names_mergeConnections hid with hold | hpasted
  · exact .inl (h id hold)
  · obtain ⟨old, hold, rfl⟩ := names_updateConnections hpasted
    obtain ⟨index, action, hindex, -, heq⟩ := exists_renamed (hclipboard old hold)
    rw [heq]
    refine .inr (List.mem_map_of_mem (List.mem_mapIdx.mpr ⟨index, ?_, rfl⟩))
    exact (List.getElem?_eq_some_iff.mp hindex).1

end Paste

section Steps

variable {store : Store}

theorem noDangling_recordHistory {description : Option String} :
    NoDangling (store.recordHistory description) ↔ NoDangling store := by
  simp [NoDangling]

theorem noDangling_edit (h : NoDangling store) {change : Workflow → Workflow}
    (hchange : ∀ workflow, workflow.ConnectsActions → (change workflow).ConnectsActions) :
    NoDangling (store.edit change) := by
  intro edited hedited
  rw [workflow_edit, Option.map_eq_some_iff] at hedited
  obtain ⟨workflow, hworkflow, rfl⟩ := hedited
  exact hchange workflow (h workflow hworkflow)

theorem noDangling_addAction (h : NoDangling store) (action : Action) :
    NoDangling (store.addAction action) := by
  refine noDangling_recordHistory.mpr (noDangling_edit h fun workflow hworkflow => ?_)
  refine connects_of_subset hworkflow (fun _ hid => hid) fun id hid => ?_
  simp only [Workflow.actionIds, List.map_append, List.mem_append]
  exact .inl hid

theorem getActionById_isSome_iff (actionId : String) :
    (store.getActionById actionId).isSome ↔ store.HasAction actionId := by
  simp [Store.getActionById, Store.HasAction, Workflow.actionIds, Option.isSome_bind,
    Option.any_eq_true]

section

variable (h : NoDangling store)
include h

theorem noDangling_updateAction_iff (actionId : String) (updates : ActionUpdates) :
    NoDangling (store.updateAction actionId updates) ↔
      KeepsNamed store (.updateAction actionId updates) := by
  rw [Store.updateAction, noDangling_recordHistory]
  split
  · next hfound =>
      obtain ⟨workflow, hworkflow, hid⟩ := (getActionById_isSome_iff actionId).mp hfound
      have hrenamed : ∀ action : Action, action.id = actionId →
          (applyUpdates updates action).id = updates.id.getD actionId := by
        rintro action rfl
        rfl
      have hmodified := connects_modifyAction_iff (h workflow hworkflow) actionId _ hrenamed
      simp only [NoDangling, workflow_edit, hworkflow, Option.map_some, Option.some.injEq,
        forall_eq', hmodified, KeepsNamed]
      cases updates.id <;> simp
  · next hmissing =>
      refine iff_of_true h fun workflow newId hworkflow _ => .inr (.inl fun hnames => hmissing ?_)
      exact (getActionById_isSome_iff actionId).mpr
        ⟨workflow, hworkflow, h workflow hworkflow actionId hnames⟩

theorem noDangling_remove (actionIds : List String) : NoDangling (store.remove actionIds) := by
  intro edited hedited
  rw [workflow_remove, Option.map_eq_some_iff] at hedited
  obtain ⟨workflow, hworkflow, rfl⟩ := hedited
  exact connects_removeActions (h workflow hworkflow) actionIds

theorem noDangling_deleteConnection (sourceId outputType : String) (outputIndex : Int)
    (targetId : String) :
    NoDangling (store.deleteConnection sourceId outputType outputIndex targetId) := by
  apply noDangling_recordHistory.mpr
  split
  · exact h
  · next disconnected hdisconnected =>
      obtain ⟨workflow, hworkflow, hsome⟩ := Option.bind_eq_some_iff.mp hdisconnected
      have hids : disconnected.actionIds = workflow.actionIds := actionIds_disconnect hsome
      rintro edited ⟨⟩
      refine connects_of_subset (h workflow hworkflow) (fun id => names_disconnect hsome) ?_
      rw [hids]
      exact fun id hid => hid

theorem noDangling_addConnection_iff {targetId : String} (htarget : store.HasAction targetId)
    (sourceId outputType : String) (outputIndex targetIndex : Int) :
    NoDangling (store.addConnection sourceId outputType outputIndex targetId targetIndex) ↔
      store.HasAction sourceId := by
  obtain ⟨workflow, hworkflow, hid⟩ := htarget
  rw [Store.addConnection, noDangling_recordHistory]
  simp only [NoDangling, Store.HasAction, hworkflow, Option.some.injEq, forall_eq',
    exists_eq_left']
  exact connects_connect_iff (h workflow hworkflow) hid

end

theorem Connected.undo (h : Connected store) : NoDangling store.undo := by
  unfold Store.undo
  split
  · exact h.workflow
  · dsimp only
    split
    · exact h.workflow
    · next state hstate =>
        rintro workflow ⟨⟩
        exact h.history state (List.mem_of_getElem? hstate)

theorem Connected.redo (h : Connected store) : NoDangling store.redo := by
  unfold Store.redo
  split
  · exact h.workflow
  · dsimp only
    split
    · exact h.workflow
    · next state hstate =>
        rintro workflow ⟨⟩
        exact h.history state (List.mem_of_getElem? hstate)

theorem Connected.copy (h : Connected store) : Connected store.copy := by
  have hsame := sameDocument_copy store
  refine ⟨?_, ?_, ?_⟩
  · rw [NoDangling, hsame.workflow]
    exact h.workflow
  · rw [hsame.history]
    exact h.history
  · unfold Store.copy
    split
    · exact h.clipboard
    · next workflow hworkflow =>
        split
        · exact h.clipboard
        · intro id hid
          obtain ⟨hnames, hselected⟩ := names_copyConnections hid
          obtain ⟨action, haction, rfl⟩ :=
            List.mem_map.mp (h.workflow workflow hworkflow id hnames)
          exact List.mem_map.mpr
            ⟨action, List.mem_filter.mpr ⟨haction, decide_eq_true hselected⟩, rfl⟩

theorem Connected.paste (h : Connected store) (position : Option Offset)
    (suffixes : Nat → String) : NoDangling (store.paste position suffixes) := by
  unfold Store.paste
  split
  · exact h.workflow
  · next workflow hworkflow =>
      split
      · exact h.workflow
      · apply noDangling_recordHistory.mpr
        rintro pasted ⟨⟩
        exact connects_pasteInto (h.workflow workflow hworkflow) h.clipboard

/-- A step leaves no dangling connection exactly when it keeps the named actions. -/
theorem noDangling_step_iff (store : Store) (op : Op) (h : Connected store)
    (hop : ConnectsPresent store op) :
    NoDangling (step store op) ↔ KeepsNamed store op := by
  cases op with
  | setWorkflow workflow =>
      refine iff_of_true (noDangling_recordHistory.mpr ?_) trivial
      rintro other ⟨⟩
      exact hop
  | clearWorkflow => exact iff_of_true (by rintro workflow ⟨⟩) trivial
  | addAction action => exact iff_of_true (noDangling_addAction h.workflow action) trivial
  | updateAction actionId updates =>
      exact noDangling_updateAction_iff h.workflow actionId updates
  | deleteAction | deleteActions =>
      exact iff_of_true (noDangling_recordHistory.mpr (noDangling_remove h.workflow _)) trivial
  | duplicateAction actionId offset suffix =>
      refine iff_of_true ?_ trivial
      simp only [step, Store.duplicateAction]
      split
      · exact h.workflow
      · exact noDangling_addAction h.workflow _
  | moveAction actionId x y =>
      refine iff_of_true ((noDangling_updateAction_iff h.workflow _ _).mpr ?_) trivial
      rintro workflow newId - ⟨⟩
  | moveActions updates =>
      refine iff_of_true (noDangling_recordHistory.mpr (noDangling_edit h.workflow ?_)) trivial
      exact fun workflow hworkflow => connects_movePositions hworkflow updates
  | addConnection sourceId outputType outputIndex targetId targetIndex =>
      exact iff_of_true ((noDangling_addConnection_iff h.workflow hop.2 ..).mpr hop.1) trivial
  | deleteConnection sourceId outputType outputIndex targetId =>
      exact iff_of_true (noDangling_deleteConnection h.workflow sourceId outputType outputIndex
        targetId) trivial
  | deleteConnectionsForAction actionId =>
      refine iff_of_true (noDangling_edit h.workflow fun workflow hworkflow => ?_) trivial
      exact connects_of_subset hworkflow (fun _ hid => hid.of_erase) fun _ hid => hid
  | finishConnecting targetId targetIndex =>
      simp only [step, Store.finishConnecting, KeepsNamed]
      split
      · next hnone => simpa [hnone] using h.workflow
      · next source hsource =>
          rw [hsource]
          simp only [Option.some.injEq, forall_eq']
          exact noDangling_addConnection_iff h.workflow hop source.actionId source.outputType
            source.outputIndex targetIndex
  | selectAll =>
      refine iff_of_true ?_ trivial
      simp only [step, Store.selectAll]
      split <;> exact h.workflow
  | invertSelection =>
      refine iff_of_true ?_ trivial
      simp only [step, Store.invertSelection]
      split <;> exact h.workflow
  | copy => exact iff_of_true h.copy.workflow trivial
  | paste position suffixes => exact iff_of_true (h.paste position suffixes) trivial
  | cut =>
      refine iff_of_true ?_ trivial
      simp only [step, Store.cut]
      split
      · exact h.copy.workflow
      · exact noDangling_recordHistory.mpr (noDangling_remove h.copy.workflow _)
  | duplicate suffixes => exact iff_of_true (h.copy.paste none suffixes) trivial
  | undo => exact iff_of_true h.undo trivial
  | redo => exact iff_of_true h.redo trivial
  | recordHistory description =>
      exact iff_of_true (noDangling_recordHistory.mpr h.workflow) trivial
  | _ => exact iff_of_true h.workflow trivial

theorem mem_history_step (store : Store) (op : Op) {state : HistoryState}
    (h : state ∈ (step store op).history) :
    state ∈ store.history ∨ (step store op).workflow = some state.workflow := by
  have htracked : op.Tracked →
      state ∈ store.history ∨ (step store op).workflow = some state.workflow :=
    fun hop => (effect_step store op hop).mem_history h
  cases op with
  | setWorkflow workflow =>
      rcases mem_history_recordHistory h with hold | hnew
      · cases hold
      · exact .inr (by simpa [step, Store.setWorkflow] using hnew)
  | clearWorkflow | clearHistory => cases h
  | deleteConnectionsForAction actionId =>
      simp only [step, Store.deleteConnectionsForAction, history_edit] at h
      exact .inl h
  | _ => exact htracked trivial

theorem connected_step (store : Store) (op : Op) (h : Connected store)
    (hop : NoDangling (step store op)) : Connected (step store op) := by
  refine ⟨hop, ?_, ?_⟩
  · intro state hstate
    rcases mem_history_step store op hstate with hold | hnew
    · exact h.history state hold
    · exact hop state.workflow hnew
  · rcases clipboard_step store op with hkept | ⟨-, hcopied⟩
    · rw [hkept]
      exact h.clipboard
    · rw [hcopied]
      exact h.copy.clipboard

theorem connected_initial : Connected {} :=
  ⟨by rintro workflow ⟨⟩, by simp, fun id hid => absurd hid (Connections.not_names_empty id)⟩

/-- Of the runs whose operations connect present actions, exactly those leave no
dangling connection in which a completed gesture still has its source, and no
action that connections name gets another id. -/
theorem no_dangling_iff (ops : List Op) (h : Meets step ConnectsPresent {} ops) :
    (∀ front, front <+: ops → NoDangling (run step {} front)) ↔ Meets step KeepsNamed {} ops :=
  property_along_iff step Connected NoDangling (fun _ hconnected => hconnected.workflow)
    (fun store op hconnected _ => connected_step store op hconnected) noDangling_step_iff
    connected_initial h

end Steps

theorem connects_twoClicks : twoClicks.ConnectsActions := by decide

theorem no_dangling_iff_gesture :
    (∀ front, front <+: [Op.setWorkflow twoClicks, .startConnecting "b" "main" 0,
        .finishConnecting "a" 0] → NoDangling (run step {} front)) ↔
      Meets step KeepsNamed {}
        [.setWorkflow twoClicks, .startConnecting "b" "main" 0, .finishConnecting "a" 0] :=
  no_dangling_iff _ ⟨connects_twoClicks, trivial, ⟨_, rfl, by decide⟩, trivial⟩

/-- A gesture that is completed after its source was deleted connects the action
that is gone. -/
theorem gesture_from_deleted_action :
    ¬ ∀ front, front <+: [Op.setWorkflow twoClicks, .startConnecting "b" "main" 0,
      .deleteAction "b", .finishConnecting "a" 0] → NoDangling (run step {} front) := by
  intro h
  have hgone := h _ List.prefix_rfl _ rfl
  revert hgone
  decide

end Canvas
end Qontinui
