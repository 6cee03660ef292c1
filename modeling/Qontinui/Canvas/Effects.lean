import Qontinui.Canvas.Store

/-!
What the operations of the canvas store do to workflow, history and clipboard.
An operation either leaves workflow and history alone, records the workflow it
leaves, or goes through the history; only a copy fills the clipboard.
-/

namespace Qontinui.Canvas

/-- Workflow and history stand as they were. -/
structure SameDocument (store after : Store) : Prop where
  workflow : after.workflow = store.workflow
  history : after.toHistorySliceState = store.toHistorySliceState

theorem SameDocument.refl (store : Store) : SameDocument store store := ⟨rfl, rfl⟩

theorem SameDocument.trans {store between after : Store} (h : SameDocument store between)
    (h' : SameDocument between after) : SameDocument store after :=
  ⟨h'.workflow.trans h.workflow, h'.history.trans h.history⟩

def Records (store after : Store) : Prop :=
  ∃ edited : Store, ∃ description, edited.toHistorySliceState = store.toHistorySliceState ∧
    edited.workflow.isSome = store.workflow.isSome ∧
    SameDocument (edited.recordHistory description) after

/-- What an operation may do to workflow and history. -/
inductive Effect (store after : Store) : Prop
  | kept (h : SameDocument store after)
  | recorded (h : Records store after)
  | undone (h : after = store.undo)
  | redone (h : after = store.redo)

section Documents

variable {store : Store}

theorem records_of_recordHistory {edited : Store} (description : Option String)
    (hhistory : edited.toHistorySliceState = store.toHistorySliceState)
    (hworkflow : edited.workflow.isSome = store.workflow.isSome) :
    Records store (edited.recordHistory description) :=
  ⟨edited, description, hhistory, hworkflow, .refl _⟩

theorem Records.of_same {between after : Store} (h : Records store between)
    (h' : SameDocument between after) : Records store after := by
  obtain ⟨edited, description, hhistory, hworkflow, hsame⟩ := h
  exact ⟨edited, description, hhistory, hworkflow, hsame.trans h'⟩

theorem SameDocument.records {before after : Store} (h : SameDocument store before)
    (h' : Records before after) : Records store after := by
  obtain ⟨edited, description, hhistory, hworkflow, hsame⟩ := h'
  exact ⟨edited, description, hhistory.trans h.history, by rw [hworkflow, h.workflow], hsame⟩

@[simp] theorem workflow_recordHistory (store : Store) (description : Option String) :
    (store.recordHistory description).workflow = store.workflow := by
  unfold Store.recordHistory
  split <;> rfl

@[simp] theorem history_edit (store : Store) (change : Workflow → Workflow) :
    (store.edit change).toHistorySliceState = store.toHistorySliceState := by
  unfold Store.edit
  split <;> rfl

@[simp] theorem workflow_edit (store : Store) (change : Workflow → Workflow) :
    (store.edit change).workflow = store.workflow.map change := by
  unfold Store.edit
  split <;> simp_all

@[simp] theorem history_remove (store : Store) (actionIds : List String) :
    (store.remove actionIds).toHistorySliceState = store.toHistorySliceState := by
  unfold Store.remove
  split <;> rfl

@[simp] theorem workflow_remove (store : Store) (actionIds : List String) :
    (store.remove actionIds).workflow = store.workflow.map (removeActions · actionIds) := by
  unfold Store.remove
  split <;> simp_all

variable (store)

theorem records_addAction (action : Action) : Records store (store.addAction action) :=
  records_of_recordHistory _ (history_edit _ _) (by simp)

theorem records_updateAction (actionId : String) (updates : ActionUpdates) :
    Records store (store.updateAction actionId updates) := by
  refine records_of_recordHistory _ ?_ ?_ <;> split <;> simp

theorem records_remove (actionIds : List String) (description : Option String) :
    Records store ((store.remove actionIds).recordHistory description) :=
  records_of_recordHistory _ (history_remove _ _) (by simp)

theorem records_moveActions (updates : List (String × Rat × Rat)) :
    Records store (store.moveActions updates) :=
  records_of_recordHistory _ (history_edit _ _) (by simp)

theorem records_addConnection (sourceId outputType : String) (outputIndex : Int)
    (targetId : String) (targetIndex : Int) :
    Records store (store.addConnection sourceId outputType outputIndex targetId targetIndex) := by
  refine records_of_recordHistory _ ?_ ?_ <;> split <;> simp_all

theorem records_deleteConnection (sourceId outputType : String) (outputIndex : Int)
    (targetId : String) :
    Records store (store.deleteConnection sourceId outputType outputIndex targetId) := by
  refine records_of_recordHistory _ ?_ ?_ <;> split
  · rfl
  · rfl
  · rfl
  · next hdisconnected =>
      obtain ⟨workflow, hworkflow, -⟩ := Option.bind_eq_some_iff.mp hdisconnected
      rw [hworkflow]
      rfl

variable {store}

theorem records_paste (position : Option Offset) (suffixes : Nat → String)
    (hclipboard : store.clipboardNodes ≠ []) : Records store (store.paste position suffixes) := by
  unfold Store.paste
  split
  · next hnone =>
      refine ⟨store, none, rfl, rfl, ?_⟩
      rw [Store.recordHistory, hnone]
      exact .refl store
  · next hsome =>
      rw [if_neg hclipboard]
      exact records_of_recordHistory _ rfl (by rw [hsome]; rfl)

theorem paste_of_empty (position : Option Offset) (suffixes : Nat → String)
    (hclipboard : store.clipboardNodes = []) : store.paste position suffixes = store := by
  unfold Store.paste
  split
  · rfl
  · rw [if_pos hclipboard]

theorem sameDocument_copy (store : Store) : SameDocument store store.copy := by
  unfold Store.copy
  split
  · exact .refl _
  · split
    · exact .refl _
    · exact ⟨rfl, rfl⟩

theorem effect_paste {before : Store} (h : SameDocument store before) (position : Option Offset)
    (suffixes : Nat → String) : Effect store (before.paste position suffixes) := by
  by_cases hclipboard : before.clipboardNodes = []
  · rw [paste_of_empty _ _ hclipboard]
    exact .kept h
  · exact .recorded (h.records (records_paste position suffixes hclipboard))

end Documents

/-- The operations that neither set nor clear workflow or history, without the one
that leaves its change out of the history. -/
def Op.Tracked : Op → Prop
  | .setWorkflow _ => False
  | .clearWorkflow => False
  | .clearHistory => False
  | .deleteConnectionsForAction _ => False
  | _ => True

theorem effect_step (store : Store) (op : Op) (hop : op.Tracked) :
    Effect store (step store op) := by
  cases op with
  | setWorkflow | clearWorkflow | clearHistory | deleteConnectionsForAction => exact hop.elim
  | addAction action => exact .recorded (records_addAction store action)
  | updateAction actionId updates =>
      exact .recorded (records_updateAction store actionId updates)
  | deleteAction | deleteActions => exact .recorded (records_remove store _ _)
  | duplicateAction actionId offset suffix =>
      simp only [step, Store.duplicateAction]
      split
      · exact .kept (.refl _)
      · exact .recorded ((records_addAction store _).of_same ⟨rfl, rfl⟩)
  | moveAction actionId x y => exact .recorded (records_updateAction store _ _)
  | moveActions updates => exact .recorded (records_moveActions store updates)
  | addConnection sourceId outputType outputIndex targetId targetIndex =>
      exact .recorded (records_addConnection store ..)
  | deleteConnection sourceId outputType outputIndex targetId =>
      exact .recorded (records_deleteConnection store ..)
  | startConnecting actionId outputType outputIndex => exact .kept ⟨rfl, rfl⟩
  | finishConnecting targetId targetIndex =>
      simp only [step, Store.finishConnecting]
      split
      · exact .kept (.refl _)
      · exact .recorded ((records_addConnection store ..).of_same ⟨rfl, rfl⟩)
  | cancelConnecting => exact .kept ⟨rfl, rfl⟩
  | selectNode nodeId multi => exact .kept ⟨rfl, rfl⟩
  | selectNodes nodeIds multi => exact .kept ⟨rfl, rfl⟩
  | selectEdge edgeId multi => exact .kept ⟨rfl, rfl⟩
  | clearSelection => exact .kept ⟨rfl, rfl⟩
  | selectAll =>
      simp only [step, Store.selectAll]
      split
      · exact .kept (.refl _)
      · exact .kept ⟨rfl, rfl⟩
  | invertSelection =>
      simp only [step, Store.invertSelection]
      split
      · exact .kept (.refl _)
      · exact .kept ⟨rfl, rfl⟩
  | copy => exact .kept (sameDocument_copy store)
  | paste position suffixes => exact effect_paste (.refl store) position suffixes
  | cut =>
      have hcopy := sameDocument_copy store
      simp only [step, Store.cut]
      split
      · exact .kept hcopy
      · exact .recorded (hcopy.records (records_remove store.copy _ _))
  | duplicate suffixes => exact effect_paste (sameDocument_copy store) none suffixes
  | undo => exact .undone rfl
  | redo => exact .redone rfl
  | recordHistory description => exact .recorded (records_of_recordHistory _ rfl rfl)

section Snapshots

variable {store after : Store}

theorem mem_history_recordHistory {description : Option String} {state : HistoryState}
    (h : state ∈ (store.recordHistory description).history) :
    state ∈ store.history ∨ store.workflow = some state.workflow := by
  unfold Store.recordHistory at h
  split at h
  · exact .inl h
  · next workflow hworkflow =>
      rcases Timeline.mem_pushEntry h with hold | rfl
      · exact .inl hold
      · exact .inr hworkflow

theorem history_undo (store : Store) : store.undo.history = store.history := by
  unfold Store.undo
  split
  · rfl
  · dsimp only
    split <;> rfl

theorem history_redo (store : Store) : store.redo.history = store.history := by
  unfold Store.redo
  split
  · rfl
  · dsimp only
    split <;> rfl

theorem Effect.mem_history (h : Effect store after) {state : HistoryState}
    (hstate : state ∈ after.history) :
    state ∈ store.history ∨ after.workflow = some state.workflow := by
  cases h with
  | kept hsame => rw [hsame.history] at hstate; exact .inl hstate
  | undone heq => rw [heq, history_undo] at hstate; exact .inl hstate
  | redone heq => rw [heq, history_redo] at hstate; exact .inl hstate
  | recorded hrecords =>
      obtain ⟨edited, description, hhistory, -, hsame⟩ := hrecords
      rw [hsame.history] at hstate
      rw [hsame.workflow, workflow_recordHistory]
      rcases mem_history_recordHistory hstate with hold | hnew
      · rw [hhistory] at hold
        exact .inl hold
      · exact .inr hnew

end Snapshots

section Clipboard

variable (store : Store)

@[simp] theorem clipboard_recordHistory (description : Option String) :
    (store.recordHistory description).toClipboardState = store.toClipboardState := by
  unfold Store.recordHistory
  split <;> rfl

@[simp] theorem clipboard_edit (change : Workflow → Workflow) :
    (store.edit change).toClipboardState = store.toClipboardState := by
  unfold Store.edit
  split <;> rfl

@[simp] theorem clipboard_remove (actionIds : List String) :
    (store.remove actionIds).toClipboardState = store.toClipboardState := by
  unfold Store.remove
  split <;> rfl

theorem clipboard_addConnection (sourceId outputType : String) (outputIndex : Int)
    (targetId : String) (targetIndex : Int) :
    (store.addConnection sourceId outputType outputIndex targetId targetIndex).toClipboardState =
      store.toClipboardState := by
  simp only [Store.addConnection, clipboard_recordHistory]
  split <;> rfl

theorem clipboard_updateAction (actionId : String) (updates : ActionUpdates) :
    (store.updateAction actionId updates).toClipboardState = store.toClipboardState := by
  simp only [Store.updateAction, clipboard_recordHistory]
  split
  · exact clipboard_edit _ _
  · rfl

@[simp] theorem clipboard_paste (position : Option Offset) (suffixes : Nat → String) :
    (store.paste position suffixes).toClipboardState = store.toClipboardState := by
  unfold Store.paste
  split
  · rfl
  · split
    · rfl
    · exact clipboard_recordHistory _ _

/-- The clipboard stands as it was, or is filled by a copy. -/
theorem clipboard_step (op : Op) :
    (step store op).toClipboardState = store.toClipboardState ∨
      (op = .copy ∨ op = .cut ∨ ∃ suffixes, op = .duplicate suffixes) ∧
        (step store op).toClipboardState = store.copy.toClipboardState := by
  cases op with
  | setWorkflow workflow => exact .inl (clipboard_recordHistory _ _)
  | addAction action => exact .inl (by simp [step, Store.addAction])
  | updateAction actionId updates => exact .inl (clipboard_updateAction store _ _)
  | deleteAction actionId => exact .inl (by simp [step, Store.deleteAction])
  | deleteActions actionIds => exact .inl (by simp [step, Store.deleteActions])
  | duplicateAction actionId offset suffix =>
      simp only [step, Store.duplicateAction]
      split
      · exact .inl rfl
      · exact .inl (by simp [Store.selectNode, Store.addAction])
  | moveAction actionId x y => exact .inl (clipboard_updateAction store _ _)
  | moveActions updates => exact .inl (by simp [step, Store.moveActions])
  | addConnection sourceId outputType outputIndex targetId targetIndex =>
      exact .inl (clipboard_addConnection store ..)
  | deleteConnection sourceId outputType outputIndex targetId =>
      refine .inl ?_
      simp only [step, Store.deleteConnection, clipboard_recordHistory]
      split <;> rfl
  | deleteConnectionsForAction actionId => exact .inl (clipboard_edit _ _)
  | finishConnecting targetId targetIndex =>
      simp only [step, Store.finishConnecting]
      split
      · exact .inl rfl
      · exact .inl (clipboard_addConnection store ..)
  | selectAll =>
      simp only [step, Store.selectAll]
      split <;> exact .inl rfl
  | invertSelection =>
      simp only [step, Store.invertSelection]
      split <;> exact .inl rfl
  | copy => exact .inr ⟨.inl rfl, rfl⟩
  | paste position suffixes => exact .inl (clipboard_paste store _ _)
  | cut =>
      refine .inr ⟨.inr (.inl rfl), ?_⟩
      simp only [step, Store.cut]
      split
      · rfl
      · simp [Store.deleteActions]
  | duplicate suffixes =>
      exact .inr ⟨.inr (.inr ⟨suffixes, rfl⟩), clipboard_paste store.copy _ _⟩
  | undo =>
      simp only [step, Store.undo]
      split
      · exact .inl rfl
      · split <;> exact .inl rfl
  | redo =>
      simp only [step, Store.redo]
      split
      · exact .inl rfl
      · split <;> exact .inl rfl
  | recordHistory description => exact .inl (clipboard_recordHistory _ _)
  | _ => exact .inl rfl

end Clipboard

end Qontinui.Canvas
