import Qontinui.Base.Runs
import Qontinui.Canvas.Effects

/-!
The undo history of the canvas store follows the workflow. `Shows` reads
snapshots, index and workflow as a linear history, on which the operations act
as recording, undo, redo or not at all. One operation changes the workflow and
records nothing.

Undo takes edits back, and redo restores them: an edit records one workflow, a
paste only where there is something to paste, and the workflows recorded last
are those that undo steps over.
-/

namespace Qontinui.Canvas

open Runs

section Refinement

variable {limit : Nat} {store after : Store} {t : Timeline HistoryState limit}

/-- The snapshots are the entries of a history, the index the length of its past. -/
structure Shows (store : Store) (t : Timeline HistoryState limit) : Prop where
  size : store.maxHistorySize = limit + 1
  entries : store.history = t.entries
  index : store.historyIndex = t.past.length
  workflow : store.workflow = some t.present.workflow

theorem Shows.same (h : Shows store t) (h' : SameDocument store after) : Shows after t := by
  obtain ⟨hworkflow, hhistory⟩ := h'
  constructor
  · rw [hhistory, h.size]
  · rw [hhistory, h.entries]
  · rw [hhistory, h.index]
  · rw [hworkflow, h.workflow]

theorem Shows.undo (h : Shows store t) : Shows store.undo t.undo := by
  unfold Store.undo
  by_cases hpast : t.past = []
  · rw [if_pos (by simp [h.index, hpast])]
    obtain ⟨past, present, future, hwithin⟩ := t
    cases hpast
    exact h
  · have hpositive : 0 < t.past.length := List.length_pos_iff.mpr hpast
    have hnext : store.historyIndex - 1 = t.undo.past.length := by
      rw [h.index, t.past_undo, List.length_tail]
      omega
    have hstate : store.history[t.undo.past.length]? = some t.undo.present := by
      rw [h.entries, ← t.entries_undo, t.undo.getElem?_entries]
    rw [if_neg (by rw [h.index]; omega)]
    simp only [hnext, Int.toNat_natCast, hstate]
    exact ⟨h.size, by rw [t.entries_undo, ← h.entries], rfl, rfl⟩

theorem Shows.redo (h : Shows store t) : Shows store.redo t.redo := by
  have hlength : store.history.length = t.past.length + t.future.length + 1 := by
    rw [h.entries, t.length_entries]
  unfold Store.redo
  by_cases hfuture : t.future = []
  · rw [if_pos (by simp [h.index, hlength, hfuture])]
    obtain ⟨past, present, future, hwithin⟩ := t
    cases hfuture
    exact h
  · have hpositive : 0 < t.future.length := List.length_pos_iff.mpr hfuture
    have hnext : store.historyIndex + 1 = t.redo.past.length := by
      rw [h.index, Timeline.length_past_redo hfuture]
      rfl
    have hstate : store.history[t.redo.past.length]? = some t.redo.present := by
      rw [h.entries, ← t.entries_redo, t.redo.getElem?_entries]
    rw [if_neg (by rw [h.index, hlength]; omega)]
    simp only [hnext, Int.toNat_natCast, hstate]
    exact ⟨h.size, by rw [t.entries_redo, ← h.entries], rfl, rfl⟩

theorem Shows.recordHistory {edited : Store} (h : Shows store t)
    (hhistory : edited.toHistorySliceState = store.toHistorySliceState) {workflow : Workflow}
    (hworkflow : edited.workflow = some workflow) (description : Option String) :
    Shows (edited.recordHistory description) (t.record { workflow, description }) := by
  have hpush := t.pushEntry_entries { workflow, description }
  rw [← h.entries, ← h.index, ← h.size, ← hhistory] at hpush
  simp only [Store.recordHistory, hworkflow, hpush]
  exact ⟨by rw [hhistory, h.size], rfl, rfl, hworkflow⟩

theorem Shows.records (h : Shows store t) (h' : Records store after) :
    ∃ state, Shows after (t.record state) := by
  obtain ⟨edited, description, hhistory, hisSome, hsame⟩ := h'
  rw [h.workflow] at hisSome
  obtain ⟨workflow, hworkflow⟩ := Option.isSome_iff_exists.mp hisSome
  exact ⟨_, (h.recordHistory hhistory hworkflow description).same hsame⟩

theorem Shows.effect (h : Shows store t) (heffect : Effect store after) :
    ∃ t' : Timeline HistoryState limit, Shows after t' := by
  cases heffect with
  | kept hsame => exact ⟨t, h.same hsame⟩
  | recorded hrecords => exact (h.records hrecords).imp' _ fun _ hshows => hshows
  | undone heq => exact ⟨t.undo, heq ▸ h.undo⟩
  | redone heq => exact ⟨t.redo, heq ▸ h.redo⟩

theorem shows_setWorkflow (store : Store) (hsize : store.maxHistorySize = limit + 1)
    (workflow : Workflow) :
    Shows (store.setWorkflow workflow) (.start limit ⟨workflow, some "Load workflow"⟩) := by
  have hpush := Timeline.pushEntry_nil limit
    { workflow, description := some "Load workflow" : HistoryState }
  rw [← hsize] at hpush
  simp only [Store.setWorkflow, Store.recordHistory, Store.reset, hpush]
  exact ⟨hsize, rfl, rfl, rfl⟩

end Refinement

section Mirror

/-- The current workflow is the snapshot at the history index. -/
structure Mirrors (store : Store) : Prop where
  nonneg : 0 ≤ store.historyIndex
  inRange : store.historyIndex < store.history.length
  size : store.history.length ≤ store.maxHistorySize
  current : (store.history[store.historyIndex.toNat]?).map HistoryState.workflow = store.workflow

variable {store : Store}

theorem mirrors_iff_shows :
    Mirrors store ↔ ∃ limit, ∃ t : Timeline HistoryState limit, Shows store t := by
  constructor
  · rintro ⟨hnonneg, hinRange, hsize, hcurrent⟩
    obtain ⟨limit, hlimit⟩ : ∃ limit, store.maxHistorySize = limit + 1 :=
      ⟨store.maxHistorySize - 1, by omega⟩
    have hlt : store.historyIndex.toNat < store.history.length := by omega
    rw [List.getElem?_eq_getElem hlt, Option.map_some] at hcurrent
    obtain ⟨t, hentries, hindex, hpresent⟩ :=
      Timeline.exists_of_getElem? limit (List.getElem?_eq_getElem hlt) (by omega)
    exact ⟨limit, t, hlimit, hentries.symm, by omega, by rw [← hcurrent, hpresent]⟩
  · rintro ⟨limit, t, h⟩
    have hindex := h.index
    have hlength := t.length_entries
    have hwithin := t.within
    rw [← h.entries] at hlength
    refine ⟨by omega, by omega, by rw [h.size]; omega, ?_⟩
    rw [hindex, Int.toNat_natCast, h.entries, t.getElem?_entries, h.workflow, Option.map_some]

theorem Mirrors.effect {store after : Store} (h : Mirrors store) (heffect : Effect store after) :
    Mirrors after := by
  obtain ⟨limit, t, hshows⟩ := mirrors_iff_shows.mp h
  exact mirrors_iff_shows.mpr ⟨limit, hshows.effect heffect⟩

theorem mirrors_setWorkflow (h : 0 < store.maxHistorySize) (workflow : Workflow) :
    Mirrors (store.setWorkflow workflow) := by
  obtain ⟨limit, hlimit⟩ : ∃ limit, store.maxHistorySize = limit + 1 :=
    ⟨store.maxHistorySize - 1, by omega⟩
  exact mirrors_iff_shows.mpr ⟨limit, _, shows_setWorkflow store hlimit workflow⟩

instance (store : Store) : Decidable (Mirrors store) :=
  decidable_of_iff
    (0 ≤ store.historyIndex ∧ store.historyIndex < store.history.length ∧
      store.history.length ≤ store.maxHistorySize ∧
      (store.history[store.historyIndex.toNat]?).map HistoryState.workflow = store.workflow)
    ⟨fun ⟨h, h', h'', h'''⟩ => ⟨h, h', h'', h'''⟩, fun ⟨h, h', h'', h'''⟩ => ⟨h, h', h'', h'''⟩⟩

/-- What keeps the history a mirror: workflow and history stay, and the
connections of an action are removed on their own only where there are none. -/
def KeepsMirror (store : Store) : Op → Prop
  | .clearWorkflow => False
  | .clearHistory => False
  | .deleteConnectionsForAction actionId =>
      ∀ workflow, store.workflow = some workflow → workflow.connections.get? actionId = none
  | _ => True

theorem not_mirrors_of_neg (h : store.historyIndex = -1) : ¬ Mirrors store := by
  intro hmirrors
  have := hmirrors.nonneg
  omega

theorem mirrors_edit_iff (h : Mirrors store) {workflow : Workflow}
    (hworkflow : store.workflow = some workflow) (change : Workflow → Workflow) :
    Mirrors (store.edit change) ↔ change workflow = workflow := by
  have hhistory := history_edit store change
  constructor
  · intro hedited
    have hcurrent := hedited.current
    rw [hhistory, h.current, workflow_edit, hworkflow, Option.map_some, Option.some.injEq]
      at hcurrent
    exact hcurrent.symm
  · intro hsame
    have hdocument : SameDocument store (store.edit change) :=
      ⟨by rw [workflow_edit, hworkflow, Option.map_some, hsame], hhistory⟩
    exact h.effect (.kept hdocument)

theorem mirrors_step_iff (store : Store) (op : Op) (h : Mirrors store) :
    Mirrors (step store op) ↔ KeepsMirror store op := by
  have hsome : store.workflow.isSome := by
    obtain ⟨limit, t, hshows⟩ := mirrors_iff_shows.mp h
    rw [hshows.workflow]
    rfl
  have hsize : 0 < store.maxHistorySize := by
    have hlow := h.nonneg
    have hrange := h.inRange
    have := h.size
    omega
  cases op with
  | setWorkflow workflow => exact iff_of_true (mirrors_setWorkflow hsize workflow) trivial
  | clearWorkflow => exact iff_of_false (fun hcleared => not_mirrors_of_neg rfl hcleared) id
  | clearHistory => exact iff_of_false (fun hcleared => not_mirrors_of_neg rfl hcleared) id
  | deleteConnectionsForAction actionId =>
      obtain ⟨workflow, hworkflow⟩ := Option.isSome_iff_exists.mp hsome
      rw [show step store (.deleteConnectionsForAction actionId) =
        store.deleteConnectionsForAction actionId from rfl, Store.deleteConnectionsForAction,
        mirrors_edit_iff h hworkflow]
      simp only [KeepsMirror, hworkflow, Option.some.injEq, forall_eq']
      constructor
      · intro hsame
        exact ObjectMap.erase_eq_self_iff.mp (congrArg Workflow.connections hsame)
      · intro habsent
        rw [ObjectMap.erase_eq_self_iff.mpr habsent]
  | _ => exact iff_of_true (h.effect (effect_step store _ trivial)) trivial

/-- The history mirrors the workflow all along a run exactly when the run keeps
workflow and history and never removes connections on their own. -/
theorem history_mirrors_iff (store : Store) (hsize : 0 < store.maxHistorySize)
    (workflow : Workflow) (ops : List Op) :
    (∀ front, front <+: ops → Mirrors (run step (store.setWorkflow workflow) front)) ↔
      Meets step KeepsMirror (store.setWorkflow workflow) ops :=
  invariant_along_iff step Mirrors mirrors_step_iff _ ops (mirrors_setWorkflow hsize workflow)

def twoClicks : Workflow where
  id := "w"
  name := "two clicks"
  version := "1.0.0"
  format := "graph"
  actions := [
    { id := "a", type := .other "CLICK" ActionType.click_plain, config := some (.obj [])
      position := positionOf 0 0 },
    { id := "b", type := .other "CLICK" ActionType.click_plain, config := some (.obj [])
      position := positionOf 0 0 }]
  connections := ObjectMap.empty.set "a" (.leadsTo "b")

theorem history_mirrors_iff_twoClicks :
    (∀ front, front <+: [Op.selectAll, .deleteAction "b", .undo] →
        Mirrors (run step (({} : Store).setWorkflow twoClicks) front)) ↔
      Meets step KeepsMirror (({} : Store).setWorkflow twoClicks)
        [.selectAll, .deleteAction "b", .undo] :=
  history_mirrors_iff {} (by decide) twoClicks _

/-- Once the connections of an action are removed on their own, the history still
shows them. -/
theorem removed_connections_unrecorded :
    ¬ ∀ front, front <+: [Op.deleteConnectionsForAction "a"] →
      Mirrors (run step (({} : Store).setWorkflow twoClicks) front) := by
  intro h
  have hremoved := h [.deleteConnectionsForAction "a"] List.prefix_rfl
  revert hremoved
  decide

end Mirror

open Runs

def Op.IsEdit : Op → Prop
  | .addAction _ => True
  | .updateAction _ _ => True
  | .deleteAction _ => True
  | .deleteActions _ => True
  | .moveActions _ => True
  | .addConnection .. => True
  | .deleteConnection .. => True
  | .paste .. => True
  | _ => False

theorem Op.IsEdit.tracked {op : Op} (h : op.IsEdit) : op.Tracked := by
  cases op <;> trivial

/-- An edit records a workflow, but for a paste from an empty clipboard. -/
def Store.recordsEdit (store : Store) : Op → Bool
  | .paste .. => store.clipboardNodes ≠ []
  | _ => true

theorem recordsEdit_step (store : Store) {op : Op} (h : op.IsEdit) :
    (step store op).recordsEdit = store.recordsEdit := by
  have hclipboard : (step store op).toClipboardState = store.toClipboardState := by
    rcases clipboard_step store op with hkept | ⟨rfl | rfl | ⟨suffixes, rfl⟩, -⟩
    · exact hkept
    all_goals exact h.elim
  funext other
  cases other <;> simp [Store.recordsEdit, hclipboard]

section Shown

variable {limit : Nat} {store : Store} {t : Timeline HistoryState limit}

theorem records_step {op : Op} (hop : op.IsEdit) (hrecords : store.recordsEdit op) :
    Records store (step store op) := by
  cases op with
  | addAction action => exact records_addAction store action
  | updateAction actionId updates => exact records_updateAction store actionId updates
  | deleteAction | deleteActions => exact records_remove store _ _
  | moveActions updates => exact records_moveActions store updates
  | addConnection sourceId outputType outputIndex targetId targetIndex =>
      exact records_addConnection store ..
  | deleteConnection sourceId outputType outputIndex targetId =>
      exact records_deleteConnection store ..
  | paste position suffixes =>
      exact records_paste position suffixes (of_decide_eq_true hrecords)
  | _ => exact hop.elim

theorem step_of_not_recordsEdit {op : Op} (h : store.recordsEdit op = false) :
    step store op = store := by
  cases op with
  | paste position suffixes =>
      exact paste_of_empty position suffixes (by simpa [Store.recordsEdit] using h)
  | _ => cases h

theorem Shows.edits (h : Shows store t) {edits : List Op} (hedits : ∀ op ∈ edits, op.IsEdit) :
    ∃ states : List HistoryState, states.length = edits.countP store.recordsEdit ∧
      Shows (run step store edits) (states.foldl Timeline.record t) := by
  induction edits generalizing store t with
  | nil => exact ⟨[], rfl, h⟩
  | cons op rest ih =>
      have hop : op.IsEdit := hedits op (by simp)
      have hrest : ∀ other ∈ rest, other.IsEdit := fun other hother =>
        hedits other (by simp [hother])
      cases hrecords : store.recordsEdit op with
      | false =>
          rw [List.countP_cons_of_neg (by simp [hrecords]), run_cons,
            step_of_not_recordsEdit hrecords]
          exact ih h hrest
      | true =>
          obtain ⟨state, hstep⟩ := h.records (records_step hop hrecords)
          obtain ⟨states, hlength, hshows⟩ := ih hstep hrest
          refine ⟨state :: states, ?_, hshows⟩
          rw [List.length_cons, hlength, recordsEdit_step store hop,
            List.countP_cons_of_pos hrecords]

theorem Shows.undo_iterate (h : Shows store t) (k : Nat) :
    Shows (Store.undo^[k] store) (Timeline.undo^[k] t) := by
  induction k with
  | zero => exact h
  | succ k ih =>
      rw [Function.iterate_succ_apply', Function.iterate_succ_apply']
      exact ih.undo

theorem Shows.redo_iterate (h : Shows store t) (k : Nat) :
    Shows (Store.redo^[k] store) (Timeline.redo^[k] t) := by
  induction k with
  | zero => exact h
  | succ k ih =>
      rw [Function.iterate_succ_apply', Function.iterate_succ_apply']
      exact ih.redo

end Shown

theorem shows_run {limit : Nat} {store : Store} {t : Timeline HistoryState limit}
    (h : Shows store t) {ops : List Op} (hops : ∀ op ∈ ops, op.Tracked) :
    ∃ t' : Timeline HistoryState limit, Shows (run step store ops) t' := by
  refine invariant_of_meets step (fun store => ∃ t' : Timeline HistoryState limit, Shows store t')
    ?_ ⟨t, h⟩ (meets_of_forall step hops store)
  rintro store op ⟨t', hshows⟩ hop
  exact hshows.effect (effect_step store op hop)

/-- After any run of edits, undo and redo: edits of which at most
`maxHistorySize - 1` record are taken back by as many undos, and restored by as
many redos. -/
theorem undo_restores (store : Store) (workflow : Workflow) (ops edits : List Op)
    (hops : ∀ op ∈ ops, op.IsEdit ∨ op = .undo ∨ op = .redo) (hedits : ∀ op ∈ edits, op.IsEdit) :
    let before := run step (store.setWorkflow workflow) ops
    let after := run step before edits
    let m := edits.countP before.recordsEdit
    m < store.maxHistorySize →
      (Store.undo^[m] after).workflow = before.workflow ∧
        (Store.redo^[m] (Store.undo^[m] after)).workflow = after.workflow := by
  intro before after m hm
  obtain ⟨limit, hlimit⟩ : ∃ limit, store.maxHistorySize = limit + 1 :=
    ⟨store.maxHistorySize - 1, by omega⟩
  have htracked : ∀ op ∈ ops, op.Tracked := by
    intro op hop
    rcases hops op hop with hedit | rfl | rfl
    · exact hedit.tracked
    · trivial
    · trivial
  obtain ⟨t, hbefore⟩ := shows_run (shows_setWorkflow store hlimit workflow) htracked
  obtain ⟨states, hlength, hafter⟩ := hbefore.edits hedits
  have hcount : states.length = m := hlength
  obtain ⟨hundo, hredo⟩ := t.undo_foldl_record states (by omega)
  have hundone := hafter.undo_iterate m
  refine ⟨?_, ?_⟩
  · rw [hundone.workflow, hbefore.workflow, ← hcount, hundo]
  · rw [(hundone.redo_iterate m).workflow, hafter.workflow, ← hcount, hredo]

theorem undo_restores_paste :
    let store : Store := { clipboardNodes := twoClicks.actions }
    let before := run step (store.setWorkflow twoClicks) [.deleteAction "b", .undo]
    let after := run step before [.deleteAction "a", .paste none toString]
    let m := [Op.deleteAction "a", .paste none toString].countP before.recordsEdit
    (Store.undo^[m] after).workflow = before.workflow ∧
      (Store.redo^[m] (Store.undo^[m] after)).workflow = after.workflow :=
  undo_restores { clipboardNodes := twoClicks.actions } twoClicks [.deleteAction "b", .undo]
    [.deleteAction "a", .paste none toString] (by simp [Op.IsEdit]) (by simp [Op.IsEdit])
    (by decide)

/-- A paste from an empty clipboard records nothing, and the undo after it takes
the edit before it back. -/
theorem paste_from_empty_clipboard :
    ¬ ∀ ops edits : List Op, (∀ op ∈ ops, op.IsEdit ∨ op = .undo ∨ op = .redo) →
      (∀ op ∈ edits, op.IsEdit) → edits.length < ({} : Store).maxHistorySize →
      let before := run step (({} : Store).setWorkflow twoClicks) ops
      (Store.undo^[edits.length] (run step before edits)).workflow = before.workflow := by
  intro h
  have hundone := h [.deleteAction "b"] [.paste none toString] (by simp [Op.IsEdit])
    (by simp [Op.IsEdit]) (by decide)
  revert hundone
  decide

end Qontinui.Canvas
