import Qontinui.Base.Runs
import Qontinui.Canvas.HistoryManager

/-!
Pending records of the history manager. A pending record outlives an immediate
record and a move through the history, and is added over them by the timer or by
the end of a later batch. Where each record that is added is the latest, the
manager shows the latest workflow once it has settled.
-/

namespace Qontinui.HistoryManager

open Runs

/-- A manager with the workflow that was recorded, or moved to, last. -/
structure Observed where
  manager : HistoryManager
  latest : Option Workflow := none

def latestOf (manager : HistoryManager) : Event → Option Workflow
  | .record workflow _ _ => some workflow
  | .recordImmediate workflow _ _ => some workflow
  | .undo => manager.undo.1.map HistoryEntry.workflow
  | .redo => manager.redo.1.map HistoryEntry.workflow
  | .jumpTo index => (manager.jumpTo index).1.map HistoryEntry.workflow
  | _ => none

def observe (observed : Observed) (event : Event) : Observed where
  manager := observed.manager.step event
  latest := (latestOf observed.manager event).or observed.latest

def Settled (manager : HistoryManager) : Prop :=
  manager.debounceTimer ≠ .armed ∧ manager.inBatch = false

def current (manager : HistoryManager) : Option Workflow :=
  manager.getCurrentState.map HistoryEntry.workflow

def ShowsLatest (observed : Observed) : Prop :=
  Settled observed.manager → ∀ workflow, observed.latest = some workflow →
    observed.manager.current = some workflow

/-- A pending record that an event adds holds the latest workflow. -/
def AddsLatest (observed : Observed) (event : Event) : Prop :=
  (event = .endBatch ∧ observed.manager.inBatch ∨
      event = .timerFires ∧ observed.manager.debounceTimer = .armed) →
    ∀ pending, observed.manager.pendingRecord = some pending →
      observed.latest = some pending.workflow

/-- The index is that of an entry, or -1. -/
structure InRange (manager : HistoryManager) : Prop where
  size : 0 < manager.maxSize
  low : -1 ≤ manager.currentIndex
  high : manager.currentIndex < manager.entries.length

/-- A record of the workflow waits for the timer or the end of the batch. -/
def Waits (manager : HistoryManager) (workflow : Workflow) : Prop :=
  ¬ Settled manager ∧ manager.pendingRecord.map PendingRecord.workflow = some workflow

/-- The latest workflow is shown, or waits. -/
structure Tracks (observed : Observed) : Prop where
  inRange : InRange observed.manager
  latest : ∀ workflow, observed.latest = some workflow →
    observed.manager.current = some workflow ∨ Waits observed.manager workflow

section Entries

variable {manager : HistoryManager}

theorem current_of_getElem? {entry : HistoryEntry} (hindex : 0 ≤ manager.currentIndex)
    (h : manager.entries[manager.currentIndex.toNat]? = some entry) :
    manager.current = some entry.workflow := by
  rw [current, getCurrentState, if_neg (by omega), h, Option.map_some]

theorem addEntry_shows (h : InRange manager) (workflow : Workflow) (description : Option String)
    (operationType : Option OperationType) :
    InRange (manager.addEntry workflow description operationType) ∧
      (manager.addEntry workflow description operationType).current = some workflow := by
  obtain ⟨hindex, hentry⟩ := Timeline.getElem?_pushEntry h.size h.low h.high
    (HistoryEntry.mk workflow description operationType)
  obtain ⟨hlt, -⟩ := List.getElem?_eq_some_iff.mp hentry
  constructor
  · refine ⟨h.size, ?_, ?_⟩ <;> simp only [addEntry] <;> omega
  · exact @current_of_getElem? (manager.addEntry workflow description operationType)
      ⟨workflow, description, operationType⟩ hindex hentry

theorem moveTo_shows (h : InRange manager) {index : Int} (hlow : 0 ≤ index)
    (hhigh : index < manager.entries.length) :
    InRange (manager.moveTo index).2 ∧ ∃ entry, (manager.moveTo index).1 = some entry ∧
      (manager.moveTo index).2.current = some entry.workflow := by
  have hlt : index.toNat < manager.entries.length := by omega
  have hentry := List.getElem?_eq_getElem hlt
  constructor
  · exact ⟨h.size, by simp only [moveTo]; omega, hhigh⟩
  · exact ⟨_, hentry, @current_of_getElem? (manager.moveTo index).2 _ hlow hentry⟩

def Moves (manager : HistoryManager) (result : Option HistoryEntry × HistoryManager) : Prop :=
  result = (none, manager) ∨ ∃ index : Int, 0 ≤ index ∧ index < manager.entries.length ∧
    result = manager.moveTo index

theorem moves_undo (h : InRange manager) : Moves manager manager.undo := by
  have hhigh := h.high
  unfold undo
  split
  · next hundo =>
      have hpositive : 0 < manager.currentIndex := by simpa [canUndo] using hundo
      exact .inr ⟨_, by omega, by omega, rfl⟩
  · exact .inl rfl

theorem moves_redo (h : InRange manager) : Moves manager manager.redo := by
  have hlow := h.low
  unfold redo
  split
  · next hredo =>
      have hless : manager.currentIndex < manager.entries.length - 1 := by
        simpa [canRedo] using hredo
      exact .inr ⟨_, by omega, by omega, rfl⟩
  · exact .inl rfl

theorem moves_jumpTo (manager : HistoryManager) (index : Int) :
    Moves manager (manager.jumpTo index) := by
  unfold jumpTo
  split
  · exact .inl rfl
  · exact .inr ⟨index, by omega, by omega, rfl⟩

end Entries

section Steps

variable {observed : Observed} {manager after : HistoryManager}

theorem inRange_of_fields (h : InRange manager) (hsize : after.maxSize = manager.maxSize)
    (hentries : after.entries = manager.entries)
    (hindex : after.currentIndex = manager.currentIndex) : InRange after :=
  ⟨by rw [hsize]; exact h.size, by rw [hindex]; exact h.low,
    by rw [hindex, hentries]; exact h.high⟩

theorem current_of_fields (hentries : after.entries = manager.entries)
    (hindex : after.currentIndex = manager.currentIndex) : after.current = manager.current := by
  rw [current, getCurrentState, hentries, hindex]
  rfl

theorem tracks_move (h : Tracks observed) {result : Option HistoryEntry × HistoryManager}
    (hresult : Moves observed.manager result) :
    Tracks ⟨result.2, (result.1.map HistoryEntry.workflow).or observed.latest⟩ := by
  rcases hresult with rfl | ⟨index, hlow, hhigh, rfl⟩
  · exact h
  · obtain ⟨hrange, entry, hentry, hcurrent⟩ := moveTo_shows h.inRange hlow hhigh
    refine ⟨hrange, fun workflow hlatest => .inl ?_⟩
    rw [hentry] at hlatest
    rw [hcurrent]
    exact hlatest

theorem tracks_added {latest : Option Workflow} {pending : PendingRecord}
    {description : Option String} {operationType : Option OperationType} (h : InRange manager)
    (hlatest : latest = some pending.workflow) (hsize : after.maxSize = manager.maxSize)
    (hentries : after.entries =
      (manager.addEntry pending.workflow description operationType).entries)
    (hindex : after.currentIndex =
      (manager.addEntry pending.workflow description operationType).currentIndex) :
    Tracks ⟨after, latest⟩ := by
  obtain ⟨hrange, hcurrent⟩ := addEntry_shows h pending.workflow description operationType
  refine ⟨inRange_of_fields hrange hsize hentries hindex, fun workflow hworkflow => .inl ?_⟩
  rw [current_of_fields hentries hindex, hcurrent, ← hlatest]
  exact hworkflow

theorem tracks_unpending {latest : Option Workflow} (h : Tracks ⟨manager, latest⟩)
    (hpending : manager.pendingRecord = none) (hsize : after.maxSize = manager.maxSize)
    (hentries : after.entries = manager.entries)
    (hindex : after.currentIndex = manager.currentIndex) : Tracks ⟨after, latest⟩ := by
  refine ⟨inRange_of_fields h.inRange hsize hentries hindex, fun workflow hlatest => ?_⟩
  rcases h.latest workflow hlatest with hcurrent | hwaits
  · exact .inl ((current_of_fields hentries hindex).trans hcurrent)
  · simp [Waits, hpending] at hwaits

theorem tracks_observe (h : Tracks observed) (event : Event) (hadds : AddsLatest observed event) :
    Tracks (observe observed event) := by
  obtain ⟨manager, latest⟩ := observed
  have hrange : InRange manager := h.inRange
  cases event with
  | record workflow description operationType =>
      refine ⟨?_, fun other hother => .inr ?_⟩
      · simp only [observe, step, record]
        split <;> exact inRange_of_fields hrange rfl rfl rfl
      · cases hother
        simp only [observe, step, record, Waits, Settled]
        cases hbatch : manager.inBatch <;> simp
  | recordImmediate workflow description operationType =>
      obtain ⟨hadded, hcurrent⟩ := @addEntry_shows { manager with debounceTimer := .none }
        (inRange_of_fields hrange rfl rfl rfl) workflow description operationType
      refine ⟨hadded, fun other hother => .inl ?_⟩
      cases hother
      exact hcurrent
  | startBatch description =>
      refine ⟨inRange_of_fields hrange rfl rfl rfl, fun workflow hlatest => ?_⟩
      refine (h.latest workflow hlatest).imp_right fun hwaits => ⟨?_, hwaits.2⟩
      simp [Settled, observe, step, startBatch]
  | endBatch =>
      simp only [observe, step, latestOf, endBatch]
      cases hbatch : manager.inBatch with
      | false => simpa [hbatch] using h
      | true =>
          cases hpending : manager.pendingRecord with
          | none =>
              exact tracks_unpending h hpending rfl rfl rfl
          | some pending =>
              exact @tracks_added { manager with inBatch := false } _ _ pending _ _
                (inRange_of_fields hrange rfl rfl rfl)
                (hadds (.inl ⟨rfl, hbatch⟩) pending hpending) rfl rfl rfl
  | undo => exact tracks_move h (moves_undo hrange)
  | redo => exact tracks_move h (moves_redo hrange)
  | jumpTo index => exact tracks_move h (moves_jumpTo manager index)
  | timerFires =>
      simp only [observe, step, latestOf, timerFires]
      by_cases harmed : manager.debounceTimer = .armed
      · rw [if_pos harmed]
        cases hpending : manager.pendingRecord with
        | none =>
            simp only [flushPendingRecord]
            exact tracks_unpending h hpending rfl rfl rfl
        | some pending =>
            simp only [flushPendingRecord]
            exact @tracks_added { manager with debounceTimer := .fired } _ _ pending _ _
              (inRange_of_fields hrange rfl rfl rfl)
              (hadds (.inr ⟨rfl, harmed⟩) pending hpending) rfl rfl rfl
      · rw [if_neg harmed]
        exact h

end Steps

/-- In every run in which the records that are added hold the latest workflow, a
manager that has settled shows the latest workflow. -/
theorem settled_shows_latest (maxSize : Nat) (hsize : 0 < maxSize) (events : List Event)
    (h : Meets observe AddsLatest ⟨{ maxSize }, none⟩ events) :
    ShowsLatest (run observe ⟨{ maxSize }, none⟩ events) := by
  have htracks : Tracks (run observe ⟨{ maxSize }, none⟩ events) := by
    refine invariant_of_meets observe Tracks (fun observed event h hadds =>
      tracks_observe h event hadds) ⟨⟨hsize, Int.le_refl _, by simp⟩, ?_⟩ h
    intro workflow hlatest
    cases hlatest
  intro hsettled workflow hlatest
  exact (htracks.latest workflow hlatest).resolve_right fun hwaits => hwaits.1 hsettled

def named (name : String) : Workflow where
  id := "w"
  name := name
  version := "1.0.0"
  format := "graph"
  actions := []
  connections := .empty

theorem settled_shows_latest_flushed :
    ShowsLatest (run observe ⟨{ maxSize := 50 }, none⟩
      [.record (named "first") none none, .timerFires, .undo]) :=
  settled_shows_latest 50 (by decide) _
    ⟨by simp [AddsLatest], fun _ pending hpending => by cases hpending; rfl, by simp [AddsLatest],
      trivial⟩

/-- A record that was pending when another one was made at once is added by the end
of a later batch without records. -/
theorem replayed_by_empty_batch :
    ¬ ∀ events : List Event, ShowsLatest (run observe ⟨{}, none⟩ events) := by
  intro h
  have hshown := h [.record (named "first") none none, .recordImmediate (named "second") none none,
    .startBatch none, .endBatch] ⟨by decide, by decide⟩ (named "second") rfl
  revert hshown
  decide

end Qontinui.HistoryManager
