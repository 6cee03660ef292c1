import Qontinui.Sync.ChangeAccounting

/-!
Edits against saves. A save covers the edits accepted before its configuration was
taken. The answer of a save marks the tracker clean without looking at the edits
accepted since, and the flush of those edits is then refused.
-/

namespace Qontinui.SyncCoordinator

open Runs

/-- Edits are numbered in the order they are accepted. -/
structure EditBook where
  edits : Nat := 0
  /-- For each save in flight, the edits accepted before it started. -/
  starts : List Nat := []
  /-- The edits accepted before the last successful save started. -/
  savedUpTo : Nat := 0
  /-- The edits accepted before the last explicit discard. -/
  discardedUpTo : Nat := 0
  deriving Repr, DecidableEq

/-- The edits that a lock, a reload, a cancel, a project switch or a reset discards are
those accepted before it. -/
def discards (coordinator : SyncCoordinator) (occurrence : Occurrence) : Bool :=
  match occurrence.event with
  | .cancel | .destroy | .webSocket (.lockAcquired _ _ _) => true
  | .reload | .webSocket (.lockReleased _ _) => coordinator.reloadFromBackendFn
  | .reloadSettles (.resolves _) => 0 < coordinator.reloadsInFlight
  | .updateServerVersion _ isReload => isReload
  | .initializeCoordinator config => initializeSetsProject config
  | .updateConfig config => coordinator.updateSetsProject config
  | _ => false

def editsAfter (coordinator : SyncCoordinator) (edits : Nat) (occurrence : Occurrence) : Nat :=
  match occurrence.event with
  | .trackChange _ => if coordinator.acceptsEdits then edits + 1 else edits
  | _ => edits

/-- The saves in flight after a step, each with the edits before it. -/
def startsAfter (coordinator : SyncCoordinator) (book : EditBook) (occurrence : Occurrence) :
    List Nat :=
  (match occurrence.event with
    | .saveSettles index _ => book.starts.eraseIdx index
    | _ => book.starts) ++
  (coordinator.startedSave occurrence).toList.map
    fun _ => coordinator.editsAfter book.edits occurrence

/-- A save that reports success becomes the last successful one. -/
def savedAfter (book : EditBook) (occurrence : Occurrence) : Nat :=
  match occurrence.event with
  | .saveSettles index (.resolves result) =>
      if result.success then book.starts[index]?.getD book.savedUpTo else book.savedUpTo
  | _ => book.savedUpTo

def stepEdits (books : SyncCoordinator × EditBook) (occurrence : Occurrence) :
    SyncCoordinator × EditBook :=
  (books.1.step occurrence,
    { edits := books.1.editsAfter books.2.edits occurrence
      starts := books.1.startsAfter books.2 occurrence
      savedUpTo := savedAfter books.2 occurrence
      discardedUpTo :=
        if books.1.discards occurrence then books.2.edits else books.2.discardedUpTo })

/-- With nothing dirty and nothing pending, the last successful save was taken after
every edit that was not discarded. -/
def EditsSaved (books : SyncCoordinator × EditBook) : Prop :=
  books.1.versionTracker.dirty = false → books.1.changeTracker.pendingChanges = [] →
    books.2.edits ≤ max books.2.savedUpTo books.2.discardedUpTo

/-- A save that reports success while nothing is pending started after every edit. A flush
that finds pending changes but a clean tracker comes when every edit is saved or discarded,
and so does a server version taken over from elsewhere. -/
def KeepsEdits (books : SyncCoordinator × EditBook) (occurrence : Occurrence) : Prop :=
  match occurrence.event with
  | .saveSettles index (.resolves result) =>
      result.success = true → books.1.changeTracker.pendingChanges = [] →
        (result.newVersion.isSome = true ∨ books.1.versionTracker.dirty = false) →
        ∀ start, books.2.starts[index]? = some start →
          books.2.edits ≤ max start books.2.discardedUpTo
  | .updateServerVersion _ false =>
      books.1.changeTracker.pendingChanges = [] →
        books.2.edits ≤ max books.2.savedUpTo books.2.discardedUpTo
  | _ =>
      ∀ flushed, books.1.flushing occurrence = some flushed →
        flushed.changeTracker.pendingChanges ≠ [] → flushed.versionTracker.dirty = false →
        books.2.edits ≤ max books.2.savedUpTo books.2.discardedUpTo

theorem starts_after_length {coordinator : SyncCoordinator} {book : EditBook}
    (h : book.starts.length = coordinator.savesInFlight.length) (occurrence : Occurrence) :
    (coordinator.startsAfter book occurrence).length =
      (coordinator.step occurrence).savesInFlight.length := by
  rw [(step_saves coordinator occurrence).1, startsAfter, List.length_append,
    List.length_append, List.length_map]
  congr 1
  obtain ⟨event, now, configuration⟩ := occurrence
  cases event <;> simp [unsettled, List.length_eraseIdx, h]

theorem flush_now_version (flushed : SyncCoordinator) (configuration : Configuration) :
    (flushed.flushNow configuration).versionTracker = flushed.versionTracker := by
  rw [flush_now_eq]

variable {occurrence : Occurrence} {books : SyncCoordinator × EditBook}

theorem trigger_book (h : occurrence.event.isTrigger = true) (coordinator : SyncCoordinator)
    (book : EditBook) :
    coordinator.discards occurrence = false ∧ savedAfter book occurrence = book.savedUpTo := by
  obtain ⟨event, now, configuration⟩ := occurrence
  cases event <;> first | exact ⟨rfl, rfl⟩ | cases h

theorem trigger_keeps_edits (h : occurrence.event.isTrigger = true) :
    KeepsEdits books occurrence ↔
      ∀ flushed, books.1.flushing occurrence = some flushed →
        flushed.changeTracker.pendingChanges ≠ [] → flushed.versionTracker.dirty = false →
        books.2.edits ≤ max books.2.savedUpTo books.2.discardedUpTo := by
  obtain ⟨event, now, configuration⟩ := occurrence
  cases event <;> first | exact Iff.rfl | cases h

theorem edits_after_other (coordinator : SyncCoordinator) (edits : Nat)
    (h : ∀ event, occurrence.event ≠ .trackChange event) :
    coordinator.editsAfter edits occurrence = edits := by
  simp only [editsAfter]

theorem edits_saved_of_dirty (h : books.1.versionTracker.dirty = true) : EditsSaved books := by
  intro hclean
  rw [h] at hclean
  cases hclean

theorem trigger_edits_saved_iff (h : EditsSaved books)
    (htrigger : occurrence.event.isTrigger = true) :
    EditsSaved (stepEdits books occurrence) ↔ KeepsEdits books occurrence := by
  obtain ⟨coordinator, book⟩ := books
  obtain ⟨hdiscards, hsaved⟩ := trigger_book htrigger coordinator book
  rw [trigger_keeps_edits htrigger]
  cases hflush : coordinator.flushing occurrence with
  | none =>
      refine iff_of_true ?_ (by simp)
      rcases step_of_not_flushing htrigger hflush with ⟨event, -, -, hstep⟩ | ⟨hrefused, hstep⟩
      · exact edits_saved_of_dirty (by simp [stepEdits, hstep, recordEdit, VersionTracker.markDirty])
      · have hedits : coordinator.editsAfter book.edits occurrence = book.edits := by
          simp only [editsAfter]
          split
          · next event hevent => simp [hrefused event hevent]
          · rfl
        simpa [EditsSaved, stepEdits, hdiscards, hsaved, hstep, hedits] using h
  | some flushed =>
      simp only [Option.some.injEq, forall_eq']
      rcases flushing_cases hflush with ⟨event, -, -, rfl⟩ | ⟨tracker, rfl, hpending, -, hother⟩
      · refine iff_of_true (edits_saved_of_dirty ?_) ?_
        · simp [stepEdits, step_of_flushing hflush, flush_now_version, recordEdit,
            VersionTracker.markDirty]
        · simp [recordEdit, VersionTracker.markDirty]
      · simp only [EditsSaved, stepEdits, step_of_flushing hflush, flush_now_version,
          flush_now_pending, edits_after_other coordinator book.edits hother, hsaved, hdiscards,
          true_imp_iff, hpending]
        constructor
        · intro hafter _ hclean
          exact hafter hclean
        · intro hkeeps hclean
          by_cases hempty : coordinator.changeTracker.pendingChanges = []
          · exact h hclean hempty
          · exact hkeeps hempty hclean

theorem finish_save_dirty (coordinator : SyncCoordinator) (save : Save) (result : SaveResult) :
    (coordinator.finishSave save (.resolves result)).versionTracker.dirty =
      (!(result.success && result.newVersion.isSome) && coordinator.versionTracker.dirty) := by
  obtain ⟨success, newVersion, error, isConflict, serverVersion⟩ := result
  cases success <;> cases newVersion <;> cases isConflict <;> cases serverVersion <;> rfl

theorem settle_edits_saved_iff (h : EditsSaved books)
    (hlength : books.2.starts.length = books.1.savesInFlight.length) (index : Nat)
    (outcome : SaveOutcome) (now : Int) (configuration : Configuration) :
    EditsSaved (stepEdits books ⟨.saveSettles index outcome, now, configuration⟩) ↔
      KeepsEdits books ⟨.saveSettles index outcome, now, configuration⟩ := by
  obtain ⟨coordinator, book⟩ := books
  cases hsave : coordinator.savesInFlight[index]? with
  | none =>
      have hstart : book.starts[index]? = none := by
        rw [List.getElem?_eq_none_iff] at hsave ⊢
        rw [hlength]
        exact hsave
      refine iff_of_true ?_ ?_
      · cases outcome <;>
          simpa [EditsSaved, stepEdits, step, hsave, editsAfter, savedAfter, hstart, discards] using h
      · cases outcome <;> simp [KeepsEdits, hstart, flushing]
  | some save =>
      cases outcome with
      | rejects message =>
          refine iff_of_true ?_ (by simp [KeepsEdits, flushing])
          intro hclean hpending
          simp only [stepEdits, step, hsave, finishSave, ChangeTracker.restore] at hclean hpending
          exact h hclean (List.append_eq_nil_iff.mp hpending).2
      | resolves result =>
          have hindex : index < book.starts.length := by
            rw [hlength]
            exact (List.getElem?_eq_some_iff.mp hsave).1
          obtain ⟨start, hstart⟩ : ∃ start, book.starts[index]? = some start :=
            ⟨_, List.getElem?_eq_getElem hindex⟩
          simp only [EditsSaved, stepEdits, step, hsave, finish_save_dirty, finish_save_pending,
            editsAfter, savedAfter, discards, KeepsEdits, hstart, Option.getD_some,
            Option.some.injEq, forall_eq', Bool.false_eq_true, if_false]
          cases result.success with
          | false => simpa [EditsSaved] using h
          | true =>
              cases result.newVersion.isSome <;> simp
              exact forall_comm

theorem discard_edits_saved (hdiscards : books.1.discards occurrence = true)
    (hother : ∀ event, occurrence.event ≠ .trackChange event) :
    EditsSaved (stepEdits books occurrence) := by
  intro _ _
  simp only [stepEdits, edits_after_other books.1 books.2.edits hother, hdiscards, if_true]
  exact Nat.le_max_right _ _

theorem unchanged_edits_saved (h : EditsSaved books)
    (hother : ∀ event, occurrence.event ≠ .trackChange event)
    (hsaved : savedAfter books.2 occurrence = books.2.savedUpTo)
    (hdirty : (books.1.step occurrence).versionTracker.dirty = books.1.versionTracker.dirty)
    (hpending : (books.1.step occurrence).changeTracker.pendingChanges =
      books.1.changeTracker.pendingChanges) : EditsSaved (stepEdits books occurrence) := by
  cases hdiscards : books.1.discards occurrence with
  | true => exact discard_edits_saved hdiscards hother
  | false =>
      simpa [EditsSaved, stepEdits, edits_after_other books.1 books.2.edits hother, hsaved, hdirty,
        hpending, hdiscards] using h

theorem other_edits_saved_iff (h : EditsSaved books) (event : Event) (now : Int)
    (configuration : Configuration) (hother : event.isTrigger = false)
    (hsettles : ∀ index outcome, event ≠ .saveSettles index outcome) :
    EditsSaved (stepEdits books ⟨event, now, configuration⟩) ↔
      KeepsEdits books ⟨event, now, configuration⟩ := by
  obtain ⟨coordinator, book⟩ := books
  cases event with
  | trackChange | debounceTimeout | maxDelayTimeout | fallbackInterval | saveNow => cases hother
  | saveSettles index outcome => exact absurd rfl (hsettles index outcome)
  | updateServerVersion version isReload =>
      cases isReload with
      | true => exact iff_of_true (discard_edits_saved rfl (by simp)) (by simp [KeepsEdits, flushing])
      | false =>
          simp only [EditsSaved, stepEdits, step, updateServerVersion, editsAfter, savedAfter,
            discards, KeepsEdits, VersionTracker.updateServerVersion, Bool.false_eq_true, if_false,
            true_imp_iff]
  | initializeCoordinator config =>
      obtain ⟨tracker, hstep, hpending⟩ := initialize_eq coordinator config
      exact iff_of_true
        (unchanged_edits_saved h (by simp) rfl (by simp [step, hstep]) (by simpa [step, hstep]))
        (by simp [KeepsEdits, flushing])
  | updateConfig config =>
      obtain ⟨tracker, hstep, hpending⟩ := update_config_eq coordinator config
      exact iff_of_true
        (unchanged_edits_saved h (by simp) rfl (by simp [step, hstep]) (by simpa [step, hstep]))
        (by simp [KeepsEdits, flushing])
  | cancel | destroy =>
      exact iff_of_true (discard_edits_saved rfl (by simp)) (by simp [KeepsEdits, flushing])
  | reload =>
      refine iff_of_true ?_ (by simp [KeepsEdits, flushing])
      cases hfn : coordinator.reloadFromBackendFn with
      | true => exact discard_edits_saved hfn (by simp)
      | false =>
          exact unchanged_edits_saved h (by simp) rfl (by simp [step, performReload, hfn])
            (by simp [step, performReload, hfn])
  | reloadSettles outcome =>
      refine iff_of_true ?_ (by cases outcome <;> simp [KeepsEdits, flushing])
      by_cases hflight : coordinator.reloadsInFlight = 0
      · exact unchanged_edits_saved h (by simp) rfl (by simp [step, hflight])
          (by simp [step, hflight])
      · cases outcome with
        | resolves version =>
            exact discard_edits_saved (by simpa [discards] using Nat.pos_of_ne_zero hflight)
              (by simp)
        | rejects message =>
            exact unchanged_edits_saved h (by simp) rfl (by simp [step, hflight, finishReload])
              (by simp [step, hflight, finishReload])
  | webSocket event =>
      refine iff_of_true ?_ (by simp [KeepsEdits, flushing])
      cases event with
      | lockAcquired => exact discard_edits_saved rfl (by simp)
      | lockReleased lockId newVersion =>
          cases hfn : coordinator.reloadFromBackendFn with
          | true => exact discard_edits_saved hfn (by simp)
          | false =>
              exact unchanged_edits_saved h (by simp) rfl
                (by simp [step, handleWebSocketEvent, performReload, hfn,
                  VersionTracker.updateServerVersionExternal])
                (by simp [step, handleWebSocketEvent, performReload, hfn])
      | _ => exact unchanged_edits_saved h (by simp) rfl rfl rfl
  | beforeUnload =>
      refine iff_of_true (unchanged_edits_saved h (by simp) rfl ?_ ?_) (by simp [KeepsEdits, flushing])
      · simp only [step, handleBeforeUnload]
        split <;> rfl
      · simp only [step, handleBeforeUnload]
        split <;> rfl
  | _ =>
      exact iff_of_true (unchanged_edits_saved h (by simp) rfl rfl rfl)
        (by simp [KeepsEdits, flushing])

def BookMatches (books : SyncCoordinator × EditBook) : Prop :=
  books.2.starts.length = books.1.savesInFlight.length

theorem step_edits_saved_iff (books : SyncCoordinator × EditBook) (occurrence : Occurrence)
    (h : BookMatches books ∧ EditsSaved books) :
    (BookMatches (stepEdits books occurrence) ∧ EditsSaved (stepEdits books occurrence)) ↔
      KeepsEdits books occurrence := by
  obtain ⟨hlength, hsaved⟩ := h
  have hmatches : BookMatches (stepEdits books occurrence) :=
    starts_after_length hlength occurrence
  rw [and_iff_right hmatches]
  obtain ⟨event, now, configuration⟩ := occurrence
  cases htrigger : event.isTrigger with
  | true => exact trigger_edits_saved_iff hsaved htrigger
  | false =>
      by_cases hsettles : ∃ index outcome, event = .saveSettles index outcome
      · obtain ⟨index, outcome, rfl⟩ := hsettles
        exact settle_edits_saved_iff hsaved hlength index outcome now configuration
      · exact other_edits_saved_iff hsaved event now configuration htrigger
          fun index outcome hevent => hsettles ⟨index, outcome, hevent⟩

/-- Nothing dirty and nothing pending means every edit is saved or discarded, in exactly
the runs in which no save succeeds over edits it does not cover, unless these stay
pending until the tracker is dirty again. -/
theorem edits_saved_iff (occurrences : List Occurrence) :
    (∀ front, front <+: occurrences → EditsSaved (run stepEdits ({}, {}) front)) ↔
      Meets stepEdits KeepsEdits ({}, {}) occurrences := by
  have hmatches : ∀ front, BookMatches (run stepEdits ({}, {}) front) := fun front =>
    invariant_of_step stepEdits BookMatches (fun _ _ h => starts_after_length h _) _ front rfl
  have hbooks := invariant_along_iff stepEdits (fun books => BookMatches books ∧ EditsSaved books)
    step_edits_saved_iff ({}, {}) occurrences ⟨rfl, fun _ _ => Nat.zero_le _⟩
  simpa only [hmatches, true_and] using hbooks

/-- An edit during a save is flushed after the save marked the tracker clean: nothing is
dirty or pending, and the second edit was never sent. -/
theorem edit_lost_during_save :
    let books := run stepEdits ({}, {}) (openProject ++
      [.trackChange ⟨.workflow, "w1", .update, 1⟩, .debounceTimeout,
        .trackChange ⟨.workflow, "w1", .update, 2⟩,
        .saveSettles 0 (.resolves { success := true, newVersion := some 6 }),
        .debounceTimeout].map Event.withData)
    books.1.sent = [.save (some 5)] ∧ books.2.edits = 2 ∧ ¬ EditsSaved books := by
  refine ⟨by decide, by decide, ?_⟩
  intro h
  exact absurd (h (by decide) (by decide)) (by decide)

end Qontinui.SyncCoordinator
