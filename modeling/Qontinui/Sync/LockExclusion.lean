import Qontinui.Sync.CoordinatorSteps

/-!
Locks against saves. A lock keeps the coordinator from saving as long as the state
machine stays locked and the version tracker clean; both last until an event moves
the machine out of the locked state without releasing the lock.
-/

namespace Qontinui.SyncCoordinator

open Runs

/-- The locks held after an event. Setting a project or a reset gives them up. -/
def locksAfter (coordinator : SyncCoordinator) (held : List String) (occurrence : Occurrence) :
    List String :=
  match occurrence.event with
  | .webSocket (.lockAcquired lockId _ _) => lockId :: held
  | .webSocket (.lockReleased lockId _) => held.filter (· ≠ lockId)
  | .initializeCoordinator config => if initializeSetsProject config then [] else held
  | .updateConfig config => if coordinator.updateSetsProject config then [] else held
  | .destroy => []
  | _ => held

/-- The coordinator next to the locks received and not released since. -/
def stepLocks (locked : SyncCoordinator × List String) (occurrence : Occurrence) :
    SyncCoordinator × List String :=
  (locked.1.step occurrence, locked.1.locksAfter locked.2 occurrence)

def heldLocks (occurrences : List Occurrence) : List String :=
  (run stepLocks ({}, []) occurrences).2

/-- A lock arrives where it is accepted. While locks are held none is released before
the last one, no reload starts, and no save or reload fails. -/
def KeepsLocks (locked : SyncCoordinator × List String) (occurrence : Occurrence) : Prop :=
  match occurrence.event with
  | .webSocket (.lockAcquired _ _ _) =>
      locked.1.stateMachine.state ≠ .conflict ∧ locked.1.stateMachine.state ≠ .error
  | .webSocket (.lockReleased lockId _) => locked.2.filter (· ≠ lockId) = []
  | .reload => locked.2 ≠ [] → locked.1.reloadFromBackendFn = false
  | .setLoadingFromBackend loading => locked.2 ≠ [] → loading = false
  | .saveSettles index outcome =>
      locked.2 ≠ [] → index < locked.1.savesInFlight.length → outcome.isError = false
  | .reloadSettles outcome =>
      locked.2 ≠ [] → 0 < locked.1.reloadsInFlight → ∃ version, outcome = .resolves version
  | _ => True

/-- The coordinator under a lock: the state machine is locked and nothing is dirty. -/
structure UnderLock (coordinator : SyncCoordinator) : Prop where
  locked : coordinator.stateMachine.state = .locked
  clean : coordinator.versionTracker.dirty = false

theorem locked_send_eq {context : SyncContext} (h : context.state = .locked) :
    context.send .userEdit = context ∧
      (∀ version, context.send (.saveCompleted version) = context) ∧
      (∀ version, context.send (.saveRejected version) = context) ∧
      (∀ version, context.send (.reloadCompleted version) = context) ∧
      (∀ localVersion version,
        context.send (.conflictDetected localVersion version) = context) ∧
      (∀ resolution version,
        context.send (.conflictResolved resolution version) = context) := by
  simp [SyncContext.send, SyncContext.canTransition, SyncState.validTransitions, h]

namespace UnderLock

variable {coordinator : SyncCoordinator}

theorem blocked (h : coordinator.UnderLock) :
    coordinator.stateMachine.isSaveBlocked = true ∧
      coordinator.stateMachine.isEditBlocked = true := by
  simp [SyncContext.isSaveBlocked, SyncContext.isEditBlocked, h.locked]

theorem rejects_edits (h : coordinator.UnderLock) : coordinator.acceptsEdits = false := by
  simp [acceptsEdits, h.blocked.2]

variable {occurrence : Occurrence}

section

variable (h : coordinator.UnderLock)
include h

theorem flushing {flushed : SyncCoordinator}
    (hflush : coordinator.flushing occurrence = some flushed) :
    ∃ tracker, flushed = { coordinator with changeTracker := tracker } := by
  rcases flushing_cases hflush with ⟨event, -, haccepts, -⟩ | ⟨tracker, rfl, -, -⟩
  · rw [h.rejects_edits] at haccepts
    cases haccepts
  · exact ⟨tracker, rfl⟩

theorem trigger (htrigger : occurrence.event.isTrigger = true) :
    (coordinator.step occurrence).UnderLock := by
  cases hflush : coordinator.flushing occurrence with
  | some flushed =>
      obtain ⟨tracker, rfl⟩ := h.flushing hflush
      rw [step_of_flushing hflush, flush_now_eq]
      have hcontext : ∀ next, next = coordinator.stateMachine → next.state = .locked := by
        rintro next rfl
        exact h.locked
      refine ⟨hcontext _ ?_, h.clean⟩
      simp [flushedContext, refusedContext, savesNow, h.blocked.1]
  | none =>
      rcases step_of_not_flushing htrigger hflush with ⟨event, -, haccepts, -⟩ | ⟨-, hstep⟩
      · rw [h.rejects_edits] at haccepts
        cases haccepts
      · rw [hstep]
        exact h

theorem finish_save (save : Save) {outcome : SaveOutcome} (hanswer : outcome.isError = false) :
    (coordinator.finishSave save outcome).UnderLock := by
  obtain ⟨-, hcompleted, hrejected, -⟩ := locked_send_eq h.locked
  cases outcome with
  | rejects message => cases hanswer
  | resolves result =>
      simp only [finishSave]
      split
      · exact ⟨by rw [hcompleted]; exact h.locked, rfl⟩
      · next hsuccess =>
          split
          · exact ⟨by rw [hrejected]; exact h.locked, h.clean⟩
          · next hconflict =>
              obtain ⟨success, newVersion, error, isConflict, serverVersion⟩ := result
              cases success <;> cases newVersion <;> cases isConflict <;>
                cases serverVersion <;> simp_all [SaveOutcome.isError]

/-- An event that leaves a lock held leaves the coordinator under it. -/
theorem other {held : List String} (hheld : held ≠ [])
    (hkeeps : KeepsLocks (coordinator, held) occurrence)
    (hafter : coordinator.locksAfter held occurrence ≠ [])
    (hother : occurrence.event.isTrigger = false) : (coordinator.step occurrence).UnderLock := by
  obtain ⟨event, now, configuration⟩ := occurrence
  obtain ⟨-, -, -, hreloaded, hconflict, hresolved⟩ := locked_send_eq h.locked
  cases event with
  | trackChange | debounceTimeout | maxDelayTimeout | fallbackInterval | saveNow => cases hother
  | initializeCoordinator config =>
      have hset : initializeSetsProject config = false := by
        simpa [locksAfter, hheld] using hafter
      obtain ⟨tracker, hstep, -⟩ := initialize_eq coordinator config
      simp only [step, hstep, projectContext, hset]
      exact ⟨h.locked, h.clean⟩
  | updateConfig config =>
      have hset : coordinator.updateSetsProject config = false := by
        simpa [locksAfter, hheld] using hafter
      obtain ⟨tracker, hstep, -⟩ := update_config_eq coordinator config
      simp only [step, hstep, projectContext, hset]
      exact ⟨h.locked, h.clean⟩
  | saveSettles index outcome =>
      cases hsave : coordinator.savesInFlight[index]? with
      | none =>
          simp only [step, hsave]
          exact h
      | some save =>
          have hanswered : UnderLock { coordinator with
              savesInFlight := coordinator.savesInFlight.eraseIdx index } :=
            ⟨h.locked, h.clean⟩
          have hindex := (List.getElem?_eq_some_iff.mp hsave).1
          simp only [step, hsave]
          exact hanswered.finish_save save (hkeeps hheld hindex)
  | reload =>
      have hfn : coordinator.reloadFromBackendFn = false := hkeeps hheld
      simp only [step, performReload, hfn]
      exact h
  | reloadSettles outcome =>
      simp only [step]
      split
      · exact h
      · next hflight =>
          obtain ⟨version, rfl⟩ := hkeeps hheld (Nat.pos_of_ne_zero hflight)
          exact ⟨by simp only [finishReload, hreloaded]; exact h.locked, rfl⟩
  | setLoadingFromBackend loading =>
      have hloading : loading = false := hkeeps hheld
      refine ⟨?_, h.clean⟩
      simp only [step, setLoadingFromBackend, hloading, Bool.false_eq_true, if_false, hreloaded]
      exact h.locked
  | updateServerVersion version isReload =>
      refine ⟨h.locked, ?_⟩
      cases isReload <;> rfl
  | webSocket event =>
      cases event with
      | lockAcquired lockId operation userId =>
          refine ⟨?_, rfl⟩
          simp [step, handleWebSocketEvent, SyncContext.send, SyncContext.canTransition,
            SyncState.validTransitions, h.locked]
      | lockReleased lockId newVersion => exact absurd hkeeps hafter
      | versionUpdated version source => exact ⟨h.locked, h.clean⟩
      | conflict localVersion serverVersion =>
          refine ⟨?_, h.clean⟩
          simp only [step, handleWebSocketEvent, hconflict]
          exact h.locked
      | ping | error => exact h
  | resolveConflict resolution version =>
      refine ⟨?_, h.clean⟩
      simp only [step, hresolved]
      exact h.locked
  | beforeUnload =>
      simp only [step, handleBeforeUnload]
      split <;> exact ⟨h.locked, h.clean⟩
  | destroy => exact absurd rfl hafter
  | _ => exact ⟨h.locked, h.clean⟩

end

theorem of_acquired (lockId operation userId : String)
    (hconflict : coordinator.stateMachine.state ≠ .conflict)
    (herror : coordinator.stateMachine.state ≠ .error) :
    (coordinator.handleWebSocketEvent (.lockAcquired lockId operation userId)).UnderLock := by
  have hready : coordinator.stateMachine.canTransition .locked = true ∨
      coordinator.stateMachine.state = .locked := by
    revert hconflict herror
    rw [SyncContext.canTransition]
    cases coordinator.stateMachine.state <;> decide
  refine ⟨?_, rfl⟩
  simp only [handleWebSocketEvent, SyncContext.send]
  rcases hready with hready | hlocked
  · simp [hready]
  · split
    · rfl
    · exact hlocked

theorem sends_nothing (h : coordinator.UnderLock) (occurrence : Occurrence) :
    (coordinator.step occurrence).sent = coordinator.sent := by
  have hstarted : coordinator.startedSave occurrence = none := by
    cases hflush : coordinator.flushing occurrence with
    | none => simp [startedSave, hflush]
    | some flushed =>
        obtain ⟨tracker, rfl⟩ := h.flushing hflush
        simp [startedSave, hflush, flushSave, savesNow, h.blocked.1]
  have hunload : coordinator.unloadRequests occurrence = [] := by
    simp only [unloadRequests]
    split
    · simp [savesOnUnload, h.clean]
    · rfl
  simp [(step_saves coordinator occurrence).2, hstarted, hunload]

end UnderLock

theorem held_of_after {coordinator : SyncCoordinator} {held : List String}
    {occurrence : Occurrence} (h : coordinator.locksAfter held occurrence ≠ []) :
    (∃ lockId operation userId,
      occurrence.event = .webSocket (.lockAcquired lockId operation userId)) ∨ held ≠ [] := by
  by_cases hheld : held = []
  · apply Or.inl
    simp only [locksAfter, hheld] at h
    split at h
    · next lockId operation userId hevent => exact ⟨lockId, operation, userId, hevent⟩
    all_goals simp at h
  · exact Or.inr hheld

theorem keeps_locks_step (locked : SyncCoordinator × List String) (occurrence : Occurrence)
    (h : locked.2 ≠ [] → locked.1.UnderLock) (hkeeps : KeepsLocks locked occurrence)
    (hafter : (stepLocks locked occurrence).2 ≠ []) :
    (stepLocks locked occurrence).1.UnderLock := by
  obtain ⟨event, now, configuration⟩ := occurrence
  rcases held_of_after hafter with ⟨lockId, operation, userId, hevent⟩ | hheld
  · subst hevent
    exact UnderLock.of_acquired lockId operation userId hkeeps.1 hkeeps.2
  · cases htrigger : event.isTrigger with
    | true => exact (h hheld).trigger htrigger
    | false => exact (h hheld).other hheld hkeeps hafter htrigger

/-- While a lock is held no save is sent, in every run that accepts each lock and
leaves the locked state through its last release only. -/
theorem locks_exclude_saves (occurrences : List Occurrence)
    (h : Meets stepLocks KeepsLocks ({}, []) occurrences)
    (front : List Occurrence) (occurrence : Occurrence) (rest : List Occurrence)
    (hsplit : occurrences = front ++ occurrence :: rest) (hheld : heldLocks front ≠ []) :
    (run step {} (front ++ [occurrence])).sent = (run step {} front).sent := by
  rw [hsplit, meets_append] at h
  have hunder := invariant_of_meets stepLocks
    (fun locked => locked.2 ≠ [] → locked.1.UnderLock) keeps_locks_step
    (fun hempty => absurd rfl hempty) h.1 hheld
  rw [run_map stepLocks step Prod.fst (fun _ _ => rfl)] at hunder
  rw [run_concat]
  exact hunder.sends_nothing occurrence

/-- A lock arrives while an edit is pending, and the flush that follows sends nothing. -/
theorem locks_exclude_saves_editing :
    let front := openProject ++ [.trackChange ⟨.workflow, "w1", .update, 1⟩,
      .webSocket (.lockAcquired "lock-1" "import_states" "user-2")].map Event.withData
    (run step {} (front ++ [Event.withData .saveNow])).sent = (run step {} front).sent := by
  intro front
  have hkeeps : Meets stepLocks KeepsLocks ({}, []) (front ++ [Event.withData .saveNow]) :=
    show True ∧ True ∧ True ∧ True ∧ (_ → _) ∧ True ∧ (_ → _) ∧ True ∧ (_ ∧ _) ∧ True ∧ True from
      ⟨trivial, trivial, trivial, trivial, by decide, trivial, by decide, trivial,
        ⟨by decide, by decide⟩, trivial, trivial⟩
  exact locks_exclude_saves _ hkeeps front _ [] rfl (by decide)

/-- A manual reload leaves the locked state, and the next edit is saved although the
lock was never released. -/
theorem lock_lost_by_reload :
    let front := openProject ++
      [.webSocket (.lockAcquired "lock-1" "import_states" "user-2"), .reload,
        .reloadSettles (.resolves 5), .trackChange ⟨.workflow, "w1", .update, 1⟩].map
        Event.withData
    heldLocks front = ["lock-1"] ∧
      (run step {} (front ++ [Event.withData .debounceTimeout])).sent =
        (run step {} front).sent ++ [.save (some 5)] := by
  decide

end Qontinui.SyncCoordinator
