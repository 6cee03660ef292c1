import Mathlib.Data.List.Perm.Basic
import Qontinui.Sync.CoordinatorSteps

/-!
Where an accepted change can be. A step moves changes between the change tracker,
the saves in flight, the saved and the cancelled ones; those it drops on the way are
lost. A run accounts for every accepted change exactly when it loses none.
-/

namespace Qontinui.SyncCoordinator

open Runs

/-- The changes in the change tracker and in the saves that have not settled. -/
def held (coordinator : SyncCoordinator) : List ChangeEvent :=
  coordinator.changeTracker.pendingChanges ++ coordinator.savesInFlight.flatMap (·.changes)

/-- The change that a step lets into the change tracker. -/
def acceptedBy (coordinator : SyncCoordinator) (occurrence : Occurrence) : List ChangeEvent :=
  match occurrence.event with
  | .trackChange event =>
      if coordinator.acceptsEdits && !coordinator.changeTracker.isPaused then [event] else []
  | _ => []

/-- The changes of a save whose call reports success. -/
def savedBy (coordinator : SyncCoordinator) (occurrence : Occurrence) : List ChangeEvent :=
  match occurrence.event with
  | .saveSettles index (.resolves result) =>
      if result.success then (coordinator.savesInFlight[index]?.map (·.changes)).getD [] else []
  | _ => []

def cancelledBy (coordinator : SyncCoordinator) (occurrence : Occurrence) : List ChangeEvent :=
  match occurrence.event with
  | .cancel | .webSocket (.lockAcquired _ _ _) => coordinator.changeTracker.pendingChanges
  | .reload | .webSocket (.lockReleased _ _) =>
      if coordinator.reloadFromBackendFn then coordinator.changeTracker.pendingChanges else []
  | _ => []

/-- The changes that a step drops: those of a flush that starts no save, and those of
a save whose call returns without success. -/
def lostBy (coordinator : SyncCoordinator) (occurrence : Occurrence) : List ChangeEvent :=
  match occurrence.event with
  | .saveSettles index (.resolves result) =>
      if result.success then [] else (coordinator.savesInFlight[index]?.map (·.changes)).getD []
  | _ =>
      match coordinator.flushing occurrence with
      | some flushed =>
          if (flushed.flushSave occurrence.configuration).isSome then []
          else flushed.changeTracker.pendingChanges
      | none => []

theorem record_edit_pending (coordinator : SyncCoordinator) (event : ChangeEvent) (now : Int) :
    (coordinator.recordEdit event now).changeTracker.pendingChanges =
      coordinator.changeTracker.pendingChanges ++
        if coordinator.changeTracker.isPaused then [] else [event] := by
  simp only [recordEdit, ChangeTracker.trackChange]
  split
  · simp
  · split <;> rfl

variable {occurrence : Occurrence} {coordinator flushed : SyncCoordinator}

theorem accepted_by_other (coordinator : SyncCoordinator)
    (h : ∀ event, occurrence.event ≠ .trackChange event) :
    coordinator.acceptedBy occurrence = [] := by
  simp only [acceptedBy]

theorem flushing_pending (h : coordinator.flushing occurrence = some flushed) :
    flushed.changeTracker.pendingChanges = coordinator.changeTracker.pendingChanges ++
      coordinator.acceptedBy occurrence := by
  rcases flushing_cases h with ⟨event, hevent, haccepts, rfl⟩ | ⟨tracker, rfl, hpending, -, hother⟩
  · rw [record_edit_pending, acceptedBy, hevent]
    cases hpaused : coordinator.changeTracker.isPaused <;> simp [haccepts]
  · rw [accepted_by_other coordinator hother, List.append_nil]
    exact hpending

theorem flush_save_changes {configuration : Configuration} {save : Save}
    (h : flushed.flushSave configuration = some save) :
    save.changes = flushed.changeTracker.pendingChanges := by
  simp only [flushSave, Option.ite_none_right_eq_some, Option.some.injEq] at h
  obtain ⟨-, rfl⟩ := h
  rfl

theorem flush_now_pending (flushed : SyncCoordinator) (configuration : Configuration) :
    (flushed.flushNow configuration).changeTracker.pendingChanges = [] := by
  rw [flush_now_eq]
  dsimp only
  split
  · next h => exact h
  · rfl

theorem trigger_accounts (h : occurrence.event.isTrigger = true) (coordinator : SyncCoordinator) :
    coordinator.savedBy occurrence = [] ∧ coordinator.cancelledBy occurrence = [] := by
  obtain ⟨event, now, configuration⟩ := occurrence
  cases event <;> first | exact ⟨rfl, rfl⟩ | cases h

theorem flush_conserves (hflush : coordinator.flushing occurrence = some flushed)
    (htrigger : occurrence.event.isTrigger = true) (change : ChangeEvent) :
    (coordinator.held ++ coordinator.acceptedBy occurrence).count change =
      ((coordinator.step occurrence).held ++ coordinator.lostBy occurrence).count change := by
  have hlost : coordinator.lostBy occurrence =
      if (flushed.flushSave occurrence.configuration).isSome then []
      else flushed.changeTracker.pendingChanges := by
    simp only [lostBy, hflush]
    split
    · next hevent => rw [hevent] at htrigger; cases htrigger
    · rfl
  have hpending := flushing_pending hflush
  have hsaves := (step_saves coordinator occurrence).1
  rw [(trigger_saves htrigger coordinator).1] at hsaves
  rw [hlost, held, held, hsaves, step_of_flushing hflush, flush_now_pending, startedSave, hflush,
    Option.bind_some]
  cases hsave : flushed.flushSave occurrence.configuration with
  | none => simp [hpending]; omega
  | some save => simp [flush_save_changes hsave, hpending]; omega

theorem unflushed_conserves (hflush : coordinator.flushing occurrence = none)
    (htrigger : occurrence.event.isTrigger = true) (change : ChangeEvent) :
    (coordinator.held ++ coordinator.acceptedBy occurrence).count change =
      ((coordinator.step occurrence).held ++ coordinator.lostBy occurrence).count change := by
  have hlost : coordinator.lostBy occurrence = [] := by
    simp only [lostBy, hflush]
    split
    · next hevent => rw [hevent] at htrigger; cases htrigger
    · rfl
  rcases step_of_not_flushing htrigger hflush with
    ⟨event, hevent, haccepts, hstep⟩ | ⟨hrefused, hstep⟩
  · rw [hlost, hstep, held, held, record_edit_pending, acceptedBy, hevent]
    simp only [haccepts, recordEdit, List.count_append]
    cases coordinator.changeTracker.isPaused <;> simp; omega
  · have hnone : coordinator.acceptedBy occurrence = [] := by
      simp only [acceptedBy]
      split
      · next event hevent => simp [hrefused event hevent]
      · rfl
    rw [hlost, hstep, hnone]

theorem in_flight_count {saves : List Save} {index : Nat} {save : Save}
    (h : saves[index]? = some save) (change : ChangeEvent) :
    (saves.flatMap (·.changes)).count change =
      ((saves.eraseIdx index).flatMap (·.changes)).count change + save.changes.count change := by
  obtain ⟨hindex, rfl⟩ := List.getElem?_eq_some_iff.mp h
  have hperm := List.getElem_cons_eraseIdx_perm hindex
  have hcount : ((saves[index] :: saves.eraseIdx index).flatMap (·.changes)).count change =
      (saves.flatMap (·.changes)).count change :=
    (hperm.flatMap fun _ _ => List.Perm.refl _).count_eq change
  rw [← hcount, List.flatMap_cons, List.count_append]
  omega

theorem finish_save_pending (coordinator : SyncCoordinator) (save : Save)
    (result : SaveResult) :
    (coordinator.finishSave save (.resolves result)).changeTracker = coordinator.changeTracker := by
  simp only [finishSave]
  split
  · rfl
  · split <;> rfl

theorem settle_conserves (coordinator : SyncCoordinator) (index : Nat) (outcome : SaveOutcome)
    (now : Int) (configuration : Configuration) (change : ChangeEvent) :
    let occurrence : Occurrence := ⟨.saveSettles index outcome, now, configuration⟩
    coordinator.held.count change =
      ((coordinator.step occurrence).held ++ coordinator.savedBy occurrence ++
        coordinator.lostBy occurrence).count change := by
  intro occurrence
  have hsaves := (other_step_saves rfl coordinator : _ ∧ (coordinator.step occurrence).sent = _).1
  cases hsave : coordinator.savesInFlight[index]? with
  | none =>
      have hstep : coordinator.step occurrence = coordinator := by
        simp only [occurrence, step, hsave]
      rw [hstep]
      cases outcome <;> simp [occurrence, savedBy, lostBy, flushing, hsave]
  | some save =>
      have hcount := in_flight_count hsave change
      cases outcome with
      | rejects message =>
          simp only [held, hsaves, unsettled, List.count_append, hcount]
          simp [occurrence, step, hsave, finishSave, ChangeTracker.restore, savedBy, lostBy,
            flushing]
          omega
      | resolves result =>
          simp only [held, hsaves, unsettled, List.count_append, hcount]
          simp only [occurrence, step, hsave, finish_save_pending, savedBy, lostBy,
            Option.map_some, Option.getD_some]
          cases result.success <;> simp <;> omega

theorem perform_reload_pending (coordinator : SyncCoordinator) :
    coordinator.performReload.changeTracker.pendingChanges ++
      (if coordinator.reloadFromBackendFn then coordinator.changeTracker.pendingChanges else []) =
        coordinator.changeTracker.pendingChanges := by
  cases hfn : coordinator.reloadFromBackendFn <;> simp [performReload, hfn, ChangeTracker.cancel]

section

variable (hsettles : ∀ index outcome, occurrence.event ≠ .saveSettles index outcome)
include hsettles

/-- Apart from triggers and answers, a step cancels all pending changes or none. -/
theorem other_pending (hother : occurrence.event.isTrigger = false) (coordinator : SyncCoordinator) :
    (coordinator.step occurrence).changeTracker.pendingChanges ++
      coordinator.cancelledBy occurrence = coordinator.changeTracker.pendingChanges := by
  obtain ⟨event, now, configuration⟩ := occurrence
  cases event with
  | trackChange | debounceTimeout | maxDelayTimeout | fallbackInterval | saveNow => cases hother
  | saveSettles index outcome => exact absurd rfl (hsettles index outcome)
  | initializeCoordinator config =>
      obtain ⟨tracker, hstep, hpending⟩ := initialize_eq coordinator config
      simpa [step, hstep, cancelledBy] using hpending
  | updateConfig config =>
      obtain ⟨tracker, hstep, hpending⟩ := update_config_eq coordinator config
      simpa [step, hstep, cancelledBy] using hpending
  | reload => exact perform_reload_pending coordinator
  | reloadSettles outcome =>
      simp only [step, cancelledBy, List.append_nil]
      split
      · rfl
      · cases outcome <;> rfl
  | webSocket event =>
      cases event with
      | lockReleased lockId newVersion =>
          exact perform_reload_pending { coordinator with
            versionTracker := coordinator.versionTracker.updateServerVersionExternal newVersion
            stateMachine := coordinator.stateMachine.send (.lockReleased lockId (some newVersion)) }
      | lockAcquired => rfl
      | _ => exact List.append_nil _
  | beforeUnload =>
      simp only [step, cancelledBy, List.append_nil, handleBeforeUnload]
      split <;> rfl
  | cancel => rfl
  | _ => exact List.append_nil _

theorem other_accounts (hother : occurrence.event.isTrigger = false) (coordinator : SyncCoordinator) :
    coordinator.unsettled occurrence = coordinator.savesInFlight ∧
      coordinator.acceptedBy occurrence = [] ∧ coordinator.savedBy occurrence = [] ∧
      coordinator.lostBy occurrence = [] := by
  obtain ⟨event, now, configuration⟩ := occurrence
  cases event with
  | trackChange | debounceTimeout | maxDelayTimeout | fallbackInterval | saveNow => cases hother
  | saveSettles index outcome => exact absurd rfl (hsettles index outcome)
  | _ => exact ⟨rfl, rfl, rfl, rfl⟩

end

theorem step_conserves (coordinator : SyncCoordinator) (occurrence : Occurrence) :
    (coordinator.held ++ coordinator.acceptedBy occurrence).Perm
      ((coordinator.step occurrence).held ++ coordinator.savedBy occurrence ++
        coordinator.cancelledBy occurrence ++ coordinator.lostBy occurrence) := by
  refine List.perm_iff_count.mpr fun change => ?_
  cases htrigger : occurrence.event.isTrigger with
  | true =>
      obtain ⟨hsaved, hcancelled⟩ := trigger_accounts htrigger coordinator
      rw [hsaved, hcancelled, List.append_nil, List.append_nil]
      cases hflush : coordinator.flushing occurrence with
      | some flushed => exact flush_conserves hflush htrigger change
      | none => exact unflushed_conserves hflush htrigger change
  | false =>
      obtain ⟨event, now, configuration⟩ := occurrence
      by_cases hsettles : ∃ index outcome, event = .saveSettles index outcome
      · obtain ⟨index, outcome, rfl⟩ := hsettles
        have hcount := settle_conserves coordinator index outcome now configuration change
        simpa [acceptedBy, cancelledBy] using hcount
      · have hnot : ∀ index outcome, event ≠ .saveSettles index outcome :=
          fun index outcome hevent => hsettles ⟨index, outcome, hevent⟩
        have hpending := other_pending hnot htrigger coordinator
        have hsaves := (other_step_saves htrigger coordinator).1
        obtain ⟨hleft, haccepted, hsaved, hlost⟩ := other_accounts hnot htrigger coordinator
        rw [haccepted, hsaved, hlost, held, held, hsaves, hleft, ← hpending]
        simp only [List.count_append, List.append_nil]
        omega

/-- What has become of the changes so far. -/
structure Ledger where
  accepted : List ChangeEvent := []
  saved : List ChangeEvent := []
  cancelled : List ChangeEvent := []
  deriving Repr, DecidableEq

def stepLedger (books : SyncCoordinator × Ledger) (occurrence : Occurrence) :
    SyncCoordinator × Ledger :=
  (books.1.step occurrence,
    { accepted := books.2.accepted ++ books.1.acceptedBy occurrence
      saved := books.2.saved ++ books.1.savedBy occurrence
      cancelled := books.2.cancelled ++ books.1.cancelledBy occurrence })

/-- Every accepted change is pending, in flight, saved or cancelled. -/
def Accounted (books : SyncCoordinator × Ledger) : Prop :=
  books.2.accepted.Perm (books.1.held ++ books.2.saved ++ books.2.cancelled)

/-- A flush with pending changes passes every guard of the save, and the save that took
changes reports success or throws. -/
def KeepsChanges (coordinator : SyncCoordinator) (occurrence : Occurrence) : Prop :=
  (∀ flushed, coordinator.flushing occurrence = some flushed →
    flushed.changeTracker.pendingChanges = [] ∨
      (flushed.changeTracker.onFlush = true ∧
        flushed.savesNow occurrence.configuration = true)) ∧
  ∀ index result, occurrence.event = .saveSettles index (.resolves result) →
    ∀ save, coordinator.savesInFlight[index]? = some save →
      save.changes = [] ∨ result.success = true

theorem flush_keeps_iff (flushed : SyncCoordinator) (configuration : Configuration) :
    (if (flushed.flushSave configuration).isSome then [] else
      flushed.changeTracker.pendingChanges) = [] ↔
      flushed.changeTracker.pendingChanges = [] ∨
        (flushed.changeTracker.onFlush = true ∧ flushed.savesNow configuration = true) := by
  by_cases hpending : flushed.changeTracker.pendingChanges = []
  · simp [hpending]
  · simp [flushSave, hpending]

theorem lost_by_eq_nil_iff (coordinator : SyncCoordinator) (occurrence : Occurrence) :
    coordinator.lostBy occurrence = [] ↔ coordinator.KeepsChanges occurrence := by
  obtain ⟨event, now, configuration⟩ := occurrence
  by_cases hresolves : ∃ index result, event = .saveSettles index (.resolves result)
  · obtain ⟨index, result, rfl⟩ := hresolves
    cases hsave : coordinator.savesInFlight[index]? <;> cases hsuccess : result.success <;>
      simp [lostBy, KeepsChanges, flushing, hsave, hsuccess]
  · have hnot : ∀ index result, event ≠ .saveSettles index (.resolves result) :=
      fun index result hevent => hresolves ⟨index, result, hevent⟩
    simp only [KeepsChanges, hnot, false_imp_iff, implies_true, and_true, lostBy]
    cases hflush : coordinator.flushing ⟨event, now, configuration⟩ with
    | none => simp
    | some flushed => simpa using flush_keeps_iff flushed configuration

theorem step_accounted_iff (books : SyncCoordinator × Ledger) (occurrence : Occurrence)
    (h : Accounted books) :
    Accounted (stepLedger books occurrence) ↔ books.1.KeepsChanges occurrence := by
  rw [← lost_by_eq_nil_iff]
  have hstep := step_conserves books.1 occurrence
  constructor
  · intro hafter
    have hlength := hstep.length_eq
    have hbefore := h.length_eq
    have hlater := List.Perm.length_eq hafter
    simp only [stepLedger, List.length_append] at hlength hbefore hlater
    exact List.eq_nil_of_length_eq_zero (by omega)
  · intro hlost
    rw [hlost, List.append_nil] at hstep
    refine List.perm_iff_count.mpr fun change => ?_
    have hcount := hstep.count_eq change
    have hbefore := h.count_eq change
    simp only [stepLedger, List.count_append] at hcount hbefore ⊢
    omega

/-- Every accepted change stays pending or in flight until a save of it reports success
or it is cancelled, exactly in the runs whose flushes all reach the backend and whose
saves all succeed or throw. -/
theorem changes_accounted_iff (occurrences : List Occurrence) :
    (∀ front, front <+: occurrences → Accounted (run stepLedger ({}, {}) front)) ↔
      Meets step KeepsChanges {} occurrences := by
  have haccounted := invariant_along_iff stepLedger Accounted step_accounted_iff ({}, {})
    occurrences (List.Perm.refl [])
  rwa [meets_map stepLedger step Prod.fst (fun _ _ => rfl)] at haccounted

/-- An edit while another client's save makes the base stale: the flush takes the change
out of the tracker, no save starts, and nothing holds the change any more. -/
theorem change_lost_by_stale_flush :
    let books := run stepLedger ({}, {}) (openProject ++
      [.trackChange ⟨.workflow, "w1", .update, 1⟩, .webSocket (.versionUpdated 6 "user-2"),
        .debounceTimeout].map Event.withData)
    books.2.accepted = [⟨.workflow, "w1", .update, 1⟩] ∧ books.1.held = [] ∧
      ¬ Accounted books := by
  refine ⟨by decide, by decide, ?_⟩
  intro h
  exact absurd (List.Perm.length_eq h) (by decide)

end Qontinui.SyncCoordinator
