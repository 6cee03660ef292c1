import Qontinui.Sync.Coordinator

/-!
What a step of the coordinator can do, said once: which steps flush, when a flush
starts a save, and which steps leave the books of the components alone.
-/

namespace Qontinui.SyncCoordinator

/-- The state machine after `performSave` refused to save. -/
def refusedContext (coordinator : SyncCoordinator) : SyncContext :=
  if coordinator.stateMachine.isSaveBlocked then coordinator.stateMachine
  else
    match coordinator.versionTracker.canSave with
    | .stale serverVersion _ =>
        coordinator.stateMachine.send
          (.conflictDetected coordinator.versionTracker.localVersion serverVersion)
    | _ => coordinator.stateMachine

variable (coordinator : SyncCoordinator)

theorem perform_save_refused {configuration : Configuration}
    (h : coordinator.savesNow configuration = false) (changes : List ChangeEvent) :
    coordinator.performSave configuration changes =
      { coordinator with stateMachine := coordinator.refusedContext } := by
  simp only [performSave, refusedContext]
  split
  · rfl
  · next hfree =>
      cases hcan : coordinator.versionTracker.canSave with
      | notDirty | stale => rfl
      | canSave =>
          dsimp only
          split
          · rfl
          · split
            · rfl
            · next hfn hdata => simp_all [savesNow]

theorem perform_save_accepted {configuration : Configuration}
    (h : coordinator.savesNow configuration = true) (changes : List ChangeEvent) :
    coordinator.performSave configuration changes =
      { coordinator with
        stateMachine := coordinator.stateMachine.send
          (.saveStarted coordinator.versionTracker.localVersion)
        savesInFlight := coordinator.savesInFlight ++
          [⟨coordinator.versionTracker.getExpectedVersion, changes⟩]
        sent := coordinator.sent ++ [.save coordinator.versionTracker.getExpectedVersion] } := by
  simp only [savesNow, Bool.and_eq_true, Bool.not_eq_true', decide_eq_true_eq] at h
  obtain ⟨⟨⟨⟨hfree, hcan⟩, hproject⟩, hsave⟩, hdata⟩ := h
  have hempty : (coordinator.getConfigurationFn && !configuration.hasData) = false := by
    cases hgetter : coordinator.getConfigurationFn <;> simp_all
  simp [performSave, hfree, hcan, hproject, hsave, hempty]

def flushSave (coordinator : SyncCoordinator) (configuration : Configuration) : Option Save :=
  if coordinator.changeTracker.pendingChanges ≠ [] ∧ coordinator.changeTracker.onFlush = true ∧
      coordinator.savesNow configuration = true then
    some ⟨coordinator.versionTracker.getExpectedVersion, coordinator.changeTracker.pendingChanges⟩
  else none

def flushedContext (coordinator : SyncCoordinator) (configuration : Configuration) : SyncContext :=
  if coordinator.changeTracker.pendingChanges = [] ∨ coordinator.changeTracker.onFlush = false then
    coordinator.stateMachine
  else if coordinator.savesNow configuration then
    coordinator.stateMachine.send (.saveStarted coordinator.versionTracker.localVersion)
  else coordinator.refusedContext

theorem flush_now_eq (configuration : Configuration) :
    coordinator.flushNow configuration =
      { coordinator with
        changeTracker :=
          if coordinator.changeTracker.pendingChanges = [] then coordinator.changeTracker
          else coordinator.changeTracker.beginFlush
        stateMachine := coordinator.flushedContext configuration
        savesInFlight :=
          coordinator.savesInFlight ++ (coordinator.flushSave configuration).toList
        sent := coordinator.sent ++
          (coordinator.flushSave configuration).toList.map (.save ·.expectedVersion) } := by
  by_cases hpending : coordinator.changeTracker.pendingChanges = []
  · simp [flushNow, flushedContext, flushSave, hpending]
  · simp only [flushNow, flushedContext, flushSave, hpending]
    cases hflush : coordinator.changeTracker.onFlush with
    | false => simp [hpending]
    | true =>
        cases hsaves : coordinator.savesNow configuration with
        | false =>
            have hrefused := perform_save_refused { coordinator with
              changeTracker := coordinator.changeTracker.beginFlush } hsaves
            simp [hpending, hrefused, refusedContext]
        | true =>
            have haccepted := perform_save_accepted { coordinator with
              changeTracker := coordinator.changeTracker.beginFlush } hsaves
            simp [hpending, haccepted]

/-- The coordinator at the moment an event flushes the change tracker, if it does. -/
def flushing (coordinator : SyncCoordinator) (occurrence : Occurrence) :
    Option SyncCoordinator :=
  let tracker := coordinator.changeTracker
  match occurrence.event with
  | .trackChange event =>
      if coordinator.acceptsEdits && (tracker.trackChange event occurrence.now).2 then
        some (coordinator.recordEdit event occurrence.now)
      else none
  | .debounceTimeout =>
      if tracker.debounceTimeout then
        some { coordinator with changeTracker := { tracker with debounceTimeout := false } }
      else none
  | .maxDelayTimeout =>
      if tracker.maxDelayTimeout then
        some { coordinator with changeTracker := { tracker with maxDelayTimeout := false } }
      else none
  | .fallbackInterval =>
      if tracker.fallbackInterval && !tracker.isPaused then some coordinator else none
  | .saveNow => if coordinator.stateMachine.isSaveBlocked then none else some coordinator
  | _ => none

variable {flushed : SyncCoordinator} {coordinator} {occurrence : Occurrence}

theorem step_of_flushing (h : coordinator.flushing occurrence = some flushed) :
    coordinator.step occurrence = flushed.flushNow occurrence.configuration := by
  obtain ⟨event, now, configuration⟩ := occurrence
  cases event with
  | trackChange event =>
      simp only [flushing, Option.ite_none_right_eq_some, Bool.and_eq_true] at h
      obtain ⟨⟨haccepts, hflush⟩, ⟨⟩⟩ := h
      simp [step, trackChange, haccepts, hflush]
  | debounceTimeout | maxDelayTimeout =>
      simp only [flushing, Option.ite_none_right_eq_some] at h
      obtain ⟨harmed, ⟨⟩⟩ := h
      simp [step, fireTimer, harmed]
  | fallbackInterval =>
      simp only [flushing, Option.ite_none_right_eq_some] at h
      obtain ⟨harmed, ⟨⟩⟩ := h
      simp only [step, fireTimer, harmed, if_true]
  | saveNow =>
      simp only [flushing, Option.ite_none_left_eq_some] at h
      obtain ⟨hfree, ⟨⟩⟩ := h
      simp [step, saveNow, hfree]
  | _ => cases h

theorem flushing_cases (h : coordinator.flushing occurrence = some flushed) :
    (∃ event, occurrence.event = .trackChange event ∧ coordinator.acceptsEdits = true ∧
      flushed = coordinator.recordEdit event occurrence.now) ∨
    (∃ tracker, flushed = { coordinator with changeTracker := tracker } ∧
      tracker.pendingChanges = coordinator.changeTracker.pendingChanges ∧
      tracker.onFlush = coordinator.changeTracker.onFlush ∧
      ∀ event, occurrence.event ≠ .trackChange event) := by
  obtain ⟨event, now, configuration⟩ := occurrence
  cases event with
  | trackChange event =>
      simp only [flushing, Option.ite_none_right_eq_some, Bool.and_eq_true] at h
      obtain ⟨⟨haccepts, -⟩, ⟨⟩⟩ := h
      exact Or.inl ⟨event, rfl, haccepts, rfl⟩
  | debounceTimeout | maxDelayTimeout | fallbackInterval =>
      simp only [flushing, Option.ite_none_right_eq_some] at h
      obtain ⟨-, ⟨⟩⟩ := h
      exact Or.inr ⟨_, rfl, rfl, rfl, by simp⟩
  | saveNow =>
      simp only [flushing, Option.ite_none_left_eq_some] at h
      obtain ⟨-, ⟨⟩⟩ := h
      exact Or.inr ⟨_, rfl, rfl, rfl, by simp⟩
  | _ => cases h

def Event.isTrigger : Event → Bool
  | .trackChange _ | .debounceTimeout | .maxDelayTimeout | .fallbackInterval | .saveNow => true
  | _ => false

theorem step_of_not_flushing (htrigger : occurrence.event.isTrigger = true)
    (h : coordinator.flushing occurrence = none) :
    (∃ event, occurrence.event = .trackChange event ∧ coordinator.acceptsEdits = true ∧
      coordinator.step occurrence = coordinator.recordEdit event occurrence.now) ∨
    ((∀ event, occurrence.event = .trackChange event → coordinator.acceptsEdits = false) ∧
      coordinator.step occurrence = coordinator) := by
  obtain ⟨event, now, configuration⟩ := occurrence
  cases event with
  | trackChange event =>
      cases haccepts : coordinator.acceptsEdits with
      | false => exact Or.inr ⟨fun _ _ => rfl, by simp [step, trackChange, haccepts]⟩
      | true =>
          have hflush : (coordinator.changeTracker.trackChange event now).2 = false := by
            simpa [flushing, haccepts] using h
          exact Or.inl ⟨event, rfl, rfl, by simp [step, trackChange, haccepts, hflush]⟩
  | debounceTimeout | maxDelayTimeout | fallbackInterval =>
      simp only [flushing, ite_eq_right_iff, reduceCtorEq, imp_false, Bool.not_eq_true] at h
      exact Or.inr ⟨by simp, by simp [step, fireTimer, h]⟩
  | saveNow =>
      simp only [flushing, ite_eq_left_iff, reduceCtorEq, imp_false, Bool.not_eq_true,
        Bool.not_eq_false] at h
      exact Or.inr ⟨by simp, by simp [step, saveNow, h]⟩
  | _ => cases htrigger

theorem not_flushing_of_not_trigger (h : occurrence.event.isTrigger = false)
    (coordinator : SyncCoordinator) : coordinator.flushing occurrence = none := by
  obtain ⟨event, now, configuration⟩ := occurrence
  cases event <;> first | rfl | cases h

def startedSave (coordinator : SyncCoordinator) (occurrence : Occurrence) : Option Save :=
  (coordinator.flushing occurrence).bind (·.flushSave occurrence.configuration)

def unsettled (coordinator : SyncCoordinator) (occurrence : Occurrence) : List Save :=
  match occurrence.event with
  | .saveSettles index _ => coordinator.savesInFlight.eraseIdx index
  | _ => coordinator.savesInFlight

def unloadRequests (coordinator : SyncCoordinator) (occurrence : Occurrence) :
    List SaveRequest :=
  match occurrence.event with
  | .beforeUnload =>
      if coordinator.savesOnUnload occurrence.configuration then
        List.replicate coordinator.unloadListeners
          (.unload coordinator.versionTracker.getExpectedVersion)
      else []
  | _ => []

theorem update_config_pending (tracker : ChangeTracker) (config : ChangeTrackerConfigUpdate) :
    (tracker.updateConfig config).pendingChanges = tracker.pendingChanges := by
  simp only [ChangeTracker.updateConfig]
  split <;> rfl

theorem configure_tracker_eq (coordinator : SyncCoordinator)
    (config : SyncCoordinatorConfigUpdate) :
    ∃ tracker, coordinator.configureTracker config =
        { coordinator with changeTracker := tracker } ∧
      tracker.pendingChanges = coordinator.changeTracker.pendingChanges := by
  cases hconfig : config.changeTracker with
  | none => exact ⟨coordinator.changeTracker, by rw [configureTracker, hconfig], rfl⟩
  | some update =>
      exact ⟨coordinator.changeTracker.updateConfig update,
        by rw [configureTracker, hconfig], update_config_pending _ _⟩

/-- The state machine after a call that may set the project. -/
def projectContext (coordinator : SyncCoordinator) (sets : Bool)
    (config : SyncCoordinatorConfigUpdate) : SyncContext :=
  if sets then coordinator.stateMachine.send (.setProject (config.projectId.join.getD ""))
  else coordinator.stateMachine

theorem initialize_eq (coordinator : SyncCoordinator) (config : SyncCoordinatorConfigUpdate) :
    ∃ tracker, coordinator.initializeCoordinator config =
        { coordinator with
          config := (coordinator.mergeConfig config).config
          stateMachine := coordinator.projectContext (initializeSetsProject config) config
          changeTracker := tracker
          boundBeforeUnload := true
          unloadListeners := coordinator.unloadListeners + 1 } ∧
      tracker.pendingChanges = coordinator.changeTracker.pendingChanges := by
  obtain ⟨tracker, htracker, hpending⟩ :=
    configure_tracker_eq (coordinator.mergeConfig config) config
  refine ⟨tracker.setFlushCallback.start, ?_, hpending⟩
  simp only [initializeCoordinator, htracker, projectContext]
  cases initializeSetsProject config <;> rfl

theorem update_config_eq (coordinator : SyncCoordinator) (config : SyncCoordinatorConfigUpdate) :
    ∃ tracker, coordinator.updateConfig config =
        { coordinator with
          config := (coordinator.mergeConfig config).config
          stateMachine :=
            coordinator.projectContext (coordinator.updateSetsProject config) config
          changeTracker := tracker } ∧
      tracker.pendingChanges = coordinator.changeTracker.pendingChanges := by
  cases hset : coordinator.updateSetsProject config with
  | false =>
      obtain ⟨tracker, htracker, hpending⟩ :=
        configure_tracker_eq (coordinator.mergeConfig config) config
      refine ⟨tracker, ?_, hpending⟩
      simp only [updateConfig, hset]
      exact htracker
  | true =>
      obtain ⟨tracker, htracker, hpending⟩ := configure_tracker_eq
        ((coordinator.mergeConfig config).setProject config.projectId.join) config
      refine ⟨tracker, ?_, hpending⟩
      simp only [updateConfig, hset]
      exact htracker

@[simp] theorem perform_reload_saves (coordinator : SyncCoordinator) :
    coordinator.performReload.savesInFlight = coordinator.savesInFlight ∧
      coordinator.performReload.sent = coordinator.sent := by
  simp only [performReload]
  split <;> exact ⟨rfl, rfl⟩

@[simp] theorem finish_save_saves (coordinator : SyncCoordinator) (save : Save)
    (outcome : SaveOutcome) :
    (coordinator.finishSave save outcome).savesInFlight = coordinator.savesInFlight ∧
      (coordinator.finishSave save outcome).sent = coordinator.sent := by
  cases outcome with
  | rejects message => exact ⟨rfl, rfl⟩
  | resolves result =>
      simp only [finishSave]
      split
      · exact ⟨rfl, rfl⟩
      · split <;> exact ⟨rfl, rfl⟩

theorem other_step_saves (h : occurrence.event.isTrigger = false) (coordinator : SyncCoordinator) :
    (coordinator.step occurrence).savesInFlight = coordinator.unsettled occurrence ∧
      (coordinator.step occurrence).sent =
        coordinator.sent ++ coordinator.unloadRequests occurrence := by
  obtain ⟨event, now, configuration⟩ := occurrence
  cases event with
  | trackChange | debounceTimeout | maxDelayTimeout | fallbackInterval | saveNow => cases h
  | initializeCoordinator config =>
      obtain ⟨tracker, hstep, -⟩ := initialize_eq coordinator config
      simp [step, hstep, unsettled, unloadRequests]
  | updateConfig config =>
      obtain ⟨tracker, hstep, -⟩ := update_config_eq coordinator config
      simp [step, hstep, unsettled, unloadRequests]
  | saveSettles index outcome =>
      simp only [step, unsettled, unloadRequests]
      cases hsave : coordinator.savesInFlight[index]? with
      | none => simp [List.eraseIdx_of_length_le (List.getElem?_eq_none_iff.mp hsave)]
      | some save => simp
  | reloadSettles outcome =>
      simp only [step]
      split
      · simp [unsettled, unloadRequests]
      · cases outcome <;> simp [unsettled, unloadRequests, finishReload]
  | webSocket event =>
      cases event <;> simp [step, unsettled, unloadRequests, handleWebSocketEvent]
  | beforeUnload =>
      simp only [step, unsettled, unloadRequests, handleBeforeUnload]
      split <;> simp
  | _ => simp [step, unsettled, unloadRequests, setLoadingFromBackend, updateServerVersion, destroy]

theorem flushing_saves (h : coordinator.flushing occurrence = some flushed) :
    flushed.savesInFlight = coordinator.savesInFlight ∧ flushed.sent = coordinator.sent := by
  rcases flushing_cases h with ⟨event, -, -, rfl⟩ | ⟨tracker, rfl, -, -⟩
  · exact ⟨rfl, rfl⟩
  · exact ⟨rfl, rfl⟩

theorem trigger_saves (h : occurrence.event.isTrigger = true) (coordinator : SyncCoordinator) :
    coordinator.unsettled occurrence = coordinator.savesInFlight ∧
      coordinator.unloadRequests occurrence = [] := by
  obtain ⟨event, now, configuration⟩ := occurrence
  cases event <;> first | exact ⟨rfl, rfl⟩ | cases h

theorem step_saves (coordinator : SyncCoordinator) (occurrence : Occurrence) :
    (coordinator.step occurrence).savesInFlight =
        coordinator.unsettled occurrence ++ (coordinator.startedSave occurrence).toList ∧
      (coordinator.step occurrence).sent = coordinator.sent ++
        (coordinator.startedSave occurrence).toList.map (.save ·.expectedVersion) ++
        coordinator.unloadRequests occurrence := by
  cases htrigger : occurrence.event.isTrigger with
  | false =>
      have hnone := not_flushing_of_not_trigger htrigger coordinator
      simpa [startedSave, hnone] using other_step_saves htrigger coordinator
  | true =>
      obtain ⟨hleft, hunload⟩ := trigger_saves htrigger coordinator
      cases hflush : coordinator.flushing occurrence with
      | some flushed =>
          obtain ⟨hsaves, hsent⟩ := flushing_saves hflush
          simp [step_of_flushing hflush, flush_now_eq, startedSave, hflush, hsaves, hsent, hleft,
            hunload]
      | none =>
          rcases step_of_not_flushing htrigger hflush with ⟨event, -, -, hstep⟩ | ⟨-, hstep⟩ <;>
            simp [hstep, startedSave, hflush, hleft, hunload, recordEdit]

end Qontinui.SyncCoordinator
