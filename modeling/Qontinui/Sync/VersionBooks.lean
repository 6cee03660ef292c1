import Qontinui.Sync.CoordinatorSteps

/-!
The versions of the state machine against those of the version tracker. Saves and
reloads that the state machine follows set both; what only one of the two takes note
of keeps them apart.
-/

namespace Qontinui.SyncCoordinator

open Runs

/-- The two books of base and server version agree. -/
structure VersionsAgree (coordinator : SyncCoordinator) : Prop where
  base : coordinator.stateMachine.baseVersion = coordinator.versionTracker.baseVersion
  server : coordinator.stateMachine.serverVersion = coordinator.versionTracker.serverVersion

/-- The books agree whenever the machine is idle with nothing in flight. -/
def BooksAgree (coordinator : SyncCoordinator) : Prop :=
  coordinator.stateMachine.state = .idle → coordinator.savesInFlight = [] →
    coordinator.reloadsInFlight = 0 → coordinator.VersionsAgree

def AtVersion (coordinator : SyncCoordinator) (version : Int) : Prop :=
  coordinator.stateMachine.baseVersion = some version ∧
    coordinator.stateMachine.serverVersion = some version

def TracksVersion (coordinator : SyncCoordinator) (version : Int) : Prop :=
  coordinator.versionTracker.baseVersion = some version ∧
    coordinator.versionTracker.serverVersion = some version

/-- What reaches an idle machine's tracker alone brings versions the machine has, and
what makes the machine idle without the tracker brings versions the tracker has. -/
def KeepsBooks (coordinator : SyncCoordinator) (occurrence : Occurrence) : Prop :=
  let idle := coordinator.stateMachine.state = .idle
  match occurrence.event with
  | .initializeCoordinator config =>
      initializeSetsProject config = true →
        coordinator.versionTracker.baseVersion = none ∧
          coordinator.versionTracker.serverVersion = none
  | .updateConfig config =>
      coordinator.updateSetsProject config = true →
        coordinator.versionTracker.baseVersion = none ∧
          coordinator.versionTracker.serverVersion = none
  | .saveSettles index (.resolves result) =>
      idle → index < coordinator.savesInFlight.length → result.success = true →
        ∀ version, result.newVersion = some version → coordinator.AtVersion version
  | .reloadSettles (.resolves version) =>
      idle → 0 < coordinator.reloadsInFlight → coordinator.AtVersion version
  | .setLoadingFromBackend false =>
      coordinator.stateMachine.state = .reloading →
        coordinator.TracksVersion (coordinator.versionTracker.serverVersion.getD 0)
  | .updateServerVersion version _ => idle → coordinator.AtVersion version
  | .webSocket (.versionUpdated version _) =>
      idle → coordinator.stateMachine.serverVersion = some version
  | .webSocket (.lockReleased _ version) =>
      idle → coordinator.reloadFromBackendFn = false →
        coordinator.stateMachine.serverVersion = some version
  | .resolveConflict resolution version =>
      coordinator.stateMachine.state = .conflict → resolution ≠ .server →
        coordinator.TracksVersion version
  | _ => True

def IdleAgrees (coordinator : SyncCoordinator) : Prop :=
  coordinator.stateMachine.state = .idle → coordinator.VersionsAgree

/-- Sending the event leaves the context as it is or in another state than idle. -/
def StaysOrBusy (context next : SyncContext) : Prop := next = context ∨ next.state ≠ .idle

def entersIdle : SyncEvent → Bool
  | .saveCompleted _ | .reloadCompleted _ | .conflictResolved _ _ | .setProject _ | .reset => true
  | _ => false

theorem stays_or_busy (context : SyncContext) {event : SyncEvent} (h : entersIdle event = false) :
    StaysOrBusy context (context.send event) := by
  cases event with
  | saveCompleted | reloadCompleted | conflictResolved | setProject | reset => cases h
  | saveRequested => exact Or.inl rfl
  | _ =>
      simp only [SyncContext.send, StaysOrBusy]
      split
      · exact Or.inr (by simp)
      · exact Or.inl rfl

variable {coordinator next : SyncCoordinator}

theorem agrees_of_busy (h : coordinator.IdleAgrees)
    (hcontext : StaysOrBusy coordinator.stateMachine next.stateMachine)
    (hbase : next.versionTracker.baseVersion = coordinator.versionTracker.baseVersion)
    (hserver : next.versionTracker.serverVersion = coordinator.versionTracker.serverVersion) :
    next.IdleAgrees := by
  intro hidle
  rcases hcontext with hsame | hbusy
  · rw [hsame] at hidle
    exact ⟨by rw [hsame, hbase, (h hidle).base], by rw [hsame, hserver, (h hidle).server]⟩
  · exact absurd hidle hbusy

theorem agrees_of_send (h : coordinator.IdleAgrees) (event : SyncEvent)
    (hevent : entersIdle event = false)
    (hcontext : next.stateMachine = coordinator.stateMachine.send event)
    (hbase : next.versionTracker.baseVersion = coordinator.versionTracker.baseVersion)
    (hserver : next.versionTracker.serverVersion = coordinator.versionTracker.serverVersion) :
    next.IdleAgrees :=
  agrees_of_busy h (hcontext ▸ stays_or_busy _ hevent) hbase hserver

theorem refused_context_busy (coordinator : SyncCoordinator) :
    StaysOrBusy coordinator.stateMachine coordinator.refusedContext := by
  simp only [refusedContext]
  split
  · exact Or.inl rfl
  · split
    · exact stays_or_busy _ rfl
    · exact Or.inl rfl

theorem flushed_context_busy (coordinator : SyncCoordinator) (configuration : Configuration) :
    StaysOrBusy coordinator.stateMachine (coordinator.flushedContext configuration) := by
  simp only [flushedContext]
  split
  · exact Or.inl rfl
  · split
    · exact stays_or_busy _ rfl
    · exact refused_context_busy coordinator

section

variable (h : coordinator.IdleAgrees)
include h

theorem trigger_agrees {occurrence : Occurrence} (htrigger : occurrence.event.isTrigger = true) :
    (coordinator.step occurrence).IdleAgrees := by
  have hedit : ∀ event, (coordinator.recordEdit event occurrence.now).IdleAgrees := fun event =>
    agrees_of_send h .userEdit rfl rfl rfl rfl
  cases hflush : coordinator.flushing occurrence with
  | some flushed =>
      rw [step_of_flushing hflush, flush_now_eq]
      have hflushed : flushed.IdleAgrees := by
        rcases flushing_cases hflush with ⟨event, -, -, rfl⟩ | ⟨tracker, rfl, -⟩
        · exact hedit event
        · exact fun hidle => ⟨(h hidle).base, (h hidle).server⟩
      exact agrees_of_busy hflushed (flushed_context_busy _ _) rfl rfl
  | none =>
      rcases step_of_not_flushing htrigger hflush with ⟨event, -, -, hstep⟩ | ⟨-, hstep⟩
      · rw [hstep]
        exact hedit event
      · rw [hstep]
        exact h

theorem project_agrees (sets : Bool) (config : SyncCoordinatorConfigUpdate)
    (hempty : sets = true → coordinator.versionTracker.baseVersion = none ∧
      coordinator.versionTracker.serverVersion = none)
    (hcontext : next.stateMachine = coordinator.projectContext sets config)
    (htracker : next.versionTracker = coordinator.versionTracker) : next.IdleAgrees := by
  cases sets with
  | false => exact agrees_of_busy h (Or.inl hcontext) (by rw [htracker]) (by rw [htracker])
  | true =>
      intro _
      obtain ⟨hbase, hserver⟩ := hempty rfl
      exact ⟨by rw [hcontext, htracker, hbase]; rfl, by rw [hcontext, htracker, hserver]; rfl⟩

theorem finish_save_agrees (save : Save) (outcome : SaveOutcome)
    (hversion : ∀ result, outcome = .resolves result → coordinator.stateMachine.state = .idle →
      result.success = true → ∀ version, result.newVersion = some version →
      coordinator.AtVersion version) : (coordinator.finishSave save outcome).IdleAgrees := by
  cases outcome with
  | rejects message => exact agrees_of_send h (.error message) rfl rfl rfl rfl
  | resolves result =>
      simp only [finishSave]
      split
      · next version hsuccess hnew =>
          intro hidle
          by_cases hsaving : coordinator.stateMachine.state = .saving
          · simp [SyncContext.send, hsaving, VersionTracker.updateServerVersion]
            exact ⟨rfl, rfl⟩
          · simp only [SyncContext.send, hsaving, if_false] at hidle ⊢
            obtain ⟨hbase, hserver⟩ := hversion result rfl hidle hsuccess version hnew
            exact ⟨hbase, hserver⟩
      · split
        · exact agrees_of_send h (.saveRejected _) rfl rfl rfl rfl
        · exact agrees_of_send h (.error _) rfl rfl rfl rfl

theorem finish_reload_agrees (outcome : ReloadOutcome)
    (hversion : ∀ version, outcome = .resolves version →
      coordinator.stateMachine.state = .idle → coordinator.AtVersion version) :
    (coordinator.finishReload outcome).IdleAgrees := by
  cases outcome with
  | rejects message => exact agrees_of_send h (.error message) rfl rfl rfl rfl
  | resolves version =>
      intro hidle
      by_cases hreloading : coordinator.stateMachine.state = .reloading
      · simp [finishReload, SyncContext.send, hreloading, VersionTracker.updateFromReload]
        exact ⟨rfl, rfl⟩
      · simp only [finishReload, SyncContext.send, hreloading, if_false] at hidle ⊢
        obtain ⟨hbase, hserver⟩ := hversion version rfl hidle
        exact ⟨hbase, hserver⟩

end

theorem reload_started_busy (context : SyncContext) :
    (context.send .reloadStarted).state ≠ .idle := by
  simp only [SyncContext.send]
  split
  · simp
  · next hrefused =>
      intro hidle
      rw [SyncContext.canTransition, hidle] at hrefused
      exact hrefused rfl

theorem perform_reload_agrees (h : coordinator.reloadFromBackendFn = false → coordinator.IdleAgrees) :
    coordinator.performReload.IdleAgrees := by
  cases hfn : coordinator.reloadFromBackendFn with
  | false => simpa [performReload, hfn] using h hfn
  | true =>
      intro hidle
      simp only [performReload, hfn] at hidle
      exact absurd hidle (reload_started_busy _)

theorem loading_agrees (h : coordinator.IdleAgrees) (loading : Bool)
    (hversion : loading = false → coordinator.stateMachine.state = .reloading →
      coordinator.TracksVersion (coordinator.versionTracker.serverVersion.getD 0)) :
    (coordinator.setLoadingFromBackend loading).IdleAgrees := by
  cases loading with
  | true => exact agrees_of_send h .reloadStarted rfl rfl rfl rfl
  | false =>
      by_cases hreloading : coordinator.stateMachine.state = .reloading
      · obtain ⟨hbase, hserver⟩ := hversion rfl hreloading
        intro _
        constructor
        · simpa [setLoadingFromBackend, SyncContext.send, hreloading] using hbase.symm
        · simpa [setLoadingFromBackend, SyncContext.send, hreloading] using hserver.symm
      · refine agrees_of_busy h (Or.inl ?_) rfl rfl
        simp [setLoadingFromBackend, SyncContext.send, hreloading]

theorem tracked_agrees (hcontext : next.stateMachine = coordinator.stateMachine)
    (hversion : coordinator.stateMachine.state = .idle →
      coordinator.stateMachine.baseVersion = next.versionTracker.baseVersion ∧
        coordinator.stateMachine.serverVersion = next.versionTracker.serverVersion) :
    next.IdleAgrees := by
  intro hidle
  rw [hcontext] at hidle
  obtain ⟨hbase, hserver⟩ := hversion hidle
  exact ⟨by rw [hcontext, hbase], by rw [hcontext, hserver]⟩

theorem websocket_agrees (h : coordinator.IdleAgrees) (event : SyncWebSocketEvent) (now : Int)
    (configuration : Configuration)
    (hkeeps : coordinator.KeepsBooks ⟨.webSocket event, now, configuration⟩) :
    (coordinator.handleWebSocketEvent event).IdleAgrees := by
  cases event with
  | lockAcquired lockId operation userId =>
      exact agrees_of_send h (.lockAcquired lockId operation userId) rfl rfl rfl rfl
  | lockReleased lockId newVersion =>
      refine perform_reload_agrees fun hfn hidle => ?_
      rcases stays_or_busy coordinator.stateMachine
        (rfl : entersIdle (.lockReleased lockId (some newVersion)) = false) with hsame | hbusy
      · rw [hsame] at hidle
        have hserver := hkeeps hidle hfn
        constructor
        · simpa [hsame, VersionTracker.updateServerVersionExternal] using (h hidle).base
        · simpa [hsame, VersionTracker.updateServerVersionExternal] using hserver
      · exact absurd hidle hbusy
  | versionUpdated version source =>
      exact tracked_agrees rfl fun hidle => ⟨(h hidle).base, hkeeps hidle⟩
  | conflict localVersion serverVersion =>
      exact agrees_of_send h (.conflictDetected localVersion serverVersion) rfl rfl rfl rfl
  | ping | error => exact h

theorem resolve_agrees (h : coordinator.IdleAgrees) (resolution : ConflictOutcome) (version : Int)
    (hversion : coordinator.stateMachine.state = .conflict → resolution ≠ .server →
      coordinator.TracksVersion version) :
    IdleAgrees { coordinator with
      stateMachine := coordinator.stateMachine.send (.conflictResolved resolution version) } := by
  by_cases hconflict : coordinator.stateMachine.state = .conflict
  · cases resolution with
    | server =>
        intro hidle
        simp [SyncContext.send, hconflict] at hidle
    | _ =>
        obtain ⟨hbase, hserver⟩ := hversion hconflict (by simp)
        intro _
        constructor
        · simpa [SyncContext.send, hconflict] using hbase.symm
        · simpa [SyncContext.send, hconflict] using hserver.symm
  · exact agrees_of_busy h (Or.inl (by simp [SyncContext.send, hconflict])) rfl rfl

theorem step_idle_agrees (coordinator : SyncCoordinator) (occurrence : Occurrence)
    (h : coordinator.IdleAgrees) (hkeeps : coordinator.KeepsBooks occurrence) :
    (coordinator.step occurrence).IdleAgrees := by
  obtain ⟨event, now, configuration⟩ := occurrence
  cases event with
  | trackChange | debounceTimeout | maxDelayTimeout | fallbackInterval | saveNow =>
      exact trigger_agrees h rfl
  | initializeCoordinator config =>
      obtain ⟨tracker, hstep, -⟩ := initialize_eq coordinator config
      exact project_agrees h _ config hkeeps (by simp [step, hstep]) (by simp [step, hstep])
  | updateConfig config =>
      obtain ⟨tracker, hstep, -⟩ := update_config_eq coordinator config
      exact project_agrees h _ config hkeeps (by simp [step, hstep]) (by simp [step, hstep])
  | saveSettles index outcome =>
      cases hsave : coordinator.savesInFlight[index]? with
      | none => simpa [step, hsave] using h
      | some save =>
          have hindex := (List.getElem?_eq_some_iff.mp hsave).1
          have hanswered : IdleAgrees { coordinator with
              savesInFlight := coordinator.savesInFlight.eraseIdx index } :=
            fun hidle => ⟨(h hidle).base, (h hidle).server⟩
          simp only [step, hsave]
          apply finish_save_agrees hanswered save outcome
          rintro result rfl hidle hsuccess version hnew
          exact hkeeps hidle hindex hsuccess version hnew
  | reload => exact perform_reload_agrees fun _ => h
  | reloadSettles outcome =>
      simp only [step]
      split
      · exact h
      · next hflight =>
          have hanswered : IdleAgrees { coordinator with
              reloadsInFlight := coordinator.reloadsInFlight - 1 } :=
            fun hidle => ⟨(h hidle).base, (h hidle).server⟩
          apply finish_reload_agrees hanswered outcome
          rintro version rfl hidle
          exact hkeeps hidle (Nat.pos_of_ne_zero hflight)
  | setLoadingFromBackend loading =>
      apply loading_agrees h loading
      rintro rfl hreloading
      exact hkeeps hreloading
  | updateServerVersion version isReload =>
      refine tracked_agrees rfl fun hidle => ?_
      obtain ⟨hbase, hserver⟩ := hkeeps hidle
      cases isReload <;> exact ⟨hbase, hserver⟩
  | webSocket event => exact websocket_agrees h event now configuration hkeeps
  | resolveConflict resolution version => exact resolve_agrees h resolution version hkeeps
  | beforeUnload =>
      simp only [step, handleBeforeUnload]
      split
      · exact fun hidle => ⟨(h hidle).base, (h hidle).server⟩
      · exact h
  | destroy => exact fun _ => ⟨rfl, rfl⟩
  | _ => exact fun hidle => ⟨(h hidle).base, (h hidle).server⟩

/-- The two books agree in every idle state with nothing in flight, in the runs whose
one-sided updates bring no new version. -/
theorem books_agree (occurrences : List Occurrence) (h : Meets step KeepsBooks {} occurrences) :
    BooksAgree (run step {} occurrences) := by
  have hidle := invariant_of_meets step IdleAgrees step_idle_agrees
    (fun _ => ⟨rfl, rfl⟩) h
  exact fun hstate _ _ => hidle hstate

/-- A save that runs undisturbed moves both books to its new version. -/
theorem books_agree_after_save :
    BooksAgree (run step {} (openProject ++
      [.trackChange ⟨.workflow, "w1", .update, 1⟩, .debounceTimeout,
        .saveSettles 0 (.resolves { success := true, newVersion := some 6 })].map
        Event.withData)) := by
  apply books_agree
  show (_ → _) ∧ True ∧ True ∧ True ∧ True ∧ (_ → _) ∧ (_ → _) ∧ True ∧ True ∧ (_ → _) ∧ True
  refine ⟨?_, trivial, trivial, trivial, trivial, ?_, ?_, trivial, trivial, ?_, trivial⟩
  · intro hset
    cases hset
  · intro hidle
    cases hidle
  · intro _
    exact ⟨rfl, rfl⟩
  · intro hidle
    cases hidle

/-- A rejected save resolved for the local side makes the machine ready to save at the
server's version 7, while the tracker still expects version 5. -/
theorem books_differ_after_resolution :
    ¬ BooksAgree (run step {} (openProject ++
      [.trackChange ⟨.workflow, "w1", .update, 1⟩, .debounceTimeout,
        .saveSettles 0 (.resolves
          { success := false, isConflict := true, serverVersion := some 7 }),
        .resolveConflict .local 7].map Event.withData)) := by
  intro h
  exact absurd (h (by decide) (by decide) (by decide)).base (by decide)

end Qontinui.SyncCoordinator
