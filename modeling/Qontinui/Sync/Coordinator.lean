import Qontinui.Sync.StateMachine
import Qontinui.Sync.Trackers

/-!
`SyncCoordinator`: the state machine, the version tracker and the change tracker
behind one set of calls. A step is one call of the program, one firing of a timer,
one event of the WebSocket or one answer of the backend, each run up to its next
`await`. A save or reload that awaits its answer is in flight; answers arrive in any
order. Listeners and the connection of the WebSocket are left out.
-/

namespace Qontinui

structure SyncCoordinatorConfig where
  projectId : Option String := none
  enabled : Bool := true
  authToken : Option String := none
  deriving Repr, DecidableEq

/-- `Partial<SyncCoordinatorConfig>`; the outer option of a field says whether it is given. -/
structure SyncCoordinatorConfigUpdate where
  projectId : Option (Option String) := none
  enabled : Option Bool := none
  authToken : Option (Option String) := none
  changeTracker : Option ChangeTrackerConfigUpdate := none
  deriving Repr, DecidableEq

/-- The lengths of the lists that `getConfigurationFn` returns; a missing one counts as empty. -/
structure Configuration where
  workflows : Nat := 0
  states : Nat := 0
  transitions : Nat := 0
  images : Nat := 0
  contexts : Nat := 0
  deriving Repr, DecidableEq

def Configuration.hasData (configuration : Configuration) : Bool :=
  0 < configuration.workflows || 0 < configuration.states || 0 < configuration.transitions ||
    0 < configuration.images || 0 < configuration.contexts

/-- A call of `saveToBackendFn` that has not settled, with the changes its flush took. -/
structure Save where
  expectedVersion : Option Int
  changes : List ChangeEvent
  deriving Repr, DecidableEq

/-- A save sent to the backend: by `saveToBackendFn` or by the unload handler. -/
inductive SaveRequest where
  | save (expectedVersion : Option Int)
  | unload (expectedVersion : Option Int)
  deriving Repr, DecidableEq

/-- What `saveToBackendFn` resolves to. -/
structure SaveResult where
  success : Bool
  newVersion : Option Int := none
  error : Option String := none
  isConflict : Bool := false
  serverVersion : Option Int := none
  deriving Repr, DecidableEq

inductive SaveOutcome where
  | resolves (result : SaveResult)
  | rejects (message : String)
  deriving Repr, DecidableEq

/-- An answer that is neither a success with its new version nor a conflict with the
server's version. -/
def SaveOutcome.isError : SaveOutcome → Bool
  | .resolves result =>
      !(result.success && result.newVersion.isSome) &&
        !(result.isConflict && result.serverVersion.isSome)
  | .rejects _ => true

inductive ReloadOutcome where
  | resolves (version : Int)
  | rejects (message : String)
  deriving Repr, DecidableEq

inductive SyncWebSocketEvent where
  | lockAcquired (lockId operation userId : String)
  | lockReleased (lockId : String) (newVersion : Int)
  | versionUpdated (version : Int) (source : String)
  | conflict (localVersion serverVersion : Int)
  | ping
  | error (message : String)
  deriving Repr, DecidableEq

structure SyncCoordinator where
  config : SyncCoordinatorConfig := {}
  stateMachine : SyncContext := {}
  versionTracker : VersionTracker := {}
  changeTracker : ChangeTracker := {}
  saveToBackendFn : Bool := false
  reloadFromBackendFn : Bool := false
  getConfigurationFn : Bool := false
  boundBeforeUnload : Bool := false
  unloadListeners : Nat := 0
  savesInFlight : List Save := []
  reloadsInFlight : Nat := 0
  sent : List SaveRequest := []
  deriving Repr, DecidableEq

def isTruthy : Option String → Bool
  | some text => text ≠ ""
  | none => false

namespace SyncCoordinator

/-- `this.config = { ...this.config, ...config }`. -/
def mergeConfig (coordinator : SyncCoordinator) (config : SyncCoordinatorConfigUpdate) :
    SyncCoordinator :=
  { coordinator with
    config :=
      { projectId := config.projectId.getD coordinator.config.projectId
        enabled := config.enabled.getD coordinator.config.enabled
        authToken := config.authToken.getD coordinator.config.authToken } }

/-- `changeTracker.updateConfig`, where a configuration for it is given. -/
def configureTracker (coordinator : SyncCoordinator) (config : SyncCoordinatorConfigUpdate) :
    SyncCoordinator :=
  match config.changeTracker with
  | some update =>
      { coordinator with changeTracker := coordinator.changeTracker.updateConfig update }
  | none => coordinator

/-- Send `SET_PROJECT` for a project id known to be given. -/
def setProject (coordinator : SyncCoordinator) (projectId : Option String) : SyncCoordinator :=
  { coordinator with
    stateMachine := coordinator.stateMachine.send (.setProject (projectId.getD "")) }

/-- Every initialisation adds its own unload handler and keeps a reference to it only. -/
def setupBeforeUnload (coordinator : SyncCoordinator) : SyncCoordinator :=
  { coordinator with
    boundBeforeUnload := true
    unloadListeners := coordinator.unloadListeners + 1 }

/-- Whether `initializeCoordinator` sets the project: it looks at its argument only. -/
def initializeSetsProject (config : SyncCoordinatorConfigUpdate) : Bool :=
  isTruthy config.projectId.join && isTruthy config.authToken.join

/-- `initialize`: configure, start and connect the coordinator. -/
def initializeCoordinator (coordinator : SyncCoordinator) (config : SyncCoordinatorConfigUpdate) :
    SyncCoordinator :=
  let configured := (coordinator.mergeConfig config).configureTracker config
  let started := { configured with
    changeTracker := configured.changeTracker.setFlushCallback.start }
  let connected :=
    if initializeSetsProject config then started.setProject config.projectId.join else started
  connected.setupBeforeUnload

/-- Whether `updateConfig` sets the project: it changes, and a token is given or known. -/
def updateSetsProject (coordinator : SyncCoordinator) (config : SyncCoordinatorConfigUpdate) :
    Bool :=
  isTruthy config.projectId.join && config.projectId.join ≠ coordinator.config.projectId &&
    (isTruthy config.authToken.join || isTruthy (coordinator.mergeConfig config).config.authToken)

def updateConfig (coordinator : SyncCoordinator) (config : SyncCoordinatorConfigUpdate) :
    SyncCoordinator :=
  let merged := coordinator.mergeConfig config
  let connected :=
    if coordinator.updateSetsProject config then merged.setProject config.projectId.join
    else merged
  connected.configureTracker config

/-- Whether `performSave` reaches its call of the backend. -/
def savesNow (coordinator : SyncCoordinator) (configuration : Configuration) : Bool :=
  !coordinator.stateMachine.isSaveBlocked && coordinator.versionTracker.canSave = .canSave &&
    isTruthy coordinator.config.projectId && coordinator.saveToBackendFn &&
    (!coordinator.getConfigurationFn || configuration.hasData)

/-- `performSave` up to the answer of the backend, for a flush that took `changes`. -/
def performSave (coordinator : SyncCoordinator) (configuration : Configuration)
    (changes : List ChangeEvent) : SyncCoordinator :=
  if coordinator.stateMachine.isSaveBlocked then coordinator
  else
    match coordinator.versionTracker.canSave with
    | .notDirty => coordinator
    | .stale serverVersion _ =>
        -- Our data is stale - trigger conflict
        { coordinator with
          stateMachine := coordinator.stateMachine.send
            (.conflictDetected coordinator.versionTracker.localVersion serverVersion) }
    | .canSave =>
        if !isTruthy coordinator.config.projectId || !coordinator.saveToBackendFn then coordinator
        else if coordinator.getConfigurationFn && !configuration.hasData then coordinator
        else
          let expectedVersion := coordinator.versionTracker.getExpectedVersion
          { coordinator with
            stateMachine := coordinator.stateMachine.send
              (.saveStarted coordinator.versionTracker.localVersion)
            savesInFlight := coordinator.savesInFlight ++ [⟨expectedVersion, changes⟩]
            sent := coordinator.sent ++ [.save expectedVersion] }

/-- `performSave` after the answer; when the call threw, `flushNow` re-adds its changes. -/
def finishSave (coordinator : SyncCoordinator) (save : Save) : SaveOutcome → SyncCoordinator
  | .resolves result =>
      match result.success, result.newVersion with
      | true, some newVersion =>
          { coordinator with
            versionTracker := coordinator.versionTracker.updateServerVersion newVersion
            stateMachine := coordinator.stateMachine.send (.saveCompleted newVersion) }
      | _, _ =>
          match result.isConflict, result.serverVersion with
          | true, some serverVersion =>
              { coordinator with
                stateMachine := coordinator.stateMachine.send (.saveRejected serverVersion) }
          | _, _ =>
              { coordinator with
                stateMachine := coordinator.stateMachine.send
                  (.error (result.error.getD "Unknown save error")) }
  | .rejects message =>
      { coordinator with
        stateMachine := coordinator.stateMachine.send (.error message)
        changeTracker := coordinator.changeTracker.restore save.changes }

/-- `changeTracker.flushNow` up to the answer of the backend. -/
def flushNow (coordinator : SyncCoordinator) (configuration : Configuration) : SyncCoordinator :=
  let changes := coordinator.changeTracker.pendingChanges
  if changes.isEmpty then coordinator
  else
    let flushing := { coordinator with changeTracker := coordinator.changeTracker.beginFlush }
    if coordinator.changeTracker.onFlush then flushing.performSave configuration changes
    else flushing

/-- Whether `trackChange` accepts an edit. -/
def acceptsEdits (coordinator : SyncCoordinator) : Bool :=
  coordinator.config.enabled && isTruthy coordinator.config.projectId &&
    !coordinator.stateMachine.isEditBlocked

/-- An accepted edit, as the version tracker, the state machine and the change tracker
take note of it. -/
def recordEdit (coordinator : SyncCoordinator) (event : ChangeEvent) (now : Int) :
    SyncCoordinator :=
  { coordinator with
    versionTracker := coordinator.versionTracker.markDirty
    stateMachine := coordinator.stateMachine.send .userEdit
    changeTracker := (coordinator.changeTracker.trackChange event now).1 }

def trackChange (coordinator : SyncCoordinator) (configuration : Configuration)
    (event : ChangeEvent) (now : Int) : SyncCoordinator :=
  if !coordinator.acceptsEdits then coordinator
  else if (coordinator.changeTracker.trackChange event now).2 then
    (coordinator.recordEdit event now).flushNow configuration
  else coordinator.recordEdit event now

def saveNow (coordinator : SyncCoordinator) (configuration : Configuration) : SyncCoordinator :=
  if coordinator.stateMachine.isSaveBlocked then coordinator
  else coordinator.flushNow configuration

/-- `performReload` up to the answer of the backend. -/
def performReload (coordinator : SyncCoordinator) : SyncCoordinator :=
  if !coordinator.reloadFromBackendFn then coordinator
  else
    { coordinator with
      changeTracker := coordinator.changeTracker.cancel
      stateMachine := coordinator.stateMachine.send .reloadStarted
      reloadsInFlight := coordinator.reloadsInFlight + 1 }

/-- `performReload` after the answer. -/
def finishReload (coordinator : SyncCoordinator) : ReloadOutcome → SyncCoordinator
  | .resolves version =>
      { coordinator with
        versionTracker := coordinator.versionTracker.updateFromReload version
        stateMachine := coordinator.stateMachine.send (.reloadCompleted version) }
  | .rejects message =>
      { coordinator with stateMachine := coordinator.stateMachine.send (.error message) }

def setLoadingFromBackend (coordinator : SyncCoordinator) (loading : Bool) : SyncCoordinator :=
  { coordinator with
    stateMachine := coordinator.stateMachine.send <|
      if loading then .reloadStarted
      else .reloadCompleted (coordinator.versionTracker.serverVersion.getD 0) }

def updateServerVersion (coordinator : SyncCoordinator) (version : Int) (isReload : Bool) :
    SyncCoordinator :=
  { coordinator with
    versionTracker :=
      if isReload then coordinator.versionTracker.updateFromReload version
      else coordinator.versionTracker.updateServerVersion version }

def handleWebSocketEvent (coordinator : SyncCoordinator) : SyncWebSocketEvent → SyncCoordinator
  | .lockAcquired lockId operation userId =>
      -- Cancel pending changes - backend is authoritative
      { coordinator with
        changeTracker := coordinator.changeTracker.cancel
        versionTracker := coordinator.versionTracker.markClean
        stateMachine := coordinator.stateMachine.send (.lockAcquired lockId operation userId) }
  | .lockReleased lockId newVersion =>
      performReload { coordinator with
        versionTracker := coordinator.versionTracker.updateServerVersionExternal newVersion
        stateMachine := coordinator.stateMachine.send (.lockReleased lockId (some newVersion)) }
  | .versionUpdated version _ =>
      -- Update server version (but don't reload automatically)
      { coordinator with
        versionTracker := coordinator.versionTracker.updateServerVersionExternal version }
  | .conflict localVersion serverVersion =>
      { coordinator with
        stateMachine := coordinator.stateMachine.send
          (.conflictDetected localVersion serverVersion) }
  | .ping | .error _ => coordinator

def savesOnUnload (coordinator : SyncCoordinator) (configuration : Configuration) : Bool :=
  coordinator.config.enabled && isTruthy coordinator.config.projectId &&
    coordinator.getConfigurationFn && configuration.hasData && coordinator.versionTracker.dirty

/-- Every installed unload handler runs; none of them changes the coordinator. -/
def handleBeforeUnload (coordinator : SyncCoordinator) (configuration : Configuration) :
    SyncCoordinator :=
  if coordinator.savesOnUnload configuration then
    { coordinator with
      sent := coordinator.sent ++ List.replicate coordinator.unloadListeners
        (.unload coordinator.versionTracker.getExpectedVersion) }
  else coordinator

def destroy (coordinator : SyncCoordinator) : SyncCoordinator :=
  { coordinator with
    changeTracker := coordinator.changeTracker.stop
    boundBeforeUnload := false
    unloadListeners :=
      if coordinator.boundBeforeUnload then coordinator.unloadListeners - 1
      else coordinator.unloadListeners
    versionTracker := coordinator.versionTracker.reset
    stateMachine := coordinator.stateMachine.send .reset }

/-- What the coordinator can be given: the calls of its interface, those of the state
machine and change tracker it hands out, timers, answers and WebSocket events. -/
inductive Event where
  | initializeCoordinator (config : SyncCoordinatorConfigUpdate)
  | updateConfig (config : SyncCoordinatorConfigUpdate)
  | registerSaveFunction
  | registerReloadFunction
  | registerConfigurationGetter
  | trackChange (event : ChangeEvent)
  | debounceTimeout
  | maxDelayTimeout
  | fallbackInterval
  | saveNow
  | saveSettles (index : Nat) (outcome : SaveOutcome)
  | reload
  | reloadSettles (outcome : ReloadOutcome)
  | setLoadingFromBackend (loading : Bool)
  | updateServerVersion (version : Int) (isReload : Bool)
  | webSocket (event : SyncWebSocketEvent)
  | cancel
  | pause
  | resume
  | resolveConflict (resolution : ConflictOutcome) (version : Int)
  | beforeUnload
  | destroy
  deriving Repr, DecidableEq

/-- An event, the clock and the configuration of the program when it happens. -/
structure Occurrence where
  event : Event
  now : Int
  configuration : Configuration
  deriving Repr, DecidableEq

def Event.withData (event : Event) : Occurrence := ⟨event, 0, { workflows := 1 }⟩

def fireTimer (coordinator : SyncCoordinator) (configuration : Configuration)
    (armed : Bool) (fired : ChangeTracker) : SyncCoordinator :=
  if armed then flushNow { coordinator with changeTracker := fired } configuration
  else coordinator

def step (coordinator : SyncCoordinator) (occurrence : Occurrence) : SyncCoordinator :=
  let configuration := occurrence.configuration
  let tracker := coordinator.changeTracker
  match occurrence.event with
  | .initializeCoordinator config => coordinator.initializeCoordinator config
  | .updateConfig config => coordinator.updateConfig config
  | .registerSaveFunction => { coordinator with saveToBackendFn := true }
  | .registerReloadFunction => { coordinator with reloadFromBackendFn := true }
  | .registerConfigurationGetter => { coordinator with getConfigurationFn := true }
  | .trackChange event => coordinator.trackChange configuration event occurrence.now
  | .debounceTimeout =>
      coordinator.fireTimer configuration tracker.debounceTimeout
        { tracker with debounceTimeout := false }
  | .maxDelayTimeout =>
      coordinator.fireTimer configuration tracker.maxDelayTimeout
        { tracker with maxDelayTimeout := false }
  | .fallbackInterval =>
      coordinator.fireTimer configuration (tracker.fallbackInterval && !tracker.isPaused) tracker
  | .saveNow => coordinator.saveNow configuration
  | .saveSettles index outcome =>
      match coordinator.savesInFlight[index]? with
      | some save =>
          finishSave { coordinator with
            savesInFlight := coordinator.savesInFlight.eraseIdx index } save outcome
      | none => coordinator
  | .reload => coordinator.performReload
  | .reloadSettles outcome =>
      if coordinator.reloadsInFlight = 0 then coordinator
      else
        finishReload { coordinator with reloadsInFlight := coordinator.reloadsInFlight - 1 } outcome
  | .setLoadingFromBackend loading => coordinator.setLoadingFromBackend loading
  | .updateServerVersion version isReload => coordinator.updateServerVersion version isReload
  | .webSocket event => coordinator.handleWebSocketEvent event
  | .cancel => { coordinator with changeTracker := tracker.cancel }
  | .pause => { coordinator with changeTracker := tracker.pause }
  | .resume => { coordinator with changeTracker := tracker.resume }
  | .resolveConflict resolution version =>
      { coordinator with
        stateMachine := coordinator.stateMachine.send (.conflictResolved resolution version) }
  | .beforeUnload => coordinator.handleBeforeUnload configuration
  | .destroy => coordinator.destroy

/-- A project loaded at version 5, with the callbacks its page registers. -/
def openProject : List Occurrence :=
  [.initializeCoordinator { projectId := some (some "project-1") }, .registerSaveFunction,
    .registerReloadFunction, .registerConfigurationGetter, .setLoadingFromBackend true,
    .updateServerVersion 5 true, .setLoadingFromBackend false].map Event.withData

end SyncCoordinator

end Qontinui
