import Mathlib.Data.Option.Basic
import Mathlib.Data.List.Basic

/-!
`VersionTracker`: the local, base and server versions of a project and whether
there are local changes the server does not have.

`ChangeTracker`: the pending changes and the timers that flush them. A timer is
only armed or not: the delays do not order the firings. `flushNow` hands the
pending changes to the flush callback; it is split at that call into `beginFlush`
and, where the callback throws, `restore`.
-/

namespace Qontinui

structure VersionTracker where
  localVersion : Int := 0
  serverVersion : Option Int := none
  baseVersion : Option Int := none
  dirty : Bool := false
  deriving Repr, DecidableEq

/-- The answer of `canSave`, with the versions it gives for a stale base. -/
inductive CanSaveResult where
  | canSave
  | notDirty
  | stale (serverVersion baseVersion : Int)
  deriving Repr, DecidableEq

namespace VersionTracker

def markDirty (tracker : VersionTracker) : VersionTracker :=
  { tracker with localVersion := tracker.localVersion + 1, dirty := true }

def markClean (tracker : VersionTracker) : VersionTracker :=
  { tracker with dirty := false }

/-- Update the server version after a successful save; after a save, base = server. -/
def updateServerVersion (tracker : VersionTracker) (version : Int) : VersionTracker :=
  { tracker with serverVersion := some version, baseVersion := some version, dirty := false }

def updateFromReload (_ : VersionTracker) (version : Int) : VersionTracker where
  localVersion := version
  serverVersion := some version
  baseVersion := some version
  dirty := false

def updateServerVersionExternal (tracker : VersionTracker) (version : Int) : VersionTracker :=
  { tracker with serverVersion := some version }

/-- Whether local changes can be saved, with the reason when they cannot. -/
def canSave (tracker : VersionTracker) : CanSaveResult :=
  if !tracker.dirty then .notDirty
  else
    match tracker.baseVersion, tracker.serverVersion with
    | some base, some server => if base ≠ server then .stale server base else .canSave
    | _, _ => .canSave

def getExpectedVersion (tracker : VersionTracker) : Option Int := tracker.baseVersion

/-- The state is not reset field by field: it is the initial one. -/
def reset (_ : VersionTracker) : VersionTracker := {}

end VersionTracker

inductive EntityType where
  | workflow
  | state
  | transition
  | image
  | settings
  | context
  deriving Repr, DecidableEq

inductive ChangeType where
  | create
  | update
  | delete
  deriving Repr, DecidableEq

structure ChangeEvent where
  entityType : EntityType
  entityId : String
  changeType : ChangeType
  timestamp : Int
  deriving Repr, DecidableEq

structure ChangeTrackerConfig where
  debounceDelay : Int := 2000
  maxDelay : Int := 30000
  maxPendingChanges : Int := 100
  fallbackInterval : Int := 60000
  deriving Repr, DecidableEq

/-- `Partial<ChangeTrackerConfig>`. -/
structure ChangeTrackerConfigUpdate where
  debounceDelay : Option Int := none
  maxDelay : Option Int := none
  maxPendingChanges : Option Int := none
  fallbackInterval : Option Int := none
  deriving Repr, DecidableEq

structure ChangeTracker where
  config : ChangeTrackerConfig := {}
  pendingChanges : List ChangeEvent := []
  debounceTimeout : Bool := false
  maxDelayTimeout : Bool := false
  fallbackInterval : Bool := false
  onFlush : Bool := false
  firstChangeAt : Option Int := none
  isPaused : Bool := false
  deriving Repr, DecidableEq

namespace ChangeTracker

def setFlushCallback (tracker : ChangeTracker) : ChangeTracker :=
  { tracker with onFlush := true }

def setupFallbackInterval (tracker : ChangeTracker) : ChangeTracker :=
  { tracker with fallbackInterval := 0 < tracker.config.fallbackInterval }

/-- Start the change tracker (enables the fallback interval). -/
def start (tracker : ChangeTracker) : ChangeTracker := tracker.setupFallbackInterval

/-- Stop the change tracker: all timers are cancelled, the changes stay. -/
def stop (tracker : ChangeTracker) : ChangeTracker :=
  { tracker with debounceTimeout := false, maxDelayTimeout := false, fallbackInterval := false }

/-- Add a change; the first one starts the max-delay timer. -/
def pushChange (tracker : ChangeTracker) (event : ChangeEvent) (now : Int) : ChangeTracker :=
  { tracker with
    pendingChanges := tracker.pendingChanges ++ [event]
    firstChangeAt := tracker.firstChangeAt.or (some now)
    maxDelayTimeout := tracker.firstChangeAt.isNone || tracker.maxDelayTimeout }

/-- Track a change. The flag asks for a flush: the maximum of pending changes is reached. -/
def trackChange (tracker : ChangeTracker) (event : ChangeEvent) (now : Int) :
    ChangeTracker × Bool :=
  if tracker.isPaused then (tracker, false)
  else
    let tracker := tracker.pushChange event now
    if tracker.config.maxPendingChanges ≤ tracker.pendingChanges.length then (tracker, true)
    else ({ tracker with debounceTimeout := true }, false)

/-- What `flushNow` does before it calls the flush callback with the pending changes. -/
def beginFlush (tracker : ChangeTracker) : ChangeTracker :=
  { tracker with
    debounceTimeout := false
    maxDelayTimeout := false
    pendingChanges := []
    firstChangeAt := none }

/-- Re-add the changes of a flush whose callback threw. -/
def restore (tracker : ChangeTracker) (changes : List ChangeEvent) : ChangeTracker :=
  { tracker with
    pendingChanges := changes ++ tracker.pendingChanges
    firstChangeAt := changes.head?.map (·.timestamp) }

/-- Cancel a pending flush (e.g., when a lock is acquired). -/
def cancel (tracker : ChangeTracker) : ChangeTracker :=
  { tracker with
    debounceTimeout := false
    maxDelayTimeout := false
    pendingChanges := []
    firstChangeAt := none }

def pause (tracker : ChangeTracker) : ChangeTracker :=
  { tracker with isPaused := true, debounceTimeout := false, maxDelayTimeout := false }

def resume (tracker : ChangeTracker) : ChangeTracker :=
  { tracker with isPaused := false }

/-- Discard all pending changes without flushing. -/
def discard (tracker : ChangeTracker) : ChangeTracker := tracker.cancel

def updateConfig (tracker : ChangeTracker) (config : ChangeTrackerConfigUpdate) :
    ChangeTracker :=
  let updated := { tracker with
    config :=
      { debounceDelay := config.debounceDelay.getD tracker.config.debounceDelay
        maxDelay := config.maxDelay.getD tracker.config.maxDelay
        maxPendingChanges := config.maxPendingChanges.getD tracker.config.maxPendingChanges
        fallbackInterval := config.fallbackInterval.getD tracker.config.fallbackInterval } }
  if config.fallbackInterval.isSome then updated.setupFallbackInterval else updated

end ChangeTracker

end Qontinui
