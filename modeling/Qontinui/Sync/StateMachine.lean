import Qontinui.Base.Runs

/-!
`SyncStateMachine`: a context and a table of valid transitions. An event whose
transition is not valid in the current state leaves the context as it is. The
times of the last sync and of the last transition, which nothing here reads, are
left out. The lock fields of the context stay in step with the locks of its history as
long as the locked state is left through a release only and no second lock arrives while
one is active.
-/

namespace Qontinui

inductive SyncState where
  | idle
  | editing
  | saving
  | reloading
  | locked
  | conflict
  | error
  deriving Repr, DecidableEq

structure SyncContext where
  state : SyncState := .idle
  projectId : Option String := none
  localVersion : Int := 0
  serverVersion : Option Int := none
  baseVersion : Option Int := none
  pendingChanges : Bool := false
  activeLockId : Option String := none
  activeOperation : Option String := none
  lockOwnerId : Option String := none
  error : Option String := none
  deriving Repr, DecidableEq

/-- How a conflict is resolved. -/
inductive ConflictOutcome where
  | local
  | server
  | merge
  deriving Repr, DecidableEq

inductive SyncEvent where
  | userEdit
  | saveRequested
  | saveStarted (version : Int)
  | saveCompleted (newVersion : Int)
  | saveRejected (serverVersion : Int)
  | reloadRequested (force : Bool)
  | reloadStarted
  | reloadCompleted (version : Int)
  | lockAcquired (lockId operation userId : String)
  | lockReleased (lockId : String) (newVersion : Option Int)
  | conflictDetected (localVersion serverVersion : Int)
  | conflictResolved (resolution : ConflictOutcome) (version : Int)
  | error (message : String)
  | reset
  | setProject (projectId : String)
  deriving Repr, DecidableEq

namespace SyncState

/-- `VALID_TRANSITIONS`. -/
def validTransitions : SyncState → List SyncState
  | .idle => [.editing, .reloading, .locked, .error]
  | .editing => [.saving, .reloading, .locked, .idle, .error]
  | .saving => [.idle, .conflict, .error, .reloading, .locked]
  | .reloading => [.idle, .editing, .error, .locked]
  | .locked => [.reloading, .idle, .error]
  | .conflict => [.idle, .reloading, .saving, .error]
  | .error => [.idle, .editing, .reloading]

end SyncState

namespace SyncContext

def canTransition (context : SyncContext) (target : SyncState) : Bool :=
  context.state.validTransitions.contains target

def send (context : SyncContext) (event : SyncEvent) : SyncContext :=
  match event with
  | .setProject projectId =>
      { context with
        state := .idle
        projectId := some projectId
        localVersion := 0
        serverVersion := none
        baseVersion := none
        pendingChanges := false
        error := none }
  | .userEdit =>
      if context.state = .idle ∨ context.state = .editing then
        { context with
          state := .editing
          localVersion := context.localVersion + 1
          pendingChanges := true }
      else context
  | .saveRequested => context
  | .saveStarted _ =>
      if context.canTransition .saving then { context with state := .saving } else context
  | .saveCompleted newVersion =>
      if context.state = .saving then
        { context with
          state := .idle
          serverVersion := some newVersion
          baseVersion := some newVersion
          pendingChanges := false
          error := none }
      else context
  | .saveRejected serverVersion =>
      if context.state = .saving then
        { context with state := .conflict, serverVersion := some serverVersion }
      else context
  | .reloadRequested force =>
      if context.canTransition .reloading then
        { context with
          state := .reloading
          pendingChanges := if force then false else context.pendingChanges }
      else context
  | .reloadStarted =>
      if context.canTransition .reloading then { context with state := .reloading } else context
  | .reloadCompleted version =>
      if context.state = .reloading then
        { context with
          state := .idle
          serverVersion := some version
          baseVersion := some version
          localVersion := version
          pendingChanges := false
          error := none }
      else context
  | .lockAcquired lockId operation userId =>
      if context.canTransition .locked then
        { context with
          state := .locked
          activeLockId := some lockId
          activeOperation := some operation
          lockOwnerId := some userId
          pendingChanges := false }
      else context
  | .lockReleased _ newVersion =>
      if context.state = .locked then
        { context with
          state := .reloading
          activeLockId := none
          activeOperation := none
          lockOwnerId := none
          serverVersion := newVersion.or context.serverVersion }
      else context
  | .conflictDetected _ serverVersion =>
      if context.canTransition .conflict then
        { context with state := .conflict, serverVersion := some serverVersion }
      else context
  | .conflictResolved resolution version =>
      if context.state = .conflict then
        match resolution with
        | .server => { context with state := .reloading }
        | .local | .merge =>
            { context with
              state := .idle
              serverVersion := some version
              baseVersion := some version }
      else context
  | .error message =>
      if context.canTransition .error then { context with state := .error, error := some message }
      else context
  | .reset => {}

/-- Saves are blocked while locked, reloading, in conflict or in error. -/
def isSaveBlocked (context : SyncContext) : Bool :=
  [SyncState.locked, .reloading, .conflict, .error].contains context.state

def isEditBlocked (context : SyncContext) : Bool :=
  [SyncState.locked, .reloading].contains context.state

/-! ### The lock fields and the locks held -/

section Locks

open Runs

def heldAfter (held : List String) : SyncEvent → List String
  | .lockAcquired lockId _ _ => lockId :: held
  | .lockReleased lockId _ => held.filter (· ≠ lockId)
  | _ => held

/-- The locks acquired in a history and not released since, the latest first. -/
def heldLocks (events : List SyncEvent) : List String := run heldAfter [] events

/-- A lock is recorded exactly in the locked state, and it is the latest one held. -/
structure LockFieldsTrack (context : SyncContext) (held : List String) : Prop where
  recorded_iff : context.activeLockId.isSome ↔ context.state = .locked
  latest : context.state = .locked → context.activeLockId = held.head?

/-- While locked, nothing but a release moves the machine, and a lock that arrives is
the active one again. -/
def KeepsLockFields (context : SyncContext) : SyncEvent → Prop
  | .reloadRequested _ | .reloadStarted | .error _ | .setProject _ => context.state ≠ .locked
  | .lockAcquired lockId _ _ => context.state = .locked → context.activeLockId = some lockId
  | _ => True

theorem lock_fields_track_initial : LockFieldsTrack {} [] where
  recorded_iff := by decide
  latest := by decide

variable {context : SyncContext} {held : List String}

theorem LockFieldsTrack.unrecorded (h : LockFieldsTrack context held)
    (hfree : context.state ≠ .locked) : context.activeLockId = none := by
  cases hlock : context.activeLockId with
  | none => rfl
  | some lockId => exact absurd (h.recorded_iff.mp (by rw [hlock]; rfl)) hfree

theorem lock_fields_track_free (held : List String) (hfree : context.state ≠ .locked)
    (hnone : context.activeLockId = none) : LockFieldsTrack context held where
  recorded_iff := by simp [hfree, hnone]
  latest := fun hlocked => absurd hlocked hfree

section

variable (hfree : context.state ≠ .locked)
include hfree

theorem not_track_of_recorded {lockId : String} (hlock : context.activeLockId = some lockId) :
    ¬ LockFieldsTrack context held := by
  intro h
  rw [h.unrecorded hfree] at hlock
  cases hlock

theorem keeps_lock_fields_of_free (event : SyncEvent) : KeepsLockFields context event := by
  cases event <;> simp [KeepsLockFields, hfree]

theorem send_free (hnone : context.activeLockId = none) (event : SyncEvent)
    (hevent : ∀ lockId operation userId, event ≠ .lockAcquired lockId operation userId) :
    (context.send event).state ≠ .locked ∧ (context.send event).activeLockId = none := by
  cases event with
  | lockAcquired lockId operation userId => exact absurd rfl (hevent lockId operation userId)
  | conflictResolved resolution version =>
      cases resolution <;> (simp only [send]; split) <;> simp [hfree, hnone]
  | setProject | saveRequested | reset => simp [send, hfree, hnone]
  | _ =>
      simp only [send]
      split <;> simp [hfree, hnone]

theorem track_acquired_free (hnone : context.activeLockId = none) (lockId operation userId : String) :
    LockFieldsTrack (context.send (.lockAcquired lockId operation userId)) (lockId :: held) := by
  simp only [send]
  split
  · exact { recorded_iff := by simp, latest := fun _ => rfl }
  · exact lock_fields_track_free _ hfree hnone

end

section

variable (h : LockFieldsTrack context held)
include h

theorem track_send_free (hfree : context.state ≠ .locked) (event : SyncEvent) :
    LockFieldsTrack (context.send event) (heldAfter held event) := by
  have hnone := h.unrecorded hfree
  by_cases hacquired : ∃ lockId operation userId, event = .lockAcquired lockId operation userId
  · obtain ⟨lockId, operation, userId, rfl⟩ := hacquired
    exact track_acquired_free hfree hnone lockId operation userId
  · obtain ⟨hfree', hnone'⟩ := send_free hfree hnone event
      fun lockId operation userId heq => hacquired ⟨lockId, operation, userId, heq⟩
    exact lock_fields_track_free _ hfree' hnone'

/-- In the locked state an event keeps the fields in step exactly under the condition. -/
theorem track_send_locked_iff (hlocked : context.state = .locked) (event : SyncEvent) :
    LockFieldsTrack (context.send event) (heldAfter held event) ↔
      KeepsLockFields context event := by
  obtain ⟨lockId, hlock⟩ := Option.isSome_iff_exists.mp (h.recorded_iff.mpr hlocked)
  have left {target : SyncContext} {held : List String} (hfree : target.state ≠ .locked)
      (hkept : target.activeLockId = context.activeLockId) :
      ¬ LockFieldsTrack target held := not_track_of_recorded hfree (hkept.trans hlock)
  have hready : ∀ target, context.canTransition target =
      [SyncState.reloading, .idle, .error].contains target := by
    intro target
    rw [canTransition, hlocked]
    rfl
  cases event with
  | setProject | reloadRequested | reloadStarted | error =>
      simp only [KeepsLockFields, hlocked, ne_eq, not_true_eq_false, iff_false]
      exact left (by simp [send, hready]) (by simp [send, hready])
  | lockAcquired newId operation userId =>
      have hsend : context.send (.lockAcquired newId operation userId) = context := by
        simp [send, hready]
      simp only [hsend, heldAfter, KeepsLockFields, hlocked, true_imp_iff]
      constructor
      · intro hnew
        exact hnew.latest hlocked
      · intro hsame
        exact { recorded_iff := h.recorded_iff, latest := fun _ => hsame }
  | lockReleased newId newVersion =>
      simp only [KeepsLockFields, iff_true]
      exact lock_fields_track_free _ (by simp [send, hlocked]) (by simp [send, hlocked])
  | reset =>
      simp only [KeepsLockFields, iff_true]
      exact lock_fields_track_free _ (by simp [send]) rfl
  | _ =>
      have hsend : ∀ {next : SyncContext}, next = context → LockFieldsTrack next held := by
        rintro next rfl
        exact h
      simpa [KeepsLockFields, heldAfter] using hsend (by simp [send, hlocked, hready])

theorem track_send_iff (event : SyncEvent) :
    LockFieldsTrack (context.send event) (heldAfter held event) ↔
      KeepsLockFields context event := by
  by_cases hlocked : context.state = .locked
  · exact track_send_locked_iff h hlocked event
  · exact iff_of_true (track_send_free h hlocked event) (keeps_lock_fields_of_free hlocked event)

end

/-- The state machine next to the locks held. -/
def sendTracked (tracked : SyncContext × List String) (event : SyncEvent) :
    SyncContext × List String :=
  (tracked.1.send event, heldAfter tracked.2 event)

/-- In every state reached the lock fields track the locks held, exactly when the
locked state is left through a release only and no second lock arrives in it. -/
theorem lock_fields_track_iff (events : List SyncEvent) :
    (∀ front, front <+: events → LockFieldsTrack (run send {} front) (heldLocks front)) ↔
      Meets send KeepsLockFields {} events := by
  have hfst := run_map sendTracked send Prod.fst (fun _ _ => rfl) ({}, [])
  have hsnd := run_map sendTracked heldAfter Prod.snd (fun _ _ => rfl) ({}, [])
  have htrack := invariant_along_iff sendTracked
    (fun tracked => LockFieldsTrack tracked.1 tracked.2)
    (fun _ event h => track_send_iff h event) ({}, []) events lock_fields_track_initial
  rw [meets_map sendTracked send Prod.fst (fun _ _ => rfl)] at htrack
  simp only [hfst, hsnd] at htrack
  exact htrack

/-- A save that fails while another user's lock is active leaves the locked state with
the lock still recorded. -/
theorem lock_recorded_in_error :
    ¬ LockFieldsTrack
      (run send {} [.userEdit, .saveStarted 1, .lockAcquired "lock-1" "import_states" "user-2",
        .error "Save failed: 500"])
      (heldLocks [.userEdit, .saveStarted 1, .lockAcquired "lock-1" "import_states" "user-2",
        .error "Save failed: 500"]) := by
  intro h
  exact absurd (h.recorded_iff.mp (by decide)) (by decide)

end Locks

end SyncContext

end Qontinui
