import Qontinui.Sync.CoordinatorSteps

/-!
What the guards of `performSave` let through. They do not look at a save that is
still unsettled, so a second one starts when a flush finds edits made in the
meantime. A save is refused when the tracker's base is stale, and the refusal asks
the state machine for the conflict state, which its table grants from the saving
state only.
-/

namespace Qontinui.SyncCoordinator

section InFlight

open Runs

def FlushStopped (flushed : SyncCoordinator) (configuration : Configuration) : Prop :=
  flushed.changeTracker.pendingChanges = [] ∨ flushed.changeTracker.onFlush = false ∨
    flushed.stateMachine.isSaveBlocked = true ∨ flushed.versionTracker.canSave ≠ .canSave ∨
    isTruthy flushed.config.projectId = false ∨ flushed.saveToBackendFn = false ∨
    (flushed.getConfigurationFn = true ∧ configuration.hasData = false)

theorem flush_save_none_iff (flushed : SyncCoordinator) (configuration : Configuration) :
    flushed.flushSave configuration = none ↔ flushed.FlushStopped configuration := by
  simp only [flushSave, FlushStopped, savesNow, ite_eq_right_iff, reduceCtorEq, imp_false,
    Bool.and_eq_true, Bool.not_eq_true', decide_eq_true_eq, Bool.or_eq_true, not_and_or, not_or,
    not_not, Bool.not_eq_true, Bool.not_eq_false, or_assoc, ne_eq]

/-- While a save is unsettled, every flush is stopped. -/
def FlushWaits (coordinator : SyncCoordinator) (occurrence : Occurrence) : Prop :=
  coordinator.savesInFlight ≠ [] → ∀ flushed, coordinator.flushing occurrence = some flushed →
    flushed.FlushStopped occurrence.configuration

theorem started_save_none_iff (coordinator : SyncCoordinator) (occurrence : Occurrence) :
    coordinator.startedSave occurrence = none ↔
      ∀ flushed, coordinator.flushing occurrence = some flushed →
        flushed.FlushStopped occurrence.configuration := by
  simp only [startedSave, Option.bind_eq_none_iff, flush_save_none_iff]

theorem unsettled_length_le (coordinator : SyncCoordinator) (occurrence : Occurrence) :
    (coordinator.unsettled occurrence).length ≤ coordinator.savesInFlight.length := by
  simp only [unsettled]
  split
  · exact List.length_eraseIdx_le _ _
  · exact Nat.le_refl _

theorem unsettled_of_started {coordinator : SyncCoordinator} {occurrence : Occurrence}
    {save : Save} (h : coordinator.startedSave occurrence = some save) :
    coordinator.unsettled occurrence = coordinator.savesInFlight := by
  cases htrigger : occurrence.event.isTrigger with
  | true => exact (trigger_saves htrigger coordinator).1
  | false => simp [startedSave, not_flushing_of_not_trigger htrigger coordinator] at h

theorem step_one_save_iff (coordinator : SyncCoordinator) (occurrence : Occurrence)
    (h : coordinator.savesInFlight.length ≤ 1) :
    (coordinator.step occurrence).savesInFlight.length ≤ 1 ↔
      coordinator.FlushWaits occurrence := by
  rw [(step_saves coordinator occurrence).1, List.length_append, FlushWaits,
    ← started_save_none_iff]
  cases hstarted : coordinator.startedSave occurrence with
  | none =>
      have := unsettled_length_le coordinator occurrence
      simp only [Option.toList_none, List.length_nil, implies_true, iff_true]
      omega
  | some save =>
      rw [unsettled_of_started hstarted]
      simp

/-- A save is only sent when none is in flight, exactly when every flush that comes
during a save is stopped by a guard. -/
theorem one_save_in_flight_iff (occurrences : List Occurrence) :
    (∀ front, front <+: occurrences → (run step {} front).savesInFlight.length ≤ 1) ↔
      Meets step FlushWaits {} occurrences :=
  invariant_along_iff step (fun coordinator => coordinator.savesInFlight.length ≤ 1)
    step_one_save_iff {} occurrences (Nat.zero_le 1)

/-- An edit during a save that outlasts the debounce delay starts a second save with
the same expected version. -/
theorem two_saves_in_flight :
    let coordinator := run step {} (openProject ++
      [.trackChange ⟨.workflow, "w1", .update, 1⟩, .debounceTimeout,
        .trackChange ⟨.workflow, "w1", .update, 2⟩, .debounceTimeout].map Event.withData)
    coordinator.sent = [.save (some 5), .save (some 5)] ∧
      ¬ coordinator.savesInFlight.length ≤ 1 := by
  decide

end InFlight

section Stale

open Runs

/-- Whether `performSave` refuses to save because `canSave` answers `stale`. -/
def refusesStale (coordinator : SyncCoordinator) : Bool :=
  !coordinator.stateMachine.isSaveBlocked &&
    match coordinator.versionTracker.canSave with
    | .stale _ _ => true
    | _ => false

/-- The coordinator at the moment a step calls `performSave`, if it does. -/
def saveCall (coordinator : SyncCoordinator) (occurrence : Occurrence) :
    Option SyncCoordinator :=
  (coordinator.flushing occurrence).bind fun flushed =>
    if flushed.changeTracker.pendingChanges = [] ∨ flushed.changeTracker.onFlush = false then none
    else some { flushed with changeTracker := flushed.changeTracker.beginFlush }

theorem can_transition_conflict_iff (context : SyncContext) :
    context.canTransition .conflict = true ↔ context.state = .saving := by
  rw [SyncContext.canTransition]
  cases context.state <;> decide

variable {coordinator : SyncCoordinator}

theorem refused_context_conflict_iff (h : coordinator.refusesStale = true) :
    coordinator.refusedContext.state = .conflict ↔ coordinator.stateMachine.state = .saving := by
  simp only [refusesStale, Bool.and_eq_true, Bool.not_eq_true'] at h
  obtain ⟨hfree, hstale⟩ := h
  rw [← can_transition_conflict_iff]
  simp only [refusedContext, hfree]
  cases hcan : coordinator.versionTracker.canSave with
  | notDirty | canSave => simp [hcan] at hstale
  | stale serverVersion baseVersion =>
      simp only [SyncContext.send, Bool.false_eq_true, if_false]
      split
      · next hready => simp [hready]
      · next hready =>
          have hother : coordinator.stateMachine.state ≠ .conflict := by
            intro hconflict
            simp [SyncContext.isSaveBlocked, hconflict] at hfree
          simp [hready, hother]

theorem saves_now_of_stale (h : coordinator.refusesStale = true) (configuration : Configuration) :
    coordinator.savesNow configuration = false := by
  simp only [refusesStale, Bool.and_eq_true] at h
  cases hcan : coordinator.versionTracker.canSave with
  | notDirty | canSave => simp [hcan] at h
  | stale serverVersion baseVersion => simp [savesNow, hcan]

theorem user_edit_saving_iff (context : SyncContext) :
    (context.send .userEdit).state = .saving ↔ context.state = .saving := by
  simp only [SyncContext.send]
  split
  · next h => rcases h with h | h <;> simp [h]
  · exact Iff.rfl

theorem save_call_saving_iff {call : SyncCoordinator} {occurrence : Occurrence}
    (h : coordinator.saveCall occurrence = some call) :
    call.stateMachine.state = .saving ↔ coordinator.stateMachine.state = .saving := by
  obtain ⟨flushed, hflush, hcall⟩ := Option.bind_eq_some_iff.mp h
  simp only [Option.ite_none_left_eq_some, Option.some.injEq] at hcall
  obtain ⟨-, rfl⟩ := hcall
  rcases flushing_cases hflush with ⟨event, -, -, rfl⟩ | ⟨tracker, rfl, -, -⟩
  · exact user_edit_saving_iff _
  · exact Iff.rfl

theorem step_of_stale_call {call : SyncCoordinator} {occurrence : Occurrence}
    (h : coordinator.saveCall occurrence = some call) (hstale : call.refusesStale = true) :
    (coordinator.step occurrence).stateMachine = call.refusedContext := by
  obtain ⟨flushed, hflush, hcall⟩ := Option.bind_eq_some_iff.mp h
  simp only [Option.ite_none_left_eq_some, Option.some.injEq] at hcall
  obtain ⟨hpending, rfl⟩ := hcall
  have hrefused := saves_now_of_stale hstale occurrence.configuration
  rw [step_of_flushing hflush, flush_now_eq]
  simp only [flushedContext, if_neg hpending]
  exact if_neg (by simpa [savesNow] using hrefused)

/-- A save that any reachable coordinator refuses as stale surfaces as a conflict,
exactly when the state machine is saving. -/
theorem stale_refusal_surfaces_iff (occurrences : List Occurrence) (occurrence : Occurrence)
    (call : SyncCoordinator)
    (h : (run step {} occurrences).saveCall occurrence = some call)
    (hstale : call.refusesStale = true) :
    ((run step {} occurrences).step occurrence).stateMachine.state = .conflict ↔
      (run step {} occurrences).stateMachine.state = .saving := by
  rw [step_of_stale_call h hstale, refused_context_conflict_iff hstale, save_call_saving_iff h]

/-- Another client's save arrives while this one is saving: the next flush surfaces it. -/
theorem stale_refusal_surfaces_saving :
    let occurrences := openProject ++
      [.trackChange ⟨.workflow, "w1", .update, 1⟩, .debounceTimeout,
        .webSocket (.versionUpdated 6 "user-2"),
        .trackChange ⟨.workflow, "w1", .update, 2⟩].map Event.withData
    let flush := Event.withData .debounceTimeout
    ((run step {} occurrences).step flush).stateMachine.state = .conflict := by
  intro occurrences flush
  have hrefused : ∃ call, (run step {} occurrences).saveCall flush = some call ∧
      call.refusesStale = true := ⟨_, rfl, by decide⟩
  obtain ⟨call, hcall, hstale⟩ := hrefused
  exact (stale_refusal_surfaces_iff occurrences flush call hcall hstale).mpr (by decide)

/-- Another client's save arrives while this one is editing: the flush is refused as
stale, its changes are dropped and the machine stays in the editing state. -/
theorem stale_refusal_hidden_editing :
    let coordinator := run step {} (openProject ++
      [.trackChange ⟨.workflow, "w1", .update, 1⟩,
        .webSocket (.versionUpdated 6 "user-2")].map Event.withData)
    let flush := Event.withData .debounceTimeout
    (coordinator.saveCall flush).map refusesStale = some true ∧
      (coordinator.step flush).stateMachine.state = .editing := by
  decide

end Stale

end Qontinui.SyncCoordinator
