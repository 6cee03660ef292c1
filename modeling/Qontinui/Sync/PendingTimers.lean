import Qontinui.Sync.Trackers
import Qontinui.Base.Runs

/-!
A `ChangeTracker` between its events. A flush is in progress from the call of the
flush callback to the end of its promise, and the tracker goes on meanwhile. The
question is which runs leave pending changes that no timer will flush.
-/

namespace Qontinui

open Runs

/-- A tracker with the changes of the flushes whose callback has not settled. -/
structure FlushingTracker where
  tracker : ChangeTracker := {}
  flushes : List (List ChangeEvent) := []
  deriving Repr, DecidableEq

/-- What may happen to a tracker: a call, the end of a flush, or a timer that goes off. -/
inductive TrackerEvent where
  | setFlushCallback
  | start
  | stop
  | trackChange (event : ChangeEvent) (now : Int)
  | flushNow
  | cancel
  | pause
  | resume
  | discard
  | updateConfig (config : ChangeTrackerConfigUpdate)
  | flushSucceeds (index : Nat)
  | flushFails (index : Nat)
  | debounceFires
  | maxDelayFires
  | fallbackFires
  deriving Repr, DecidableEq

/-- The debounce timer or the max-delay timer is armed. -/
def ChangeTracker.Armed (tracker : ChangeTracker) : Prop :=
  tracker.debounceTimeout = true ∨ tracker.maxDelayTimeout = true

instance (tracker : ChangeTracker) : Decidable tracker.Armed :=
  inferInstanceAs (Decidable (_ ∨ _))

namespace FlushingTracker

/-- Force an immediate flush, up to the call of the flush callback. -/
def flushNow (state : FlushingTracker) : FlushingTracker :=
  if state.tracker.pendingChanges = [] then state
  else
    { tracker := state.tracker.beginFlush
      flushes :=
        if state.tracker.onFlush then state.flushes ++ [state.tracker.pendingChanges]
        else state.flushes }

/-- A call that leaves the flushes in progress alone. -/
def withTracker (state : FlushingTracker) (tracker : ChangeTracker) : FlushingTracker :=
  { state with tracker := tracker }

def ended (state : FlushingTracker) (index : Nat) : FlushingTracker :=
  { state with flushes := state.flushes.eraseIdx index }

def step (state : FlushingTracker) : TrackerEvent → FlushingTracker
  | .setFlushCallback => state.withTracker state.tracker.setFlushCallback
  | .start => state.withTracker state.tracker.start
  | .stop => state.withTracker state.tracker.stop
  | .trackChange event now =>
      let tracked := state.tracker.trackChange event now
      if tracked.2 then (state.withTracker tracked.1).flushNow else state.withTracker tracked.1
  | .flushNow => state.flushNow
  | .cancel => state.withTracker state.tracker.cancel
  | .pause => state.withTracker state.tracker.pause
  | .resume => state.withTracker state.tracker.resume
  | .discard => state.withTracker state.tracker.discard
  | .updateConfig config => state.withTracker (state.tracker.updateConfig config)
  | .flushSucceeds index => state.ended index
  | .flushFails index =>
      match state.flushes[index]? with
      | none => state
      | some changes => (state.ended index).withTracker (state.tracker.restore changes)
  | .debounceFires =>
      if state.tracker.debounceTimeout then
        (state.withTracker { state.tracker with debounceTimeout := false }).flushNow
      else state
  | .maxDelayFires =>
      if state.tracker.maxDelayTimeout then
        (state.withTracker { state.tracker with maxDelayTimeout := false }).flushNow
      else state
  | .fallbackFires =>
      if state.tracker.fallbackInterval ∧ !state.tracker.isPaused then state.flushNow else state

/-- Pending changes have a timer, unless tracking is paused or a flush is in progress. -/
def PendingTimed (state : FlushingTracker) : Prop :=
  state.tracker.pendingChanges ≠ [] → state.tracker.isPaused = false → state.flushes = [] →
    state.tracker.Armed

/-- The condition on an event: tracking is not resumed or stopped over pending changes,
and the last flush in progress does not end over changes without a timer. -/
def KeepsTimed (state : FlushingTracker) : TrackerEvent → Prop
  | .stop =>
      state.tracker.pendingChanges = [] ∨ state.tracker.isPaused = true ∨ state.flushes ≠ []
  | .resume =>
      state.tracker.pendingChanges = [] ∨ state.tracker.isPaused = false ∨ state.flushes ≠ []
  | .flushSucceeds index =>
      state.flushes.length = 1 → index = 0 →
        state.tracker.pendingChanges = [] ∨ state.tracker.isPaused = true ∨ state.tracker.Armed
  | .flushFails index =>
      state.flushes.length = 1 → index = 0 →
        state.tracker.isPaused = true ∨ state.tracker.Armed
  | _ => True

/-- What every step keeps besides: a flush has changes, and a paused tracker no timer. -/
structure Sound (state : FlushingTracker) : Prop where
  carries : ∀ changes ∈ state.flushes, changes ≠ []
  silenced : state.tracker.isPaused = true → ¬state.tracker.Armed

theorem flush_now_pending (state : FlushingTracker) :
    state.flushNow.tracker.pendingChanges = [] := by
  unfold flushNow
  split
  · assumption
  · rfl

theorem flush_now_timed (state : FlushingTracker) : state.flushNow.PendingTimed :=
  fun h => absurd state.flush_now_pending h

variable {state : FlushingTracker}

theorem flush_now_sound (h : state.Sound) : state.flushNow.Sound := by
  unfold flushNow
  split
  · exact h
  · next hpending =>
      refine ⟨fun changes hchanges => ?_, fun _ harmed => ?_⟩
      · split at hchanges
        · rcases List.mem_append.mp hchanges with hold | hnew
          · exact h.carries changes hold
          · rwa [List.mem_singleton.mp hnew]
        · exact h.carries changes hchanges
      · simp [ChangeTracker.Armed, ChangeTracker.beginFlush] at harmed

variable (tracker : ChangeTracker)

theorem pause_silences : ¬tracker.pause.Armed := by
  simp [ChangeTracker.Armed, ChangeTracker.pause]

theorem cancel_silences : ¬tracker.cancel.Armed := by
  simp [ChangeTracker.Armed, ChangeTracker.cancel]

theorem stop_silences : ¬tracker.stop.Armed := by
  simp [ChangeTracker.Armed, ChangeTracker.stop]

theorem track_change_cases (event : ChangeEvent) (now : Int) :
    tracker.isPaused = true ∧ tracker.trackChange event now = (tracker, false) ∨
      tracker.isPaused = false ∧ (tracker.trackChange event now).1.isPaused = false ∧
        ((tracker.trackChange event now).2 = true ∨
          (tracker.trackChange event now).1.Armed) := by
  cases hpaused : tracker.isPaused with
  | true => exact .inl ⟨rfl, by simp [ChangeTracker.trackChange, hpaused]⟩
  | false =>
      refine .inr ⟨rfl, ?_⟩
      simp only [ChangeTracker.trackChange, hpaused, Bool.false_eq_true, if_false]
      split
      · exact ⟨hpaused, .inl rfl⟩
      · exact ⟨hpaused, .inr (.inl rfl)⟩

theorem update_config_fields (config : ChangeTrackerConfigUpdate) :
    (tracker.updateConfig config).pendingChanges = tracker.pendingChanges ∧
      (tracker.updateConfig config).isPaused = tracker.isPaused ∧
        ((tracker.updateConfig config).Armed ↔ tracker.Armed) := by
  unfold ChangeTracker.updateConfig
  dsimp only
  split <;> exact ⟨rfl, rfl, Iff.rfl⟩

theorem ended_carries (h : state.Sound) (index : Nat) :
    ∀ changes ∈ (state.ended index).flushes, changes ≠ [] :=
  fun changes hchanges => h.carries changes (List.mem_of_mem_eraseIdx hchanges)

/-- Every step keeps a tracker sound. -/
theorem step_sound (h : state.Sound) (event : TrackerEvent) : (state.step event).Sound := by
  obtain ⟨hcarries, hsilenced⟩ := h
  cases event with
  | setFlushCallback | start => exact ⟨hcarries, hsilenced⟩
  | stop => exact ⟨hcarries, fun _ => stop_silences _⟩
  | trackChange event now =>
      rcases track_change_cases state.tracker event now with ⟨-, hsame⟩ | ⟨-, hactive, -⟩
      · simp only [step, hsame, Bool.false_eq_true, if_false]
        exact ⟨hcarries, hsilenced⟩
      · have hsound : (state.withTracker (state.tracker.trackChange event now).1).Sound :=
          ⟨hcarries, fun hpaused => absurd (hactive.symm.trans hpaused) (by decide)⟩
        simp only [step]
        split
        · exact flush_now_sound hsound
        · exact hsound
  | flushNow => exact flush_now_sound ⟨hcarries, hsilenced⟩
  | cancel => exact ⟨hcarries, fun _ => cancel_silences _⟩
  | pause => exact ⟨hcarries, fun _ => pause_silences _⟩
  | resume => exact ⟨hcarries, nofun⟩
  | discard => exact ⟨hcarries, fun _ => cancel_silences _⟩
  | updateConfig config =>
      obtain ⟨-, hpaused, harmed⟩ := update_config_fields state.tracker config
      refine ⟨hcarries, fun h => ?_⟩
      rw [step, withTracker, harmed]
      exact hsilenced (hpaused.symm.trans h)
  | flushSucceeds index => exact ⟨ended_carries ⟨hcarries, hsilenced⟩ index, hsilenced⟩
  | flushFails index =>
      simp only [step]
      split
      · exact ⟨hcarries, hsilenced⟩
      · exact ⟨ended_carries ⟨hcarries, hsilenced⟩ index, hsilenced⟩
  | debounceFires =>
      simp only [step]
      split
      · exact flush_now_sound ⟨hcarries, fun hpaused harmed =>
          hsilenced hpaused (harmed.imp_left fun hfalse => absurd hfalse Bool.false_ne_true)⟩
      · exact ⟨hcarries, hsilenced⟩
  | maxDelayFires =>
      simp only [step]
      split
      · exact flush_now_sound ⟨hcarries, fun hpaused harmed =>
          hsilenced hpaused (harmed.imp_right fun hfalse => absurd hfalse Bool.false_ne_true)⟩
      · exact ⟨hcarries, hsilenced⟩
  | fallbackFires =>
      simp only [step]
      split
      · exact flush_now_sound ⟨hcarries, hsilenced⟩
      · exact ⟨hcarries, hsilenced⟩

theorem ended_flushes_nil_iff {index : Nat} (h : index < state.flushes.length) :
    (state.ended index).flushes = [] ↔ state.flushes.length = 1 ∧ index = 0 := by
  rw [ended, ← List.length_eq_zero_iff, List.length_eraseIdx_of_lt h]
  omega

/-- A step keeps the pending changes timed exactly under its condition. -/
theorem step_timed_iff (hsound : state.Sound) (htimed : state.PendingTimed) (event : TrackerEvent) :
    (state.step event).PendingTimed ↔ state.KeepsTimed event := by
  cases event with
  | setFlushCallback | start => exact iff_of_true htimed trivial
  | stop =>
      have hsilent := stop_silences state.tracker
      simp only [step, PendingTimed, KeepsTimed, withTracker, hsilent]
      simp only [ChangeTracker.stop]
      cases state.tracker.isPaused <;> simp [or_iff_not_imp_left]
  | trackChange event now =>
      refine iff_of_true ?_ trivial
      rcases track_change_cases state.tracker event now with ⟨-, hsame⟩ | ⟨-, -, hflush⟩
      · simp only [step, hsame, Bool.false_eq_true, if_false]
        exact htimed
      · simp only [step]
        split
        · exact flush_now_timed _
        · next hfull => exact fun _ _ _ => hflush.resolve_left hfull
  | flushNow => exact iff_of_true (flush_now_timed _) trivial
  | cancel => exact iff_of_true (fun h => absurd rfl h) trivial
  | pause => exact iff_of_true (fun _ h => nomatch h) trivial
  | resume =>
      constructor
      · intro h
        by_contra hcontra
        simp only [KeepsTimed, not_or, not_not, Bool.not_eq_false] at hcontra
        obtain ⟨hpending, hpaused, hflushes⟩ := hcontra
        exact hsound.silenced hpaused (h hpending rfl hflushes)
      · rintro (hpending | hactive | hflushes) hne - hnone
        · exact absurd hpending hne
        · exact htimed hne hactive hnone
        · exact absurd hnone hflushes
  | discard => exact iff_of_true (fun h => absurd rfl h) trivial
  | updateConfig config =>
      refine iff_of_true ?_ trivial
      obtain ⟨hpending, hpaused, harmed⟩ := update_config_fields state.tracker config
      simpa only [step, PendingTimed, withTracker, hpending, hpaused, harmed] using htimed
  | flushSucceeds index =>
      by_cases hindex : index < state.flushes.length
      · simp only [step, PendingTimed, KeepsTimed, ended_flushes_nil_iff hindex]
        constructor
        · intro h hone hzero
          by_contra hcontra
          simp only [not_or, Bool.not_eq_true] at hcontra
          obtain ⟨hpending, hactive, hsilent⟩ := hcontra
          exact hsilent (h hpending hactive ⟨hone, hzero⟩)
        · rintro h hpending hactive ⟨hone, hzero⟩
          rcases h hone hzero with hnil | hpaused | harmed
          · exact absurd hnil hpending
          · exact absurd (hactive.symm.trans hpaused) Bool.false_ne_true
          · exact harmed
      · have hsame : state.step (.flushSucceeds index) = state := by
          simp only [step, ended]
          rw [List.eraseIdx_of_length_le (by omega)]
        rw [hsame]
        exact iff_of_true htimed fun hone hzero => absurd hindex (by omega)
  | flushFails index =>
      cases hchanges : state.flushes[index]? with
      | none =>
          have hindex := List.getElem?_eq_none_iff.mp hchanges
          simp only [step, hchanges]
          exact iff_of_true htimed fun hone hzero => absurd hindex (by omega)
      | some changes =>
          obtain ⟨hindex, hget⟩ := List.getElem?_eq_some_iff.mp hchanges
          have hne : changes ++ state.tracker.pendingChanges ≠ [] := by
            have := hsound.carries changes (List.mem_of_getElem hget)
            simp [this]
          simp only [step, hchanges, PendingTimed, KeepsTimed, withTracker,
            ended_flushes_nil_iff hindex, ChangeTracker.restore, ne_eq, hne, not_false_eq_true,
            true_implies]
          have harmed : ({ state.tracker with
              pendingChanges := changes ++ state.tracker.pendingChanges
              firstChangeAt := changes.head?.map (·.timestamp) } : ChangeTracker).Armed ↔
              state.tracker.Armed := Iff.rfl
          rw [harmed]
          cases state.tracker.isPaused <;> simp
  | debounceFires | maxDelayFires | fallbackFires =>
      refine iff_of_true ?_ trivial
      simp only [step]
      split
      · exact flush_now_timed _
      · exact htimed

/-- Pending changes are timed in every state of a run of a new tracker exactly when
each of its steps meets the condition. -/
theorem pending_timed_iff (config : ChangeTrackerConfig) (events : List TrackerEvent) :
    (∀ front, front <+: events →
        (run step { tracker := { config := config } } front).PendingTimed) ↔
      Meets step KeepsTimed { tracker := { config := config } } events := by
  have hstart : ({ tracker := { config := config } } : FlushingTracker).Sound ∧
      ({ tracker := { config := config } } : FlushingTracker).PendingTimed :=
    ⟨⟨nofun, nofun⟩, fun h => absurd rfl h⟩
  exact property_along_iff step (fun state => state.Sound ∧ state.PendingTimed) PendingTimed
    (fun _ h => h.2) (fun _ event h _ htimed => ⟨step_sound h.1 event, htimed⟩)
    (fun _ event h _ => step_timed_iff h.1 h.2 event) hstart
    (meets_of_forall step (fun _ _ => trivial) _)

/-- A flush that fails puts its changes back without a timer. -/
theorem failed_flush_untimed :
    ¬(run step {} [.setFlushCallback, .trackChange ⟨.workflow, "w", .update, 0⟩ 0, .flushNow,
      .flushFails 0]).PendingTimed :=
  fun h => absurd (h (by decide) rfl rfl) (by decide)

end FlushingTracker

end Qontinui
