import Qontinui.Collaboration.QueueRestart

/-!
A pass over the offline queue comes to its end, also where the device goes offline on the
way. Attempts made offline queue their changes behind the end of the array that the loop
walks, but the array does not grow beyond the maximum size, so the loop reaches its end.
-/

namespace Qontinui.OfflineQueue

open Runs

def passStep (queue : OfflineQueue) (occurrence : QueueOccurrence) : OfflineQueue :=
  if queue.pass.isNone then queue else queue.step occurrence

/-- Where a pass is: its next index, and whether it waits before going on. -/
def place (queue : OfflineQueue) : Option (Nat × Bool) :=
  queue.pass.map fun pass => (pass.nextIndex, pass.waiting)

/-- What a pass waits for: the outcome of its attempt, or the end of its delay. -/
def Awaits (queue : OfflineQueue) (occurrence : QueueOccurrence) : Prop :=
  match queue.place with
  | none => False
  | some (_, true) => occurrence.event = .retryDelayOver
  | some (_, false) => ∃ outcome, occurrence.event = .attemptSettles outcome

/-- Attempts settle and delays are over again and again. -/
def Fair (events : Nat → QueueOccurrence) : Prop :=
  ∀ n, (∃ k outcome, (events (n + k)).event = .attemptSettles outcome) ∧
    ∃ k, (events (n + k)).event = .retryDelayOver

theorem pass_of_eq_run (queue : OfflineQueue) (occurrences : List QueueOccurrence) :
    queue.passOf occurrences = run passStep queue occurrences := by
  induction occurrences generalizing queue with
  | nil => rfl
  | cons occurrence occurrences ih =>
      rw [run_cons, ← ih, passOf, passStep]
      split
      · next hnone =>
          cases occurrences with
          | nil => rfl
          | cons other rest => rw [passOf, if_pos hnone]
      · rfl

/-- The turns a pass has left at most: two for each place of the array ahead of it. -/
def remaining (bound : Nat) (queue : OfflineQueue) : Nat :=
  match queue.place with
  | none => 0
  | some (nextIndex, waiting) => 2 * (bound - nextIndex) + if waiting then 1 else 2

/-- The array does not grow beyond a bound, and a pass holds the queue exactly as long as
it runs. -/
structure Bounded (bound : Nat) (queue : OfflineQueue) : Prop where
  length : queue.syncQueue.length ≤ bound
  maximum : queue.config.maxQueueSize ≤ bound
  positive : 0 < bound
  held : queue.processingQueue = queue.pass.isSome

section Bounds

variable {bound : Nat} {queue : OfflineQueue}

@[simp] theorem place_queue_change (queue : OfflineQueue) (change : Change) (now : Int) :
    (queue.queueOfflineChange change now).place = queue.place := by
  rcases queue_change_cases queue change now with heq | ⟨-, heq⟩ | ⟨-, heq⟩ <;> rw [heq]
  · rfl
  · simp [place, appended, saveQueueToStorage, shift, Function.comp_def]

theorem place_retry_later (queue : OfflineQueue) :
    queue.retryLater.place = queue.place.map fun found => (found.1, true) := by
  cases hpass : queue.pass with
  | none => simp [retryLater, place, hpass]
  | some pass => simp [retryLater, place, hpass, writeBack]

theorem place_start_attempt (queue : OfflineQueue) (index : Nat) (operation : SyncOperation)
    (ids : List String) (moment : Moment) :
    (queue.startAttempt index operation ids moment).place =
      some (index + 1, !queue.isOnline) := by
  have hcalled : (queue.called index operation ids).place = some (index + 1, false) := rfl
  rw [start_attempt_eq]
  split
  · next honline => rw [hcalled, honline, Bool.not_true]
  · next honline => simp [place_retry_later, hcalled, honline]

theorem place_advance (queue : OfflineQueue) (index : Nat) (ids : List String)
    (moment : Moment) :
    (queue.advance index ids moment).place = none ∨
      ∃ next waiting, index ≤ next ∧ next < queue.syncQueue.length ∧
        (queue.advance index ids moment).place = some (next + 1, waiting) := by
  simp only [advance]
  split
  · next next operation ids' hnext =>
      obtain ⟨skipped, rfl, hget, -, -⟩ := next_attempt_some hnext
      have hlt := (List.getElem?_eq_some_iff.mp hget).1
      rw [List.length_drop] at hlt
      exact .inr ⟨_, _, Nat.le_add_right _ _, by omega, place_start_attempt _ _ _ _ _⟩
  · exact .inl rfl

theorem remaining_advance (hlength : queue.syncQueue.length ≤ bound) (index : Nat)
    (ids : List String) (moment : Moment) :
    (queue.advance index ids moment).remaining bound ≤ 2 * (bound - index) := by
  rcases place_advance queue index ids moment with hnone | ⟨next, waiting, hle, hlt, hsome⟩
  · simp [remaining, hnone]
  · simp only [remaining, hsome]
    split <;> omega

theorem length_write_back (queue : OfflineQueue) (pass : Pass) :
    (queue.writeBack pass).syncQueue.length = queue.syncQueue.length := by
  simp only [writeBack]
  split
  · exact List.length_set
  · rfl

theorem Bounded.queue_change (h : Bounded bound queue) (change : Change) (now : Int) :
    Bounded bound (queue.queueOfflineChange change now) := by
  have hlength := h.length
  have hmaximum := h.maximum
  have hpositive := h.positive
  rcases queue_change_cases queue change now with heq | ⟨hroom, heq⟩ | ⟨-, heq⟩ <;> rw [heq]
  · exact h
  · refine ⟨?_, hmaximum, hpositive, h.held⟩
    simp only [appended, saveQueueToStorage, List.length_append, List.length_singleton]
    omega
  · refine ⟨?_, hmaximum, hpositive, by simpa [appended, saveQueueToStorage, shift] using h.held⟩
    simp only [appended, saveQueueToStorage, shift, List.length_append, List.length_tail,
      List.length_singleton]
    omega

theorem Bounded.write_back (h : Bounded bound queue) (hbusy : queue.processingQueue = true)
    (pass : Pass) : Bounded bound (queue.writeBack pass) where
  length := (length_write_back queue pass).trans_le h.length
  maximum := h.maximum
  positive := h.positive
  held := hbusy

theorem Bounded.retry_later (h : Bounded bound queue) : Bounded bound queue.retryLater := by
  cases hpass : queue.pass with
  | none => simpa only [retryLater, hpass] using h
  | some pass =>
      simp only [retryLater, hpass]
      exact h.write_back (by rw [h.held, hpass, Option.isSome_some]) _

theorem bounded_advance (hlength : queue.syncQueue.length ≤ bound)
    (hmaximum : queue.config.maxQueueSize ≤ bound) (hpositive : 0 < bound)
    (hbusy : queue.processingQueue = true) (index : Nat) (ids : List String) (moment : Moment) :
    Bounded bound (queue.advance index ids moment) := by
  simp only [advance]
  split
  · next next operation ids' _ =>
      have hcalled : Bounded bound (queue.called next operation ids') :=
        ⟨(length_write_back queue ⟨{ operation with status := .processing }, some next, next + 1,
          false, ids'⟩).trans_le hlength, hmaximum, hpositive, hbusy⟩
      rw [start_attempt_eq]
      split
      · exact hcalled
      · exact (hcalled.queue_change _ _).retry_later
  · exact ⟨(List.length_filter_le _ _).trans hlength, hmaximum, hpositive, rfl⟩

/-- What one step of a pass does: it keeps the bound, and takes a turn or leaves the pass
where it was; what the pass waits for takes a turn. -/
structure Turns (bound : Nat) (queue after : OfflineQueue) (occurrence : QueueOccurrence) :
    Prop where
  bounded : Bounded bound after
  turn : after.remaining bound < queue.remaining bound ∨ after.place = queue.place
  awaited : queue.Awaits occurrence → after.remaining bound < queue.remaining bound

theorem Turns.stays {after : OfflineQueue} {occurrence : QueueOccurrence}
    (hbounded : Bounded bound after) (hplace : after.place = queue.place)
    (hnot : ¬ queue.Awaits occurrence) : Turns bound queue after occurrence where
  bounded := hbounded
  turn := .inr hplace
  awaited h := absurd h hnot

theorem Turns.falls {after : OfflineQueue} {occurrence : QueueOccurrence}
    (hbounded : Bounded bound after) (h : after.remaining bound < queue.remaining bound) :
    Turns bound queue after occurrence where
  bounded := hbounded
  turn := .inl h
  awaited _ := h

variable {pass : Pass}

theorem place_of_pass (hpass : queue.pass = some pass) :
    queue.place = some (pass.nextIndex, pass.waiting) := by
  simp [place, hpass]

theorem settle_turns (h : Bounded bound queue) (hpass : queue.pass = some pass)
    (outcome : SyncOutcome) (moment : Moment) :
    Turns bound queue (queue.settleAttempt outcome moment) ⟨.attemptSettles outcome, moment⟩ := by
  have hplace := place_of_pass hpass
  have hbusy : queue.processingQueue = true := by rw [h.held, hpass, Option.isSome_some]
  cases hwaiting : pass.waiting with
  | true =>
      rw [settle_idle (by simp [hpass, hwaiting])]
      exact .stays h rfl (by simp [Awaits, hplace, hwaiting])
  | false =>
      have hremaining : queue.remaining bound = 2 * (bound - pass.nextIndex) + 2 := by
        simp [remaining, hplace, hwaiting]
      -- the loop goes on after the attempt that it held
      have hadvance : ∀ (written : OfflineQueue) (ids : List String),
          Bounded bound written → written.processingQueue = true →
          Turns bound queue (written.advance pass.nextIndex ids moment)
            ⟨.attemptSettles outcome, moment⟩ := by
        intro written ids hwritten hheld
        refine .falls (bounded_advance hwritten.length hwritten.maximum hwritten.positive hheld
          _ _ _) ?_
        have hle := remaining_advance hwritten.length pass.nextIndex ids moment
        omega
      rw [settle_eq hpass hwaiting]
      cases outcome with
      | success =>
          have hwritten := h.write_back hbusy (completedPass pass)
          refine hadvance _ _ ?_ hbusy
          exact ⟨hwritten.length, hwritten.maximum, hwritten.positive, hwritten.held⟩
      | conflict => exact hadvance _ _ (h.write_back hbusy (queue.failedPass pass)) hbusy
      | error =>
          refine .falls h.retry_later ?_
          simp only [remaining, place_retry_later, hplace, hwaiting, Option.map_some, if_true]
          simp

theorem resume_turns (h : Bounded bound queue) (hpass : queue.pass = some pass)
    (moment : Moment) :
    Turns bound queue (queue.resumePass moment) ⟨.retryDelayOver, moment⟩ := by
  have hplace := place_of_pass hpass
  have hbusy : queue.processingQueue = true := by rw [h.held, hpass, Option.isSome_some]
  cases hwaiting : pass.waiting with
  | false =>
      simp only [resumePass, hpass, hwaiting, Bool.false_eq_true, if_false]
      exact .stays h rfl (by simp [Awaits, hplace, hwaiting])
  | true =>
      simp only [resumePass, hpass, hwaiting, if_true]
      refine .falls (bounded_advance h.length h.maximum h.positive hbusy _ _ _) ?_
      have hle := remaining_advance h.length pass.nextIndex pass.processedIds moment
      have hremaining : queue.remaining bound = 2 * (bound - pass.nextIndex) + 1 := by
        simp [remaining, hplace, hwaiting]
      omega

theorem process_busy_eq (queue : OfflineQueue) (hbusy : queue.processingQueue = true)
    (moment : Moment) : queue.processOfflineQueue moment = queue := by
  simp [processOfflineQueue, hbusy]

theorem step_turns (h : Bounded bound queue) (occurrence : QueueOccurrence) :
    Turns bound queue (queue.passStep occurrence) occurrence := by
  obtain ⟨event, moment⟩ := occurrence
  cases hpass : queue.pass with
  | none =>
      simp only [passStep, hpass, Option.isNone_none, if_true]
      exact .stays h rfl (by simp [Awaits, place, hpass])
  | some pass =>
      have hbusy : queue.processingQueue = true := by rw [h.held, hpass, Option.isSome_some]
      have hplace := place_of_pass hpass
      have hnot : ∀ {other : QueueEvent}, (∀ outcome, other ≠ .attemptSettles outcome) →
          other ≠ .retryDelayOver → ¬ queue.Awaits ⟨other, moment⟩ := by
        intro other hsettles hdelay
        cases hwaiting : pass.waiting <;> simp_all [Awaits]
      have hstep : queue.passStep ⟨event, moment⟩ = queue.step ⟨event, moment⟩ := by
        simp [passStep, hpass]
      rw [hstep]
      cases event with
      | queueOfflineChange change =>
          exact .stays (h.queue_change _ _) (place_queue_change _ _ _)
            (hnot (by simp) (by simp))
      | processOfflineQueue =>
          have hbusy' : queue.step ⟨.processOfflineQueue, moment⟩ = queue :=
            process_busy_eq queue hbusy moment
          rw [hbusy']
          exact .stays h rfl (hnot (by simp) (by simp))
      | attemptSettles outcome => exact settle_turns h hpass outcome moment
      | retryDelayOver => exact resume_turns h hpass moment
      | online =>
          have honline : queue.step ⟨.online, moment⟩ = { queue with isOnline := true } :=
            process_busy_eq { queue with isOnline := true } hbusy moment
          rw [honline]
          exact .stays ⟨h.length, h.maximum, h.positive, h.held⟩ rfl (hnot (by simp) (by simp))
      | offline =>
          exact .stays ⟨h.length, h.maximum, h.positive, h.held⟩ rfl (hnot (by simp) (by simp))

end Bounds

theorem fair_awaits {queue : OfflineQueue} {bound : Nat} {events : Nat → QueueOccurrence}
    (hfair : Fair events) (n : Nat) (hpositive : 0 < queue.remaining bound) :
    ∃ k, queue.Awaits (events (n + k)) := by
  obtain ⟨⟨settles, outcome, hsettles⟩, ends, hends⟩ := hfair n
  cases hplace : queue.place with
  | none => simp [remaining, hplace] at hpositive
  | some found =>
      obtain ⟨nextIndex, waiting⟩ := found
      cases waiting with
      | true => exact ⟨ends, by simpa only [Awaits, hplace] using hends⟩
      | false => exact ⟨settles, by simpa only [Awaits, hplace] using ⟨outcome, hsettles⟩⟩

theorem pass_ends {queue : OfflineQueue} {bound : Nat} (h : Bounded bound queue)
    {events : Nat → QueueOccurrence} (hfair : Fair events) :
    ∃ n, (after passStep queue events n).pass = none ∧
      (after passStep queue events n).processingQueue = false := by
  have hinvariant : ∀ state occurrence, Bounded bound state →
      Bounded bound (passStep state occurrence) :=
    fun _ occurrence hstate => (step_turns hstate occurrence).bounded
  have hstep : ∀ state occurrence, Bounded bound state →
      (passStep state occurrence).remaining bound < state.remaining bound ∨
        (passStep state occurrence).remaining bound = state.remaining bound ∧
          ∀ other, state.Awaits other → (passStep state occurrence).Awaits other := by
    intro state occurrence hstate
    rcases (step_turns hstate occurrence).turn with hless | hsame
    · exact .inl hless
    · simp only [remaining, Awaits, hsame]
      exact .inr ⟨trivial, fun _ hawaits => hawaits⟩
  obtain ⟨n, hn⟩ := eventually_zero passStep hinvariant hstep
    (fun state occurrence hstate => (step_turns hstate occurrence).awaited) h events
    (fun n hpositive => fair_awaits hfair n hpositive)
  have hnone : (after passStep queue events n).pass = none := by
    by_contra hsome
    obtain ⟨pass, hpass⟩ := Option.ne_none_iff_exists'.mp hsome
    simp only [remaining, place_of_pass hpass] at hn
    split at hn <;> omega
  exact ⟨n, hnone, by
    rw [(invariant_after passStep hinvariant h events n).held, hnone, Option.isSome_none]⟩

end Qontinui.OfflineQueue
