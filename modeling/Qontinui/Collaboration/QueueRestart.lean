import Qontinui.Collaboration.QueueOrder

/-!
Restarts of the offline queue. A stored queue keeps its dates as text, which only the
sort reads: it throws as soon as it compares two operations. After the sort a pass runs
as it would have run before the restart.
-/

namespace Qontinui.OfflineQueue

open Runs

def stepOrRestart (queue : OfflineQueue) : Option QueueOccurrence → OfflineQueue
  | some occurrence => queue.step occurrence
  | none => queue.restart

/-- Let a pass run: nothing happens after its end. -/
def passOf (queue : OfflineQueue) : List QueueOccurrence → OfflineQueue
  | [] => queue
  | occurrence :: occurrences =>
      if queue.pass.isNone then queue else (queue.step occurrence).passOf occurrences

/-- What the attempts of a queue have passed to `syncResource`. -/
def pushAttempts (queue : OfflineQueue) : List (ResourceType × String × JsValue) :=
  queue.attempts.map fun operation =>
    (operation.resourceType, operation.resourceId, operation.change.value)

def answer (outcome : SyncOutcome × Moment) : List QueueOccurrence :=
  [⟨.attemptSettles outcome.1, outcome.2⟩, ⟨.retryDelayOver, outcome.2⟩]

def reopened (queue : OfflineQueue) (isOnline : Bool) : OfflineQueue :=
  { restart queue.saveQueueToStorage with isOnline := isOnline }

/-- The same new service, with the queue as it was before the restart. -/
def undisturbed (queue : OfflineQueue) (isOnline : Bool) : OfflineQueue :=
  { queue.reopened isOnline with syncQueue := queue.syncQueue }

/-- A restart does not change the attempts of the next pass, whatever happens during it,
and that pass ends when its attempts are answered. -/
def RoundTrips (queue : OfflineQueue) : Prop :=
  ∀ isOnline moment,
    (∀ occurrences,
      (passOf ((queue.reopened isOnline).processOfflineQueue moment) occurrences).pushAttempts =
        (passOf ((queue.undisturbed isOnline).processOfflineQueue moment)
          occurrences).pushAttempts) ∧
    ∀ outcomes : List (SyncOutcome × Moment), queue.syncQueue.length ≤ outcomes.length →
      (run step ((queue.reopened isOnline).processOfflineQueue moment)
        (outcomes.flatMap answer)).processingQueue = false

theorem stored_operation_eq (operation : SyncOperation) :
    storedOperation operation =
      { operation with queuedAt := .text (queuedTime operation.queuedAt) } := by
  obtain ⟨id, type, resourceType, resourceId, change, priority, retryCount, queuedAt, status,
    ticket⟩ := operation
  cases queuedAt <;> rfl

@[simp] theorem stored_operation_idem (operation : SyncOperation) :
    storedOperation (storedOperation operation) = storedOperation operation := by
  simp only [stored_operation_eq, queuedTime]

def withStoredDates (queue : OfflineQueue) : OfflineQueue :=
  { queue with
    syncQueue := queue.syncQueue.map storedOperation
    pass := queue.pass.map fun pass => { pass with operation := storedOperation pass.operation }
    storage := queue.storage.map (List.map storedOperation)
    attempts := queue.attempts.map storedOperation
    pushed := queue.pushed.map storedOperation }

variable (queue : OfflineQueue)

@[simp] theorem with_stored_dates_idem :
    queue.withStoredDates.withStoredDates = queue.withStoredDates := by
  simp [withStoredDates, Function.comp_def]

theorem pass_stored_dates {pass : Pass} (h : queue.pass = some pass) :
    queue.withStoredDates.pass =
      some { pass with operation := storedOperation pass.operation } := by
  simp [withStoredDates, h]

theorem no_pass_stored_dates (h : queue.pass = none) : queue.withStoredDates.pass = none := by
  simp [withStoredDates, h]

theorem shift_stored_dates : queue.withStoredDates.shift = queue.shift.withStoredDates := by
  simp [shift, withStoredDates, Function.comp_def, List.map_tail]

theorem queue_change_stored_dates (change : Change) (now : Int) :
    (queue.withStoredDates.queueOfflineChange change now).withStoredDates =
      (queue.queueOfflineChange change now).withStoredDates := by
  have hconfig : queue.withStoredDates.config = queue.config := rfl
  have hlength : queue.withStoredDates.syncQueue.length = queue.syncQueue.length :=
    List.length_map _
  simp only [queueOfflineChange, hconfig, hlength, shift_stored_dates]
  split
  · exact with_stored_dates_idem queue
  · split
    · simp [saveQueueToStorage, withStoredDates, Function.comp_def]
    · simp [saveQueueToStorage, withStoredDates, Function.comp_def]

theorem write_back_stored_dates (pass : Pass) :
    queue.withStoredDates.writeBack { pass with operation := storedOperation pass.operation } =
      (queue.writeBack pass).withStoredDates := by
  simp only [writeBack, withStoredDates]
  cases hposition : pass.position with
  | none => simp [hposition]
  | some position => simp [hposition, List.map_set]

theorem failed_stored (operation : SyncOperation) :
    queue.withStoredDates.failedOperation (storedOperation operation) =
      storedOperation (queue.failedOperation operation) := by
  simp only [stored_operation_eq]
  rfl

theorem retry_later_stored_dates :
    queue.withStoredDates.retryLater = queue.retryLater.withStoredDates := by
  cases hpass : queue.pass with
  | none =>
      have hstored := queue.no_pass_stored_dates hpass
      simp only [retryLater, hpass, hstored]
  | some pass =>
      have hstored := queue.pass_stored_dates hpass
      simp only [retryLater, hpass, hstored, failed_stored]
      exact write_back_stored_dates queue
        { pass with operation := queue.failedOperation pass.operation, waiting := true }

theorem finish_stored_dates (ids : List String) :
    queue.withStoredDates.finishPass ids = (queue.finishPass ids).withStoredDates := by
  have hid : ∀ operation, (storedOperation operation).id = operation.id := by
    intro operation
    rw [stored_operation_eq]
  simp [finishPass, saveQueueToStorage, withStoredDates, List.filter_map, Function.comp_def, hid]

theorem next_attempt_stored (index : Nat) (ids : List String) (rest : List SyncOperation) :
    nextAttempt index ids (rest.map storedOperation) =
      ((nextAttempt index ids rest).1.map fun found => (found.1, storedOperation found.2),
        (nextAttempt index ids rest).2) := by
  induction rest generalizing index ids with
  | nil => rfl
  | cons operation rest ih =>
      simp only [List.map_cons, nextAttempt, ih]
      have hstatus : (storedOperation operation).status = operation.status := by
        rw [stored_operation_eq]
      have hid : (storedOperation operation).id = operation.id := by
        rw [stored_operation_eq]
      rw [hstatus, hid]
      split <;> rfl

/-- A queue whose pass has just called `syncResource`. -/
def called (queue : OfflineQueue) (index : Nat) (operation : SyncOperation)
    (ids : List String) : OfflineQueue :=
  let attempted := { operation with status := .processing }
  let held := queue.writeBack ⟨attempted, some index, index + 1, false, ids⟩
  { held with attempts := held.attempts ++ [attempted] }

theorem start_attempt_eq (index : Nat) (operation : SyncOperation) (ids : List String)
    (moment : Moment) :
    queue.startAttempt index operation ids moment =
      if queue.isOnline then queue.called index operation ids
      else ((queue.called index operation ids).queueOfflineChange
        (pendingChange operation moment) moment.now).retryLater := rfl

theorem called_stored_dates (index : Nat) (operation : SyncOperation) (ids : List String) :
    queue.withStoredDates.called index (storedOperation operation) ids =
      (queue.called index operation ids).withStoredDates := by
  have hattempted : { storedOperation operation with status := .processing } =
      storedOperation { operation with status := .processing } := by
    simp only [stored_operation_eq]
  simp [called, hattempted, writeBack, withStoredDates, List.map_set]

theorem start_attempt_stored_dates (index : Nat) (operation : SyncOperation) (ids : List String)
    (moment : Moment) :
    (queue.withStoredDates.startAttempt index (storedOperation operation) ids
      moment).withStoredDates =
        (queue.startAttempt index operation ids moment).withStoredDates := by
  have honline : queue.withStoredDates.isOnline = queue.isOnline := rfl
  have hchange : pendingChange (storedOperation operation) moment =
      pendingChange operation moment := by
    simp only [stored_operation_eq, pendingChange]
  simp only [start_attempt_eq, called_stored_dates, hchange, honline]
  split
  · exact with_stored_dates_idem _
  · rw [← retry_later_stored_dates, ← retry_later_stored_dates, queue_change_stored_dates]

theorem advance_stored_dates (index : Nat) (ids : List String) (moment : Moment) :
    (queue.withStoredDates.advance index ids moment).withStoredDates =
      (queue.advance index ids moment).withStoredDates := by
  have hdrop : queue.withStoredDates.syncQueue.drop index =
      (queue.syncQueue.drop index).map storedOperation := List.map_drop.symm
  simp only [advance, hdrop, next_attempt_stored]
  cases nextAttempt index ids (queue.syncQueue.drop index) with
  | mk attempt ids' =>
      cases attempt with
      | none =>
          simp only [Option.map_none, finish_stored_dates, with_stored_dates_idem]
      | some found => exact start_attempt_stored_dates queue found.1 found.2 ids' moment

theorem completed_stored (pass : Pass) :
    completedPass { pass with operation := storedOperation pass.operation } =
      { completedPass pass with operation := storedOperation (completedPass pass).operation } := by
  simp only [completedPass, stored_operation_eq]

theorem push_stored_dates (pass : Pass) :
    { queue.withStoredDates.writeBack { pass with operation := storedOperation pass.operation } with
      pushed := queue.withStoredDates.pushed ++ [storedOperation pass.operation] } =
      withStoredDates
        { queue.writeBack pass with pushed := queue.pushed ++ [pass.operation] } := by
  rw [write_back_stored_dates]
  simp [withStoredDates, writeBack]

theorem settle_stored_dates (outcome : SyncOutcome) (moment : Moment) :
    (queue.withStoredDates.settleAttempt outcome moment).withStoredDates =
      (queue.settleAttempt outcome moment).withStoredDates := by
  cases hpass : queue.pass with
  | none =>
      have hstored := queue.no_pass_stored_dates hpass
      simp only [settleAttempt, hpass, hstored, with_stored_dates_idem]
  | some pass =>
      have hstored := queue.pass_stored_dates hpass
      cases hwaiting : pass.waiting with
      | true =>
          simp only [settleAttempt, hpass, hstored, hwaiting, if_true, with_stored_dates_idem]
      | false =>
          rw [settle_eq hpass hwaiting, settle_eq hstored hwaiting]
          cases outcome with
          | success =>
              have hid : (storedOperation pass.operation).id = pass.operation.id := by
                rw [stored_operation_eq]
              simp only [completed_stored, hid]
              rw [push_stored_dates]
              exact advance_stored_dates _ pass.nextIndex _ moment
          | conflict =>
              have hwritten := queue.write_back_stored_dates (queue.failedPass pass)
              simp only [failedPass, failed_stored] at hwritten ⊢
              rw [hwritten]
              exact advance_stored_dates _ pass.nextIndex _ moment
          | error =>
              simp only [retry_later_stored_dates, with_stored_dates_idem]

theorem resume_stored_dates (moment : Moment) :
    (queue.withStoredDates.resumePass moment).withStoredDates =
      (queue.resumePass moment).withStoredDates := by
  cases hpass : queue.pass with
  | none =>
      have hstored := queue.no_pass_stored_dates hpass
      simp only [resumePass, hpass, hstored, with_stored_dates_idem]
  | some pass =>
      have hstored := queue.pass_stored_dates hpass
      simp only [resumePass, hpass, hstored]
      split
      · exact advance_stored_dates queue pass.nextIndex pass.processedIds moment
      · exact with_stored_dates_idem queue

/-- A queue with a pass is marked as being processed. -/
def Busy (queue : OfflineQueue) : Prop :=
  queue.pass.isSome = true → queue.processingQueue = true

variable {queue}

theorem queue_change_busy (h : queue.Busy) (change : Change) (now : Int) :
    (queue.queueOfflineChange change now).Busy := by
  rcases queue_change_cases queue change now with heq | ⟨-, heq⟩ | ⟨-, heq⟩ <;> rw [heq]
  · exact h
  · exact h
  · intro hpass
    apply h
    simpa [appended, saveQueueToStorage, shift] using hpass

theorem retry_later_busy (h : queue.Busy) : queue.retryLater.Busy := by
  cases hpass : queue.pass with
  | none =>
      simp only [retryLater, hpass]
      exact h
  | some pass =>
      simp only [retryLater, hpass]
      exact fun _ => h (by simp [hpass])

theorem advance_busy (h : queue.processingQueue = true) (index : Nat) (ids : List String)
    (moment : Moment) : (queue.advance index ids moment).Busy := by
  simp only [advance]
  split
  · simp only [start_attempt_eq]
    split
    · exact fun _ => h
    · refine retry_later_busy (queue_change_busy ?_ _ _)
      exact fun _ => h
  · intro hpass
    simp [finishPass, saveQueueToStorage] at hpass

theorem step_busy (h : queue.Busy) (occurrence : QueueOccurrence) :
    (queue.step occurrence).Busy := by
  obtain ⟨event, moment⟩ := occurrence
  have hprocess : ∀ queue : OfflineQueue, queue.Busy → (queue.processOfflineQueue moment).Busy := by
    intro queue h
    simp only [processOfflineQueue]
    split
    · exact h
    · split
      · exact fun _ => rfl
      · exact advance_busy rfl 0 [] moment
  cases event with
  | queueOfflineChange change => exact queue_change_busy h change moment.now
  | processOfflineQueue => exact hprocess queue h
  | attemptSettles outcome =>
      cases hpass : queue.pass with
      | none =>
          simp only [step, settleAttempt, hpass]
          exact h
      | some pass =>
          have hbusy := h (by simp [hpass])
          cases hwaiting : pass.waiting with
          | true =>
              simp only [step, settleAttempt, hpass, hwaiting, if_true]
              exact h
          | false =>
              simp only [step, settle_eq hpass hwaiting]
              cases outcome with
              | success | conflict =>
                  refine advance_busy ?_ _ _ moment
                  exact hbusy
              | error => exact retry_later_busy h
  | retryDelayOver =>
      simp only [step, resumePass]
      split
      · next pass hpass =>
          split
          · exact advance_busy (h (by simp [hpass])) _ _ moment
          · exact h
      · exact h
  | online => exact hprocess _ h
  | offline => exact h

theorem step_stored_dates (hbusy : queue.processingQueue = true) (occurrence : QueueOccurrence) :
    (queue.withStoredDates.step occurrence).withStoredDates =
      (queue.step occurrence).withStoredDates := by
  obtain ⟨event, moment⟩ := occurrence
  have hprocess : ∀ queue : OfflineQueue, queue.processingQueue = true →
      queue.processOfflineQueue moment = queue := by
    intro queue hbusy
    simp [processOfflineQueue, hbusy]
  cases event with
  | queueOfflineChange change => exact queue_change_stored_dates queue change moment.now
  | processOfflineQueue =>
      simp only [step, hprocess queue hbusy, hprocess queue.withStoredDates hbusy,
        with_stored_dates_idem]
  | attemptSettles outcome => exact settle_stored_dates queue outcome moment
  | retryDelayOver => exact resume_stored_dates queue moment
  | online =>
      have honline := hprocess { queue with isOnline := true } hbusy
      have hstored := hprocess { queue.withStoredDates with isOnline := true } hbusy
      simp only [step, honline, hstored]
      exact with_stored_dates_idem { queue with isOnline := true }
  | offline => exact with_stored_dates_idem { queue with isOnline := false }

theorem pass_of_stored_dates (h : queue.Busy) (occurrences : List QueueOccurrence) :
    (queue.withStoredDates.passOf occurrences).withStoredDates =
      (queue.passOf occurrences).withStoredDates := by
  induction occurrences generalizing queue with
  | nil => exact with_stored_dates_idem queue
  | cons occurrence occurrences ih =>
      cases hpass : queue.pass with
      | none =>
          have hstored := queue.no_pass_stored_dates hpass
          simp [passOf, hpass, hstored]
      | some pass =>
          have hstored := queue.pass_stored_dates hpass
          have hbusy := h (by simp [hpass])
          simp only [passOf, hpass, hstored, Option.isNone_some, Bool.false_eq_true, if_false]
          have hnext : queue.withStoredDates.Busy := fun _ => hbusy
          rw [← ih (step_busy h occurrence), ← step_stored_dates hbusy occurrence,
            ih (step_busy hnext occurrence)]

theorem answers_idle (hpass : queue.pass = none) (outcomes : List (SyncOutcome × Moment)) :
    run step queue (outcomes.flatMap answer) = queue := by
  induction outcomes with
  | nil => rfl
  | cons outcome outcomes ih =>
      have hanswer : run step queue (answer outcome) = queue := by
        simp only [answer, run_cons, run_nil, step, settleAttempt, resumePass, hpass]
      rw [List.flatMap_cons, run_append, hanswer, ih]

theorem resume_advance (honline : queue.isOnline = true) (index : Nat) (ids : List String)
    (moment moment' : Moment) :
    (queue.advance index ids moment).resumePass moment' = queue.advance index ids moment := by
  simp only [advance]
  split
  · simp only [start_attempt_eq, honline, if_true]
    rfl
  · rfl

/-- An answered attempt lets the loop go on. -/
theorem answer_online {pass : Pass} (hpass : queue.pass = some pass)
    (hwaiting : pass.waiting = false) (honline : queue.isOnline = true)
    (outcome : SyncOutcome × Moment) :
    ∃ (written : OfflineQueue) (ids : List String), written.isOnline = true ∧
      written.syncQueue.length = queue.syncQueue.length ∧
      run step queue (answer outcome) = written.advance pass.nextIndex ids outcome.2 := by
  obtain ⟨outcome, moment⟩ := outcome
  have hlength : ∀ pass : Pass, (queue.writeBack pass).syncQueue.length =
      queue.syncQueue.length := by
    intro pass
    simp only [writeBack]
    split
    · exact List.length_set
    · rfl
  simp only [answer, run_cons, run_nil, step, settle_eq hpass hwaiting]
  cases outcome with
  | success =>
      let written := { queue.writeBack (completedPass pass) with
        pushed := queue.pushed ++ [(completedPass pass).operation] }
      have hwritten : written.isOnline = true := honline
      exact ⟨written, _, hwritten, hlength _, resume_advance hwritten _ _ moment moment⟩
  | conflict =>
      let written := queue.writeBack (queue.failedPass pass)
      have hwritten : written.isOnline = true := honline
      exact ⟨written, _, hwritten, hlength _, resume_advance hwritten _ _ moment moment⟩
  | error =>
      refine ⟨queue.retryLater, pass.processedIds, ?_, ?_, ?_⟩
      · simp only [retryLater, hpass]
        exact honline
      · simp only [retryLater, hpass]
        exact hlength _
      · simp only [retryLater, hpass]
        rfl

/-- A pass that stays online ends once every operation ahead of it is answered. -/
theorem advance_terminates (honline : queue.isOnline = true) (index : Nat) (ids : List String)
    (moment : Moment) (outcomes : List (SyncOutcome × Moment))
    (h : queue.syncQueue.length - index ≤ outcomes.length) :
    (run step (queue.advance index ids moment) (outcomes.flatMap answer)).processingQueue =
      false := by
  induction outcomes generalizing queue index ids moment with
  | nil =>
      have hnone : queue.syncQueue.drop index = [] :=
        List.drop_eq_nil_of_le (Nat.le_of_sub_eq_zero (Nat.le_zero.mp h))
      simp only [advance, hnone, nextAttempt]
      rfl
  | cons outcome outcomes ih =>
      rcases advance_cases queue index ids moment with
        ⟨ids', heq⟩ | ⟨skipped, operation, ids', heq, hget, -, -⟩ <;> rw [heq]
      · rw [answers_idle rfl]
        rfl
      · have hlt := (List.getElem?_eq_some_iff.mp hget).1
        simp only [start_attempt_eq, honline, if_true, List.flatMap_cons, run_append]
        have hcalled : (queue.called (index + skipped) operation ids').isOnline = true :=
          honline
        obtain ⟨written, ids'', hwritten, hlength, hrun⟩ :=
          answer_online rfl rfl hcalled outcome
        rw [hrun]
        apply ih hwritten _ _ _
        rw [hlength]
        simp only [called, writeBack, List.length_set]
        rw [List.length_cons] at h
        omega

/-- Every operation of the queue, and of what is stored of it, has the priority that
queueing gives. -/
structure OnePriority (queue : OfflineQueue) : Prop where
  queued : ∀ operation ∈ queue.syncQueue, operation.priority = 1
  held : ∀ pass, queue.pass = some pass → pass.operation.priority = 1
  stored : ∀ stored, queue.storage = some stored →
    ∀ operation ∈ stored, operation.priority = 1

theorem OnePriority.save (h : OnePriority queue) : OnePriority queue.saveQueueToStorage where
  queued := h.queued
  held := h.held
  stored := by
    rintro stored ⟨⟩ operation hoperation
    obtain ⟨queued, hqueued, rfl⟩ := List.mem_map.mp hoperation
    rw [stored_operation_eq]
    exact h.queued queued hqueued

theorem OnePriority.queue_change (h : OnePriority queue) (change : Change) (now : Int) :
    OnePriority (queue.queueOfflineChange change now) := by
  have happend : ∀ {operations : List SyncOperation},
      (∀ other ∈ operations, other.priority = 1) →
      ∀ other ∈ operations ++ [queue.newOperation change now], other.priority = 1 := by
    intro operations hoperations other hother
    rcases List.mem_append.mp hother with hother | hother
    · exact hoperations other hother
    · rw [List.mem_singleton.mp hother]
      rfl
  rcases queue_change_cases queue change now with heq | ⟨-, heq⟩ | ⟨-, heq⟩ <;> rw [heq]
  · exact h
  · exact OnePriority.save ⟨happend h.queued, h.held, h.stored⟩
  · refine OnePriority.save ⟨happend fun other hother => ?_, ?_, h.stored⟩
    · exact h.queued other (List.mem_of_mem_tail hother)
    · intro pass hpass
      obtain ⟨before, hbefore, rfl⟩ := Option.map_eq_some_iff.mp hpass
      exact h.held before hbefore

theorem OnePriority.write_back (h : OnePriority queue) (pass : Pass)
    (hpass : pass.operation.priority = 1) : OnePriority (queue.writeBack pass) where
  queued := by
    simp only [writeBack]
    split
    · intro operation hoperation
      rcases List.mem_or_eq_of_mem_set hoperation with hoperation | rfl
      · exact h.queued operation hoperation
      · exact hpass
    · exact h.queued
  held := by
    rintro after ⟨⟩
    exact hpass
  stored := h.stored

theorem OnePriority.retry_later (h : OnePriority queue) : OnePriority queue.retryLater := by
  cases hpass : queue.pass with
  | none =>
      simp only [retryLater, hpass]
      exact h
  | some pass =>
      simp only [retryLater, hpass]
      exact h.write_back _ (h.held pass hpass)

theorem OnePriority.finish (h : OnePriority queue) (ids : List String) :
    OnePriority (queue.finishPass ids) := by
  let remaining := queue.syncQueue.filter fun operation => !ids.contains operation.id
  have hremaining : OnePriority { queue with syncQueue := remaining, pass := none } := {
    queued := fun operation hoperation => h.queued operation (List.mem_of_mem_filter hoperation)
    held := by simp
    stored := h.stored }
  exact ⟨hremaining.save.queued, hremaining.save.held, hremaining.save.stored⟩

theorem OnePriority.advance {queue : OfflineQueue} (h : OnePriority queue) (index : Nat)
    (ids : List String) (moment : Moment) : OnePriority (queue.advance index ids moment) := by
  simp only [OfflineQueue.advance]
  split
  · next next operation ids' hnext =>
      obtain ⟨skipped, -, hget, -, -⟩ := next_attempt_some hnext
      have hpriority := h.queued operation (List.mem_of_mem_drop (List.mem_of_getElem? hget))
      have hcalled : OnePriority (queue.called next operation ids') := by
        have hwritten := h.write_back
          ⟨{ operation with status := .processing }, some next, next + 1, false, ids'⟩ hpriority
        exact ⟨hwritten.queued, hwritten.held, hwritten.stored⟩
      rw [start_attempt_eq]
      split
      · exact hcalled
      · exact (hcalled.queue_change _ _).retry_later
  · exact h.finish _

theorem OnePriority.process (h : OnePriority queue) (moment : Moment) :
    OnePriority (queue.processOfflineQueue moment) := by
  simp only [processOfflineQueue]
  split
  · exact h
  · split
    · exact ⟨h.queued, h.held, h.stored⟩
    · next sorted hsort =>
        have hsorted : OnePriority
            { queue with processingQueue := true, syncQueue := sorted } := {
          queued := fun operation hoperation =>
            h.queued operation ((sort_perm hsort).mem_iff.mp hoperation)
          held := h.held
          stored := h.stored }
        exact hsorted.advance 0 [] moment

theorem OnePriority.settle (h : OnePriority queue) (outcome : SyncOutcome) (moment : Moment) :
    OnePriority (queue.settleAttempt outcome moment) := by
  cases hpass : queue.pass with
  | none =>
      simp only [settleAttempt, hpass]
      exact h
  | some pass =>
      cases hwaiting : pass.waiting with
      | true =>
          simp only [settleAttempt, hpass, hwaiting, if_true]
          exact h
      | false =>
          rw [settle_eq hpass hwaiting]
          have hheld := h.held pass hpass
          cases outcome with
          | success =>
              have hwritten := h.write_back (completedPass pass) hheld
              refine OnePriority.advance ?_ _ _ moment
              exact ⟨hwritten.queued, hwritten.held, hwritten.stored⟩
          | conflict => exact (h.write_back (queue.failedPass pass) hheld).advance _ _ moment
          | error => exact h.retry_later

theorem step_one_priority (queue : OfflineQueue) (occurrence : Option QueueOccurrence)
    (h : OnePriority queue) : OnePriority (queue.stepOrRestart occurrence) := by
  cases occurrence with
  | none =>
      simp only [stepOrRestart, restart, loadQueueFromStorage]
      split
      · next stored hstored => exact ⟨h.stored stored hstored, by simp, h.stored⟩
      · exact ⟨by simp, by simp, h.stored⟩
  | some occurrence =>
      obtain ⟨event, moment⟩ := occurrence
      cases event with
      | queueOfflineChange change => exact h.queue_change change moment.now
      | processOfflineQueue => exact h.process moment
      | attemptSettles outcome => exact h.settle outcome moment
      | retryDelayOver =>
          simp only [stepOrRestart, step, resumePass]
          split
          · split
            · exact h.advance _ _ moment
            · exact h
          · exact h
      | online =>
          have honline : OnePriority { queue with isOnline := true } :=
            ⟨h.queued, h.held, h.stored⟩
          exact honline.process moment
      | offline => exact ⟨h.queued, h.held, h.stored⟩

theorem insert_stored_throws (operation next : SyncOperation) (rest sorted : List SyncOperation)
    (h : operation.priority = next.priority) :
    insertOperation (storedOperation operation) (storedOperation next :: rest) ≠ .ok sorted := by
  simp [stored_operation_eq, insertOperation, compareOperations, h, QueuedAt.getTime, bind,
    Except.bind, throw, throwThe, MonadExceptOf.throw]

theorem sort_stored_throws {operations : List SyncOperation}
    (hpriority : ∀ operation ∈ operations, operation.priority = 1)
    (hlength : 2 ≤ operations.length) (sorted : List SyncOperation) :
    sortQueue (operations.map storedOperation) ≠ .ok sorted := by
  intro hsort
  cases operations with
  | nil => simp at hlength
  | cons operation rest =>
      obtain ⟨inner, hinner, hinsert⟩ := sort_cons_ok hsort
      have hperm := sort_perm hinner
      cases inner with
      | nil =>
          have hlen := hperm.length_eq
          simp only [List.length_nil, List.length_map, List.length_cons] at hlen hlength
          omega
      | cons next inner =>
          obtain ⟨stored, hstored, rfl⟩ := List.mem_map.mp (hperm.mem_iff.mp List.mem_cons_self)
          have hsame := (hpriority operation List.mem_cons_self).trans
            (hpriority stored (List.mem_cons_of_mem _ hstored)).symm
          exact insert_stored_throws operation stored inner sorted hsame hinsert

theorem sort_short {operations : List SyncOperation} (h : operations.length ≤ 1) :
    sortQueue operations = .ok operations := by
  match operations with
  | [] => rfl
  | [operation] => rfl
  | _ :: _ :: _ =>
      simp only [List.length_cons] at h
      omega

theorem process_stored_dates (h : queue.syncQueue.length ≤ 1) (moment : Moment) :
    (queue.withStoredDates.processOfflineQueue moment).withStoredDates =
      (queue.processOfflineQueue moment).withStoredDates := by
  have hempty : queue.withStoredDates.syncQueue.isEmpty = queue.syncQueue.isEmpty := by
    simp [withStoredDates]
  have hsort := sort_short h
  have hstored : sortQueue queue.withStoredDates.syncQueue =
      .ok queue.withStoredDates.syncQueue := by
    apply sort_short
    simpa [withStoredDates] using h
  simp only [processOfflineQueue, hempty, hsort, hstored]
  have hready : (!queue.withStoredDates.isOnline || queue.withStoredDates.processingQueue) =
      (!queue.isOnline || queue.processingQueue) := rfl
  rw [hready]
  split
  · exact with_stored_dates_idem queue
  · exact advance_stored_dates { queue with processingQueue := true } 0 [] moment

theorem push_attempts_stored_dates (queue : OfflineQueue) :
    queue.withStoredDates.pushAttempts = queue.pushAttempts := by
  simp [pushAttempts, withStoredDates, Function.comp_def, stored_operation_eq]

theorem process_busy (h : queue.Busy) (moment : Moment) : (queue.processOfflineQueue moment).Busy :=
  step_busy h ⟨.processOfflineQueue, moment⟩

theorem process_terminates {sorted : List SyncOperation} (hpass : queue.pass = none)
    (hidle : queue.processingQueue = false) (hsort : sortQueue queue.syncQueue = .ok sorted)
    (moment : Moment) (outcomes : List (SyncOutcome × Moment))
    (h : queue.syncQueue.length ≤ outcomes.length) :
    (run step (queue.processOfflineQueue moment) (outcomes.flatMap answer)).processingQueue =
      false := by
  simp only [processOfflineQueue, hsort]
  split
  · rw [answers_idle hpass]
    exact hidle
  · next hready =>
      simp only [Bool.or_eq_true, Bool.not_eq_true', not_or, Bool.not_eq_false] at hready
      have honline :
          { queue with processingQueue := true, syncQueue := sorted }.isOnline = true :=
        hready.1.1
      apply advance_terminates honline 0 [] moment outcomes
      rw [Nat.sub_zero]
      exact (sort_perm hsort).length_eq.trans_le h

theorem short_round_trips (h : queue.syncQueue.length ≤ 1) : queue.RoundTrips := by
  intro isOnline moment
  have hreopened : (queue.reopened isOnline).syncQueue =
      queue.syncQueue.map storedOperation := rfl
  have hidle : (queue.reopened isOnline).pass = none := rfl
  have hshort : (queue.reopened isOnline).syncQueue.length ≤ 1 := by
    rw [hreopened, List.length_map]
    exact h
  constructor
  · intro occurrences
    have hsame : (queue.reopened isOnline).withStoredDates =
        (queue.undisturbed isOnline).withStoredDates := by
      simp [undisturbed, withStoredDates, hreopened]
    have hbefore : (queue.undisturbed isOnline).syncQueue.length ≤ 1 := h
    have hstart : ((queue.reopened isOnline).processOfflineQueue moment).withStoredDates =
        ((queue.undisturbed isOnline).processOfflineQueue moment).withStoredDates := by
      rw [← process_stored_dates hshort, hsame, process_stored_dates hbefore]
    have hbusy : (queue.reopened isOnline).Busy := by
      simp [Busy, hidle]
    have hbusy' : (queue.undisturbed isOnline).Busy := by
      simp [Busy, undisturbed, hidle]
    rw [← push_attempts_stored_dates, ← pass_of_stored_dates (process_busy hbusy moment), hstart,
      pass_of_stored_dates (process_busy hbusy' moment), push_attempts_stored_dates]
  · intro outcomes houtcomes
    apply process_terminates hidle rfl (sort_short hshort) moment outcomes
    rw [hreopened, List.length_map]
    exact houtcomes

theorem long_stays_busy (hpriority : queue.OnePriority) (h : 2 ≤ queue.syncQueue.length) :
    ¬ queue.RoundTrips := by
  intro hround
  let moment : Moment := ⟨0, "", none⟩
  let outcomes := List.replicate queue.syncQueue.length (SyncOutcome.success, moment)
  have hends := (hround true moment).2 outcomes (by simp [outcomes])
  have hreopened : (queue.reopened true).syncQueue = queue.syncQueue.map storedOperation := rfl
  have hnonempty : (queue.reopened true).syncQueue.isEmpty = false := by
    rw [hreopened]
    cases hqueue : queue.syncQueue with
    | nil => simp [hqueue] at h
    | cons operation rest => rfl
  have hidle : (queue.reopened true).processingQueue = false := rfl
  have honline : (queue.reopened true).isOnline = true := rfl
  have hthrows : (queue.reopened true).processOfflineQueue moment =
      { queue.reopened true with processingQueue := true } := by
    simp only [processOfflineQueue, hnonempty, hidle, honline, Bool.not_true, Bool.or_self,
      Bool.false_eq_true, if_false]
    cases hsort : sortQueue (queue.reopened true).syncQueue with
    | error error => rfl
    | ok sorted => exact absurd hsort (sort_stored_throws hpriority.queued h sorted)
  rw [hthrows, answers_idle rfl] at hends
  cases hends

/-- A restart keeps the attempts of the next pass exactly when it has at most one
operation to sort. -/
theorem round_trips_iff (config : QueueConfig) (isOnline : Bool)
    (occurrences : List (Option QueueOccurrence)) :
    (run stepOrRestart { config := config, isOnline := isOnline } occurrences).RoundTrips ↔
      (run stepOrRestart { config := config, isOnline := isOnline }
        occurrences).syncQueue.length ≤ 1 := by
  have hpriority := invariant_of_step stepOrRestart OnePriority step_one_priority
    { config := config, isOnline := isOnline } occurrences ⟨by simp, by simp, by simp⟩
  constructor
  · intro hround
    by_contra hlong
    exact long_stays_busy hpriority (by omega) hround
  · exact short_round_trips

/-- Two changes queued offline: after a restart the pass throws and no other pass starts. -/
theorem restart_blocks_queue :
    ¬ (run stepOrRestart { config := {}, isOnline := false }
      [some (queuedAt 1 "w1" "first"), some (queuedAt 2 "w2" "second")]).RoundTrips := by
  intro hround
  have hends := (hround true ⟨0, "", none⟩).2
    [(.success, ⟨0, "", none⟩), (.success, ⟨0, "", none⟩)] (by decide)
  exact absurd hends (by decide)

end Qontinui.OfflineQueue
