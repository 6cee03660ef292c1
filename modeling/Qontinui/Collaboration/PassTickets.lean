import Qontinui.Collaboration.PassBounds

/-!
A pass attempts no operation twice. The loop only goes forward, new operations come behind
it under tickets of their own, and what a full queue drops moves the operations towards the
front of the array, away from what is ahead of the loop.
-/

namespace Qontinui.OfflineQueue

open Runs

def attemptedSince (queue : OfflineQueue) (before : Nat) : List Nat :=
  (queue.attempts.drop before).map SyncOperation.ticket

/-- The tickets of a list of operations are different, and those of earlier calls. -/
def Numbered (tickets : Nat) (operations : List SyncOperation) : Prop :=
  (operations.map SyncOperation.ticket).Nodup ∧
    ∀ ticket ∈ operations.map SyncOperation.ticket, ticket < tickets

def Holds (queue : OfflineQueue) (pass : Pass) : Prop :=
  ∀ position, pass.position = some position →
    (queue.syncQueue.map SyncOperation.ticket)[position]? = some pass.operation.ticket

/-- The tickets number the operations of the queue and those it has stored. -/
structure Ticketed (queue : OfflineQueue) : Prop where
  queued : Numbered queue.tickets queue.syncQueue
  stored : ∀ stored, queue.storage = some stored → Numbered queue.tickets stored
  held : ∀ pass, queue.pass = some pass → queue.Holds pass

/-- Since a first number of attempts no operation has been attempted twice, and none that is
at or behind an index of the array. -/
structure Untried (before : Nat) (queue : OfflineQueue) (index : Nat) : Prop where
  logged : before ≤ queue.attempts.length
  nodup : (queue.attemptedSince before).Nodup
  known : ∀ ticket ∈ queue.attemptedSince before, ticket < queue.tickets
  ahead : ∀ ticket ∈ (queue.syncQueue.map SyncOperation.ticket).drop index,
    ticket ∉ queue.attemptedSince before

section Tickets

variable {queue : OfflineQueue} {before index : Nat}

theorem Numbered.sublist {tickets : Nat} {operations rest : List SyncOperation}
    (h : Numbered tickets operations) (hrest : rest.Sublist operations) :
    Numbered tickets rest :=
  ⟨h.1.sublist (hrest.map _), fun ticket hticket => h.2 ticket ((hrest.map _).subset hticket)⟩

theorem Numbered.append {tickets : Nat} {operations : List SyncOperation}
    (h : Numbered tickets operations) {operation : SyncOperation}
    (hticket : operation.ticket = tickets) :
    Numbered (tickets + 1) (operations ++ [operation]) := by
  simp only [Numbered, List.map_append, List.map_singleton, hticket]
  refine ⟨List.Nodup.append h.1 (List.nodup_singleton _) ?_, fun ticket hmem => ?_⟩
  · intro ticket hmem hlast
    rw [List.mem_singleton.mp hlast] at hmem
    exact Nat.lt_irrefl _ (h.2 _ hmem)
  · rcases List.mem_append.mp hmem with hmem | hmem
    · exact Nat.lt_succ_of_lt (h.2 ticket hmem)
    · rw [List.mem_singleton.mp hmem]
      exact Nat.lt_succ_self _

theorem Numbered.stored {tickets : Nat} {operations : List SyncOperation}
    (h : Numbered tickets operations) : Numbered tickets (operations.map storedOperation) := by
  have heq : (operations.map storedOperation).map SyncOperation.ticket =
      operations.map SyncOperation.ticket := by
    simp [Function.comp_def, stored_operation_eq]
  rwa [Numbered, heq]

theorem tickets_write_back {pass : Pass} (h : queue.Holds pass) :
    (queue.writeBack pass).syncQueue.map SyncOperation.ticket =
      queue.syncQueue.map SyncOperation.ticket := by
  simp only [writeBack]
  split
  · next position hposition =>
      have hget := h position hposition
      obtain ⟨hlt, hticket⟩ := List.getElem?_eq_some_iff.mp hget
      rw [List.map_set, ← hticket, List.set_getElem_self]
  · rfl

theorem numbered_iff_of_tickets {tickets : Nat} {operations others : List SyncOperation}
    (h : operations.map SyncOperation.ticket = others.map SyncOperation.ticket) :
    Numbered tickets operations ↔ Numbered tickets others := by
  rw [Numbered, h, Numbered]

theorem holds_write_back {pass : Pass} (h : queue.Holds pass) :
    (queue.writeBack pass).Holds pass := by
  intro position hposition
  rw [tickets_write_back h]
  exact h position hposition

theorem Ticketed.write_back (h : Ticketed queue) {pass : Pass} (hheld : queue.Holds pass) :
    Ticketed (queue.writeBack pass) where
  queued := (numbered_iff_of_tickets (tickets_write_back hheld)).mpr h.queued
  stored := h.stored
  held := by
    rintro after ⟨⟩
    exact holds_write_back hheld

theorem Untried.write_back (h : Untried before queue index) {pass : Pass}
    (hheld : queue.Holds pass) : Untried before (queue.writeBack pass) index where
  logged := h.logged
  nodup := h.nodup
  known := h.known
  ahead := by
    rw [tickets_write_back hheld]
    exact h.ahead

theorem Ticketed.retry_later (h : Ticketed queue) : Ticketed queue.retryLater := by
  cases hpass : queue.pass with
  | none => simpa only [retryLater, hpass] using h
  | some pass =>
      simp only [retryLater, hpass]
      exact h.write_back (h.held pass hpass)

theorem Untried.retry_later (h : Untried before queue index) (hticketed : Ticketed queue) :
    Untried before queue.retryLater index := by
  cases hpass : queue.pass with
  | none => simpa only [retryLater, hpass] using h
  | some pass =>
      simp only [retryLater, hpass]
      exact h.write_back (hticketed.held pass hpass)

theorem Ticketed.shift (h : Ticketed queue) : Ticketed queue.shift where
  queued := h.queued.sublist (List.tail_sublist _)
  stored := h.stored
  held := by
    rintro after hafter
    obtain ⟨pass, hpass, rfl⟩ := Option.map_eq_some_iff.mp hafter
    intro position hposition
    obtain ⟨old, hold, hmoved⟩ := Option.bind_eq_some_iff.mp hposition
    split at hmoved
    · cases hmoved
    · next hne =>
        have hget := h.held pass hpass old hold
        obtain rfl : old = position + 1 := by
          cases hmoved
          omega
        simpa only [OfflineQueue.shift, List.map_tail, List.getElem?_tail] using hget

theorem Untried.shift (h : Untried before queue index) : Untried before queue.shift index where
  logged := h.logged
  nodup := h.nodup
  known := h.known
  ahead ticket hticket := by
    refine h.ahead ticket ?_
    rw [OfflineQueue.shift, List.map_tail, List.drop_tail] at hticket
    exact (List.drop_sublist_drop_left _ (Nat.le_succ index)).subset hticket

theorem Ticketed.append (h : Ticketed queue) {operation : SyncOperation}
    (hticket : operation.ticket = queue.tickets) :
    Ticketed (queue.appended operation) where
  queued := h.queued.append hticket
  stored := by
    rintro stored ⟨⟩
    exact (h.queued.append hticket).stored
  held := by
    intro pass hpass position hposition
    have hget := h.held pass hpass position hposition
    simp only [appended, saveQueueToStorage, List.map_append]
    rw [List.getElem?_append_left (List.getElem?_eq_some_iff.mp hget).1]
    exact hget

theorem Untried.append (h : Untried before queue index) {operation : SyncOperation}
    (hticket : operation.ticket = queue.tickets) :
    Untried before (queue.appended operation) index where
  logged := h.logged
  nodup := h.nodup
  known ticket hmem := Nat.lt_succ_of_lt (h.known ticket hmem)
  ahead ticket hmem := by
    simp only [appended, saveQueueToStorage, List.map_append, List.drop_append] at hmem
    rcases List.mem_append.mp hmem with hmem | hmem
    · exact h.ahead ticket hmem
    · have hlast := List.mem_singleton.mp (List.mem_of_mem_drop hmem)
      intro htried
      have hlt := h.known ticket htried
      omega

theorem Ticketed.queue_change (h : Ticketed queue) (change : Change) (now : Int) :
    Ticketed (queue.queueOfflineChange change now) := by
  rcases queue_change_cases queue change now with heq | ⟨-, heq⟩ | ⟨-, heq⟩ <;> rw [heq]
  · exact h
  · exact h.append rfl
  · exact h.shift.append rfl

theorem Untried.queue_change (h : Untried before queue index) (change : Change) (now : Int) :
    Untried before (queue.queueOfflineChange change now) index := by
  rcases queue_change_cases queue change now with heq | ⟨-, heq⟩ | ⟨-, heq⟩ <;> rw [heq]
  · exact h
  · exact h.append rfl
  · exact h.shift.append rfl

theorem Ticketed.finish (h : Ticketed queue) (ids : List String) :
    Ticketed (queue.finishPass ids) := by
  have hrest := h.queued.sublist
    (List.filter_sublist (p := fun operation => !ids.contains operation.id))
  exact ⟨hrest, by rintro stored ⟨⟩; exact hrest.stored, by rintro pass ⟨⟩⟩

theorem Ticketed.called (h : Ticketed queue) {operation : SyncOperation}
    (hget : queue.syncQueue[index]? = some operation) (ids : List String) :
    Ticketed (queue.called index operation ids) := by
  have hheld : queue.Holds
      ⟨{ operation with status := .processing }, some index, index + 1, false, ids⟩ := by
    rintro position ⟨⟩
    rw [List.getElem?_map, hget, Option.map_some]
  have hwritten := h.write_back hheld
  exact ⟨hwritten.queued, hwritten.stored, hwritten.held⟩

/-- The operation that is attempted was ahead, and no other one is it. -/
theorem Untried.called (h : Untried before queue index) (hticketed : Ticketed queue)
    {next : Nat} (hle : index ≤ next) {operation : SyncOperation}
    (hget : queue.syncQueue[next]? = some operation) (ids : List String) :
    Untried before (queue.called next operation ids) (next + 1) := by
  have htickets : ((queue.called next operation ids).syncQueue.map SyncOperation.ticket) =
      queue.syncQueue.map SyncOperation.ticket := by
    have hheld : queue.Holds
        ⟨{ operation with status := .processing }, some next, next + 1, false, ids⟩ := by
      rintro position ⟨⟩
      rw [List.getElem?_map, hget, Option.map_some]
    exact tickets_write_back hheld
  have hsince : (queue.called next operation ids).attemptedSince before =
      queue.attemptedSince before ++ [operation.ticket] := by
    have hattempts : (queue.called next operation ids).attempts =
        queue.attempts ++ [{ operation with status := .processing }] := rfl
    rw [attemptedSince, hattempts, List.drop_append_of_le_length h.logged, List.map_append]
    rfl
  have hnext : (queue.syncQueue.map SyncOperation.ticket)[next]? = some operation.ticket := by
    rw [List.getElem?_map, hget, Option.map_some]
  have hnew : operation.ticket ∉ queue.attemptedSince before := by
    refine h.ahead _ (List.mem_of_getElem? (i := next - index) ?_)
    rwa [List.getElem?_drop, Nat.add_sub_cancel' hle]
  refine ⟨?_, ?_, ?_, ?_⟩
  · have hlogged := h.logged
    simp only [OfflineQueue.called, writeBack, List.length_append]
    omega
  · rw [hsince]
    refine List.Nodup.append h.nodup (List.nodup_singleton _) ?_
    intro ticket hmem hlast
    rw [List.mem_singleton.mp hlast] at hmem
    exact hnew hmem
  · intro ticket hmem
    rw [hsince] at hmem
    rcases List.mem_append.mp hmem with hmem | hmem
    · exact h.known ticket hmem
    · rw [List.mem_singleton.mp hmem]
      exact hticketed.queued.2 _ (List.mem_of_getElem? hnext)
  · intro ticket hmem
    rw [htickets] at hmem
    rw [hsince, List.mem_append, List.mem_singleton]
    rintro (htried | rfl)
    · exact h.ahead ticket ((List.drop_sublist_drop_left _ (by omega)).subset hmem) htried
    · obtain ⟨i, hi⟩ := List.mem_iff_getElem?.mp hmem
      rw [List.getElem?_drop] at hi
      have hsame := (List.getElem?_inj (List.getElem?_eq_some_iff.mp hnext).1
        hticketed.queued.1).mp (hnext.trans hi.symm)
      omega

/-- A pass that has attempted no operation twice. -/
structure Once (before : Nat) (queue : OfflineQueue) : Prop where
  ticketed : Ticketed queue
  untried : ∃ index, Untried before queue index ∧
    ∀ pass, queue.pass = some pass → pass.nextIndex = index

theorem next_index_of_place {next : Nat} {waiting : Bool}
    (h : queue.place = some (next, waiting)) (pass : Pass) (hpass : queue.pass = some pass) :
    pass.nextIndex = next := by
  rw [place_of_pass hpass] at h
  cases h
  rfl

theorem advance_once (h : Untried before queue index) (hticketed : Ticketed queue)
    (ids : List String) (moment : Moment) : Once before (queue.advance index ids moment) := by
  rcases advance_cases queue index ids moment with
    ⟨ids', heq⟩ | ⟨skipped, operation, ids', heq, hget, -, -⟩ <;> rw [heq]
  · refine ⟨hticketed.finish ids', (queue.finishPass ids').syncQueue.length,
      ⟨h.logged, h.nodup, h.known, ?_⟩, by rintro pass ⟨⟩⟩
    rw [List.drop_eq_nil_of_le (by simp)]
    exact fun _ hmem => absurd hmem List.not_mem_nil
  · have hcalled := hticketed.called hget ids'
    have huntried := h.called hticketed (Nat.le_add_right _ _) hget ids'
    refine ⟨?_, index + skipped + 1, ?_, next_index_of_place
      (place_start_attempt queue (index + skipped) operation ids' moment)⟩
    · rw [start_attempt_eq]
      split
      · exact hcalled
      · exact (hcalled.queue_change _ _).retry_later
    · rw [start_attempt_eq]
      split
      · exact huntried
      · exact (huntried.queue_change _ _).retry_later (hcalled.queue_change _ _)

variable {pass : Pass}

theorem settle_once (h : Once before queue) (outcome : SyncOutcome) (moment : Moment) :
    Once before (queue.settleAttempt outcome moment) := by
  refine settle_keeps h fun pass hpass hwaiting => ?_
  obtain ⟨hticketed, index, huntried, hindex⟩ := h
  obtain rfl := hindex pass hpass
  have hheld := hticketed.held pass hpass
  rw [settle_eq hpass hwaiting]
  cases outcome with
  | success =>
      have hwritten : queue.Holds (completedPass pass) := hheld
      have hafter := hticketed.write_back hwritten
      have hrest := huntried.write_back hwritten
      refine advance_once ?_ ?_ _ moment
      · exact ⟨hrest.logged, hrest.nodup, hrest.known, hrest.ahead⟩
      · exact ⟨hafter.queued, hafter.stored, hafter.held⟩
  | conflict =>
      have hwritten : queue.Holds (queue.failedPass pass) := hheld
      exact advance_once (huntried.write_back hwritten) (hticketed.write_back hwritten) _
        moment
  | error =>
      refine ⟨hticketed.retry_later, pass.nextIndex, huntried.retry_later hticketed, ?_⟩
      exact next_index_of_place (by rw [place_retry_later, place_of_pass hpass]; rfl)

theorem resume_once (h : Once before queue) (moment : Moment) :
    Once before (queue.resumePass moment) := by
  simp only [resumePass]
  split
  · next pass hpass =>
      split
      · obtain ⟨hticketed, index, huntried, hindex⟩ := h
        obtain rfl := hindex pass hpass
        exact advance_once huntried hticketed _ moment
      · exact h
  · exact h

theorem queue_change_once (h : Once before queue) (change : Change) (now : Int) :
    Once before (queue.queueOfflineChange change now) := by
  obtain ⟨hticketed, index, huntried, hindex⟩ := h
  refine ⟨hticketed.queue_change _ _, index, huntried.queue_change _ _, fun pass hpass => ?_⟩
  have hplace := place_queue_change queue change now
  rw [place_of_pass hpass] at hplace
  obtain ⟨old, hold, heq⟩ := Option.map_eq_some_iff.mp hplace.symm
  rw [← hindex old hold]
  exact (congrArg Prod.fst heq).symm

theorem untried_start (queue : OfflineQueue) (index : Nat) :
    Untried queue.attempts.length queue index := by
  have hsince : queue.attemptedSince queue.attempts.length = [] := by simp [attemptedSince]
  refine ⟨Nat.le_refl _, ?_, ?_, ?_⟩ <;> simp [hsince]

theorem once_start (h : Ticketed queue) : Once queue.attempts.length queue := by
  cases hpass : queue.pass with
  | none => exact ⟨h, 0, untried_start queue 0, by simp [hpass]⟩
  | some pass => exact ⟨h, pass.nextIndex, untried_start queue _, by simp [hpass]⟩

theorem process_once (h : Ticketed queue) (hbusy : queue.Busy) (moment : Moment) :
    Once queue.attempts.length (queue.processOfflineQueue moment) := by
  simp only [processOfflineQueue]
  split
  · exact once_start h
  · next hready =>
      have hpass : queue.pass = none := by
        by_contra hsome
        exact hready (by simp [hbusy (Option.isSome_iff_ne_none.mpr hsome)])
      split
      · have hstuck : Ticketed { queue with processingQueue := true } :=
          ⟨h.queued, h.stored, h.held⟩
        exact once_start hstuck
      · next sorted hsort =>
          have hperm := (sort_perm hsort).map SyncOperation.ticket
          have hsorted : Ticketed { queue with processingQueue := true, syncQueue := sorted } :=
            ⟨⟨hperm.nodup_iff.mpr h.queued.1,
              fun ticket hmem => h.queued.2 ticket (hperm.mem_iff.mp hmem)⟩, h.stored,
              by simp [hpass]⟩
          exact advance_once
            (untried_start { queue with processingQueue := true, syncQueue := sorted } 0)
            hsorted [] moment

/-- During a pass a step attempts no operation twice. -/
theorem pass_step_once (queue : OfflineQueue) (occurrence : QueueOccurrence)
    (h : Once before queue ∧ queue.Busy) :
    Once before (queue.passStep occurrence) ∧ (queue.passStep occurrence).Busy := by
  obtain ⟨event, moment⟩ := occurrence
  obtain ⟨honce, hbusy⟩ := h
  cases hpass : queue.pass with
  | none =>
      simp only [passStep, hpass, Option.isNone_none, if_true]
      exact ⟨honce, hbusy⟩
  | some pass =>
      have hprocessing := hbusy (by simp [hpass])
      have hstep : queue.passStep ⟨event, moment⟩ = queue.step ⟨event, moment⟩ := by
        simp [passStep, hpass]
      refine ⟨?_, hstep ▸ step_busy hbusy _⟩
      rw [hstep]
      have hconnected : ∀ isOnline, Once before { queue with isOnline := isOnline } := fun _ =>
        ⟨⟨honce.ticketed.queued, honce.ticketed.stored, honce.ticketed.held⟩,
          honce.untried.imp fun _ huntried =>
            ⟨⟨huntried.1.logged, huntried.1.nodup, huntried.1.known, huntried.1.ahead⟩,
              huntried.2⟩⟩
      cases event with
      | queueOfflineChange change => exact queue_change_once honce change moment.now
      | processOfflineQueue =>
          have hsame : queue.step ⟨.processOfflineQueue, moment⟩ = queue :=
            process_busy_eq queue hprocessing moment
          rwa [hsame]
      | attemptSettles outcome => exact settle_once honce outcome moment
      | retryDelayOver => exact resume_once honce moment
      | online =>
          have honline : queue.step ⟨.online, moment⟩ = { queue with isOnline := true } :=
            process_busy_eq { queue with isOnline := true } hprocessing moment
          rw [honline]
          exact hconnected true
      | offline => exact hconnected false

theorem step_ticketed (queue : OfflineQueue) (occurrence : Option QueueOccurrence)
    (h : Ticketed queue ∧ queue.Busy) :
    Ticketed (queue.stepOrRestart occurrence) ∧ (queue.stepOrRestart occurrence).Busy := by
  obtain ⟨hticketed, hbusy⟩ := h
  cases occurrence with
  | none =>
      have hempty : Numbered queue.tickets [] := ⟨List.nodup_nil, by simp⟩
      simp only [stepOrRestart, restart, loadQueueFromStorage]
      split
      · next stored hstored =>
          exact ⟨⟨hticketed.stored stored hstored, hticketed.stored, by simp⟩, by simp [Busy]⟩
      · exact ⟨⟨hempty, hticketed.stored, by simp⟩, by simp [Busy]⟩
  | some occurrence =>
      refine ⟨?_, step_busy hbusy occurrence⟩
      obtain ⟨event, moment⟩ := occurrence
      cases event with
      | queueOfflineChange change => exact hticketed.queue_change change moment.now
      | processOfflineQueue => exact (process_once hticketed hbusy moment).ticketed
      | attemptSettles outcome => exact (settle_once (once_start hticketed) outcome moment).ticketed
      | retryDelayOver => exact (resume_once (once_start hticketed) moment).ticketed
      | online =>
          have honline : Ticketed { queue with isOnline := true } :=
            ⟨hticketed.queued, hticketed.stored, hticketed.held⟩
          exact (process_once honline hbusy moment).ticketed
      | offline => exact ⟨hticketed.queued, hticketed.stored, hticketed.held⟩

end Tickets

end Qontinui.OfflineQueue
