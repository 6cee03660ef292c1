import Qontinui.Collaboration.PassTickets

/-!
The retry bound of the offline queue. A pass skips only what is completed, so an operation
that has failed is attempted by every pass that starts while it is in the queue. The bound
holds in the runs in which no pass starts before the failed operations are out.
-/

namespace Qontinui.OfflineQueue

open Runs

/-- How often an operation has been passed to `syncResource`. -/
def tries (queue : OfflineQueue) (ticket : Nat) : Nat :=
  (queue.attempts.map SyncOperation.ticket).count ticket

def startsPass (queue : OfflineQueue) (occurrence : QueueOccurrence) : Bool :=
  !queue.processingQueue &&
    match occurrence.event with
    | .processOfflineQueue => queue.isOnline
    | .online => true
    | _ => false

/-- A pass starts only with at least one attempt to make, and without failed operations. -/
def LeavesFailed (queue : OfflineQueue) (occurrence : QueueOccurrence) : Prop :=
  queue.startsPass occurrence = true →
    0 < queue.config.maxRetries ∧ ∀ operation ∈ queue.syncQueue, operation.status ≠ .failed

instance (queue : OfflineQueue) (occurrence : QueueOccurrence) :
    Decidable (queue.LeavesFailed occurrence) :=
  inferInstanceAs (Decidable (_ → _))

/-- What is left of the attempts of an operation, and that those in `spent` have failed. -/
structure OperationBudget (queue : OfflineQueue) (spent : List (Nat × Nat))
    (operation : SyncOperation) : Prop where
  queued : operation.status = .queued →
    queue.tries operation.ticket ≤ operation.retryCount ∧
      (0 < queue.config.maxRetries → operation.retryCount < queue.config.maxRetries)
  failed : ∀ entry ∈ spent, operation.ticket = entry.1 → operation.status = .failed

/-- No operation has been attempted too often; those in `spent` as often as it says. -/
structure Budgeted (spent : List (Nat × Nat)) (queue : OfflineQueue) : Prop where
  bound : ∀ ticket, queue.tries ticket ≤ queue.config.maxRetries
  fresh : ∀ ticket, queue.tickets ≤ ticket → queue.tries ticket = 0
  tried : ∀ entry ∈ spent, entry.1 < queue.tickets ∧ queue.tries entry.1 = entry.2
  operations : ∀ operation ∈ queue.syncQueue, queue.OperationBudget spent operation

/-- The loop stands at an index: no attempt is under way and nothing ahead has failed. -/
structure Between (spent : List (Nat × Nat)) (queue : OfflineQueue) (index : Nat) : Prop where
  budgeted : Budgeted spent queue
  settled : ∀ operation ∈ queue.syncQueue, operation.status ≠ .processing
  ahead : ∀ operation ∈ queue.syncQueue.drop index, operation.status ≠ .failed

/-- The operation a pass holds is the only one being processed. -/
structure Attempting (spent : List (Nat × Nat)) (queue : OfflineQueue) (pass : Pass) : Prop where
  budgeted : Budgeted spent queue
  processing : pass.operation.status = .processing
  counted : queue.tries pass.operation.ticket ≤ pass.operation.retryCount + 1
  room : pass.operation.retryCount < queue.config.maxRetries
  held : ∀ position, pass.position = some position →
    queue.syncQueue[position]? = some pass.operation ∧ position < pass.nextIndex
  alone : ∀ position operation, queue.syncQueue[position]? = some operation →
    operation.status = .processing → pass.position = some position
  ahead : ∀ operation ∈ queue.syncQueue.drop pass.nextIndex, operation.status ≠ .failed

/-- The invariant of the runs in which failed operations stay out of the passes. -/
structure Retrying (spent : List (Nat × Nat)) (queue : OfflineQueue) : Prop where
  ticketed : Ticketed queue
  busy : queue.Busy
  positive : queue.pass.isSome = true → 0 < queue.config.maxRetries
  idle : queue.pass = none → Between spent queue queue.syncQueue.length
  waiting : ∀ pass, queue.pass = some pass → pass.waiting = true →
    Between spent queue pass.nextIndex
  awaiting : ∀ pass, queue.pass = some pass → pass.waiting = false →
    Attempting spent queue pass

section Budgets

variable {queue : OfflineQueue} {spent : List (Nat × Nat)} {index : Nat} {after : OfflineQueue}
  {operations : List SyncOperation}

theorem OperationBudget.congr {operation : SyncOperation}
    (h : queue.OperationBudget spent operation) (hattempts : after.attempts = queue.attempts)
    (hconfig : after.config = queue.config) : after.OperationBudget spent operation := by
  obtain ⟨hopen, hfailed⟩ := h
  refine ⟨?_, hfailed⟩
  simpa only [tries, hattempts, hconfig] using hopen

theorem Budgeted.change (h : Budgeted spent queue) (hattempts : after.attempts = queue.attempts)
    (hconfig : after.config = queue.config) (htickets : queue.tickets ≤ after.tickets)
    (hoperations : ∀ operation ∈ after.syncQueue, queue.OperationBudget spent operation) :
    Budgeted spent after where
  bound := by simpa only [tries, hattempts, hconfig] using h.bound
  fresh ticket hticket := by
    simpa only [tries, hattempts] using h.fresh ticket (htickets.trans hticket)
  tried entry hentry := by
    obtain ⟨hlt, htried⟩ := h.tried entry hentry
    exact ⟨hlt.trans_le htickets, by simpa only [tries, hattempts] using htried⟩
  operations operation hoperation := (hoperations operation hoperation).congr hattempts hconfig

theorem Budgeted.new (h : Budgeted spent queue) {operation : SyncOperation}
    (hticket : operation.ticket = queue.tickets) (hretries : operation.retryCount = 0) :
    queue.OperationBudget spent operation where
  queued _ := by
    rw [hticket, hretries, h.fresh _ (Nat.le_refl _)]
    exact ⟨Nat.le_refl _, id⟩
  failed entry hentry hsame := by
    have hlt := (h.tried entry hentry).1
    omega

/-! ### Queueing a change -/

theorem mem_drop_tail {operation : SyncOperation} {index : Nat}
    (h : operation ∈ operations.tail.drop index) : operation ∈ operations.drop index := by
  rw [List.drop_tail] at h
  exact (List.drop_sublist_drop_left _ (Nat.le_succ index)).subset h

theorem mem_drop_append {operation last : SyncOperation} {index : Nat}
    (h : operation ∈ (operations ++ [last]).drop index) :
    operation ∈ operations.drop index ∨ operation = last := by
  rw [List.drop_append, List.mem_append] at h
  exact h.imp_right fun hlast => List.mem_singleton.mp (List.mem_of_mem_drop hlast)

/-- Queues with the same operations and attempts. -/
structure SameWork (queue after : OfflineQueue) : Prop where
  syncQueue : after.syncQueue = queue.syncQueue
  attempts : after.attempts = queue.attempts
  config : after.config = queue.config
  tickets : after.tickets = queue.tickets

theorem Budgeted.congr (h : Budgeted spent queue) (hsame : queue.SameWork after) :
    Budgeted spent after :=
  h.change hsame.attempts hsame.config hsame.tickets.ge
    (hsame.syncQueue ▸ h.operations)

theorem Between.congr (h : Between spent queue index) {after : OfflineQueue}
    (hsame : queue.SameWork after) : Between spent after index :=
  ⟨h.budgeted.congr hsame, hsame.syncQueue ▸ h.settled, hsame.syncQueue ▸ h.ahead⟩

theorem Between.shift (h : Between spent queue index) : Between spent queue.shift index where
  budgeted := h.budgeted.change rfl rfl (Nat.le_refl _) fun operation hmem =>
    h.budgeted.operations operation (List.mem_of_mem_tail hmem)
  settled operation hmem := h.settled operation (List.mem_of_mem_tail hmem)
  ahead operation hmem := h.ahead operation (mem_drop_tail hmem)

variable {operation : SyncOperation} {pass : Pass} {change : Change} {now : Int}

theorem Budgeted.append (h : Budgeted spent queue) :
    Budgeted spent (queue.appended (queue.newOperation change now)) := by
  refine h.change rfl rfl (Nat.le_succ _) fun other hmem => ?_
  rcases List.mem_append.mp hmem with hold | hlast
  · exact h.operations other hold
  · rw [List.mem_singleton.mp hlast]
    exact h.new rfl rfl

theorem Between.append (h : Between spent queue index) :
    Between spent (queue.appended (queue.newOperation change now)) index where
  budgeted := h.budgeted.append
  settled other hmem := by
    rcases List.mem_append.mp hmem with hold | hlast
    · exact h.settled other hold
    · simp [List.mem_singleton.mp hlast, newOperation]
  ahead other hmem := by
    rcases mem_drop_append hmem with hold | rfl
    · exact h.ahead other hold
    · simp [newOperation]

/-- A pass whose operation has moved towards the front of the array, or out of it. -/
def Pass.moved (pass : Pass) : Pass :=
  { pass with
    position := pass.position.bind fun position =>
      if position = 0 then none else some (position - 1) }

theorem Attempting.shift (h : Attempting spent queue pass) :
    Attempting spent queue.shift (Pass.moved pass) where
  budgeted := h.budgeted.change rfl rfl (Nat.le_refl _) fun operation hmem =>
    h.budgeted.operations operation (List.mem_of_mem_tail hmem)
  processing := h.processing
  counted := h.counted
  room := h.room
  held position hposition := by
    obtain ⟨old, hold, hmoved⟩ := Option.bind_eq_some_iff.mp hposition
    obtain ⟨hget, hlt⟩ := h.held old hold
    split at hmoved
    · cases hmoved
    · next hne =>
        obtain rfl : old = position + 1 := by
          cases hmoved
          omega
        refine ⟨?_, by simp only [Pass.moved]; omega⟩
        simp only [OfflineQueue.shift, List.getElem?_tail]
        exact hget
  alone position operation hget hstatus := by
    have hold := h.alone (position + 1) operation
      (by simpa only [OfflineQueue.shift, List.getElem?_tail] using hget) hstatus
    simp [Pass.moved, hold]
  ahead operation hmem := h.ahead operation (mem_drop_tail hmem)

theorem Attempting.append (h : Attempting spent queue pass) :
    Attempting spent (queue.appended (queue.newOperation change now)) pass where
  budgeted := h.budgeted.append
  processing := h.processing
  counted := h.counted
  room := h.room
  held position hposition := by
    obtain ⟨hget, hlt⟩ := h.held position hposition
    refine ⟨?_, hlt⟩
    simp only [appended, saveQueueToStorage]
    rwa [List.getElem?_append_left (List.getElem?_eq_some_iff.mp hget).1]
  alone position other hget hstatus := by
    simp only [appended, saveQueueToStorage] at hget
    rcases Nat.lt_or_ge position queue.syncQueue.length with hlt | hge
    · rw [List.getElem?_append_left hlt] at hget
      exact h.alone position other hget hstatus
    · rw [List.getElem?_append_right hge] at hget
      rw [List.mem_singleton.mp (List.mem_of_getElem? hget)] at hstatus
      cases hstatus
  ahead other hmem := by
    rcases mem_drop_append hmem with hold | rfl
    · exact h.ahead other hold
    · simp [newOperation]

/-! ### Attempts and their outcomes -/

theorem getElem?_set_cases {position index : Nat} {new operation : SyncOperation}
    (h : (operations.set position new)[index]? = some operation) :
    operation = new ∨ index ≠ position ∧ operations[index]? = some operation := by
  by_cases hsame : index = position
  · subst hsame
    rw [List.getElem?_set_self'] at h
    obtain ⟨old, hold, rfl⟩ := Option.map_eq_some_iff.mp h
    exact .inl rfl
  · rw [List.getElem?_set_ne (Ne.symm hsame)] at h
    exact .inr ⟨hsame, h⟩

section

variable (h : Attempting spent queue pass)
include h

/-- An attempt that is over: what the pass writes back is no longer being processed. -/
theorem Attempting.written {after : Pass} (hposition : after.position = pass.position)
    (hticket : after.operation.ticket = pass.operation.ticket)
    (hsettled : after.operation.status ≠ .processing) (hopen : after.operation.status = .queued →
      queue.tries after.operation.ticket ≤ after.operation.retryCount ∧
        (0 < queue.config.maxRetries → after.operation.retryCount < queue.config.maxRetries)) :
    Between spent (queue.writeBack after) pass.nextIndex := by
  cases hheld : pass.position with
  | none =>
      have hsame : (queue.writeBack after).syncQueue = queue.syncQueue := by
        simp only [writeBack, hposition, hheld]
      refine ⟨h.budgeted.change rfl rfl (Nat.le_refl _) (hsame ▸ h.budgeted.operations), ?_,
        hsame ▸ h.ahead⟩
      rw [hsame]
      intro operation hmem hstatus
      obtain ⟨index, hindex⟩ := List.mem_iff_getElem?.mp hmem
      rw [h.alone index operation hindex hstatus] at hheld
      cases hheld
  | some position =>
      obtain ⟨hget, hlt⟩ := h.held position hheld
      have hset : (queue.writeBack after).syncQueue =
          queue.syncQueue.set position after.operation := by
        simp only [writeBack, hposition, hheld]
      have hbudget : queue.OperationBudget spent after.operation := by
        refine ⟨hopen, fun entry hentry hsame => ?_⟩
        have hfailed := (h.budgeted.operations _ (List.mem_of_getElem? hget)).failed entry hentry
          (hticket ▸ hsame)
        rw [h.processing] at hfailed
        cases hfailed
      refine ⟨h.budgeted.change rfl rfl (Nat.le_refl _) ?_, ?_, ?_⟩ <;> rw [hset]
      · intro operation hmem
        obtain ⟨index, hindex⟩ := List.mem_iff_getElem?.mp hmem
        rcases getElem?_set_cases hindex with rfl | ⟨-, hold⟩
        · exact hbudget
        · exact h.budgeted.operations operation (List.mem_of_getElem? hold)
      · intro operation hmem hstatus
        obtain ⟨index, hindex⟩ := List.mem_iff_getElem?.mp hmem
        rcases getElem?_set_cases hindex with rfl | ⟨hne, hold⟩
        · exact hsettled hstatus
        · rw [h.alone index operation hold hstatus] at hheld
          exact hne (Option.some.inj hheld)
      · rw [List.drop_set_of_lt hlt]
        exact h.ahead

theorem Attempting.completed :
    Between spent (queue.writeBack (completedPass pass)) pass.nextIndex :=
  h.written rfl rfl (by simp [completedPass]) (by simp [completedPass])

theorem Attempting.failed {after : Pass} (hposition : after.position = pass.position)
    (hoperation : after.operation = queue.failedOperation pass.operation) :
    Between spent (queue.writeBack after) pass.nextIndex := by
  refine h.written hposition (by rw [hoperation]; rfl) ?_ ?_ <;> rw [hoperation] <;>
    simp only [failedOperation]
  · split <;> simp
  · split
    · simp
    · next hroom => exact fun _ => ⟨h.counted, fun _ => by omega⟩

theorem Attempting.retry_later (hpass : queue.pass = some pass) :
    Between spent queue.retryLater pass.nextIndex := by
  simp only [retryLater, hpass]
  exact h.failed rfl rfl

end

theorem tries_called (queue : OfflineQueue) (index : Nat) (operation : SyncOperation)
    (ids : List String) (ticket : Nat) :
    (queue.called index operation ids).tries ticket =
      queue.tries ticket + if operation.ticket = ticket then 1 else 0 := by
  have hattempts : (queue.called index operation ids).attempts =
      queue.attempts ++ [{ operation with status := .processing }] := rfl
  rw [tries, hattempts, List.map_append, List.count_append, tries]
  simp [List.count_singleton, beq_iff_eq]

/-- The attempt of an operation that the loop comes to. -/
theorem Between.called (h : Between spent queue index) (hticketed : Ticketed queue)
    (hpositive : 0 < queue.config.maxRetries) {next : Nat} (hle : index ≤ next)
    (hget : queue.syncQueue[next]? = some operation) (hunfinished : operation.status ≠ .completed)
    (ids : List String) :
    Attempting spent (queue.called next operation ids)
      ⟨{ operation with status := .processing }, some next, next + 1, false, ids⟩ := by
  have hmem := List.mem_of_getElem? hget
  have hahead : operation ∈ queue.syncQueue.drop index := by
    refine List.mem_of_getElem? (i := next - index) ?_
    rwa [List.getElem?_drop, Nat.add_sub_cancel' hle]
  have hqueued : operation.status = .queued := by
    have hsettled := h.settled operation hmem
    have hfailed := h.ahead operation hahead
    cases hstatus : operation.status <;> simp_all
  have hbudget := h.budgeted.operations operation hmem
  obtain ⟨htries, hroom⟩ := hbudget.queued hqueued
  have hroom := hroom hpositive
  have hspent : ∀ entry ∈ spent, operation.ticket ≠ entry.1 := by
    intro entry hentry hsame
    have hfailed := hbudget.failed entry hentry hsame
    rw [hqueued] at hfailed
    cases hfailed
  have htickets : (queue.syncQueue.map SyncOperation.ticket)[next]? = some operation.ticket := by
    rw [List.getElem?_map, hget, Option.map_some]
  have hother : ∀ {i other}, i ≠ next → queue.syncQueue[i]? = some other →
      operation.ticket ≠ other.ticket := by
    intro i other hne hother hsame
    have hi : (queue.syncQueue.map SyncOperation.ticket)[i]? = some operation.ticket := by
      rw [List.getElem?_map, hother, Option.map_some, hsame]
    exact hne ((List.getElem?_inj (List.getElem?_eq_some_iff.mp hi).1 hticketed.queued.1).mp
      (hi.trans htickets.symm))
  have hset : (queue.called next operation ids).syncQueue =
      queue.syncQueue.set next { operation with status := .processing } := rfl
  refine ⟨⟨?_, ?_, ?_, ?_⟩, rfl, ?_, hroom, ?_, ?_, ?_⟩
  · intro ticket
    have hbound := h.budgeted.bound ticket
    rw [tries_called]
    change _ ≤ queue.config.maxRetries
    split
    · next hsame => exact hsame ▸ (by omega)
    · exact hbound
  · intro ticket hticket
    have hlt : operation.ticket < queue.tickets :=
      hticketed.queued.2 _ (List.mem_map_of_mem hmem)
    have hticket : queue.tickets ≤ ticket := hticket
    rw [tries_called, h.budgeted.fresh ticket hticket, if_neg (by omega)]
  · intro entry hentry
    rw [tries_called, if_neg (hspent entry hentry)]
    exact h.budgeted.tried entry hentry
  · rw [hset]
    intro other hmem
    obtain ⟨i, hi⟩ := List.mem_iff_getElem?.mp hmem
    rcases getElem?_set_cases hi with rfl | ⟨hne, hold⟩
    · exact ⟨nofun, fun entry hentry hsame => absurd hsame (hspent entry hentry)⟩
    · have hold' := h.budgeted.operations other (List.mem_of_getElem? hold)
      refine ⟨?_, hold'.failed⟩
      rw [tries_called, if_neg (hother hne hold)]
      exact hold'.queued
  · rw [tries_called, if_pos rfl]
    exact Nat.succ_le_succ htries
  · rintro position ⟨⟩
    exact ⟨List.getElem?_set_self (List.getElem?_eq_some_iff.mp hget).1, Nat.lt_succ_self _⟩
  · intro position other hi hstatus
    rw [hset] at hi
    rcases getElem?_set_cases hi with rfl | ⟨hne, hold⟩
    · by_contra hne
      rw [List.getElem?_set_ne (fun heq => hne (congrArg some heq))] at hi
      exact hother (fun heq => hne (congrArg some heq.symm)) hi rfl
    · exact absurd hstatus (h.settled other (List.mem_of_getElem? hold))
  · rw [hset, List.drop_set_of_lt (Nat.lt_succ_self _)]
    intro other hmem
    exact h.ahead other ((List.drop_sublist_drop_left _ (by omega)).subset hmem)

/-! ### Steps -/

theorem Between.finish (h : Between spent queue index) (ids : List String) :
    Between spent (queue.finishPass ids) (queue.finishPass ids).syncQueue.length where
  budgeted := h.budgeted.change rfl rfl (Nat.le_refl _) fun operation hmem =>
    h.budgeted.operations operation (List.mem_of_mem_filter hmem)
  settled operation hmem := h.settled operation (List.mem_of_mem_filter hmem)
  ahead := by simp

theorem retrying_idle (hticketed : Ticketed queue) (hpass : queue.pass = none)
    (h : Between spent queue queue.syncQueue.length) : Retrying spent queue where
  ticketed := hticketed
  busy := by simp [Busy, hpass]
  positive := by simp [hpass]
  idle _ := h
  waiting := by simp [hpass]
  awaiting := by simp [hpass]

theorem retrying_waiting (hticketed : Ticketed queue) (hbusy : queue.Busy)
    (hpositive : 0 < queue.config.maxRetries) (hpass : queue.pass = some pass)
    (hwaiting : pass.waiting = true) (h : Between spent queue pass.nextIndex) :
    Retrying spent queue where
  ticketed := hticketed
  busy := hbusy
  positive _ := hpositive
  idle hnone := by simp [hpass] at hnone
  waiting := by
    intro other hother _
    cases hpass.symm.trans hother
    exact h
  awaiting := by
    intro other hother hawaiting
    cases hpass.symm.trans hother
    simp [hwaiting] at hawaiting

theorem retrying_awaiting (hticketed : Ticketed queue) (hbusy : queue.Busy)
    (hpass : queue.pass = some pass) (hwaiting : pass.waiting = false)
    (h : Attempting spent queue pass) : Retrying spent queue where
  ticketed := hticketed
  busy := hbusy
  positive _ := (Nat.zero_le _).trans_lt h.room
  idle hnone := by simp [hpass] at hnone
  waiting := by
    intro other hother hother'
    cases hpass.symm.trans hother
    simp [hwaiting] at hother'
  awaiting := by
    intro other hother _
    cases hpass.symm.trans hother
    exact h

theorem Attempting.retrying_later (h : Attempting spent queue pass) (hticketed : Ticketed queue)
    (hbusy : queue.Busy) (hpass : queue.pass = some pass) : Retrying spent queue.retryLater := by
  have hafter : queue.retryLater.pass =
      some { pass with operation := queue.failedOperation pass.operation, waiting := true } := by
    simp only [retryLater, hpass, writeBack]
  have hconfig : queue.retryLater.config = queue.config := by
    simp only [retryLater, hpass, writeBack]
  exact retrying_waiting hticketed.retry_later (retry_later_busy hbusy)
    (hconfig ▸ (Nat.zero_le _).trans_lt h.room) hafter rfl (h.retry_later hpass)

theorem Attempting.queue_change (h : Attempting spent queue pass) (hpass : queue.pass = some pass)
    (change : Change) (now : Int) :
    ∃ after, (queue.queueOfflineChange change now).pass = some after ∧
      after.waiting = pass.waiting ∧
        Attempting spent (queue.queueOfflineChange change now) after := by
  rcases queue_change_cases queue change now with heq | ⟨-, heq⟩ | ⟨-, heq⟩ <;> rw [heq]
  · exact ⟨pass, hpass, rfl, h⟩
  · exact ⟨pass, hpass, rfl, h.append⟩
  · refine ⟨Pass.moved pass, ?_, rfl, h.shift.append⟩
    simp only [appended, saveQueueToStorage, OfflineQueue.shift, hpass, Option.map_some, Pass.moved]

theorem Between.queue_change (h : Between spent queue index) (change : Change) (now : Int) :
    Between spent (queue.queueOfflineChange change now) index := by
  rcases queue_change_cases queue change now with heq | ⟨-, heq⟩ | ⟨-, heq⟩ <;> rw [heq]
  · exact h
  · exact h.append
  · exact h.shift.append

/-- The loop goes on: it attempts the next operation or is over. -/
theorem advance_retrying (h : Between spent queue index) (hticketed : Ticketed queue)
    (hbusy : queue.processingQueue = true) (hpositive : 0 < queue.config.maxRetries)
    (ids : List String) (moment : Moment) : Retrying spent (queue.advance index ids moment) := by
  rcases advance_cases queue index ids moment with
    ⟨ids', heq⟩ | ⟨skipped, operation, ids', heq, hget, hunfinished, -⟩ <;> rw [heq]
  · exact retrying_idle (hticketed.finish ids') rfl (h.finish ids')
  · have hcalled := h.called hticketed hpositive (Nat.le_add_right _ _) hget hunfinished ids'
    have hticketed' := hticketed.called hget ids'
    have hbusy' : (queue.called (index + skipped) operation ids').Busy := fun _ => hbusy
    have hpass' : (queue.called (index + skipped) operation ids').pass = some
        ⟨{ operation with status := .processing }, some (index + skipped),
          index + skipped + 1, false, ids'⟩ := rfl
    rw [start_attempt_eq]
    split
    · exact retrying_awaiting hticketed' hbusy' hpass' rfl hcalled
    · obtain ⟨after, hafter, -, hattempting⟩ := hcalled.queue_change hpass'
        (pendingChange operation moment) moment.now
      have hticketed'' := hticketed'.queue_change (pendingChange operation moment) moment.now
      have hbusy'' := queue_change_busy hbusy' (pendingChange operation moment) moment.now
      exact hattempting.retrying_later hticketed'' hbusy'' hafter

theorem pass_queue_change (queue : OfflineQueue) (change : Change) (now : Int) :
    (queue.queueOfflineChange change now).pass = queue.pass ∨
      (queue.queueOfflineChange change now).pass = queue.pass.map Pass.moved := by
  rcases queue_change_cases queue change now with heq | ⟨-, heq⟩ | ⟨-, heq⟩ <;> rw [heq]
  · exact .inl rfl
  · exact .inl rfl
  · exact .inr rfl

theorem config_queue_change (queue : OfflineQueue) (change : Change) (now : Int) :
    (queue.queueOfflineChange change now).config = queue.config := by
  rcases queue_change_cases queue change now with heq | ⟨-, heq⟩ | ⟨-, heq⟩ <;> rw [heq] <;> rfl

theorem Retrying.queue_change (h : Retrying spent queue) (change : Change) (now : Int) :
    Retrying spent (queue.queueOfflineChange change now) := by
  have hticketed := h.ticketed.queue_change change now
  have hbusy := queue_change_busy h.busy change now
  have hconfig := config_queue_change queue change now
  have hmoved := pass_queue_change queue change now
  cases hpass : queue.pass with
  | none =>
      have hnone : (queue.queueOfflineChange change now).pass = none := by
        rcases hmoved with hsame | hsame <;> simp [hsame, hpass]
      have hidle := (h.idle hpass).queue_change change now
      refine ⟨hticketed, hbusy, by simp [hnone], fun _ => ?_, by simp [hnone], by simp [hnone]⟩
      exact ⟨hidle.budgeted, hidle.settled, by simp⟩
  | some pass =>
      have hpositive := h.positive (by simp [hpass])
      cases hwaiting : pass.waiting with
      | false =>
          obtain ⟨after, hafter, hawaits, hattempting⟩ :=
            (h.awaiting pass hpass hwaiting).queue_change hpass change now
          exact retrying_awaiting hticketed hbusy hafter (hawaits.trans hwaiting) hattempting
      | true =>
          have hbetween := (h.waiting pass hpass hwaiting).queue_change change now
          rw [hpass, Option.map_some] at hmoved
          rcases hmoved with hsame | hsame <;>
            exact retrying_waiting hticketed hbusy (hconfig ▸ hpositive) hsame hwaiting hbetween

section

variable (h : Retrying spent queue)
include h

theorem settle_retrying (outcome : SyncOutcome) (moment : Moment) :
    Retrying spent (queue.settleAttempt outcome moment) := by
  refine settle_keeps h fun pass hpass hwaiting => ?_
  have hattempting := h.awaiting pass hpass hwaiting
  have hpositive := h.positive (by simp [hpass])
  have hbusy := h.busy (by simp [hpass])
  have hheld := h.ticketed.held pass hpass
  rw [settle_eq hpass hwaiting]
  cases outcome with
  | success =>
      have hcompleted : queue.Holds (completedPass pass) := hheld
      have hticketed := h.ticketed.write_back hcompleted
      have hbetween := hattempting.completed
      have hpushed : Between spent { queue.writeBack (completedPass pass) with
          pushed := queue.pushed ++ [(completedPass pass).operation] } pass.nextIndex :=
        hbetween.congr ⟨rfl, rfl, rfl, rfl⟩
      exact advance_retrying hpushed
        ⟨hticketed.queued, hticketed.stored, hticketed.held⟩ hbusy hpositive _ moment
  | conflict =>
      have hfailed : queue.Holds (queue.failedPass pass) := hheld
      have hbetween : Between spent (queue.writeBack (queue.failedPass pass))
          pass.nextIndex := hattempting.failed rfl rfl
      exact advance_retrying hbetween (h.ticketed.write_back hfailed) hbusy hpositive _
        moment
  | error => exact hattempting.retrying_later h.ticketed h.busy hpass

theorem resume_retrying (moment : Moment) : Retrying spent (queue.resumePass moment) := by
  simp only [resumePass]
  split
  · next pass hpass =>
      split
      · next hwaiting =>
          exact advance_retrying (h.waiting pass hpass hwaiting) h.ticketed
            (h.busy (by simp [hpass])) (h.positive (by simp [hpass])) _ moment
      · exact h
  · exact h

/-- A pass that starts without failed operations. -/
theorem process_retrying (hleaves : queue.isOnline = true → queue.processingQueue = false →
      0 < queue.config.maxRetries ∧ ∀ operation ∈ queue.syncQueue, operation.status ≠ .failed)
    (moment : Moment) : Retrying spent (queue.processOfflineQueue moment) := by
  simp only [processOfflineQueue]
  split
  · exact h
  · next hready =>
      simp only [Bool.or_eq_true, Bool.not_eq_true', not_or, Bool.not_eq_false,
        Bool.not_eq_true] at hready
      obtain ⟨⟨honline, hprocessing⟩, -⟩ := hready
      obtain ⟨hpositive, hfailed⟩ := hleaves honline hprocessing
      have hpass : queue.pass = none := by
        by_contra hsome
        have hbusy := h.busy (Option.isSome_iff_ne_none.mpr hsome)
        rw [hprocessing] at hbusy
        cases hbusy
      have hidle := h.idle hpass
      split
      · exact retrying_idle ⟨h.ticketed.queued, h.ticketed.stored, h.ticketed.held⟩ hpass
          (hidle.congr ⟨rfl, rfl, rfl, rfl⟩)
      · next sorted hsort =>
          have hperm := sort_perm hsort
          have htickets := hperm.map SyncOperation.ticket
          have hsorted : Ticketed { queue with processingQueue := true, syncQueue := sorted } :=
            ⟨⟨htickets.nodup_iff.mpr h.ticketed.queued.1,
              fun ticket hmem => h.ticketed.queued.2 ticket (htickets.mem_iff.mp hmem)⟩,
              h.ticketed.stored, by simp [hpass]⟩
          have hbetween : Between spent
              { queue with processingQueue := true, syncQueue := sorted } 0 :=
            ⟨hidle.budgeted.change rfl rfl (Nat.le_refl _) fun operation hmem =>
                hidle.budgeted.operations operation (hperm.mem_iff.mp hmem),
              fun operation hmem => hidle.settled operation (hperm.mem_iff.mp hmem),
              fun operation hmem => hfailed operation (hperm.mem_iff.mp hmem)⟩
          exact advance_retrying hbetween hsorted rfl hpositive [] moment

theorem Retrying.connection (isOnline : Bool) :
    Retrying spent { queue with isOnline := isOnline } := by
  have hsame : queue.SameWork { queue with isOnline := isOnline } := ⟨rfl, rfl, rfl, rfl⟩
  refine ⟨⟨h.ticketed.queued, h.ticketed.stored, h.ticketed.held⟩, h.busy, h.positive,
    fun hpass => (h.idle hpass).congr hsame,
    fun pass hpass hwaiting => (h.waiting pass hpass hwaiting).congr hsame, ?_⟩
  intro pass hpass hwaiting
  have hattempting := h.awaiting pass hpass hwaiting
  exact ⟨hattempting.budgeted.congr hsame, hattempting.processing, hattempting.counted,
    hattempting.room, hattempting.held, hattempting.alone, hattempting.ahead⟩

end

end Budgets

/-! ### The configuration -/

@[simp] theorem config_retry_later (queue : OfflineQueue) :
    queue.retryLater.config = queue.config := by
  simp only [retryLater]
  split <;> rfl

@[simp] theorem config_advance (queue : OfflineQueue) (index : Nat) (ids : List String)
    (moment : Moment) : (queue.advance index ids moment).config = queue.config := by
  simp only [advance]
  split
  · rw [start_attempt_eq]
    split
    · rfl
    · rw [config_retry_later, config_queue_change]
      rfl
  · rfl

theorem config_settle (queue : OfflineQueue) (outcome : SyncOutcome) (moment : Moment) :
    (queue.settleAttempt outcome moment).config = queue.config := by
  simp only [settleAttempt]
  split
  · split
    · rfl
    · cases outcome with
      | success | conflict =>
          rw [config_advance]
          rfl
      | error => exact config_retry_later queue
  · rfl

theorem config_process (queue : OfflineQueue) (moment : Moment) :
    (queue.processOfflineQueue moment).config = queue.config := by
  simp only [processOfflineQueue]
  split
  · rfl
  · split
    · rfl
    · rw [config_advance]

theorem config_step (queue : OfflineQueue) (occurrence : QueueOccurrence) :
    (queue.step occurrence).config = queue.config := by
  obtain ⟨event, moment⟩ := occurrence
  cases event with
  | queueOfflineChange change => exact config_queue_change queue change moment.now
  | processOfflineQueue => exact config_process queue moment
  | attemptSettles outcome => exact config_settle queue outcome moment
  | retryDelayOver =>
      simp only [step, resumePass]
      split
      · split
        · exact config_advance _ _ _ _
        · rfl
      · rfl
  | online => exact config_process { queue with isOnline := true } moment
  | offline => rfl

theorem step_retrying {spent : List (Nat × Nat)} (queue : OfflineQueue)
    (occurrence : QueueOccurrence) (h : Retrying spent queue)
    (hleaves : queue.LeavesFailed occurrence) : Retrying spent (queue.step occurrence) := by
  obtain ⟨event, moment⟩ := occurrence
  cases event with
  | queueOfflineChange change => exact h.queue_change change moment.now
  | processOfflineQueue =>
      refine process_retrying h (fun honline hprocessing => hleaves ?_) moment
      simp [startsPass, honline, hprocessing]
  | attemptSettles outcome => exact settle_retrying h outcome moment
  | retryDelayOver => exact resume_retrying h moment
  | online =>
      refine process_retrying (h.connection true) (fun _ hprocessing => hleaves ?_) moment
      have hidle : queue.processingQueue = false := hprocessing
      simp [startsPass, hidle]
  | offline => exact h.connection false

theorem Retrying.spend {queue : OfflineQueue} (h : Retrying [] queue) {operation : SyncOperation}
    (hmem : operation ∈ queue.syncQueue) (hfailed : operation.status = .failed) :
    Retrying [(operation.ticket, queue.tries operation.ticket)] queue := by
  have hsame : ∀ other ∈ queue.syncQueue, other.ticket = operation.ticket → other = operation :=
    fun other hother hticket => List.inj_on_of_nodup_map h.ticketed.queued.1 hother hmem hticket
  have hbudgeted : Budgeted [] queue →
      Budgeted [(operation.ticket, queue.tries operation.ticket)] queue := by
    intro hbudgeted
    refine ⟨hbudgeted.bound, hbudgeted.fresh, ?_, fun other hother =>
      ⟨(hbudgeted.operations other hother).queued, ?_⟩⟩
    · intro entry hentry
      rw [List.mem_singleton.mp hentry]
      exact ⟨h.ticketed.queued.2 _ (List.mem_map_of_mem hmem), rfl⟩
    · intro entry hentry hticket
      rw [List.mem_singleton.mp hentry] at hticket
      rw [hsame other hother hticket, hfailed]
  have hbetween : ∀ index, Between [] queue index →
      Between [(operation.ticket, queue.tries operation.ticket)] queue index := fun index h =>
    ⟨hbudgeted h.budgeted, h.settled, h.ahead⟩
  refine ⟨h.ticketed, h.busy, h.positive, fun hpass => hbetween _ (h.idle hpass),
    fun pass hpass hwaiting => hbetween _ (h.waiting pass hpass hwaiting), ?_⟩
  intro pass hpass hwaiting
  have hattempting := h.awaiting pass hpass hwaiting
  exact ⟨hbudgeted hattempting.budgeted, hattempting.processing, hattempting.counted,
    hattempting.room, hattempting.held, hattempting.alone, hattempting.ahead⟩

theorem Retrying.budgeted {queue : OfflineQueue} {spent : List (Nat × Nat)}
    (h : Retrying spent queue) : Budgeted spent queue := by
  cases hpass : queue.pass with
  | none => exact (h.idle hpass).budgeted
  | some pass =>
      cases hwaiting : pass.waiting with
      | true => exact (h.waiting pass hpass hwaiting).budgeted
      | false => exact (h.awaiting pass hpass hwaiting).budgeted

theorem retrying_start (config : QueueConfig) :
    Retrying [] ({ config := config } : OfflineQueue) := by
  have hempty : Numbered 0 [] := ⟨List.nodup_nil, by simp⟩
  have hbudgeted : Budgeted [] ({ config := config } : OfflineQueue) :=
    ⟨fun _ => Nat.zero_le _, fun _ _ => rfl, by simp, by simp⟩
  exact retrying_idle ⟨hempty, by simp, by simp⟩ rfl ⟨hbudgeted, by simp, by simp⟩

/-- In a run in which no pass starts while a failed operation is in the queue, no operation
is attempted more than `maxRetries` times, and none after it has failed. -/
theorem attempts_bounded (config : QueueConfig) (occurrences : List QueueOccurrence)
    (hleaves : Meets step LeavesFailed { config := config } occurrences) :
    (∀ ticket, (run step { config := config } occurrences).tries ticket ≤ config.maxRetries) ∧
      ∀ front rest, occurrences = front ++ rest →
        ∀ operation ∈ (run step { config := config } front).syncQueue,
          operation.status = .failed →
            (run step { config := config } occurrences).tries operation.ticket =
              (run step { config := config } front).tries operation.ticket := by
  have hkeeps : ∀ {spent start occurrences}, Retrying spent start →
      Meets step LeavesFailed start occurrences → Retrying spent (run step start occurrences) :=
    fun hstart => invariant_of_meets step (Retrying _) step_retrying hstart
  have hconfig : (run step { config := config } occurrences).config = config :=
    invariant_of_step step (fun queue => queue.config = config)
      (fun queue occurrence h => (config_step queue occurrence).trans h) _ _ rfl
  constructor
  · intro ticket
    have hbound := (hkeeps (retrying_start config) hleaves).budgeted.bound ticket
    rwa [hconfig] at hbound
  · rintro front rest rfl operation hmem hfailed
    obtain ⟨hfront, hrest⟩ := (meets_append step _ front rest).mp hleaves
    have hspent := (hkeeps (retrying_start config) hfront).spend hmem hfailed
    rw [run_append]
    exact ((hkeeps hspent hrest).budgeted.tried _ (List.mem_singleton.mpr rfl)).2

/-- A change that is queued online, and three passes that fail. -/
def threeFailures : List QueueOccurrence :=
  [queuedAt 1 "config-1" "first"] ++
    (List.replicate 3 [duringPass .processOfflineQueue, duringPass (.attemptSettles .error),
      duringPass .retryDelayOver]).flatten

/-- Within the bound the operation is attempted three times and marked as failed. -/
theorem attempts_bounded_three :
    (run step {} threeFailures).tries 0 ≤ 3 ∧
      (run step {} threeFailures).syncQueue.map SyncOperation.status = [.failed] :=
  ⟨(attempts_bounded {} threeFailures (by decide +kernel)).1 0, by decide +kernel⟩

/-- The next pass attempts it for the fourth time. -/
theorem failed_attempted_again :
    let failed := run step {} threeFailures
    let again := run step {} (threeFailures ++ [duringPass .processOfflineQueue])
    failed.syncQueue.map SyncOperation.status = [.failed] ∧ failed.tries 0 = 3 ∧
      again.tries 0 = 4 ∧ again.config.maxRetries = 3 := by
  decide +kernel

end Qontinui.OfflineQueue
