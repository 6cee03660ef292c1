import Qontinui.Collaboration.PassTickets

/-!
When a call of `processOfflineQueue` comes to its end with each operation attempted at most
once. Only the sort stands in the way: it throws where it compares an operation that a
restart has loaded, and then the queue stays held.
-/

namespace Qontinui.OfflineQueue

open Runs

/-- The `queuedAt` is a `Date`. -/
def HasDate (operation : SyncOperation) : Prop := ∃ time, operation.queuedAt = .date time

/-- One call of `processOfflineQueue` attempts no operation twice, whatever happens on the
way, and comes to its end with the queue released. -/
structure PassFinite (queue : OfflineQueue) (moment : Moment) : Prop where
  once : ∀ occurrences,
    ((queue.processOfflineQueue moment).passOf occurrences |>.attemptedSince
      queue.attempts.length).Nodup
  ends : ∀ events, Fair events → ∃ n,
    (after passStep (queue.processOfflineQueue moment) events n).pass = none ∧
      (after passStep (queue.processOfflineQueue moment) events n).processingQueue = false

/-- No pass has died in its sort, and a pass that starts here has nothing to sort or dates
that can be compared. -/
def Startable (queue : OfflineQueue) : Prop :=
  (queue.processingQueue = true → queue.pass ≠ none) ∧
    (queue.processingQueue = false → queue.isOnline = true →
      queue.syncQueue.length ≤ 1 ∨ ∀ operation ∈ queue.syncQueue, HasDate operation)

/-! ### The sort -/

theorem compare_dates {a b : SyncOperation} (ha : HasDate a) (hb : HasDate b) :
    ∃ order, compareOperations a b = .ok order := by
  obtain ⟨timeA, hA⟩ := ha
  obtain ⟨timeB, hB⟩ := hb
  simp only [compareOperations, hA, hB, QueuedAt.getTime]
  split
  · exact ⟨_, rfl⟩
  · exact ⟨_, rfl⟩

theorem insert_dates {operation : SyncOperation} {rest : List SyncOperation}
    (h : HasDate operation) (hrest : ∀ other ∈ rest, HasDate other) :
    ∃ sorted, insertOperation operation rest = .ok sorted := by
  induction rest with
  | nil => exact ⟨_, rfl⟩
  | cons next rest ih =>
      obtain ⟨order, horder⟩ := compare_dates h (hrest next List.mem_cons_self)
      obtain ⟨inserted, hinserted⟩ :=
        ih fun other hother => hrest other (List.mem_cons_of_mem _ hother)
      simp only [insertOperation, horder, hinserted, bind, Except.bind]
      split
      · exact ⟨_, rfl⟩
      · exact ⟨_, rfl⟩

theorem sort_dates {operations : List SyncOperation}
    (h : ∀ operation ∈ operations, HasDate operation) :
    ∃ sorted, sortQueue operations = .ok sorted := by
  induction operations with
  | nil => exact ⟨_, rfl⟩
  | cons operation rest ih =>
      obtain ⟨inner, hinner⟩ := ih fun other hother => h other (List.mem_cons_of_mem _ hother)
      have hmem : ∀ other ∈ inner, HasDate other := fun other hother =>
        h other (List.mem_cons_of_mem _ ((sort_perm hinner).mem_iff.mp hother))
      obtain ⟨sorted, hsorted⟩ := insert_dates (h operation List.mem_cons_self) hmem
      exact ⟨sorted, by simp only [sortQueue, hinner, bind, Except.bind, hsorted]⟩

theorem dates_of_compare {a b : SyncOperation} {order : Int}
    (h : compareOperations a b = .ok order) (hpriority : a.priority = b.priority) :
    HasDate a ∧ HasDate b := by
  simp only [compareOperations, hpriority, ne_eq, not_true_eq_false, if_false] at h
  cases ha : a.queuedAt <;> cases hb : b.queuedAt <;>
    simp [ha, hb, QueuedAt.getTime, bind, Except.bind, pure, Except.pure, throw, throwThe,
      MonadExceptOf.throw] at h
  exact ⟨⟨_, ha⟩, _, hb⟩

/-- A sort of several operations of one priority has compared each of them. -/
theorem dates_of_sort {operations sorted : List SyncOperation}
    (h : sortQueue operations = .ok sorted)
    (hpriority : ∀ operation ∈ operations, operation.priority = 1)
    (hlength : 2 ≤ operations.length) : ∀ operation ∈ operations, HasDate operation := by
  induction operations generalizing sorted with
  | nil => simp at hlength
  | cons operation rest ih =>
      obtain ⟨inner, hinner, hinsert⟩ := sort_cons_ok h
      have hperm := sort_perm hinner
      cases inner with
      | nil =>
          have hlen := hperm.length_eq
          simp only [List.length_nil, List.length_cons] at hlen hlength
          omega
      | cons next inner =>
          have hnext : next ∈ rest := hperm.mem_iff.mp List.mem_cons_self
          obtain ⟨order, hcompare⟩ : ∃ order, compareOperations operation next = .ok order := by
            cases hcompare : compareOperations operation next with
            | error error => simp [insertOperation, hcompare, bind, Except.bind] at hinsert
            | ok order => exact ⟨order, rfl⟩
          have hdates := dates_of_compare hcompare
            ((hpriority operation List.mem_cons_self).trans
              (hpriority next (List.mem_cons_of_mem _ hnext)).symm)
          intro other hother
          rcases List.mem_cons.mp hother with rfl | hother
          · exact hdates.1
          · by_cases hlong : 2 ≤ rest.length
            · exact ih hinner (fun other hother => hpriority other (List.mem_cons_of_mem _ hother))
                hlong other hother
            · obtain ⟨single, rfl⟩ : ∃ single, rest = [single] := by
                apply List.length_eq_one_iff.mp
                simp only [List.length_cons] at hlength
                omega
              rw [List.mem_singleton.mp hother, ← List.mem_singleton.mp hnext]
              exact hdates.2

/-! ### The pass -/

variable {queue : OfflineQueue}

theorem start_bounded (hbusy : queue.Busy) (h : queue.Startable) (moment : Moment) :
    ∃ bound, Bounded bound (queue.processOfflineQueue moment) := by
  refine ⟨max (max queue.syncQueue.length queue.config.maxQueueSize) 1, ?_⟩
  have hlength : queue.syncQueue.length ≤
      max (max queue.syncQueue.length queue.config.maxQueueSize) 1 := by omega
  have hmaximum : queue.config.maxQueueSize ≤
      max (max queue.syncQueue.length queue.config.maxQueueSize) 1 := by omega
  have hpositive : 0 < max (max queue.syncQueue.length queue.config.maxQueueSize) 1 := by omega
  have hheld : queue.processingQueue = queue.pass.isSome := by
    cases hprocessing : queue.processingQueue with
    | true => exact (Option.isSome_iff_ne_none.mpr (h.1 hprocessing)).symm
    | false =>
        cases hpass : queue.pass with
        | none => rfl
        | some pass => rw [hbusy (by simp [hpass])] at hprocessing; cases hprocessing
  simp only [processOfflineQueue]
  split
  · exact ⟨hlength, hmaximum, hpositive, hheld⟩
  · next hready =>
      simp only [Bool.or_eq_true, Bool.not_eq_true', not_or, Bool.not_eq_false,
        Bool.not_eq_true] at hready
      obtain ⟨sorted, hsort⟩ : ∃ sorted, sortQueue queue.syncQueue = .ok sorted := by
        rcases h.2 hready.1.2 hready.1.1 with hshort | hdates
        · exact ⟨_, sort_short hshort⟩
        · exact sort_dates hdates
      rw [hsort]
      have hsorted : sorted.length ≤
          max (max queue.syncQueue.length queue.config.maxQueueSize) 1 :=
        (sort_perm hsort).length_eq.trans_le hlength
      refine bounded_advance ?_ ?_ hpositive rfl 0 [] moment
      · exact hsorted
      · exact hmaximum

theorem pass_finite_of_startable (hticketed : Ticketed queue) (hbusy : queue.Busy)
    (h : queue.Startable) (moment : Moment) : PassFinite queue moment where
  once occurrences := by
    rw [pass_of_eq_run]
    have hstart : Once queue.attempts.length (queue.processOfflineQueue moment) ∧
        (queue.processOfflineQueue moment).Busy :=
      ⟨process_once hticketed hbusy moment, process_busy hbusy moment⟩
    have hrun := invariant_of_step passStep _ pass_step_once _ occurrences hstart
    obtain ⟨_, huntried, _⟩ := hrun.1.untried
    exact huntried.nodup
  ends events hfair := by
    obtain ⟨bound, hbounded⟩ := start_bounded hbusy h moment
    exact pass_ends hbounded hfair

theorem after_idle (hpass : queue.pass = none) (events : Nat → QueueOccurrence) (n : Nat) :
    after passStep queue events n = queue := by
  induction n with
  | zero => rfl
  | succ n ih =>
      rw [after, ih, passStep, hpass]
      rfl

/-- Attempts that fail and delays that are over, in turn. -/
def alternating (n : Nat) : QueueOccurrence where
  event := if n % 2 = 0 then .attemptSettles .error else .retryDelayOver
  moment := ⟨0, "", none⟩

theorem fair_alternating : Fair alternating := by
  intro n
  refine ⟨⟨n % 2, .error, ?_⟩, (n + 1) % 2, ?_⟩
  · rw [alternating, if_pos (by omega)]
  · rw [alternating, if_neg (by omega)]

theorem not_finite_of_stuck {moment : Moment}
    (hpass : (queue.processOfflineQueue moment).pass = none)
    (hheld : (queue.processOfflineQueue moment).processingQueue = true) :
    ¬ PassFinite queue moment := by
  intro hfinite
  obtain ⟨n, -, hreleased⟩ := hfinite.ends alternating fair_alternating
  rw [after_idle hpass, hheld] at hreleased
  cases hreleased

theorem startable_of_pass_finite (hpriority : queue.OnePriority) (hbusy : queue.Busy)
    (h : ∀ moment, PassFinite queue moment) : queue.Startable := by
  let moment : Moment := ⟨0, "", none⟩
  refine ⟨fun hheld hpass => ?_, fun hidle honline => ?_⟩
  · have hsame := process_busy_eq queue hheld moment
    exact not_finite_of_stuck (by rw [hsame, hpass]) (by rw [hsame, hheld]) (h moment)
  · by_contra hnot
    rw [not_or, not_le] at hnot
    obtain ⟨hlong, htext⟩ := hnot
    have hpass : queue.pass = none := by
      by_contra hsome
      rw [hbusy (Option.isSome_iff_ne_none.mpr hsome)] at hidle
      cases hidle
    have hnonempty : queue.syncQueue.isEmpty = false := by
      cases hqueue : queue.syncQueue with
      | nil => simp [hqueue] at hlong
      | cons operation rest => rfl
    have hthrows : queue.processOfflineQueue moment = { queue with processingQueue := true } := by
      simp only [processOfflineQueue, hnonempty, hidle, honline, Bool.not_true, Bool.or_self,
        Bool.false_eq_true, if_false]
      cases hsort : sortQueue queue.syncQueue with
      | error error => rfl
      | ok sorted => exact absurd (dates_of_sort hsort hpriority.queued hlong) htext
    exact not_finite_of_stuck (by rw [hthrows]; exact hpass) (by rw [hthrows]) (h moment)

end Qontinui.OfflineQueue
