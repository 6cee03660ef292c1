import Qontinui.Collaboration.OfflineQueue
import Qontinui.Base.Runs

/-!
The order of pushes. An operation that fails stays in the queue while the pass goes on,
so a later change of the same resource overtakes it, unless it comes alone. Sorting does
not reorder changes of one resource as long as the clock does not run backwards.
-/

namespace Qontinui.OfflineQueue

open Runs

def SameResource (a b : SyncOperation) : Prop :=
  a.resourceType = b.resourceType ∧ a.resourceId = b.resourceId

instance (a b : SyncOperation) : Decidable (SameResource a b) :=
  inferInstanceAs (Decidable (_ ∧ _))

/-- Of two pushes of one resource, the first pushed was queued first. -/
def PushedInOrder (queue : OfflineQueue) : Prop :=
  queue.pushed.Pairwise fun earlier later =>
    SameResource earlier later → earlier.ticket ≤ later.ticket

instance (queue : OfflineQueue) : Decidable queue.PushedInOrder :=
  inferInstanceAs (Decidable (List.Pairwise _ _))

/-- The time of a `queuedAt`, however it is stored. -/
def queuedTime : QueuedAt → Int
  | .date time => time
  | .text time => time

/-- The operations a pass has left behind: all before the one it holds, and that one too
once its attempt has failed. -/
def passedCount (pass : Pass) : Nat :=
  if pass.waiting then pass.nextIndex else pass.nextIndex - 1

def GoesOnOnline (queue : OfflineQueue) (index : Nat) : Prop :=
  queue.isOnline = true ∨
    ∀ operation ∈ queue.syncQueue.drop index, operation.status = .completed

/-- A change is queued no earlier than those of its resource, and during a pass only with
room left and with no open change of its resource left behind. An attempt fails only when
no later change of its resource is queued, and a pass goes on online. -/
def KeepsOrder (queue : OfflineQueue) (occurrence : QueueOccurrence) : Prop :=
  match occurrence.event with
  | .queueOfflineChange change =>
      (∀ operation ∈ queue.syncQueue,
        operation.resourceType = change.resourceType → operation.resourceId = change.resourceId →
        queuedTime operation.queuedAt ≤ occurrence.moment.now) ∧
      ∀ pass, queue.pass = some pass →
        queue.syncQueue.length < queue.config.maxQueueSize ∧
        ∀ operation ∈ queue.syncQueue.take (passedCount pass), operation.status ≠ .completed →
          ¬ (operation.resourceType = change.resourceType ∧
            operation.resourceId = change.resourceId)
  | .attemptSettles outcome =>
      ∀ pass, queue.pass = some pass → pass.waiting = false →
        (outcome ≠ .success → ∀ operation ∈ queue.syncQueue.drop pass.nextIndex,
          ¬ SameResource pass.operation operation) ∧
        (outcome ≠ .error → queue.GoesOnOnline pass.nextIndex)
  | .retryDelayOver =>
      ∀ pass, queue.pass = some pass → pass.waiting = true → queue.GoesOnOnline pass.nextIndex
  | _ => True

/-- What no attempt changes of an operation. -/
structure Entry where
  resourceType : ResourceType
  resourceId : String
  priority : Int
  queuedAt : QueuedAt
  ticket : Nat

def entry (operation : SyncOperation) : Entry where
  resourceType := operation.resourceType
  resourceId := operation.resourceId
  priority := operation.priority
  queuedAt := operation.queuedAt
  ticket := operation.ticket

/-- Of one resource, the first was queued before the second and at an earlier time. -/
def Entry.Before (a b : Entry) : Prop :=
  a.resourceType = b.resourceType → a.resourceId = b.resourceId →
    a.ticket < b.ticket ∧ queuedTime a.queuedAt ≤ queuedTime b.queuedAt

/-- The entries of a queue: of one priority, known to the counter and in order. -/
structure EntriesOrdered (tickets : Nat) (entries : List Entry) : Prop where
  priority : ∀ entry ∈ entries, entry.priority = 1
  ticket : ∀ entry ∈ entries, entry.ticket < tickets
  order : entries.Pairwise Entry.Before

theorem EntriesOrdered.sublist {tickets : Nat} {entries rest : List Entry}
    (h : EntriesOrdered tickets entries) (hrest : rest.Sublist entries) :
    EntriesOrdered tickets rest where
  priority entry hentry := h.priority entry (hrest.subset hentry)
  ticket entry hentry := h.ticket entry (hrest.subset hentry)
  order := h.order.sublist hrest

variable {operations rest sorted pushed : List SyncOperation} {tickets index : Nat}
  {operation written : SyncOperation} {queue : OfflineQueue} {a b : SyncOperation} {count : Nat}

theorem EntriesOrdered.earlier (h : EntriesOrdered tickets (operations.map entry)) {i j : Nat}
    (hlt : i < j) (ha : operations[i]? = some a) (hb : operations[j]? = some b) :
    (entry a).Before (entry b) := by
  have horder := List.pairwise_map.mp h.order
  obtain ⟨hi, rfl⟩ := List.getElem?_eq_some_iff.mp ha
  obtain ⟨hj, rfl⟩ := List.getElem?_eq_some_iff.mp hb
  exact List.pairwise_iff_getElem.mp horder i j hi hj hlt

theorem compare_time {order : Int} (h : compareOperations a b = .ok order)
    (hpriority : a.priority = b.priority) :
    order = queuedTime a.queuedAt - queuedTime b.queuedAt := by
  simp only [compareOperations, hpriority, ne_eq, not_true_eq_false, if_false] at h
  cases hqueued : a.queuedAt <;> cases hqueued' : b.queuedAt <;>
    simp [hqueued, hqueued', QueuedAt.getTime, bind, Except.bind, pure, Except.pure, throw,
      throwThe, MonadExceptOf.throw] at h
  rw [← h]
  rfl

theorem insert_cons_cases {next : SyncOperation}
    (h : insertOperation operation (next :: rest) = .ok sorted) :
    sorted = operation :: next :: rest ∨
      ∃ order inserted, compareOperations operation next = .ok order ∧ 0 < order ∧
        insertOperation operation rest = .ok inserted ∧ sorted = next :: inserted := by
  simp only [insertOperation] at h
  cases hcompare : compareOperations operation next with
  | error error => simp [hcompare, bind, Except.bind] at h
  | ok order =>
      simp only [hcompare, bind, Except.bind] at h
      split at h
      · cases h
        exact Or.inl rfl
      · next hlater =>
          cases hinsert : insertOperation operation rest with
          | error error => simp [hinsert] at h
          | ok inserted =>
              simp only [hinsert] at h
              cases h
              exact Or.inr ⟨order, inserted, rfl, by omega, rfl, rfl⟩

theorem insert_perm (h : insertOperation operation rest = .ok sorted) :
    sorted.Perm (operation :: rest) := by
  induction rest generalizing sorted with
  | nil =>
      simp only [insertOperation] at h
      cases h
      exact List.Perm.refl _
  | cons next rest ih =>
      rcases insert_cons_cases h with rfl | ⟨order, inserted, -, -, hinsert, rfl⟩
      · exact List.Perm.refl _
      · exact ((ih hinsert).cons next).trans (List.Perm.swap operation next rest)

theorem sort_cons_ok (h : sortQueue (operation :: rest) = .ok sorted) :
    ∃ inner, sortQueue rest = .ok inner ∧ insertOperation operation inner = .ok sorted := by
  simp only [sortQueue] at h
  cases htail : sortQueue rest with
  | error error => simp [htail, bind, Except.bind] at h
  | ok inner =>
      simp only [htail, bind, Except.bind] at h
      exact ⟨inner, rfl, h⟩

theorem sort_perm (h : sortQueue operations = .ok sorted) : sorted.Perm operations := by
  induction operations generalizing sorted with
  | nil =>
      cases h
      exact List.Perm.refl _
  | cons operation rest ih =>
      obtain ⟨inner, hinner, hinsert⟩ := sort_cons_ok h
      exact (insert_perm hinsert).trans ((ih hinner).cons operation)

/-- Inserting an operation before those it was queued before keeps the order. -/
theorem insert_ordered (h : insertOperation operation rest = .ok sorted)
    (hpriority : ∀ next ∈ operation :: rest, next.priority = 1)
    (horder : (operation :: rest).Pairwise fun a b => (entry a).Before (entry b)) :
    sorted.Pairwise fun a b => (entry a).Before (entry b) := by
  induction rest generalizing sorted with
  | nil =>
      simp only [insertOperation] at h
      cases h
      exact horder
  | cons next rest ih =>
      obtain ⟨hfirst, hrest⟩ := List.pairwise_cons.mp horder
      obtain ⟨hnext, htail⟩ := List.pairwise_cons.mp hrest
      have hskip : ∀ other ∈ operation :: rest, other ∈ operation :: next :: rest := by
        intro other hother
        rcases List.mem_cons.mp hother with rfl | hother
        · exact List.mem_cons_self
        · exact List.mem_cons_of_mem _ (List.mem_cons_of_mem _ hother)
      rcases insert_cons_cases h with rfl | ⟨order, inserted, hcompare, hlater, hinsert, rfl⟩
      · exact horder
      · have hsorted := ih hinsert
          (fun other hother => hpriority other (hskip other hother))
          (List.pairwise_cons.mpr
            ⟨fun other hother => hfirst other (List.mem_cons_of_mem _ hother), htail⟩)
        refine List.pairwise_cons.mpr ⟨fun other hother => ?_, hsorted⟩
        rcases List.mem_cons.mp ((insert_perm hinsert).mem_iff.mp hother) with rfl | hother
        · -- what is queued at a later time is of another resource
          intro htype hid
          have htime := (hfirst next List.mem_cons_self htype.symm hid.symm).2
          have hsame := (hpriority _ List.mem_cons_self).trans
            (hpriority next (List.mem_cons_of_mem _ List.mem_cons_self)).symm
          have horder := compare_time hcompare hsame
          simp only [entry] at htime
          omega
        · exact hnext other hother

theorem sort_ordered (h : sortQueue operations = .ok sorted)
    (hpriority : ∀ operation ∈ operations, operation.priority = 1)
    (horder : operations.Pairwise fun a b => (entry a).Before (entry b)) :
    sorted.Pairwise fun a b => (entry a).Before (entry b) := by
  induction operations generalizing sorted with
  | nil =>
      cases h
      exact horder
  | cons operation rest ih =>
      obtain ⟨hfirst, hrest⟩ := List.pairwise_cons.mp horder
      obtain ⟨inner, hinner, hinsert⟩ := sort_cons_ok h
      have hperm := sort_perm hinner
      have hsorted := ih hinner
        (fun other hother => hpriority other (List.mem_cons_of_mem _ hother)) hrest
      exact insert_ordered hinsert
        (fun other hother => hpriority other ((hperm.cons operation).mem_iff.mp hother))
        (List.pairwise_cons.mpr
          ⟨fun other hother => hfirst other (hperm.mem_iff.mp hother), hsorted⟩)

theorem sort_entries (h : sortQueue operations = .ok sorted)
    (hentries : EntriesOrdered tickets (operations.map entry)) :
    EntriesOrdered tickets (sorted.map entry) := by
  have hmem : ∀ other ∈ sorted.map entry, other ∈ operations.map entry :=
    fun other hother => ((sort_perm h).map entry).mem_iff.mp hother
  have hsorted := sort_ordered h
    (fun operation hoperation => hentries.priority (entry operation)
      (List.mem_map_of_mem hoperation))
    (List.pairwise_map.mp hentries.order)
  exact ⟨fun other hother => hentries.priority other (hmem other hother),
    fun other hother => hentries.ticket other (hmem other hother),
    List.pairwise_map.mpr hsorted⟩

/-- The order of a queue and of the pushes before it: no open operation is older than a
push of its resource. -/
structure QueueOrdered (tickets : Nat) (operations pushed : List SyncOperation) : Prop where
  entries : EntriesOrdered tickets (operations.map entry)
  known : ∀ push ∈ pushed, push.ticket < tickets
  pushes : pushed.Pairwise fun earlier later =>
    SameResource earlier later → earlier.ticket ≤ later.ticket
  ahead : ∀ push ∈ pushed, ∀ operation ∈ operations, operation.status ≠ .completed →
    SameResource push operation → push.ticket ≤ operation.ticket

/-- No open operation before an index has one of its resource at or after it. -/
def LeftBehind (operations : List SyncOperation) (count : Nat) : Prop :=
  ∀ i j a b, i < count → count ≤ j → operations[i]? = some a → operations[j]? = some b →
    a.status ≠ .completed → ¬ SameResource a b

/-- A pass over an ordered queue holds an open operation of the queue. -/
structure PassOrdered (queue : OfflineQueue) (pass : Pass) : Prop where
  busy : queue.processingQueue = true
  nextIndex : 0 < pass.nextIndex
  position : pass.position = some (pass.nextIndex - 1)
  held : queue.syncQueue[pass.nextIndex - 1]? = some pass.operation
  unfinished : pass.operation.status ≠ .completed
  behind : LeftBehind queue.syncQueue (passedCount pass)

structure Ordered (queue : OfflineQueue) : Prop where
  operations : QueueOrdered queue.tickets queue.syncQueue queue.pushed
  pass : ∀ pass, queue.pass = some pass → PassOrdered queue pass

theorem QueueOrdered.sublist {tickets : Nat} {operations rest pushed : List SyncOperation}
    (h : QueueOrdered tickets operations pushed) (hrest : rest.Sublist operations) :
    QueueOrdered tickets rest pushed where
  entries := h.entries.sublist (hrest.map entry)
  known := h.known
  pushes := h.pushes
  ahead push hpush operation hoperation :=
    h.ahead push hpush operation (hrest.subset hoperation)

theorem map_entry_set (hindex : operations[index]? = some operation)
    (hentry : entry written = entry operation) :
    (operations.set index written).map entry = operations.map entry := by
  obtain ⟨hlt, rfl⟩ := List.getElem?_eq_some_iff.mp hindex
  rw [List.map_set, hentry, ← List.map_set, List.set_getElem_self]

theorem QueueOrdered.set (h : QueueOrdered tickets operations pushed)
    (hindex : operations[index]? = some operation) (hentry : entry written = entry operation)
    (hopen : operation.status ≠ .completed) :
    QueueOrdered tickets (operations.set index written) pushed where
  entries := by
    rw [map_entry_set hindex hentry]
    exact h.entries
  known := h.known
  pushes := h.pushes
  ahead push hpush other hother hstatus hsame := by
    rcases List.mem_or_eq_of_mem_set hother with hother | rfl
    · exact h.ahead push hpush other hother hstatus hsame
    · have hticket : other.ticket = operation.ticket := congrArg Entry.ticket hentry
      have htype : other.resourceType = operation.resourceType := congrArg Entry.resourceType hentry
      have hid : other.resourceId = operation.resourceId := congrArg Entry.resourceId hentry
      rw [hticket]
      exact h.ahead push hpush operation (List.mem_of_getElem? hindex) hopen
        ⟨hsame.1.trans htype, hsame.2.trans hid⟩

theorem same_resource_congr {c : SyncOperation} (h : entry b = entry c) :
    SameResource a b ↔ SameResource a c := by
  have htype : b.resourceType = c.resourceType := congrArg Entry.resourceType h
  have hid : b.resourceId = c.resourceId := congrArg Entry.resourceId h
  rw [SameResource, SameResource, htype, hid]

theorem LeftBehind.zero (operations : List SyncOperation) : LeftBehind operations 0 :=
  fun i _ _ _ hi _ _ _ _ => absurd hi (Nat.not_lt_zero i)

theorem LeftBehind.skip {next : Nat} (h : LeftBehind operations count) (hle : count ≤ next)
    (hdone : ∀ i a, count ≤ i → i < next → operations[i]? = some a → a.status = .completed) :
    LeftBehind operations next := by
  intro i j a b hi hj ha hb hopen
  by_cases hcount : i < count
  · exact h i j a b hcount (by omega) ha hb hopen
  · exact absurd (hdone i a (by omega) hi ha) hopen

theorem LeftBehind.set (h : LeftBehind operations count) (hle : count ≤ index)
    (hindex : operations[index]? = some operation) (hentry : entry written = entry operation) :
    LeftBehind (operations.set index written) count := by
  intro i j a b hi hj ha hb hopen
  rw [List.getElem?_set_ne (by omega)] at ha
  by_cases hsame : index = j
  · subst hsame
    have hb : written = b := by
      rw [List.getElem?_set_self (List.getElem?_eq_some_iff.mp hindex).1] at hb
      exact Option.some.inj hb
    rw [← hb, same_resource_congr hentry]
    exact h i index a operation hi hj ha hindex hopen
  · rw [List.getElem?_set_ne hsame] at hb
    exact h i j a b hi hj ha hb hopen

theorem LeftBehind.pass (h : LeftBehind operations index)
    (hindex : operations[index]? = some operation) (hentry : entry written = entry operation)
    (hlast : written.status ≠ .completed →
      ∀ j b, index < j → operations[j]? = some b → ¬ SameResource operation b) :
    LeftBehind (operations.set index written) (index + 1) := by
  intro i j a b hi hj ha hb hopen
  rw [List.getElem?_set_ne (by omega)] at hb
  by_cases hsame : index = i
  · subst hsame
    rw [List.getElem?_set_self (List.getElem?_eq_some_iff.mp hindex).1] at ha
    cases ha
    intro hresource
    have htype : written.resourceType = operation.resourceType :=
      congrArg Entry.resourceType hentry
    have hid : written.resourceId = operation.resourceId := congrArg Entry.resourceId hentry
    exact hlast hopen j b (by omega) hb
      ⟨htype.symm.trans hresource.1, hid.symm.trans hresource.2⟩
  · rw [List.getElem?_set_ne hsame] at ha
    exact h i j a b (by omega) (by omega) ha hb hopen

theorem next_attempt_some {next : Nat} {ids ids' : List String}
    (h : nextAttempt index ids rest = (some (next, operation), ids')) :
    ∃ skipped, next = index + skipped ∧ rest[skipped]? = some operation ∧
      operation.status ≠ .completed ∧
      ∀ i a, i < skipped → rest[i]? = some a → a.status = .completed := by
  induction rest generalizing index ids with
  | nil => simp [nextAttempt] at h
  | cons first rest ih =>
      simp only [nextAttempt] at h
      split at h
      · next hdone =>
          obtain ⟨skipped, hnext, hget, hopen, hskipped⟩ := ih h
          refine ⟨skipped + 1, by omega, hget, hopen, ?_⟩
          intro i a hi ha
          cases i with
          | zero =>
              cases ha
              exact hdone
          | succ i => exact hskipped i a (by omega) ha
      · next hopen =>
          cases h
          exact ⟨0, rfl, rfl, hopen, fun i _ hi => absurd hi (Nat.not_lt_zero i)⟩

theorem start_attempt_ordered (h : QueueOrdered queue.tickets queue.syncQueue queue.pushed)
    (hbehind : LeftBehind queue.syncQueue index) (hindex : queue.syncQueue[index]? = some operation)
    (hopen : operation.status ≠ .completed) (hbusy : queue.processingQueue = true)
    (honline : queue.isOnline = true) (ids : List String) (moment : Moment) :
    Ordered (queue.startAttempt index operation ids moment) := by
  have hlt := (List.getElem?_eq_some_iff.mp hindex).1
  simp only [startAttempt, honline, if_true, writeBack]
  constructor
  · exact h.set hindex rfl hopen
  · rintro pass ⟨⟩
    exact {
      busy := hbusy
      nextIndex := Nat.succ_pos index
      position := rfl
      held := List.getElem?_set_self hlt
      unfinished := by simp
      behind := hbehind.set (Nat.le_refl index) hindex rfl }

theorem finish_pass_ordered (h : QueueOrdered queue.tickets queue.syncQueue queue.pushed)
    (ids : List String) : Ordered (queue.finishPass ids) where
  operations := h.sublist List.filter_sublist
  pass _ hpass := by cases hpass

/-- The loop goes on: over, or with the next operation that is not completed. -/
theorem advance_cases (queue : OfflineQueue) (index : Nat) (ids : List String) (moment : Moment) :
    (∃ ids', queue.advance index ids moment = queue.finishPass ids') ∨
      ∃ skipped operation ids',
        queue.advance index ids moment =
          queue.startAttempt (index + skipped) operation ids' moment ∧
        queue.syncQueue[index + skipped]? = some operation ∧ operation.status ≠ .completed ∧
        ∀ i a, index ≤ i → i < index + skipped → queue.syncQueue[i]? = some a →
          a.status = .completed := by
  simp only [advance]
  cases hnext : nextAttempt index ids (queue.syncQueue.drop index) with
  | mk attempt ids' =>
      cases attempt with
      | none => exact .inl ⟨ids', rfl⟩
      | some found =>
          obtain ⟨next, operation⟩ := found
          obtain ⟨skipped, rfl, hget, hopen, hskipped⟩ := next_attempt_some hnext
          rw [List.getElem?_drop] at hget
          refine .inr ⟨skipped, operation, ids', rfl, hget, hopen, fun i a hi hlt ha => ?_⟩
          apply hskipped (i - index) a (by omega)
          rw [List.getElem?_drop, Nat.add_sub_cancel' hi]
          exact ha

theorem advance_ordered (h : QueueOrdered queue.tickets queue.syncQueue queue.pushed)
    (hbehind : LeftBehind queue.syncQueue index) (hbusy : queue.processingQueue = true)
    (honline : queue.GoesOnOnline index) (ids : List String) (moment : Moment) :
    Ordered (queue.advance index ids moment) := by
  rcases advance_cases queue index ids moment with
    ⟨ids', heq⟩ | ⟨skipped, operation, ids', heq, hget, hopen, hskipped⟩ <;> rw [heq]
  · exact finish_pass_ordered h ids'
  · have hready : queue.isOnline = true := by
      rcases honline with honline | hdone
      · exact honline
      · have hmem := List.mem_of_getElem? (List.getElem?_drop.trans hget)
        exact absurd (hdone operation hmem) hopen
    exact start_attempt_ordered h (hbehind.skip (Nat.le_add_right _ _) hskipped) hget hopen hbusy
      hready ids' moment

theorem PassOrdered.awaiting {pass : Pass} (h : PassOrdered queue pass)
    (hwaiting : pass.waiting = false) :
    ∃ index, pass.nextIndex = index + 1 ∧ pass.position = some index ∧
      queue.syncQueue[index]? = some pass.operation ∧ LeftBehind queue.syncQueue index := by
  have hbehind := h.behind
  have hpositive := h.nextIndex
  simp only [passedCount, hwaiting] at hbehind
  exact ⟨pass.nextIndex - 1, by omega, h.position, h.held, hbehind⟩

/-- A successful push is the oldest open one of its resource. -/
theorem QueueOrdered.push {tickets : Nat} {operations pushed : List SyncOperation}
    (h : QueueOrdered tickets operations pushed) {index : Nat}
    {operation completed : SyncOperation} (hindex : operations[index]? = some operation)
    (hentry : entry completed = entry operation) (hopen : operation.status ≠ .completed)
    (hdone : completed.status = .completed) (hbehind : LeftBehind operations index) :
    QueueOrdered tickets (operations.set index completed) (pushed ++ [completed]) := by
  have hticket : completed.ticket = operation.ticket := congrArg Entry.ticket hentry
  have hset := h.set hindex hentry hopen
  have hknown : operation.ticket < tickets :=
    h.entries.ticket (entry operation) (List.mem_map_of_mem (List.mem_of_getElem? hindex))
  refine { entries := hset.entries, known := ?_, pushes := ?_, ahead := ?_ }
  · intro push hpush
    rcases List.mem_append.mp hpush with hpush | hpush
    · exact h.known push hpush
    · rw [List.mem_singleton.mp hpush, hticket]
      exact hknown
  · refine List.pairwise_append.mpr ⟨h.pushes, List.pairwise_singleton _ _, ?_⟩
    intro push hpush last hlast hsame
    rw [List.mem_singleton.mp hlast] at hsame ⊢
    rw [hticket]
    exact h.ahead push hpush operation (List.mem_of_getElem? hindex) hopen
      ((same_resource_congr hentry).mp hsame)
  · intro push hpush other hother hstatus hsame
    rcases List.mem_append.mp hpush with hpush | hpush
    · exact hset.ahead push hpush other hother hstatus hsame
    · rw [List.mem_singleton.mp hpush] at hsame ⊢
      obtain ⟨j, hj⟩ := List.mem_iff_getElem?.mp hother
      have hne : index ≠ j := by
        rintro rfl
        rw [List.getElem?_set_self (List.getElem?_eq_some_iff.mp hindex).1] at hj
        cases hj
        exact hstatus hdone
      rw [List.getElem?_set_ne hne] at hj
      have hresource : SameResource operation other := by
        have htype : completed.resourceType = operation.resourceType :=
          congrArg Entry.resourceType hentry
        have hid : completed.resourceId = operation.resourceId := congrArg Entry.resourceId hentry
        exact ⟨htype.symm.trans hsame.1, hid.symm.trans hsame.2⟩
      rcases Nat.lt_or_gt_of_ne hne with hlater | hearlier
      · have hbefore := h.entries.earlier hlater hindex hj hresource.1 hresource.2
        rw [hticket]
        exact Nat.le_of_lt hbefore.1
      · exact absurd ⟨hresource.1.symm, hresource.2.symm⟩
          (hbehind j index other operation hearlier (Nat.le_refl _) hj hindex hstatus)

theorem goes_on_written {pass : Pass} (h : queue.GoesOnOnline (index + 1))
    (hposition : pass.position = some index) : (queue.writeBack pass).GoesOnOnline (index + 1) := by
  simp only [GoesOnOnline, writeBack, hposition,
    List.drop_set_of_lt (Nat.lt_succ_self index)]
  exact h

theorem go_on_ordered (pass : Pass) (hheld : queue.syncQueue[index]? = some operation)
    (hentry : entry pass.operation = entry operation) (hbehind : LeftBehind queue.syncQueue index)
    (hlast : pass.operation.status ≠ .completed →
      ∀ j b, index < j → queue.syncQueue[j]? = some b → ¬ SameResource operation b)
    (hbusy : queue.processingQueue = true) (honline : queue.GoesOnOnline (index + 1))
    (hposition : pass.position = some index)
    (hordered : QueueOrdered queue.tickets (queue.syncQueue.set index pass.operation) pushed)
    (ids : List String) (moment : Moment) :
    Ordered (advance { queue.writeBack pass with pushed := pushed } (index + 1) ids moment) := by
  have hqueue : (queue.writeBack pass).syncQueue = queue.syncQueue.set index pass.operation := by
    simp only [writeBack, hposition]
  have hready : GoesOnOnline { queue.writeBack pass with pushed := pushed } (index + 1) :=
    goes_on_written honline hposition
  refine advance_ordered ?_ ?_ ?_ hready ids moment
  · simp only [hqueue]
    exact hordered
  · simp only [hqueue]
    exact hbehind.pass hheld hentry hlast
  · exact hbusy

theorem failed_open (queue : OfflineQueue) (operation : SyncOperation) :
    (queue.failedOperation operation).status ≠ .completed := by
  simp only [failedOperation]
  split <;> simp

theorem retry_later_ordered (h : Ordered queue) {pass : Pass} (hpass : queue.pass = some pass)
    (hnext : pass.nextIndex = index + 1) (hbehind : LeftBehind queue.syncQueue index)
    (hlast : ∀ j b, index < j → queue.syncQueue[j]? = some b →
      ¬ SameResource pass.operation b) : Ordered queue.retryLater := by
  have hordered := h.pass pass hpass
  have hposition : pass.position = some index := by
    rw [hordered.position, hnext, Nat.add_sub_cancel]
  have hheld : queue.syncQueue[index]? = some pass.operation := by
    rw [← hordered.held, hnext, Nat.add_sub_cancel]
  simp only [retryLater, hpass, writeBack, hposition]
  constructor
  · exact h.operations.set hheld rfl hordered.unfinished
  · rintro after ⟨⟩
    exact {
      busy := hordered.busy
      nextIndex := hordered.nextIndex
      position := by simp only [hnext, Nat.add_sub_cancel]
      held := by
        simp only [hnext, Nat.add_sub_cancel]
        exact List.getElem?_set_self (List.getElem?_eq_some_iff.mp hheld).1
      unfinished := failed_open queue pass.operation
      behind := by
        simp only [passedCount, if_true, hnext]
        exact hbehind.pass hheld rfl fun _ => hlast }

/-- The operation that a pass holds, once its attempt has succeeded. -/
def completedPass (pass : Pass) : Pass :=
  { pass with operation := { pass.operation with status := .completed } }

def failedPass (queue : OfflineQueue) (pass : Pass) : Pass :=
  { pass with operation := queue.failedOperation pass.operation }

theorem settle_eq {pass : Pass} (hpass : queue.pass = some pass) (hwaiting : pass.waiting = false)
    (outcome : SyncOutcome) (moment : Moment) :
    queue.settleAttempt outcome moment =
      match outcome with
      | .success =>
          advance { queue.writeBack (completedPass pass) with
            pushed := queue.pushed ++ [(completedPass pass).operation] } pass.nextIndex
            (pass.processedIds ++ [pass.operation.id]) moment
      | .conflict =>
          (queue.writeBack (queue.failedPass pass)).advance pass.nextIndex pass.processedIds
            moment
      | .error => queue.retryLater := by
  simp only [settleAttempt, hpass, hwaiting, Bool.false_eq_true, if_false]
  cases outcome <;> rfl

theorem settle_idle (h : ∀ pass, queue.pass = some pass → pass.waiting = true)
    (outcome : SyncOutcome) (moment : Moment) : queue.settleAttempt outcome moment = queue := by
  cases hpass : queue.pass with
  | none => simp only [settleAttempt, hpass]
  | some pass => simp only [settleAttempt, hpass, h pass hpass, if_true]

/-- An outcome says something only to a pass that awaits one. -/
theorem settle_keeps {P : OfflineQueue → Prop} (h : P queue) {outcome : SyncOutcome}
    {moment : Moment} (hawaits : ∀ pass, queue.pass = some pass → pass.waiting = false →
      P (queue.settleAttempt outcome moment)) : P (queue.settleAttempt outcome moment) := by
  by_cases hidle : ∀ pass, queue.pass = some pass → pass.waiting = true
  · rw [settle_idle hidle]
    exact h
  · push Not at hidle
    obtain ⟨pass, hpass, hwaiting⟩ := hidle
    exact hawaits pass hpass (Bool.eq_false_iff.mpr hwaiting)

theorem settle_ordered (h : Ordered queue) (outcome : SyncOutcome) (moment : Moment)
    (hkeeps : queue.KeepsOrder ⟨.attemptSettles outcome, moment⟩) :
    Ordered (queue.settleAttempt outcome moment) := by
  refine settle_keeps h fun pass hpass hwaiting => ?_
  obtain ⟨hlast, honline⟩ := hkeeps pass hpass hwaiting
  have hordered := h.pass pass hpass
  obtain ⟨index, hnext, hposition, hheld, hbehind⟩ := hordered.awaiting hwaiting
  rw [hnext] at hlast honline
  have hfollows : outcome ≠ .success → ∀ j b, index < j → queue.syncQueue[j]? = some b →
      ¬ SameResource pass.operation b := by
    intro hfailed j b hlt hb
    have hdrop : (queue.syncQueue.drop (index + 1))[j - (index + 1)]? = some b := by
      rw [List.getElem?_drop, Nat.add_sub_cancel' hlt]
      exact hb
    exact hlast hfailed b (List.mem_of_getElem? hdrop)
  rw [settle_eq hpass hwaiting]
  cases outcome with
  | success =>
      simp only [hnext]
      exact go_on_ordered (completedPass pass) hheld rfl hbehind
        (fun hopen => absurd rfl hopen) hordered.busy (honline (by decide)) hposition
        (h.operations.push hheld rfl hordered.unfinished rfl hbehind) _ moment
  | conflict =>
      simp only [hnext]
      exact go_on_ordered (queue.failedPass pass) hheld rfl hbehind
        (fun _ => hfollows (by decide)) hordered.busy (honline (by decide)) hposition
        (h.operations.set hheld rfl hordered.unfinished) _ moment
  | error => exact retry_later_ordered h hpass hnext hbehind (hfollows (by decide))

theorem resume_ordered (h : Ordered queue) (moment : Moment)
    (hkeeps : queue.KeepsOrder ⟨.retryDelayOver, moment⟩) : Ordered (queue.resumePass moment) := by
  cases hpass : queue.pass with
  | none =>
      simp only [resumePass, hpass]
      exact h
  | some pass =>
      cases hwaiting : pass.waiting with
      | false =>
          simp only [resumePass, hpass, hwaiting]
          exact h
      | true =>
          have hordered := h.pass pass hpass
          have hbehind := hordered.behind
          simp only [passedCount, hwaiting, if_true] at hbehind
          simp only [resumePass, hpass, hwaiting, if_true]
          exact advance_ordered h.operations hbehind hordered.busy (hkeeps pass hpass hwaiting)
            pass.processedIds moment

/-- A new operation at the end, queued no earlier than those of its resource. -/
theorem QueueOrdered.append (h : QueueOrdered tickets operations pushed)
    (hpriority : operation.priority = 1) (hticket : operation.ticket = tickets)
    (htime : ∀ other ∈ operations, SameResource other operation →
      queuedTime other.queuedAt ≤ queuedTime operation.queuedAt) :
    QueueOrdered (tickets + 1) (operations ++ [operation]) pushed where
  entries := {
    priority := by
      intro other hother
      rw [List.map_append] at hother
      rcases List.mem_append.mp hother with hother | hother
      · exact h.entries.priority other hother
      · rw [List.mem_singleton.mp hother]
        exact hpriority
    ticket := by
      intro other hother
      rw [List.map_append] at hother
      rcases List.mem_append.mp hother with hother | hother
      · exact Nat.lt_succ_of_lt (h.entries.ticket other hother)
      · rw [List.mem_singleton.mp hother]
        simp only [entry, hticket]
        exact Nat.lt_succ_self tickets
    order := by
      rw [List.map_append]
      refine List.pairwise_append.mpr ⟨h.entries.order, List.pairwise_singleton _ _, ?_⟩
      intro earlier hearlier last hlast htype hid
      obtain ⟨other, hother, rfl⟩ := List.mem_map.mp hearlier
      rw [List.mem_singleton.mp hlast] at htype hid ⊢
      refine ⟨?_, htime other hother ⟨htype, hid⟩⟩
      simp only [entry, hticket]
      exact h.entries.ticket (entry other) hearlier }
  known push hpush := Nat.lt_succ_of_lt (h.known push hpush)
  pushes := h.pushes
  ahead push hpush other hother hopen hsame := by
    rcases List.mem_append.mp hother with hother | hother
    · exact h.ahead push hpush other hother hopen hsame
    · rw [List.mem_singleton.mp hother, hticket]
      exact Nat.le_of_lt (h.known push hpush)

theorem LeftBehind.append (h : LeftBehind operations count) (hcount : count ≤ operations.length)
    (hnone : ∀ other ∈ operations.take count, other.status ≠ .completed →
      ¬ SameResource other operation) : LeftBehind (operations ++ [operation]) count := by
  intro i j a b hi hj ha hb hopen
  rw [List.getElem?_append_left (by omega)] at ha
  rcases Nat.lt_or_ge j operations.length with hlt | hge
  · rw [List.getElem?_append_left hlt] at hb
    exact h i j a b hi hj ha hb hopen
  · rw [List.getElem?_append_right hge] at hb
    have hlast : b = operation := List.mem_singleton.mp (List.mem_of_getElem? hb)
    have htake : (operations.take count)[i]? = some a := by
      rw [List.getElem?_take_of_lt hi]
      exact ha
    rw [hlast]
    exact hnone a (List.mem_of_getElem? htake) hopen

def newOperation (queue : OfflineQueue) (change : Change) (now : Int) : SyncOperation where
  id := change.id
  type := change.type
  resourceType := change.resourceType
  resourceId := change.resourceId
  change := change
  priority := 1
  retryCount := 0
  queuedAt := .date now
  status := .queued
  ticket := queue.tickets

/-- A queue that has taken an operation, under the next ticket. -/
def appended (queue : OfflineQueue) (operation : SyncOperation) : OfflineQueue :=
  saveQueueToStorage { queue with
    syncQueue := queue.syncQueue ++ [operation]
    tickets := queue.tickets + 1 }

theorem queue_change_cases (queue : OfflineQueue) (change : Change) (now : Int) :
    queue.queueOfflineChange change now = queue ∨
      queue.syncQueue.length < queue.config.maxQueueSize ∧
        queue.queueOfflineChange change now = queue.appended (queue.newOperation change now) ∨
      queue.config.maxQueueSize ≤ queue.syncQueue.length ∧
        queue.queueOfflineChange change now =
          queue.shift.appended (queue.newOperation change now) := by
  simp only [queueOfflineChange]
  split
  · exact .inl rfl
  · split
    · next hfull => exact .inr (.inr ⟨hfull, rfl⟩)
    · next hroom => exact .inr (.inl ⟨Nat.lt_of_not_le hroom, rfl⟩)

theorem queue_change_ordered (h : Ordered queue) (change : Change) (moment : Moment)
    (hkeeps : queue.KeepsOrder ⟨.queueOfflineChange change, moment⟩) :
    Ordered (queue.queueOfflineChange change moment.now) := by
  obtain ⟨htime, hduring⟩ := hkeeps
  rcases queue_change_cases queue change moment.now with heq | ⟨-, heq⟩ | ⟨hfull, heq⟩ <;> rw [heq]
  · exact h
  · constructor
    · exact h.operations.append rfl rfl fun other hother hsame =>
        htime other hother hsame.1 hsame.2
    · intro pass hpass
      have hordered := h.pass pass hpass
      have hlt := (List.getElem?_eq_some_iff.mp hordered.held).1
      have hcount : passedCount pass ≤ queue.syncQueue.length := by
        have hpositive := hordered.nextIndex
        simp only [passedCount]
        split <;> omega
      exact {
        busy := hordered.busy
        nextIndex := hordered.nextIndex
        position := hordered.position
        held := (List.getElem?_append_left hlt).trans hordered.held
        unfinished := hordered.unfinished
        behind := hordered.behind.append hcount (hduring pass hpass).2 }
  · have htail : queue.syncQueue.tail.Sublist queue.syncQueue := List.tail_sublist queue.syncQueue
    constructor
    · exact (h.operations.sublist htail).append rfl rfl fun other hother hsame =>
        htime other (htail.subset hother) hsame.1 hsame.2
    · intro after hafter
      obtain ⟨pass, hpass, -⟩ := Option.map_eq_some_iff.mp hafter
      exact absurd hfull (Nat.not_le_of_lt (hduring pass hpass).1)

theorem process_ordered (h : Ordered queue) (moment : Moment) :
    Ordered (queue.processOfflineQueue moment) := by
  simp only [processOfflineQueue]
  split
  · exact h
  · next hready =>
      simp only [Bool.or_eq_true, Bool.not_eq_true', not_or, Bool.not_eq_false,
        Bool.not_eq_true] at hready
      obtain ⟨⟨honline, hidle⟩, -⟩ := hready
      cases hsort : sortQueue queue.syncQueue with
      | error error =>
          refine ⟨h.operations, fun pass hpass => ?_⟩
          have hbusy := (h.pass pass hpass).busy
          rw [hidle] at hbusy
          cases hbusy
      | ok sorted =>
          have hsorted : QueueOrdered queue.tickets sorted queue.pushed := {
            entries := sort_entries hsort h.operations.entries
            known := h.operations.known
            pushes := h.operations.pushes
            ahead := fun push hpush operation hoperation =>
              h.operations.ahead push hpush operation
                ((sort_perm hsort).mem_iff.mp hoperation) }
          have hgoes : GoesOnOnline
              { queue with processingQueue := true, syncQueue := sorted } 0 := Or.inl honline
          exact advance_ordered hsorted (LeftBehind.zero sorted) rfl hgoes [] moment

theorem step_ordered (queue : OfflineQueue) (occurrence : QueueOccurrence)
    (h : Ordered queue) (hkeeps : queue.KeepsOrder occurrence) :
    Ordered (queue.step occurrence) := by
  obtain ⟨event, moment⟩ := occurrence
  cases event with
  | queueOfflineChange change => exact queue_change_ordered h change moment hkeeps
  | processOfflineQueue => exact process_ordered h moment
  | attemptSettles outcome => exact settle_ordered h outcome moment hkeeps
  | retryDelayOver => exact resume_ordered h moment hkeeps
  | online =>
      have honline : Ordered { queue with isOnline := true } := ⟨h.operations, fun pass hpass => by
        have hordered := h.pass pass hpass
        exact ⟨hordered.busy, hordered.nextIndex, hordered.position, hordered.held,
          hordered.unfinished, hordered.behind⟩⟩
      exact process_ordered honline moment
  | offline =>
      refine ⟨h.operations, fun pass hpass => ?_⟩
      have hordered := h.pass pass hpass
      exact ⟨hordered.busy, hordered.nextIndex, hordered.position, hordered.held,
        hordered.unfinished, hordered.behind⟩

/-- As long as no attempt fails with a later change of its resource behind it, no change
is overtaken. -/
theorem pushes_in_order (config : QueueConfig) (isOnline : Bool)
    (occurrences : List QueueOccurrence)
    (h : Meets step KeepsOrder { config := config, isOnline := isOnline } occurrences) :
    PushedInOrder (run step { config := config, isOnline := isOnline } occurrences) := by
  have hstart : Ordered { config := config, isOnline := isOnline } := {
    operations := {
      entries := ⟨by simp, by simp, List.Pairwise.nil⟩
      known := by simp
      pushes := List.Pairwise.nil
      ahead := by simp }
    pass := by simp }
  exact (invariant_of_meets step Ordered step_ordered hstart h).operations.pushes

def queuedAt (now : Int) (resourceId : String) (name : String) : QueueOccurrence where
  event := .queueOfflineChange
    { id := name
      type := .update
      resourceType := .workflow
      resourceId := resourceId
      path := []
      value := some (.str name)
      timestamp := now
      userId := "user" }
  moment := ⟨now, "fresh", none⟩

/-- An event of a pass, long after the changes were queued. -/
def duringPass (event : QueueEvent) : QueueOccurrence := ⟨event, ⟨100, "fresh", none⟩⟩

/-- Two changes of one workflow whose attempts succeed are pushed in order. -/
theorem pushes_in_order_undisturbed :
    PushedInOrder (run step { config := {}, isOnline := true }
      [queuedAt 1 "w1" "first", queuedAt 2 "w1" "second", duringPass .processOfflineQueue,
        duringPass (.attemptSettles .success), duringPass (.attemptSettles .success)]) := by
  apply pushes_in_order
  refine ⟨⟨by decide, by decide⟩, ⟨by decide, by decide⟩, trivial, ?_, ?_, trivial⟩
  · rintro pass ⟨⟩ _
    exact ⟨fun h => absurd rfl h, fun _ => Or.inl rfl⟩
  · rintro pass ⟨⟩ _
    exact ⟨fun h => absurd rfl h, fun _ => Or.inl rfl⟩

/-- The attempt of the first change fails, the second goes through in the same pass, and
the next pass writes the first over it. -/
theorem push_overtaken :
    ¬ PushedInOrder (run step { config := {}, isOnline := true }
      [queuedAt 1 "w1" "first", queuedAt 2 "w1" "second", duringPass .processOfflineQueue,
        duringPass (.attemptSettles .error), duringPass .retryDelayOver,
        duringPass (.attemptSettles .success), duringPass .processOfflineQueue,
        duringPass (.attemptSettles .success)]) := by
  decide

end Qontinui.OfflineQueue
