import Qontinui.Offline.SyncProcessor

/-!
The retry bound of the sync queue. Giving up leaves the last retry time in the record,
and that time has passed when it was waited for, so the next pass selects the item again.
The bound holds as long as no pass selects an item that is out of retries.
-/

namespace Qontinui.SyncProcessor

open SyncQueue Runs

/-- Every item is attempted at most `maxRetries` times, and none that is out of retries
is selected to be retried. -/
def RetriesBounded (state : SyncProcessor) : Prop :=
  (∀ item ∈ state.store, state.attempts.count item.id ≤ item.maxRetries) ∧
    ∀ pass ∈ state.passes, ∀ item ∈ pass.itemsToProcess,
      item.status = .failed → item.retryCount < item.maxRetries

instance (state : SyncProcessor) : Decidable state.RetriesBounded :=
  inferInstanceAs (Decidable (_ ∧ _))

/-- A pass awaits the items that are ready to retry. -/
def asksForRetries (state : SyncProcessor) (index : Nat) : Bool :=
  match state.passes[index]?.map QueuePass.phase with
  | some (.getReadyToRetry _) => true
  | _ => false

/-- An item has at least one retry, a pass is not forced beside a running one, and the
items that are out of retries are not ready to retry when a pass asks. -/
def KeepsRetryBound (state : SyncProcessor) (event : ProcessorEvent) : Prop :=
  match event with
  | .enqueue _ _ _ maxRetries _ _ => 0 < maxRetries
  | .processQueue force _ => force = true → state.passes = []
  | .stepPass index .succeeds now =>
      state.asksForRetries index = true →
        ∀ item ∈ state.store, item.status = .failed → item.maxRetries ≤ item.retryCount →
          readyToRetry now item = false
  | _ => True

instance (state : SyncProcessor) (event : ProcessorEvent) :
    Decidable (state.KeepsRetryBound event) := by
  unfold KeepsRetryBound
  split <;> infer_instance

/-- The attempts of an item are within its bound, and counted once it waits. -/
structure ItemBounded (attempts : List String) (item : SyncQueueItem) : Prop where
  bound : attempts.count item.id ≤ item.maxRetries
  counted : item.status = .pending ∨ item.status = .failed →
    attempts.count item.id ≤ item.retryCount
  fresh : item.status = .pending → item.retryCount < item.maxRetries

structure StoreBounded (store : Store) (attempts : List String) : Prop where
  unique : (store.map SyncQueueItem.id).Nodup
  items : ∀ item ∈ store, ItemBounded attempts item
  known : ∀ id ∈ attempts, ∃ item ∈ store, item.id = id

/-- Items that a pass has selected and not handled yet: they stand in the store with a
retry left. -/
structure Selected (store : Store) (items : List SyncQueueItem) : Prop where
  stored : ∀ item ∈ items, item ∈ store
  waiting : ∀ item ∈ items, item.status = .pending ∨ item.status = .failed
  retries : ∀ item ∈ items, item.retryCount < item.maxRetries
  unique : (items.map SyncQueueItem.id).Nodup

/-- The item that a pass handles: one attempt of it may not be counted yet. -/
def Claimed (store : Store) (attempts : List String) (id : String) : Prop :=
  ∃ item ∈ store, item.id = id ∧ item.retryCount < item.maxRetries ∧
    attempts.count id ≤ item.retryCount + 1

def StageBounded (store : Store) (attempts : List String) (item : SyncQueueItem)
    (rest : List SyncQueueItem) : ItemStage → Prop
  | .markSyncing record =>
      Selected store (item :: rest) ∧
        ∃ now, record = { item with status := .syncing, updatedAt := now }
  | .process | .completedGet _ | .failedGet _ _ => Claimed store attempts item.id
  | .completedPut record =>
      Claimed store attempts item.id ∧ record.id = item.id ∧ ItemBounded attempts record
  | .failedPut record _ =>
      Claimed store attempts item.id ∧ record.id = item.id ∧ ItemBounded attempts record

def PhaseBounded (store : Store) (attempts : List String) : PassPhase → Prop
  | .getPending => True
  | .getReadyToRetry pending =>
      Selected store pending ∧ ∀ item ∈ pending, item.status = .pending
  | .handle item rest stage =>
      ((item :: rest).map SyncQueueItem.id).Nodup ∧ Selected store rest ∧
        StageBounded store attempts item rest stage

structure PassBounded (store : Store) (attempts : List String) (pass : QueuePass) : Prop where
  items : ∀ item ∈ pass.itemsToProcess, item.status = .failed →
    item.retryCount < item.maxRetries
  phase : PhaseBounded store attempts pass.phase

/-- At most one pass is under way, and then the processor knows. -/
structure Bounded (state : SyncProcessor) : Prop where
  store : StoreBounded state.store state.attempts
  single : state.passes.length ≤ 1
  busy : state.passes ≠ [] → state.processing = true
  passes : ∀ pass ∈ state.passes, PassBounded state.store state.attempts pass

variable {store : Store}

theorem put_unique (h : (store.map SyncQueueItem.id).Nodup) (item : SyncQueueItem) :
    ((put store item).map SyncQueueItem.id).Nodup := by
  have hfilter : ∀ keep : SyncQueueItem → Bool,
      ((store.filter keep).map SyncQueueItem.id).Nodup := fun keep =>
    h.sublist (List.filter_sublist.map SyncQueueItem.id)
  have hbefore : ∀ id ∈ (store.filter fun other => other.id < item.id).map SyncQueueItem.id,
      id < item.id := by
    intro id hid
    obtain ⟨other, hother, rfl⟩ := List.mem_map.mp hid
    exact of_decide_eq_true (List.mem_filter.mp hother).2
  have hafter : ∀ id ∈ (store.filter fun other => item.id < other.id).map SyncQueueItem.id,
      item.id < id := by
    intro id hid
    obtain ⟨other, hother, rfl⟩ := List.mem_map.mp hid
    exact of_decide_eq_true (List.mem_filter.mp hother).2
  rw [put, List.map_append, List.map_cons, List.nodup_append]
  refine ⟨hfilter _, List.nodup_cons.mpr ⟨fun hid => lt_irrefl _ (hafter _ hid), hfilter _⟩, ?_⟩
  intro id hid other hother
  rcases List.mem_cons.mp hother with rfl | hother
  · exact ne_of_lt (hbefore id hid)
  · exact ne_of_lt ((hbefore id hid).trans (hafter other hother))

theorem get_all_unique (h : (store.map SyncQueueItem.id).Nodup) (status : SyncStatus) :
    ((getAll store status).map SyncQueueItem.id).Nodup := by
  have hperm := (List.perm_insertionSort (fun a b => compareItems a b ≤ 0)
    (store.filter fun item => item.status = status)).map SyncQueueItem.id
  exact hperm.nodup_iff.mpr (h.sublist (List.filter_sublist.map SyncQueueItem.id))

theorem StoreBounded.put {attempts : List String} {record : SyncQueueItem}
    (h : StoreBounded store attempts) (hrecord : ItemBounded attempts record) :
    StoreBounded (put store record) attempts where
  unique := put_unique h.unique record
  items item hitem := by
    rcases mem_put.mp hitem with rfl | ⟨hitem, -⟩
    · exact hrecord
    · exact h.items item hitem
  known id hid := by
    obtain ⟨item, hitem, rfl⟩ := h.known id hid
    exact exists_put record hitem

theorem Selected.put {items : List SyncQueueItem} {record : SyncQueueItem}
    (h : Selected store items) (hrecord : ∀ item ∈ items, item.id ≠ record.id) :
    Selected (put store record) items where
  stored item hitem := mem_put.mpr (Or.inr ⟨h.stored item hitem, hrecord item hitem⟩)
  waiting := h.waiting
  retries := h.retries
  unique := h.unique

theorem Selected.tail {item : SyncQueueItem} {rest : List SyncQueueItem}
    (h : Selected store (item :: rest)) : Selected store rest where
  stored other hother := h.stored other (List.mem_cons_of_mem _ hother)
  waiting other hother := h.waiting other (List.mem_cons_of_mem _ hother)
  retries other hother := h.retries other (List.mem_cons_of_mem _ hother)
  unique := (List.nodup_cons.mp h.unique).2

theorem StoreBounded.same {attempts : List String} (h : StoreBounded store attempts)
    {a b : SyncQueueItem} (ha : a ∈ store) (hb : b ∈ store) (hid : a.id = b.id) : a = b :=
  List.inj_on_of_nodup_map h.unique ha hb hid

theorem StoreBounded.attempt {attempts : List String} {item : SyncQueueItem}
    (h : StoreBounded store attempts) (hitem : item ∈ store)
    (hwaiting : item.status = .pending ∨ item.status = .failed)
    (hretries : item.retryCount < item.maxRetries) (now : Int) :
    StoreBounded (SyncQueue.put store { item with status := .syncing, updatedAt := now })
      (attempts ++ [item.id]) where
  unique := put_unique h.unique _
  items other hother := by
    rcases mem_put.mp hother with rfl | ⟨hother, hne⟩
    · have hcounted := (h.items item hitem).counted hwaiting
      refine ⟨?_, fun hstatus => ?_, fun hstatus => ?_⟩
      · simp only [List.count_append, List.count_singleton_self]
        omega
      · rcases hstatus with hstatus | hstatus <;> cases hstatus
      · cases hstatus
    · have hcount : (attempts ++ [item.id]).count other.id = attempts.count other.id := by
        rw [List.count_append, List.count_singleton]
        simp [Ne.symm hne]
      have hold := h.items other hother
      exact ⟨hcount ▸ hold.bound, hcount ▸ hold.counted, hold.fresh⟩
  known id hid := by
    have hstored : ∃ other ∈ store, other.id = id := by
      rcases List.mem_append.mp hid with hid | hid
      · exact h.known id hid
      · exact ⟨item, hitem, (List.mem_singleton.mp hid).symm⟩
    obtain ⟨other, hother, rfl⟩ := hstored
    exact exists_put _ hother

theorem StoreBounded.completed {attempts : List String} {id : String} {found : SyncQueueItem}
    (h : StoreBounded store attempts) (hget : get store id = some found)
    (metadata : List (String × Json)) (now : Int) :
    ItemBounded attempts (completedItem found metadata now) := by
  refine ⟨(h.items found (get_some hget).1).bound, fun hstatus => ?_, fun hstatus => ?_⟩
  · rcases hstatus with hstatus | hstatus <;> cases hstatus
  · cases hstatus

theorem StoreBounded.failed {attempts : List String} {id : String} {found : SyncQueueItem}
    (h : StoreBounded store attempts) (hget : get store id = some found)
    (hclaimed : Claimed store attempts id) (error : String) (now : Int) :
    ItemBounded attempts (failedItem found error now) := by
  obtain ⟨stored, hstored, hid, hretries, hcount⟩ := hclaimed
  obtain ⟨hfound, hfoundid⟩ := get_some hget
  obtain rfl := h.same hstored hfound (hid.trans hfoundid.symm)
  have hfailed : attempts.count (failedItem stored error now).id ≤
      (failedItem stored error now).retryCount := by
    rw [failed_item_id, failed_item_retry_count, hid]
    exact hcount
  refine ⟨hfailed.trans ?_, fun _ => hfailed, fun hstatus => ?_⟩
  · rw [failed_item_retry_count, failed_item_max_retries]
    exact hretries
  · rw [failed_item_status] at hstatus
    cases hstatus

section Pass

variable {state : SyncProcessor} {pass : QueuePass}

theorem bounded_single (hstore : StoreBounded state.store state.attempts)
    (hpasses : state.passes = [pass]) (hbusy : state.processing = true)
    {after : QueuePass} (hafter : PassBounded state.store state.attempts after) :
    Bounded (state.setPass 0 after) where
  store := hstore
  single := by simp [setPass, hpasses]
  busy _ := hbusy
  passes other hother := by
    simp only [setPass, hpasses, List.set_cons_zero, List.mem_singleton] at hother
    rw [hother]
    exact hafter

theorem bounded_end (hstore : StoreBounded state.store state.attempts)
    (hpasses : state.passes = [pass]) : Bounded (state.endPass 0) where
  store := hstore
  single := by simp [endPass, hpasses]
  busy hnonempty := by simp [endPass, hpasses] at hnonempty
  passes other hother := by simp [endPass, hpasses] at hother

theorem next_item_bounded (hstore : StoreBounded state.store state.attempts)
    (hpasses : state.passes = [pass]) (hbusy : state.processing = true)
    {itemsToProcess rest : List SyncQueueItem}
    (hitems : ∀ item ∈ itemsToProcess, item.status = .failed → item.retryCount < item.maxRetries)
    (hrest : Selected state.store rest) (now : Int) :
    Bounded (state.nextItem 0 itemsToProcess now rest) := by
  cases rest with
  | nil => exact bounded_end hstore hpasses
  | cons item rest =>
      refine bounded_single hstore hpasses hbusy ⟨hitems, ?_⟩
      exact ⟨hrest.unique, hrest.tail, hrest, now, rfl⟩

variable {record : SyncQueueItem}

theorem rest_selected {item : SyncQueueItem} {rest : List SyncQueueItem}
    (hunique : ((item :: rest).map SyncQueueItem.id).Nodup) (hrest : Selected state.store rest)
    (hid : record.id = item.id) : Selected (put state.store record) rest := by
  refine hrest.put fun other hother hsame => ?_
  apply (List.nodup_cons.mp hunique).1
  rw [← hid, ← hsame]
  exact List.mem_map_of_mem hother

/-- The one running pass handles an item, with the rest of its items still selected. -/
structure Handling (state : SyncProcessor) (pass : QueuePass) (item : SyncQueueItem)
    (rest : List SyncQueueItem) : Prop where
  store : StoreBounded state.store state.attempts
  alone : state.passes = [pass]
  busy : state.processing = true
  items : ∀ item ∈ pass.itemsToProcess, item.status = .failed → item.retryCount < item.maxRetries
  unique : ((item :: rest).map SyncQueueItem.id).Nodup
  rest : Selected state.store rest

variable {item : SyncQueueItem} {rest : List SyncQueueItem} {stage : ItemStage}

theorem Bounded.handling (h : Bounded state) (hpasses : state.passes = [pass])
    (hphase : pass.phase = .handle item rest stage) :
    Handling state pass item rest ∧ StageBounded state.store state.attempts item rest stage := by
  obtain ⟨hitems, hheld⟩ := h.passes pass (by simp [hpasses])
  rw [hphase] at hheld
  obtain ⟨hunique, hrest, hstage⟩ := hheld
  exact ⟨⟨h.store, hpasses, h.busy (by simp [hpasses]), hitems, hunique, hrest⟩, hstage⟩

section

variable (h : Handling state pass item rest)
include h

theorem Handling.await (hstage : StageBounded state.store state.attempts item rest stage) :
    Bounded (state.setPass 0 ⟨pass.itemsToProcess, .handle item rest stage⟩) :=
  bounded_single h.store h.alone h.busy ⟨h.items, h.unique, h.rest, hstage⟩

theorem Handling.next (now : Int) : Bounded (state.nextItem 0 pass.itemsToProcess now rest) :=
  next_item_bounded h.store h.alone h.busy h.items h.rest now

theorem Handling.fails (message : String) (caught : Bool)
    (hclaimed : Claimed state.store state.attempts item.id) :
    Bounded (if caught then state.endPass 0
      else state.setPass 0
        ⟨pass.itemsToProcess, .handle item rest (.failedGet message true)⟩) := by
  split
  · exact bounded_end h.store h.alone
  · exact h.await hclaimed

theorem Handling.writes (hid : record.id = item.id) (hrecord : ItemBounded state.attempts record)
    (now : Int) :
    Bounded (nextItem { state with store := put state.store record } 0
      pass.itemsToProcess now rest) := by
  let written := { state with store := put state.store record }
  have hwritten : Handling written pass item rest := {
    store := h.store.put hrecord
    alone := h.alone
    busy := h.busy
    items := h.items
    unique := h.unique
    rest := rest_selected h.unique h.rest hid }
  exact hwritten.next now

end

theorem Handling.attempts (h : Handling state pass item rest)
    (hselected : Selected state.store (item :: rest)) (time : Int) :
    Bounded (setPass { state with
      store := put state.store { item with status := .syncing, updatedAt := time }
      attempts := state.attempts ++ [item.id] } 0
        ⟨pass.itemsToProcess, .handle item rest .process⟩) := by
  have hitem := hselected.stored item List.mem_cons_self
  have hwaiting := hselected.waiting item List.mem_cons_self
  have hretries := hselected.retries item List.mem_cons_self
  let written := { state with
    store := put state.store { item with status := .syncing, updatedAt := time }
    attempts := state.attempts ++ [item.id] }
  have hwritten : Handling written pass item rest := {
    store := h.store.attempt hitem hwaiting hretries time
    alone := h.alone
    busy := h.busy
    items := h.items
    unique := h.unique
    rest := rest_selected h.unique h.rest rfl }
  have hcount : written.attempts.count item.id = state.attempts.count item.id + 1 := by
    simp only [written, List.count_append, List.count_singleton_self]
  refine hwritten.await ⟨_, mem_put.mpr (Or.inl rfl), rfl, hretries, ?_⟩
  rw [hcount]
  exact Nat.succ_le_succ ((h.store.items item hitem).counted hwaiting)

theorem step_item_bounded (h : Bounded state) (hpasses : state.passes = [pass])
    (hphase : pass.phase = .handle item rest stage) (outcome : AwaitOutcome) (now : Int) :
    Bounded (state.stepItem 0 pass.itemsToProcess item rest stage outcome now) := by
  obtain ⟨hhandling, hstage⟩ := h.handling hpasses hphase
  cases stage with
  | markSyncing record =>
      obtain ⟨hselected, time, rfl⟩ := hstage
      cases outcome with
      | succeeds => exact hhandling.attempts hselected time
      | fails message =>
          have hitem := hselected.stored item List.mem_cons_self
          have hcounted := (h.store.items item hitem).counted
            (hselected.waiting item List.mem_cons_self)
          exact hhandling.await ⟨item, hitem, rfl, hselected.retries item List.mem_cons_self,
            by omega⟩
      | returns result => exact h
  | process =>
      cases outcome with
      | returns result =>
          simp only [stepItem]
          split
          · exact hhandling.await hstage
          · exact hhandling.await hstage
      | succeeds | fails => exact h
  | completedGet metadata =>
      cases outcome with
      | succeeds =>
          simp only [stepItem]
          split
          · next found hget =>
              exact hhandling.await
                ⟨hstage, (get_some hget).2, h.store.completed hget metadata now⟩
          · exact hhandling.next now
      | fails message => exact hhandling.await hstage
      | returns result => exact h
  | completedPut record =>
      cases outcome with
      | succeeds => exact hhandling.writes hstage.2.1 hstage.2.2 now
      | fails message => exact hhandling.await hstage.1
      | returns result => exact h
  | failedGet error caught =>
      cases outcome with
      | succeeds =>
          simp only [stepItem]
          split
          · next found hget =>
              refine hhandling.await ⟨hstage, ?_, h.store.failed hget hstage error now⟩
              rw [failed_item_id]
              exact (get_some hget).2
          · exact hhandling.next now
      | fails message => exact hhandling.fails message caught hstage
      | returns result => exact h
  | failedPut record caught =>
      cases outcome with
      | succeeds => exact hhandling.writes hstage.2.1 hstage.2.2 now
      | fails message => exact hhandling.fails message caught hstage.1
      | returns result => exact h

/-- What a pass selects has a retry left, if the items that have none are not ready. -/
theorem selected_items (hstore : StoreBounded state.store state.attempts)
    {pending : List SyncQueueItem} (hpending : Selected state.store pending)
    (hstatus : ∀ item ∈ pending, item.status = .pending) {now : Int}
    (hready : ∀ item ∈ state.store, item.status = .failed → item.maxRetries ≤ item.retryCount →
      readyToRetry now item = false) :
    Selected state.store (pending ++ getReadyToRetry state.store now) where
  stored item hitem := by
    rcases List.mem_append.mp hitem with hitem | hitem
    · exact hpending.stored item hitem
    · exact (mem_get_ready_to_retry.mp hitem).1
  waiting item hitem := by
    rcases List.mem_append.mp hitem with hitem | hitem
    · exact hpending.waiting item hitem
    · exact Or.inr (mem_get_ready_to_retry.mp hitem).2.1
  retries item hitem := by
    rcases List.mem_append.mp hitem with hitem | hitem
    · exact hpending.retries item hitem
    · obtain ⟨hstored, hfailed, hretry⟩ := mem_get_ready_to_retry.mp hitem
      by_contra hgiven
      rw [hready item hstored hfailed (Nat.le_of_not_lt hgiven)] at hretry
      cases hretry
  unique := by
    rw [List.map_append, List.nodup_append]
    have hretry : ((getReadyToRetry state.store now).map SyncQueueItem.id).Nodup :=
      (get_all_unique hstore.unique .failed).sublist (List.filter_sublist.map SyncQueueItem.id)
    refine ⟨hpending.unique, hretry, ?_⟩
    rintro id hid other hother rfl
    obtain ⟨a, ha, rfl⟩ := List.mem_map.mp hid
    obtain ⟨b, hb, hsame⟩ := List.mem_map.mp hother
    obtain ⟨hstored, hfailed, -⟩ := mem_get_ready_to_retry.mp hb
    obtain rfl := hstore.same (hpending.stored a ha) hstored hsame.symm
    rw [hstatus a ha] at hfailed
    cases hfailed

theorem step_pass_bounded (h : Bounded state) (index : Nat) (outcome : AwaitOutcome)
    (now : Int) (hkeeps : state.KeepsRetryBound (.stepPass index outcome now)) :
    Bounded (state.stepPass index outcome now) := by
  simp only [stepPass]
  cases hpass : state.passes[index]? with
  | none => exact h
  | some pass =>
      obtain ⟨hlt, rfl⟩ := List.getElem?_eq_some_iff.mp hpass
      have hzero : index = 0 := by
        have hsingle := h.single
        omega
      subst hzero
      obtain ⟨other, hpasses⟩ := List.length_eq_one_iff.mp (Nat.le_antisymm h.single hlt)
      have hother : state.passes[0] = other := by simp [hpasses]
      rw [hother] at hpass ⊢
      have hbusy : state.processing = true := h.busy (by simp [hpasses])
      obtain ⟨hitems, hheld⟩ := h.passes other (by simp [hpasses])
      cases hphase : other.phase with
      | getPending =>
          simp only [hphase]
          cases outcome with
          | succeeds =>
              have hselected : Selected state.store (getAll state.store .pending) := {
                stored := fun item hitem => (mem_get_all.mp hitem).1
                waiting := fun item hitem => Or.inl (mem_get_all.mp hitem).2
                retries := fun item hitem =>
                  (h.store.items item (mem_get_all.mp hitem).1).fresh (mem_get_all.mp hitem).2
                unique := get_all_unique h.store.unique .pending }
              exact bounded_single h.store hpasses hbusy
                ⟨hitems, hselected, fun item hitem => (mem_get_all.mp hitem).2⟩
          | fails message => exact bounded_end h.store hpasses
          | returns result => exact h
      | getReadyToRetry pending =>
          rw [hphase] at hheld
          simp only [hphase]
          cases outcome with
          | succeeds =>
              have hselected := selected_items h.store hheld.1 hheld.2
                (hkeeps (by simp [asksForRetries, hpass, hphase]))
              exact next_item_bounded h.store hpasses hbusy
                (fun item hitem _ => hselected.retries item hitem) hselected now
          | fails message => exact bounded_end h.store hpasses
          | returns result => exact h
      | handle item rest stage =>
          simp only [hphase]
          exact step_item_bounded h hpasses hphase outcome now

theorem PassBounded.put_new {store : Store} {attempts : List String}
    (h : PassBounded store attempts pass) (hnew : get store record.id = none) :
    PassBounded (put store record) attempts pass := by
  have hselected : ∀ {items}, Selected store items → Selected (put store record) items :=
    fun hitems => hitems.put fun item hitem => get_none hnew (hitems.stored item hitem)
  have hclaimed : ∀ {id}, Claimed store attempts id → Claimed (put store record) attempts id := by
    rintro id ⟨item, hitem, hrest⟩
    exact ⟨item, mem_put.mpr (Or.inr ⟨hitem, get_none hnew hitem⟩), hrest⟩
  obtain ⟨hitems, hphase⟩ := h
  refine ⟨hitems, ?_⟩
  cases hheld : pass.phase with
  | getPending => trivial
  | getReadyToRetry pending =>
      rw [hheld] at hphase
      exact ⟨hselected hphase.1, hphase.2⟩
  | handle item rest stage =>
      rw [hheld] at hphase
      obtain ⟨hunique, hrest, hstage⟩ := hphase
      refine ⟨hunique, hselected hrest, ?_⟩
      cases stage with
      | markSyncing record => exact ⟨hselected hstage.1, hstage.2⟩
      | process | completedGet => exact hclaimed hstage
      | completedPut record => exact ⟨hclaimed hstage.1, hstage.2⟩
      | failedGet error caught => exact hclaimed hstage
      | failedPut record caught => exact ⟨hclaimed hstage.1, hstage.2⟩

theorem enqueue_bounded (h : Bounded state) (id : String) (type : SyncOperationType)
    (priority : Int) {maxRetries : Nat} (hretries : 0 < maxRetries)
    (metadata : List (String × Json)) (now : Int) :
    Bounded (state.enqueue id type priority maxRetries metadata now) := by
  simp only [enqueue, add]
  split
  · exact h
  · next hnew =>
      have hnone : get state.store id = none := by simpa using hnew
      have hcount : state.attempts.count id = 0 := by
        refine List.count_eq_zero.mpr fun hid => ?_
        obtain ⟨item, hitem, rfl⟩ := h.store.known id hid
        exact get_none hnone hitem rfl
      refine {
        store := h.store.put ⟨?_, ?_, fun _ => hretries⟩
        single := h.single
        busy := h.busy
        passes := fun pass hpass => (h.passes pass hpass).put_new hnone }
      · rw [hcount]
        exact Nat.zero_le _
      · intro _
        rw [hcount]

theorem step_bounded (state : SyncProcessor) (event : ProcessorEvent) (h : Bounded state)
    (hkeeps : state.KeepsRetryBound event) : Bounded (state.step event) := by
  cases event with
  | enqueue id type priority maxRetries metadata now =>
      exact enqueue_bounded h id type priority hkeeps metadata now
  | processQueue force onLine =>
      simp only [step, processQueue]
      split
      · exact h
      · next hready =>
          split
          · exact h
          · have hnone : state.passes = [] := by
              by_contra hsome
              cases force with
              | true => exact hsome (hkeeps rfl)
              | false => simp [h.busy hsome] at hready
            exact {
              store := h.store
              single := by simp [hnone]
              busy := fun _ => rfl
              passes := by
                intro pass hpass
                simp only [hnone, List.nil_append, List.mem_singleton] at hpass
                rw [hpass]
                exact ⟨by simp, trivial⟩ }
  | stepPass index outcome now => exact step_pass_bounded h index outcome now hkeeps
  | crash =>
      simp only [step]
      exact ⟨h.store, by simp, by simp, by simp⟩

end Pass

/-- The retry bound holds in every run in which no pass asks for items to retry while one
that is out of retries counts as ready. -/
theorem retries_bounded (events : List ProcessorEvent)
    (h : Meets step KeepsRetryBound {} events) : RetriesBounded (run step {} events) := by
  have hstart : Bounded {} := {
    store := ⟨List.nodup_nil, by simp, by simp⟩
    single := by simp
    busy := by simp
    passes := by simp }
  have hbounded := invariant_of_meets step Bounded step_bounded hstart h
  exact ⟨fun item hitem => (hbounded.store.items item hitem).bound,
    fun pass hpass => (hbounded.passes pass hpass).items⟩

def nextPass (now : Int) : List ProcessorEvent :=
  [.processQueue false true, .stepPass 0 .succeeds now, .stepPass 0 .succeeds now,
    .stepPass 0 .succeeds now]

/-- Queue one item and start a pass at its first item. -/
def firstPass (maxRetries : Nat) : List ProcessorEvent :=
  .enqueue "item" .uploadScreenshot 0 maxRetries [] 0 :: nextPass 1

/-- The operation of the item fails, and the failure is written. -/
def failedAttempt (now : Int) : List ProcessorEvent :=
  [.stepPass 0 (.returns { success := false, error := some "offline" }) now,
    .stepPass 0 .succeeds now, .stepPass 0 .succeeds now]

/-- Two attempts of an item with two retries, the second after its retry time. -/
theorem retries_bounded_twice :
    RetriesBounded (run step {} (firstPass 2 ++ failedAttempt 1 ++ nextPass 3000 ++
      failedAttempt 3000)) := by
  apply retries_bounded
  decide

/-- The record that gives up keeps the retry time that has passed, and the next pass
attempts it a third time. -/
theorem attempted_after_giving_up :
    ¬ RetriesBounded (run step {} (firstPass 2 ++ failedAttempt 1 ++ nextPass 3000 ++
      failedAttempt 3000 ++ nextPass 3001)) := by
  decide

end Qontinui.SyncProcessor
