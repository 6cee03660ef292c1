import Qontinui.Offline.SyncProcessor

/-!
The order in which a pass of the sync queue handles its items. The pending items and those
that are ready to retry are sorted each for themselves, and the pass handles all pending
ones first.
-/

namespace Qontinui.SyncProcessor

open SyncQueue

/-- Higher priority first, then older first. -/
def Precedes (a b : SyncQueueItem) : Prop :=
  b.priority < a.priority ∨ a.priority = b.priority ∧ a.createdAt ≤ b.createdAt

instance (a b : SyncQueueItem) : Decidable (Precedes a b) :=
  inferInstanceAs (Decidable (_ ∨ _))

theorem precedes_iff {a b : SyncQueueItem} : Precedes a b ↔ compareItems a b ≤ 0 := by
  unfold Precedes compareItems
  split <;> omega

theorem precedes_total (a b : SyncQueueItem) : Precedes a b ∨ Precedes b a := by
  unfold Precedes
  omega

theorem Precedes.trans {a b c : SyncQueueItem} (hab : Precedes a b) (hbc : Precedes b c) :
    Precedes a c := by
  unfold Precedes at *
  omega

theorem get_all_ordered (store : Store) (status : SyncStatus) :
    (getAll store status).Pairwise Precedes := by
  have htotal : Std.Total fun a b => compareItems a b ≤ 0 :=
    ⟨fun a b => (precedes_total a b).imp precedes_iff.mp precedes_iff.mp⟩
  have htrans : IsTrans SyncQueueItem fun a b => compareItems a b ≤ 0 :=
    ⟨fun _ _ _ hab hbc => precedes_iff.mp
      ((precedes_iff.mpr hab).trans (precedes_iff.mpr hbc))⟩
  exact (List.pairwise_insertionSort _ _).imp precedes_iff.mpr

def selected (store : Store) (now : Int) : List SyncQueueItem :=
  getAll store .pending ++ getReadyToRetry store now

theorem selected_ordered_iff {store : Store} {now : Int} :
    (selected store now).Pairwise Precedes ↔
      ∀ item ∈ store, item.status = .pending → ∀ retry ∈ store, retry.status = .failed →
        readyToRetry now retry = true → Precedes item retry := by
  have hretry : (getReadyToRetry store now).Pairwise Precedes :=
    (get_all_ordered store .failed).filter _
  rw [selected, List.pairwise_append]
  simp only [get_all_ordered, hretry, true_and, mem_get_all, mem_get_ready_to_retry, and_imp]

/-! ### What a pass handles -/

/-- The item whose operation a step of the first pass starts. -/
def startsItem (state : SyncProcessor) (outcome : AwaitOutcome) : List SyncQueueItem :=
  match state.passes[0]?.map QueuePass.phase, outcome with
  | some (.handle item _ (.markSyncing _)), .succeeds => [item]
  | _, _ => []

/-- The items a pass handles, one after the other, as what it awaits comes out. -/
def startedItems : SyncProcessor → List (AwaitOutcome × Int) → List SyncQueueItem
  | _, [] => []
  | state, (outcome, now) :: rest =>
      state.startsItem outcome ++ startedItems (state.stepPass 0 outcome now) rest

/-- A pass over a store, started while no other one is under way, that has read what it
handles. -/
def startPass (store : Store) (asked now : Int) : SyncProcessor :=
  ((processQueue { store := store } false true).stepPass 0 .succeeds asked).stepPass 0 .succeeds now

/-- The items that the pass under way has still to start. -/
def toStart (state : SyncProcessor) : List SyncQueueItem :=
  match state.passes.map QueuePass.phase with
  | [.handle item rest (.markSyncing _)] => item :: rest
  | [.handle _ rest _] => rest
  | _ => []

/-- At most one pass is under way, and it has read its items. -/
def HandlesOne (state : SyncProcessor) : Prop :=
  state.passes = [] ∨ ∃ items item rest stage,
    state.passes = [{ itemsToProcess := items, phase := .handle item rest stage }]

variable {pass : QueuePass} {state : SyncProcessor}

theorem handling_next_item (h : state.passes = [pass]) (items : List SyncQueueItem) (now : Int)
    (rest : List SyncQueueItem) :
    (state.nextItem 0 items now rest).HandlesOne ∧
      (state.nextItem 0 items now rest).toStart = rest := by
  cases rest with
  | nil => simp [nextItem, endPass, HandlesOne, toStart, h]
  | cons item rest => simp [nextItem, setPass, HandlesOne, toStart, h]

theorem start_pass_eq (store : Store) (asked now : Int) :
    startPass store asked now =
      nextItem { store := store, processing := true,
                 passes := [{ phase := .getReadyToRetry (getAll store .pending) }] }
        0 (selected store now) now (selected store now) := rfl

theorem handling_start_pass (store : Store) (asked now : Int) :
    (startPass store asked now).HandlesOne ∧
      (startPass store asked now).toStart = selected store now := by
  rw [start_pass_eq]
  exact handling_next_item rfl _ _ _

theorem handling_set_pass (h : state.passes = [pass]) (items : List SyncQueueItem)
    (item : SyncQueueItem) (rest : List SyncQueueItem) {stage : ItemStage}
    (hstage : ∀ record, stage ≠ .markSyncing record) :
    let after := state.setPass 0 { itemsToProcess := items, phase := .handle item rest stage }
    after.HandlesOne ∧ after.toStart = rest := by
  refine ⟨Or.inr ⟨items, item, rest, stage, by simp [setPass, h]⟩, ?_⟩
  cases stage with
  | markSyncing record => exact absurd rfl (hstage record)
  | process | completedGet | completedPut | failedGet | failedPut => simp [toStart, setPass, h]

theorem handling_end_pass (h : state.passes = [pass]) :
    (state.endPass 0).HandlesOne ∧ (state.endPass 0).toStart = [] := by
  simp [HandlesOne, endPass, toStart, h]

theorem step_started_handling {items rest : List SyncQueueItem} {item : SyncQueueItem}
    {stage : ItemStage}
    (h : state.passes = [{ itemsToProcess := items, phase := .handle item rest stage }])
    (hstage : ∀ record, stage ≠ .markSyncing record) (outcome : AwaitOutcome) (now : Int) :
    let after := state.stepItem 0 items item rest stage outcome now
    after.HandlesOne ∧ after.toStart.Sublist rest := by
  have hstarted : state.HandlesOne ∧ state.toStart = rest := by
    refine ⟨Or.inr ⟨items, item, rest, stage, h⟩, ?_⟩
    cases stage with
    | markSyncing record => exact absurd rfl (hstage record)
    | process | completedGet | completedPut | failedGet | failedPut => simp [toStart, h]
  intro after
  have hafter : state.StepsOn 0 items item rest now after :=
    step_item_cases hstage state 0 items item rest outcome now
  generalize after = later at hafter
  cases hafter with
  | stays => exact ⟨hstarted.1, by rw [hstarted.2]⟩
  | awaits stage unmarked processed =>
      have hset := handling_set_pass h items item rest unmarked
      exact ⟨hset.1, by rw [hset.2]⟩
  | comesToNext store =>
      have hpass : ({ state with store := store } : SyncProcessor).passes = _ := h
      have hnext := handling_next_item hpass items now rest
      exact ⟨hnext.1, by rw [hnext.2]⟩
  | ends => simp [handling_end_pass h]

/-- A step starts the next item or none, and leaves the later ones in their order. -/
theorem step_pass_handling (h : state.HandlesOne) (outcome : AwaitOutcome) (now : Int) :
    let after := state.stepPass 0 outcome now
    after.HandlesOne ∧ (state.startsItem outcome ++ after.toStart).Sublist state.toStart := by
  rcases h with hnone | ⟨items, item, rest, stage, hpass⟩
  · simp [stepPass, startsItem, toStart, HandlesOne, hnone]
  have hstep : state.stepPass 0 outcome now =
      state.stepItem 0 items item rest stage outcome now := by
    simp [stepPass, hpass]
  rw [hstep]
  by_cases hstage : ∃ record, stage = .markSyncing record
  · obtain ⟨record, rfl⟩ := hstage
    have hleft : state.toStart = item :: rest := by simp [toStart, hpass]
    rw [hleft]
    cases outcome with
    | succeeds =>
        have hstarts : state.startsItem .succeeds = [item] := by simp [startsItem, hpass]
        have hmarked : ({ state with
            store := put state.store record
            attempts := state.attempts ++ [item.id] } : SyncProcessor).passes = _ := hpass
        obtain ⟨hhandling, hrest⟩ := handling_set_pass hmarked items item rest
          (by simp : ∀ record, ItemStage.process ≠ .markSyncing record)
        exact ⟨hhandling, by rw [hstarts, stepItem, hrest]; exact List.Sublist.refl _⟩
    | fails message =>
        obtain ⟨hhandling, hrest⟩ := handling_set_pass hpass items item rest
          (by simp : ∀ record, ItemStage.failedGet message true ≠ .markSyncing record)
        exact ⟨hhandling, by simp [startsItem, hpass, stepItem, hrest]⟩
    | returns result =>
        have hsame : state.HandlesOne := Or.inr ⟨items, item, rest, _, hpass⟩
        exact ⟨hsame, by simp [startsItem, hpass, stepItem, hleft]⟩
  · have hstarted : ∀ record, stage ≠ .markSyncing record := not_exists.mp hstage
    have hnone : state.startsItem outcome = [] ∧ state.toStart = rest := by
      cases stage with
      | markSyncing record => exact absurd rfl (hstarted record)
      | process | completedGet | completedPut | failedGet | failedPut =>
          simp [startsItem, toStart, hpass]
    rw [hnone.1, hnone.2]
    exact step_started_handling hpass hstarted outcome now

theorem started_items_sublist (h : state.HandlesOne) (outcomes : List (AwaitOutcome × Int)) :
    (state.startedItems outcomes).Sublist state.toStart := by
  induction outcomes generalizing state with
  | nil => exact List.nil_sublist _
  | cons first rest ih =>
      obtain ⟨hafter, hstarts⟩ := step_pass_handling h first.1 first.2
      exact (List.Sublist.append_left (ih hafter) _).trans hstarts

/-- Some outcomes start an item and lead on to the next. -/
theorem exists_started_item (h : state.passes = [pass]) (items : List SyncQueueItem)
    (item : SyncQueueItem) (rest : List SyncQueueItem) (now : Int) :
    ∃ (after : SyncProcessor) (last : QueuePass) (begin : List (AwaitOutcome × Int)),
      after.passes = [last] ∧ ∀ outcomes,
        (state.nextItem 0 items now (item :: rest)).startedItems (begin ++ outcomes) =
          item :: (after.nextItem 0 items now rest).startedItems outcomes := by
  let failure : SyncResult := { success := false }
  have hfailure : (processItem item failure).success = false := by
    unfold processItem
    split <;> rfl
  let record : SyncQueueItem := { item with status := .syncing, updatedAt := now }
  -- the operation fails, and the failure is marked if the item is still stored
  cases hget : get (put state.store record) item.id with
  | none =>
      refine ⟨{ state with
          store := put state.store record
          attempts := state.attempts ++ [item.id] }, pass,
        [(.succeeds, now), (.returns failure, now), (.succeeds, now)], h, fun outcomes => ?_⟩
      cases rest with
      | nil | cons =>
          simp [nextItem, setPass, endPass, startedItems, startsItem, stepPass, stepItem, h,
            hfailure, hget, record]
  | some found =>
      refine ⟨{ state with
          store := put (put state.store record)
            (failedItem found (errorText (processItem item failure)) now)
          attempts := state.attempts ++ [item.id] }, pass,
        [(.succeeds, now), (.returns failure, now), (.succeeds, now), (.succeeds, now)], h,
        fun outcomes => ?_⟩
      cases rest with
      | nil | cons =>
          simp [nextItem, setPass, endPass, startedItems, startsItem, stepPass, stepItem, h,
            hfailure, hget, record]

theorem exists_started_all (h : state.passes = [pass]) (items : List SyncQueueItem) (now : Int)
    (rest : List SyncQueueItem) :
    ∃ outcomes, (state.nextItem 0 items now rest).startedItems outcomes = rest := by
  induction rest generalizing state pass with
  | nil => exact ⟨[], rfl⟩
  | cons item rest ih =>
      obtain ⟨after, last, begin, hlast, hitem⟩ := exists_started_item h items item rest now
      obtain ⟨outcomes, hrest⟩ := ih hlast
      exact ⟨begin ++ outcomes, by rw [hitem, hrest]⟩

/-- A pass handles its items by priority, oldest first, whatever comes of them, exactly if
no item that is ready to retry belongs before a pending one. -/
theorem pass_in_order_iff (store : Store) (asked now : Int) :
    (∀ outcomes, ((startPass store asked now).startedItems outcomes).Pairwise Precedes) ↔
      ∀ item ∈ store, item.status = .pending → ∀ retry ∈ store, retry.status = .failed →
        readyToRetry now retry = true → Precedes item retry := by
  rw [← selected_ordered_iff]
  obtain ⟨hhandling, hselected⟩ := handling_start_pass store asked now
  constructor
  · intro h
    have hpass : ({ store := store, processing := true,
                    passes := [{ phase := .getReadyToRetry (getAll store .pending) }] } :
        SyncProcessor).passes = _ := rfl
    obtain ⟨outcomes, hall⟩ := exists_started_all hpass (selected store now) now
      (selected store now)
    rw [← hall]
    exact h outcomes
  · intro h outcomes
    exact (hselected ▸ h).sublist (started_items_sublist hhandling outcomes)

/-- An upload of the least priority that waits to be tried for the first time. -/
def freshUpload : SyncQueueItem where
  id := "fresh"
  type := .uploadScreenshot
  status := .pending
  priority := 0
  metadata := []
  retryCount := 0
  maxRetries := 3
  createdAt := 5000
  updatedAt := 5000

/-- An older one of a high priority that failed and may be tried again from time 4000 on. -/
def urgentRetry : SyncQueueItem where
  id := "urgent"
  type := .uploadScreenshot
  status := .failed
  priority := 10
  metadata := []
  retryCount := 1
  maxRetries := 3
  createdAt := 1000
  updatedAt := 2000
  nextRetryAt := some (newDate 4000)

def bothUploaded : List (AwaitOutcome × Int) :=
  [(.succeeds, 6000), (.returns { success := true }, 6000), (.succeeds, 6000), (.succeeds, 6000),
    (.succeeds, 6000), (.returns { success := true }, 6000), (.succeeds, 6000), (.succeeds, 6000)]

/-- The urgent upload is handled last. -/
theorem pass_out_of_order :
    (startPass [freshUpload, urgentRetry] 6000 6000).startedItems bothUploaded =
        [freshUpload, urgentRetry] ∧
      ¬ ((startPass [freshUpload, urgentRetry] 6000 6000).startedItems bothUploaded).Pairwise
        Precedes := by
  decide +kernel

end Qontinui.SyncProcessor
