import Qontinui.Offline.SyncProcessor

/-!
Items that no pass picks up again. An item is stored as syncing while a pass handles it,
and no pass selects that status: what the pass does not live to write strands the item.
-/

namespace Qontinui.SyncProcessor

open SyncQueue Runs

/-- An item that is neither completed, cancelled nor out of retries. -/
def Live (item : SyncQueueItem) : Prop :=
  item.status ≠ .completed ∧ item.status ≠ .cancelled ∧
    ¬ (item.status = .failed ∧ item.maxRetries ≤ item.retryCount)

/-- The item that a pass has stored as syncing and will write again. -/
def handles (pass : QueuePass) (id : String) : Bool :=
  match pass.phase with
  | .handle _ _ (.markSyncing _) => false
  | .handle item _ _ => item.id = id
  | _ => false

/-- A running pass will write the item of a key. -/
def Handled (state : SyncProcessor) (id : String) : Prop :=
  ∃ pass ∈ state.passes, handles pass id = true

def readingPass (now : Int) : List ProcessorEvent :=
  [.processQueue false true, .stepPass 0 .succeeds now, .stepPass 0 .succeeds now]

/-- An item waits for a pass, with a retry time that passes. -/
def Waits (item : SyncQueueItem) : Prop :=
  item.status = .pending ∨
    item.status = .failed ∧ ∃ time, ∀ now, time ≤ now → readyToRetry now item = true

/-- A live item waits, or a running pass handles it. Where no pass is running, the next
one that starts late enough selects it. -/
def PickedUp (state : SyncProcessor) : Prop :=
  ∀ item ∈ state.store, Live item →
    (Waits item ∨ state.Handled item.id) ∧
      (state.passes = [] → ∃ time, ∀ now, time ≤ now →
        ∃ pass ∈ (run step state (readingPass now)).passes, item ∈ pass.itemsToProcess)

def NotSyncing (state : SyncProcessor) (id : String) : Prop :=
  ∀ item ∈ state.store, item.id = id → item.status ≠ .syncing

instance (state : SyncProcessor) (id : String) : Decidable (state.NotSyncing id) :=
  inferInstanceAs (Decidable (∀ item ∈ _, _))

/-- The process does not crash, and a pass is not given up, while the item is stored as
syncing; and a retry time fits into a date. -/
def LosesNoItem (state : SyncProcessor) (event : ProcessorEvent) : Prop :=
  match event with
  | .crash => ∀ item ∈ state.store, item.status ≠ .syncing
  | .stepPass index outcome now =>
      match state.passes[index]?.map QueuePass.phase, outcome with
      | some (.handle item _ (.failedGet _ true)), .fails _
      | some (.handle item _ (.failedPut _ true)), .fails _ => state.NotSyncing item.id
      | some (.handle item _ (.failedGet _ _)), .succeeds =>
          ∀ found ∈ state.store, found.id = item.id → found.retryCount + 1 < found.maxRetries →
            newDate (now + 2 ^ (found.retryCount + 1) * 1000) ≠ none
      | _, _ => True
  | _ => True

instance (state : SyncProcessor) (event : ProcessorEvent) :
    Decidable (state.LosesNoItem event) := by
  unfold LosesNoItem
  split
  · infer_instance
  · split <;> infer_instance
  · infer_instance

def RetryTimePasses (item : SyncQueueItem) : Prop :=
  item.status = .failed → item.retryCount < item.maxRetries → item.nextRetryAt ≠ some none

def PassTracked (pass : QueuePass) : Prop :=
  match pass.phase with
  | .handle item _ (.markSyncing record) => record.id = item.id ∧ record.status = .syncing
  | .handle item _ (.completedPut record) => record.id = item.id ∧ record.status = .completed
  | .handle item _ (.failedPut record _) =>
      record.id = item.id ∧ record.status = .failed ∧ RetryTimePasses record
  | _ => True

/-- Every item that is stored as syncing is handled by a running pass. -/
structure Tracked (state : SyncProcessor) : Prop where
  syncing : ∀ item ∈ state.store, item.status = .syncing → state.Handled item.id
  retry : ∀ item ∈ state.store, RetryTimePasses item
  passes : ∀ pass ∈ state.passes, PassTracked pass
  idle : state.passes = [] → state.processing = false

theorem Tracked.change {state after : SyncProcessor} (h : Tracked state)
    (hstore : ∀ item ∈ after.store,
      (item ∈ state.store ∧
        (item.status = .syncing → state.Handled item.id → after.Handled item.id)) ∨
      (item.status = .syncing → after.Handled item.id) ∧ RetryTimePasses item)
    (hpasses : ∀ pass ∈ after.passes, PassTracked pass)
    (hidle : after.passes = [] → after.processing = false) : Tracked after where
  syncing item hitem hstatus := by
    rcases hstore item hitem with ⟨hold, hstays⟩ | ⟨hnew, -⟩
    · exact hstays hstatus (h.syncing item hold hstatus)
    · exact hnew hstatus
  retry item hitem := by
    rcases hstore item hitem with ⟨hold, -⟩ | ⟨-, hnew⟩
    · exact h.retry item hold
    · exact hnew
  passes := hpasses
  idle := hidle

section Passes

variable {state : SyncProcessor} {index : Nat} {pass : QueuePass} {after : QueuePass}
  {record : SyncQueueItem}

theorem handled_set_pass (hpass : state.passes[index]? = some pass) {id : String}
    (hafter : handles pass id = true → handles after id = true) (h : state.Handled id) :
    (state.setPass index after).Handled id := by
  obtain ⟨other, hother, hhandles⟩ := h
  obtain ⟨i, hi⟩ := List.mem_iff_getElem?.mp hother
  obtain ⟨hlt, -⟩ := List.getElem?_eq_some_iff.mp hpass
  by_cases hsame : i = index
  · subst hsame
    rw [hpass] at hi
    cases hi
    exact ⟨after, List.mem_iff_getElem?.mpr ⟨i, List.getElem?_set_self hlt⟩, hafter hhandles⟩
  · refine ⟨other, List.mem_iff_getElem?.mpr ⟨i, ?_⟩, hhandles⟩
    simp only [setPass]
    rw [List.getElem?_set_ne (Ne.symm hsame)]
    exact hi

theorem handled_end_pass (hpass : state.passes[index]? = some pass) {id : String}
    (hends : handles pass id = false) (h : state.Handled id) :
    (state.endPass index).Handled id := by
  obtain ⟨other, hother, hhandles⟩ := h
  obtain ⟨i, hi⟩ := List.mem_iff_getElem?.mp hother
  have hne : i ≠ index := by
    rintro rfl
    rw [hpass] at hi
    cases hi
    rw [hends] at hhandles
    cases hhandles
  refine ⟨other, List.mem_eraseIdx_iff_getElem?.mpr ⟨i, hne, hi⟩, hhandles⟩

theorem Tracked.passes_set (h : Tracked state) (hafter : PassTracked after) :
    ∀ other ∈ (state.setPass index after).passes, PassTracked other := by
  intro other hother
  rcases List.mem_or_eq_of_mem_set hother with hother | rfl
  · exact h.passes other hother
  · exact hafter

theorem set_pass_nonempty (hpass : state.passes[index]? = some pass) (after : QueuePass) :
    (state.setPass index after).passes ≠ [] := by
  obtain ⟨hlt, -⟩ := List.getElem?_eq_some_iff.mp hpass
  intro hnone
  have hlength := congrArg List.length hnone
  simp only [setPass, List.length_set, List.length_nil] at hlength
  omega

theorem Tracked.await (h : Tracked state) (hpass : state.passes[index]? = some pass)
    (hafter : PassTracked after) (hhandles : ∀ id, handles pass id = true → handles after id = true) :
    Tracked (state.setPass index after) := by
  refine h.change (fun item hitem => Or.inl ⟨hitem, fun _ => ?_⟩) (h.passes_set hafter)
    fun hnone => absurd hnone (set_pass_nonempty hpass after)
  exact handled_set_pass hpass (hhandles item.id)

theorem Tracked.end_pass (h : Tracked state) (hpass : state.passes[index]? = some pass)
    (hends : ∀ item ∈ state.store, item.status = .syncing → handles pass item.id = false) :
    Tracked (state.endPass index) := by
  refine h.change (fun item hitem => Or.inl ⟨hitem, fun hstatus => ?_⟩) ?_ fun _ => rfl
  · exact handled_end_pass hpass (hends item hitem hstatus)
  · intro other hother
    exact h.passes other (List.mem_of_mem_eraseIdx hother)

theorem Tracked.next (h : Tracked state) (hpass : state.passes[index]? = some pass)
    (hends : ∀ item ∈ state.store, item.status = .syncing → handles pass item.id = false)
    (itemsToProcess rest : List SyncQueueItem) (now : Int) :
    Tracked (state.nextItem index itemsToProcess now rest) := by
  cases rest with
  | nil => exact h.end_pass hpass hends
  | cons next rest =>
      refine h.change (fun item hitem => Or.inl ⟨hitem, fun hstatus => ?_⟩)
        (h.passes_set ⟨rfl, rfl⟩) fun hnone => absurd hnone (set_pass_nonempty hpass _)
      refine handled_set_pass hpass fun hhandles => ?_
      rw [hends item hitem hstatus] at hhandles
      cases hhandles

theorem Tracked.put (h : Tracked state) (hstatus : record.status ≠ .syncing)
    (hretry : RetryTimePasses record) :
    Tracked { state with store := SyncQueue.put state.store record } := by
  refine h.change (fun item hitem => ?_) h.passes h.idle
  rcases mem_put.mp hitem with rfl | ⟨hold, -⟩
  · exact Or.inr ⟨fun hsyncing => absurd hsyncing hstatus, hretry⟩
  · exact Or.inl ⟨hold, fun _ hhandled => hhandled⟩

theorem Tracked.put_next (h : Tracked state) (hpass : state.passes[index]? = some pass)
    (hstatus : record.status ≠ .syncing) (hretry : RetryTimePasses record)
    (hends : ∀ id, id ≠ record.id → handles pass id = false)
    (itemsToProcess rest : List SyncQueueItem) (now : Int) :
    Tracked (nextItem { state with store := SyncQueue.put state.store record } index
      itemsToProcess now rest) := by
  refine Tracked.next (h.put hstatus hretry) hpass ?_ itemsToProcess rest now
  intro item hitem hsyncing
  rcases mem_put.mp hitem with rfl | ⟨-, hne⟩
  · exact absurd hsyncing hstatus
  · exact hends item.id hne

theorem failed_item_passes {item : SyncQueueItem} {error : String} {now : Int}
    (h : item.retryCount + 1 < item.maxRetries →
      newDate (now + 2 ^ (item.retryCount + 1) * 1000) ≠ none) :
    RetryTimePasses (failedItem item error now) := by
  intro _ hretries
  rw [failed_item_retry_count, failed_item_max_retries] at hretries
  simp only [failedItem, hretries, if_true]
  intro hnone
  exact h hretries (Option.some.inj hnone)

theorem mark_syncing_tracked (h : Tracked state) (hpass : state.passes[index]? = some pass)
    {item : SyncQueueItem} (hid : record.id = item.id) (hstatus : record.status = .syncing)
    (hnone : ∀ id, handles pass id = false) (attempts : List String) (hafter : PassTracked after)
    (hhandles : handles after item.id = true) :
    Tracked (setPass { state with
      store := SyncQueue.put state.store record, attempts := attempts } index after) := by
  obtain ⟨hlt, -⟩ := List.getElem?_eq_some_iff.mp hpass
  refine h.change (fun stored hstored => ?_) (h.passes_set hafter)
    fun hnil => absurd hnil (set_pass_nonempty hpass after)
  rcases mem_put.mp hstored with rfl | ⟨hold, -⟩
  · refine Or.inr ⟨fun _ => ?_, fun hfailed => ?_⟩
    · rw [hid]
      exact ⟨after, List.mem_iff_getElem?.mpr ⟨index, List.getElem?_set_self hlt⟩, hhandles⟩
    · rw [hstatus] at hfailed
      cases hfailed
  · refine Or.inl ⟨hold, fun _ => handled_set_pass hpass fun hheld => ?_⟩
    rw [hnone stored.id] at hheld
    cases hheld

variable {item : SyncQueueItem} {rest : List SyncQueueItem} {stage : ItemStage}

theorem handles_other (hphase : pass.phase = .handle item rest stage) (id : String)
    (hne : id ≠ item.id) : handles pass id = false := by
  cases stage <;> simp [handles, hphase, Ne.symm hne]

section

variable (h : Tracked state)
include h

section

variable (hpass : state.passes[index]? = some pass)
include hpass

section

variable (hphase : pass.phase = .handle item rest stage)
include hphase

theorem Tracked.await_stage {after : ItemStage} (hafter : ∀ record, after ≠ .markSyncing record)
    (hheld : PassTracked ⟨pass.itemsToProcess, .handle item rest after⟩) :
    Tracked (state.setPass index ⟨pass.itemsToProcess, .handle item rest after⟩) := by
  refine h.await hpass hheld fun id hhandles => ?_
  have hid : id = item.id := by
    by_contra hne
    rw [handles_other hphase id hne] at hhandles
    cases hhandles
  subst hid
  cases after with
  | markSyncing record => exact absurd rfl (hafter record)
  | _ => simp [handles]

theorem Tracked.next_missing (hget : get state.store item.id = none) (now : Int) :
    Tracked (state.nextItem index pass.itemsToProcess now rest) :=
  h.next hpass (fun stored hstored _ => handles_other hphase stored.id (get_none hget hstored))
    _ rest now

theorem Tracked.fails (message : String) (caught : Bool)
    (hnot : caught = true → state.NotSyncing item.id) :
    Tracked (if caught then state.endPass index
      else state.setPass index
        ⟨pass.itemsToProcess, .handle item rest (.failedGet message true)⟩) := by
  split
  · next hcaught =>
      refine h.end_pass hpass fun stored hstored hstatus => ?_
      exact handles_other hphase stored.id fun hid => hnot hcaught stored hstored hid hstatus
  · exact h.await_stage hpass hphase (by simp) trivial

theorem step_item_tracked (outcome : AwaitOutcome) (now : Int)
    (hkeeps : state.LosesNoItem (.stepPass index outcome now)) :
    Tracked (state.stepItem index pass.itemsToProcess item rest stage outcome now) := by
  have htracked := h.passes pass (List.mem_of_getElem? hpass)
  simp only [LosesNoItem, hpass, Option.map_some, hphase] at hkeeps
  simp only [PassTracked, hphase] at htracked
  cases stage with
  | markSyncing record =>
      cases outcome with
      | succeeds =>
          exact mark_syncing_tracked h hpass htracked.1 htracked.2 (by simp [handles, hphase])
            _ trivial (by simp [handles])
      | fails message => exact h.await_stage hpass hphase (by simp) trivial
      | returns result => exact h
  | process =>
      cases outcome with
      | returns result =>
          simp only [stepItem]
          split
          · exact h.await_stage hpass hphase (by simp) trivial
          · exact h.await_stage hpass hphase (by simp) trivial
      | succeeds | fails => exact h
  | completedGet metadata =>
      cases outcome with
      | succeeds =>
          simp only [stepItem]
          split
          · next found hget => exact h.await_stage hpass hphase (by simp) ⟨(get_some hget).2, rfl⟩
          · next hget => exact h.next_missing hpass hphase hget now
      | fails message => exact h.await_stage hpass hphase (by simp) trivial
      | returns result => exact h
  | completedPut record =>
      cases outcome with
      | succeeds =>
          refine h.put_next hpass ?_ ?_ (htracked.1 ▸ handles_other hphase) _ rest now
          · simp [htracked.2]
          · intro hfailed
            rw [htracked.2] at hfailed
            cases hfailed
      | fails message => exact h.await_stage hpass hphase (by simp) trivial
      | returns result => exact h
  | failedGet error caught =>
      cases outcome with
      | succeeds =>
          simp only [stepItem]
          split
          · next found hget =>
              obtain ⟨hfound, hid⟩ := get_some hget
              refine h.await_stage hpass hphase (by simp) ⟨?_, failed_item_status _ _ _, ?_⟩
              · rw [failed_item_id, hid]
              · apply failed_item_passes
                cases caught <;> exact hkeeps found hfound hid
          · next hget => exact h.next_missing hpass hphase hget now
      | fails message =>
          refine h.fails hpass hphase message caught fun hcaught => ?_
          subst hcaught
          exact hkeeps
      | returns result => exact h
  | failedPut record caught =>
      cases outcome with
      | succeeds =>
          refine h.put_next hpass ?_ htracked.2.2 (htracked.1 ▸ handles_other hphase) _ rest now
          simp [htracked.2.1]
      | fails message =>
          refine h.fails hpass hphase message caught fun hcaught => ?_
          subst hcaught
          exact hkeeps
      | returns result => exact h

end

end

theorem step_pass_tracked (index : Nat) (outcome : AwaitOutcome) (now : Int)
    (hkeeps : state.LosesNoItem (.stepPass index outcome now)) :
    Tracked (state.stepPass index outcome now) := by
  simp only [stepPass]
  cases hpass : state.passes[index]? with
  | none => exact h
  | some pass =>
      cases hphase : pass.phase with
      | getPending =>
          have hnone : ∀ id, handles pass id = false := fun id => by simp [handles, hphase]
          simp only [hphase]
          cases outcome with
          | succeeds => exact h.await hpass trivial fun id hheld => absurd hheld (by simp [hnone])
          | fails message => exact h.end_pass hpass fun item _ _ => hnone item.id
          | returns result => exact h
      | getReadyToRetry pending =>
          have hnone : ∀ id, handles pass id = false := fun id => by simp [handles, hphase]
          simp only [hphase]
          cases outcome with
          | succeeds => exact h.next hpass (fun item _ _ => hnone item.id) _ _ now
          | fails message => exact h.end_pass hpass fun item _ _ => hnone item.id
          | returns result => exact h
      | handle item rest stage =>
          simp only [hphase]
          exact step_item_tracked h hpass hphase outcome now hkeeps

end

theorem step_tracked (state : SyncProcessor) (event : ProcessorEvent) (h : Tracked state)
    (hkeeps : state.LosesNoItem event) : Tracked (state.step event) := by
  cases event with
  | enqueue id type priority maxRetries metadata now =>
      simp only [step, enqueue, add]
      split
      · exact h
      · exact h.put (by simp) (fun hfailed => by cases hfailed)
  | processQueue force onLine =>
      simp only [step, processQueue]
      split
      · exact h
      · split
        · exact h
        · refine h.change (fun item hitem => Or.inl ⟨hitem, fun _ hhandled => ?_⟩) ?_ ?_
          · obtain ⟨pass, hpass, hhandles⟩ := hhandled
            exact ⟨pass, List.mem_append_left _ hpass, hhandles⟩
          · intro pass hpass
            rcases List.mem_append.mp hpass with hpass | hpass
            · exact h.passes pass hpass
            · rw [List.mem_singleton.mp hpass]
              trivial
          · intro hnone
            simp at hnone
  | stepPass index outcome now => exact step_pass_tracked h index outcome now hkeeps
  | crash =>
      refine h.change (fun item hitem => Or.inl ⟨hitem, fun hstatus => ?_⟩) ?_ fun _ => rfl
      · exact absurd hstatus (hkeeps item hitem)
      · simp [step]

theorem waits_of_tracked (h : Tracked state) {item : SyncQueueItem} (hitem : item ∈ state.store)
    (hlive : Live item) (hstatus : item.status ≠ .syncing) : Waits item := by
  obtain ⟨hcompleted, hcancelled, hretries⟩ := hlive
  cases hcase : item.status with
  | pending => exact Or.inl hcase
  | syncing => exact absurd hcase hstatus
  | completed => exact absurd hcase hcompleted
  | cancelled => exact absurd hcase hcancelled
  | failed =>
      have hleft : item.retryCount < item.maxRetries := by
        by_contra hgiven
        exact hretries ⟨hcase, Nat.le_of_not_lt hgiven⟩
      have hvalid := h.retry item hitem hcase hleft
      refine Or.inr ⟨hcase, ?_⟩
      cases htime : item.nextRetryAt with
      | none => exact ⟨0, fun now _ => by simp [readyToRetry, htime]⟩
      | some date =>
          cases date with
          | none => exact absurd htime hvalid
          | some time => exact ⟨time, fun now hnow => by simp [readyToRetry, htime, hnow]⟩

theorem reading_pass_selects (hnone : state.passes = []) (hidle : state.processing = false)
    (now : Int) {item : SyncQueueItem}
    (hitem : item ∈ getAll state.store .pending ++ getReadyToRetry state.store now) :
    ∃ pass ∈ (run step state (readingPass now)).passes, item ∈ pass.itemsToProcess := by
  have hrun : run step state (readingPass now) =
      nextItem { state with processing := true, passes := [⟨[], .getReadyToRetry
        (getAll state.store .pending)⟩] } 0
        (getAll state.store .pending ++ getReadyToRetry state.store now) now
        (getAll state.store .pending ++ getReadyToRetry state.store now) := by
    simp [readingPass, step, processQueue, hidle, hnone, stepPass, setPass]
  rw [hrun]
  cases hitems : getAll state.store .pending ++ getReadyToRetry state.store now with
  | nil =>
      rw [hitems] at hitem
      cases hitem
  | cons first rest =>
      rw [hitems] at hitem
      exact ⟨_, List.mem_cons_self, hitem⟩

theorem picked_up_of_tracked (h : Tracked state) : PickedUp state := by
  intro item hitem hlive
  constructor
  · by_cases hstatus : item.status = .syncing
    · exact Or.inr (h.syncing item hitem hstatus)
    · exact Or.inl (waits_of_tracked h hitem hlive hstatus)
  · intro hnone
    have hstatus : item.status ≠ .syncing := by
      intro hsyncing
      obtain ⟨pass, hpass, -⟩ := h.syncing item hitem hsyncing
      rw [hnone] at hpass
      cases hpass
    rcases waits_of_tracked h hitem hlive hstatus with hpending | ⟨hfailed, time, htime⟩
    · exact ⟨0, fun now _ => reading_pass_selects hnone (h.idle hnone) now
        (List.mem_append_left _ (mem_get_all.mpr ⟨hitem, hpending⟩))⟩
    · exact ⟨time, fun now hnow => reading_pass_selects hnone (h.idle hnone) now
        (List.mem_append_right _
          (mem_get_ready_to_retry.mpr ⟨hitem, hfailed, htime now hnow⟩))⟩

end Passes

/-- No live item is stranded in a run in which nothing crashes or is given up while an
item is stored as syncing. -/
theorem no_item_stranded (events : List ProcessorEvent)
    (h : Meets step LosesNoItem {} events) : PickedUp (run step {} events) := by
  have hstart : Tracked {} := {
    syncing := by simp
    retry := by simp
    passes := by simp
    idle := fun _ => rfl }
  exact picked_up_of_tracked (invariant_of_meets step Tracked step_tracked hstart h)

/-- Queue an item and let a pass mark it as syncing. -/
def startedUpload : List ProcessorEvent :=
  .enqueue "item" .uploadScreenshot 0 3 [] 0 :: readingPass 1 ++ [.stepPass 0 .succeeds 1]

/-- A crash after the failure of an attempt has been written. -/
theorem no_item_stranded_after_failure :
    PickedUp (run step {} (startedUpload ++
      [.stepPass 0 (.returns { success := false }) 2, .stepPass 0 .succeeds 2,
        .stepPass 0 .succeeds 2, .crash])) := by
  apply no_item_stranded
  decide

/-- A crash during the upload leaves the item stored as syncing: it neither waits nor is
handled. -/
theorem stranded_by_crash : ¬ PickedUp (run step {} (startedUpload ++ [.crash])) := by
  intro h
  let stored : SyncQueueItem :=
    { id := "item", type := .uploadScreenshot, status := .syncing, priority := 0,
      metadata := [], retryCount := 0, maxRetries := 3, createdAt := 0, updatedAt := 1 }
  have hlive : Live stored := ⟨by decide, by decide, by decide⟩
  rcases (h stored (by decide) hlive).1 with (hpending | ⟨hfailed, -⟩) | ⟨pass, hpass, -⟩
  · cases hpending
  · cases hfailed
  · cases hpass

end Qontinui.SyncProcessor
