import Qontinui.Offline.SyncProcessor

/-!
The loop of `processMultipleScreenshotUploads` within the passes of the sync queue. A batch
of which one file fails is marked as failed and tried again as a whole, with the files that
were uploaded already.
-/

namespace Qontinui

/-- A `File`, of which the loop reads the name. -/
structure ScreenshotFile where
  name : String
  deriving Repr, DecidableEq

/-- How the upload of one file ends. The reply is that of the server; after it the record
in IndexedDB is written, or that fails. -/
inductive FileOutcome where
  | uploaded (reply : Json) (recordError : Option String)
  | fails (message : String)
  deriving Repr, DecidableEq

/-- Where the loop over the files of a batch stands. -/
structure BatchLoop where
  next : Nat := 0
  results : List Json := []
  errors : List (String × String) := []
  deriving Repr, DecidableEq

namespace BatchLoop

/-- `if (!file) continue`. -/
def skip (loop : BatchLoop) : BatchLoop := { loop with next := loop.next + 1 }

def upload (loop : BatchLoop) (file : ScreenshotFile) : FileOutcome → BatchLoop
  | .uploaded reply none => { loop.skip with results := loop.results ++ [reply] }
  | .uploaded reply (some message) =>
      { loop.skip with
        results := loop.results ++ [reply]
        errors := loop.errors ++ [(file.name, message)] }
  | .fails message => { loop.skip with errors := loop.errors ++ [(file.name, message)] }

/-- What the loop over some number of files returns. -/
def result (loop : BatchLoop) (files : Nat) : SyncResult :=
  if loop.errors.length > 0 then
    { success := false
      error := some (s!"Failed to upload {loop.errors.length}/{files} files")
      data := [("results", .arr loop.results),
        ("errors", .arr (loop.errors.map fun (file, error) =>
          .obj [("file", .str file), ("error", .str error)]))] }
  else { success := true, data := [("results", .arr loop.results)] }

end BatchLoop

def QueuePass.uploading (pass : QueuePass) : Option String :=
  match pass.phase with
  | .handle item _ .process =>
      if item.type = .uploadMultipleScreenshots then some item.id else none
  | _ => none

/-- A sync processor with the loop of each of its passes and the log of uploaded files: the
batch, and the place of the file in it. -/
structure BatchProcessor where
  processor : SyncProcessor := {}
  loops : List BatchLoop := []
  uploaded : List (String × Nat) := []
  deriving Repr, DecidableEq

namespace BatchProcessor

open SyncProcessor Runs

/-- The files in the data of each item, which no request to the store changes. An entry may
be `undefined`. -/
abbrev BatchFiles := String → List (Option ScreenshotFile)

/-- The batch whose loop a step of a pass enters. -/
def startsBatch (processor : SyncProcessor) (index : Nat) (outcome : AwaitOutcome) :
    Option String :=
  match processor.passes[index]?.map QueuePass.phase, outcome with
  | some (.handle item _ (.markSyncing _)), .succeeds =>
      if item.type = .uploadMultipleScreenshots then some item.id else none
  | _, _ => none

/-- A step of a pass. A loop begins at the first file, and goes with its pass. -/
def stepPass (state : BatchProcessor) (index : Nat) (outcome : AwaitOutcome) (now : Int) :
    BatchProcessor :=
  let processor := state.processor.stepPass index outcome now
  { state with
    processor := processor
    loops :=
      if processor.passes.length < state.processor.passes.length then state.loops.eraseIdx index
      else if (startsBatch state.processor index outcome).isSome then state.loops.set index {}
      else state.loops }

def stepFile (files : BatchFiles) (state : BatchProcessor) (index : Nat) (outcome : FileOutcome) :
    BatchProcessor :=
  match state.processor.passes[index]?.bind QueuePass.uploading, state.loops[index]? with
  | some id, some loop =>
      match (files id)[loop.next]? with
      | none => state
      | some none => { state with loops := state.loops.set index loop.skip }
      | some (some file) =>
          { state with
            loops := state.loops.set index (loop.upload file outcome)
            uploaded :=
              match outcome with
              | .uploaded _ _ => state.uploaded ++ [(id, loop.next)]
              | .fails _ => state.uploaded }
  | _, _ => state

/-- The loop of a pass is through and returns to `processQueue`. -/
def returnBatch (files : BatchFiles) (state : BatchProcessor) (index : Nat) (now : Int) :
    BatchProcessor :=
  match state.processor.passes[index]?.bind QueuePass.uploading, state.loops[index]? with
  | some id, some loop =>
      if loop.next < (files id).length then state
      else state.stepPass index (.returns (loop.result (files id).length)) now
  | _, _ => state

inductive BatchEvent where
  | enqueue (id : String) (type : SyncOperationType) (priority : Int) (maxRetries : Nat)
      (metadata : List (String × Json)) (now : Int)
  | processQueue (force onLine : Bool)
  | stepPass (index : Nat) (outcome : AwaitOutcome) (now : Int)
  | stepFile (index : Nat) (outcome : FileOutcome)
  | returnBatch (index : Nat) (now : Int)
  | crash
  deriving Repr, DecidableEq

/-- The result of a batch comes from its loop, that of every other item from outside. -/
def step (files : BatchFiles) (state : BatchProcessor) : BatchEvent → BatchProcessor
  | .enqueue id type priority maxRetries metadata now =>
      { state with
        processor := state.processor.enqueue id type priority maxRetries metadata now }
  | .processQueue force onLine =>
      let processor := state.processor.processQueue force onLine
      { state with
        processor := processor
        loops :=
          if state.processor.passes.length < processor.passes.length then state.loops ++ [{}]
          else state.loops }
  | .stepPass index outcome now =>
      if (state.processor.passes[index]?.bind QueuePass.uploading).isSome then state
      else state.stepPass index outcome now
  | .stepFile index outcome => state.stepFile files index outcome
  | .returnBatch index now => state.returnBatch files index now
  | .crash => { state with processor := state.processor.step .crash, loops := [] }

/-- A pass begins with a batch of which no file was uploaded, and which no pass is uploading. -/
def BeginsUnsent (state : BatchProcessor) : BatchEvent → Prop
  | .stepPass index outcome _ =>
      ∀ id ∈ startsBatch state.processor index outcome,
        (∀ sent ∈ state.uploaded, sent.1 ≠ id) ∧
          ∀ pass ∈ state.processor.passes, pass.uploading ≠ some id
  | _ => True

instance (state : BatchProcessor) (event : BatchEvent) : Decidable (state.BeginsUnsent event) := by
  unfold BeginsUnsent
  split <;> infer_instance

/-! ### The steps of a pass -/

/-- A step ends the pass at `index`, or gives it another phase, that of `started`. -/
inductive Moves (passes : List QueuePass) (index : Nat) (started : Option String) :
    List QueuePass → Prop where
  | stays (h : started = none) : Moves passes index started passes
  | ends (h : index < passes.length) : Moves passes index started (passes.eraseIdx index)
  | goesOn (pass : QueuePass) (h : pass.uploading = started) :
      Moves passes index started (passes.set index pass)

variable {index : Nat}

theorem moves_next_item {processor : SyncProcessor} (h : index < processor.passes.length)
    (items : List SyncQueueItem) (now : Int) (rest : List SyncQueueItem) :
    Moves processor.passes index none (processor.nextItem index items now rest).passes := by
  cases rest with
  | nil => exact .ends h
  | cons item rest => exact .goesOn _ rfl

theorem moves_step_item {processor : SyncProcessor} {items : List SyncQueueItem}
    {item : SyncQueueItem} {rest : List SyncQueueItem} {stage : ItemStage}
    (h : processor.passes[index]? =
      some { itemsToProcess := items, phase := .handle item rest stage }) (outcome : AwaitOutcome)
    (now : Int) :
    Moves processor.passes index (startsBatch processor index outcome)
      (processor.stepItem index items item rest stage outcome now).passes := by
  have hlt : index < processor.passes.length := (List.getElem?_eq_some_iff.mp h).1
  by_cases hmarks : ∃ record, stage = .markSyncing record
  · obtain ⟨record, rfl⟩ := hmarks
    cases outcome with
    | succeeds =>
        refine .goesOn _ ?_
        simp [startsBatch, h, QueuePass.uploading]
    | fails message =>
        refine .goesOn _ ?_
        simp [startsBatch, QueuePass.uploading]
    | returns => exact .stays (by simp [startsBatch])
  · have hstage : ∀ record, stage ≠ .markSyncing record := not_exists.mp hmarks
    have hnone : startsBatch processor index outcome = none := by
      unfold startsBatch
      split
      · next heq =>
          rw [h] at heq
          cases heq
          exact absurd rfl (hstage _)
      · rfl
    rw [hnone]
    have hafter := step_item_cases hstage processor index items item rest outcome now
    generalize processor.stepItem index items item rest stage outcome now = after at hafter
    cases hafter with
    | stays => exact .stays rfl
    | awaits later unmarked processed =>
        refine .goesOn _ ?_
        cases later with
        | process => exact absurd rfl processed
        | markSyncing | completedGet | completedPut | failedGet | failedPut => rfl
    | comesToNext store =>
        let stored := { processor with store := store }
        exact moves_next_item (show index < stored.passes.length from hlt) items now rest
    | ends => exact .ends hlt

theorem moves_step_pass (processor : SyncProcessor) (index : Nat) (outcome : AwaitOutcome)
    (now : Int) :
    Moves processor.passes index (startsBatch processor index outcome)
      (processor.stepPass index outcome now).passes := by
  unfold SyncProcessor.stepPass
  cases hpass : processor.passes[index]? with
  | none => exact .stays (by simp [startsBatch, hpass])
  | some pass =>
      have hlt : index < processor.passes.length := (List.getElem?_eq_some_iff.mp hpass).1
      obtain ⟨items, phase⟩ := pass
      cases phase with
      | getPending =>
          have hnone : startsBatch processor index outcome = none := by simp [startsBatch, hpass]
          rw [hnone]
          cases outcome with
          | succeeds => exact .goesOn _ rfl
          | fails => exact .ends hlt
          | returns => exact .stays rfl
      | getReadyToRetry pending =>
          have hnone : startsBatch processor index outcome = none := by simp [startsBatch, hpass]
          rw [hnone]
          cases outcome with
          | succeeds => exact moves_next_item hlt _ now _
          | fails => exact .ends hlt
          | returns => exact .stays rfl
      | handle item rest stage => exact moves_step_item hpass outcome now

/-! ### The files uploaded so far -/

/-- No file is uploaded twice. A pass that uploads a batch is past every file of it that was
uploaded, and no other pass uploads the same batch. -/
structure OneSender (passes : List QueuePass) (loops : List BatchLoop)
    (uploaded : List (String × Nat)) : Prop where
  lengths : loops.length = passes.length
  once : uploaded.Nodup
  ahead : ∀ (k : Nat) (id : String) (loop : BatchLoop),
    passes[k]?.bind QueuePass.uploading = some id → loops[k]? = some loop →
      ∀ place, (id, place) ∈ uploaded → place < loop.next
  apart : ∀ (j k : Nat) (id : String), passes[j]?.bind QueuePass.uploading = some id →
    passes[k]?.bind QueuePass.uploading = some id → j = k

section OneSender

variable {passes : List QueuePass} {loops : List BatchLoop} {uploaded : List (String × Nat)}

theorem OneSender.erase (h : OneSender passes loops uploaded) (index : Nat) :
    OneSender (passes.eraseIdx index) (loops.eraseIdx index) uploaded := by
  refine ⟨by simp [List.length_eraseIdx, h.lengths], h.once, ?_, ?_⟩
  · intro k id loop hid hloop
    rw [List.getElem?_eraseIdx] at hid hloop
    split at hid
    · next hlt =>
        rw [if_pos hlt] at hloop
        exact h.ahead k id loop hid hloop
    · next hle =>
        rw [if_neg hle] at hloop
        exact h.ahead (k + 1) id loop hid hloop
  · intro j k id hj hk
    rw [List.getElem?_eraseIdx] at hj hk
    split at hj <;> split at hk
    all_goals
      have heq := h.apart _ _ id hj hk
      omega

variable {index : Nat}

section

variable (h : OneSender passes loops uploaded)
include h

theorem OneSender.leave {pass : QueuePass} (hpass : pass.uploading = none) :
    OneSender (passes.set index pass) loops uploaded := by
  have hother : ∀ (k : Nat) (id : String),
      (passes.set index pass)[k]?.bind QueuePass.uploading = some id →
      passes[k]?.bind QueuePass.uploading = some id := by
    intro k id hid
    rw [List.getElem?_set] at hid
    split at hid
    · split at hid
      · simp [hpass] at hid
      · cases hid
    · exact hid
  refine ⟨by simp [h.lengths], h.once, fun k id loop hid => h.ahead k id loop (hother k id hid),
    fun j k id hj hk => h.apart j k id (hother j id hj) (hother k id hk)⟩

/-- A pass begins with a batch of which nothing was sent. -/
theorem OneSender.enter {pass : QueuePass} {id : String} (hpass : pass.uploading = some id)
    (hunsent : ∀ sent ∈ uploaded, sent.1 ≠ id) (hidle : ∀ other ∈ passes, other.uploading ≠ some id) :
    OneSender (passes.set index pass) (loops.set index {}) uploaded := by
  have hcases : ∀ (k : Nat) (other : String),
      (passes.set index pass)[k]?.bind QueuePass.uploading = some other →
      (k = index ∧ other = id) ∨
        (k ≠ index ∧ passes[k]?.bind QueuePass.uploading = some other ∧ other ≠ id) := by
    intro k other hother
    rw [List.getElem?_set] at hother
    split at hother
    · next heq =>
        split at hother
        · simp only [Option.bind_some, hpass, Option.some.injEq] at hother
          exact .inl ⟨heq.symm, hother.symm⟩
        · cases hother
    · next hne =>
        refine .inr ⟨Ne.symm hne, hother, ?_⟩
        rintro rfl
        obtain ⟨found, hfound, huploading⟩ := Option.bind_eq_some_iff.mp hother
        exact hidle found (List.mem_of_getElem? hfound) huploading
  refine ⟨by simp [h.lengths], h.once, ?_, ?_⟩
  · intro k other loop hother hloop place hplace
    rcases hcases k other hother with ⟨-, rfl⟩ | ⟨hne, hbefore, -⟩
    · exact absurd rfl (hunsent _ hplace)
    · rw [List.getElem?_set_ne (Ne.symm hne)] at hloop
      exact h.ahead k other loop hbefore hloop place hplace
  · intro j k other hj hk
    rcases hcases j other hj with ⟨rfl, rfl⟩ | ⟨-, hbefore, hne⟩
    · rcases hcases k other hk with ⟨rfl, -⟩ | ⟨-, -, hne⟩
      · rfl
      · exact absurd rfl hne
    · rcases hcases k other hk with ⟨-, heq⟩ | ⟨-, hbefore', -⟩
      · exact absurd heq hne
      · exact h.apart j k other hbefore hbefore'

/-- The loop of a pass comes to the next file, which may have been uploaded. -/
theorem OneSender.advance {id : String} {loop after : BatchLoop}
    (hid : passes[index]?.bind QueuePass.uploading = some id) (hloop : loops[index]? = some loop)
    (hnext : after.next = loop.next + 1) {sent : List (String × Nat)}
    (hsent : sent = [] ∨ sent = [(id, loop.next)]) :
    OneSender passes (loops.set index after) (uploaded ++ sent) := by
  have hnew : ∀ place, (id, place) ∈ uploaded → place < loop.next :=
    h.ahead index id loop hid hloop
  refine ⟨by simp [h.lengths], ?_, ?_, h.apart⟩
  · rcases hsent with rfl | rfl
    · simpa using h.once
    · refine List.nodup_append.mpr ⟨h.once, List.nodup_singleton _, ?_⟩
      rintro entry hentry other hother rfl
      cases List.mem_singleton.mp hother
      exact absurd (hnew _ hentry) (Nat.lt_irrefl _)
  · intro k other found hother hfound place hplace
    by_cases hk : k = index
    · subst hk
      cases hid.symm.trans hother
      have hlt : k < loops.length := (List.getElem?_eq_some_iff.mp hloop).1
      rw [List.getElem?_set_self hlt] at hfound
      cases hfound
      rcases List.mem_append.mp hplace with hold | hin
      · have := hnew place hold
        omega
      · rcases hsent with rfl | rfl
        · cases hin
        · cases List.mem_singleton.mp hin
          omega
    · rw [List.getElem?_set_ne (Ne.symm hk)] at hfound
      rcases List.mem_append.mp hplace with hold | hin
      · exact h.ahead k other found hother hfound place hold
      · rcases hsent with rfl | rfl
        · cases hin
        · cases List.mem_singleton.mp hin
          exact absurd (h.apart k index _ hother hid) hk

theorem OneSender.begin :
    OneSender (passes ++ [({} : QueuePass)]) (loops ++ [({} : BatchLoop)]) uploaded := by
  have hcases : ∀ (k : Nat) (id : String),
      (passes ++ [({} : QueuePass)])[k]?.bind QueuePass.uploading = some id →
      k < passes.length ∧ passes[k]?.bind QueuePass.uploading = some id := by
    intro k id hid
    rcases Nat.lt_or_ge k passes.length with hlt | hge
    · rw [List.getElem?_append_left hlt] at hid
      exact ⟨hlt, hid⟩
    · rw [List.getElem?_append_right hge] at hid
      cases hk : k - passes.length <;> simp [hk, QueuePass.uploading] at hid
  refine ⟨by simp [h.lengths], h.once, ?_, ?_⟩
  · intro k id loop hid hloop
    obtain ⟨hlt, hbefore⟩ := hcases k id hid
    rw [List.getElem?_append_left (h.lengths.symm ▸ hlt)] at hloop
    exact h.ahead k id loop hbefore hloop
  · exact fun j k id hj hk => h.apart j k id (hcases j id hj).2 (hcases k id hk).2

end

end OneSender

/-! ### The runs -/

variable {files : BatchFiles} {state : BatchProcessor}

def SendsOnce (state : BatchProcessor) : Prop :=
  OneSender state.processor.passes state.loops state.uploaded

theorem sends_once_step_pass (h : state.SendsOnce) {outcome : AwaitOutcome} (now : Int)
    (hbegins : state.BeginsUnsent (.stepPass index outcome now)) :
    (state.stepPass index outcome now).SendsOnce := by
  have hmoves := moves_step_pass state.processor index outcome now
  simp only [SendsOnce, stepPass]
  generalize (state.processor.stepPass index outcome now).passes = after at hmoves
  cases hmoves with
  | stays hnone =>
      rw [if_neg (Nat.lt_irrefl _), hnone]
      exact h
  | ends hlt =>
      rw [if_pos (by rw [List.length_eraseIdx, if_pos hlt]; omega)]
      exact h.erase index
  | goesOn pass hpass =>
      rw [if_neg (by simp)]
      cases hstarts : startsBatch state.processor index outcome with
      | none => exact h.leave (hpass.trans hstarts)
      | some id =>
          obtain ⟨hunsent, hidle⟩ := hbegins id hstarts
          exact h.enter (hpass.trans hstarts) hunsent hidle

theorem sends_once_step_file (h : state.SendsOnce) (index : Nat) (outcome : FileOutcome) :
    (state.stepFile files index outcome).SendsOnce := by
  unfold stepFile
  split
  · next id loop hid hloop =>
      split
      · exact h
      · have hskip := h.advance hid hloop (rfl : loop.skip.next = loop.next + 1) (.inl rfl)
        simpa [SendsOnce] using hskip
      · next file hfile =>
          have hnext : (loop.upload file outcome).next = loop.next + 1 := by
            unfold BatchLoop.upload
            split <;> rfl
          cases outcome with
          | uploaded reply recordError => exact h.advance hid hloop hnext (.inr rfl)
          | fails message =>
              have hfails := h.advance hid hloop hnext (.inl rfl)
              simpa [SendsOnce] using hfails
  · exact h

theorem sends_once_step (files : BatchFiles) (state : BatchProcessor) (event : BatchEvent)
    (h : state.SendsOnce) (hbegins : state.BeginsUnsent event) :
    (step files state event).SendsOnce := by
  cases event with
  | enqueue id type priority maxRetries metadata now => exact h
  | processQueue force onLine =>
      simp only [step, SendsOnce, SyncProcessor.processQueue]
      split
      · simpa [SendsOnce] using h
      · split
        · simpa [SendsOnce] using h
        · rw [if_pos (by simp)]
          exact h.begin
  | stepPass index outcome now =>
      simp only [step]
      split
      · exact h
      · exact sends_once_step_pass h now hbegins
  | stepFile index outcome => exact sends_once_step_file h index outcome
  | returnBatch index now =>
      simp only [step, returnBatch]
      split
      · next id loop hid hloop =>
          split
          · exact h
          · refine sends_once_step_pass h now fun started hstarted => ?_
            simp [startsBatch] at hstarted
      · exact h
  | crash =>
      show OneSender [] [] state.uploaded
      exact ⟨rfl, h.once, by simp, by simp⟩

/-- No file of a batch is uploaded twice as long as no pass begins with a batch of which a
file was uploaded, or which another pass is uploading. -/
theorem uploaded_once (files : BatchFiles) (store : SyncQueue.Store) (events : List BatchEvent)
    (h : Meets (step files) BeginsUnsent { processor := { store := store } } events) :
    ∀ front, front <+: events →
      (run (step files) { processor := { store := store } } front).uploaded.Nodup := by
  rintro front ⟨rest, rfl⟩
  have hstart : SendsOnce { processor := { store := store } } :=
    ⟨rfl, List.nodup_nil, by simp, by simp⟩
  have hfront := ((meets_append _ _ front rest).mp h).1
  exact (invariant_of_meets _ SendsOnce (sends_once_step files) hstart hfront).once

def twoScreenshots : SyncQueueItem where
  id := "batch"
  type := .uploadMultipleScreenshots
  status := .pending
  priority := 0
  metadata := []
  retryCount := 0
  maxRetries := 3
  createdAt := 1000
  updatedAt := 1000

def twoFiles : BatchFiles := fun _ => [some ⟨"login.png"⟩, some ⟨"home.png"⟩]

/-- A pass up to the loop over the files of its first item. -/
def passUpTo (now : Int) : List BatchEvent :=
  [.processQueue false true, .stepPass 0 .succeeds now, .stepPass 0 .succeeds now,
    .stepPass 0 .succeeds now]

def bothAtOnce : List BatchEvent :=
  passUpTo 2000 ++ [.stepFile 0 (.uploaded .null none), .stepFile 0 (.uploaded .null none),
    .returnBatch 0 2000, .stepPass 0 .succeeds 2000, .stepPass 0 .succeeds 2000]

theorem uploaded_once_at_once :
    let state := run (step twoFiles) { processor := { store := [twoScreenshots] } } bothAtOnce
    state.uploaded = [("batch", 0), ("batch", 1)] ∧ state.uploaded.Nodup :=
  ⟨by decide +kernel,
    uploaded_once twoFiles [twoScreenshots] bothAtOnce (by decide +kernel) bothAtOnce
      List.prefix_rfl⟩

/-- The second file fails, and the pass after the retry time uploads both. -/
def retriedBatch : List BatchEvent :=
  passUpTo 2000 ++ [.stepFile 0 (.uploaded .null none), .stepFile 0 (.fails "Network error"),
    .returnBatch 0 2000, .stepPass 0 .succeeds 2000, .stepPass 0 .succeeds 2000] ++
    passUpTo 9000 ++ [.stepFile 0 (.uploaded .null none), .stepFile 0 (.uploaded .null none)]

/-- The first file is uploaded by both passes. -/
theorem uploaded_again_by_retry :
    (run (step twoFiles) { processor := { store := [twoScreenshots] } } retriedBatch).uploaded =
        [("batch", 0), ("batch", 0), ("batch", 1)] ∧
      ¬ ∀ front, front <+: retriedBatch →
        (run (step twoFiles) { processor := { store := [twoScreenshots] } }
          front).uploaded.Nodup := by
  have huploaded : (run (step twoFiles) { processor := { store := [twoScreenshots] } }
      retriedBatch).uploaded = [("batch", 0), ("batch", 0), ("batch", 1)] := by
    decide +kernel
  refine ⟨huploaded, fun h => ?_⟩
  have hnodup := h retriedBatch List.prefix_rfl
  rw [huploaded] at hnodup
  revert hnodup
  decide

end BatchProcessor

end Qontinui
