import Qontinui.Base.Runs
import Qontinui.Sync.AutoSave

/-!
When auto-save calls unsaved work saved. A pass that has written the workflow clears the flag
at its end, whatever came in between, and an edit is noticed by its 32-bit hash alone, which a
pass takes from the workflow that it finds at its start.
-/

namespace Qontinui

open Runs

def WorkflowObject.unstamped (workflow : WorkflowObject) : WorkflowObject :=
  Fields.set "metadata" (.obj (Fields.erase "updated" workflow.metadata)) workflow

theorem WorkflowObject.unstamped_stamped (workflow : WorkflowObject) (now : String) :
    (workflow.stamped now).unstamped = workflow.unstamped := by
  have hmetadata : (workflow.stamped now).metadata =
      Fields.set "updated" (.str now) workflow.metadata := by
    simp [metadata, stamped]
  rw [unstamped, hmetadata, Fields.erase_set_self, stamped, Fields.set_set, unstamped]

def SavePass.written : SavePass → Bool
  | .saving _ (.ok ()) | .recording _ (.ok ()) => true
  | _ => false

namespace AutoSaveService

variable (callees : Callees)

/-- A workflow is the one that was last set or, but for the time of the save, the one in the
storage under its key. -/
def Kept (service : AutoSaveService) (workflow : WorkflowObject) : Prop :=
  (∃ last, service.lastSet = some last ∧ Json.Same (some (.obj workflow)) (some (.obj last))) ∨
    ∃ stored : WorkflowObject, service.localStorage (getAutoSaveKey callees workflow) =
        some (.obj stored) ∧
      Json.Same (some (.obj workflow.unstamped)) (some (.obj stored.unstamped))

def Settled (service : AutoSaveService) : Prop :=
  ∀ workflow, service.currentWorkflow = some workflow → Kept callees service workflow

def Honest (service : AutoSaveService) : Prop :=
  service.saveState.hasUnsavedChanges = false → Settled callees service

/-- The condition on an event: an edit that brings a workflow which is not kept comes while no
pass stands between its write and its end, and it has another hash than the last one kept
where no change is noted yet. -/
def Noticed (service : AutoSaveService) : AutoSaveEvent → Prop
  | .updateWorkflow workflow => Kept callees service workflow ∨
      (service.saveState.hasUnsavedChanges = true ∨
        some (hashWorkflow callees workflow) ≠ service.currentHash) ∧
      ∀ pass ∈ service.passes, pass.written = false
  | _ => True

/-- What the noticed edits keep: the flag is honest, and what a pass has written is still what
is current when it comes to its end. -/
structure Tracked (service : AutoSaveService) : Prop where
  honest : Honest callees service
  written : (∃ pass ∈ service.passes, pass.written = true) → Settled callees service

variable {callees} {service next : AutoSaveService}

/-! ### Keys -/

theorem historyKey_ne (workflow other : WorkflowObject) :
    getAutoSaveKey callees workflow ≠ getHistoryKey callees other := by
  intro h
  have hchars : ("workflow-autosave:".toList ++ (idText callees workflow).toList)[9]? =
      ("workflow-history:".toList ++ (idText callees other).toList)[9]? := by
    rw [← String.toList_append, ← String.toList_append]
    exact congrArg (fun text : String => text.toList[9]?) h
  rw [List.getElem?_append_left (by decide), List.getElem?_append_left (by decide)] at hchars
  exact absurd hchars (by decide)

variable {workflow : WorkflowObject}

theorem Kept.congr (h : Kept callees service workflow) (hlast : next.lastSet = service.lastSet)
    (hstorage : next.localStorage (getAutoSaveKey callees workflow) =
      service.localStorage (getAutoSaveKey callees workflow)) : Kept callees next workflow := by
  unfold Kept
  rw [hlast, hstorage]
  exact h

theorem kept_of_stored {now : String} (h : service.localStorage (getAutoSaveKey callees workflow) =
      some (.obj (workflow.stamped now))) : Kept callees service workflow := by
  refine .inr ⟨_, h, ?_⟩
  rw [WorkflowObject.unstamped_stamped]
  exact Json.Same.refl _

/-! ### Passes -/

/-- What a pass does to the service when it goes on, and where it waits then. -/
structure Proceeds (callees : Callees) (service : AutoSaveService) (pass : SavePass)
    (result : AutoSaveService × Option SavePass) : Prop where
  passes : result.1.passes = service.passes
  settled : Settled callees service → Settled callees result.1
  written : ∀ later ∈ result.2, later.written = true →
    Settled callees result.1 ∨ pass.written = true
  flag : result.1.saveState.hasUnsavedChanges = false →
    service.saveState.hasUnsavedChanges = false ∨ pass.written = true

variable {pass : SavePass} {index : Nat}

theorem Proceeds.stays {later : Option SavePass} {saveState : SaveState}
    (hflag : saveState.hasUnsavedChanges = false →
      service.saveState.hasUnsavedChanges = false ∨ pass.written = true)
    (hwritten : ∀ next ∈ later, next.written = false) :
    Proceeds callees service pass ({ service with saveState := saveState }, later) := by
  refine ⟨rfl, fun h => h, fun next hnext h => ?_, hflag⟩
  cases (hwritten next hnext).symm.trans h

theorem saveWorkflow_cases (moment : SaveMoment) (workflow : WorkflowObject) (key : String)
    (storage : String → Option Json) :
    (∃ message, saveWorkflow callees moment workflow key storage = (.error message, storage)) ∨
      saveWorkflow callees moment workflow key storage =
        (.ok (), Function.update storage key (some (.obj (workflow.stamped moment.now)))) := by
  unfold saveWorkflow
  split
  · exact .inl ⟨_, rfl⟩
  · split
    · exact .inl ⟨_, rfl⟩
    · exact .inr rfl

theorem beginSave_proceeds (callees : Callees) (service : AutoSaveService) (moment : SaveMoment)
    (pass : SavePass) (currentHash : String) :
    Proceeds callees service pass (service.beginSave callees moment currentHash) := by
  unfold beginSave
  split
  · exact .stays (fun h => .inl h) nofun
  · rename_i workflow hcurrent
    dsimp only
    rcases saveWorkflow_cases moment workflow (getAutoSaveKey callees workflow)
      service.localStorage with ⟨message, hsave⟩ | hsave
    · rw [hsave]
      refine .stays (fun h => .inl h) fun next hnext => ?_
      cases hnext
      rfl
    · have hsettled : Settled callees { service with
          localStorage := Function.update service.localStorage (getAutoSaveKey callees workflow)
            (some (.obj (workflow.stamped moment.now))) } := by
        intro other hother
        cases hcurrent.symm.trans hother
        exact kept_of_stored (Function.update_self _ _ _)
      rw [hsave]
      exact ⟨rfl, fun _ => hsettled, fun _ _ _ => .inl hsettled, fun h => .inl h⟩

theorem addToHistory_keeps (callees : Callees) (moment : SaveMoment) (maxHistorySize : Nat)
    (workflow other : WorkflowObject) (storage : String → Option Json) :
    (addToHistory callees moment maxHistorySize workflow storage).2
      (getAutoSaveKey callees other) = storage (getAutoSaveKey callees other) := by
  unfold addToHistory
  split
  · rfl
  · split
    · rfl
    · dsimp only
      rw [Function.update_of_ne (historyKey_ne other workflow)]

theorem proceed_proceeds (callees : Callees) (service : AutoSaveService) (moment : SaveMoment)
    (pass : SavePass) :
    Proceeds callees service pass (service.proceed callees moment pass) := by
  cases pass with
  | detecting currentHash savedHash =>
      refine .stays (fun h => .inl h) fun next hnext => ?_
      cases hnext
      rfl
  | detected currentHash hasConflict =>
      cases hasConflict with
      | true =>
          refine .stays (fun h => .inl h) fun next hnext => ?_
          cases hnext
          rfl
      | false => exact beginSave_proceeds callees service moment _ currentHash
  | resolving currentHash => exact beginSave_proceeds callees service moment _ currentHash
  | saving currentHash result =>
      cases result with
      | error message => exact .stays (fun h => .inl h) nofun
      | ok =>
          unfold proceed
          dsimp only
          split
          · refine .stays (fun h => .inl h) fun next hnext => ?_
            cases hnext
            rfl
          · rename_i workflow _
            refine ⟨rfl, fun h other hother => ?_, fun _ _ _ => .inr rfl, fun h => .inl h⟩
            exact (h other hother).congr rfl (addToHistory_keeps callees moment _ workflow other _)
  | recording currentHash result =>
      cases result with
      | error message => exact .stays (fun h => .inl h) nofun
      | ok => exact ⟨rfl, fun h => h, nofun, fun _ => .inr rfl⟩

theorem Proceeds.tracked (h : Tracked callees service) {result : AutoSaveService × Option SavePass}
    (hresult : Proceeds callees service pass result)
    (hpass : pass.written = true → Settled callees service) {passes : List SavePass}
    (hpasses : ∀ other ∈ passes, other ∈ service.passes ∨ other ∈ result.2) :
    Tracked callees { result.1 with passes := passes } := by
  have hwritten : pass.written = true → Settled callees result.1 :=
    fun hpassed => hresult.settled (hpass hpassed)
  constructor
  · intro hflag
    rcases hresult.flag hflag with hold | hpassed
    · exact hresult.settled (h.honest hold)
    · exact hwritten hpassed
  · rintro ⟨other, hother, hdone⟩
    rcases hpasses other hother with hold | hlater
    · exact hresult.settled (h.written ⟨other, hold, hdone⟩)
    · exact (hresult.written other hlater hdone).elim id hwritten

/-! ### Steps -/

theorem setWorkflow_tracked (service : AutoSaveService) (workflow : Option WorkflowObject) :
    Tracked callees (service.setWorkflow callees workflow) := by
  have hsettled : Settled callees (service.setWorkflow callees workflow) := by
    intro other hother
    exact .inl ⟨other, hother, Json.Same.refl _⟩
  exact ⟨fun _ => hsettled, fun _ => hsettled⟩

theorem updateWorkflow_tracked (hnoticed : Noticed callees service (.updateWorkflow workflow)) :
    Tracked callees (service.updateWorkflow callees workflow) := by
  have hsettled : Kept callees service workflow →
      Settled callees (service.updateWorkflow callees workflow) := by
    intro hkept other hother
    cases hother
    exact hkept
  rcases hnoticed with hkept | ⟨hnoted, hpasses⟩
  · exact ⟨fun _ => hsettled hkept, fun _ => hsettled hkept⟩
  · constructor
    · intro hflag
      obtain ⟨hsame, hold⟩ := Bool.or_eq_false_iff.mp hflag
      rcases hnoted with hnoted | hhash
      · cases hold.symm.trans hnoted
      · exact absurd (by simpa using hsame) hhash
    · rintro ⟨pass, hpass, hwritten⟩
      cases (hpasses pass hpass).symm.trans hwritten

theorem performAutoSave_tracked (h : Tracked callees service) (moment : SaveMoment) :
    Tracked callees (service.performAutoSave callees moment) := by
  unfold performAutoSave
  split
  · exact h
  · rename_i workflow _
    dsimp only
    split_ifs with hsame hdetect
    · exact h
    · refine ⟨h.honest, ?_⟩
      rintro ⟨pass, hpass, hwritten⟩
      rcases List.mem_append.mp hpass with hold | hnew
      · exact h.written ⟨pass, hold, hwritten⟩
      · rw [List.mem_singleton.mp hnew] at hwritten
        cases hwritten
    · have hsaving : Tracked callees { service with
          saveState := { service.saveState with status := .saving } } := ⟨h.honest, h.written⟩
      have hproceeds := beginSave_proceeds callees { service with
          saveState := { service.saveState with status := .saving } } moment
        (.resolving (hashWorkflow callees workflow)) (hashWorkflow callees workflow)
      apply hproceeds.tracked hsaving nofun
      intro other hother
      rw [hproceeds.passes] at hother
      exact (List.mem_append.mp hother).imp_right fun hnew => by simpa using hnew

theorem step_resume_tracked (h : Tracked callees service) (index : Nat) (moment : SaveMoment) :
    Tracked callees (service.step callees (.resume index moment)) := by
  unfold step
  dsimp only
  split
  · exact h
  · rename_i pass hpass
    have hproceeds := proceed_proceeds callees service moment pass
    have hsettled : pass.written = true → Settled callees service :=
      fun hwritten => h.written ⟨pass, List.mem_of_getElem? hpass, hwritten⟩
    split
    · rename_i next later hresult
      rw [hresult] at hproceeds
      apply hproceeds.tracked h hsettled
      intro other hother
      rw [hproceeds.passes] at hother
      exact (List.mem_or_eq_of_mem_set hother).imp_right fun heq => congrArg some heq.symm
    · rename_i next hresult
      rw [hresult] at hproceeds
      apply hproceeds.tracked h hsettled
      intro other hother
      rw [hproceeds.passes] at hother
      exact .inl (List.mem_of_mem_eraseIdx hother)

theorem step_tracked (service : AutoSaveService) (event : AutoSaveEvent)
    (h : Tracked callees service) (hnoticed : Noticed callees service event) :
    Tracked callees (service.step callees event) := by
  cases event with
  | setWorkflow workflow => exact setWorkflow_tracked service workflow
  | updateWorkflow workflow => exact updateWorkflow_tracked hnoticed
  | performAutoSave moment => exact performAutoSave_tracked h moment
  | resume index moment => exact step_resume_tracked h index moment

/-! ### Edits that are not noticed -/

def HistoryReadable (callees : Callees) (service : AutoSaveService) (workflow : WorkflowObject) :
    Prop :=
  ∀ stored, service.localStorage (getHistoryKey callees workflow) = some stored →
    ∃ entries, stored = .arr entries

theorem not_honest (workflow : WorkflowObject) (hcurrent : service.currentWorkflow = some workflow)
    (hkept : ¬Kept callees service workflow)
    (hflag : service.saveState.hasUnsavedChanges = false) : ¬Honest callees service :=
  fun h => hkept (h hflag workflow hcurrent)

theorem step_resume (hpass : service.passes[index]? = some pass) (moment : SaveMoment) :
    service.step callees (.resume index moment) =
      match service.proceed callees moment pass with
      | (next, some pass) => { next with passes := next.passes.set index pass }
      | (next, none) => { next with passes := next.passes.eraseIdx index } := by
  unfold step
  dsimp only
  split
  · rename_i hnone
    cases hnone.symm.trans hpass
  · rename_i found hfound
    cases hfound.symm.trans hpass
    rfl

theorem recording_ends {currentHash : String}
    (hpass : service.passes[index]? = some (.recording currentHash (.ok ())))
    (hcurrent : service.currentWorkflow = some workflow) (hkept : ¬Kept callees service workflow) :
    ¬Honest callees (service.step callees (.resume index {})) := by
  rw [step_resume hpass]
  exact not_honest _ hcurrent hkept rfl

theorem saving_ends {currentHash : String}
    (hpass : service.passes[index]? = some (.saving currentHash (.ok ())))
    (hcurrent : service.currentWorkflow = some workflow) (hkept : ¬Kept callees service workflow)
    (hhistory : HistoryReadable callees service workflow) :
    ¬Honest callees (run (step callees) service [.resume index {}, .resume index {}]) := by
  have hentries : ∃ entries,
      historyEntries (service.localStorage (getHistoryKey callees workflow)) = .ok entries := by
    cases hstored : service.localStorage (getHistoryKey callees workflow) with
    | none => exact ⟨[], rfl⟩
    | some stored =>
        obtain ⟨entries, rfl⟩ := hhistory stored hstored
        exact ⟨entries, rfl⟩
  obtain ⟨entries, hentries⟩ := hentries
  have hadded : (addToHistory callees {} service.config.maxHistorySize workflow
      service.localStorage).1 = .ok () := by
    rw [addToHistory, hentries]
  obtain ⟨next, hnext, hindex, hsame, hother⟩ : ∃ next,
      service.step callees (.resume index {}) = next ∧
      next.passes[index]? = some (.recording currentHash (.ok ())) ∧
      next.currentWorkflow = some workflow ∧ ¬Kept callees next workflow := by
    refine ⟨_, rfl, ?_⟩
    rw [step_resume hpass]
    simp only [proceed, hcurrent, hadded]
    refine ⟨List.getElem?_set_self (List.getElem?_eq_some_iff.mp hpass).1, trivial, ?_⟩
    exact fun h => hkept (h.congr rfl (addToHistory_keeps callees _ _ _ _ _).symm)
  rw [run_cons, run_cons, run_nil, hnext]
  exact recording_ends hindex hsame hother

theorem unnoticed_ends (h : ¬Noticed callees service (.updateWorkflow workflow))
    (hhistory : HistoryReadable callees service workflow) :
    ∃ rest, (∀ event ∈ rest, ∃ index moment, event = .resume index moment) ∧
      ¬Honest callees (run (step callees) service (.updateWorkflow workflow :: rest)) := by
  simp only [Noticed, not_or, not_and_or] at h
  obtain ⟨hkept, ⟨hflag, hhash⟩ | hwritten⟩ := h
  · refine ⟨[], nofun, not_honest workflow rfl hkept ?_⟩
    rw [not_not] at hhash
    simpa [run, step, updateWorkflow, hhash] using hflag
  · push Not at hwritten
    obtain ⟨pass, hpass, hwritten⟩ := hwritten
    obtain ⟨index, hindex⟩ := List.mem_iff_getElem?.mp hpass
    cases pass with
    | detecting | detected | resolving => exact absurd rfl hwritten
    | saving currentHash result =>
        cases result with
        | error message => exact absurd rfl hwritten
        | ok =>
            refine ⟨[.resume index {}, .resume index {}], ?_, ?_⟩
            · simp
            · rw [run_cons]
              exact saving_ends hindex rfl hkept hhistory
    | recording currentHash result =>
        cases result with
        | error message => exact absurd rfl hwritten
        | ok =>
            refine ⟨[.resume index {}], by simp, ?_⟩
            rw [run_cons, run_cons, run_nil]
            exact recording_ends hindex rfl hkept

/-! ### Runs -/

/-- Where every edit of a run was noticed, no unsaved work is called saved; and an edit that is
not noticed leads there when the passes go on. -/
theorem noticed_edits_honest (callees : Callees) (config : AutoSaveConfig)
    (storage : String → Option Json) (events : List AutoSaveEvent)
    (h : Meets (step callees) (Noticed callees) (newService config storage) events) :
    let service := run (step callees) (newService config storage) events
    Honest callees service ∧
      ∀ workflow, ¬Noticed callees service (.updateWorkflow workflow) →
        HistoryReadable callees service workflow →
        ∃ rest, (∀ event ∈ rest, ∃ index moment, event = .resume index moment) ∧
          ¬Honest callees (run (step callees) service (.updateWorkflow workflow :: rest)) := by
  refine ⟨?_, fun workflow hnot hhistory => unnoticed_ends hnot hhistory⟩
  refine (invariant_of_meets (step callees) (Tracked callees) ?_ ?_ h).honest
  · exact fun service event htracked hnoticed => step_tracked service event htracked hnoticed
  · have hsettled : Settled callees (newService config storage) := nofun
    exact ⟨fun _ => hsettled, fun _ => hsettled⟩

/-! ### Some runs -/

def clickWorkflow (name : String) : WorkflowObject :=
  [("id", .str "w"), ("name", .str name), ("version", .str "1"), ("format", .str "graph"),
    ("actions", .arr [.obj [("id", .str "a"), ("type", .str "CLICK"), ("config", .obj []),
      ("position", .arr [.num 0, .num 0])]]),
    ("connections", .obj [])]

/-- The callees on such workflows: they are valid, and loaded as they are stored. -/
def clickCallees : Callees where
  numberText _ := "0"
  validationErrors _ := none
  loadedWorkflow
    | .obj fields => some fields
    | _ => none

/-- An edit is saved, and nothing comes in between. -/
theorem named_click_honest :
    let service := run (step clickCallees) (newService {} fun _ => none)
      [.updateWorkflow (clickWorkflow "A"), .performAutoSave {}, .resume 0 {}, .resume 0 {},
        .resume 0 {}, .resume 0 {}]
    service.saveState.hasUnsavedChanges = false ∧
      service.currentWorkflow = some (clickWorkflow "A") ∧ Settled clickCallees service := by
  have hflag : (run (step clickCallees) (newService {} fun _ => none)
      [.updateWorkflow (clickWorkflow "A"), .performAutoSave {}, .resume 0 {}, .resume 0 {},
        .resume 0 {}, .resume 0 {}]).saveState.hasUnsavedChanges = false := by
    decide +kernel
  refine ⟨hflag, by decide +kernel, ?_⟩
  refine (noticed_edits_honest clickCallees {} (fun _ => none) _ ?_).1 hflag
  exact ⟨.inr ⟨.inr (Option.some_ne_none _), by decide⟩, trivial, trivial, trivial, trivial,
    trivial, trivial⟩

/-- Nothing is flagged, and the current workflow shows something at a path that neither the
one last set nor the stored one shows there. -/
def misses (callees : Callees) (service : AutoSaveService) (path : List String) : Bool :=
  let differ (workflow other : WorkflowObject) : Bool :=
    Json.shape (Json.under (some (.obj workflow)) path) !=
      Json.shape (Json.under (some (.obj other)) path)
  !service.saveState.hasUnsavedChanges && service.currentWorkflow.any fun workflow =>
    service.lastSet.all (differ workflow) &&
      (service.localStorage (getAutoSaveKey callees workflow)).all fun
        | .obj stored => differ workflow.unstamped (WorkflowObject.unstamped stored)
        | _ => true

theorem not_honest_of_misses (path : List String) (h : misses callees service path = true) :
    ¬Honest callees service := by
  simp only [misses, Bool.and_eq_true, Bool.not_eq_true', Option.any_eq_true] at h
  obtain ⟨hflag, workflow, hcurrent, hlast, hstored⟩ := h
  refine not_honest workflow hcurrent ?_ hflag
  rintro (⟨last, heq, hsame⟩ | ⟨stored, heq, hsame⟩)
  · rw [heq] at hlast
    exact bne_iff_ne.mp hlast (hsame path)
  · rw [heq] at hstored
    exact bne_iff_ne.mp hstored (hsame path)

/-- An edit comes in behind the write of a pass; and one comes in before it, and is taken back
after the end of the pass, which has kept the hash of what it is taken back to. -/
theorem edits_called_saved :
    ¬Honest clickCallees (run (step clickCallees) (newService {} fun _ => none)
      [.updateWorkflow (clickWorkflow "A"), .performAutoSave {}, .resume 0 {}, .resume 0 {},
        .updateWorkflow (clickWorkflow "B"), .resume 0 {}, .resume 0 {}]) ∧
    ¬Honest clickCallees (run (step clickCallees) (newService {} fun _ => none)
      [.updateWorkflow (clickWorkflow "A"), .performAutoSave {},
        .updateWorkflow (clickWorkflow "B"), .resume 0 {}, .resume 0 {}, .resume 0 {},
        .resume 0 {}, .updateWorkflow (clickWorkflow "A")]) :=
  ⟨not_honest_of_misses ["name"] (by decide +kernel),
    not_honest_of_misses ["name"] (by decide +kernel)⟩

end AutoSaveService

end Qontinui
