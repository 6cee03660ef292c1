import Qontinui.Base.FallibleLoops
import Qontinui.Optimization.ReferenceValidator

/-!
What the deletion of unused resources breaks. The validator and the detectors go
through a project separately; here both are read as what they say about the
references of actions, patterns and transitions.
-/

namespace Qontinui.Optimization

open FallibleLoops

/-! ### What the validator accepts -/

def configField (action : Action) (key : String) : JsValue :=
  action.config.bind (·.child? key)

def targetField (action : Action) : JsValue := action.config.bind targetImage

def Resolves (ids : List String) (value : JsValue) : Prop :=
  value.truthy = true → isKnown ids value = true

/-- The action has a config, and its references resolve. -/
structure ActionSound (project : Project) (action : Action) : Prop where
  config : ∃ config, action.config = some config ∧ config ≠ .null
  workflow : action.type.name = "RUN_WORKFLOW" →
    Resolves project.workflowIds (configField action "workflowId")
  state : action.type.name = "GO_TO_STATE" →
    Resolves project.stateIds (configField action "stateId")
  target : Resolves project.imageIds (targetField action)
  image : Resolves project.imageIds (configField action "imageId")

/-- No reference of a project is broken. -/
structure Sound (project : Project) : Prop where
  actions : ∀ workflow ∈ project.workflows, ∀ action ∈ workflow.actions,
    ActionSound project action
  patterns : ∀ state ∈ project.states, ∀ stateImage ∈ state.stateImages,
    ∀ pattern ∈ stateImage.patterns, ∀ imageId, pattern.imageId = some imageId →
      imageId ≠ "" → imageId ∈ project.imageIds
  workflows : ∀ transition ∈ project.transitions, ∀ id ∈ transition.workflows,
    id ∈ project.workflowIds
  states : ∀ transition ∈ project.transitions, ∀ id ∈ statesInTransition transition,
    id ∈ project.stateIds

theorem resolves_iff {ids : List String} {value : JsValue} :
    Resolves ids value ↔ value.truthy = true → ∃ id ∈ ids, value = some (.str id) := by
  unfold Resolves
  refine imp_congr_right fun _ => ?_
  constructor
  · intro h
    unfold isKnown at h
    split at h
    · exact ⟨_, of_decide_eq_true h, rfl⟩
    · cases h
  · rintro ⟨id, hid, rfl⟩
    exact decide_eq_true hid

theorem Resolves.keep {ids kept : List String} {value : JsValue} (h : Resolves ids value)
    (hkept : ∀ id ∈ ids, value = some (.str id) → id ≠ "" → id ∈ kept) : Resolves kept value := by
  rw [resolves_iff] at h ⊢
  intro htruthy
  obtain ⟨id, hid, rfl⟩ := h htruthy
  refine ⟨id, hkept id hid rfl ?_, rfl⟩
  rintro rfl
  cases htruthy

section Messages

variable {numberText : Rat → String} {project : Project}

theorem brokenInAction_eq_nil_iff {workflow : Workflow} {action : Action} {type : ReferenceType}
    {ids : List String} {value : JsValue} :
    brokenInAction numberText workflow action type ids value = [] ↔ Resolves ids value := by
  unfold brokenInAction Resolves
  cases value.truthy <;> cases isKnown ids value <;> simp

theorem brokenInAction_if_eq_nil_iff {p : Prop} [Decidable p] {broken : List BrokenReference} :
    (if p then broken else []) = [] ↔ (p → broken = []) := by
  split <;> simp_all

theorem findBrokenActionReferences_nil_iff {workflow : Workflow} {action : Action} :
    findBrokenActionReferences numberText project workflow action = .ok [] ↔
      ActionSound project action := by
  unfold findBrokenActionReferences
  split
  · next hnone =>
      refine iff_of_false nofun fun h => ?_
      obtain ⟨config, hconfig, -⟩ := h.config
      rw [hnone] at hconfig
      cases hconfig
  · next hnull =>
      refine iff_of_false nofun fun h => ?_
      obtain ⟨config, hconfig, hne⟩ := h.config
      rw [hnull, Option.some.injEq] at hconfig
      exact hne hconfig.symm
  · next config hne hconfig =>
      have hfield : ∀ key, configField action key = config.child? key := fun key => by
        rw [configField, hconfig, Option.bind_some]
      have htarget : targetField action = targetImage config := by
        rw [targetField, hconfig, Option.bind_some]
      simp only [Except.ok.injEq, List.append_eq_nil_iff, brokenInAction_if_eq_nil_iff,
        brokenInAction_eq_nil_iff]
      rw [← hfield, ← hfield, ← hfield, ← htarget]
      constructor
      · rintro ⟨⟨⟨hworkflow, hstate⟩, himage⟩, hid⟩
        exact ⟨⟨config, hconfig, hne⟩, hworkflow, hstate, himage, hid⟩
      · intro h
        exact ⟨⟨⟨h.workflow, h.state⟩, h.target⟩, h.image⟩

theorem findBrokenStateReferences_nil_iff {state : State} :
    findBrokenStateReferences project state = [] ↔
      ∀ stateImage ∈ state.stateImages, ∀ pattern ∈ stateImage.patterns, ∀ imageId,
        pattern.imageId = some imageId → imageId ≠ "" → imageId ∈ project.imageIds := by
  unfold findBrokenStateReferences
  simp only [List.flatMap_eq_nil_iff]
  refine forall_congr' fun stateImage => forall_congr' fun _ => forall_congr' fun pattern =>
    forall_congr' fun _ => ?_
  split
  · next h => simp [h]
  · next h => simp [h]
  · next imageId hne h =>
      simp only [h, Option.some.injEq]
      constructor
      · rintro hnil other rfl -
        by_contra hmissing
        simp [hmissing] at hnil
      · intro hknown
        rw [if_pos (hknown imageId rfl hne)]

theorem brokenInTransition_eq_nil_iff {transition : Transition} {type : ReferenceType}
    {role : String} {ids : List String} {id : String} :
    brokenInTransition transition type role ids id = [] ↔ id ∈ ids := by
  unfold brokenInTransition
  split <;> simp_all

theorem findBrokenTransitionReferences_nil_iff {transition : Transition} :
    findBrokenTransitionReferences project transition = [] ↔
      (∀ id ∈ transition.workflows, id ∈ project.workflowIds) ∧
        ∀ id ∈ statesInTransition transition, id ∈ project.stateIds := by
  unfold findBrokenTransitionReferences
  dsimp only
  rw [List.append_eq_nil_iff, List.flatMap_eq_nil_iff]
  refine and_congr (by simp only [brokenInTransition_eq_nil_iff]) ?_
  cases transition with
  | incoming t => simp [statesInTransition, brokenInTransition_eq_nil_iff]
  | outgoing t =>
      simp only [statesInTransition, List.append_eq_nil_iff, List.flatMap_eq_nil_iff,
        brokenInTransition_eq_nil_iff, List.mem_append, List.mem_cons, or_imp, forall_and,
        forall_eq]
      refine and_congr_left fun _ => and_congr_right fun _ => ?_
      split
      · next h => simp [h]
      · next h => simp [h]
      · next toState hne h => simp [h, brokenInTransition_eq_nil_iff]

theorem validateAllReferences_nil_iff :
    validateAllReferences numberText project = .ok [] ↔ Sound project := by
  have hworkflows : (∃ broken, project.workflows.mapM
      (findBrokenWorkflowReferences numberText project) = .ok broken ∧ broken.flatten = []) ↔
      ∀ workflow ∈ project.workflows, ∀ action ∈ workflow.actions,
        ActionSound project action := by
    rw [mapM_flatten_nil_iff]
    refine forall_congr' fun workflow => imp_congr_right fun _ => ?_
    have hactions : (∀ action ∈ workflow.actions, ActionSound project action) ↔
        ∀ action ∈ workflow.actions,
          findBrokenActionReferences numberText project workflow action = .ok [] :=
      forall_congr' fun _ => imp_congr_right fun _ => findBrokenActionReferences_nil_iff.symm
    rw [hactions, ← mapM_flatten_nil_iff, findBrokenWorkflowReferences, bind_eq_ok_iff]
    simp only [pure, Except.pure, Except.ok.injEq]
  unfold validateAllReferences
  rw [bind_eq_ok_iff]
  simp only [pure, Except.pure, Except.ok.injEq, List.append_eq_nil_iff, List.flatMap_eq_nil_iff,
    findBrokenStateReferences_nil_iff, findBrokenTransitionReferences_nil_iff]
  constructor
  · rintro ⟨broken, hbroken, ⟨hnil, hstates⟩, htransitions⟩
    exact ⟨hworkflows.mp ⟨broken, hbroken, hnil⟩, hstates,
      fun transition h => (htransitions transition h).1,
      fun transition h => (htransitions transition h).2⟩
  · intro h
    obtain ⟨broken, hbroken, hnil⟩ := hworkflows.mpr h.actions
    exact ⟨broken, hbroken, ⟨hnil, h.patterns⟩,
      fun transition ht => ⟨h.workflows transition ht, h.states transition ht⟩⟩

end Messages

/-! ### What the detectors report -/

variable {project : Project}

def UsesImage (project : Project) (imageId : String) : Prop :=
  (∃ state ∈ project.states, ∃ stateImage ∈ state.stateImages,
      ∃ pattern ∈ stateImage.patterns, pattern.imageId = some imageId) ∨
    ∃ workflow ∈ project.workflows, ∃ action ∈ workflow.actions,
      targetField action = some (.str imageId) ∨
        configField action "imageId" = some (.str imageId)

/-- A `RUN_WORKFLOW` action names the workflow. -/
def RunsWorkflow (project : Project) (workflowId : String) : Prop :=
  ∃ workflow ∈ project.workflows, ∃ action ∈ workflow.actions,
    action.type.name = "RUN_WORKFLOW" ∧ workflowId ≠ "" ∧
      configField action "workflowId" = some (.str workflowId)

def NamesState (project : Project) (stateId : String) : Prop :=
  ∃ transition ∈ project.transitions, stateId ∈ statesInTransition transition

theorem usedInAction_eq_ok {action : Action}
    (h : ∃ config, action.config = some config ∧ config ≠ .null) (image : ImageAsset) :
    usedInAction image action =
      .ok (targetField action = some (.str image.id) ||
        configField action "imageId" = some (.str image.id)) := by
  obtain ⟨config, hconfig, hne⟩ := h
  unfold usedInAction
  split
  · next hnone => cases hconfig.symm.trans hnone
  · next hnull => exact absurd (Option.some.inj (hconfig.symm.trans hnull)) hne
  · next other _ hother =>
      cases hconfig.symm.trans hother
      simp only [targetField, configField, hconfig, Option.bind_some]

/-- Nothing uses an image that is reported unused in a sound project. -/
theorem findUnusedImages_spec (h : Sound project) :
    ∃ unused, findUnusedImages project = .ok unused ∧
      ∀ id ∈ unused, ¬UsesImage project id := by
  have hworkflow : ∀ image, ∀ workflow ∈ project.workflows, usedInWorkflow image workflow =
      .ok (workflow.actions.any fun action => targetField action = some (.str image.id) ||
        configField action "imageId" = some (.str image.id)) := fun image workflow hworkflow =>
    anyM_eq_ok fun action haction =>
      usedInAction_eq_ok (h.actions workflow hworkflow action haction).config image
  have hanalysis : ∀ image ∈ project.images, ∃ analysis, analyzeImage project image =
      .ok analysis ∧ analysis.imageId = image.id ∧
        (analysis.isUsed = false → ¬UsesImage project image.id) := by
    intro image _
    simp only [analyzeImage, filterM_eq_ok (hworkflow image), bind, Except.bind, pure, Except.pure,
      Except.ok.injEq, exists_eq_left', true_and]
    intro hunused
    simp only [decide_eq_false_iff_not, List.length_append, List.length_map, not_lt,
      Nat.le_zero, Nat.add_eq_zero_iff, List.length_eq_zero_iff, List.filter_eq_nil_iff] at hunused
    rintro (⟨state, hstate, stateImage, hstateImage, pattern, hpattern, himage⟩ |
      ⟨workflow, hmem, action, haction, huse⟩)
    · apply hunused.1 state hstate
      simp only [usedInState, List.any_eq_true, decide_eq_true_eq]
      exact ⟨stateImage, hstateImage, pattern, hpattern, himage⟩
    · apply hunused.2 workflow hmem
      simp only [List.any_eq_true, Bool.or_eq_true, decide_eq_true_eq]
      exact ⟨action, haction, huse⟩
  obtain ⟨analyses, hanalyses, hfrom, -⟩ := mapM_exists hanalysis
  refine ⟨_, bind_eq_ok_iff.mpr ⟨analyses, hanalyses, rfl⟩, fun id hid => ?_⟩
  obtain ⟨analysis, hunused, rfl⟩ := List.mem_map.mp hid
  obtain ⟨hmem, hflag⟩ := List.mem_filter.mp hunused
  obtain ⟨image, -, hid, hnot⟩ := hfrom analysis hmem
  rw [hid]
  exact hnot (by simpa using hflag)

theorem mem_addDependency {dependencies : List Json} {value other : Json} :
    other ∈ addDependency dependencies value ↔ other ∈ dependencies ∨ other = value := by
  unfold addDependency
  split
  · simp
  · simp
  · split
    · next hmem =>
        refine ⟨.inl, fun h => h.elim id ?_⟩
        rintro rfl
        exact hmem
    · simp

/-- The dependencies of actions that all have a config. -/
theorem foldlM_addRunWorkflow {actions : List Action}
    (h : ∀ action ∈ actions, ∃ config, action.config = some config ∧ config ≠ .null)
    (start : List Json) :
    ∃ dependencies, actions.foldlM addRunWorkflow start = .ok dependencies ∧
      ∀ value, value ∈ dependencies ↔ value ∈ start ∨ ∃ action ∈ actions,
        action.type.name = "RUN_WORKFLOW" ∧ value.truthy = true ∧
          configField action "workflowId" = some value := by
  induction actions generalizing start with
  | nil => exact ⟨start, rfl, by simp⟩
  | cons action rest ih =>
      obtain ⟨haction, hrest⟩ := List.forall_mem_cons.mp h
      obtain ⟨config, hconfig, hne⟩ := haction
      have hstep : ∃ next, addRunWorkflow start action = .ok next ∧ ∀ value, value ∈ next ↔
          value ∈ start ∨ action.type.name = "RUN_WORKFLOW" ∧ value.truthy = true ∧
            configField action "workflowId" = some value := by
        have hfield : configField action "workflowId" = config.child? "workflowId" := by
          rw [configField, hconfig, Option.bind_some]
        unfold addRunWorkflow
        split
        · next hother => exact ⟨start, rfl, by simp [hother]⟩
        · next hrun =>
            split
            · next hnone => cases hconfig.symm.trans hnone
            · next hnull => exact absurd (Option.some.inj (hconfig.symm.trans hnull)) hne
            · next other _ hother =>
                cases hconfig.symm.trans hother
                rw [hfield]
                cases config.child? "workflowId" with
                | none => exact ⟨start, rfl, by simp⟩
                | some workflowId =>
                    refine ⟨_, rfl, fun value => ?_⟩
                    split
                    · next htruthy =>
                        rw [mem_addDependency]
                        refine or_congr_right ⟨?_, fun h => (Option.some.inj h.2.2).symm⟩
                        rintro rfl
                        exact ⟨not_not.mp hrun, htruthy, rfl⟩
                    · next hfalsy =>
                        refine ⟨.inl, fun h => h.elim id ?_⟩
                        rintro ⟨-, htruthy, heq⟩
                        cases heq
                        exact absurd htruthy hfalsy
      obtain ⟨next, hnext, hmem⟩ := hstep
      obtain ⟨dependencies, hdependencies, hall⟩ := ih hrest next
      refine ⟨dependencies, ?_, fun value => ?_⟩
      · rw [List.foldlM_cons, hnext]
        exact hdependencies
      · rw [hall, hmem]
        simp only [List.mem_cons, exists_eq_or_imp, or_assoc]

/-- The workflows that are reported unused in a sound project are those no action runs. -/
theorem findUnusedWorkflows_spec (h : Sound project) :
    ∃ unused, findUnusedWorkflows project = .ok unused ∧
      ∀ id, id ∈ unused ↔ id ∈ project.workflowIds ∧ ¬RunsWorkflow project id := by
  have hanalyzed : ∀ workflow ∈ project.workflows, ∃ dependencies,
      analyzeDependencies workflow = .ok dependencies ∧ ∀ value, value ∈ dependencies ↔
        ∃ action ∈ workflow.actions, action.type.name = "RUN_WORKFLOW" ∧ value.truthy = true ∧
          configField action "workflowId" = some value := by
    intro workflow hworkflow
    obtain ⟨dependencies, hdependencies, hmem⟩ := foldlM_addRunWorkflow
      (fun action haction => (h.actions workflow hworkflow action haction).config) []
    exact ⟨dependencies, hdependencies, fun value => by simp [hmem]⟩
  obtain ⟨analyses, hanalyses, hfrom, hto⟩ := mapM_exists hanalyzed
  have hused : ∀ id, Json.str id ∈ analyses.flatten ↔ RunsWorkflow project id := by
    intro id
    rw [List.mem_flatten]
    have htruthy : (Json.str id).truthy = true ↔ id ≠ "" := decide_eq_true_iff
    constructor
    · rintro ⟨dependencies, hdependencies, hid⟩
      obtain ⟨workflow, hworkflow, hmem⟩ := hfrom dependencies hdependencies
      obtain ⟨action, haction, htype, hne, hfield⟩ := (hmem _).mp hid
      exact ⟨workflow, hworkflow, action, haction, htype, htruthy.mp hne, hfield⟩
    · rintro ⟨workflow, hworkflow, action, haction, htype, hne, hfield⟩
      obtain ⟨dependencies, hdependencies, hmem⟩ := hto workflow hworkflow
      exact ⟨dependencies, hdependencies,
        (hmem _).mpr ⟨action, haction, htype, htruthy.mpr hne, hfield⟩⟩
  refine ⟨_, bind_eq_ok_iff.mpr ⟨analyses, hanalyses, rfl⟩, fun id => ?_⟩
  simp only [List.mem_map, List.mem_filter, decide_eq_true_eq, Project.workflowIds, hused]
  constructor
  · rintro ⟨workflow, ⟨hworkflow, hnot⟩, rfl⟩
    exact ⟨⟨workflow, hworkflow, rfl⟩, hnot⟩
  · rintro ⟨⟨workflow, hworkflow, rfl⟩, hnot⟩
    exact ⟨workflow, ⟨hworkflow, hnot⟩, rfl⟩

theorem mem_findOrphanedStates_iff {id : String} :
    id ∈ findOrphanedStates project ↔
      ¬NamesState project id ∧ ∃ state ∈ project.states, state.id = id ∧
        state.initial ≠ some true := by
  have hinitial : ∀ initial : Option Bool,
      (!(initial.getD false)) = true ↔ initial ≠ some true := by decide
  simp only [findOrphanedStates, List.mem_map, List.mem_filter, Bool.and_eq_true, hinitial,
    decide_eq_true_eq, List.mem_flatMap, NamesState]
  constructor
  · rintro ⟨state, ⟨hstate, hnamed, hfirst⟩, rfl⟩
    exact ⟨hnamed, state, hstate, rfl, hfirst⟩
  · rintro ⟨hnamed, state, hstate, rfl, hfirst⟩
    exact ⟨state, ⟨hstate, hnamed, hfirst⟩, rfl⟩

/-! ### Deletions -/

namespace Project

def withoutImages (project : Project) (unused : List String) : Project :=
  { project with images := project.images.filter (·.id ∉ unused) }

def withoutStates (project : Project) (unused : List String) : Project :=
  { project with states := project.states.filter (·.id ∉ unused) }

def withoutWorkflows (project : Project) (unused : List String) : Project :=
  { project with workflows := project.workflows.filter (·.id ∉ unused) }

variable {unused : List String} {id : String}

theorem mem_imageIds_withoutImages :
    id ∈ (project.withoutImages unused).imageIds ↔ id ∈ project.imageIds ∧ id ∉ unused := by
  simp only [imageIds, withoutImages, List.mem_map, List.mem_filter, decide_eq_true_eq]
  grind

theorem mem_stateIds_withoutStates :
    id ∈ (project.withoutStates unused).stateIds ↔ id ∈ project.stateIds ∧ id ∉ unused := by
  simp only [stateIds, withoutStates, List.mem_map, List.mem_filter, decide_eq_true_eq]
  grind

theorem mem_workflowIds_withoutWorkflows :
    id ∈ (project.withoutWorkflows unused).workflowIds ↔
      id ∈ project.workflowIds ∧ id ∉ unused := by
  simp only [workflowIds, withoutWorkflows, List.mem_map, List.mem_filter, decide_eq_true_eq]
  grind

end Project

theorem Sound.withoutImages (h : Sound project) {unused : List String}
    (hunused : ∀ id ∈ unused, ¬UsesImage project id) : Sound (project.withoutImages unused) := by
  have hkept : ∀ id ∈ project.imageIds, UsesImage project id →
      id ∈ (project.withoutImages unused).imageIds := fun id hid huse =>
    Project.mem_imageIds_withoutImages.mpr ⟨hid, fun hgone => hunused id hgone huse⟩
  refine ⟨fun workflow hworkflow action haction => ?_, ?_, h.workflows, h.states⟩
  · have hsound := h.actions workflow hworkflow action haction
    refine ⟨hsound.config, hsound.workflow, hsound.state, ?_, ?_⟩
    · exact hsound.target.keep fun id hid hvalue _ =>
        hkept id hid (.inr ⟨workflow, hworkflow, action, haction, .inl hvalue⟩)
    · exact hsound.image.keep fun id hid hvalue _ =>
        hkept id hid (.inr ⟨workflow, hworkflow, action, haction, .inr hvalue⟩)
  · intro state hstate stateImage hstateImage pattern hpattern imageId himage hne
    exact hkept imageId
      (h.patterns state hstate stateImage hstateImage pattern hpattern imageId himage hne)
      (.inl ⟨state, hstate, stateImage, hstateImage, pattern, hpattern, himage⟩)

/-- Every state that a `GO_TO_STATE` action goes to is initial or named by a transition. -/
def GoesToNamed (project : Project) : Prop :=
  ∀ workflow ∈ project.workflows, ∀ action ∈ workflow.actions,
    action.type.name = "GO_TO_STATE" → ∀ id, configField action "stateId" = some (.str id) →
      id ≠ "" → ∀ state ∈ project.states, state.id = id →
        state.initial = some true ∨ NamesState project id

/-- Every workflow that a transition lists is run by a `RUN_WORKFLOW` action. -/
def ListsRun (project : Project) : Prop :=
  ∀ transition ∈ project.transitions, ∀ id ∈ transition.workflows, RunsWorkflow project id

theorem sound_withoutStates_iff (h : Sound project) :
    Sound (project.withoutStates (findOrphanedStates project)) ↔ GoesToNamed project := by
  constructor
  · intro hafter workflow hworkflow action haction htype id hid hne state hstate hstateId
    by_contra hnot
    obtain ⟨hfirst, hnamed⟩ := not_or.mp hnot
    have horphan : id ∈ findOrphanedStates project :=
      mem_findOrphanedStates_iff.mpr ⟨hnamed, state, hstate, hstateId, hfirst⟩
    have hresolves := (hafter.actions workflow hworkflow action haction).state htype
    rw [resolves_iff, hid] at hresolves
    obtain ⟨_, hkept, heq⟩ := hresolves (decide_eq_true hne)
    cases heq
    exact (Project.mem_stateIds_withoutStates.mp hkept).2 horphan
  · intro hgoes
    refine ⟨fun workflow hworkflow action haction => ?_,
      fun state hstate => h.patterns state (List.mem_of_mem_filter hstate), h.workflows, ?_⟩
    · have hsound := h.actions workflow hworkflow action haction
      refine ⟨hsound.config, hsound.workflow, fun htype => ?_, hsound.target, hsound.image⟩
      refine (hsound.state htype).keep fun id hid hvalue hne => ?_
      refine Project.mem_stateIds_withoutStates.mpr ⟨hid, fun horphan => ?_⟩
      obtain ⟨hnamed, state, hstate, hstateId, hfirst⟩ := mem_findOrphanedStates_iff.mp horphan
      rcases hgoes workflow hworkflow action haction htype id hvalue hne state hstate hstateId
        with hinitial | hnames
      · exact hfirst hinitial
      · exact hnamed hnames
    · intro transition htransition id hid
      refine Project.mem_stateIds_withoutStates.mpr
        ⟨h.states transition htransition id hid, fun horphan => ?_⟩
      exact (mem_findOrphanedStates_iff.mp horphan).1 ⟨transition, htransition, hid⟩

theorem sound_withoutWorkflows_iff (h : Sound project) {unused : List String}
    (hunused : ∀ id, id ∈ unused ↔ id ∈ project.workflowIds ∧ ¬RunsWorkflow project id) :
    Sound (project.withoutWorkflows unused) ↔ ListsRun project := by
  constructor
  · intro hafter transition htransition id hid
    by_contra hnot
    have hgone := (hunused id).mpr ⟨h.workflows transition htransition id hid, hnot⟩
    exact (Project.mem_workflowIds_withoutWorkflows.mp
      (hafter.workflows transition htransition id hid)).2 hgone
  · intro hlists
    have hkept : ∀ id ∈ project.workflowIds, RunsWorkflow project id →
        id ∈ (project.withoutWorkflows unused).workflowIds := fun id hid hruns =>
      Project.mem_workflowIds_withoutWorkflows.mpr
        ⟨hid, fun hgone => ((hunused id).mp hgone).2 hruns⟩
    refine ⟨fun workflow hworkflow action haction => ?_, h.patterns, ?_, h.states⟩
    · have hmem := List.mem_of_mem_filter hworkflow
      have hsound := h.actions workflow hmem action haction
      refine ⟨hsound.config, fun htype => ?_, hsound.state, hsound.target, hsound.image⟩
      exact (hsound.workflow htype).keep fun id hid hvalue hne =>
        hkept id hid ⟨workflow, hmem, action, haction, htype, hne, hvalue⟩
    · intro transition htransition id hid
      exact hkept id (h.workflows transition htransition id hid)
        (hlists transition htransition id hid)

/-- Nothing is reported after the deletion of the unused images, after that of the
orphaned states, and after that of the unused workflows. -/
def DeletionsSafe (numberText : Rat → String) (project : Project) : Prop :=
  (∃ unused, findUnusedImages project = .ok unused ∧
      validateAllReferences numberText (project.withoutImages unused) = .ok []) ∧
    validateAllReferences numberText
      (project.withoutStates (findOrphanedStates project)) = .ok [] ∧
    ∃ unused, findUnusedWorkflows project = .ok unused ∧
      validateAllReferences numberText (project.withoutWorkflows unused) = .ok []

/-- In a project about which nothing is reported the deletions are safe exactly when its
actions go to states that a transition names and its transitions list workflows that an
action runs. -/
theorem deletions_safe_iff (numberText : Rat → String)
    (hvalid : validateAllReferences numberText project = .ok []) :
    DeletionsSafe numberText project ↔ GoesToNamed project ∧ ListsRun project := by
  have hsound := validateAllReferences_nil_iff.mp hvalid
  obtain ⟨images, himages, hunused⟩ := findUnusedImages_spec hsound
  obtain ⟨workflows, hworkflows, hnotRun⟩ := findUnusedWorkflows_spec hsound
  simp only [DeletionsSafe, himages, hworkflows, Except.ok.injEq, exists_eq_left',
    validateAllReferences_nil_iff, hsound.withoutImages hunused, true_and,
    sound_withoutStates_iff hsound, sound_withoutWorkflows_iff hsound hnotRun]

/-- A workflow that only a transition runs goes to a state that no transition names. -/
def settingsProject : Project where
  workflows :=
    [{ id := "open", name := "Open", version := "1.0.0", format := "graph"
       actions := [{ id := "go", type := .ofName "GO_TO_STATE"
                     config := some (.obj [("stateId", .str "settings")]) }]
       connections := .empty }]
  states := [{ id := "home", name := "Home", initial := some true, stateImages := [] },
    { id := "settings", name := "Settings", stateImages := [] }]
  images := []
  transitions := [.incoming { id := "t", workflows := ["open"], toState := "home" }]

theorem deletions_safe_iff_settings :
    DeletionsSafe (fun _ => "") settingsProject ↔
      GoesToNamed settingsProject ∧ ListsRun settingsProject :=
  deletions_safe_iff _ (by decide +kernel)

/-- Nothing is broken in it, and both deletions break it. -/
theorem settings_deletions_break :
    validateAllReferences (fun _ => "") settingsProject = .ok [] ∧
      findOrphanedStates settingsProject = ["settings"] ∧
      findUnusedWorkflows settingsProject = .ok ["open"] ∧
      ¬DeletionsSafe (fun _ => "") settingsProject := by
  refine ⟨by decide +kernel, by decide +kernel, by decide +kernel, fun h => ?_⟩
  exact absurd h.2.1 (by decide +kernel)

end Qontinui.Optimization
