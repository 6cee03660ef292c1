import Qontinui.Base.ListEdit
import Qontinui.Optimization.AutoFix

/-!
What a repair of connections keeps. An output is found by its index, so an output that
a repair leaves out moves the ones behind it to other indices.
-/

namespace Qontinui

namespace Connections

/-- The outputs of one type from one source; a missing list counts as empty. -/
def outputs (connections : Connections) (sourceId : String) (type : ConnectionType) :
    List (List Connection) :=
  ((connections.get? sourceId).bind (·.get type)).getD []

def output (connections : Connections) (sourceId : String) (type : ConnectionType)
    (index : Nat) : List Connection :=
  (connections.outputs sourceId type).getD index []

end Connections

namespace Workflow

/-- Repaired connections that are, at every output of every source, the original ones
to existing actions, and none for a source that does not exist. -/
def RepairsOnly (workflow : Workflow) (repaired : Connections) : Prop :=
  ∀ sourceId type index, repaired.output sourceId type index =
    if sourceId ∈ workflow.actionIds then
      workflow.validTargets (workflow.connections.output sourceId type index)
    else []

def keptAt (workflow : Workflow) (sourceId : String) (type : ConnectionType) (index : Nat) :
    List Connection :=
  workflow.validTargets (workflow.connections.output sourceId type index)

/-- No output that loses all its connections, or had none, comes before one that keeps
some. -/
def NoGap (workflow : Workflow) (sourceId : String) (type : ConnectionType) : Prop :=
  ∀ index later, index < later → workflow.keptAt sourceId type later ≠ [] →
    workflow.keptAt sourceId type index ≠ []

end Workflow

namespace ListEdit

variable {α : Type*}

theorem filter_nonEmpty_eq_nil_iff (slots : List (List α)) :
    slots.filter (!·.isEmpty) = [] ↔ ∀ index, slots.getD index [] = [] := by
  rw [List.filter_eq_nil_iff]
  constructor
  · intro h index
    rw [List.getD_eq_getElem?_getD]
    cases hget : slots[index]? with
    | none => rfl
    | some slot => simpa using h slot (List.mem_of_getElem? hget)
  · intro h slot hslot
    obtain ⟨index, hget⟩ := List.getElem?_of_mem hslot
    have hempty := h index
    rw [List.getD_eq_getElem?_getD, hget] at hempty
    simpa using hempty

theorem filter_nonEmpty_eq_nil_of_head {slots : List (List α)}
    (h : (slots.filter (!·.isEmpty)).getD 0 [] = []) : slots.filter (!·.isEmpty) = [] := by
  cases hfilter : slots.filter (!·.isEmpty) with
  | nil => rfl
  | cons slot rest =>
      have hmem : slot ∈ slots.filter (!·.isEmpty) := hfilter ▸ List.mem_cons_self
      rw [hfilter, List.getD_cons_zero] at h
      simp [h] at hmem

/-- Leaving the empty lists out keeps every index exactly when they are all at the end. -/
theorem getD_nonEmpty_iff (slots : List (List α)) :
    (∀ index, (slots.filter (!·.isEmpty)).getD index [] = slots.getD index []) ↔
      ∀ index later, index < later → slots.getD later [] ≠ [] → slots.getD index [] ≠ [] := by
  induction slots with
  | nil => simp
  | cons slot rest ih =>
      cases slot with
      | nil =>
          have hdrop : ([] :: rest).filter (!·.isEmpty) = rest.filter (!·.isEmpty) := rfl
          rw [hdrop]
          constructor
          · intro h index later hlt hlater
            have hnone := filter_nonEmpty_eq_nil_of_head (h 0)
            rw [← h later, hnone] at hlater
            exact absurd rfl hlater
          · intro h
            have hall : ∀ later, rest.getD later [] = [] := fun later => by
              by_contra hlater
              exact h 0 (later + 1) (by omega) hlater rfl
            rw [(filter_nonEmpty_eq_nil_iff rest).mpr hall]
            intro index
            cases index with
            | zero => rfl
            | succ index => exact (hall index).symm
      | cons head tail =>
          have hkeep : ((head :: tail) :: rest).filter (!·.isEmpty) =
              (head :: tail) :: rest.filter (!·.isEmpty) := rfl
          rw [hkeep]
          constructor
          · intro h index later hlt hlater
            cases index with
            | zero => exact List.cons_ne_nil head tail
            | succ index =>
                cases later with
                | zero => omega
                | succ later => exact ih.mp (fun i => h (i + 1)) index later (by omega) hlater
          · intro h index
            cases index with
            | zero => rfl
            | succ index =>
                exact ih.mpr (fun i later hlt => h (i + 1) (later + 1) (by omega)) index

end ListEdit

namespace Workflow

variable {workflow : Workflow}

@[simp] theorem validTargets_nil : workflow.validTargets [] = [] := rfl

theorem getD_map_validTargets (branches : List (List Connection)) (index : Nat) :
    (branches.map workflow.validTargets).getD index [] =
      workflow.validTargets (branches.getD index []) := by
  rw [List.getD_eq_getElem?_getD, List.getD_eq_getElem?_getD, List.getElem?_map]
  cases branches[index]? <;> rfl

variable {type : ConnectionType} {types : List ConnectionType}

theorem get_rebuildType_self (outputs : Outputs) {before : Outputs} (h : before.get type = none) :
    ((workflow.rebuildType outputs before type).get type).getD [] =
      workflow.nonEmptyBranches ((outputs.get type).getD []) := by
  unfold rebuildType
  cases outputs.get type with
  | none => simp [h, nonEmptyBranches]
  | some branches =>
      dsimp only
      split
      · next hnone => simp [h, hnone]
      · simp

theorem get_rebuildType_ne (outputs before : Outputs) {other : ConnectionType} (h : other ≠ type) :
    (workflow.rebuildType outputs before type).get other = before.get other := by
  unfold rebuildType
  split
  · rfl
  · dsimp only
    split
    · rfl
    · exact Outputs.get_set_ne before h _

theorem get_foldl_rebuildType_of_not_mem (outputs : Outputs) (h : type ∉ types) (before : Outputs) :
    (types.foldl (workflow.rebuildType outputs) before).get type = before.get type := by
  induction types generalizing before with
  | nil => rfl
  | cons kind rest ih =>
      obtain ⟨hne, hrest⟩ := not_or.mp (List.mem_cons.not.mp h)
      rw [List.foldl_cons, ih hrest, get_rebuildType_ne outputs before hne]

theorem get_rebuildOutputs (outputs : Outputs) (hnodup : types.Nodup) (type : ConnectionType) :
    ((workflow.rebuildOutputs outputs types).get type).getD [] =
      if type ∈ types then workflow.nonEmptyBranches ((outputs.get type).getD []) else [] := by
  have hfold : ∀ (before : Outputs), before.get type = none →
      ((types.foldl (workflow.rebuildType outputs) before).get type).getD [] =
        if type ∈ types then workflow.nonEmptyBranches ((outputs.get type).getD []) else [] := by
    induction types with
    | nil =>
        intro before hbefore
        simp [hbefore]
    | cons kind rest ih =>
        intro before hbefore
        obtain ⟨hnot, hrest⟩ := List.nodup_cons.mp hnodup
        rw [List.foldl_cons]
        by_cases hkind : type = kind
        · subst hkind
          rw [get_foldl_rebuildType_of_not_mem outputs hnot, get_rebuildType_self outputs hbefore,
            if_pos List.mem_cons_self]
        · rw [ih hrest _ ((get_rebuildType_ne outputs before hkind).trans hbefore)]
          simp only [List.mem_cons, hkind, false_or]
  exact hfold {} (by cases type <;> rfl)

theorem outputs_rebuildConnections (hnodup : types.Nodup) (sourceId : String)
    (type : ConnectionType) :
    (workflow.rebuildConnections types).outputs sourceId type =
      if sourceId ∈ workflow.actionIds ∧ type ∈ types then
        workflow.nonEmptyBranches (workflow.connections.outputs sourceId type)
      else [] := by
  unfold rebuildConnections Connections.outputs
  rw [ObjectMap.get?_filterMap]
  cases workflow.connections.get? sourceId with
  | none => simp [nonEmptyBranches]
  | some outputs =>
      have hget : ((workflow.rebuildOutputs outputs types).get type).getD [] = _ :=
        get_rebuildOutputs outputs hnodup type
      by_cases hsource : sourceId ∈ workflow.actionIds
      · simp only [Option.bind_some, hsource, not_true_eq_false, if_false, true_and]
        split
        · next hempty =>
            rw [hempty] at hget
            rw [← hget]
            cases type <;> rfl
        · exact hget
      · simp [hsource]

theorem output_rebuild_iff (hnodup : types.Nodup) {sourceId : String}
    (hsource : sourceId ∈ workflow.actionIds) (type : ConnectionType) :
    (∀ index, (workflow.rebuildConnections types).output sourceId type index =
        workflow.keptAt sourceId type index) ↔
      if type ∈ types then workflow.NoGap sourceId type
      else ∀ index, workflow.keptAt sourceId type index = [] := by
  have hkept : ∀ index, workflow.keptAt sourceId type index =
      ((workflow.connections.outputs sourceId type).map workflow.validTargets).getD index [] :=
    fun index => (getD_map_validTargets _ index).symm
  by_cases htype : type ∈ types
  · simp only [Connections.output, outputs_rebuildConnections hnodup, hsource, htype, true_and,
      if_true, NoGap, hkept]
    exact ListEdit.getD_nonEmpty_iff _
  · simp only [Connections.output, outputs_rebuildConnections hnodup, htype, and_false, if_false,
      List.getD_nil]
    exact forall_congr' fun index => eq_comm

theorem repairsOnly_rebuild_iff (hnodup : types.Nodup) :
    workflow.RepairsOnly (workflow.rebuildConnections types) ↔
      ∀ sourceId ∈ workflow.actionIds, ∀ type,
        if type ∈ types then workflow.NoGap sourceId type
        else ∀ index, workflow.keptAt sourceId type index = [] := by
  constructor
  · intro h sourceId hsource type
    refine (output_rebuild_iff hnodup hsource type).mp fun index => ?_
    rw [h sourceId type index, if_pos hsource]
    rfl
  · intro h sourceId type index
    split
    · next hsource => exact (output_rebuild_iff hnodup hsource type).mpr (h sourceId hsource type) _
    · next hsource =>
        simp [Connections.output, outputs_rebuildConnections hnodup, hsource]

/-- Workflows with the same connections over the same action ids. -/
structure SameGraph (other workflow : Workflow) : Prop where
  actionIds : other.actionIds = workflow.actionIds
  connections : other.connections = workflow.connections

theorem SameGraph.trans {first second third : Workflow} (h : first.SameGraph second)
    (h' : second.SameGraph third) : first.SameGraph third :=
  ⟨h.actionIds.trans h'.actionIds, h.connections.trans h'.connections⟩

theorem SameGraph.rebuildConnections {other : Workflow} (h : other.SameGraph workflow)
    (types : List ConnectionType) :
    other.rebuildConnections types = workflow.rebuildConnections types := by
  have hvalid : other.validTargets = workflow.validTargets := by
    funext branch
    simp only [validTargets, h.actionIds]
  have hbranches : other.nonEmptyBranches = workflow.nonEmptyBranches := by
    funext branches
    rw [nonEmptyBranches, nonEmptyBranches, hvalid]
  have htype : other.rebuildType = workflow.rebuildType := by
    funext outputs cleanedOutputs type
    rw [rebuildType, rebuildType, hbranches]
  have houtputs : other.rebuildOutputs = workflow.rebuildOutputs := by
    funext outputs types
    rw [rebuildOutputs, rebuildOutputs, htype]
  simp only [Workflow.rebuildConnections, h.actionIds, h.connections, houtputs]

variable (workflow : Workflow)

theorem fixId_sameGraph (now : Int) : (workflow.fixId now).1.SameGraph workflow := by
  unfold fixId
  split <;> exact ⟨rfl, rfl⟩

theorem fixName_sameGraph : workflow.fixName.1.SameGraph workflow := by
  unfold fixName
  split <;> exact ⟨rfl, rfl⟩

theorem fixVersion_sameGraph : workflow.fixVersion.1.SameGraph workflow := by
  unfold fixVersion
  split <;> exact ⟨rfl, rfl⟩

theorem fixFormat_sameGraph : workflow.fixFormat.1.SameGraph workflow := by
  unfold fixFormat
  split <;> exact ⟨rfl, rfl⟩

theorem fixPosition_id (action : Action) (index : Nat) :
    (fixPosition action index).1.id = action.id := by
  unfold fixPosition
  split <;> rfl

theorem fixPositions_sameGraph : workflow.fixPositions.1.SameGraph workflow := by
  unfold fixPositions
  split
  · refine ⟨List.ext_getElem? fun index => ?_, rfl⟩
    simp only [actionIds, List.getElem?_map, List.getElem?_mapIdx, Option.map_map]
    cases workflow.actions[index]? with
    | none => rfl
    | some action => exact congrArg some (fixPosition_id action index)
  · exact ⟨rfl, rfl⟩

theorem fixMetadata_sameGraph (created updated : String) :
    (workflow.fixMetadata created updated).1.SameGraph workflow := by
  unfold fixMetadata
  split <;> exact ⟨rfl, rfl⟩

theorem autoFixWorkflow_connections (now : Int) (created updated : String) :
    (workflow.autoFixWorkflow now created updated).workflow.connections =
      workflow.rebuildConnections ConnectionType.all := by
  let named := (workflow.fixId now).1.fixName.1
  have hgraph : named.fixVersion.1.fixFormat.1.fixPositions.1.SameGraph workflow :=
    (fixPositions_sameGraph _).trans <| (fixFormat_sameGraph _).trans <|
      (fixVersion_sameGraph named).trans <| (fixName_sameGraph _).trans (fixId_sameGraph _ now)
  calc (workflow.autoFixWorkflow now created updated).workflow.connections
      = (named.fixVersion.1.fixFormat.1.fixPositions.1.fixConnections.1.fixMetadata
          created updated).1.connections := rfl
    _ = named.fixVersion.1.fixFormat.1.fixPositions.1.fixConnections.1.connections :=
        (fixMetadata_sameGraph _ created updated).connections
    _ = workflow.rebuildConnections ConnectionType.all :=
        hgraph.rebuildConnections ConnectionType.all

/-- The reference cleaner and the automatic fix remove only what they are to remove
exactly when no index moves: the cleaner keeps no parallel connection besides. -/
theorem repairs_only_iff (workflow : Workflow) (now : Int) (created updated : String) :
    (workflow.RepairsOnly workflow.cleanWorkflowConnections.1.connections ↔
        ∀ sourceId ∈ workflow.actionIds, workflow.NoGap sourceId .main ∧
          workflow.NoGap sourceId .success ∧ workflow.NoGap sourceId .error ∧
          ∀ index, workflow.keptAt sourceId .parallel index = []) ∧
      (workflow.RepairsOnly
          (workflow.autoFixWorkflow now created updated).workflow.connections ↔
        ∀ sourceId ∈ workflow.actionIds, ∀ type, workflow.NoGap sourceId type) := by
  constructor
  · refine (repairsOnly_rebuild_iff (by decide)).trans
      (forall_congr' fun sourceId => forall_congr' fun _ => ?_)
    constructor
    · intro h
      exact ⟨h .main, h .success, h .error, h .parallel⟩
    · rintro ⟨hmain, hsuccess, herror, hparallel⟩ type
      cases type with
      | main => exact hmain
      | success => exact hsuccess
      | error => exact herror
      | parallel => exact hparallel
  · rw [autoFixWorkflow_connections, repairsOnly_rebuild_iff (by decide)]
    simp only [ConnectionType.mem_all, if_true]

/-- An IF whose first output is not connected, with nothing dangling. -/
def ifWithoutThen : Workflow where
  id := "w"
  name := "Else only"
  version := "1.0.0"
  format := "graph"
  actions :=
    [{ id := "check", type := .IF, config := some (.obj []) },
      { id := "otherwise", type := .ofName "CLICK", config := some (.obj []) }]
  connections := ObjectMap.empty.set "check"
    { main := some [[], [{ action := "otherwise", type := "main", index := 0 }]] }

/-- The connection of the second output comes out at the first. -/
theorem repairs_rewire_else :
    ¬ifWithoutThen.RepairsOnly ifWithoutThen.cleanWorkflowConnections.1.connections ∧
      ¬ifWithoutThen.RepairsOnly
        (ifWithoutThen.autoFixWorkflow 0 "created" "updated").workflow.connections :=
  ⟨fun h => absurd (h "check" .main 1) (by decide +kernel),
    fun h => absurd (h "check" .main 1) (by decide +kernel)⟩

end Workflow
end Qontinui
