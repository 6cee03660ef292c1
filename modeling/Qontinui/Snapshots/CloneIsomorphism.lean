import Qontinui.Snapshots.SnapshotFidelity
import Qontinui.Workflow.SequentialToGraph

/-!
What a clone is to its original: the ids of the actions and the ends of the
connections are renamed, while the ids nested in the configs of IF, LOOP, SWITCH
and TRY_CATCH stay those of the original.
-/

namespace Qontinui.Workflow

open SequentialToGraph

/-- The ids drawn for the actions are pairwise different, and no action has one of them. -/
structure DrawsFresh (workflow : Workflow) (draws : Nat → Draw) : Prop where
  distinct : ∀ i < workflow.actions.length, ∀ j < workflow.actions.length,
    (draws i).id "action" = (draws j).id "action" → i = j
  fresh : ∀ i < workflow.actions.length, (draws i).id "action" ∉ workflow.actionIds

/-- An action of the workflow refers to `id` in its config. -/
def RefersTo (workflow : Workflow) (id : String) : Prop :=
  ∃ action ∈ workflow.actions, ∃ ids, extractNestedActions action = some ids ∧ id ∈ ids

/-- `id` is the id of an action, an end of its connections, or nested in a config. -/
def Mentions (workflow : Workflow) (id : String) : Prop :=
  id ∈ workflow.actionIds ∨ id ∈ workflow.connections.keys ∨
    id ∈ workflow.connections.targets ∨ workflow.RefersTo id

def mapTargets (rename : String → String) (outputs : Outputs) : Outputs :=
  let mapType (type : List (List Connection)) :=
    type.map fun output => output.map fun conn => { conn with action := rename conn.action }
  { main := outputs.main.map mapType
    error := outputs.error.map mapType
    success := outputs.success.map mapType
    parallel := outputs.parallel.map mapType }

/-- `clone` is the workflow under a bijection of the ids, and mentions no id of it. -/
structure IsomorphicCopy (clone workflow : Workflow) (rename : String → String) : Prop where
  bijective : Set.BijOn rename {id | id ∈ workflow.actionIds} {id | id ∈ clone.actionIds}
  actions : clone.actions = workflow.actions.map fun action =>
    { action with id := rename action.id }
  connections : clone.connections.entries = workflow.connections.entries.map fun entry =>
    (rename entry.1, mapTargets rename entry.2)
  forgotten : ∀ id ∈ workflow.actionIds, ¬ clone.Mentions id

variable {workflow : Workflow} {draws : Nat → Draw}

/-! ### What a valid workflow is -/

theorem nodup_of_duplicateErrors {actionIds : List String} {actions : List Action}
    (h : duplicateErrors actionIds actions = []) :
    (actions.map Action.id).Nodup ∧ ∀ action ∈ actions, action.id ∉ actionIds := by
  induction actions generalizing actionIds with
  | nil => simp
  | cons action rest ih =>
      obtain ⟨hfirst, hrest⟩ := List.append_eq_nil_iff.mp h
      have hnew : action.id ∉ actionIds := by
        intro hmem
        simp [hmem] at hfirst
      obtain ⟨hnodup, hnot⟩ := ih hrest
      constructor
      · refine List.nodup_cons.mpr ⟨fun hmem => ?_, hnodup⟩
        obtain ⟨other, hother, hid⟩ := List.mem_map.mp hmem
        exact hnot other hother (by simp [hid])
      · intro other hother
        rcases List.mem_cons.mp hother with rfl | hother
        · exact hnew
        · exact fun hmem => hnot other hother (List.mem_cons_of_mem _ hmem)

variable {id : String}

theorem keys_of_validateConnections (h : workflow.validateConnections = [])
    (hid : id ∈ workflow.connections.keys) : id ∈ workflow.actionIds := by
  obtain ⟨outputs, hget⟩ := ObjectMap.mem_keys_iff.mp hid
  have hentry := List.flatMap_eq_nil_iff.mp h (id, outputs) (ObjectMap.get?_eq_some_iff.mp hget)
  cases hsource : workflow.getActionById id with
  | none => simp [hsource] at hentry
  | some source =>
      rw [← getActionById_isSome_iff, hsource]
      rfl

/-- What the clone needs of a valid workflow. -/
structure WellLinked (workflow : Workflow) : Prop where
  nodup : workflow.actionIds.Nodup
  keys : ∀ id ∈ workflow.connections.keys, id ∈ workflow.actionIds
  targets : ∀ id ∈ workflow.connections.targets, id ∈ workflow.actionIds

theorem wellLinked_of_validateGraph (h : workflow.validateGraph = []) : workflow.WellLinked := by
  simp only [validateGraph, List.append_eq_nil_iff] at h
  obtain ⟨⟨⟨⟨⟨hduplicates, hconnections⟩, _⟩, _⟩, _⟩, _⟩ := h
  refine ⟨(nodup_of_duplicateErrors hduplicates).1,
    fun id => keys_of_validateConnections hconnections, fun id hid => ?_⟩
  obtain ⟨source, hsource⟩ := mem_targets_iff.mp hid
  exact (endsAreActions_of_validateConnections hconnections source id hsource).2

theorem wellLinked_of_valid
    (h : (validateWorkflow (WorkflowSnapshotsService.validationInput workflow)).valid = true) :
    workflow.WellLinked := by
  have hactions := WorkflowSnapshotsService.actions_ne_nil_of_valid h
  obtain ⟨first, rest, heq⟩ := List.exists_cons_of_ne_nil hactions
  simp only [validateWorkflow, WorkflowSnapshotsService.validationInput, heq,
    WorkflowInput.workflow?, Option.getD_some] at h
  have hgraph := wellLinked_of_validateGraph
    (List.append_eq_nil_iff.mp (List.isEmpty_iff.mp h)).2
  exact ⟨by simpa [actionIds, heq] using hgraph.nodup, by simpa [actionIds, heq] using hgraph.keys,
    by simpa [actionIds, heq] using hgraph.targets⟩

/-! ### The renaming of a clone -/

def cloneId (workflow : Workflow) (draws : Nat → Draw) (id : String) : String :=
  ((workflow.idMap draws).lookup id).getD id

section

variable (hids : workflow.actionIds.Nodup)
include hids

theorem idMap_eq (draws : Nat → Draw) :
    (workflow.idMap draws).map Prod.fst = workflow.actionIds ∧
      workflow.idMap draws =
        workflow.actions.mapIdx fun index action => (action.id, (draws index).id "action") := by
  have hkeys : (workflow.actions.mapIdx fun index action =>
      (action.id, (draws index).id "action")).map Prod.fst = workflow.actionIds := by
    refine List.ext_getElem? fun index => ?_
    simp [actionIds, Function.comp_def]
  have heq := (Fields.foldl_set_of_nodup (by rwa [List.nil_append, hkeys])).trans
    (List.nil_append _)
  exact ⟨(congrArg _ heq).trans hkeys, heq⟩

theorem lookup_idMap (draws : Nat → Draw) {index : Nat} (hindex : index < workflow.actions.length) :
    (workflow.idMap draws).lookup workflow.actions[index].id =
      some ((draws index).id "action") := by
  obtain ⟨hkeys, heq⟩ := idMap_eq hids draws
  rw [Fields.lookup_eq_some_iff (hkeys ▸ hids), heq]
  exact List.mem_mapIdx.mpr ⟨index, hindex, rfl⟩

theorem cloneId_getElem {index : Nat} (hindex : index < workflow.actions.length) :
    workflow.cloneId draws workflow.actions[index].id = (draws index).id "action" := by
  rw [cloneId, lookup_idMap hids draws hindex, Option.getD_some]

theorem cloneWorkflow_actions (newWorkflowId : Option String) :
    (workflow.cloneWorkflow newWorkflowId draws).actions = workflow.actions.map fun action =>
      { action with id := workflow.cloneId draws action.id } := by
  refine List.ext_getElem (by simp [cloneWorkflow]) fun index hleft hright => ?_
  have hindex : index < workflow.actions.length := by simpa using hright
  simp [cloneWorkflow, cloneId_getElem hids hindex]

end

theorem cloneWorkflow_actionIds (draws : Nat → Draw) (hids : workflow.actionIds.Nodup)
    (newWorkflowId : Option String) :
    (workflow.cloneWorkflow newWorkflowId draws).actionIds =
      workflow.actionIds.map (workflow.cloneId draws) := by
  rw [actionIds, cloneWorkflow_actions hids, actionIds, List.map_map, List.map_map]
  rfl

theorem exists_index (hid : id ∈ workflow.actionIds) :
    ∃ index, ∃ hindex : index < workflow.actions.length, workflow.actions[index].id = id := by
  obtain ⟨action, haction, rfl⟩ := List.mem_map.mp hid
  obtain ⟨index, hindex, rfl⟩ := List.mem_iff_getElem.mp haction
  exact ⟨index, hindex, rfl⟩

theorem cloneId_injOn (hids : workflow.actionIds.Nodup) (hdraws : workflow.DrawsFresh draws) :
    Set.InjOn (workflow.cloneId draws) {id | id ∈ workflow.actionIds} := by
  intro a ha b hb hab
  obtain ⟨i, hi, rfl⟩ := exists_index ha
  obtain ⟨j, hj, rfl⟩ := exists_index hb
  rw [cloneId_getElem hids hi, cloneId_getElem hids hj] at hab
  have hij := hdraws.distinct i hi j hj hab
  subst hij
  rfl

theorem cloneId_fresh (hids : workflow.actionIds.Nodup) (hdraws : workflow.DrawsFresh draws)
    (hid : id ∈ workflow.actionIds) : workflow.cloneId draws id ∉ workflow.actionIds := by
  obtain ⟨index, hindex, rfl⟩ := exists_index hid
  rw [cloneId_getElem hids hindex]
  exact hdraws.fresh index hindex

/-- The connections of a workflow under the ids of its clone. -/
def renamedEntry (workflow : Workflow) (draws : Nat → Draw) (entry : String × Outputs) :
    String × Outputs :=
  (workflow.cloneId draws entry.1, mapTargets (workflow.cloneId draws) entry.2)

theorem foldl_clone_entries (hlinked : workflow.WellLinked) {entries : List (String × Outputs)}
    (hkeys : ∀ entry ∈ entries, entry.1 ∈ workflow.actionIds) (built : Connections) :
    (entries.foldl (fun newConnections entry =>
      match (workflow.idMap draws).lookup entry.1 with
      | some newSourceId =>
          newConnections.set newSourceId (renameOutputs (workflow.idMap draws) entry.2)
      | none => newConnections) built).entries =
    (entries.map (workflow.renamedEntry draws)).foldl
      (fun fields entry => Fields.set entry.1 entry.2 fields) built.entries := by
  induction entries generalizing built with
  | nil => rfl
  | cons entry rest ih =>
      obtain ⟨index, hindex, hid⟩ := exists_index (hkeys entry List.mem_cons_self)
      have hlookup := hid ▸ lookup_idMap hlinked.nodup draws hindex
      have hrenamed : workflow.cloneId draws entry.1 = (draws index).id "action" :=
        hid ▸ cloneId_getElem hlinked.nodup hindex
      rw [List.foldl_cons, hlookup, ih fun other hother =>
        hkeys other (List.mem_cons_of_mem _ hother)]
      simp only [List.map_cons, List.foldl_cons, renamedEntry, hrenamed]
      rfl

theorem cloneWorkflow_connections (hlinked : workflow.WellLinked)
    (hdraws : workflow.DrawsFresh draws) (newWorkflowId : Option String) :
    (workflow.cloneWorkflow newWorkflowId draws).connections.entries =
      workflow.connections.entries.map fun entry =>
        (workflow.cloneId draws entry.1, mapTargets (workflow.cloneId draws) entry.2) := by
  have hkeys : ∀ entry ∈ workflow.connections.entries, entry.1 ∈ workflow.actionIds :=
    fun entry hentry => hlinked.keys entry.1 (List.mem_map_of_mem hentry)
  refine (foldl_clone_entries hlinked hkeys .empty).trans ?_
  refine (Fields.foldl_set_of_nodup ?_).trans (List.nil_append _)
  have hnodup := workflow.connections.nodup
  have hmap : (workflow.connections.entries.map (workflow.renamedEntry draws)).map Prod.fst =
      (workflow.connections.entries.map Prod.fst).map (workflow.cloneId draws) := by
    simp [renamedEntry, Function.comp_def]
  rw [show (ObjectMap.empty : Connections).entries = [] from rfl, List.nil_append, hmap]
  refine hnodup.map_on fun a ha b hb => cloneId_injOn hlinked.nodup hdraws ?_ ?_
  · exact hlinked.keys a ha
  · exact hlinked.keys b hb

theorem targets_mapTargets (rename : String → String) (outputs : Outputs) :
    (mapTargets rename outputs).targets = outputs.targets.map rename := by
  have hmap : ∀ type : Option (List (List Connection)),
      ((type.map fun outputs => outputs.map fun output => output.map fun conn =>
        { conn with action := rename conn.action }).getD []).flatten.map Connection.action =
      ((type.getD []).flatten.map Connection.action).map rename := by
    intro type
    cases type with
    | none => rfl
    | some outputs => simp [List.map_flatten, Function.comp_def]
  simp only [Outputs.targets, Outputs.connections, ConnectionType.all, List.flatMap_cons,
    List.flatMap_nil, List.append_nil, List.map_append, Outputs.ofType, Outputs.get, mapTargets,
    hmap]

theorem ends_cloneWorkflow (hlinked : workflow.WellLinked) (hdraws : workflow.DrawsFresh draws)
    {newWorkflowId : Option String}
    (hid : id ∈ (workflow.cloneWorkflow newWorkflowId draws).connections.keys ∨
      id ∈ (workflow.cloneWorkflow newWorkflowId draws).connections.targets) :
    ∃ old ∈ workflow.actionIds, id = workflow.cloneId draws old := by
  have hentries := cloneWorkflow_connections hlinked hdraws newWorkflowId
  rcases hid with hkey | htarget
  · rw [ObjectMap.keys, hentries, List.map_map, List.mem_map] at hkey
    obtain ⟨entry, hentry, rfl⟩ := hkey
    exact ⟨entry.1, hlinked.keys entry.1 (List.mem_map_of_mem hentry), rfl⟩
  · rw [Connections.targets, ObjectMap.values, hentries, List.map_map, List.mem_flatMap] at htarget
    obtain ⟨outputs, houtputs, hmem⟩ := htarget
    obtain ⟨entry, hentry, rfl⟩ := List.mem_map.mp houtputs
    rw [Function.comp_apply, targets_mapTargets] at hmem
    obtain ⟨old, hold, rfl⟩ := List.mem_map.mp hmem
    refine ⟨old, hlinked.targets old ?_, rfl⟩
    exact List.mem_flatMap.mpr ⟨entry.2, List.mem_map_of_mem hentry, hold⟩

theorem refersTo_cloneWorkflow (newWorkflowId : Option String) :
    (workflow.cloneWorkflow newWorkflowId draws).RefersTo id ↔ workflow.RefersTo id := by
  have hnested : ∀ (action : Action) (newId : String),
      extractNestedActions { action with id := newId } = extractNestedActions action :=
    fun action newId => rfl
  constructor
  · rintro ⟨action, haction, ids, hids, hid⟩
    obtain ⟨index, hindex, rfl⟩ := List.mem_mapIdx.mp haction
    exact ⟨_, List.getElem_mem hindex, ids, (hnested _ _).symm.trans hids, hid⟩
  · rintro ⟨action, haction, ids, hids, hid⟩
    obtain ⟨index, hindex, rfl⟩ := List.mem_iff_getElem.mp haction
    exact ⟨_, List.mem_mapIdx.mpr ⟨index, hindex, rfl⟩, ids, (hnested _ _).trans hids, hid⟩

/-- The clone of a valid workflow under new ids is an isomorphic copy exactly where no
config refers to an action. -/
theorem cloneWorkflow_isomorphic_iff (workflow : Workflow) (newWorkflowId : Option String)
    (draws : Nat → Draw)
    (hvalid : (validateWorkflow (WorkflowSnapshotsService.validationInput workflow)).valid = true)
    (hdraws : workflow.DrawsFresh draws) :
    (∃ rename, IsomorphicCopy (workflow.cloneWorkflow newWorkflowId draws) workflow rename) ↔
      ∀ id ∈ workflow.actionIds, ¬ workflow.RefersTo id := by
  have hlinked := wellLinked_of_valid hvalid
  constructor
  · rintro ⟨rename, hcopy⟩ id hid hrefers
    exact hcopy.forgotten id hid
      (.inr (.inr (.inr ((refersTo_cloneWorkflow newWorkflowId).mpr hrefers))))
  · intro hnone
    have hids := cloneWorkflow_actionIds draws hlinked.nodup newWorkflowId
    refine ⟨workflow.cloneId draws, ⟨fun id hid => ?_, cloneId_injOn hlinked.nodup hdraws,
      fun id hid => ?_⟩, cloneWorkflow_actions hlinked.nodup newWorkflowId,
      cloneWorkflow_connections hlinked hdraws newWorkflowId, fun id hid hmentions => ?_⟩
    · exact hids ▸ List.mem_map_of_mem hid
    · exact List.mem_map.mp (hids ▸ hid)
    · have hnew : ∀ old ∈ workflow.actionIds, id ≠ workflow.cloneId draws old := by
        rintro old hold rfl
        exact cloneId_fresh hlinked.nodup hdraws hold hid
      rcases hmentions with haction | hkey | htarget | hrefers
      · obtain ⟨old, hold, heq⟩ := List.mem_map.mp (hids ▸ haction)
        exact hnew old hold heq.symm
      · obtain ⟨old, hold, heq⟩ := ends_cloneWorkflow hlinked hdraws (.inl hkey)
        exact hnew old hold heq
      · obtain ⟨old, hold, heq⟩ := ends_cloneWorkflow hlinked hdraws (.inr htarget)
        exact hnew old hold heq
      · exact hnone id hid ((refersTo_cloneWorkflow newWorkflowId).mp hrefers)

def guardedClick : Workflow where
  id := "w"
  name := "Guarded click"
  version := "1.0.0"
  format := "graph"
  actions := [{ id := "check", type := .IF
                config := some (.obj [("thenActions", .arr [.str "click"])])
                position := some (.arr [.num 0, .num 0]) }, placed "click"]
  connections := ⟨[("check", .leadsTo "click")], by decide⟩

/-- The clock gives another time for each id. -/
def ticking (index : Nat) : Draw := ⟨index, "k3x"⟩

theorem guardedClick_drawsFresh : guardedClick.DrawsFresh ticking :=
  ⟨by decide, by decide⟩

theorem cloneWorkflow_isomorphic_guardedClick :
    (∃ rename, IsomorphicCopy (guardedClick.cloneWorkflow none ticking) guardedClick rename) ↔
      ∀ id ∈ guardedClick.actionIds, ¬ guardedClick.RefersTo id :=
  cloneWorkflow_isomorphic_iff guardedClick none ticking (by decide) guardedClick_drawsFresh

/-- The clone of the check still names the click of the original. -/
theorem cloneWorkflow_keeps_nested_id :
    (validateWorkflow (WorkflowSnapshotsService.validationInput guardedClick)).valid = true ∧
      guardedClick.DrawsFresh ticking ∧
      ¬ ∃ rename, IsomorphicCopy (guardedClick.cloneWorkflow none ticking) guardedClick rename := by
  refine ⟨by decide, guardedClick_drawsFresh, ?_⟩
  rintro ⟨rename, hcopy⟩
  refine hcopy.forgotten "click" (by decide) (.inr (.inr (.inr ?_)))
  exact ⟨_, List.mem_cons_self, ["click"], rfl, by decide⟩

end Qontinui.Workflow
