import Qontinui.Base.Runs
import Qontinui.Snapshots.SnapshotService

/-!
What a snapshot keeps of its workflow. Each clone on the way in and out draws new ids for
the actions, and the one on the way in a new id for the workflow, so no snapshot of a valid
workflow gives it back.
-/

namespace Qontinui.WorkflowSnapshotsService

open Runs

/-- A workflow with the id, the name, the actions and the connections of another one. -/
def SameWorkflow (restored workflow : Workflow) : Prop :=
  restored.id = workflow.id ∧ restored.name = workflow.name ∧
    restored.actions = workflow.actions ∧ restored.connections = workflow.connections

/-- A snapshot is there after each of some operations. -/
def Kept (service : WorkflowSnapshotsService) (snapshotId : String)
    (operations : List SnapshotOperation) : Prop :=
  ∀ front, front <+: operations → (run step service front).getSnapshot snapshotId ≠ none

/-- A comparison that finds nothing changed in a workflow. -/
def Unchanged (comparison : SnapshotComparison) (workflow : Workflow) : Prop :=
  (∀ id ∈ workflow.actionIds, id ∈ comparison.diff.unchanged) ∧ comparison.diff.added = [] ∧
    comparison.diff.removed = [] ∧ comparison.diff.modified = [] ∧
    comparison.details.connectionsChanged = false

/-- The snapshot of a workflow gives it back as long as it is kept, and a comparison right
after it was made finds nothing changed. -/
structure Faithful (numberText : Rat → String) (service : WorkflowSnapshotsService)
    (workflow : Workflow) (request : SnapshotRequest) : Prop where
  restored : ∀ later,
    Kept (service.createSnapshot workflow request) (request.draw.id "snapshot") later →
    ∀ draws, ∃ restored,
      (run step (service.createSnapshot workflow request) later).restoreSnapshot
        (request.draw.id "snapshot") draws = some restored ∧ SameWorkflow restored workflow
  compared : ∀ timestamp, ∃ comparison,
    (service.createSnapshot workflow request).compareWithLatest numberText workflow timestamp =
      some comparison ∧ Unchanged comparison workflow

def validationInput (workflow : Workflow) : Workflow.WorkflowInput where
  id := some workflow.id
  name := some workflow.name
  version := some workflow.version
  format := some workflow.format
  actions := some workflow.actions
  connections := some workflow.connections

variable {service : WorkflowSnapshotsService} {workflow restored : Workflow}
  {request : SnapshotRequest} {snapshotId : String} {draws : Nat → Draw}

section

variable (h : service.restoreSnapshot snapshotId draws = some restored)
include h

theorem actionIds_restoreSnapshot (index : Nat) :
    ∀ action, restored.actions[index]? = some action → action.id = (draws index).id "action" := by
  obtain ⟨snapshot, _, rfl⟩ := Option.map_eq_some_iff.mp h
  intro action haction
  simp only [Workflow.cloneWorkflow, List.getElem?_mapIdx, Option.map_eq_some_iff] at haction
  obtain ⟨_, _, rfl⟩ := haction
  rfl

theorem drawn_again_of_same (hsame : SameWorkflow restored workflow) {index : Nat} {action : Action}
    (haction : workflow.actions[index]? = some action) : (draws index).id "action" = action.id := by
  have hids := actionIds_restoreSnapshot h index action
  rw [hsame.2.2.1] at hids
  exact (hids haction).symm

end

theorem getSnapshot_createSnapshot (service : WorkflowSnapshotsService) (workflow : Workflow)
    (request : SnapshotRequest) :
    (service.createSnapshot workflow request).getSnapshot (request.draw.id "snapshot") ≠ none := by
  intro hnone
  have hlookup : (service.createSnapshot workflow request).snapshots.lookup workflow.id =
      some (service.listSnapshots workflow.id ++ [newSnapshot workflow request]) :=
    Fields.lookup_set_self _ _ _
  have hentry := Fields.mem_of_lookup hlookup
  have hfind := List.findSome?_eq_none_iff.mp hnone _ hentry
  have hnot := List.find?_eq_none.mp hfind (newSnapshot workflow request) (by simp)
  exact hnot (by simp [newSnapshot])

theorem exists_draw_ne (id : String) : ∃ draw : Draw, draw.id "action" ≠ id := by
  by_cases h : (⟨0, "a"⟩ : Draw).id "action" = id
  · refine ⟨⟨1, "a"⟩, fun hother => ?_⟩
    exact absurd (h.trans hother.symm) (by decide)
  · exact ⟨⟨0, "a"⟩, h⟩

theorem actions_ne_nil_of_valid
    (h : (Workflow.validateWorkflow (validationInput workflow)).valid = true) :
    workflow.actions ≠ [] := by
  intro hnil
  simp [Workflow.validateWorkflow, validationInput, hnil] at h

theorem not_faithful_of_actions (hactions : workflow.actions ≠ []) (numberText : Rat → String)
    (service : WorkflowSnapshotsService) (request : SnapshotRequest) :
    ¬ Faithful numberText service workflow request := by
  intro hfaithful
  obtain ⟨action, rest, heq⟩ := List.exists_cons_of_ne_nil hactions
  obtain ⟨draw, hdraw⟩ := exists_draw_ne action.id
  have hkept : Kept (service.createSnapshot workflow request) (request.draw.id "snapshot") [] := by
    intro front hfront
    rw [List.prefix_nil.mp hfront]
    exact getSnapshot_createSnapshot service workflow request
  obtain ⟨restored, hrestored, hsame⟩ := hfaithful.restored [] hkept fun _ => draw
  have haction : workflow.actions[0]? = some action := by rw [heq, List.getElem?_cons_zero]
  exact hdraw (drawn_again_of_same hrestored hsame haction)

theorem getLatestSnapshot_createSnapshot (service : WorkflowSnapshotsService)
    (workflow : Workflow) (request : SnapshotRequest) :
    (service.createSnapshot workflow request).getLatestSnapshot workflow.id =
      some (newSnapshot workflow request) := by
  have hlookup : (service.createSnapshot workflow request).snapshots.lookup workflow.id =
      some (service.listSnapshots workflow.id ++ [newSnapshot workflow request]) :=
    Fields.lookup_set_self _ _ _
  rw [getLatestSnapshot, listSnapshots, hlookup, Option.getD_some, List.getLast?_concat]

theorem drawn_of_unchanged {numberText : Rat → String} {timestamp : String}
    {comparison : SnapshotComparison}
    (h : (service.createSnapshot workflow request).compareWithLatest numberText workflow
      timestamp = some comparison)
    (hunchanged : Unchanged comparison workflow) {id : String} (hid : id ∈ workflow.actionIds) :
    ∃ index, (request.draws index).id "action" = id := by
  rw [compareWithLatest, getLatestSnapshot_createSnapshot, Option.map_some] at h
  cases h
  have hmem := hunchanged.1 id hid
  simp only [calculateDiff, List.mem_filter, List.mem_eraseDups, newSnapshot,
    Workflow.actionIds_cloneWorkflow, List.mem_mapIdx] at hmem
  obtain ⟨⟨⟨index, _, hindex⟩, _⟩, _⟩ := hmem
  exact ⟨index, hindex⟩

/-- No snapshot of a valid workflow is faithful: a workflow comes back from one only where
its own ids are drawn for the restored actions, and its actions count as unchanged only
where they are drawn for the copies. -/
theorem snapshot_never_faithful (workflow : Workflow)
    (h : (Workflow.validateWorkflow (validationInput workflow)).valid = true)
    (numberText : Rat → String) (service : WorkflowSnapshotsService)
    (request : SnapshotRequest) :
    ¬ Faithful numberText service workflow request ∧
      (∀ later draws restored,
        (run step (service.createSnapshot workflow request) later).restoreSnapshot
          (request.draw.id "snapshot") draws = some restored → SameWorkflow restored workflow →
        ∀ index action, workflow.actions[index]? = some action →
          (draws index).id "action" = action.id) ∧
      ∀ timestamp comparison,
        (service.createSnapshot workflow request).compareWithLatest numberText workflow
          timestamp = some comparison → Unchanged comparison workflow →
        ∀ id ∈ workflow.actionIds, ∃ index, (request.draws index).id "action" = id :=
  ⟨not_faithful_of_actions (actions_ne_nil_of_valid h) numberText service request,
    fun _ _ _ hrestored hsame _ _ haction => drawn_again_of_same hrestored hsame haction,
    fun _ _ hcompare hunchanged _ hid => drawn_of_unchanged hcompare hunchanged hid⟩

def single : Workflow where
  id := "w"
  name := "single"
  version := "1.0.0"
  format := "graph"
  actions := [Workflow.placed "a"]
  connections := .empty

def requestAt (now : Nat) : SnapshotRequest where
  name := "save point"
  draw := ⟨now, "a"⟩
  draws := fun index => ⟨now, toString index⟩
  timestamp := "2024-01-01T00:00:00.000Z"

theorem snapshot_never_faithful_single :
    ¬ Faithful (fun _ => "0") {} single (requestAt 1) ∧
      (∀ later draws restored,
        (run step (createSnapshot {} single (requestAt 1)) later).restoreSnapshot
          ((requestAt 1).draw.id "snapshot") draws = some restored →
        SameWorkflow restored single →
        ∀ index action, single.actions[index]? = some action →
          (draws index).id "action" = action.id) ∧
      ∀ timestamp comparison,
        (createSnapshot {} single (requestAt 1)).compareWithLatest (fun _ => "0") single
          timestamp = some comparison → Unchanged comparison single →
        ∀ id ∈ single.actionIds, ∃ index, ((requestAt 1).draws index).id "action" = id :=
  snapshot_never_faithful single (by decide +kernel) (fun _ => "0") {} (requestAt 1)

/-- The workflow of one action comes back with other ids, and its action counts as added. -/
theorem single_not_faithful : ¬ Faithful (fun _ => "0") {} single (requestAt 1) := by
  intro hfaithful
  have hkept : Kept (createSnapshot {} single (requestAt 1)) "snapshot-1-a" [] := by
    intro front hfront
    rw [List.prefix_nil.mp hfront]
    decide
  obtain ⟨restored, hrestored, hid, -⟩ := hfaithful.restored [] hkept fun _ => ⟨2, "b"⟩
  have hother : (run step (createSnapshot {} single (requestAt 1)) []).restoreSnapshot
      "snapshot-1-a" (fun _ => ⟨2, "b"⟩) =
        some { single with
          id := "workflow-1-1"
          actions := [Workflow.placed "action-2-b"] } := by
    decide +kernel
  cases hother.symm.trans hrestored
  exact absurd hid (by decide)

end Qontinui.WorkflowSnapshotsService
