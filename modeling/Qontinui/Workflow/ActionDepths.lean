import Qontinui.Base.Relaxation
import Qontinui.Workflow.WorkflowUtils

/-!
The depths of the actions of a workflow: their distances from the entry points.
-/

namespace Qontinui.Workflow

open Paths Relaxation Worklist

/-- An action in the queue, with the depth it had when it was pushed. -/
structure QueuedAction where
  actionId : String
  depth : Nat
  deriving DecidableEq

def offerDepth (newDepth : Nat) (depths : ObjectMap Nat) (nextId : String) :
    ObjectMap Nat × List QueuedAction :=
  let taken := (depths.set nextId newDepth, [{ actionId := nextId, depth := newDepth }])
  match depths.get? nextId with
  | none => taken
  | some currentDepth => if newDepth < currentDepth then taken else (depths, [])

def visitNextActions (workflow : Workflow) (depths : ObjectMap Nat) (queued : QueuedAction) :
    ObjectMap Nat × List QueuedAction :=
  pushAll (offerDepth (queued.depth + 1)) depths (workflow.getNextActions queued.actionId)

def entryDepths (entryPoints : List String) : ObjectMap Nat :=
  entryPoints.foldl (fun depths id => depths.set id 0) .empty

def entryQueue (entryPoints : List String) : List QueuedAction :=
  entryPoints.map fun id => { actionId := id, depth := 0 }

def calculateActionDepths (workflow : Workflow) (fuel : Nat) : Option (ObjectMap Nat) :=
  drain workflow.visitNextActions fuel (entryDepths workflow.getEntryPoints)
    (entryQueue workflow.getEntryPoints)

def entryDistances (workflow : Workflow) (id : String) : Set Nat :=
  {n | PathTo workflow.Connected {e | e ∈ workflow.getEntryPoints} n id}

/-- A shorter path is better, and every length is allowed. -/
def shorter : Preference where
  good m n := m ≤ n
  allowed _ := true
  refl := Relaxation.decide_le_self
  trans := by
    simp only [decide_eq_true_eq]
    exact Nat.le_trans
  total := by
    simp only [decide_eq_false_iff_not, decide_eq_true_eq, Nat.not_le]
    exact Nat.le_of_lt
  succ := by simp

variable {workflow : Workflow}

theorem reachedFromEntry_iff {id : String} :
    workflow.ReachedFromEntry id ↔ ∃ n, n ∈ workflow.entryDistances id :=
  exists_pathTo_iff.symm

def QueuedAction.entry (queued : QueuedAction) : String × Nat := (queued.actionId, queued.depth)

theorem offerDepth_image (newDepth : Nat) (depths : ObjectMap Nat) (nextId : String) :
    relax shorter newDepth depths.get? nextId =
      ((offerDepth newDepth depths nextId).1.get?,
        (offerDepth newDepth depths nextId).2.map QueuedAction.entry) := by
  rw [relax, ObjectMap.update_get?, offerDepth]
  cases hcurrent : depths.get? nextId with
  | none => simp [shorter, QueuedAction.entry]
  | some currentDepth =>
      by_cases hless : newDepth < currentDepth
      · simp [shorter, hless, QueuedAction.entry]
      · simp [shorter, hless]

theorem visitNextActions_image (workflow : Workflow) (depths : ObjectMap Nat)
    (queued : QueuedAction) :
    Relaxation.visit shorter workflow.getNextActions depths.get? queued.entry =
      ((workflow.visitNextActions depths queued).1.get?,
        (workflow.visitNextActions depths queued).2.map QueuedAction.entry) :=
  (pushAll_map ObjectMap.get? QueuedAction.entry (fun _ => True) (fun _ _ _ _ => trivial)
    (fun depths id _ _ => offerDepth_image _ depths id) trivial).2

theorem get?_entryDepths (ids : List String) (id : String) :
    (entryDepths ids).get? id = if id ∈ ids then some 0 else none := by
  have hget := ObjectMap.get?_foldl_set_const (fun id : String => id) 0 ids .empty id
  rwa [List.map_id'] at hget

theorem mem_entryQueue {ids : List String} {entry : String × Nat} :
    entry ∈ (entryQueue ids).map QueuedAction.entry ↔ entry.1 ∈ ids ∧ entry.2 = 0 := by
  obtain ⟨id, depth⟩ := entry
  simp [entryQueue, QueuedAction.entry, eq_comm]

theorem searching_entryPoints (workflow : Workflow) :
    Searching shorter workflow.getNextActions {e | e ∈ workflow.getEntryPoints}
      (fun _ _ => False) (entryDepths workflow.getEntryPoints).get?
      ((entryQueue workflow.getEntryPoints).map QueuedAction.entry) := by
  have hzero : ∀ {id value}, (entryDepths workflow.getEntryPoints).get? id = some value →
      id ∈ workflow.getEntryPoints ∧ value = 0 := by
    intro id value hvalue
    rw [get?_entryDepths] at hvalue
    split at hvalue
    · next hid => exact ⟨hid, (Option.some.inj hvalue).symm⟩
    · cases hvalue
  refine ⟨fun id hid => ⟨0, ?_, rfl⟩, fun id value hvalue => ?_, fun entry hentry => ?_,
    fun id value hvalue => .inl ?_⟩
  · rw [get?_entryDepths]
    exact if_pos hid
  · obtain ⟨hid, rfl⟩ := hzero hvalue
    exact .start hid
  · obtain ⟨hid, hdepth⟩ := mem_entryQueue.mp hentry
    rw [hdepth]
    exact .start hid
  · exact mem_entryQueue.mpr (hzero hvalue)

/-- The search for depths ends, and it ends with the distances of the actions that the entry
points lead to, cycles or not. -/
theorem calculateActionDepths_spec (workflow : Workflow) :
    ∃ depths : ObjectMap Nat,
      (∃ enough, ∀ fuel, enough ≤ fuel → workflow.calculateActionDepths fuel = some depths) ∧
        (∀ id, id ∈ depths.keys ↔ workflow.ReachedFromEntry id) ∧
          ∀ id depth, depths.get? id = some depth →
            IsLeast (workflow.entryDistances id) depth := by
  have hsearching := workflow.searching_entryPoints
  have hnodes : ∀ a, ∀ b ∈ workflow.getNextActions a, b ∈ workflow.mentionedIds := fun a b hb =>
    (mentioned_of_connected (mem_getNextActions.mp hb)).2
  have hheight : ∀ {value current}, shorter.allowed value = true →
      shorter.good current value = false → value < current := by
    simp only [shorter, decide_eq_false_iff_not, Nat.not_le]
    exact fun _ h => h
  obtain ⟨enough, table, htable⟩ := exists_drain_visit hheight hnodes
    (entryDepths workflow.getEntryPoints).get?
    ((entryQueue workflow.getEntryPoints).map QueuedAction.entry)
  have hended := drain_invariant _ searching_visit hsearching htable
  rw [drain_map ObjectMap.get? QueuedAction.entry (fun _ => True)
      (fun depths queued _ => ⟨trivial, workflow.visitNextActions_image depths queued⟩) enough
      trivial, Option.map_eq_some_iff] at htable
  obtain ⟨depths, hdepths, rfl⟩ := htable
  have hstep : (fun a b => b ∈ workflow.getNextActions a) = workflow.Connected :=
    step_getNextActions
  have hleast : ∀ {n id}, n ∈ workflow.entryDistances id →
      ∃ depth, depths.get? id = some depth ∧ depth ≤ n := by
    intro n id hn
    obtain ⟨depth, hdepth, -, hgood⟩ :=
      hended.outcome (fun _ => rfl) (by rw [hstep]; exact hn)
    exact ⟨depth, hdepth, by simpa [shorter] using hgood⟩
  have hpaths : ∀ {id depth}, depths.get? id = some depth →
      depth ∈ workflow.entryDistances id := by
    intro id depth hdepth
    have hpath := hended.paths id depth hdepth
    rwa [hstep] at hpath
  refine ⟨depths, ⟨enough, fun fuel hle => drain_mono hdepths hle⟩, fun id => ?_, ?_⟩
  · rw [reachedFromEntry_iff, ObjectMap.mem_keys_iff]
    exact ⟨fun ⟨depth, hdepth⟩ => ⟨depth, hpaths hdepth⟩,
      fun ⟨n, hn⟩ => (hleast hn).imp fun _ h => h.1⟩
  · intro id depth hdepth
    refine ⟨hpaths hdepth, fun n hn => ?_⟩
    obtain ⟨other, hother, hle⟩ := hleast hn
    rw [hdepth] at hother
    cases hother
    exact hle

end Qontinui.Workflow
