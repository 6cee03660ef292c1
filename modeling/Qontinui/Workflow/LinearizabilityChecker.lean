import Qontinui.Workflow.WorkflowUtils

/-!
The check that decides whether a graph workflow has a sequential form, and what
it leaves of the graph: one entry point, and below it a tree.
-/

namespace Qontinui

namespace LinearizabilityChecker

open DepthFirst

structure Details where
  entryPointCount : Nat := 0
  branchingNodeCount : Nat := 0
  mergeNodeCount : Nat := 0
  parallelBranchCount : Nat := 0
  cycleCount : Nat := 0
  deriving DecidableEq

structure LinearizabilityResult where
  linearizable : Bool
  issues : List String
  details : Option Details := none
  deriving DecidableEq

/-- The actions with more than one outgoing connection. -/
def findBranchingNodes (workflow : Workflow) : List String :=
  (workflow.connections.entries.filter fun entry => 1 < entry.2.targets.length).map Prod.fst

/-- The ids with more than one incoming connection. -/
def findMergeNodes (workflow : Workflow) : List String :=
  workflow.connections.targets.eraseDups.filter fun id =>
    1 < workflow.connections.targets.count id

/-- The actions with several main outputs, other than those that branch. -/
def findParallelBranches (workflow : Workflow) : List String :=
  (workflow.connections.entries.filter fun (actionId, outputs) =>
    1 < (outputs.main.getD []).length &&
      match workflow.getActionById actionId with
      | none => false
      | some action => action.type ∉ [.IF, .SWITCH, .TRY_CATCH]).map Prod.fst

/-- One search for all cycles: those found, and the actions visited. -/
def dfs (nextActions : String → List String) :
    Nat → List String → List (List String) × List String → String →
      List (List String) × List String
  | 0, _, state, _ => state
  | fuel + 1, recursionStack, (cycles, visited), actionId =>
      if actionId ∈ recursionStack then
        let cycle := recursionStack.drop (recursionStack.idxOf actionId) ++ [actionId]
        (cycles ++ [cycle], visited)
      else if actionId ∈ visited then (cycles, visited)
      else
        (nextActions actionId).foldl (dfs nextActions fuel (recursionStack ++ [actionId]))
          (cycles, actionId :: visited)

def findAllCycles (workflow : Workflow) : List (List String) :=
  (workflow.getEntryPoints.foldl (dfs workflow.getNextActions workflow.searchDepth [])
    ([], [])).1

/-- The cycles that do not start and end at one LOOP action, by number and path. -/
def detectNonLoopCycles (workflow : Workflow) : List String :=
  if workflow.hasCycles = false then []
  else
    let loopActions := workflow.actions.filter fun action => action.type = .LOOP
    ((findAllCycles workflow).mapIdx fun index cycle =>
      let isValidLoop := loopActions.any fun loopAction =>
        cycle.head? = some loopAction.id && cycle.getLast? = some loopAction.id
      if isValidLoop then []
      else [s!"cycle-{index + 1}(" ++ "->".intercalate cycle ++ ")"]).flatten

def ifBranchIssue (workflow : Workflow) (ifAction : Action) : List String :=
  match (workflow.connections.get? ifAction.id).bind Outputs.main with
  | some [trueBranch, falseBranch] =>
      if trueBranch.length = 0 ∧ falseBranch.length = 0 then
        [s!"IF action {ifAction.id} has no outgoing connections"]
      else []
  | _ => [s!"IF action {ifAction.id} must have exactly 2 outputs (true/false branches)"]

def checkIfBranchStructure (workflow : Workflow) : List String :=
  (workflow.actions.filter fun action => action.type = .IF).flatMap (ifBranchIssue workflow)

def issueOf (ids : List String) (before after : String) : List String :=
  if ids = [] then [] else [before ++ ", ".intercalate ids ++ after]

def checkGraph (workflow : Workflow) : LinearizabilityResult :=
  let entryPoints := workflow.getEntryPoints
  let mergeNodes := findMergeNodes workflow
  let parallelBranches := findParallelBranches workflow
  let cycles := detectNonLoopCycles workflow
  let issues :=
    (if entryPoints.length = 0 then ["No entry points detected"]
     else if 1 < entryPoints.length then
       issueOf entryPoints "Multiple entry points detected: " " (only one allowed)"
     else []) ++
    issueOf mergeNodes "Merge nodes detected: " " (multiple paths converge to same action)" ++
    issueOf parallelBranches "Parallel execution detected at actions: "
      " (only sequential allowed)" ++
    issueOf cycles "Non-LOOP cycles detected: " " (circular dependencies)" ++
    checkIfBranchStructure workflow
  { linearizable := issues.isEmpty
    issues
    details := some {
      entryPointCount := entryPoints.length
      branchingNodeCount := (findBranchingNodes workflow).length
      mergeNodeCount := mergeNodes.length
      parallelBranchCount := parallelBranches.length
      cycleCount := cycles.length } }

def check (workflow : Workflow) : LinearizabilityResult :=
  if workflow.format ≠ "graph" then
    { linearizable := false, issues := ["Workflow is not in graph format"], details := some {} }
  else if workflow.connections.keys = [] then
    { linearizable := false, issues := ["Graph workflow has no connections"], details := some {} }
  else checkGraph workflow

/-! ### What the check leaves -/

variable {workflow : Workflow}

theorem issueOf_eq_nil {ids : List String} {before after : String} :
    issueOf ids before after = [] ↔ ids = [] := by
  unfold issueOf
  split_ifs with h <;> simp [h]

/-- What a linearizable workflow has passed. -/
structure Linear (workflow : Workflow) : Prop where
  format : workflow.format = "graph"
  connections : workflow.connections.keys ≠ []
  entry : ∃ e, workflow.getEntryPoints = [e]
  merges : findMergeNodes workflow = []
  branches : ∀ action ∈ workflow.actions, action.type = .IF → ifBranchIssue workflow action = []

theorem linear_of_check (h : (check workflow).linearizable = true) : Linear workflow := by
  unfold check at h
  split at h
  · cases h
  next hformat =>
  split at h
  · cases h
  next hconnections =>
  have hissues := List.isEmpty_iff.mp h
  simp only [List.append_eq_nil_iff, issueOf_eq_nil] at hissues
  obtain ⟨⟨⟨⟨hentry, hmerges⟩, _⟩, _⟩, hif⟩ := hissues
  refine ⟨by simpa using hformat, hconnections, ?_, hmerges, ?_⟩
  · cases hpoints : workflow.getEntryPoints with
    | nil => simp [hpoints] at hentry
    | cons e rest =>
        cases rest with
        | nil => exact ⟨e, rfl⟩
        | cons e' rest => simp [hpoints, issueOf] at hentry
  · intro action haction htype
    exact List.flatMap_eq_nil_iff.mp hif action
      (List.mem_filter.mpr ⟨haction, by simpa using htype⟩)

theorem count_flatMap_of_two {α β : Type*} [DecidableEq β] {items : List α} {f : α → List β}
    {x y : α} (hx : x ∈ items) (hy : y ∈ items) (hne : x ≠ y) {b : β} (hbx : b ∈ f x)
    (hby : b ∈ f y) : 2 ≤ (items.flatMap f).count b := by
  induction items with
  | nil => cases hx
  | cons z rest ih =>
      rw [List.flatMap_cons, List.count_append]
      rcases List.mem_cons.mp hx with hzx | hxrest
      · have hyrest : y ∈ rest := (List.mem_cons.mp hy).resolve_left fun hzy =>
          hne (hzx.trans hzy.symm)
        have hfirst : 0 < (f z).count b := List.count_pos_iff.mpr (hzx ▸ hbx)
        have hlater : 0 < (rest.flatMap f).count b :=
          List.count_pos_iff.mpr (List.mem_flatMap.mpr ⟨y, hyrest, hby⟩)
        omega
      · rcases List.mem_cons.mp hy with hzy | hyrest
        · have hfirst : 0 < (f z).count b := List.count_pos_iff.mpr (hzy ▸ hby)
          have hlater : 0 < (rest.flatMap f).count b :=
            List.count_pos_iff.mpr (List.mem_flatMap.mpr ⟨x, hxrest, hbx⟩)
          omega
        · exact Nat.le_add_left_of_le (ih hxrest hyrest)

theorem unique_source (hmerges : findMergeNodes workflow = []) {a b c : String}
    (ha : workflow.Connected a c) (hb : workflow.Connected b c) : a = b := by
  by_contra hne
  have htarget := Workflow.mem_targets_iff.mpr ⟨a, ha⟩
  obtain ⟨first, hfirst, hac⟩ := ha
  obtain ⟨second, hsecond, hbc⟩ := hb
  have hcount : 2 ≤ workflow.connections.targets.count c := by
    unfold Connections.targets ObjectMap.values
    rw [List.flatMap_map]
    exact count_flatMap_of_two (x := (a, first)) (y := (b, second))
      (ObjectMap.get?_eq_some_iff.mp hfirst) (ObjectMap.get?_eq_some_iff.mp hsecond)
      (fun heq => hne (congrArg Prod.fst heq)) hac hbc
  have hmem : c ∈ findMergeNodes workflow :=
    List.mem_filter.mpr ⟨List.mem_eraseDups.mpr htarget, decide_eq_true hcount⟩
  rw [hmerges] at hmem
  cases hmem

theorem Linear.hasCycles_eq_false (h : Linear workflow) : workflow.hasCycles = false := by
  by_contra hfound
  obtain ⟨a, ⟨e, he, hreach⟩, hcycle⟩ := Workflow.cycle_of_hasCycles (by simpa using hfound)
  rw [← Workflow.step_getNextActions] at hreach hcycle
  refine @not_onCycle_of_unique _ workflow.getNextActions _ ?_ _ ?_ hreach hcycle
  · rw [Workflow.step_getNextActions]
    exact unique_source h.merges
  · rw [Workflow.step_getNextActions]
    exact Workflow.not_connected_entry he

theorem Linear.topologicalOrder (h : Linear workflow) :
    ∃ order, workflow.getTopologicalOrder = some order := by
  rw [Workflow.getTopologicalOrder_eq]
  exact Option.isSome_iff_exists.mp
    (Workflow.hasCycles_eq_false_iff.mp h.hasCycles_eq_false)

theorem Linear.check (h : Linear workflow) (hparallel : findParallelBranches workflow = []) :
    (check workflow).linearizable = true := by
  obtain ⟨e, he⟩ := h.entry
  have hcycles : detectNonLoopCycles workflow = [] := by
    simp [detectNonLoopCycles, h.hasCycles_eq_false]
  have hif : checkIfBranchStructure workflow = [] := by
    refine List.flatMap_eq_nil_iff.mpr fun action haction => ?_
    obtain ⟨hmem, htype⟩ := List.mem_filter.mp haction
    exact h.branches action hmem (by simpa using htype)
  rw [LinearizabilityChecker.check, if_neg (by simpa using h.format), if_neg h.connections]
  simp [checkGraph, he, h.merges, hparallel, hcycles, hif, issueOf]

end LinearizabilityChecker

end Qontinui
