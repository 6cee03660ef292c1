import Qontinui.Base.DepthFirst
import Qontinui.Workflow.ActionTypes

/-!
The graph functions of the workflow utilities: entry points, next actions,
cycles, orphans and the topological order, and what they say of the graph that
all connections of a workflow form.
-/

namespace Qontinui.Workflow

open DepthFirst

def getEntryPoints (workflow : Workflow) : List String :=
  workflow.actionIds.filter (· ∉ workflow.connections.targets)

def getNextActions (workflow : Workflow) (actionId : String) : List String :=
  match workflow.connections.get? actionId with
  | none => []
  | some outputs => outputs.targets.eraseDups

/-- The loop that looks for a cycle from one node after another. -/
def anyCycle (hasCycleFrom : List String → String → Bool × List String) :
    List String → List String → Bool × List String
  | visited, [] => (false, visited)
  | visited, actionId :: rest =>
      match hasCycleFrom visited actionId with
      | (true, visited) => (true, visited)
      | (false, visited) => anyCycle hasCycleFrom visited rest

/-- Whether the search from an action comes back to the path it is on; and the
actions visited by then. -/
def hasCycleFrom (nextActions : String → List String) :
    Nat → List String → List String → String → Bool × List String
  | 0, _, visited, _ => (true, visited)
  | fuel + 1, recursionStack, visited, actionId =>
      if actionId ∈ recursionStack then (true, visited)
      else if actionId ∈ visited then (false, visited)
      else
        anyCycle (hasCycleFrom nextActions fuel (actionId :: recursionStack))
          (actionId :: visited) (nextActions actionId)

def mentionedIds (workflow : Workflow) : List String :=
  workflow.actionIds ++ workflow.connections.keys ++ workflow.connections.targets

/-- A path without repetition is no longer than the ids that occur. -/
def searchDepth (workflow : Workflow) : Nat := workflow.mentionedIds.length + 1

def hasCycles (workflow : Workflow) : Bool :=
  (anyCycle (hasCycleFrom workflow.getNextActions workflow.searchDepth []) []
    workflow.getEntryPoints).1

def findOrphanedActions (workflow : Workflow) : List String :=
  if workflow.actions.length ≤ 1 then []
  else if workflow.connections.keys = [] then workflow.actionIds
  else
    let connected := workflow.connections.keys ++ workflow.connections.targets
    workflow.actionIds.filter (· ∉ connected)

def getActionById (workflow : Workflow) (actionId : String) : Option Action :=
  workflow.actions.find? fun action => action.id = actionId

/-- One visit of the topological sort: the actions visited, and the order so far. -/
def visit (nextActions : String → List String) :
    Nat → List String × List String → String → List String × List String
  | 0, state, _ => state
  | fuel + 1, (visited, order), actionId =>
      if actionId ∈ visited then (visited, order)
      else
        let (visited, order) :=
          (nextActions actionId).foldl (visit nextActions fuel) (actionId :: visited, order)
        (visited, actionId :: order)

/-- The actions the entry points lead to, each before those that follow it. -/
def getTopologicalOrder (workflow : Workflow) : Option (List String) :=
  if workflow.hasCycles then none
  else
    some (workflow.getEntryPoints.foldl
      (visit workflow.getNextActions workflow.searchDepth) ([], [])).2

/-! ### The graph of a workflow -/

/-- A connection of some type leads from `a` to `b`. -/
def Connected (workflow : Workflow) (a b : String) : Prop := workflow.connections.Leads a b

def Acyclic (workflow : Workflow) : Prop := ∀ a, ¬ Relation.TransGen workflow.Connected a a

/-- Connections lead from an entry point to `a`. -/
def ReachedFromEntry (workflow : Workflow) (a : String) : Prop :=
  ∃ e ∈ workflow.getEntryPoints, Relation.ReflTransGen workflow.Connected e a

def EndsAreActions (workflow : Workflow) : Prop :=
  ∀ a b, workflow.Connected a b → a ∈ workflow.actionIds ∧ b ∈ workflow.actionIds

variable {workflow : Workflow} {id a b : String}

theorem mem_getEntryPoints :
    id ∈ workflow.getEntryPoints ↔
      id ∈ workflow.actionIds ∧ id ∉ workflow.connections.targets := by
  simp [getEntryPoints]

theorem mem_getNextActions : b ∈ workflow.getNextActions a ↔ workflow.Connected a b := by
  unfold getNextActions Connected Connections.Leads
  cases workflow.connections.get? a <;> simp [List.mem_eraseDups]

theorem step_getNextActions : Step workflow.getNextActions = workflow.Connected := by
  funext a b
  exact propext mem_getNextActions

theorem mem_targets_iff : b ∈ workflow.connections.targets ↔ ∃ a, workflow.Connected a b := by
  simp only [Connections.targets, List.mem_flatMap, ObjectMap.mem_values_iff, Connected,
    Connections.Leads]
  constructor
  · rintro ⟨outputs, ⟨a, ha⟩, hb⟩
    exact ⟨a, outputs, ha, hb⟩
  · rintro ⟨a, outputs, ha, hb⟩
    exact ⟨outputs, ⟨a, ha⟩, hb⟩

theorem mem_keys_of_connected (h : workflow.Connected a b) : a ∈ workflow.connections.keys := by
  obtain ⟨outputs, ha, _⟩ := h
  exact ObjectMap.mem_keys_iff.mpr ⟨outputs, ha⟩

theorem not_connected_entry {e : String} (he : e ∈ workflow.getEntryPoints) (a : String) :
    ¬ workflow.Connected a e :=
  fun h => (mem_getEntryPoints.mp he).2 (mem_targets_iff.mpr ⟨a, h⟩)

theorem mentioned_of_connected (h : workflow.Connected a b) :
    a ∈ workflow.mentionedIds ∧ b ∈ workflow.mentionedIds := by
  have hkey := mem_keys_of_connected h
  have htarget := mem_targets_iff.mpr ⟨a, h⟩
  simp [mentionedIds, hkey, htarget]

theorem mentioned_of_entry {e : String} (he : e ∈ workflow.getEntryPoints) :
    e ∈ workflow.mentionedIds := by
  simp [mentionedIds, (mem_getEntryPoints.mp he).1]

theorem getActionById_eq_some {action : Action} (h : workflow.getActionById id = some action) :
    action ∈ workflow.actions ∧ action.id = id :=
  ⟨List.mem_of_find?_eq_some h, by simpa using List.find?_some h⟩

theorem getActionById_isSome_iff :
    (workflow.getActionById id).isSome ↔ id ∈ workflow.actionIds := by
  simp [getActionById, actionIds, List.find?_isSome]

theorem getActionById_of_mem (hnodup : workflow.actionIds.Nodup) {action : Action}
    (h : action ∈ workflow.actions) : workflow.getActionById action.id = some action := by
  have hsome := getActionById_isSome_iff.mpr
    (List.mem_map_of_mem h : action.id ∈ workflow.actionIds)
  obtain ⟨found, hfound⟩ := Option.isSome_iff_exists.mp hsome
  obtain ⟨hmem, hid⟩ := getActionById_eq_some hfound
  rw [hfound, List.inj_on_of_nodup_map hnodup hmem h hid]

/-! ### The searches against the library's -/

section Searches

variable {nextActions : String → List String}

/-- The two sets of the cycle search against the finished nodes of the library's. -/
def Agrees (recursionStack : List String) : Option (List String) → Bool × List String → Prop
  | none, found => found.1 = true
  | some done, found =>
      found.1 = false ∧ ∀ id, id ∈ found.2 ↔ id ∈ done ∨ id ∈ recursionStack

variable {recursionStack done visited : List String}

theorem anyCycle_agrees {explores : List String → String → Option (List String)}
    {searches : List String → String → Bool × List String}
    (h : ∀ {done visited : List String} (id : String),
      (∀ x, x ∈ visited ↔ x ∈ done ∨ x ∈ recursionStack) →
        Agrees recursionStack (explores done id) (searches visited id))
    (hvisited : ∀ x, x ∈ visited ↔ x ∈ done ∨ x ∈ recursionStack) (ids : List String) :
    Agrees recursionStack (ids.foldlM explores done) (anyCycle searches visited ids) := by
  induction ids generalizing done visited with
  | nil => exact ⟨rfl, hvisited⟩
  | cons id rest ih =>
      have hid := h id hvisited
      rw [List.foldlM_cons, anyCycle]
      rcases hfound : searches visited id with ⟨found, visited'⟩
      rw [hfound] at hid
      cases hdone : explores done id with
      | none =>
          rw [hdone] at hid
          cases (show found = true from hid)
          exact rfl
      | some done' =>
          rw [hdone] at hid
          cases (show found = false from hid.1)
          exact ih hid.2

theorem hasCycleFrom_agrees {fuel : Nat} (id : String)
    (hvisited : ∀ x, x ∈ visited ↔ x ∈ done ∨ x ∈ recursionStack) :
    Agrees recursionStack (explore nextActions fuel recursionStack done id)
      (hasCycleFrom nextActions fuel recursionStack visited id) := by
  induction fuel generalizing recursionStack done visited id with
  | zero => exact rfl
  | succ fuel ih =>
      rw [hasCycleFrom]
      by_cases hs : id ∈ recursionStack
      · rw [explore_of_mem_stack hs, if_pos hs]
        exact rfl
      rw [if_neg hs]
      by_cases hd : id ∈ done
      · rw [explore_of_mem_done hs hd, if_pos ((hvisited id).mpr (.inl hd))]
        exact ⟨rfl, hvisited⟩
      have hnot : id ∉ visited := fun hid => ((hvisited id).mp hid).elim hd hs
      rw [explore_of_fresh hs hd, if_neg hnot]
      have hvisited' : ∀ x, x ∈ id :: visited ↔ x ∈ done ∨ x ∈ id :: recursionStack := by
        intro x
        simp only [List.mem_cons, hvisited]
        tauto
      have below := anyCycle_agrees (fun {done visited} id h => @ih _ done visited id h)
        hvisited' (nextActions id)
      cases hinner : (nextActions id).foldlM
          (explore nextActions fuel (id :: recursionStack)) done with
      | none =>
          rw [hinner] at below
          exact below
      | some done' =>
          rw [hinner] at below
          refine ⟨below.1, fun x => ?_⟩
          rw [below.2 x]
          simp only [List.mem_cons]
          tauto

theorem visits_of_foldlM {explores : List String → String → Option (List String)}
    {visits : List String × List String → String → List String × List String}
    (h : ∀ {done done' visited : List String} {id : String},
      (∀ x, x ∈ visited ↔ x ∈ done ∨ x ∈ recursionStack) → explores done id = some done' →
        ∃ visited', visits (visited, done) id = (visited', done') ∧
          ∀ x, x ∈ visited' ↔ x ∈ done' ∨ x ∈ recursionStack) {ids done' : List String}
    (hvisited : ∀ x, x ∈ visited ↔ x ∈ done ∨ x ∈ recursionStack)
    (hids : ids.foldlM explores done = some done') :
    ∃ visited', ids.foldl visits (visited, done) = (visited', done') ∧
      ∀ x, x ∈ visited' ↔ x ∈ done' ∨ x ∈ recursionStack := by
  induction ids generalizing done visited with
  | nil =>
      cases hids
      exact ⟨visited, rfl, hvisited⟩
  | cons id rest ih =>
      rw [List.foldlM_cons] at hids
      obtain ⟨mid, hmid, hrest⟩ := Option.bind_eq_some_iff.mp hids
      obtain ⟨visitedMid, hvisits, hmem⟩ := h hvisited hmid
      rw [List.foldl_cons, hvisits]
      exact ih hmem hrest

theorem visit_of_explore {fuel : Nat} {done' : List String} {id : String}
    (hvisited : ∀ x, x ∈ visited ↔ x ∈ done ∨ x ∈ recursionStack)
    (h : explore nextActions fuel recursionStack done id = some done') :
    ∃ visited', visit nextActions fuel (visited, done) id = (visited', done') ∧
      ∀ x, x ∈ visited' ↔ x ∈ done' ∨ x ∈ recursionStack := by
  induction fuel generalizing recursionStack done done' visited id with
  | zero => cases h
  | succ fuel ih =>
      by_cases hs : id ∈ recursionStack
      · rw [explore_of_mem_stack hs] at h
        cases h
      by_cases hd : id ∈ done
      · rw [explore_of_mem_done hs hd] at h
        cases h
        exact ⟨visited, by rw [visit, if_pos ((hvisited id).mpr (.inl hd))], hvisited⟩
      have hnot : id ∉ visited := fun hid => ((hvisited id).mp hid).elim hd hs
      rw [explore_of_fresh hs hd] at h
      obtain ⟨inner, hinner, rfl⟩ := Option.map_eq_some_iff.mp h
      have hvisited' : ∀ x, x ∈ id :: visited ↔ x ∈ done ∨ x ∈ id :: recursionStack := by
        intro x
        simp only [List.mem_cons, hvisited]
        tauto
      obtain ⟨visited', hvisits, hmem⟩ := visits_of_foldlM ih hvisited' hinner
      refine ⟨visited', by rw [visit, if_neg hnot, hvisits], fun x => ?_⟩
      rw [hmem x]
      simp only [List.mem_cons]
      tauto

end Searches

/-- The search of the library over a workflow, from all its entry points. -/
def finished (workflow : Workflow) : Option (List String) :=
  workflow.getEntryPoints.foldlM (explore workflow.getNextActions workflow.searchDepth []) []

theorem hasCycles_eq_false_iff : workflow.hasCycles = false ↔ workflow.finished.isSome := by
  have h : Agrees []
      (workflow.getEntryPoints.foldlM
        (explore workflow.getNextActions workflow.searchDepth []) [])
      (anyCycle (hasCycleFrom workflow.getNextActions workflow.searchDepth []) []
        workflow.getEntryPoints) :=
    anyCycle_agrees hasCycleFrom_agrees (by simp) workflow.getEntryPoints
  unfold hasCycles finished
  cases hdone : workflow.getEntryPoints.foldlM
      (explore workflow.getNextActions workflow.searchDepth []) [] with
  | none =>
      rw [hdone] at h
      simp [show _ = true from h]
  | some done =>
      rw [hdone] at h
      simp [h.1]

theorem getTopologicalOrder_eq : workflow.getTopologicalOrder = workflow.finished := by
  unfold getTopologicalOrder
  cases hcycles : workflow.hasCycles with
  | true =>
      have hnone : ¬ workflow.finished.isSome := by simp [← hasCycles_eq_false_iff, hcycles]
      rw [Option.not_isSome_iff_eq_none.mp hnone]
      rfl
  | false =>
      obtain ⟨done, hdone⟩ := Option.isSome_iff_exists.mp (hasCycles_eq_false_iff.mp hcycles)
      have hempty : ∀ x, x ∈ ([] : List String) ↔ x ∈ ([] : List String) ∨ x ∈ ([] : List String) :=
        by simp
      obtain ⟨visited, hvisits, _⟩ := visits_of_foldlM visit_of_explore hempty hdone
      rw [hvisits, hdone]
      rfl

theorem getTopologicalOrder_eq_none_iff :
    workflow.getTopologicalOrder = none ↔ workflow.hasCycles = true := by
  unfold getTopologicalOrder
  cases workflow.hasCycles <;> simp

theorem finished_explored {done : List String} (h : workflow.finished = some done) :
    Explored workflow.getNextActions [] [] done workflow.getEntryPoints :=
  explored_all .nil h

theorem not_cycle_of_reached (h : workflow.hasCycles = false) (ha : workflow.ReachedFromEntry a) :
    ¬ Relation.TransGen workflow.Connected a a := by
  obtain ⟨done, hdone⟩ := Option.isSome_iff_exists.mp (hasCycles_eq_false_iff.mp h)
  have explored := finished_explored hdone
  obtain ⟨e, he, hreach⟩ := ha
  rw [← step_getNextActions] at hreach ⊢
  exact explored.ordered.not_onCycle
    (explored.ordered.closed_reaches (explored.covers e he) hreach)

theorem cycle_of_hasCycles (h : workflow.hasCycles = true) :
    ∃ a, workflow.ReachedFromEntry a ∧ Relation.TransGen workflow.Connected a a := by
  have hnone : workflow.finished = none := by
    by_contra hsome
    have := hasCycles_eq_false_iff.mpr (Option.isSome_iff_ne_none.mpr hsome)
    simp [h] at this
  obtain ⟨e, he, mid, hexplore⟩ := foldlM_eq_none hnone
  have hnodes : ∀ a ∈ workflow.mentionedIds, ∀ b ∈ workflow.getNextActions a,
      b ∈ workflow.mentionedIds :=
    fun a _ b hb => (mentioned_of_connected (mem_getNextActions.mp hb)).2
  obtain ⟨c, hc, hcycle⟩ := onCycle_of_explore hnodes List.nodup_nil (List.nil_subset _)
    (mentioned_of_entry he) (by simp) (by simp [searchDepth]) hexplore
  rw [OnCycle, step_getNextActions] at hcycle
  rw [Reaches, step_getNextActions] at hc
  exact ⟨c, ⟨e, he, hc⟩, hcycle⟩

theorem mem_topologicalOrder {order : List String}
    (h : workflow.getTopologicalOrder = some order) (a : String) :
    a ∈ order ↔ workflow.ReachedFromEntry a := by
  rw [getTopologicalOrder_eq] at h
  have explored := finished_explored h
  constructor
  · intro ha
    rcases explored.reached a ha with hnil | ⟨e, he, hreach⟩
    · cases hnil
    · rw [Reaches, step_getNextActions] at hreach
      exact ⟨e, he, hreach⟩
  · rintro ⟨e, he, hreach⟩
    rw [← step_getNextActions] at hreach
    exact explored.ordered.closed_reaches (explored.covers e he) hreach

theorem topologicalOrder_ordered {order : List String}
    (h : workflow.getTopologicalOrder = some order) :
    Ordered workflow.getNextActions order := by
  rw [getTopologicalOrder_eq] at h
  exact (finished_explored h).ordered

/-- The topological order lists what the entry points lead to, each action once and before
every action it connects to; there is none exactly if the entry points lead to a cycle. -/
theorem getTopologicalOrder_spec (workflow : Workflow) :
    (∀ order, workflow.getTopologicalOrder = some order →
      order.Nodup ∧ (∀ a, a ∈ order ↔ workflow.ReachedFromEntry a) ∧
        ∀ u v, workflow.Connected u v → u ∈ order →
          v ∈ order ∧ order.idxOf u < order.idxOf v) ∧
    (workflow.getTopologicalOrder = none ↔
      ∃ a, workflow.ReachedFromEntry a ∧ Relation.TransGen workflow.Connected a a) := by
  refine ⟨fun order horder => ?_, ?_⟩
  · have hordered := topologicalOrder_ordered horder
    refine ⟨hordered.nodup, mem_topologicalOrder horder, fun u v huv hu => ?_⟩
    have hstep : DepthFirst.Step workflow.getNextActions u v := mem_getNextActions.mpr huv
    exact ⟨hordered.closed hu hstep, hordered.idxOf_lt hu hstep⟩
  · rw [getTopologicalOrder_eq_none_iff]
    constructor
    · exact cycle_of_hasCycles
    · rintro ⟨a, hreached, hcycle⟩
      by_contra hnone
      exact not_cycle_of_reached (Bool.not_eq_true _ ▸ hnone) hreached hcycle

end Qontinui.Workflow
