import Qontinui.Base.BreadthFirst
import Qontinui.Workflow.ActionDepths

/-!
The layers of the layered workflow layout. One pass over a queue from the entry points
gives an action its layer at the first visit, and what follows it is queued only then: a
longer path that comes later raises the layer of the action, but of nothing behind it.
-/

namespace Qontinui.WorkflowLayout

open BreadthFirst Paths Worklist

/-- An action in the queue, with the layer it is offered. -/
structure QueuedLayer where
  actionId : String
  layer : Nat
  deriving DecidableEq

structure LayerSearch where
  layers : ObjectMap Nat := .empty
  visited : List String := []
  deriving DecidableEq

def findEntryPoints (workflow : Workflow) : List String :=
  (workflow.actions.filter fun action => action.id ∉ workflow.connections.targets).map Action.id

/-- The targets of all connections from an action, as often as they occur. -/
def getNextActions (workflow : Workflow) (actionId : String) : List String :=
  match workflow.connections.get? actionId with
  | none => []
  | some connections => connections.targets

def visitQueued (workflow : Workflow) (search : LayerSearch) (queued : QueuedLayer) :
    LayerSearch × List QueuedLayer :=
  if queued.actionId ∈ search.visited then
    let deeper :=
      match search.layers.get? queued.actionId with
      | none => true
      | some currentLayer => currentLayer < queued.layer
    (if deeper then
      { search with layers := search.layers.set queued.actionId queued.layer }
    else search, [])
  else
    ({ layers := search.layers.set queued.actionId queued.layer
       visited := queued.actionId :: search.visited },
      (getNextActions workflow queued.actionId).map fun nextId =>
        { actionId := nextId, layer := queued.layer + 1 })

def assignLayers (workflow : Workflow) (fuel : Nat) : Option (ObjectMap Nat) :=
  if findEntryPoints workflow = [] then
    some (workflow.actions.foldl (fun layers action => layers.set action.id 0) .empty)
  else
    (drain (visitQueued workflow) fuel {}
      ((findEntryPoints workflow).map fun id => { actionId := id, layer := 0 })).map fun search =>
        workflow.actions.foldl (fun layers action =>
          if (layers.get? action.id).isNone then layers.set action.id 0 else layers) search.layers

/-- Every action has a layer, and connections lead to greater ones. -/
def FlowsForward (workflow : Workflow) (layers : ObjectMap Nat) : Prop :=
  (∀ id ∈ workflow.actionIds, ∃ layer, layers.get? id = some layer) ∧
    ∀ u v, workflow.Connected u v → ∃ source target,
      layers.get? u = some source ∧ layers.get? v = some target ∧ source < target

/-- A longest path to the target of a connection comes from an action that no shorter path
leads to. -/
def LongestSeenFirst (workflow : Workflow) : Prop :=
  ∀ u v, workflow.Connected u v →
    (u ∈ workflow.actionIds ∨ workflow.ReachedFromEntry u) ∧
      ∃ k, IsGreatest (workflow.entryDistances v) (k + 1) ∧
        ∃ w, workflow.Connected w v ∧ IsLeast (workflow.entryDistances w) k

variable {workflow : Workflow}

/-! ### The search against the library's -/

theorem mem_findEntryPoints {id : String} :
    id ∈ findEntryPoints workflow ↔ id ∈ workflow.getEntryPoints := by
  rw [Workflow.mem_getEntryPoints, findEntryPoints, Workflow.actionIds]
  simp only [List.mem_map, List.mem_filter, decide_eq_true_eq]
  constructor
  · rintro ⟨action, ⟨haction, hnot⟩, rfl⟩
    exact ⟨⟨action, haction, rfl⟩, hnot⟩
  · rintro ⟨⟨action, haction, rfl⟩, hnot⟩
    exact ⟨action, ⟨haction, hnot⟩, rfl⟩

theorem mem_getNextActions {a b : String} :
    b ∈ getNextActions workflow a ↔ workflow.Connected a b := by
  unfold getNextActions Workflow.Connected Connections.Leads
  cases workflow.connections.get? a <;> simp

theorem distances_eq (id : String) :
    distances (getNextActions workflow) {e | e ∈ findEntryPoints workflow} id =
      workflow.entryDistances id := by
  have hedge : Edge (getNextActions workflow) = workflow.Connected := by
    funext a b
    exact propext mem_getNextActions
  have hstarts : {e | e ∈ findEntryPoints workflow} = {e | e ∈ workflow.getEntryPoints} :=
    Set.ext fun _ => mem_findEntryPoints
  rw [distances, hedge, hstarts]
  rfl

def QueuedLayer.entry (queued : QueuedLayer) : String × Nat := (queued.actionId, queued.layer)

def VisitedPlaced (search : LayerSearch) : Prop :=
  ∀ id, id ∈ search.visited ↔ (search.layers.get? id).isSome

theorem visitQueued_image (search : LayerSearch) (queued : QueuedLayer)
    (h : VisitedPlaced search) :
    VisitedPlaced (visitQueued workflow search queued).1 ∧
      BreadthFirst.visit (getNextActions workflow) search.layers.get? queued.entry =
        ((visitQueued workflow search queued).1.layers.get?,
          (visitQueued workflow search queued).2.map QueuedLayer.entry) := by
  have hplaced : ∀ id, ((search.layers.set queued.actionId queued.layer).get? id).isSome ↔
      id = queued.actionId ∨ (search.layers.get? id).isSome := by
    intro id
    by_cases hid : id = queued.actionId
    · simp [hid]
    · simp [hid, ObjectMap.get?_set_ne _ hid]
  unfold visitQueued BreadthFirst.visit
  cases hcurrent : search.layers.get? queued.actionId with
  | none =>
      have hnot : queued.actionId ∉ search.visited := by simp [h queued.actionId, hcurrent]
      rw [if_neg hnot]
      refine ⟨fun id => ?_, ?_⟩
      · rw [hplaced, List.mem_cons, h id]
      · simp [QueuedLayer.entry, hcurrent, ObjectMap.update_get?, Function.comp_def]
  | some current =>
      have hmem : queued.actionId ∈ search.visited := by simp [h queued.actionId, hcurrent]
      rw [if_pos hmem]
      by_cases hless : current < queued.layer
      · refine ⟨fun id => ?_, ?_⟩
        · simp only [hless, decide_true, if_true]
          rw [hplaced, ← h id]
          exact ⟨.inr, fun hid => hid.elim (fun heq => heq ▸ hmem) fun hvisited => hvisited⟩
        · simp [QueuedLayer.entry, hcurrent, hless, ObjectMap.update_get?]
      · refine ⟨fun id => ?_, ?_⟩
        · simpa [hless] using h id
        · simp [QueuedLayer.entry, hcurrent, hless]

theorem layering_entryPoints (workflow : Workflow) :
    Layering (getNextActions workflow) {e | e ∈ findEntryPoints workflow}
      ({} : LayerSearch).layers.get?
      (((findEntryPoints workflow).map fun id => { actionId := id, layer := 0 }).map
        QueuedLayer.entry) := by
  have hqueue : ∀ entry ∈ ((findEntryPoints workflow).map fun id =>
      ({ actionId := id, layer := 0 } : QueuedLayer)).map QueuedLayer.entry,
      entry.1 ∈ findEntryPoints workflow ∧ entry.2 = 0 := by
    rintro ⟨id, layer⟩ hentry
    simpa [QueuedLayer.entry, eq_comm] using hentry
  refine ⟨?_, fun id hid => .inl ?_, fun entry hentry => .inl ?_, by simp, by simp⟩
  · refine List.Pairwise.imp_of_mem (fun hx hy _ => ?_)
      (List.pairwise_of_forall fun _ _ => trivial)
    rw [(hqueue _ hx).2, (hqueue _ hy).2]
    exact ⟨le_rfl, Nat.le_succ 0⟩
  · simpa [QueuedLayer.entry] using hid
  · exact ⟨(hqueue entry hentry).2, (hqueue entry hentry).1⟩

theorem exists_search (workflow : Workflow) :
    ∃ (enough : Nat) (search : LayerSearch),
      (∀ fuel, enough ≤ fuel →
        drain (visitQueued workflow) fuel {}
          ((findEntryPoints workflow).map fun id => { actionId := id, layer := 0 }) =
            some search) ∧
      Layering (getNextActions workflow) {e | e ∈ findEntryPoints workflow} search.layers.get?
        [] := by
  have hnodes : ∀ a, ∀ b ∈ getNextActions workflow a, b ∈ workflow.mentionedIds := fun a b hb =>
    (Workflow.mentioned_of_connected (mem_getNextActions.mp hb)).2
  obtain ⟨enough, table, htable, hended⟩ := exists_layering hnodes (layering_entryPoints workflow)
    (by
      intro entry hentry
      simp only [List.map_map, List.mem_map, Function.comp_def, QueuedLayer.entry] at hentry
      obtain ⟨id, hid, rfl⟩ := hentry
      exact Workflow.mentioned_of_entry (mem_findEntryPoints.mp hid))
  rw [drain_map (fun search : LayerSearch => search.layers.get?) QueuedLayer.entry VisitedPlaced
    visitQueued_image enough (by simp [VisitedPlaced]), Option.map_eq_some_iff] at htable
  obtain ⟨search, hsearch, rfl⟩ := htable
  exact ⟨enough, search, fun fuel hle => drain_mono hsearch hle, hended⟩

/-! ### The layers assigned -/

theorem get?_foldl_orphans (actions : List Action) (layers : ObjectMap Nat) (id : String) :
    (actions.foldl (fun layers action =>
      if (layers.get? action.id).isNone then layers.set action.id 0 else layers) layers).get? id =
      (layers.get? id).or (if id ∈ actions.map Action.id then some 0 else none) := by
  induction actions generalizing layers with
  | nil => simp
  | cons action rest ih =>
      rw [List.foldl_cons, ih]
      by_cases hid : id = action.id
      · subst hid
        cases hget : layers.get? action.id <;> simp [hget]
      · have hset : (if (layers.get? action.id).isNone then layers.set action.id 0
            else layers).get? id = layers.get? id := by
          split
          · exact ObjectMap.get?_set_ne _ hid _
          · rfl
        rw [hset]
        simp [hid]

/-- The layers of a search, with layer 0 for the actions that it does not come to. -/
structure Assigned (workflow : Workflow) (layers : ObjectMap Nat) (table : String → Option Nat) :
    Prop where
  layering : Layering (getNextActions workflow) {e | e ∈ findEntryPoints workflow} table []
  layers : ∀ id, layers.get? id =
    (table id).or (if id ∈ workflow.actionIds then some 0 else none)

theorem exists_assigned (workflow : Workflow) :
    ∃ layers table, (∃ enough, ∀ fuel, enough ≤ fuel → assignLayers workflow fuel = some layers) ∧
      Assigned workflow layers table := by
  obtain ⟨enough, search, hsearch, hended⟩ := exists_search workflow
  by_cases hnone : findEntryPoints workflow = []
  · have hempty : {} = search := by simpa [hnone] using hsearch enough le_rfl
    subst hempty
    refine ⟨_, _, ⟨0, fun fuel _ => if_pos hnone⟩, hended, fun id => ?_⟩
    rw [ObjectMap.get?_foldl_set_const]
    rfl
  · refine ⟨_, _, ⟨enough, fun fuel hle => ?_⟩, hended, fun id => get?_foldl_orphans _ _ id⟩
    rw [assignLayers, if_neg hnone, hsearch fuel hle, Option.map_some]

section Assigned

variable {layers : ObjectMap Nat} {table : String → Option Nat}

section

variable (h : Assigned workflow layers table)
include h

theorem Assigned.mem_entryDistances {id : String} {layer : Nat} (hlayer : table id = some layer) :
    layer ∈ workflow.entryDistances id := by
  rw [← distances_eq]
  exact (h.layering.placed id layer hlayer).mem_distances

theorem Assigned.get?_of_table {id : String} {layer : Nat} (hlayer : table id = some layer) :
    layers.get? id = some layer := by
  rw [h.layers, hlayer, Option.some_or]

theorem Assigned.beyond {u v : String} {least : Nat} (huv : workflow.Connected u v)
    (hleast : IsLeast (workflow.entryDistances u) least) :
    ∃ layer, table v = some layer ∧ least + 1 ≤ layer := by
  rw [← distances_eq] at hleast
  obtain ⟨-, other, hother, hoffered⟩ := h.layering.outcome hleast.1
  rw [hleast.unique hother]
  exact hoffered v (mem_getNextActions.mpr huv)

theorem Assigned.longestSeenFirst (hforward : FlowsForward workflow layers) :
    LongestSeenFirst workflow := by
  obtain ⟨-, hconnections⟩ := hforward
  intro u v huv
  obtain ⟨source, target, hsource, htarget, hless⟩ := hconnections u v huv
  constructor
  · rw [h.layers] at hsource
    cases hu : table u with
    | some layer =>
        exact .inr (Workflow.reachedFromEntry_iff.mpr ⟨layer, h.mem_entryDistances hu⟩)
    | none =>
        rw [hu, Option.none_or] at hsource
        split at hsource
        · next hid => exact .inl hid
        · cases hsource
  · have htable : table v = some target := by
      rw [h.layers] at htarget
      cases hv : table v with
      | some layer => simpa [hv] using htarget
      | none =>
          rw [hv, Option.none_or] at htarget
          split at htarget
          · cases htarget
            exact absurd hless (Nat.not_lt_zero source)
          · cases htarget
    rcases h.layering.placed v target htable with ⟨rfl, -⟩ | ⟨w, k, hwv, hleast, rfl⟩
    · exact absurd hless (Nat.not_lt_zero source)
    · rw [distances_eq] at hleast
      refine ⟨k, ⟨h.mem_entryDistances htable, fun n hn => ?_⟩, w, mem_getNextActions.mp hwv,
        hleast⟩
      -- every connection raises the layer, so no path is longer than that of its end
      have hbound : ∀ a b, workflow.Connected a b →
          (layers.get? a).getD 0 + 1 ≤ (layers.get? b).getD 0 := by
        intro a b hab
        obtain ⟨first, second, hfirst, hsecond, hlt⟩ := hconnections a b hab
        rw [hfirst, hsecond]
        exact hlt
      have hle := PathTo.le_of_edges hbound hn
      rwa [htarget] at hle

theorem Assigned.flowsForward (hlongest : LongestSeenFirst workflow) :
    FlowsForward workflow layers := by
  constructor
  · intro id hid
    cases hlayer : table id with
    | some layer => exact ⟨layer, h.get?_of_table hlayer⟩
    | none => exact ⟨0, by rw [h.layers, hlayer, if_pos hid, Option.none_or]⟩
  · intro u v huv
    obtain ⟨hu, k, hgreatest, w, hwv, hleast⟩ := hlongest u v huv
    obtain ⟨target, htarget, hbeyond⟩ := h.beyond hwv hleast
    cases hsource : table u with
    | some source =>
        refine ⟨source, target, h.get?_of_table hsource, h.get?_of_table htarget, ?_⟩
        have hle : source + 1 ≤ k + 1 := hgreatest.2 ((h.mem_entryDistances hsource).snoc huv)
        omega
    | none =>
        have hid : u ∈ workflow.actionIds := by
          refine hu.resolve_right fun hreached => ?_
          obtain ⟨n, hn⟩ := Workflow.reachedFromEntry_iff.mp hreached
          rw [← distances_eq] at hn
          simpa [hsource] using (h.layering.outcome hn).1
        refine ⟨0, target, ?_, h.get?_of_table htarget, by omega⟩
        rw [h.layers, hsource, if_pos hid, Option.none_or]

end

end Assigned

/-- The layout flows forward exactly where a longest path to the target of each connection
comes from an action that no shorter path leads to. -/
theorem assignLayers_forward_iff (workflow : Workflow) :
    ∃ layers, (∃ enough, ∀ fuel, enough ≤ fuel → assignLayers workflow fuel = some layers) ∧
      (FlowsForward workflow layers ↔ LongestSeenFirst workflow) := by
  obtain ⟨layers, table, hlayers, hassigned⟩ := exists_assigned workflow
  exact ⟨layers, hlayers, hassigned.longestSeenFirst, hassigned.flowsForward⟩

/-- Two ways to `ccc`, of which the shorter one is seen first, and one on to `dddd`. -/
def shortcut : Workflow where
  id := "w"
  name := "shortcut"
  version := "1.0.0"
  format := "graph"
  actions := ["a", "bb", "ccc", "dddd"].map fun id =>
    { id, type := .other "CLICK" ActionType.click_plain, config := some (.obj []) }
  connections := ⟨[("a", { main := some [[⟨"bb", "main", 0, []⟩, ⟨"ccc", "main", 0, []⟩]] }),
    ("bb", .leadsTo "ccc"), ("ccc", .leadsTo "dddd")], by decide⟩

theorem shortcut_acyclic : shortcut.Acyclic := by
  have hlonger : ∀ u v, shortcut.Connected u v → u.length < v.length := by
    intro u v huv
    have hall : ∀ a ∈ shortcut.connections.keys, ∀ b ∈ getNextActions shortcut a,
        a.length < b.length := by decide
    exact hall u (Workflow.mem_keys_of_connected huv) v (mem_getNextActions.mpr huv)
  intro a hcycle
  have hless : ∀ b, Relation.TransGen shortcut.Connected a b → a.length < b.length := by
    intro b hpath
    induction hpath with
    | single hstep => exact hlonger _ _ hstep
    | tail _ hstep ih => exact ih.trans (hlonger _ _ hstep)
  exact absurd (hless a hcycle) (Nat.lt_irrefl _)

/-- `ccc` is raised to the layer of `dddd`. -/
theorem assignLayers_shortcut :
    shortcut.Acyclic ∧ ∃ fuel layers, assignLayers shortcut fuel = some layers ∧
      ¬ FlowsForward shortcut layers := by
  have hlayers : assignLayers shortcut 10 =
      some ⟨[("a", 0), ("bb", 1), ("ccc", 2), ("dddd", 2)], by decide⟩ := by decide
  refine ⟨shortcut_acyclic, 10, _, hlayers, fun hforward => ?_⟩
  obtain ⟨source, target, hsource, htarget, hless⟩ :=
    hforward.2 "ccc" "dddd" ⟨.leadsTo "dddd", rfl, by decide⟩
  cases hsource
  cases htarget
  exact absurd hless (Nat.lt_irrefl 2)

end Qontinui.WorkflowLayout
