import Qontinui.Workflow.WorkflowUtils

/-!
Legacy processes as workflows and back: a process becomes a chain of
connections, and the chain is followed to find the order of the actions again.
-/

namespace Qontinui

structure LegacyAction where
  id : String
  type : String
  config : JsValue
  deriving DecidableEq

structure LegacyProcess where
  id : String
  name : String
  description : Option String
  category : Option String := none
  actions : List LegacyAction
  initialScreenshotId : Option String := none
  initialStateIds : Option (List String) := none
  deriving DecidableEq

namespace Workflow

/-- One connection from each id to the one behind it. -/
def chain : Connections → List String → Connections
  | connections, id :: nextId :: rest =>
      chain (connections.set id (.leadsTo nextId)) (nextId :: rest)
  | connections, _ => connections

def placeAction (index : Nat) (oldAction : LegacyAction) : Action where
  id := oldAction.id
  type := .ofName oldAction.type
  config := oldAction.config
  position := some (.arr [.num 100, .num (100 + index * 150)])

/-- `now` is the time of creation. -/
def processToWorkflow (now : String) (process : LegacyProcess) : Workflow where
  id := process.id
  name := process.name
  version := "1.0.0"
  format := "graph"
  category := process.category
  description := some (process.description.getD "")
  actions := process.actions.mapIdx placeAction
  connections := chain .empty (process.actions.map LegacyAction.id)
  initialScreenshotId := process.initialScreenshotId
  initialStateIds := process.initialStateIds
  metadata := some (.obj [("viewMode", .str "sequential"), ("created", .str now)])

/-- `outputs.main[0]`. -/
def firstOutput (outputs : Outputs) : Option (List Connection) :=
  outputs.main.bind fun main => main[0]?

/-- No error or success connection, and at most one connection of the main type. -/
def linearOutputs (outputs : Outputs) : Bool :=
  (outputs.error.getD []).length = 0 && (outputs.success.getD []).length = 0 &&
    (outputs.main.getD []).length ≤ 1 && ((firstOutput outputs).getD []).length ≤ 1

def isLinearWorkflow (workflow : Workflow) : Bool :=
  workflow.connections.values.all linearOutputs

/-- The target of the first connection of the first main output. -/
def nextInChain (connections : Connections) (actionId : String) : Option String :=
  (connections.get? actionId).bind fun outputs =>
    (firstOutput outputs).bind fun nextConnections =>
      nextConnections.head?.map Connection.action

/-- Follow the chain until it ends or comes to an action again. -/
def followChain (workflow : Workflow) : Nat → List String → Option Action → List Action
  | 0, _, _ => []
  | _ + 1, _, none => []
  | fuel + 1, visited, some current =>
      if current.id ∈ visited then []
      else
        current :: followChain workflow fuel (current.id :: visited)
          ((nextInChain workflow.connections current.id).bind workflow.getActionById)

def getLinearActionOrder (workflow : Workflow) : List Action :=
  if workflow.isLinearWorkflow = false then []
  else if workflow.actions.length ≤ 1 then workflow.actions
  else
    let incoming := workflow.connections.values.flatMap fun outputs =>
      ((firstOutput outputs).getD []).map Connection.action
    match workflow.actions.filter (·.id ∉ incoming) with
    | [] => workflow.actions
    | entry :: _ => workflow.followChain (workflow.actions.length + 1) [] (some entry)

/-- `none` for a workflow with branches. -/
def workflowToProcess (workflow : Workflow) : Option LegacyProcess :=
  if workflow.isLinearWorkflow = false then none
  else
    some { id := workflow.id
           name := workflow.name
           description := some (workflow.description.getD "")
           category := workflow.category
           actions := workflow.getLinearActionOrder.map fun action =>
             { id := action.id, type := action.type.name, config := action.config }
           initialScreenshotId := workflow.initialScreenshotId
           initialStateIds := workflow.initialStateIds }

/-! ### The connections of a chain -/

/-- `next` leads along the list and out of nothing else of it. -/
def Chained (next : String → Option String) : List String → Prop
  | [] => True
  | [id] => next id = none
  | id :: nextId :: rest => next id = some nextId ∧ Chained next (nextId :: rest)

variable {ids : List String}

variable (connections : Connections)

theorem chain_get?_of_not_mem {key : String} (h : key ∉ ids) :
    (chain connections ids).get? key = connections.get? key := by
  induction connections, ids using chain.induct with
  | case1 connections id nextId rest ih =>
      rw [chain, ih (fun hmem => h (List.mem_cons_of_mem _ hmem))]
      exact connections.get?_set_ne (fun heq => h (by simp [heq])) _
  | case2 ids connections hshape =>
      rw [chain]
      exact hshape

theorem chain_values (ids : List String) {outputs : Outputs}
    (h : outputs ∈ (chain connections ids).values) :
    outputs ∈ connections.values ∨ ∃ target ∈ ids.tail, outputs = .leadsTo target := by
  induction connections, ids using chain.induct with
  | case1 connections id nextId rest ih =>
      rw [chain] at h
      rcases ih h with hset | ⟨target, htarget, rfl⟩
      · obtain ⟨key, hkey⟩ := ObjectMap.mem_values_iff.mp hset
        by_cases hk : key = id
        · subst hk
          rw [ObjectMap.get?_set_self] at hkey
          cases hkey
          exact .inr ⟨nextId, by simp, rfl⟩
        · rw [ObjectMap.get?_set_ne _ hk] at hkey
          exact .inl (ObjectMap.mem_values_iff.mpr ⟨key, hkey⟩)
      · exact .inr ⟨target, List.mem_of_mem_tail htarget, rfl⟩
  | case2 ids connections hshape =>
      rw [chain] at h
      · exact .inl h
      · exact hshape

theorem chain_chained (hnodup : ids.Nodup) (hfresh : ∀ id ∈ ids, connections.get? id = none) :
    Chained (nextInChain (chain connections ids)) ids := by
  induction connections, ids using chain.induct with
  | case1 connections id nextId rest ih =>
      obtain ⟨hid, hrest⟩ := List.nodup_cons.mp hnodup
      refine ⟨?_, ?_⟩
      · rw [nextInChain, chain, chain_get?_of_not_mem _ hid, ObjectMap.get?_set_self]
        rfl
      · rw [chain]
        refine ih hrest fun other hother => ?_
        rw [ObjectMap.get?_set_ne _ (ne_of_mem_of_not_mem hother hid)]
        exact hfresh other (List.mem_cons_of_mem _ hother)
  | case2 ids connections hshape =>
      match ids, hshape with
      | [], _ => trivial
      | [id], _ =>
          have hnone : connections.get? id = none := hfresh id (by simp)
          simp [Chained, chain, nextInChain, hnone]
      | id :: nextId :: rest, hshape => exact absurd rfl (hshape id nextId rest)

theorem chain_targets (hnodup : ids.Nodup) (hfresh : ∀ id ∈ ids, connections.get? id = none) :
    Connections.targets (chain connections ids) = connections.targets ++ ids.tail := by
  induction connections, ids using chain.induct with
  | case1 connections id nextId rest ih =>
      obtain ⟨hid, hrest⟩ := List.nodup_cons.mp hnodup
      have hset : Connections.targets (connections.set id (.leadsTo nextId)) =
          connections.targets ++ [nextId] := by
        have hentries : (connections.set id (Outputs.leadsTo nextId)).entries =
            connections.entries ++ [(id, Outputs.leadsTo nextId)] :=
          Fields.set_of_absent (hfresh id (by simp))
        simp only [Connections.targets, ObjectMap.values, hentries, List.map_append,
          List.flatMap_append]
        rfl
      rw [chain, ih hrest ?_, hset]
      · simp
      · intro other hother
        rw [ObjectMap.get?_set_ne _ (ne_of_mem_of_not_mem hother hid)]
        exact hfresh other (List.mem_cons_of_mem _ hother)
  | case2 ids connections hshape =>
      rcases ids with _ | ⟨id, _ | ⟨nextId, rest⟩⟩
      · simp [chain]
      · simp [chain]
      · exact absurd rfl (hshape id nextId rest)

theorem leads_of_nextInChain {connections : Connections} {a b : String}
    (h : nextInChain connections a = some b) : connections.Leads a b := by
  obtain ⟨outputs, houtputs, hfirst⟩ := Option.bind_eq_some_iff.mp h
  obtain ⟨output, houtput, htarget⟩ := Option.bind_eq_some_iff.mp hfirst
  obtain ⟨main, hmain, hget⟩ := Option.bind_eq_some_iff.mp houtput
  obtain ⟨conn, hconn, rfl⟩ := Option.map_eq_some_iff.mp htarget
  refine ⟨outputs, houtputs, List.mem_map_of_mem (Outputs.mem_connections_iff.mpr ⟨.main, ?_⟩)⟩
  have hflat : conn ∈ main.flatten :=
    List.mem_flatten.mpr ⟨output, List.mem_of_getElem? hget, List.mem_of_head? hconn⟩
  simpa [Outputs.ofType, Outputs.get, hmain] using hflat

theorem Chained.isChain {next : String → Option String} (h : Chained next ids) :
    ids.IsChain fun a b => next a = some b := by
  induction ids with
  | nil => exact .nil
  | cons id rest ih =>
      cases rest with
      | nil => exact .singleton _
      | cons nextId rest => exact List.isChain_cons_cons.mpr ⟨h.1, ih h.2⟩

/-- Following a chain from its first action finds all of its actions. -/
theorem followChain_chained {workflow : Workflow} {actions : List Action} {fuel : Nat}
    {visited : List String} (hfuel : actions.length ≤ fuel)
    (hfound : ∀ action ∈ actions, workflow.getActionById action.id = some action)
    (hchained : Chained (nextInChain workflow.connections) (actions.map Action.id))
    (hnodup : (actions.map Action.id).Nodup)
    (hvisited : ∀ action ∈ actions, action.id ∉ visited) :
    workflow.followChain (fuel + 1) visited actions.head? = actions := by
  induction actions generalizing fuel visited with
  | nil => rfl
  | cons current rest ih =>
      have hfresh : current.id ∉ visited := hvisited current (by simp)
      obtain ⟨hcurrent, hrest⟩ := List.nodup_cons.mp hnodup
      rw [List.head?_cons, followChain, if_neg hfresh]
      obtain ⟨fuel, rfl⟩ : ∃ n, fuel = n + 1 := ⟨fuel - 1, by simp at hfuel; omega⟩
      cases rest with
      | nil =>
          have hend : nextInChain workflow.connections current.id = none := hchained
          rw [hend]
          rfl
      | cons next rest =>
          obtain ⟨hnext, htail⟩ := hchained
          have hstep : (nextInChain workflow.connections current.id).bind workflow.getActionById =
              (next :: rest).head? := by
            rw [hnext]
            exact hfound next (by simp)
          rw [hstep, ih (by simpa using hfuel) ?_ htail hrest ?_]
          · exact fun action haction => hfound action (List.mem_cons_of_mem _ haction)
          · intro action haction hmem
            rcases List.mem_cons.mp hmem with heq | hmem
            · exact hcurrent (heq ▸ List.mem_map_of_mem haction)
            · exact hvisited action (List.mem_cons_of_mem _ haction) hmem

section RoundTrip

variable {now : String} {process : LegacyProcess}

theorem processToWorkflow_actionIds :
    (processToWorkflow now process).actionIds = process.actions.map LegacyAction.id := by
  refine List.ext_getElem? fun index => ?_
  cases h : process.actions[index]? <;> simp [actionIds, processToWorkflow, placeAction, h]

theorem processToWorkflow_values {outputs : Outputs}
    (h : outputs ∈ (processToWorkflow now process).connections.values) :
    ∃ target ∈ (process.actions.map LegacyAction.id).tail, outputs = .leadsTo target := by
  rcases chain_values .empty _ h with hempty | hchain
  · cases hempty
  · exact hchain

theorem processToWorkflow_isLinear : (processToWorkflow now process).isLinearWorkflow = true := by
  refine List.all_eq_true.mpr fun outputs houtputs => ?_
  obtain ⟨target, _, rfl⟩ := processToWorkflow_values houtputs
  rfl

/-- The order found in a process' workflow is that of the process. -/
theorem getLinearActionOrder_processToWorkflow
    (hnodup : (process.actions.map LegacyAction.id).Nodup) :
    (processToWorkflow now process).getLinearActionOrder =
      (processToWorkflow now process).actions := by
  have hids : ((processToWorkflow now process).actions.map Action.id) =
      process.actions.map LegacyAction.id := processToWorkflow_actionIds
  have hchained := chain_chained .empty hnodup fun _ _ => rfl
  have hvalues : ∀ outputs ∈ (processToWorkflow now process).connections.values,
      ∃ target ∈ (process.actions.map LegacyAction.id).tail, outputs = .leadsTo target :=
    fun outputs => processToWorkflow_values
  have hfound : ∀ action ∈ (processToWorkflow now process).actions,
      (processToWorkflow now process).getActionById action.id = some action :=
    fun action => getActionById_of_mem (by rw [processToWorkflow_actionIds]; exact hnodup)
  unfold getLinearActionOrder
  rw [if_neg (by simp [processToWorkflow_isLinear])]
  split
  · rfl
  cases hactions : (processToWorkflow now process).actions with
  | nil => rfl
  | cons first rest =>
      rw [hactions, List.map_cons] at hids
      rw [← hids] at hnodup hvalues
      have hfirst : first.id ∉ (processToWorkflow now process).connections.values.flatMap
          fun outputs => ((firstOutput outputs).getD []).map Connection.action := by
        intro hmem
        obtain ⟨outputs, houtputs, htarget⟩ := List.mem_flatMap.mp hmem
        obtain ⟨target, htail, rfl⟩ := hvalues outputs houtputs
        cases List.mem_singleton.mp htarget
        exact (List.nodup_cons.mp hnodup).1 htail
      simp only
      rw [List.filter_cons_of_pos (by simpa only [decide_eq_true_eq] using hfirst)]
      have hchainedIds : Chained (nextInChain (processToWorkflow now process).connections)
          ((first :: rest).map Action.id) := by
        rw [List.map_cons, hids]
        exact hchained
      exact followChain_chained (Nat.le_refl (first :: rest).length) (hactions ▸ hfound)
        hchainedIds hnodup (by simp)

/-- A process comes back from its workflow as it was, with an absent description as the
empty one. -/
theorem process_round_trip (now : String) (process : LegacyProcess)
    (hnodup : (process.actions.map LegacyAction.id).Nodup) :
    workflowToProcess (processToWorkflow now process) =
      some { process with description := some (process.description.getD "") } := by
  rw [workflowToProcess, if_neg (by simp [processToWorkflow_isLinear]),
    getLinearActionOrder_processToWorkflow hnodup]
  have hactions : (processToWorkflow now process).actions.map (fun action =>
      ({ id := action.id, type := action.type.name, config := action.config } : LegacyAction)) =
      process.actions := by
    refine List.ext_getElem? fun index => ?_
    cases h : process.actions[index]? <;> simp [processToWorkflow, placeAction, h]
  rw [hactions]
  rfl

end RoundTrip

def signIn : LegacyProcess where
  id := "p1"
  name := "Sign in"
  description := none
  category := some "Main"
  actions := [⟨"click", "CLICK", some (.obj [])⟩, ⟨"type", "TYPE", some (.obj [])⟩,
    ⟨"check", "IF", some (.obj [])⟩]
  initialStateIds := some ["start"]

theorem process_round_trip_signIn :
    workflowToProcess (processToWorkflow "2025-01-01T00:00:00.000Z" signIn) =
      some { signIn with description := some "" } :=
  process_round_trip _ signIn (by decide)

end Workflow

end Qontinui
