import Qontinui.Workflow.SequentialToGraph

/-!
What the connections of a converted list lead to. A control flow action is only
connected to the first action of each of its branches, so an action comes out
connected exactly if it stands behind a plain action or first in a branch; and the
branches keep naming the old ids where the ids are generated anew.
-/

namespace Qontinui.SequentialToGraph

open Workflow

/-! ### The connections of the nodes -/

def branchesOf (action : Action) : List (List String) :=
  let ids (field : String) := (idsAt action.config field).getD []
  match action.type with
  | .IF => [ids "thenActions", ids "elseActions"]
  | .LOOP => [ids "actions"]
  | .SWITCH => (casesOf action.config).getD [] ++ [ids "defaultActions"]
  | .TRY_CATCH => [ids "tryActions", ids "catchActions"]
  | _ => []

def BranchesTo (action : Action) (target : String) : Prop :=
  ∃ branch ∈ branchesOf action, branch.head? = some target

/-- A step that leaves the nodes and adds connections from one id. -/
structure Connects (converter converter' : Converter) (actionId : String)
    (targets : String → Prop) : Prop where
  nodes : converter'.actionNodes = converter.actionNodes
  leads : ∀ a b, converter'.connections.Leads a b ↔
    converter.connections.Leads a b ∨ a = actionId ∧ targets b

variable {converter : Converter} {actionId : String} {action : Action} {actions : List Action}

theorem connects_refl : Connects converter converter actionId fun _ => False :=
  ⟨rfl, by simp⟩

theorem Connects.trans {first second third : Converter} {actionId : String}
    {targets targets' : String → Prop} (h : Connects first second actionId targets)
    (h' : Connects second third actionId targets') :
    Connects first third actionId fun b => targets b ∨ targets' b := by
  refine ⟨h'.nodes.trans h.nodes, fun a b => ?_⟩
  rw [h'.leads, h.leads, or_assoc, and_or_left]

theorem Connects.congr {converter' : Converter} {targets targets' : String → Prop}
    (h : Connects converter converter' actionId targets) (htargets : ∀ b, targets b ↔ targets' b) :
    Connects converter converter' actionId targets' :=
  ⟨h.nodes, fun a b => by rw [h.leads, htargets]⟩

theorem connects_connectBranch {branch : List String} {type : ConnectionType} {outputIndex : Nat} :
    Connects converter (connectBranch actionId branch type outputIndex converter) actionId
      fun b => branch.head? = some b := by
  cases branch with
  | nil => exact connects_refl.congr (by simp)
  | cons first rest =>
      refine ⟨rfl, fun a b => ?_⟩
      simp only [connectBranch, addConnection, Connections.leads_push, List.head?_cons,
        Option.some.injEq, eq_comm]

theorem connects_cases (cases : List (List String × Nat)) (converter : Converter) :
    Connects converter (cases.foldl (fun converter (caseActions, index) =>
      connectBranch actionId caseActions .main index converter) converter) actionId
      fun b => ∃ branch ∈ cases.map Prod.fst, branch.head? = some b := by
  induction cases generalizing converter with
  | nil => exact connects_refl.congr (by simp)
  | cons item rest ih =>
      rw [List.foldl_cons]
      exact (connects_connectBranch.trans (ih _)).congr (by simp)

section Handlers

variable {action : Action} {actionId : String}

theorem handleIfAction_connects {thenActions elseActions : List String}
    (hthen : idsAt action.config "thenActions" = some thenActions)
    (helse : idsAt action.config "elseActions" = some elseActions) (converter : Converter) :
    ∃ converter', handleIfAction action actionId converter = some converter' ∧
      Connects converter converter' actionId
        fun b => ∃ branch ∈ [thenActions, elseActions], branch.head? = some b := by
  simp only [handleIfAction, hthen, helse]
  exact ⟨_, rfl, (connects_connectBranch.trans connects_connectBranch).congr (by simp)⟩

theorem handleLoopAction_connects {actions : List String}
    (hactions : idsAt action.config "actions" = some actions) (converter : Converter) :
    ∃ converter', handleLoopAction action actionId converter = some converter' ∧
      Connects converter converter' actionId
        fun b => ∃ branch ∈ [actions], branch.head? = some b := by
  simp only [handleLoopAction, hactions]
  exact ⟨_, rfl, connects_connectBranch.congr (by simp)⟩

theorem handleSwitchAction_connects {cases : List (List String)} {defaultActions : List String}
    (hcases : casesOf action.config = some cases)
    (hdefault : idsAt action.config "defaultActions" = some defaultActions)
    (converter : Converter) :
    ∃ converter', handleSwitchAction action actionId converter = some converter' ∧
      Connects converter converter' actionId
        fun b => ∃ branch ∈ cases ++ [defaultActions], branch.head? = some b := by
  have hcasesWired := @connects_cases actionId cases.zipIdx converter
  have hwired := hcasesWired.trans
    (@connects_connectBranch _ actionId defaultActions .main cases.length)
  refine ⟨_, by simp only [handleSwitchAction, hcases, hdefault]; rfl, hwired.congr fun b => ?_⟩
  simp [or_and_right, exists_or]

theorem handleTryCatchAction_connects {tryActions catchActions finallyActions : List String}
    (htry : idsAt action.config "tryActions" = some tryActions)
    (hcatch : idsAt action.config "catchActions" = some catchActions)
    (hfinally : idsAt action.config "finallyActions" = some finallyActions)
    (converter : Converter) :
    ∃ converter', handleTryCatchAction action actionId converter = some converter' ∧
      Connects converter converter' actionId
        fun b => ∃ branch ∈ [tryActions, catchActions], branch.head? = some b := by
  simp only [handleTryCatchAction, htry, hcatch, hfinally]
  have hwired : Connects converter (connectBranch actionId catchActions .error 0
      (connectBranch actionId tryActions .success 0 converter)) actionId
      fun b => ∃ branch ∈ [tryActions, catchActions], branch.head? = some b :=
    (connects_connectBranch.trans connects_connectBranch).congr (by simp)
  by_cases hempty : finallyActions = []
  · subst hempty
    exact ⟨_, rfl, hwired⟩
  · simp only [bind, Option.bind_some, if_neg hempty]
    refine ⟨_, rfl, ?_⟩
    exact ⟨hwired.nodes, hwired.leads⟩

/-- Handling an action of the control flow whose config is of its type. -/
theorem handleControlFlow_connects {nested : List String}
    (htyped : extractNestedActions action = some nested) (converter : Converter) :
    ∃ converter', handleControlFlow action actionId converter = some converter' ∧
      Connects converter converter' actionId (BranchesTo action) := by
  -- counting the action changes neither the nodes nor the connections
  have hcount : ∀ {stats : Stats} {targets : String → Prop} {handled : Option Converter},
      (∃ converter', handled = some converter' ∧
        Connects { converter with stats } converter' actionId targets) →
      ∃ converter', handled = some converter' ∧ Connects converter converter' actionId targets :=
    fun ⟨converter', hsome, h⟩ => ⟨converter', hsome, h.nodes, h.leads⟩
  unfold extractNestedActions at htyped
  unfold handleControlFlow BranchesTo branchesOf
  apply hcount
  cases htype : action.type with
  | IF =>
      simp only [htype, bind, pure, Option.bind_eq_some_iff] at htyped
      obtain ⟨thenActions, hthen, elseActions, helse, _⟩ := htyped
      simp only [hthen, helse, Option.getD_some]
      exact handleIfAction_connects hthen helse _
  | LOOP =>
      simp only [htype] at htyped
      simp only [htyped, Option.getD_some]
      exact handleLoopAction_connects htyped _
  | SWITCH =>
      simp only [htype, bind, pure, Option.bind_eq_some_iff] at htyped
      obtain ⟨cases, hcases, defaultActions, hdefault, _⟩ := htyped
      simp only [hcases, hdefault, Option.getD_some]
      exact handleSwitchAction_connects hcases hdefault _
  | TRY_CATCH =>
      simp only [htype, bind, pure, Option.bind_eq_some_iff] at htyped
      obtain ⟨tryActions, htry, catchActions, hcatch, finallyActions, hfinally, _⟩ := htyped
      simp only [htry, hcatch, Option.getD_some]
      exact handleTryCatchAction_connects htry hcatch hfinally _
  | _ => exact ⟨_, rfl, connects_refl.congr (by simp)⟩

end Handlers

/-! ### Processing the list -/

/-- The nodes after a list of actions with fresh ids, and the connections they come with. -/
structure Processed (converter converter' : Converter) (items : List (Action × String)) :
    Prop where
  nodes : converter'.actionNodes.entries = converter.actionNodes.entries ++
    items.map fun item => (item.2, createNode item.1 item.2)
  leads : ∀ a b, converter'.connections.Leads a b ↔
    converter.connections.Leads a b ∨ ∃ item ∈ items, a = item.2 ∧ BranchesTo item.1 b

theorem branchesOf_of_plain (h : isControlFlowAction action.type = false) :
    branchesOf action = [] := by
  unfold branchesOf
  cases htype : action.type <;> simp [htype, isControlFlowAction] at h ⊢

theorem processAction_processed {nested : List String}
    (htyped : extractNestedActions action = some nested)
    (hfresh : converter.actionNodes.get? actionId = none) :
    ∃ converter', processAction converter (action, actionId) = some converter' ∧
      Processed converter converter' [(action, actionId)] := by
  have hentries : (converter.actionNodes.set actionId (createNode action actionId)).entries =
      converter.actionNodes.entries ++ [(actionId, createNode action actionId)] :=
    Fields.set_of_absent hfresh
  simp only [processAction]
  split
  · next hcontrol =>
      obtain ⟨converter', hsome, hconnects⟩ := @handleControlFlow_connects action actionId _
        htyped { converter with
          actionNodes := converter.actionNodes.set actionId (createNode action actionId)
          stats := { converter.stats with
            actionsConverted := converter.stats.actionsConverted + 1 } }
      refine ⟨converter', hsome, ?_, ?_⟩
      · rw [hconnects.nodes]
        exact hentries
      · simpa using hconnects.leads
  · next hplain =>
      refine ⟨_, rfl, hentries, fun a b => ?_⟩
      simp [BranchesTo, branchesOf_of_plain (by simpa using hplain)]

theorem processActions_processed {items : List (Action × String)}
    (htyped : ∀ item ∈ items, ∃ nested, extractNestedActions item.1 = some nested)
    (hnodup : (items.map Prod.snd).Nodup)
    (hfresh : ∀ item ∈ items, converter.actionNodes.get? item.2 = none) :
    ∃ converter', items.foldlM processAction converter = some converter' ∧
      Processed converter converter' items := by
  induction items generalizing converter with
  | nil => exact ⟨converter, rfl, by simp, by simp⟩
  | cons item rest ih =>
      obtain ⟨hitem, hrest⟩ := List.nodup_cons.mp hnodup
      obtain ⟨nested, hnested⟩ := htyped item (by simp)
      obtain ⟨mid, hmid, first⟩ := processAction_processed hnested (hfresh item (by simp))
      have hfreshMid : ∀ other ∈ rest, mid.actionNodes.get? other.2 = none := by
        intro other hother
        have hne : other.2 ≠ item.2 := fun heq => hitem (heq ▸ List.mem_map_of_mem hother)
        have hold := hfresh other (List.mem_cons_of_mem _ hother)
        rw [Option.eq_none_iff_forall_ne_some]
        intro node hnode
        rw [ObjectMap.get?_eq_some_iff, first.nodes] at hnode
        rcases List.mem_append.mp hnode with hin | hin
        · rw [ObjectMap.get?_eq_some_iff.mpr hin] at hold
          cases hold
        · simp [hne] at hin
      obtain ⟨converter', hsome, later⟩ :=
        ih (fun other hother => htyped other (List.mem_cons_of_mem _ hother)) hrest hfreshMid
      refine ⟨converter', by rw [List.foldlM_cons, hmid]; exact hsome, ?_, fun a b => ?_⟩
      · rw [later.nodes, first.nodes]
        simp
      · rw [later.leads, first.leads]
        simp [or_assoc]

/-! ### Connections to the next action -/

/-- The item at an index is plain, the next one stands behind it, and both have an id. -/
def Follows (items : List (Action × String)) (index : Nat) (a b : String) : Prop :=
  ∃ item next, items[index]? = some item ∧ items[index + 1]? = some next ∧
    isControlFlowAction item.1.type = false ∧ item.2 ≠ "" ∧ next.2 ≠ "" ∧
    a = item.2 ∧ b = next.2

section Linear

variable {items : List (Action × String)} {converter : Converter}

section

variable (hnodes : converter.actionNodes.entries = items.map fun item => (item.2, createNode item.1 item.2))
include hnodes

theorem keys_getElem? (index : Nat) :
    converter.actionNodes.keys[index]? = items[index]?.map Prod.snd := by
  rw [ObjectMap.keys, hnodes, List.map_map, List.getElem?_map]
  rfl

theorem connectNext_leads (index : Nat) :
    (connectNext converter index).actionNodes = converter.actionNodes ∧
      ∀ a b, (connectNext converter index).connections.Leads a b ↔
        converter.connections.Leads a b ∨ Follows items index a b := by
  simp only [connectNext, Follows, keys_getElem? hnodes]
  cases hitem : items[index]? with
  | none => simp
  | some item =>
  cases hnext : items[index + 1]? with
  | none => simp
  | some next =>
  have hnode : converter.actionNodes.get? item.2 = some (createNode item.1 item.2) := by
    rw [ObjectMap.get?_eq_some_iff, hnodes]
    exact List.mem_map.mpr ⟨item, List.mem_of_getElem? hitem, rfl⟩
  simp only [Option.map_some, hnode]
  by_cases hempty : item.2 = "" ∨ next.2 = ""
  · rw [if_pos hempty]
    refine ⟨rfl, fun a b => (or_iff_left ?_).symm⟩
    rintro ⟨item', next', h, h', _, hne, hne', _⟩
    cases h
    cases h'
    exact hempty.elim hne hne'
  rw [if_neg hempty]
  obtain ⟨hne, hne'⟩ := not_or.mp hempty
  have hflag : (createNode item.1 item.2).isControlFlow = isControlFlowAction item.1.type := rfl
  cases hcontrol : isControlFlowAction item.1.type with
  | true =>
      rw [hflag, hcontrol, if_pos rfl]
      refine ⟨rfl, fun a b => (or_iff_left ?_).symm⟩
      rintro ⟨item', next', h, _, hplain, _⟩
      cases h
      simp [hcontrol] at hplain
  | false =>
      rw [hflag, hcontrol, if_neg Bool.false_ne_true]
      refine ⟨rfl, fun a b => ?_⟩
      simp only [addConnection, Connections.leads_push]
      apply or_congr_right
      constructor
      · rintro ⟨rfl, rfl⟩
        exact ⟨item, next, rfl, rfl, hcontrol, hne, hne', rfl, rfl⟩
      · rintro ⟨item', next', h, h', _, _, _, rfl, rfl⟩
        cases h
        cases h'
        exact ⟨rfl, rfl⟩

end

theorem linear_leads (indices : List Nat) (hnodes : converter.actionNodes.entries =
      items.map fun item => (item.2, createNode item.1 item.2)) :
    (indices.foldl connectNext converter).actionNodes = converter.actionNodes ∧
      ∀ a b, (indices.foldl connectNext converter).connections.Leads a b ↔
        converter.connections.Leads a b ∨ ∃ index ∈ indices, Follows items index a b := by
  induction indices generalizing converter with
  | nil => simp
  | cons index rest ih =>
      obtain ⟨hsame, hleads⟩ := connectNext_leads hnodes index
      obtain ⟨hsameRest, hleadsRest⟩ := @ih (connectNext converter index)
        (by rw [hsame]; exact hnodes)
      refine ⟨hsameRest.trans hsame, fun a b => ?_⟩
      rw [List.foldl_cons, hleadsRest, hleads]
      simp [or_assoc]

end Linear

/-- What a converted list looks like: its items in order, and their connections. -/
structure Converted (workflow : Workflow) (items : List (Action × String)) : Prop where
  ids : workflow.actionIds = items.map Prod.snd
  connected : ∀ a b, workflow.Connected a b ↔
    (∃ item ∈ items, a = item.2 ∧ BranchesTo item.1 b) ∨ ∃ index, Follows items index a b

theorem namedActions_fst (env : Environment) (options : ConverterOptions)
    (actions : List Action) : (namedActions env options actions).map Prod.fst = actions := by
  refine List.ext_getElem? fun index => ?_
  cases h : actions[index]? <;> simp [namedActions, h]

theorem namedActions_preserved {env : Environment} {options : ConverterOptions}
    (hpreserve : options.preserveActionIds = true) (actions : List Action) :
    namedActions env options actions = actions.map fun action => (action, action.id) := by
  refine List.ext_getElem? fun index => ?_
  cases h : actions[index]? <;> simp [namedActions, hpreserve, h]

theorem namedActions_generated {env : Environment} {options : ConverterOptions}
    (hpreserve : options.preserveActionIds = false) (actions : List Action) :
    (namedActions env options actions).map Prod.snd =
      (List.range actions.length).map env.generateId := by
  refine List.ext_getElem? fun index => ?_
  by_cases hlt : index < actions.length
  · simp [namedActions, hpreserve, hlt]
  · simp [namedActions, Nat.le_of_not_lt hlt]

theorem convert_converted (env : Environment) (options : ConverterOptions)
    (htyped : ∀ action ∈ actions, ∃ nested, extractNestedActions action = some nested)
    (hnodup : ((namedActions env options actions).map Prod.snd).Nodup) :
    ∃ result, convert env options actions = some result ∧
      Converted result.workflow (namedActions env options actions) := by
  have hfst := namedActions_fst env options actions
  generalize hitems : namedActions env options actions = items at *
  have hitemsTyped : ∀ item ∈ items, ∃ nested, extractNestedActions item.1 = some nested :=
    fun item hitem => htyped item.1 (hfst ▸ List.mem_map_of_mem hitem)
  obtain ⟨processed, hsome, hprocessed⟩ := @processActions_processed
    { warnings := if actions = [] then ["Empty action list provided"] else [] } _ hitemsTyped
    hnodup (fun _ _ => rfl)
  have hnodes : processed.actionNodes.entries =
      items.map fun item => (item.2, createNode item.1 item.2) := hprocessed.nodes
  obtain ⟨hsame, hleads⟩ := linear_leads (List.range (actions.length - 1)) hnodes
  refine ⟨_, by rw [convert, hitems]; simp only [hsome, bind, Option.bind_some]; rfl, ?_, ?_⟩
  · simp only [actionIds, positionedActions, buildLinearConnections, hsame, ObjectMap.values,
      hnodes, List.map_map]
    rfl
  · intro a b
    show (buildLinearConnections actions processed).connections.Leads a b ↔ _
    rw [buildLinearConnections, hleads, hprocessed.leads]
    have hstart : ¬ Connections.Leads .empty a b := by simp [Connections.Leads]
    have hlength : actions.length = items.length := by rw [← hfst, List.length_map]
    simp only [hstart, false_or]
    apply or_congr_right
    constructor
    · rintro ⟨index, -, h⟩
      exact ⟨index, h⟩
    · rintro ⟨index, h⟩
      obtain ⟨_, _, _, hnext, _⟩ := id h
      have hindex := (List.getElem?_eq_some_iff.mp hnext).1
      exact ⟨index, List.mem_range.mpr (by omega), h⟩

/-! ### Coverage -/

/-- Every config is of its type, and names only actions that come later. -/
def NamesLater : List Action → Prop
  | [] => True
  | action :: rest =>
      (∃ nested, extractNestedActions action = some nested ∧
        ∀ id ∈ nested, id ∈ rest.map Action.id) ∧ NamesLater rest

/-- All connections lead from actions to actions, and the first action leads to all. -/
def CoversAll (workflow : Workflow) : Prop :=
  workflow.EndsAreActions ∧
    ∀ first, workflow.actionIds.head? = some first →
      ∀ id ∈ workflow.actionIds, Relation.ReflTransGen workflow.Connected first id

/-- Every action but the first stands behind a plain action, or first in a branch. -/
def EachConnected (actions : List Action) : Prop :=
  ∀ index action, actions[index + 1]? = some action →
    (∃ previous, actions[index]? = some previous ∧
      isControlFlowAction previous.type = false ∧ previous.id ≠ "" ∧ action.id ≠ "") ∨
    ∃ other ∈ actions, BranchesTo other action.id

/-- No action has a branch, and none but the last is of the control flow. -/
def PlainBeforeLast (actions : List Action) : Prop :=
  (∀ action ∈ actions, ∀ target, ¬ BranchesTo action target) ∧
    ∀ index action, actions[index]? = some action → index + 1 < actions.length →
      isControlFlowAction action.type = false

theorem nested_of_branchesTo {nested : List String} {target : String}
    (htyped : extractNestedActions action = some nested) (h : BranchesTo action target) :
    target ∈ nested := by
  obtain ⟨branch, hbranch, hhead⟩ := h
  have htarget := List.mem_of_head? hhead
  unfold extractNestedActions at htyped
  unfold branchesOf at hbranch
  cases htype : action.type with
  | IF =>
      simp only [htype, bind, pure, Option.bind_eq_some_iff, Option.some.injEq] at htyped hbranch
      obtain ⟨thenActions, hthen, elseActions, helse, rfl⟩ := htyped
      simp only [hthen, helse, Option.getD_some, List.mem_cons, List.not_mem_nil, or_false]
        at hbranch
      rcases hbranch with rfl | rfl <;> simp [htarget]
  | LOOP =>
      simp only [htype] at htyped hbranch
      simp only [htyped, Option.getD_some, List.mem_singleton] at hbranch
      exact hbranch ▸ htarget
  | SWITCH =>
      simp only [htype, bind, pure, Option.bind_eq_some_iff, Option.some.injEq] at htyped hbranch
      obtain ⟨cases, hcases, defaultActions, hdefault, rfl⟩ := htyped
      simp only [hcases, hdefault, Option.getD_some, List.mem_append, List.mem_singleton]
        at hbranch
      rcases hbranch with hcase | rfl
      · exact List.mem_append_left _ (List.mem_flatten.mpr ⟨branch, hcase, htarget⟩)
      · exact List.mem_append_right _ htarget
  | TRY_CATCH =>
      simp only [htype, bind, pure, Option.bind_eq_some_iff, Option.some.injEq] at htyped hbranch
      obtain ⟨tryActions, htry, catchActions, hcatch, finallyActions, hfinally, rfl⟩ := htyped
      simp only [htry, hcatch, Option.getD_some, List.mem_cons, List.not_mem_nil, or_false]
        at hbranch
      rcases hbranch with rfl | rfl <;> simp [htarget]
  | _ => simp [htype] at hbranch

theorem NamesLater.typed (h : NamesLater actions) :
    ∀ action ∈ actions, ∃ nested, extractNestedActions action = some nested := by
  induction actions with
  | nil => simp
  | cons first rest ih =>
      obtain ⟨⟨nested, hnested, _⟩, hrest⟩ := h
      exact List.forall_mem_cons.mpr ⟨⟨nested, hnested⟩, ih hrest⟩

theorem NamesLater.branch_later (h : NamesLater actions) {index : Nat}
    (haction : actions[index]? = some action) {target : String} (htarget : BranchesTo action target) :
    ∃ later, index < later ∧ (actions.map Action.id)[later]? = some target := by
  induction actions generalizing index with
  | nil => cases haction
  | cons first rest ih =>
      obtain ⟨⟨nested, hnested, hlater⟩, hrest⟩ := h
      cases index with
      | zero =>
          cases haction
          obtain ⟨later, hget⟩ :=
            List.mem_iff_getElem?.mp (hlater target (nested_of_branchesTo hnested htarget))
          exact ⟨later + 1, by omega, hget⟩
      | succ index =>
          obtain ⟨later, hlt, hget⟩ := ih hrest haction
          exact ⟨later + 1, by omega, hget⟩

section Coverage

variable {workflow : Workflow} {items : List (Action × String)}

theorem follows_forward {index : Nat} {a b : String} (h : Follows items index a b) :
    (items.map Prod.snd)[index]? = some a ∧ (items.map Prod.snd)[index + 1]? = some b := by
  obtain ⟨item, next, hitem, hnext, _, _, _, rfl, rfl⟩ := h
  simp [hitem, hnext]

theorem follows_index {i index : Nat} {a b : String} (hnodup : (items.map Prod.snd).Nodup)
    (h : Follows items i a b) (hget : (items.map Prod.snd)[index + 1]? = some b) : i = index := by
  have hnext := (follows_forward h).2
  obtain ⟨hlt, -⟩ := List.getElem?_eq_some_iff.mp hnext
  have hsucc := (List.getElem?_inj hlt hnodup).mp (hnext.trans hget.symm)
  omega

theorem Converted.covers_iff (h : Converted workflow items)
    (hnodup : (items.map Prod.snd).Nodup)
    (hbranches : ∀ {index : Nat} {item : Action × String} {b : String},
      items[index]? = some item → BranchesTo item.1 b →
        ∃ later, index < later ∧ (items.map Prod.snd)[later]? = some b) :
    CoversAll workflow ↔
      ∀ id ∈ (items.map Prod.snd).tail, ∃ a, workflow.Connected a id := by
  have hforward : ∀ {a b}, workflow.Connected a b → ∃ i j : Nat, i < j ∧
      (items.map Prod.snd)[i]? = some a ∧ (items.map Prod.snd)[j]? = some b := by
    intro a b hab
    rcases (h.connected a b).mp hab with ⟨item, hitem, rfl, hbranch⟩ | ⟨index, hfollows⟩
    · obtain ⟨index, hindex⟩ := List.mem_iff_getElem?.mp hitem
      obtain ⟨later, hlt, hlater⟩ := hbranches hindex hbranch
      exact ⟨index, later, hlt, by simp [hindex], hlater⟩
    · exact ⟨index, index + 1, by omega, follows_forward hfollows⟩
  have hends : workflow.EndsAreActions := by
    intro a b hab
    obtain ⟨i, j, _, hi, hj⟩ := hforward hab
    rw [h.ids]
    exact ⟨List.mem_of_getElem? hi, List.mem_of_getElem? hj⟩
  unfold CoversAll
  rw [h.ids, and_iff_right hends]
  cases hids : items.map Prod.snd with
  | nil => simp
  | cons first rest =>
      rw [hids] at hnodup hforward
      simp only [List.head?_cons, Option.some.injEq, forall_eq', List.tail_cons]
      exact DepthFirst.reached_from_first_iff hnodup hforward

end Coverage

/-- With ids of their own the actions are covered exactly if each comes out connected. -/
theorem covers_iff_of_preserved {workflow : Workflow} (hnodup : (actions.map Action.id).Nodup)
    (hlater : NamesLater actions)
    (h : Converted workflow (actions.map fun action => (action, action.id))) :
    CoversAll workflow ↔ EachConnected actions := by
  have hids : (actions.map fun action => (action, action.id)).map Prod.snd =
      actions.map Action.id := by simp [Function.comp_def]
  have hitems : ∀ index : Nat, (actions.map fun action => (action, action.id))[index]? =
      actions[index]?.map fun action : Action => (action, action.id) := by simp
  rw [h.covers_iff (by rw [hids]; exact hnodup) ?_]
  · rw [hids]
    constructor
    · intro hpred index action haction
      have hmem : action.id ∈ (actions.map Action.id).tail := by
        rw [← List.map_tail, ← List.drop_one]
        exact List.mem_map_of_mem (List.mem_of_getElem? (by simpa using haction))
      obtain ⟨a, ha⟩ := hpred action.id hmem
      rcases (h.connected a action.id).mp ha with ⟨item, hitem, _, hbranch⟩ | ⟨i, hfollows⟩
      · obtain ⟨other, hother, rfl⟩ := List.mem_map.mp hitem
        exact .inr ⟨other, hother, hbranch⟩
      · have hget : ((actions.map fun action => (action, action.id)).map Prod.snd)[index + 1]? =
            some action.id := by simp [haction]
        obtain rfl : i = index := follows_index (hids ▸ hnodup) hfollows hget
        obtain ⟨item, next, hitem, _, hplain, hne, hne', _, hid⟩ := hfollows
        rw [hitems] at hitem
        obtain ⟨previous, hprevious, rfl⟩ := Option.map_eq_some_iff.mp hitem
        exact .inl ⟨previous, hprevious, hplain, hne, hid ▸ hne'⟩
    · intro hconnected id hid
      rw [← List.map_tail, ← List.drop_one] at hid
      obtain ⟨action, haction, rfl⟩ := List.mem_map.mp hid
      obtain ⟨index, hindex⟩ := List.mem_iff_getElem?.mp haction
      rw [List.getElem?_drop, Nat.add_comm] at hindex
      rcases hconnected index action hindex with
        ⟨previous, hprevious, hplain, hne, hne'⟩ | ⟨other, hother, hbranch⟩
      · exact ⟨previous.id, (h.connected _ _).mpr (.inr ⟨index, (previous, previous.id),
          (action, action.id), by simp [hprevious], by simp [hindex], hplain, hne, hne', rfl,
          rfl⟩)⟩
      · exact ⟨other.id, (h.connected _ _).mpr
          (.inl ⟨(other, other.id), List.mem_map_of_mem hother, rfl, hbranch⟩)⟩
  · intro index item b hitem hbranch
    rw [hitems] at hitem
    obtain ⟨action, haction, rfl⟩ := Option.map_eq_some_iff.mp hitem
    rw [hids]
    exact hlater.branch_later haction hbranch

/-- With generated ids a branch leads nowhere, so there must be none. -/
theorem covers_iff_of_generated {workflow : Workflow} {items : List (Action × String)}
    (hfst : items.map Prod.fst = actions) (hnodup : (items.map Prod.snd).Nodup)
    (hlater : NamesLater actions)
    (hfresh : ∀ id ∈ items.map Prod.snd, id ≠ "" ∧ id ∉ actions.map Action.id)
    (h : Converted workflow items) : CoversAll workflow ↔ PlainBeforeLast actions := by
  have hlength : actions.length = items.length := by rw [← hfst, List.length_map]
  have hitem : ∀ {index : Nat} {item : Action × String}, items[index]? = some item →
      actions[index]? = some item.1 := by
    intro index item hget
    simp [← hfst, hget]
  constructor
  · rintro ⟨hends, hreached⟩
    have hnone : ∀ action ∈ actions, ∀ target, ¬ BranchesTo action target := by
      intro action haction target hbranch
      obtain ⟨index, hindex⟩ := List.mem_iff_getElem?.mp haction
      obtain ⟨later, _, hget⟩ := hlater.branch_later hindex hbranch
      rw [← hfst] at haction
      obtain ⟨item, hmem, rfl⟩ := List.mem_map.mp haction
      have htarget := (hends item.2 target
        ((h.connected _ _).mpr (.inl ⟨item, hmem, rfl, hbranch⟩))).2
      rw [h.ids] at htarget
      exact (hfresh target htarget).2 (List.mem_of_getElem? hget)
    refine ⟨hnone, fun index action haction hlt => ?_⟩
    have hcovers := (h.covers_iff hnodup fun hget hbranch =>
      absurd hbranch (hnone _ (List.mem_of_getElem? (hitem hget)) _)).mp ⟨hends, hreached⟩
    obtain ⟨next, hnext⟩ : ∃ next, items[index + 1]? = some next :=
      ⟨_, List.getElem?_eq_getElem (by omega)⟩
    have htail : next.2 ∈ (items.map Prod.snd).tail := by
      rw [← List.map_tail, ← List.drop_one]
      exact List.mem_map_of_mem (List.mem_of_getElem? (by simpa using hnext))
    obtain ⟨a, ha⟩ := hcovers next.2 htail
    rcases (h.connected _ _).mp ha with ⟨item, hmem, _, hbranch⟩ | ⟨i, hfollows⟩
    · exact absurd hbranch (hnone item.1 (hfst ▸ List.mem_map_of_mem hmem) _)
    · obtain rfl : i = index := follows_index hnodup hfollows (by simp [hnext])
      obtain ⟨item, _, hprevious, _, hplain, _⟩ := hfollows
      rw [hitem hprevious] at haction
      cases haction
      exact hplain
  · rintro ⟨hnone, hplain⟩
    refine (h.covers_iff hnodup fun hget hbranch =>
      absurd hbranch (hnone _ (List.mem_of_getElem? (hitem hget)) _)).mpr fun id hid => ?_
    rw [← List.map_tail, ← List.drop_one] at hid
    obtain ⟨next, hmem, rfl⟩ := List.mem_map.mp hid
    obtain ⟨index, hnext⟩ := List.mem_iff_getElem?.mp hmem
    rw [List.getElem?_drop, Nat.add_comm] at hnext
    have hlt := (List.getElem?_eq_some_iff.mp hnext).1
    obtain ⟨item, hget⟩ : ∃ item, items[index]? = some item :=
      ⟨_, List.getElem?_eq_getElem (by omega)⟩
    have hne : ∀ {i : Nat} {other : Action × String}, items[i]? = some other → other.2 ≠ "" :=
      fun hother => (hfresh _ (List.mem_map_of_mem (List.mem_of_getElem? hother))).1
    exact ⟨item.2, (h.connected _ _).mpr (.inr ⟨index, item, next, hget, hnext,
      hplain index item.1 (hitem hget) (by omega), hne hget, hne hnext, rfl, rfl⟩)⟩

/-- Generated ids are pairwise distinct, not empty, and none of those given. -/
def GeneratesFresh (env : Environment) (actions : List Action) : Prop :=
  ∀ i < actions.length, env.generateId i ≠ "" ∧ env.generateId i ∉ actions.map Action.id ∧
    ∀ j < actions.length, env.generateId i = env.generateId j → i = j

/-- An IF action whose then branch is the action behind it. -/
def checkFirst : List Action :=
  [{ id := "check", type := .IF, config := some (.obj [("thenActions", .arr [.str "yes"])]) },
    { id := "yes", type := .other "CLICK" ActionType.click_plain, config := some (.obj []) }]

def twoIds : Environment where
  generateId index := if index = 0 then "action-1-x" else "action-1-y"
  layout _ _ _ := none
  now := "2025-01-01T00:00:00.000Z"

end Qontinui.SequentialToGraph
