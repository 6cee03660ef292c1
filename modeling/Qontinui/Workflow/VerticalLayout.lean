import Qontinui.Workflow.ProcessConversion

/-!
`autoLayoutVertical`: the actions of a workflow in one column. A workflow
without branches is laid out in the order of its chain, which ends where the
chain does, whatever actions lie beside it.
-/

namespace Qontinui.Workflow

/-- `action` at its place in the column. -/
def placeInColumn (index : Nat) (action : Action) : Action :=
  { action with position := some (.arr [.num 100, .num (100 + index * 150)]) }

def autoLayoutVertical (workflow : Workflow) : Workflow :=
  let orderedActions :=
    if workflow.isLinearWorkflow then workflow.getLinearActionOrder else workflow.actions
  { workflow with actions := orderedActions.mapIdx placeInColumn }

def unplaced (action : Action) : Action := { action with position := none }

/-- The actions no first main connection leads to. -/
def chainEntries (workflow : Workflow) : List Action :=
  workflow.actions.filter fun action =>
    action.id ∉ workflow.connections.values.flatMap fun outputs =>
      ((firstOutput outputs).getD []).map Connection.action

/-- The first main connection of `a` leads to the action `b`. -/
def FollowedBy (workflow : Workflow) (a b : String) : Prop :=
  nextInChain workflow.connections a = some b ∧ b ∈ workflow.actionIds

/-- The first entry of a chain, where there is one, is followed by every action. -/
def InOneChain (workflow : Workflow) : Prop :=
  ∀ entry, workflow.chainEntries.head? = some entry →
    ∀ action ∈ workflow.actions,
      Relation.ReflTransGen workflow.FollowedBy entry.id action.id

variable {workflow : Workflow}

/-! ### Following a chain -/

theorem followedBy_iff {a b : String} :
    workflow.FollowedBy a b ↔
      ∃ next, (nextInChain workflow.connections a).bind workflow.getActionById = some next ∧
        next.id = b := by
  constructor
  · rintro ⟨hnext, hb⟩
    obtain ⟨next, hfound⟩ := Option.isSome_iff_exists.mp (getActionById_isSome_iff.mpr hb)
    exact ⟨next, by rw [hnext]; exact hfound, (getActionById_eq_some hfound).2⟩
  · rintro ⟨next, hbind, rfl⟩
    obtain ⟨id, hnext, hfound⟩ := Option.bind_eq_some_iff.mp hbind
    obtain ⟨hmem, rfl⟩ := getActionById_eq_some hfound
    exact ⟨hnext, List.mem_map_of_mem hmem⟩

variable {current : Action} {visited : List String} {fuel : Nat}

section

variable (hcurrent : current ∈ workflow.actions)
include hcurrent

theorem mem_followChain {x : Action} (h : x ∈ workflow.followChain fuel visited (some current)) :
    x ∈ workflow.actions ∧ x.id ∉ visited ∧
      Relation.ReflTransGen workflow.FollowedBy current.id x.id := by
  induction fuel generalizing visited current with
  | zero => cases h
  | succ fuel ih =>
      by_cases hvisited : current.id ∈ visited
      · simp [followChain, hvisited] at h
      rw [followChain, if_neg hvisited] at h
      rcases List.mem_cons.mp h with rfl | h
      · exact ⟨hcurrent, hvisited, .refl⟩
      cases hnext : (nextInChain workflow.connections current.id).bind workflow.getActionById with
      | none =>
          rw [hnext] at h
          cases fuel <;> cases h
      | some next =>
          rw [hnext] at h
          obtain ⟨_, _, hfound⟩ := Option.bind_eq_some_iff.mp hnext
          obtain ⟨hx, hfresh, hreached⟩ := ih (getActionById_eq_some hfound).1 h
          exact ⟨hx, fun hmem => hfresh (List.mem_cons_of_mem _ hmem),
            .head (followedBy_iff.mpr ⟨next, hnext, rfl⟩) hreached⟩

theorem followChain_ids_nodup :
    ((workflow.followChain fuel visited (some current)).map Action.id).Nodup := by
  induction fuel generalizing visited current with
  | zero => exact List.nodup_nil
  | succ fuel ih =>
      by_cases hvisited : current.id ∈ visited
      · simp [followChain, hvisited]
      rw [followChain, if_neg hvisited]
      cases hnext : (nextInChain workflow.connections current.id).bind workflow.getActionById with
      | none => cases fuel <;> exact List.nodup_singleton _
      | some next =>
          obtain ⟨_, _, hfound⟩ := Option.bind_eq_some_iff.mp hnext
          have hmem := (getActionById_eq_some hfound).1
          refine List.nodup_cons.mpr ⟨fun hin => ?_, ih hmem⟩
          obtain ⟨x, hx, hid⟩ := List.mem_map.mp hin
          exact (mem_followChain hmem hx).2.1 (hid ▸ List.mem_cons_self)

/-- With a step for every action not visited, only a visited action stops the chain. -/
theorem followChain_closed {x : Action} {b : String} (hvisited : visited.Nodup)
    (hsub : visited ⊆ workflow.actionIds) (hfuel : workflow.actions.length < fuel + visited.length)
    (hx : x ∈ workflow.followChain fuel visited (some current)) (hb : workflow.FollowedBy x.id b) :
    b ∈ visited ∨ b ∈ (workflow.followChain fuel visited (some current)).map Action.id := by
  induction fuel generalizing visited current with
  | zero => cases hx
  | succ fuel ih =>
      by_cases hmem : current.id ∈ visited
      · simp [followChain, hmem] at hx
      have hnodup : (current.id :: visited).Nodup := List.nodup_cons.mpr ⟨hmem, hvisited⟩
      have hsub' : current.id :: visited ⊆ workflow.actionIds :=
        List.cons_subset.mpr ⟨List.mem_map_of_mem hcurrent, hsub⟩
      have hcount : visited.length + 1 ≤ workflow.actions.length := by
        simpa [actionIds] using (hnodup.subperm hsub').length_le
      rw [followChain, if_neg hmem] at hx ⊢
      rw [List.map_cons, List.mem_cons]
      suffices h : b ∈ current.id :: visited ∨
          b ∈ (workflow.followChain fuel (current.id :: visited)
            ((nextInChain workflow.connections current.id).bind
              workflow.getActionById)).map Action.id by
        rw [List.mem_cons] at h
        tauto
      rcases List.mem_cons.mp hx with rfl | hx
      · obtain ⟨next, hnext, rfl⟩ := followedBy_iff.mp hb
        rw [hnext]
        by_cases hseen : next.id ∈ x.id :: visited
        · exact .inl hseen
        obtain ⟨fuel, rfl⟩ : ∃ n, fuel = n + 1 := ⟨fuel - 1, by omega⟩
        rw [followChain, if_neg hseen]
        exact .inr (by simp)
      · cases hnext :
          (nextInChain workflow.connections current.id).bind workflow.getActionById with
        | none =>
            rw [hnext] at hx
            cases fuel <;> cases hx
        | some next =>
            rw [hnext] at hx
            obtain ⟨_, _, hfound⟩ := Option.bind_eq_some_iff.mp hnext
            exact ih (getActionById_eq_some hfound).1 hnodup hsub' (by simp; omega) hx

theorem mem_followChain_ids_iff {id : String} :
    id ∈ (workflow.followChain (workflow.actions.length + 1) [] (some current)).map Action.id ↔
      Relation.ReflTransGen workflow.FollowedBy current.id id := by
  constructor
  · intro h
    obtain ⟨x, hx, rfl⟩ := List.mem_map.mp h
    exact (mem_followChain hcurrent hx).2.2
  · intro h
    induction h with
    | refl => simp [followChain]
    | tail _ hstep ih =>
        obtain ⟨x, hx, rfl⟩ := List.mem_map.mp ih
        have hclosed := followChain_closed hcurrent List.nodup_nil (List.nil_subset _)
          (by simp) hx hstep
        simpa using hclosed

end

/-! ### The actions that stay -/

theorem unplaced_autoLayoutVertical :
    workflow.autoLayoutVertical.actions.map unplaced =
      (if workflow.isLinearWorkflow then workflow.getLinearActionOrder
        else workflow.actions).map unplaced := by
  refine List.ext_getElem? fun index => ?_
  simp only [autoLayoutVertical, List.getElem?_map, List.getElem?_mapIdx, Option.map_map]
  rfl

theorem getLinearActionOrder_eq (hlinear : workflow.isLinearWorkflow = true) :
    workflow.getLinearActionOrder =
      if workflow.actions.length ≤ 1 then workflow.actions
      else match workflow.chainEntries with
        | [] => workflow.actions
        | entry :: _ => workflow.followChain (workflow.actions.length + 1) [] (some entry) := by
  rw [getLinearActionOrder, if_neg (by simp [hlinear])]
  rfl

theorem getLinearActionOrder_perm_iff (hids : workflow.actionIds.Nodup)
    (hlinear : workflow.isLinearWorkflow = true) :
    (workflow.getLinearActionOrder.map unplaced).Perm (workflow.actions.map unplaced) ↔
      workflow.InOneChain := by
  rw [getLinearActionOrder_eq hlinear]
  cases hentries : workflow.chainEntries with
  | nil => simp [InOneChain, hentries]
  | cons entry rest =>
      have hentry : entry ∈ workflow.actions :=
        (List.mem_filter.mp (hentries ▸ List.mem_cons_self :
          entry ∈ workflow.chainEntries)).1
      have hchain : workflow.InOneChain ↔ ∀ action ∈ workflow.actions,
          Relation.ReflTransGen workflow.FollowedBy entry.id action.id := by
        simp [InOneChain, hentries]
      rw [hchain]
      split_ifs with hfew
      · have hone : workflow.actions.length = 1 :=
          le_antisymm hfew (List.length_pos_of_mem hentry)
        obtain ⟨only, honly⟩ := List.length_eq_one_iff.mp hone
        rw [honly] at hentry ⊢
        cases List.mem_singleton.mp hentry
        exact iff_of_true (.refl _) (by simp [Relation.ReflTransGen.refl])
      simp only
      constructor
      · intro hperm action haction
        have hid : action.id ∈ (workflow.followChain (workflow.actions.length + 1) []
            (some entry)).map Action.id := by
          have hmem := (hperm.map Action.id).mem_iff.mpr
            (List.mem_map_of_mem (List.mem_map_of_mem haction))
          rw [List.map_map] at hmem
          exact hmem
        exact (mem_followChain_ids_iff hentry).mp hid
      · intro hall
        refine List.Perm.map _ ((List.perm_ext_iff_of_nodup
          (followChain_ids_nodup hentry).of_map (List.Nodup.of_map _ hids)).mpr fun action => ?_)
        refine ⟨fun h => (mem_followChain hentry h).1, fun h => ?_⟩
        obtain ⟨found, hfound, hid⟩ :=
          List.mem_map.mp ((mem_followChain_ids_iff hentry).mpr (hall action h))
        have hmem := (mem_followChain hentry hfound).1
        rwa [List.inj_on_of_nodup_map hids hmem h hid] at hfound

/-- The layout keeps every action, position aside, and the connections exactly where no
chain leaves an action out. -/
theorem autoLayoutVertical_keeps_iff (workflow : Workflow) (hids : workflow.actionIds.Nodup) :
    ((workflow.autoLayoutVertical.actions.map unplaced).Perm (workflow.actions.map unplaced) ∧
      workflow.autoLayoutVertical.connections = workflow.connections) ↔
        (workflow.isLinearWorkflow = true → workflow.InOneChain) := by
  rw [unplaced_autoLayoutVertical]
  cases hlinear : workflow.isLinearWorkflow with
  | false => exact iff_of_true ⟨.refl _, rfl⟩ (by simp)
  | true =>
      have hperm := getLinearActionOrder_perm_iff hids hlinear
      simpa [autoLayoutVertical] using hperm

def unconnected : Workflow where
  id := "w1"
  name := "Two steps"
  version := "1.0.0"
  format := "graph"
  actions := [{ id := "a", type := .ofName "CLICK", config := some (.obj []) },
    { id := "b", type := .ofName "CLICK", config := some (.obj []) }]
  connections := .empty

theorem autoLayoutVertical_keeps_unconnected :
    ((unconnected.autoLayoutVertical.actions.map unplaced).Perm
        (unconnected.actions.map unplaced) ∧
      unconnected.autoLayoutVertical.connections = unconnected.connections) ↔
        (unconnected.isLinearWorkflow = true → unconnected.InOneChain) :=
  autoLayoutVertical_keeps_iff unconnected (by decide)

/-- The second of two unconnected actions is not in the layout. -/
theorem autoLayoutVertical_loses_action :
    unconnected.actionIds.Nodup ∧
      ¬ ((unconnected.autoLayoutVertical.actions.map unplaced).Perm
          (unconnected.actions.map unplaced) ∧
        unconnected.autoLayoutVertical.connections = unconnected.connections) := by
  refine ⟨by decide, fun h => ?_⟩
  exact absurd h.1.length_eq (by decide)

end Qontinui.Workflow
