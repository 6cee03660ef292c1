import Qontinui.Canvas.Effects

/-!
The actions that connections name, as sources or as targets, under the edits of
the canvas store: removing, connecting, disconnecting, copying and pasting.
-/

namespace Qontinui

theorem Outputs.mem_targets_iff {outputs : Outputs} {target : String} :
    target ∈ outputs.targets ↔ ∃ type lists, outputs.get type = some lists ∧
      ∃ conn ∈ lists.flatten, conn.action = target := by
  simp only [targets, List.mem_map, mem_connections_iff, ofType]
  constructor
  · rintro ⟨conn, ⟨type, hconn⟩, htarget⟩
    cases hlists : outputs.get type with
    | none => simp [hlists] at hconn
    | some lists => exact ⟨type, lists, hlists, conn, by simpa [hlists] using hconn, htarget⟩
  · rintro ⟨type, lists, hlists, conn, hconn, htarget⟩
    exact ⟨conn, ⟨type, by simpa [hlists] using hconn⟩, htarget⟩

theorem Outputs.mem_targets_set {outputs : Outputs} {type : ConnectionType}
    {lists : List (List Connection)} {target : String}
    (h : target ∈ (outputs.set type lists).targets) :
    target ∈ outputs.targets ∨ ∃ conn ∈ lists.flatten, conn.action = target := by
  obtain ⟨kind, found, hfound, hconn⟩ := mem_targets_iff.mp h
  by_cases hkind : kind = type
  · subst hkind
    rw [get_set_self, Option.some.injEq] at hfound
    subst hfound
    exact .inr hconn
  · rw [get_set_ne _ hkind] at hfound
    exact .inl (mem_targets_iff.mpr ⟨kind, found, hfound, hconn⟩)

def Connections.Names (connections : Connections) (id : String) : Prop :=
  ∃ source outputs, connections.get? source = some outputs ∧
    (id = source ∨ id ∈ outputs.targets)

namespace Connections

variable {connections : Connections} {id : String}

theorem names_iff {connections : Connections} {id : String} :
    connections.Names id ↔ id ∈ connections.keys ∨ id ∈ connections.targets := by
  simp only [Names, ObjectMap.mem_keys_iff, targets, List.mem_flatMap, ObjectMap.mem_values_iff]
  constructor
  · rintro ⟨source, outputs, hget, rfl | htarget⟩
    · exact .inl ⟨outputs, hget⟩
    · exact .inr ⟨outputs, ⟨source, hget⟩, htarget⟩
  · rintro (⟨outputs, hget⟩ | ⟨outputs, ⟨source, hget⟩, htarget⟩)
    · exact ⟨id, outputs, hget, .inl rfl⟩
    · exact ⟨source, outputs, hget, .inr htarget⟩

theorem not_names_empty (id : String) : ¬ Names .empty id := by
  rintro ⟨source, outputs, hget, -⟩
  cases hget

variable {source : String}

theorem Names.of_set {outputs : Outputs} (h : Names (connections.set source outputs) id) :
    connections.Names id ∨ id = source ∨ id ∈ outputs.targets := by
  obtain ⟨other, found, hget, hid⟩ := h
  by_cases hother : other = source
  · subst hother
    rw [ObjectMap.get?_set_self, Option.some.injEq] at hget
    subst hget
    exact .inr hid
  · rw [ObjectMap.get?_set_ne _ hother] at hget
    exact .inl ⟨other, found, hget, hid⟩

theorem names_set_source (connections : Connections) (source : String) (outputs : Outputs) :
    Names (connections.set source outputs) source :=
  ⟨source, outputs, ObjectMap.get?_set_self .., .inl rfl⟩

theorem Names.of_erase (h : Names (connections.erase source) id) : connections.Names id := by
  obtain ⟨other, found, hget, hid⟩ := h
  by_cases hother : other = source
  · subst hother
    rw [ObjectMap.get?_erase_self] at hget
    cases hget
  · rw [ObjectMap.get?_erase_ne _ hother] at hget
    exact ⟨other, found, hget, hid⟩

theorem names_of_mem_targets (h : id ∈ ((connections.get? source).getD {}).targets) :
    connections.Names id := by
  cases hget : connections.get? source with
  | none => simp [hget] at h
  | some outputs => exact ⟨source, outputs, hget, .inr (by simpa [hget] using h)⟩

theorem Names.of_foldl {α : Type*} {items : List α} {grow : Connections → α → Connections}
    (allowed : String → Prop)
    (hgrow : ∀ built, ∀ item ∈ items, ∀ id, (grow built item).Names id →
      built.Names id ∨ allowed id)
    {built : Connections} (h : (items.foldl grow built).Names id) :
    built.Names id ∨ allowed id := by
  induction items generalizing built with
  | nil => exact .inl h
  | cons item rest ih =>
      have hrest := ih (fun built item hitem => hgrow built item (by simp [hitem])) h
      rcases hrest with hnamed | hallowed
      · exact hgrow built item (by simp) id hnamed
      · exact .inr hallowed

end Connections

namespace Canvas

open Connections

section Outputs

variable {outputs : Outputs} {target : String}

theorem get_mapOutputs (change : List Connection → List Connection) (outputs : Outputs)
    (type : ConnectionType) :
    (mapOutputs change outputs).get type = (outputs.get type).map (List.map change) := by
  cases type <;> rfl

theorem get_mergeOutputs (sourceConns pasted : Outputs) (type : ConnectionType) :
    (mergeOutputs sourceConns pasted).get type = (pasted.get type).or (sourceConns.get type) := by
  cases type <;> rfl

theorem mem_targets_filterTargets {keep : String → Bool}
    (h : target ∈ (filterTargets keep outputs).targets) :
    target ∈ outputs.targets ∧ keep target := by
  obtain ⟨type, lists, hlists, conn, hconn, rfl⟩ := Outputs.mem_targets_iff.mp h
  rw [filterTargets, get_mapOutputs] at hlists
  obtain ⟨found, hfound, rfl⟩ := Option.map_eq_some_iff.mp hlists
  rw [← List.filter_flatten, List.mem_filter] at hconn
  exact ⟨Outputs.mem_targets_iff.mpr ⟨type, found, hfound, conn, hconn.1, rfl⟩, hconn.2⟩

theorem mem_targets_rename {rename : String → String}
    (h : target ∈ (mapOutputs (List.map fun conn =>
      { conn with action := rename conn.action }) outputs).targets) :
    ∃ old ∈ outputs.targets, target = rename old := by
  obtain ⟨type, lists, hlists, conn, hconn, rfl⟩ := Outputs.mem_targets_iff.mp h
  rw [get_mapOutputs] at hlists
  obtain ⟨found, hfound, rfl⟩ := Option.map_eq_some_iff.mp hlists
  rw [← List.map_flatten, List.mem_map] at hconn
  obtain ⟨old, hold, rfl⟩ := hconn
  exact ⟨old.action, Outputs.mem_targets_iff.mpr ⟨type, found, hfound, old, hold, rfl⟩, rfl⟩

theorem mem_targets_mergeOutputs {pasted : Outputs}
    (h : target ∈ (mergeOutputs outputs pasted).targets) :
    target ∈ outputs.targets ∨ target ∈ pasted.targets := by
  obtain ⟨type, lists, hlists, hconn⟩ := Outputs.mem_targets_iff.mp h
  rw [get_mergeOutputs, Option.or_eq_some_iff] at hlists
  rcases hlists with hpasted | ⟨-, hold⟩
  · exact .inr (Outputs.mem_targets_iff.mpr ⟨type, lists, hpasted, hconn⟩)
  · exact .inl (Outputs.mem_targets_iff.mpr ⟨type, lists, hold, hconn⟩)

theorem mem_targets_pushConnection {type : ConnectionType} {outputIndex : Int}
    {conn : Connection} (h : target ∈ (pushConnection outputs type outputIndex conn).targets) :
    target ∈ outputs.targets ∨ target = conn.action := by
  unfold pushConnection at h
  split at h
  · exact Outputs.mem_targets_push.mp h
  · rcases Outputs.mem_targets_set h with hold | ⟨other, hother, rfl⟩
    · exact .inl hold
    · cases hget : outputs.get type with
      | none => simp [hget] at hother
      | some lists =>
          rw [hget] at hother
          exact .inl (Outputs.mem_targets_iff.mpr ⟨type, lists, hget, other, hother, rfl⟩)

theorem mem_disconnectAt {lists : List (List Connection)} {outputIndex : Int}
    {conn : Connection} (h : conn ∈ (disconnectAt lists outputIndex target).flatten) :
    conn ∈ lists.flatten := by
  unfold disconnectAt at h
  split at h
  · obtain ⟨output, houtput, hconn⟩ := List.mem_flatten.mp h
    obtain ⟨k, hk⟩ := List.getElem?_of_mem houtput
    rw [List.getElem?_modify, Option.map_eq_map, Option.map_eq_some_iff] at hk
    obtain ⟨old, hold, rfl⟩ := hk
    refine List.mem_flatten.mpr ⟨old, List.mem_of_getElem? hold, ?_⟩
    split at hconn
    · exact (List.mem_filter.mp hconn).1
    · exact hconn
  · exact h

end Outputs

section Edits

variable {workflow : Workflow} {id : String}

theorem get?_foldl_erase (gone : List String) (connections : Connections) (source : String) :
    (gone.foldl ObjectMap.erase connections).get? source =
      if source ∈ gone then none else connections.get? source := by
  induction gone generalizing connections with
  | nil => simp
  | cons other rest ih =>
      rw [List.foldl_cons, ih]
      by_cases hother : source = other
      · subst hother
        simp
      · simp [hother, ObjectMap.get?_erase_ne _ hother]

theorem names_removeActions {actionIds : List String}
    (h : (removeActions workflow actionIds).connections.Names id) :
    workflow.connections.Names id ∧ id ∉ actionIds := by
  obtain ⟨source, outputs, hget, hid⟩ := h
  simp only [removeActions, ObjectMap.get?_mapValues, get?_foldl_erase,
    Option.map_eq_some_iff] at hget
  obtain ⟨found, hfound, rfl⟩ := hget
  split at hfound
  · cases hfound
  · next hsource =>
      rcases hid with rfl | htarget
      · exact ⟨⟨id, found, hfound, .inl rfl⟩, hsource⟩
      · obtain ⟨hold, hkept⟩ := mem_targets_filterTargets htarget
        exact ⟨⟨source, found, hfound, .inr hold⟩, of_decide_eq_true hkept⟩

variable {sourceId outputType targetId : String} {outputIndex targetIndex : Int}

theorem names_connect
    (h : (connect workflow sourceId outputType outputIndex targetId targetIndex).connections.Names
      id) : workflow.connections.Names id ∨ id = sourceId ∨ id = targetId := by
  rcases h.of_set with hold | hsource | htarget
  · exact .inl hold
  · exact .inr (.inl hsource)
  · split at htarget
    · exact .inl (names_of_mem_targets htarget)
    · rcases mem_targets_pushConnection htarget with hold | hnew
      · exact .inl (names_of_mem_targets hold)
      · exact .inr (.inr hnew)

theorem names_disconnect {disconnected : Workflow}
    (h : disconnect workflow sourceId outputType outputIndex targetId = some disconnected)
    (hnames : disconnected.connections.Names id) : workflow.connections.Names id := by
  simp only [disconnect, Option.bind_eq_bind, Option.bind_eq_some_iff, Option.pure_def,
    Option.some.injEq] at h
  obtain ⟨sourceConns, hsource, type, htype, outputs, houtputs, rfl⟩ := h
  rcases hnames.of_set with hold | hsame | htarget
  · exact hold
  · exact ⟨sourceId, sourceConns, hsource, .inl hsame⟩
  · refine ⟨sourceId, sourceConns, hsource, .inr ?_⟩
    rcases Outputs.mem_targets_set htarget with hold | ⟨conn, hconn, rfl⟩
    · exact hold
    · exact Outputs.mem_targets_iff.mpr
        ⟨type, outputs, houtputs, conn, mem_disconnectAt hconn, rfl⟩

variable {connections newConnections : Connections}

theorem names_mergeConnections (h : (mergeConnections connections newConnections).Names id) :
    connections.Names id ∨ newConnections.Names id := by
  refine Names.of_foldl newConnections.Names ?_ h
  rintro built ⟨source, pasted⟩ hitem id hnames
  have hget : newConnections.get? source = some pasted := ObjectMap.get?_eq_some_iff.mpr hitem
  rcases hnames.of_set with hold | hsource | htarget
  · exact .inl hold
  · exact .inr ⟨source, pasted, hget, .inl hsource⟩
  · rcases mem_targets_mergeOutputs htarget with hold | hpasted
    · exact .inl (names_of_mem_targets hold)
    · exact .inr ⟨source, pasted, hget, .inr hpasted⟩

theorem names_updateConnections {oldToNewIdMap : ObjectMap String}
    (h : (updateConnectionsForClonedActions connections oldToNewIdMap).Names id) :
    ∃ old, connections.Names old ∧ id = renamed oldToNewIdMap old := by
  refine (Names.of_foldl (fun id => ∃ old, connections.Names old ∧ id = renamed oldToNewIdMap old)
    ?_ h).resolve_left (not_names_empty id)
  rintro built ⟨source, outputs⟩ hitem id hnames
  have hget : connections.get? source = some outputs := ObjectMap.get?_eq_some_iff.mpr hitem
  rcases hnames.of_set with hold | hsource | htarget
  · exact .inl hold
  · exact .inr ⟨source, ⟨source, outputs, hget, .inl rfl⟩, hsource⟩
  · obtain ⟨old, hold, hid⟩ := mem_targets_rename htarget
    exact .inr ⟨old, ⟨source, outputs, hget, .inr hold⟩, hid⟩

theorem names_copyConnections {selectedNodes : List String}
    (h : (copyConnections connections selectedNodes).Names id) :
    connections.Names id ∧ id ∈ selectedNodes := by
  refine (Names.of_foldl (fun id => connections.Names id ∧ id ∈ selectedNodes) ?_ h).resolve_left
    (not_names_empty id)
  intro built nodeId hnode id hnames
  cases hget : connections.get? nodeId with
  | none => simp only [hget] at hnames; exact .inl hnames
  | some outputs =>
      simp only [hget] at hnames
      rcases hnames.of_set with hold | rfl | htarget
      · exact .inl hold
      · exact .inr ⟨⟨id, outputs, hget, .inl rfl⟩, hnode⟩
      · obtain ⟨hold, hselected⟩ := mem_targets_filterTargets htarget
        exact .inr ⟨⟨nodeId, outputs, hget, .inr hold⟩, of_decide_eq_true hselected⟩

end Edits

end Canvas
end Qontinui
