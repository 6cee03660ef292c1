import Mathlib.Data.Set.Card
import Qontinui.Folders.Links

/-!
The two counters of a folder, and the walks that refresh them. A walk refreshes the folders on
the way up from where the change was made, and no counter of another folder needs it.
-/

namespace Qontinui.Folders

open ParentLinks FallibleLoops

section Walks

variable {m : FolderMap} {s s' : Store} {fuel : Nat}

def Below (m : FolderMap) (id : String) : Set String := {y | ∃ n, Climbs m.up (n + 1) y id}

variable {id : String} {folder : WorkflowFolder}

theorem length_descendants (h : Ranked m.up) (hid : m.has id = true) {found : List WorkflowFolder}
    (hfound : getFolderDescendants m fuel id = some found) : found.length = (Below m id).ncard := by
  classical
  have hset : Below m id = ↑(found.map (·.id)).toFinset := by
    ext y
    rw [List.coe_toFinset, Set.mem_ofPred_eq, List.mem_map]
    constructor
    · rintro ⟨n, hclimbs⟩
      obtain ⟨folder, hmem, rfl⟩ := FolderMap.has_iff.mp (has_of_climbs hclimbs)
      exact ⟨folder, (mem_getFolderDescendants hid hfound).mpr ⟨hmem, n, hclimbs⟩, rfl⟩
    · rintro ⟨folder, hfolder, rfl⟩
      exact ((mem_getFolderDescendants hid hfound).mp hfolder).2
  have hnodup := getFolderDescendants_nodup h hid hfound
  rw [hset, Set.ncard_coe_finset, List.toFinset_card_of_nodup hnodup, List.length_map]

theorem below_of_fresh (hfresh : m.has id = false) : Below m id = ∅ := by
  apply Set.eq_empty_of_forall_notMem
  rintro y ⟨n, hclimbs⟩
  cases Linked.zero_of_fresh hfresh hclimbs

/-! ### The way up -/

def OnWay (m : FolderMap) (parentId : Option String) (id : String) : Prop :=
  ∃ start n, parentId = some start ∧ m.has start = true ∧ Climbs m.up n start id

theorem not_onWay {parentId : Option String} (hat : m.at? parentId = none) (id : String) :
    ¬OnWay m parentId id := by
  rintro ⟨start, n, rfl, hhas, _⟩
  rw [FolderMap.at?_some] at hat
  rw [FolderMap.has, hat] at hhas
  cases hhas

theorem onWay_iff {parentId : Option String} (hat : m.at? parentId = some folder) (id : String) :
    OnWay m parentId id ↔ id = folder.id ∨ OnWay m folder.parentId id := by
  obtain ⟨rfl, hmem⟩ := get_of_at? hat
  constructor
  · rintro ⟨start, n, hstart, _, hclimbs⟩
    cases hstart
    cases hclimbs with
    | here => exact .inl rfl
    | link hup rest =>
        obtain ⟨⟨other, hother, hid, hparent⟩, hhas⟩ := FolderMap.up_eq_some_iff.mp hup
        rw [FolderMap.eq_of_id hother hmem hid] at hparent
        exact .inr ⟨_, _, hparent, hhas, rest⟩
  · rintro (rfl | ⟨start, n, hparent, hhas, hclimbs⟩)
    · exact ⟨folder.id, 0, rfl, has_of_mem hmem, .here _⟩
    · have hup : m.up folder.id = some start :=
        FolderMap.up_eq_some_iff.mpr ⟨⟨folder, hmem, rfl, hparent⟩, hhas⟩
      exact ⟨folder.id, n + 1, rfl, has_of_mem hmem, .link hup hclimbs⟩

theorem Store.setMetadata_self (s : Store) (id : String) (metadata : FolderMetadata) :
    (s.setMetadata id metadata).metadata id = metadata := if_pos rfl

theorem Store.setMetadata_other (s : Store) {other : String} (hne : other ≠ id)
    (metadata : FolderMetadata) : (s.setMetadata id metadata).metadata other = s.metadata other :=
  if_neg hne

def Refreshed (count : FolderMetadata → Nat) (value : String → Nat) (parentId : Option String)
    (s s' : Store) (id : String) : Prop :=
  count (s'.metadata id) = value id ∨
    (¬OnWay s.folders parentId id ∧ count (s'.metadata id) = count (s.metadata id))

variable {count : FolderMetadata → Nat} {value : String → Nat} {parentId : Option String}

theorem refreshed_end (hat : s.folders.at? parentId = none) (id : String) :
    Refreshed count value parentId s s id := .inr ⟨not_onWay hat id, rfl⟩

theorem refreshed_up (hat : s.folders.at? parentId = some folder) {metadata : FolderMetadata}
    (hvalue : count metadata = value folder.id)
    (h : Refreshed count value folder.parentId (s.setMetadata folder.id metadata) s' id) :
    Refreshed count value parentId s s' id := by
  rcases h with hdone | ⟨hnot, hsame⟩
  · exact .inl hdone
  · rcases eq_or_ne id folder.id with rfl | hne
    · apply Or.inl
      rw [hsame, ← hvalue, Store.setMetadata_self]
    · refine .inr ⟨?_, ?_⟩
      · rw [onWay_iff hat]
        exact fun h => h.elim hne hnot
      · rw [hsame, Store.setMetadata_other s hne]

theorem count_setMetadata (count : FolderMetadata → Nat) (metadata : FolderMetadata)
    (h : count metadata = count (s.metadata id)) (other : String) :
    count ((s.setMetadata id metadata).metadata other) = count (s.metadata other) := by
  rcases eq_or_ne other id with rfl | hne
  · rw [Store.setMetadata_self, h]
  · rw [Store.setMetadata_other s hne]

theorem updateWorkflowCounts_spec (h : updateWorkflowCounts fuel parentId s = some s')
    (id : String) :
    Refreshed (·.workflowCount) (countIn s.associations) parentId s s' id ∧
      (s'.metadata id).descendantCount = (s.metadata id).descendantCount := by
  induction fuel generalizing parentId s with
  | zero => cases h
  | succ fuel ih =>
      unfold updateWorkflowCounts at h
      cases hat : s.folders.at? parentId with
      | none =>
          rw [hat] at h
          cases h
          exact ⟨refreshed_end hat id, rfl⟩
      | some folder =>
          rw [hat] at h
          obtain ⟨hwalk, hsame⟩ := ih h
          refine ⟨refreshed_up hat rfl hwalk, hsame.trans ?_⟩
          exact count_setMetadata (·.descendantCount) _ (by rfl) id

theorem updateDescendantCounts_spec (hranked : Ranked s.folders.up)
    (h : updateDescendantCounts fuel parentId s = some s') (id : String) :
    Refreshed (·.descendantCount) (fun id => (Below s.folders id).ncard) parentId s s' id ∧
      (s'.metadata id).workflowCount = (s.metadata id).workflowCount := by
  induction fuel generalizing parentId s with
  | zero => cases h
  | succ fuel ih =>
      unfold updateDescendantCounts at h
      cases hat : s.folders.at? parentId with
      | none =>
          rw [hat] at h
          cases h
          exact ⟨refreshed_end hat id, rfl⟩
      | some folder =>
          rw [hat] at h
          simp only [Option.bind_eq_bind, Option.bind_eq_some_iff] at h
          obtain ⟨descendants, hdescendants, h⟩ := h
          have hmem := (get_of_at? hat).2
          have hlength := length_descendants hranked (has_of_mem hmem) hdescendants
          have hranked' : Ranked (s.setMetadata folder.id
            { s.metadata folder.id with
              descendantCount := descendants.length }).folders.up := hranked
          obtain ⟨hwalk, hsame⟩ := ih hranked' h
          refine ⟨refreshed_up hat hlength hwalk, hsame.trans ?_⟩
          exact count_setMetadata (·.workflowCount) _ (by rfl) id

theorem lookup_of_forall₂ (R : String → FolderMetadata → Prop) {folders : List WorkflowFolder}
    {counts : List (String × FolderMetadata)}
    (h : List.Forall₂ (fun folder entry => entry.1 = folder.id ∧ R folder.id entry.2)
      folders counts) (hmem : folder ∈ folders) :
    ∃ metadata, counts.lookup folder.id = some metadata ∧ R folder.id metadata := by
  induction h with
  | nil => cases hmem
  | @cons first entry rest counts hentry _ ih =>
      obtain ⟨key, metadata⟩ := entry
      obtain ⟨rfl, hR⟩ := hentry
      rw [List.lookup_cons]
      rcases eq_or_ne folder.id first.id with heq | hne
      · rw [heq, beq_self_eq_true]
        exact ⟨metadata, rfl, hR⟩
      · rw [beq_false_of_ne hne]
        rcases List.mem_cons.mp hmem with rfl | hmem
        · exact absurd rfl hne
        · exact ih hmem

theorem recalculateAllCounts_spec (hranked : Ranked s.folders.up)
    (h : recalculateAllCounts fuel s = some s') (hid : s.folders.has id = true) :
    s'.metadata id = ⟨countIn s.associations id, (Below s.folders id).ncard⟩ := by
  simp only [recalculateAllCounts, Option.bind_eq_bind, Option.bind_eq_some_iff, Option.pure_def,
    Option.some.injEq, mapM_eq_some_iff] at h
  obtain ⟨counts, hcounts, rfl⟩ := h
  obtain ⟨folder, hmem, rfl⟩ := FolderMap.has_iff.mp hid
  obtain ⟨metadata, hlookup, hmetadata⟩ := lookup_of_forall₂
    (fun id metadata => s.folders.has id = true →
      metadata = ⟨countIn s.associations id, (Below s.folders id).ncard⟩)
    (hcounts.imp fun folder entry hentry => by
      obtain ⟨descendants, hdescendants, rfl⟩ := hentry
      refine ⟨rfl, fun hhas => ?_⟩
      rw [length_descendants hranked hhas hdescendants]) hmem
  change (counts.lookup folder.id).getD _ = _
  rw [hlookup, Option.getD_some, hmetadata hid]

end Walks

end Qontinui.Folders
