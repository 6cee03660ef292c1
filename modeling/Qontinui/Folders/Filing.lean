import Qontinui.Folders.Counts

/-!
Every filed workflow is in one folder that exists, and both counters of every folder are right.
Two operations can break it. A deletion may move the workflows to a folder that does not exist
or that is deleted along with them; and an import adds associations of folders that are not
there, or a second association of a workflow.
-/

namespace Qontinui.Folders

open ParentLinks

/-- The store as it should be, but for the second counter of some folders. -/
structure FiledBut (stale : String → Prop) (s : Store) : Prop where
  links : Linked s.folders
  once : (s.associations.map (·.workflowId)).Nodup
  existing : ∀ a ∈ s.associations, s.folders.has a.folderId = true
  workflowCount : ∀ id, s.folders.has id = true →
    (s.metadata id).workflowCount = countIn s.associations id
  descendantCount : ∀ id, s.folders.has id = true → ¬stale id →
    (s.metadata id).descendantCount = (Below s.folders id).ncard

/-- No workflow has two associations, every association is of a folder that exists, and the
counters are right. -/
abbrev Filed (s : Store) : Prop := FiledBut (fun _ => False) s

theorem Filed.empty : Filed .empty := by
  refine ⟨.empty, List.nodup_nil, nofun, fun id h => ?_, fun id h => ?_⟩
  · cases h
  · cases h

section Changes

variable {s s' : Store} {fuel : Nat}

theorem Filed.eq_of_workflow (h : Filed s) {a b : WorkflowFolderAssociation}
    (ha : a ∈ s.associations) (hb : b ∈ s.associations) (hid : a.workflowId = b.workflowId) :
    a = b := List.inj_on_of_nodup_map h.once ha hb hid

/-! ### Workflows -/

variable {folderId : String} {m : FolderMap}

theorem Filed.refile (h : Filed s) {associations : List WorkflowFolderAssociation}
    (hhas : s.folders.has folderId = true) (honce : (associations.map (·.workflowId)).Nodup)
    (hexisting : ∀ a ∈ associations, s.folders.has a.folderId = true)
    (hcount : ∀ id, id ≠ folderId → countIn associations id = countIn s.associations id)
    (hs' : updateWorkflowCounts fuel (some folderId) { s with associations := associations } =
      some s') : Filed s' ∧ s'.associations = associations := by
  have hspec := updateWorkflowCounts_spec hs'
  obtain ⟨metadata, rfl⟩ := updateWorkflowCounts_recounts hs'
  refine ⟨⟨h.links, honce, hexisting, fun id hid => ?_, fun id hid => ?_⟩, rfl⟩
  · rcases (hspec id).1 with hdone | ⟨hnot, hsame⟩
    · exact hdone
    · have hne : id ≠ folderId := by
        rintro rfl
        exact hnot ⟨id, 0, rfl, hhas, .here id⟩
      exact hsame.trans ((h.workflowCount id hid).trans (hcount id hne).symm)
  · exact fun hstale => (hspec id).2.trans (h.descendantCount id hid hstale)

variable {workflowId id : String} {result : Except String WorkflowFolder} {data : ImportExportData}

theorem removeWorkflowFromFolder_filed (h : Filed s)
    (hs' : removeWorkflowFromFolder fuel s workflowId = some s') :
    Filed s' ∧ ∀ a, a ∈ s'.associations ↔ a ∈ s.associations ∧ a.workflowId ≠ workflowId := by
  unfold removeWorkflowFromFolder at hs'
  cases hfind : s.associations.find? (·.workflowId == workflowId) with
  | none =>
      rw [hfind] at hs'
      cases hs'
      refine ⟨h, fun a => ⟨fun ha => ⟨ha, fun hid => ?_⟩, fun ha => ha.1⟩⟩
      exact List.find?_eq_none.mp hfind a ha (beq_iff_eq.mpr hid)
  | some association =>
      rw [hfind] at hs'
      obtain ⟨hid, front, back, hsplit, hfront⟩ := List.find?_eq_some_iff_append.mp hfind
      have herase : s.associations.eraseP (·.workflowId == workflowId) = front ++ back := by
        rw [hsplit, List.eraseP_append_right _ (by simpa using hfront), List.eraseP_cons, hid]
        rfl
      have hmem : association ∈ s.associations := List.mem_of_find?_eq_some hfind
      have hmap := h.once
      rw [hsplit, List.map_append, List.map_cons, List.nodup_middle, List.nodup_cons] at hmap
      rw [herase] at hs'
      have hsub : ∀ a, a ∈ front ++ back ↔ a ∈ s.associations ∧ a.workflowId ≠ workflowId := by
        intro a
        rw [beq_iff_eq] at hid
        rw [← hid, hsplit]
        simp only [List.mem_append, List.mem_cons]
        constructor
        · intro ha
          refine ⟨ha.imp_right .inr, fun heq => hmap.1 ?_⟩
          rw [← heq, ← List.map_append]
          exact List.mem_map_of_mem (List.mem_append.mpr ha)
        · rintro ⟨ha | rfl | ha, hne⟩
          · exact .inl ha
          · exact absurd rfl hne
          · exact .inr ha
      obtain ⟨hfiled, hassociations⟩ := h.refile (h.existing association hmem)
        (by rw [List.map_append]; exact hmap.2)
        (fun a ha => h.existing a ((hsub a).mp ha).1)
        (by
          intro id hne
          rw [hsplit]
          simp [countIn, beq_false_of_ne hne.symm]) hs'
      refine ⟨hfiled, fun a => ?_⟩
      rw [hassociations]
      exact hsub a

theorem pushAssociation_filed (h : Filed s) (hhas : s.folders.has folderId = true)
    (hfresh : ∀ a ∈ s.associations, a.workflowId ≠ workflowId)
    (hs' : pushAssociation fuel s workflowId folderId = some s') :
    Filed s' ∧ s'.associations = s.associations ++ [⟨workflowId, folderId⟩] := by
  apply h.refile hhas _ _ _ hs'
  · rw [List.map_append, List.nodup_append]
    refine ⟨h.once, List.nodup_singleton _, fun id hid other hother => ?_⟩
    obtain ⟨a, ha, rfl⟩ := List.mem_map.mp hid
    rw [List.mem_singleton.mp hother]
    exact hfresh a ha
  · intro a ha
    rcases List.mem_append.mp ha with ha | ha
    · exact h.existing a ha
    · rw [List.mem_singleton.mp ha]
      exact hhas
  · intro id hne
    simp [countIn, beq_false_of_ne hne.symm]

/-- A workflow that is added to a folder is in that folder alone. -/
theorem addWorkflowToFolder_filed (h : Filed s) {result : Except String Unit}
    (hs' : addWorkflowToFolder fuel s workflowId folderId = some (result, s')) :
    Filed s' ∧ ((s.folders.has folderId = false ∧ s' = s) ∨ ∀ a ∈ s'.associations,
      (a ∈ s.associations ∧ a.workflowId ≠ workflowId) ∨ a = ⟨workflowId, folderId⟩) := by
  unfold addWorkflowToFolder at hs'
  cases hhas : s.folders.has folderId with
  | false =>
      rw [hhas] at hs'
      cases hs'
      exact ⟨h, .inl ⟨rfl, rfl⟩⟩
  | true =>
      rw [hhas, Bool.not_true, if_neg Bool.false_ne_true] at hs'
      cases hfind : s.associations.find? (·.workflowId == workflowId) with
      | none =>
          rw [hfind] at hs'
          obtain ⟨pushed, hpushed, heq⟩ := Option.map_eq_some_iff.mp hs'
          cases heq
          have hfresh : ∀ a ∈ s.associations, a.workflowId ≠ workflowId := by
            intro a ha hid
            exact List.find?_eq_none.mp hfind a ha (beq_iff_eq.mpr hid)
          obtain ⟨hfiled, hassociations⟩ := pushAssociation_filed h hhas hfresh hpushed
          refine ⟨hfiled, .inr fun a ha => ?_⟩
          rw [hassociations] at ha
          rcases List.mem_append.mp ha with ha | ha
          · exact .inl ⟨ha, hfresh a ha⟩
          · exact .inr (List.mem_singleton.mp ha)
      | some existing =>
          rw [hfind] at hs'
          have hmem : existing ∈ s.associations := List.mem_of_find?_eq_some hfind
          have hid : existing.workflowId = workflowId := by simpa using List.find?_some hfind
          dsimp only at hs'
          split_ifs at hs' with hsame
          · cases hs'
            refine ⟨h, .inr fun a ha => ?_⟩
            rcases eq_or_ne a.workflowId workflowId with heq | hne
            · rw [h.eq_of_workflow ha hmem (heq.trans hid.symm), ← hid, ← hsame]
              exact .inr rfl
            · exact .inl ⟨ha, hne⟩
          · simp only [Option.bind_eq_bind, Option.bind_eq_some_iff, Option.map_eq_some_iff] at hs'
            obtain ⟨removed, hremoved, pushed, hpushed, heq⟩ := hs'
            cases heq
            obtain ⟨hfiled, hleft⟩ := removeWorkflowFromFolder_filed h hremoved
            have hfolders := (removeWorkflowFromFolder_refiles hremoved).folders
            rw [← hfolders] at hhas
            obtain ⟨hfiled, hassociations⟩ := pushAssociation_filed hfiled hhas
              (fun a ha => ((hleft a).mp ha).2) hpushed
            refine ⟨hfiled, .inr fun a ha => ?_⟩
            rw [hassociations] at ha
            rcases List.mem_append.mp ha with ha | ha
            · exact .inl ((hleft a).mp ha)
            · exact .inr (List.mem_singleton.mp ha)

/-! ### Folders -/

theorem below_eq {m' : FolderMap} (h : Ranked m.up) {x z : String}
    {oldParent newParent : Option String} (hother : ∀ y, y ≠ x → m'.up y = m.up y)
    (hold : ∀ p, m.up x = some p → oldParent = some p ∧ m'.has p = true)
    (hnew : ∀ p, m'.up x = some p → newParent = some p) (hnotold : ¬OnWay m' oldParent z)
    (hnotnew : ¬OnWay m' newParent z) : Below m' z = Below m z := by
  ext y
  apply h.below_iff hother
  · intro p n hup hclimbs
    obtain ⟨hparent, hhas⟩ := hold p hup
    exact hnotold ⟨p, n, hparent, hhas, hclimbs⟩
  · intro p n hup hclimbs
    have hhas := (FolderMap.up_eq_some_iff.mp hup).2
    exact hnotnew ⟨p, n, hnew p hup, hhas, hclimbs⟩

theorem not_onWay_none (id : String) : ¬OnWay m none id := not_onWay rfl id

theorem parentId_of_up {folder : WorkflowFolder} (hmem : folder ∈ m) {p : String}
    (hup : m.up folder.id = some p) : folder.parentId = some p := by
  obtain ⟨hparent, hhas⟩ := orNull_of_up hmem hup
  exact (orNull_some (ne_empty_of_has hhas)).mp hparent

theorem FiledBut.walk {stale : String → Prop} {parentId : Option String}
    (h : FiledBut (fun id => stale id ∨ OnWay s.folders parentId id) s)
    (hs' : updateDescendantCounts fuel parentId s = some s') : FiledBut stale s' := by
  have hspec := updateDescendantCounts_spec h.links.ranked hs'
  obtain ⟨metadata, rfl⟩ := updateDescendantCounts_recounts hs'
  refine ⟨h.links, h.once, h.existing, fun id hid => ?_, fun id hid hstale => ?_⟩
  · exact (hspec id).2.trans (h.workflowCount id hid)
  · rcases (hspec id).1 with hdone | ⟨hnot, hsame⟩
    · exact hdone
    · exact hsame.trans (h.descendantCount id hid fun hor => hor.elim hstale hnot)

theorem createFolder_filed (h : Filed s) {suffix : String} {options : CreateFolderOptions}
    (hfresh : s.folders.has (generateId suffix) = false)
    (hcreate : createFolder fuel s suffix options = some (result, s')) :
    Filed s' ∧ s'.exports = s.exports := by
  rcases createFolder_cases hcreate with rfl |
    ⟨folder, hnamed, depth, hid, hnull, hhas, hdepth, hlt, hs'⟩
  · exact ⟨h, rfl⟩
  · refine ⟨FiledBut.walk ?_ hs', (updateDescendantCounts_recounts hs').exports⟩
    rw [← hid] at hfresh
    have hself : folder ∈ s.folders.set folder hnamed := FolderMap.mem_set.mpr (.inl rfl)
    have hmetadata : ∀ id, id ≠ folder.id →
        (s.setMetadata folder.id {}).metadata id = s.metadata id :=
      fun id hne => s.setMetadata_other hne _
    constructor
    · exact h.links.set folder hnamed hhas fun p hp => Linked.outside_of_fresh hfresh (hhas p hp)
    · exact h.once
    · intro a ha
      change (s.folders.set folder hnamed).has a.folderId = true
      exact FolderMap.has_set.mpr (.inr (h.existing a ha))
    · intro id hmem
      replace hmem : (s.folders.set folder hnamed).has id = true := hmem
      change ((s.setMetadata folder.id {}).metadata id).workflowCount = countIn s.associations id
      rcases eq_or_ne id folder.id with rfl | hne
      · rw [Store.setMetadata_self]
        apply Eq.symm
        apply List.countP_eq_zero.mpr
        intro a ha hfolder
        rw [← beq_iff_eq.mp hfolder, h.existing a ha] at hfresh
        cases hfresh
      · rw [hmetadata id hne]
        exact h.workflowCount id ((FolderMap.has_set.mp hmem).resolve_left hne)
    · intro id hmem hstale
      replace hmem : (s.folders.set folder hnamed).has id = true := hmem
      have hbelow : Below (s.folders.set folder hnamed) id = Below s.folders id := by
        apply below_eq h.links.ranked (fun y hy => h.links.up_set_other hy) _ _
          (not_onWay_none id) (fun hway => hstale (.inr hway))
        · intro p hup
          rw [has_of_up hup] at hfresh
          cases hfresh
        · exact fun p hup => parentId_of_up hself hup
      change ((s.setMetadata folder.id {}).metadata id).descendantCount =
        (Below (s.folders.set folder hnamed) id).ncard
      rw [hbelow]
      rcases eq_or_ne id folder.id with rfl | hne
      · rw [Store.setMetadata_self, below_of_fresh hfresh, Set.ncard_empty]
      · rw [hmetadata id hne]
        exact h.descendantCount id ((FolderMap.has_set.mp hmem).resolve_left hne) nofun

theorem updateFolder_filed (h : Filed s) {updates : UpdateFolderOptions}
    (hupdate : updateFolder fuel s id updates = some (result, s')) :
    Filed s' ∧ s'.exports = s.exports := by
  rcases updateFolder_cases hupdate with rfl | ⟨folder, hnamed, hget, herror, hwrite⟩
  · exact ⟨h, rfl⟩
  · refine ⟨?_, (writeUpdate_recounts hwrite).exports⟩
    obtain ⟨hmem, _⟩ := FolderMap.get_eq_some_iff.mp hget
    have hself : updatedFolder folder updates ∈
        s.folders.set (updatedFolder folder updates) hnamed := FolderMap.mem_set.mpr (.inl rfl)
    have hlinks : Linked (s.folders.set (updatedFolder folder updates) hnamed) := by
      rcases updateError_none herror with hsame | hmove
      · apply h.links.set (updatedFolder folder updates) hnamed
        · rw [hsame]
          exact h.links.parents folder hmem
        · rw [hsame]
          intro p hp n hclimbs
          exact h.links.ranked.no_cycle (hclimbs.trans (.single (h.links.up_of_parent hmem hp)))
      · exact h.links.set (updatedFolder folder updates) hnamed hmove.has fun p hp =>
          hmove.outside p hp (has_of_mem hmem)
    have hhas : ∀ other, (s.folders.set (updatedFolder folder updates) hnamed).has other = true ↔
        s.folders.has other = true := by
      intro other
      constructor
      · intro hother
        rcases FolderMap.has_set.mp hother with heq | hother
        · rw [heq]
          exact FolderMap.has_iff.mpr ⟨folder, hmem, rfl⟩
        · exact hother
      · exact fun hother => FolderMap.has_set.mpr (.inr hother)
    have hstored : ∀ stale : String → Prop, (∀ other, ¬stale other →
        Below (s.folders.set (updatedFolder folder updates) hnamed) other =
          Below s.folders other) →
        FiledBut stale
          { s with folders := s.folders.set (updatedFolder folder updates) hnamed } := by
      intro stale hbelow
      refine ⟨hlinks, h.once, fun a ha => (hhas _).mpr (h.existing a ha), ?_, ?_⟩
      · exact fun other hother => h.workflowCount other ((hhas other).mp hother)
      · intro other hother hstale
        change _ = (Below (s.folders.set (updatedFolder folder updates) hnamed) other).ncard
        rw [hbelow other hstale]
        exact h.descendantCount other ((hhas other).mp hother) nofun
    have hold : ∀ p, s.folders.up folder.id = some p → folder.parentId = some p ∧
        (s.folders.set (updatedFolder folder updates) hnamed).has p = true :=
      fun p hup => ⟨parentId_of_up hmem hup,
        (hhas p).mpr (FolderMap.up_eq_some_iff.mp hup).2⟩
    rcases writeUpdate_cases hwrite with ⟨hsame, rfl⟩ | ⟨counted, hcounted, hs'⟩
    · apply hstored
      intro other _
      have hup : (s.folders.set (updatedFolder folder updates) hnamed).up = s.folders.up := by
        funext y
        rcases eq_or_ne y folder.id with rfl | hne
        · exact (hlinks.up_eq_orNull hself).trans
            ((congrArg orNull hsame.symm).trans (h.links.up_eq_orNull hmem).symm)
        · exact h.links.up_set_other hne
      rw [Below, hup, Below]
    · apply FiledBut.walk _ hs'
      have hfolders := (updateDescendantCounts_recounts hcounted).folders
      rw [hfolders]
      apply FiledBut.walk _ hcounted
      apply hstored
      intro other hstale
      apply below_eq h.links.ranked (fun y hy => h.links.up_set_other hy) hold
        (fun p hup => parentId_of_up hself hup)
      · exact fun hway => hstale (.inr hway)
      · exact fun hway => hstale (.inl (.inr hway))

theorem Filed.delete (h : Filed s) {id : String} {parentId : Option String}
    (hleaf : ∀ folder ∈ s.folders, folder.parentId ≠ some id)
    (hempty : ∀ a ∈ s.associations, a.folderId ≠ id)
    (hparent : ∀ p, s.folders.up id = some p → parentId = some p)
    (hs' : updateDescendantCounts fuel parentId { s with folders := s.folders.delete id } =
      some s') : Filed s' := by
  apply FiledBut.walk _ hs'
  constructor
  · exact h.links.delete hleaf
  · exact h.once
  · exact fun a ha => FolderMap.has_delete.mpr ⟨h.existing a ha, hempty a ha⟩
  · exact fun other hother => h.workflowCount other (FolderMap.has_delete.mp hother).1
  · intro other hother hstale
    have hbelow : Below (s.folders.delete id) other = Below s.folders other := by
      apply below_eq h.links.ranked (fun y hy => h.links.up_delete_other hleaf hy) _ _
        (fun hway => hstale (.inr hway)) (not_onWay_none other)
      · intro p hup
        refine ⟨hparent p hup, FolderMap.has_delete.mpr
          ⟨(FolderMap.up_eq_some_iff.mp hup).2, ?_⟩⟩
        rintro rfl
        exact h.links.ranked.no_cycle (.single hup)
      · intro p hup
        rw [Linked.up_delete_self] at hup
        cases hup
    change _ = (Below (s.folders.delete id) other).ncard
    rw [hbelow]
    exact h.descendantCount other (FolderMap.has_delete.mp hother).1 nofun

/-! ### Deletion -/

/-- What a deletion changes while it empties the `doomed` folders: it adds no association of
one of them, no folder, and leaves the others. -/
structure Emptying (doomed : String → Prop) (s s' : Store) : Prop where
  associations : ∀ a ∈ s'.associations, a ∈ s.associations ∨ ¬doomed a.folderId
  folders : ∀ folder ∈ s'.folders, folder ∈ s.folders
  others : ∀ id, s.folders.has id = true → ¬doomed id → s'.folders.has id = true
  exports : s'.exports = s.exports

namespace Emptying

variable {doomed : String → Prop} {s'' : Store}

theorem refl (s : Store) : Emptying doomed s s :=
  ⟨fun _ ha => .inl ha, fun _ hmem => hmem, fun _ hid _ => hid, rfl⟩

theorem trans (h : Emptying doomed s s') (h' : Emptying doomed s' s'') : Emptying doomed s s'' where
  associations a ha := (h'.associations a ha).elim (h.associations a) .inr
  folders folder hmem := h.folders folder (h'.folders folder hmem)
  others id hid hnot := h'.others id (h.others id hid hnot) hnot
  exports := h'.exports.trans h.exports

theorem stays_empty (h : Emptying doomed s s') {id : String} (hid : doomed id)
    (hempty : ∀ a ∈ s.associations, a.folderId ≠ id) : ∀ a ∈ s'.associations, a.folderId ≠ id := by
  rintro a ha rfl
  rcases h.associations a ha with ha | hnot
  · exact hempty a ha rfl
  · exact hnot hid

end Emptying

/-- Folders that a deletion may empty: all that lies in one is doomed too, and either there is
no workflow in any, or the workflows go to a folder that stays. -/
structure Doomed (doomed : String → Prop) (target : Option String) (s : Store) : Prop where
  closed : ∀ folder ∈ s.folders, ∀ p, folder.parentId = some p → doomed p → doomed folder.id
  safe : (∀ a ∈ s.associations, ¬doomed a.folderId) ∨
    ∀ t, target = some t → s.folders.has t = true ∧ ¬doomed t

variable {doomed : String → Prop} {target : Option String}

theorem Doomed.after (h : Doomed doomed target s) (hempties : Emptying doomed s s') :
    Doomed doomed target s' := by
  constructor
  · exact fun folder hmem => h.closed folder (hempties.folders folder hmem)
  · rcases h.safe with hnone | hsafe
    · exact .inl fun a ha => (hempties.associations a ha).elim (hnone a) id
    · refine .inr fun t ht => ?_
      obtain ⟨hhas, hnot⟩ := hsafe t ht
      exact ⟨hempties.others t hhas hnot, hnot⟩

theorem Refiled.empties (h : Refiled s s')
    (hassociations : ∀ a ∈ s'.associations, a ∈ s.associations ∨ ¬doomed a.folderId) :
    Emptying doomed s s' := by
  refine ⟨hassociations, ?_, ?_, h.exports⟩
  · rw [h.folders]
    exact fun _ hmem => hmem
  · rw [h.folders]
    exact fun _ hid _ => hid

theorem takeOut_filed (h : Filed s)
    (htarget : ∀ t, target = some t → s.folders.has t = true ∧ ¬doomed t)
    (hs' : takeOut fuel target s workflowId = some s') :
    Filed s' ∧ Emptying doomed s s' ∧
      ∀ a ∈ s'.associations, a.workflowId = workflowId → ¬doomed a.folderId := by
  have hrefiled := takeOut_refiles hs'
  unfold takeOut at hs'
  cases target with
  | none =>
      obtain ⟨hfiled, hleft⟩ := removeWorkflowFromFolder_filed h hs'
      refine ⟨hfiled, hrefiled.empties fun a ha => .inl ((hleft a).mp ha).1, ?_⟩
      exact fun a ha hid => absurd hid ((hleft a).mp ha).2
  | some t =>
      obtain ⟨⟨result, stored⟩, hadd, rfl⟩ := Option.map_eq_some_iff.mp hs'
      obtain ⟨hhas, hnot⟩ := htarget t rfl
      obtain ⟨hfiled, ⟨hmissing, _⟩ | hleft⟩ := addWorkflowToFolder_filed h hadd
      · cases hhas.symm.trans hmissing
      · refine ⟨hfiled, hrefiled.empties fun a ha => ?_, fun a ha hid => ?_⟩
        · rcases hleft a ha with ⟨ha, _⟩ | rfl
          · exact .inl ha
          · exact .inr hnot
        · rcases hleft a ha with ⟨_, hne⟩ | rfl
          · exact absurd hid hne
          · exact hnot

theorem takeOut_all_filed {workflowIds : List String} (h : Filed s)
    (htarget : ∀ t, target = some t → s.folders.has t = true ∧ ¬doomed t)
    (hs' : workflowIds.foldlM (takeOut fuel target) s = some s') :
    Filed s' ∧ Emptying doomed s s' ∧
      ∀ a ∈ s'.associations, a.workflowId ∈ workflowIds → ¬doomed a.folderId := by
  induction workflowIds generalizing s with
  | nil =>
      cases hs'
      exact ⟨h, .refl _, fun a _ hid => nomatch hid⟩
  | cons workflowId rest ih =>
      simp only [List.foldlM_cons, Option.bind_eq_bind, Option.bind_eq_some_iff] at hs'
      obtain ⟨taken, htaken, hs'⟩ := hs'
      obtain ⟨hfiled, hempties, hgone⟩ := takeOut_filed h htarget htaken
      obtain ⟨hfiled', hempties', hgone'⟩ := ih hfiled
        (fun t ht => ⟨hempties.others t (htarget t ht).1 (htarget t ht).2, (htarget t ht).2⟩) hs'
      refine ⟨hfiled', hempties.trans hempties', fun a ha hid => ?_⟩
      rcases List.mem_cons.mp hid with hid | hid
      · rcases hempties'.associations a ha with ha | hnot
        · exact hgone a ha hid
        · exact hnot
      · exact hgone' a ha hid

theorem mem_getWorkflowsInFolder :
    workflowId ∈ getWorkflowsInFolder s id ↔
      ∃ a ∈ s.associations, a.folderId = id ∧ a.workflowId = workflowId := by
  rw [getWorkflowsInFolder, List.mem_eraseDups, List.mem_map]
  simp only [List.mem_filter, beq_iff_eq, and_assoc]

theorem emptied_filed (h : Filed s) (hdoomed : Doomed doomed target s) (hid : doomed id)
    (hs' : (getWorkflowsInFolder s id).foldlM (takeOut fuel target) s = some s') :
    Filed s' ∧ Emptying doomed s s' ∧ ∀ a ∈ s'.associations, a.folderId ≠ id := by
  rcases hdoomed.safe with hnone | htarget
  · have hno : getWorkflowsInFolder s id = [] := by
      apply List.eq_nil_iff_forall_not_mem.mpr
      intro workflowId hmem
      obtain ⟨a, ha, rfl, _⟩ := mem_getWorkflowsInFolder.mp hmem
      exact hnone a ha hid
    rw [hno] at hs'
    cases hs'
    refine ⟨h, .refl _, ?_⟩
    rintro a ha rfl
    exact hnone a ha hid
  · obtain ⟨hfiled, hempties, hgone⟩ := takeOut_all_filed h htarget hs'
    refine ⟨hfiled, hempties, ?_⟩
    rintro a ha rfl
    rcases hempties.associations a ha with hold | hnot
    · exact hgone a ha (mem_getWorkflowsInFolder.mpr ⟨a, hold, rfl, rfl⟩) hid
    · exact hnot hid

/-- A deletion of a doomed folder. -/
theorem deleteFolder_filed {recursive : Bool} (h : Filed s) (hdoomed : Doomed doomed target s)
    (hid : doomed id) (hdelete : deleteFolder fuel s id recursive target = some (result, s')) :
    Filed s' ∧ Emptying doomed s s' ∧ (recursive = true → s'.folders.has id = false) := by
  induction fuel generalizing s s' id recursive result with
  | zero => cases hdelete
  | succ fuel ih =>
      have hchildren : ∀ (children : List WorkflowFolder) {s s' : Store}, Filed s →
          Doomed doomed target s → (∀ child ∈ children, doomed child.id) →
          deleteChildren fuel target children s = some s' →
          Filed s' ∧ Emptying doomed s s' ∧ ∀ child ∈ children, child ∉ s'.folders := by
        intro children
        induction children with
        | nil =>
            intro s s' h _ _ hloop
            cases hloop
            exact ⟨h, .refl _, nofun⟩
        | cons child rest ihrest =>
            intro s s' h hdoomed hall hloop
            obtain ⟨result, next, hfirst, hloop⟩ := deleteChildren_cons.mp hloop
            obtain ⟨hnext, hempties, hgone⟩ := ih h hdoomed (hall child List.mem_cons_self) hfirst
            obtain ⟨hs', hempties', hgone'⟩ := ihrest hnext (hdoomed.after hempties)
              (fun other hother => hall other (List.mem_cons_of_mem _ hother)) hloop
            refine ⟨hs', hempties.trans hempties', ?_⟩
            intro other hother hmem
            rcases List.mem_cons.mp hother with rfl | hother
            · cases (has_of_mem (hempties'.folders other hmem)).symm.trans (hgone rfl)
            · exact hgone' other hother hmem
      rcases deleteFolder_cases hdelete with ⟨rfl, hrefused⟩ |
        ⟨folder, emptied, cleared, hget, _, hemptied, hcleared, hcounted⟩
      · refine ⟨h, .refl _, fun hrecursive => ?_⟩
        apply Bool.eq_false_iff.mpr
        intro hhas
        cases hrecursive.symm.trans (hrefused hhas).2
      · obtain ⟨hmem, hfolderId⟩ := FolderMap.get_eq_some_iff.mp hget
        obtain ⟨hfiled, hempties, hnone⟩ := emptied_filed h hdoomed hid hemptied
        obtain ⟨hfiled', hempties', hgone⟩ := hchildren _ hfiled (hdoomed.after hempties)
          (fun child hchild => by
            obtain ⟨hchildmem, hparent⟩ := mem_getChildren.mp hchild
            exact hdoomed.closed child hchildmem id hparent hid) hcleared
        have hcleared := hempties.trans hempties'
        have hrecounted := updateDescendantCounts_recounts hcounted
        refine ⟨?_, ?_, ?_⟩
        · apply hfiled'.delete _ (hempties'.stays_empty hid hnone) _ hcounted
          · intro other hother hparent
            exact hgone other
              (mem_getChildren.mpr ⟨hcleared.folders other hother, hparent⟩) hother
          · intro p hup
            obtain ⟨⟨other, hother, hotherId, hparent⟩, _⟩ := FolderMap.up_eq_some_iff.mp hup
            rw [FolderMap.eq_of_id hmem (hcleared.folders other hother)
              (hfolderId.trans hotherId.symm)]
            exact hparent
        · apply hcleared.trans
          have hfolders : s'.folders = cleared.folders.delete id := hrecounted.folders
          refine ⟨?_, ?_, ?_, hrecounted.exports⟩
          · rw [hrecounted.associations]
            exact fun a ha => .inl ha
          · rw [hfolders]
            exact fun other hother => (FolderMap.mem_delete.mp hother).1
          · rw [hfolders]
            intro other hother hnot
            refine FolderMap.has_delete.mpr ⟨hother, ?_⟩
            rintro rfl
            exact hnot hid
        · intro _
          have hfolders : s'.folders = cleared.folders.delete id := hrecounted.folders
          rw [hfolders]
          apply Bool.eq_false_iff.mpr
          intro hhas
          exact (FolderMap.has_delete.mp hhas).2 rfl

/-! ### Imports -/

theorem importAssociations_spec (start data : List WorkflowFolderAssociation)
    (honce : (start.map (·.workflowId)).Nodup) (hdata : (data.map (·.workflowId)).Nodup)
    (hagree : ∀ a ∈ start, ∀ b ∈ data, a.workflowId = b.workflowId → a.folderId = b.folderId) :
    ((importAssociations start data).map (·.workflowId)).Nodup ∧
      ∀ a ∈ importAssociations start data, a ∈ start ∨ a ∈ data := by
  induction data generalizing start with
  | nil => exact ⟨honce, fun a ha => .inl ha⟩
  | cons b rest ih =>
      rw [List.map_cons, List.nodup_cons] at hdata
      rw [importAssociations, List.foldl_cons]
      cases hcontains : start.contains b with
      | true =>
          obtain ⟨hnodup, hmem⟩ := ih start honce hdata.2
            fun a ha c hc => hagree a ha c (List.mem_cons_of_mem _ hc)
          exact ⟨hnodup, fun a ha => (hmem a ha).imp_right (List.mem_cons_of_mem _)⟩
      | false =>
          have hnew : ∀ a ∈ start, a.workflowId ≠ b.workflowId := by
            intro a ha hid
            have heq : a = b := by
              cases a
              cases b
              cases hid
              cases hagree _ ha _ List.mem_cons_self rfl
              rfl
            rw [← heq, List.contains_iff_mem.mpr ha] at hcontains
            cases hcontains
          have honce' : ((start ++ [b]).map (·.workflowId)).Nodup := by
            rw [List.map_append, List.nodup_append]
            refine ⟨honce, List.nodup_singleton _, fun id hid other hother => ?_⟩
            obtain ⟨a, ha, rfl⟩ := List.mem_map.mp hid
            rw [List.mem_singleton.mp hother]
            exact hnew a ha
          obtain ⟨hnodup, hmem⟩ := ih _ honce' hdata.2 (by
            intro a ha c hc hid
            rcases List.mem_append.mp ha with ha | ha
            · exact hagree a ha c (List.mem_cons_of_mem _ hc) hid
            · rw [List.mem_singleton.mp ha] at hid
              exact absurd (List.mem_map.mpr ⟨c, hc, hid.symm⟩) hdata.1)
          refine ⟨hnodup, fun a ha => ?_⟩
          rcases hmem a ha with ha | ha
          · rcases List.mem_append.mp ha with ha | ha
            · exact .inl ha
            · exact .inr (List.mem_cons.mpr (.inl (List.mem_singleton.mp ha)))
          · exact .inr (List.mem_cons_of_mem _ ha)

/-- Exported data, whose associations are each of another workflow. -/
structure ImportExportData.Sound (data : ImportExportData) : Prop where
  links : Linked data.folders
  once : ∀ associations, data.associations = .detached associations →
    (associations.map (·.workflowId)).Nodup

theorem content_once (h : Filed s) (hdata : data.Sound) :
    ((data.associations.content s).map (·.workflowId)).Nodup := by
  cases hcontent : data.associations with
  | live => exact h.once
  | detached associations => exact hdata.once associations hcontent

theorem detach_sound (h : Filed s) (hdata : data.Sound) : (detach s data).Sound := by
  refine ⟨hdata.links, fun associations heq => ?_⟩
  cases heq
  exact content_once h hdata

theorem recalculated_filed (links : Linked s.folders)
    (honce : (s.associations.map (·.workflowId)).Nodup)
    (hexisting : ∀ a ∈ s.associations, s.folders.has a.folderId = true)
    (hs' : recalculateAllCounts fuel s = some s') : Filed s' := by
  have hspec : ∀ id, s.folders.has id = true → s'.metadata id = _ :=
    fun id hid => recalculateAllCounts_spec links.ranked hs' hid
  obtain ⟨metadata, rfl⟩ := recalculateAllCounts_recounts hs'
  refine ⟨links, honce, hexisting, fun id hid => ?_, fun id hid _ => ?_⟩
  · exact congrArg FolderMetadata.workflowCount (hspec id hid)
  · exact congrArg FolderMetadata.descendantCount (hspec id hid)

/-! ### Runs -/

/-- The condition on an operation. Where a deletion is not refused, the workflows are taken
out, or there are none in the deleted folders, or they go to a folder that exists and stays.
An import has associations of folders that are there afterwards, and a merging one has no
workflow that is in another folder already. -/
def Operation.KeepsFiles (s : Store) : Operation → Prop
  | .deleteFolder id recursive target => s.folders.has id = true →
      (getChildren s.folders (some id) = [] ∨ recursive = true) →
      target = none ∨ (∀ a ∈ s.associations, ∀ n, ¬Climbs s.folders.up n a.folderId id) ∨
        ∃ t, target = some t ∧ s.folders.has t = true ∧ ∀ n, ¬Climbs s.folders.up n t id
  | .importFolders data merge =>
      (∀ a ∈ data.associations.content s, data.folders.has a.folderId = true ∨
        (merge = true ∧ s.folders.has a.folderId = true)) ∧
      (merge = true → ∀ a ∈ s.associations, ∀ b ∈ data.associations.content s,
        a.workflowId = b.workflowId → a.folderId = b.folderId)
  | _ => True

theorem deleteFolder_keeps (h : Filed s) {recursive : Bool}
    (hkeeps : (Operation.deleteFolder id recursive target).KeepsFiles s)
    (hdelete : deleteFolder fuel s id recursive target = some (result, s')) :
    Filed s' ∧ s'.exports = s.exports := by
  cases fuel with
  | zero => cases hdelete
  | succ fuel =>
      rcases deleteFolder_cases hdelete with ⟨rfl, _⟩ |
        ⟨folder, _, _, hget, hallowed, _⟩
      · exact ⟨h, rfl⟩
      · obtain ⟨hmem, rfl⟩ := FolderMap.get_eq_some_iff.mp hget
        have hdoomed : Doomed (fun y => ∃ n, Climbs s.folders.up n y folder.id) target s := by
          constructor
          · rintro other hother p hparent ⟨n, hclimbs⟩
            have hhas : s.folders.has p = true := by
              cases n with
              | zero =>
                  rw [hclimbs.zero_eq]
                  exact has_of_mem hmem
              | succ n => exact has_of_climbs hclimbs
            have hup : s.folders.up other.id = some p :=
              FolderMap.up_eq_some_iff.mpr ⟨⟨other, hother, rfl, hparent⟩, hhas⟩
            exact ⟨n + 1, .link hup hclimbs⟩
          · rcases hkeeps (has_of_mem hmem) hallowed with rfl | hnone | ⟨t, rfl, hhas, hnot⟩
            · exact .inr nofun
            · exact .inl fun a ha hclimbs => hclimbs.elim (hnone a ha)
            · refine .inr fun t' ht' => ?_
              cases ht'
              exact ⟨hhas, fun hclimbs => hclimbs.elim hnot⟩
        obtain ⟨hfiled, hempties, _⟩ := deleteFolder_filed h hdoomed ⟨0, .here _⟩ hdelete
        exact ⟨hfiled, hempties.exports⟩

theorem importFolders_keeps (h : Filed s) (hexports : ∀ data ∈ s.exports, data.Sound) {merge : Bool}
    (hdata : data ∈ s.exports) (hkeeps : (Operation.importFolders data merge).KeepsFiles s)
    (himport : importFolders fuel s data merge = some s') :
    Filed s' ∧ ∀ data ∈ s'.exports, data.Sound := by
  have hrecounted := recalculateAllCounts_recounts himport
  have hsound := hexports data hdata
  have honce := content_once h hsound
  obtain ⟨hthere, hagree⟩ := hkeeps
  cases merge with
  | true =>
      obtain ⟨hnodup, hmem⟩ := importAssociations_spec _ _ h.once honce (hagree rfl)
      refine ⟨recalculated_filed (h.links.merge hsound.links) hnodup ?_ himport, ?_⟩
      · intro a ha
        apply has_merge.mpr
        rcases hmem a ha with ha | ha
        · exact .inl (h.existing a ha)
        · exact (hthere a ha).elim .inr fun hold => .inl hold.2
      · have hsame : s'.exports = s.exports := hrecounted.exports
        rw [hsame]
        exact hexports
  | false =>
      obtain ⟨hnodup, hmem⟩ := importAssociations_spec [] _ List.nodup_nil honce nofun
      have hlinks : Linked (importFolderList false .empty data.folders) :=
        hsound.links.congr fun _ => mem_replace
      refine ⟨recalculated_filed hlinks hnodup ?_ himport, ?_⟩
      · intro a ha
        rcases hmem a ha with ha | ha
        · cases ha
        · rcases hthere a ha with hhas | ⟨hmerge, _⟩
          · obtain ⟨folder, hfolder, hid⟩ := FolderMap.has_iff.mp hhas
            exact FolderMap.has_iff.mpr ⟨folder, mem_replace.mpr hfolder, hid⟩
          · cases hmerge
      · have hsame : s'.exports = s.exports.map (detach s) := hrecounted.exports
        rw [hsame]
        intro other hother
        obtain ⟨old, hold, rfl⟩ := List.mem_map.mp hother
        exact detach_sound h (hexports old hold)

/-- Each operation that meets the condition keeps the workflows filed. -/
theorem perform_filed {op : Operation} (h : Filed s) (hexports : ∀ data ∈ s.exports, data.Sound)
    (hgiven : op.Given s) (hkeeps : op.KeepsFiles s) (hs' : perform fuel s op = some s') :
    Filed s' ∧ ∀ data ∈ s'.exports, data.Sound := by
  have hsame : Filed s' ∧ s'.exports = s.exports → Filed s' ∧ ∀ data ∈ s'.exports, data.Sound :=
    fun hsame => ⟨hsame.1, hsame.2 ▸ hexports⟩
  cases op with
  | createFolder suffix options =>
      obtain ⟨⟨result, stored⟩, hcreate, rfl⟩ := Option.map_eq_some_iff.mp hs'
      exact hsame (createFolder_filed h hgiven hcreate)
  | updateFolder id updates =>
      obtain ⟨⟨result, stored⟩, hupdate, rfl⟩ := Option.map_eq_some_iff.mp hs'
      exact hsame (updateFolder_filed h hupdate)
  | moveFolder folderId newParentId =>
      obtain ⟨⟨result, stored⟩, hmove, rfl⟩ := Option.map_eq_some_iff.mp hs'
      rcases moveFolder_cases hmove with rfl | ⟨_, hupdate⟩
      · exact ⟨h, hexports⟩
      · exact hsame (updateFolder_filed h hupdate)
  | deleteFolder id recursive target =>
      obtain ⟨⟨result, stored⟩, hdelete, rfl⟩ := Option.map_eq_some_iff.mp hs'
      exact hsame (deleteFolder_keeps h hkeeps hdelete)
  | addWorkflowToFolder workflowId folderId =>
      obtain ⟨⟨result, stored⟩, hadd, rfl⟩ := Option.map_eq_some_iff.mp hs'
      exact hsame ⟨(addWorkflowToFolder_filed h hadd).1, (addWorkflowToFolder_refiles hadd).exports⟩
  | removeWorkflowFromFolder workflowId =>
      exact hsame ⟨(removeWorkflowFromFolder_filed h hs').1,
        (removeWorkflowFromFolder_refiles hs').exports⟩
  | exportFolders =>
      cases hs'
      refine ⟨⟨h.links, h.once, h.existing, h.workflowCount, h.descendantCount⟩, ?_⟩
      intro data hdata
      rcases List.mem_append.mp hdata with hdata | hdata
      · exact hexports data hdata
      · rw [List.mem_singleton.mp hdata]
        exact ⟨h.links, nofun⟩
  | copyExport copied =>
      cases hs'
      refine ⟨⟨h.links, h.once, h.existing, h.workflowCount, h.descendantCount⟩, ?_⟩
      intro data hdata
      rcases List.mem_append.mp hdata with hdata | hdata
      · exact hexports data hdata
      · rw [List.mem_singleton.mp hdata]
        exact detach_sound h (hexports copied hgiven)
  | importFolders data merge => exact importFolders_keeps h hexports hgiven hkeeps hs'

theorem Reached.filed (h : Reached Operation.KeepsFiles s) :
    Filed s ∧ ∀ data ∈ s.exports, data.Sound := by
  induction h with
  | start => exact ⟨.empty, nofun⟩
  | step _ given meets hs' ih => exact perform_filed ih.1 ih.2 given meets hs'

/-- In every store that is reached, no workflow has two associations, every association is of
a folder that exists, and each folder's counters are the numbers of its associations and of
its descendants. -/
theorem workflows_filed_and_counted (h : Reached Operation.KeepsFiles s) :
    (s.associations.map (·.workflowId)).Nodup ∧
      (∀ a ∈ s.associations, s.folders.has a.folderId = true) ∧
      ∃ enough, ∀ fuel, enough ≤ fuel → ∀ folder ∈ s.folders,
        (s.metadata folder.id).workflowCount = countIn s.associations folder.id ∧
        ∃ found, getFolderDescendants s.folders fuel folder.id = some found ∧
          (found.map (·.id)).Nodup ∧
          (∀ y, y ∈ found ↔ y ∈ s.folders ∧ ∃ n, Climbs s.folders.up (n + 1) y.id folder.id) ∧
          (s.metadata folder.id).descendantCount = found.length := by
  obtain ⟨hfiled, _⟩ := h.filed
  obtain ⟨enough, hwalks⟩ := walks_return hfiled.links.ranked
  refine ⟨hfiled.once, hfiled.existing, enough, fun fuel hfuel folder hmem => ?_⟩
  have hid := has_of_mem hmem
  refine ⟨hfiled.workflowCount folder.id hid, ?_⟩
  obtain ⟨_, ⟨found, hfound⟩, _⟩ := (hwalks fuel hfuel).1 folder hmem
  refine ⟨found, hfound, getFolderDescendants_nodup hfiled.links.ranked hid hfound,
    fun y => mem_getFolderDescendants hid hfound, ?_⟩
  rw [length_descendants hfiled.links.ranked hid hfound]
  exact hfiled.descendantCount folder.id hid nofun

end Changes

/-- The workflows of a shelf, from which a box was taken. -/
theorem shelf_filed : ∃ s, Reached Operation.KeepsFiles s ∧
    s.folders.list.map (·.name) = ["Shelf"] ∧
    s.associations.map (·.workflowId) = ["deploy"] ∧
    (∀ a ∈ s.associations, s.folders.has a.folderId = true) ∧
    ∀ folder ∈ s.folders,
      (s.metadata folder.id).workflowCount = countIn s.associations folder.id := by
  obtain ⟨s, hs, htest⟩ := Reached.of_any Operation.KeepsFiles 5
    [.createFolder "a" { name := "Shelf" },
      .createFolder "b" { name := "Box", parentId := some "folder-a" },
      .addWorkflowToFolder "login" "folder-b", .addWorkflowToFolder "deploy" "folder-a",
      .deleteFolder "folder-a" false none, .deleteFolder "folder-b" true none]
    (fun s => s.folders.list.map (·.name) == ["Shelf"] &&
      s.associations.map (·.workflowId) == ["deploy"])
    (by simp [Operation.KeepsFiles]) (by decide +kernel)
  rw [Bool.and_eq_true, beq_iff_eq, beq_iff_eq] at htest
  obtain ⟨_, hexisting, enough, hcounts⟩ := workflows_filed_and_counted hs
  exact ⟨s, hs, htest.1, htest.2, hexisting,
    fun folder hmem => (hcounts enough (Nat.le_refl enough) folder hmem).1⟩

/-- The folders that the second run below exports. -/
def twoShelves : FolderMap where
  list := [⟨"folder-a", "Left", none, none, none, none, some 0⟩,
    ⟨"folder-b", "Right", none, none, none, none, some 0⟩]
  nodup := by decide
  named := by decide

/-- A deletion leaves the association of a folder that is gone, where the workflows were to go
to a folder that does not exist; and a merging import files a workflow twice. -/
theorem dangling_and_double_association :
    (∃ s, Reached (fun _ _ => True) s ∧ ∃ a ∈ s.associations,
      s.folders.has a.folderId = false) ∧
    ∃ s, Reached (fun _ _ => True) s ∧ ¬(s.associations.map (·.workflowId)).Nodup := by
  constructor
  · obtain ⟨s, hs, htest⟩ := Reached.of_any (fun _ _ => True) 5
      [.createFolder "a" { name := "Shelf" }, .addWorkflowToFolder "login" "folder-a",
        .deleteFolder "folder-a" false (some "folder-x")]
      (fun s => s.associations.any fun a => !s.folders.has a.folderId)
      (fun _ _ _ => trivial) (by decide +kernel)
    simp only [List.any_eq_true, Bool.not_eq_true'] at htest
    obtain ⟨a, ha, hmissing⟩ := htest
    exact ⟨s, hs, a, ha, hmissing⟩
  · obtain ⟨s, hs, htest⟩ := Reached.of_any (fun _ _ => True) 5
      [.createFolder "a" { name := "Left", order := some 0 },
        .createFolder "b" { name := "Right", order := some 0 },
        .addWorkflowToFolder "login" "folder-a", .exportFolders,
        .copyExport ⟨twoShelves, .live⟩, .addWorkflowToFolder "login" "folder-b",
        .importFolders ⟨twoShelves, .detached [⟨"login", "folder-a"⟩]⟩ true]
      (fun s => s.associations.map (·.workflowId) == ["login", "login"])
      (fun _ _ _ => trivial) (by decide +kernel)
    rw [beq_iff_eq] at htest
    refine ⟨s, hs, ?_⟩
    rw [htest]
    decide

section RoundTrip

variable {s : Store} {fuel : Nat}

theorem write_of_fresh {folder : WorkflowFolder} {list : List WorkflowFolder}
    (hfresh : folder.id ∉ list.map (·.id)) : FolderMap.write folder list = list ++ [folder] := by
  induction list with
  | nil => rfl
  | cons first rest ih =>
      rw [List.map_cons, List.mem_cons, not_or] at hfresh
      rw [FolderMap.write, if_neg (Ne.symm hfresh.1), ih hfresh.2, List.cons_append]

/-- The folders of exported data are imported as they are, in their order. -/
theorem importFolderList_empty (data : FolderMap) : importFolderList false .empty data = data := by
  have hloop : ∀ (rest : List {folder // folder ∈ data.list}) (m : FolderMap),
      (m.list ++ rest.map Subtype.val).map (·.id) |>.Nodup →
      (rest.foldl (fun m folder => if m.has folder.1.id && false then m else
        m.set folder.1 (data.named folder.1 folder.2)) m).list = m.list ++ rest.map Subtype.val := by
    intro rest
    induction rest with
    | nil => exact fun m _ => (List.append_nil m.list).symm
    | cons folder rest ih =>
        intro m hnodup'
        have hnodup := hnodup'
        rw [List.map_cons, List.map_append, List.map_cons, List.nodup_append] at hnodup
        have hfresh : folder.1.id ∉ m.list.map (·.id) :=
          fun hmem => hnodup.2.2 _ hmem _ List.mem_cons_self rfl
        have hset : (m.set folder.1 (data.named folder.1 folder.2)).list = m.list ++ [folder.1] :=
          write_of_fresh hfresh
        rw [List.foldl_cons, Bool.and_false, if_neg Bool.false_ne_true, ih, hset, List.append_assoc]
        · rfl
        · simpa [hset] using hnodup'
  apply FolderMap.ext
  have hall := hloop data.list.attach .empty
  rw [List.attach_map_subtype_val] at hall
  exact hall data.nodup

theorem importAssociations_fresh {start data : List WorkflowFolderAssociation}
    (h : (start ++ data).Nodup) : importAssociations start data = start ++ data := by
  induction data generalizing start with
  | nil => exact (List.append_nil start).symm
  | cons a rest ih =>
      have hnew : start.contains a = false := by
        rw [← Bool.not_eq_true, List.contains_iff_mem]
        exact fun hmem => (List.nodup_append.mp h).2.2 a hmem a List.mem_cons_self rfl
      rw [importAssociations, List.foldl_cons, hnew, if_neg Bool.false_ne_true, ← importAssociations,
        ih (by simpa using h), List.append_assoc, List.singleton_append]

theorem recalculateAllCounts_returns (h : Ranked s.folders.up) : ∃ enough, ∀ fuel, enough ≤ fuel →
    ∃ s', recalculateAllCounts fuel s = some s' := by
  obtain ⟨enough, hwalks⟩ := walks_return h
  refine ⟨enough, fun fuel hfuel => ?_⟩
  unfold recalculateAllCounts
  have hcounts := FallibleLoops.mapM_returns fun folder hmem => by
    obtain ⟨found, hfound⟩ := ((hwalks fuel hfuel).1 folder hmem).2.1
    have hone : (getFolderDescendants s.folders fuel folder.id >>= fun descendants =>
        pure (folder.id, FolderMetadata.mk (countIn s.associations folder.id) descendants.length)) =
          some (folder.id, ⟨countIn s.associations folder.id, found.length⟩) := by
      rw [hfound]
      rfl
    exact ⟨_, hone⟩
  obtain ⟨counts, hcounts⟩ := hcounts
  rw [hcounts]
  exact ⟨_, rfl⟩

end RoundTrip

end Qontinui.Folders
