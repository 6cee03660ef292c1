import Qontinui.Folders.Manager
import Qontinui.Folders.Walks

/-!
What each operation of the folder manager can do to the folders, the associations and the
exported data, with the checks that it has passed.
-/

namespace Qontinui.Folders

open ParentLinks

namespace FolderMap

theorem at?_orNull (m : FolderMap) (parentId : Option String) :
    m.at? (orNull parentId) = m.at? parentId := by
  unfold orNull
  split_ifs with h
  · subst h
    rfl
  · rfl

variable {m : FolderMap}

theorem has_set {folder : WorkflowFolder} {hnamed : folder.id ≠ ""} {id : String} :
    (m.set folder hnamed).has id = true ↔ id = folder.id ∨ m.has id = true := by
  simp only [has_iff, mem_set]
  constructor
  · rintro ⟨other, rfl | ⟨hmem, _⟩, rfl⟩
    · exact .inl rfl
    · exact .inr ⟨other, hmem, rfl⟩
  · rintro (rfl | ⟨other, hmem, rfl⟩)
    · exact ⟨folder, .inl rfl, rfl⟩
    · rcases eq_or_ne other.id folder.id with hid | hid
      · exact ⟨folder, .inl rfl, hid.symm⟩
      · exact ⟨other, .inr ⟨hmem, hid⟩, rfl⟩

theorem has_delete {id other : String} :
    (m.delete id).has other = true ↔ m.has other = true ∧ other ≠ id := by
  simp only [has_iff, mem_delete]
  constructor
  · rintro ⟨folder, ⟨hmem, hne⟩, rfl⟩
    exact ⟨⟨folder, hmem, rfl⟩, hne⟩
  · rintro ⟨⟨folder, hmem, rfl⟩, hne⟩
    exact ⟨folder, ⟨hmem, hne⟩, rfl⟩

theorem up_congr {m' : FolderMap} (h : ∀ folder, folder ∈ m' ↔ folder ∈ m) : m'.up = m.up := by
  funext id
  apply Option.ext
  intro parent
  simp only [up_eq_some_iff, has_iff, h]

end FolderMap

theorem orNull_ne (parentId : Option String) : orNull parentId ≠ some "" := by
  unfold orNull
  split_ifs with h
  · exact nofun
  · exact h

theorem orNull_orNull (parentId : Option String) : orNull (orNull parentId) = orNull parentId :=
  if_neg (orNull_ne parentId)

variable {m : FolderMap} {id folderId : String}

theorem has_of_at? {parentId : Option String} (hparent : orNull parentId = some id)
    (h : (m.at? parentId).isNone = false) : m.has id = true := by
  rw [← FolderMap.at?_orNull, hparent, FolderMap.at?_some] at h
  simpa [FolderMap.has] using h

/-! ### Counters -/

/-- `s'` is `s` with other counters. -/
def Recounted (s s' : Store) : Prop := ∃ metadata, s' = { s with metadata := metadata }

namespace Recounted

variable {s s' s'' : Store}

theorem refl (s : Store) : Recounted s s := ⟨s.metadata, rfl⟩

section

variable (h : Recounted s s')
include h

theorem trans (h' : Recounted s' s'') : Recounted s s'' := by
  obtain ⟨metadata, rfl⟩ := h
  obtain ⟨metadata', rfl⟩ := h'
  exact ⟨metadata', rfl⟩

theorem folders : s'.folders = s.folders := by
  obtain ⟨metadata, rfl⟩ := h
  rfl

theorem associations : s'.associations = s.associations := by
  obtain ⟨metadata, rfl⟩ := h
  rfl

theorem exports : s'.exports = s.exports := by
  obtain ⟨metadata, rfl⟩ := h
  rfl

end

end Recounted

variable {fuel : Nat} {s s' : Store} {result : Except String WorkflowFolder}
  {newParentId target : Option String} {updates : UpdateFolderOptions} {folder : WorkflowFolder}
  {workflowId : String}

theorem updateWorkflowCounts_recounts {folderId : Option String}
    (h : updateWorkflowCounts fuel folderId s = some s') : Recounted s s' := by
  induction fuel generalizing folderId s with
  | zero => cases h
  | succ fuel ih =>
      unfold updateWorkflowCounts at h
      cases hat : s.folders.at? folderId with
      | none =>
          rw [hat] at h
          cases h
          exact Recounted.refl _
      | some folder =>
          rw [hat] at h
          exact Recounted.trans ⟨_, rfl⟩ (ih h)

theorem updateDescendantCounts_recounts {folderId : Option String}
    (h : updateDescendantCounts fuel folderId s = some s') : Recounted s s' := by
  induction fuel generalizing folderId s with
  | zero => cases h
  | succ fuel ih =>
      unfold updateDescendantCounts at h
      cases hat : s.folders.at? folderId with
      | none =>
          rw [hat] at h
          cases h
          exact Recounted.refl _
      | some folder =>
          rw [hat] at h
          simp only [Option.bind_eq_bind, Option.bind_eq_some_iff] at h
          obtain ⟨descendants, _, h⟩ := h
          exact Recounted.trans ⟨_, rfl⟩ (ih h)

theorem recalculateAllCounts_recounts (h : recalculateAllCounts fuel s = some s') :
    Recounted s s' := by
  simp only [recalculateAllCounts, Option.bind_eq_bind, Option.bind_eq_some_iff, Option.pure_def,
    Option.some.injEq] at h
  obtain ⟨counts, _, rfl⟩ := h
  exact ⟨_, rfl⟩

/-! ### Folders -/

/-- A folder that passes the checks of `createFolder` lies in no folder, or in one that is not
too deep. -/
theorem createFolder_cases {suffix : String} {options : CreateFolderOptions}
    (h : createFolder fuel s suffix options = some (result, s')) :
    s' = s ∨ ∃ folder hnamed depth, folder.id = generateId suffix ∧
      folder.parentId ≠ some "" ∧
      (∀ p, orNull folder.parentId = some p → s.folders.has p = true) ∧
      calculateDepth s.folders fuel folder.parentId = some depth ∧ depth < maxDepth ∧
      updateDescendantCounts fuel folder.parentId { s.setMetadata folder.id {} with
        folders := s.folders.set folder hnamed } = some s' := by
  unfold createFolder at h
  split at h
  · cases h
    exact .inl rfl
  · split_ifs at h with hparent
    · cases h
      exact .inl rfl
    · simp only [Option.bind_eq_bind, Option.bind_eq_some_iff] at h
      obtain ⟨depth, hdepth, h⟩ := h
      split_ifs at h with hdeep
      · cases h
        exact .inl rfl
      · split at h
        · cases h
          exact .inl rfl
        · simp only [Option.pure_def, Option.bind_eq_some_iff, Option.some.injEq] at h
          obtain ⟨counted, hcounted, hs'⟩ := h
          cases hs'
          refine .inr ⟨newFolder s.folders suffix options, generateId_ne suffix, depth, rfl,
            orNull_ne options.parentId, ?_, ?_, Nat.lt_of_not_le hdeep, hcounted⟩
          · intro p hp
            have hgiven : orNull options.parentId = some p := (orNull_orNull _).symm.trans hp
            have htruthy : truthy options.parentId = true := by
              rw [truthy, hgiven]
              rfl
            rw [htruthy, Bool.true_and] at hparent
            exact has_of_at? hgiven (Bool.eq_false_iff.mpr hparent)
          · change calculateDepth s.folders fuel (orNull options.parentId) = some depth
            cases fuel with
            | zero => cases hdepth
            | succ fuel =>
                unfold calculateDepth at hdepth ⊢
                rw [FolderMap.at?_orNull]
                exact hdepth

/-- What `canMoveFolder` has made sure of. -/
structure Movable (m : FolderMap) (fuel : Nat) (folderId : String) (newParentId : Option String) :
    Prop where
  other : newParentId ≠ some folderId
  has : ∀ p, orNull newParentId = some p → m.has p = true
  outside : ∀ p, orNull newParentId = some p → m.has folderId = true →
    ∀ n, ¬Climbs m.up n p folderId
  depths : ∃ parentDepth below, calculateDepth m fuel newParentId = some parentDepth ∧
    getMaxDescendantDepth m fuel folderId 0 = some below ∧ parentDepth + 1 + below ≤ maxDepth

theorem depths_of_check {error : String} (h : (do
      let parentDepth ← calculateDepth m fuel newParentId
      let maxDescendantDepth ← getMaxDescendantDepth m fuel folderId 0
      if maxDepth < parentDepth + 1 + maxDescendantDepth then return some error
      else return none) = some (none : Option String)) :
    ∃ parentDepth below, calculateDepth m fuel newParentId = some parentDepth ∧
      getMaxDescendantDepth m fuel folderId 0 = some below ∧
      parentDepth + 1 + below ≤ maxDepth := by
  simp only [Option.bind_eq_bind, Option.bind_eq_some_iff] at h
  obtain ⟨parentDepth, hparentDepth, below, hmax, h⟩ := h
  split_ifs at h with hdeep
  · cases h
  · exact ⟨parentDepth, below, hparentDepth, hmax, Nat.le_of_not_lt hdeep⟩

theorem canMoveFolder_spec (h : canMoveFolder m fuel folderId newParentId = some none) :
    Movable m fuel folderId newParentId := by
  unfold canMoveFolder at h
  split_ifs at h with hself hmissing htruthy
  · cases h
  · cases h
  · simp only [Option.bind_eq_bind, Option.bind_eq_some_iff] at h
    obtain ⟨descendants, hdescendants, h⟩ := h
    split_ifs at h with hbelow
    · cases h
    · have hhas : ∀ p, orNull newParentId = some p → m.has p = true := by
        intro p hp
        apply has_of_at? hp
        rw [htruthy, Bool.true_and] at hmissing
        exact Bool.eq_false_iff.mpr hmissing
      refine ⟨hself, hhas, ?_, depths_of_check h⟩
      intro p hp hfolder n hclimbs
      have hnew : newParentId = some p := by
        unfold orNull at hp
        split_ifs at hp
        exact hp
      cases n with
      | zero =>
          apply hself
          rw [hnew, hclimbs.zero_eq]
      | succ n =>
          obtain ⟨d, hd, rfl⟩ := FolderMap.has_iff.mp (hhas p hp)
          apply hbelow
          rw [List.any_eq_true]
          refine ⟨d, (mem_getFolderDescendants hfolder hdescendants).mpr ⟨hd, n, hclimbs⟩, ?_⟩
          rw [hnew]
          exact beq_self_eq_true _
  · have hnone : ∀ p, orNull newParentId ≠ some p := by
      intro p hp
      apply htruthy
      rw [truthy, hp]
      rfl
    exact ⟨hself, fun p hp => absurd hp (hnone p), fun p hp => absurd hp (hnone p),
      depths_of_check h⟩

theorem updateFolder_cases (h : updateFolder fuel s id updates = some (result, s')) :
    s' = s ∨ ∃ folder hnamed, s.folders.get id = some folder ∧
      updateError fuel s folder updates = some none ∧
      writeUpdate fuel s folder hnamed updates = some s' := by
  unfold updateFolder at h
  split at h
  · cases h
    exact .inl rfl
  · rename_i folder hget
    simp only [Option.bind_eq_bind, Option.bind_eq_some_iff] at h
    obtain ⟨error, herror, h⟩ := h
    cases error with
    | some error =>
        cases h
        exact .inl rfl
    | none =>
        simp only [Option.bind_eq_some_iff, Option.pure_def, Option.some.injEq] at h
        obtain ⟨stored, hstored, hs'⟩ := h
        cases hs'
        exact .inr ⟨folder, _, hget, herror, hstored⟩

theorem moveFolder_cases (h : moveFolder fuel s id newParentId = some (result, s')) :
    s' = s ∨ (canMoveFolder s.folders fuel id newParentId = some none ∧
      updateFolder fuel s id { parentId := some newParentId } = some (result, s')) := by
  unfold moveFolder at h
  split at h
  · cases h
    exact .inl rfl
  · simp only [Option.bind_eq_bind, Option.bind_eq_some_iff] at h
    obtain ⟨error, herror, h⟩ := h
    cases error with
    | some error =>
        cases h
        exact .inl rfl
    | none => exact .inr ⟨herror, h⟩

theorem updateError_none (h : updateError fuel s folder updates = some none) :
    (updatedFolder folder updates).parentId = folder.parentId ∨
      Movable s.folders fuel folder.id (updatedFolder folder updates).parentId := by
  unfold updateError at h
  split at h
  · cases h
  · cases hparent : updates.parentId with
    | none =>
        apply Or.inl
        rw [updatedFolder, hparent]
        rfl
    | some parentId =>
        have hupdated : (updatedFolder folder updates).parentId = parentId := by
          rw [updatedFolder, hparent]
          rfl
        rw [hparent] at h
        dsimp only at h
        split_ifs at h with hsame
        · exact .inl (hupdated.trans hsame)
        · simp only [Option.bind_eq_bind, Option.bind_eq_some_iff] at h
          obtain ⟨moveError, hmove, h⟩ := h
          cases moveError with
          | some error => cases h
          | none =>
              apply Or.inr
              rw [hupdated]
              exact canMoveFolder_spec hmove

theorem writeUpdate_cases {hnamed : folder.id ≠ ""}
    (h : writeUpdate fuel s folder hnamed updates = some s') :
    (folder.parentId = (updatedFolder folder updates).parentId ∧
      s' = { s with folders := s.folders.set (updatedFolder folder updates) hnamed }) ∨
    ∃ counted, updateDescendantCounts fuel folder.parentId
        { s with folders := s.folders.set (updatedFolder folder updates) hnamed } = some counted ∧
      updateDescendantCounts fuel (updatedFolder folder updates).parentId counted = some s' := by
  unfold writeUpdate at h
  dsimp only at h
  split_ifs at h with hsame
  · cases h
    exact .inl ⟨hsame, rfl⟩
  · simp only [Option.bind_eq_bind, Option.bind_eq_some_iff] at h
    exact .inr h

theorem writeUpdate_recounts {hnamed : folder.id ≠ ""}
    (h : writeUpdate fuel s folder hnamed updates = some s') :
    Recounted { s with folders := s.folders.set (updatedFolder folder updates) hnamed } s' := by
  rcases writeUpdate_cases h with ⟨_, rfl⟩ | ⟨counted, hcounted, h⟩
  · exact .refl _
  · exact (updateDescendantCounts_recounts hcounted).trans (updateDescendantCounts_recounts h)

/-! ### Workflows -/

/-- `s'` is `s` with other associations and counters. -/
def Refiled (s s' : Store) : Prop :=
  ∃ associations metadata, s' = { s with associations := associations, metadata := metadata }

namespace Refiled

variable {s s' s'' : Store}

theorem refl (s : Store) : Refiled s s := ⟨s.associations, s.metadata, rfl⟩

theorem trans (h : Refiled s s') (h' : Refiled s' s'') : Refiled s s'' := by
  obtain ⟨associations, metadata, rfl⟩ := h
  obtain ⟨associations', metadata', rfl⟩ := h'
  exact ⟨associations', metadata', rfl⟩

theorem of_recounted {associations : List WorkflowFolderAssociation}
    (h : Recounted { s with associations := associations } s') : Refiled s s' := by
  obtain ⟨metadata, rfl⟩ := h
  exact ⟨associations, metadata, rfl⟩

theorem folders (h : Refiled s s') : s'.folders = s.folders := by
  obtain ⟨associations, metadata, rfl⟩ := h
  rfl

theorem exports (h : Refiled s s') : s'.exports = s.exports := by
  obtain ⟨associations, metadata, rfl⟩ := h
  rfl

end Refiled

theorem removeWorkflowFromFolder_refiles (h : removeWorkflowFromFolder fuel s workflowId = some s') :
    Refiled s s' := by
  unfold removeWorkflowFromFolder at h
  split at h
  · cases h
    exact .refl _
  · exact .of_recounted (updateWorkflowCounts_recounts h)

theorem addWorkflowToFolder_refiles {result : Except String Unit}
    (h : addWorkflowToFolder fuel s workflowId folderId = some (result, s')) : Refiled s s' := by
  have hpush : ∀ {s₀ : Store}, (pushAssociation fuel s₀ workflowId folderId).map (fun pushed =>
      ((.ok () : Except String Unit), pushed)) = some (result, s') → Refiled s₀ s' := by
    intro s₀ h
    obtain ⟨pushed, hpushed, hs'⟩ := Option.map_eq_some_iff.mp h
    cases hs'
    exact .of_recounted (updateWorkflowCounts_recounts hpushed)
  unfold addWorkflowToFolder at h
  split_ifs at h
  · cases h
    exact .refl _
  · split at h
    · exact hpush h
    · split_ifs at h
      · cases h
        exact .refl _
      · simp only [Option.bind_eq_bind, Option.bind_eq_some_iff] at h
        obtain ⟨removed, hremoved, h⟩ := h
        exact (removeWorkflowFromFolder_refiles hremoved).trans (hpush h)

theorem takeOut_refiles (h : takeOut fuel target s workflowId = some s') : Refiled s s' := by
  unfold takeOut at h
  cases target with
  | none => exact removeWorkflowFromFolder_refiles h
  | some target =>
      obtain ⟨⟨result, stored⟩, hadd, rfl⟩ := Option.map_eq_some_iff.mp h
      exact addWorkflowToFolder_refiles hadd

theorem takeOut_all_refiles {workflowIds : List String}
    (h : workflowIds.foldlM (takeOut fuel target) s = some s') : Refiled s s' := by
  induction workflowIds generalizing s with
  | nil =>
      cases h
      exact .refl _
  | cons workflowId rest ih =>
      simp only [List.foldlM_cons, Option.bind_eq_bind, Option.bind_eq_some_iff] at h
      obtain ⟨taken, htaken, h⟩ := h
      exact (takeOut_refiles htaken).trans (ih h)

/-! ### Deletion -/

/-- The loop of `deleteFolder` over the children. -/
def deleteChildren (fuel : Nat) (target : Option String) (children : List WorkflowFolder)
    (s : Store) : Option Store :=
  children.foldlM (fun s child => (deleteFolder fuel s child.id true target).map (·.2)) s

theorem deleteChildren_cons {child : WorkflowFolder} {rest : List WorkflowFolder} :
    deleteChildren fuel target (child :: rest) s = some s' ↔ ∃ result next,
      deleteFolder fuel s child.id true target = some (result, next) ∧
      deleteChildren fuel target rest next = some s' := by
  simp only [deleteChildren, List.foldlM_cons, Option.bind_eq_bind, Option.bind_eq_some_iff,
    Option.map_eq_some_iff]
  constructor
  · rintro ⟨_, ⟨⟨result, next⟩, hdelete, rfl⟩, h⟩
    exact ⟨result, next, hdelete, h⟩
  · rintro ⟨result, next, hdelete, h⟩
    exact ⟨next, ⟨(result, next), hdelete, rfl⟩, h⟩

/-- A deletion that is not refused takes out the workflows, then deletes the children, and then
the folder. -/
theorem deleteFolder_cases {recursive : Bool}
    (h : deleteFolder (fuel + 1) s id recursive target = some (result, s')) :
    (s' = s ∧ (s.folders.has id = true →
      getChildren s.folders (some id) ≠ [] ∧ recursive = false)) ∨
    ∃ folder emptied cleared, s.folders.get id = some folder ∧
      (getChildren s.folders (some id) = [] ∨ recursive = true) ∧
      (getWorkflowsInFolder s id).foldlM (takeOut fuel target) s = some emptied ∧
      deleteChildren fuel target (getChildren s.folders (some id)) emptied = some cleared ∧
      updateDescendantCounts fuel folder.parentId
        { cleared with folders := cleared.folders.delete id } = some s' := by
  unfold deleteFolder at h
  split at h
  · rename_i hget
    cases h
    refine .inl ⟨rfl, fun hhas => ?_⟩
    rw [FolderMap.has, hget] at hhas
    cases hhas
  · rename_i folder hget
    dsimp only at h
    split_ifs at h with hrefused hrecursive
    · cases h
      refine .inl ⟨rfl, fun _ => ?_⟩
      simpa using hrefused
    · simp only [Option.bind_eq_bind, Option.bind_eq_some_iff, Option.pure_def,
        Option.some.injEq] at h
      obtain ⟨emptied, hemptied, cleared, hcleared, counted, hcounted, hs'⟩ := h
      cases hs'
      exact .inr ⟨folder, emptied, cleared, hget, .inr hrecursive, hemptied, hcleared, hcounted⟩
    · simp only [Option.bind_eq_bind, Option.bind_eq_some_iff, Option.pure_def,
        Option.some.injEq] at h
      obtain ⟨emptied, hemptied, cleared, hcleared, counted, hcounted, hs'⟩ := h
      cases hs'
      have hchildren : getChildren s.folders (some id) = [] := by
        simpa [hrecursive] using hrefused
      refine .inr ⟨folder, emptied, cleared, hget, .inl hchildren, hemptied, ?_, hcounted⟩
      rw [hchildren, ← hcleared]
      rfl

/-! ### Runs -/

/-- A run of operations, each given what it may be given. -/
def run (fuel : Nat) (s : Store) (ops : List Operation) : Option Store :=
  ops.foldlM (fun s op => if op.Given s then perform fuel s op else none) s

theorem Reached.of_run {condition : Store → Operation → Prop} {ops : List Operation}
    (before : Reached condition s) (hops : ∀ op ∈ ops, ∀ s, condition s op)
    (h : run fuel s ops = some s') : Reached condition s' := by
  induction ops generalizing s with
  | nil =>
      cases h
      exact before
  | cons op rest ih =>
      simp only [run, List.foldlM_cons, Option.bind_eq_bind, Option.bind_eq_some_iff] at h
      obtain ⟨next, hnext, h⟩ := h
      split_ifs at hnext with hgiven
      exact ih (.step before hgiven (hops op List.mem_cons_self s) hnext)
        (fun op hop => hops op (List.mem_cons_of_mem _ hop)) h

theorem Reached.of_any (condition : Store → Operation → Prop) (fuel : Nat)
    (ops : List Operation) (test : Store → Bool) (hops : ∀ op ∈ ops, ∀ s, condition s op)
    (h : (run fuel .empty ops).any test = true) : ∃ s, Reached condition s ∧ test s = true := by
  obtain ⟨s, hs, htest⟩ := (Option.any_eq_true _ _).mp h
  exact ⟨s, .of_run .start hops hs, htest⟩

theorem Reached.of_checked (condition : Store → Operation → Prop)
    (check : Store → Operation → Bool) (hcheck : ∀ s op, check s op = true → condition s op)
    (fuel : Nat) (ops : List Operation) (test : Store → Bool)
    (h : (ops.foldlM (fun s op => if op.Given s ∧ check s op = true then perform fuel s op
      else none) .empty).any test = true) : ∃ s, Reached condition s ∧ test s = true := by
  obtain ⟨s, hs, htest⟩ := (Option.any_eq_true _ _).mp h
  refine ⟨s, ?_, htest⟩
  have before : Reached condition .empty := .start
  generalize Store.empty = first at before hs
  clear h
  induction ops generalizing first with
  | nil =>
      cases hs
      exact before
  | cons op rest ih =>
      simp only [List.foldlM_cons, Option.bind_eq_bind, Option.bind_eq_some_iff] at hs
      obtain ⟨next, hnext, hs⟩ := hs
      split_ifs at hnext with hgiven
      exact ih next (.step before hgiven.1 (hcheck first op hgiven.2) hnext) hs

end Qontinui.Folders
