import Qontinui.Folders.Links

/-!
The folders form a forest that is no deeper than the rules allow: every parent is a folder, no
folder lies below itself, and no way up is too long. Two operations can break it. An update may
set a parent id that is the empty text, which its check of the parent takes for `null`; and a
merging import puts back folders under one that was moved down after the export.
-/

namespace Qontinui.Folders

open ParentLinks

/-- Every parent is a folder, and every way up comes to an end before it is too long. -/
structure Forest (m : FolderMap) : Prop extends Linked m where
  parent_named : ∀ folder ∈ m, folder.parentId ≠ some ""
  bounded : ∀ n x y, Climbs m.up n x y → n < maxDepth

section Maps

variable {m data : FolderMap}

theorem Forest.orNull_parent (h : Forest m) {folder : WorkflowFolder} (hmem : folder ∈ m) :
    orNull folder.parentId = folder.parentId := if_neg (h.parent_named folder hmem)

theorem Forest.congr (h : Forest m) (hmem : ∀ folder, folder ∈ data ↔ folder ∈ m) :
    Forest data := by
  refine ⟨h.toLinked.congr hmem, ?_, by rw [FolderMap.up_congr hmem]; exact h.bounded⟩
  exact fun folder hfolder => h.parent_named folder ((hmem folder).mp hfolder)

theorem Forest.empty : Forest .empty := by
  refine ⟨.empty, nofun, ?_⟩
  intro n x y h
  have hup : FolderMap.empty.up x = none := rfl
  cases h with
  | here => exact Nat.succ_pos 9
  | link hlink _ => cases hup.symm.trans hlink

/-! ### Depths -/

variable {id : String}

theorem exists_calculateDepth (h : Ranked m.up) (hid : m.has id = true) :
    ∃ fuel depth, calculateDepth m fuel (some id) = some depth := by
  obtain ⟨enough, hwalks⟩ := walks_return h
  obtain ⟨folder, hmem, rfl⟩ := FolderMap.has_iff.mp hid
  obtain ⟨path, hpath⟩ := ((hwalks enough (Nat.le_refl enough)).1 folder hmem).1
  refine ⟨enough, path.length, ?_⟩
  rw [calculateDepth_eq, hpath]
  rfl

theorem lt_calculateDepth {fuel n depth : Nat} {above : String} (hid : m.has id = true)
    (hdepth : calculateDepth m fuel (some id) = some depth) (h : Climbs m.up n id above) :
    n < depth := by
  obtain ⟨k, root, rfl, hclimbs, hroot⟩ := calculateDepth_spec hid hdepth
  exact Nat.lt_succ_of_le (h.le_of_root hclimbs hroot)

theorem Forest.calculateDepth_le (h : Forest m) {fuel depth : Nat} (hid : m.has id = true)
    (hdepth : calculateDepth m fuel (some id) = some depth) : depth ≤ maxDepth := by
  obtain ⟨k, root, rfl, hclimbs, _⟩ := calculateDepth_spec hid hdepth
  exact h.bounded k id root hclimbs

/-! ### Maps that change -/

theorem Forest.set (h : Forest m) (folder : WorkflowFolder) (hnamed : folder.id ≠ "")
    (hparent : folder.parentId ≠ some "")
    (hhas : ∀ p, orNull folder.parentId = some p → m.has p = true)
    (houtside : ∀ p, orNull folder.parentId = some p → ∀ n, ¬Climbs m.up n p folder.id)
    (hdepth : ∀ p, orNull folder.parentId = some p → ∀ j x, Climbs m.up j x folder.id →
      ∀ i y, Climbs m.up i p y → j + (i + 1) < maxDepth) :
    Forest (m.set folder hnamed) := by
  have hother : ∀ id, id ≠ folder.id → (m.set folder hnamed).up id = m.up id :=
    fun id hid => h.up_set_other hid
  refine ⟨h.toLinked.set folder hnamed hhas houtside, ?_, ?_⟩
  · intro other hmem
    rcases FolderMap.mem_set.mp hmem with rfl | ⟨hmem, _⟩
    · exact hparent
    · exact h.parent_named other hmem
  · intro n x y hclimbs
    rcases hclimbs.through_changed hother with hold | ⟨j, i, rfl, hbelow, habove⟩
    · exact h.bounded n x y hold
    · cases habove with
      | @link _ _ p _ hup rest =>
          have hp := (Linked.up_set_self hhas).symm.trans hup
          rcases rest.through_changed hother with hold | ⟨k, _, _, hcycle, _⟩
          · exact hdepth p hp j x hbelow i y hold
          · exact absurd hcycle (houtside p hp k)

theorem Forest.delete (h : Forest m) {id : String}
    (hleaf : ∀ folder ∈ m, folder.parentId ≠ some id) : Forest (m.delete id) := by
  refine ⟨h.toLinked.delete hleaf, ?_, ?_⟩
  · exact fun folder hfolder => h.parent_named folder (FolderMap.mem_delete.mp hfolder).1
  · intro n x y hclimbs
    exact h.bounded n x y (hclimbs.mono fun _ _ hup => h.up_of_delete hleaf hup)

/-- An imported folder comes to lie `n` folders below one that was there before. -/
structure LandsUnder (m data : FolderMap) (n : Nat) (id above : String) : Prop where
  climbs : Climbs data.up n id above
  missing : ∀ k y, k < n → Climbs data.up k id y → m.has y = false
  present : m.has above = true

theorem LandsUnder.link {n : Nat} {x y above : String} (h : LandsUnder m data n y above)
    (hx : m.has x = false) (hup : data.up x = some y) : LandsUnder m data (n + 1) x above := by
  refine ⟨.link hup h.climbs, fun k z hk hz => ?_, h.present⟩
  cases hz with
  | here => exact hx
  | link hup' rest =>
      cases hup.symm.trans hup'
      exact h.missing _ z (Nat.lt_of_succ_lt_succ hk) rest

theorem climbs_of_merge_old (h : Linked m) {n : Nat} {x y : String}
    (hclimbs : Climbs (importFolderList true m data).up n x y) (hx : m.has x = true) :
    Climbs m.up n x y := by
  induction hclimbs with
  | here x => exact .here x
  | link hup _ ih =>
      have hold := h.up_merge_old hx hup
      exact .link hold (ih (FolderMap.up_eq_some_iff.mp hold).2)

theorem climbs_of_merge (h : Linked m) (hdata : Linked data) {n : Nat} {x y : String}
    (hclimbs : Climbs (importFolderList true m data).up n x y) :
    Climbs data.up n x y ∨ ∃ j i above, n = j + i ∧ LandsUnder m data j x above ∧
      Climbs m.up i above y := by
  induction hclimbs with
  | here x => exact .inl (.here x)
  | @link n x w y hup rest ih =>
      cases hx : m.has x with
      | true =>
          refine .inr ⟨0, n + 1, x, (Nat.zero_add _).symm, ⟨.here x, ?_, hx⟩, ?_⟩
          · exact fun k y hk _ => absurd hk (Nat.not_lt_zero k)
          · exact climbs_of_merge_old h (.link hup rest) hx
      | false =>
          have hlink := hdata.up_merge_new hx hup
          rcases ih with hall | ⟨j, i, above, rfl, hlands, habove⟩
          · exact .inl (.link hlink hall)
          · exact .inr ⟨j + 1, i, above, by omega, hlands.link hx hlink, habove⟩

theorem Forest.merge (h : Forest m) (hdata : Forest data)
    (hdepth : ∀ n id above, LandsUnder m data n id above → ∀ fuel depth,
      calculateDepth m fuel (some above) = some depth → n + depth ≤ maxDepth) :
    Forest (importFolderList true m data) := by
  refine ⟨h.toLinked.merge hdata.toLinked, ?_, ?_⟩
  · intro folder hfolder
    rcases mem_merge.mp hfolder with hfolder | ⟨hfolder, _⟩
    · exact h.parent_named folder hfolder
    · exact hdata.parent_named folder hfolder
  · intro n x y hclimbs
    rcases climbs_of_merge h.toLinked hdata.toLinked hclimbs with hall |
      ⟨j, i, above, rfl, hlands, habove⟩
    · exact hdata.bounded n x y hall
    · obtain ⟨fuel, depth, hcalc⟩ := exists_calculateDepth h.ranked hlands.present
      have hlt := lt_calculateDepth hlands.present hcalc habove
      have hle := hdepth j x above hlands fuel depth hcalc
      omega

end Maps

/-! ### Operations -/

section Operations

variable {fuel : Nat} {s s' : Store} {result : Except String WorkflowFolder}

section

variable (h : Forest s.folders)
include h

theorem createFolder_forest {suffix : String} {options : CreateFolderOptions}
    (hfresh : s.folders.has (generateId suffix) = false)
    (hcreate : createFolder fuel s suffix options = some (result, s')) :
    Forest s'.folders ∧ s'.exports = s.exports := by
  rcases createFolder_cases hcreate with rfl |
    ⟨folder, hnamed, depth, hid, hnull, hhas, hdepth, hlt, hs'⟩
  · exact ⟨h, rfl⟩
  · have hrecounted := updateDescendantCounts_recounts hs'
    rw [← hid] at hfresh
    refine ⟨?_, hrecounted.exports⟩
    rw [hrecounted.folders]
    apply h.set folder hnamed hnull hhas
    · exact fun p hp => Linked.outside_of_fresh hfresh (hhas p hp)
    · intro p hp j x hj i y hi
      cases Linked.zero_of_fresh hfresh hj
      rw [(orNull_some (ne_empty_of_orNull hp)).mp hp] at hdepth
      have hup := lt_calculateDepth (hhas p hp) hdepth hi
      omega

theorem Movable.forest (folder : WorkflowFolder) (hnamed : folder.id ≠ "")
    (hid : s.folders.has folder.id = true) (hparent : folder.parentId ≠ some "")
    (hmove : Movable s.folders fuel folder.id folder.parentId) :
    Forest (s.folders.set folder hnamed) := by
  apply h.set folder hnamed hparent hmove.has
  · exact fun p hp => hmove.outside p hp hid
  · intro p hp j x hj i y hi
    obtain ⟨parentDepth, below, hdepth, hmax, hle⟩ := hmove.depths
    rw [(orNull_some (ne_empty_of_orNull hp)).mp hp] at hdepth
    have hup := lt_calculateDepth (hmove.has p hp) hdepth hi
    have hdown := getMaxDescendantDepth_le hid hmax hj
    omega

theorem updateFolder_forest {id : String} {updates : UpdateFolderOptions}
    (hgiven : updates.parentId = some (some "") → ∀ folder, s.folders.get id = some folder →
      updateError fuel s folder updates ≠ some none)
    (hupdate : updateFolder fuel s id updates = some (result, s')) :
    Forest s'.folders ∧ s'.exports = s.exports := by
  rcases updateFolder_cases hupdate with rfl | ⟨folder, hnamed, hget, herror, hwrite⟩
  · exact ⟨h, rfl⟩
  · have hrecounted := writeUpdate_recounts hwrite
    refine ⟨?_, hrecounted.exports⟩
    rw [hrecounted.folders]
    obtain ⟨hmem, _⟩ := FolderMap.get_eq_some_iff.mp hget
    have hparent : (updatedFolder folder updates).parentId ≠ some "" := by
      intro hempty
      cases hnew : updates.parentId with
      | none =>
          rw [updatedFolder, hnew] at hempty
          exact h.parent_named folder hmem hempty
      | some parentId =>
          rw [updatedFolder, hnew] at hempty
          exact hgiven (hnew.trans (congrArg some hempty)) folder hget herror
    rcases updateError_none herror with hsame | hmove
    · apply h.set (updatedFolder folder updates) hnamed hparent
      · rw [hsame]
        exact h.parents folder hmem
      · rw [hsame]
        intro p hp n hclimbs
        exact h.ranked.no_cycle (hclimbs.trans (.single (h.up_of_parent hmem hp)))
      · rw [hsame]
        intro p hp j x hj i y hi
        exact h.bounded _ x y (hj.trans (.link (h.up_of_parent hmem hp) hi))
    · have hid : s.folders.has folder.id = true := has_of_mem hmem
      exact Movable.forest h (updatedFolder folder updates) hnamed hid hparent hmove

/-- What deletion leaves is a forest of folders that were there before. -/
theorem deleteFolder_forest {id : String} {recursive : Bool} {target : Option String}
    (hdelete : deleteFolder fuel s id recursive target = some (result, s')) :
    Forest s'.folders ∧ (∀ folder ∈ s'.folders, folder ∈ s.folders) ∧ s'.exports = s.exports ∧
      (recursive = true → s'.folders.has id = false) := by
  induction fuel generalizing s s' id recursive result with
  | zero => cases hdelete
  | succ fuel ih =>
      have hchildren : ∀ (children : List WorkflowFolder) {s s' : Store}, Forest s.folders →
          deleteChildren fuel target children s = some s' →
          Forest s'.folders ∧ (∀ folder ∈ s'.folders, folder ∈ s.folders) ∧
            s'.exports = s.exports ∧ ∀ child ∈ children, child ∉ s'.folders := by
        intro children
        induction children with
        | nil =>
            intro s s' h hloop
            cases hloop
            exact ⟨h, fun _ hmem => hmem, rfl, nofun⟩
        | cons child rest ihrest =>
            intro s s' h hloop
            obtain ⟨result, next, hfirst, hloop⟩ := deleteChildren_cons.mp hloop
            obtain ⟨hnext, hsub, hexports, hgone⟩ := ih h hfirst
            obtain ⟨hs', hsub', hexports', hgone'⟩ := ihrest hnext hloop
            refine ⟨hs', fun folder hmem => hsub folder (hsub' folder hmem),
              hexports'.trans hexports, ?_⟩
            intro other hother hmem
            rcases List.mem_cons.mp hother with rfl | hother
            · cases (has_of_mem (hsub' other hmem)).symm.trans (hgone rfl)
            · exact hgone' other hother hmem
      rcases deleteFolder_cases hdelete with ⟨rfl, hrefused⟩ |
        ⟨folder, emptied, cleared, hget, _, hemptied, hcleared, hcounted⟩
      · refine ⟨h, fun _ hmem => hmem, rfl, fun hrecursive => ?_⟩
        apply Bool.eq_false_iff.mpr
        intro hhas
        cases hrecursive.symm.trans (hrefused hhas).2
      · have hrefiled := takeOut_all_refiles hemptied
        have hrecounted := updateDescendantCounts_recounts hcounted
        rw [← hrefiled.folders] at h
        obtain ⟨hforest, hsub, hexports, hgone⟩ := hchildren _ h hcleared
        rw [hrefiled.folders] at hsub
        have hs' : s'.folders = cleared.folders.delete id := hrecounted.folders
        rw [hs']
        refine ⟨?_, ?_, ?_, ?_⟩
        · apply hforest.delete
          intro other hother hparent
          exact hgone other (mem_getChildren.mpr ⟨hsub other hother, hparent⟩) hother
        · exact fun other hother => hsub other (FolderMap.mem_delete.mp hother).1
        · exact hrecounted.exports.trans (hexports.trans hrefiled.exports)
        · intro _
          apply Bool.eq_false_iff.mpr
          intro hhas
          exact (FolderMap.has_delete.mp hhas).2 rfl

end

/-! ### Runs -/

/-- The condition on an operation: a folder that exists is not put under the empty id by an
update that passes its checks, and a merging import lets no folder land too deep. -/
def Operation.KeepsForest (s : Store) : Operation → Prop
  | .updateFolder id updates => updates.parentId = some (some "") →
      ∀ folder fuel, s.folders.get id = some folder → updateError fuel s folder updates ≠ some none
  | .moveFolder folderId newParentId => newParentId = some "" → s.folders.has folderId = true →
      ∀ fuel, canMoveFolder s.folders fuel folderId newParentId ≠ some none
  | .importFolders data true => ∀ n id above, LandsUnder s.folders data.folders n id above →
      ∀ fuel depth, calculateDepth s.folders fuel (some above) = some depth → n + depth ≤ maxDepth
  | _ => True

/-- The folders, and all that were exported, form forests. -/
structure Store.Forests (s : Store) : Prop where
  folders : Forest s.folders
  exports : ∀ data ∈ s.exports, Forest data.folders

theorem Store.Forests.of_same_exports (h : s.Forests) (hs' : Forest s'.folders)
    (hexports : s'.exports = s.exports) : s'.Forests := by
  refine ⟨hs', ?_⟩
  rw [hexports]
  exact h.exports

theorem importFolders_forests (h : s.Forests) {data : ImportExportData} {merge : Bool}
    (hdata : data ∈ s.exports) (hkeeps : (Operation.importFolders data merge).KeepsForest s)
    (himport : importFolders fuel s data merge = some s') : s'.Forests := by
  have hrecounted := recalculateAllCounts_recounts himport
  cases merge with
  | true =>
      apply h.of_same_exports
      · rw [hrecounted.folders]
        exact h.folders.merge (h.exports data hdata) hkeeps
      · exact hrecounted.exports
  | false =>
      have hfolders : s'.folders = importFolderList false .empty data.folders := hrecounted.folders
      have hexports : s'.exports = s.exports.map (detach s) := hrecounted.exports
      constructor
      · rw [hfolders]
        exact (h.exports data hdata).congr fun _ => mem_replace
      · rw [hexports]
        intro other hother
        obtain ⟨old, hold, rfl⟩ := List.mem_map.mp hother
        exact h.exports old hold

/-- Each operation that meets the condition keeps the forests. -/
theorem perform_forests {op : Operation} (h : s.Forests) (hgiven : op.Given s)
    (hkeeps : op.KeepsForest s) (hs' : perform fuel s op = some s') : s'.Forests := by
  cases op with
  | createFolder suffix options =>
      obtain ⟨⟨result, stored⟩, hcreate, rfl⟩ := Option.map_eq_some_iff.mp hs'
      obtain ⟨hforest, hexports⟩ := createFolder_forest h.folders hgiven hcreate
      exact h.of_same_exports hforest hexports
  | updateFolder id updates =>
      obtain ⟨⟨result, stored⟩, hupdate, rfl⟩ := Option.map_eq_some_iff.mp hs'
      obtain ⟨hforest, hexports⟩ := updateFolder_forest h.folders
        (fun hempty folder hget => hkeeps hempty folder fuel hget) hupdate
      exact h.of_same_exports hforest hexports
  | moveFolder folderId newParentId =>
      obtain ⟨⟨result, stored⟩, hmove, rfl⟩ := Option.map_eq_some_iff.mp hs'
      rcases moveFolder_cases hmove with rfl | ⟨hcan, hupdate⟩
      · exact h
      · obtain ⟨hforest, hexports⟩ := updateFolder_forest h.folders (by
          intro hempty folder hget _
          have hmem := (FolderMap.get_eq_some_iff.mp hget)
          apply hkeeps (Option.some.inj hempty) _ fuel hcan
          rw [← hmem.2]
          exact has_of_mem hmem.1) hupdate
        exact h.of_same_exports hforest hexports
  | deleteFolder id recursive target =>
      obtain ⟨⟨result, stored⟩, hdelete, rfl⟩ := Option.map_eq_some_iff.mp hs'
      obtain ⟨hforest, _, hexports, _⟩ := deleteFolder_forest h.folders hdelete
      exact h.of_same_exports hforest hexports
  | addWorkflowToFolder workflowId folderId =>
      obtain ⟨⟨result, stored⟩, hadd, rfl⟩ := Option.map_eq_some_iff.mp hs'
      have hrefiled := addWorkflowToFolder_refiles hadd
      apply h.of_same_exports _ hrefiled.exports
      rw [hrefiled.folders]
      exact h.folders
  | removeWorkflowFromFolder workflowId =>
      have hrefiled := removeWorkflowFromFolder_refiles hs'
      apply h.of_same_exports _ hrefiled.exports
      rw [hrefiled.folders]
      exact h.folders
  | exportFolders =>
      cases hs'
      refine ⟨h.folders, fun data hdata => ?_⟩
      rcases List.mem_append.mp hdata with hdata | hdata
      · exact h.exports data hdata
      · rw [List.mem_singleton.mp hdata]
        exact h.folders
  | copyExport copied =>
      cases hs'
      refine ⟨h.folders, fun data hdata => ?_⟩
      rcases List.mem_append.mp hdata with hdata | hdata
      · exact h.exports data hdata
      · rw [List.mem_singleton.mp hdata]
        exact h.exports copied hgiven
  | importFolders data merge => exact importFolders_forests h hgiven hkeeps hs'

theorem Reached.forests (h : Reached Operation.KeepsForest s) : s.Forests := by
  induction h with
  | start => exact ⟨.empty, nofun⟩
  | step _ given meets hs' ih => exact perform_forests ih given meets hs'

/-- In every store that is reached, every parent is a folder, no folder lies below itself, none
is deeper than the rules allow, the walks come to an end, and the tree has every folder once. -/
theorem folders_bounded_forest (h : Reached Operation.KeepsForest s) :
    (∀ folder ∈ s.folders, ∀ p, folder.parentId = some p → s.folders.has p = true) ∧
      (∀ n id, ¬Climbs s.folders.up (n + 1) id id) ∧
      ∃ enough, ∀ fuel, enough ≤ fuel →
        (∀ folder ∈ s.folders,
          (∃ depth, calculateDepth s.folders fuel (some folder.id) = some depth ∧
            depth ≤ maxDepth) ∧
          (∃ path, pathUp s.folders fuel (some folder.id) = some path) ∧
          (∃ found, getFolderDescendants s.folders fuel folder.id = some found) ∧
          ∃ deepest, getMaxDescendantDepth s.folders fuel folder.id 0 = some deepest) ∧
        ∃ nodes, buildTree s.folders fuel none 0 = some nodes ∧
          (treeIds nodes).Perm (s.folders.list.map (·.id)) := by
  obtain ⟨hforest, _⟩ := h.forests
  have hparents : ∀ folder ∈ s.folders, ∀ p, folder.parentId = some p → s.folders.has p = true := by
    intro folder hmem p hp
    apply hforest.parents folder hmem p
    rw [hforest.orNull_parent hmem, hp]
  obtain ⟨enough, hwalks⟩ := walks_return hforest.ranked
  refine ⟨hparents, fun n id => hforest.ranked.no_cycle, enough, fun fuel hfuel => ?_⟩
  obtain ⟨hfolders, htree⟩ := hwalks fuel hfuel
  constructor
  · intro folder hmem
    obtain ⟨⟨path, hpath⟩, hfound, hdeepest⟩ := hfolders folder hmem
    have hdepth : calculateDepth s.folders fuel (some folder.id) = some path.length := by
      rw [calculateDepth_eq, hpath]
      rfl
    exact ⟨⟨_, hdepth, hforest.calculateDepth_le (has_of_mem hmem) hdepth⟩, ⟨path, hpath⟩, hfound,
      hdeepest 0⟩
  · obtain ⟨nodes, hnodes⟩ := htree none 0
    exact ⟨nodes, hnodes, buildTree_perm hforest.ranked hparents hnodes⟩

end Operations

def shelfExport : FolderMap where
  list := [⟨"folder-a", "Shelf", none, none, none, none, some 0⟩,
    ⟨"folder-b", "Box", some "folder-a", none, none, none, some 0⟩]
  nodup := by decide
  named := by decide

/-- A box on a shelf that is exported, deleted and imported again. -/
theorem shelf_and_box_forest : ∃ s, Reached Operation.KeepsForest s ∧
    s.folders.list.map (·.name) = ["Shelf", "Box"] ∧
    ∃ enough, ∀ fuel, enough ≤ fuel → ∃ nodes, buildTree s.folders fuel none 0 = some nodes ∧
      (treeIds nodes).Perm (s.folders.list.map (·.id)) := by
  obtain ⟨s, hs, hnames⟩ := Reached.of_any Operation.KeepsForest 5
    [.createFolder "a" { name := "Shelf", order := some 0 },
      .createFolder "b" { name := "Box", parentId := some "folder-a", order := some 0 },
      .exportFolders, .deleteFolder "folder-a" true none,
      .importFolders ⟨shelfExport, .live⟩ false]
    (fun s => s.folders.list.map (·.name) == ["Shelf", "Box"])
    (by simp [Operation.KeepsForest]) (by decide +kernel)
  obtain ⟨_, _, enough, hforest⟩ := folders_bounded_forest hs
  exact ⟨s, hs, beq_iff_eq.mp hnames, enough, fun fuel hfuel => (hforest fuel hfuel).2⟩

/-- A folder gets an empty parent id and is gone from the tree; and a merging import puts a
folder back too deep. -/
theorem empty_parent_and_deep_import :
    (∃ s, Reached (fun _ _ => True) s ∧ ∃ folder ∈ s.folders, folder.parentId = some "" ∧
      s.folders.has "" = false ∧ buildTree s.folders 2 none 0 = some []) ∧
    ∃ s, Reached (fun _ _ => True) s ∧ ∃ folder ∈ s.folders,
      calculateDepth s.folders 20 (some folder.id) = some 11 ∧ maxDepth < 11 := by
  constructor
  · obtain ⟨s, hs, htest⟩ := Reached.of_any (fun _ _ => True) 2
      [.createFolder "a" { name := "Shelf" },
        .updateFolder "folder-a" { parentId := some (some "") }]
      (fun s => !s.folders.has "" && (getChildren s.folders none).isEmpty &&
        s.folders.list.any fun folder => folder.parentId == some "")
      (fun _ _ _ => trivial) (by decide +kernel)
    simp only [Bool.and_eq_true, Bool.not_eq_true', List.isEmpty_iff, List.any_eq_true,
      beq_iff_eq] at htest
    obtain ⟨⟨hempty, hroots⟩, folder, hmem, hparent⟩ := htest
    refine ⟨s, hs, folder, hmem, hparent, hempty, ?_⟩
    rw [buildTree, hroots]
    rfl
  · obtain ⟨s, hs, htest⟩ := Reached.of_any (fun _ _ => True) 20
      [.createFolder "a" { name := "Shelf", order := some 0 },
        .createFolder "b" { name := "Box", parentId := some "folder-a", order := some 0 },
        .exportFolders, .deleteFolder "folder-b" false none,
        .createFolder "1" { name := "One" },
        .createFolder "2" { name := "Two", parentId := some "folder-1" },
        .createFolder "3" { name := "Three", parentId := some "folder-2" },
        .createFolder "4" { name := "Four", parentId := some "folder-3" },
        .createFolder "5" { name := "Five", parentId := some "folder-4" },
        .createFolder "6" { name := "Six", parentId := some "folder-5" },
        .createFolder "7" { name := "Seven", parentId := some "folder-6" },
        .createFolder "8" { name := "Eight", parentId := some "folder-7" },
        .createFolder "9" { name := "Nine", parentId := some "folder-8" },
        .moveFolder "folder-a" (some "folder-9"),
        .importFolders ⟨shelfExport, .live⟩ true]
      (fun s => s.folders.list.any fun folder =>
        calculateDepth s.folders 20 (some folder.id) == some 11)
      (fun _ _ _ => trivial) (by decide +kernel)
    simp only [List.any_eq_true, beq_iff_eq] at htest
    obtain ⟨folder, hmem, hdepth⟩ := htest
    exact ⟨s, hs, folder, hmem, hdepth, Nat.lt_succ_self 10⟩

end Qontinui.Folders
