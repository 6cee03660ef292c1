import Qontinui.Folders.Steps

/-!
The links of the folders to their parents. No folder is linked to by a parent id before it is
there, and none lies below itself; writing a folder, deleting one in which none lies and
merging keep this.
-/

namespace Qontinui.Folders

open ParentLinks

/-- Every parent id that is not empty is that of a folder, and no folder lies below itself. -/
structure Linked (m : FolderMap) : Prop where
  parents : ∀ folder ∈ m, ∀ p, orNull folder.parentId = some p → m.has p = true
  ranked : Ranked m.up

variable {m data : FolderMap}

theorem orNull_some {parentId : Option String} {p : String} (hp : p ≠ "") :
    orNull parentId = some p ↔ parentId = some p := by
  unfold orNull
  split_ifs with h
  · simp [h, hp.symm]
  · rfl

theorem ne_empty_of_orNull {parentId : Option String} {p : String}
    (h : orNull parentId = some p) : p ≠ "" := by
  rintro rfl
  exact orNull_ne parentId h

theorem ne_empty_of_has {id : String} (h : m.has id = true) : id ≠ "" := by
  obtain ⟨folder, hmem, rfl⟩ := FolderMap.has_iff.mp h
  exact m.named folder hmem

variable {folder : WorkflowFolder}

theorem orNull_of_up (hmem : folder ∈ m) {parent : String} (h : m.up folder.id = some parent) :
    orNull folder.parentId = some parent ∧ m.has parent = true := by
  obtain ⟨⟨other, hother, hid, hparent⟩, hhas⟩ := FolderMap.up_eq_some_iff.mp h
  rw [FolderMap.eq_of_id hother hmem hid] at hparent
  exact ⟨(orNull_some (ne_empty_of_has hhas)).mpr hparent, hhas⟩

namespace Linked

variable {folder : WorkflowFolder} {id : String}

theorem up_of_parent (h : Linked m) (hmem : folder ∈ m) {parent : String}
    (hparent : orNull folder.parentId = some parent) : m.up folder.id = some parent := by
  have hhas := h.parents folder hmem parent hparent
  have hsome := (orNull_some (ne_empty_of_has hhas)).mp hparent
  exact FolderMap.up_eq_some_iff.mpr ⟨⟨folder, hmem, rfl, hsome⟩, hhas⟩

theorem up_eq_orNull (h : Linked m) (hmem : folder ∈ m) :
    m.up folder.id = orNull folder.parentId := by
  apply Option.ext
  intro p
  exact ⟨fun hup => (orNull_of_up hmem hup).1, h.up_of_parent hmem⟩

theorem congr (h : Linked m) (hmem : ∀ folder, folder ∈ data ↔ folder ∈ m) : Linked data := by
  refine ⟨?_, by rw [FolderMap.up_congr hmem]; exact h.ranked⟩
  intro folder hfolder p hp
  have hhas := h.parents folder ((hmem folder).mp hfolder) p hp
  rw [FolderMap.has_iff] at hhas ⊢
  simpa only [hmem] using hhas

theorem empty : Linked .empty := by
  refine ⟨nofun, fun _ => 0, fun x y h => ?_⟩
  have hup : FolderMap.empty.up x = none := rfl
  cases hup.symm.trans h

/-! ### Writing a folder -/

theorem up_set_self {hnamed : folder.id ≠ ""}
    (hparent : ∀ p, orNull folder.parentId = some p → m.has p = true) :
    (m.set folder hnamed).up folder.id = orNull folder.parentId := by
  have hself : folder ∈ m.set folder hnamed := FolderMap.mem_set.mpr (.inl rfl)
  apply Option.ext
  intro p
  constructor
  · exact fun hup => (orNull_of_up hself hup).1
  · intro hp
    have hhas := hparent p hp
    have hsome := (orNull_some (ne_empty_of_has hhas)).mp hp
    exact FolderMap.up_eq_some_iff.mpr
      ⟨⟨folder, hself, rfl, hsome⟩, FolderMap.has_set.mpr (.inr hhas)⟩

theorem up_set_other (h : Linked m) {hnamed : folder.id ≠ ""} (hid : id ≠ folder.id) :
    (m.set folder hnamed).up id = m.up id := by
  apply Option.ext
  intro p
  constructor
  · intro hup
    obtain ⟨⟨other, hother, rfl, hp⟩, hhas⟩ := FolderMap.up_eq_some_iff.mp hup
    rcases FolderMap.mem_set.mp hother with rfl | ⟨hmem, _⟩
    · exact absurd rfl hid
    · exact h.up_of_parent hmem ((orNull_some (ne_empty_of_has hhas)).mpr hp)
  · intro hup
    obtain ⟨⟨other, hmem, rfl, hp⟩, hhas⟩ := FolderMap.up_eq_some_iff.mp hup
    exact FolderMap.up_eq_some_iff.mpr ⟨⟨other, FolderMap.mem_set.mpr (.inr ⟨hmem, hid⟩), rfl, hp⟩,
      FolderMap.has_set.mpr (.inr hhas)⟩

theorem set (h : Linked m) (folder : WorkflowFolder) (hnamed : folder.id ≠ "")
    (hhas : ∀ p, orNull folder.parentId = some p → m.has p = true)
    (houtside : ∀ p, orNull folder.parentId = some p → ∀ n, ¬Climbs m.up n p folder.id) :
    Linked (m.set folder hnamed) := by
  refine ⟨?_, h.ranked.reparent (up_set_self hhas) (fun id hid => h.up_set_other hid) houtside⟩
  intro other hmem p hp
  apply FolderMap.has_set.mpr
  rcases FolderMap.mem_set.mp hmem with rfl | ⟨hmem, _⟩
  · exact .inr (hhas p hp)
  · exact .inr (h.parents other hmem p hp)

theorem zero_of_fresh (hfresh : m.has id = false) {n : Nat} {x : String} (h : Climbs m.up n x id) :
    n = 0 := by
  cases n with
  | zero => rfl
  | succ n =>
      obtain ⟨y, _, hup⟩ := h.last
      obtain ⟨_, hmem⟩ := FolderMap.up_eq_some_iff.mp hup
      cases hfresh.symm.trans hmem

theorem outside_of_fresh (hfresh : m.has id = false) {p : String} (hhas : m.has p = true) (n : Nat) :
    ¬Climbs m.up n p id := by
  intro hclimbs
  cases zero_of_fresh hfresh hclimbs
  rw [hclimbs.zero_eq, hfresh] at hhas
  cases hhas

/-! ### Deleting a folder -/

theorem up_delete_other (h : Linked m) (hleaf : ∀ folder ∈ m, folder.parentId ≠ some id)
    {other : String} (hid : other ≠ id) : (m.delete id).up other = m.up other := by
  apply Option.ext
  intro p
  constructor
  · intro hup
    obtain ⟨⟨folder, hmem, rfl, hp⟩, hhas⟩ := FolderMap.up_eq_some_iff.mp hup
    have hne := ne_empty_of_has hhas
    exact h.up_of_parent (FolderMap.mem_delete.mp hmem).1 ((orNull_some hne).mpr hp)
  · intro hup
    obtain ⟨⟨folder, hmem, rfl, hp⟩, hhas⟩ := FolderMap.up_eq_some_iff.mp hup
    refine FolderMap.up_eq_some_iff.mpr ⟨⟨folder, FolderMap.mem_delete.mpr ⟨hmem, hid⟩, rfl, hp⟩,
      FolderMap.has_delete.mpr ⟨hhas, ?_⟩⟩
    rintro rfl
    exact hleaf folder hmem hp

theorem up_delete_self (id : String) : (m.delete id).up id = none := by
  cases hup : (m.delete id).up id with
  | none => rfl
  | some p => exact absurd rfl (FolderMap.has_delete.mp (has_of_up hup)).2

theorem up_of_delete (h : Linked m) (hleaf : ∀ folder ∈ m, folder.parentId ≠ some id) {x y : String}
    (hup : (m.delete id).up x = some y) : m.up x = some y := by
  rcases eq_or_ne x id with rfl | hne
  · rw [up_delete_self] at hup
    cases hup
  · exact (h.up_delete_other hleaf hne).symm.trans hup

theorem delete (h : Linked m) (hleaf : ∀ folder ∈ m, folder.parentId ≠ some id) :
    Linked (m.delete id) := by
  refine ⟨?_, h.ranked.mono fun x y hxy => h.up_of_delete hleaf hxy⟩
  intro folder hfolder p hp
  obtain ⟨hmem, _⟩ := FolderMap.mem_delete.mp hfolder
  refine FolderMap.has_delete.mpr ⟨h.parents folder hmem p hp, ?_⟩
  rintro rfl
  exact hleaf folder hmem ((orNull_some (ne_empty_of_orNull hp)).mp hp)

end Linked

/-! ### Importing -/

theorem mem_foldl_import {merge : Bool} {items : List {folder // folder ∈ data.list}}
    (hnodup : (items.map (·.1.id)).Nodup) {m : FolderMap}
    (hfresh : merge = false → ∀ item ∈ items, m.has item.1.id = false) :
    folder ∈ items.foldl (fun m folder =>
        if m.has folder.1.id && merge then m else m.set folder.1 (data.named folder.1 folder.2)) m ↔
      folder ∈ m ∨ (∃ item ∈ items, item.1 = folder) ∧ m.has folder.id = false := by
  induction items generalizing m with
  | nil => simp
  | cons first rest ih =>
      rw [List.map_cons, List.nodup_cons] at hnodup
      have hapart : ∀ item ∈ rest, item.1.id ≠ first.1.id := by
        intro item hitem heq
        apply hnodup.1
        rw [← heq]
        exact List.mem_map.mpr ⟨item, hitem, rfl⟩
      rw [List.foldl_cons]
      cases hhas : m.has first.1.id with
      | true =>
          have hmerge : merge = true := by
            cases merge with
            | true => rfl
            | false => cases hhas.symm.trans (hfresh rfl first List.mem_cons_self)
          subst hmerge
          rw [Bool.and_self, if_pos rfl, ih hnodup.2 (by simp)]
          apply or_congr_right
          constructor
          · rintro ⟨⟨item, hitem, rfl⟩, hnot⟩
            exact ⟨⟨item, List.mem_cons_of_mem _ hitem, rfl⟩, hnot⟩
          · rintro ⟨⟨item, hitem, rfl⟩, hnot⟩
            rcases List.mem_cons.mp hitem with rfl | hitem
            · cases hhas.symm.trans hnot
            · exact ⟨⟨item, hitem, rfl⟩, hnot⟩
      | false =>
          rw [Bool.false_and, if_neg Bool.false_ne_true, ih hnodup.2, FolderMap.mem_set]
          · constructor
            · rintro ((rfl | ⟨hmem, _⟩) | ⟨⟨item, hitem, rfl⟩, hnot⟩)
              · exact .inr ⟨⟨first, List.mem_cons_self, rfl⟩, hhas⟩
              · exact .inl hmem
              · refine .inr ⟨⟨item, List.mem_cons_of_mem _ hitem, rfl⟩, ?_⟩
                apply Bool.eq_false_iff.mpr
                intro hmem
                rw [FolderMap.has_set.mpr (.inr hmem)] at hnot
                cases hnot
            · rintro (hmem | ⟨⟨item, hitem, rfl⟩, hnot⟩)
              · refine .inl (.inr ⟨hmem, ?_⟩)
                intro heq
                rw [← heq, has_of_mem hmem] at hhas
                cases hhas
              · rcases List.mem_cons.mp hitem with rfl | hitem
                · exact .inl (.inl rfl)
                · refine .inr ⟨⟨item, hitem, rfl⟩, ?_⟩
                  apply Bool.eq_false_iff.mpr
                  intro hset
                  rcases FolderMap.has_set.mp hset with heq | hmem
                  · exact hapart item hitem heq
                  · rw [hnot] at hmem
                    cases hmem
          · intro hmerge item hitem
            apply Bool.eq_false_iff.mpr
            intro hset
            rcases FolderMap.has_set.mp hset with heq | hmem
            · exact hapart item hitem heq
            · rw [hfresh hmerge item (List.mem_cons_of_mem _ hitem)] at hmem
              cases hmem

theorem mem_importFolderList {merge : Bool}
    (hfresh : merge = false → ∀ folder ∈ data, m.has folder.id = false) :
    folder ∈ importFolderList merge m data ↔
      folder ∈ m ∨ (folder ∈ data ∧ m.has folder.id = false) := by
  unfold importFolderList
  rw [mem_foldl_import _ fun hmerge item _ => hfresh hmerge item.1 item.2]
  · apply or_congr_right
    apply and_congr_left
    intro _
    constructor
    · rintro ⟨item, _, rfl⟩
      exact item.2
    · intro hmem
      exact ⟨⟨folder, hmem⟩, List.mem_attach _ _, rfl⟩
  · have hmap : data.list.attach.map (fun item => item.1.id) = data.list.map (·.id) := by
      rw [← List.attach_map_subtype_val data.list, List.map_map, List.attach_map_subtype_val]
      rfl
    rw [hmap]
    exact data.nodup

theorem mem_merge : folder ∈ importFolderList true m data ↔
    folder ∈ m ∨ (folder ∈ data ∧ m.has folder.id = false) := by
  apply mem_importFolderList
  intro hmerge
  cases hmerge

theorem has_merge {id : String} :
    (importFolderList true m data).has id = true ↔ m.has id = true ∨ data.has id = true := by
  simp only [FolderMap.has_iff, mem_merge]
  constructor
  · rintro ⟨folder, hfolder | ⟨hfolder, _⟩, rfl⟩
    · exact .inl ⟨folder, hfolder, rfl⟩
    · exact .inr ⟨folder, hfolder, rfl⟩
  · rintro (⟨folder, hfolder, rfl⟩ | ⟨folder, hfolder, rfl⟩)
    · exact ⟨folder, .inl hfolder, rfl⟩
    · cases hold : m.has folder.id with
      | false => exact ⟨folder, .inr ⟨hfolder, hold⟩, rfl⟩
      | true =>
          obtain ⟨other, hother, hid⟩ := FolderMap.has_iff.mp hold
          exact ⟨other, .inl hother, hid⟩

namespace Linked

theorem up_merge_old (h : Linked m) {x y : String} (hx : m.has x = true)
    (hup : (importFolderList true m data).up x = some y) : m.up x = some y := by
  obtain ⟨⟨folder, hfolder, rfl, hp⟩, hhas⟩ := FolderMap.up_eq_some_iff.mp hup
  rcases mem_merge.mp hfolder with hfolder | ⟨_, hnot⟩
  · exact h.up_of_parent hfolder ((orNull_some (ne_empty_of_has hhas)).mpr hp)
  · cases hx.symm.trans hnot

theorem up_merge_new (hdata : Linked data) {x y : String} (hx : m.has x = false)
    (hup : (importFolderList true m data).up x = some y) : data.up x = some y := by
  obtain ⟨⟨folder, hfolder, rfl, hp⟩, hhas⟩ := FolderMap.up_eq_some_iff.mp hup
  rcases mem_merge.mp hfolder with hfolder | ⟨hfolder, _⟩
  · cases hx.symm.trans (has_of_mem hfolder)
  · exact hdata.up_of_parent hfolder ((orNull_some (ne_empty_of_has hhas)).mpr hp)

theorem merge (h : Linked m) (hdata : Linked data) : Linked (importFolderList true m data) := by
  have hnodes : ∀ id, id ∈ m.list.map (·.id) ↔ m.has id = true := by
    intro id
    rw [FolderMap.has_iff, List.mem_map]
    rfl
  constructor
  · intro folder hfolder p hp
    apply has_merge.mpr
    rcases mem_merge.mp hfolder with hfolder | ⟨hfolder, _⟩
    · exact .inl (h.parents folder hfolder p hp)
    · exact .inr (hdata.parents folder hfolder p hp)
  · refine h.ranked.extend hdata.ranked (?_ : ∀ x ∈ m.list.map (·.id), _) ?_
    · intro x hx y hxy
      rw [hnodes] at hx ⊢
      have hup := h.up_merge_old hx hxy
      exact ⟨(FolderMap.up_eq_some_iff.mp hup).2, hup⟩
    · intro x hx y hxy
      rw [hnodes] at hx
      exact .inr (hdata.up_merge_new (Bool.eq_false_iff.mpr hx) hxy)

end Linked

theorem mem_replace : folder ∈ importFolderList false .empty data ↔ folder ∈ data := by
  rw [mem_importFolderList fun _ _ _ => rfl]
  constructor
  · rintro (hmem | ⟨hmem, _⟩)
    · cases hmem
    · exact hmem
  · exact fun hmem => .inr ⟨hmem, rfl⟩

end Qontinui.Folders
