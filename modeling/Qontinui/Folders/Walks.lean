import Qontinui.Base.FallibleLoops
import Qontinui.Folders.FolderMap

/-!
What the walks find, and that they come to an end where no folder lies below itself.
-/

namespace Qontinui.Folders

open ParentLinks FallibleLoops

section Walks

variable {m : FolderMap}

/-! ### Children -/

theorem mem_getChildren {parentId : Option String} {child : WorkflowFolder} :
    child ∈ getChildren m parentId ↔ child ∈ m ∧ child.parentId = parentId := by
  rw [getChildren, List.mem_mergeSort, List.mem_filter, beq_iff_eq]
  rfl

theorem getChildren_nodup (m : FolderMap) (parentId : Option String) :
    ((getChildren m parentId).map (·.id)).Nodup := by
  have hperm := List.mergeSort_perm (m.list.filter fun folder => folder.parentId == parentId)
    fun a b => decide (a.order.getD 0 ≤ b.order.getD 0)
  apply (hperm.map (·.id)).nodup_iff.mpr
  exact m.nodup.sublist (List.filter_sublist.map _)

variable {id : String} {folder : WorkflowFolder} {fuel : Nat} {found : List WorkflowFolder}
  {rank : String → Nat}

theorem mem_children_iff (hid : m.has id = true) {child : WorkflowFolder} :
    child ∈ getChildren m (some id) ↔ child ∈ m ∧ m.up child.id = some id := by
  rw [mem_getChildren, FolderMap.up_eq_some_iff]
  constructor
  · rintro ⟨hmem, hparent⟩
    exact ⟨hmem, ⟨child, hmem, rfl, hparent⟩, hid⟩
  · rintro ⟨hmem, ⟨other, hother, hsame, hparent⟩, _⟩
    rw [FolderMap.eq_of_id hmem hother hsame.symm]
    exact ⟨hother, hparent⟩

theorem has_of_mem (h : folder ∈ m) : m.has folder.id = true :=
  FolderMap.has_iff.mpr ⟨folder, h, rfl⟩

theorem has_of_up {parent : String} (h : m.up id = some parent) : m.has id = true := by
  obtain ⟨⟨folder, hmem, hid, _⟩, _⟩ := FolderMap.up_eq_some_iff.mp h
  exact FolderMap.has_iff.mpr ⟨folder, hmem, hid⟩

variable {n bound : Nat}

theorem has_of_climbs {above : String} (h : Climbs m.up (n + 1) id above) : m.has id = true := by
  cases h with
  | link hup _ => exact has_of_up hup

theorem up_of_at? {above : WorkflowFolder} (hget : m.get id = some folder)
    (habove : m.at? folder.parentId = some above) : m.up id = some above.id := by
  rw [FolderMap.up, hget, Option.bind_some, habove, Option.map_some]

theorem get_of_at? {parentId : Option String} (h : m.at? parentId = some folder) :
    parentId = some folder.id ∧ folder ∈ m := by
  cases parentId with
  | none => cases h
  | some id =>
      rw [FolderMap.at?_some] at h
      obtain ⟨hmem, rfl⟩ := FolderMap.get_eq_some_iff.mp h
      exact ⟨rfl, hmem⟩

/-! ### Depth -/

theorem calculateDepth_spec (hid : m.has id = true) (h : calculateDepth m fuel (some id) = some n) :
    ∃ k root, n = k + 1 ∧ Climbs m.up k id root ∧ m.up root = none := by
  induction fuel generalizing id n with
  | zero => cases h
  | succ fuel ih =>
      obtain ⟨folder, hget⟩ := Option.isSome_iff_exists.mp hid
      unfold calculateDepth at h
      rw [FolderMap.at?_some, hget] at h
      obtain ⟨n', hn', rfl⟩ := Option.map_eq_some_iff.mp h
      cases hat : m.at? folder.parentId with
      | none =>
          have hup : m.up id = none := by rw [FolderMap.up, hget, Option.bind_some, hat]; rfl
          have hzero : n' = 0 := by
            cases fuel with
            | zero => cases hn'
            | succ fuel =>
                unfold calculateDepth at hn'
                rw [hat] at hn'
                exact (Option.some.inj hn').symm
          exact ⟨0, id, by rw [hzero], .here id, hup⟩
      | some above =>
          obtain ⟨hparent, habove⟩ := get_of_at? hat
          rw [hparent] at hn'
          obtain ⟨k, root, rfl, hclimbs, hroot⟩ := ih (has_of_mem habove) hn'
          exact ⟨k + 1, root, rfl, .link (up_of_at? hget hat) hclimbs, hroot⟩

/-! ### Descendants -/

/-- Each folder of a list followed by its descendants. -/
def Parts (m : FolderMap) (fuel : Nat) (folders : List WorkflowFolder)
    (parts : List (List WorkflowFolder)) : Prop :=
  List.Forall₂ (fun folder part =>
    ∃ below, getFolderDescendants m fuel folder.id = some below ∧ part = folder :: below)
    folders parts

theorem getFolderDescendants_succ (h : getFolderDescendants m (fuel + 1) id = some found) :
    ∃ parts, found = parts.flatten ∧ Parts m fuel (getChildren m (some id)) parts := by
  simp only [getFolderDescendants, Option.bind_eq_bind, Option.pure_def, Option.bind_eq_some_iff,
    Option.some.injEq, mapM_eq_some_iff] at h
  obtain ⟨parts, hparts, rfl⟩ := h
  refine ⟨parts, rfl, hparts.imp ?_⟩
  rintro child part ⟨below, hbelow, rfl⟩
  exact ⟨below, hbelow, rfl⟩

theorem mem_parts {folders : List WorkflowFolder} {parts : List (List WorkflowFolder)}
    (hfolders : ∀ folder ∈ folders, folder ∈ m)
    (hbelow : ∀ folder ∈ folders, ∀ below, getFolderDescendants m fuel folder.id = some below →
      ∀ y, y ∈ below ↔ y ∈ m ∧ ∃ n, Climbs m.up (n + 1) y.id folder.id)
    (h : Parts m fuel folders parts) {y : WorkflowFolder} :
    y ∈ parts.flatten ↔ y ∈ m ∧ ∃ folder ∈ folders, ∃ n, Climbs m.up n y.id folder.id := by
  rw [List.mem_flatten]
  constructor
  · rintro ⟨part, hpart, hy⟩
    obtain ⟨folder, hfolder, below, hfound, rfl⟩ := mem_right_of_forall₂ h hpart
    rcases List.mem_cons.mp hy with rfl | hy
    · exact ⟨hfolders _ hfolder, _, hfolder, 0, .here _⟩
    · obtain ⟨hmem, n, hclimbs⟩ := (hbelow folder hfolder below hfound y).mp hy
      exact ⟨hmem, folder, hfolder, n + 1, hclimbs⟩
  · rintro ⟨hmem, folder, hfolder, n, hclimbs⟩
    obtain ⟨part, hpart, below, hfound, rfl⟩ := mem_left_of_forall₂ h hfolder
    refine ⟨_, hpart, ?_⟩
    cases n with
    | zero =>
        rw [FolderMap.eq_of_id hmem (hfolders _ hfolder) hclimbs.zero_eq]
        exact List.mem_cons_self
    | succ n =>
        apply List.mem_cons_of_mem
        exact (hbelow folder hfolder below hfound y).mpr ⟨hmem, n, hclimbs⟩

theorem mem_getFolderDescendants (hid : m.has id = true)
    (h : getFolderDescendants m fuel id = some found) :
    folder ∈ found ↔ folder ∈ m ∧ ∃ n, Climbs m.up (n + 1) folder.id id := by
  induction fuel generalizing id found folder with
  | zero => cases h
  | succ fuel ih =>
      obtain ⟨parts, rfl, hparts⟩ := getFolderDescendants_succ h
      have hchildren : ∀ child ∈ getChildren m (some id), child ∈ m :=
        fun child hchild => (mem_getChildren.mp hchild).1
      rw [mem_parts hchildren
        (fun child hchild below hbelow y => ih (has_of_mem (hchildren child hchild)) hbelow)
        hparts]
      apply and_congr_right
      intro _
      constructor
      · rintro ⟨child, hchild, n, hclimbs⟩
        exact ⟨n, hclimbs.trans (.single ((mem_children_iff hid).mp hchild).2)⟩
      · rintro ⟨n, hclimbs⟩
        obtain ⟨childId, hbelow, hup⟩ := hclimbs.last
        obtain ⟨child, hmem, rfl⟩ := FolderMap.has_iff.mp (has_of_up hup)
        exact ⟨child, (mem_children_iff hid).mpr ⟨hmem, hup⟩, n, hbelow⟩

/-- Parts below folders none of which lies above another have nothing in common. -/
theorem parts_nodup {folders : List WorkflowFolder} {parts : List (List WorkflowFolder)}
    (hranked : Ranked m.up) (hnodup : (folders.map (·.id)).Nodup)
    (hfolders : ∀ folder ∈ folders, folder ∈ m)
    (hapart : ∀ folder ∈ folders, ∀ other ∈ folders, ∀ n,
      Climbs m.up n folder.id other.id → folder.id = other.id)
    (hbelow : ∀ folder ∈ folders, ∀ below, getFolderDescendants m fuel folder.id = some below →
      (below.map (·.id)).Nodup) (h : Parts m fuel folders parts) :
    (parts.flatten.map (·.id)).Nodup := by
  induction h with
  | nil => exact List.nodup_nil
  | @cons folder part rest parts hpart hrest ih =>
      obtain ⟨below, hfound, rfl⟩ := hpart
      rw [List.map_cons, List.nodup_cons] at hnodup
      have hmem := hfolders folder List.mem_cons_self
      have hspec : ∀ y, y ∈ below ↔ y ∈ m ∧ ∃ n, Climbs m.up (n + 1) y.id folder.id :=
        fun y => mem_getFolderDescendants (has_of_mem hmem) hfound
      have hfolders' : ∀ other ∈ rest, other ∈ m :=
        fun other hother => hfolders other (List.mem_cons_of_mem _ hother)
      rw [List.flatten_cons, List.map_append, List.nodup_append]
      refine ⟨?_, ?_, ?_⟩
      · rw [List.map_cons, List.nodup_cons]
        refine ⟨fun hid => ?_, hbelow folder List.mem_cons_self below hfound⟩
        obtain ⟨y, hy, hyid⟩ := List.mem_map.mp hid
        obtain ⟨_, n, hclimbs⟩ := (hspec y).mp hy
        rw [hyid] at hclimbs
        exact hranked.no_cycle hclimbs
      · exact ih hnodup.2 hfolders'
          (fun f hf o ho => hapart f (List.mem_cons_of_mem _ hf) o (List.mem_cons_of_mem _ ho))
          (fun f hf => hbelow f (List.mem_cons_of_mem _ hf))
      · intro a ha b hb hab
        obtain ⟨x, hx, rfl⟩ := List.mem_map.mp ha
        obtain ⟨y, hy, rfl⟩ := List.mem_map.mp hb
        have hxup : ∃ n, Climbs m.up n x.id folder.id := by
          rcases List.mem_cons.mp hx with rfl | hx
          · exact ⟨0, .here _⟩
          · obtain ⟨_, n, hclimbs⟩ := (hspec x).mp hx
            exact ⟨n + 1, hclimbs⟩
        obtain ⟨_, other, hother, k, hk⟩ := (mem_parts hfolders'
          (fun o ho below hb y => mem_getFolderDescendants (has_of_mem (hfolders' o ho)) hb)
          hrest).mp hy
        obtain ⟨n, hn⟩ := hxup
        have hother' := List.mem_cons_of_mem folder hother
        have hself : folder ∈ folder :: rest := List.mem_cons_self
        rw [← hab] at hk
        have hsame : folder.id = other.id := by
          rcases Nat.le_total n k with hle | hle
          · obtain ⟨d, rfl⟩ := Nat.exists_eq_add_of_le hle
            exact hapart folder hself other hother' d (hn.linear hk)
          · obtain ⟨d, rfl⟩ := Nat.exists_eq_add_of_le hle
            exact (hapart other hother' folder hself d (hk.linear hn)).symm
        apply hnodup.1
        rw [hsame]
        exact List.mem_map_of_mem hother

theorem children_apart (hranked : Ranked m.up) {child other : String}
    (hchild : m.up child = some id) (hother : m.up other = some id) (h : Climbs m.up n child other) :
    child = other := by
  cases h with
  | here => rfl
  | @link n _ _ _ hup rest =>
      cases hchild.symm.trans hup
      exact absurd (rest.trans (.single hother)) hranked.no_cycle

theorem getFolderDescendants_nodup (hranked : Ranked m.up) (hid : m.has id = true)
    (h : getFolderDescendants m fuel id = some found) : (found.map (·.id)).Nodup := by
  induction fuel generalizing id found with
  | zero => cases h
  | succ fuel ih =>
      obtain ⟨parts, rfl, hparts⟩ := getFolderDescendants_succ h
      apply parts_nodup hranked (getChildren_nodup m _) _ _ _ hparts
      · exact fun child hchild => (mem_getChildren.mp hchild).1
      · intro child hchild other hother n
        exact children_apart hranked ((mem_children_iff hid).mp hchild).2
          ((mem_children_iff hid).mp hother).2
      · exact fun child hchild below hbelow => ih (has_of_mem (mem_getChildren.mp hchild).1) hbelow

/-- No descendant lies deeper below than the depth that is found. -/
theorem getMaxDescendantDepth_le {currentDepth : Nat} (hid : m.has id = true)
    (h : getMaxDescendantDepth m fuel id currentDepth = some n) {k : Nat} {below : String}
    (hbelow : Climbs m.up k below id) : currentDepth + k ≤ n := by
  induction fuel generalizing id n currentDepth k below with
  | zero => cases h
  | succ fuel ih =>
      simp only [getMaxDescendantDepth, Option.bind_eq_bind, Option.pure_def,
        Option.bind_eq_some_iff, Option.some.injEq, mapM_eq_some_iff] at h
      obtain ⟨depths, hdepths, rfl⟩ := h
      have hge : ∀ child ∈ getChildren m (some id), ∀ k, Climbs m.up k below child.id →
          currentDepth + 1 + k ≤ depths.max?.getD currentDepth := by
        intro child hchild k hk
        obtain ⟨d, hd, hdepth⟩ := mem_left_of_forall₂ hdepths hchild
        have hle := ih (has_of_mem (mem_getChildren.mp hchild).1) hdepth hk
        obtain ⟨top, htop⟩ := Option.isSome_iff_exists.mp
          (List.isSome_max?_of_mem hd)
        have hmax := (List.max?_eq_some_iff.mp htop).2 d hd
        rw [htop, Option.getD_some]
        exact hle.trans hmax
      cases k with
      | zero =>
          rcases hchildren : depths.max? with _ | top
          · exact Nat.le_refl _
          · have hmem := (List.max?_eq_some_iff.mp hchildren).1
            obtain ⟨child, hchild, hdepth⟩ := mem_right_of_forall₂ hdepths hmem
            have hle := ih (has_of_mem (mem_getChildren.mp hchild).1) hdepth (.here _)
            simp only [Option.getD_some]
            omega
      | succ k =>
          obtain ⟨childId, hk, hup⟩ := hbelow.last
          obtain ⟨child, hmem, rfl⟩ := FolderMap.has_iff.mp (has_of_up hup)
          have hle := hge child ((mem_children_iff hid).mpr ⟨hmem, hup⟩) k hk
          omega

/-! ### The walks come to an end -/

theorem calculateDepth_eq (m : FolderMap) (fuel : Nat) (current : Option String) :
    calculateDepth m fuel current = (pathUp m fuel current).map List.length := by
  induction fuel generalizing current with
  | zero => rfl
  | succ fuel ih =>
      unfold calculateDepth pathUp
      cases m.at? current with
      | none => rfl
      | some folder =>
          simp only [ih, Option.map_map]
          rfl

section

variable (hrank : ∀ x y, m.up x = some y → rank y < rank x)
include hrank

theorem pathUp_returns {current : Option String} (hpos : 0 < fuel)
    (hfuel : ∀ folder, m.at? current = some folder → rank folder.id + 1 < fuel) :
    ∃ path, pathUp m fuel current = some path := by
  induction fuel generalizing current with
  | zero => cases hpos
  | succ fuel ih =>
      unfold pathUp
      cases hat : m.at? current with
      | none => exact ⟨[], rfl⟩
      | some folder =>
          have hlt := hfuel folder hat
          obtain ⟨hcurrent, hmem⟩ := get_of_at? hat
          obtain ⟨path, hpath⟩ : ∃ path, pathUp m fuel folder.parentId = some path := by
            apply ih
            · omega
            · intro above habove
              have hup := hrank _ _ (up_of_at? (FolderMap.get_of_mem hmem) habove)
              omega
          exact ⟨folder :: path, by simp only [hpath, Option.map_some]⟩

section

variable (hbound : ∀ folder ∈ m, rank folder.id ≤ bound)
include hbound

theorem getFolderDescendants_returns (hmem : folder ∈ m) (hfuel : bound < rank folder.id + fuel) :
    ∃ found, getFolderDescendants m fuel folder.id = some found := by
  induction fuel generalizing folder with
  | zero =>
      have hle := hbound folder hmem
      omega
  | succ fuel ih =>
      have hchildren : ∀ child ∈ getChildren m (some folder.id), ∃ part,
          (do let below ← getFolderDescendants m fuel child.id
              return child :: below) = some part := by
        intro child hchild
        obtain ⟨hchildmem, hup⟩ := (mem_children_iff (has_of_mem hmem)).mp hchild
        have hlt := hrank _ _ hup
        obtain ⟨below, hbelow⟩ := ih hchildmem (by omega)
        exact ⟨child :: below, by rw [hbelow]; rfl⟩
      obtain ⟨parts, hparts⟩ := mapM_returns hchildren
      refine ⟨parts.flatten, ?_⟩
      unfold getFolderDescendants
      rw [hparts]
      rfl

theorem getMaxDescendantDepth_returns (hmem : folder ∈ m) (hfuel : bound < rank folder.id + fuel)
    (currentDepth : Nat) :
    ∃ depth, getMaxDescendantDepth m fuel folder.id currentDepth = some depth := by
  induction fuel generalizing folder currentDepth with
  | zero =>
      have hle := hbound folder hmem
      omega
  | succ fuel ih =>
      have hchildren : ∀ child ∈ getChildren m (some folder.id), ∃ depth,
          getMaxDescendantDepth m fuel child.id (currentDepth + 1) = some depth := by
        intro child hchild
        obtain ⟨hchildmem, hup⟩ := (mem_children_iff (has_of_mem hmem)).mp hchild
        have hlt := hrank _ _ hup
        exact ih hchildmem (by omega) (currentDepth + 1)
      obtain ⟨depths, hdepths⟩ := mapM_returns hchildren
      refine ⟨depths.max?.getD currentDepth, ?_⟩
      unfold getMaxDescendantDepth
      rw [hdepths]
      rfl

theorem buildTree_returns {rootId : Option String} (hpos : 0 < fuel)
    (hfuel : ∀ folder ∈ getChildren m rootId, 2 * bound + 2 ≤ rank folder.id + fuel) (depth : Nat) :
    ∃ nodes, buildTree m fuel rootId depth = some nodes := by
  induction fuel generalizing rootId depth with
  | zero => cases hpos
  | succ fuel ih =>
      unfold buildTree
      apply mapM_returns
      intro child hchild
      have hmem := (mem_getChildren.mp hchild).1
      have hle := hbound child hmem
      have henough := hfuel child hchild
      obtain ⟨children, hchildren⟩ : ∃ children,
          buildTree m fuel (some child.id) (depth + 1) = some children := by
        apply ih
        · omega
        · intro below hbelow
          have hup := hrank _ _ ((mem_children_iff (has_of_mem hmem)).mp hbelow).2
          omega
      obtain ⟨path, hpath⟩ : ∃ path, pathUp m (fuel + 1) (some child.id) = some path := by
        apply pathUp_returns hrank (Nat.succ_pos fuel)
        intro folder hat
        obtain ⟨hid, _⟩ := get_of_at? hat
        rw [← Option.some.inj hid]
        omega
      exact ⟨_, by rw [hchildren, hpath]; rfl⟩

end

end

theorem walks_return (hranked : Ranked m.up) : ∃ enough, ∀ fuel, enough ≤ fuel →
    (∀ folder ∈ m, (∃ path, pathUp m fuel (some folder.id) = some path) ∧
      (∃ found, getFolderDescendants m fuel folder.id = some found) ∧
      ∀ depth, ∃ deepest, getMaxDescendantDepth m fuel folder.id depth = some deepest) ∧
    ∀ rootId depth, ∃ nodes, buildTree m fuel rootId depth = some nodes := by
  obtain ⟨rank, hrank⟩ := hranked
  obtain ⟨bound, hbound⟩ : ∃ bound, ∀ folder ∈ m, rank folder.id ≤ bound := by
    refine ⟨(m.list.map fun folder => rank folder.id).sum, fun folder hfolder => ?_⟩
    exact List.single_le_sum (fun _ _ => Nat.zero_le _) _ (List.mem_map.mpr ⟨folder, hfolder, rfl⟩)
  refine ⟨2 * bound + 2, fun fuel hfuel => ⟨fun folder hmem => ?_, fun rootId depth => ?_⟩⟩
  · have hle := hbound folder hmem
    refine ⟨?_, ?_, fun depth => ?_⟩
    · apply pathUp_returns hrank (by omega)
      intro above hat
      obtain ⟨hid, _⟩ := get_of_at? hat
      rw [← Option.some.inj hid]
      omega
    · exact getFolderDescendants_returns hrank hbound hmem (by omega)
    · exact getMaxDescendantDepth_returns hrank hbound hmem (by omega) depth
  · apply buildTree_returns hrank hbound (by omega)
    intro folder _
    omega

/-! ### The tree -/

theorem buildTree_parts {depth : Nat} {rootId : Option String} {nodes : List FolderTreeNode}
    (h : buildTree m (fuel + 1) rootId depth = some nodes) :
    ∃ parts, Parts m fuel (getChildren m rootId) parts ∧
      treeIds nodes = parts.flatten.map (·.id) := by
  induction fuel generalizing rootId depth nodes with
  | zero =>
      unfold buildTree at h
      rw [mapM_eq_some_iff] at h
      cases hchildren : getChildren m rootId with
      | nil =>
          rw [hchildren] at h
          cases h
          exact ⟨[], .nil, rfl⟩
      | cons child rest =>
          rw [hchildren] at h
          cases h with
          | cons hchild _ => cases hchild
  | succ fuel ih =>
      unfold buildTree at h
      rw [mapM_eq_some_iff] at h
      generalize getChildren m rootId = children at h
      induction h with
      | nil => exact ⟨[], .nil, rfl⟩
      | @cons child node rest nodes hchild _ ihrest =>
          obtain ⟨parts, hparts, hids⟩ := ihrest
          simp only [Option.bind_eq_bind, Option.pure_def, Option.bind_eq_some_iff,
            Option.some.injEq] at hchild
          obtain ⟨below, hbelow, path, _, rfl⟩ := hchild
          obtain ⟨belowParts, hbelowParts, hbelowIds⟩ := ih hbelow
          have hfound : getFolderDescendants m (fuel + 1) child.id = some belowParts.flatten := by
            have hmap : (getChildren m (some child.id)).mapM (fun c => do
                let found ← getFolderDescendants m fuel c.id
                return c :: found) = some belowParts := by
              apply mapM_eq_some_iff.mpr
              apply hbelowParts.imp
              rintro c part ⟨found, hc, rfl⟩
              rw [hc]
              rfl
            unfold getFolderDescendants
            rw [hmap]
            rfl
          refine ⟨(child :: belowParts.flatten) :: parts, .cons ⟨_, hfound, rfl⟩ hparts, ?_⟩
          simp [treeIds, FolderTreeNode.ids, hids, hbelowIds]

theorem exists_root (hranked : Ranked m.up) (hid : m.has id = true) :
    ∃ n root, Climbs m.up n id root ∧ m.up root = none ∧ m.has root = true := by
  obtain ⟨rank, hrank⟩ := hranked
  induction hr : rank id using Nat.strong_induction_on generalizing id with
  | _ r ih =>
      cases hup : m.up id with
      | none => exact ⟨0, id, .here id, hup, hid⟩
      | some parent =>
          obtain ⟨_, hparent⟩ := FolderMap.up_eq_some_iff.mp hup
          have hlt := hrank id parent hup
          obtain ⟨n, root, hclimbs, hroot, hhas⟩ := ih (rank parent) (hr ▸ hlt) hparent rfl
          exact ⟨n + 1, root, .link hup hclimbs, hroot, hhas⟩

/-- Where every parent is a folder, the tree below `null` has every folder once. -/
theorem buildTree_perm (hranked : Ranked m.up)
    (hparents : ∀ folder ∈ m, ∀ p, folder.parentId = some p → m.has p = true) {depth : Nat}
    {nodes : List FolderTreeNode} (h : buildTree m fuel none depth = some nodes) :
    (treeIds nodes).Perm (m.list.map (·.id)) := by
  cases fuel with
  | zero => cases h
  | succ fuel =>
      obtain ⟨parts, hparts, hids⟩ := buildTree_parts h
      have hroots : ∀ folder ∈ getChildren m none, folder ∈ m ∧ m.up folder.id = none := by
        intro folder hfolder
        obtain ⟨hmem, hparent⟩ := mem_getChildren.mp hfolder
        refine ⟨hmem, ?_⟩
        rw [FolderMap.up, FolderMap.get_of_mem hmem, Option.bind_some, hparent]
        rfl
      have hbelow : ∀ folder ∈ getChildren m none, ∀ below,
          getFolderDescendants m fuel folder.id = some below →
          ∀ y, y ∈ below ↔ y ∈ m ∧ ∃ n, Climbs m.up (n + 1) y.id folder.id :=
        fun folder hfolder below hfound y =>
          mem_getFolderDescendants (has_of_mem (hroots folder hfolder).1) hfound
      have hnodup : (parts.flatten.map (·.id)).Nodup := by
        apply parts_nodup hranked (getChildren_nodup m none) _ _ _ hparts
        · exact fun folder hfolder => (hroots folder hfolder).1
        · intro folder hfolder other _ n hclimbs
          exact hclimbs.eq_of_root (hroots folder hfolder).2
        · exact fun folder hfolder below hfound =>
            getFolderDescendants_nodup hranked (has_of_mem (hroots folder hfolder).1) hfound
      rw [hids, List.perm_ext_iff_of_nodup hnodup m.nodup]
      intro id
      simp only [List.mem_map]
      constructor
      · rintro ⟨folder, hfolder, rfl⟩
        exact ⟨folder, ((mem_parts (fun f hf => (hroots f hf).1) hbelow hparts).mp hfolder).1, rfl⟩
      · rintro ⟨folder, hfolder, rfl⟩
        refine ⟨folder, ?_, rfl⟩
        apply (mem_parts (fun f hf => (hroots f hf).1) hbelow hparts).mpr
        obtain ⟨n, rootId, hclimbs, hroot, hhas⟩ := exists_root hranked (has_of_mem hfolder)
        obtain ⟨root, hrootmem, rfl⟩ := FolderMap.has_iff.mp hhas
        refine ⟨hfolder, root, mem_getChildren.mpr ⟨hrootmem, ?_⟩, n, hclimbs⟩
        cases hparent : root.parentId with
        | none => rfl
        | some p =>
            have hup : m.up root.id = some p := FolderMap.up_eq_some_iff.mpr
              ⟨⟨root, hrootmem, rfl, hparent⟩, hparents root hrootmem p hparent⟩
            cases hroot.symm.trans hup

end Walks

end Qontinui.Folders
