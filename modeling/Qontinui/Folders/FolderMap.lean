import Mathlib.Algebra.Order.Ring.Rat
import Qontinui.Base.JsBuiltins
import Qontinui.Base.JsText
import Qontinui.Base.ParentLinks

/-!
The folders of the workflow organiser, and the walks up to the root and down to the leaves.
A walk has fuel for its recursion; `none` is a walk that has not come to an end.
-/

namespace Qontinui.Folders

open ParentLinks

/-- `WorkflowFolder`, without its metadata. -/
structure WorkflowFolder where
  id : String
  name : String
  parentId : Option String
  color : Option String
  icon : Option String
  description : Option String
  order : Option Rat
deriving DecidableEq, Repr

/-! ### The map -/

/-- The `Map` of folders. Each stands under its own id, and no id is the empty text. -/
structure FolderMap where
  list : List WorkflowFolder
  nodup : (list.map (·.id)).Nodup
  named : ∀ folder ∈ list, folder.id ≠ ""

namespace FolderMap

variable {m : FolderMap} {folder other : WorkflowFolder}

@[ext] theorem ext {m' : FolderMap} (h : m.list = m'.list) : m = m' := by
  cases m
  cases m'
  cases h
  rfl

instance : DecidableEq FolderMap := fun m m' =>
  decidable_of_iff (m.list = m'.list) ⟨ext, congrArg list⟩

instance : Membership WorkflowFolder FolderMap := ⟨fun m folder => folder ∈ m.list⟩

theorem mem_def : folder ∈ m ↔ folder ∈ m.list := Iff.rfl

def empty : FolderMap := ⟨[], List.nodup_nil, nofun⟩

/-- `folders.get(id)`. -/
def get (m : FolderMap) (id : String) : Option WorkflowFolder := m.list.find? (·.id == id)

/-- `folders.has(id)`. -/
def has (m : FolderMap) (id : String) : Bool := (m.get id).isSome

/-- The list with the folder written over the one of its id, or behind the others. -/
def write (folder : WorkflowFolder) : List WorkflowFolder → List WorkflowFolder
  | [] => [folder]
  | other :: rest => if other.id = folder.id then folder :: rest else other :: write folder rest

theorem mem_write {list : List WorkflowFolder} (hnodup : (list.map (·.id)).Nodup) :
    other ∈ write folder list ↔ other = folder ∨ (other ∈ list ∧ other.id ≠ folder.id) := by
  induction list with
  | nil => simp [write]
  | cons first rest ih =>
      rw [List.map_cons, List.nodup_cons] at hnodup
      unfold write
      split_ifs with h
      · constructor
        · intro hmem
          rcases List.mem_cons.mp hmem with rfl | hmem
          · exact .inl rfl
          · refine .inr ⟨List.mem_cons_of_mem _ hmem, fun heq => hnodup.1 ?_⟩
            rw [h, ← heq]
            exact List.mem_map_of_mem hmem
        · rintro (rfl | ⟨hmem, hne⟩)
          · exact List.mem_cons_self
          · rcases List.mem_cons.mp hmem with rfl | hmem
            · exact absurd h hne
            · exact List.mem_cons_of_mem _ hmem
      · rw [List.mem_cons, ih hnodup.2, List.mem_cons]
        constructor
        · rintro (rfl | rfl | ⟨hmem, hne⟩)
          · exact .inr ⟨.inl rfl, h⟩
          · exact .inl rfl
          · exact .inr ⟨.inr hmem, hne⟩
        · rintro (rfl | ⟨rfl | hmem, hne⟩)
          · exact .inr (.inl rfl)
          · exact .inl rfl
          · exact .inr (.inr ⟨hmem, hne⟩)

theorem nodup_write {list : List WorkflowFolder} (hnodup : (list.map (·.id)).Nodup) :
    ((write folder list).map (·.id)).Nodup := by
  induction list with
  | nil => simp [write]
  | cons first rest ih =>
      rw [List.map_cons, List.nodup_cons] at hnodup
      unfold write
      split_ifs with h
      · rw [List.map_cons, List.nodup_cons, ← h]
        exact hnodup
      · rw [List.map_cons, List.nodup_cons]
        refine ⟨fun hmem => ?_, ih hnodup.2⟩
        obtain ⟨other, hother, hid⟩ := List.mem_map.mp hmem
        rcases (mem_write hnodup.2).mp hother with rfl | ⟨hother, _⟩
        · exact h hid.symm
        · apply hnodup.1
          rw [← hid]
          exact List.mem_map_of_mem hother

/-- `folders.set(folder.id, folder)`. -/
def set (m : FolderMap) (folder : WorkflowFolder) (hnamed : folder.id ≠ "") : FolderMap where
  list := write folder m.list
  nodup := nodup_write m.nodup
  named := by
    intro other hother
    rcases (mem_write m.nodup).mp hother with rfl | ⟨hmem, _⟩
    · exact hnamed
    · exact m.named other hmem

/-- `folders.delete(id)`. -/
def delete (m : FolderMap) (id : String) : FolderMap where
  list := m.list.filter fun folder => folder.id != id
  nodup := m.nodup.sublist (List.filter_sublist.map _)
  named := fun folder hfolder => m.named folder (List.mem_filter.mp hfolder).1

variable {id : String}

theorem get_eq_some_iff : m.get id = some folder ↔ folder ∈ m ∧ folder.id = id := by
  constructor
  · intro h
    unfold get at h
    exact ⟨List.mem_of_find?_eq_some h, by simpa using List.find?_some h⟩
  · rintro ⟨hmem, rfl⟩
    cases hget : m.get folder.id with
    | none =>
        unfold get at hget
        have hnone := List.find?_eq_none.mp hget folder hmem
        simp at hnone
    | some other =>
        unfold get at hget
        have hid : other.id = folder.id := by simpa using List.find?_some hget
        have hother : other ∈ m.list := List.mem_of_find?_eq_some hget
        rw [List.inj_on_of_nodup_map m.nodup hother hmem hid]

theorem get_of_mem (h : folder ∈ m) : m.get folder.id = some folder := get_eq_some_iff.mpr ⟨h, rfl⟩

theorem has_iff : m.has id = true ↔ ∃ folder ∈ m, folder.id = id := by
  rw [has, Option.isSome_iff_exists]
  simp only [get_eq_some_iff]

theorem mem_set {hnamed : folder.id ≠ ""} :
    other ∈ m.set folder hnamed ↔ other = folder ∨ (other ∈ m ∧ other.id ≠ folder.id) :=
  mem_write m.nodup

theorem mem_delete : other ∈ m.delete id ↔ other ∈ m ∧ other.id ≠ id := by
  change other ∈ m.list.filter _ ↔ _
  rw [List.mem_filter, bne_iff_ne]
  rfl

theorem eq_of_id (h : folder ∈ m) (hother : other ∈ m) (hid : folder.id = other.id) :
    folder = other :=
  List.inj_on_of_nodup_map m.nodup h hother hid

/-- `get` where the id may be missing; a test such as `while (currentId)` takes the empty id
for a missing one. -/
def at? (m : FolderMap) : Option String → Option WorkflowFolder
  | none => none
  | some id => if id = "" then none else m.get id

theorem at?_some (m : FolderMap) (id : String) : m.at? (some id) = m.get id := by
  unfold at?
  dsimp only
  split_ifs with h
  · cases hget : m.get id with
    | none => rfl
    | some folder =>
        obtain ⟨hmem, hid⟩ := get_eq_some_iff.mp hget
        exact absurd (hid.trans h) (m.named folder hmem)
  · rfl

/-- The folder that a folder of the map lies in, where there is one. -/
def up (m : FolderMap) (id : String) : Option String :=
  (m.get id).bind fun folder => (m.at? folder.parentId).map (·.id)

theorem up_eq_some_iff {parent : String} :
    m.up id = some parent ↔
      (∃ folder ∈ m, folder.id = id ∧ folder.parentId = some parent) ∧ m.has parent = true := by
  unfold up
  rw [Option.bind_eq_some_iff]
  constructor
  · rintro ⟨folder, hget, hup⟩
    obtain ⟨hmem, hid⟩ := get_eq_some_iff.mp hget
    rw [Option.map_eq_some_iff] at hup
    obtain ⟨above, hat, rfl⟩ := hup
    cases hparent : folder.parentId with
    | none =>
        rw [hparent] at hat
        cases hat
    | some parentId =>
        rw [hparent, at?_some] at hat
        obtain ⟨habove, rfl⟩ := get_eq_some_iff.mp hat
        exact ⟨⟨folder, hmem, hid, hparent⟩, has_iff.mpr ⟨above, habove, rfl⟩⟩
  · rintro ⟨⟨folder, hmem, rfl, hparent⟩, hhas⟩
    obtain ⟨above, habove, rfl⟩ := has_iff.mp hhas
    refine ⟨folder, get_of_mem hmem, ?_⟩
    rw [hparent, at?_some, get_of_mem habove]
    rfl

end FolderMap

/-! ### The walks -/

/-- `getChildren`. -/
def getChildren (m : FolderMap) (parentId : Option String) : List WorkflowFolder :=
  (m.list.filter fun folder => folder.parentId == parentId).mergeSort fun a b =>
    decide (a.order.getD 0 ≤ b.order.getD 0)

/-- `calculateDepth`. -/
def calculateDepth (m : FolderMap) : Nat → Option String → Option Nat
  | 0, _ => none
  | fuel + 1, currentId =>
      match m.at? currentId with
      | none => some 0
      | some folder => (calculateDepth m fuel folder.parentId).map (· + 1)

/-- `getFolderPath`, from the folder up to the root; it shows the reverse of this. -/
def pathUp (m : FolderMap) : Nat → Option String → Option (List WorkflowFolder)
  | 0, _ => none
  | fuel + 1, currentId =>
      match m.at? currentId with
      | none => some []
      | some folder => (pathUp m fuel folder.parentId).map (folder :: ·)

/-- `getFolderDescendants`. -/
def getFolderDescendants (m : FolderMap) : Nat → String → Option (List WorkflowFolder)
  | 0, _ => none
  | fuel + 1, folderId => do
      let parts ← (getChildren m (some folderId)).mapM fun child => do
        let below ← getFolderDescendants m fuel child.id
        return child :: below
      return parts.flatten

/-- `getMaxDescendantDepth`. -/
def getMaxDescendantDepth (m : FolderMap) : Nat → String → Nat → Option Nat
  | 0, _, _ => none
  | fuel + 1, folderId, currentDepth => do
      let childDepths ← (getChildren m (some folderId)).mapM fun child =>
        getMaxDescendantDepth m fuel child.id (currentDepth + 1)
      return childDepths.max?.getD currentDepth

/-- `FolderTreeNode`. -/
inductive FolderTreeNode
  | node (folder : WorkflowFolder) (children : List FolderTreeNode) (depth : Nat)
      (path : List String) (hasChildren : Bool)

mutual

def FolderTreeNode.ids : FolderTreeNode → List String
  | .node folder children _ _ _ => folder.id :: treeIds children

def treeIds : List FolderTreeNode → List String
  | [] => []
  | node :: rest => node.ids ++ treeIds rest

end

/-- `buildTree`. -/
def buildTree (m : FolderMap) : Nat → Option String → Nat → Option (List FolderTreeNode)
  | 0, _, _ => none
  | fuel + 1, rootId, depth =>
      (getChildren m rootId).mapM fun folder => do
        let children ← buildTree m fuel (some folder.id) (depth + 1)
        let path ← pathUp m (fuel + 1) (some folder.id)
        return .node folder children depth (path.reverse.map (·.name))
          (!(getChildren m (some folder.id)).isEmpty)

end Qontinui.Folders
