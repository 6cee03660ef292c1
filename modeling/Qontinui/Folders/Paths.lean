import Qontinui.Base.Substring
import Qontinui.Folders.Forest

/-!
The path of a folder, and the folder that a path leads to. The path of every folder leads back
to it where no name has a slash in it, siblings have different names, and no parent id is the
empty text. The folder manager sees to none of the three.
-/

namespace Qontinui.Folders

/-- `getFolderPath`. -/
def getFolderPath (m : FolderMap) (fuel : Nat) (id : String) : Option (List WorkflowFolder) :=
  (pathUp m fuel (some id)).map List.reverse

/-- `names.join("/")`. -/
def joinPath (names : List String) : String :=
  String.ofList (['/'].intercalate (names.map String.toList))

/-- The parts of a path in which `findFolderByPath` looks for names. -/
def pathParts (path : String) : List String :=
  ((path.toList.splitOn '/').map String.ofList).filter fun part => trim part != ""

/-- The loop of `findFolderByPath`: where it stands behind the last part. -/
def followParts (m : FolderMap) : Option String → List String → Option (Option String)
  | currentParentId, [] => some currentParentId
  | currentParentId, part :: rest =>
      match (getChildren m currentParentId).find? (·.name == part) with
      | none => none
      | some found => followParts m (some found.id) rest

/-- `getFolder`. -/
def getFolder (m : FolderMap) (id : String) : Except String WorkflowFolder :=
  match m.get id with
  | none => .error ("Folder not found: " ++ id)
  | some folder => .ok folder

/-- `findFolderByPath`. -/
def findFolderByPath (m : FolderMap) (path : String) : Except String WorkflowFolder :=
  if (pathParts path).isEmpty then .error "Invalid path"
  else
    match followParts m none (pathParts path) with
    | none => .error ("Folder not found at path: " ++ path)
    | some currentParentId =>
        match orNull currentParentId with
        | none => .error "Folder not found"
        | some id => getFolder m id

def LeadsBack (m : FolderMap) (folder : WorkflowFolder) : Prop :=
  ∃ enough, ∀ fuel, enough ≤ fuel → ∃ path, getFolderPath m fuel folder.id = some path ∧
    findFolderByPath m (joinPath (path.map (·.name))) = .ok folder

/-! ### Texts -/

theorem trim_ne_empty_iff {text : String} :
    trim text ≠ "" ↔ ∃ c ∈ text.toList, isJsSpace c = false := by
  constructor
  · intro h
    by_contra hall
    push Not at hall
    apply h
    have hdrop : text.toList.dropWhile isJsSpace = [] :=
      List.dropWhile_eq_nil_iff.mpr fun c hc => by simpa using hall c hc
    rw [trim, hdrop]
    rfl
  · rintro ⟨c, hc, hspace⟩ hempty
    have hmem : c ∈ (trim text).toList := by
      rw [trim, String.toList_ofList]
      exact mem_trim hc hspace
    rw [hempty] at hmem
    cases hmem

theorem trim_trim_ne {text : String} (h : trim text ≠ "") : trim (trim text) ≠ "" := by
  obtain ⟨c, hc, hspace⟩ := trim_ne_empty_iff.mp h
  refine trim_ne_empty_iff.mpr ⟨c, ?_, hspace⟩
  rw [trim, String.toList_ofList]
  exact mem_trim hc hspace

theorem not_mem_of_mem_splitOn {sep : Char} {text part : List Char}
    (h : part ∈ text.splitOn sep) : sep ∉ part := by
  induction text generalizing part with
  | nil =>
      rw [List.splitOn_nil, List.mem_singleton] at h
      rw [h]
      exact List.not_mem_nil
  | cons c rest ih =>
      rw [List.splitOn_cons_eq_if_modifyHead] at h
      split_ifs at h with hc
      · rcases List.mem_cons.mp h with rfl | h
        · exact List.not_mem_nil
        · exact ih h
      · cases hrest : rest.splitOn sep with
        | nil => exact absurd hrest (List.splitOn_ne_nil sep rest)
        | cons first others =>
            rw [hrest, List.modifyHead_cons] at h
            rcases List.mem_cons.mp h with rfl | h
            · intro hmem
              rcases List.mem_cons.mp hmem with rfl | hmem
              · exact hc (beq_self_eq_true _)
              · exact ih (hrest ▸ List.mem_cons_self) hmem
            · exact ih (hrest ▸ List.mem_cons_of_mem _ h)

theorem slash_not_mem_of_pathParts {path part : String} (h : part ∈ pathParts path) :
    '/' ∉ part.toList := by
  obtain ⟨text, htext, rfl⟩ := List.mem_map.mp (List.mem_filter.mp h).1
  rw [String.toList_ofList]
  exact not_mem_of_mem_splitOn htext

theorem pathParts_joinPath {names : List String} (hne : names ≠ [])
    (hslash : ∀ name ∈ names, '/' ∉ name.toList) (hblank : ∀ name ∈ names, trim name ≠ "") :
    pathParts (joinPath names) = names := by
  have hsplit : (['/'].intercalate (names.map String.toList)).splitOn '/' =
      names.map String.toList := by
    apply List.splitOn_intercalate
    · intro text htext
      obtain ⟨name, hname, rfl⟩ := List.mem_map.mp htext
      exact hslash name hname
    · simpa using hne
  have htexts : (names.map String.toList).map String.ofList = names := by
    rw [List.map_map]
    simp [Function.comp_def]
  rw [pathParts, joinPath, String.toList_ofList, hsplit, htexts]
  exact List.filter_eq_self.mpr fun name hname => bne_iff_ne.mpr (hblank name hname)

/-! ### Maps -/

/-- Where a folder may stand for paths to lead to it: the name has no slash, the parent id is
not empty, and no sibling has the name. -/
structure Addressable (m : FolderMap) (id name : String) (parentId : Option String) : Prop where
  unslashed : '/' ∉ name.toList
  parent_named : parentId ≠ some ""
  unshared : ∀ other ∈ m, other.parentId = parentId → other.name = name → other.id = id

section Maps

variable {m : FolderMap} {folder : WorkflowFolder}

theorem pathUp_of_mem (hmem : folder ∈ m) (fuel : Nat) :
    pathUp m (fuel + 1) (some folder.id) = (pathUp m fuel folder.parentId).map (folder :: ·) := by
  rw [pathUp, FolderMap.at?_some, FolderMap.get_of_mem hmem]

theorem followParts_append (start : Option String) (parts rest : List String) :
    followParts m start (parts ++ rest) =
      (followParts m start parts).bind fun reached => followParts m reached rest := by
  induction parts generalizing start with
  | nil => rfl
  | cons part parts ih =>
      rw [List.cons_append, followParts, followParts]
      cases (getChildren m start).find? (·.name == part) with
      | none => rfl
      | some found => exact ih (some found.id)

theorem followParts_found {start : Option String} {parts : List String} {id : String}
    (hstart : start ≠ some "") (hne : parts ≠ [])
    (h : followParts m start parts = some (some id)) :
    ∃ found ∈ m, found.id = id ∧ found.name ∈ parts ∧ found.parentId ≠ some "" := by
  induction parts generalizing start with
  | nil => exact absurd rfl hne
  | cons part rest ih =>
      rw [followParts] at h
      cases hfind : (getChildren m start).find? (·.name == part) with
      | none =>
          rw [hfind] at h
          cases h
      | some found =>
          rw [hfind] at h
          obtain ⟨hmem, hparent⟩ := mem_getChildren.mp (List.mem_of_find?_eq_some hfind)
          have hname : found.name = part := by simpa using List.find?_some hfind
          cases rest with
          | nil =>
              cases h
              exact ⟨found, hmem, rfl, List.mem_singleton.mpr hname, hparent ▸ hstart⟩
          | cons next rest =>
              obtain ⟨other, hother, hid, hin, hunder⟩ :=
                ih (fun heq => m.named found hmem (Option.some.inj heq)) (List.cons_ne_nil _ _) h
              exact ⟨other, hother, hid, List.mem_cons_of_mem _ hin, hunder⟩

theorem findFolderByPath_ok {path : String} (h : findFolderByPath m path = .ok folder) :
    folder.name ∈ pathParts path ∧ folder.parentId ≠ some "" := by
  unfold findFolderByPath at h
  split_ifs at h with hempty
  cases hfollow : followParts m none (pathParts path) with
  | none =>
      rw [hfollow] at h
      cases h
  | some reached =>
      rw [hfollow] at h
      dsimp only at h
      split at h
      · cases h
      · rename_i id hid
        rw [(orNull_some (ne_empty_of_orNull hid)).mp hid] at hfollow
        obtain ⟨found, hmem, rfl, hname, hparent⟩ :=
          followParts_found (Option.some_ne_none _).symm (by simpa using hempty) hfollow
        rw [getFolder, FolderMap.get_of_mem hmem] at h
        cases h
        exact ⟨hname, hparent⟩

theorem addressable_of_leadsBack (h : ∀ folder ∈ m, LeadsBack m folder) (hmem : folder ∈ m) :
    Addressable m folder.id folder.name folder.parentId := by
  have hfound : ∃ path, findFolderByPath m path = .ok folder := by
    obtain ⟨enough, hback⟩ := h folder hmem
    obtain ⟨path, _, hfind⟩ := hback enough (Nat.le_refl enough)
    exact ⟨_, hfind⟩
  obtain ⟨path, hfind⟩ := hfound
  obtain ⟨hname, hparent⟩ := findFolderByPath_ok hfind
  refine ⟨slash_not_mem_of_pathParts hname, hparent, ?_⟩
  intro other hother hsame hsameName
  obtain ⟨enough, hback⟩ := h folder hmem
  obtain ⟨enough', hback'⟩ := h other hother
  -- The two paths are the same names, so that one of the folders is found for both.
  have hpaths : ∀ fuel, (getFolderPath m (fuel + 1) other.id).map (·.map (·.name)) =
      (getFolderPath m (fuel + 1) folder.id).map (·.map (·.name)) := by
    intro fuel
    rw [getFolderPath, getFolderPath, pathUp_of_mem hother, pathUp_of_mem hmem, hsame]
    cases pathUp m fuel folder.parentId with
    | none => rfl
    | some rest => simp [hsameName]
  obtain ⟨path, hpath, hfind⟩ := hback (max enough enough' + 1) (by omega)
  obtain ⟨path', hpath', hfind'⟩ := hback' (max enough enough' + 1) (by omega)
  have hnames := hpaths (max enough enough')
  rw [hpath, hpath', Option.map_some, Option.map_some, Option.some.injEq] at hnames
  rw [hnames, hfind] at hfind'
  exact congrArg (·.id) (Except.ok.inj hfind').symm

/-- The path down to a folder is the way that its names lead. -/
theorem followParts_pathUp (hparents : ∀ folder ∈ m, ∀ p, folder.parentId = some p →
      m.has p = true) (hplaces : ∀ folder ∈ m, Addressable m folder.id folder.name folder.parentId)
    {fuel : Nat} (hmem : folder ∈ m) {path : List WorkflowFolder}
    (h : pathUp m fuel (some folder.id) = some path) :
    followParts m none (path.reverse.map (·.name)) = some (some folder.id) := by
  induction fuel generalizing folder path with
  | zero => cases h
  | succ fuel ih =>
      rw [pathUp_of_mem hmem] at h
      obtain ⟨rest, hrest, rfl⟩ := Option.map_eq_some_iff.mp h
      have hstep : followParts m folder.parentId [folder.name] = some (some folder.id) := by
        have hchild : folder ∈ getChildren m folder.parentId := mem_getChildren.mpr ⟨hmem, rfl⟩
        rw [followParts]
        cases hfind : (getChildren m folder.parentId).find? (·.name == folder.name) with
        | none =>
            have hnone := List.find?_eq_none.mp hfind folder hchild
            simp at hnone
        | some found =>
            obtain ⟨hfound, hparent⟩ := mem_getChildren.mp (List.mem_of_find?_eq_some hfind)
            have hname : found.name = folder.name := by simpa using List.find?_some hfind
            exact congrArg (fun id => some (some id))
              ((hplaces folder hmem).unshared found hfound hparent hname)
      have hup : followParts m none (rest.reverse.map (·.name)) = some folder.parentId := by
        cases hparent : folder.parentId with
        | none =>
            rw [hparent] at hrest
            cases fuel with
            | zero => cases hrest
            | succ fuel =>
                cases hrest
                rfl
        | some p =>
            obtain ⟨above, habove, rfl⟩ := FolderMap.has_iff.mp (hparents folder hmem p hparent)
            rw [hparent] at hrest
            exact ih habove hrest
      rw [List.reverse_cons, List.map_append, followParts_append, hup]
      exact hstep

theorem mem_of_mem_pathUp {fuel : Nat} {current : Option String} {path : List WorkflowFolder}
    (h : pathUp m fuel current = some path) : ∀ folder ∈ path, folder ∈ m := by
  induction fuel generalizing current path with
  | zero => cases h
  | succ fuel ih =>
      rw [pathUp] at h
      cases hat : m.at? current with
      | none =>
          rw [hat] at h
          cases h
          exact nofun
      | some folder =>
          rw [hat] at h
          obtain ⟨rest, hrest, rfl⟩ := Option.map_eq_some_iff.mp h
          intro other hother
          rcases List.mem_cons.mp hother with rfl | hother
          · exact (get_of_at? hat).2
          · exact ih hrest other hother

/-- In a forest where no name is blank, every path leads back where every folder stands where
it may. -/
theorem leadsBack_of_addressable (hforest : Forest m) (hblank : ∀ folder ∈ m, trim folder.name ≠ "")
    (hplaces : ∀ folder ∈ m, Addressable m folder.id folder.name folder.parentId)
    (hmem : folder ∈ m) : LeadsBack m folder := by
  have hparents : ∀ folder ∈ m, ∀ p, folder.parentId = some p → m.has p = true := by
    intro folder hmem p hp
    apply hforest.parents folder hmem p
    rw [hforest.orNull_parent hmem, hp]
  obtain ⟨enough, hwalks⟩ := walks_return hforest.ranked
  refine ⟨enough, fun fuel hfuel => ?_⟩
  obtain ⟨path, hpath⟩ := ((hwalks fuel hfuel).1 folder hmem).1
  refine ⟨path.reverse, by rw [getFolderPath, hpath]; rfl, ?_⟩
  have hnames : ∀ name ∈ path.reverse.map (·.name), ∃ other ∈ m, other.name = name := by
    intro name hname
    obtain ⟨other, hother, rfl⟩ := List.mem_map.mp hname
    exact ⟨other, mem_of_mem_pathUp hpath other (List.mem_reverse.mp hother), rfl⟩
  have hfollow := followParts_pathUp hparents hplaces hmem hpath
  have hne : path.reverse.map (·.name) ≠ [] := by
    intro hnil
    rw [hnil] at hfollow
    cases hfollow
  have hparts : pathParts (joinPath (path.reverse.map (·.name))) = path.reverse.map (·.name) := by
    apply pathParts_joinPath hne
    · intro name hname
      obtain ⟨other, hother, rfl⟩ := hnames name hname
      exact (hplaces other hother).unslashed
    · intro name hname
      obtain ⟨other, hother, rfl⟩ := hnames name hname
      exact hblank other hother
  have hid : orNull (some folder.id) = some folder.id := by
    rw [orNull_some (m.named folder hmem)]
  unfold findFolderByPath
  rw [hparts, if_neg (by simpa using hne), hfollow]
  dsimp only
  rw [hid]
  dsimp only
  rw [getFolder, FolderMap.get_of_mem hmem]

/-! ### Maps that change -/

/-- A map in which every path leads back. -/
structure Findable (m : FolderMap) : Prop where
  forest : Forest m
  named : ∀ folder ∈ m, trim folder.name ≠ ""
  placed : ∀ folder ∈ m, Addressable m folder.id folder.name folder.parentId

theorem Findable.empty : Findable .empty := ⟨.empty, nofun, nofun⟩

theorem addressable_of_set {hnamed : folder.id ≠ ""}
    (h : Addressable (m.set folder hnamed) folder.id folder.name folder.parentId) :
    Addressable m folder.id folder.name folder.parentId := by
  refine ⟨h.unslashed, h.parent_named, fun other hmem hparent hname => ?_⟩
  by_contra hne
  exact hne (h.unshared other (FolderMap.mem_set.mpr (.inr ⟨hmem, hne⟩)) hparent hname)

theorem Findable.set (h : Findable m) {hnamed : folder.id ≠ ""}
    (hforest : Forest (m.set folder hnamed)) (hblank : trim folder.name ≠ "")
    (hplace : Addressable m folder.id folder.name folder.parentId) :
    Findable (m.set folder hnamed) := by
  refine ⟨hforest, ?_, ?_⟩
  · intro other hother
    rcases FolderMap.mem_set.mp hother with rfl | ⟨hmem, _⟩
    · exact hblank
    · exact h.named other hmem
  · intro other hother
    rcases FolderMap.mem_set.mp hother with rfl | ⟨hmem, hne⟩
    · refine ⟨hplace.unslashed, hplace.parent_named, fun sibling hsibling hparent hname => ?_⟩
      rcases FolderMap.mem_set.mp hsibling with rfl | ⟨hsibling, _⟩
      · rfl
      · exact hplace.unshared sibling hsibling hparent hname
    · have hold := h.placed other hmem
      refine ⟨hold.unslashed, hold.parent_named, fun sibling hsibling hparent hname => ?_⟩
      rcases FolderMap.mem_set.mp hsibling with rfl | ⟨hsibling, _⟩
      · exact (hplace.unshared other hmem hparent.symm hname.symm).symm
      · exact hold.unshared sibling hsibling hparent hname

theorem Findable.mono (h : Findable m) {m' : FolderMap} (hforest : Forest m')
    (hsub : ∀ folder ∈ m', folder ∈ m) : Findable m' := by
  refine ⟨hforest, fun folder hmem => h.named folder (hsub folder hmem), fun folder hmem => ?_⟩
  have hold := h.placed folder (hsub folder hmem)
  exact ⟨hold.unslashed, hold.parent_named, fun other hother =>
    hold.unshared other (hsub other hother)⟩

end Maps

/-! ### Operations -/

def Operation.edits : Operation → Bool
  | .createFolder .. | .updateFolder .. | .moveFolder .. | .deleteFolder .. => true
  | _ => false

def Accepted (s : Store) : Operation → Prop
  | .createFolder suffix options => ∃ fuel folder s',
      createFolder fuel s suffix options = some (.ok folder, s')
  | .updateFolder id updates => ∃ fuel folder s',
      updateFolder fuel s id updates = some (.ok folder, s')
  | .moveFolder folderId newParentId => ∃ fuel folder s',
      moveFolder fuel s folderId newParentId = some (.ok folder, s')
  | _ => True

/-- The operation puts a folder where it may stand. -/
def Placed (s : Store) : Operation → Prop
  | .createFolder suffix options =>
      Addressable s.folders (generateId suffix) (trim options.name) (orNull options.parentId)
  | .updateFolder id updates => ∀ folder ∈ s.folders.get id,
      Addressable s.folders id ((updates.name.map trim).getD folder.name)
        (updates.parentId.getD folder.parentId)
  | .moveFolder folderId newParentId => ∀ folder ∈ s.folders.get folderId,
      Addressable s.folders folderId folder.name newParentId
  | _ => True

section Operations

variable {fuel : Nat} {s s' : Store} {result : Except String WorkflowFolder} {id : String}
  {updates : UpdateFolderOptions} {folder : WorkflowFolder}

theorem createFolder_writes {suffix : String} {options : CreateFolderOptions}
    (h : createFolder fuel s suffix options = some (result, s')) :
    s' = s ∧ (∀ folder, result ≠ .ok folder) ∨ trim options.name ≠ "" ∧
      result = .ok (newFolder s.folders suffix options) ∧
      s'.folders = s.folders.set (newFolder s.folders suffix options) (generateId_ne suffix) := by
  unfold createFolder at h
  split at h
  · cases h
    exact .inl ⟨rfl, by simp⟩
  · rename_i hvalid
    split_ifs at h with hparent
    · cases h
      exact .inl ⟨rfl, by simp⟩
    · simp only [Option.bind_eq_bind, Option.bind_eq_some_iff] at h
      obtain ⟨depth, hdepth, h⟩ := h
      split_ifs at h with hdeep
      · cases h
        exact .inl ⟨rfl, by simp⟩
      · split at h
        · cases h
          exact .inl ⟨rfl, by simp⟩
        · simp only [Option.pure_def, Option.bind_eq_some_iff, Option.some.injEq] at h
          obtain ⟨counted, hcounted, hs'⟩ := h
          cases hs'
          refine .inr ⟨?_, rfl, (updateDescendantCounts_recounts hcounted).folders⟩
          intro hblank
          rw [validateFolderName, if_pos hblank] at hvalid
          cases hvalid

theorem updateFolder_writes (h : updateFolder fuel s id updates = some (result, s')) :
    s' = s ∧ (∀ folder, result ≠ .ok folder) ∨ ∃ folder hnamed, s.folders.get id = some folder ∧
      (∀ name, updates.name = some name → trim name ≠ "") ∧
      result = .ok (updatedFolder folder updates) ∧
      s'.folders = s.folders.set (updatedFolder folder updates) hnamed := by
  unfold updateFolder at h
  split at h
  · cases h
    exact .inl ⟨rfl, by simp⟩
  · rename_i folder hget
    simp only [Option.bind_eq_bind, Option.bind_eq_some_iff] at h
    obtain ⟨error, herror, h⟩ := h
    cases error with
    | some error =>
        cases h
        exact .inl ⟨rfl, by simp⟩
    | none =>
        simp only [Option.bind_eq_some_iff, Option.pure_def, Option.some.injEq] at h
        obtain ⟨stored, hstored, hs'⟩ := h
        cases hs'
        refine .inr ⟨folder, s.folders.named folder (FolderMap.get_eq_some_iff.mp hget).1, hget,
          ?_, rfl, (writeUpdate_recounts hstored).folders⟩
        intro name hname hblank
        rw [updateError, hname, Option.bind_some, validateFolderName, if_pos hblank] at herror
        cases herror

theorem moveFolder_ok {newParentId : Option String}
    (h : moveFolder fuel s id newParentId = some (.ok folder, s')) :
    updateFolder fuel s id { parentId := some newParentId } = some (.ok folder, s') := by
  unfold moveFolder at h
  split at h
  · cases h
  · simp only [Option.bind_eq_bind, Option.bind_eq_some_iff] at h
    obtain ⟨error, _, h⟩ := h
    cases error with
    | some error => cases h
    | none => exact h

theorem updateFolder_findable (h : Findable s.folders)
    (hplaced : (∃ folder, result = .ok folder) → Placed s (.updateFolder id updates))
    (hupdate : updateFolder fuel s id updates = some (result, s')) : Findable s'.folders := by
  rcases updateFolder_writes hupdate with ⟨rfl, _⟩ | ⟨folder, hnamed, hget, hname, hok, hfolders⟩
  · exact h
  · obtain ⟨hmem, rfl⟩ := FolderMap.get_eq_some_iff.mp hget
    have hplace : Addressable s.folders (updatedFolder folder updates).id
        (updatedFolder folder updates).name (updatedFolder folder updates).parentId :=
      hplaced ⟨_, hok⟩ folder hget
    have hforest : Forest s'.folders := by
      refine (updateFolder_forest h.forest ?_ hupdate).1
      intro hempty other hother
      rw [hget, Option.some.injEq] at hother
      subst hother
      refine absurd ?_ hplace.parent_named
      rw [updatedFolder, hempty]
      rfl
    rw [hfolders] at hforest ⊢
    refine h.set hforest ?_ hplace
    cases hnew : updates.name with
    | none =>
        rw [updatedFolder, hnew]
        exact h.named folder hmem
    | some name =>
        rw [updatedFolder, hnew]
        exact trim_trim_ne (hname name hnew)

theorem placed_of_move {newParentId : Option String} (h : Placed s (.moveFolder id newParentId)) :
    Placed s (.updateFolder id { parentId := some newParentId }) := h

/-- Each edit that is placed, where it is accepted, keeps every path leading back. -/
theorem perform_findable {op : Operation} (h : Findable s.folders) (hgiven : op.Given s)
    (hedits : op.edits = true) (hplaced : Accepted s op → Placed s op)
    (hs' : perform fuel s op = some s') : Findable s'.folders := by
  cases op with
  | createFolder suffix options =>
      obtain ⟨⟨result, stored⟩, hcreate, rfl⟩ := Option.map_eq_some_iff.mp hs'
      obtain ⟨hforest, _⟩ := createFolder_forest h.forest hgiven hcreate
      rcases createFolder_writes hcreate with ⟨rfl, _⟩ | ⟨hblank, hok, hfolders⟩
      · exact h
      · dsimp only at hfolders ⊢
        rw [hfolders] at hforest ⊢
        subst hok
        exact h.set hforest (trim_trim_ne hblank) (hplaced ⟨fuel, _, stored, hcreate⟩)
  | updateFolder id updates =>
      obtain ⟨⟨result, stored⟩, hupdate, rfl⟩ := Option.map_eq_some_iff.mp hs'
      refine updateFolder_findable h ?_ hupdate
      rintro ⟨folder, rfl⟩
      exact hplaced ⟨fuel, folder, stored, hupdate⟩
  | moveFolder folderId newParentId =>
      obtain ⟨⟨result, stored⟩, hmove, rfl⟩ := Option.map_eq_some_iff.mp hs'
      rcases moveFolder_cases hmove with rfl | ⟨_, hupdate⟩
      · exact h
      · refine updateFolder_findable h ?_ hupdate
        rintro ⟨folder, rfl⟩
        exact placed_of_move (hplaced ⟨fuel, folder, stored, hmove⟩)
  | deleteFolder id recursive target =>
      obtain ⟨⟨result, stored⟩, hdelete, rfl⟩ := Option.map_eq_some_iff.mp hs'
      obtain ⟨hforest, hsub, _⟩ := deleteFolder_forest h.forest hdelete
      exact h.mono hforest hsub
  | addWorkflowToFolder => cases hedits
  | removeWorkflowFromFolder => cases hedits
  | exportFolders => cases hedits
  | copyExport => cases hedits
  | importFolders => cases hedits

theorem not_leadsBack_of_set {m : FolderMap} {hnamed : folder.id ≠ ""}
    (h : ¬Addressable m folder.id folder.name folder.parentId) :
    ¬∀ other ∈ m.set folder hnamed, LeadsBack (m.set folder hnamed) other := by
  intro hall
  apply h
  exact addressable_of_set (addressable_of_leadsBack hall (FolderMap.mem_set.mpr (.inl rfl)))

theorem updateFolder_breaks (hplaced : ¬Placed s (.updateFolder id updates))
    (hupdate : updateFolder fuel s id updates = some (.ok folder, s')) :
    ¬∀ other ∈ s'.folders, LeadsBack s'.folders other := by
  rcases updateFolder_writes hupdate with ⟨_, hrefused⟩ | ⟨old, hnamed, hget, _, hok, hfolders⟩
  · exact absurd rfl (hrefused folder)
  · rw [hfolders]
    apply not_leadsBack_of_set
    intro hplace
    apply hplaced
    intro other hother
    rw [hget, Option.mem_some_iff] at hother
    subst hother
    rw [← (FolderMap.get_eq_some_iff.mp hget).2]
    exact hplace

theorem perform_breaks {op : Operation} (haccepted : Accepted s op) (hplaced : ¬Placed s op) :
    ∃ fuel s', perform fuel s op = some s' ∧
      ¬∀ folder ∈ s'.folders, LeadsBack s'.folders folder := by
  cases op with
  | createFolder suffix options =>
      obtain ⟨fuel, folder, s', hcreate⟩ := haccepted
      refine ⟨fuel, s', by rw [perform, hcreate]; rfl, ?_⟩
      rcases createFolder_writes hcreate with ⟨_, hrefused⟩ | ⟨_, _, hfolders⟩
      · exact absurd rfl (hrefused folder)
      · rw [hfolders]
        exact not_leadsBack_of_set hplaced
  | updateFolder id updates =>
      obtain ⟨fuel, folder, s', hupdate⟩ := haccepted
      exact ⟨fuel, s', by rw [perform, hupdate]; rfl, updateFolder_breaks hplaced hupdate⟩
  | moveFolder folderId newParentId =>
      obtain ⟨fuel, folder, s', hmove⟩ := haccepted
      exact ⟨fuel, s', by rw [perform, hmove]; rfl,
        updateFolder_breaks hplaced (moveFolder_ok hmove)⟩
  | deleteFolder => exact absurd trivial hplaced
  | addWorkflowToFolder => exact absurd trivial hplaced
  | removeWorkflowFromFolder => exact absurd trivial hplaced
  | exportFolders => exact absurd trivial hplaced
  | copyExport => exact absurd trivial hplaced
  | importFolders => exact absurd trivial hplaced

/-! ### Runs -/

theorem Reached.findable
    (h : Reached (fun s op => op.edits = true ∧ (Accepted s op → Placed s op)) s) :
    Findable s.folders := by
  induction h with
  | start => exact .empty
  | step _ given meets hs' ih => exact perform_findable ih given meets.1 meets.2 hs'

/-- Where every edit so far was placed, the path of every folder leads back to it; and an edit
that is accepted without being placed ends this. -/
theorem folder_paths_lead_back
    (h : Reached (fun s op => op.edits = true ∧ (Accepted s op → Placed s op)) s) :
    (∀ folder ∈ s.folders, LeadsBack s.folders folder) ∧
      ∀ op, Accepted s op → ¬Placed s op → ∃ fuel s', perform fuel s op = some s' ∧
        ¬∀ folder ∈ s'.folders, LeadsBack s'.folders folder := by
  have hfindable := h.findable
  constructor
  · intro folder hmem
    exact leadsBack_of_addressable hfindable.forest hfindable.named hfindable.placed hmem
  · exact fun op haccepted hplaced => perform_breaks haccepted hplaced

end Operations

/-! ### Some runs -/

instance (m : FolderMap) (id name : String) (parentId : Option String) :
    Decidable (Addressable m id name parentId) :=
  decidable_of_iff ('/' ∉ name.toList ∧ parentId ≠ some "" ∧
      ∀ other ∈ m.list, other.parentId = parentId → other.name = name → other.id = id)
    ⟨fun h => ⟨h.1, h.2.1, h.2.2⟩, fun h => ⟨h.unslashed, h.parent_named, h.unshared⟩⟩

instance (s : Store) : (op : Operation) → Decidable (Placed s op)
  | .createFolder suffix options => inferInstanceAs (Decidable (Addressable s.folders
      (generateId suffix) (trim options.name) (orNull options.parentId)))
  | .updateFolder id updates => inferInstanceAs (Decidable (∀ folder ∈ s.folders.get id,
      Addressable s.folders id ((updates.name.map trim).getD folder.name)
        (updates.parentId.getD folder.parentId)))
  | .moveFolder folderId newParentId => inferInstanceAs (Decidable (∀ folder ∈
      s.folders.get folderId, Addressable s.folders folderId folder.name newParentId))
  | .deleteFolder .. | .addWorkflowToFolder .. | .removeWorkflowFromFolder _ | .exportFolders
  | .copyExport _ | .importFolders .. => .isTrue trivial

/-- A box on a shelf is renamed, and found again. -/
theorem renamed_box_leads_back : ∃ s,
    Reached (fun s op => op.edits = true ∧ (Accepted s op → Placed s op)) s ∧
    s.folders.list.map (·.name) = ["Shelf", "Crate"] ∧
    ∀ folder ∈ s.folders, LeadsBack s.folders folder := by
  obtain ⟨s, hs, hnames⟩ := Reached.of_checked
    (fun s op => op.edits = true ∧ (Accepted s op → Placed s op))
    (fun s op => op.edits && decide (Placed s op))
    (fun s op h => ⟨(Bool.and_eq_true_iff.mp h).1, fun _ => of_decide_eq_true
      (Bool.and_eq_true_iff.mp h).2⟩) 5
    [.createFolder "a" { name := "Shelf", order := some 0 },
      .createFolder "b" { name := "Box", parentId := some "folder-a", order := some 0 },
      .updateFolder "folder-b" { name := some " Crate" }]
    (fun s => s.folders.list.map (·.name) == ["Shelf", "Crate"]) (by decide +kernel)
  exact ⟨s, hs, beq_iff_eq.mp hnames, (folder_paths_lead_back hs).1⟩

/-- A folder stands where paths do not lead to it. -/
def misplaced (s : Store) : Bool :=
  s.folders.list.any fun folder => !decide (Addressable s.folders folder.id folder.name
    folder.parentId)

theorem not_leadsBack_of_misplaced {s : Store} (h : misplaced s = true) :
    ¬∀ folder ∈ s.folders, LeadsBack s.folders folder := by
  intro hall
  obtain ⟨folder, hmem, hplace⟩ := List.any_eq_true.mp h
  simp only [Bool.not_eq_true', decide_eq_false_iff_not] at hplace
  exact hplace (addressable_of_leadsBack hall hmem)

/-- A slash in a name, a blank before it, and a move to a folder that has one of the name:
each leaves a folder to which its path does not lead. -/
theorem slash_blank_and_move_mislead :
    (∃ s, Reached (fun _ op => op.edits = true) s ∧
      s.folders.list.map (fun folder => (folder.name, folder.parentId)) = [("a/b", none)] ∧
      ¬∀ folder ∈ s.folders, LeadsBack s.folders folder) ∧
    (∃ s, Reached (fun _ op => op.edits = true) s ∧
      s.folders.list.map (fun folder => (folder.name, folder.parentId)) =
        [("Box", none), ("Box", none)] ∧
      ¬∀ folder ∈ s.folders, LeadsBack s.folders folder) ∧
    ∃ s, Reached (fun _ op => op.edits = true) s ∧
      s.folders.list.map (fun folder => (folder.name, folder.parentId)) =
        [("Shelf", none), ("Box", none), ("Box", none)] ∧
      ¬∀ folder ∈ s.folders, LeadsBack s.folders folder := by
  have hrun : ∀ ops places, (ops.all Operation.edits = true) →
      (run 5 .empty ops).any (fun s => s.folders.list.map
        (fun folder => (folder.name, folder.parentId)) == places && misplaced s) = true →
      ∃ s, Reached (fun _ op => op.edits = true) s ∧
        s.folders.list.map (fun folder => (folder.name, folder.parentId)) = places ∧
        ¬∀ folder ∈ s.folders, LeadsBack s.folders folder := by
    intro ops places hedits h
    obtain ⟨s, hs, htest⟩ := Reached.of_any (fun _ op => op.edits = true) 5 ops _
      (fun op hop _ => List.all_eq_true.mp hedits op hop) h
    rw [Bool.and_eq_true, beq_iff_eq] at htest
    exact ⟨s, hs, htest.1, not_leadsBack_of_misplaced htest.2⟩
  refine ⟨?_, ?_, ?_⟩
  · exact hrun [.createFolder "a" { name := "a/b", order := some 0 }] _ rfl (by decide +kernel)
  · exact hrun [.createFolder "a" { name := "Box", order := some 0 },
      .createFolder "b" { name := " Box", order := some 0 }] _ rfl (by decide +kernel)
  · exact hrun [.createFolder "a" { name := "Shelf", order := some 0 },
      .createFolder "b" { name := "Box", order := some 0 },
      .createFolder "c" { name := "Box", parentId := some "folder-a", order := some 0 },
      .moveFolder "folder-c" none] _ rfl (by decide +kernel)

end Qontinui.Folders
