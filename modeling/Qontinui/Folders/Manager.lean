import Qontinui.Folders.FolderMap

/-!
`WorkflowFolderManager`: folders that are created, edited, moved, deleted and imported, the
workflows filed in them, and the two counters that each folder keeps.
-/

namespace Qontinui.Folders

/-! ### State -/

/-- The counters of a folder's metadata. -/
structure FolderMetadata where
  workflowCount : Nat := 0
  descendantCount : Nat := 0
deriving DecidableEq, Repr

structure WorkflowFolderAssociation where
  workflowId : String
  folderId : String
deriving DecidableEq, Repr

/-- The associations of exported data: `exportFolders` hands out the array of the manager
itself, which stays the same array until an import puts a new one in its place. -/
inductive ExportedAssociations
  | live
  | detached (associations : List WorkflowFolderAssociation)
deriving DecidableEq, Repr

/-- `ImportExportData`. -/
structure ImportExportData where
  folders : FolderMap
  associations : ExportedAssociations
deriving DecidableEq

/-- The manager, and the data that it has exported so far. -/
structure Store where
  folders : FolderMap
  metadata : String → FolderMetadata
  associations : List WorkflowFolderAssociation
  exports : List ImportExportData

def Store.empty : Store := ⟨.empty, fun _ => {}, [], []⟩

def ExportedAssociations.content (s : Store) : ExportedAssociations →
    List WorkflowFolderAssociation
  | .live => s.associations
  | .detached associations => associations

/-! ### Validation -/

/-- `DEFAULT_VALIDATION_RULES.maxNameLength`. -/
def maxNameLength : Nat := 100

/-- `DEFAULT_VALIDATION_RULES.maxDepth`. -/
def maxDepth : Nat := 10

/-- `DEFAULT_VALIDATION_RULES.reservedNames`. -/
def reservedNames : List String := ["root", "system", "temp", "trash"]

/-- `DEFAULT_VALIDATION_RULES.allowedColors`. -/
def allowedColors : List String :=
  ["#ef4444", "#f59e0b", "#10b981", "#3b82f6", "#8b5cf6", "#ec4899", "#6b7280"]

/-- `DEFAULT_VALIDATION_RULES.allowedIcons`. -/
def allowedIcons : List String :=
  ["folder", "folder-open", "briefcase", "archive", "bookmark", "star", "tag", "collection"]

/-- `text.trim()`. -/
def trim (text : String) : String :=
  String.ofList ((text.toList.dropWhile isJsSpace).reverse.dropWhile isJsSpace).reverse

/-- `text.toLowerCase()`, as far as a reserved name can come out of it. -/
def toLowerCase (text : String) : String := String.ofList (text.toList.map Char.toLower)

/-- `parentId || null`. -/
def orNull (parentId : Option String) : Option String :=
  if parentId = some "" then none else parentId

/-- A test such as `if (text)`. -/
def truthy (text : Option String) : Bool := (orNull text).isSome

/-- `validateFolderName`, by its first error. -/
def validateFolderName (m : FolderMap) (name : String) (parentId : Option String)
    (excludeId : Option String) : Option String :=
  if trim name = "" then some "Folder name cannot be empty"
  else if maxNameLength < (charCodes name).length then
    some ("Folder name cannot exceed " ++ toString maxNameLength ++ " characters")
  else if toLowerCase name ∈ reservedNames then
    some ("\"" ++ name ++ "\" is a reserved folder name")
  else if (getChildren m (orNull parentId)).any fun sibling =>
      sibling.name == name && some sibling.id != excludeId then
    some ("A folder named \"" ++ name ++ "\" already exists in this location")
  else none

def isHexDigit (c : Char) : Bool :=
  ('0' ≤ c && c ≤ '9') || ('A' ≤ c && c ≤ 'F') || ('a' ≤ c && c ≤ 'f')

/-- `isValidColor`. -/
def isValidColor (color : String) : Bool :=
  match color.toList with
  | '#' :: digits => digits.length == 6 && digits.all isHexDigit
  | _ => allowedColors.contains color

/-- `isValidIcon`. -/
def isValidIcon (icon : String) : Bool := allowedIcons.contains icon

def appearanceError (color icon : Option String) : Option String :=
  if truthy color && !isValidColor (color.getD "") then
    some ("Invalid color: " ++ color.getD "")
  else if truthy icon && !isValidIcon (icon.getD "") then
    some ("Invalid icon: " ++ icon.getD "")
  else none

/-- `canMoveFolder`, by its first error. -/
def canMoveFolder (m : FolderMap) (fuel : Nat) (folderId : String) (newParentId : Option String) :
    Option (Option String) :=
  if newParentId = some folderId then some (some "Cannot move folder to itself")
  else if truthy newParentId && (m.at? newParentId).isNone then
    some (some ("Parent folder not found: " ++ newParentId.getD ""))
  else do
    let descendants ← if truthy newParentId then getFolderDescendants m fuel folderId else some []
    if descendants.any fun d => some d.id == newParentId then
      return some "Cannot move folder to one of its descendants (circular dependency)"
    else
      let parentDepth ← calculateDepth m fuel newParentId
      let maxDescendantDepth ← getMaxDescendantDepth m fuel folderId 0
      if maxDepth < parentDepth + 1 + maxDescendantDepth then
        return some ("Move would exceed maximum depth of " ++ toString maxDepth)
      else return none

/-! ### Counters -/

def Store.setMetadata (s : Store) (id : String) (metadata : FolderMetadata) : Store :=
  { s with metadata := fun other => if other = id then metadata else s.metadata other }

def countIn (associations : List WorkflowFolderAssociation) (folderId : String) : Nat :=
  associations.countP (·.folderId == folderId)

/-- `updateWorkflowCounts`. -/
def updateWorkflowCounts : Nat → Option String → Store → Option Store
  | 0, _, _ => none
  | fuel + 1, folderId, s =>
      match s.folders.at? folderId with
      | none => some s
      | some folder =>
          updateWorkflowCounts fuel folder.parentId
            (s.setMetadata folder.id
              { s.metadata folder.id with
                workflowCount := countIn s.associations folder.id })

/-- `updateDescendantCounts`. -/
def updateDescendantCounts : Nat → Option String → Store → Option Store
  | 0, _, _ => none
  | fuel + 1, folderId, s =>
      match s.folders.at? folderId with
      | none => some s
      | some folder => do
          let descendants ← getFolderDescendants s.folders (fuel + 1) folder.id
          updateDescendantCounts fuel folder.parentId
            (s.setMetadata folder.id
              { s.metadata folder.id with descendantCount := descendants.length })

/-- `recalculateAllCounts`; the order in which it visits the folders has no effect. -/
def recalculateAllCounts (fuel : Nat) (s : Store) : Option Store := do
  let counts ← s.folders.list.mapM fun folder => do
    let descendants ← getFolderDescendants s.folders fuel folder.id
    return (folder.id, FolderMetadata.mk (countIn s.associations folder.id) descendants.length)
  return { s with metadata := fun id => (counts.lookup id).getD (s.metadata id) }

/-! ### Folders -/

structure CreateFolderOptions where
  name : String
  parentId : Option String := none
  color : Option String := none
  icon : Option String := none
  description : Option String := none
  order : Option Rat := none
deriving DecidableEq, Repr

/-- `getNextOrder`. -/
def getNextOrder (m : FolderMap) (parentId : Option String) : Rat :=
  match ((getChildren m (orNull parentId)).map (·.order.getD 0)).max? with
  | none => 0
  | some maxOrder => maxOrder + 1

/-- `generateId`: the time and a random text behind a fixed word. -/
def generateId (suffix : String) : String := "folder-" ++ suffix

theorem generateId_ne (suffix : String) : generateId suffix ≠ "" := by
  intro h
  have hlength := congrArg String.length h
  simp [generateId, String.length_append] at hlength

/-- The folder that `createFolder` builds. -/
def newFolder (m : FolderMap) (suffix : String) (options : CreateFolderOptions) :
    WorkflowFolder where
  id := generateId suffix
  name := trim options.name
  parentId := orNull options.parentId
  color := options.color
  icon := options.icon
  description := options.description.map trim
  order := some (options.order.getD (getNextOrder m options.parentId))

/-- `createFolder`; `suffix` is what the clock and the generator of `generateId` return. -/
def createFolder (fuel : Nat) (s : Store) (suffix : String) (options : CreateFolderOptions) :
    Option (Except String WorkflowFolder × Store) :=
  match validateFolderName s.folders options.name options.parentId none with
  | some error => some (.error error, s)
  | none =>
      if truthy options.parentId && (s.folders.at? options.parentId).isNone then
        some (.error ("Parent folder not found: " ++ options.parentId.getD ""), s)
      else do
        let depth ← calculateDepth s.folders fuel options.parentId
        if maxDepth ≤ depth then
          return (.error ("Maximum folder depth (" ++ toString maxDepth ++ ") exceeded"), s)
        else
          let folder := newFolder s.folders suffix options
          match appearanceError folder.color folder.icon with
          | some error => return (.error error, s)
          | none =>
              let stored := { s.setMetadata folder.id {} with
                folders := s.folders.set folder (generateId_ne suffix) }
              let counted ← updateDescendantCounts fuel folder.parentId stored
              return (.ok folder, counted)

/-- `UpdateFolderOptions`; for `parentId`, `some none` is an explicit `null`. -/
structure UpdateFolderOptions where
  name : Option String := none
  parentId : Option (Option String) := none
  color : Option String := none
  icon : Option String := none
  description : Option String := none
  order : Option Rat := none
deriving DecidableEq, Repr

/-- The checks of `updateFolder` on a folder that exists, by their first error. -/
def updateError (fuel : Nat) (s : Store) (folder : WorkflowFolder)
    (updates : UpdateFolderOptions) : Option (Option String) :=
  match updates.name.bind fun name =>
      validateFolderName s.folders name folder.parentId (some folder.id) with
  | some error => some (some error)
  | none => do
      let moveError ← match updates.parentId with
        | none => some none
        | some parentId =>
            if parentId = folder.parentId then some none
            else canMoveFolder s.folders fuel folder.id parentId
      match moveError with
      | some error => return some error
      | none => return appearanceError updates.color updates.icon

/-- The folder that `updateFolder` writes. -/
def updatedFolder (folder : WorkflowFolder) (updates : UpdateFolderOptions) : WorkflowFolder where
  id := folder.id
  name := (updates.name.map trim).getD folder.name
  parentId := updates.parentId.getD folder.parentId
  color := updates.color <|> folder.color
  icon := updates.icon <|> folder.icon
  description := updates.description.map trim <|> folder.description
  order := updates.order <|> folder.order

/-- The write of `updateFolder`. -/
def writeUpdate (fuel : Nat) (s : Store) (folder : WorkflowFolder) (hnamed : folder.id ≠ "")
    (updates : UpdateFolderOptions) : Option Store :=
  let updated := updatedFolder folder updates
  let stored := { s with folders := s.folders.set updated hnamed }
  if folder.parentId = updated.parentId then some stored
  else do
    let counted ← updateDescendantCounts fuel folder.parentId stored
    updateDescendantCounts fuel updated.parentId counted

/-- `updateFolder`. -/
def updateFolder (fuel : Nat) (s : Store) (id : String) (updates : UpdateFolderOptions) :
    Option (Except String WorkflowFolder × Store) :=
  match hget : s.folders.get id with
  | none => some (.error ("Folder not found: " ++ id), s)
  | some folder => do
      let error ← updateError fuel s folder updates
      match error with
      | some error => return (.error error, s)
      | none =>
          let stored ← writeUpdate fuel s folder
            (s.folders.named folder (FolderMap.get_eq_some_iff.mp hget).1) updates
          return (.ok (updatedFolder folder updates), stored)

/-- `moveFolder`. -/
def moveFolder (fuel : Nat) (s : Store) (folderId : String) (newParentId : Option String) :
    Option (Except String WorkflowFolder × Store) :=
  match s.folders.get folderId with
  | none => some (.error ("Folder not found: " ++ folderId), s)
  | some _ => do
      let error ← canMoveFolder s.folders fuel folderId newParentId
      match error with
      | some error => return (.error error, s)
      | none => updateFolder fuel s folderId { parentId := some newParentId }

/-! ### Workflows -/

/-- `removeWorkflowFromFolder`. -/
def removeWorkflowFromFolder (fuel : Nat) (s : Store) (workflowId : String) : Option Store :=
  match s.associations.find? (·.workflowId == workflowId) with
  | none => some s
  | some association =>
      updateWorkflowCounts fuel (some association.folderId)
        { s with associations := s.associations.eraseP (·.workflowId == workflowId) }

/-- The end of `addWorkflowToFolder`. -/
def pushAssociation (fuel : Nat) (s : Store) (workflowId folderId : String) : Option Store :=
  updateWorkflowCounts fuel (some folderId)
    { s with associations := s.associations ++ [⟨workflowId, folderId⟩] }

/-- `addWorkflowToFolder`, and `moveWorkflow`. -/
def addWorkflowToFolder (fuel : Nat) (s : Store) (workflowId folderId : String) :
    Option (Except String Unit × Store) :=
  if !s.folders.has folderId then some (.error ("Folder not found: " ++ folderId), s)
  else
    match s.associations.find? (·.workflowId == workflowId) with
    | none => (pushAssociation fuel s workflowId folderId).map fun pushed => (.ok (), pushed)
    | some existing =>
        if existing.folderId = folderId then some (.ok (), s)
        else do
          let removed ← removeWorkflowFromFolder fuel s workflowId
          (pushAssociation fuel removed workflowId folderId).map fun pushed => (.ok (), pushed)

/-- `getWorkflowsInFolder(folderId, false)`. -/
def getWorkflowsInFolder (s : Store) (folderId : String) : List String :=
  ((s.associations.filter (·.folderId == folderId)).map (·.workflowId)).eraseDups

/-- What `deleteFolder` does with a workflow of the folder. -/
def takeOut (fuel : Nat) (moveWorkflowsTo : Option String) (s : Store) (workflowId : String) :
    Option Store :=
  match moveWorkflowsTo with
  | none => removeWorkflowFromFolder fuel s workflowId
  | some target => (addWorkflowToFolder fuel s workflowId target).map (·.2)

/-- `deleteFolder`. -/
def deleteFolder : Nat → Store → String → Bool → Option String →
    Option (Except String WorkflowFolder × Store)
  | 0, _, _, _, _ => none
  | fuel + 1, s, id, recursive, moveWorkflowsTo =>
      match s.folders.get id with
      | none => some (.error ("Folder not found: " ++ id), s)
      | some folder =>
          let children := getChildren s.folders (some id)
          if !children.isEmpty && !recursive then
            some (.error ("Folder has " ++ toString children.length ++
              " subfolder(s). Use recursive option to delete."), s)
          else do
            let emptied ← (getWorkflowsInFolder s id).foldlM (takeOut fuel moveWorkflowsTo) s
            let cleared ← if recursive then
                children.foldlM (fun s child =>
                  (deleteFolder fuel s child.id true moveWorkflowsTo).map (·.2)) emptied
              else some emptied
            let deleted := { cleared with folders := cleared.folders.delete id }
            let counted ← updateDescendantCounts fuel folder.parentId deleted
            return (.ok folder, counted)

/-! ### Export and import -/

/-- `exportFolders`. -/
def exportFolders (s : Store) : Store :=
  { s with exports := s.exports ++ [⟨s.folders, .live⟩] }

/-- A copy that the caller takes of exported data, as the text of a file is one. -/
def copyExport (s : Store) (data : ImportExportData) : Store :=
  { s with exports := s.exports ++ [⟨data.folders, .detached (data.associations.content s)⟩] }

/-- Exported data when the manager gets a new array of associations. -/
def detach (s : Store) (data : ImportExportData) : ImportExportData :=
  { data with associations := .detached (data.associations.content s) }

/-- The loop of `importFolders` over the folders. -/
def importFolderList (merge : Bool) (m : FolderMap) (data : FolderMap) : FolderMap :=
  data.list.attach.foldl (fun m folder =>
    if m.has folder.1.id && merge then m else m.set folder.1 (data.named folder.1 folder.2)) m

/-- The loop of `importFolders` over the associations. -/
def importAssociations (associations data : List WorkflowFolderAssociation) :
    List WorkflowFolderAssociation :=
  data.foldl (fun associations association =>
    if associations.contains association then associations else associations ++ [association])
    associations

/-- `importFolders`. -/
def importFolders (fuel : Nat) (s : Store) (data : ImportExportData) (merge : Bool) :
    Option Store :=
  let content := data.associations.content s
  let start := if merge then s else
    { s with
      folders := .empty
      associations := []
      exports := s.exports.map (detach s) }
  recalculateAllCounts fuel
    { start with
      folders := importFolderList merge start.folders data.folders
      associations := importAssociations start.associations content }

/-! ### Runs -/

inductive Operation
  | createFolder (suffix : String) (options : CreateFolderOptions)
  | updateFolder (id : String) (updates : UpdateFolderOptions)
  | moveFolder (folderId : String) (newParentId : Option String)
  | deleteFolder (id : String) (recursive : Bool) (moveWorkflowsTo : Option String)
  | addWorkflowToFolder (workflowId folderId : String)
  | removeWorkflowFromFolder (workflowId : String)
  | exportFolders
  | copyExport (data : ImportExportData)
  | importFolders (data : ImportExportData) (merge : Bool)
deriving DecidableEq

/-- One operation, with fuel for the walks it takes. -/
def perform (fuel : Nat) (s : Store) : Operation → Option Store
  | .createFolder suffix options => (createFolder fuel s suffix options).map (·.2)
  | .updateFolder id updates => (updateFolder fuel s id updates).map (·.2)
  | .moveFolder folderId newParentId => (moveFolder fuel s folderId newParentId).map (·.2)
  | .deleteFolder id recursive moveWorkflowsTo =>
      (deleteFolder fuel s id recursive moveWorkflowsTo).map (·.2)
  | .addWorkflowToFolder workflowId folderId =>
      (addWorkflowToFolder fuel s workflowId folderId).map (·.2)
  | .removeWorkflowFromFolder workflowId => removeWorkflowFromFolder fuel s workflowId
  | .exportFolders => some (exportFolders s)
  | .copyExport data => some (copyExport s data)
  | .importFolders data merge => importFolders fuel s data merge

/-- What an operation is given: a generated id that no folder has, and data that was
exported before. -/
def Operation.Given (s : Store) : Operation → Prop
  | .createFolder suffix _ => s.folders.has (generateId suffix) = false
  | .copyExport data | .importFolders data _ => data ∈ s.exports
  | _ => True

instance (s : Store) (op : Operation) : Decidable (op.Given s) := by
  cases op <;> unfold Operation.Given <;> infer_instance

/-- A run from the empty store whose steps all meet a condition. -/
inductive Reached (condition : Store → Operation → Prop) : Store → Prop
  | start : Reached condition .empty
  | step {s s' : Store} {op : Operation} {fuel : Nat} (before : Reached condition s)
      (given : op.Given s) (meets : condition s op) (h : perform fuel s op = some s') :
      Reached condition s'

end Qontinui.Folders
