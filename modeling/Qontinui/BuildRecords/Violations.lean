import Mathlib.Data.List.DropRight
import Qontinui.BuildRecords.Patterns

/-!
`build_record_violations`: the size, the walk along the allowlist, the content scan of every
string the walk collects, and the repos of the pull requests. What the function raises is its
`error`. The scan reads a string in a form of its own and checks for hidden characters, tokens
`owner/name`, and the names of excluded repos; the Unicode tables are parameters.
-/

namespace Qontinui.BuildRecords

section ContentScan

def slashLookalikes : List Nat :=
  [0x1735, 0x2041, 0x2044, 0x2215, 0x2571, 0x27cb, 0x29f6, 0x29f8, 0x2afb, 0x2afd, 0x2cc6, 0x2cc7,
   0x2f03, 0x3033, 0x30ce, 0x31d2, 0x31d3, 0x4e3f, 0xff0f, 0xff89, 0x1d23a, 0x141f]

/-- The letters drawn like Latin ones, with the letter each is scanned as. -/
def confusables : List (Nat × Nat) :=
  [(0x0430, 0x61), (0x0432, 0x62), (0x0435, 0x65), (0x043a, 0x6b), (0x043c, 0x6d), (0x043d, 0x68),
   (0x043e, 0x6f), (0x0440, 0x70), (0x0441, 0x63), (0x0442, 0x74), (0x0443, 0x79), (0x0445, 0x78),
   (0x0455, 0x73), (0x0456, 0x69), (0x0458, 0x6a), (0x0491, 0x72), (0x04bb, 0x68), (0x0501, 0x64),
   (0x051b, 0x71), (0x051d, 0x77), (0x0475, 0x76), (0x04cf, 0x6c), (0x0261, 0x67), (0x0410, 0x41),
   (0x0412, 0x42), (0x0415, 0x45), (0x041a, 0x4b), (0x041c, 0x4d), (0x041d, 0x48), (0x041e, 0x4f),
   (0x0420, 0x50), (0x0421, 0x43), (0x0422, 0x54), (0x0423, 0x59), (0x0425, 0x58), (0x0405, 0x53),
   (0x0406, 0x49), (0x0408, 0x4a), (0x04c0, 0x49), (0x051a, 0x51), (0x051c, 0x57), (0x03b1, 0x61),
   (0x03b2, 0x62), (0x03b5, 0x65), (0x03b9, 0x69), (0x03ba, 0x6b), (0x03bd, 0x76), (0x03bf, 0x6f),
   (0x03c1, 0x70), (0x03c4, 0x74), (0x03c5, 0x75), (0x03c7, 0x78), (0x03b3, 0x79), (0x0391, 0x41),
   (0x0392, 0x42), (0x0395, 0x45), (0x0396, 0x5a), (0x0397, 0x48), (0x0399, 0x49), (0x039a, 0x4b),
   (0x039c, 0x4d), (0x039d, 0x4e), (0x039f, 0x4f), (0x03a1, 0x50), (0x03a4, 0x54), (0x03a5, 0x59),
   (0x03a7, 0x58), (0x0131, 0x69), (0x0269, 0x69), (0x01c0, 0x6c)]

def extraDashes : List Nat := [0x2212]

def defaultIgnorableRanges : List (Nat × Nat) :=
  [(0x00ad, 0x00ad), (0x034f, 0x034f), (0x061c, 0x061c), (0x115f, 0x1160), (0x17b4, 0x17b5),
   (0x180b, 0x180f), (0x200b, 0x200f), (0x202a, 0x202e), (0x2060, 0x206f), (0x3164, 0x3164),
   (0xfe00, 0xfe0f), (0xfeff, 0xfeff), (0xffa0, 0xffa0), (0xfff0, 0xfff8), (0x1bca0, 0x1bca3),
   (0x1d173, 0x1d17a), (0xe0000, 0xe0fff)]

def refusedCategories : List Category := [.cf, .cc, .cn, .co, .cs]

def strippedCategories : List Category := [.mn, .me, .cf, .cc, .cn, .co, .cs]

def blankRenderingGlyphs : List Nat := [0x2800, 0x1d159]

def overlayMarks : List Nat :=
  [0x0334, 0x0335, 0x0336, 0x0337, 0x0338, 0x20d2, 0x20d3, 0x20e5, 0x20e6]

def slashTransparentCategories : List Category := [.lm, .mc, .sk, .so, .zl, .zp, .zs]

def isDefaultIgnorable (c : Nat) : Bool :=
  defaultIgnorableRanges.any fun range => range.1 ≤ c && c ≤ range.2

/-- `text.translate(table)`. -/
def translate (table : List (Nat × Nat)) (text : PyStr) : PyStr :=
  text.map fun c => (table.lookup c).getD c

section Scan

variable (py : Python)

def tooLong (value : PyStr) : Bool :=
  if maxScannedStringChars < value.length then true
  else
    let decomposed := (py.nfkd value).length
    decide (maxScannedStringChars < decomposed) ||
      decide (maxNfkdExpansion * max value.length 1 < decomposed)

def slashTransparent (c : Nat) : Bool :=
  let category := py.category c
  py.isspace c || slashTransparentCategories.contains category ||
    (category == .po && decide (0x7f < c))

def stripEdge (left right : Bool) (piece : PyStr) : PyStr :=
  let started := if left then piece.dropWhile (slashTransparent py) else piece
  if right then started.rdropWhile (slashTransparent py) else started

/-- The slash-transparent characters on both sides of every slash removed. -/
def collapseSpacedSlashes (text : PyStr) : PyStr :=
  let pieces := text.splitOn 47
  let last := pieces.length - 1
  [47].intercalate
    (pieces.mapIdx fun i piece => stripEdge py (decide (0 < i)) (decide (i < last)) piece)

def foldDash (c : Nat) : Nat :=
  if py.category c == .pd || extraDashes.contains c then 45 else c

def normalizeForScan (text : PyStr) : PyStr :=
  let kept := (py.nfkd text).filter fun c =>
    !strippedCategories.contains (py.category c) && !isDefaultIgnorable c
  let folded := translate confusables (py.nfkc kept)
  let dashed := (folded.map (foldDash py)).map fun c => if slashLookalikes.contains c then 47 else c
  collapseSpacedSlashes py (infixSub py none dashed)

/-- Every pair `a/b` in a normalised string, in lower case. -/
def repoTokens (normalized : PyStr) : List PyStr :=
  (pathRuns normalized).flatMap fun run =>
    let segments := ((run.splitOn 47).map fun segment =>
      (segment.dropWhile isEdge).rdropWhile isEdge).filter (· ≠ [])
    (segments.zip segments.tail).filterMap fun (left, right) =>
      if left.all isAsciiDigit && right.all isAsciiDigit then none
      else some (py.lower (left ++ 47 :: right))
where
  isEdge (c : Nat) : Bool := c == 46 || c == 45

def hasHiddenCharacters (text : PyStr) : Bool :=
  text.any fun c => refusedCategories.contains (py.category c) || isDefaultIgnorable c ||
    overlayMarks.contains c || blankRenderingGlyphs.contains c

/-- `names_pattern(names).search(text)`: one of the names in the text as a token of its own. -/
def searchNames (names : List PyStr) (text : PyStr) : Bool :=
  search (fun before rest => !(before.any isLowerAlnum) &&
    ((names.filter (· ≠ [])).map py.lower).any fun name =>
      name.isPrefixOf rest && !((rest.drop name.length).head?.any isLowerAlnum)) none text

end Scan

end ContentScan

open PyJson (get?)

/-- What a walk finds: violations, and the strings to scan with their places. -/
structure Findings where
  out : List String
  strings : List (String × PyStr)

namespace Findings

def none : Findings := ⟨[], []⟩

def violation (message : String) : Findings := ⟨[message], []⟩

def append (first second : Findings) : Findings :=
  ⟨first.out ++ second.out, first.strings ++ second.strings⟩

end Findings

section Python

variable (py : Python)

def isDecimal (c : Nat) : Bool := py.category c == .nd

def isCount : PyJson → Bool
  | .null => true
  | .int n => decide (0 ≤ n)
  | _ => false

def isUnknown : PyJson → Bool
  | .str s =>
      match unknownParts s with
      | some (path, reason) =>
          (buildRecordAllowedPaths.map codePoints).contains (subIndex (isDecimal py) path) &&
            (unknownReasonCodes.map codePoints).contains reason
      | none => false
  | _ => false

def isTimestamp (value : PyStr) : Bool :=
  isRfc3339 (isDecimal py) value && (py.fromisoformat value == some true)

def slotOk (slot : Slot) (value : PyJson) : Bool :=
  match slot, value with
  | .schema, .str s => s == codePoints buildRecordSchema
  | .schema, _ => false
  | .count, value => isCount value
  | .unknown, value => isUnknown py value
  | .unknownOrNull, .null => true
  | .unknownOrNull, value => isUnknown py value
  | .timestampOrNull, .null => true
  | .statusOrNull, .null => true
  | .textOrNull, .null => true
  | .timestamp, .str s => isTimestamp py s
  | .timestampOrNull, .str s => isTimestamp py s
  | .status, .str s => (workUnitStatuses.map codePoints).contains s
  | .statusOrNull, .str s => (workUnitStatuses.map codePoints).contains s
  | .repo, .str s => isRepo s
  | .slug, .str s => isSlug s
  | .workUnitSlug, .str s => isWorkUnitSlug s
  | .text, .str _ => true
  | .textOrNull, .str _ => true
  | _, _ => false

/-- `path or "<root>"`. -/
def placeOf (path : String) : String := if path = "" then "<root>" else path

def walkLeaf (slot : Slot) (value : PyJson) (path : String) : Findings :=
  let place := placeOf path
  let checked (strings : List (String × PyStr)) : Findings :=
    if slotOk py slot value then ⟨[], strings⟩
    else .violation (place ++ ": not a valid " ++ slot.value ++ " value")
  match value with
  | .list _ => .violation (place ++ ": expected a scalar, got list")
  | .dict _ => .violation (place ++ ": expected a scalar, got dict")
  | .str s =>
      if tooLong py s then
        .violation (place ++ ": longer than " ++ toString maxScannedStringChars ++ " characters")
      else checked (if slot = .schema then [] else [(place, s)])
  | _ => checked []

mutual

/-- `_walk(value, shape, path, out, strings)`. -/
def walk : PyJson → Shape → String → Findings
  | value, .leaf slot, path => walkLeaf py slot value path
  | .dict fields, .keys allowed, path => walkFields fields allowed path
  | value, .keys _, path =>
      .violation (placeOf path ++ ": expected an object, got " ++ value.typeName)
  | .list items, .list item, path => walkItems items item path 0
  | value, .list _, path =>
      .violation (placeOf path ++ ": expected a list, got " ++ value.typeName)

def walkFields : List (PyStr × PyJson) → List (String × Shape) → String → Findings
  | [], _, _ => .none
  | (key, sub) :: rest, allowed, path =>
      let first :=
        match shapeOf? allowed key with
        | some (name, shape) => walk sub shape (if path = "" then name else path ++ "." ++ name)
        | none =>
            let parent := if path = "" then "" else path ++ "."
            .violation (parent ++ "<unlisted key>: key is not in the build-record allowlist")
      first.append (walkFields rest allowed path)

def walkItems : List PyJson → Shape → String → Nat → Findings
  | [], _, _, _ => .none
  | item :: rest, shape, path, index =>
      (walk item shape (path ++ "[" ++ toString index ++ "]")).append
        (walkItems rest shape path (index + 1))

end

/-- `json.dumps(document, ensure_ascii=False, separators=(",", ":"))`. -/
def dumps (document : PyJson) : Except PyError PyStr :=
  if py.dumpsDepth < document.depth then .error .recursionError else .ok document.dumpsText

def tooLarge (document : PyJson) : Except PyError Bool :=
  match dumps py document with
  | .error _ => .ok true
  | .ok encoded => do
      let length ← encodedLength encoded
      return decide (maxDocumentBytes < length)

/-- `str(value)`. -/
def pyString (value : PyJson) : Except PyError PyStr :=
  match value with
  | .str s => .ok s
  | value =>
      if py.reprDepth < value.depth then .error .recursionError
      else .ok (value.reprText py.isprintable)

/-- `product.repos` in lower case, as the set of the repos known public. -/
def publicRepos (fields : List (PyStr × PyJson)) : List PyStr :=
  match get? fields "product" with
  | some (.dict product) =>
      match get? product "repos" with
      | some (.list repos) => repos.filterMap fun repo =>
          match repo with
          | .str r => some (py.lower r)
          | _ => none
      | _ => []
  | _ => []

def scanString (excludedNames repos : List PyStr) (place : String) (text : PyStr) : List String :=
  if hasHiddenCharacters py text then
    [place ++ ": contains an invisible, control or overlay character"]
  else
    let normalized := normalizeForScan py text
    let exempt := (excludedNameExemptPaths.map codePoints).contains
      (subIndex (isDecimal py) (codePoints place))
    (if !exempt && searchNames py excludedNames (py.lower normalized) then
      [place ++ ": names a repo excluded as not known public"] else []) ++
    (if (repoTokens py normalized).any (fun token => !repos.contains token) then
      [place ++ ": names an owner/name not in product.repos"] else []) ++
    (if searchUuid normalized then [place ++ ": contains a UUID-shaped identifier"] else []) ++
    (if searchEmail normalized then [place ++ ": contains an email-shaped identity"] else [])

/-- The repos of the pull requests, from one index on. -/
def prViolations (repos : List PyStr) : List PyJson → Nat → Except PyError (List String)
  | [], _ => .ok []
  | .dict pr :: rest, index => do
      let repo ← pyString py ((get? pr "repo").getD (.str []))
      let later ← prViolations repos rest (index + 1)
      return (if repos.contains (py.lower repo) then []
        else ["prs[" ++ toString index ++ "].repo: not one of product.repos, so not known public"])
          ++ later
  | _ :: rest, index => prViolations repos rest (index + 1)

/-- `document.get("prs")`, where it is a list. -/
def prsOf (fields : List (PyStr × PyJson)) : List PyJson :=
  match get? fields "prs" with
  | some (.list prs) => prs
  | _ => []

def schemaViolations (fields : List (PyStr × PyJson)) : List String :=
  if (get? fields "schema").isSome then []
  else ["schema: required, must be '" ++ buildRecordSchema ++ "'"]

def buildRecordViolations (document : PyJson) (excludedNames : List PyStr) :
    Except PyError (List String) := do
  if ← tooLarge py document then
    return ["<root>: larger than " ++ toString maxDocumentBytes ++ " bytes serialized"]
  let found := walk py document buildRecordAllowlist ""
  match document with
  | .dict fields => do
      let repos := publicRepos py fields
      let scans := found.strings.flatMap fun entry =>
        scanString py excludedNames repos entry.1 entry.2
      let prs ← prViolations py repos (prsOf fields) 0
      return found.out ++ schemaViolations fields ++ scans ++ prs
  | _ => return found.out

end Python

end Qontinui.BuildRecords
