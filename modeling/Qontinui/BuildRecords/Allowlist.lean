import Qontinui.Base.PyJson

/-!
The allowlist of a public build record: the kind of every leaf, the keys of every object, and
the paths the allowed keys have.
-/

namespace Qontinui.BuildRecords

def buildRecordSchema : String := "build-record/1"

def workUnitStatuses : List String :=
  ["draft", "in_progress", "blocked", "vetted", "ready", "shipped", "superseded", "obsolete"]

def unknownReasonCodes : List String :=
  ["not_established", "door_unavailable", "excluded_not_known_public", "census_provisional",
    "not_applicable"]

def maxScannedStringChars : Nat := 512
def maxNfkdExpansion : Nat := 2
def maxDocumentBytes : Nat := 256 * 1024

/-- The declared kind of one leaf. -/
inductive Slot where
  | schema
  | timestamp
  | timestampOrNull
  | count
  | repo
  | slug
  | workUnitSlug
  | status
  | statusOrNull
  | text
  | textOrNull
  | unknown
  | unknownOrNull
  deriving Repr, DecidableEq

/-- `slot.value`. -/
def Slot.value : Slot → String
  | .schema => "schema"
  | .timestamp => "timestamp"
  | .timestampOrNull => "timestamp_or_null"
  | .count => "count"
  | .repo => "repo"
  | .slug => "slug"
  | .workUnitSlug => "work_unit_slug"
  | .status => "status"
  | .statusOrNull => "status_or_null"
  | .text => "text"
  | .textOrNull => "text_or_null"
  | .unknown => "unknown"
  | .unknownOrNull => "unknown_or_null"

/-- The shape of a value: a leaf, a list whose items have one shape, or the allowed keys. -/
inductive Shape where
  | leaf (slot : Slot)
  | list (item : Shape)
  | keys (allowed : List (String × Shape))

def buildRecordAllowlist : Shape :=
  .keys [
    ("schema", .leaf .schema),
    ("generated_at", .leaf .timestamp),
    ("product", .keys [
      ("slug", .leaf .slug),
      ("title", .leaf .text),
      ("repos", .list (.leaf .repo)),
      ("window_start", .leaf .timestampOrNull),
      ("window_end", .leaf .timestampOrNull)]),
    ("work_units", .list (.keys [
      ("slug", .leaf .workUnitSlug),
      ("title", .leaf .textOrNull),
      ("status", .leaf .status),
      ("vetted_at", .leaf .timestampOrNull),
      ("shipped_at", .leaf .timestampOrNull)])),
    ("timeline", .list (.keys [
      ("at", .leaf .timestamp),
      ("work_unit", .leaf .workUnitSlug),
      ("from_status", .leaf .statusOrNull),
      ("to_status", .leaf .status)])),
    ("prs", .list (.keys [
      ("repo", .leaf .repo),
      ("number", .leaf .count),
      ("title", .leaf .textOrNull),
      ("opened_at", .leaf .timestampOrNull),
      ("landed_at", .leaf .timestampOrNull),
      ("ci_duration_secs", .leaf .count),
      ("attempts", .leaf .count)])),
    ("gates", .keys [("registered", .leaf .count), ("cleared", .leaf .count)]),
    ("sessions", .keys [("count", .leaf .count), ("unknown_reason", .leaf .unknownOrNull)]),
    ("wall_clock_secs", .leaf .count),
    ("self_corrections", .keys [
      ("red_ci_fixed", .leaf .count),
      ("review_findings_fixed", .leaf .count),
      ("gate_reopens", .leaf .count)]),
    ("unknowns", .list (.leaf .unknown))]

mutual

/-- `_key_paths(shape, prefix)`. -/
def keyPaths : Shape → String → List String
  | .leaf _, _ => []
  | .list item, parent => keyPaths item (parent ++ "[]")
  | .keys allowed, parent => keyPathsOf allowed parent

def keyPathsOf : List (String × Shape) → String → List String
  | [], _ => []
  | (key, shape) :: rest, parent =>
      let path := if parent = "" then key else parent ++ "." ++ key
      path :: (keyPaths shape path ++ keyPathsOf rest parent)

end

def buildRecordAllowedPaths : List String := keyPaths buildRecordAllowlist ""

def excludedNameExemptPaths : List String :=
  ["generated_at", "product.repos[]", "product.slug", "product.window_end", "product.window_start",
   "prs[].landed_at", "prs[].opened_at", "prs[].repo", "sessions.unknown_reason", "timeline[].at",
   "timeline[].from_status", "timeline[].to_status", "unknowns[]", "work_units[].shipped_at",
   "work_units[].status", "work_units[].vetted_at"]

/-- The entry of a key of a document among the allowed ones. -/
def shapeOf? (allowed : List (String × Shape)) (key : PyStr) : Option (String × Shape) :=
  allowed.find? fun entry => codePoints entry.1 == key

end Qontinui.BuildRecords
