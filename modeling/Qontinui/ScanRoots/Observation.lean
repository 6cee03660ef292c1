import Mathlib.Algebra.Group.Nat.Defs
import Mathlib.Data.Nat.Log

/-!
The stored readings and refusals of the devices that feed the plan corpus, and the verdict
that the server puts on each of them: the row a reader is shown.
-/

namespace Qontinui.ScanRoots

abbrev Uuid := String

/-- A `datetime`, in microseconds. -/
abbrev Instant := Int

/-! ### Seconds between two instants -/

/-- The quotient of two naturals, rounded half to even. -/
def divRound (n d : Nat) : Nat :=
  if d < 2 * (n % d) ∨ (d = 2 * (n % d) ∧ (n / d) % 2 = 1) then n / d + 1 else n / d

/-- The integer part of `total_seconds()`, a double, of `micros` microseconds. -/
def wholeSecondsNat (micros : Nat) : Nat :=
  let scale := 2 ^ (52 - Nat.log2 (micros / 1000000))
  divRound (micros * scale) 1000000 / scale

/-- `int((a - b).total_seconds())`, which rounds towards zero. -/
def wholeSeconds (a b : Instant) : Int :=
  if b ≤ a then wholeSecondsNat (a - b).toNat else -wholeSecondsNat (b - a).toNat

/-- `_age_secs`. -/
def ageSecs (stamp now : Instant) : Int := max 0 (wholeSeconds now stamp)

/-- `FRESH_WITHIN_SECS`. -/
def freshWithinSecs : Int := 2700

/-- `RETIRE_AFTER_SECS`. -/
def retireAfterSecs : Int := 30 * 86400

/-! ### Stored rows -/

/-- `ScanRootState`. -/
inductive ScanRootState
  | measured
  | notScanning
  | notAGitWorkTree
  | unknown
deriving DecidableEq, Repr

def ScanRootState.text : ScanRootState → String
  | .measured => "measured"
  | .notScanning => "not_scanning"
  | .notAGitWorkTree => "not_a_git_work_tree"
  | .unknown => "unknown"

/-- A value of a stored census, as far as the reader tells values apart. -/
inductive CensusValue
  | bool (b : Bool)
  | int (n : Int)
  | str (s : String)
  | strings (items : List String)
  | other
deriving DecidableEq, Repr

/-- A stored census object; `none` is an absent key. The reader checks four of its values;
`ref_sha` is as the write door leaves it, a string or nothing. -/
structure StoredCensus where
  slugs : Option CensusValue
  count : Option CensusValue
  truncated : Option CensusValue
  digest : Option CensusValue
  refSha : Option String
deriving DecidableEq, Repr

/-- `PlanScanRootObservation`: a device's stored reading. -/
structure Observation where
  deviceId : Uuid
  state : ScanRootState
  plansDir : Option String
  repoRoot : Option String
  sourceRepo : Option String
  defaultRef : Option String
  refSha : Option String
  headSha : Option String
  behind : Option Nat
  ahead : Option Nat
  refAgeSecs : Option Nat
  countsAreFloors : Bool
  detail : Option String
  observedAt : Instant
  receivedAt : Instant
  lastReportApplied : Bool
  lastReportObservedAt : Instant
  refCensus : Option StoredCensus
  workTreeCensus : Option StoredCensus
deriving DecidableEq, Repr

/-- `PlanScanRootRefusal`; the first refusal is only shown, in its `isoformat()`. -/
structure Refusal where
  deviceId : Uuid
  firstRefusedAt : String
  lastRefusedAt : Instant
  lastRefusedReason : String
  refusedCount : Nat
deriving DecidableEq, Repr

/-- `ScanRootRow`. -/
structure ScanRootRow where
  deviceId : Uuid
  state : ScanRootState
  detail : Option String
  reportedState : Option ScanRootState
  reportedDetail : Option String
  plansDir : Option String
  repoRoot : Option String
  sourceRepo : Option String
  defaultRef : Option String
  refSha : Option String
  headSha : Option String
  behind : Option Nat
  ahead : Option Nat
  refAgeSecs : Option Nat
  countsAreFloors : Option Bool
  observedAt : Option Instant
  receivedAt : Option Instant
  lastReportApplied : Option Bool
  lastReportObservedAt : Option Instant
  observedSkewSecs : Option Int
  observationAgeSecs : Option Int
  observationFresh : Bool
  lastRefusedAt : Option Instant
  lastRefusedReason : Option String
  refusedCount : Option Nat
  refusedAgeSecs : Option Int
  retired : Bool
deriving DecidableEq, Repr

/-! ### Details -/

/-- `superseded_detail`. -/
def supersededDetail (row : Observation) : Option String :=
  if row.lastReportApplied then none
  else
    let earlierBy := wholeSeconds row.observedAt row.lastReportObservedAt
    some ("reading_superseded: the device's latest report was observed ~" ++ toString earlierBy ++
      " s before the stored reading (a clock step-back or a late-delivered report), so the " ++
      "stored reading may not be what it reports now")

/-- `REF_STALE_ZERO_FLOOR_DETAIL`. -/
def refStaleZeroFloorDetail : String :=
  "ref_stale: 0/0 counts against a ref that is stale or of unknown age are a lower bound, " ++
    "not agreement"

/-- `ref_stale_zero_behind_detail`. -/
def refStaleZeroBehindDetail (ahead : Nat) : String :=
  "ref_stale: 0 behind against a ref that is stale or of unknown age is a lower bound, not " ++
    "agreement (ahead " ++ toString ahead ++ " is also as of that ref)"

/-- `zero_behind_floor_detail`. -/
def zeroBehindFloorDetail (row : Observation) : Option String :=
  if row.state = .measured ∧ row.countsAreFloors ∧ row.behind = some 0 then
    match row.ahead with
    | none | some 0 => some refStaleZeroFloorDetail
    | some ahead => some (refStaleZeroBehindDetail ahead)
  else none

/-- `refused_detail`. -/
def refusedDetail (refusal : Refusal) (now : Instant) : String :=
  "refused: " ++ refusal.lastRefusedReason ++ ", last attempt " ++
    toString (ageSecs refusal.lastRefusedAt now) ++ " s ago (" ++
    toString refusal.refusedCount ++ " refused since " ++ refusal.firstRefusedAt ++ ")"

/-- `_last_refusal_clause`. -/
def lastRefusalClause (refusal : Option Refusal) (now : Instant) (receivedAt : Option Instant) :
    String :=
  match refusal with
  | none => ""
  | some refusal =>
      let age := toString (ageSecs refusal.lastRefusedAt now)
      let tail := " s ago (" ++ refusal.lastRefusedReason ++ "; " ++
        toString refusal.refusedCount ++ " refused since " ++ refusal.firstRefusedAt ++ ")"
      let lastReport := match receivedAt with
        | none => true
        | some receivedAt => decide (receivedAt < refusal.lastRefusedAt)
      if lastReport then "; its last report was REFUSED " ++ age ++ tail
      else "; it was last refused " ++ age ++ tail ++ ", not after its last stored reading"

/-! ### Retirement -/

/-- A device as it is rendered: by its reading, or by its refusal alone. -/
inductive Contact
  | reading (row : Observation) (refusal : Option Refusal)
  | refusalOnly (refusal : Refusal)
deriving DecidableEq, Repr

def Contact.deviceId : Contact → Uuid
  | .reading row _ => row.deviceId
  | .refusalOnly refusal => refusal.deviceId

def Contact.isReading : Contact → Bool
  | .reading _ _ => true
  | .refusalOnly _ => false

/-- `last_contact_at`. -/
def lastContactAt : Contact → Instant
  | .reading row none => row.receivedAt
  | .reading row (some refusal) => max row.receivedAt refusal.lastRefusedAt
  | .refusalOnly refusal => refusal.lastRefusedAt

/-- `is_retired`. -/
def isRetired (now : Instant) (contact : Contact) : Bool :=
  retireAfterSecs < ageSecs (lastContactAt contact) now

/-! ### Rows -/

/-- `_render_refusal_only`. -/
def renderRefusalOnly (refusal : Refusal) (now : Instant) (retired : Bool) : ScanRootRow :=
  let refusedAge := ageSecs refusal.lastRefusedAt now
  let detail :=
    if refusedAge ≤ freshWithinSecs then refusedDetail refusal now
    else
      "observation_stale: no reading has ever been stored for this device, and nothing has " ++
        "arrived within the " ++ toString freshWithinSecs ++ " s freshness window" ++
        lastRefusalClause (some refusal) now none
  { deviceId := refusal.deviceId
    state := .unknown
    detail := some detail
    reportedState := none
    reportedDetail := none
    plansDir := none
    repoRoot := none
    sourceRepo := none
    defaultRef := none
    refSha := none
    headSha := none
    behind := none
    ahead := none
    refAgeSecs := none
    countsAreFloors := none
    observedAt := none
    receivedAt := none
    lastReportApplied := none
    lastReportObservedAt := none
    observedSkewSecs := none
    observationAgeSecs := none
    observationFresh := false
    lastRefusedAt := some refusal.lastRefusedAt
    lastRefusedReason := some refusal.lastRefusedReason
    refusedCount := some refusal.refusedCount
    refusedAgeSecs := some refusedAge
    retired }

/-- The refusal that stands for a device which is alive: it came after the reading, within
the window, and the reading is no longer fresh. -/
def refusedNow (row : Observation) (refusal : Option Refusal) (now : Instant) : Option Refusal :=
  refusal.filter fun refusal =>
    decide (freshWithinSecs < ageSecs row.receivedAt now) &&
      decide (row.receivedAt < refusal.lastRefusedAt) &&
      decide (ageSecs refusal.lastRefusedAt now ≤ freshWithinSecs)

/-- The verdict of `render_row` on a reading. -/
def verdict (row : Observation) (refusal : Option Refusal) (now : Instant) :
    ScanRootState × Option String :=
  let age := ageSecs row.receivedAt now
  match refusedNow row refusal now with
  | some refusal => (.unknown, some (refusedDetail refusal now))
  | none =>
      if freshWithinSecs < age then
        (.unknown, some ("observation_stale: last report received " ++ toString age ++
          " s ago, past the " ++ toString freshWithinSecs ++ " s freshness window; it reported " ++
          "state '" ++ row.state.text ++ "', which says nothing about now" ++
          lastRefusalClause refusal now (some row.receivedAt)))
      else match supersededDetail row with
        | some detail => (.unknown, some detail)
        | none => match zeroBehindFloorDetail row with
          | some detail => (.unknown, some detail)
          | none => (row.state, row.detail)

/-- `render_row`. -/
def renderRow (contact : Contact) (now : Instant) (retired : Bool) : ScanRootRow :=
  match contact with
  | .refusalOnly refusal => renderRefusalOnly refusal now retired
  | .reading row refusal =>
      { deviceId := row.deviceId
        state := (verdict row refusal now).1
        detail := (verdict row refusal now).2
        reportedState := some row.state
        reportedDetail := row.detail
        plansDir := row.plansDir
        repoRoot := row.repoRoot
        sourceRepo := row.sourceRepo
        defaultRef := row.defaultRef
        refSha := row.refSha
        headSha := row.headSha
        behind := row.behind
        ahead := row.ahead
        refAgeSecs := row.refAgeSecs
        countsAreFloors := some row.countsAreFloors
        observedAt := some row.observedAt
        receivedAt := some row.receivedAt
        lastReportApplied := some row.lastReportApplied
        lastReportObservedAt := some row.lastReportObservedAt
        observedSkewSecs := some (wholeSeconds row.receivedAt row.observedAt)
        observationAgeSecs := some (ageSecs row.receivedAt now)
        observationFresh := decide (ageSecs row.receivedAt now ≤ freshWithinSecs)
        lastRefusedAt := refusal.map (·.lastRefusedAt)
        lastRefusedReason := refusal.map (·.lastRefusedReason)
        refusedCount := refusal.map (·.refusedCount)
        refusedAgeSecs := refusal.map fun refusal => ageSecs refusal.lastRefusedAt now
        retired }

@[simp] theorem renderRow_deviceId (contact : Contact) (now : Instant) (retired : Bool) :
    (renderRow contact now retired).deviceId = contact.deviceId := by
  cases contact <;> rfl

@[simp] theorem renderRow_retired (contact : Contact) (now : Instant) (retired : Bool) :
    (renderRow contact now retired).retired = retired := by
  cases contact <;> rfl

end Qontinui.ScanRoots
