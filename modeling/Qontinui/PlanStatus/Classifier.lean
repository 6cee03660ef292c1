import Qontinui.Base.PyText

/-!
The three-way plan-status classifier: the stored unit status (axis A), the
stamp of the plan document (axis B) and the derived delivery verdict (axis C)
go through an ordered cascade of twelve classes, and the first that matches
wins. Nothing here reads a file or a service.
-/

namespace Qontinui.PlanStatus

/-- The classes, in the order of the cascade. -/
inductive PlanClass where
  | unknownAxisUnreadable
  | unknownNoBodyOnMain
  | unknownNoUnit
  | unknownUnitStatusEmpty
  | evidenceIncomplete
  | noCitationsCaptured
  | unitStatusContradictsDelivery
  | docStampUnreadableByAdapter
  | docOverstates
  | docUnderstates
  | agreeTerminal
  | agreeOpen
deriving DecidableEq, Repr

def adapterNinePhrases : List String :=
  ["draft", "vetted", "in progress", "shipped", "partial", "not started", "superseded",
    "obsolete", "implemented"]

def docTerminal : List String := ["shipped", "implemented", "superseded", "obsolete"]

def unitShippedClass : List String :=
  ["shipped", "done", "implemented", "complete", "completed", "delivered", "landed"]

def unitAbandonedClass : List String :=
  ["superseded", "obsolete", "cancelled", "canceled", "wontfix", "rejected", "dropped",
    "abandoned"]

def unitTerminal : List String := unitShippedClass ++ unitAbandonedClass

/-! ### Axis shapes -/

/-- A value of an axis dict. -/
inductive PyValue where
  | none
  | bool (b : Bool)
  | int (i : Int)
  | str (s : String)
  | list (items : List String)
deriving DecidableEq, Repr

def PyValue.ofOption {α : Type*} (f : α → PyValue) : Option α → PyValue
  | .none => .none
  | some x => f x

abbrev AxisDict := List (String × PyValue)

/-- Axis A: the stored unit status. -/
structure AxisA where
  readable : Bool := true
  present : Bool := true
  status : Option String := none
  unreadableReason : Option String := none
deriving DecidableEq, Repr

/-- Axis B: the document stamp, as the linter reads it, and whether some line
passes the adapter's own byte-exact test. -/
structure AxisB where
  readable : Bool := true
  present : Bool := true
  status : Option String := none
  classification : Option String := none
  adapterReadable : Option Bool := none
  unreadableReason : Option String := none
deriving DecidableEq, Repr

/-- Axis C: the delivery verdict and its citation rows. -/
structure AxisC where
  readable : Bool := true
  present : Bool := true
  shipped : Option Bool := none
  evidenceComplete : Option Bool := none
  evidenceGaps : List String := []
  citationCount : Option Int := none
  unreadableReason : Option String := none
deriving DecidableEq, Repr

def axisAKeys : List String := ["readable", "present", "status", "unreadable_reason"]

def axisBKeys : List String :=
  ["readable", "present", "status", "classification", "adapter_readable", "unreadable_reason"]

def axisCKeys : List String :=
  ["readable", "present", "shipped", "evidence_complete", "evidence_gaps", "citation_count",
    "unreadable_reason"]

def AxisA.dict (a : AxisA) : AxisDict :=
  [("readable", .bool a.readable), ("present", .bool a.present),
    ("status", .ofOption .str a.status),
    ("unreadable_reason", .ofOption .str a.unreadableReason)]

def AxisB.dict (b : AxisB) : AxisDict :=
  [("readable", .bool b.readable), ("present", .bool b.present),
    ("status", .ofOption .str b.status), ("classification", .ofOption .str b.classification),
    ("adapter_readable", .ofOption .bool b.adapterReadable),
    ("unreadable_reason", .ofOption .str b.unreadableReason)]

def AxisC.dict (c : AxisC) : AxisDict :=
  [("readable", .bool c.readable), ("present", .bool c.present),
    ("shipped", .ofOption .bool c.shipped),
    ("evidence_complete", .ofOption .bool c.evidenceComplete),
    ("evidence_gaps", .list c.evidenceGaps), ("citation_count", .ofOption .int c.citationCount),
    ("unreadable_reason", .ofOption .str c.unreadableReason)]

/-- `", ".join(sorted(keys))` -/
def joinSorted (keys : List String) : String :=
  String.intercalate ", " (keys.mergeSort fun a b => decide (a ≤ b))

def isBool : Option PyValue → Bool
  | some (.bool _) => true
  | _ => false

/-- The shape check of an axis dict; the error is the text of the `AxisShapeError`. -/
def check (axis : AxisDict) (keys : List String) (name : String) : Except String Unit :=
  let got := axis.map Prod.fst
  let missing := keys.filter fun key => !got.contains key
  let extra := got.filter fun key => !keys.contains key
  if !missing.isEmpty || !extra.isEmpty then
    let parts := (if missing.isEmpty then [] else ["missing " ++ joinSorted missing]) ++
      (if extra.isEmpty then [] else ["unknown " ++ joinSorted extra])
    .error ("axis " ++ name ++ ": " ++ String.intercalate "; " parts)
  else if !isBool (axis.lookup "readable") then
    .error ("axis " ++ name ++ ": `readable` must be a bool")
  else if !isBool (axis.lookup "present") then
    .error ("axis " ++ name ++ ": `present` must be a bool")
  else .ok ()

theorem check_axis_a (a : AxisA) : check a.dict axisAKeys "A" = .ok () := by
  simp [check, AxisA.dict, axisAKeys, isBool, List.lookup_cons]

theorem check_axis_b (b : AxisB) : check b.dict axisBKeys "B" = .ok () := by
  simp [check, AxisB.dict, axisBKeys, isBool, List.lookup_cons]

theorem check_axis_c (c : AxisC) : check c.dict axisCKeys "C" = .ok () := by
  simp [check, AxisC.dict, axisCKeys, isBool, List.lookup_cons]

section Cascade

variable (u : PyUnicode)

/-! ### Vocabulary helpers -/

/-- A status word in lower case, trimmed and joined by underscores. -/
def normalizeStatusWord (raw : String) : String :=
  let cleaned := pyStrip (pyRstrip [',', '.', ':', '*'] (pyStrip raw.toList))
  u.lower (String.intercalate "_" ((pySplit cleaned).map String.ofList))

/-- One of the nine phrases begins the stamp and ends at a word boundary. -/
def adapterTokenizes (raw : String) : Bool :=
  let lower := (u.lower (String.ofList (pyStrip raw.toList))).toList
  !lower.isEmpty && adapterNinePhrases.any fun phrase =>
    phrase.toList.isPrefixOf lower &&
      match lower.drop phrase.toList.length with
      | [] => true
      | next :: _ => !(u.isalnum next || next == '_')

def docIsTerminal : Option String → Bool
  | none => false
  | some raw => docTerminal.contains (normalizeStatusWord u raw)

def unitIsTerminal (raw : String) : Bool :=
  unitTerminal.contains (normalizeStatusWord u raw)

def unitIsShippedClass (raw : String) : Bool :=
  unitShippedClass.contains (normalizeStatusWord u raw)

/-! ### The cascade -/

abbrev Verdict := PlanClass × String

def AxisA.unitStatus (a : AxisA) : String := a.status.getD ""

/-- `"axis A (why)"` for an axis that could not be read. -/
def unreadableLabel (label : String) (readable : Bool) (reason : Option String) : List String :=
  if readable then []
  else
    let why := match reason with
      | some text => if text = "" then "no reason recorded" else text
      | none => "no reason recorded"
    ["axis " ++ label ++ " (" ++ why ++ ")"]

def axisUnreadable (a : AxisA) (b : AxisB) (c : AxisC) : Option Verdict :=
  let unreadable := unreadableLabel "A" a.readable a.unreadableReason ++
    unreadableLabel "B" b.readable b.unreadableReason ++
    unreadableLabel "C" c.readable c.unreadableReason
  if unreadable.isEmpty then none
  else some (.unknownAxisUnreadable, "could not read " ++ String.intercalate "; " unreadable)

def sideAbsent (a : AxisA) (b : AxisB) : Option Verdict :=
  if !b.present then
    some (.unknownNoBodyOnMain,
      "no plan body for this stem on the plans repo's origin/main; the document axis has no " ++
        "value to compare")
  else if !a.present then
    some (.unknownNoUnit,
      "no coord work unit for this stem; axes A and C have no value to compare")
  else if (pyStrip a.unitStatus.toList).isEmpty then
    some (.unknownUnitStatusEmpty,
      "coord work unit exists but its stored status is the empty string -- not null and not a " ++
        "vocabulary word, so it is accepted silently and detached from every status query")
  else none

def evidenceIncomplete (c : AxisC) : Option Verdict :=
  if c.present && c.evidenceComplete == some false then
    let rendered :=
      if c.evidenceGaps.isEmpty then "no gaps recorded"
      else String.intercalate "; " c.evidenceGaps
    some (.evidenceIncomplete,
      "coord's delivery verdict reads evidence_complete: false, so shipped: " ++
        pyReprBool c.shipped ++ " is not an observation. Gaps verbatim: " ++ rendered)
  else none

/-- Coord looked and found nothing while the stamp or the unit claims the work landed. -/
def noCitations (a : AxisA) (b : AxisB) (c : AxisC) : Option Verdict :=
  if c.present && c.evidenceComplete == some true && c.citationCount == some 0 then
    let docClaimsDone := docIsTerminal u b.status
    let unitClaimsDone := unitIsTerminal u a.unitStatus
    if docClaimsDone || unitClaimsDone then
      let claimant :=
        if docClaimsDone && unitClaimsDone then
          "both the document stamp " ++ pyReprOption u b.status ++
            " and the stored unit status " ++ pyRepr u a.unitStatus
        else if docClaimsDone then "the document stamp " ++ pyReprOption u b.status
        else "the stored unit status " ++ pyRepr u a.unitStatus
      some (.noCitationsCaptured,
        claimant ++ " asserts the work is done, but coord's delivery verdict is complete " ++
          "(evidence_complete: true, no gaps) over ZERO captured citations -- coord looked " ++
          "and found nothing, which is not the same fact as 'not started'")
    else none
  else none

/-- The stored status against the live delivery verdict. -/
def contradictsDelivery (a : AxisA) (c : AxisC) : Option Verdict :=
  match c.present, c.shipped with
  | true, some shipped =>
      if unitIsShippedClass u a.unitStatus && !shipped then
        some (.unitStatusContradictsDelivery,
          "stored unit status " ++ pyRepr u a.unitStatus ++ " asserts the work landed, but " ++
            "coord's live delivery verdict reads shipped: false over a COMPLETE evidence read")
      else if shipped && !unitIsTerminal u a.unitStatus then
        some (.unitStatusContradictsDelivery,
          "coord's live delivery verdict reads shipped: true over a complete evidence read, " ++
            "but the stored unit status is " ++ pyRepr u a.unitStatus ++
            ", which is not a terminal word")
      else if shipped && unitAbandonedClass.contains (normalizeStatusWord u a.unitStatus) then
        some (.unitStatusContradictsDelivery,
          "stored unit status " ++ pyRepr u a.unitStatus ++ " asserts the work was " ++
            "abandoned, but coord's live delivery verdict reads shipped: true over a complete " ++
            "evidence read")
      else none
  | _, _ => none

/-- The stamp the comparison below reads, or why the adapter cannot read one. -/
def docStamp (b : AxisB) : Except Verdict String :=
  match b.status with
  | none => .error noStatusBlock
  | some docStatus =>
      if b.classification == some "no_status_block" then .error noStatusBlock
      else if !adapterTokenizes u docStatus then
        .error (.docStampUnreadableByAdapter,
          "the linter parsed the stamp as " ++ pyRepr u docStatus ++ " (classification " ++
            pyReprOption u b.classification ++ "), but the adapter's nine phrases do not " ++
            "match it, so the two readers disagree about what this document says")
      else if b.adapterReadable == some false then
        .error (.docStampUnreadableByAdapter,
          "the linter's looser grammar parsed " ++ pyRepr u docStatus ++ ", but NO line " ++
            "satisfies the adapter's byte-exact `> **Status:` test, so a human and the " ++
            "adapter read different statuses off this body")
      else .ok docStatus
where
  noStatusBlock : Verdict :=
    (.docStampUnreadableByAdapter,
      "the body on origin/main carries no status block at all, so the plan->work-unit " ++
        "adapter silently defaults it to `draft` and can push that over whatever coord had " ++
        "derived")

/-- The last four classes: the stamp's terminality against the unit's. -/
def compareTerminality (a : AxisA) (docStatus : String) : Verdict :=
  let doc := pyRepr u docStatus
  let unit := pyRepr u a.unitStatus
  match docIsTerminal u docStatus, unitIsTerminal u a.unitStatus with
  | true, false =>
      (.docOverstates, "document stamp " ++ doc ++ " is terminal while the stored unit status " ++
        unit ++ " is not")
  | false, true =>
      (.docUnderstates, "stored unit status " ++ unit ++ " is terminal while the document " ++
        "stamp " ++ doc ++ " is not")
  | true, true =>
      (.agreeTerminal, "document stamp " ++ doc ++ " and stored unit status " ++ unit ++
        " are both terminal, and every axis was read")
  | false, false =>
      (.agreeOpen, "document stamp " ++ doc ++ " and stored unit status " ++ unit ++
        " are both open, and every axis was read")

/-- The arms below the delivery verdict: the stamp's own readability, then the comparison. -/
def documentLeg (a : AxisA) (b : AxisB) : Verdict :=
  match docStamp u b with
  | .error verdict => verdict
  | .ok docStatus => compareTerminality u a docStatus

def cascade (a : AxisA) (b : AxisB) (c : AxisC) : Verdict :=
  (axisUnreadable a b c <|> sideAbsent a b <|> evidenceIncomplete c <|> noCitations u a b c <|>
    contradictsDelivery u a c).getD (documentLeg u a b)

/-- Classify one stem: the class and a sentence with the values that decided it. -/
def classify (a : AxisA) (b : AxisB) (c : AxisC) : Except String Verdict := do
  check a.dict axisAKeys "A"
  check b.dict axisBKeys "B"
  check c.dict axisCKeys "C"
  pure (cascade u a b c)

theorem classify_ok (a : AxisA) (b : AxisB) (c : AxisC) :
    classify u a b c = .ok (cascade u a b c) := by
  rw [classify, check_axis_a, check_axis_b, check_axis_c]
  rfl

end Cascade

end Qontinui.PlanStatus
