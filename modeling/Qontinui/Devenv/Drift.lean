import Mathlib.Data.List.Dedup
import Mathlib.Data.String.Basic
import Qontinui.Base.Json

/-!
`diff_envelopes`: how the configuration that a machine has reported differs from the
canonical one, key by key, and whether the two may be called in sync. The section policy
says of a single key whether it is derived from the repository, and whether it can only be
observed. A report that says `in_sync` has left out every row that is a difference of the
machine, and every row about an unverified inventory.
-/

namespace Qontinui.Devenv

def derivedKeys : List (String × List String) :=
  [("versions",
      ["runner_crate_version", "node_package_version", "node_package_name", "python_constraint",
        "tauri", "probe_scope_kind"]),
    ("repos", ["repos_scope_kind"]),
    ("harness", ["harness_scope_kind"])]

def derivedKeyPrefixes : List (String × List String) :=
  [("versions", ["node_dep_", "python_dep_"])]

def observationOnlyKeys : List (String × List String) :=
  [("harness", ["config_repo", "root_settings_hooks", "invariant_class"])]

def observationOnlyKeyPrefixes : List (String × List String) :=
  [("versions", ["python_installed_"]), ("harness", ["link_", "installer_"])]

/-- Exact keys first, then the families by their prefix. -/
def classified (keys prefixes : List (String × List String)) (section_ key : String) : Bool :=
  ((keys.lookup section_).getD []).contains key ||
    ((prefixes.lookup section_).getD []).any fun stem => key.startsWith stem

/-- `is_derived_key`. -/
def isDerivedKey (section_ key : String) : Bool :=
  classified derivedKeys derivedKeyPrefixes section_ key

/-- `is_observation_only_key`. -/
def isObservationOnlyKey (section_ key : String) : Bool :=
  classified observationOnlyKeys observationOnlyKeyPrefixes section_ key

/-- The built-in conversions of what an envelope holds: `str(value)`, and `int(text)`
where it does not raise. -/
structure PyConversions where
  str : Json → String
  int : String → Option Int

abbrev Envelope := List (String × Json)

abbrev KeyValues := List (String × String)

/-! ### Reading an envelope -/

/-- `_extract_sections`. -/
def extractSections (py : PyConversions) (envelope : Envelope) : List (String × KeyValues) :=
  match envelope.lookup "sections" with
  | some (.obj sections) =>
      sections.filterMap fun (name, body) =>
        match body with
        | .obj fields => some (name, fields.map fun (k, v) => (k, py.str v))
        | _ => none
  | _ => []

/-- `_extract_unknown_keys`. -/
def extractUnknownKeys (py : PyConversions) (envelope : Envelope) :
    List (String × List String) :=
  match envelope.lookup "unknown_keys" with
  | some (.obj raw) =>
      raw.filterMap fun (name, keys) =>
        match keys with
        | .arr items => some (name, items.map py.str)
        | _ => none
  | _ => []

/-- `_schema_version`. -/
def schemaVersion (py : PyConversions) (envelope : Envelope) : Option Int :=
  match envelope.lookup "schema_version" with
  | some (.num n) => some (n.num.tdiv n.den)
  | some (.str text) => py.int text
  | _ => none

/-! ### Severities -/

inductive Severity where
  | info
  | warning
  | critical
deriving DecidableEq, Repr

def Severity.rank : Severity → Nat
  | .info => 0
  | .warning => 1
  | .critical => 2

/-- `_max_severity`. -/
def maxSeverity (severities : List Severity) : Severity :=
  severities.foldl (fun best next => if best.rank < next.rank then next else best) .info

def sectionBaseSeverities : List (String × Severity) :=
  [("db_schema", .critical), ("versions", .critical), ("services", .warning),
    ("env_contract", .warning), ("claude_accounts", .warning), ("repos", .warning),
    ("harness", .warning)]

/-- `_section_base_severity`. -/
def sectionBaseSeverity (section_ : String) : Severity :=
  (sectionBaseSeverities.lookup section_).getD .info

def removedSeverityOverride : List (String × Severity) :=
  [("repos", .warning), ("harness", .warning)]

/-- `_removed_severity`. -/
def removedSeverity (section_ : String) : Severity :=
  (removedSeverityOverride.lookup section_).getD .critical

/-! ### The installed inventory -/

def installedInventorySection : String := "versions"

def installedProbeKey : String := "python_installed_probe"

def installedProbeMeasured : String := "measured"

def installedEnvKindKey : String := "python_installed_env_kind"

def installedEnvKindUnmeasured : String := "unknown"

/-- The part that a key of the inventory plays in a comparison. -/
inductive Role where
  | attestation
  | marker
  | measurement
deriving DecidableEq, Repr

def inventoryKeyRoles : List (String × List Role) :=
  [(installedProbeKey, [.attestation]),
    ("python_installed_scope_kind", [.marker]),
    (installedEnvKindKey, [.attestation, .marker]),
    ("python_installed_interpreter", [.marker, .measurement]),
    ("python_installed_count", [.measurement]),
    ("python_installed_digest", [.measurement])]

def unverifiedInventorySeverity : Severity := .warning

def inventoryMarkerSeverity : Severity := .warning

inductive Verdict where
  | skew
  | unverified
  | marker
deriving DecidableEq, Repr

/-- `_value_attests_unmeasured`. -/
def valueAttestsUnmeasured (key value : String) : Bool :=
  if key = installedProbeKey then value != installedProbeMeasured
  else if key = installedEnvKindKey then value == installedEnvKindUnmeasured
  else false

/-- `_inventory_incomparable`: a marker is on both sides, is no sentinel, and differs. -/
def inventoryIncomparable (section_ : String) (canonKv actualKv : KeyValues) : Bool :=
  section_ == installedInventorySection &&
    inventoryKeyRoles.any fun (marker, roles) =>
      roles.contains .marker &&
        match canonKv.lookup marker, actualKv.lookup marker with
        | some canonVal, some actualVal =>
            !(valueAttestsUnmeasured marker canonVal || valueAttestsUnmeasured marker actualVal) &&
              canonVal != actualVal
        | _, _ => false

/-- `_participates_in_inventory`. -/
def participatesInInventory (sectionKv : KeyValues) : Bool :=
  (sectionKv.lookup installedProbeKey).isSome

/-- The two sides of a section. -/
structure SectionPair where
  canonKv : KeyValues
  actualKv : KeyValues
  canonUnmeasured : List String
  actualUnmeasured : List String
deriving DecidableEq, Repr

/-- The verdict on a measurement that is missing on a side with the given probe value. -/
def missingVerdict (probe : Option String) : Verdict :=
  if probe = some installedProbeMeasured then .skew else .unverified

/-- `_inventory_verdict`, `none` for the normal arms. The order of the cases is the rule. -/
def inventoryVerdict (section_ key : String) (pair : SectionPair) : Option Verdict :=
  let expected := pair.canonKv.lookup key
  let actual := pair.actualKv.lookup key
  if section_ ≠ installedInventorySection then none
  else
    match inventoryKeyRoles.lookup key with
    | none => none
    | some roles =>
        if !(participatesInInventory pair.canonKv && participatesInInventory pair.actualKv) then
          some .skew
        else if roles.contains .attestation && (actual.any (valueAttestsUnmeasured key) ||
            expected.any (valueAttestsUnmeasured key)) then
          some .unverified
        else if roles.contains .marker && expected.isSome && actual.isSome &&
            expected != actual then
          some .marker
        else if roles.contains .measurement &&
            inventoryIncomparable section_ pair.canonKv pair.actualKv then
          some .unverified
        else if roles.contains .measurement && expected.isNone then
          some (missingVerdict (pair.canonKv.lookup installedProbeKey))
        else if roles.contains .measurement && actual.isNone then
          some (missingVerdict (pair.actualKv.lookup installedProbeKey))
        else if roles.contains .marker then some .marker
        else none

/-! ### The diff -/

inductive DeltaStatus where
  | added
  | removed
  | changed
  | unknown
  | unverified
deriving DecidableEq, Repr

structure KeyDelta where
  key : String
  status : DeltaStatus
  expected : Option String
  actual : Option String
  severity : Severity
  derived : Bool
  observationOnly : Bool
deriving DecidableEq, Repr

structure SectionDrift where
  section_ : String
  deltas : List KeyDelta
  severity : Severity
  processScoped : Bool
deriving DecidableEq, Repr

structure MachineDriftReport where
  sections : List SectionDrift
  severity : Severity
  inSync : Bool
  schemaVersionMismatch : Bool
  expectedSchemaVersion : Option Int
  actualSchemaVersion : Option Int
  hasConfig : Bool
deriving DecidableEq, Repr

/-- The key is absent on one side, and that side says it was not measured. -/
def unmeasured (pair : SectionPair) (key : String) : Bool :=
  ((pair.actualKv.lookup key).isNone && pair.actualUnmeasured.contains key) ||
    ((pair.canonKv.lookup key).isNone && pair.canonUnmeasured.contains key)

/-- The delta of one key, if there is one. Under `temporal` the two sides are captures of one
machine, and the inventory rules are off. -/
def keyDelta (temporal : Bool) (section_ : String) (pair : SectionPair) (key : String) :
    Option KeyDelta :=
  let expected := pair.canonKv.lookup key
  let actual := pair.actualKv.lookup key
  let derived := isDerivedKey section_ key
  let verdict := if temporal then none else inventoryVerdict section_ key pair
  let changeSev : Severity :=
    if derived then .info
    else if verdict = some .marker then inventoryMarkerSeverity
    else sectionBaseSeverity section_
  let removedSev : Severity :=
    if derived then .info
    else if verdict = some .marker then inventoryMarkerSeverity
    else removedSeverity section_
  let delta := fun status severity =>
    some { key, status, expected, actual, severity, derived
           observationOnly := isObservationOnlyKey section_ key }
  if verdict = some .unverified then delta .unverified unverifiedInventorySeverity
  else if verdict = some .skew then delta .unknown .info
  else if unmeasured pair key then delta .unknown .info
  else if expected.isSome && actual.isNone then delta .removed removedSev
  else if actual.isSome && expected.isNone then delta .added changeSev
  else if expected ≠ actual then delta .changed changeSev
  else none

/-- `sorted(set(a) | set(b))`. -/
def sortedUnion (a b : List String) : List String := (a ++ b).dedup.mergeSort (· ≤ ·)

def sectionDrift (temporal : Bool) (section_ : String) (pair : SectionPair) :
    Option SectionDrift :=
  let deltas := (sortedUnion (pair.canonKv.map Prod.fst) (pair.actualKv.map Prod.fst)).filterMap
    (keyDelta temporal section_ pair)
  if deltas = [] then none
  else
    some {
      section_, deltas
      severity := maxSeverity (deltas.map (·.severity))
      processScoped := section_ == "env_contract" }

def KeyDelta.isRealDrift (delta : KeyDelta) : Bool :=
  !delta.derived && delta.status != .unknown && delta.status != .unverified

def sectionPair (py : PyConversions) (canonical actual : Envelope) (section_ : String) :
    SectionPair :=
  { canonKv := ((extractSections py canonical).lookup section_).getD []
    actualKv := ((extractSections py actual).lookup section_).getD []
    canonUnmeasured := ((extractUnknownKeys py canonical).lookup section_).getD []
    actualUnmeasured := ((extractUnknownKeys py actual).lookup section_).getD [] }

/-- `diff_envelopes`. -/
def diffEnvelopes (py : PyConversions) (canonical actual : Envelope) (temporal : Bool) :
    MachineDriftReport :=
  let canonSv := schemaVersion py canonical
  let actualSv := schemaVersion py actual
  let schemaVersionMismatch := canonSv.isSome && actualSv.isSome && canonSv != actualSv
  let sections :=
    (sortedUnion ((extractSections py canonical).map Prod.fst)
      ((extractSections py actual).map Prod.fst)).filterMap
      fun name => sectionDrift temporal name (sectionPair py canonical actual name)
  let deltas := sections.flatMap (·.deltas)
  let hasRealDrift := deltas.any (·.isRealDrift)
  let hasUnverifiedInventory := deltas.any (·.status == .unverified)
  { sections
    severity :=
      if schemaVersionMismatch then .critical else maxSeverity (deltas.map (·.severity))
    inSync := !hasRealDrift && !hasUnverifiedInventory && !schemaVersionMismatch
    schemaVersionMismatch
    expectedSchemaVersion := canonSv
    actualSchemaVersion := actualSv
    hasConfig := true }

def MachineDriftReport.Shows (report : MachineDriftReport) (section_ : String)
    (delta : KeyDelta) : Prop :=
  ∃ drift ∈ report.sections, drift.section_ = section_ ∧ delta ∈ drift.deltas

def SectionPair.Carries (pair : SectionPair) (key : String) : Prop :=
  (pair.canonKv.lookup key).isSome ∨ (pair.actualKv.lookup key).isSome

/-- A delta that keeps two machines from being in sync. -/
def KeyDelta.blocks (delta : KeyDelta) : Bool := delta.isRealDrift || delta.status == .unverified

theorem mem_sortedUnion {a b : List String} {x : String} :
    x ∈ sortedUnion a b ↔ x ∈ a ∨ x ∈ b := by
  rw [sortedUnion, List.mem_mergeSort, List.mem_dedup, List.mem_append]

variable {pair : SectionPair} {temporal : Bool} {section_ : String}

theorem keyDelta_key {key : String} {delta : KeyDelta}
    (h : keyDelta temporal section_ pair key = some delta) : delta.key = key := by
  unfold keyDelta at h
  dsimp only at h
  split_ifs at h
  all_goals
    cases h
    rfl

theorem sectionDrift_shows {delta : KeyDelta} :
    (∃ drift, sectionDrift temporal section_ pair = some drift ∧ delta ∈ drift.deltas) ↔
      ∃ key, pair.Carries key ∧ keyDelta temporal section_ pair key = some delta := by
  have hmem : delta ∈ (sortedUnion (pair.canonKv.map Prod.fst)
      (pair.actualKv.map Prod.fst)).filterMap (keyDelta temporal section_ pair) ↔
      ∃ key, pair.Carries key ∧ keyDelta temporal section_ pair key = some delta := by
    simp only [List.mem_filterMap, mem_sortedUnion, SectionPair.Carries,
      Fields.lookup_isSome_iff]
  rw [← hmem]
  unfold sectionDrift
  dsimp only
  constructor
  · rintro ⟨drift, hdrift, hdelta⟩
    split at hdrift
    · cases hdrift
    · cases hdrift
      exact hdelta
  · intro hdelta
    rw [if_neg (List.ne_nil_of_mem hdelta)]
    exact ⟨_, rfl, hdelta⟩

theorem sectionDrift_section {drift : SectionDrift}
    (h : sectionDrift temporal section_ pair = some drift) : drift.section_ = section_ := by
  unfold sectionDrift at h
  dsimp only at h
  split at h
  · cases h
  · cases h
    rfl

section Report

variable {py : PyConversions} {canonical actual : Envelope} {temporal : Bool}

theorem section_of_carries {section_ key : String}
    (h : (sectionPair py canonical actual section_).Carries key) :
    section_ ∈ (extractSections py canonical).map Prod.fst ∨
      section_ ∈ (extractSections py actual).map Prod.fst := by
  simp only [← Fields.lookup_isSome_iff]
  rcases h with h | h
  · left
    unfold sectionPair at h
    cases hlookup : (extractSections py canonical).lookup section_ with
    | none => simp [hlookup] at h
    | some kv => rfl
  · right
    unfold sectionPair at h
    cases hlookup : (extractSections py actual).lookup section_ with
    | none => simp [hlookup] at h
    | some kv => rfl

theorem shows_iff {section_ : String} {delta : KeyDelta} :
    (diffEnvelopes py canonical actual temporal).Shows section_ delta ↔
      ∃ key, (sectionPair py canonical actual section_).Carries key ∧
        keyDelta temporal section_ (sectionPair py canonical actual section_) key =
          some delta := by
  rw [← sectionDrift_shows]
  unfold MachineDriftReport.Shows diffEnvelopes
  simp only [List.mem_filterMap, mem_sortedUnion]
  constructor
  · rintro ⟨drift, ⟨name, _, hdrift⟩, hsection, hdelta⟩
    rw [sectionDrift_section hdrift] at hsection
    subst hsection
    exact ⟨drift, hdrift, hdelta⟩
  · rintro ⟨drift, hdrift, hdelta⟩
    obtain ⟨key, hcarries, -⟩ := sectionDrift_shows.mp ⟨drift, hdrift, hdelta⟩
    exact ⟨drift, ⟨section_, section_of_carries hcarries, hdrift⟩, sectionDrift_section hdrift,
      hdelta⟩

/-- In sync: the schema versions do not differ, and no delta of a carried key blocks. -/
theorem inSync_iff :
    (diffEnvelopes py canonical actual temporal).inSync = true ↔
      (∀ v w, schemaVersion py canonical = some v → schemaVersion py actual = some w → v = w) ∧
      ∀ section_ key, (sectionPair py canonical actual section_).Carries key →
        ∀ delta, keyDelta temporal section_ (sectionPair py canonical actual section_) key =
          some delta → delta.blocks = false := by
  have hrows : (∀ section_ key, (sectionPair py canonical actual section_).Carries key →
      ∀ delta, keyDelta temporal section_ (sectionPair py canonical actual section_) key =
        some delta → delta.blocks = false) ↔
      ∀ delta ∈ (diffEnvelopes py canonical actual temporal).sections.flatMap (·.deltas),
        delta.blocks = false := by
    constructor
    · intro h delta hdelta
      obtain ⟨drift, hdrift, hmem⟩ := List.mem_flatMap.mp hdelta
      obtain ⟨key, hcarries, hkey⟩ := shows_iff.mp ⟨drift, hdrift, rfl, hmem⟩
      exact h _ key hcarries delta hkey
    · intro h section_ key hcarries delta hkey
      obtain ⟨drift, hdrift, -, hmem⟩ := shows_iff.mpr ⟨key, hcarries, hkey⟩
      exact h delta (List.mem_flatMap.mpr ⟨drift, hdrift, hmem⟩)
  have hversions : (∀ v w, schemaVersion py canonical = some v →
      schemaVersion py actual = some w → v = w) ↔
      ((schemaVersion py canonical).isSome && (schemaVersion py actual).isSome &&
        schemaVersion py canonical != schemaVersion py actual) = false := by
    cases schemaVersion py canonical <;> cases schemaVersion py actual <;> simp
  rw [hrows, hversions]
  unfold KeyDelta.blocks
  simp only [Bool.or_eq_false_iff]
  change (!(List.any _ _) && !(List.any _ _) && !_) = true ↔ _
  simp only [Bool.and_eq_true, Bool.not_eq_true', List.any_eq_false, Bool.not_eq_true]
  constructor
  · rintro ⟨⟨hdrift, hunverified⟩, hversion⟩
    exact ⟨hversion, fun delta hdelta => ⟨hdrift delta hdelta, hunverified delta hdelta⟩⟩
  · rintro ⟨hversion, hall⟩
    exact ⟨⟨fun delta hdelta => (hall delta hdelta).1, fun delta hdelta => (hall delta hdelta).2⟩,
      hversion⟩

end Report

end Qontinui.Devenv
