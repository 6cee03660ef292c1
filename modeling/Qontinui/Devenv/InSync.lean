import Qontinui.Devenv.Drift

/-!
`in_sync` is earned: what two envelopes agree on when the comparison of two machines says
that they are in sync. A key that one side could not measure shows as a gap, and as no
finding, exactly when the other side carries the key.
-/

namespace Qontinui.Devenv

def valueOf (py : PyConversions) (envelope : Envelope) (section_ key : String) :
    Option String :=
  (((extractSections py envelope).lookup section_).getD []).lookup key

/-- The capture names the key among those it could not measure. -/
def ListsUnknown (py : PyConversions) (envelope : Envelope) (section_ key : String) : Prop :=
  key ∈ ((extractUnknownKeys py envelope).lookup section_).getD []

def InInventory (section_ key : String) : Prop :=
  section_ = installedInventorySection ∧ (inventoryKeyRoles.lookup key).isSome

def HasRole (key : String) (role : Role) : Prop :=
  ∃ roles, inventoryKeyRoles.lookup key = some roles ∧ role ∈ roles

/-- What both captures of an inventory agree on. -/
structure InventoryEarned (py : PyConversions) (canonical actual : Envelope) : Prop where
  measured : ∀ envelope ∈ [canonical, actual],
    valueOf py envelope installedInventorySection installedProbeKey = some installedProbeMeasured
  envKind : ∀ envelope ∈ [canonical, actual],
    valueOf py envelope installedInventorySection installedEnvKindKey ≠
      some installedEnvKindUnmeasured
  markers : ∀ key, HasRole key .marker → ∀ v w,
    valueOf py canonical installedInventorySection key = some v →
    valueOf py actual installedInventorySection key = some w → v = w
  measurements : ∀ key, HasRole key .measurement → ∀ v w,
    valueOf py canonical installedInventorySection key = some v →
    valueOf py actual installedInventorySection key = some w → v = w

/-- What two envelopes that are in sync agree on. -/
structure Earned (py : PyConversions) (canonical actual : Envelope) : Prop where
  versions : ∀ v w, schemaVersion py canonical = some v → schemaVersion py actual = some w →
    v = w
  keys : ∀ section_ key, isDerivedKey section_ key = false → ¬ InInventory section_ key →
    ((valueOf py canonical section_ key).isSome ∨ (valueOf py actual section_ key).isSome) →
    valueOf py canonical section_ key = valueOf py actual section_ key ∨
      (valueOf py canonical section_ key = none ∧ ListsUnknown py canonical section_ key) ∨
      (valueOf py actual section_ key = none ∧ ListsUnknown py actual section_ key)
  inventory : (valueOf py canonical installedInventorySection installedProbeKey).isSome →
    (valueOf py actual installedInventorySection installedProbeKey).isSome →
    InventoryEarned py canonical actual

/-! ### The arms of the diff -/

section Arms

variable {section_ key : String} {pair : SectionPair}

theorem inventoryVerdict_of_not_inInventory (h : ¬ InInventory section_ key) :
    inventoryVerdict section_ key pair = none := by
  unfold inventoryVerdict
  dsimp only
  split
  · rfl
  · next hsection =>
      split
      · rfl
      · next roles hroles =>
          exact absurd ⟨not_not.mp hsection, by rw [hroles]; rfl⟩ h

theorem blocks_of_unverified (h : inventoryVerdict section_ key pair = some .unverified) :
    ∃ delta, keyDelta false section_ pair key = some delta ∧ delta.blocks = true := by
  unfold keyDelta
  simp only [h, if_true, Bool.false_eq_true, if_false]
  exact ⟨_, rfl, Bool.or_true _⟩

theorem blocks_of_differ (hderived : isDerivedKey section_ key = false)
    (hskew : inventoryVerdict section_ key pair ≠ some .skew)
    (hgap : unmeasured pair key = false)
    (hne : pair.canonKv.lookup key ≠ pair.actualKv.lookup key) :
    ∃ delta, keyDelta false section_ pair key = some delta ∧ delta.blocks = true := by
  by_cases hunverified : inventoryVerdict section_ key pair = some .unverified
  · exact blocks_of_unverified hunverified
  · unfold keyDelta
    simp only [hunverified, hskew, hgap, hderived, if_false, Bool.false_eq_true, hne,
      ne_eq, not_false_eq_true, if_true]
    split
    · exact ⟨_, rfl, rfl⟩
    · split
      · exact ⟨_, rfl, rfl⟩
      · exact ⟨_, rfl, rfl⟩

theorem skew_of_participates
    (hcanon : participatesInInventory pair.canonKv = true)
    (hactual : participatesInInventory pair.actualKv = true)
    (h : inventoryVerdict section_ key pair = some .skew) :
    pair.canonKv.lookup key = none ∨ pair.actualKv.lookup key = none := by
  unfold inventoryVerdict at h
  simp only [hcanon, hactual, Bool.and_self, Bool.not_true, Bool.false_eq_true, if_false] at h
  split at h
  · cases h
  · split at h
    · cases h
    · split_ifs at h with hattests hmarker hincomparable hexpected hmissing hrole
      · cases h
      · cases h
      · cases h
      · exact .inl (Option.isNone_iff_eq_none.mp (Bool.and_eq_true_iff.mp hexpected).2)
      · exact .inr (Option.isNone_iff_eq_none.mp (Bool.and_eq_true_iff.mp hmissing).2)
      · cases h

end Arms

section Sync

variable {py : PyConversions} {canonical actual : Envelope}
  (h : (diffEnvelopes py canonical actual false).inSync = true)
include h

variable {key : String}

theorem not_blocks {section_ : String}
    (hcarries : (sectionPair py canonical actual section_).Carries key) :
    ¬ ∃ delta, keyDelta false section_ (sectionPair py canonical actual section_) key =
      some delta ∧ delta.blocks = true := by
  rintro ⟨delta, hdelta, hblocks⟩
  rw [(inSync_iff.mp h).2 section_ key hcarries delta hdelta] at hblocks
  cases hblocks

theorem agrees_or_unmeasured {section_ : String} (hderived : isDerivedKey section_ key = false)
    (houtside : ¬ InInventory section_ key)
    (hcarries : (sectionPair py canonical actual section_).Carries key) :
    valueOf py canonical section_ key = valueOf py actual section_ key ∨
      unmeasured (sectionPair py canonical actual section_) key = true := by
  by_contra hnot
  rw [not_or, Bool.not_eq_true] at hnot
  apply not_blocks h hcarries
  apply blocks_of_differ hderived _ hnot.2 hnot.1
  rw [inventoryVerdict_of_not_inInventory houtside]
  exact nofun

section

variable (hcanon : (valueOf py canonical installedInventorySection installedProbeKey).isSome)
include hcanon

section

variable (hactual : (valueOf py actual installedInventorySection installedProbeKey).isSome)
include hactual

theorem agrees_of_inventory (hderived : isDerivedKey installedInventorySection key = false)
    {v w : String} (hv : valueOf py canonical installedInventorySection key = some v)
    (hw : valueOf py actual installedInventorySection key = some w) : v = w := by
  by_contra hne
  have hv' : (sectionPair py canonical actual installedInventorySection).canonKv.lookup key =
    some v := hv
  have hw' : (sectionPair py canonical actual installedInventorySection).actualKv.lookup key =
    some w := hw
  have hcanon' : participatesInInventory
    (sectionPair py canonical actual installedInventorySection).canonKv = true := hcanon
  have hactual' : participatesInInventory
    (sectionPair py canonical actual installedInventorySection).actualKv = true := hactual
  have hcarries : (sectionPair py canonical actual installedInventorySection).Carries key :=
    .inl (by rw [hv']; rfl)
  apply not_blocks h hcarries
  apply blocks_of_differ hderived
  · intro hskew
    have hmissing := skew_of_participates hcanon' hactual' hskew
    rcases hmissing with hnone | hnone
    · rw [hv'] at hnone
      cases hnone
    · rw [hw'] at hnone
      cases hnone
  · simp [unmeasured, hv', hw']
  · rw [hv', hw']
    exact fun heq => hne (Option.some.inj heq)

/-- No value of the inventory says that its side has measured nothing. -/
theorem not_attests (hrole : HasRole key .attestation) :
    ∀ envelope ∈ [canonical, actual], ∀ v,
      valueOf py envelope installedInventorySection key = some v →
      valueAttestsUnmeasured key v = false := by
  intro envelope henvelope v hv
  obtain ⟨roles, hroles, hmem⟩ := hrole
  by_contra hattests
  rw [Bool.not_eq_false] at hattests
  have hsides : ((valueOf py actual installedInventorySection key).any (valueAttestsUnmeasured key)
      || (valueOf py canonical installedInventorySection key).any
        (valueAttestsUnmeasured key)) = true := by
    rw [Bool.or_eq_true]
    simp only [List.mem_cons, List.not_mem_nil, or_false] at henvelope
    rcases henvelope with rfl | rfl
    · right
      rw [hv]
      exact hattests
    · left
      rw [hv]
      exact hattests
  have hcarries : (sectionPair py canonical actual installedInventorySection).Carries key := by
    simp only [List.mem_cons, List.not_mem_nil, or_false] at henvelope
    rcases henvelope with rfl | rfl
    · exact .inl (Option.isSome_of_mem hv)
    · exact .inr (Option.isSome_of_mem hv)
  apply not_blocks h hcarries
  apply blocks_of_unverified
  have hparticipates : (participatesInInventory
      (sectionPair py canonical actual installedInventorySection).canonKv &&
      participatesInInventory
        (sectionPair py canonical actual installedInventorySection).actualKv) = true := by
    rw [Bool.and_eq_true]
    exact ⟨hcanon, hactual⟩
  have hattestation : roles.contains Role.attestation = true := List.contains_iff_mem.mpr hmem
  unfold inventoryVerdict
  simp only [hroles, hparticipates, hattestation, Bool.not_true, Bool.false_eq_true, if_false,
    ne_eq, not_true_eq_false, Bool.true_and]
  exact if_pos hsides

theorem inventoryEarned : InventoryEarned py canonical actual := by
  have hall : ∀ field ∈ inventoryKeyRoles,
      isDerivedKey installedInventorySection field.1 = false := by decide +kernel
  have hderived : ∀ key roles, inventoryKeyRoles.lookup key = some roles →
      isDerivedKey installedInventorySection key = false := fun key roles hroles =>
    hall (key, roles) (Fields.mem_of_lookup hroles)
  constructor
  · intro envelope henvelope
    have hrole : HasRole installedProbeKey .attestation := ⟨_, rfl, List.mem_singleton_self _⟩
    have hprobe : (valueOf py envelope installedInventorySection installedProbeKey).isSome := by
      simp only [List.mem_cons, List.not_mem_nil, or_false] at henvelope
      rcases henvelope with rfl | rfl
      · exact hcanon
      · exact hactual
    obtain ⟨v, hv⟩ := Option.isSome_iff_exists.mp hprobe
    have hattests := not_attests h hcanon hactual hrole envelope henvelope v hv
    rw [valueAttestsUnmeasured, if_pos rfl, bne_eq_false_iff_eq] at hattests
    rw [hv, hattests]
  · intro envelope henvelope hkind
    have hrole : HasRole installedEnvKindKey .attestation := ⟨_, rfl, List.mem_cons_self⟩
    have hattests := not_attests h hcanon hactual hrole envelope henvelope _ hkind
    revert hattests
    decide
  all_goals
    rintro key ⟨roles, hroles, _⟩ v w hv hw
    exact agrees_of_inventory h hcanon hactual (hderived key roles hroles) hv hw

end

end

end Sync

/-- What `in_sync` says of two machines is earned. -/
theorem inSync_earned (py : PyConversions) (canonical actual : Envelope)
    (h : (diffEnvelopes py canonical actual false).inSync = true) :
    Earned py canonical actual where
  versions := (inSync_iff.mp h).1
  keys section_ key hderived houtside hcarries := by
    rcases agrees_or_unmeasured h hderived houtside hcarries with heq | hgap
    · exact .inl heq
    · right
      unfold unmeasured at hgap
      rw [Bool.or_eq_true, Bool.and_eq_true, Bool.and_eq_true, Option.isNone_iff_eq_none,
        Option.isNone_iff_eq_none, List.contains_iff_mem, List.contains_iff_mem] at hgap
      exact hgap.symm
  inventory hcanon hactual := inventoryEarned h hcanon hactual

def textConversions : PyConversions where
  str
    | .str text => text
    | .bool true => "True"
    | .bool false => "False"
    | _ => "None"
  int := String.toInt?

/-- Two captures with a measured inventory, of which one tells its schema version. -/
theorem inSync_earned_measured :
    Earned textConversions
      [("schema_version", .num 1),
        ("sections", .obj [("versions", .obj [("python_installed_probe", .str "measured")])])]
      [("sections", .obj [("versions", .obj [("python_installed_probe", .str "measured")])])] := by
  apply inSync_earned
  decide +kernel

/-! ### Keys that one side could not measure -/

/-- The report shows the key as a gap: unknown, or unverified. -/
def GapShown (report : MachineDriftReport) (section_ key : String) : Prop :=
  ∃ delta, report.Shows section_ delta ∧ delta.key = key ∧
    (delta.status = .unknown ∨ delta.status = .unverified)

def FindingShown (report : MachineDriftReport) (section_ key : String) : Prop :=
  ∃ delta, report.Shows section_ delta ∧ delta.key = key ∧
    (delta.status = .removed ∨ delta.status = .added ∨ delta.status = .changed)

/-- A capture could not measure the key, and does not carry it. -/
def Unmeasured (py : PyConversions) (envelope : Envelope) (section_ key : String) : Prop :=
  ListsUnknown py envelope section_ key ∧ valueOf py envelope section_ key = none

theorem keyDelta_of_unmeasured {temporal : Bool} {section_ key : String} {pair : SectionPair}
    (h : unmeasured pair key = true) :
    ∃ delta, keyDelta temporal section_ pair key = some delta ∧
      (delta.status = .unknown ∨ delta.status = .unverified) := by
  unfold keyDelta
  simp only [h, if_true]
  generalize (if temporal = true then none else inventoryVerdict section_ key pair) = verdict
  by_cases hunverified : verdict = some .unverified
  · rw [if_pos hunverified]
    exact ⟨_, rfl, .inr rfl⟩
  · rw [if_neg hunverified, ite_self]
    exact ⟨_, rfl, .inl rfl⟩

section Shown

variable {py : PyConversions} {canonical actual : Envelope} {temporal : Bool}
  {section_ key : String}

section

variable (h : Unmeasured py canonical section_ key ∨ Unmeasured py actual section_ key)
include h

theorem unmeasured_of_side : unmeasured (sectionPair py canonical actual section_) key = true := by
  unfold unmeasured
  rw [Bool.or_eq_true, Bool.and_eq_true, Bool.and_eq_true, Option.isNone_iff_eq_none,
    Option.isNone_iff_eq_none, List.contains_iff_mem, List.contains_iff_mem]
  rcases h with h | h
  · exact .inr ⟨h.2, h.1⟩
  · exact .inl ⟨h.2, h.1⟩

theorem not_findingShown :
    ¬ FindingShown (diffEnvelopes py canonical actual temporal) section_ key := by
  rintro ⟨delta, hshows, hkey, hstatus⟩
  obtain ⟨key', -, hdelta⟩ := shows_iff.mp hshows
  rw [← keyDelta_key hdelta, hkey] at hdelta
  obtain ⟨gap, hgap, hunknown⟩ := keyDelta_of_unmeasured (unmeasured_of_side h)
  rw [hgap] at hdelta
  cases hdelta
  rcases hunknown with hunknown | hunknown <;> simp [hunknown] at hstatus

theorem gapShown_iff_carries :
    GapShown (diffEnvelopes py canonical actual temporal) section_ key ↔
      (sectionPair py canonical actual section_).Carries key := by
  constructor
  · rintro ⟨delta, hshows, hkey, -⟩
    obtain ⟨key', hcarries, hdelta⟩ := shows_iff.mp hshows
    rw [← hkey, keyDelta_key hdelta]
    exact hcarries
  · intro hcarries
    obtain ⟨gap, hgap, hstatus⟩ := keyDelta_of_unmeasured (unmeasured_of_side h)
    exact ⟨gap, shows_iff.mpr ⟨key, hcarries, hgap⟩, keyDelta_key hgap, hstatus⟩

end

end Shown

/-- A key that a side could not measure is shown as a gap, and as nothing else, if and only
if the other side carries it. -/
theorem unmeasured_visible_iff (py : PyConversions) (canonical actual : Envelope)
    (temporal : Bool) (section_ key : String)
    (h : Unmeasured py canonical section_ key ∨ Unmeasured py actual section_ key) :
    (GapShown (diffEnvelopes py canonical actual temporal) section_ key ∧
      ¬ FindingShown (diffEnvelopes py canonical actual temporal) section_ key) ↔
      ((valueOf py canonical section_ key).isSome ∨
        (valueOf py actual section_ key).isSome) := by
  rw [gapShown_iff_carries h]
  exact ⟨fun hboth => hboth.1, fun hcarries => ⟨hcarries, not_findingShown h⟩⟩

/-- The other side carries the key. -/
theorem unmeasured_visible_python :
    (GapShown (diffEnvelopes textConversions
        [("sections", .obj [("versions", .obj [("python", .str "3.12")])])]
        [("sections", .obj [("versions", .obj [])]),
          ("unknown_keys", .obj [("versions", .arr [.str "python"])])] false)
        "versions" "python" ∧
      ¬ FindingShown (diffEnvelopes textConversions
        [("sections", .obj [("versions", .obj [("python", .str "3.12")])])]
        [("sections", .obj [("versions", .obj [])]),
          ("unknown_keys", .obj [("versions", .arr [.str "python"])])] false)
        "versions" "python") ↔
      ((valueOf textConversions
        [("sections", .obj [("versions", .obj [("python", .str "3.12")])])]
        "versions" "python").isSome ∨
      (valueOf textConversions
        [("sections", .obj [("versions", .obj [])]),
          ("unknown_keys", .obj [("versions", .arr [.str "python"])])]
        "versions" "python").isSome) := by
  apply unmeasured_visible_iff
  right
  exact ⟨List.mem_singleton_self _, rfl⟩

/-- Neither box could measure the key: the report says nothing about it. -/
theorem unmeasured_on_both_dropped :
    Unmeasured textConversions
      [("sections", .obj [("versions", .obj [])]),
        ("unknown_keys", .obj [("versions", .arr [.str "python"])])] "versions" "python" ∧
    ¬ GapShown (diffEnvelopes textConversions
      [("sections", .obj [("versions", .obj [])]),
        ("unknown_keys", .obj [("versions", .arr [.str "python"])])]
      [("sections", .obj [("versions", .obj [])]),
        ("unknown_keys", .obj [("versions", .arr [.str "python"])])] false)
      "versions" "python" := by
  refine ⟨⟨List.mem_singleton_self _, rfl⟩, ?_⟩
  rw [gapShown_iff_carries (.inl ⟨List.mem_singleton_self _, rfl⟩)]
  rintro (h | h) <;> cases h

end Qontinui.Devenv
