import Qontinui.ScanRoots.Coverage

/-!
`scan_roots_health`: the readings and refusals of all devices, judged, rolled up and
compared with the corpus. Every device is accounted for once.
-/

namespace Qontinui.ScanRoots

/-- `ScanRootListResponse`. -/
structure ScanRootListResponse where
  reported : Bool
  detail : Option String
  freshWithinSecs : Int
  retireAfterSecs : Int
  retiredCount : Nat
  count : Nat
  freshCount : Nat
  rows : List ScanRootRow
  bySourceRepo : List Rollup
  coverage : List PlanCoverage
  coverageDetail : Option String
deriving DecidableEq, Repr

/-- `NO_OBSERVATION_DETAIL`. -/
def noObservationDetail : String :=
  "no_observation: no device has reported a plan-scan-source reading for this organization, so " ++
    "whether the corpus's feeders are current is not established. An empty list is not 'every " ++
    "feeder is current' — a runner whose build predates the report, or whose body sync is off, " ++
    "sends none."

/-- `all_retired_detail`. -/
def allRetiredDetail (retiredCount : Nat) : String :=
  "all_retired: every one of the " ++ toString retiredCount ++ " device(s) that reported a " ++
    "plan-scan-source reading for this organization has been silent — no reading and no refused " ++
    "report — for more than " ++ toString retireAfterSecs ++ " s, so they are left out and " ++
    "whether the corpus's feeders are current is not established. Read GET " ++
    "/plan-library/scan-roots?include_retired=true to see them; a retired device's next report " ++
    "brings it back."

/-- `COVERAGE_NOT_COMPUTED_DETAIL`. -/
def coverageNotComputedDetail : String :=
  "not_computed_here: this rendering of the scan-root readings does not compute plan coverage — " ++
    "it rides every plan-library list page and '/candidates', and an anti-join over every " ++
    "authored stem would be charged to each of them. Read GET /plan-library/scan-roots for the " ++
    "coverage set difference. The empty list is not 'nothing is missing'."

/-- `COVERAGE_NOT_REQUESTED_DETAIL`. -/
def coverageNotRequestedDetail : String :=
  "not_requested: this read passed coverage=false, which skips the stem census load and the " ++
    "corpus anti-join for a caller that only needs the per-device readings and roll-up. Pass " ++
    "coverage=true (the default) or omit the parameter to get the coverage set difference. The " ++
    "empty list is not 'nothing is missing'."

/-- `COVERAGE_NO_OBSERVATION_DETAIL`. -/
def coverageNoObservationDetail : String :=
  "no_observation: no device has reported a plan-scan-source reading for this organization, so " ++
    "nothing enumerated the stems that EXIST and the corpus's rows have nothing to be " ++
    "differenced against. The empty list is not 'nothing is missing'."

/-- `COVERAGE_ALL_RETIRED_DETAIL`. -/
def coverageAllRetiredDetail : String :=
  "all_retired: every device reporting for this organization is retired (silent for longer than " ++
    "the retirement window), and a retired device's census never decides coverage, so how much " ++
    "of what exists the corpus holds is not established. The empty list is not 'nothing is " ++
    "missing'."

/-- `COVERAGE_NO_LIVE_READING_DETAIL`. -/
def coverageNoLiveReadingDetail : String :=
  "no_reading: no live device reporting for this organization has a stored reading — every " ++
    "report they sent was refused (each row's detail names its last refusal) — so nothing " ++
    "enumerated the stems that exist and how much of it the corpus holds is not established. " ++
    "The empty list is not 'nothing is missing'."

/-- A dictionary by device; of two items of one device the later in the list stays. -/
def byDevice {α : Type} (deviceOf : α → Uuid) (items : List α) (device : Uuid) : Option α :=
  (items.filter fun item => deviceOf item == device).getLast?

/-- `_refusals_by_device`. -/
def refusalByDevice (refusals : List Refusal) : Uuid → Option Refusal :=
  byDevice (·.deviceId) refusals

/-- `{obs.device_id: obs for obs in observations}`. -/
def observationByDevice (observations : List Observation) : Uuid → Option Observation :=
  byDevice (·.deviceId) observations

/-- The readings beside their refusals, then the devices with a refusal only. -/
def contacts (observations : List Observation) (refusals : List Refusal) : List Contact :=
  observations.map (fun obs => .reading obs (refusalByDevice refusals obs.deviceId)) ++
    (refusals.filter fun refusal =>
      decide (refusal.deviceId ∉ observations.map (·.deviceId))).map .refusalOnly

def liveContacts (observations : List Observation) (refusals : List Refusal) (now : Instant) :
    List Contact :=
  (contacts observations refusals).filter fun contact => !isRetired now contact

def retiredContacts (observations : List Observation) (refusals : List Refusal) (now : Instant) :
    List Contact :=
  (contacts observations refusals).filter fun contact => isRetired now contact

def liveReadings (observations : List Observation) (refusals : List Refusal) (now : Instant) :
    List ScanRootRow :=
  ((liveContacts observations refusals now).filter (·.isReading)).map fun contact =>
    renderRow contact now false

def liveRows (observations : List Observation) (refusals : List Refusal) (now : Instant) :
    List ScanRootRow :=
  (liveContacts observations refusals now).map fun contact => renderRow contact now false

def retiredRows (observations : List Observation) (refusals : List Refusal) (now : Instant) :
    List ScanRootRow :=
  (retiredContacts observations refusals now).map fun contact => renderRow contact now true

def servedRows (observations : List Observation) (refusals : List Refusal) (now : Instant)
    (includeRetired : Bool) : List ScanRootRow :=
  if includeRetired then
    liveRows observations refusals now ++ retiredRows observations refusals now
  else liveRows observations refusals now

/-- The coverage list; it is computed only where the corpus side is given. -/
def coverageList (readings : List ScanRootRow) (observations : List Observation)
    (captured : Option CapturedPlanCorpus) : List PlanCoverage :=
  match captured with
  | none => []
  | some captured =>
      coverageBySourceRepo readings (rollupBySourceRepo readings)
        (observationByDevice observations) captured

/-- `scan_roots_health`. -/
def scanRootsHealth (observations : List Observation) (now : Instant) (refusals : List Refusal)
    (captured : Option CapturedPlanCorpus) (coverageRequested includeRetired : Bool) :
    ScanRootListResponse :=
  let notComputedDetail :=
    if coverageRequested then coverageNotComputedDetail else coverageNotRequestedDetail
  let retired := retiredRows observations refusals now
  let readings := liveReadings observations refusals now
  let rows := servedRows observations refusals now includeRetired
  if rows = [] then
    { reported := false
      detail := some
        (if retired = [] then noObservationDetail else allRetiredDetail retired.length)
      freshWithinSecs
      retireAfterSecs
      retiredCount := retired.length
      count := 0
      freshCount := 0
      rows := []
      bySourceRepo := []
      coverage := []
      coverageDetail := some
        (if captured.isSome then coverageNoObservationDetail else notComputedDetail) }
  else
    let coverage := coverageList readings observations captured
    { reported := true
      detail := none
      freshWithinSecs
      retireAfterSecs
      retiredCount := retired.length
      count := rows.length
      freshCount := rows.countP (·.observationFresh)
      rows
      bySourceRepo := rollupBySourceRepo readings
      coverage
      coverageDetail :=
        if coverage ≠ [] then none
        else if captured.isNone then some notComputedDetail
        else if liveRows observations refusals now ≠ [] then some coverageNoLiveReadingDetail
        else some coverageAllRetiredDetail }

/-! ### Devices -/

section Devices

variable {observations : List Observation} {refusals : List Refusal} {now : Instant}

theorem contacts_deviceIds (observations : List Observation) (refusals : List Refusal) :
    (contacts observations refusals).map (·.deviceId) =
      observations.map (·.deviceId) ++ (refusals.filter fun refusal =>
        decide (refusal.deviceId ∉ observations.map (·.deviceId))).map (·.deviceId) := by
  rw [contacts, List.map_append, List.map_map, List.map_map]
  rfl

variable {device : Uuid}

theorem mem_contacts_deviceId :
    device ∈ (contacts observations refusals).map (·.deviceId) ↔
      device ∈ observations.map (·.deviceId) ∨ device ∈ refusals.map (·.deviceId) := by
  rw [contacts_deviceIds, List.mem_append]
  constructor
  · rintro (h | h)
    · exact .inl h
    · exact .inr ((List.filter_sublist.map _).subset h)
  · rintro (h | h)
    · exact .inl h
    · obtain ⟨refusal, hmem, rfl⟩ := List.mem_map.mp h
      by_cases hobserved : refusal.deviceId ∈ observations.map (·.deviceId)
      · exact .inl hobserved
      · refine .inr (List.mem_map_of_mem (List.mem_filter.mpr ⟨hmem, ?_⟩))
        exact decide_eq_true hobserved

theorem contacts_nodup (hobs : (observations.map (·.deviceId)).Nodup)
    (hrefusals : (refusals.map (·.deviceId)).Nodup) :
    ((contacts observations refusals).map (·.deviceId)).Nodup := by
  rw [contacts_deviceIds, List.nodup_append]
  refine ⟨hobs, hrefusals.sublist (List.filter_sublist.map _), ?_⟩
  rintro a ha b hb rfl
  obtain ⟨refusal, hmem, rfl⟩ := List.mem_map.mp hb
  exact of_decide_eq_true (List.mem_filter.mp hmem).2 ha

theorem split_contacts (observations : List Observation) (refusals : List Refusal)
    (now : Instant) :
    (liveContacts observations refusals now ++ retiredContacts observations refusals now).Perm
      (contacts observations refusals) := by
  have hsplit := List.filter_append_perm (fun contact => isRetired now contact)
    (contacts observations refusals)
  exact List.perm_append_comm.trans hsplit

theorem byDevice_of_mem {α : Type} {deviceOf : α → Uuid} {items : List α}
    (hitems : (items.map deviceOf).Nodup) {item : α} (hmem : item ∈ items) :
    byDevice deviceOf items (deviceOf item) = some item := by
  have hsame : ∀ other ∈ items.filter (fun i => deviceOf i == deviceOf item), other = item := by
    intro other hother
    rw [List.mem_filter, beq_iff_eq] at hother
    exact List.inj_on_of_nodup_map hitems hother.1 hmem hother.2
  have hne : items.filter (fun i => deviceOf i == deviceOf item) ≠ [] := by
    apply List.ne_nil_of_mem
    exact List.mem_filter.mpr ⟨hmem, beq_self_eq_true _⟩
  rw [byDevice, List.getLast?_eq_some_getLast hne, hsame _ (List.getLast_mem hne)]

theorem of_byDevice {α : Type} {deviceOf : α → Uuid} {items : List α} {item : α}
    (h : byDevice deviceOf items device = some item) : item ∈ items ∧ deviceOf item = device := by
  have hmem := List.mem_of_getLast? h
  rw [List.mem_filter, beq_iff_eq] at hmem
  exact hmem

def heardAt (observations : List Observation) (refusals : List Refusal) (device : Uuid) :
    List Instant :=
  (observations.filter fun obs => obs.deviceId == device).map (·.receivedAt) ++
    (refusals.filter fun refusal => refusal.deviceId == device).map (·.lastRefusedAt)

theorem mem_heardAt {stamp : Instant} :
    stamp ∈ heardAt observations refusals device ↔
      (∃ obs ∈ observations, obs.deviceId = device ∧ obs.receivedAt = stamp) ∨
        ∃ refusal ∈ refusals, refusal.deviceId = device ∧ refusal.lastRefusedAt = stamp := by
  simp [heardAt, and_assoc]

/-- The clock of a contact is the latest stamp of its device. -/
theorem lastContactAt_latest (hobs : (observations.map (·.deviceId)).Nodup)
    (hrefusals : (refusals.map (·.deviceId)).Nodup) {contact : Contact}
    (hmem : contact ∈ contacts observations refusals) :
    lastContactAt contact ∈ heardAt observations refusals contact.deviceId ∧
      ∀ stamp ∈ heardAt observations refusals contact.deviceId, stamp ≤ lastContactAt contact := by
  rw [contacts, List.mem_append, List.mem_map, List.mem_map] at hmem
  rcases hmem with ⟨obs, hobsmem, rfl⟩ | ⟨refusal, hrefusal, rfl⟩
  · have hown : ∀ other ∈ observations, other.deviceId = obs.deviceId → other = obs :=
      fun other hother h => List.inj_on_of_nodup_map hobs hother hobsmem h
    cases hlast : refusalByDevice refusals obs.deviceId with
    | none =>
        have hnone : ∀ refusal ∈ refusals, refusal.deviceId ≠ obs.deviceId := by
          intro refusal hrefusal h
          have hfound := byDevice_of_mem hrefusals hrefusal
          rw [h] at hfound
          cases hlast.symm.trans hfound
        constructor
        · exact mem_heardAt.mpr (.inl ⟨obs, hobsmem, rfl, rfl⟩)
        · intro stamp hstamp
          rcases mem_heardAt.mp hstamp with ⟨other, hother, h, rfl⟩ | ⟨refusal, hrefusal, h, _⟩
          · exact le_of_eq (congrArg _ (hown other hother h))
          · exact absurd h (hnone refusal hrefusal)
    | some refusal =>
        obtain ⟨hrefusal, hdevice⟩ := of_byDevice hlast
        constructor
        · rcases max_choice obs.receivedAt refusal.lastRefusedAt with h | h
          · exact mem_heardAt.mpr (.inl ⟨obs, hobsmem, rfl, h.symm⟩)
          · exact mem_heardAt.mpr (.inr ⟨refusal, hrefusal, hdevice, h.symm⟩)
        · intro stamp hstamp
          rcases mem_heardAt.mp hstamp with ⟨other, hother, h, rfl⟩ | ⟨other, hother, h, rfl⟩
          · rw [hown other hother h]
            exact le_max_left _ _
          · rw [List.inj_on_of_nodup_map hrefusals hother hrefusal (h.trans hdevice.symm)]
            exact le_max_right _ _
  · rw [List.mem_filter, decide_eq_true_eq] at hrefusal
    constructor
    · exact mem_heardAt.mpr (.inr ⟨refusal, hrefusal.1, rfl, rfl⟩)
    · intro stamp hstamp
      rcases mem_heardAt.mp hstamp with ⟨obs, hobsmem, h, _⟩ | ⟨other, hother, h, rfl⟩
      · exact absurd (List.mem_map.mpr ⟨obs, hobsmem, h⟩) hrefusal.2
      · exact le_of_eq (congrArg _ (List.inj_on_of_nodup_map hrefusals hother hrefusal.1 h))

end Devices

/-! ### The response -/

section Response

variable (observations : List Observation) (now : Instant) (refusals : List Refusal)
  (captured : Option CapturedPlanCorpus) (coverageRequested includeRetired : Bool)

/-- What a response says of the rows it was given. -/
structure Renders (response : ScanRootListResponse) : Prop where
  rows : response.rows = servedRows observations refusals now includeRetired
  retiredCount : response.retiredCount = (retiredRows observations refusals now).length
  count : response.count = response.rows.length
  bySourceRepo : response.bySourceRepo =
    rollupBySourceRepo (liveReadings observations refusals now)
  coverage : response.coverage =
    coverageList (liveReadings observations refusals now) observations captured
  coverageDetail : response.coverage = [] ↔ response.coverageDetail ≠ none

theorem rollupBySourceRepo_nil : rollupBySourceRepo [] = [] := by
  simp [rollupBySourceRepo, groupRows, DefaultDict.groupBy]

theorem coverageList_nil : coverageList [] observations captured = [] := by
  cases captured with
  | none => rfl
  | some captured =>
      rw [coverageList, rollupBySourceRepo_nil]
      rfl

theorem liveReadings_eq_nil (h : servedRows observations refusals now includeRetired = []) :
    liveReadings observations refusals now = [] := by
  have hlive : liveRows observations refusals now = [] := by
    unfold servedRows at h
    split_ifs at h
    · exact (List.append_eq_nil_iff.mp h).1
    · exact h
  rw [liveReadings, List.map_eq_nil_iff.mp hlive]
  rfl

theorem scanRootsHealth_renders :
    Renders observations now refusals captured includeRetired
      (scanRootsHealth observations now refusals captured coverageRequested includeRetired) := by
  unfold scanRootsHealth
  dsimp only
  by_cases hempty : servedRows observations refusals now includeRetired = []
  · rw [if_pos hempty]
    have hreadings := liveReadings_eq_nil observations now refusals includeRetired hempty
    constructor
    · exact hempty.symm
    · rfl
    · rfl
    · rw [hreadings, rollupBySourceRepo_nil]
    · rw [hreadings, coverageList_nil]
    · exact iff_of_true rfl nofun
  · rw [if_neg hempty]
    constructor
    · rfl
    · rfl
    · rfl
    · rfl
    · rfl
    · dsimp only
      split_ifs with hcoverage <;> simp_all

/-- Every device is accounted for once. -/
structure Accounted (response : ScanRootListResponse) (live retired : List ScanRootRow) :
    Prop where
  once : ((live ++ retired).map (·.deviceId)).Nodup
  everyDevice : ∀ device, device ∈ (live ++ retired).map (·.deviceId) ↔
    device ∈ observations.map (·.deviceId) ∨ device ∈ refusals.map (·.deviceId)
  liveMarked : ∀ row ∈ live, row.retired = false
  retiredMarked : ∀ row ∈ retired, row.retired = true
  /-- A device is retired when the latest that was heard from it is too old. -/
  clock : ∀ row ∈ live ++ retired, ∃ stamp ∈ heardAt observations refusals row.deviceId,
    (∀ other ∈ heardAt observations refusals row.deviceId, other ≤ stamp) ∧
      (row.retired = true ↔ retireAfterSecs < ageSecs stamp now)
  rows : response.rows = if includeRetired then live ++ retired else live
  retiredCount : response.retiredCount = retired.length
  count : response.count = response.rows.length
  placedOnce : (response.bySourceRepo.flatMap Rollup.deviceIds).Nodup
  placed : ∀ device, device ∈ response.bySourceRepo.flatMap Rollup.deviceIds ↔
    device ∈ live.map (·.deviceId) ∧ device ∈ observations.map (·.deviceId)
  sourcesOnce : (response.bySourceRepo.map (·.sourceRepo)).Nodup
  coverageSources : captured.isSome →
    response.coverage.map (·.sourceRepo) = response.bySourceRepo.map (·.sourceRepo)
  coverageNotComputed : captured = none → response.coverage = []
  coverageDetail : response.coverage = [] ↔ response.coverageDetail ≠ none

theorem liveRows_deviceIds : (liveRows observations refusals now).map (·.deviceId) =
    (liveContacts observations refusals now).map (·.deviceId) := by
  rw [liveRows, List.map_map]
  apply List.map_congr_left
  intro contact _
  exact renderRow_deviceId contact now false

theorem retiredRows_deviceIds : (retiredRows observations refusals now).map (·.deviceId) =
    (retiredContacts observations refusals now).map (·.deviceId) := by
  rw [retiredRows, List.map_map]
  apply List.map_congr_left
  intro contact _
  exact renderRow_deviceId contact now true

theorem rows_perm :
    ((liveRows observations refusals now ++ retiredRows observations refusals now).map
      (·.deviceId)).Perm ((contacts observations refusals).map (·.deviceId)) := by
  rw [List.map_append, liveRows_deviceIds, retiredRows_deviceIds, ← List.map_append]
  exact (split_contacts observations refusals now).map _

theorem liveReadings_deviceIds : (liveReadings observations refusals now).map (·.deviceId) =
    ((liveContacts observations refusals now).filter (·.isReading)).map (·.deviceId) := by
  rw [liveReadings, List.map_map]
  apply List.map_congr_left
  intro contact _
  exact renderRow_deviceId contact now false

theorem mem_liveReadings_deviceId {device : Uuid} :
    device ∈ (liveReadings observations refusals now).map (·.deviceId) ↔
      device ∈ (liveRows observations refusals now).map (·.deviceId) ∧
        device ∈ observations.map (·.deviceId) := by
  rw [liveReadings_deviceIds, liveRows_deviceIds]
  constructor
  · intro h
    obtain ⟨contact, hcontact, rfl⟩ := List.mem_map.mp h
    obtain ⟨hlive, hreading⟩ := List.mem_filter.mp hcontact
    refine ⟨List.mem_map_of_mem hlive, ?_⟩
    have hmem := (List.mem_filter.mp hlive).1
    rw [contacts, List.mem_append, List.mem_map, List.mem_map] at hmem
    rcases hmem with ⟨obs, hobs, rfl⟩ | ⟨refusal, _, rfl⟩
    · exact List.mem_map_of_mem hobs
    · cases hreading
  · rintro ⟨hlive, hobserved⟩
    obtain ⟨contact, hcontact, rfl⟩ := List.mem_map.mp hlive
    apply List.mem_map_of_mem
    apply List.mem_filter.mpr
    refine ⟨hcontact, ?_⟩
    have hmem := (List.mem_filter.mp hcontact).1
    rw [contacts, List.mem_append, List.mem_map, List.mem_map] at hmem
    rcases hmem with ⟨obs, _, rfl⟩ | ⟨refusal, hrefusal, rfl⟩
    · rfl
    · exact absurd hobserved (of_decide_eq_true (List.mem_filter.mp hrefusal).2)

theorem row_clock {row : ScanRootRow}
    (hrow : row ∈ liveRows observations refusals now ++ retiredRows observations refusals now) :
    ∃ contact ∈ contacts observations refusals, contact.deviceId = row.deviceId ∧
      row.retired = isRetired now contact := by
  rw [List.mem_append, liveRows, retiredRows, List.mem_map, List.mem_map] at hrow
  rcases hrow with ⟨contact, hcontact, rfl⟩ | ⟨contact, hcontact, rfl⟩
  · obtain ⟨hmem, hlive⟩ := List.mem_filter.mp hcontact
    refine ⟨contact, hmem, (renderRow_deviceId _ _ _).symm, ?_⟩
    rw [renderRow_retired, (Bool.not_eq_true' _).mp hlive]
  · obtain ⟨hmem, hretired⟩ := List.mem_filter.mp hcontact
    refine ⟨contact, hmem, (renderRow_deviceId _ _ _).symm, ?_⟩
    rw [renderRow_retired, hretired]

theorem scanRootsHealth_accounted (hobs : (observations.map (·.deviceId)).Nodup)
    (hrefusals : (refusals.map (·.deviceId)).Nodup) :
    Accounted observations now refusals captured includeRetired
      (scanRootsHealth observations now refusals captured coverageRequested includeRetired)
      (liveRows observations refusals now) (retiredRows observations refusals now) := by
  have hrenders := scanRootsHealth_renders observations now refusals captured coverageRequested
    includeRetired
  have hcontacts := contacts_nodup hobs hrefusals
  have hrows := rows_perm observations now refusals
  have hreadings : (liveReadings observations refusals now).map (·.deviceId) |>.Nodup := by
    rw [liveReadings_deviceIds]
    exact List.Nodup.sublist ((List.filter_sublist.trans List.filter_sublist).map _) hcontacts
  have hplaced := rollupBySourceRepo_perm (liveReadings observations refusals now)
  constructor
  case once => exact hrows.nodup_iff.mpr hcontacts
  case everyDevice =>
    intro device
    rw [hrows.mem_iff]
    exact mem_contacts_deviceId
  case liveMarked =>
    intro row hrow
    obtain ⟨contact, _, rfl⟩ := List.mem_map.mp hrow
    exact renderRow_retired _ _ _
  case retiredMarked =>
    intro row hrow
    obtain ⟨contact, _, rfl⟩ := List.mem_map.mp hrow
    exact renderRow_retired _ _ _
  case clock =>
    intro row hrow
    obtain ⟨contact, hmem, hdevice, hretired⟩ :=
      row_clock observations now refusals hrow
    obtain ⟨hstamp, hlatest⟩ := lastContactAt_latest hobs hrefusals hmem
    rw [← hdevice]
    refine ⟨lastContactAt contact, hstamp, hlatest, ?_⟩
    rw [hretired, isRetired, decide_eq_true_eq]
  case rows => exact hrenders.rows
  case retiredCount => exact hrenders.retiredCount
  case count => exact hrenders.count
  case placedOnce =>
    rw [hrenders.bySourceRepo]
    exact hplaced.nodup_iff.mpr hreadings
  case placed =>
    intro device
    rw [hrenders.bySourceRepo, hplaced.mem_iff]
    exact mem_liveReadings_deviceId observations now refusals
  case sourcesOnce =>
    rw [hrenders.bySourceRepo]
    exact (rollupBySourceRepo_sources _).nodup_iff.mpr (groupRows _).nodup
  case coverageSources =>
    intro hcaptured
    obtain ⟨captured, rfl⟩ := Option.isSome_iff_exists.mp hcaptured
    rw [hrenders.coverage, hrenders.bySourceRepo]
    exact coverageBySourceRepo_sources _ _
  case coverageNotComputed =>
    intro hcaptured
    rw [hrenders.coverage, hcaptured]
    rfl
  case coverageDetail => exact hrenders.coverageDetail

theorem contact_of_liveReading {row : ScanRootRow}
    (hrow : row ∈ liveReadings observations refusals now) :
    ∃ obs refusal, obs.deviceId = row.deviceId ∧
      Contact.reading obs refusal ∈ liveContacts observations refusals now := by
  obtain ⟨contact, hcontact, rfl⟩ := List.mem_map.mp hrow
  obtain ⟨hlive, hreading⟩ := List.mem_filter.mp hcontact
  cases contact with
  | reading obs refusal => exact ⟨obs, refusal, rfl, hlive⟩
  | refusalOnly refusal => cases hreading

variable {observations now refusals} in
theorem lookup_of_contact (hobs : (observations.map (·.deviceId)).Nodup) {obs : Observation}
    {refusal : Option Refusal}
    (h : Contact.reading obs refusal ∈ liveContacts observations refusals now) :
    observationByDevice observations obs.deviceId = some obs := by
  have hmem := (List.mem_filter.mp h).1
  rw [contacts, List.mem_append, List.mem_map, List.mem_map] at hmem
  rcases hmem with ⟨obs', hobs', heq⟩ | ⟨_, _, heq⟩
  · cases heq
    exact byDevice_of_mem hobs hobs'
  · cases heq

end Response

/-- What the retired devices sent reaches neither the roll-ups nor the coverage: these depend
on the contacts of the live devices alone. -/
theorem scanRootsHealth_live {observations observations' : List Observation}
    {refusals refusals' : List Refusal} {now : Instant}
    (hobs : (observations.map (·.deviceId)).Nodup)
    (hobs' : (observations'.map (·.deviceId)).Nodup)
    (hlive : liveContacts observations refusals now = liveContacts observations' refusals' now)
    (captured : Option CapturedPlanCorpus) (coverageRequested includeRetired : Bool) :
    (scanRootsHealth observations now refusals captured coverageRequested
        includeRetired).bySourceRepo =
      (scanRootsHealth observations' now refusals' captured coverageRequested
        includeRetired).bySourceRepo ∧
    (scanRootsHealth observations now refusals captured coverageRequested includeRetired).coverage =
      (scanRootsHealth observations' now refusals' captured coverageRequested
        includeRetired).coverage := by
  have hrenders := scanRootsHealth_renders observations now refusals captured coverageRequested
    includeRetired
  have hrenders' := scanRootsHealth_renders observations' now refusals' captured coverageRequested
    includeRetired
  have hreadings : liveReadings observations refusals now =
      liveReadings observations' refusals' now := by
    rw [liveReadings, liveReadings, hlive]
  rw [hrenders.bySourceRepo, hrenders'.bySourceRepo, hrenders.coverage, hrenders'.coverage,
    hreadings]
  refine ⟨rfl, ?_⟩
  cases captured with
  | none => rfl
  | some captured =>
      apply coverageBySourceRepo_congr
      intro row hrow
      rw [← hreadings] at hrow
      obtain ⟨obs, refusal, hdevice, hcontact⟩ := contact_of_liveReading _ _ _ hrow
      have hcontact' := hcontact
      rw [hlive] at hcontact'
      rw [← hdevice, lookup_of_contact hobs hcontact, lookup_of_contact hobs' hcontact']

/-- Every device that has a reading or a refusal gets one verdict, every live reading one
place in the roll-ups, and a retired device has no say in them or in the coverage. -/
theorem every_device_accounted (observations : List Observation) (now : Instant)
    (refusals : List Refusal) (captured : Option CapturedPlanCorpus)
    (coverageRequested includeRetired : Bool)
    (hobs : (observations.map (·.deviceId)).Nodup)
    (hrefusals : (refusals.map (·.deviceId)).Nodup) :
    (∃ live retired, Accounted observations now refusals captured includeRetired
      (scanRootsHealth observations now refusals captured coverageRequested includeRetired)
      live retired) ∧
    ∀ observations' refusals', (observations'.map (·.deviceId)).Nodup →
      liveContacts observations refusals now = liveContacts observations' refusals' now →
      (scanRootsHealth observations now refusals captured coverageRequested
          includeRetired).bySourceRepo =
        (scanRootsHealth observations' now refusals' captured coverageRequested
          includeRetired).bySourceRepo ∧
      (scanRootsHealth observations now refusals captured coverageRequested
          includeRetired).coverage =
        (scanRootsHealth observations' now refusals' captured coverageRequested
          includeRetired).coverage := by
  constructor
  · exact ⟨_, _, scanRootsHealth_accounted observations now refusals captured coverageRequested
      includeRetired hobs hrefusals⟩
  · intro observations' refusals' hobs' hlive
    exact scanRootsHealth_live hobs hobs' hlive captured coverageRequested includeRetired

/-! ### A live device, a retired one and a refused one -/

/-- A reading that was received at `receivedAt`. -/
def readingAt (deviceId : Uuid) (receivedAt : Instant) : Observation where
  deviceId
  state := .measured
  plansDir := none
  repoRoot := none
  sourceRepo := some "org/plans"
  defaultRef := some "origin/main"
  refSha := some "f00d"
  headSha := none
  behind := some 2
  ahead := some 0
  refAgeSecs := some 60
  countsAreFloors := false
  detail := none
  observedAt := receivedAt
  receivedAt
  lastReportApplied := true
  lastReportObservedAt := receivedAt
  refCensus := none
  workTreeCensus := none

def refusedAt (deviceId : Uuid) (lastRefusedAt : Instant) : Refusal where
  deviceId
  firstRefusedAt := "2026-09-11T10:00:00+00:00"
  lastRefusedAt
  lastRefusedReason := "behind: Input should be a valid integer"
  refusedCount := 3

def fortyDays : Instant := 3456000000000

example : (retiredContacts [readingAt "laptop" fortyDays, readingAt "desktop" 0]
    [refusedAt "server" fortyDays] fortyDays).map (·.deviceId) = ["desktop"] := by
  decide +kernel

theorem laptop_desktop_server_accounted :
    (∃ live retired, Accounted [readingAt "laptop" fortyDays, readingAt "desktop" 0] fortyDays
      [refusedAt "server" fortyDays] none true
      (scanRootsHealth [readingAt "laptop" fortyDays, readingAt "desktop" 0] fortyDays
        [refusedAt "server" fortyDays] none true true) live retired) :=
  (every_device_accounted _ _ _ _ _ _ (by decide) (by decide)).1

end Qontinui.ScanRoots
