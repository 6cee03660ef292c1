import Mathlib.Data.Finset.Sort
import Mathlib.Data.String.Basic
import Qontinui.ScanRoots.Rollup

/-!
What the corpus holds of the plans that exist: for each scan source, the difference between
the stems its freshest device listed and those the corpus has captured.
-/

namespace Qontinui.ScanRoots

/-- `COVERAGE_MISSING_SAMPLE_MAX`. -/
def coverageMissingSampleMax : Nat := 50

/-- `CapturedPlanCorpus`: the plan stems captured under each source, and the number of
plan rows in all. -/
structure CapturedPlanCorpus where
  slugsBySourceRepo : List (String × Finset String)
  planRowCount : Int

/-- A stored census whose four checked values have the shapes they should. -/
structure Census where
  slugs : List String
  count : Int
  truncated : Bool
  digest : String
  refSha : Option String
deriving DecidableEq, Repr

/-- `_census_with_stems`, on the stored column. -/
def censusWithStems (stored : Option StoredCensus) : Option Census := do
  let census ← stored
  match census.slugs, census.count, census.truncated, census.digest with
  | some (.strings slugs), some (.int count), some (.bool truncated), some (.str digest) =>
      some ⟨slugs, count, truncated, digest, census.refSha⟩
  | _, _, _, _ => none

inductive CensusSource
  | ref
  | workTree
deriving DecidableEq, Repr

def CensusSource.text : CensusSource → String
  | .ref => "ref"
  | .workTree => "work_tree"

/-- `PlanCensusSide`. -/
structure PlanCensusSide where
  source : CensusSource
  refSha : Option String
  refAgeSecs : Option Nat
  count : Int
  listedCount : Nat
  truncated : Bool
  digest : String
deriving DecidableEq, Repr

/-- `_census_side`. -/
def censusSide (census : Census) (source : CensusSource) (row : ScanRootRow) : PlanCensusSide where
  source
  refSha := census.refSha
  refAgeSecs := row.refAgeSecs
  count := census.count
  listedCount := census.slugs.length
  truncated := census.truncated || census.count != census.slugs.length
  digest := census.digest

/-- `PlanCoverage`. -/
structure PlanCoverage where
  sourceRepo : Option String
  measured : Bool
  detail : Option String
  deviceCount : Nat
  censusDeviceId : Option Uuid
  otherCensusDeviceIds : List Uuid
  authoredAtRef : Option PlanCensusSide
  visibleToScanner : Option PlanCensusSide
  captured : Option Nat
  both : Option Nat
  authoredNotCaptured : Option Nat
  capturedNotAuthored : Option Nat
  authoredNotCapturedButInvisible : Option Nat
  outOfScopeArtifactCount : Option Int
  missingSample : List String
  sampleTruncated : Bool
  minBehind : Option Nat
  minBehindIsFloor : Option Bool
  observationAgeSecs : Option Int
  observationFresh : Option Bool
  countsAreFloors : Option Bool
  refSha : Option String
deriving DecidableEq, Repr

/-- `SOURCE_REPO_UNNAMED_DETAIL`. -/
def sourceRepoUnnamedDetail : String :=
  "source_repo_unnamed: these readings name no scan source, so their stems cannot be joined " ++
    "to the corpus rows they would be compared with — a row with no 'source_repo' is out of " ++
    "scope for every key. How much of what exists the corpus holds is not established for " ++
    "them, which is not 0 and not 100%."

/-- `no_census_detail`. -/
def noCensusDetail (deviceCount : Nat) : String :=
  "no_census: none of the " ++ toString deviceCount ++ " device(s) reporting this scan source " ++
    "has a fresh, applied reading carrying BOTH stem listings with their stems (a build " ++
    "predating the census, an idle or failed scan cycle, or a withheld set whose digest no " ++
    "longer matches all send none), so how much of what exists the corpus holds is not " ++
    "established — not 0 and not 100%"

/-- `census_truncated_detail`. -/
def censusTruncatedDetail (sources : List CensusSource) : String :=
  "census_truncated: the chosen device's " ++ ", ".intercalate (sources.map (·.text)) ++
    " stem listing holds only a sorted PREFIX of what it counted — it said so, or its count " ++
    "disagrees with the stems this server holds — so absence from it proves nothing and a set " ++
    "difference taken over it would count stems beyond the prefix as captured-but-not-authored. " ++
    "How much of what exists the corpus holds is not established — not 0 and not 100%"

/-- The order of `_census_sort_key`: the freshest ref first, an unknown age last, then the
freshest reading, then the device id. -/
def censusLe (a b : ScanRootRow) : Bool :=
  let age := fun (row : ScanRootRow) => row.observationAgeSecs.getD 0
  let later := decide (age a < age b) || (age a == age b && decide (a.deviceId ≤ b.deviceId))
  match a.refAgeSecs, b.refAgeSecs with
  | some m, some n => decide (m < n) || (m == n && later)
  | some _, none => true
  | none, some _ => false
  | none, none => later

/-- `_unknown_coverage`. -/
def unknownCoverage (sourceRepo : Option String) (detail : String) (rows : List ScanRootRow)
    (rollup : Rollup) (chosen : Option ScanRootRow) (others : List Uuid) : PlanCoverage where
  sourceRepo
  measured := false
  detail := some detail
  deviceCount := rows.length
  censusDeviceId := chosen.map (·.deviceId)
  otherCensusDeviceIds := others
  authoredAtRef := none
  visibleToScanner := none
  captured := none
  both := none
  authoredNotCaptured := none
  capturedNotAuthored := none
  authoredNotCapturedButInvisible := none
  outOfScopeArtifactCount := none
  missingSample := []
  sampleTruncated := false
  minBehind := rollup.minBehind
  minBehindIsFloor := rollup.minBehindIsFloor
  observationAgeSecs := chosen.bind (·.observationAgeSecs)
  observationFresh := chosen.map (·.observationFresh)
  countsAreFloors := chosen.bind (·.countsAreFloors)
  refSha := chosen.bind (·.refSha)

/-- A row beside the two censuses of its reading. -/
structure UsableRow where
  row : ScanRootRow
  ref : Census
  workTree : Census
deriving DecidableEq, Repr

/-- The row with its censuses, where its reading is fresh, applied and carries both. -/
def usableRow (observations : Uuid → Option Observation) (row : ScanRootRow) :
    Option UsableRow := do
  guard (row.observationFresh = true ∧ row.lastReportApplied = some true)
  let observation ← observations row.deviceId
  let ref ← censusWithStems observation.refCensus
  let workTree ← censusWithStems observation.workTreeCensus
  return ⟨row, ref, workTree⟩

def measuredCoverage (sourceRepo : String) (rows : List ScanRootRow) (rollup : Rollup)
    (captured : CapturedPlanCorpus) (chosen : UsableRow) (others : List Uuid) : PlanCoverage :=
  let authored := chosen.ref.slugs.toFinset
  let visible := chosen.workTree.slugs.toFinset
  let capturedSlugs := (captured.slugsBySourceRepo.lookup sourceRepo).getD ∅
  let missing := authored \ capturedSlugs
  let sample := missing.sort (· ≤ ·)
  { sourceRepo := some sourceRepo
    measured := true
    detail := none
    deviceCount := rows.length
    censusDeviceId := some chosen.row.deviceId
    otherCensusDeviceIds := others
    authoredAtRef := some (censusSide chosen.ref .ref chosen.row)
    visibleToScanner := some (censusSide chosen.workTree .workTree chosen.row)
    captured := some capturedSlugs.card
    both := some (capturedSlugs ∩ authored).card
    authoredNotCaptured := some missing.card
    capturedNotAuthored := some (capturedSlugs \ authored).card
    authoredNotCapturedButInvisible := some (missing \ visible).card
    outOfScopeArtifactCount := some (captured.planRowCount - capturedSlugs.card)
    missingSample := sample.take coverageMissingSampleMax
    sampleTruncated := decide (coverageMissingSampleMax < sample.length)
    minBehind := rollup.minBehind
    minBehindIsFloor := rollup.minBehindIsFloor
    observationAgeSecs := chosen.row.observationAgeSecs
    observationFresh := some chosen.row.observationFresh
    countsAreFloors := chosen.row.countsAreFloors
    refSha := chosen.row.refSha }

/-- `coverage_for_source`. -/
def coverageForSource (sourceRepo : Option String) (rows : List ScanRootRow) (rollup : Rollup)
    (observations : Uuid → Option Observation) (captured : CapturedPlanCorpus) : PlanCoverage :=
  match sourceRepo with
  | none => unknownCoverage none sourceRepoUnnamedDetail rows rollup none []
  | some name =>
      let usable := rows.filterMap (usableRow observations)
      match usable.mergeSort fun a b => censusLe a.row b.row with
      | [] => unknownCoverage (some name) (noCensusDetail rows.length) rows rollup none []
      | chosen :: others =>
          let otherIds := deviceIds (others.map (·.row))
          let sides :=
            [censusSide chosen.ref .ref chosen.row,
              censusSide chosen.workTree .workTree chosen.row]
          match (sides.filter (·.truncated)).map (·.source) with
          | [] => measuredCoverage name rows rollup captured chosen otherIds
          | truncated =>
              unknownCoverage (some name) (censusTruncatedDetail truncated) rows rollup
                (some chosen.row) otherIds

/-- `coverage_by_source_repo`. -/
def coverageBySourceRepo (rows : List ScanRootRow) (rollups : List Rollup)
    (observations : Uuid → Option Observation) (captured : CapturedPlanCorpus) :
    List PlanCoverage :=
  let groups := groupRows rows
  rollups.map fun rollup =>
    coverageForSource rollup.sourceRepo (groups.get rollup.sourceRepo) rollup observations captured

/-! ### What coverage is computed from -/

section Facts

variable {observations observations' : Uuid → Option Observation} {captured : CapturedPlanCorpus}

@[simp] theorem coverageForSource_sourceRepo (sourceRepo : Option String)
    (rows : List ScanRootRow) (rollup : Rollup) :
    (coverageForSource sourceRepo rows rollup observations captured).sourceRepo = sourceRepo := by
  unfold coverageForSource
  cases sourceRepo with
  | none => rfl
  | some name =>
      dsimp only
      split
      · rfl
      · split <;> rfl

theorem coverageBySourceRepo_sources (rows : List ScanRootRow) (rollups : List Rollup) :
    (coverageBySourceRepo rows rollups observations captured).map (·.sourceRepo) =
      rollups.map (·.sourceRepo) := by
  rw [coverageBySourceRepo, List.map_map]
  apply List.map_congr_left
  intro rollup _
  exact coverageForSource_sourceRepo _ _ _

section

variable {rows : List ScanRootRow}
  (h : ∀ row ∈ rows, observations row.deviceId = observations' row.deviceId)
include h

theorem coverageForSource_congr (sourceRepo : Option String) (rollup : Rollup) :
    coverageForSource sourceRepo rows rollup observations captured =
      coverageForSource sourceRepo rows rollup observations' captured := by
  have husable : rows.filterMap (usableRow observations) =
      rows.filterMap (usableRow observations') := by
    apply List.filterMap_congr
    intro row hrow
    rw [usableRow, usableRow, h row hrow]
  unfold coverageForSource
  rw [husable]

theorem coverageBySourceRepo_congr (rollups : List Rollup) :
    coverageBySourceRepo rows rollups observations captured =
      coverageBySourceRepo rows rollups observations' captured := by
  apply List.map_congr_left
  intro rollup _
  apply coverageForSource_congr
  intro row hrow
  rw [groupRows, DefaultDict.get_groupBy] at hrow
  exact h row (List.mem_filter.mp hrow).1

end

end Facts

end Qontinui.ScanRoots
