import Qontinui.Base.DefaultDict
import Qontinui.ScanRoots.Observation

/-!
The roll-up of the readings of one scan source: which devices are behind, by how much, and
which of them the readings put in an order.
-/

namespace Qontinui.ScanRoots

/-- `ScanRootSourceRollup`. -/
structure Rollup where
  sourceRepo : Option String
  measured : Bool
  detail : Option String
  deviceCount : Nat
  comparableCount : Nat
  minBehind : Option Nat
  minBehindIsFloor : Option Bool
  leastBehindDeviceIds : List Uuid
  laggingDeviceIds : List Uuid
  lagUnknownDeviceIds : List Uuid
  unmeasuredDeviceIds : List Uuid
deriving DecidableEq, Repr

/-- The four id lists of a roll-up, one after the other. -/
def Rollup.deviceIds (rollup : Rollup) : List Uuid :=
  rollup.leastBehindDeviceIds ++ rollup.laggingDeviceIds ++ rollup.lagUnknownDeviceIds ++
    rollup.unmeasuredDeviceIds

/-- `ZERO_FLOOR_MINIMUM_DETAIL`. -/
def zeroFloorMinimumDetail : String :=
  "ref_stale: the fewest commits behind among the comparable readings is a floor of 0 — at " ++
    "least 0 behind establishes no distance, so how far behind the least-behind feeder is is " ++
    "not established (the device lists still carry whatever order the readings establish)"

/-- `REFS_NOT_SHARED_ZERO_MINIMUM_DETAIL`. -/
def refsNotSharedZeroMinimumDetail : String :=
  "refs_not_shared: the fewest commits behind among the comparable readings is 0, but no " ++
    "single named ref is confirmed to be shared by all of them (the readings name different " ++
    "refs, or at least one names none), so the roll-up does not treat that 0 as exact, " ++
    "whatever each ref's age — it states no least-behind distance and names no device least " ++
    "behind or lagging (each row states its own count, and its counts_are_floors whether that " ++
    "count is a floor even as of its own ref)"

/-- `no_comparable_reading_detail`. -/
def noComparableReadingDetail (deviceCount : Nat) : String :=
  "no_comparable_reading: none of the " ++ toString deviceCount ++ " device(s) reporting this " ++
    "scan source has a fresh, applied reading that carries a count (each row's state and " ++
    "detail say why), so how far behind the corpus's least-behind feeder is is not " ++
    "established — not 0"

/-- `_device_ids`. -/
def deviceIds (rows : List ScanRootRow) : List Uuid :=
  (rows.map (·.deviceId)).mergeSort fun a b => decide (a ≤ b)

def comparableCount (row : ScanRootRow) : Option Nat :=
  if row.reportedState = some .measured ∧ row.observationFresh = true ∧
      row.lastReportApplied = some true then
    row.behind
  else none

def comparableRows (rows : List ScanRootRow) : List (ScanRootRow × Nat) :=
  rows.filterMap fun row => (comparableCount row).map fun behind => (row, behind)

def unmeasuredRows (rows : List ScanRootRow) : List ScanRootRow :=
  rows.filter fun row => (comparableCount row).isNone

/-- Whether all of them counted against one named ref. -/
def sharedRef (comparable : List (ScanRootRow × Nat)) : Bool :=
  match comparable with
  | [] => false
  | (first, _) :: rest => first.refSha.isSome && rest.all fun p => p.1.refSha == first.refSha

/-- Whether one of them fetched that ref within the window. -/
def exactRef (comparable : List (ScanRootRow × Nat)) : Bool :=
  sharedRef comparable && comparable.any fun p => !(p.1.countsAreFloors.getD false)

def orderedBy (comparable : List (ScanRootRow × Nat)) : Bool :=
  sharedRef comparable &&
    (exactRef comparable || comparable.all fun p => p.1.ahead == some 0)

/-- `rollup_source`. -/
def rollupSource (sourceRepo : Option String) (rows : List ScanRootRow) : Rollup :=
  let comparable := comparableRows rows
  let unmeasured := unmeasuredRows rows
  match (comparable.map Prod.snd).min? with
  | none =>
      { sourceRepo
        measured := false
        detail := some (noComparableReadingDetail rows.length)
        deviceCount := rows.length
        comparableCount := 0
        minBehind := none
        minBehindIsFloor := none
        leastBehindDeviceIds := []
        laggingDeviceIds := []
        lagUnknownDeviceIds := []
        unmeasuredDeviceIds := deviceIds unmeasured }
  | some minBehind =>
      let ordered := orderedBy comparable
      let least := if ordered then comparable.filter fun p => p.2 == minBehind else []
      let lagging := if ordered then comparable.filter fun p => decide (minBehind < p.2) else []
      let lagUnknown := if ordered then [] else comparable
      let minBehindIsFloor := !exactRef comparable
      let zeroFloor := minBehindIsFloor && minBehind == 0
      let zeroFloorDetail :=
        if sharedRef comparable then zeroFloorMinimumDetail else refsNotSharedZeroMinimumDetail
      { sourceRepo
        measured := !zeroFloor
        detail := if zeroFloor then some zeroFloorDetail else none
        deviceCount := rows.length
        comparableCount := comparable.length
        minBehind := if zeroFloor then none else some minBehind
        minBehindIsFloor := if zeroFloor then none else some minBehindIsFloor
        leastBehindDeviceIds := deviceIds (least.map Prod.fst)
        laggingDeviceIds := deviceIds (lagging.map Prod.fst)
        lagUnknownDeviceIds := deviceIds (lagUnknown.map Prod.fst)
        unmeasuredDeviceIds := deviceIds unmeasured }

/-- The order of the groups: named sources first, then the unnamed one. -/
def sourceLe : Option String → Option String → Bool
  | some a, some b => decide (a ≤ b)
  | some _, none => true
  | none, some _ => false
  | none, none => true

/-- The dictionary `groups` of the rows of each source. -/
def groupRows (rows : List ScanRootRow) : DefaultDict (Option String) (List ScanRootRow) :=
  DefaultDict.groupBy (·.sourceRepo) rows

/-- `rollup_by_source_repo`. -/
def rollupBySourceRepo (rows : List ScanRootRow) : List Rollup :=
  let groups := groupRows rows
  (groups.keys.mergeSort sourceLe).map fun key => rollupSource key (groups.get key)

/-! ### The comparison set -/

section Comparison

variable {rows : List ScanRootRow}

theorem comparable_perm (rows : List ScanRootRow) :
    ((comparableRows rows).map Prod.fst ++ unmeasuredRows rows).Perm rows := by
  induction rows with
  | nil => exact List.Perm.refl []
  | cons row rest ih =>
      cases h : comparableCount row with
      | some behind =>
          simp only [comparableRows, unmeasuredRows, List.filterMap_cons, List.filter_cons, h,
            Option.map_some, Option.isNone_some, Bool.false_eq_true, if_false, List.map_cons,
            List.cons_append]
          exact ih.cons row
      | none =>
          simp only [comparableRows, unmeasuredRows, List.filterMap_cons, List.filter_cons, h,
            Option.map_none, Option.isNone_none, if_true]
          exact List.perm_middle.trans (ih.cons row)

theorem deviceIds_perm (rows : List ScanRootRow) :
    (deviceIds rows).Perm (rows.map (·.deviceId)) :=
  List.mergeSort_perm _ _

@[simp] theorem deviceIds_nil : deviceIds [] = [] := by
  simp [deviceIds]

theorem mem_deviceIds {id : Uuid} : id ∈ deviceIds rows ↔ ∃ row ∈ rows, row.deviceId = id := by
  rw [(deviceIds_perm rows).mem_iff, List.mem_map]

theorem split_at_min {comparable : List (ScanRootRow × Nat)} {minBehind : Nat}
    (hmin : (comparable.map Prod.snd).min? = some minBehind) :
    ((comparable.filter fun p => p.2 == minBehind) ++
      comparable.filter fun p => decide (minBehind < p.2)).Perm comparable := by
  have hle := (List.min?_eq_some_iff.mp hmin).2
  have hsplit := List.filter_append_perm (fun p : ScanRootRow × Nat => p.2 == minBehind) comparable
  have hlag : (comparable.filter fun p => decide (minBehind < p.2)) =
      comparable.filter fun p => !(p.2 == minBehind) := by
    apply List.filter_congr
    intro p hp
    have hbehind := hle p.2 (List.mem_map_of_mem hp)
    rw [Bool.eq_iff_iff, decide_eq_true_eq, Bool.not_eq_true', beq_eq_false_iff_ne]
    omega
  rw [hlag]
  exact hsplit

theorem rollupSource_perm (sourceRepo : Option String) (rows : List ScanRootRow) :
    (rollupSource sourceRepo rows).deviceIds.Perm (rows.map (·.deviceId)) := by
  have hall := (comparable_perm rows).map (·.deviceId)
  rw [List.map_append] at hall
  refine List.Perm.trans ?_ hall
  unfold rollupSource Rollup.deviceIds
  dsimp only
  cases hmin : ((comparableRows rows).map Prod.snd).min? with
  | none =>
      have hnone : comparableRows rows = [] := by simpa using hmin
      rw [hnone]
      exact deviceIds_perm _
  | some minBehind =>
      apply List.Perm.append _ (deviceIds_perm _)
      cases orderedBy (comparableRows rows) with
      | true =>
          have hsplit := ((split_at_min hmin).map Prod.fst).map (·.deviceId)
          rw [List.map_append, List.map_append] at hsplit
          refine List.Perm.trans ?_ hsplit
          simp only [↓reduceIte, List.map_nil, deviceIds_nil, List.append_nil]
          exact (deviceIds_perm _).append (deviceIds_perm _)
      | false =>
          simp only [Bool.false_eq_true, ↓reduceIte, List.map_nil, deviceIds_nil, List.nil_append]
          exact deviceIds_perm _

end Comparison

/-! ### All the roll-ups -/

theorem rollupBySourceRepo_perm (rows : List ScanRootRow) :
    ((rollupBySourceRepo rows).flatMap Rollup.deviceIds).Perm (rows.map (·.deviceId)) := by
  have hkeys := List.mergeSort_perm (groupRows rows).keys sourceLe
  have hgroups := (DefaultDict.groupBy_perm rows hkeys).map (·.deviceId)
  refine List.Perm.trans ?_ hgroups
  rw [rollupBySourceRepo, List.flatMap_map, List.map_flatMap]
  apply List.Perm.flatMap_left
  intro key _
  exact rollupSource_perm key _

theorem rollupSource_sourceRepo (sourceRepo : Option String) (rows : List ScanRootRow) :
    (rollupSource sourceRepo rows).sourceRepo = sourceRepo := by
  unfold rollupSource
  dsimp only
  split <;> rfl

theorem rollupBySourceRepo_sources (rows : List ScanRootRow) :
    ((rollupBySourceRepo rows).map (·.sourceRepo)).Perm (groupRows rows).keys := by
  rw [rollupBySourceRepo, List.map_map]
  simp only [Function.comp_def, rollupSource_sourceRepo, List.map_id']
  exact List.mergeSort_perm _ _

end Qontinui.ScanRoots
