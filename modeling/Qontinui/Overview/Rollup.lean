import Mathlib.Data.List.Dedup
import Qontinui.Base.Fields
import Qontinui.Overview.Estimate

/-!
`compute_rollup`: effort and fees are added up in one pass over the efforts, into the
totals of their phase, of their role and of the estimate; every other figure is read off
these totals, the dates, the allocations and the cost lines.
-/

namespace Qontinui.Overview

open PyDecimal

/-- A figure that the rollup could not produce, and why. -/
structure Unavailable where
  figure : String
  reason : String
  detail : String
deriving DecidableEq, Repr

/-- `dict.fromkeys(keys, value)`. -/
def fromKeys {κ β : Type} [DecidableEq κ] (keys : List κ) (value : β) : List (κ × β) :=
  keys.foldl (fun dict key => Fields.set key value dict) []

/-- `dict[key] += amount`, an absent key counting as 0. -/
def bump {κ β : Type} [DecidableEq κ] [BEq κ] [Add β] [Zero β] (key : κ) (amount : β)
    (dict : List (κ × β)) : List (κ × β) :=
  Fields.set key ((dict.lookup key).getD 0 + amount) dict

abbrev Fees := List (Option Uuid × Int)

/-! ### Price tiers -/

structure EffectiveTier where
  key : Option Uuid
  name : String
  multiplier : Rat
  isPrimary : Bool
deriving DecidableEq, Repr

/-- `_effective_tiers`: without tiers there is one price, the rates as entered. -/
def effectiveTiers (tiers : List PriceTier) : List EffectiveTier :=
  if tiers = [] then [⟨none, "As entered", 1, true⟩]
  else
    (tiers.mergeSort fun a b =>
      a.sortOrder < b.sortOrder || (a.sortOrder == b.sortOrder && a.name ≤ b.name)).map
      fun t => ⟨some t.id, t.name, t.multiplier, t.isPrimary⟩

/-- `_primary_tier_key`. -/
def primaryTierKey (tiers : List EffectiveTier) : Option Uuid :=
  match tiers.find? (·.isPrimary) with
  | some tier => tier.key
  | none => tiers.head?.bind (·.key)

/-- `str(k) if k else ""`. -/
def keyText (key : Option Uuid) : String := key.getD ""

/-! ### Roles -/

def sortedRoles (estimate : Estimate) : List EstimateRole :=
  estimate.roles.mergeSort fun a b =>
    a.sortOrder < b.sortOrder || (a.sortOrder == b.sortOrder && a.code ≤ b.code)

/-- `{r.id: r for r in roles}`. -/
def rolesById (roles : List EstimateRole) : List (Uuid × EstimateRole) :=
  roles.foldl (fun dict role => Fields.set role.id role dict) []

def pricedRoles (roles : List EstimateRole) : List EstimateRole :=
  roles.filter (·.dayRateMicros.isSome)

def labourCurrencies (roles : List EstimateRole) : List String :=
  ((pricedRoles roles).filterMap fun role => role.currency.filter (· ≠ "")).dedup

def labourCurrency (roles : List EstimateRole) : Option String :=
  match labourCurrencies roles with
  | [currency] => some currency
  | _ => none

/-- Money is only meaningful in one currency. -/
def canPrice (roles : List EstimateRole) : Bool := (labourCurrency roles).isSome

def labourUnavailable (roles : List EstimateRole) : List Unavailable :=
  let unpricedDelivery := roles.filter fun role => role.dayRateMicros.isNone && !role.clientSide
  (if 1 < (labourCurrencies roles).length then
    [{ figure := "labour_fees", reason := "mixed_currencies"
       detail := "Roles are priced in more than one currency (" ++
        ", ".intercalate ((labourCurrencies roles).mergeSort (· ≤ ·)) ++
        "). Converting between them needs the project's FX rates, which this page does " ++
        "not yet apply." }]
  else []) ++
  if unpricedDelivery ≠ [] ∧ pricedRoles roles ≠ [] then
    [{ figure := "labour_fees", reason := "role_has_no_rate"
       detail := "No day rate is set for " ++
        ", ".intercalate (unpricedDelivery.map fun role => role.code ++ " (" ++ role.name ++ ")") ++
        ", so their effort is counted but not priced." }]
  else []

/-! ### Effort and fees -/

structure RoleTotals where
  personDays : Rat := 0
  fees : Fees := []
deriving DecidableEq, Repr

/-- What one phase adds up to. -/
structure PhaseTotals where
  personDays : Rat
  fees : Fees
  roleDays : List (Uuid × Rat)
deriving DecidableEq, Repr

/-- The totals that the loop over the efforts of a phase writes to. -/
structure EffortTotals where
  phase : PhaseTotals
  roleTotals : List (Uuid × RoleTotals)
  orphanEffortRoleIds : List Uuid
deriving DecidableEq, Repr

/-- `role_totals[role.id]`, with the totals of the role changed. -/
def EffortTotals.updateRole (totals : EffortTotals) (id : Uuid)
    (update : RoleTotals → RoleTotals) : EffortTotals :=
  { totals with
    roleTotals :=
      Fields.set id (update ((totals.roleTotals.lookup id).getD {})) totals.roleTotals }

/-- `_micros(days * rate * multiplier)`. -/
def feeMicros (days : Rat) (rate : Int) (multiplier : Rat) : Except DecimalException Int :=
  quantize (mul (mul days rate) multiplier)

def tierStep (role : Uuid) (days : Rat) (rate : Int) (totals : EffortTotals)
    (tier : EffectiveTier) : Except DecimalException EffortTotals := do
  let fee ← feeMicros days rate tier.multiplier
  let totals := { totals with
    phase := { totals.phase with fees := bump tier.key fee totals.phase.fees } }
  return totals.updateRole role fun sums => { sums with fees := bump tier.key fee sums.fees }

def addDays (role : Uuid) (days : Rat) (totals : EffortTotals) : EffortTotals :=
  let totals := { totals with
    phase := { totals.phase with
      personDays := totals.phase.personDays + days
      roleDays := bump role days totals.phase.roleDays } }
  totals.updateRole role fun sums => { sums with personDays := sums.personDays + days }

def effortStep (roles : List EstimateRole) (tiers : List EffectiveTier) (totals : EffortTotals)
    (effort : TaskEffort) : Except DecimalException EffortTotals :=
  match (rolesById roles).lookup effort.roleId with
  | none =>
      -- a role of another estimate
      .ok { totals with
        orphanEffortRoleIds := totals.orphanEffortRoleIds.insert effort.roleId }
  | some role =>
      let days := effort.plannedPersonDays
      let totals := addDays role.id days totals
      match canPrice roles, role.dayRateMicros with
      | true, some rate => tiers.foldlM (tierStep role.id days rate) totals
      | _, _ => .ok totals

def sortedTasks (phase : Phase) : List PhaseTask :=
  phase.tasks.mergeSort fun a b =>
    a.sortOrder < b.sortOrder || (a.sortOrder == b.sortOrder && a.number ≤ b.number)

def taskStep (roles : List EstimateRole) (tiers : List EffectiveTier) (totals : EffortTotals)
    (task : PhaseTask) : Except DecimalException EffortTotals :=
  task.efforts.foldlM (effortStep roles tiers) totals

structure PhaseRow where
  id : Uuid
  code : String
  name : String
  sortOrder : Int
  plannedStart : Option Date
  plannedEnd : Option Date
  actualStart : Option Date
  actualEnd : Option Date
  gateStatus : String
  gateCriteria : String
  calendarWeeks : Option Rat
  workingDays : Option Rat
  workingWeeks : Option Rat
  statedWorkingWeeks : Option Rat
  workingWeeksMatchesStated : Option Bool
  personDays : Rat
  allocatedFte : Rat
  taskCount : Nat
  criticalTaskCount : Nat
  feesMicros : Option (List (String × Int))
  roles : List (Uuid × Rat)
deriving DecidableEq, Repr

structure AllocationRow where
  phaseId : Uuid
  phaseCode : String
  roleId : Uuid
  roleCode : String
  fte : Rat
deriving DecidableEq, Repr

def sortedBreaks (estimate : Estimate) : List CalendarBreak :=
  estimate.calendarBreaks.mergeSort fun a b => a.startDate ≤ b.startDate

def phaseRow (estimate : Estimate) (settings : OverviewSettings) (roles : List EstimateRole)
    (phase : Phase) (totals : PhaseTotals) : PhaseRow :=
  let derivedDays := do
    workingDays (← phase.plannedStart) (← phase.plannedEnd) (sortedBreaks estimate)
      settings.workingDayFactor
  let derivedWeeks := derivedDays.map workingWeeks
  { id := phase.id
    code := phase.code
    name := phase.name
    sortOrder := phase.sortOrder
    plannedStart := phase.plannedStart
    plannedEnd := phase.plannedEnd
    actualStart := phase.actualStart
    actualEnd := phase.actualEnd
    gateStatus := phase.gateStatus
    gateCriteria := phase.gateCriteria
    calendarWeeks := do calendarWeeks (← phase.plannedStart) (← phase.plannedEnd)
    workingDays := derivedDays
    workingWeeks := derivedWeeks
    statedWorkingWeeks := phase.statedWorkingWeeks
    workingWeeksMatchesStated := do
      return roundTo 2 (← phase.statedWorkingWeeks) == (← derivedWeeks)
    personDays := roundTo 2 totals.personDays
    allocatedFte := roundTo 3 (phase.allocations.map (·.fte)).sum
    taskCount := phase.tasks.length
    criticalTaskCount := phase.tasks.countP (·.isCritical)
    feesMicros :=
      if canPrice roles then some (totals.fees.map fun fee => (keyText fee.1, fee.2)) else none
    roles :=
      (totals.roleDays.mergeSort fun a b =>
        (((rolesById roles).lookup a.1).map (·.sortOrder)).getD 0 ≤
          (((rolesById roles).lookup b.1).map (·.sortOrder)).getD 0).map
        fun days => (days.1, roundTo 2 days.2) }

def allocationRows (roles : List EstimateRole) (phase : Phase) : List AllocationRow :=
  phase.allocations.filterMap fun allocation =>
    ((rolesById roles).lookup allocation.roleId).map fun role =>
      { phaseId := phase.id, phaseCode := phase.code, roleId := role.id, roleCode := role.code
        fte := roundTo 3 allocation.fte }

/-- The totals that the loop over the phases writes to. -/
structure Totals where
  roleTotals : List (Uuid × RoleTotals)
  estimateFees : Fees
  totalPersonDays : Rat
  orphanEffortRoleIds : List Uuid
  /-- Every phase so far, with what it adds up to. -/
  phases : List (Phase × PhaseTotals)
deriving DecidableEq, Repr

def phaseStep (roles : List EstimateRole) (tiers : List EffectiveTier) (totals : Totals)
    (phase : Phase) : Except DecimalException Totals := do
  let tierKeys := tiers.map (·.key)
  let after ← (sortedTasks phase).foldlM (taskStep roles tiers)
    { phase := { personDays := 0, fees := fromKeys tierKeys 0, roleDays := [] }
      roleTotals := totals.roleTotals
      orphanEffortRoleIds := totals.orphanEffortRoleIds }
  return {
    roleTotals := after.roleTotals
    estimateFees := tierKeys.foldl
      (fun fees key => bump key ((after.phase.fees.lookup key).getD 0) fees) totals.estimateFees
    totalPersonDays := totals.totalPersonDays + after.phase.personDays
    orphanEffortRoleIds := after.orphanEffortRoleIds
    phases := totals.phases ++ [(phase, after.phase)] }

def sortedPhases (estimate : Estimate) : List Phase :=
  estimate.phases.mergeSort fun a b =>
    a.sortOrder < b.sortOrder || (a.sortOrder == b.sortOrder && a.code ≤ b.code)

/-- The loop over the phases: effort and fees from the one source of person-days. -/
def effortTotals (estimate : Estimate) : Except DecimalException Totals :=
  let roles := sortedRoles estimate
  let tiers := effectiveTiers estimate.priceTiers
  (sortedPhases estimate).foldlM (phaseStep roles tiers)
    { roleTotals := fromKeys (roles.map (·.id)) {}
      estimateFees := fromKeys (tiers.map (·.key)) 0
      totalPersonDays := 0
      orphanEffortRoleIds := []
      phases := [] }

def effortUnavailable (totals : Totals) : List Unavailable :=
  if totals.orphanEffortRoleIds = [] then []
  else
    [{ figure := "effort", reason := "effort_role_outside_estimate"
       detail := toString totals.orphanEffortRoleIds.length ++
        " effort row(s) name a role that is not part of this estimate. Their days are not " ++
        "counted." }]

/-! ### Schedule and team -/

structure Schedule where
  plannedStart : Option Date
  plannedEnd : Option Date
  calendarWeeks : Option Rat
  workingDays : Option Rat
  workingWeeks : Option Rat
deriving DecidableEq, Repr

def schedule (estimate : Estimate) (settings : OverviewSettings) : Schedule :=
  let plannedStart := (estimate.phases.filterMap (·.plannedStart)).min?
  let plannedEnd := (estimate.phases.filterMap (·.plannedEnd)).max?
  let days := do
    workingDays (← plannedStart) (← plannedEnd) (sortedBreaks estimate) settings.workingDayFactor
  { plannedStart, plannedEnd
    calendarWeeks := do calendarWeeks (← plannedStart) (← plannedEnd)
    workingDays := days
    workingWeeks := days.map workingWeeks }

def scheduleUnavailable (estimate : Estimate) (schedule : Schedule) : List Unavailable :=
  if schedule.plannedStart.isSome ∧ schedule.plannedEnd.isSome then []
  else if estimate.phases ≠ [] then
    [{ figure := "schedule", reason := "phase_dates_missing"
       detail := "No phase carries both a planned start and a planned end." }]
  else
    [{ figure := "schedule", reason := "no_phases"
       detail := "This estimate has no phases yet." }]

structure Team where
  averageFte : Option Rat
  peakFte : Option Rat
  peakPhaseCode : Option String
deriving DecidableEq, Repr

def peakRow : List PhaseRow → Option PhaseRow
  | [] => none
  | row :: rest =>
      some (rest.foldl (fun best next => if best.allocatedFte < next.allocatedFte then next else best)
        row)

/-- The durations of the allocated phases, by which their size is weighted. -/
def weighted (rows : List PhaseRow) : List (Rat × Rat) :=
  rows.filterMap fun row =>
    (row.workingDays.filter (· ≠ 0)).map fun days => (row.allocatedFte, days)

def averageFte (rows : List PhaseRow) : Option Rat :=
  let weightTotal := ((weighted rows).map Prod.snd).sum
  if 0 < weightTotal then
    some (roundTo 3 (div ((weighted rows).map fun (fte, days) => mul fte days).sum weightTotal))
  else none

def team (phaseRows : List PhaseRow) : Team :=
  let allocated := phaseRows.filter fun row => 0 < row.allocatedFte
  { averageFte := averageFte allocated
    peakFte := (peakRow allocated).map (·.allocatedFte)
    peakPhaseCode := (peakRow allocated).map (·.code) }

def teamUnavailable (phaseRows : List PhaseRow) : List Unavailable :=
  let allocated := phaseRows.filter fun row => 0 < row.allocatedFte
  if allocated = [] then
    [{ figure := "team_size", reason := "no_allocations"
       detail := "No phase × role allocation has been entered, so team size is not known. It " ++
        "is not the same as a team of none." }]
  else if averageFte allocated = none then
    [{ figure := "average_fte", reason := "phase_durations_missing"
       detail := "Average team size is weighted by how long each phase runs, and no " ++
        "allocated phase has both a planned start and end." }]
  else []

/-! ### Cost lines -/

/-- A set of cost lines totalled, or the reason they could not be. -/
structure Band where
  low : Option Int
  high : Option Int
  currency : Option String
  mixed : Bool
  unpricedLines : Bool
deriving DecidableEq, Repr

/-- `_sum_band`. -/
def sumBand (lines : List CostLine) : Band :=
  let amounts := lines.filter fun line => line.lowMicros.isSome || line.highMicros.isSome
  if amounts = [] then ⟨none, none, none, false, false⟩
  else
    let currencies := (amounts.filterMap fun line => line.currency.filter (· ≠ "")).dedup
    if 1 < currencies.length then ⟨none, none, none, true, false⟩
    else if amounts.any (·.lowMicros.isNone) then ⟨none, none, currencies.head?, false, true⟩
    else
      ⟨some (amounts.map fun line => line.lowMicros.getD 0).sum,
        some (amounts.map fun line => line.highMicros.getD (line.lowMicros.getD 0)).sum,
        currencies.head?, false, false⟩

def sortedCostLines (estimate : Estimate) : List CostLine :=
  estimate.costLines.mergeSort fun a b =>
    a.kind < b.kind || (a.kind == b.kind && (a.sortOrder < b.sortOrder ||
      (a.sortOrder == b.sortOrder && a.label ≤ b.label)))

def buildLines (estimate : Estimate) : List CostLine :=
  (sortedCostLines estimate).filter (·.kind == "build_non_labour")

def runLines (estimate : Estimate) : List CostLine :=
  (sortedCostLines estimate).filter (·.kind == "run_annual")

def buildUnavailable (build : Band) : List Unavailable :=
  if build.mixed then
    [{ figure := "build_non_labour", reason := "mixed_currencies"
       detail := "Non-labour build items are priced in more than one currency, so they have " ++
        "no single total here." }]
  else if build.unpricedLines then
    [{ figure := "build_non_labour", reason := "cost_line_without_a_low_amount"
       detail := "A non-labour build item carries only an upper figure, so these items have " ++
        "no total. Each one is listed on its own." }]
  else []

/-! ### Totals by tier -/

/-- A grand total is only honest when every part of it is in it. -/
def totalsCurrency (roles : List EstimateRole) (build : Band) : Option String :=
  if build.mixed || build.unpricedLines then none
  else if build.low.isSome ∧ build.currency ≠ labourCurrency roles then none
  else labourCurrency roles

def totalsUnavailable (roles : List EstimateRole) (build : Band) : List Unavailable :=
  match labourCurrency roles with
  | some currency =>
      if build.mixed then
        [{ figure := "grand_total", reason := "mixed_currencies"
           detail := "The non-labour build items are priced in more than one currency, so " ++
            "there is no total to add them to the labour fees in." }]
      else if build.unpricedLines then
        [{ figure := "grand_total", reason := "cost_line_without_a_low_amount"
           detail := "Some non-labour build items carry only an upper figure, so they have no " ++
            "lower bound to add into a total. They are listed on their own instead." }]
      else if build.low.isSome ∧ build.currency ≠ some currency then
        [{ figure := "grand_total", reason := "mixed_currencies"
           detail := "Labour is priced in " ++ currency ++ " and the non-labour build items in " ++
            build.currency.getD "another currency" ++
            ", so they have no combined total until FX rates are applied." }]
      else []
  | none =>
      if pricedRoles roles = [] ∧ roles ≠ [] then
        [{ figure := "labour_fees", reason := "estimate_has_no_priced_role"
           detail := "No role in this estimate has a day rate, so the work has not been priced." }]
      else if roles = [] then
        [{ figure := "labour_fees", reason := "estimate_has_no_roles"
           detail := "This estimate names no roles yet, so there is nothing to price the work " ++
            "with." }]
      else []

structure TierRow where
  id : Option Uuid
  name : String
  multiplier : Rat
  isPrimary : Bool
  labourMicros : Option Int
  contingencyMicros : Option Int
  totalLowMicros : Option Int
  totalHighMicros : Option Int
deriving DecidableEq, Repr

/-- `_micros(Decimal(labour) * contingency_pct / Decimal(100))`, where both are known. -/
def contingencyMicros : Option Int → Option Rat → Except DecimalException (Option Int)
  | some labour, some contingencyPct => some <$> quantize (div (mul labour contingencyPct) 100)
  | _, _ => .ok none

/-- The row of one tier, given its labour fees when labour can be priced. -/
def tierRow (contingencyPct : Option Rat) (totalsCurrency : Option String) (build : Band)
    (labour : Option Int) (tier : EffectiveTier) : Except DecimalException TierRow := do
  let contingency ← contingencyMicros labour contingencyPct
  let base := if totalsCurrency.isSome then labour.map (· + contingency.getD 0) else none
  return {
    id := tier.key
    name := tier.name
    multiplier := tier.multiplier
    isPrimary := tier.isPrimary
    labourMicros := labour
    contingencyMicros := contingency
    totalLowMicros := base.map (· + build.low.getD 0)
    totalHighMicros := base.map (· + build.high.getD (build.low.getD 0)) }

/-! ### Roles, with their share of the whole -/

structure RoleRow where
  id : Uuid
  code : String
  name : String
  responsibility : String
  dayRateMicros : Option Int
  currency : Option String
  clientSide : Bool
  sortOrder : Int
  personDays : Rat
  personDaysSharePct : Option Rat
  feeMicros : Option Int
  feeSharePct : Option Rat
  feesMicros : Option (List (String × Int))
deriving DecidableEq, Repr

def Totals.ofRole (totals : Totals) (role : EstimateRole) : RoleTotals :=
  (totals.roleTotals.lookup role.id).getD {}

def roleRow (roles : List EstimateRole) (tiers : List EffectiveTier) (totals : Totals)
    (role : EstimateRole) : RoleRow :=
  let sums := totals.ofRole role
  let primaryKey := primaryTierKey tiers
  let primaryFee := if canPrice roles then sums.fees.lookup primaryKey else none
  let primaryFeeTotal :=
    if canPrice roles then (totals.estimateFees.lookup primaryKey).getD 0 else 0
  { id := role.id
    code := role.code
    name := role.name
    responsibility := role.responsibility
    dayRateMicros := role.dayRateMicros
    currency := role.currency
    clientSide := role.clientSide
    sortOrder := role.sortOrder
    personDays := roundTo 2 sums.personDays
    personDaysSharePct :=
      if 0 < totals.totalPersonDays then
        some (roundTo 2 (div (mul sums.personDays 100) totals.totalPersonDays))
      else none
    feeMicros := primaryFee
    feeSharePct :=
      if 0 < primaryFeeTotal then
        primaryFee.map fun fee => roundTo 2 (div (mul fee 100) primaryFeeTotal)
      else none
    feesMicros :=
      if canPrice roles && role.dayRateMicros.isSome then
        some (tiers.map fun tier => (keyText tier.key, (sums.fees.lookup tier.key).getD 0))
      else none }

/-! ### The rollup -/

structure CostLineRow where
  id : Uuid
  kind : String
  label : String
  basis : String
  lowMicros : Option Int
  highMicros : Option Int
  currency : Option String
  phaseId : Option Uuid
  runModel : Option String
deriving DecidableEq, Repr

/-- `_cost_line_row`. -/
def costLineRow (line : CostLine) : CostLineRow :=
  { id := line.id, kind := line.kind, label := line.label, basis := line.basis
    lowMicros := line.lowMicros, highMicros := line.highMicros, currency := line.currency
    phaseId := line.phaseId, runModel := line.runModel }

structure Effort where
  totalPersonDays : Rat
  deliveryPersonDays : Rat
  clientSidePersonDays : Rat
deriving DecidableEq, Repr

structure Money where
  currency : Option String
  totalsCurrency : Option String
  contingencyPct : Option Rat
  contingencyBasis : String
  primaryTierId : Option Uuid
  tiers : List TierRow
  buildLowMicros : Option Int
  buildHighMicros : Option Int
  buildCurrency : Option String
  buildLines : List CostLineRow
  runLines : List CostLineRow
deriving DecidableEq, Repr

structure RollupResult where
  estimateId : Uuid
  name : String
  purpose : String
  status : String
  isBaseline : Bool
  accuracyNote : Option String
  version : Int
  /-- Microseconds since the epoch. -/
  generatedAt : Int
  settings : OverviewSettings
  schedule : Schedule
  effort : Effort
  team : Team
  money : Money
  phases : List PhaseRow
  roles : List RoleRow
  allocations : List AllocationRow
  calendarBreaks : List CalendarBreak
  unavailable : List Unavailable
deriving DecidableEq, Repr

/-- `compute_rollup`. -/
def computeRollup (estimate : Estimate) (settings : OverviewSettings) (generatedAt : Int) :
    Except DecimalException RollupResult := do
  let roles := sortedRoles estimate
  let tiers := effectiveTiers estimate.priceTiers
  let totals ← effortTotals estimate
  let phaseRows := totals.phases.map fun (phase, sums) =>
    phaseRow estimate settings roles phase sums
  let build := sumBand (buildLines estimate)
  let tierRows ← tiers.mapM fun tier =>
    tierRow estimate.contingencyPct (totalsCurrency roles build) build
      (if canPrice roles then some ((totals.estimateFees.lookup tier.key).getD 0) else none) tier
  let daysOf := fun (some : List EstimateRole) =>
    roundTo 2 (some.map fun role => (totals.ofRole role).personDays).sum
  return {
    estimateId := estimate.id
    name := estimate.name
    purpose := estimate.purpose
    status := estimate.status
    isBaseline := estimate.isBaseline
    accuracyNote := estimate.accuracyNote
    version := estimate.version
    generatedAt
    settings := { settings with hoursPerDay := roundTo 2 settings.hoursPerDay }
    schedule := schedule estimate settings
    effort :=
      { totalPersonDays := roundTo 2 totals.totalPersonDays
        deliveryPersonDays := daysOf (roles.filter (!·.clientSide))
        clientSidePersonDays := daysOf (roles.filter (·.clientSide)) }
    team := team phaseRows
    money :=
      { currency := labourCurrency roles
        totalsCurrency := totalsCurrency roles build
        contingencyPct := estimate.contingencyPct
        contingencyBasis := "labour_fees"
        primaryTierId := primaryTierKey tiers
        tiers := tierRows
        buildLowMicros := build.low
        buildHighMicros := build.high
        buildCurrency := build.currency
        buildLines := (buildLines estimate).map costLineRow
        runLines := (runLines estimate).map costLineRow }
    phases := phaseRows
    roles := roles.map (roleRow roles tiers totals)
    allocations := (sortedPhases estimate).flatMap (allocationRows roles)
    calendarBreaks := sortedBreaks estimate
    unavailable :=
      labourUnavailable roles ++ effortUnavailable totals ++
        scheduleUnavailable estimate (schedule estimate settings) ++
        teamUnavailable phaseRows ++ buildUnavailable build ++ totalsUnavailable roles build }

end Qontinui.Overview
