import Mathlib.Order.Basic
import Qontinui.Base.PyDecimal

/-!
The calendar of an estimate (business days, the breaks that remove some of them, and the
weeks and working days between two dates), and the rows that the rollup reads, with what
their tables require of them.
-/

namespace Qontinui.Overview

section Calendar

open PyDecimal

/-- A `date`, by its ordinal: `date.min` is 1, and `date.max` is 9999-12-31. -/
structure Date where
  ordinal : Int
  inRange : 1 ≤ ordinal ∧ ordinal ≤ 3652059
deriving DecidableEq, Repr

instance : LinearOrder Date :=
  LinearOrder.lift' Date.ordinal fun a b h => by
    cases a
    cases b
    cases h
    rfl

theorem Date.le_iff {a b : Date} : a ≤ b ↔ a.ordinal ≤ b.ordinal := Iff.rfl

theorem Date.lt_iff {a b : Date} : a < b ↔ a.ordinal < b.ordinal := Iff.rfl

/-- `weekday()`: Monday is 0. -/
def Date.weekday (d : Date) : Int := (d.ordinal + 6) % 7

/-- A holiday or shutdown. -/
structure CalendarBreak where
  id : String
  label : String
  startDate : Date
  endDate : Date
deriving DecidableEq, Repr

/-- `_business_days`. -/
def businessDays (start finish : Date) : Int :=
  if finish < start then 0
  else
    let days := finish.ordinal - start.ordinal + 1
    let weeks := days / 7
    let remainder := (days % 7).toNat
    let rest := (List.range remainder).countP fun offset => (start.weekday + offset) % 7 < 5
    weeks * 5 + rest

def spanLe (a b : Date × Date) : Bool := a.1 < b.1 || (a.1 == b.1 && a.2 ≤ b.2)

/-- The step of `_merged_break_spans` for one clipped break. -/
def mergeSpan (merged : List (Date × Date)) (span : Date × Date) : List (Date × Date) :=
  match merged.getLast? with
  | some (previousLo, previousHi) =>
      if span.1.ordinal - previousHi.ordinal ≤ 1 then
        merged.dropLast ++ [(previousLo, max previousHi span.2)]
      else merged ++ [span]
  | none => merged ++ [span]

/-- `_merged_break_spans`. -/
def mergedBreakSpans (start finish : Date) (breaks : List CalendarBreak) : List (Date × Date) :=
  let clipped := (breaks.filter fun brk =>
      max start brk.startDate ≤ min finish brk.endDate).map fun brk =>
        (max start brk.startDate, min finish brk.endDate)
  (clipped.mergeSort spanLe).foldl mergeSpan []

/-- `_break_business_days`. -/
def breakBusinessDays (start finish : Date) (breaks : List CalendarBreak) : Int :=
  if finish < start then 0
  else ((mergedBreakSpans start finish breaks).map fun span => businessDays span.1 span.2).sum

/-- `calendar_weeks`. -/
def calendarWeeks (start finish : Date) : Rat :=
  roundTo 2 (div (finish.ordinal - start.ordinal + 1 : Int) 7)

/-- `working_days`. -/
def workingDays (start finish : Date) (breaks : List CalendarBreak) (workingDayFactor : Rat) :
    Rat :=
  let gross := businessDays start finish - breakBusinessDays start finish breaks
  roundTo 2 (mul (max gross 0 : Int) workingDayFactor)

/-- `working_weeks`. -/
def workingWeeks (days : Rat) : Rat := roundTo 2 (div days 5)

end Calendar

abbrev Uuid := String

structure TaskEffort where
  roleId : Uuid
  plannedPersonDays : Rat
deriving DecidableEq, Repr

structure PhaseTask where
  number : String
  sortOrder : Int
  isCritical : Bool
  efforts : List TaskEffort
deriving DecidableEq, Repr

structure PhaseAllocation where
  roleId : Uuid
  fte : Rat
deriving DecidableEq, Repr

structure Phase where
  id : Uuid
  code : String
  name : String
  sortOrder : Int
  plannedStart : Option Date
  plannedEnd : Option Date
  actualStart : Option Date
  actualEnd : Option Date
  gateStatus : String
  gateCriteria : String
  statedWorkingWeeks : Option Rat
  tasks : List PhaseTask
  allocations : List PhaseAllocation
deriving DecidableEq, Repr

structure EstimateRole where
  id : Uuid
  code : String
  name : String
  responsibility : String
  dayRateMicros : Option Int
  currency : Option String
  clientSide : Bool
  sortOrder : Int
deriving DecidableEq, Repr

structure PriceTier where
  id : Uuid
  name : String
  multiplier : Rat
  isPrimary : Bool
  sortOrder : Int
deriving DecidableEq, Repr

structure CostLine where
  id : Uuid
  kind : String
  label : String
  basis : String
  lowMicros : Option Int
  highMicros : Option Int
  currency : Option String
  phaseId : Option Uuid
  runModel : Option String
  sortOrder : Int
deriving DecidableEq, Repr

structure Estimate where
  id : Uuid
  name : String
  purpose : String
  status : String
  isBaseline : Bool
  accuracyNote : Option String
  contingencyPct : Option Rat
  version : Int
  phases : List Phase
  roles : List EstimateRole
  priceTiers : List PriceTier
  costLines : List CostLine
  calendarBreaks : List CalendarBreak
deriving DecidableEq, Repr

structure OverviewSettings where
  baseCurrency : String
  labourBilling : String
  hoursPerDay : Rat
  workingDayFactor : Rat
deriving DecidableEq, Repr

end Qontinui.Overview
