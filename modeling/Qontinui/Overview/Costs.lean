import Mathlib.Tactic.NormNum
import Qontinui.Base.DefaultDict
import Qontinui.Overview.Estimate

/-!
The arithmetic of the Costs page: when a recurring cost falls due, and what the project
has spent in each currency.
-/

namespace Qontinui.Overview.Costs

/-! ### Days -/

/-- `calendar.monthrange(year, month)[1]`. -/
def monthLength (year month : Nat) : Nat :=
  if month = 2 then
    if year % 4 = 0 ∧ (year % 100 ≠ 0 ∨ year % 400 = 0) then 29 else 28
  else if month = 4 ∨ month = 6 ∨ month = 9 ∨ month = 11 then 30
  else 31

theorem monthLength_bounds (year month : Nat) :
    28 ≤ monthLength year month ∧ monthLength year month ≤ 31 := by
  unfold monthLength
  split_ifs <;> omega

/-- A `date`. -/
structure Day where
  year : Nat
  month : Nat
  day : Nat
  yearInRange : 1 ≤ year ∧ year ≤ 9999
  monthInRange : 1 ≤ month ∧ month ≤ 12
  dayInRange : 1 ≤ day ∧ day ≤ monthLength year month
deriving DecidableEq, Repr

/-- A number that orders dates by year, month and day. -/
def Day.rank (d : Day) : Nat := (12 * d.year + d.month) * 32 + d.day

theorem Day.rank_injective : Function.Injective Day.rank := by
  rintro ⟨y, m, d, hy, hm, hd⟩ ⟨y', m', d', hy', hm', hd'⟩ h
  have hlast := monthLength_bounds y m
  have hlast' := monthLength_bounds y' m'
  simp only [rank] at h
  obtain ⟨rfl, rfl, rfl⟩ : y = y' ∧ m = m' ∧ d = d' := by omega
  rfl

instance : LinearOrder Day := LinearOrder.lift' Day.rank Day.rank_injective

theorem Day.lt_iff {a b : Day} : a < b ↔ a.rank < b.rank := Iff.rfl

/-- `_month`: `day.replace(day=1)`. -/
def monthOf (d : Day) : Day :=
  { d with day := 1, dayInRange := ⟨le_rfl, le_trans (by norm_num) (monthLength_bounds _ _).1⟩ }

/-- `add_months`; `none` is the `ValueError` of a year past 9999. -/
def addMonths (start : Day) (months : Nat) : Option Day :=
  let index := start.month - 1 + months
  let year := start.year + index / 12
  let month := index % 12 + 1
  if h : year ≤ 9999 then
    some
      { year
        month
        day := min start.day (monthLength year month)
        yearInRange := ⟨le_trans start.yearInRange.1 (Nat.le_add_right _ _), h⟩
        monthInRange := by omega
        dayInRange := by
          have hlast := monthLength_bounds year month
          have hday := start.dayInRange
          omega }
  else none

/-- `ProjectDate`: `EARLIEST_DATE` is 1970-01-01 and `LATEST_DATE` is 2200-12-31. -/
structure ProjectDate where
  date : Day
  inRange : 1970 ≤ date.year ∧ date.year ≤ 2200
deriving DecidableEq, Repr

/-! ### Records -/

inductive Cadence
  | monthly
  | quarterly
  | annual
deriving DecidableEq, Repr

/-- `CADENCE_MONTHS`. -/
def Cadence.months : Cadence → Nat
  | .monthly => 1
  | .quarterly => 3
  | .annual => 12

inductive AmountKind
  | fixed
  | variable
deriving DecidableEq, Repr

/-- A schedule. Its amount is the charge of a period only where the kind is fixed. -/
structure RecurringCost where
  id : Uuid
  categoryId : Option Uuid
  cadence : Cadence
  amountKind : AmountKind
  amountMicros : Option Int
  currency : String
  startDate : ProjectDate
  endDate : Option ProjectDate
deriving DecidableEq, Repr

/-- Money spent: a purchase, or one period of a recurring cost. -/
structure CostEntry where
  id : Uuid
  incurredOn : Day
  categoryId : Option Uuid
  amountMicros : Int
  currency : String
  expectsDelivery : Bool
  receivedOn : Option Day
  recurringCostId : Option Uuid
  periodStart : Option Day
deriving DecidableEq, Repr

/-! ### Due dates -/

/-- `MAX_PERIODS`. -/
def maxPeriods : Nat := 2400

/-- The rest of the loop of `due_dates`, from period `n` on. -/
def dueFrom (start last : Day) (step : Nat) : Nat → Nat → Option (List Day)
  | 0, _ => some []
  | count + 1, n => do
      let due ← addMonths start (step * n)
      if last < due then some []
      else
        let later ← dueFrom start last step count (n + 1)
        return due :: later

/-- `due_dates`. -/
def dueDates (startDate : Day) (endDate : Option Day) (cadence : Cadence) (until' : Day) :
    Option (List Day) :=
  let last := match endDate with
    | none => until'
    | some e => min e until'
  dueFrom startDate last cadence.months maxPeriods 0

/-- The due dates of a recurring cost up to `today`. -/
def RecurringCost.dueDates (cost : RecurringCost) (today : Day) : Option (List Day) :=
  Costs.dueDates cost.startDate.date (cost.endDate.map (·.date)) cost.cadence today

/-! ### The summary -/

/-- `_Totals`. -/
structure Totals where
  spent : Int := 0
  scheduled : Int := 0
  thisMonth : Int := 0
  awaitingDelivery : Int := 0
deriving DecidableEq, Repr

instance : Inhabited Totals := ⟨{}⟩

/-- `_MonthCell`. -/
structure MonthCell where
  recorded : Int := 0
  scheduled : Int := 0
deriving DecidableEq, Repr

instance : Inhabited MonthCell := ⟨{}⟩

/-- The key of a cell: its month, category and currency. -/
structure CellKey where
  month : Day
  categoryId : Option Uuid
  currency : String
deriving DecidableEq, Repr

inductive PeriodState
  | recorded
  | scheduled
  | awaitingAmount
deriving DecidableEq, Repr

structure Period where
  recurringCostId : Uuid
  periodStart : Day
  state : PeriodState
  entryId : Option Uuid
  amountMicros : Option Int
  currency : String
deriving DecidableEq, Repr

/-- The two dictionaries that the loops fill. -/
structure Books where
  totals : DefaultDict String Totals
  months : DefaultDict CellKey MonthCell

def Books.empty : Books := ⟨.empty, .empty⟩

def CostEntry.cellKey (entry : CostEntry) : CellKey :=
  ⟨monthOf entry.incurredOn, entry.categoryId, entry.currency⟩

def CostEntry.awaitsDelivery (entry : CostEntry) : Bool :=
  entry.expectsDelivery && entry.receivedOn.isNone

def Totals.enter (today : Day) (entry : CostEntry) (t : Totals) : Totals :=
  { t with
    spent := t.spent + entry.amountMicros
    thisMonth :=
      if monthOf entry.incurredOn = monthOf today then t.thisMonth + entry.amountMicros
      else t.thisMonth
    awaitingDelivery :=
      if entry.awaitsDelivery then t.awaitingDelivery + entry.amountMicros
      else t.awaitingDelivery }

/-- The loop over the entries, for one of them. -/
def enter (today : Day) (books : Books) (entry : CostEntry) : Books where
  totals := books.totals.update entry.currency (Totals.enter today entry)
  months := books.months.update entry.cellKey fun cell =>
    { cell with recorded := cell.recorded + entry.amountMicros }

structure PeriodKey where
  recurringCostId : Uuid
  periodStart : Option Day
deriving DecidableEq, Repr

/-- The step of the dictionary `recorded`. -/
def record (dict : List (PeriodKey × CostEntry)) (entry : CostEntry) :
    List (PeriodKey × CostEntry) :=
  match entry.recurringCostId with
  | some costId => Fields.set ⟨costId, entry.periodStart⟩ entry dict
  | none => dict

/-- The dictionary `recorded`; where two entries name one period the later one stays. -/
def recordedEntries (entries : List CostEntry) : List (PeriodKey × CostEntry) :=
  entries.foldl record []

def recordFor (entries : List CostEntry) (cost : RecurringCost) (due : Day) : Option CostEntry :=
  (recordedEntries entries).lookup ⟨cost.id, some due⟩

/-- The amount of a period that no entry records, where it is known. -/
def RecurringCost.charge (cost : RecurringCost) : Option Int :=
  match cost.amountKind with
  | .fixed => cost.amountMicros
  | .variable => none

def RecurringCost.cellKey (cost : RecurringCost) (due : Day) : CellKey :=
  ⟨monthOf due, cost.categoryId, cost.currency⟩

def Totals.schedule (today due : Day) (amount : Int) (t : Totals) : Totals :=
  { t with
    spent := t.spent + amount
    scheduled := t.scheduled + amount
    thisMonth := if monthOf due = monthOf today then t.thisMonth + amount else t.thisMonth }

def schedule (today : Day) (books : Books) (cost : RecurringCost) (due : Day) (amount : Int) :
    Books where
  totals := books.totals.update cost.currency (Totals.schedule today due amount)
  months := books.months.update (cost.cellKey due) fun cell =>
    { cell with scheduled := cell.scheduled + amount }

/-- What the loop over the recurring costs fills. -/
structure Run where
  books : Books
  periods : List Period
  awaitingAmount : Nat

/-- The loop over the due dates of a cost, for one of them. -/
def fallDue (entries : List CostEntry) (today : Day) (cost : RecurringCost) (run : Run)
    (due : Day) : Run :=
  match recordFor entries cost due with
  | some record =>
      { run with
        periods := run.periods ++
          [⟨cost.id, due, .recorded, some record.id, some record.amountMicros,
            record.currency⟩] }
  | none =>
      match cost.charge with
      | some amount =>
          { run with
            books := schedule today run.books cost due amount
            periods := run.periods ++
              [⟨cost.id, due, .scheduled, none, some amount, cost.currency⟩] }
      | none =>
          { run with
            awaitingAmount := run.awaitingAmount + 1
            periods := run.periods ++
              [⟨cost.id, due, .awaitingAmount, none, none, cost.currency⟩] }

/-- The loop over the recurring costs, for one of them. -/
def runCost (entries : List CostEntry) (today : Day) (run : Run) (cost : RecurringCost) :
    Option Run := do
  let dates ← cost.dueDates today
  return dates.foldl (fallDue entries today cost) run

structure CurrencyRow where
  currency : String
  spentToDateMicros : Int
  scheduledMicros : Int
  thisMonthMicros : Int
  awaitingDeliveryMicros : Int
deriving DecidableEq, Repr

structure MonthRow where
  month : Day
  categoryId : Option Uuid
  currency : String
  recordedMicros : Int
  scheduledMicros : Int
deriving DecidableEq, Repr

def currencyRow (item : String × Totals) : CurrencyRow :=
  ⟨item.1, item.2.spent, item.2.scheduled, item.2.thisMonth, item.2.awaitingDelivery⟩

def monthRow (item : CellKey × MonthCell) : MonthRow :=
  ⟨item.1.month, item.1.categoryId, item.1.currency, item.2.recorded, item.2.scheduled⟩

structure CostSummary where
  today : Day
  baseCurrency : String
  currencies : List CurrencyRow
  months : List MonthRow
  periods : List Period
  awaitingDeliveryCount : Nat
  awaitingAmountCount : Nat
deriving DecidableEq, Repr

/-- The order of the periods: the latest first, the ids of one day descending. -/
def periodLe (p q : Period) : Bool :=
  q.periodStart < p.periodStart ||
    (q.periodStart == p.periodStart && decide (q.recurringCostId ≤ p.recurringCostId))

def currencyLe (base : String) (a b : String × Totals) : Bool :=
  (a.1 == base && b.1 != base) || ((a.1 == base) == (b.1 == base) && decide (a.1 ≤ b.1))

/-- `str(category_id)`. -/
def categoryText (categoryId : Option Uuid) : String := categoryId.getD "None"

def cellLe (a b : CellKey × MonthCell) : Bool :=
  b.1.month < a.1.month || (b.1.month == a.1.month &&
    (categoryText b.1.categoryId < categoryText a.1.categoryId ||
      (categoryText b.1.categoryId == categoryText a.1.categoryId &&
        decide (b.1.currency ≤ a.1.currency))))

/-- `summarize`; `none` where a due date lies past the last `date`. -/
def summarize (entries : List CostEntry) (recurring : List RecurringCost) (today : Day)
    (baseCurrency : String) : Option CostSummary := do
  let entered := entries.foldl (enter today) .empty
  let run ← recurring.foldlM (runCost entries today) ⟨entered, [], 0⟩
  return {
    today
    baseCurrency
    currencies := (run.books.totals.items.mergeSort (currencyLe baseCurrency)).map currencyRow
    months := (run.books.months.items.mergeSort cellLe).map monthRow
    periods := run.periods.mergeSort periodLe
    awaitingDeliveryCount := entries.countP (·.awaitsDelivery)
    awaitingAmountCount := run.awaitingAmount }

end Qontinui.Overview.Costs
