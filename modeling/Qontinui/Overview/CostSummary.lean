import Qontinui.Overview.CostTotals

/-!
The summary of the Costs page: its figures are conserved, and every due date of every cost
is accounted for once.
-/

namespace Qontinui.Overview.Costs

def cellsOf (currency : String) (summary : CostSummary) : List MonthRow :=
  summary.months.filter fun cell => cell.currency == currency

/-- Every figure of the summary is a sum over the entries and the scheduled periods. -/
structure AddsUp (entries : List CostEntry) (recurring : List RecurringCost) (today : Day)
    (summary : CostSummary) : Prop where
  oneRow : (summary.currencies.map (·.currency)).Nodup
  hasRow : ∀ currency, currency ∈ summary.currencies.map (·.currency) ↔
    (∃ entry ∈ entries, entry.currency = currency) ∨
      ∃ p ∈ summary.periods, p.state = .scheduled ∧ p.currency = currency
  spent : ∀ row ∈ summary.currencies, row.spentToDateMicros =
    enteredWhere (fun entry => entry.currency == row.currency) entries +
      scheduledWhere (fun p => p.currency == row.currency) summary.periods
  spentByCells : ∀ row ∈ summary.currencies, row.spentToDateMicros =
    ((cellsOf row.currency summary).map fun cell =>
      cell.recordedMicros + cell.scheduledMicros).sum
  scheduled : ∀ row ∈ summary.currencies, row.scheduledMicros =
    scheduledWhere (fun p => p.currency == row.currency) summary.periods
  thisMonth : ∀ row ∈ summary.currencies, row.thisMonthMicros =
    enteredWhere (fun entry =>
      entry.currency == row.currency && monthOf entry.incurredOn == monthOf today) entries +
    scheduledWhere (fun p =>
      p.currency == row.currency && monthOf p.periodStart == monthOf today) summary.periods
  awaitingDelivery : ∀ row ∈ summary.currencies, row.awaitingDeliveryMicros =
    enteredWhere (fun entry => entry.currency == row.currency && entry.awaitsDelivery) entries
  oneCell : (summary.months.map fun cell =>
    CellKey.mk cell.month cell.categoryId cell.currency).Nodup
  cellHasRow : ∀ cell ∈ summary.months, cell.currency ∈ summary.currencies.map (·.currency)
  cellRecorded : ∀ cell ∈ summary.months, cell.recordedMicros =
    enteredWhere (fun entry => entry.cellKey == ⟨cell.month, cell.categoryId, cell.currency⟩)
      entries
  cellScheduled : ∀ cell ∈ summary.months, cell.scheduledMicros =
    scheduledWhere (chargesCell recurring ⟨cell.month, cell.categoryId, cell.currency⟩)
      summary.periods

/-- Every due date has one period, and only an awaited amount is left out of it. -/
structure PeriodsCover (entries : List CostEntry) (recurring : List RecurringCost) (today : Day)
    (summary : CostSummary) : Prop where
  oncePerDue : ∀ cost ∈ recurring, ∀ dates, cost.dueDates today = some dates →
    ∀ due ∈ dates, (periodsAt cost due summary.periods).length = 1
  onlyDue : ∀ p ∈ summary.periods, ∃ cost ∈ recurring, cost.id = p.recurringCostId ∧
    ∃ dates, cost.dueDates today = some dates ∧ p.periodStart ∈ dates
  recordedIff : ∀ p ∈ summary.periods, p.state = .recorded ↔
    ∃ entry ∈ entries, entry.recurringCostId = some p.recurringCostId ∧
      entry.periodStart = some p.periodStart
  amountIff : ∀ p ∈ summary.periods, p.amountMicros = none ↔ p.state = .awaitingAmount

section Summary

variable {entries : List CostEntry} {recurring : List RecurringCost} {today : Day}
  {base : String} {summary : CostSummary}

/-- `summarize` sorts and shows what the loops have filled. -/
structure Shows (entries : List CostEntry) (recurring : List RecurringCost) (today : Day)
    (summary : CostSummary) : Prop where
  currencies : summary.currencies.Perm
    ((finalRun entries recurring today).books.totals.items.map currencyRow)
  months : summary.months.Perm
    ((finalRun entries recurring today).books.months.items.map monthRow)
  periods : summary.periods.Perm (finalRun entries recurring today).periods

theorem summarize_shows (entries : List CostEntry) (recurring : List RecurringCost) (today : Day)
    (base : String) :
    ∃ summary, summarize entries recurring today base = some summary ∧
      Shows entries recurring today summary := by
  simp only [summarize, foldlM_runCost, Option.bind_eq_bind, Option.bind_some, Option.pure_def]
  refine ⟨_, rfl, ?_, ?_, ?_⟩
  · exact (List.mergeSort_perm _ _).map currencyRow
  · exact (List.mergeSort_perm _ _).map monthRow
  · exact List.mergeSort_perm _ _

section

variable (h : Shows entries recurring today summary)
include h

theorem Shows.row {row : CurrencyRow} (hrow : row ∈ summary.currencies) :
    row = currencyRow (row.currency,
      (finalRun entries recurring today).books.totals.get row.currency) := by
  obtain ⟨item, hitem, rfl⟩ := List.mem_map.mp (h.currencies.mem_iff.mp hrow)
  rw [show (currencyRow item).currency = item.1 from rfl, DefaultDict.get_of_mem hitem]

theorem Shows.cell {cell : MonthRow} (hcell : cell ∈ summary.months) :
    cell = monthRow (⟨cell.month, cell.categoryId, cell.currency⟩,
      (finalRun entries recurring today).books.months.get
        ⟨cell.month, cell.categoryId, cell.currency⟩) := by
  obtain ⟨item, hitem, rfl⟩ := List.mem_map.mp (h.months.mem_iff.mp hcell)
  have hkey : CellKey.mk (monthRow item).month (monthRow item).categoryId
      (monthRow item).currency = item.1 := rfl
  rw [hkey, DefaultDict.get_of_mem hitem]

theorem Shows.currencies_keys :
    (summary.currencies.map (·.currency)).Perm
      (finalRun entries recurring today).books.totals.keys := by
  have hperm := h.currencies.map (·.currency)
  rwa [List.map_map] at hperm

theorem Shows.months_keys :
    (summary.months.map fun cell => CellKey.mk cell.month cell.categoryId cell.currency).Perm
      (finalRun entries recurring today).books.months.keys := by
  have hperm := h.months.map fun cell => CellKey.mk cell.month cell.categoryId cell.currency
  rwa [List.map_map] at hperm

theorem Shows.cells_sum (currency : String) :
    ((cellsOf currency summary).map fun cell => cell.recordedMicros + cell.scheduledMicros).sum =
      (finalRun entries recurring today).books.months.sum fun key cell =>
        if key.currency = currency then cell.recorded + cell.scheduled else 0 := by
  rw [cellsOf, sum_filter, (h.months.map _).sum_eq, List.map_map, DefaultDict.sum]
  simp only [Function.comp_def, monthRow, beq_iff_eq]
  rfl

end

theorem Shows.addsUp (h : Shows entries recurring today summary)
    (hids : (recurring.map (·.id)).Nodup) : AddsUp entries recurring today summary where
  oneRow := h.currencies_keys.nodup_iff.mpr (finalRun entries recurring today).books.totals.nodup
  hasRow currency := by
    rw [h.currencies_keys.mem_iff, mem_totals_iff]
    simp only [h.periods.mem_iff]
  spent row hrow := by
    rw [scheduledWhere_perm _ h.periods, ← spent_eq]
    exact congrArg CurrencyRow.spentToDateMicros (h.row hrow)
  spentByCells row hrow := by
    rw [h.cells_sum, cells_sum_eq, ← spent_eq]
    exact congrArg CurrencyRow.spentToDateMicros (h.row hrow)
  scheduled row hrow := by
    rw [scheduledWhere_perm _ h.periods, ← scheduled_eq]
    exact congrArg CurrencyRow.scheduledMicros (h.row hrow)
  thisMonth row hrow := by
    rw [scheduledWhere_perm _ h.periods, ← thisMonth_eq]
    exact congrArg CurrencyRow.thisMonthMicros (h.row hrow)
  awaitingDelivery row hrow := by
    rw [← awaitingDelivery_eq recurring today]
    exact congrArg CurrencyRow.awaitingDeliveryMicros (h.row hrow)
  oneCell := h.months_keys.nodup_iff.mpr (finalRun entries recurring today).books.months.nodup
  cellHasRow cell hcell := by
    have hkey := h.months_keys.mem_iff.mp (List.mem_map_of_mem hcell)
    exact h.currencies_keys.mem_iff.mpr (currency_of_cell hkey)
  cellRecorded cell hcell := by
    rw [← cell_recorded_eq recurring today]
    exact congrArg MonthRow.recordedMicros (h.cell hcell)
  cellScheduled cell hcell := by
    rw [scheduledWhere_perm _ h.periods, ← cell_scheduled_eq hids]
    exact congrArg MonthRow.scheduledMicros (h.cell hcell)

theorem Shows.period (h : Shows entries recurring today summary) {p : Period}
    (hp : p ∈ summary.periods) :
    ∃ cost ∈ recurring, ∃ due ∈ dueList today cost, p = periodOf entries cost due := by
  rw [h.periods.mem_iff, finalRun_periods] at hp
  obtain ⟨⟨cost, due⟩, hpair, rfl⟩ := List.mem_map.mp hp
  obtain ⟨cost', hcost, hpair⟩ := List.mem_flatMap.mp hpair
  obtain ⟨due', hdue, heq⟩ := List.mem_map.mp hpair
  cases heq
  exact ⟨cost, hcost, due, hdue, rfl⟩

theorem Shows.periodsCover (h : Shows entries recurring today summary)
    (hids : (recurring.map (·.id)).Nodup) : PeriodsCover entries recurring today summary where
  oncePerDue cost hcost dates hdates due hdue := by
    rw [dueDates_eq, Option.some.injEq] at hdates
    rw [← hdates] at hdue
    rw [periodsAt, (h.periods.filter _).length_eq]
    exact length_periodsAt hids hcost hdue
  onlyDue p hp := by
    obtain ⟨cost, hcost, due, hdue, rfl⟩ := h.period hp
    refine ⟨cost, hcost, (periodOf_id cost due).symm, _, dueDates_eq today cost, ?_⟩
    rwa [periodOf_start]
  recordedIff p hp := by
    obtain ⟨cost, hcost, due, hdue, rfl⟩ := h.period hp
    rw [periodOf_recorded_iff, recordFor_isSome, periodOf_id, periodOf_start]
  amountIff p hp := by
    obtain ⟨cost, hcost, due, hdue, rfl⟩ := h.period hp
    exact periodOf_amount_iff

/-- The figures of the Costs page are conserved, and every due date is accounted for. -/
theorem summarize_conserves (entries : List CostEntry) (recurring : List RecurringCost)
    (today : Day) (base : String) (hids : (recurring.map (·.id)).Nodup) :
    ∃ summary, summarize entries recurring today base = some summary ∧
      AddsUp entries recurring today summary ∧ PeriodsCover entries recurring today summary := by
  obtain ⟨summary, hsummary, hshows⟩ := summarize_shows entries recurring today base
  exact ⟨summary, hsummary, hshows.addsUp hids, hshows.periodsCover hids⟩

end Summary

/-! ### A project with a fixed cost and a variable one -/

def lastOfJanuary : Day := ⟨2025, 1, 31, by decide, by decide, by decide⟩

def lastOfFebruary : Day := ⟨2025, 2, 28, by decide, by decide, by decide⟩

/-- A subscription in dollars, due at the end of each month. -/
def subscription : RecurringCost where
  id := "subscription"
  categoryId := none
  cadence := .monthly
  amountKind := .fixed
  amountMicros := some 20000000
  currency := "USD"
  startDate := ⟨lastOfJanuary, by decide⟩
  endDate := none

def powerBill : RecurringCost :=
  { subscription with id := "power", amountKind := .variable, amountMicros := none }

def januaryCharge : CostEntry where
  id := "entry"
  incurredOn := lastOfJanuary
  categoryId := none
  amountMicros := 18500000
  currency := "EUR"
  expectsDelivery := false
  receivedOn := none
  recurringCostId := some "subscription"
  periodStart := some lastOfJanuary

example : subscription.dueDates lastOfFebruary = some [lastOfJanuary, lastOfFebruary] := by
  decide +kernel

theorem subscription_conserved :
    ∃ summary, summarize [januaryCharge] [subscription, powerBill] lastOfFebruary "USD" =
        some summary ∧
      AddsUp [januaryCharge] [subscription, powerBill] lastOfFebruary summary ∧
      PeriodsCover [januaryCharge] [subscription, powerBill] lastOfFebruary summary :=
  summarize_conserves _ _ _ _ (by decide)

end Qontinui.Overview.Costs
