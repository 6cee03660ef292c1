import Mathlib.Data.List.Nodup
import Qontinui.Overview.Costs

/-!
Where the figures of the Costs page come from: each of them is a sum over the entries and
the scheduled periods, and each due date of each cost has one period.
-/

namespace Qontinui.Overview.Costs

/-! ### Due dates -/

def Day.monthIndex (d : Day) : Nat := 12 * d.year + d.month

theorem addMonths_monthIndex {start due : Day} {months : Nat}
    (h : addMonths start months = some due) :
    due.monthIndex = start.monthIndex + months := by
  simp only [addMonths, Option.dite_none_right_eq_some, Option.some.injEq] at h
  obtain ⟨_, rfl⟩ := h
  have hmonth := start.monthInRange
  simp only [Day.monthIndex]
  omega

theorem lt_of_monthIndex_lt {a b : Day} (h : a.monthIndex < b.monthIndex) : a < b := by
  have hlast := (monthLength_bounds a.year a.month).2
  have hday := a.dayInRange.2
  simp only [Day.lt_iff, Day.rank, Day.monthIndex] at *
  omega

theorem addMonths_returns {start : Day} {months : Nat} (hyear : start.year ≤ 2200)
    (hmonths : months ≤ 12 * 2400) : ∃ due, addMonths start months = some due := by
  have hmonth := start.monthInRange
  have hfits : start.year + (start.month - 1 + months) / 12 ≤ 9999 := by omega
  exact ⟨_, dif_pos hfits⟩

theorem Cadence.months_bounds (cadence : Cadence) :
    0 < cadence.months ∧ cadence.months ≤ 12 := by
  cases cadence <;> decide

section DueFrom

variable {start last : Day} {step : Nat}

theorem dueFrom_returns (hyear : start.year ≤ 2200) (hstep : step ≤ 12) {count n : Nat}
    (hcount : n + count ≤ 2400) : ∃ dates, dueFrom start last step count n = some dates := by
  induction count generalizing n with
  | zero => exact ⟨[], rfl⟩
  | succ count ih =>
      have hmonths : step * n ≤ 12 * 2400 := Nat.mul_le_mul hstep (by omega)
      obtain ⟨due, hdue⟩ := addMonths_returns hyear hmonths
      obtain ⟨later, hlater⟩ := ih (n := n + 1) (by omega)
      by_cases hlast : last < due
      · exact ⟨[], by simp [dueFrom, hdue, hlast]⟩
      · exact ⟨due :: later, by simp [dueFrom, hdue, hlast, hlater]⟩

theorem dueFrom_increases (hstep : 0 < step) {count n : Nat} {dates : List Day}
    (h : dueFrom start last step count n = some dates) :
    dates.Pairwise (· < ·) ∧ ∀ due ∈ dates, start.monthIndex + step * n ≤ due.monthIndex := by
  induction count generalizing n dates with
  | zero =>
      cases h
      exact ⟨List.Pairwise.nil, by simp⟩
  | succ count ih =>
      simp only [dueFrom, Option.bind_eq_bind, Option.bind_eq_some_iff] at h
      obtain ⟨due, hdue, h⟩ := h
      have hindex := addMonths_monthIndex hdue
      split_ifs at h with hlast
      · cases h
        exact ⟨List.Pairwise.nil, by simp⟩
      · simp only [Option.bind_eq_some_iff] at h
        obtain ⟨later, hlater, h⟩ := h
        cases h
        obtain ⟨hsorted, hbound⟩ := ih hlater
        have hgrow : step * n < step * (n + 1) := Nat.mul_lt_mul_of_pos_left (Nat.lt_succ_self n) hstep
        constructor
        · apply List.Pairwise.cons _ hsorted
          intro d hd
          apply lt_of_monthIndex_lt
          have hd' := hbound d hd
          omega
        · intro d hd
          rcases List.mem_cons.mp hd with rfl | hd
          · exact hindex.ge
          · have hd' := hbound d hd
            omega

end DueFrom

/-- The due dates of a cost up to `today`. -/
def dueList (today : Day) (cost : RecurringCost) : List Day := (cost.dueDates today).getD []

theorem dueDates_eq (today : Day) (cost : RecurringCost) :
    cost.dueDates today = some (dueList today cost) := by
  obtain ⟨dates, h⟩ : ∃ dates, cost.dueDates today = some dates :=
    dueFrom_returns cost.startDate.inRange.2 cost.cadence.months_bounds.2 (by decide)
  rw [dueList, h, Option.getD_some]

theorem dueList_nodup (today : Day) (cost : RecurringCost) : (dueList today cost).Nodup := by
  have hsorted := (dueFrom_increases cost.cadence.months_bounds.1 (dueDates_eq today cost)).1
  exact hsorted.imp ne_of_lt

/-! ### The entry of a period -/

theorem recordedEntries_isSome (entries : List CostEntry) (key : PeriodKey) :
    ((recordedEntries entries).lookup key).isSome ↔
      ∃ entry ∈ entries, entry.recurringCostId = some key.recurringCostId ∧
        entry.periodStart = key.periodStart := by
  induction entries using List.reverseRecOn with
  | nil => simp [recordedEntries]
  | append_singleton entries entry ih =>
      have hstep : recordedEntries (entries ++ [entry]) = record (recordedEntries entries) entry :=
        List.foldl_append
      rw [hstep, record]
      simp only [List.mem_append, List.mem_singleton, or_and_right, exists_or, exists_eq_left, ← ih]
      cases hid : entry.recurringCostId with
      | none => simp
      | some costId =>
          by_cases hkey : key = ⟨costId, entry.periodStart⟩
          · simp [hkey]
          · rw [Fields.lookup_set_ne hkey]
            constructor
            · exact Or.inl
            · rintro (h | ⟨hcost, hstart⟩)
              · exact h
              · cases hcost
                exact absurd (by rw [hstart]) hkey

theorem recordFor_isSome {entries : List CostEntry} {cost : RecurringCost} {due : Day} :
    (recordFor entries cost due).isSome ↔
      ∃ entry ∈ entries, entry.recurringCostId = some cost.id ∧ entry.periodStart = some due :=
  recordedEntries_isSome entries ⟨cost.id, some due⟩

/-! ### Sums of entries and periods -/

/-- The amounts of the entries that `counts` selects. -/
def enteredWhere (counts : CostEntry → Bool) (entries : List CostEntry) : Int :=
  ((entries.filter counts).map (·.amountMicros)).sum

/-- The amounts of the scheduled periods that `counts` selects. -/
def scheduledWhere (counts : Period → Bool) (periods : List Period) : Int :=
  ((periods.filter fun p => p.state == .scheduled && counts p).map
    (·.amountMicros.getD 0)).sum

theorem sum_filter {α : Type} (p : α → Bool) (f : α → Int) (items : List α) :
    ((items.filter p).map f).sum = (items.map fun x => if p x then f x else 0).sum := by
  induction items with
  | nil => rfl
  | cons x items ih =>
      cases hp : p x with
      | true | false => simp [hp, ih]

theorem enteredWhere_eq (counts : CostEntry → Bool) (entries : List CostEntry) :
    enteredWhere counts entries =
      (entries.map fun entry => if counts entry then entry.amountMicros else 0).sum :=
  sum_filter counts _ entries

theorem scheduledWhere_perm (counts : Period → Bool) {periods sorted : List Period}
    (h : sorted.Perm periods) : scheduledWhere counts sorted = scheduledWhere counts periods :=
  ((h.filter _).map _).sum_eq

/-! ### The loops -/

section Loops

variable {entries : List CostEntry} {recurring : List RecurringCost} {today : Day}

/-- Every cost beside every day it falls due. -/
def allDue (recurring : List RecurringCost) (today : Day) : List (RecurringCost × Day) :=
  recurring.flatMap fun cost => (dueList today cost).map fun due => (cost, due)

def periodOf (entries : List CostEntry) (cost : RecurringCost) (due : Day) : Period :=
  match recordFor entries cost due with
  | some record =>
      ⟨cost.id, due, .recorded, some record.id, some record.amountMicros, record.currency⟩
  | none =>
      match cost.charge with
      | some amount => ⟨cost.id, due, .scheduled, none, some amount, cost.currency⟩
      | none => ⟨cost.id, due, .awaitingAmount, none, none, cost.currency⟩

def Period.charge (period : Period) : Int :=
  match period.state with
  | .scheduled => period.amountMicros.getD 0
  | _ => 0

variable (entries today) in
theorem fallDue_cases (cost : RecurringCost) (run : Run) (due : Day) :
    (fallDue entries today cost run due).periods = run.periods ++ [periodOf entries cost due] ∧
      (((periodOf entries cost due).state = .scheduled ∧
          (periodOf entries cost due).currency = cost.currency ∧
          (fallDue entries today cost run due).books =
            schedule today run.books cost due (periodOf entries cost due).charge) ∨
        ((periodOf entries cost due).state ≠ .scheduled ∧
          (fallDue entries today cost run due).books = run.books)) := by
  unfold fallDue periodOf
  cases recordFor entries cost due with
  | some record => exact ⟨rfl, .inr ⟨nofun, rfl⟩⟩
  | none =>
      cases cost.charge with
      | some amount => exact ⟨rfl, .inl ⟨rfl, rfl, rfl⟩⟩
      | none => exact ⟨rfl, .inr ⟨nofun, rfl⟩⟩

theorem foldlM_runCost (run : Run) :
    recurring.foldlM (runCost entries today) run =
      some ((allDue recurring today).foldl (fun run p => fallDue entries today p.1 run p.2)
        run) := by
  induction recurring generalizing run with
  | nil => rfl
  | cons cost rest ih =>
      simp only [List.foldlM_cons, runCost, dueDates_eq, Option.bind_eq_bind, Option.bind_some,
        Option.pure_def]
      rw [ih, allDue, allDue, List.flatMap_cons, List.foldl_append, List.foldl_map]

def finalRun (entries : List CostEntry) (recurring : List RecurringCost) (today : Day) : Run :=
  (allDue recurring today).foldl (fun run p => fallDue entries today p.1 run p.2)
    ⟨entries.foldl (enter today) .empty, [], 0⟩

theorem finalRun_periods :
    (finalRun entries recurring today).periods =
      (allDue recurring today).map fun p => periodOf entries p.1 p.2 := by
  have hloop : ∀ (pairs : List (RecurringCost × Day)) (run : Run),
      (pairs.foldl (fun run p => fallDue entries today p.1 run p.2) run).periods =
        run.periods ++ pairs.map fun p => periodOf entries p.1 p.2 := by
    intro pairs
    induction pairs with
    | nil => simp
    | cons p rest ih =>
        intro run
        rw [List.foldl_cons, ih, (fallDue_cases entries today p.1 run p.2).1, List.map_cons, List.append_assoc,
          List.singleton_append]
  rw [finalRun, hloop, List.nil_append]

theorem figure_finalRun {figure : Books → Int} {byEntry : CostEntry → Int}
    {byPeriod : RecurringCost → Day → Int → Int} (hempty : figure .empty = 0)
    (hentry : ∀ books entry, figure (enter today books entry) = figure books + byEntry entry)
    (hperiod : ∀ books cost due amount,
      figure (schedule today books cost due amount) = figure books + byPeriod cost due amount) :
    figure (finalRun entries recurring today).books =
      (entries.map byEntry).sum +
        ((allDue recurring today).map fun p =>
          if (periodOf entries p.1 p.2).state = .scheduled then
            byPeriod p.1 p.2 (periodOf entries p.1 p.2).charge
          else 0).sum := by
  have hstep : ∀ (run : Run) (p : RecurringCost × Day),
      figure (fallDue entries today p.1 run p.2).books = figure run.books +
        if (periodOf entries p.1 p.2).state = .scheduled then
          byPeriod p.1 p.2 (periodOf entries p.1 p.2).charge
        else 0 := by
    intro run p
    rcases (fallDue_cases entries today p.1 run p.2).2 with
      ⟨hstate, -, hbooks⟩ | ⟨hstate, hbooks⟩
    · rw [hbooks, hperiod, if_pos hstate]
    · rw [hbooks, if_neg hstate, add_zero]
  have hentered := measure_foldl figure hentry .empty entries
  rw [hempty, zero_add] at hentered
  have hfallen := measure_foldl (fun run : Run => figure run.books) hstep
    ⟨entries.foldl (enter today) .empty, [], 0⟩ (allDue recurring today)
  rw [finalRun, hfallen, hentered]

theorem figure_finalRun_scheduled (figure : Books → Int) (byEntry : CostEntry → Int)
    (counts : Period → Bool) (charged : RecurringCost → Day → Bool) (hempty : figure .empty = 0)
    (hentry : ∀ books entry, figure (enter today books entry) = figure books + byEntry entry)
    (hperiod : ∀ books cost due amount, figure (schedule today books cost due amount) =
      figure books + if charged cost due then amount else 0)
    (hcounts : ∀ p ∈ allDue recurring today, (periodOf entries p.1 p.2).state = .scheduled →
      counts (periodOf entries p.1 p.2) = charged p.1 p.2) :
    figure (finalRun entries recurring today).books =
      (entries.map byEntry).sum +
        scheduledWhere counts ((finalRun entries recurring today).periods) := by
  rw [figure_finalRun hempty hentry hperiod, scheduledWhere, sum_filter, finalRun_periods,
    List.map_map]
  congr 2
  apply List.map_congr_left
  intro p hp
  simp only [Function.comp_apply, Bool.and_eq_true, beq_iff_eq]
  by_cases hstate : (periodOf entries p.1 p.2).state = .scheduled
  · rw [if_pos hstate, hcounts p hp hstate]
    simp only [hstate, true_and, Period.charge]
  · rw [if_neg hstate, if_neg (fun h => hstate h.1)]

theorem holds_finalRun (P : Books → Prop) (byEntry : CostEntry → Prop)
    (byPeriod : RecurringCost → Day → Prop) (hempty : ¬P .empty)
    (hentry : ∀ books entry, P (enter today books entry) ↔ P books ∨ byEntry entry)
    (hperiod : ∀ books cost due amount,
      P (schedule today books cost due amount) ↔ P books ∨ byPeriod cost due) :
    P (finalRun entries recurring today).books ↔
      (∃ entry ∈ entries, byEntry entry) ∨ ∃ p ∈ allDue recurring today,
        (periodOf entries p.1 p.2).state = .scheduled ∧ byPeriod p.1 p.2 := by
  have hstep : ∀ (run : Run) (p : RecurringCost × Day),
      P (fallDue entries today p.1 run p.2).books ↔ P run.books ∨
        (periodOf entries p.1 p.2).state = .scheduled ∧ byPeriod p.1 p.2 := by
    intro run p
    rcases (fallDue_cases entries today p.1 run p.2).2 with
      ⟨hstate, -, hbooks⟩ | ⟨hstate, hbooks⟩
    · rw [hbooks, hperiod]
      simp [hstate]
    · rw [hbooks]
      simp [hstate]
  rw [finalRun, holds_foldl (fun run : Run => P run.books) hstep,
    holds_foldl P hentry, or_iff_right hempty]

/-! ### Periods -/

variable {cost : RecurringCost} {due : Day}

theorem currency_of_scheduled (h : (periodOf entries cost due).state = .scheduled) :
    (periodOf entries cost due).currency = cost.currency := by
  rcases (fallDue_cases entries due cost ⟨.empty, [], 0⟩ due).2 with
    ⟨-, hcurrency, -⟩ | ⟨hstate, -⟩
  · exact hcurrency
  · exact absurd h hstate

@[simp] theorem periodOf_id (cost : RecurringCost) (due : Day) :
    (periodOf entries cost due).recurringCostId = cost.id := by
  unfold periodOf
  cases recordFor entries cost due with
  | some record => rfl
  | none => cases cost.charge <;> rfl

@[simp] theorem periodOf_start (cost : RecurringCost) (due : Day) :
    (periodOf entries cost due).periodStart = due := by
  unfold periodOf
  cases recordFor entries cost due with
  | some record => rfl
  | none => cases cost.charge <;> rfl

theorem periodOf_recorded_iff :
    (periodOf entries cost due).state = .recorded ↔ (recordFor entries cost due).isSome := by
  unfold periodOf
  cases recordFor entries cost due with
  | some record => exact iff_of_true rfl rfl
  | none => cases cost.charge <;> exact iff_of_false nofun nofun

theorem periodOf_amount_iff :
    (periodOf entries cost due).amountMicros = none ↔
      (periodOf entries cost due).state = .awaitingAmount := by
  unfold periodOf
  cases recordFor entries cost due with
  | some record => exact iff_of_false nofun nofun
  | none =>
      cases cost.charge with
      | some amount => exact iff_of_false nofun nofun
      | none => exact iff_of_true rfl rfl

/-! ### The figures of a currency and of a cell -/

variable (entries recurring today) in
theorem totals_eq (read : Totals → Int) (also : CostEntry → Bool) (alsoDue : Day → Bool)
    (hdefault : read default = 0)
    (henter : ∀ t entry, read (Totals.enter today entry t) =
      read t + if also entry then entry.amountMicros else 0)
    (hschedule : ∀ t due amount, read (Totals.schedule today due amount t) =
      read t + if alsoDue due then amount else 0) (currency : String) :
    read ((finalRun entries recurring today).books.totals.get currency) =
      enteredWhere (fun entry => entry.currency == currency && also entry) entries +
        scheduledWhere (fun p => p.currency == currency && alsoDue p.periodStart)
          (finalRun entries recurring today).periods := by
  rw [enteredWhere_eq]
  apply figure_finalRun_scheduled (fun books => read (books.totals.get currency)) _ _
    fun cost due => cost.currency == currency && alsoDue due
  · exact hdefault
  · intro books entry
    simp only [enter, DefaultDict.get_update]
    by_cases h : currency = entry.currency
    · simp [← h, henter]
    · simp [h, Ne.symm h]
  · intro books cost due amount
    simp only [schedule, DefaultDict.get_update]
    by_cases h : currency = cost.currency
    · simp [← h, hschedule]
    · simp [h, Ne.symm h]
  · intro p _ hstate
    rw [currency_of_scheduled hstate, periodOf_start]

theorem enteredWhere_none : enteredWhere (fun _ => false) entries = 0 := by
  simp [enteredWhere]

theorem scheduledWhere_none (periods : List Period) :
    scheduledWhere (fun _ => false) periods = 0 := by
  simp [scheduledWhere]

variable (currency : String)

theorem spent_eq :
    ((finalRun entries recurring today).books.totals.get currency).spent =
      enteredWhere (fun entry => entry.currency == currency) entries +
        scheduledWhere (fun p => p.currency == currency)
          (finalRun entries recurring today).periods := by
  have h := totals_eq entries recurring today Totals.spent (fun _ => true) (fun _ => true) rfl (fun _ _ => rfl) (fun _ _ _ => rfl) currency
  simpa only [Bool.and_true] using h

variable (entries recurring today) in
theorem scheduled_eq :
    ((finalRun entries recurring today).books.totals.get currency).scheduled =
      scheduledWhere (fun p => p.currency == currency)
        (finalRun entries recurring today).periods := by
  have h := totals_eq entries recurring today Totals.scheduled (fun _ => false) (fun _ => true) rfl (fun _ _ => (add_zero _).symm)
    (fun _ _ _ => rfl) currency
  simpa only [Bool.and_true, Bool.and_false, enteredWhere_none, zero_add] using h

theorem thisMonth_eq :
    ((finalRun entries recurring today).books.totals.get currency).thisMonth =
      enteredWhere (fun entry =>
          entry.currency == currency && monthOf entry.incurredOn == monthOf today) entries +
        scheduledWhere (fun p =>
          p.currency == currency && monthOf p.periodStart == monthOf today)
          (finalRun entries recurring today).periods := by
  apply totals_eq entries recurring today Totals.thisMonth
    (fun entry => monthOf entry.incurredOn == monthOf today) fun due => monthOf due == monthOf today
  · rfl
  · intro t entry
    simp only [Totals.enter, beq_iff_eq]
    split_ifs <;> simp
  · intro t due amount
    simp only [Totals.schedule, beq_iff_eq]
    split_ifs <;> simp

variable (recurring today) in
theorem awaitingDelivery_eq :
    ((finalRun entries recurring today).books.totals.get currency).awaitingDelivery =
      enteredWhere (fun entry => entry.currency == currency && entry.awaitsDelivery) entries := by
  have h := totals_eq entries recurring today Totals.awaitingDelivery (·.awaitsDelivery) (fun _ => false) rfl
    (fun t entry => by simp only [Totals.enter]; split_ifs <;> simp)
    (fun _ _ _ => (add_zero _).symm) currency
  simpa only [Bool.and_false, scheduledWhere_none, add_zero] using h

def chargesCell (recurring : List RecurringCost) (key : CellKey) (p : Period) : Bool :=
  recurring.any fun cost => cost.id == p.recurringCostId && cost.cellKey p.periodStart == key

theorem chargesCell_periodOf (hids : (recurring.map (·.id)).Nodup) {key : CellKey}
    (hmem : cost ∈ recurring) :
    chargesCell recurring key (periodOf entries cost due) = (cost.cellKey due == key) := by
  rw [Bool.eq_iff_iff, chargesCell, List.any_eq_true, periodOf_id, periodOf_start]
  constructor
  · rintro ⟨other, hother, h⟩
    rw [Bool.and_eq_true, beq_iff_eq] at h
    rw [← List.inj_on_of_nodup_map hids hother hmem h.1]
    exact h.2
  · intro h
    exact ⟨cost, hmem, by simpa using h⟩

variable (recurring today) in
theorem cell_recorded_eq (key : CellKey) :
    ((finalRun entries recurring today).books.months.get key).recorded =
      enteredWhere (fun entry => entry.cellKey == key) entries := by
  apply Eq.trans _ (add_eq_left.mpr (scheduledWhere_none (finalRun entries recurring today).periods))
  rw [enteredWhere_eq]
  apply figure_finalRun_scheduled (fun books => (books.months.get key).recorded) _ _
    fun _ _ => false
  · rfl
  · intro books entry
    simp only [enter, DefaultDict.get_update]
    by_cases h : key = entry.cellKey
    · simp [← h]
    · simp [h, Ne.symm h]
  · intro books cost due amount
    simp only [schedule, DefaultDict.get_update]
    by_cases h : key = cost.cellKey due
    · simp [← h]
    · simp [h]
  · exact fun _ _ _ => rfl

theorem cell_scheduled_eq (hids : (recurring.map (·.id)).Nodup) (key : CellKey) :
    ((finalRun entries recurring today).books.months.get key).scheduled =
      scheduledWhere (chargesCell recurring key) (finalRun entries recurring today).periods := by
  have hnone : (entries.map fun _ => (0 : Int)).sum = 0 := by simp
  apply Eq.trans _ (add_eq_right.mpr hnone)
  apply figure_finalRun_scheduled (fun books => (books.months.get key).scheduled) _ _
    fun cost due => cost.cellKey due == key
  · rfl
  · intro books entry
    simp only [enter, DefaultDict.get_update]
    by_cases h : key = entry.cellKey
    · simp [← h]
    · simp [h]
  · intro books cost due amount
    simp only [schedule, DefaultDict.get_update]
    by_cases h : key = cost.cellKey due
    · simp [← h]
    · simp [h, Ne.symm h]
  · intro p hp _
    apply chargesCell_periodOf hids
    obtain ⟨cost, hcost, hp⟩ := List.mem_flatMap.mp hp
    obtain ⟨due, _, rfl⟩ := List.mem_map.mp hp
    exact hcost

theorem cells_sum_eq :
    (finalRun entries recurring today).books.months.sum (fun key cell =>
        if key.currency = currency then cell.recorded + cell.scheduled else 0) =
      enteredWhere (fun entry => entry.currency == currency) entries +
        scheduledWhere (fun p => p.currency == currency)
          (finalRun entries recurring today).periods := by
  rw [enteredWhere_eq]
  apply figure_finalRun_scheduled (fun books => books.months.sum fun key cell =>
      if key.currency = currency then cell.recorded + cell.scheduled else 0) _ _
    fun cost _ => cost.currency == currency
  · rfl
  · intro books entry
    dsimp only [enter]
    apply DefaultDict.sum_update
    · exact ite_self 0
    · intro cell
      by_cases h : entry.currency = currency
      · simp [CostEntry.cellKey, h, add_right_comm]
      · simp [CostEntry.cellKey, h]
  · intro books cost due amount
    dsimp only [schedule]
    apply DefaultDict.sum_update
    · exact ite_self 0
    · intro cell
      by_cases h : cost.currency = currency
      · simp [RecurringCost.cellKey, h, add_assoc]
      · simp [RecurringCost.cellKey, h]
  · intro p _ hstate
    rw [currency_of_scheduled hstate]

theorem mem_totals_iff {currency : String} :
    currency ∈ (finalRun entries recurring today).books.totals.keys ↔
      (∃ entry ∈ entries, entry.currency = currency) ∨
        ∃ p ∈ (finalRun entries recurring today).periods,
          p.state = .scheduled ∧ p.currency = currency := by
  rw [holds_finalRun (fun books => currency ∈ books.totals.keys)
    (fun entry => entry.currency = currency) fun cost _ => cost.currency = currency]
  · apply or_congr Iff.rfl
    rw [finalRun_periods]
    simp only [List.mem_map, exists_exists_and_eq_and]
    apply exists_congr
    intro p
    apply and_congr_right
    intro _
    apply and_congr_right
    intro hstate
    rw [currency_of_scheduled hstate]
  · exact List.not_mem_nil
  · intro books entry
    rw [enter, DefaultDict.mem_keys_update, or_comm, eq_comm]
  · intro books cost due amount
    rw [schedule, DefaultDict.mem_keys_update, or_comm, eq_comm]

theorem currency_of_cell {key : CellKey}
    (h : key ∈ (finalRun entries recurring today).books.months.keys) :
    key.currency ∈ (finalRun entries recurring today).books.totals.keys := by
  rw [holds_finalRun (fun books => key ∈ books.months.keys) (fun entry => entry.cellKey = key)
    fun cost due => cost.cellKey due = key] at h
  · rcases h with ⟨entry, hentry, hkey⟩ | ⟨p, hp, hstate, hkey⟩
    · exact mem_totals_iff.mpr (.inl ⟨entry, hentry, congrArg CellKey.currency hkey⟩)
    · apply mem_totals_iff.mpr
      refine .inr ⟨periodOf entries p.1 p.2, ?_, hstate, ?_⟩
      · rw [finalRun_periods]
        exact List.mem_map_of_mem hp
      · rw [currency_of_scheduled hstate]
        exact congrArg CellKey.currency hkey
  · exact List.not_mem_nil
  · intro books entry
    rw [enter, DefaultDict.mem_keys_update, or_comm, eq_comm]
  · intro books cost due amount
    rw [schedule, DefaultDict.mem_keys_update, or_comm, eq_comm]

/-! ### One period for each due date -/

theorem allDue_nodup (hids : (recurring.map (·.id)).Nodup) :
    ((allDue recurring today).map fun p => (p.1.id, p.2)).Nodup := by
  induction recurring with
  | nil => exact List.nodup_nil
  | cons cost rest ih =>
      rw [List.map_cons, List.nodup_cons] at hids
      rw [allDue, List.flatMap_cons, List.map_append, List.map_map, List.nodup_append]
      refine ⟨?_, ih hids.2, ?_⟩
      · apply (dueList_nodup today cost).map
        intro due due' h
        exact (Prod.mk.inj h).2
      · intro p hp q hq hpq
        obtain ⟨due, _, rfl⟩ := List.mem_map.mp hp
        obtain ⟨⟨other, due'⟩, hother, rfl⟩ := List.mem_map.mp hq
        obtain ⟨cost', hcost', hpair⟩ := List.mem_flatMap.mp hother
        obtain ⟨_, _, h⟩ := List.mem_map.mp hpair
        cases h
        apply hids.1
        rw [show cost.id = other.id from (Prod.mk.inj hpq).1]
        exact List.mem_map_of_mem hcost'

theorem finalRun_slots :
    (finalRun entries recurring today).periods.map (fun p => (p.recurringCostId, p.periodStart)) =
      (allDue recurring today).map fun p => (p.1.id, p.2) := by
  rw [finalRun_periods, List.map_map]
  apply List.map_congr_left
  intro p _
  simp

/-- The periods of `cost` that fall due on `due`. -/
def periodsAt (cost : RecurringCost) (due : Day) (periods : List Period) : List Period :=
  periods.filter fun p => p.recurringCostId == cost.id && p.periodStart == due

theorem length_periodsAt (hids : (recurring.map (·.id)).Nodup) (hcost : cost ∈ recurring)
    (hdue : due ∈ dueList today cost) :
    (periodsAt cost due (finalRun entries recurring today).periods).length = 1 := by
  have hcount : (periodsAt cost due (finalRun entries recurring today).periods).length =
      ((finalRun entries recurring today).periods.map
        (fun p => (p.recurringCostId, p.periodStart))).count (cost.id, due) := by
    rw [periodsAt, ← List.countP_eq_length_filter, List.count, List.countP_map]
    rfl
  rw [hcount, finalRun_slots]
  apply List.count_eq_one_of_mem (allDue_nodup hids)
  apply List.mem_map.mpr
  refine ⟨(cost, due), ?_, rfl⟩
  apply List.mem_flatMap.mpr
  exact ⟨cost, hcost, List.mem_map_of_mem hdue⟩

end Loops

end Qontinui.Overview.Costs
