import Qontinui.Overview.ForecastRange
import Qontinui.Overview.UnknownFigures

/-!
The schedule of an estimate against its phases: the first planned start and the last planned
end are taken apart, each over every phase that carries one.
-/

namespace Qontinui.Overview

open PyDecimal FallibleLoops

/-- A row with both planned dates lies within the schedule, and is no longer than it. -/
structure RowWithin (start finish : Date) (weeks days : Rat) (row : PhaseRow) : Prop where
  inside : ∀ first last, row.plannedStart = some first → row.plannedEnd = some last →
    start ≤ first ∧ last ≤ finish
  shorter : ∀ first last, row.plannedStart = some first → row.plannedEnd = some last →
    ∃ rowWeeks rowDays, row.calendarWeeks = some rowWeeks ∧ rowWeeks ≤ weeks ∧
      row.workingDays = some rowDays ∧ rowDays ≤ days

/-- The schedule runs forward, over every row with both planned dates. -/
structure SpansRows (result : RollupResult) (start finish : Date) (weeks days : Rat) : Prop where
  positive : 0 < weeks
  forward : start ≤ finish
  rows : ∀ row ∈ result.phases, RowWithin start finish weeks days row

def ScheduleSpans (result : RollupResult) : Prop :=
  ∀ weeks, result.schedule.calendarWeeks = some weeks →
    ∃ start finish days, result.schedule.plannedStart = some start ∧
      result.schedule.plannedEnd = some finish ∧ result.schedule.workingDays = some days ∧
      SpansRows result start finish weeks days

/-- Of the planned starts and the planned ends of all phases there is none of one kind, or some
start is no later than some end. -/
def DatesMeet (estimate : Estimate) : Prop :=
  (∀ phase ∈ estimate.phases, phase.plannedStart = none) ∨
  (∀ phase ∈ estimate.phases, phase.plannedEnd = none) ∨
  ∃ starting ∈ estimate.phases, ∃ ending ∈ estimate.phases, ∃ start finish,
    starting.plannedStart = some start ∧ ending.plannedEnd = some finish ∧ start ≤ finish

/-! ### Lengths -/

section Lengths

variable {start finish first last : Date}

theorem calendarWeeks_pos (h : start ≤ finish) : 0 < calendarWeeks start finish := by
  have hexact : Exact (1 / 10) := ⟨1, -1, by norm_num, by decide⟩
  have hround : roundTo 2 (1 / 10) = 1 / 10 := by decide +kernel
  have hdays : (1 : Rat) ≤ (finish.ordinal - start.ordinal + 1 : Int) := by
    have := Date.le_iff.mp h
    exact_mod_cast show (1 : Int) ≤ finish.ordinal - start.ordinal + 1 by omega
  have htenth : (1 / 10 : Rat) ≤ div (finish.ordinal - start.ordinal + 1 : Int) 7 := by
    rw [← inContext_exact hexact]
    exact inContext_mono (by norm_num) (by linarith)
  calc (0 : Rat) < 1 / 10 := by norm_num
    _ = roundTo 2 (1 / 10) := hround.symm
    _ ≤ calendarWeeks start finish := roundTo_mono 2 (by norm_num) htenth

theorem calendarWeeks_mono (hstart : start ≤ first) (hfinish : last ≤ finish)
    (h : first ≤ last) : calendarWeeks first last ≤ calendarWeeks start finish := by
  rw [Date.le_iff] at hstart hfinish h
  have hdays : ((last.ordinal - first.ordinal + 1 : Int) : Rat) ≤
      (finish.ordinal - start.ordinal + 1 : Int) := by
    exact_mod_cast show last.ordinal - first.ordinal + 1 ≤ finish.ordinal - start.ordinal + 1 by
      omega
  have hnonneg : (0 : Rat) ≤ (last.ordinal - first.ordinal + 1 : Int) := by
    exact_mod_cast show (0 : Int) ≤ last.ordinal - first.ordinal + 1 by omega
  have hquotient : div (last.ordinal - first.ordinal + 1 : Int) 7 ≤
      div (finish.ordinal - start.ordinal + 1 : Int) 7 :=
    inContext_mono (by positivity) (by gcongr)
  exact roundTo_mono 2 (inContext_nonneg (by positivity)) hquotient

theorem daysWorked_mono (hstart : start ≤ first) (hfinish : last ≤ finish)
    (breaks : List CalendarBreak) :
    daysWorked first last breaks ≤ daysWorked start finish breaks := by
  unfold daysWorked weekdaysWhere
  apply Finset.card_le_card
  apply Finset.filter_subset_filter
  exact Finset.Icc_subset_Icc (Date.le_iff.mp hstart) (Date.le_iff.mp hfinish)

theorem workingDays_mono (hstart : start ≤ first) (hfinish : last ≤ finish)
    (breaks : List CalendarBreak) {factor : Rat} (hfactor : 0 ≤ factor) :
    workingDays first last breaks factor ≤ workingDays start finish breaks factor := by
  have hdays : (daysWorked first last breaks : Rat) ≤ daysWorked start finish breaks := by
    exact_mod_cast daysWorked_mono hstart hfinish breaks
  rw [workingDays_eq, workingDays_eq]
  exact roundTo_mono 2 (inContext_nonneg (by positivity))
    (inContext_mono (by positivity) (by gcongr))

end Lengths

/-! ### The first start and the last end -/

variable {estimate : Estimate} {settings : OverviewSettings}

theorem plannedStart_of_schedule {start : Date} :
    (schedule estimate settings).plannedStart = some start ↔
      (∃ phase ∈ estimate.phases, phase.plannedStart = some start) ∧
        ∀ phase ∈ estimate.phases, ∀ first, phase.plannedStart = some first → start ≤ first := by
  unfold schedule
  dsimp only
  rw [List.min?_eq_some_iff, List.mem_filterMap, List.forall_mem_filterMap]

theorem plannedEnd_of_schedule {finish : Date} :
    (schedule estimate settings).plannedEnd = some finish ↔
      (∃ phase ∈ estimate.phases, phase.plannedEnd = some finish) ∧
        ∀ phase ∈ estimate.phases, ∀ last, phase.plannedEnd = some last → last ≤ finish := by
  unfold schedule
  dsimp only
  rw [List.max?_eq_some_iff, List.mem_filterMap, List.forall_mem_filterMap]

theorem noStart_of_schedule (h : (schedule estimate settings).plannedStart = none) :
    ∀ phase ∈ estimate.phases, phase.plannedStart = none :=
  List.filterMap_eq_nil_iff.mp (List.min?_eq_none_iff.mp h)

theorem noEnd_of_schedule (h : (schedule estimate settings).plannedEnd = none) :
    ∀ phase ∈ estimate.phases, phase.plannedEnd = none :=
  List.filterMap_eq_nil_iff.mp (List.max?_eq_none_iff.mp h)

section Figures

variable {estimate : Estimate} {settings : OverviewSettings} {start finish : Date}

theorem schedule_of_dates (hstart : (schedule estimate settings).plannedStart = some start)
    (hfinish : (schedule estimate settings).plannedEnd = some finish) :
    (schedule estimate settings).calendarWeeks = some (calendarWeeks start finish) ∧
      (schedule estimate settings).workingDays = some (workingDays start finish
        (sortedBreaks estimate) settings.workingDayFactor) := by
  unfold schedule at *
  dsimp only at *
  rw [hstart, hfinish]
  exact ⟨rfl, rfl⟩

theorem dates_of_schedule {weeks : Rat}
    (h : (schedule estimate settings).calendarWeeks = some weeks) :
    ∃ start finish, (schedule estimate settings).plannedStart = some start ∧
      (schedule estimate settings).plannedEnd = some finish ∧
      weeks = calendarWeeks start finish := by
  have hweeks : (schedule estimate settings).calendarWeeks = (do
      return calendarWeeks (← (schedule estimate settings).plannedStart)
        (← (schedule estimate settings).plannedEnd)) := rfl
  rw [hweeks] at h
  cases hstart : (schedule estimate settings).plannedStart with
  | none =>
      rw [hstart] at h
      cases h
  | some start =>
      cases hfinish : (schedule estimate settings).plannedEnd with
      | none =>
          rw [hstart, hfinish] at h
          cases h
      | some finish =>
          rw [hstart, hfinish] at h
          cases h
          exact ⟨start, finish, rfl, rfl, rfl⟩

theorem rowWithin_phaseRow {phase : Phase} (hphase : phase.Accepted)
    (hstart : ∀ first, phase.plannedStart = some first → start ≤ first)
    (hfinish : ∀ last, phase.plannedEnd = some last → last ≤ finish)
    (hfactor : 0 ≤ settings.workingDayFactor) (roles : List EstimateRole)
    (totals : PhaseTotals) :
    RowWithin start finish (calendarWeeks start finish)
      (workingDays start finish (sortedBreaks estimate) settings.workingDayFactor)
      (phaseRow estimate settings roles phase totals) := by
  refine ⟨fun first last hfirst hlast => ⟨hstart first hfirst, hfinish last hlast⟩, ?_⟩
  intro first last (hfirst : phase.plannedStart = some first)
    (hlast : phase.plannedEnd = some last)
  have hrow : (phaseRow estimate settings roles phase totals).calendarWeeks =
        some (calendarWeeks first last) ∧
      (phaseRow estimate settings roles phase totals).workingDays =
        some (workingDays first last (sortedBreaks estimate) settings.workingDayFactor) := by
    unfold phaseRow
    dsimp only
    rw [hfirst, hlast]
    exact ⟨rfl, rfl⟩
  exact ⟨_, _, hrow.1,
    calendarWeeks_mono (hstart first hfirst) (hfinish last hlast)
      (hphase.plannedOrder first last hfirst hlast),
    hrow.2, workingDays_mono (hstart first hfirst) (hfinish last hlast) _ hfactor⟩

end Figures

theorem phases_of_totals {totals : Totals} (h : effortTotals estimate = .ok totals) :
    ∀ counted ∈ totals.phases, counted.1 ∈ estimate.phases := by
  refine foldlM_preserves (P := fun totals : Totals =>
    ∀ counted ∈ totals.phases, counted.1 ∈ estimate.phases) ?_ ?_ h
  · intro s phase hphase t hs hstep
    obtain ⟨after, -, rfl⟩ := phaseStep_eq_ok_iff.mp hstep
    intro counted hcounted
    rcases List.mem_append.mp hcounted with hold | hnew
    · exact hs counted hold
    · obtain rfl := List.mem_singleton.mp hnew
      exact (List.mergeSort_perm _ _).mem_iff.mp hphase
  · intro counted hcounted
    cases hcounted

theorem StoredFactor.nonneg {factor : Rat} (h : StoredFactor factor) : 0 ≤ factor := by
  obtain ⟨n, -, -, rfl⟩ := h
  positivity

section Spans

variable {estimate : Estimate} {settings : OverviewSettings} {generatedAt : Int}
  {result : RollupResult}

theorem datesMeet_of_spans (h : computeRollup estimate settings generatedAt = .ok result)
    (hspans : ScheduleSpans result) : DatesMeet estimate := by
  obtain ⟨totals, htotals, hshows, hfigures⟩ := computeRollup_figures h
  unfold ScheduleSpans at hspans
  rw [hfigures.schedule] at hspans
  cases hstart : (schedule estimate settings).plannedStart with
  | none => exact .inl (noStart_of_schedule hstart)
  | some start =>
      cases hfinish : (schedule estimate settings).plannedEnd with
      | none => exact .inr (.inl (noEnd_of_schedule hfinish))
      | some finish =>
          obtain ⟨start', finish', days, hstart', hfinish', -, hrows⟩ :=
            hspans _ (schedule_of_dates hstart hfinish).1
          cases hstart.symm.trans hstart'
          cases hfinish.symm.trans hfinish'
          obtain ⟨starting, hstarting, hfirst⟩ := (plannedStart_of_schedule.mp hstart).1
          obtain ⟨ending, hending, hlast⟩ := (plannedEnd_of_schedule.mp hfinish).1
          exact .inr (.inr ⟨starting, hstarting, ending, hending, start, finish, hfirst, hlast,
            hrows.forward⟩)

theorem spans_of_datesMeet (haccepted : AcceptedInputs estimate.phases estimate.calendarBreaks
      settings.workingDayFactor)
    (h : computeRollup estimate settings generatedAt = .ok result)
    (hmeet : DatesMeet estimate) : ScheduleSpans result := by
  obtain ⟨totals, htotals, hshows, hfigures⟩ := computeRollup_figures h
  intro weeks hweeks
  rw [hfigures.schedule] at hweeks ⊢
  obtain ⟨start, finish, hstart, hfinish, rfl⟩ := dates_of_schedule hweeks
  obtain ⟨⟨starting, hstarting, hstart'⟩, hfirst⟩ := plannedStart_of_schedule.mp hstart
  obtain ⟨⟨ending, hending, hfinish'⟩, hlast⟩ := plannedEnd_of_schedule.mp hfinish
  have hforward : start ≤ finish := by
    rcases hmeet with hnone | hnone | ⟨early, hearly, late, hlate, first, last, hfirst', hlast',
      hle⟩
    · cases hstart'.symm.trans (hnone starting hstarting)
    · cases hfinish'.symm.trans (hnone ending hending)
    · exact (hfirst early hearly first hfirst').trans (hle.trans (hlast late hlate last hlast'))
  refine ⟨start, finish, _, hstart, hfinish, (schedule_of_dates hstart hfinish).2,
    calendarWeeks_pos hforward, hforward, ?_⟩
  rw [hshows.phases]
  intro row hrow
  obtain ⟨counted, hcounted, rfl⟩ := List.mem_map.mp hrow
  have hphase := phases_of_totals htotals counted hcounted
  exact rowWithin_phaseRow (haccepted.phases _ hphase) (hfirst _ hphase) (hlast _ hphase)
    haccepted.factor.nonneg _ _

end Spans

/-- A phase with a start and no end, and a phase with an end and no start. -/
def halfDated (start finish : Date) : Estimate :=
  { smallEstimate 10 800000000 1 10 with
    phases :=
      [{ id := "p", code := "P1", name := "Design", sortOrder := 0, plannedStart := some start
         plannedEnd := none, actualStart := none, actualEnd := none, gateStatus := "pending"
         gateCriteria := "", statedWorkingWeeks := none, tasks := [], allocations := [] },
       { id := "q", code := "P2", name := "Build", sortOrder := 1, plannedStart := none
         plannedEnd := some finish, actualStart := none, actualEnd := none
         gateStatus := "pending", gateCriteria := "", statedWorkingWeeks := none
         tasks := [], allocations := [] }] }

theorem accepted_halfDated (start finish : Date) :
    AcceptedInputs (halfDated start finish).phases (halfDated start finish).calendarBreaks
      defaultSettings.workingDayFactor := by
  refine ⟨?_, by simp [halfDated, smallEstimate], 10 ^ 4, by norm_num, le_rfl, ?_⟩
  · intro phase hphase
    rcases List.mem_cons.mp hphase with rfl | hphase
    · exact ⟨by simp, by simp, by simp, by simp⟩
    · obtain rfl := List.mem_singleton.mp hphase
      exact ⟨by simp, by simp, by simp, by simp⟩
  · unfold defaultSettings
    norm_num

theorem datesMeet_halfDated {start finish : Date} (h : DatesMeet (halfDated start finish)) :
    start ≤ finish := by
  simpa [DatesMeet, halfDated] using h

theorem computeRollup_halfDated (start finish : Date) :
    ∃ result, computeRollup (halfDated start finish) defaultSettings 0 = .ok result := by
  have hids : (halfDated start finish).DistinctIds :=
    ⟨List.nodup_singleton _, List.nodup_singleton _⟩
  have hprice : canPrice (sortedRoles (smallEstimate 10 800000000 1 10)) = true := by
    decide +kernel
  have hefforts : allEfforts (halfDated start finish) = [] := rfl
  obtain ⟨totals, htotals⟩ := (effortTotals_returns_iff (halfDated start finish)).mpr (by
    rw [hefforts]
    exact fun effort heffort => by cases heffort)
  have hrows := (tierRows_returns_iff hids hprice htotals).mpr (by
    intro pct hpct tier _
    cases hpct
    have hfees : labourFees (halfDated start finish) tier = 0 := rfl
    rw [hfees]
    decide +kernel)
  exact (computeRollup_returns_iff _ _ _).mpr ⟨totals, htotals, hrows⟩

/-- Of an estimate that the tables accept, the schedule that the rollup gives spans the phases
if and only if, where there are planned starts and planned ends, some start is no later than
some end. -/
theorem computeRollup_spans_iff (estimate : Estimate) (settings : OverviewSettings)
    (generatedAt : Int) (result : RollupResult)
    (haccepted : AcceptedInputs estimate.phases estimate.calendarBreaks
      settings.workingDayFactor)
    (h : computeRollup estimate settings generatedAt = .ok result) :
    ScheduleSpans result ↔ DatesMeet estimate :=
  ⟨datesMeet_of_spans h, spans_of_datesMeet haccepted h⟩

/-- A start on 2025-01-06, and an end on 2025-12-19. -/
theorem computeRollup_spans_year :
    ∃ result, computeRollup (halfDated (daysAfterMin 739256 rfl) (daysAfterMin 739603 rfl))
        defaultSettings 0 = .ok result ∧
      (ScheduleSpans result ↔
        DatesMeet (halfDated (daysAfterMin 739256 rfl) (daysAfterMin 739603 rfl))) := by
  obtain ⟨result, h⟩ :=
    computeRollup_halfDated (daysAfterMin 739256 rfl) (daysAfterMin 739603 rfl)
  exact ⟨result, h, computeRollup_spans_iff _ _ _ _ (accepted_halfDated _ _) h⟩

/-- A start on 2025-01-06, and an end on 2024-12-20: the schedule ends before it starts. -/
theorem half_dated_schedule_backward :
    ¬ ∀ (estimate : Estimate) (settings : OverviewSettings) (generatedAt : Int)
      (result : RollupResult), AcceptedInputs estimate.phases estimate.calendarBreaks
        settings.workingDayFactor → computeRollup estimate settings generatedAt = .ok result →
      ScheduleSpans result := by
  intro hall
  obtain ⟨result, h⟩ :=
    computeRollup_halfDated (daysAfterMin 739256 rfl) (daysAfterMin 739239 rfl)
  have hspans := hall _ _ _ result (accepted_halfDated _ _) h
  have hle := datesMeet_halfDated (datesMeet_of_spans h hspans)
  exact absurd (Date.le_iff.mp hle) (by decide)

end Qontinui.Overview
