import Qontinui.Overview.Forecast

/-!
What keeps the forecast within the range of dates: the end of a phase that has not started is
moved by what is late before it, and `date + timedelta` raises past `date.max`.
-/

namespace Qontinui.Overview

open FallibleLoops PyDecimal

/-- What the tables require of a phase. -/
structure Phase.Accepted (phase : Phase) : Prop where
  statedWorkingWeeks : ∀ weeks, phase.statedWorkingWeeks = some weeks → 0 ≤ weeks
  gateStatus : phase.gateStatus ∈ ["pending", "passed", "failed", "waived"]
  plannedOrder : ∀ start finish, phase.plannedStart = some start →
    phase.plannedEnd = some finish → start ≤ finish
  actualOrder : ∀ start finish, phase.actualStart = some start →
    phase.actualEnd = some finish → start ≤ finish

/-- The factor that the settings store: of four places, above 0 and at most 1. -/
def StoredFactor (factor : Rat) : Prop := ∃ n : Nat, 0 < n ∧ n ≤ 10 ^ 4 ∧ factor = n / 10 ^ 4

structure AcceptedInputs (phases : List Phase) (breaks : List CalendarBreak) (factor : Rat) :
    Prop where
  phases : ∀ phase ∈ phases, phase.Accepted
  breaks : ∀ brk ∈ breaks, brk.startDate ≤ brk.endDate
  factor : StoredFactor factor

/-- How many days late a phase is by its own dates and by today, were the phases before it on
time. -/
def lateness (today : Date) (phase : Phase) : Option Int :=
  match phase.actualEnd with
  | some finish => phase.plannedEnd.map fun plannedEnd => finish.ordinal - plannedEnd.ordinal
  | none =>
      match phase.plannedStart, phase.plannedEnd with
      | some plannedStart, some plannedEnd =>
          match phase.actualStart with
          | some start => some (max (start.ordinal - plannedStart.ordinal)
              (today.ordinal - plannedEnd.ordinal))
          | none => some (today.ordinal - plannedStart.ordinal)
      | _, _ => none

/-- The end of an open phase with both planned dates is a date, moved by what is late before it. -/
structure EndInRange (today : Date) (before : List Phase) (phase : Phase) : Prop where
  inProgress : ∀ start plannedStart plannedEnd, phase.actualEnd = none →
    phase.actualStart = some start → phase.plannedStart = some plannedStart →
    phase.plannedEnd = some plannedEnd →
    start.ordinal + (plannedEnd.ordinal - plannedStart.ordinal) ≤ dateMax.ordinal
  notStarted : ∀ plannedStart plannedEnd, phase.actualEnd = none → phase.actualStart = none →
    phase.plannedStart = some plannedStart → phase.plannedEnd = some plannedEnd →
    ∀ other ∈ before ++ [phase], ∀ days, lateness today other = some days →
      plannedEnd.ordinal + days ≤ dateMax.ordinal

def EndsInRange (phases : List Phase) (today : Date) : Prop :=
  ∀ before phase after, orderedPhases phases = before ++ phase :: after →
    EndInRange today before phase

section Range

variable {phase : Phase} {today : Date} {delay : Int}

/-- A phase moved by a delay ends in the range of dates. -/
structure MovedInRange (today : Date) (delay : Int) (phase : Phase) : Prop where
  inProgress : ∀ start plannedStart plannedEnd, phase.actualEnd = none →
    phase.actualStart = some start → phase.plannedStart = some plannedStart →
    phase.plannedEnd = some plannedEnd →
    start.ordinal + (plannedEnd.ordinal - plannedStart.ordinal) ≤ dateMax.ordinal
  notStarted : ∀ plannedStart plannedEnd, phase.actualEnd = none → phase.actualStart = none →
    phase.plannedStart = some plannedStart → phase.plannedEnd = some plannedEnd →
    plannedEnd.ordinal + delay ≤ dateMax.ordinal ∧
      plannedEnd.ordinal + (today.ordinal - plannedStart.ordinal) ≤ dateMax.ordinal

/-- The delay carried past a phase is the larger of its lateness and the delay before it. -/
theorem carry_lateness {forecast : PhaseForecast}
    (h : phaseForecast phase today delay = .ok forecast) :
    carry delay (slip forecast.finish phase.plannedEnd) = carry delay (lateness today phase) := by
  have hfinishes := finishes_of_eq_ok h
  generalize forecast.finish = finish at hfinishes
  unfold lateness
  cases hfinishes with
  | done hend =>
      rw [hend]
      cases phase.plannedEnd <;> rfl
  | undated hend hundated =>
      rw [hend]
      cases hstart : phase.plannedStart with
      | none => rfl
      | some plannedStart =>
          cases hplanned : phase.plannedEnd with
          | none => rfl
          | some plannedEnd => simp [Phase.undated, hstart, hplanned] at hundated
  | @dated plannedStart plannedEnd finish hend hstart hplanned hfinish =>
      rw [hend, hstart, hplanned]
      have hslip : slip (some finish) (some plannedEnd) =
          some (openEnd phase plannedStart plannedEnd today delay - plannedEnd.ordinal) := by
        rw [← hfinish]
        rfl
      rw [hslip]
      cases hactual : phase.actualStart with
      | some | none =>
          simp only [openEnd, hactual, carry]
          omega

theorem inProgress_returns_iff {start plannedStart plannedEnd : Date}
    (hend : phase.actualEnd = none) (hstart : phase.plannedStart = some plannedStart)
    (hplanned : phase.plannedEnd = some plannedEnd) (hactual : phase.actualStart = some start)
    (horder : plannedStart.ordinal ≤ plannedEnd.ordinal) :
    (∃ forecast : PhaseForecast, (do
      let finish ← start.addDays (plannedEnd.ordinal - plannedStart.ordinal)
      return ⟨.inProgress, some start, some (max finish today)⟩) = Except.ok forecast) ↔
      MovedInRange today delay phase := by
  have hinRange := start.inRange
  have hreturns := @exists_addDays_iff start (plannedEnd.ordinal - plannedStart.ordinal)
  constructor
  · rintro ⟨forecast, hforecast⟩
    obtain ⟨finish, hfinish, -⟩ := bind_eq_ok_iff.mp hforecast
    refine ⟨?_, ?_⟩
    · intro start' plannedStart' plannedEnd' _ hactual' hstart' hplanned'
      cases hactual.symm.trans hactual'
      cases hstart.symm.trans hstart'
      cases hplanned.symm.trans hplanned'
      exact (hreturns.mp ⟨finish, hfinish⟩).2
    · intro plannedStart' plannedEnd' _ hnone
      cases hactual.symm.trans hnone
  · intro h
    have hmax := h.inProgress _ _ _ hend hactual hstart hplanned
    obtain ⟨finish, hfinish⟩ := hreturns.mpr ⟨by omega, hmax⟩
    exact ⟨_, bind_eq_ok_iff.mpr ⟨finish, hfinish, rfl⟩⟩

theorem notStarted_returns_iff {plannedStart plannedEnd : Date} (hdelay : 0 ≤ delay)
    (hend : phase.actualEnd = none) (hstart : phase.plannedStart = some plannedStart)
    (hplanned : phase.plannedEnd = some plannedEnd) (hactual : phase.actualStart = none)
    (horder : plannedStart.ordinal ≤ plannedEnd.ordinal) :
    (∃ forecast : PhaseForecast, (do
      let moved ← plannedStart.addDays delay
      let start := max moved today
      let finish ← start.addDays (plannedEnd.ordinal - plannedStart.ordinal)
      return ⟨.notStarted, some start, some finish⟩) = Except.ok forecast) ↔
      MovedInRange today delay phase := by
  have hinRange := plannedStart.inRange
  have hdate : dateMax.ordinal = 3652059 := rfl
  constructor
  · rintro ⟨forecast, hforecast⟩
    obtain ⟨moved, hmoved, hrest⟩ := bind_eq_ok_iff.mp hforecast
    obtain ⟨finish, hfinish, -⟩ := bind_eq_ok_iff.mp hrest
    refine ⟨?_, ?_⟩
    · intro start plannedStart' plannedEnd' _ hsome
      cases hactual.symm.trans hsome
    · intro plannedStart' plannedEnd' _ _ hstart' hplanned'
      cases hstart.symm.trans hstart'
      cases hplanned.symm.trans hplanned'
      have hlast := finish.inRange.2
      rw [addDays_eq_ok_iff.mp hfinish, max_ordinal, addDays_eq_ok_iff.mp hmoved] at hlast
      omega
  · intro h
    obtain ⟨hmoved, htoday⟩ := h.notStarted _ _ hend hactual hstart hplanned
    obtain ⟨moved, hmoved'⟩ := (@exists_addDays_iff plannedStart delay).mpr
      ⟨by omega, by omega⟩
    have hordinal := addDays_eq_ok_iff.mp hmoved'
    have hfirst := (max moved today).inRange.1
    have hlast : (max moved today).ordinal + (plannedEnd.ordinal - plannedStart.ordinal) ≤
        dateMax.ordinal := by
      rw [max_ordinal]
      omega
    obtain ⟨finish, hfinish⟩ := exists_addDays_iff.mpr ⟨by omega, hlast⟩
    exact ⟨_, bind_eq_ok_iff.mpr ⟨moved, hmoved', bind_eq_ok_iff.mpr ⟨finish, hfinish, rfl⟩⟩⟩

theorem phaseForecast_returns_iff (hdelay : 0 ≤ delay) (haccepted : phase.Accepted) :
    (∃ forecast, phaseForecast phase today delay = .ok forecast) ↔
      MovedInRange today delay phase := by
  unfold phaseForecast
  cases hend : phase.actualEnd with
  | some finish =>
      refine iff_of_true ⟨_, rfl⟩ ⟨?_, ?_⟩
      · intro start plannedStart plannedEnd hopen
        cases hend.symm.trans hopen
      · intro plannedStart plannedEnd hopen
        cases hend.symm.trans hopen
  | none =>
      cases hstart : phase.plannedStart with
      | none =>
          refine iff_of_true ⟨_, rfl⟩ ⟨?_, ?_⟩
          · intro start plannedStart plannedEnd _ _ hdated
            cases hstart.symm.trans hdated
          · intro plannedStart plannedEnd _ _ hdated
            cases hstart.symm.trans hdated
      | some plannedStart =>
          cases hplanned : phase.plannedEnd with
          | none =>
              refine iff_of_true ⟨_, rfl⟩ ⟨?_, ?_⟩
              · intro start plannedStart plannedEnd _ _ _ hdated
                cases hplanned.symm.trans hdated
              · intro plannedStart plannedEnd _ _ _ hdated
                cases hplanned.symm.trans hdated
          | some plannedEnd =>
              have horder := Date.le_iff.mp (haccepted.plannedOrder _ _ hstart hplanned)
              cases hactual : phase.actualStart with
              | some start => exact inProgress_returns_iff hend hstart hplanned hactual horder
              | none => exact notStarted_returns_iff hdelay hend hstart hplanned hactual horder

def delayPast (today : Date) (delay : Int) (phases : List Phase) : Int :=
  phases.foldl (fun carried phase => carry carried (lateness today phase)) delay

theorem add_carry_le_iff {delay bound x : Int} {days : Option Int} :
    x + carry delay days ≤ bound ↔ x + delay ≤ bound ∧ ∀ d, days = some d → x + d ≤ bound := by
  cases days with
  | none => simp [carry]
  | some d =>
      simp only [carry, Option.some.injEq, forall_eq']
      omega

theorem add_delayPast_le_iff {bound x : Int} {phases : List Phase} :
    x + delayPast today delay phases ≤ bound ↔
      x + delay ≤ bound ∧
        ∀ phase ∈ phases, ∀ days, lateness today phase = some days → x + days ≤ bound := by
  unfold delayPast
  induction phases generalizing delay with
  | nil => simp
  | cons phase rest ih =>
      rw [List.foldl_cons, ih, add_carry_le_iff, List.forall_mem_cons, and_assoc]

theorem carry_nonneg (hdelay : 0 ≤ delay) (days : Option Int) : 0 ≤ carry delay days := by
  cases days with
  | none => exact hdelay
  | some d => exact hdelay.trans (le_max_left _ _)

theorem forecastRows_returns_iff {phases : List Phase} (hdelay : 0 ≤ delay)
    (haccepted : ∀ phase ∈ phases, phase.Accepted) :
    (∃ rows, forecastRows today delay phases = .ok rows) ↔
      ∀ before phase after, phases = before ++ phase :: after →
        MovedInRange today (delayPast today delay before) phase := by
  induction phases generalizing delay with
  | nil => simp [forecastRows]
  | cons first rest ih =>
      obtain ⟨hfirst, hrest⟩ := List.forall_mem_cons.mp haccepted
      have hreturns := @phaseForecast_returns_iff first today delay hdelay hfirst
      have hcarry := carry_nonneg hdelay (lateness today first)
      constructor
      · rintro ⟨rows, h⟩ before phase after hsplit
        obtain ⟨forecast, hforecast, hlater⟩ := bind_eq_ok_iff.mp h
        obtain ⟨later, hlater, -⟩ := bind_eq_ok_iff.mp hlater
        rw [carry_lateness hforecast] at hlater
        cases before with
        | nil =>
            cases hsplit
            exact hreturns.mp ⟨forecast, hforecast⟩
        | cons _ before =>
            cases hsplit
            exact (ih hcarry hrest).mp ⟨later, hlater⟩ before phase after rfl
      · intro h
        obtain ⟨forecast, hforecast⟩ := hreturns.mpr (h [] first rest rfl)
        obtain ⟨later, hlater⟩ := (ih hcarry hrest).mpr fun before phase after hsplit =>
          h (first :: before) phase after (by rw [hsplit]; rfl)
        rw [← carry_lateness hforecast] at hlater
        exact ⟨_, bind_eq_ok_iff.mpr ⟨forecast, hforecast,
          bind_eq_ok_iff.mpr ⟨later, hlater, rfl⟩⟩⟩

theorem movedInRange_iff (before : List Phase) (phase : Phase) :
    MovedInRange today (delayPast today 0 before) phase ↔ EndInRange today before phase := by
  constructor
  · intro h
    refine ⟨h.inProgress, ?_⟩
    intro plannedStart plannedEnd hend hactual hstart hplanned other hother days hdays
    obtain ⟨hmoved, htoday⟩ := h.notStarted _ _ hend hactual hstart hplanned
    rw [add_delayPast_le_iff] at hmoved
    rcases List.mem_append.mp hother with hbefore | hself
    · exact hmoved.2 other hbefore days hdays
    · cases List.mem_singleton.mp hself
      simp only [lateness, hend, hactual, hstart, hplanned, Option.some.injEq] at hdays
      exact hdays ▸ htoday
  · intro h
    refine ⟨h.inProgress, ?_⟩
    intro plannedStart plannedEnd hend hactual hstart hplanned
    have hlate := h.notStarted _ _ hend hactual hstart hplanned
    refine ⟨add_delayPast_le_iff.mpr ⟨?_, fun other hother => ?_⟩, ?_⟩
    · rw [add_zero]
      exact plannedEnd.inRange.2
    · exact hlate other (List.mem_append_left _ hother)
    · refine hlate phase (by simp) _ ?_
      simp only [lateness, hend, hactual, hstart, hplanned]

end Range

variable {factor : Rat}

theorem workingDaysOrError_returns (hfactor : StoredFactor factor) (start finish : Date)
    (breaks : List CalendarBreak) :
    workingDaysOrError start finish breaks factor =
      .ok (roundTo 2 (daysWorked start finish breaks * factor)) := by
  obtain ⟨n, -, hn, rfl⟩ := hfactor
  obtain ⟨hexact, hfits⟩ := stored_factor_fits start finish breaks hn
  rw [workingDaysOrError_eq, mul, inContext_exact hexact, quantizeTo, if_pos hfits]

theorem plannedWeeks_returns (hfactor : StoredFactor factor)
    (plannedStart plannedFinish : Option Date) (breaks : List CalendarBreak) :
    ∃ weeks, plannedWeeks plannedStart plannedFinish breaks factor = .ok weeks := by
  cases plannedStart with
  | none => exact ⟨none, rfl⟩
  | some start =>
      cases plannedFinish with
      | none => exact ⟨none, rfl⟩
      | some finish =>
          have hdays := workingDaysOrError_returns hfactor start finish breaks
          exact ⟨_, by rw [plannedWeeks, hdays]⟩

theorem computeForecast_returns_iff {phases : List Phase} {breaks : List CalendarBreak}
    {today : Date} (hfactor : StoredFactor factor) :
    (∃ forecast, computeForecast phases breaks factor today = .ok forecast) ↔
      ∃ rows, forecastRows today 0 (orderedPhases phases) = .ok rows := by
  constructor
  · rintro ⟨forecast, h⟩
    exact ⟨_, (computeForecast_eq_ok h).1⟩
  · rintro ⟨rows, h⟩
    obtain ⟨weeks, hweeks⟩ := plannedWeeks_returns hfactor
      ((orderedPhases phases).filterMap (·.plannedStart)).min?
      ((orderedPhases phases).filterMap (·.plannedEnd)).max?
      (breaks.mergeSort fun a b => a.startDate ≤ b.startDate)
    exact ⟨_, bind_eq_ok_iff.mpr ⟨weeks, hweeks, bind_eq_ok_iff.mpr ⟨rows, h, rfl⟩⟩⟩

theorem rows_return_iff {phases : List Phase} {today : Date}
    (haccepted : ∀ phase ∈ phases, phase.Accepted) :
    (∃ rows, forecastRows today 0 (orderedPhases phases) = .ok rows) ↔
      EndsInRange phases today := by
  have hordered : ∀ phase ∈ orderedPhases phases, phase.Accepted := fun phase hphase =>
    haccepted phase (List.mem_mergeSort.mp hphase)
  unfold EndsInRange
  simp only [← movedInRange_iff]
  exact forecastRows_returns_iff le_rfl hordered

/-- The forecast of accepted phases raises nothing exactly where every phase that has not ended,
moved by what is late before it, ends in the range of dates. -/
theorem forecast_returns_in_range (phases : List Phase) (breaks : List CalendarBreak)
    (factor : Rat) (today : Date) (haccepted : AcceptedInputs phases breaks factor) :
    (∃ forecast, computeForecast phases breaks factor today = .ok forecast) ↔
      EndsInRange phases today :=
  (computeForecast_returns_iff haccepted.factor).trans (rows_return_iff haccepted.phases)

/-! ### A plan of two phases -/

def donePhase (finish : Date) : Phase :=
  { id := "a", code := "A0", name := "Build", sortOrder := 0
    plannedStart := some (daysAfterMin 739620 rfl)
    plannedEnd := some (daysAfterMin 739645 rfl)
    actualStart := none
    actualEnd := some finish
    gateStatus := "passed", gateCriteria := "", statedWorkingWeeks := none, tasks := []
    allocations := [] }

def openPhase (day : Date) : Phase :=
  { id := "b", code := "A1", name := "Handover", sortOrder := 1
    plannedStart := some day
    plannedEnd := some day
    actualStart := none
    actualEnd := none
    gateStatus := "pending", gateCriteria := "", statedWorkingWeeks := none, tasks := []
    allocations := [] }

theorem orderedPhases_two (finish day : Date) :
    orderedPhases [donePhase finish, openPhase day] = [donePhase finish, openPhase day] := by
  apply List.mergeSort_of_pairwise
  simp [donePhase, openPhase]

theorem accepted_two (finish day : Date) :
    AcceptedInputs [donePhase finish, openPhase day] [] 1 := by
  have hdone : (donePhase finish).Accepted := by
    refine ⟨by simp [donePhase], by simp [donePhase], ?_, by simp [donePhase]⟩
    intro _ _ hstart hfinish
    cases hstart
    cases hfinish
    exact Date.le_iff.mpr (by decide)
  have hopen : (openPhase day).Accepted := by
    refine ⟨by simp [openPhase], by simp [openPhase], ?_, by simp [openPhase]⟩
    intro _ _ hstart hfinish
    cases hstart
    cases hfinish
    exact le_rfl
  exact ⟨by simp [hdone, hopen], by simp, 10 ^ 4, by norm_num, le_rfl, by norm_num⟩

theorem endsInRange_two_iff (finish day today : Date) :
    EndsInRange [donePhase finish, openPhase day] today ↔
      day.ordinal + (finish.ordinal - 739646) ≤ dateMax.ordinal := by
  unfold EndsInRange
  rw [orderedPhases_two]
  constructor
  · intro h
    exact (h [donePhase finish] (openPhase day) [] rfl).notStarted day day rfl rfl rfl rfl
      (donePhase finish) (by simp) _ rfl
  · intro h before phase after hsplit
    rcases before with _ | ⟨first, _ | ⟨second, rest⟩⟩
    · cases hsplit
      constructor
      · intro _ _ _ hend
        cases hend
      · intro _ _ hend
        cases hend
    · cases hsplit
      constructor
      · intro _ _ _ _ hactual
        cases hactual
      intro plannedStart plannedEnd _ _ hstart hplanned other hother days hdays
      cases hstart
      cases hplanned
      simp only [List.cons_append, List.nil_append, List.mem_cons, List.not_mem_nil, or_false]
        at hother
      rcases hother with rfl | rfl
      · cases hdays
        exact h
      · cases hdays
        rw [add_sub_cancel]
        exact today.inRange.2
    · simp at hsplit

/-- Done ten days late, before a phase planned for `date.max`. -/
theorem late_before_date_max_raises :
    ¬ ∀ (phases : List Phase) (breaks : List CalendarBreak) (factor : Rat) (today : Date),
      AcceptedInputs phases breaks factor →
      ∃ forecast, computeForecast phases breaks factor today = .ok forecast := by
  intro hall
  have hreturns := hall [donePhase (daysAfterMin 739655 rfl), openPhase dateMax] [] 1
    (daysAfterMin 739656 rfl) (accepted_two _ _)
  have haccepted := accepted_two (daysAfterMin 739655 rfl) dateMax
  rw [computeForecast_returns_iff haccepted.factor, rows_return_iff haccepted.phases,
    endsInRange_two_iff] at hreturns
  revert hreturns
  decide

/-- Done ten days late, before a phase planned for 2026-03-02. -/
theorem late_before_march_returns :
    (∃ forecast, computeForecast
        [donePhase (daysAfterMin 739655 rfl), openPhase (daysAfterMin 739676 rfl)] [] 1
        (daysAfterMin 739656 rfl) = .ok forecast) ↔
      EndsInRange [donePhase (daysAfterMin 739655 rfl), openPhase (daysAfterMin 739676 rfl)]
        (daysAfterMin 739656 rfl) :=
  forecast_returns_in_range _ _ _ _ (accepted_two _ _)

end Qontinui.Overview
