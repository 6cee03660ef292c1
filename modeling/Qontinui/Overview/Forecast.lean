import Mathlib.Data.Option.Basic
import Qontinui.Base.FallibleLoops
import Qontinui.Overview.DayCounts
import Qontinui.Overview.Rollup

/-!
`compute_forecast`: where a delivery stands against its plan. The loop over the phases carries
the largest finish slip so far to the phases that have not started, so a later fact never makes
the forecast earlier.
-/

namespace Qontinui.Overview

open FallibleLoops PyDecimal

/-- What the forecast can raise: a date out of range, or a figure of too many digits. -/
inductive ForecastError where
  | overflowError
  | decimal (error : DecimalException)
deriving DecidableEq, Repr

/-- `date + timedelta(days=days)`. -/
def Date.addDays (d : Date) (days : Int) : Except ForecastError Date :=
  if h : 1 ≤ d.ordinal + days ∧ d.ordinal + days ≤ 3652059 then .ok ⟨d.ordinal + days, h⟩
  else .error .overflowError

inductive PhaseState where
  | done
  | inProgress
  | notStarted
deriving DecidableEq, Repr

structure PhaseForecast where
  state : PhaseState
  start : Option Date
  finish : Option Date
deriving DecidableEq, Repr

/-- `_phase_forecast`. -/
def phaseForecast (phase : Phase) (today : Date) (delayDays : Int) :
    Except ForecastError PhaseForecast :=
  match phase.actualEnd with
  | some finish => .ok ⟨.done, phase.actualStart.or phase.plannedStart, some finish⟩
  | none =>
      let state := if phase.actualStart.isSome then PhaseState.inProgress else .notStarted
      match phase.plannedStart, phase.plannedEnd with
      | some plannedStart, some plannedEnd =>
          let length := plannedEnd.ordinal - plannedStart.ordinal
          match phase.actualStart with
          | some actualStart => do
              let finish ← actualStart.addDays length
              return ⟨state, some actualStart, some (max finish today)⟩
          | none => do
              let moved ← plannedStart.addDays delayDays
              let start := max moved today
              let finish ← start.addDays length
              return ⟨state, some start, some finish⟩
      | _, _ => .ok ⟨state, phase.actualStart, none⟩

/-- `_slip`. -/
def slip (actual planned : Option Date) : Option Int := do
  return (← actual).ordinal - (← planned).ordinal

structure PhaseRef where
  id : Uuid
  code : String
  name : String
deriving DecidableEq, Repr

/-- `_ref`. -/
def ref (phase : Phase) : PhaseRef := ⟨phase.id, phase.code, phase.name⟩

structure ForecastRow where
  phase : PhaseRef
  state : PhaseState
  forecastStart : Option Date
  forecastEnd : Option Date
  startSlipDays : Option Int
  finishSlipDays : Option Int
deriving DecidableEq, Repr

def carry (delay : Int) (finishSlip : Option Int) : Int :=
  match finishSlip with
  | some days => max delay days
  | none => delay

def forecastRow (phase : Phase) (forecast : PhaseForecast) : ForecastRow :=
  { phase := ref phase
    state := forecast.state
    forecastStart := forecast.start
    forecastEnd := forecast.finish
    startSlipDays := slip forecast.start phase.plannedStart
    finishSlipDays := slip forecast.finish phase.plannedEnd }

/-- The rest of the loop over the phases, with the delay carried so far. -/
def forecastRows (today : Date) : Int → List Phase → Except ForecastError (List ForecastRow)
  | _, [] => .ok []
  | delay, phase :: rest => do
      let forecast ← phaseForecast phase today delay
      let later ← forecastRows today (carry delay (slip forecast.finish phase.plannedEnd)) rest
      return forecastRow phase forecast :: later

def orderedPhases (phases : List Phase) : List Phase :=
  phases.mergeSort fun a b =>
    a.sortOrder < b.sortOrder || (a.sortOrder == b.sortOrder && a.code ≤ b.code)

def Phase.undated (phase : Phase) : Bool := phase.plannedStart.isNone || phase.plannedEnd.isNone

/-- Calendar and working weeks of the plan, where it has a start and a finish. -/
def plannedWeeks (plannedStart plannedFinish : Option Date) (breaks : List CalendarBreak)
    (workingDayFactor : Rat) : Except ForecastError (Option (Rat × Rat)) :=
  match plannedStart, plannedFinish with
  | some start, some finish =>
      match workingDaysOrError start finish breaks workingDayFactor with
      | .ok days => .ok (some (calendarWeeks start finish, workingWeeks days))
      | .error error => .error (.decimal error)
  | _, _ => .ok none

inductive Position where
  | noPhases
  | inProgress
  | finished
  | notStarted
  | betweenPhases
deriving DecidableEq, Repr

def phasesIn (state : PhaseState) (ordered : List Phase) (rows : List ForecastRow) : List Phase :=
  ((ordered.zip rows).filter fun entry => entry.2.state == state).map Prod.fst

def position (ordered : List Phase) (rows : List ForecastRow) : Position :=
  let notStarted := phasesIn .notStarted ordered rows
  if ordered = [] then .noPhases
  else if phasesIn .inProgress ordered rows ≠ [] then .inProgress
  else if notStarted = [] then .finished
  else if notStarted.length = ordered.length then .notStarted
  else .betweenPhases

structure GateRef where
  phase : PhaseRef
  criteria : String
deriving DecidableEq, Repr

/-- The latest forecast end, only when every phase can be forecast. -/
def forecastFinish (ordered : List Phase) (rows : List ForecastRow) : Option Date :=
  if ordered.filter (·.undated) = [] then (rows.filterMap (·.forecastEnd)).max? else none

def forecastUnavailable (ordered : List Phase) : List Unavailable :=
  let undated := ordered.filter (·.undated)
  if ordered = [] then
    [{ figure := "forecast", reason := "no_phases", detail := "This estimate has no phases yet." }]
  else if undated ≠ [] then
    [{ figure := "forecast", reason := "phase_dates_missing"
       detail := "No forecast while " ++
        ", ".intercalate (undated.map fun p => p.code ++ " (" ++ p.name ++ ")") ++
        (if undated.length = 1 then " has" else " have") ++ " no planned start and end." }]
  else []

structure Forecast where
  today : Date
  plannedStart : Option Date
  plannedFinish : Option Date
  calendarWeeks : Option Rat
  workingWeeks : Option Rat
  position : Position
  currentPhase : Option PhaseRef
  nextPhase : Option PhaseRef
  nextGate : Option GateRef
  forecastFinish : Option Date
  slipDays : Option Int
  phases : List ForecastRow
  unavailable : List Unavailable
deriving DecidableEq, Repr

/-- `compute_forecast`. -/
def computeForecast (phases : List Phase) (breaks : List CalendarBreak) (workingDayFactor : Rat)
    (today : Date) : Except ForecastError Forecast := do
  let ordered := orderedPhases phases
  let sorted := breaks.mergeSort fun a b => a.startDate ≤ b.startDate
  let plannedStart := (ordered.filterMap (·.plannedStart)).min?
  let plannedFinish := (ordered.filterMap (·.plannedEnd)).max?
  let weeks ← plannedWeeks plannedStart plannedFinish sorted workingDayFactor
  let rows ← forecastRows today 0 ordered
  let finish := forecastFinish ordered rows
  return {
    today
    plannedStart
    plannedFinish
    calendarWeeks := weeks.map Prod.fst
    workingWeeks := weeks.map Prod.snd
    position := position ordered rows
    currentPhase := (phasesIn .inProgress ordered rows).head?.map ref
    nextPhase := (phasesIn .notStarted ordered rows).head?.map ref
    nextGate := (ordered.find? (·.gateStatus == "pending")).map fun phase =>
      ⟨ref phase, phase.gateCriteria⟩
    forecastFinish := finish
    slipDays := slip finish plannedFinish
    phases := rows
    unavailable := forecastUnavailable ordered }

theorem addDays_eq_ok_iff {d e : Date} {days : Int} :
    d.addDays days = .ok e ↔ e.ordinal = d.ordinal + days := by
  unfold Date.addDays
  split
  · next h =>
      rw [Except.ok.injEq]
      constructor
      · rintro rfl
        rfl
      · intro he
        cases e
        cases he
        rfl
  · next h =>
      constructor
      · intro herror
        cases herror
      · intro he
        exact absurd (he ▸ e.inRange) h

theorem exists_addDays_iff {d : Date} {days : Int} :
    (∃ e, d.addDays days = .ok e) ↔
      1 ≤ d.ordinal + days ∧ d.ordinal + days ≤ dateMax.ordinal := by
  constructor
  · rintro ⟨e, he⟩
    rw [addDays_eq_ok_iff] at he
    exact he ▸ e.inRange
  · intro h
    exact ⟨⟨d.ordinal + days, h⟩, addDays_eq_ok_iff.mpr rfl⟩

/-- Where an open phase with both planned dates is forecast to end. -/
def openEnd (phase : Phase) (plannedStart plannedEnd today : Date) (delayDays : Int) : Int :=
  let length := plannedEnd.ordinal - plannedStart.ordinal
  match phase.actualStart with
  | some start => max (start.ordinal + length) today.ordinal
  | none => max (plannedStart.ordinal + delayDays) today.ordinal + length

/-- The forecast end of a phase. -/
inductive Finishes (phase : Phase) (today : Date) (delayDays : Int) : Option Date → Prop
  | done {finish : Date} (hend : phase.actualEnd = some finish) :
      Finishes phase today delayDays (some finish)
  | undated (hend : phase.actualEnd = none) (hundated : phase.undated = true) :
      Finishes phase today delayDays none
  | dated {plannedStart plannedEnd finish : Date} (hend : phase.actualEnd = none)
      (hstart : phase.plannedStart = some plannedStart)
      (hplanned : phase.plannedEnd = some plannedEnd)
      (hfinish : finish.ordinal = openEnd phase plannedStart plannedEnd today delayDays) :
      Finishes phase today delayDays (some finish)

variable {today : Date}

theorem finishes_of_eq_ok {phase : Phase} {delay : Int} {forecast : PhaseForecast}
    (h : phaseForecast phase today delay = .ok forecast) :
    Finishes phase today delay forecast.finish := by
  unfold phaseForecast at h
  cases hend : phase.actualEnd with
  | some finish =>
      rw [hend] at h
      cases h
      exact .done hend
  | none =>
      rw [hend] at h
      cases hstart : phase.plannedStart with
      | none =>
          rw [hstart] at h
          cases h
          exact .undated hend (by simp [Phase.undated, hstart])
      | some plannedStart =>
          cases hplanned : phase.plannedEnd with
          | none =>
              rw [hstart, hplanned] at h
              cases h
              exact .undated hend (by simp [Phase.undated, hplanned])
          | some plannedEnd =>
              rw [hstart, hplanned] at h
              cases hactual : phase.actualStart with
              | some start =>
                  rw [hactual] at h
                  obtain ⟨finish, hfinish, hforecast⟩ := bind_eq_ok_iff.mp h
                  cases hforecast
                  refine .dated hend hstart hplanned ?_
                  rw [max_ordinal, addDays_eq_ok_iff.mp hfinish, openEnd, hactual]
              | none =>
                  rw [hactual] at h
                  obtain ⟨moved, hmoved, hrest⟩ := bind_eq_ok_iff.mp h
                  obtain ⟨finish, hfinish, hforecast⟩ := bind_eq_ok_iff.mp hrest
                  cases hforecast
                  refine .dated hend hstart hplanned ?_
                  rw [addDays_eq_ok_iff.mp hfinish, max_ordinal, addDays_eq_ok_iff.mp hmoved,
                    openEnd, hactual]

/-! ### A later fact -/

section Monotone

/-- The phase with no other change than a later end. -/
structure Later (phase phase' : Phase) : Prop where
  same : phase' = { phase with actualEnd := phase'.actualEnd }
  actualEnd : Option.Rel (· ≤ ·) phase.actualEnd phase'.actualEnd

theorem Later.refl (phase : Phase) : Later phase phase :=
  ⟨rfl, by cases phase.actualEnd <;> constructor; exact le_rfl⟩

/-- Of two rows of one phase, the second does not end earlier. -/
structure EndsNoEarlier (row row' : ForecastRow) : Prop where
  phase : row.phase = row'.phase
  forecastEnd : Option.Rel (· ≤ ·) row.forecastEnd row'.forecastEnd

variable {phase phase' : Phase} {today today' : Date} {delay delay' : Int}

theorem Later.cases (h : Later phase phase') :
    (∃ e e', phase.actualEnd = some e ∧ phase'.actualEnd = some e' ∧ e ≤ e') ∨
      phase.actualEnd = none ∧ phase' = phase := by
  obtain ⟨hsame, hend⟩ := h
  cases he : phase.actualEnd with
  | some e =>
      rw [he] at hend
      cases he' : phase'.actualEnd with
      | some e' =>
          rw [he'] at hend
          cases hend with
          | some hle => exact .inl ⟨e, e', rfl, rfl, hle⟩
      | none =>
          rw [he'] at hend
          cases hend
  | none =>
      rw [he] at hend
      cases he' : phase'.actualEnd with
      | some e' =>
          rw [he'] at hend
          cases hend
      | none =>
          rw [he', ← he] at hsame
          exact .inr ⟨rfl, hsame⟩

theorem openEnd_mono {plannedStart plannedEnd : Date} (htoday : today ≤ today')
    (hdelay : delay ≤ delay') :
    openEnd phase plannedStart plannedEnd today delay ≤
      openEnd phase plannedStart plannedEnd today' delay' := by
  rw [Date.le_iff] at htoday
  unfold openEnd
  dsimp only
  split
  · exact max_le_max le_rfl htoday
  · exact add_le_add (max_le_max (by omega) htoday) le_rfl

theorem phaseForecast_mono {forecast forecast' : PhaseForecast} (hphase : Later phase phase')
    (htoday : today ≤ today') (hdelay : delay ≤ delay')
    (h : phaseForecast phase today delay = .ok forecast)
    (h' : phaseForecast phase' today' delay' = .ok forecast') :
    Option.Rel (· ≤ ·) forecast.finish forecast'.finish := by
  have hfirst := finishes_of_eq_ok h
  have hsecond := finishes_of_eq_ok h'
  generalize forecast.finish = finish at hfirst
  generalize forecast'.finish = finish' at hsecond
  rcases hphase.cases with ⟨e, e', he, he', hle⟩ | ⟨hopen, rfl⟩
  · cases hfirst with
    | done hend =>
        cases hsecond with
        | done hend' =>
            cases he.symm.trans hend
            cases he'.symm.trans hend'
            exact .some hle
        | undated hend' _ => cases he'.symm.trans hend'
        | dated hend' _ _ _ => cases he'.symm.trans hend'
    | undated hend _ => cases he.symm.trans hend
    | dated hend _ _ _ => cases he.symm.trans hend
  · cases hfirst with
    | done hend => cases hopen.symm.trans hend
    | undated _ hundated =>
        cases hsecond with
        | done hend' => cases hopen.symm.trans hend'
        | undated _ _ => exact .none
        | dated _ hstart hplanned _ => simp [Phase.undated, hstart, hplanned] at hundated
    | dated _ hstart hplanned hfinish =>
        cases hsecond with
        | done hend' => cases hopen.symm.trans hend'
        | undated _ hundated => simp [Phase.undated, hstart, hplanned] at hundated
        | dated _ hstart' hplanned' hfinish' =>
            cases hstart.symm.trans hstart'
            cases hplanned.symm.trans hplanned'
            refine .some (Date.le_iff.mpr ?_)
            rw [hfinish, hfinish']
            exact openEnd_mono htoday hdelay

theorem slip_mono {actual actual' planned : Option Date}
    (h : Option.Rel (· ≤ ·) actual actual') :
    Option.Rel (· ≤ ·) (slip actual planned) (slip actual' planned) := by
  cases h with
  | none => exact .none
  | some hle =>
      cases planned with
      | none => exact .none
      | some planned => exact .some (sub_le_sub_right (Date.le_iff.mp hle) _)

theorem carry_mono {days days' : Option Int} (hdelay : delay ≤ delay')
    (hdays : Option.Rel (· ≤ ·) days days') : carry delay days ≤ carry delay' days' := by
  cases hdays with
  | none => exact hdelay
  | some hle => exact max_le_max hdelay hle

variable {phases phases' : List Phase} {rows rows' : List ForecastRow}

theorem forecastRows_mono (hphases : List.Forall₂ Later phases phases') (htoday : today ≤ today')
    (hdelay : delay ≤ delay') (h : forecastRows today delay phases = .ok rows)
    (h' : forecastRows today' delay' phases' = .ok rows') :
    List.Forall₂ EndsNoEarlier rows rows' := by
  induction hphases generalizing delay delay' rows rows' with
  | nil =>
      cases h
      cases h'
      exact .nil
  | cons hphase _ ih =>
      obtain ⟨forecast, hforecast, hrest⟩ := bind_eq_ok_iff.mp h
      obtain ⟨later, hlater, hrows⟩ := bind_eq_ok_iff.mp hrest
      obtain ⟨forecast', hforecast', hrest'⟩ := bind_eq_ok_iff.mp h'
      obtain ⟨later', hlater', hrows'⟩ := bind_eq_ok_iff.mp hrest'
      cases hrows
      cases hrows'
      have hend := phaseForecast_mono hphase htoday hdelay hforecast hforecast'
      rw [hphase.same] at hlater' ⊢
      refine .cons ⟨rfl, hend⟩ (ih ?_ hlater hlater')
      exact carry_mono hdelay (slip_mono hend)

theorem forall₂_mergeSort {α : Type*} {R : α → α → Prop} {le : α → α → Bool} {l l' : List α}
    (h : List.Forall₂ R l l')
    (hle : ∀ a a' b b', R a a' → R b b' → le a b = le a' b') :
    List.Forall₂ R (l.mergeSort le) (l'.mergeSort le) := by
  have hpair : ∀ entry ∈ l.zip l', R entry.1 entry.2 := fun entry hentry =>
    (List.forall₂_iff_zip.mp h).2 hentry
  have hfst : (l.zip l').map Prod.fst = l := List.map_fst_zip h.length_eq.le
  have hsnd : (l.zip l').map Prod.snd = l' := List.map_snd_zip h.length_eq.ge
  have hsorted := List.map_mergeSort (r := fun a b => le a.1 b.1) (s := le) (f := Prod.fst)
    (l := l.zip l') fun _ _ _ _ => rfl
  have hsorted' := List.map_mergeSort (r := fun a b => le a.1 b.1) (s := le) (f := Prod.snd)
    (l := l.zip l') fun a ha b hb => hle _ _ _ _ (hpair a ha) (hpair b hb)
  rw [hfst] at hsorted
  rw [hsnd] at hsorted'
  rw [← hsorted, ← hsorted', List.forall₂_map_left_iff, List.forall₂_map_right_iff,
    List.forall₂_same]
  intro entry hentry
  exact hpair entry (List.mem_mergeSort.mp hentry)

theorem later_orderedPhases (h : List.Forall₂ Later phases phases') :
    List.Forall₂ Later (orderedPhases phases) (orderedPhases phases') := by
  refine forall₂_mergeSort h fun a a' b b' ha hb => ?_
  rw [ha.same, hb.same]

theorem exists_later {dates dates' : List Date} (h : List.Forall₂ (· ≤ ·) dates dates')
    {date : Date} (hdate : date ∈ dates) : ∃ later ∈ dates', date ≤ later := by
  induction h with
  | nil => cases hdate
  | @cons first first' _ _ hle _ ih =>
      rcases List.mem_cons.mp hdate with rfl | hrest
      · exact ⟨first', List.mem_cons_self, hle⟩
      · obtain ⟨later, hlater, hdate⟩ := ih hrest
        exact ⟨later, List.mem_cons_of_mem _ hlater, hdate⟩

theorem max?_mono {dates dates' : List Date} (h : List.Forall₂ (· ≤ ·) dates dates') :
    Option.Rel (· ≤ ·) dates.max? dates'.max? := by
  cases hmax : dates.max? with
  | none =>
      rw [List.max?_eq_none_iff] at hmax
      subst hmax
      cases h
      exact .none
  | some latest =>
      obtain ⟨hmem, -⟩ := List.max?_eq_some_iff.mp hmax
      obtain ⟨later, hlater, hle⟩ := exists_later h hmem
      cases hmax' : dates'.max? with
      | none =>
          rw [List.max?_eq_none_iff] at hmax'
          simp [hmax'] at hlater
      | some latest' =>
          exact .some (hle.trans ((List.max?_eq_some_iff.mp hmax').2 later hlater))

theorem ends_mono (h : List.Forall₂ EndsNoEarlier rows rows') :
    List.Forall₂ (· ≤ ·) (rows.filterMap (·.forecastEnd)) (rows'.filterMap (·.forecastEnd)) := by
  induction h with
  | nil => exact .nil
  | @cons row row' _ _ hrow _ ih =>
      have hend := hrow.forecastEnd
      rw [List.filterMap_cons, List.filterMap_cons]
      generalize row.forecastEnd = finish at hend ⊢
      generalize row'.forecastEnd = finish' at hend ⊢
      cases hend with
      | none => exact ih
      | some hle => exact .cons hle ih

theorem filter_undated_eq_nil_iff (h : List.Forall₂ Later phases phases') :
    phases.filter (·.undated) = [] ↔ phases'.filter (·.undated) = [] := by
  induction h with
  | nil => exact Iff.rfl
  | @cons phase phase' _ _ hphase _ ih =>
      have hundated : phase'.undated = phase.undated := by
        rw [hphase.same]
        rfl
      rw [List.filter_cons, List.filter_cons, hundated]
      split
      · simp
      · exact ih

theorem forecastFinish_mono (hphases : List.Forall₂ Later phases phases')
    (hrows : List.Forall₂ EndsNoEarlier rows rows') :
    Option.Rel (· ≤ ·) (forecastFinish phases rows) (forecastFinish phases' rows') := by
  unfold forecastFinish
  by_cases hundated : phases.filter (·.undated) = []
  · rw [if_pos hundated, if_pos ((filter_undated_eq_nil_iff hphases).mp hundated)]
    exact max?_mono (ends_mono hrows)
  · rw [if_neg hundated, if_neg fun h => hundated ((filter_undated_eq_nil_iff hphases).mpr h)]
    exact .none

end Monotone

/-- Two inputs that differ in one fact, which comes later in the second. -/
inductive LaterFact : List Phase → Date → List Phase → Date → Prop
  /-- A done phase has ended later. -/
  | actualEnd {before after : List Phase} {phase : Phase} {finish finish' today : Date}
      (hdone : phase.actualEnd = some finish) (hle : finish ≤ finish') :
      LaterFact (before ++ phase :: after) today
        (before ++ { phase with actualEnd := some finish' } :: after) today
  | today {phases : List Phase} {today today' : Date} (hle : today ≤ today') :
      LaterFact phases today phases today'

theorem LaterFact.later {phases phases' : List Phase} {today' : Date}
    (h : LaterFact phases today phases' today') :
    List.Forall₂ Later phases phases' ∧ today ≤ today' := by
  have hsame : ∀ phases : List Phase, List.Forall₂ Later phases phases := fun phases =>
    List.forall₂_same.mpr fun phase _ => .refl phase
  cases h with
  | actualEnd hdone hle =>
      refine ⟨List.rel_append (hsame _) (.cons ⟨rfl, ?_⟩ (hsame _)), le_rfl⟩
      rw [hdone]
      exact .some hle
  | today hle => exact ⟨hsame _, hle⟩

/-- No row of the second forecast, and no finish, is earlier than in the first. -/
structure NoEarlier (forecast forecast' : Forecast) : Prop where
  rows : List.Forall₂ EndsNoEarlier forecast.phases forecast'.phases
  finish : Option.Rel (· ≤ ·) forecast.forecastFinish forecast'.forecastFinish

theorem computeForecast_eq_ok {phases : List Phase} {breaks : List CalendarBreak} {factor : Rat}
    {forecast : Forecast} (h : computeForecast phases breaks factor today = .ok forecast) :
    forecastRows today 0 (orderedPhases phases) = .ok forecast.phases ∧
      forecast.forecastFinish = forecastFinish (orderedPhases phases) forecast.phases := by
  obtain ⟨weeks, -, hrest⟩ := bind_eq_ok_iff.mp h
  obtain ⟨rows, hrows, hforecast⟩ := bind_eq_ok_iff.mp hrest
  cases hforecast
  exact ⟨hrows, rfl⟩

/-- A later fact never makes the forecast earlier. -/
theorem later_fact_never_earlier {phases phases' : List Phase} {breaks : List CalendarBreak}
    {factor : Rat} {today today' : Date} {forecast forecast' : Forecast}
    (hfact : LaterFact phases today phases' today')
    (h : computeForecast phases breaks factor today = .ok forecast)
    (h' : computeForecast phases' breaks factor today' = .ok forecast') :
    NoEarlier forecast forecast' := by
  obtain ⟨hphases, htoday⟩ := hfact.later
  obtain ⟨hrows, hfinish⟩ := computeForecast_eq_ok h
  obtain ⟨hrows', hfinish'⟩ := computeForecast_eq_ok h'
  have hordered := later_orderedPhases hphases
  have hlater := forecastRows_mono hordered htoday le_rfl hrows hrows'
  refine ⟨hlater, ?_⟩
  rw [hfinish, hfinish']
  exact forecastFinish_mono hordered hlater

theorem daysAfterMin_inRange {n : Nat} (h : Nat.ble n 3652058 = true) :
    (1 : Int) ≤ n + 1 ∧ (n + 1 : Int) ≤ 3652059 := by
  have hle := Nat.le_of_ble_eq_true h
  omega

/-- The date so many days after `date.min`. -/
def daysAfterMin (n : Nat) (h : Nat.ble n 3652058 = true) : Date :=
  ⟨n + 1, daysAfterMin_inRange h⟩

def donePilot (finish : Date) : Phase :=
  { id := "p", code := "P0", name := "Pilot", sortOrder := 0, plannedStart := none
    plannedEnd := none, actualStart := none, actualEnd := some finish, gateStatus := "passed"
    gateCriteria := "", statedWorkingWeeks := none, tasks := [], allocations := [] }

theorem computeForecast_donePilot (finish today : Date) :
    ∃ forecast, computeForecast [donePilot finish] [] 1 today = .ok forecast := by
  have hordered : orderedPhases [donePilot finish] = [donePilot finish] :=
    List.mergeSort_singleton _
  unfold computeForecast
  rw [hordered]
  exact ⟨_, rfl⟩

/-- Done on 2026-02-10 in place of 2026-02-09. -/
theorem done_a_day_later :
    ∃ forecast forecast' : Forecast,
      computeForecast [donePilot (daysAfterMin 739655 rfl)] [] 1 (daysAfterMin 739656 rfl) =
        .ok forecast ∧
      computeForecast [donePilot (daysAfterMin 739656 rfl)] [] 1 (daysAfterMin 739656 rfl) =
        .ok forecast' ∧
      NoEarlier forecast forecast' := by
  obtain ⟨forecast, h⟩ :=
    computeForecast_donePilot (daysAfterMin 739655 rfl) (daysAfterMin 739656 rfl)
  obtain ⟨forecast', h'⟩ :=
    computeForecast_donePilot (daysAfterMin 739656 rfl) (daysAfterMin 739656 rfl)
  have hlate : daysAfterMin 739655 rfl ≤ daysAfterMin 739656 rfl := Date.le_iff.mpr (by decide)
  have hfact := @LaterFact.actualEnd [] [] (donePilot (daysAfterMin 739655 rfl)) _ _
    (daysAfterMin 739656 rfl) rfl hlate
  exact ⟨forecast, forecast', h, h', later_fact_never_earlier hfact h h'⟩

end Qontinui.Overview
