import Qontinui.Overview.CostSummary

/-!
The two tests of a due date: `due_dates` counts the periods from the start on, and
`is_due_date` counts the months back from the day.
-/

namespace Qontinui.Overview.Costs

/-- `is_due_date`; `none` is the `ValueError` of `add_months`. -/
def isDueDate (startDate : Day) (endDate : Option Day) (cadence : Cadence) (day : Day) :
    Option Bool :=
  if day < startDate || endDate.any fun finish => finish < day then some false
  else
    let months : Int := ((day.year : Int) - startDate.year) * 12 + (day.month - startDate.month)
    if months % cadence.months = 0 then do
      let due ← addMonths startDate months.toNat
      return due == day
    else some false

/-- What a generator has yielded when it returns or raises. -/
structure Yielded where
  dates : List Day
  raised : Bool
deriving DecidableEq, Repr

/-- The loop of `due_dates` as the generator it is: what is yielded before a `ValueError` has
been yielded. -/
def yieldFrom (start last : Day) (step : Nat) : Nat → Nat → Yielded
  | 0, _ => ⟨[], false⟩
  | count + 1, n =>
      match addMonths start (step * n) with
      | none => ⟨[], true⟩
      | some due =>
          if last < due then ⟨[], false⟩
          else
            let later := yieldFrom start last step count (n + 1)
            ⟨due :: later.dates, later.raised⟩

/-- The last day that `due_dates` yields. -/
def lastDay (endDate : Option Day) (until' : Day) : Day :=
  match endDate with
  | none => until'
  | some finish => min finish until'

/-- `due_dates`, as a generator. -/
def yieldDueDates (startDate : Day) (endDate : Option Day) (cadence : Cadence) (until' : Day) :
    Yielded :=
  yieldFrom startDate (lastDay endDate until') cadence.months maxPeriods 0

/-- The day is less than 200 years, of 12 months each, after the start. -/
def WithinTwoCenturies (start day : Day) : Prop :=
  ∀ limit, addMonths start (12 * 200) = some limit → day < limit

/-! ### Moving by months -/

variable {months : Nat} {start : Day}

theorem addMonths_isSome_iff :
    (∃ due, addMonths start months = some due) ↔ start.monthIndex + months ≤ 12 * 10000 := by
  have hmonth := start.monthInRange
  unfold addMonths Day.monthIndex
  constructor
  · rintro ⟨due, h⟩
    simp only [Option.dite_none_right_eq_some] at h
    obtain ⟨hyear, -⟩ := h
    omega
  · intro h
    have hyear : start.year + (start.month - 1 + months) / 12 ≤ 9999 := by omega
    exact ⟨_, dif_pos hyear⟩

theorem addMonths_zero (start : Day) : addMonths start 0 = some start := by
  have hmonth := start.monthInRange
  have hyear := start.yearInRange
  have hday := start.dayInRange
  have hindex : start.year + (start.month - 1 + 0) / 12 = start.year := by omega
  have hmod : (start.month - 1 + 0) % 12 + 1 = start.month := by omega
  unfold addMonths
  simp only [hindex, hmod, hyear.2, dite_true, min_eq_left hday.2]

variable {later : Day} {more : Nat}

section

variable (hlater : addMonths start more = some later)
include hlater

theorem addMonths_lt {due : Day} (h : months < more) (hdue : addMonths start months = some due) :
    due < later := by
  apply lt_of_monthIndex_lt
  rw [addMonths_monthIndex hdue, addMonths_monthIndex hlater]
  omega

theorem addMonths_mono {due : Day} (h : months ≤ more) (hdue : addMonths start months = some due) :
    due ≤ later := by
  rcases h.eq_or_lt with rfl | hlt
  · cases hdue.symm.trans hlater
    exact le_rfl
  · exact (addMonths_lt hlater hlt hdue).le

theorem addMonths_of_le (h : months ≤ more) : ∃ due, addMonths start months = some due := by
  have hmore := addMonths_isSome_iff.mp ⟨later, hlater⟩
  exact addMonths_isSome_iff.mpr (by omega)

end

/-! ### Enumerating the periods -/

section YieldFrom

variable {start last : Day} {step count : Nat}

/-- The dates are those of the periods that fall due no later than the last day. -/
theorem mem_yieldFrom {n : Nat} {day : Day} :
    day ∈ (yieldFrom start last step count n).dates ↔
      ∃ k, n ≤ k ∧ k < n + count ∧ addMonths start (step * k) = some day ∧ day ≤ last := by
  induction count generalizing n with
  | zero =>
      constructor
      · intro h
        cases h
      · rintro ⟨k, hle, hlt, -⟩
        omega
  | succ count ih =>
      unfold yieldFrom
      cases hdue : addMonths start (step * n) with
      | none =>
          refine iff_of_false List.not_mem_nil ?_
          rintro ⟨k, hle, -, hk, -⟩
          obtain ⟨due, hsome⟩ := addMonths_of_le hk (Nat.mul_le_mul_left step hle)
          cases hdue.symm.trans hsome
      | some due =>
          dsimp only
          split
          · next hafter =>
              refine iff_of_false List.not_mem_nil ?_
              rintro ⟨k, hle, -, hk, hlast⟩
              have hbefore := addMonths_mono hk (Nat.mul_le_mul_left step hle) hdue
              exact not_le.mpr hafter (hbefore.trans hlast)
          · next hyield =>
              rw [List.mem_cons, ih]
              constructor
              · rintro (rfl | ⟨k, hle, hlt, hk, hlast⟩)
                · exact ⟨n, le_rfl, by omega, hdue, not_lt.mp hyield⟩
                · exact ⟨k, by omega, by omega, hk, hlast⟩
              · rintro ⟨k, hle, hlt, hk, hlast⟩
                rcases hle.eq_or_lt with rfl | hlater
                · cases hdue.symm.trans hk
                  exact .inl rfl
                · exact .inr ⟨k, hlater, by omega, hk, hlast⟩

theorem yieldFrom_steps {n : Nat} {due : Day} (h : addMonths start (step * n) = some due) :
    (due :: (yieldFrom start last step count (n + 1)).dates).IsChain
      fun a b => b.monthIndex = a.monthIndex + step := by
  induction count generalizing n due with
  | zero => exact .singleton _
  | succ count ih =>
      unfold yieldFrom
      cases hnext : addMonths start (step * (n + 1)) with
      | none => exact .singleton _
      | some next =>
          dsimp only
          split
          · exact .singleton _
          · refine List.isChain_cons_cons.mpr ⟨?_, ih hnext⟩
            rw [addMonths_monthIndex h, addMonths_monthIndex hnext, Nat.mul_add_one, add_assoc]

theorem yieldFrom_isChain (count n : Nat) :
    (yieldFrom start last step count n).dates.IsChain
      fun a b => b.monthIndex = a.monthIndex + step := by
  cases count with
  | zero => exact .nil
  | succ count =>
      unfold yieldFrom
      cases hdue : addMonths start (step * n) with
      | none => exact .nil
      | some due =>
          dsimp only
          split
          · exact .nil
          · exact yieldFrom_steps hdue

theorem yieldFrom_not_raised (hlast : last.year < 9999) (hstep : step ≤ 12) {n : Nat}
    (hn : start.monthIndex + step * n ≤ 12 * 10000) :
    (yieldFrom start last step count n).raised = false := by
  induction count generalizing n with
  | zero => rfl
  | succ count ih =>
      obtain ⟨due, hdue⟩ := addMonths_isSome_iff.mpr hn
      unfold yieldFrom
      rw [hdue]
      dsimp only
      split
      · rfl
      · next hyield =>
          have hindex := addMonths_monthIndex hdue
          have hbefore : due.monthIndex ≤ last.monthIndex :=
            not_lt.mp fun hlt => hyield (lt_of_monthIndex_lt hlt)
          have hmonth := last.monthInRange
          have hlastIndex : last.monthIndex = 12 * last.year + last.month := rfl
          refine ih ?_
          rw [Nat.mul_add_one]
          omega

theorem dueFrom_eq (count n : Nat) :
    dueFrom start last step count n =
      if (yieldFrom start last step count n).raised then none
      else some (yieldFrom start last step count n).dates := by
  induction count generalizing n with
  | zero => rfl
  | succ count ih =>
      unfold dueFrom yieldFrom
      cases hdue : addMonths start (step * n) with
      | none => rfl
      | some due =>
          simp only [Option.bind_eq_bind, Option.bind_some]
          split
          · rfl
          · rw [ih]
            cases (yieldFrom start last step count (n + 1)).raised <;> rfl

end YieldFrom

/-! ### Counting back from the day -/

section CountBack

variable {start day : Day}

theorem monthIndex_mono (h : start ≤ day) : start.monthIndex ≤ day.monthIndex :=
  not_lt.mp fun hlt => not_lt.mpr h (lt_of_monthIndex_lt hlt)

theorem months_eq_sub :
    ((day.year : Int) - start.year) * 12 + (day.month - start.month) =
      (day.monthIndex : Int) - start.monthIndex := by
  unfold Day.monthIndex
  push_cast
  ring

/-- The day falls due if and only if it is the due date of some period. -/
theorem isDueDate_spec (endDate : Option Day) (cadence : Cadence) :
    ∃ answer, isDueDate start endDate cadence day = some answer ∧
      (answer = true ↔ (∃ k, addMonths start (cadence.months * k) = some day) ∧
        ∀ finish ∈ endDate, day ≤ finish) := by
  unfold isDueDate
  dsimp only
  split
  · next houtside =>
      refine ⟨false, rfl, iff_of_false Bool.false_ne_true ?_⟩
      rintro ⟨⟨k, hk⟩, hend⟩
      rw [Bool.or_eq_true, decide_eq_true_eq, Option.any_eq_true] at houtside
      rcases houtside with hbefore | ⟨finish, hfinish, hafter⟩
      · exact not_le.mpr hbefore (addMonths_mono hk (Nat.zero_le _) (addMonths_zero start))
      · exact not_le.mpr (of_decide_eq_true hafter) (hend finish hfinish)
  · next hinside =>
      rw [Bool.or_eq_true, decide_eq_true_eq, Option.any_eq_true, not_or, not_lt] at hinside
      obtain ⟨hstart, hfinish⟩ := hinside
      have hend : ∀ finish ∈ endDate, day ≤ finish := fun finish hmem =>
        not_lt.mp fun hafter => hfinish ⟨finish, hmem, decide_eq_true hafter⟩
      have hindex := monthIndex_mono hstart
      rw [months_eq_sub, ← Nat.cast_sub hindex, Int.toNat_natCast]
      split
      · next hmod =>
          have hdvd : cadence.months ∣ day.monthIndex - start.monthIndex := by
            exact_mod_cast Int.dvd_of_emod_eq_zero hmod
          obtain ⟨k, hk⟩ := hdvd
          have hlimit : day.monthIndex ≤ 12 * 10000 := by
            have hyear := day.yearInRange
            have hmonth := day.monthInRange
            unfold Day.monthIndex
            omega
          obtain ⟨due, hdue⟩ := addMonths_isSome_iff.mpr
            (show start.monthIndex + (day.monthIndex - start.monthIndex) ≤ 12 * 10000 by omega)
          refine ⟨due == day, by rw [hdue]; rfl, ?_⟩
          rw [beq_iff_eq, and_iff_left hend]
          constructor
          · rintro rfl
            exact ⟨k, hk ▸ hdue⟩
          · rintro ⟨j, hj⟩
            have hmonths := addMonths_monthIndex hj
            have hsame : cadence.months * j = day.monthIndex - start.monthIndex := by omega
            rw [hsame, hdue] at hj
            exact Option.some.inj hj
      · next hmod =>
          refine ⟨false, rfl, iff_of_false Bool.false_ne_true ?_⟩
          rintro ⟨⟨k, hk⟩, -⟩
          have hmonths := addMonths_monthIndex hk
          have hsame : day.monthIndex - start.monthIndex = cadence.months * k := by omega
          rw [hsame] at hmod
          exact hmod (by push_cast; exact Int.mul_emod_right _ _)

theorem period_lt_maxPeriods {step k : Nat} (hstep : 0 < step)
    (hk : addMonths start (step * k) = some day) (hnear : WithinTwoCenturies start day) :
    k < maxPeriods := by
  by_contra hge
  have hmonths : 12 * 200 ≤ step * k :=
    (not_lt.mp hge).trans (Nat.le_mul_of_pos_left k hstep)
  obtain ⟨limit, hlimit⟩ := addMonths_of_le hk hmonths
  exact not_lt.mpr (addMonths_mono hk hmonths hlimit) (hnear limit hlimit)

end CountBack

theorem le_lastDay_iff {day until' : Day} {endDate : Option Day} (h : day ≤ until') :
    day ≤ lastDay endDate until' ↔ ∀ finish ∈ endDate, day ≤ finish := by
  cases endDate with
  | none => simpa [lastDay] using h
  | some finish => simp [lastDay, h]

/-- For a day less than 200 years after the start, `is_due_date` is true if and only if
`due_dates` yields the day. The dates that it yields increase, each one step of months after
the one before, and before year 9999 the generator raises no error. -/
theorem isDueDate_iff_yielded (startDate : Day) (endDate : Option Day) (cadence : Cadence)
    (until' : Day) :
    (∀ day ≤ until', WithinTwoCenturies startDate day →
      isDueDate startDate endDate cadence day =
        some (decide (day ∈ (yieldDueDates startDate endDate cadence until').dates))) ∧
    (yieldDueDates startDate endDate cadence until').dates.Pairwise (· < ·) ∧
    ((yieldDueDates startDate endDate cadence until').dates.IsChain
      fun a b => b.monthIndex = a.monthIndex + cadence.months) ∧
    ((lastDay endDate until').year < 9999 → dueDates startDate endDate cadence until' =
      some (yieldDueDates startDate endDate cadence until').dates) := by
  have hchain : (yieldDueDates startDate endDate cadence until').dates.IsChain
      fun a b => b.monthIndex = a.monthIndex + cadence.months := yieldFrom_isChain _ _
  refine ⟨?_, ?_, hchain, ?_⟩
  · intro day huntil hnear
    obtain ⟨answer, hanswer, hiff⟩ := @isDueDate_spec startDate day endDate cadence
    rw [hanswer, Option.some.injEq, Bool.eq_iff_iff, hiff, decide_eq_true_eq, yieldDueDates,
      mem_yieldFrom, ← le_lastDay_iff huntil]
    constructor
    · rintro ⟨⟨k, hk⟩, hlast⟩
      have hlt := period_lt_maxPeriods cadence.months_bounds.1 hk hnear
      exact ⟨k, Nat.zero_le k, by omega, hk, hlast⟩
    · rintro ⟨k, -, -, hk, hlast⟩
      exact ⟨⟨k, hk⟩, hlast⟩
  · refine List.isChain_iff_pairwise.mp (hchain.imp ?_)
    intro a b hstep
    exact lt_of_monthIndex_lt (by have := cadence.months_bounds.1; omega)
  · intro hyear
    have hstart := addMonths_isSome_iff.mp ⟨startDate, addMonths_zero startDate⟩
    have hraised := @yieldFrom_not_raised startDate (lastDay endDate until') cadence.months
      maxPeriods hyear cadence.months_bounds.2 0 (by omega)
    have heq : dueDates startDate endDate cadence until' =
        dueFrom startDate (lastDay endDate until') cadence.months maxPeriods 0 := by
      cases endDate <;> rfl
    rw [heq, dueFrom_eq, hraised]
    rfl

theorem withinTwoCenturies_of_months {day : Day} (h : months < 12 * 200)
    (hday : addMonths start months = some day) : WithinTwoCenturies start day :=
  fun _ hlimit => addMonths_lt hlimit h hday

/-- A month after the last of January falls due on the last of February. -/
theorem lastOfFebruary_falls_due :
    isDueDate lastOfJanuary none .monthly lastOfFebruary = some (decide
      (lastOfFebruary ∈ (yieldDueDates lastOfJanuary none .monthly lastOfFebruary).dates)) ∧
    dueDates lastOfJanuary none .monthly lastOfFebruary =
      some (yieldDueDates lastOfJanuary none .monthly lastOfFebruary).dates := by
  obtain ⟨hday, -, -, hreturns⟩ :=
    isDueDate_iff_yielded lastOfJanuary none .monthly lastOfFebruary
  have hmonth : addMonths lastOfJanuary 1 = some lastOfFebruary := by decide
  exact ⟨hday lastOfFebruary le_rfl (withinTwoCenturies_of_months (by decide) hmonth),
    hreturns (by decide)⟩

example : (yieldDueDates lastOfJanuary none .quarterly lastOfFebruary).dates = [lastOfJanuary] := by
  decide

end Qontinui.Overview.Costs
