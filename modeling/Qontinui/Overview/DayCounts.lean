import Mathlib.Data.Int.ConditionallyCompleteOrder
import Mathlib.Data.Int.Interval
import Mathlib.Data.Nat.Count
import Qontinui.Overview.Estimate

/-!
Working days counted day by day: the weeks that `_business_days` multiplies out, and the
breaks that `_merged_break_spans` clips, sorts and merges, against the days themselves.
-/

namespace Qontinui.Overview

open PyDecimal

/-! ### Days -/

def IsWeekday (day : Int) : Prop := (day + 6) % 7 < 5

instance (day : Int) : Decidable (IsWeekday day) := inferInstanceAs (Decidable (_ < _))

def InSpans (spans : List (Date × Date)) (day : Int) : Prop :=
  ∃ span ∈ spans, span.1.ordinal ≤ day ∧ day ≤ span.2.ordinal

instance (spans : List (Date × Date)) (day : Int) : Decidable (InSpans spans day) :=
  inferInstanceAs (Decidable (∃ span ∈ spans, _))

def breakSpans (breaks : List CalendarBreak) : List (Date × Date) :=
  breaks.map fun brk => (brk.startDate, brk.endDate)

/-- The weekdays of a range on which `P` holds. -/
noncomputable def weekdaysWhere (start finish : Int) (P : Int → Prop) [DecidablePred P] : Nat :=
  ((Finset.Icc start finish).filter fun day => IsWeekday day ∧ P day).card

/-- The days of a range that fall on Monday to Friday and lie in no break. -/
noncomputable def daysWorked (start finish : Date) (breaks : List CalendarBreak) : Nat :=
  weekdaysWhere start.ordinal finish.ordinal fun day => ¬ InSpans (breakSpans breaks) day

/-! ### Business days -/

section BusinessDays

variable (first : Int)

/-- The weekdays among so many days from a day on. -/
def weekdaysFrom (days : Nat) : Nat := Nat.count (fun offset => IsWeekday (first + offset)) days

theorem weekdaysFrom_add (m n : Nat) :
    weekdaysFrom first (m + n) = weekdaysFrom first m + weekdaysFrom (first + m) n := by
  unfold weekdaysFrom
  rw [Nat.count_add]
  simp [add_assoc]

theorem weekdaysFrom_seven : weekdaysFrom first 7 = 5 := by
  have hday : first % 7 = 0 ∨ first % 7 = 1 ∨ first % 7 = 2 ∨ first % 7 = 3 ∨ first % 7 = 4 ∨
      first % 7 = 5 ∨ first % 7 = 6 := by omega
  have hoffset : ∀ offset : Nat,
      IsWeekday (first + offset) ↔ (first % 7 + (offset + 6)) % 7 < 5 := by
    intro offset
    unfold IsWeekday
    omega
  simp only [weekdaysFrom, Nat.count_succ, Nat.count_zero, hoffset]
  rcases hday with h | h | h | h | h | h | h <;> simp [h]

theorem weekdaysFrom_weeks (weeks : Nat) : weekdaysFrom first (7 * weeks) = 5 * weeks := by
  induction weeks with
  | zero => rfl
  | succ weeks ih => rw [Nat.mul_succ, weekdaysFrom_add, ih, weekdaysFrom_seven, Nat.mul_succ]

theorem weekdaysFrom_shift (weeks days : Nat) :
    weekdaysFrom (first + (7 * weeks : Nat)) days = weekdaysFrom first days := by
  unfold weekdaysFrom
  congr 1
  funext offset
  unfold IsWeekday
  apply propext
  push_cast
  omega

theorem weekdaysWhere_eq_weekdaysFrom (days : Nat) :
    weekdaysWhere first (first + days - 1) (fun _ => True) = weekdaysFrom first days := by
  unfold weekdaysWhere weekdaysFrom
  rw [Nat.count_eq_card_filter_range]
  symm
  refine Finset.card_bij (fun offset _ => first + offset) ?_ ?_ ?_
  · intro offset hoffset
    rw [Finset.mem_filter, Finset.mem_range] at hoffset
    rw [Finset.mem_filter, Finset.mem_Icc]
    exact ⟨by omega, hoffset.2, trivial⟩
  · intro a _ b _ hab
    omega
  · intro day hday
    rw [Finset.mem_filter, Finset.mem_Icc] at hday
    obtain ⟨hrange, hweekday, -⟩ := hday
    refine ⟨(day - first).toNat, ?_, by omega⟩
    rw [Finset.mem_filter, Finset.mem_range]
    refine ⟨by omega, ?_⟩
    rwa [Int.toNat_of_nonneg (by omega), add_sub_cancel]

theorem businessDays_eq (start finish : Date) :
    businessDays start finish =
      weekdaysWhere start.ordinal finish.ordinal fun _ => True := by
  unfold businessDays
  by_cases hbefore : finish < start
  · rw [if_pos hbefore]
    rw [Date.lt_iff] at hbefore
    simp [weekdaysWhere, Finset.Icc_eq_empty (not_le.mpr hbefore)]
  · rw [if_neg hbefore]
    rw [Date.lt_iff, not_lt] at hbefore
    obtain ⟨days, hdays⟩ := Int.eq_ofNat_of_zero_le
      (show 0 ≤ finish.ordinal - start.ordinal + 1 by omega)
    have hfinish : finish.ordinal = start.ordinal + days - 1 := by omega
    have hrest : ((List.range (days % 7)).countP fun offset =>
        (start.weekday + offset) % 7 < 5) = weekdaysFrom start.ordinal (days % 7) := by
      unfold weekdaysFrom Nat.count
      simp only [List.pure_def, List.bind_eq_flatMap, ← List.map_eq_flatMap, List.countP_map]
      apply List.countP_congr
      intro offset _
      rw [Function.comp_apply, decide_eq_true_eq, decide_eq_true_eq]
      unfold IsWeekday Date.weekday
      omega
    have hsplit := weekdaysFrom_add start.ordinal (7 * (days / 7)) (days % 7)
    rw [Nat.div_add_mod, weekdaysFrom_weeks, weekdaysFrom_shift] at hsplit
    have hmod : (((days : Int) % 7).toNat) = days % 7 := by omega
    rw [hfinish, weekdaysWhere_eq_weekdaysFrom, hsplit, ← hrest]
    dsimp only
    rw [← hfinish, hdays, hmod]
    push_cast
    omega

end BusinessDays

/-! ### Breaks -/

section Breaks

/-- Spans that follow one another with no day in common, and the days they cover. -/
structure Merged (merged spans : List (Date × Date)) : Prop where
  apart : merged.Pairwise fun a b => a.2.ordinal < b.1.ordinal
  forward : ∀ span ∈ merged, span.1.ordinal ≤ span.2.ordinal
  covers : ∀ day, InSpans merged day ↔ InSpans spans day

variable {merged spans : List (Date × Date)}

theorem inSpans_append (spans others : List (Date × Date)) (day : Int) :
    InSpans (spans ++ others) day ↔ InSpans spans day ∨ InSpans others day := by
  simp only [InSpans, List.mem_append, or_and_right, exists_or]

theorem inSpans_singleton (span : Date × Date) (day : Int) :
    InSpans [span] day ↔ span.1.ordinal ≤ day ∧ day ≤ span.2.ordinal := by
  simp [InSpans]

theorem mergeSpan_concat (before : List (Date × Date)) (last span : Date × Date) :
    mergeSpan (before ++ [last]) span =
      if span.1.ordinal - last.2.ordinal ≤ 1 then before ++ [(last.1, max last.2 span.2)]
      else before ++ [last] ++ [span] := by
  simp [mergeSpan]

theorem ordinal_mono : Monotone Date.ordinal := fun _ _ => Date.le_iff.mp

theorem max_ordinal (a b : Date) : (max a b).ordinal = max a.ordinal b.ordinal :=
  ordinal_mono.map_max

/-- A span that begins no earlier than those merged is merged into the last of them, or
follows it. -/
theorem merged_mergeSpan {span : Date × Date} (h : Merged merged spans)
    (hspan : span.1.ordinal ≤ span.2.ordinal)
    (hafter : ∀ other ∈ merged, other.1.ordinal ≤ span.1.ordinal) :
    Merged (mergeSpan merged span) (spans ++ [span]) ∧
      ∀ other ∈ mergeSpan merged span, other.1.ordinal ≤ span.1.ordinal := by
  rcases List.eq_nil_or_concat merged with rfl | ⟨before, last, rfl⟩
  · have hnone : ∀ day, ¬ InSpans spans day := by
      intro day hday
      simpa [InSpans] using (h.covers day).mpr hday
    refine ⟨⟨by simp [mergeSpan], by simpa [mergeSpan] using hspan, fun day => ?_⟩,
      by simp [mergeSpan]⟩
    rw [inSpans_append]
    simp [hnone, mergeSpan]
  · rw [List.concat_eq_append] at h hafter ⊢
    obtain ⟨hbefore, -, hlastApart⟩ := List.pairwise_append.mp h.apart
    have hlast := h.forward last (by simp)
    have hbegin := hafter last (by simp)
    rw [mergeSpan_concat]
    by_cases hnear : span.1.ordinal - last.2.ordinal ≤ 1
    · rw [if_pos hnear]
      refine ⟨⟨?_, ?_, fun day => ?_⟩, ?_⟩
      · refine List.pairwise_append.mpr ⟨hbefore, List.pairwise_singleton _ _, ?_⟩
        intro other hother next hnext
        obtain rfl := List.mem_singleton.mp hnext
        exact hlastApart other hother last (by simp)
      · intro other hother
        rcases List.mem_append.mp hother with hold | hnew
        · exact h.forward other (List.mem_append_left _ hold)
        · obtain rfl := List.mem_singleton.mp hnew
          rw [max_ordinal]
          exact hlast.trans (le_max_left _ _)
      · have hcovers := h.covers day
        rw [inSpans_append, inSpans_singleton] at hcovers ⊢
        rw [inSpans_append, ← hcovers, inSpans_singleton, max_ordinal]
        have : last.1.ordinal ≤ day ∧ day ≤ max last.2.ordinal span.2.ordinal ↔
            (last.1.ordinal ≤ day ∧ day ≤ last.2.ordinal) ∨
              span.1.ordinal ≤ day ∧ day ≤ span.2.ordinal := by omega
        rw [this, or_assoc]
      · intro other hother
        rcases List.mem_append.mp hother with hold | hnew
        · exact hafter other (List.mem_append_left _ hold)
        · obtain rfl := List.mem_singleton.mp hnew
          exact hbegin
    · rw [if_neg hnear]
      refine ⟨⟨?_, ?_, fun day => ?_⟩, ?_⟩
      · refine List.pairwise_append.mpr ⟨h.apart, List.pairwise_singleton _ _, ?_⟩
        intro other hother next hnext
        obtain rfl := List.mem_singleton.mp hnext
        rcases List.mem_append.mp hother with hold | hnew
        · have := hlastApart other hold last (by simp)
          omega
        · obtain rfl := List.mem_singleton.mp hnew
          omega
      · intro other hother
        rcases List.mem_append.mp hother with hold | hnew
        · exact h.forward other hold
        · obtain rfl := List.mem_singleton.mp hnew
          exact hspan
      · rw [inSpans_append, h.covers, inSpans_append]
      · intro other hother
        rcases List.mem_append.mp hother with hold | hnew
        · exact hafter other hold
        · obtain rfl := List.mem_singleton.mp hnew
          exact le_rfl

theorem merged_foldl {rest : List (Date × Date)} (h : Merged merged spans)
    (hsorted : rest.Pairwise fun a b => a.1.ordinal ≤ b.1.ordinal)
    (hforward : ∀ span ∈ rest, span.1.ordinal ≤ span.2.ordinal)
    (hafter : ∀ other ∈ merged, ∀ span ∈ rest, other.1.ordinal ≤ span.1.ordinal) :
    Merged (rest.foldl mergeSpan merged) (spans ++ rest) := by
  induction rest generalizing merged spans with
  | nil => simpa using h
  | cons span rest ih =>
      obtain ⟨hfirst, hrest⟩ := List.pairwise_cons.mp hsorted
      obtain ⟨hmerged, hbegin⟩ := merged_mergeSpan h (hforward span (by simp))
        fun other hother => hafter other hother span (by simp)
      rw [List.foldl_cons, List.append_cons]
      refine ih hmerged hrest (fun next hnext => hforward next (List.mem_cons_of_mem _ hnext)) ?_
      exact fun other hother next hnext => (hbegin other hother).trans (hfirst next hnext)

theorem spanLe_trans (a b c : Date × Date) (hab : spanLe a b = true) (hbc : spanLe b c = true) :
    spanLe a c = true := by
  simp only [spanLe, Bool.or_eq_true, decide_eq_true_eq, Bool.and_eq_true, beq_iff_eq] at hab hbc ⊢
  rcases hab with hab | ⟨hab, hab'⟩ <;> rcases hbc with hbc | ⟨hbc, hbc'⟩
  · exact .inl (hab.trans hbc)
  · exact .inl (hbc ▸ hab)
  · exact .inl (hab ▸ hbc)
  · exact .inr ⟨hab.trans hbc, hab'.trans hbc'⟩

theorem spanLe_total (a b : Date × Date) : (spanLe a b || spanLe b a) = true := by
  simp only [spanLe, Bool.or_eq_true, decide_eq_true_eq, Bool.and_eq_true, beq_iff_eq]
  rcases lt_trichotomy a.1 b.1 with hlt | heq | hlt
  · exact .inl (.inl hlt)
  · rcases le_total a.2 b.2 with hle | hle
    · exact .inl (.inr ⟨heq, hle⟩)
    · exact .inr (.inr ⟨heq.symm, hle⟩)
  · exact .inr (.inl hlt)

theorem ordinal_le_of_spanLe {a b : Date × Date} (h : spanLe a b = true) :
    a.1.ordinal ≤ b.1.ordinal := by
  simp only [spanLe, Bool.or_eq_true, decide_eq_true_eq, Bool.and_eq_true, beq_iff_eq] at h
  rcases h with hlt | ⟨heq, -⟩
  · exact (Date.lt_iff.mp hlt).le
  · rw [heq]

def clippedSpans (start finish : Date) (breaks : List CalendarBreak) : List (Date × Date) :=
  (breaks.filter fun brk => max start brk.startDate ≤ min finish brk.endDate).map fun brk =>
    (max start brk.startDate, min finish brk.endDate)

theorem min_ordinal (a b : Date) : (min a b).ordinal = min a.ordinal b.ordinal :=
  ordinal_mono.map_min

theorem inSpans_clippedSpans (start finish : Date) (breaks : List CalendarBreak) (day : Int) :
    InSpans (clippedSpans start finish breaks) day ↔
      InSpans (breakSpans breaks) day ∧ start.ordinal ≤ day ∧ day ≤ finish.ordinal := by
  simp only [InSpans, clippedSpans, breakSpans, List.mem_map, List.mem_filter, decide_eq_true_eq,
    Date.le_iff, max_ordinal, min_ordinal]
  constructor
  · rintro ⟨_, ⟨brk, ⟨hbrk, -⟩, rfl⟩, hlo, hhi⟩
    dsimp only at hlo hhi
    rw [max_ordinal] at hlo
    rw [min_ordinal] at hhi
    exact ⟨⟨_, ⟨brk, hbrk, rfl⟩, by dsimp only; omega⟩, by omega⟩
  · rintro ⟨⟨_, ⟨brk, hbrk, rfl⟩, hlo, hhi⟩, hstart, hfinish⟩
    dsimp only at hlo hhi
    refine ⟨_, ⟨brk, ⟨hbrk, by omega⟩, rfl⟩, ?_⟩
    dsimp only
    rw [max_ordinal, min_ordinal]
    omega

theorem merged_mergedBreakSpans (start finish : Date) (breaks : List CalendarBreak) :
    Merged (mergedBreakSpans start finish breaks) (clippedSpans start finish breaks) := by
  have hperm := List.mergeSort_perm (clippedSpans start finish breaks) spanLe
  have hsorted := List.pairwise_mergeSort spanLe_trans spanLe_total
    (clippedSpans start finish breaks)
  have hforward : ∀ span ∈ (clippedSpans start finish breaks).mergeSort spanLe,
      span.1.ordinal ≤ span.2.ordinal := by
    intro span hspan
    obtain ⟨brk, hbrk, rfl⟩ := List.mem_map.mp (hperm.mem_iff.mp hspan)
    exact Date.le_iff.mp (of_decide_eq_true (List.mem_filter.mp hbrk).2)
  have hempty : Merged [] [] := ⟨.nil, by simp, fun _ => Iff.rfl⟩
  have hmerged := merged_foldl hempty (hsorted.imp fun h => ordinal_le_of_spanLe h) hforward
    (by simp)
  refine ⟨hmerged.apart, hmerged.forward, fun day => ?_⟩
  refine (hmerged.covers day).trans ?_
  simp only [List.nil_append, InSpans, hperm.mem_iff]

theorem weekdaysWhere_congr {start finish : Int} {P Q : Int → Prop} [DecidablePred P]
    [DecidablePred Q] (h : ∀ day, start ≤ day → day ≤ finish → (P day ↔ Q day)) :
    weekdaysWhere start finish P = weekdaysWhere start finish Q := by
  unfold weekdaysWhere
  congr 1
  apply Finset.filter_congr
  intro day hday
  rw [Finset.mem_Icc] at hday
  rw [h day hday.1 hday.2]

/-- The weekdays of spans apart, in a range, are counted one span after the other. -/
theorem sum_businessDays {start finish : Int}
    (hapart : merged.Pairwise fun a b => a.2.ordinal < b.1.ordinal)
    (hwithin : ∀ span ∈ merged, start ≤ span.1.ordinal ∧ span.2.ordinal ≤ finish)
    (hforward : ∀ span ∈ merged, span.1.ordinal ≤ span.2.ordinal) :
    (merged.map fun span => businessDays span.1 span.2).sum =
      weekdaysWhere start finish (InSpans merged) := by
  induction merged with
  | nil => simp [weekdaysWhere, InSpans]
  | cons span rest ih =>
      obtain ⟨hfirst, hrest⟩ := List.pairwise_cons.mp hapart
      have hspan := hwithin span (by simp)
      have hdisjoint : Disjoint
          ((Finset.Icc start finish).filter fun day =>
            IsWeekday day ∧ span.1.ordinal ≤ day ∧ day ≤ span.2.ordinal)
          ((Finset.Icc start finish).filter fun day => IsWeekday day ∧ InSpans rest day) := by
        rw [Finset.disjoint_filter]
        rintro day - ⟨-, hday⟩ ⟨-, other, hother, hin⟩
        have := hfirst other hother
        omega
      have hunion : ((Finset.Icc start finish).filter fun day =>
            IsWeekday day ∧ InSpans (span :: rest) day) =
          ((Finset.Icc start finish).filter fun day =>
            IsWeekday day ∧ span.1.ordinal ≤ day ∧ day ≤ span.2.ordinal) ∪
          ((Finset.Icc start finish).filter fun day => IsWeekday day ∧ InSpans rest day) := by
        rw [← Finset.filter_or]
        apply Finset.filter_congr
        intro day _
        simp only [InSpans, List.mem_cons, exists_eq_or_imp, and_or_left]
      have hhead : ((Finset.Icc start finish).filter fun day =>
            IsWeekday day ∧ span.1.ordinal ≤ day ∧ day ≤ span.2.ordinal) =
          (Finset.Icc span.1.ordinal span.2.ordinal).filter fun day => IsWeekday day ∧ True := by
        ext day
        rw [Finset.mem_filter, Finset.mem_filter, Finset.mem_Icc, Finset.mem_Icc]
        constructor
        · rintro ⟨-, hweekday, hrange⟩
          exact ⟨hrange, hweekday, trivial⟩
        · rintro ⟨hrange, hweekday, -⟩
          exact ⟨by omega, hweekday, hrange⟩
      have hsum := ih hrest (fun other hother => hwithin other (List.mem_cons_of_mem _ hother))
        fun other hother => hforward other (List.mem_cons_of_mem _ hother)
      rw [List.map_cons, List.sum_cons, hsum, businessDays_eq]
      unfold weekdaysWhere
      rw [hunion, Finset.card_union_of_disjoint hdisjoint, hhead]
      push_cast
      rfl

theorem breakBusinessDays_eq (start finish : Date) (breaks : List CalendarBreak) :
    breakBusinessDays start finish breaks =
      weekdaysWhere start.ordinal finish.ordinal (InSpans (breakSpans breaks)) := by
  unfold breakBusinessDays
  by_cases hbefore : finish < start
  · rw [if_pos hbefore]
    rw [Date.lt_iff] at hbefore
    simp [weekdaysWhere, Finset.Icc_eq_empty (not_le.mpr hbefore)]
  · have hmerged := merged_mergedBreakSpans start finish breaks
    have hcovers : ∀ day, InSpans (mergedBreakSpans start finish breaks) day ↔
        InSpans (breakSpans breaks) day ∧ start.ordinal ≤ day ∧ day ≤ finish.ordinal :=
      fun day => (hmerged.covers day).trans (inSpans_clippedSpans start finish breaks day)
    have hwithin : ∀ span ∈ mergedBreakSpans start finish breaks,
        start.ordinal ≤ span.1.ordinal ∧ span.2.ordinal ≤ finish.ordinal := by
      intro span hspan
      have hforward := hmerged.forward span hspan
      have hlo := (hcovers span.1.ordinal).mp ⟨span, hspan, le_rfl, hforward⟩
      have hhi := (hcovers span.2.ordinal).mp ⟨span, hspan, hforward, le_rfl⟩
      exact ⟨hlo.2.1, hhi.2.2⟩
    rw [if_neg hbefore, sum_businessDays hmerged.apart hwithin hmerged.forward]
    congr 1
    apply weekdaysWhere_congr
    intro day hstart hfinish
    rw [hcovers day, and_iff_left ⟨hstart, hfinish⟩]

theorem businessDays_sub_breakBusinessDays (start finish : Date) (breaks : List CalendarBreak) :
    businessDays start finish - breakBusinessDays start finish breaks =
      daysWorked start finish breaks := by
  have hsplit : weekdaysWhere start.ordinal finish.ordinal (fun _ => True) =
      weekdaysWhere start.ordinal finish.ordinal (InSpans (breakSpans breaks)) +
        daysWorked start finish breaks := by
    unfold daysWorked weekdaysWhere
    simp only [and_true]
    rw [← Finset.card_filter_add_card_filter_not (InSpans (breakSpans breaks)),
      Finset.filter_filter, Finset.filter_filter]
  rw [businessDays_eq, breakBusinessDays_eq, hsplit]
  push_cast
  omega

end Breaks

/-! ### Working days -/

/-- `working_days`, with what `quantize` raises for a result of more than 28 digits. -/
def workingDaysOrError (start finish : Date) (breaks : List CalendarBreak)
    (workingDayFactor : Rat) : Except DecimalException Rat :=
  let gross := businessDays start finish - breakBusinessDays start finish breaks
  quantizeTo 2 (mul (max gross 0 : Int) workingDayFactor)

theorem max_businessDays (start finish : Date) (breaks : List CalendarBreak) :
    max (businessDays start finish - breakBusinessDays start finish breaks) 0 =
      daysWorked start finish breaks := by
  rw [businessDays_sub_breakBusinessDays, max_eq_left (Int.natCast_nonneg _)]

theorem workingDaysOrError_eq (start finish : Date) (breaks : List CalendarBreak) (factor : Rat) :
    workingDaysOrError start finish breaks factor =
      quantizeTo 2 (mul (daysWorked start finish breaks) factor) := by
  unfold workingDaysOrError
  dsimp only
  rw [max_businessDays, Int.cast_natCast]

theorem workingDays_eq (start finish : Date) (breaks : List CalendarBreak) (factor : Rat) :
    workingDays start finish breaks factor =
      roundTo 2 (mul (daysWorked start finish breaks) factor) := by
  unfold workingDays
  dsimp only
  rw [max_businessDays, Int.cast_natCast]

/-- Where the product of the factor and the days worked fits the context, no error is raised,
and the working days are that product, rounded half up to two places. -/
theorem workingDays_counts_days (start finish : Date) (breaks : List CalendarBreak)
    (factor : Rat) (hexact : Exact (daysWorked start finish breaks * factor))
    (hfits : Fits (roundHalfUp (daysWorked start finish breaks * factor * 10 ^ 2))) :
    workingDaysOrError start finish breaks factor =
      .ok (roundTo 2 (daysWorked start finish breaks * factor)) := by
  rw [workingDaysOrError_eq, mul, inContext_exact hexact, quantizeTo, if_pos hfits]

theorem daysWorked_le (start finish : Date) (breaks : List CalendarBreak) :
    daysWorked start finish breaks ≤ 3652059 := by
  have hcard : daysWorked start finish breaks ≤ (Finset.Icc start.ordinal finish.ordinal).card := by
    unfold daysWorked weekdaysWhere
    exact Finset.card_filter_le _ _
  rw [Int.card_Icc] at hcard
  have := start.inRange
  have := finish.inRange
  omega

theorem stored_factor_fits (start finish : Date) (breaks : List CalendarBreak) {n : Nat}
    (hn : n ≤ 10 ^ 4) :
    Exact (daysWorked start finish breaks * (n / 10 ^ 4 : Rat)) ∧
      Fits (roundHalfUp (daysWorked start finish breaks * (n / 10 ^ 4 : Rat) * 10 ^ 2)) := by
  have hdays := daysWorked_le start finish breaks
  have hproduct : daysWorked start finish breaks * n ≤ 3652059 * 10 ^ 4 :=
    Nat.mul_le_mul hdays hn
  have hcast : (daysWorked start finish breaks * n : Rat) ≤ 3652059 * 10 ^ 4 := by
    exact_mod_cast hproduct
  constructor
  · refine ⟨(daysWorked start finish breaks * n : Nat), -4, ?_, ?_⟩
    · push_cast
      rw [← mul_div_assoc, div_eq_mul_inv, zpow_neg]
      norm_cast
    · unfold Fits precision
      rw [Int.natAbs_natCast]
      omega
  · refine fits_roundHalfUp (by positivity) ?_
    rw [← mul_div_assoc, div_mul_eq_mul_div, div_lt_iff₀ (by norm_num)]
    unfold precision
    calc (daysWorked start finish breaks * n : Rat) * 10 ^ 2
        ≤ 3652059 * 10 ^ 4 * 10 ^ 2 := by gcongr
      _ < (10 ^ 28 - 1) * 10 ^ 4 := by norm_num

theorem dateMin_inRange : (1 : Int) ≤ 1 ∧ (1 : Int) ≤ 3652059 := by decide

theorem dateMax_inRange : (1 : Int) ≤ 3652059 ∧ (3652059 : Int) ≤ 3652059 := by decide

/-- `date.min`, a Monday. -/
def dateMin : Date := ⟨1, dateMin_inRange⟩

def dateMax : Date := ⟨3652059, dateMax_inRange⟩

theorem workingDays_of_all_days :
    workingDaysOrError dateMin dateMax [⟨"b", "Shutdown", dateMax, dateMax⟩] (9000 / 10 ^ 4) =
      .ok (roundTo 2 (daysWorked dateMin dateMax [⟨"b", "Shutdown", dateMax, dateMax⟩] *
        (9000 / 10 ^ 4))) :=
  workingDays_counts_days _ _ _ _ (stored_factor_fits _ _ _ (by decide)).1
    (stored_factor_fits _ _ _ (by decide)).2

/-- One day times 10²⁷ has no two places within 28 digits. -/
theorem huge_factor_raises :
    ¬ ∀ start finish breaks factor, workingDaysOrError start finish breaks factor =
      .ok (roundTo 2 (daysWorked start finish breaks * factor)) := by
  intro hall
  have hday : daysWorked dateMin dateMin [] = 1 := by decide
  have hexact : Exact (10 ^ 27) := ⟨1, 27, by norm_num, by decide⟩
  have hraise := hall dateMin dateMin [] (10 ^ 27)
  rw [workingDaysOrError_eq, hday, mul, Nat.cast_one, one_mul, inContext_exact hexact, quantizeTo,
    if_neg] at hraise
  · cases hraise
  · have hround : (10 : Int) ^ 28 ≤ roundHalfUp ((10 : Rat) ^ 27 * 10 ^ 2) := by
      unfold roundHalfUp
      rw [if_neg (by norm_num)]
      exact Rat.le_floor_iff.mpr (by norm_num)
    unfold Fits precision
    omega

end Qontinui.Overview
