import Mathlib.Data.List.Perm.Lattice
import Qontinui.Overview.EffortLedger

/-!
The money and the days of a rollup add up in both directions, by phase and by role, unless
an amount has more digits than `quantize` writes down.
-/

namespace Qontinui.Overview

open PyDecimal FallibleLoops

/-- Ids are primary keys. -/
structure Estimate.DistinctIds (estimate : Estimate) : Prop where
  roles : (estimate.roles.map (·.id)).Nodup
  tiers : (estimate.priceTiers.map (·.id)).Nodup

def allEfforts (estimate : Estimate) : List TaskEffort :=
  estimate.phases.flatMap fun phase => phase.tasks.flatMap (·.efforts)

def labourFees (estimate : Estimate) (tier : EffectiveTier) : Int :=
  ((allEfforts estimate).map (feeOf (sortedRoles estimate) tier)).sum

/-- Every amount that is rounded to whole micros has at most 28 digits: the fees, and the
contingency on them. -/
structure AmountsFit (estimate : Estimate) : Prop where
  fees : ∀ effort ∈ allEfforts estimate,
    FeesFit (sortedRoles estimate) (effectiveTiers estimate.priceTiers) effort
  contingency : ∀ pct, estimate.contingencyPct = some pct →
    ∀ tier ∈ effectiveTiers estimate.priceTiers,
      Fits (roundHalfUp (div (mul (labourFees estimate tier) pct) 100))

def shownFee (key : Option Uuid) (fees : Option (List (String × Int))) : Option Int :=
  fees.bind (·.lookup (keyText key))

/-- At every tier there are labour fees, and those of the phases add up to them, and those of
the priced roles. -/
structure FeesAddUp (estimate : Estimate) (result : RollupResult) : Prop where
  tiers : result.money.tiers.map (·.id) = (effectiveTiers estimate.priceTiers).map (·.key)
  byPhase : ∀ tier ∈ result.money.tiers, ∃ labour, tier.labourMicros = some labour ∧
    (result.phases.mapM fun row => shownFee tier.id row.feesMicros).map List.sum = some labour
  byRole : ∀ tier ∈ result.money.tiers, ∃ labour, tier.labourMicros = some labour ∧
    ((result.roles.filter (·.dayRateMicros.isSome)).mapM fun row =>
      shownFee tier.id row.feesMicros).map List.sum = some labour

/-- The days that the rows show are rounded from days that add up. -/
structure DaysAddUp (estimate : Estimate) (totals : Totals) (result : RollupResult) : Prop where
  total : result.effort.totalPersonDays = roundTo 2 totals.totalPersonDays
  phases : result.phases.map (·.personDays) =
    totals.phases.map fun phase => roundTo 2 phase.2.personDays
  roles : result.roles.map (·.personDays) =
    (sortedRoles estimate).map fun role => roundTo 2 (totals.ofRole role).personDays
  byPhase : totals.totalPersonDays = (totals.phases.map (·.2.personDays)).sum
  byRole : totals.totalPersonDays =
    ((sortedRoles estimate).map fun role => (totals.ofRole role).personDays).sum

/-! ### The orders of the loop -/

theorem sortedRoles_perm (estimate : Estimate) : (sortedRoles estimate).Perm estimate.roles :=
  List.mergeSort_perm _ _

theorem allEfforts_perm (estimate : Estimate) :
    ((sortedPhases estimate).flatMap effortsOf).Perm (allEfforts estimate) := by
  apply ((List.mergeSort_perm _ _).flatMap_right effortsOf).trans
  apply List.Perm.flatMap_left
  intro phase _
  exact (List.mergeSort_perm _ _).flatMap_right _

variable {estimate : Estimate} {tier : EffectiveTier}

theorem sortedRoles_nodup (h : estimate.DistinctIds) : ((sortedRoles estimate).map (·.id)).Nodup :=
  ((sortedRoles_perm estimate).map _).nodup_iff.mpr h.roles

theorem effectiveTiers_nodup (h : estimate.DistinctIds) :
    ((effectiveTiers estimate.priceTiers).map (·.key)).Nodup := by
  unfold effectiveTiers
  split
  · simp
  · have hids := ((List.mergeSort_perm estimate.priceTiers fun a b =>
      a.sortOrder < b.sortOrder || (a.sortOrder == b.sortOrder && a.name ≤ b.name)).map
      (·.id)).nodup_iff.mpr h.tiers
    simpa [List.map_map, Function.comp_def] using
      hids.map (f := fun id : Uuid => some id) (Option.some_injective _)

/-! ### The loop over the phases -/

theorem fromKeys_lookup_default (ids : List Uuid) (id : Uuid) :
    ((fromKeys ids ({} : RoleTotals)).lookup id).getD {} = {} := by
  cases h : (fromKeys ids ({} : RoleTotals)).lookup id with
  | none => rfl
  | some totals => exact (lookup_fromKeys h).2

theorem effortTotals_returns_iff (estimate : Estimate) :
    (∃ totals, effortTotals estimate = .ok totals) ↔
      ∀ effort ∈ allEfforts estimate,
        FeesFit (sortedRoles estimate) (effectiveTiers estimate.priceTiers) effort := by
  have hstep : ∀ s, ∀ phase ∈ sortedPhases estimate,
      (∃ t, phaseStep (sortedRoles estimate) (effectiveTiers estimate.priceTiers) s phase =
        .ok t) ↔ _ := fun s phase _ => phaseStep_returns_iff s
  unfold effortTotals
  rw [foldlM_returns_iff hstep]
  simp only [← (allEfforts_perm estimate).mem_iff, List.mem_flatMap]
  constructor
  · rintro h effort ⟨phase, hphase, heffort⟩
    exact h phase hphase effort heffort
  · exact fun h phase hphase effort heffort => h effort ⟨phase, hphase, heffort⟩

variable {totals : Totals}

theorem effortTotals_balanced (hids : estimate.DistinctIds) (h : effortTotals estimate = .ok totals) :
    Balanced (sortedRoles estimate) (effectiveTiers estimate.priceTiers) totals := by
  refine foldlM_preserves (fun s phase _ t => phaseStep_balanced (sortedRoles_nodup hids)
    (effectiveTiers_nodup hids)) ?_ h
  constructor
  · rfl
  · simp [Totals.ofRole, fromKeys_lookup_default]
  · simp [feeIn_fromKeys]
  · intro tier _
    rw [feeIn_fromKeys]
    simp [Totals.ofRole, fromKeys_lookup_default, feeIn]
  · simp
  · simp [Totals.ofRole, fromKeys_lookup_default, feeIn]

theorem effortTotals_labour (hids : estimate.DistinctIds) (h : effortTotals estimate = .ok totals)
    (htier : tier ∈ effectiveTiers estimate.priceTiers) :
    feeIn tier.key totals.estimateFees = labourFees estimate tier := by
  have hstep : ∀ s, ∀ phase ∈ sortedPhases estimate, ∀ t,
      phaseStep (sortedRoles estimate) (effectiveTiers estimate.priceTiers) s phase = .ok t →
      LabourGrows tier.key s _ t := fun s phase _ t =>
    phaseStep_labourGrows (sortedRoles_nodup hids) (effectiveTiers_nodup hids) htier
  have hgrows : feeIn tier.key totals.estimateFees = _ :=
    foldlM_adds (labourGrows_additive tier.key) hstep h
  rw [hgrows, feeIn_fromKeys, zero_add, labourFees,
    ← ((allEfforts_perm estimate).map _).sum_eq, List.map_flatMap, List.flatMap,
    List.sum_flatten, List.map_map]
  rfl

/-! ### The rows -/

theorem contingencyMicros_returns_iff (labour : Int) (pct : Rat) :
    (∃ contingency, contingencyMicros (some labour) (some pct) = .ok contingency) ↔
      Fits (roundHalfUp (div (mul labour pct) 100)) := by
  have heq : contingencyMicros (some labour) (some pct) =
      some <$> quantize (div (mul labour pct) 100) := rfl
  rw [heq, quantize]
  split
  · next hfits => exact iff_of_true ⟨_, rfl⟩ hfits
  · next hfits =>
      refine iff_of_false ?_ hfits
      rintro ⟨contingency, h⟩
      cases h

theorem tierRow_returns_iff (contingencyPct : Option Rat) (totalsCurrency : Option String)
    (build : Band) (labour : Int) (tier : EffectiveTier) :
    (∃ row, tierRow contingencyPct totalsCurrency build (some labour) tier = .ok row) ↔
      ∀ pct, contingencyPct = some pct →
        Fits (roundHalfUp (div (mul labour pct) 100)) := by
  unfold tierRow
  simp only [bind_eq_ok_iff]
  cases contingencyPct with
  | none => exact iff_of_true ⟨_, none, rfl, rfl⟩ (by simp)
  | some pct =>
      simp only [Option.some.injEq, forall_eq', ← contingencyMicros_returns_iff]
      constructor
      · rintro ⟨row, contingency, hcontingency, -⟩
        exact ⟨contingency, hcontingency⟩
      · rintro ⟨contingency, hcontingency⟩
        exact ⟨_, contingency, hcontingency, rfl⟩

theorem tierRow_shows {contingencyPct : Option Rat} {totalsCurrency : Option String} {build : Band}
    {labour : Option Int} {row : TierRow}
    (h : tierRow contingencyPct totalsCurrency build labour tier = .ok row) :
    row.id = tier.key ∧ row.labourMicros = labour := by
  unfold tierRow at h
  rw [bind_eq_ok_iff] at h
  obtain ⟨contingency, -, h⟩ := h
  cases h
  exact ⟨rfl, rfl⟩

def rowLabour (estimate : Estimate) (totals : Totals) (tier : EffectiveTier) : Option Int :=
  if canPrice (sortedRoles estimate) then some (feeIn tier.key totals.estimateFees) else none

def tierRows (estimate : Estimate) (totals : Totals) : Except DecimalException (List TierRow) :=
  let build := sumBand (buildLines estimate)
  (effectiveTiers estimate.priceTiers).mapM fun tier =>
    tierRow estimate.contingencyPct (totalsCurrency (sortedRoles estimate) build) build
      (rowLabour estimate totals tier) tier

theorem computeRollup_returns_iff (estimate : Estimate) (settings : OverviewSettings)
    (generatedAt : Int) :
    (∃ result, computeRollup estimate settings generatedAt = .ok result) ↔
      ∃ totals, effortTotals estimate = .ok totals ∧
        ∃ rows, tierRows estimate totals = .ok rows := by
  unfold computeRollup
  simp only [bind_eq_ok_iff]
  constructor
  · rintro ⟨result, totals, htotals, rows, hrows, -⟩
    exact ⟨totals, htotals, rows, hrows⟩
  · rintro ⟨totals, htotals, rows, hrows⟩
    exact ⟨_, totals, htotals, rows, hrows, rfl⟩

structure ShowsTotals (estimate : Estimate) (settings : OverviewSettings) (totals : Totals)
    (result : RollupResult) : Prop where
  tiers : tierRows estimate totals = .ok result.money.tiers
  phases : result.phases = totals.phases.map fun phase =>
    phaseRow estimate settings (sortedRoles estimate) phase.1 phase.2
  roles : result.roles = (sortedRoles estimate).map
    (roleRow (sortedRoles estimate) (effectiveTiers estimate.priceTiers) totals)
  days : result.effort.totalPersonDays = roundTo 2 totals.totalPersonDays

theorem computeRollup_shows {settings : OverviewSettings} {generatedAt : Int}
    {result : RollupResult} (h : computeRollup estimate settings generatedAt = .ok result) :
    ∃ totals, effortTotals estimate = .ok totals ∧
      ShowsTotals estimate settings totals result := by
  unfold computeRollup at h
  simp only [bind_eq_ok_iff] at h
  obtain ⟨totals, htotals, rows, hrows, h⟩ := h
  cases h
  exact ⟨totals, htotals, hrows, rfl, rfl, rfl⟩

/-! ### Fees by their text key -/

section

variable {key : Option Uuid} (hkey : key ∈ (effectiveTiers estimate.priceTiers).map (·.key))
include hkey

theorem keyText_injOn {other : Option Uuid}
    (hother : other ∈ (effectiveTiers estimate.priceTiers).map (·.key))
    (h : keyText key = keyText other) : key = other := by
  unfold effectiveTiers at hkey hother
  by_cases htiers : estimate.priceTiers = []
  · rw [if_pos htiers] at hkey hother
    rw [List.mem_singleton.mp hkey, List.mem_singleton.mp hother]
  · rw [if_neg htiers, List.map_map] at hkey hother
    obtain ⟨tier, -, rfl⟩ := List.mem_map.mp hkey
    obtain ⟨tier', -, rfl⟩ := List.mem_map.mp hother
    exact congrArg some h

theorem lookup_keyText {fees : Fees} (hfees : ∀ other, other ∈ fees.map Prod.fst →
      other ∈ (effectiveTiers estimate.priceTiers).map (·.key)) :
    (fees.map fun fee => (keyText fee.1, fee.2)).lookup (keyText key) = fees.lookup key := by
  induction fees with
  | nil => rfl
  | cons fee fees ih =>
      obtain ⟨other, amount⟩ := fee
      rw [List.map_cons, Fields.lookup_cons, List.lookup_cons,
        ih fun other hother => hfees other (List.mem_cons_of_mem _ hother)]
      have hother := hfees other List.mem_cons_self
      by_cases h : other = key
      · subst h
        simp
      · have hne : (key == other) = false := by simpa using Ne.symm h
        rw [if_neg fun htext => h (keyText_injOn hother hkey htext), hne]

end

theorem shownFee_phase (htier : tier ∈ effectiveTiers estimate.priceTiers) {fees : Fees}
    (hfees : ∀ key, key ∈ fees.map Prod.fst ↔
      key ∈ (effectiveTiers estimate.priceTiers).map (·.key)) :
    shownFee tier.key (some (fees.map fun fee => (keyText fee.1, fee.2))) =
      some (feeIn tier.key fees) := by
  have hkey := List.mem_map_of_mem (f := fun t : EffectiveTier => t.key) htier
  rw [shownFee, Option.bind_some, lookup_keyText hkey fun key => (hfees key).mp]
  obtain ⟨fee, hfee⟩ := Option.isSome_iff_exists.mp
    (lookup_isSome_iff.mpr ((hfees tier.key).mpr hkey))
  rw [hfee, feeIn, hfee, Option.getD_some]

theorem shownFee_role {tiers : List EffectiveTier} (htier : tier ∈ tiers)
    (htiers : ∀ other ∈ tiers, other ∈ effectiveTiers estimate.priceTiers) (fee : Option Uuid → Int) :
    shownFee tier.key (some (tiers.map fun tier => (keyText tier.key, fee tier.key))) =
      some (fee tier.key) := by
  rw [shownFee, Option.bind_some]
  induction tiers with
  | nil => cases htier
  | cons other tiers ih =>
      rw [List.map_cons, Fields.lookup_cons]
      split
      · next htext =>
          have hkey := keyText_injOn
            (List.mem_map_of_mem (f := fun t : EffectiveTier => t.key)
              (htiers other List.mem_cons_self))
            (List.mem_map_of_mem (htiers tier htier)) htext
          exact congrArg (fun key => some (fee key)) hkey
      · next htext =>
          rcases List.mem_cons.mp htier with rfl | htier
          · exact absurd rfl htext
          · exact ih htier fun t ht => htiers t (List.mem_cons_of_mem _ ht)

theorem mapM_shown {α : Type} {rows : List α} {shown : α → Option Int} {fee : α → Int}
    (h : ∀ row ∈ rows, shown row = some (fee row)) :
    (rows.mapM shown).map List.sum = some (rows.map fee).sum := by
  have hall : rows.mapM shown = some (rows.map fee) := by
    induction rows with
    | nil => rfl
    | cons row rows ih =>
        rw [List.mapM_cons, h row List.mem_cons_self,
          ih fun row hrow => h row (List.mem_cons_of_mem _ hrow)]
        rfl
  rw [hall]
  rfl

theorem sum_filter_of_zero {α : Type} (p : α → Bool) (f : α → Int) (items : List α)
    (h : ∀ x ∈ items, p x = false → f x = 0) :
    ((items.filter p).map f).sum = (items.map f).sum := by
  induction items with
  | nil => rfl
  | cons x items ih =>
      have hrest := ih fun y hy => h y (List.mem_cons_of_mem _ hy)
      cases hp : p x with
      | true => simp [hp, hrest]
      | false => simp [hp, hrest, h x List.mem_cons_self hp]

/-! ### What the rollup shows -/

section Priced

variable {estimate : Estimate} {settings : OverviewSettings} {totals : Totals}
  {result : RollupResult} (hids : estimate.DistinctIds)
  (hprice : canPrice (sortedRoles estimate) = true)
  (htotals : effortTotals estimate = .ok totals)
  (hshows : ShowsTotals estimate settings totals result)
include hids hprice htotals hshows

omit hids htotals in
theorem tier_of_row {row : TierRow} (hrow : row ∈ result.money.tiers) :
    ∃ tier ∈ effectiveTiers estimate.priceTiers, row.id = tier.key ∧
      row.labourMicros = some (feeIn tier.key totals.estimateFees) := by
  have hobserve : result.money.tiers.map (fun row => (row.id, row.labourMicros)) =
      (effectiveTiers estimate.priceTiers).map fun tier =>
        (tier.key, rowLabour estimate totals tier) :=
    mapM_observe (fun tier row h => Prod.ext (tierRow_shows h).1 (tierRow_shows h).2) hshows.tiers
  have hmem : (row.id, row.labourMicros) ∈ result.money.tiers.map fun row =>
      (row.id, row.labourMicros) := List.mem_map_of_mem hrow
  rw [hobserve, List.mem_map] at hmem
  obtain ⟨tier, htier, heq⟩ := hmem
  rw [Prod.ext_iff, rowLabour, if_pos hprice] at heq
  exact ⟨tier, htier, heq.1.symm, heq.2.symm⟩

theorem feesAddUp : FeesAddUp estimate result := by
  have hbalanced := effortTotals_balanced hids htotals
  constructor
  · exact mapM_observe (fun tier row h => (tierRow_shows h).1) hshows.tiers
  · intro row hrow
    obtain ⟨tier, htier, hid, hlabour⟩ := tier_of_row hprice hshows hrow
    refine ⟨_, hlabour, ?_⟩
    rw [hshows.phases, hid, hbalanced.feesByPhase tier htier, List.mapM_map]
    apply mapM_shown
    intro phase hphase
    have hfees : (phaseRow estimate settings (sortedRoles estimate) phase.1 phase.2).feesMicros =
        some (phase.2.fees.map fun fee => (keyText fee.1, fee.2)) := if_pos hprice
    rw [Function.comp_apply, hfees, shownFee_phase htier (hbalanced.keys phase hphase)]
  · intro row hrow
    obtain ⟨tier, htier, hid, hlabour⟩ := tier_of_row hprice hshows hrow
    refine ⟨_, hlabour, ?_⟩
    rw [hshows.roles, hid, hbalanced.feesByRole tier htier, List.filter_map, List.mapM_map,
      ← sum_filter_of_zero (fun role => role.dayRateMicros.isSome)]
    · apply mapM_shown
      intro role hrole
      have hpriced : role.dayRateMicros.isSome = true := (List.mem_filter.mp hrole).2
      have hfees : (roleRow (sortedRoles estimate) (effectiveTiers estimate.priceTiers) totals
          role).feesMicros = some ((effectiveTiers estimate.priceTiers).map fun tier =>
            (keyText tier.key, feeIn tier.key (totals.ofRole role).fees)) :=
        if_pos (by rw [hprice, hpriced]; rfl)
      rw [Function.comp_apply, hfees]
      exact shownFee_role htier (fun _ h => h) fun key => feeIn key (totals.ofRole role).fees
    · intro role hrole hnone
      exact hbalanced.unpriced role hrole (by simpa using hnone) tier.key

omit hprice in
theorem daysAddUp : DaysAddUp estimate totals result := by
  have hbalanced := effortTotals_balanced hids htotals
  constructor
  · exact hshows.days
  · rw [hshows.phases, List.map_map]
    rfl
  · rw [hshows.roles, List.map_map]
    rfl
  · exact hbalanced.daysByPhase
  · exact hbalanced.daysByRole

end Priced

theorem tierRows_returns_iff (hids : estimate.DistinctIds)
    (hprice : canPrice (sortedRoles estimate) = true) (htotals : effortTotals estimate = .ok totals) :
    (∃ rows, tierRows estimate totals = .ok rows) ↔
      ∀ pct, estimate.contingencyPct = some pct →
        ∀ tier ∈ effectiveTiers estimate.priceTiers,
          Fits (roundHalfUp (div (mul (labourFees estimate tier) pct) 100)) := by
  unfold tierRows
  rw [mapM_returns_iff]
  have hrow : ∀ tier ∈ effectiveTiers estimate.priceTiers,
      rowLabour estimate totals tier = some (labourFees estimate tier) := by
    intro tier htier
    rw [rowLabour, if_pos hprice, effortTotals_labour hids htotals htier]
  constructor
  · intro h pct hpct tier htier
    have hreturns := h tier htier
    rw [hrow tier htier, tierRow_returns_iff] at hreturns
    exact hreturns pct hpct
  · intro h tier htier
    rw [hrow tier htier, tierRow_returns_iff]
    exact fun pct hpct => h pct hpct tier htier

/-- Of an estimate whose labour can be priced, the rollup is computed, with money and days
that add up by phase and by role, if and only if every amount fits. -/
theorem computeRollup_addsUp_iff (estimate : Estimate) (settings : OverviewSettings)
    (generatedAt : Int) (hids : estimate.DistinctIds)
    (hprice : canPrice (sortedRoles estimate) = true) :
    (∃ result, computeRollup estimate settings generatedAt = .ok result ∧
      FeesAddUp estimate result ∧
      ∃ totals, effortTotals estimate = .ok totals ∧ DaysAddUp estimate totals result) ↔
      AmountsFit estimate := by
  constructor
  · rintro ⟨result, hresult, -⟩
    obtain ⟨totals, htotals, hrows⟩ :=
      (computeRollup_returns_iff estimate settings generatedAt).mp ⟨result, hresult⟩
    exact ⟨(effortTotals_returns_iff estimate).mp ⟨totals, htotals⟩,
      (tierRows_returns_iff hids hprice htotals).mp hrows⟩
  · intro hfit
    obtain ⟨totals, htotals⟩ := (effortTotals_returns_iff estimate).mpr hfit.fees
    have hrows := (tierRows_returns_iff hids hprice htotals).mpr hfit.contingency
    obtain ⟨result, hresult⟩ := (computeRollup_returns_iff estimate settings generatedAt).mpr
      ⟨totals, htotals, hrows⟩
    obtain ⟨totals', htotals', hshows⟩ := computeRollup_shows hresult
    exact ⟨result, hresult, feesAddUp hids hprice htotals' hshows, totals', htotals',
      daysAddUp hids htotals' hshows⟩

/-- One role with a rate, one tier, and one task of one phase on which the role works. -/
def smallEstimate (days : Rat) (rate : Int) (multiplier contingencyPct : Rat) : Estimate :=
  { id := "e", name := "Build", purpose := "budget", status := "draft", isBaseline := true
    accuracyNote := none, contingencyPct := some contingencyPct, version := 1
    phases :=
      [{ id := "p", code := "P1", name := "Build", sortOrder := 0, plannedStart := none
         plannedEnd := none, actualStart := none, actualEnd := none, gateStatus := "pending"
         gateCriteria := "", statedWorkingWeeks := none
         tasks :=
          [{ number := "1", sortOrder := 0, isCritical := false
             efforts := [{ roleId := "r", plannedPersonDays := days }] }]
         allocations := [] }]
    roles :=
      [{ id := "r", code := "DEV", name := "Developer", responsibility := ""
         dayRateMicros := some rate, currency := some "EUR", clientSide := false
         sortOrder := 0 }]
    priceTiers :=
      [{ id := "t", name := "Low", multiplier, isPrimary := true, sortOrder := 0 }]
    costLines := [], calendarBreaks := [] }

def defaultSettings : OverviewSettings :=
  { baseCurrency := "EUR", labourBilling := "day_rates", hoursPerDay := 8
    workingDayFactor := 1 }

theorem smallEstimate_distinctIds (days : Rat) (rate : Int) (multiplier contingencyPct : Rat) :
    (smallEstimate days rate multiplier contingencyPct).DistinctIds :=
  ⟨List.nodup_singleton _, List.nodup_singleton _⟩

/-- Ten days at 800 a day, with a tenth for contingency. -/
theorem computeRollup_addsUp_tenDays :
    (∃ result, computeRollup (smallEstimate 10 800000000 1 10) defaultSettings 0 = .ok result ∧
      FeesAddUp (smallEstimate 10 800000000 1 10) result ∧
      ∃ totals, effortTotals (smallEstimate 10 800000000 1 10) = .ok totals ∧
        DaysAddUp (smallEstimate 10 800000000 1 10) totals result) ↔
      AmountsFit (smallEstimate 10 800000000 1 10) := by
  apply computeRollup_addsUp_iff _ _ _ (smallEstimate_distinctIds _ _ _ _)
  decide +kernel

/-- The largest days, rate, multiplier and contingency that the schemas accept: the
contingency has 29 digits, and nothing is computed. -/
theorem computeRollup_raises :
    (smallEstimate 99999999.99 9007199254740991 9999.9999 999.999).DistinctIds ∧
    canPrice (sortedRoles (smallEstimate 99999999.99 9007199254740991 9999.9999 999.999)) =
      true ∧
    ¬ ∃ result, computeRollup (smallEstimate 99999999.99 9007199254740991 9999.9999 999.999)
        defaultSettings 0 = .ok result ∧
      FeesAddUp (smallEstimate 99999999.99 9007199254740991 9999.9999 999.999) result ∧
      ∃ totals, effortTotals (smallEstimate 99999999.99 9007199254740991 9999.9999 999.999) =
          .ok totals ∧
        DaysAddUp (smallEstimate 99999999.99 9007199254740991 9999.9999 999.999) totals
          result := by
  refine ⟨smallEstimate_distinctIds _ _ _ _, by decide +kernel, ?_⟩
  rintro ⟨result, hresult, -⟩
  have herror : computeRollup (smallEstimate 99999999.99 9007199254740991 9999.9999 999.999)
      defaultSettings 0 = .error .invalidOperation := by decide +kernel
  rw [herror] at hresult
  cases hresult

end Qontinui.Overview
