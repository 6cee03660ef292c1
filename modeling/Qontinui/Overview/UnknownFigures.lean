import Qontinui.Overview.RollupTotals

/-!
Unknown figures and their reasons: which figures of a rollup are none, and which entries
among the unavailable ones explain them. A priced role on which no task counts shows no fee,
and nothing says why.
-/

namespace Qontinui.Overview

open PyDecimal FallibleLoops EffortTotals

/-- What the tables require of roles: ids are keys, a rate comes with a currency and a currency
with a rate, and a currency has three characters. -/
structure Estimate.RolesStored (estimate : Estimate) : Prop where
  ids : (estimate.roles.map (·.id)).Nodup
  rates : ∀ role ∈ estimate.roles, role.dayRateMicros.isSome = role.currency.isSome
  currencies : ∀ role ∈ estimate.roles, ∀ currency, role.currency = some currency →
    currency.length = 3

def RollupResult.Explains (result : RollupResult) (figure : String) : Prop :=
  ∃ entry ∈ result.unavailable, entry.figure = figure

/-- Every figure that is none has its entry. -/
structure Explained (estimate : Estimate) (result : RollupResult) : Prop where
  labour : ∀ tier ∈ result.money.tiers, tier.labourMicros = none → result.Explains "labour_fees"
  totals : ∀ tier ∈ result.money.tiers, tier.totalLowMicros = none →
    result.Explains "labour_fees" ∨ result.Explains "grand_total"
  build : result.money.buildLowMicros = none →
    (∃ line ∈ estimate.costLines, line.kind = "build_non_labour" ∧
      (line.lowMicros.isSome ∨ line.highMicros.isSome)) → result.Explains "build_non_labour"
  schedule : result.schedule.workingDays = none → result.Explains "schedule"
  team : result.team.averageFte = none →
    result.Explains "average_fte" ∨ result.Explains "team_size"
  roles : ∀ role ∈ result.roles, role.feeMicros = none →
    role.dayRateMicros = none ∨ result.Explains "labour_fees"

/-- Labour has no single currency to be priced in, or a delivery role lacks a rate. -/
def LabourUnclear (roles : List EstimateRole) : Prop :=
  1 < (labourCurrencies roles).length ∨
    ∃ role ∈ roles, role.dayRateMicros = none ∧ role.clientSide = false

/-! ### Which roles have a fee -/

section Fees

variable {roles : List EstimateRole} {tiers : List EffectiveTier} {id : Uuid}
  {key : Option Uuid} {s t : EffortTotals}

def Charged (id : Uuid) (key : Option Uuid) (roleTotals : List (Uuid × RoleTotals)) : Prop :=
  (((roleTotals.lookup id).getD {}).fees.lookup key).isSome

def CountsFor (roles : List EstimateRole) (id : Uuid) (effort : TaskEffort) : Prop :=
  effort.roleId = id ∧ (rateOf roles effort).isSome

theorem addDays_charged (role : Uuid) (days : Rat) (s : EffortTotals) :
    Charged id key (addDays role days s).roleTotals ↔ Charged id key s.roleTotals := by
  have hrole := ofRole_updateRole { s with
      phase := { s.phase with
        personDays := s.phase.personDays + days, roleDays := bump role days s.phase.roleDays } }
    role id fun sums => { sums with personDays := sums.personDays + days }
  unfold ofRole at hrole
  unfold Charged addDays
  dsimp only at hrole ⊢
  rw [hrole]
  split <;> rfl

theorem tierStep_charged {role : Uuid} {days : Rat} {rate : Int} {tier : EffectiveTier}
    (h : tierStep role days rate s tier = .ok t) :
    Charged id key t.roleTotals ↔
      Charged id key s.roleTotals ∨ (role = id ∧ tier.key = key) := by
  obtain ⟨-, rfl⟩ := tierStep_eq_ok_iff.mp h
  unfold Charged updateRole
  dsimp only
  rw [lookup_set]
  by_cases hrole : id = role
  · subst hrole
    rw [if_pos rfl, Option.getD_some, lookup_isSome_iff, lookup_isSome_iff]
    unfold bump
    rw [mem_keys_set, or_comm, eq_comm]
    simp
  · rw [if_neg hrole]
    simp [Ne.symm hrole]

variable {effort : TaskEffort}

theorem effortStep_charged (hkey : key ∈ tiers.map (·.key))
    (h : effortStep roles tiers s effort = .ok t) :
    Charged id key t.roleTotals ↔
      Charged id key s.roleTotals ∨ CountsFor roles id effort := by
  unfold CountsFor
  have hspec := effortStep_spec roles tiers s effort
  rw [h] at hspec
  generalize hresult : Except.ok t = result at hspec
  cases hspec with
  | orphan hnone =>
      cases hresult
      have hrate : rateOf roles effort = none := by simp [rateOf, hnone]
      simp [hrate]
  | unpriced role _ hrate =>
      cases hresult
      simp [addDays_charged, hrate]
  | priced role rate hrole hrate =>
      have hstep : ∀ s, ∀ tier ∈ tiers, ∀ t,
          tierStep role.id effort.plannedPersonDays rate s tier = .ok t →
          (Charged id key t.roleTotals ↔
            Charged id key s.roleTotals ∨ (role.id = id ∧ tier.key = key)) :=
        fun s tier _ t => tierStep_charged
      have htiers := foldlM_brings_iff hstep hresult.symm
      rw [htiers, addDays_charged, (roleOf_spec hrole).2, hrate]
      obtain ⟨tier, htier, rfl⟩ := List.mem_map.mp hkey
      refine or_congr_right ⟨?_, ?_⟩
      · rintro ⟨-, -, hid, -⟩
        exact ⟨hid, rfl⟩
      · rintro ⟨hid, -⟩
        exact ⟨tier, htier, hid, rfl⟩

theorem phaseStep_charged {phase : Phase} {totals totals' : Totals}
    (hkey : key ∈ tiers.map (·.key)) (h : phaseStep roles tiers totals phase = .ok totals') :
    Charged id key totals'.roleTotals ↔ Charged id key totals.roleTotals ∨
      ∃ effort ∈ effortsOf phase, CountsFor roles id effort := by
  obtain ⟨after, hafter, rfl⟩ := phaseStep_eq_ok_iff.mp h
  have hstep : ∀ s, ∀ effort ∈ effortsOf phase, ∀ t, effortStep roles tiers s effort = .ok t →
      (Charged id key t.roleTotals ↔
        Charged id key s.roleTotals ∨ CountsFor roles id effort) :=
    fun s effort _ t => effortStep_charged hkey
  exact foldlM_brings_iff hstep hafter

theorem effortTotals_charged {estimate : Estimate} {totals : Totals}
    (hkey : key ∈ (effectiveTiers estimate.priceTiers).map (·.key))
    (h : effortTotals estimate = .ok totals) :
    Charged id key totals.roleTotals ↔
      ∃ effort ∈ allEfforts estimate, CountsFor (sortedRoles estimate) id effort := by
  have hstep : ∀ s, ∀ phase ∈ sortedPhases estimate, ∀ t,
      phaseStep (sortedRoles estimate) (effectiveTiers estimate.priceTiers) s phase = .ok t →
      (Charged id key t.roleTotals ↔ Charged id key s.roleTotals ∨
        ∃ effort ∈ effortsOf phase, CountsFor (sortedRoles estimate) id effort) :=
    fun s phase _ t => phaseStep_charged hkey
  have hphases := foldlM_brings_iff hstep h
  have hstart : ¬ Charged id key (fromKeys ((sortedRoles estimate).map (·.id)) {}) := by
    unfold Charged
    rw [fromKeys_lookup_default]
    simp
  rw [hphases, or_iff_right hstart]
  simp only [← (allEfforts_perm estimate).mem_iff, List.mem_flatMap]
  constructor
  · rintro ⟨phase, hphase, effort, heffort, hcounts⟩
    exact ⟨effort, ⟨phase, hphase, heffort⟩, hcounts⟩
  · rintro ⟨effort, ⟨phase, hphase, heffort⟩, hcounts⟩
    exact ⟨phase, hphase, effort, heffort, hcounts⟩

theorem roleOf_of_mem (hids : (roles.map (·.id)).Nodup) {role : EstimateRole} (hrole : role ∈ roles)
    (h : effort.roleId = role.id) : roleOf roles effort = some role := by
  have hkeys : ∀ (items : List EstimateRole) (dict : List (Uuid × EstimateRole)),
      (role ∈ items ∨ role.id ∈ dict.map Prod.fst) →
      role.id ∈ (items.foldl (fun dict role => Fields.set role.id role dict) dict).map
        Prod.fst := by
    intro items
    induction items with
    | nil =>
        intro dict hmem
        simpa using hmem
    | cons item items ih =>
        intro dict hmem
        apply ih
        rw [mem_keys_set]
        rcases hmem with hitem | hdict
        · rcases List.mem_cons.mp hitem with rfl | hitem
          · exact .inr (.inl rfl)
          · exact .inl hitem
        · exact .inr (.inr hdict)
  have hsome : (roleOf roles effort).isSome := by
    rw [roleOf, lookup_isSome_iff, h]
    exact hkeys roles [] (.inl hrole)
  obtain ⟨other, hother⟩ := Option.isSome_iff_exists.mp hsome
  obtain ⟨hmem, hid⟩ := roleOf_spec hother
  rw [hother, List.inj_on_of_nodup_map hids hmem hrole (hid.trans h)]

theorem countsFor_iff (hids : (roles.map (·.id)).Nodup) (hprice : canPrice roles = true)
    {role : EstimateRole} (hrole : role ∈ roles) (hrate : role.dayRateMicros.isSome) :
    CountsFor roles role.id effort ↔ effort.roleId = role.id := by
  refine and_iff_left_of_imp fun h => ?_
  rw [rateOf, if_pos hprice, roleOf_of_mem hids hrole h]
  exact hrate

end Fees

/-! ### Which reasons there are -/

section Reasons

variable {roles : List EstimateRole} {build : Band} {figure : String}

def Names (entries : List Unavailable) (figure : String) : Prop :=
  ∃ entry ∈ entries, entry.figure = figure

@[simp] theorem names_append {entries others : List Unavailable} :
    Names (entries ++ others) figure ↔ Names entries figure ∨ Names others figure := by
  simp only [Names, List.mem_append, or_and_right, exists_or]

@[simp] theorem names_nil : ¬ Names [] figure := by simp [Names]

@[simp] theorem names_single {entry : Unavailable} :
    Names [entry] figure ↔ entry.figure = figure := by simp [Names]

@[simp] theorem names_ite {c : Prop} [Decidable c] {entries others : List Unavailable} :
    Names (if c then entries else others) figure ↔
      (c ∧ Names entries figure) ∨ (¬ c ∧ Names others figure) := by
  split <;> simp_all

theorem names_labourUnavailable :
    Names (labourUnavailable roles) figure ↔
      "labour_fees" = figure ∧ (1 < (labourCurrencies roles).length ∨
        (∃ role ∈ roles, role.dayRateMicros = none ∧ role.clientSide = false) ∧
          pricedRoles roles ≠ []) := by
  have hunpriced : (roles.filter fun role => role.dayRateMicros.isNone && !role.clientSide) ≠ [] ↔
      ∃ role ∈ roles, role.dayRateMicros = none ∧ role.clientSide = false := by
    simp [List.filter_eq_nil_iff]
  unfold labourUnavailable
  simp only [names_append, names_ite, names_single, names_nil, and_false, or_false, hunpriced]
  rw [and_or_left, and_comm, and_comm (b := _ = figure)]

theorem names_totalsUnavailable :
    Names (totalsUnavailable roles build) figure ↔
      ("grand_total" = figure ∧ (labourCurrency roles).isSome ∧
        totalsCurrency roles build = none) ∨
      ("labour_fees" = figure ∧ labourCurrency roles = none ∧ pricedRoles roles = []) := by
  unfold totalsUnavailable totalsCurrency
  cases hcurrency : labourCurrency roles with
  | none =>
      by_cases hroles : roles = []
      · simp [hroles, pricedRoles]
      · simp [hroles, and_comm]
  | some currency =>
      cases build.mixed <;> cases build.unpricedLines <;> simp [and_comm]

theorem names_effortUnavailable {totals : Totals} (h : Names (effortUnavailable totals) figure) :
    "effort" = figure := by
  unfold effortUnavailable at h
  simp only [names_ite, names_nil, and_false, false_or, names_single] at h
  exact h.2

variable {estimate : Estimate}

theorem names_scheduleUnavailable {schedule : Schedule} :
    Names (scheduleUnavailable estimate schedule) figure ↔
      "schedule" = figure ∧ ¬ (schedule.plannedStart.isSome ∧ schedule.plannedEnd.isSome) := by
  unfold scheduleUnavailable
  simp only [names_ite, names_nil, and_false, false_or, names_single]
  rw [← or_and_right, and_comm, iff_true_intro (em (estimate.phases ≠ [])), true_and]

theorem names_teamUnavailable {rows : List PhaseRow} :
    Names (teamUnavailable rows) figure ↔
      ("team_size" = figure ∧ (rows.filter fun row => 0 < row.allocatedFte) = []) ∨
      ("average_fte" = figure ∧ (rows.filter fun row => 0 < row.allocatedFte) ≠ [] ∧
        averageFte (rows.filter fun row => 0 < row.allocatedFte) = none) := by
  unfold teamUnavailable
  simp only [names_ite, names_nil, and_false, or_false, names_single]
  rw [and_comm, ← and_assoc, and_comm (b := "average_fte" = figure), ne_eq]

theorem names_buildUnavailable :
    Names (buildUnavailable build) figure ↔
      "build_non_labour" = figure ∧ (build.mixed = true ∨ build.unpricedLines = true) := by
  unfold buildUnavailable
  simp only [names_ite, names_nil, and_false, or_false, names_single]
  cases build.mixed <;> cases build.unpricedLines <;> simp only [Bool.false_eq_true] <;> simp

theorem labourCurrency_isSome_iff :
    (labourCurrency roles).isSome ↔ (labourCurrencies roles).length = 1 := by
  unfold labourCurrency
  rcases labourCurrencies roles with _ | ⟨currency, _ | ⟨other, rest⟩⟩ <;> simp

theorem labourCurrencies_ne_nil (h : estimate.RolesStored)
    (hpriced : pricedRoles (sortedRoles estimate) ≠ []) :
    labourCurrencies (sortedRoles estimate) ≠ [] := by
  obtain ⟨role, hrole⟩ := List.exists_mem_of_ne_nil _ hpriced
  have hmem := (sortedRoles_perm estimate).mem_iff.mp (List.mem_of_mem_filter hrole)
  have hsome : role.dayRateMicros.isSome = true := by simpa using (List.mem_filter.mp hrole).2
  rw [h.rates role hmem] at hsome
  obtain ⟨currency, hcurrency⟩ := Option.isSome_iff_exists.mp hsome
  have hne : currency ≠ "" := by
    rintro rfl
    exact absurd (h.currencies role hmem "" hcurrency) (by decide)
  refine List.ne_nil_of_mem (a := currency) ?_
  rw [labourCurrencies, List.mem_dedup, List.mem_filterMap]
  exact ⟨role, hrole, by simp [hcurrency, hne]⟩

theorem names_labour_of_not_canPrice (h : estimate.RolesStored)
    (hprice : canPrice (sortedRoles estimate) = false) :
    Names (labourUnavailable (sortedRoles estimate)) "labour_fees" ∨
      Names (totalsUnavailable (sortedRoles estimate) build) "labour_fees" := by
  have hnone : labourCurrency (sortedRoles estimate) = none := by simpa [canPrice] using hprice
  have hlength : (labourCurrencies (sortedRoles estimate)).length ≠ 1 := by
    intro hone
    rw [← labourCurrency_isSome_iff, hnone] at hone
    cases hone
  by_cases hpriced : pricedRoles (sortedRoles estimate) = []
  · exact .inr (names_totalsUnavailable.mpr (.inr ⟨rfl, hnone, hpriced⟩))
  · have hpos := List.length_pos_of_ne_nil (labourCurrencies_ne_nil h hpriced)
    exact .inl (names_labourUnavailable.mpr ⟨rfl, .inl (by omega)⟩)

theorem labourUnclear_perm {others : List EstimateRole} (h : roles.Perm others) :
    LabourUnclear roles ↔ LabourUnclear others := by
  have hlength : (labourCurrencies roles).length = (labourCurrencies others).length :=
    ((h.filter _).filterMap _).dedup.length_eq
  simp only [LabourUnclear, hlength, h.mem_iff]

end Reasons

/-! ### The rollup -/

/-- The figures that the rollup shows, and what it says of those it could not produce. -/
structure ShowsFigures (estimate : Estimate) (settings : OverviewSettings) (totals : Totals)
    (result : RollupResult) : Prop where
  schedule : result.schedule = Overview.schedule estimate settings
  team : result.team = Overview.team result.phases
  build : result.money.buildLowMicros = (sumBand (buildLines estimate)).low
  unavailable : result.unavailable =
    labourUnavailable (sortedRoles estimate) ++ effortUnavailable totals ++
      scheduleUnavailable estimate (Overview.schedule estimate settings) ++
      teamUnavailable result.phases ++ buildUnavailable (sumBand (buildLines estimate)) ++
      totalsUnavailable (sortedRoles estimate) (sumBand (buildLines estimate))

theorem computeRollup_figures {estimate : Estimate} {settings : OverviewSettings}
    {generatedAt : Int} {result : RollupResult}
    (h : computeRollup estimate settings generatedAt = .ok result) :
    ∃ totals, effortTotals estimate = .ok totals ∧ ShowsTotals estimate settings totals result ∧
      ShowsFigures estimate settings totals result := by
  unfold computeRollup at h
  simp only [bind_eq_ok_iff] at h
  obtain ⟨totals, htotals, rows, hrows, h⟩ := h
  cases h
  exact ⟨totals, htotals, ⟨hrows, rfl, rfl, rfl⟩, rfl, rfl, rfl, rfl⟩

section Figures

variable {estimate : Estimate} {settings : OverviewSettings} {totals : Totals}
  {result : RollupResult}

section

variable (h : ShowsFigures estimate settings totals result)
include h

theorem ShowsFigures.explains_iff {figure : String} :
    result.Explains figure ↔
      Names (labourUnavailable (sortedRoles estimate)) figure ∨
      Names (effortUnavailable totals) figure ∨
      Names (scheduleUnavailable estimate (Overview.schedule estimate settings)) figure ∨
      Names (teamUnavailable result.phases) figure ∨
      Names (buildUnavailable (sumBand (buildLines estimate))) figure ∨
      Names (totalsUnavailable (sortedRoles estimate) (sumBand (buildLines estimate))) figure := by
  change Names result.unavailable figure ↔ _
  rw [h.unavailable]
  simp only [names_append, or_assoc]

theorem ShowsFigures.explains_labour_iff :
    result.Explains "labour_fees" ↔
      Names (labourUnavailable (sortedRoles estimate)) "labour_fees" ∨
      Names (totalsUnavailable (sortedRoles estimate) (sumBand (buildLines estimate)))
        "labour_fees" := by
  have heffort : ¬ Names (effortUnavailable totals) "labour_fees" :=
    fun hnames => absurd (names_effortUnavailable hnames) (by decide)
  rw [h.explains_iff, names_scheduleUnavailable, names_teamUnavailable, names_buildUnavailable]
  simp [heffort]

theorem ShowsFigures.labourUnclear_of_explains (hpriced : pricedRoles (sortedRoles estimate) ≠ [])
    (hexplains : result.Explains "labour_fees") : LabourUnclear (sortedRoles estimate) := by
  rcases h.explains_labour_iff.mp hexplains with hlabour | htotals
  · obtain ⟨-, hmixed | ⟨hrole, -⟩⟩ := names_labourUnavailable.mp hlabour
    · exact .inl hmixed
    · exact .inr hrole
  · rcases names_totalsUnavailable.mp htotals with ⟨hfigure, -⟩ | ⟨-, -, hnone⟩
    · exact absurd hfigure (by decide)
    · exact absurd hnone hpriced

theorem ShowsFigures.explains_of_labourUnclear (hpriced : pricedRoles (sortedRoles estimate) ≠ [])
    (hunclear : LabourUnclear (sortedRoles estimate)) : result.Explains "labour_fees" :=
  h.explains_labour_iff.mpr (.inl (names_labourUnavailable.mpr
    ⟨rfl, hunclear.imp_right fun hrole => ⟨hrole, hpriced⟩⟩))

end

theorem tierRow_figures {contingencyPct : Option Rat} {currency : Option String} {build : Band}
    {labour : Option Int} {tier : EffectiveTier} {row : TierRow}
    (h : tierRow contingencyPct currency build labour tier = .ok row) :
    row.labourMicros = labour ∧ (row.totalLowMicros = none → labour = none ∨ currency = none) := by
  unfold tierRow at h
  rw [bind_eq_ok_iff] at h
  obtain ⟨contingency, -, h⟩ := h
  cases h
  refine ⟨rfl, ?_⟩
  cases labour <;> cases currency <;> simp

theorem sumBand_unknown {lines : List CostLine} (h : (sumBand lines).low = none)
    (hamount : ∃ line ∈ lines, line.lowMicros.isSome ∨ line.highMicros.isSome) :
    (sumBand lines).mixed = true ∨ (sumBand lines).unpricedLines = true := by
  have hne : (lines.filter fun line => line.lowMicros.isSome || line.highMicros.isSome) ≠ [] := by
    obtain ⟨line, hline, hsome⟩ := hamount
    exact List.ne_nil_of_mem (List.mem_filter.mpr ⟨hline, by simpa using hsome⟩)
  unfold sumBand at h ⊢
  dsimp only at h ⊢
  rw [if_neg hne] at h ⊢
  split at h
  · next hmixed => rw [if_pos hmixed]; exact .inl rfl
  · next hmixed =>
      rw [if_neg hmixed]
      split at h
      · next hunpriced => rw [if_pos hunpriced]; exact .inr rfl
      · cases h

theorem primaryTierKey_mem (tiers : List PriceTier) :
    primaryTierKey (effectiveTiers tiers) ∈ (effectiveTiers tiers).map (·.key) := by
  have hne : effectiveTiers tiers ≠ [] := by
    unfold effectiveTiers
    split
    · exact List.cons_ne_nil _ _
    · next htiers =>
        simpa [List.map_eq_nil_iff, ← List.length_eq_zero_iff, List.length_mergeSort] using htiers
  unfold primaryTierKey
  cases hfind : (effectiveTiers tiers).find? (·.isPrimary) with
  | some tier => exact List.mem_map_of_mem (List.mem_of_find?_eq_some hfind)
  | none =>
      obtain ⟨tier, rest, htiers⟩ := List.exists_cons_of_ne_nil hne
      rw [htiers]
      simp

theorem roleRow_feeMicros_eq_none_iff (hids : (estimate.roles.map (·.id)).Nodup)
    (htotals : effortTotals estimate = .ok totals) {role : EstimateRole}
    (hrole : role ∈ estimate.roles) (hrate : role.dayRateMicros.isSome) :
    (roleRow (sortedRoles estimate) (effectiveTiers estimate.priceTiers) totals role).feeMicros =
        none ↔
      canPrice (sortedRoles estimate) = true →
        ¬ ∃ effort ∈ allEfforts estimate, effort.roleId = role.id := by
  unfold roleRow Totals.ofRole
  dsimp only
  by_cases hprice : canPrice (sortedRoles estimate) = true
  · have hcharged : Charged role.id _ _ ↔ _ :=
      effortTotals_charged (primaryTierKey_mem estimate.priceTiers) htotals
    have hsorted : ((sortedRoles estimate).map (·.id)).Nodup :=
      ((sortedRoles_perm estimate).map _).nodup_iff.mpr hids
    have hmem := (sortedRoles_perm estimate).mem_iff.mpr hrole
    simp only [countsFor_iff hsorted hprice hmem hrate] at hcharged
    rw [if_pos hprice, ← hcharged, Charged, Option.not_isSome_iff_eq_none]
    simp [hprice]
  · rw [if_neg hprice]
    simp [hprice]

section

variable (h : ShowsFigures estimate settings totals result)
include h

theorem ShowsFigures.build_explained (hnone : result.money.buildLowMicros = none)
    (hamount : ∃ line ∈ estimate.costLines, line.kind = "build_non_labour" ∧
      (line.lowMicros.isSome ∨ line.highMicros.isSome)) : result.Explains "build_non_labour" := by
  rw [h.build] at hnone
  obtain ⟨line, hline, hkind, hamount⟩ := hamount
  have hbuild : line ∈ buildLines estimate := by
    refine List.mem_filter.mpr ⟨?_, by simpa using hkind⟩
    exact (List.mergeSort_perm _ _).mem_iff.mpr hline
  rw [h.explains_iff, names_buildUnavailable]
  exact .inr (.inr (.inr (.inr (.inl ⟨rfl, sumBand_unknown hnone ⟨line, hbuild, hamount⟩⟩))))

theorem ShowsFigures.schedule_explained (hnone : result.schedule.workingDays = none) :
    result.Explains "schedule" := by
  rw [h.explains_iff, names_scheduleUnavailable]
  refine .inr (.inr (.inl ⟨rfl, fun hdates => ?_⟩))
  rw [h.schedule] at hnone
  obtain ⟨first, hfirst⟩ := Option.isSome_iff_exists.mp hdates.1
  obtain ⟨last, hlast⟩ := Option.isSome_iff_exists.mp hdates.2
  unfold Overview.schedule at hnone hfirst hlast
  dsimp only at hnone hfirst hlast
  rw [hfirst, hlast] at hnone
  cases hnone

theorem ShowsFigures.team_explained (hnone : result.team.averageFte = none) :
    result.Explains "average_fte" ∨ result.Explains "team_size" := by
  rw [h.team] at hnone
  by_cases hallocated : (result.phases.filter fun row => 0 < row.allocatedFte) = []
  · right
    rw [h.explains_iff, names_teamUnavailable]
    exact .inr (.inr (.inr (.inl (.inl ⟨rfl, hallocated⟩))))
  · left
    rw [h.explains_iff, names_teamUnavailable]
    exact .inr (.inr (.inr (.inl (.inr ⟨rfl, hallocated, hnone⟩))))

end

theorem ShowsTotals.tier_unknown (h : ShowsTotals estimate settings totals result) :
    ∀ row ∈ result.money.tiers,
      (row.labourMicros = none → canPrice (sortedRoles estimate) = false) ∧
      (row.totalLowMicros = none → canPrice (sortedRoles estimate) = false ∨
        totalsCurrency (sortedRoles estimate) (sumBand (buildLines estimate)) = none) := by
  refine mapM_forall (fun tier row hrow => ?_) h.tiers
  obtain ⟨hlabour, htotal⟩ := tierRow_figures hrow
  have hnone : rowLabour estimate totals tier = none →
      canPrice (sortedRoles estimate) = false := by
    unfold rowLabour
    split
    · simp
    · next hprice => exact fun _ => by simpa using hprice
  exact ⟨fun h => hnone (hlabour.symm.trans h), fun h => (htotal h).imp_left hnone⟩

theorem ShowsFigures.totals_explained (h : ShowsFigures estimate settings totals result)
    (hprice : canPrice (sortedRoles estimate) = true)
    (hcurrency : totalsCurrency (sortedRoles estimate) (sumBand (buildLines estimate)) = none) :
    result.Explains "grand_total" := by
  rw [h.explains_iff, names_totalsUnavailable]
  exact .inr (.inr (.inr (.inr (.inr (.inl ⟨rfl, hprice, hcurrency⟩)))))

end Figures

/-- Every figure that a rollup could not produce is explained, except that of a role with a
rate on which no task counts while labour is otherwise clear. -/
theorem computeRollup_explained_iff (estimate : Estimate) (settings : OverviewSettings)
    (generatedAt : Int) (result : RollupResult) (hstored : estimate.RolesStored)
    (h : computeRollup estimate settings generatedAt = .ok result) :
    Explained estimate result ↔
      ∀ role ∈ estimate.roles, role.dayRateMicros.isSome →
        (∃ effort ∈ allEfforts estimate, effort.roleId = role.id) ∨
          LabourUnclear estimate.roles := by
  obtain ⟨totals, htotals, hshows, hfigures⟩ := computeRollup_figures h
  have hpricedOf : ∀ role ∈ estimate.roles, role.dayRateMicros.isSome →
      pricedRoles (sortedRoles estimate) ≠ [] := by
    intro role hrole hrate
    have hmem := (sortedRoles_perm estimate).mem_iff.mpr hrole
    exact List.ne_nil_of_mem (List.mem_filter.mpr ⟨hmem, hrate⟩)
  have hunpriced : canPrice (sortedRoles estimate) = false → result.Explains "labour_fees" :=
    fun hprice => hfigures.explains_labour_iff.mpr (names_labour_of_not_canPrice hstored hprice)
  constructor
  · intro hexplained role hrole hrate
    by_contra hneither
    rw [not_or, ← labourUnclear_perm (sortedRoles_perm estimate)] at hneither
    have hrow : roleRow (sortedRoles estimate) (effectiveTiers estimate.priceTiers) totals role ∈
        result.roles := by
      rw [hshows.roles]
      exact List.mem_map_of_mem ((sortedRoles_perm estimate).mem_iff.mpr hrole)
    have hnone := (roleRow_feeMicros_eq_none_iff hstored.ids htotals hrole hrate).mpr
      fun _ => hneither.1
    rcases hexplained.roles _ hrow hnone with hrateless | hexplains
    · have : role.dayRateMicros = none := hrateless
      rw [this] at hrate
      cases hrate
    · exact hneither.2
        (hfigures.labourUnclear_of_explains (hpricedOf role hrole hrate) hexplains)
  · intro hroles
    refine ⟨fun row hrow hnone => ?_, fun row hrow hnone => ?_, hfigures.build_explained,
      hfigures.schedule_explained, hfigures.team_explained, fun row hrow hnone => ?_⟩
    · exact hunpriced ((hshows.tier_unknown row hrow).1 hnone)
    · cases hprice : canPrice (sortedRoles estimate) with
      | false => exact .inl (hunpriced hprice)
      | true =>
          have hcurrency := ((hshows.tier_unknown row hrow).2 hnone).resolve_left (by simp [hprice])
          exact .inr (hfigures.totals_explained hprice hcurrency)
    · rw [hshows.roles] at hrow
      obtain ⟨role, hrole, rfl⟩ := List.mem_map.mp hrow
      have hmem := (sortedRoles_perm estimate).mem_iff.mp hrole
      cases hrate : role.dayRateMicros with
      | none => exact .inl hrate
      | some rate =>
          have hsome : role.dayRateMicros.isSome = true := by rw [hrate]; rfl
          right
          cases hprice : canPrice (sortedRoles estimate) with
          | false => exact hunpriced hprice
          | true =>
              have hnoEffort := (roleRow_feeMicros_eq_none_iff hstored.ids htotals hmem hsome).mp
                hnone hprice
              have hunclear := (hroles role hmem hsome).resolve_left hnoEffort
              rw [← labourUnclear_perm (sortedRoles_perm estimate)] at hunclear
              exact hfigures.explains_of_labourUnclear (hpricedOf role hmem hsome) hunclear

theorem smallEstimate_rolesStored (days : Rat) (rate : Int) (multiplier contingencyPct : Rat) :
    (smallEstimate days rate multiplier contingencyPct).RolesStored := by
  refine ⟨List.nodup_singleton _, ?_, ?_⟩
  · intro role hrole
    cases List.mem_singleton.mp hrole
    rfl
  · intro role hrole currency hcurrency
    cases List.mem_singleton.mp hrole
    cases hcurrency
    rfl

theorem computeRollup_explained_tenDays :
    ∃ result, computeRollup (smallEstimate 10 800000000 1 10) defaultSettings 0 = .ok result ∧
      (Explained (smallEstimate 10 800000000 1 10) result ↔
        ∀ role ∈ (smallEstimate 10 800000000 1 10).roles, role.dayRateMicros.isSome →
          (∃ effort ∈ allEfforts (smallEstimate 10 800000000 1 10), effort.roleId = role.id) ∨
            LabourUnclear (smallEstimate 10 800000000 1 10).roles) := by
  have hreturns : (computeRollup (smallEstimate 10 800000000 1 10) defaultSettings 0).isOk =
      true := by decide +kernel
  cases h : computeRollup (smallEstimate 10 800000000 1 10) defaultSettings 0 with
  | error e =>
      rw [h] at hreturns
      cases hreturns
  | ok result =>
      exact ⟨result, rfl,
        computeRollup_explained_iff _ _ _ _ (smallEstimate_rolesStored _ _ _ _) h⟩

/-- The estimate before any phase is planned: its one role has a rate and nothing to do. -/
def idleEstimate : Estimate := { smallEstimate 10 800000000 1 10 with phases := [] }

/-- The fee of the idle role is none, and no entry says why. -/
theorem idle_role_unexplained :
    ¬ ∀ estimate settings generatedAt result, estimate.RolesStored →
      computeRollup estimate settings generatedAt = .ok result → Explained estimate result := by
  intro hall
  have hread : (computeRollup idleEstimate defaultSettings 0).map (fun result =>
      (result.roles.map fun row => (row.dayRateMicros, row.feeMicros),
        result.unavailable.map (·.figure))) =
      .ok ([(some 800000000, none)], ["schedule", "team_size"]) := by decide +kernel
  cases h : computeRollup idleEstimate defaultSettings 0 with
  | error e =>
      rw [h] at hread
      cases hread
  | ok result =>
      rw [h] at hread
      obtain ⟨hroles, hunavailable⟩ :
          (result.roles.map fun row => (row.dayRateMicros, row.feeMicros)) =
            [(some 800000000, none)] ∧
          result.unavailable.map (·.figure) = ["schedule", "team_size"] :=
        Prod.ext_iff.mp (Except.ok.inj hread)
      have hstored := smallEstimate_rolesStored 10 800000000 1 10
      have hexplained := hall idleEstimate defaultSettings 0 result
        ⟨hstored.ids, hstored.rates, hstored.currencies⟩ h
      have hmem : (some (800000000 : Int), (none : Option Int)) ∈
          result.roles.map fun row => (row.dayRateMicros, row.feeMicros) := by
        rw [hroles]
        exact List.mem_singleton_self _
      obtain ⟨row, hrow, hfigures⟩ := List.mem_map.mp hmem
      obtain ⟨hrate, hfee⟩ : row.dayRateMicros = some 800000000 ∧ row.feeMicros = none :=
        Prod.ext_iff.mp hfigures
      rcases hexplained.roles row hrow hfee with hnone | ⟨entry, hentry, hfigure⟩
      · rw [hrate] at hnone
        cases hnone
      · have hmem : entry.figure ∈ result.unavailable.map (·.figure) :=
          List.mem_map_of_mem hentry
        rw [hunavailable, hfigure] at hmem
        exact absurd hmem (by decide)

end Qontinui.Overview
