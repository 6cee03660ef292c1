import Qontinui.Base.FallibleLoops
import Qontinui.Overview.Rollup

/-!
The joint invariant of the loop over the efforts: whatever an effort adds to its phase it
adds to its role, days and fees alike, and what it adds depends on the effort alone.
-/

namespace Qontinui.Overview

open PyDecimal FallibleLoops

/-! ### Dictionaries -/

section Dictionaries

variable {κ β : Type} [DecidableEq κ] [BEq κ] [LawfulBEq κ]

theorem lookup_set (key other : κ) (value : β) (dict : List (κ × β)) :
    (Fields.set key value dict).lookup other =
      if other = key then some value else dict.lookup other := by
  obtain rfl : ‹BEq κ› = instBEqOfDecidableEq := lawful_beq_subsingleton _ _
  split
  · next h => rw [h, Fields.lookup_set_self]
  · next h => exact Fields.lookup_set_ne h value dict

theorem lookup_foldl_set {α : Type} (key : α → κ) (value : α → β) (items : List α)
    (dict : List (κ × β)) {k : κ} {v : β}
    (h : (items.foldl (fun dict item => Fields.set (key item) (value item) dict) dict).lookup k =
      some v) :
    (∃ item ∈ items, key item = k ∧ value item = v) ∨ dict.lookup k = some v := by
  induction items generalizing dict with
  | nil => exact .inr h
  | cons item rest ih =>
      rcases ih _ h with ⟨item', hmem, hitem⟩ | hdict
      · exact .inl ⟨item', List.mem_cons_of_mem _ hmem, hitem⟩
      · rw [lookup_set] at hdict
        split at hdict
        · next hk =>
            cases hdict
            exact .inl ⟨item, List.mem_cons_self, hk.symm, rfl⟩
        · exact .inr hdict

variable {value : β}

theorem lookup_fromKeys {keys : List κ} {v : β} {k : κ}
    (h : (fromKeys keys value).lookup k = some v) : k ∈ keys ∧ v = value := by
  rcases lookup_foldl_set id (fun _ => value) keys [] h with ⟨key, hkey, rfl, rfl⟩ | hnil
  · exact ⟨hkey, rfl⟩
  · cases hnil

theorem lookup_isSome_iff {k : κ} {dict : List (κ × β)} :
    (dict.lookup k).isSome ↔ k ∈ dict.map Prod.fst := by
  obtain rfl : ‹BEq κ› = instBEqOfDecidableEq := lawful_beq_subsingleton _ _
  rw [Fields.lookup_isSome_iff]

omit [BEq κ] [LawfulBEq κ] in
theorem mem_keys_set {key k : κ} {dict : List (κ × β)} :
    k ∈ (Fields.set key value dict).map Prod.fst ↔ k = key ∨ k ∈ dict.map Prod.fst := by
  simp only [← Fields.lookup_isSome_iff, lookup_set]
  by_cases h : k = key <;> simp [h]

omit [BEq κ] [LawfulBEq κ] in
theorem mem_keys_fromKeys {keys : List κ} {k : κ} :
    k ∈ (fromKeys keys value).map Prod.fst ↔ k ∈ keys := by
  have hfold : ∀ dict : List (κ × β),
      k ∈ (keys.foldl (fun dict key => Fields.set key value dict) dict).map Prod.fst ↔
        k ∈ keys ∨ k ∈ dict.map Prod.fst := by
    induction keys with
    | nil => simp
    | cons key keys ih =>
        intro dict
        rw [List.foldl_cons, ih, mem_keys_set, List.mem_cons]
        tauto
  simpa [fromKeys] using hfold []

end Dictionaries

def feeIn (key : Option Uuid) (fees : Fees) : Int := (fees.lookup key).getD 0

theorem feeIn_bump (key tier : Option Uuid) (fee : Int) (fees : Fees) :
    feeIn key (bump tier fee fees) = feeIn key fees + if tier = key then fee else 0 := by
  unfold feeIn bump
  rw [lookup_set]
  by_cases h : tier = key
  · subst h
    simp
  · simp [h, Ne.symm h]

theorem feeIn_fromKeys (key : Option Uuid) (keys : List (Option Uuid)) :
    feeIn key (fromKeys keys 0) = 0 := by
  unfold feeIn
  cases h : (fromKeys keys (0 : Int)).lookup key with
  | none => rfl
  | some fee => exact (lookup_fromKeys h).2

variable {ids : List Uuid} {s t : EffortTotals}

theorem sum_map_add_single {A : Type} [AddCommMonoid A] (hnodup : ids.Nodup) {id : Uuid}
    (hid : id ∈ ids) (f : Uuid → A) (a : A) :
    (ids.map fun i => if i = id then f i + a else f i).sum = (ids.map f).sum + a := by
  induction ids with
  | nil => cases hid
  | cons i ids ih =>
      rw [List.nodup_cons] at hnodup
      rw [List.map_cons, List.sum_cons, List.map_cons, List.sum_cons]
      by_cases h : i = id
      · subst h
        have hrest : (ids.map fun j => if j = i then f j + a else f j) = ids.map f := by
          apply List.map_congr_left
          intro j hj
          rw [if_neg]
          rintro rfl
          exact hnodup.1 hj
        rw [if_pos rfl, hrest, add_right_comm]
      · have hid' : id ∈ ids := (List.mem_cons.mp hid).resolve_left (Ne.symm h)
        rw [if_neg h, ih hnodup.2 hid', add_assoc]

theorem sum_map_at_key {tiers : List EffectiveTier} (hnodup : (tiers.map (·.key)).Nodup)
    {tier : EffectiveTier} (htier : tier ∈ tiers) (fee : EffectiveTier → Int) :
    (tiers.map fun t => if t.key = tier.key then fee t else 0).sum = fee tier := by
  induction tiers with
  | nil => cases htier
  | cons t tiers ih =>
      rw [List.map_cons, List.nodup_cons] at hnodup
      rw [List.map_cons, List.sum_cons]
      rcases List.mem_cons.mp htier with rfl | htier
      · have hrest : (tiers.map fun t => if t.key = tier.key then fee t else 0) =
            tiers.map fun _ => 0 := by
          apply List.map_congr_left
          intro t ht
          rw [if_neg]
          intro hkey
          exact hnodup.1 (List.mem_map.mpr ⟨t, ht, hkey⟩)
        rw [if_pos rfl, hrest]
        simp
      · rw [if_neg, ih hnodup.2 htier, zero_add]
        intro hkey
        exact hnodup.1 (List.mem_map.mpr ⟨tier, htier, hkey.symm⟩)

/-! ### What an effort is worth -/

def roleOf (roles : List EstimateRole) (effort : TaskEffort) : Option EstimateRole :=
  (rolesById roles).lookup effort.roleId

theorem roleOf_spec {roles : List EstimateRole} {effort : TaskEffort} {role : EstimateRole}
    (h : roleOf roles effort = some role) : role ∈ roles ∧ role.id = effort.roleId := by
  rcases lookup_foldl_set (fun role : EstimateRole => role.id) id roles [] h with
    ⟨item, hmem, hid, rfl⟩ | hnil
  · exact ⟨hmem, hid⟩
  · cases hnil

def rateOf (roles : List EstimateRole) (effort : TaskEffort) : Option Int :=
  if canPrice roles then (roleOf roles effort).bind (·.dayRateMicros) else none

def countedDays (roles : List EstimateRole) (effort : TaskEffort) : Rat :=
  if (roleOf roles effort).isSome then effort.plannedPersonDays else 0

def exactFee (effort : TaskEffort) (rate : Int) (tier : EffectiveTier) : Rat :=
  mul (mul effort.plannedPersonDays rate) tier.multiplier

/-- The fee of an effort at a tier, which is nothing for an effort without a price. -/
def feeOf (roles : List EstimateRole) (tier : EffectiveTier) (effort : TaskEffort) : Int :=
  match rateOf roles effort with
  | some rate => roundHalfUp (exactFee effort rate tier)
  | none => 0

def FeesFit (roles : List EstimateRole) (tiers : List EffectiveTier) (effort : TaskEffort) :
    Prop :=
  ∀ rate, rateOf roles effort = some rate →
    ∀ tier ∈ tiers, Fits (roundHalfUp (exactFee effort rate tier))

/-! ### The loop over the efforts of a phase -/

namespace EffortTotals

def ofRole (totals : EffortTotals) (id : Uuid) : RoleTotals :=
  (totals.roleTotals.lookup id).getD {}

@[simp] theorem phase_updateRole (totals : EffortTotals) (id : Uuid)
    (update : RoleTotals → RoleTotals) : (totals.updateRole id update).phase = totals.phase := rfl

theorem ofRole_updateRole (totals : EffortTotals) (id other : Uuid)
    (update : RoleTotals → RoleTotals) :
    (totals.updateRole id update).ofRole other =
      if other = id then update (totals.ofRole other) else totals.ofRole other := by
  unfold ofRole updateRole
  rw [lookup_set]
  split
  · next h =>
      subst h
      rfl
  · rfl

def roleDays (ids : List Uuid) (totals : EffortTotals) : Rat :=
  (ids.map fun id => (totals.ofRole id).personDays).sum

def roleFees (ids : List Uuid) (key : Option Uuid) (totals : EffortTotals) : Int :=
  (ids.map fun id => feeIn key (totals.ofRole id).fees).sum

/-- The days of the phase and those of the roles have grown by the same. -/
structure DaysGrow (ids : List Uuid) (s : EffortTotals) (days : Rat) (t : EffortTotals) :
    Prop where
  phase : t.phase.personDays = s.phase.personDays + days
  roles : t.roleDays ids = s.roleDays ids + days

/-- The fees of the phase at a tier and those of the roles have grown by the same. -/
structure FeesGrow (ids : List Uuid) (key : Option Uuid) (s : EffortTotals) (fee : Int)
    (t : EffortTotals) : Prop where
  phase : feeIn key t.phase.fees = feeIn key s.phase.fees + fee
  roles : t.roleFees ids key = s.roleFees ids key + fee

theorem daysGrow_additive (ids : List Uuid) : Additive (DaysGrow ids) where
  zero s := ⟨(add_zero _).symm, (add_zero _).symm⟩
  add hs ht := ⟨by rw [ht.phase, hs.phase, add_assoc], by rw [ht.roles, hs.roles, add_assoc]⟩

theorem feesGrow_additive (ids : List Uuid) (key : Option Uuid) :
    Additive (FeesGrow ids key) where
  zero s := ⟨(add_zero _).symm, (add_zero _).symm⟩
  add hs ht := ⟨by rw [ht.phase, hs.phase, add_assoc], by rw [ht.roles, hs.roles, add_assoc]⟩

/-- The fees of the phase are kept for the tiers, and for them all. -/
def KeysAre (keys : List (Option Uuid)) (totals : EffortTotals) : Prop :=
  ∀ key, key ∈ totals.phase.fees.map Prod.fst ↔ key ∈ keys

def UnpricedFree (roles : List EstimateRole) (totals : EffortTotals) : Prop :=
  ∀ role ∈ roles, role.dayRateMicros = none → ∀ key, feeIn key (totals.ofRole role.id).fees = 0

end EffortTotals

open EffortTotals

section Steps

variable {ids : List Uuid} (hids : ids.Nodup) {role : Uuid} (hrole : role ∈ ids)
include hids hrole

theorem roleDays_updateRole (totals : EffortTotals) (days : Rat) :
    (totals.updateRole role fun sums =>
      { sums with personDays := sums.personDays + days }).roleDays ids =
      totals.roleDays ids + days := by
  rw [roleDays, roleDays, ← sum_map_add_single hids hrole]
  congr 1
  apply List.map_congr_left
  intro id _
  rw [ofRole_updateRole]
  split <;> rfl

theorem roleFees_updateRole (totals : EffortTotals) (key tier : Option Uuid) (fee : Int) :
    (totals.updateRole role fun sums =>
      { sums with fees := bump tier fee sums.fees }).roleFees ids key =
      totals.roleFees ids key + if tier = key then fee else 0 := by
  rw [roleFees, roleFees, ← sum_map_add_single hids hrole]
  congr 1
  apply List.map_congr_left
  intro id _
  rw [ofRole_updateRole]
  split
  · exact feeIn_bump _ _ _ _
  · rfl

theorem addDays_daysGrow (totals : EffortTotals) (days : Rat) :
    DaysGrow ids totals days (addDays role days totals) where
  phase := rfl
  roles := roleDays_updateRole hids hrole _ days

end Steps

theorem roleFees_of_fees_eq {key : Option Uuid} (h : ∀ id, (t.ofRole id).fees = (s.ofRole id).fees) :
    t.roleFees ids key = s.roleFees ids key := by
  simp only [roleFees, h]

theorem roleDays_of_days_eq (h : ∀ id, (t.ofRole id).personDays = (s.ofRole id).personDays) :
    t.roleDays ids = s.roleDays ids := by
  simp only [roleDays, h]

theorem addDays_feesGrow (ids : List Uuid) (key : Option Uuid) (role : Uuid) (days : Rat)
    (totals : EffortTotals) : FeesGrow ids key totals 0 (addDays role days totals) where
  phase := (add_zero _).symm
  roles := by
    rw [add_zero]
    apply roleFees_of_fees_eq
    intro id
    unfold addDays
    rw [ofRole_updateRole]
    split <;> rfl

theorem tierStep_eq_ok_iff {role : Uuid} {days : Rat} {rate : Int} {tier : EffectiveTier} :
    tierStep role days rate s tier = .ok t ↔
      Fits (roundHalfUp (mul (mul days rate) tier.multiplier)) ∧
      t = ({ s with
        phase := { s.phase with
          fees := bump tier.key (roundHalfUp (mul (mul days rate) tier.multiplier)) s.phase.fees } }
        : EffortTotals).updateRole role fun sums =>
          { sums with
            fees := bump tier.key (roundHalfUp (mul (mul days rate) tier.multiplier)) sums.fees } := by
  unfold tierStep feeMicros
  rw [bind_eq_ok_iff]
  constructor
  · rintro ⟨fee, hfee, ht⟩
    obtain ⟨hfits, rfl⟩ := quantize_eq_ok_iff.mp hfee
    cases ht
    exact ⟨hfits, rfl⟩
  · rintro ⟨hfits, rfl⟩
    exact ⟨_, quantize_of_fits hfits, rfl⟩

section Tiers

variable {role : Uuid} {days : Rat} {rate : Int} {s t : EffortTotals} {tier : EffectiveTier}

theorem tierStep_daysGrow (ids : List Uuid) (h : tierStep role days rate s tier = .ok t) :
    DaysGrow ids s 0 t := by
  obtain ⟨-, rfl⟩ := tierStep_eq_ok_iff.mp h
  constructor
  · exact (add_zero _).symm
  · rw [add_zero]
    apply roleDays_of_days_eq
    intro id
    rw [ofRole_updateRole]
    split <;> rfl

theorem tierStep_feesGrow {ids : List Uuid} (hids : ids.Nodup) (hrole : role ∈ ids)
    (key : Option Uuid) (h : tierStep role days rate s tier = .ok t) :
    FeesGrow ids key s
      (if tier.key = key then roundHalfUp (mul (mul days rate) tier.multiplier) else 0) t := by
  obtain ⟨-, rfl⟩ := tierStep_eq_ok_iff.mp h
  exact ⟨feeIn_bump _ _ _ _, roleFees_updateRole hids hrole _ _ _ _⟩

theorem tierStep_keysAre {keys : List (Option Uuid)} (htier : tier.key ∈ keys) (hs : KeysAre keys s)
    (h : tierStep role days rate s tier = .ok t) : KeysAre keys t := by
  obtain ⟨-, rfl⟩ := tierStep_eq_ok_iff.mp h
  intro key
  rw [phase_updateRole, bump, mem_keys_set, hs key]
  constructor
  · rintro (rfl | hkey)
    · exact htier
    · exact hkey
  · exact .inr

theorem tierStep_unpricedFree {roles : List EstimateRole}
    (hrole : ∀ other ∈ roles, other.dayRateMicros = none → other.id ≠ role)
    (hs : UnpricedFree roles s) (h : tierStep role days rate s tier = .ok t) :
    UnpricedFree roles t := by
  obtain ⟨-, rfl⟩ := tierStep_eq_ok_iff.mp h
  intro other hother hnone key
  rw [ofRole_updateRole, if_neg (hrole other hother hnone)]
  exact hs other hother hnone key

end Tiers

section Efforts

variable {roles : List EstimateRole} {tiers : List EffectiveTier} {s t : EffortTotals}
  {effort : TaskEffort}

inductive EffortStep (roles : List EstimateRole) (tiers : List EffectiveTier)
    (s : EffortTotals) (effort : TaskEffort) : Except DecimalException EffortTotals → Prop where
  | orphan (h : roleOf roles effort = none) :
      EffortStep roles tiers s effort (.ok { s with
        orphanEffortRoleIds := s.orphanEffortRoleIds.insert effort.roleId })
  | unpriced (role : EstimateRole) (h : roleOf roles effort = some role)
      (hrate : rateOf roles effort = none) :
      EffortStep roles tiers s effort (.ok (addDays role.id effort.plannedPersonDays s))
  | priced (role : EstimateRole) (rate : Int) (h : roleOf roles effort = some role)
      (hrate : rateOf roles effort = some rate) :
      EffortStep roles tiers s effort
        (tiers.foldlM (tierStep role.id effort.plannedPersonDays rate)
          (addDays role.id effort.plannedPersonDays s))

theorem effortStep_spec (roles : List EstimateRole) (tiers : List EffectiveTier)
    (s : EffortTotals) (effort : TaskEffort) :
    EffortStep roles tiers s effort (effortStep roles tiers s effort) := by
  unfold effortStep
  split
  · next h => exact .orphan h
  · next role h =>
      split
      · next rate hprice hrate =>
          apply EffortStep.priced role rate h
          simp [rateOf, roleOf, h, hprice, hrate]
      · next hnone =>
          apply EffortStep.unpriced role h
          unfold rateOf
          split
          · next hprice =>
              rw [roleOf, h, Option.bind_some, Option.eq_none_iff_forall_ne_some]
              exact fun rate hrate => hnone rate hprice hrate
          · rfl

theorem effortStep_returns_iff (s : EffortTotals) :
    (∃ t, effortStep roles tiers s effort = .ok t) ↔ FeesFit roles tiers effort := by
  have hspec := effortStep_spec roles tiers s effort
  generalize effortStep roles tiers s effort = result at hspec ⊢
  have hnone : rateOf roles effort = none → FeesFit roles tiers effort := by
    intro hrate rate hsome
    rw [hrate] at hsome
    cases hsome
  cases hspec with
  | orphan h =>
      refine iff_of_true ⟨_, rfl⟩ (hnone ?_)
      simp [rateOf, h]
  | unpriced role h hrate => exact iff_of_true ⟨_, rfl⟩ (hnone hrate)
  | priced role rate h hrate =>
      rw [foldlM_returns_iff (P := fun tier => Fits (roundHalfUp (exactFee effort rate tier)))]
      · unfold FeesFit
        simp [hrate]
      · intro s tier _
        constructor
        · rintro ⟨t, ht⟩
          exact (tierStep_eq_ok_iff.mp ht).1
        · exact fun hfits => ⟨_, tierStep_eq_ok_iff.mpr ⟨hfits, rfl⟩⟩

theorem role_mem_ids {role : EstimateRole} (h : roleOf roles effort = some role) :
    role.id ∈ roles.map (·.id) := List.mem_map_of_mem (roleOf_spec h).1

theorem effortStep_daysGrow (hids : (roles.map (·.id)).Nodup)
    (h : effortStep roles tiers s effort = .ok t) :
    DaysGrow (roles.map (·.id)) s (countedDays roles effort) t := by
  have hspec := effortStep_spec roles tiers s effort
  rw [h] at hspec
  generalize hresult : Except.ok t = result at hspec
  cases hspec with
  | orphan hnone =>
      cases hresult
      rw [countedDays, hnone]
      exact ⟨(add_zero _).symm, (add_zero _).symm⟩
  | unpriced role hrole _ =>
      cases hresult
      rw [countedDays, hrole]
      exact addDays_daysGrow hids (role_mem_ids hrole) s _
  | priced role rate hrole _ =>
      rw [countedDays, hrole]
      have hdays := addDays_daysGrow hids (role_mem_ids hrole) s effort.plannedPersonDays
      have htiers := foldlM_adds (daysGrow_additive (roles.map (·.id)))
        (fun s tier _ t => tierStep_daysGrow (roles.map (·.id))) hresult.symm
      simpa using (daysGrow_additive _).add hdays htiers

theorem effortStep_feesGrow (hids : (roles.map (·.id)).Nodup)
    (hkeys : (tiers.map (·.key)).Nodup) {tier : EffectiveTier} (htier : tier ∈ tiers)
    (h : effortStep roles tiers s effort = .ok t) :
    FeesGrow (roles.map (·.id)) tier.key s (feeOf roles tier effort) t := by
  have hspec := effortStep_spec roles tiers s effort
  rw [h] at hspec
  generalize hresult : Except.ok t = result at hspec
  cases hspec with
  | orphan hnone =>
      cases hresult
      rw [feeOf, show rateOf roles effort = none by simp [rateOf, hnone]]
      exact ⟨(add_zero _).symm, (add_zero _).symm⟩
  | unpriced role _ hrate =>
      cases hresult
      rw [feeOf, hrate]
      exact addDays_feesGrow _ _ _ _ _
  | priced role rate hrole hrate =>
      have hfee : feeOf roles tier effort = roundHalfUp (exactFee effort rate tier) := by
        rw [feeOf, hrate]
      rw [hfee, ← sum_map_at_key hkeys htier fun tier => roundHalfUp (exactFee effort rate tier)]
      have hdays := addDays_feesGrow (roles.map (·.id)) tier.key role.id
        effort.plannedPersonDays s
      have htiers := foldlM_adds (feesGrow_additive (roles.map (·.id)) tier.key)
        (fun s _ _ t => tierStep_feesGrow hids (role_mem_ids hrole) tier.key) hresult.symm
      simpa [exactFee] using (feesGrow_additive _ _).add hdays htiers

theorem effortStep_keysAre (hs : KeysAre (tiers.map (·.key)) s)
    (h : effortStep roles tiers s effort = .ok t) : KeysAre (tiers.map (·.key)) t := by
  have hspec := effortStep_spec roles tiers s effort
  rw [h] at hspec
  generalize hresult : Except.ok t = result at hspec
  cases hspec with
  | orphan _ | unpriced _ _ _ =>
      cases hresult
      exact hs
  | priced role rate _ _ =>
      refine foldlM_preserves (fun s tier htier t => ?_) (P := KeysAre (tiers.map (·.key))) ?_
        hresult.symm
      · exact tierStep_keysAre (List.mem_map_of_mem htier)
      · exact hs

theorem addDays_unpricedFree (role : Uuid) (days : Rat) (hs : UnpricedFree roles s) :
    UnpricedFree roles (addDays role days s) := by
  intro other hother hnone key
  unfold addDays
  rw [ofRole_updateRole]
  split
  all_goals exact hs other hother hnone key

theorem effortStep_unpricedFree (hids : (roles.map (·.id)).Nodup) (hs : UnpricedFree roles s)
    (h : effortStep roles tiers s effort = .ok t) : UnpricedFree roles t := by
  have hspec := effortStep_spec roles tiers s effort
  rw [h] at hspec
  generalize hresult : Except.ok t = result at hspec
  cases hspec with
  | orphan _ =>
      cases hresult
      exact hs
  | unpriced role _ _ =>
      cases hresult
      exact addDays_unpricedFree _ _ hs
  | priced role rate hrole hrate =>
      refine foldlM_preserves (fun s tier _ t => ?_) (P := UnpricedFree roles)
        (addDays_unpricedFree _ _ hs) hresult.symm
      apply tierStep_unpricedFree
      intro other hother hnone hid
      -- ids are distinct, so the other role is the one with the rate
      cases List.inj_on_of_nodup_map hids hother (roleOf_spec hrole).1 hid
      unfold rateOf at hrate
      rw [hrole, Option.bind_some, hnone] at hrate
      split at hrate <;> cases hrate

end Efforts

/-! ### The loop over the tasks of a phase -/

def effortsOf (phase : Phase) : List TaskEffort := (sortedTasks phase).flatMap (·.efforts)

section Tasks

variable {roles : List EstimateRole} {tiers : List EffectiveTier} {phase : Phase}
  {s t : EffortTotals}

theorem foldlM_taskStep (s : EffortTotals) (tasks : List PhaseTask) :
    tasks.foldlM (taskStep roles tiers) s =
      (tasks.flatMap (·.efforts)).foldlM (effortStep roles tiers) s := by
  induction tasks generalizing s with
  | nil => rfl
  | cons task tasks ih =>
      rw [List.flatMap_cons, List.foldlM_append, List.foldlM_cons]
      congr 1
      funext t
      exact ih t

def phaseStart (tiers : List EffectiveTier) (totals : Totals) : EffortTotals :=
  { phase := { personDays := 0, fees := fromKeys (tiers.map (·.key)) 0, roleDays := [] }
    roleTotals := totals.roleTotals
    orphanEffortRoleIds := totals.orphanEffortRoleIds }

def phaseEnd (tiers : List EffectiveTier) (totals : Totals) (phase : Phase)
    (after : EffortTotals) : Totals :=
  { roleTotals := after.roleTotals
    estimateFees := (tiers.map (·.key)).foldl
      (fun fees key => bump key ((after.phase.fees.lookup key).getD 0) fees) totals.estimateFees
    totalPersonDays := totals.totalPersonDays + after.phase.personDays
    orphanEffortRoleIds := after.orphanEffortRoleIds
    phases := totals.phases ++ [(phase, after.phase)] }

variable {totals totals' : Totals}

theorem phaseStep_eq_ok_iff :
    phaseStep roles tiers totals phase = .ok totals' ↔
      ∃ after, (effortsOf phase).foldlM (effortStep roles tiers) (phaseStart tiers totals) =
        .ok after ∧ totals' = phaseEnd tiers totals phase after := by
  unfold phaseStep effortsOf
  rw [bind_eq_ok_iff, ← foldlM_taskStep]
  constructor
  · rintro ⟨after, hafter, h⟩
    cases h
    exact ⟨after, hafter, rfl⟩
  · rintro ⟨after, hafter, rfl⟩
    exact ⟨after, hafter, rfl⟩

theorem feeIn_foldl_bump (fee : Option Uuid → Int) (keys : List (Option Uuid))
    (hkeys : keys.Nodup) (key : Option Uuid) (fees : Fees) :
    feeIn key (keys.foldl (fun fees key => bump key (fee key) fees) fees) =
      feeIn key fees + if key ∈ keys then fee key else 0 := by
  induction keys generalizing fees with
  | nil => simp
  | cons k keys ih =>
      rw [List.nodup_cons] at hkeys
      rw [List.foldl_cons, ih hkeys.2, feeIn_bump, add_assoc]
      by_cases hk : k = key
      · subst hk
        simp [hkeys.1]
      · simp [hk, Ne.symm hk]

theorem feeIn_phaseEnd (hkeys : (tiers.map (·.key)).Nodup) {tier : EffectiveTier}
    (htier : tier ∈ tiers) (totals : Totals) (after : EffortTotals) :
    feeIn tier.key (phaseEnd tiers totals phase after).estimateFees =
      feeIn tier.key totals.estimateFees + feeIn tier.key after.phase.fees := by
  unfold phaseEnd
  rw [feeIn_foldl_bump _ _ hkeys, if_pos (List.mem_map_of_mem htier)]
  rfl

/-- The totals by phase and by role are those of the estimate. -/
structure Balanced (roles : List EstimateRole) (tiers : List EffectiveTier) (totals : Totals) :
    Prop where
  daysByPhase : totals.totalPersonDays = (totals.phases.map (·.2.personDays)).sum
  daysByRole : totals.totalPersonDays =
    (roles.map fun role => (totals.ofRole role).personDays).sum
  feesByPhase : ∀ tier ∈ tiers, feeIn tier.key totals.estimateFees =
    (totals.phases.map fun phase => feeIn tier.key phase.2.fees).sum
  feesByRole : ∀ tier ∈ tiers, feeIn tier.key totals.estimateFees =
    (roles.map fun role => feeIn tier.key (totals.ofRole role).fees).sum
  keys : ∀ phase ∈ totals.phases, ∀ key,
    key ∈ phase.2.fees.map Prod.fst ↔ key ∈ tiers.map (·.key)
  unpriced : ∀ role ∈ roles, role.dayRateMicros = none →
    ∀ key, feeIn key (totals.ofRole role).fees = 0

theorem phaseStep_balanced (hids : (roles.map (·.id)).Nodup) (hkeys : (tiers.map (·.key)).Nodup)
    (hbalanced : Balanced roles tiers totals) (h : phaseStep roles tiers totals phase = .ok totals') :
    Balanced roles tiers totals' := by
  obtain ⟨after, hafter, rfl⟩ := phaseStep_eq_ok_iff.mp h
  have hdays := foldlM_adds (daysGrow_additive (roles.map (·.id)))
    (fun s effort _ t => effortStep_daysGrow hids) hafter
  have hroleDays := hdays.roles
  simp only [roleDays, List.map_map] at hroleDays
  constructor
  · simp [phaseEnd, hbalanced.daysByPhase]
  · have hstart : totals.totalPersonDays = _ := hbalanced.daysByRole
    have hphase : after.phase.personDays = 0 + _ := hdays.phase
    rw [zero_add] at hphase
    change totals.totalPersonDays + after.phase.personDays = _
    rw [hstart, hphase]
    exact hroleDays.symm
  · intro tier htier
    rw [feeIn_phaseEnd hkeys htier, hbalanced.feesByPhase tier htier]
    simp [phaseEnd]
  · intro tier htier
    have hfees := foldlM_adds (feesGrow_additive (roles.map (·.id)) tier.key)
      (fun s effort _ t => effortStep_feesGrow hids hkeys htier) hafter
    have hroleFees := hfees.roles
    simp only [roleFees, List.map_map] at hroleFees
    have hphase : feeIn tier.key after.phase.fees = _ := hfees.phase
    rw [phaseStart, feeIn_fromKeys, zero_add] at hphase
    rw [feeIn_phaseEnd hkeys htier, hbalanced.feesByRole tier htier, hphase]
    exact hroleFees.symm
  · intro p hp
    rcases List.mem_append.mp hp with hp | hp
    · exact hbalanced.keys p hp
    · cases List.mem_singleton.mp hp
      exact foldlM_preserves (P := KeysAre (tiers.map (·.key)))
        (fun s effort _ t => effortStep_keysAre) (fun _ => mem_keys_fromKeys) hafter
  · have hstart : UnpricedFree roles (phaseStart tiers totals) := hbalanced.unpriced
    exact foldlM_preserves (P := UnpricedFree roles)
      (fun s effort _ t => effortStep_unpricedFree hids) hstart hafter

theorem phaseStep_returns_iff (totals : Totals) :
    (∃ totals', phaseStep roles tiers totals phase = .ok totals') ↔
      ∀ effort ∈ effortsOf phase, FeesFit roles tiers effort := by
  rw [← foldlM_returns_iff (P := FeesFit roles tiers)
    (fun s effort _ => effortStep_returns_iff s) (phaseStart tiers totals)]
  constructor
  · rintro ⟨totals', h⟩
    obtain ⟨after, hafter, -⟩ := phaseStep_eq_ok_iff.mp h
    exact ⟨after, hafter⟩
  · rintro ⟨after, hafter⟩
    exact ⟨_, phaseStep_eq_ok_iff.mpr ⟨after, hafter, rfl⟩⟩

def LabourGrows (key : Option Uuid) (s : Totals) (fee : Int) (t : Totals) : Prop :=
  feeIn key t.estimateFees = feeIn key s.estimateFees + fee

theorem labourGrows_additive (key : Option Uuid) : Additive (LabourGrows key) where
  zero s := (add_zero _).symm
  add hs ht := by rw [LabourGrows, ht, hs, add_assoc]

theorem phaseStep_labourGrows (hids : (roles.map (·.id)).Nodup) (hkeys : (tiers.map (·.key)).Nodup)
    {tier : EffectiveTier} (htier : tier ∈ tiers)
    (h : phaseStep roles tiers totals phase = .ok totals') :
    LabourGrows tier.key totals ((effortsOf phase).map (feeOf roles tier)).sum totals' := by
  obtain ⟨after, hafter, rfl⟩ := phaseStep_eq_ok_iff.mp h
  have hfees := foldlM_adds (feesGrow_additive (roles.map (·.id)) tier.key)
    (fun s effort _ t => effortStep_feesGrow hids hkeys htier) hafter
  have hphase : feeIn tier.key after.phase.fees = _ := hfees.phase
  rw [phaseStart, feeIn_fromKeys, zero_add] at hphase
  rw [LabourGrows, feeIn_phaseEnd hkeys htier, hphase]

end Tasks

end Qontinui.Overview
