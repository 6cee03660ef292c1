import Mathlib.Algebra.Order.Field.Power
import Mathlib.Data.Rat.Floor
import Mathlib.Data.Nat.Log

/-!
Python's `decimal`: numbers are exact rationals, products and quotients are rounded to
the 28 significant digits of the default context, and `quantize` rounds to a number of
places and refuses a result of more than 28 digits.
-/

namespace Qontinui.PyDecimal

inductive DecimalException where
  | invalidOperation
deriving DecidableEq, Repr

def precision : Nat := 28

/-- `ROUND_HALF_UP`: to the nearest integer, a half away from zero. -/
def roundHalfUp (x : Rat) : Int :=
  if x < 0 then -(-x + 1 / 2).floor else (x + 1 / 2).floor

/-- `ROUND_HALF_EVEN`: to the nearest integer, a half to the even one. -/
def roundHalfEven (x : Rat) : Int :=
  let lower := x.floor
  if x - lower < 1 / 2 then lower
  else if 1 / 2 < x - lower then lower + 1
  else if lower % 2 = 0 then lower
  else lower + 1

/-- The power of ten that the first significant digit stands for. -/
def adjusted (x : Rat) : Int :=
  let size := if x < 0 then -x else x
  if 1 ≤ size then Nat.log 10 size.floor.toNat
  else -Nat.clog 10 (1 / size).ceil.toNat

def inContext (x : Rat) : Rat :=
  if x = 0 then 0
  else
    let unit : Rat := (10 : Rat) ^ (adjusted x + 1 - precision)
    roundHalfEven (x / unit) * unit

def mul (x y : Rat) : Rat := inContext (x * y)

def div (x y : Rat) : Rat := inContext (x / y)

def roundTo (places : Nat) (x : Rat) : Rat := roundHalfUp (x * 10 ^ places) / 10 ^ places

/-- A whole number has no more digits than the context. -/
def Fits (n : Int) : Prop := n.natAbs < 10 ^ precision

instance (n : Int) : Decidable (Fits n) := inferInstanceAs (Decidable (_ < _))

/-- `value.quantize(Decimal("1"), rounding=ROUND_HALF_UP)`. -/
def quantize (x : Rat) : Except DecimalException Int :=
  if Fits (roundHalfUp x) then .ok (roundHalfUp x) else .error .invalidOperation

variable {x : Rat}

theorem quantize_eq_ok_iff {n : Int} :
    quantize x = .ok n ↔ Fits (roundHalfUp x) ∧ n = roundHalfUp x := by
  unfold quantize
  split
  · next hfits => simp [hfits, eq_comm]
  · next hfits => simp [hfits]

theorem quantize_of_fits (h : Fits (roundHalfUp x)) : quantize x = .ok (roundHalfUp x) := if_pos h

/-- `value.quantize(...)` to a number of places, rounded half up. -/
def quantizeTo (places : Nat) (x : Rat) : Except DecimalException Rat :=
  if Fits (roundHalfUp (x * 10 ^ places)) then .ok (roundTo places x) else .error .invalidOperation

/-- The number has no more significant digits than the context. -/
def Exact (x : Rat) : Prop := ∃ (n k : Int), x = n * 10 ^ k ∧ Fits n

theorem fits_roundHalfUp (hx : 0 ≤ x) (hlt : x < 10 ^ precision - 1) : Fits (roundHalfUp x) := by
  have hround : roundHalfUp x = (x + 1 / 2).floor := if_neg (not_lt.mpr hx)
  have hnonneg : 0 ≤ (x + 1 / 2).floor := Rat.le_floor_iff.mpr (by push_cast; linarith)
  have hbound : (x + 1 / 2).floor < 10 ^ precision := by
    have hfloor : ((x + 1 / 2).floor : Rat) ≤ x + 1 / 2 := Rat.floor_le _
    have hcast : ((x + 1 / 2).floor : Rat) < 10 ^ precision := by linarith
    exact_mod_cast hcast
  rw [hround]
  unfold Fits
  have hnat : (((x + 1 / 2).floor.natAbs : Nat) : Int) < ((10 ^ precision : Nat) : Int) := by
    rw [Int.natAbs_of_nonneg hnonneg]
    exact_mod_cast hbound
  exact_mod_cast hnat

theorem roundHalfEven_intCast (n : Int) : roundHalfEven n = n := by
  simp [roundHalfEven]

theorem adjusted_eq (x : Rat) :
    adjusted x =
      if 1 ≤ |x| then (Nat.log 10 |x|.floor.toNat : Int)
      else -Nat.clog 10 (1 / |x|).ceil.toNat := by
  have hsize : (if x < 0 then -x else x) = |x| := by
    split
    · next h => exact (abs_of_neg h).symm
    · next h => exact (abs_of_nonneg (not_lt.mp h)).symm
  rw [adjusted, hsize]

theorem zpow_adjusted_le (hx : x ≠ 0) : (10 : Rat) ^ adjusted x ≤ |x| := by
  have hpos : 0 < |x| := abs_pos.mpr hx
  rw [adjusted_eq]
  by_cases hone : 1 ≤ |x|
  · have hfloor : 1 ≤ |x|.floor := Rat.le_floor_iff.mpr (by simpa using hone)
    have hlog : 10 ^ Nat.log 10 |x|.floor.toNat ≤ |x|.floor.toNat :=
      Nat.pow_log_le_self 10 (by omega)
    have hcast : (|x|.floor.toNat : Rat) ≤ |x| := by
      have hnat : ((|x|.floor.toNat : Int) : Rat) = (|x|.floor : Rat) := by
        rw [Int.toNat_of_nonneg (by omega)]
      rw [← Int.cast_natCast, hnat]
      exact Rat.floor_le |x|
    rw [if_pos hone, zpow_natCast]
    exact le_trans (by exact_mod_cast hlog) hcast
  · have hceil : 1 / |x| ≤ ((1 / |x|).ceil.toNat : Rat) := by
      have hle : 1 / |x| ≤ ((1 / |x|).ceil : Rat) := Rat.le_ceil
      have hnonneg : (0 : Rat) ≤ ((1 / |x|).ceil : Rat) := (div_pos one_pos hpos).le.trans hle
      rw [← Int.cast_natCast, Int.toNat_of_nonneg (by exact_mod_cast hnonneg)]
      exact hle
    have hclog : ((1 / |x|).ceil.toNat : Rat) ≤ (10 : Rat) ^ Nat.clog 10 (1 / |x|).ceil.toNat := by
      exact_mod_cast Nat.le_pow_clog (by norm_num) _
    rw [if_neg hone, zpow_neg, zpow_natCast]
    exact inv_le_of_inv_le₀ hpos (by rw [← one_div]; exact hceil.trans hclog)

/-- A number of no more significant digits than the context is not rounded. -/
theorem inContext_exact (h : Exact x) : inContext x = x := by
  obtain ⟨n, k, hx, hfits⟩ := h
  unfold inContext
  by_cases hzero : x = 0
  · rw [if_pos hzero, hzero]
  · rw [if_neg hzero]
    have hle : adjusted x + 1 - precision ≤ k := by
      by_contra hlt
      have hsize := zpow_adjusted_le hzero
      have hten : (10 : Rat) ^ (precision : Int) * 10 ^ k ≤ 10 ^ adjusted x := by
        rw [← zpow_add₀ (by norm_num)]
        exact zpow_le_zpow_right₀ (by norm_num) (by omega)
      have hdigits : |x| < (10 : Rat) ^ (precision : Int) * 10 ^ k := by
        have hn : |(n : Rat)| < (10 : Rat) ^ (precision : Int) := by
          rw [← Int.cast_abs, Int.abs_eq_natAbs, zpow_natCast]
          exact_mod_cast hfits
        rw [hx, abs_mul, abs_of_pos (zpow_pos (by norm_num : (0 : Rat) < 10) k)]
        exact mul_lt_mul_of_pos_right hn (zpow_pos (by norm_num) k)
      exact absurd (hten.trans hsize) (not_le.mpr hdigits)
    obtain ⟨shift, hshift⟩ := Int.le.dest hle
    have hpower : (10 : Rat) ^ k = 10 ^ shift * 10 ^ (adjusted x + 1 - precision) := by
      rw [← hshift, zpow_add₀ (by norm_num), zpow_natCast, mul_comm]
    have hunit : (10 : Rat) ^ (adjusted x + 1 - precision) ≠ 0 := zpow_ne_zero _ (by norm_num)
    have hquotient : x / (10 : Rat) ^ (adjusted x + 1 - precision) =
        ((n * 10 ^ shift : Int) : Rat) := by
      rw [div_eq_iff hunit]
      push_cast
      rw [mul_assoc, ← hpower]
      exact hx
    dsimp only
    rw [hquotient, roundHalfEven_intCast, ← hquotient, div_mul_cancel₀ x hunit]

/-! ### Larger numbers -/

theorem lt_zpow_adjusted (hx : x ≠ 0) : |x| < (10 : Rat) ^ (adjusted x + 1) := by
  have hpos : 0 < |x| := abs_pos.mpr hx
  rw [adjusted_eq]
  by_cases hone : 1 ≤ |x|
  · have hfloor : 1 ≤ |x|.floor := Rat.le_floor_iff.mpr (by simpa using hone)
    have hlog : |x|.floor.toNat + 1 ≤ 10 ^ (Nat.log 10 |x|.floor.toNat + 1) :=
      Nat.lt_pow_succ_log_self (by norm_num) _
    have hcast : |x| < ((|x|.floor.toNat + 1 : Nat) : Rat) := by
      have hnat : ((|x|.floor.toNat : Int) : Rat) = (|x|.floor : Rat) := by
        rw [Int.toNat_of_nonneg (by omega)]
      rw [Nat.cast_add_one, ← Int.cast_natCast |x|.floor.toNat, hnat]
      exact_mod_cast Rat.lt_floor_add_one |x|
    rw [if_pos hone]
    exact_mod_cast hcast.trans_le (by exact_mod_cast hlog)
  · have hinv : 1 < 1 / |x| := by
      rw [lt_div_iff₀ hpos, one_mul]
      exact not_le.mp hone
    have hceil : 1 < (1 / |x|).ceil := Rat.lt_ceil_iff.mpr (by simpa using hinv)
    have hclog : 10 ^ (Nat.clog 10 (1 / |x|).ceil.toNat).pred < (1 / |x|).ceil.toNat :=
      Nat.pow_pred_clog_lt_self (by norm_num) (by omega)
    have hclog_pos : 0 < Nat.clog 10 (1 / |x|).ceil.toNat :=
      Nat.clog_pos (by norm_num) (by omega)
    have hbelow : ((10 ^ (Nat.clog 10 (1 / |x|).ceil.toNat).pred : Nat) : Rat) < 1 / |x| := by
      have hint : ((10 ^ (Nat.clog 10 (1 / |x|).ceil.toNat).pred : Nat) : Int) < (1 / |x|).ceil := by
        omega
      exact_mod_cast Rat.lt_ceil_iff.mp hint
    have hpower : (10 : Rat) ^ (-(Nat.clog 10 (1 / |x|).ceil.toNat : Int) + 1) =
        1 / ((10 ^ (Nat.clog 10 (1 / |x|).ceil.toNat).pred : Nat) : Rat) := by
      obtain ⟨k, hk⟩ := Nat.exists_eq_succ_of_ne_zero hclog_pos.ne'
      rw [hk, Nat.pred_succ, one_div, Nat.cast_pow, Nat.cast_ofNat, ← zpow_natCast, ← zpow_neg]
      congr 1
      omega
    rw [if_neg hone, hpower]
    exact (lt_one_div (by positivity) hpos).mp hbelow

variable {y : Rat}

theorem roundHalfEven_mono (h : x ≤ y) : roundHalfEven x ≤ roundHalfEven y := by
  have hfloor := Rat.floor_monotone h
  rcases hfloor.eq_or_lt with heq | hlt
  · unfold roundHalfEven
    dsimp only
    rw [← heq]
    split_ifs <;> first | omega | linarith
  · have hupper : roundHalfEven x ≤ x.floor + 1 := by
      unfold roundHalfEven
      dsimp only
      split_ifs <;> omega
    have hlower : y.floor ≤ roundHalfEven y := by
      unfold roundHalfEven
      dsimp only
      split_ifs <;> omega
    omega

theorem roundHalfUp_mono (hx : 0 ≤ x) (h : x ≤ y) : roundHalfUp x ≤ roundHalfUp y := by
  unfold roundHalfUp
  rw [if_neg (not_lt.mpr hx), if_neg (not_lt.mpr (hx.trans h))]
  exact Rat.floor_monotone (by linarith)

theorem roundTo_mono (places : Nat) (hx : 0 ≤ x) (h : x ≤ y) :
    roundTo places x ≤ roundTo places y := by
  unfold roundTo
  have hround : roundHalfUp (x * 10 ^ places) ≤ roundHalfUp (y * 10 ^ places) :=
    roundHalfUp_mono (by positivity) (by gcongr)
  gcongr

theorem pow_mul_unit (x : Rat) (k : Nat) :
    (10 : Rat) ^ k * 10 ^ (adjusted x + 1 - precision) = 10 ^ (adjusted x + 1 - precision + k) := by
  rw [zpow_add₀ (by norm_num), zpow_natCast, mul_comm]

theorem inContext_of_pos (hx : 0 < x) :
    inContext x = roundHalfEven (x / 10 ^ (adjusted x + 1 - precision)) *
      (10 : Rat) ^ (adjusted x + 1 - precision) := if_neg hx.ne'

/-- A positive number is rounded within its decade. -/
theorem inContext_bounds (hx : 0 < x) :
    (10 : Rat) ^ adjusted x ≤ inContext x ∧ inContext x ≤ (10 : Rat) ^ (adjusted x + 1) := by
  have hlower := zpow_adjusted_le hx.ne'
  have hupper := lt_zpow_adjusted hx.ne'
  rw [abs_of_pos hx] at hlower hupper
  have hunit : (0 : Rat) < 10 ^ (adjusted x + 1 - precision) := zpow_pos (by norm_num) _
  have hfirst : (10 : Rat) ^ 27 * 10 ^ (adjusted x + 1 - precision) = 10 ^ adjusted x := by
    rw [pow_mul_unit]
    congr 1
    unfold precision
    omega
  have hlast : (10 : Rat) ^ 28 * 10 ^ (adjusted x + 1 - precision) = 10 ^ (adjusted x + 1) := by
    rw [pow_mul_unit]
    congr 1
    unfold precision
    omega
  rw [inContext_of_pos hx]
  constructor
  · have hdigits : ((10 ^ 27 : Int) : Rat) ≤ x / 10 ^ (adjusted x + 1 - precision) := by
      rwa [le_div_iff₀ hunit, Int.cast_pow, Int.cast_ofNat, hfirst]
    have hround := roundHalfEven_mono hdigits
    rw [roundHalfEven_intCast] at hround
    rw [← hfirst]
    exact mul_le_mul_of_nonneg_right (by exact_mod_cast hround) hunit.le
  · have hdigits : x / 10 ^ (adjusted x + 1 - precision) ≤ ((10 ^ 28 : Int) : Rat) := by
      rw [div_le_iff₀ hunit, Int.cast_pow, Int.cast_ofNat, hlast]
      exact hupper.le
    have hround := roundHalfEven_mono hdigits
    rw [roundHalfEven_intCast] at hround
    rw [← hlast]
    exact mul_le_mul_of_nonneg_right (by exact_mod_cast hround) hunit.le

theorem adjusted_mono (hx : 0 < x) (h : x ≤ y) : adjusted x ≤ adjusted y := by
  have hlower := zpow_adjusted_le hx.ne'
  have hupper := lt_zpow_adjusted (hx.trans_le h).ne'
  rw [abs_of_pos hx] at hlower
  rw [abs_of_pos (hx.trans_le h)] at hupper
  have hlt := (zpow_lt_zpow_iff_right₀ (by norm_num : (1 : Rat) < 10)).mp
    (hlower.trans_lt (h.trans_lt hupper))
  omega

theorem inContext_mono (hx : 0 ≤ x) (h : x ≤ y) : inContext x ≤ inContext y := by
  rcases hx.eq_or_lt with rfl | hpos
  · have hzero : inContext 0 = 0 := if_pos rfl
    rw [hzero]
    rcases h.eq_or_lt with rfl | hy
    · exact hzero.ge
    · exact (zpow_pos (by norm_num) _).le.trans (inContext_bounds hy).1
  · have hy := hpos.trans_le h
    rcases (adjusted_mono hpos h).eq_or_lt with heq | hlt
    · rw [inContext_of_pos hpos, inContext_of_pos hy, heq]
      have hunit : (0 : Rat) < 10 ^ (adjusted y + 1 - precision) := zpow_pos (by norm_num) _
      have hround : roundHalfEven (x / 10 ^ (adjusted y + 1 - precision)) ≤
          roundHalfEven (y / 10 ^ (adjusted y + 1 - precision)) :=
        roundHalfEven_mono (by gcongr)
      exact mul_le_mul_of_nonneg_right (by exact_mod_cast hround) hunit.le
    · calc inContext x ≤ 10 ^ (adjusted x + 1) := (inContext_bounds hpos).2
        _ ≤ 10 ^ adjusted y := zpow_le_zpow_right₀ (by norm_num) (by omega)
        _ ≤ inContext y := (inContext_bounds hy).1

theorem inContext_nonneg (hx : 0 ≤ x) : 0 ≤ inContext x :=
  (if_pos rfl : inContext 0 = 0).ge.trans (inContext_mono le_rfl hx)

end Qontinui.PyDecimal
