import Mathlib.Data.Nat.Digits.Lemmas

/-!
Numerals in a radix up to 36, as `Number.prototype.toString(radix)` writes
them, and hexadecimal numerals of a fixed width.
-/

namespace Qontinui

/-- The digit characters `0` to `9`, then `a` to `z`. -/
def digitChar (d : Nat) : Char := if d < 10 then Char.ofNat (48 + d) else Char.ofNat (87 + d)

/-- `n.toString(radix)`, on the characters. -/
def toRadix (radix n : Nat) : List Char :=
  if n = 0 then [digitChar 0] else ((radix.digits n).map digitChar).reverse

/-- `count` hexadecimal digits of a number. -/
def hexDigits (count n : Nat) : List Char :=
  (List.range count).reverse.map fun i => digitChar (n / 16 ^ i % 16)

theorem digitChar_toNat :
    ∀ d < 36, (digitChar d).toNat = if d < 10 then 48 + d else 87 + d := by
  decide

theorem digitChar_injective {d e : Nat} (hd : d < 36) (he : e < 36)
    (h : digitChar d = digitChar e) : d = e := by
  have hnat := congrArg Char.toNat h
  rw [digitChar_toNat d hd, digitChar_toNat e he] at hnat
  split at hnat <;> split at hnat <;> omega

theorem digitChar_ne_dash {d : Nat} (h : d < 36) : digitChar d ≠ '-' := by
  intro heq
  have hnat := congrArg Char.toNat heq
  rw [digitChar_toNat d h] at hnat
  have hdash : ('-' : Char).toNat = 45 := rfl
  split at hnat <;> omega

section Radix

variable {radix : Nat}

theorem toRadix_digits (h1 : 1 < radix) (h36 : radix ≤ 36) (n : Nat) :
    ∃ ds : List Nat, (∀ d ∈ ds, d < 36) ∧ toRadix radix n = ds.map digitChar ∧
      Nat.ofDigits radix ds.reverse = n := by
  unfold toRadix
  split
  · next hzero => exact ⟨[0], by simp, rfl, by simp [hzero]⟩
  · refine ⟨(radix.digits n).reverse, ?_, by rw [List.map_reverse], ?_⟩
    · intro d hd
      have hlt := Nat.digits_lt_base h1 (List.mem_reverse.mp hd)
      omega
    · rw [List.reverse_reverse, Nat.ofDigits_digits]

theorem map_digitChar_injective {ds es : List Nat} (hds : ∀ d ∈ ds, d < 36)
    (hes : ∀ e ∈ es, e < 36) (h : ds.map digitChar = es.map digitChar) : ds = es := by
  induction ds generalizing es with
  | nil => simpa using h.symm
  | cons d ds ih =>
      cases es with
      | nil => simp at h
      | cons e es =>
          simp only [List.map_cons, List.cons.injEq] at h
          rw [digitChar_injective (hds d (by simp)) (hes e (by simp)) h.1,
            ih (fun d hd => hds d (by simp [hd])) (fun e he => hes e (by simp [he])) h.2]

theorem toRadix_injective (h1 : 1 < radix) (h36 : radix ≤ 36) {m n : Nat}
    (h : toRadix radix m = toRadix radix n) : m = n := by
  obtain ⟨ds, hds, htext, hvalue⟩ := toRadix_digits h1 h36 m
  obtain ⟨es, hes, htext', hvalue'⟩ := toRadix_digits h1 h36 n
  rw [htext, htext'] at h
  rw [← hvalue, ← hvalue', map_digitChar_injective hds hes h]

theorem dash_not_mem_toRadix (h1 : 1 < radix) (h36 : radix ≤ 36) (n : Nat) :
    '-' ∉ toRadix radix n := by
  obtain ⟨ds, hds, htext, -⟩ := toRadix_digits h1 h36 n
  rw [htext, List.mem_map]
  rintro ⟨d, hd, heq⟩
  exact digitChar_ne_dash (hds d hd) heq

end Radix

end Qontinui
