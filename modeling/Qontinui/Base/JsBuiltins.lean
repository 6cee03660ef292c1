import Mathlib.Data.List.TakeWhile
import Qontinui.Base.Json
import Qontinui.Base.ListEdit

/-!
The JavaScript library functions the services call on arrays and numerals:
`Array.prototype.splice` and `parseInt` with radix 10.
-/

namespace Qontinui

variable {α : Type*}

/-- The index `splice` starts at: a negative start counts from the end, and
the start never leaves the array. -/
def spliceStart (length : Nat) (start : Int) : Nat :=
  if start < 0 then (length + start).toNat else min start.toNat length

/-- `items.splice(start, deleteCount, ...added)`: the removed elements and the
array that is left. -/
def splice (items : List α) (start : Int) (deleteCount : Nat) (added : List α) :
    List α × List α :=
  let first := spliceStart items.length start
  ((items.drop first).take deleteCount,
    items.take first ++ added ++ items.drop (first + deleteCount))

theorem spliceStart_of_nat {length : Nat} {start : Int} (h0 : 0 ≤ start) (h : start ≤ length) :
    spliceStart length start = start.toNat := by
  simp only [spliceStart]
  rw [if_neg (by omega)]
  omega

theorem splice_insert (items : List α) (item : α) {start : Int} :
    (splice items start 0 [item]).2 = items.insertIdx (spliceStart items.length start) item := by
  have hle : spliceStart items.length start ≤ items.length := by
    unfold spliceStart
    split_ifs <;> omega
  simp only [splice, Nat.add_zero]
  generalize spliceStart items.length start = first at hle
  induction items generalizing first with
  | nil => cases Nat.le_zero.mp hle; rfl
  | cons x xs ih =>
      cases first with
      | zero => simp
      | succ first =>
          have := ih first (by simpa using hle)
          simpa using this

theorem splice_delete (items : List α) (start : Int) :
    (splice items start 1 []).2 = items.eraseIdx (spliceStart items.length start) := by
  simp [splice, List.eraseIdx_eq_take_drop_succ]

theorem splice_removed (items : List α) (start : Int) :
    (splice items start 1 []).1 = (items[spliceStart items.length start]?).toList := by
  simp only [splice]
  generalize spliceStart items.length start = first
  cases h : items[first]? with
  | none => simp [List.drop_eq_nil_of_le (List.getElem?_eq_none_iff.mp h)]
  | some x =>
      obtain ⟨hlt, hget⟩ := List.getElem?_eq_some_iff.mp h
      simp [List.drop_eq_getElem_cons hlt, hget]

/-- White space and line terminators, as `parseInt` skips them. -/
def isJsSpace (c : Char) : Bool :=
  let n := c.toNat
  (9 ≤ n && n ≤ 13) || n == 32 || n == 0xa0 || n == 0x1680 || (0x2000 ≤ n && n ≤ 0x200a) ||
    n == 0x2028 || n == 0x2029 || n == 0x202f || n == 0x205f || n == 0x3000 || n == 0xfeff

def splitSign : List Char → Bool × List Char
  | '-' :: rest => (true, rest)
  | '+' :: rest => (false, rest)
  | chars => (false, chars)

/-- `parseInt(text, 10)`; `none` is `NaN`. -/
def parseInt (text : String) : Option Int :=
  let (negative, rest) := splitSign (text.toList.dropWhile isJsSpace)
  let digits := rest.takeWhile Char.isDigit
  if digits.isEmpty then none
  else
    let magnitude : Int := Nat.ofDigitChars 10 digits 0
    some (if negative then -magnitude else magnitude)

private theorem digit_bounds {c : Char} (h : c.isDigit = true) : 48 ≤ c.toNat ∧ c.toNat ≤ 57 :=
  Char.isDigit_iff_toNat.mp h

private theorem isJsSpace_of_isDigit {c : Char} (h : c.isDigit = true) : isJsSpace c = false := by
  obtain ⟨hlow, hhigh⟩ := digit_bounds h
  simp only [isJsSpace, Bool.or_eq_false_iff, Bool.and_eq_false_iff, decide_eq_false_iff_not,
    beq_eq_false_iff_ne]
  omega

private theorem splitSign_of_isDigit {c : Char} (h : c.isDigit = true) (rest : List Char) :
    splitSign (c :: rest) = (false, c :: rest) := by
  have hminus : c ≠ '-' := by rintro rfl; cases h
  have hplus : c ≠ '+' := by rintro rfl; cases h
  unfold splitSign
  split
  · next heq => exact absurd (List.cons.inj heq).1 hminus
  · next heq => exact absurd (List.cons.inj heq).1 hplus
  · rfl

theorem parseInt_toString (index : Nat) : parseInt (toString index) = some (index : Int) := by
  have hdigit : ∀ c ∈ (toString index).toList, c.isDigit = true := by
    intro c hc
    have hc' : c ∈ Nat.toDigits 10 index := by
      simpa [Nat.toString_eq_ofList_toDigits] using hc
    exact Nat.isDigit_of_mem_toDigits (by decide) (by decide) hc'
  have hvalue : Nat.ofDigitChars 10 (toString index).toList 0 = index := by simp
  have hne : (toString index).toList ≠ [] := by simp
  unfold parseInt
  generalize (toString index).toList = chars at hdigit hvalue hne
  cases chars with
  | nil => exact absurd rfl hne
  | cons c rest =>
      have hc : c.isDigit = true := hdigit c List.mem_cons_self
      have hdrop : (c :: rest).dropWhile isJsSpace = c :: rest := by
        simp [isJsSpace_of_isDigit hc]
      have htake : (c :: rest).takeWhile Char.isDigit = c :: rest :=
        List.takeWhile_eq_self_iff.mpr hdigit
      simp only [hdrop, splitSign_of_isDigit hc, htake, hvalue]
      rfl

end Qontinui
