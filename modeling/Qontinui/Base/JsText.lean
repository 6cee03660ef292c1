import Qontinui.Base.Json
import Qontinui.Base.Radix

/-!
Text forms of JavaScript values: `String(value)`, `JSON.stringify(value)` and
the UTF-16 code units of a string; the conversion to a signed 32-bit integer that
the bit operators make; and the 32-bit hash that several services make of a text,
in the way of `String.hashCode`. The text of a number is a parameter.
-/

namespace Qontinui

def utf16Char (c : Char) : List Nat :=
  if c.toNat < 0x10000 then [c.toNat]
  else
    let offset := c.toNat - 0x10000
    [0xd800 + offset / 0x400, 0xdc00 + offset % 0x400]

/-- The values `charCodeAt` gives along a string. -/
def charCodes (text : String) : List Nat := text.toList.flatMap utf16Char

/-- A character as `JSON.stringify` writes it between double quotes. -/
def jsonChar (c : Char) : List Char :=
  if c.toNat = 34 || c.toNat = 92 then [Char.ofNat 92, c]
  else if c.toNat = 8 then [Char.ofNat 92, 'b']
  else if c.toNat = 9 then [Char.ofNat 92, 't']
  else if c.toNat = 10 then [Char.ofNat 92, 'n']
  else if c.toNat = 12 then [Char.ofNat 92, 'f']
  else if c.toNat = 13 then [Char.ofNat 92, 'r']
  else if c.toNat < 32 then Char.ofNat 92 :: 'u' :: hexDigits 4 c.toNat
  else [c]

def jsonString (text : String) : List Char :=
  Char.ofNat 34 :: text.toList.flatMap jsonChar ++ [Char.ofNat 34]

section Texts

variable (numberText : Rat → String)

mutual

/-- `JSON.stringify(value)`, on the characters. -/
def stringifyChars : Json → List Char
  | .null => "null".toList
  | .bool b => (toString b).toList
  | .num n => (numberText n).toList
  | .str s => jsonString s
  | .arr items => '[' :: stringifyItems items ++ [']']
  | .obj fields => Char.ofNat 123 :: stringifyFields fields ++ [Char.ofNat 125]

def stringifyItems : List Json → List Char
  | [] => []
  | [item] => stringifyChars item
  | item :: rest => stringifyChars item ++ ',' :: stringifyItems rest

def stringifyFields : List (String × Json) → List Char
  | [] => []
  | [(key, value)] => jsonString key ++ ':' :: stringifyChars value
  | (key, value) :: rest =>
      jsonString key ++ ':' :: stringifyChars value ++ ',' :: stringifyFields rest

end

/-- `JSON.stringify(value)`. -/
def stringify (value : Json) : String := String.ofList (stringifyChars numberText value)

mutual

/-- `String(value)`: the elements of an array are joined by commas, `null` among
them to nothing. -/
def valueText : Json → String
  | .null => "null"
  | .bool b => toString b
  | .num n => numberText n
  | .str s => s
  | .arr items => String.intercalate "," (elementTexts items)
  | .obj _ => "[object Object]"

def elementTexts : List Json → List String
  | [] => []
  | .null :: rest => "" :: elementTexts rest
  | item :: rest => valueText item :: elementTexts rest

end

/-- `String(value)` of a property value. -/
def JsValue.text : JsValue → String
  | none => "undefined"
  | some value => valueText numberText value

end Texts

/-- The signed 32-bit integer a bit operator makes of a whole number. -/
def toInt32 (n : Int) : Int := n.bmod (2 ^ 32)

theorem toInt32_modEq (n : Int) : toInt32 n ≡ n [ZMOD 2 ^ 32] := by
  have h := @Int.bmod_emod n (2 ^ 32)
  exact_mod_cast h

theorem toInt32_congr {m n : Int} (h : m ≡ n [ZMOD 2 ^ 32]) : toInt32 m = toInt32 n := by
  unfold toInt32
  rw [← @Int.emod_bmod m, ← @Int.emod_bmod n]
  have h' : m % ((2 ^ 32 : Nat) : Int) = n % ((2 ^ 32 : Nat) : Int) := by exact_mod_cast h
  rw [h']

theorem natAbs_toInt32_eq_iff (m n : Int) :
    (toInt32 m).natAbs = (toInt32 n).natAbs ↔
      m ≡ n [ZMOD 2 ^ 32] ∨ m ≡ -n [ZMOD 2 ^ 32] := by
  constructor
  · intro h
    rcases Int.natAbs_eq_natAbs_iff.mp h with h | h
    · left
      exact (toInt32_modEq m).symm.trans (h ▸ toInt32_modEq n)
    · right
      have hneg : toInt32 m ≡ -n [ZMOD 2 ^ 32] := by
        rw [h]
        exact (toInt32_modEq n).neg
      exact (toInt32_modEq m).symm.trans hneg
  · rintro (h | h)
    · rw [toInt32_congr h]
    · rw [toInt32_congr h]
      unfold toInt32
      simp only [Int.bmod]
      omega

/-- `hash = (hash << 5) - hash + char; hash = hash & hash` along a text. -/
def hashText (text : String) : Int :=
  (charCodes text).foldl (fun (hash : Int) (char : Nat) =>
    toInt32 (toInt32 (hash * 2 ^ 5) - hash + char)) 0

/-- `n.toString(36)`. -/
def base36 (n : Int) : String :=
  String.ofList (if n < 0 then '-' :: toRadix 36 n.natAbs else toRadix 36 n.natAbs)

end Qontinui
