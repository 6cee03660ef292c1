import Mathlib.Data.List.DropRight
import Qontinui.Base.Radix

/-!
The Python string methods the services call: trimming, splitting on white
space and `repr`. What depends on the Unicode tables (lower case, letters and
digits, printable characters) is a parameter.
-/

namespace Qontinui

/-- The Unicode tables behind `str.lower`, `str.isalnum` and `str.isprintable`. -/
structure PyUnicode where
  lower : String → String
  isalnum : Char → Bool
  isprintable : Char → Bool

def PyUnicode.ascii : PyUnicode where
  lower := String.toLower
  isalnum := Char.isAlphanum
  isprintable c := 32 ≤ c.toNat && c.toNat < 127

/-- The characters `str.strip` and `str.split` take for white space. -/
def isPySpace (c : Char) : Bool :=
  let n := c.toNat
  (9 ≤ n && n ≤ 13) || (28 ≤ n && n ≤ 32) || n == 0x85 || n == 0xa0 || n == 0x1680 ||
    (0x2000 ≤ n && n ≤ 0x200a) || n == 0x2028 || n == 0x2029 || n == 0x202f || n == 0x205f ||
    n == 0x3000

/-- `text.strip()`, on the characters of the text. -/
def pyStrip (chars : List Char) : List Char :=
  (chars.dropWhile isPySpace).rdropWhile isPySpace

/-- `text.rstrip(cut)`. -/
def pyRstrip (cut chars : List Char) : List Char :=
  chars.rdropWhile (cut.contains ·)

/-- `text.split()`: the maximal runs without white space. -/
def pySplit : List Char → List (List Char)
  | [] => []
  | c :: rest =>
      if isPySpace c then pySplit rest
      else
        match rest with
        | [] => [[c]]
        | d :: _ =>
            if isPySpace d then [c] :: pySplit rest
            else
              match pySplit rest with
              | [] => [[c]]
              | word :: words => (c :: word) :: words

/-- A character of a string as `repr` writes it between the quotes. -/
def pyReprChar (u : PyUnicode) (quote c : Char) : List Char :=
  if c == quote || c == '\\' then ['\\', c]
  else if c == '\t' then ['\\', 't']
  else if c == '\n' then ['\\', 'n']
  else if c == '\r' then ['\\', 'r']
  else if u.isprintable c then [c]
  else if c.toNat < 0x100 then '\\' :: 'x' :: hexDigits 2 c.toNat
  else if c.toNat < 0x10000 then '\\' :: 'u' :: hexDigits 4 c.toNat
  else '\\' :: 'U' :: hexDigits 8 c.toNat

/-- `repr(text)`: double quotes only around a text with single quotes and no double ones. -/
def pyRepr (u : PyUnicode) (text : String) : String :=
  let single := Char.ofNat 39
  let double := Char.ofNat 34
  let quote :=
    if text.toList.contains single && !text.toList.contains double then double else single
  String.ofList (quote :: text.toList.flatMap (pyReprChar u quote) ++ [quote])

/-- `repr` of a value that is a string or `None`. -/
def pyReprOption (u : PyUnicode) : Option String → String
  | none => "None"
  | some text => pyRepr u text

/-- `repr` of a value that is a bool or `None`. -/
def pyReprBool : Option Bool → String
  | none => "None"
  | some true => "True"
  | some false => "False"

end Qontinui
