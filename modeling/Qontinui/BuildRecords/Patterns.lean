import Qontinui.BuildRecords.Allowlist

/-!
The regular expressions of the build-record gate, each as a function on code points, and what
they and the scan take from the Unicode tables of Python.
-/

namespace Qontinui.BuildRecords

/-- The general categories of Unicode. -/
inductive Category where
  | lu | ll | lt | lm | lo | mn | mc | me | nd | nl | no | pc | pd | ps | pe | pi | pf | po
  | sm | sc | sk | so | zs | zl | zp | cc | cf | cs | co | cn
  deriving Repr, DecidableEq

/-- The tables and library functions of a Python, and how deep a value may nest in `json.dumps`
and in `str`. Each level of a value takes one level of the recursion limit in both, and
`json.dumps` reaches the value from deeper in the stack. -/
structure Python where
  category : Nat → Category
  isspace : Nat → Bool
  isprintable : Nat → Bool
  lower : PyStr → PyStr
  nfkd : PyStr → PyStr
  nfkc : PyStr → PyStr
  /-- `datetime.fromisoformat(value).tzinfo is not None`, or a `ValueError`. -/
  fromisoformat : PyStr → Option Bool
  dumpsDepth : Nat
  reprDepth : Nat
  dumps_le_repr : dumpsDepth ≤ reprDepth

def Python.ascii : Python where
  category c :=
    if c < 32 || c = 127 then .cc
    else if c = 32 then .zs
    else if 48 ≤ c && c ≤ 57 then .nd
    else if 65 ≤ c && c ≤ 90 then .lu
    else if 97 ≤ c && c ≤ 122 then .ll
    else if c = 36 then .sc
    else if [43, 60, 61, 62, 124, 126].contains c then .sm
    else if [94, 96].contains c then .sk
    else if c = 95 then .pc
    else if c = 45 then .pd
    else if [40, 91, 123].contains c then .ps
    else if [41, 93, 125].contains c then .pe
    else if c < 128 then .po
    else if isSurrogate c then .cs
    else .cn
  isspace c := (9 ≤ c && c ≤ 13) || (28 ≤ c && c ≤ 32)
  isprintable c := 32 ≤ c && c < 127
  lower text := text.map fun c => if 65 ≤ c && c ≤ 90 then c + 32 else c
  nfkd text := text
  nfkc text := text
  fromisoformat _ := some true
  dumpsDepth := 900
  reprDepth := 900
  dumps_le_repr := Nat.le_refl _

/-! ### Classes of characters -/

def isAsciiDigit (c : Nat) : Bool := 48 ≤ c && c ≤ 57

def isAsciiLower (c : Nat) : Bool := 97 ≤ c && c ≤ 122

def isAsciiUpper (c : Nat) : Bool := 65 ≤ c && c ≤ 90

def isAlnum (c : Nat) : Bool := isAsciiLower c || isAsciiUpper c || isAsciiDigit c

def isLowerAlnum (c : Nat) : Bool := isAsciiLower c || isAsciiDigit c

def isHex (c : Nat) : Bool := isAsciiDigit c || (97 ≤ c && c ≤ 102) || (65 ≤ c && c ≤ 70)

/-- The characters of a local part: `[A-Za-z0-9._%+-]`. -/
def isLocal (c : Nat) : Bool := isAlnum c || [46, 95, 37, 43, 45].contains c

/-! ### Matches at a place -/

/-- Exactly `count` characters of a class. -/
def exactly (inClass : Nat → Bool) (count : Nat) (s : PyStr) : Option PyStr :=
  if (s.take count).length = count && (s.take count).all inClass then some (s.drop count) else none

def literal (c : Nat) : PyStr → Option PyStr
  | [] => none
  | d :: rest => if d = c then some rest else none

/-- A match at some place of a text, of a pattern that sees the character before. -/
def search (pattern : Option Nat → PyStr → Bool) : Option Nat → PyStr → Bool
  | before, [] => pattern before []
  | before, c :: rest => pattern before (c :: rest) || search pattern (some c) rest

/-! ### The slots' patterns -/

/-- One character of a class, then at most `most` of another. -/
def headAndTail (first next : Nat → Bool) (most : Nat) : PyStr → Bool
  | [] => false
  | c :: rest => first c && rest.all next && decide (rest.length ≤ most)

/-- `SLUG_RE`. -/
def isSlug : PyStr → Bool := headAndTail isLowerAlnum (fun c => isLowerAlnum c || c == 45) 62

/-- `WORK_UNIT_SLUG_RE`. -/
def isWorkUnitSlug : PyStr → Bool :=
  headAndTail (fun c => isAlnum c || c == 95) (fun c => isAlnum c || [46, 95, 45].contains c) 254

/-- `REPO_RE`. -/
def isRepo (s : PyStr) : Bool :=
  let name := (s.dropWhile (· != 47)).tail
  headAndTail isAlnum (fun c => isAlnum c || c == 45) 38 (s.takeWhile (· != 47)) &&
    (s.contains 47 && name.all (fun c => isAlnum c || [46, 95, 45].contains c) &&
      decide (1 ≤ name.length) && decide (name.length ≤ 100))

section Digits

-- What `\d` matches.
variable (isDigit : Nat → Bool)

/-- The date and time of `RFC3339_RE`, up to the seconds. -/
def dateTime (s : PyStr) : Option PyStr := do
  let s ← exactly isDigit 4 s
  let s ← literal 45 s
  let s ← exactly isDigit 2 s
  let s ← literal 45 s
  let s ← exactly isDigit 2 s
  let s ← literal 84 s
  let s ← exactly isDigit 2 s
  let s ← literal 58 s
  let s ← exactly isDigit 2 s
  let s ← literal 58 s
  exactly isDigit 2 s

/-- `(\.\d+)?`. -/
def fraction : PyStr → PyStr
  | [] => []
  | c :: rest =>
      if c = 46 && rest.head?.any isDigit then rest.dropWhile isDigit else c :: rest

/-- `(Z|[+-]\d{2}:\d{2})$`. -/
def zone : PyStr → Bool
  | [] => false
  | c :: rest =>
      if c = 90 then rest.isEmpty
      else (c == 43 || c == 45) &&
        (do let s ← exactly isDigit 2 rest; let s ← literal 58 s; exactly isDigit 2 s) == some []

/-- `RFC3339_RE`. -/
def isRfc3339 (s : PyStr) : Bool :=
  match dateTime isDigit s with
  | none => false
  | some rest => zone isDigit (fraction isDigit rest)

/-- `_INDEX_RE.sub("[]", path)`. -/
def subIndex (path : PyStr) : PyStr :=
  match path with
  | [] => []
  | c :: rest =>
      if c = 91 && rest.head?.any isDigit && (rest.dropWhile isDigit).head? == some 93 then
        91 :: 93 :: subIndex (rest.dropWhile isDigit).tail
      else c :: subIndex rest
termination_by path.length
decreasing_by
  · have hdrop := (List.dropWhile_suffix isDigit (l := rest)).length_le
    rw [List.length_tail, List.length_cons]
    omega
  · exact Nat.lt_succ_self _

end Digits

/-- `_UNKNOWN_RE`: the path and the reason. -/
def unknownParts (s : PyStr) : Option (PyStr × PyStr) :=
  let isPath c := isLowerAlnum c || [95, 46, 91, 93].contains c
  let path := s.takeWhile isPath
  match s.dropWhile isPath with
  | 58 :: 32 :: reason =>
      if path.head?.any (fun c => isAsciiLower c || c == 95) && !reason.isEmpty &&
        reason.all (fun c => isAsciiLower c || c == 95) then some (path, reason) else none
  | _ => none

/-! ### The patterns of the scan -/

def dashedUuid (s : PyStr) : Bool :=
  (do
    let s ← exactly isHex 8 s
    let s ← literal 45 s
    let s ← exactly isHex 4 s
    let s ← literal 45 s
    let s ← exactly isHex 4 s
    let s ← literal 45 s
    let s ← exactly isHex 4 s
    let s ← literal 45 s
    exactly isHex 12 s).isSome

/-- `_UUID_RE.search(text)`. -/
def searchUuid (text : PyStr) : Bool :=
  search (fun before s => dashedUuid s || (!(before.any isHex) &&
    match exactly isHex 32 s with
    | none => false
    | some rest => !(rest.head?.any isHex))) none text

/-- `_EMAIL_RE.search(text)`. -/
def searchEmail (text : PyStr) : Bool :=
  search (fun before s => !(before.any isLocal) && s.head?.any isLocal &&
    match s.dropWhile isLocal with
    | 64 :: host :: _ => isAlnum host || host == 45
    | _ => false) none text

/-- `_PATH_RUN_RE.findall(text)`. -/
def pathRuns (text : PyStr) : List PyStr :=
  (text.splitOnP fun c => !(isAlnum c || [46, 95, 47, 45].contains c)).filter (· ≠ [])

section Infix

variable (py : Python)

/-- What `_INFIX_SYMBOL_RE` matches at the beginning of a text, before an alphanumeric: the
symbol, and the text after the match. -/
def infixSymbol (s : PyStr) : Option (Nat × PyStr) :=
  match s.dropWhile py.isspace with
  | [] => none
  | symbol :: after =>
      let tail := after.dropWhile py.isspace
      if decide (0x7f < symbol) && tail.head?.any isAlnum then some (symbol, tail) else none

theorem infixSymbol_length {s tail : PyStr} {symbol : Nat}
    (h : infixSymbol py s = some (symbol, tail)) : tail.length < s.length := by
  have hdrop := (List.dropWhile_suffix py.isspace (l := s)).length_le
  rw [infixSymbol] at h
  split at h
  · cases h
  · rename_i c after hcons
    have hafter := (List.dropWhile_suffix py.isspace (l := after)).length_le
    rw [hcons, List.length_cons] at hdrop
    dsimp only at h
    split at h
    · cases h
      omega
    · cases h

/-- `_INFIX_SYMBOL_RE.sub(_infix_to_slash, text)`, with the character before the text. -/
def infixSub (before : Option Nat) (s : PyStr) : PyStr :=
  match s with
  | [] => []
  | c :: rest =>
      match _h : if before.any isAlnum then infixSymbol py (c :: rest) else none with
      | some (symbol, tail) =>
          let found := (c :: rest).take ((c :: rest).length - tail.length)
          let category := py.category symbol
          let written := if symbol = 47 || category == .sm || category == .po then [47] else found
          written ++ infixSub found.getLast? tail
      | none => c :: infixSub (some c) rest
termination_by s.length
decreasing_by
  · split at _h
    · exact infixSymbol_length py _h
    · cases _h
  · exact Nat.lt_succ_self _

end Infix

end Qontinui.BuildRecords
