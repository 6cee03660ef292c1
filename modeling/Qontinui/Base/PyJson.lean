import Qontinui.Base.Radix

/-!
Python strings, as sequences of code points with the surrogates among them, and the values
`json.loads` produces: `json.dumps(value, ensure_ascii=False, separators=(",", ":"))`,
`text.encode("utf-8")` and `repr`. Only a text without surrogates has a UTF-8 form.
-/

namespace Qontinui

abbrev PyStr := List Nat

def codePoints (text : String) : PyStr := text.toList.map Char.toNat

def isSurrogate (c : Nat) : Bool := 0xd800 ≤ c && c ≤ 0xdfff

/-- A lone surrogate in a text: code points above `0xffff` are not written as pairs. -/
def hasSurrogate (text : PyStr) : Bool := text.any isSurrogate

inductive PyError where
  | recursionError
  | unicodeEncodeError
  deriving Repr, DecidableEq

def utf8Size (c : Nat) : Nat :=
  if c < 0x80 then 1 else if c < 0x800 then 2 else if c < 0x10000 then 3 else 4

/-- `len(text.encode("utf-8"))`. -/
def encodedLength (text : PyStr) : Except PyError Nat :=
  if hasSurrogate text then .error .unicodeEncodeError else .ok (text.map utf8Size).sum

/-- A value of `json.loads`; a float by the text `float.__repr__` gives it. -/
inductive PyJson where
  | null
  | bool (b : Bool)
  | int (n : Int)
  | float (text : String)
  | str (s : PyStr)
  | list (items : List PyJson)
  | dict (fields : List (PyStr × PyJson))
  deriving Repr

namespace PyJson

/-- `type(value).__name__`. -/
def typeName : PyJson → String
  | .null => "NoneType"
  | .bool _ => "bool"
  | .int _ => "int"
  | .float _ => "float"
  | .str _ => "str"
  | .list _ => "list"
  | .dict _ => "dict"

/-- `key in fields` and `fields.get(key)`. -/
def get? (fields : List (PyStr × PyJson)) (key : String) : Option PyJson :=
  (fields.find? fun field => field.1 == codePoints key).map Prod.snd

mutual

/-- How deep lists and dicts nest in a value. -/
def depth : PyJson → Nat
  | .null => 0
  | .bool _ => 0
  | .int _ => 0
  | .float _ => 0
  | .str _ => 0
  | .list items => itemsDepth items + 1
  | .dict fields => fieldsDepth fields + 1

def itemsDepth : List PyJson → Nat
  | [] => 0
  | item :: rest => max (depth item) (itemsDepth rest)

def fieldsDepth : List (PyStr × PyJson) → Nat
  | [] => 0
  | (_, value) :: rest => max (depth value) (fieldsDepth rest)

end

mutual

def strings : PyJson → List PyStr
  | .null => []
  | .bool _ => []
  | .int _ => []
  | .float _ => []
  | .str s => [s]
  | .list items => itemsStrings items
  | .dict fields => fieldsStrings fields

def itemsStrings : List PyJson → List PyStr
  | [] => []
  | item :: rest => strings item ++ itemsStrings rest

def fieldsStrings : List (PyStr × PyJson) → List PyStr
  | [] => []
  | (key, value) :: rest => key :: (strings value ++ fieldsStrings rest)

end

/-! ### Texts -/

/-- A code point as `json.dumps` writes it between double quotes. -/
def dumpsChar (c : Nat) : PyStr :=
  if c = 34 || c = 92 then [92, c]
  else if c = 8 then codePoints "\\b"
  else if c = 9 then codePoints "\\t"
  else if c = 10 then codePoints "\\n"
  else if c = 12 then codePoints "\\f"
  else if c = 13 then codePoints "\\r"
  else if c < 32 then codePoints "\\u" ++ (hexDigits 4 c).map Char.toNat
  else [c]

def dumpsString (s : PyStr) : PyStr := 34 :: (s.flatMap dumpsChar ++ [34])

mutual

/-- `json.dumps(value, ensure_ascii=False, separators=(",", ":"))`. -/
def dumpsText : PyJson → PyStr
  | .null => codePoints "null"
  | .bool true => codePoints "true"
  | .bool false => codePoints "false"
  | .int n => codePoints (toString n)
  | .float text =>
      if text = "nan" then codePoints "NaN"
      else if text = "inf" then codePoints "Infinity"
      else if text = "-inf" then codePoints "-Infinity"
      else codePoints text
  | .str s => dumpsString s
  | .list items => 91 :: ([44].intercalate (itemTexts items) ++ [93])
  | .dict fields => 123 :: ([44].intercalate (fieldTexts fields) ++ [125])

def itemTexts : List PyJson → List PyStr
  | [] => []
  | item :: rest => dumpsText item :: itemTexts rest

def fieldTexts : List (PyStr × PyJson) → List PyStr
  | [] => []
  | (key, value) :: rest => (dumpsString key ++ 58 :: dumpsText value) :: fieldTexts rest

end

/-- A code point as `repr` writes it between the quotes. -/
def reprChar (isprintable : Nat → Bool) (quote c : Nat) : PyStr :=
  if c = quote || c = 92 then [92, c]
  else if c = 9 then codePoints "\\t"
  else if c = 10 then codePoints "\\n"
  else if c = 13 then codePoints "\\r"
  else if isprintable c then [c]
  else if c < 0x100 then codePoints "\\x" ++ (hexDigits 2 c).map Char.toNat
  else if c < 0x10000 then codePoints "\\u" ++ (hexDigits 4 c).map Char.toNat
  else codePoints "\\U" ++ (hexDigits 8 c).map Char.toNat

def reprString (isprintable : Nat → Bool) (s : PyStr) : PyStr :=
  let quote := if s.contains 39 && !s.contains 34 then 34 else 39
  quote :: (s.flatMap (reprChar isprintable quote) ++ [quote])

section Repr

variable (isprintable : Nat → Bool)

mutual

/-- `repr(value)`. -/
def reprText : PyJson → PyStr
  | .null => codePoints "None"
  | .bool true => codePoints "True"
  | .bool false => codePoints "False"
  | .int n => codePoints (toString n)
  | .float text => codePoints text
  | .str s => reprString isprintable s
  | .list items => 91 :: ([44, 32].intercalate (itemReprs items) ++ [93])
  | .dict fields => 123 :: ([44, 32].intercalate (fieldReprs fields) ++ [125])

def itemReprs : List PyJson → List PyStr
  | [] => []
  | item :: rest => reprText item :: itemReprs rest

def fieldReprs : List (PyStr × PyJson) → List PyStr
  | [] => []
  | (key, value) :: rest =>
      (reprString isprintable key ++ 58 :: 32 :: reprText value) :: fieldReprs rest

end

end Repr

end PyJson

/-! ### Surrogates -/

theorem hasSurrogate_append (s t : PyStr) :
    hasSurrogate (s ++ t) = (hasSurrogate s || hasSurrogate t) :=
  List.any_append

theorem hasSurrogate_cons (c : Nat) (s : PyStr) :
    hasSurrogate (c :: s) = (isSurrogate c || hasSurrogate s) :=
  List.any_cons

theorem isSurrogate_char (c : Char) : isSurrogate c.toNat = false := by
  have hvalid : c.toNat < 0xd800 ∨ 0xdfff < c.toNat ∧ c.toNat < 0x110000 := c.valid
  rw [isSurrogate, Bool.and_eq_false_iff, decide_eq_false_iff_not, decide_eq_false_iff_not]
  omega

theorem hasSurrogate_chars (chars : List Char) : hasSurrogate (chars.map Char.toNat) = false := by
  rw [hasSurrogate, List.any_eq_false]
  intro c hc
  obtain ⟨char, _, rfl⟩ := List.mem_map.mp hc
  rw [isSurrogate_char]
  decide

theorem hasSurrogate_codePoints (text : String) : hasSurrogate (codePoints text) = false :=
  hasSurrogate_chars text.toList

theorem hasSurrogate_intercalate {sep : PyStr} (hsep : hasSurrogate sep = false)
    (texts : List PyStr) : hasSurrogate (sep.intercalate texts) = texts.any hasSurrogate := by
  induction texts with
  | nil => rfl
  | cons text rest ih =>
      cases rest with
      | nil => rw [List.intercalate_singleton, List.any_cons, List.any_nil, Bool.or_false]
      | cons next rest =>
          rw [List.intercalate_cons_cons, hasSurrogate_append, hasSurrogate_append, hsep, ih,
            Bool.or_false, ← List.any_cons]

theorem encodedLength_eq_ok {text : PyStr} (h : hasSurrogate text = false) :
    encodedLength text = .ok (text.map utf8Size).sum := by
  rw [encodedLength, if_neg (by rw [h]; decide)]

theorem encodedLength_eq_error {text : PyStr} (h : hasSurrogate text = true) :
    encodedLength text = .error .unicodeEncodeError := by
  rw [encodedLength, if_pos h]

namespace PyJson

theorem hasSurrogate_dumpsChar (c : Nat) : hasSurrogate (dumpsChar c) = isSurrogate c := by
  have hlow : c < 0xd800 → isSurrogate c = false := by
    intro h
    rw [isSurrogate, decide_eq_false (by omega), Bool.false_and]
  rw [dumpsChar]
  split_ifs with h1 h2 h3 h4 h5 h6 h7
  · rw [Bool.or_eq_true, decide_eq_true_iff, decide_eq_true_iff] at h1
    rcases h1 with rfl | rfl
    · rfl
    · rfl
  iterate 5 rw [hasSurrogate_codePoints, hlow (by omega)]
  · rw [hasSurrogate_append, hasSurrogate_codePoints, hasSurrogate_chars, hlow (by omega)]
    rfl
  · rw [hasSurrogate_cons]
    exact Bool.or_false _

theorem hasSurrogate_dumpsString (s : PyStr) : hasSurrogate (dumpsString s) = hasSurrogate s := by
  have hchars : hasSurrogate (s.flatMap dumpsChar) = hasSurrogate s := by
    induction s with
    | nil => rfl
    | cons c rest ih =>
        rw [List.flatMap_cons, hasSurrogate_append, hasSurrogate_dumpsChar, ih, hasSurrogate_cons]
  rw [dumpsString, hasSurrogate_cons, hasSurrogate_append, hchars]
  exact Bool.or_false _

mutual

theorem hasSurrogate_dumpsText : ∀ v : PyJson,
    hasSurrogate (dumpsText v) = v.strings.any hasSurrogate
  | .null => by rw [dumpsText, hasSurrogate_codePoints, strings, List.any_nil]
  | .bool true => by rw [dumpsText, hasSurrogate_codePoints, strings, List.any_nil]
  | .bool false => by rw [dumpsText, hasSurrogate_codePoints, strings, List.any_nil]
  | .int n => by rw [dumpsText, hasSurrogate_codePoints, strings, List.any_nil]
  | .float text => by
      rw [dumpsText, strings, List.any_nil]
      split_ifs <;> exact hasSurrogate_codePoints _
  | .str s => by
      rw [dumpsText, hasSurrogate_dumpsString, strings, List.any_cons, List.any_nil, Bool.or_false]
  | .list items => by
      rw [dumpsText, hasSurrogate_cons, hasSurrogate_append, hasSurrogate_intercalate (by decide),
        any_itemTexts items, strings]
      exact Bool.or_false _
  | .dict fields => by
      rw [dumpsText, hasSurrogate_cons, hasSurrogate_append, hasSurrogate_intercalate (by decide),
        any_fieldTexts fields, strings]
      exact Bool.or_false _

theorem any_itemTexts : ∀ items : List PyJson,
    (itemTexts items).any hasSurrogate = (itemsStrings items).any hasSurrogate
  | [] => by rw [itemTexts, itemsStrings, List.any_nil]
  | item :: rest => by
      rw [itemTexts, itemsStrings, List.any_cons, List.any_append, hasSurrogate_dumpsText item,
        any_itemTexts rest]

theorem any_fieldTexts : ∀ fields : List (PyStr × PyJson),
    (fieldTexts fields).any hasSurrogate = (fieldsStrings fields).any hasSurrogate
  | [] => by rw [fieldTexts, fieldsStrings, List.any_nil]
  | (key, value) :: rest => by
      rw [fieldTexts, fieldsStrings, List.any_cons, List.any_cons, List.any_append,
        hasSurrogate_append, hasSurrogate_dumpsString, hasSurrogate_cons,
        hasSurrogate_dumpsText value, any_fieldTexts rest, Bool.or_assoc]
      rfl

end

/-! ### Depths -/

theorem depth_le_items {items : List PyJson} {item : PyJson} (h : item ∈ items) :
    depth item ≤ itemsDepth items := by
  induction items with
  | nil => cases h
  | cons first rest ih =>
      rw [itemsDepth]
      rcases List.mem_cons.mp h with rfl | h
      · exact Nat.le_max_left _ _
      · exact (ih h).trans (Nat.le_max_right _ _)

variable {fields : List (PyStr × PyJson)}

theorem depth_le_fields {field : PyStr × PyJson} (h : field ∈ fields) :
    depth field.2 ≤ fieldsDepth fields := by
  induction fields with
  | nil => cases h
  | cons first rest ih =>
      rw [fieldsDepth]
      rcases List.mem_cons.mp h with rfl | h
      · exact Nat.le_max_left _ _
      · exact (ih h).trans (Nat.le_max_right _ _)

theorem mem_of_get? {key : String} {value : PyJson} (h : get? fields key = some value) :
    (codePoints key, value) ∈ fields := by
  rw [get?, Option.map_eq_some_iff] at h
  obtain ⟨field, hfind, rfl⟩ := h
  have hkey := List.find?_some hfind
  rw [beq_iff_eq] at hkey
  rw [← hkey]
  exact List.mem_of_find?_eq_some hfind

theorem depth_of_get? {key : String} {value : PyJson} (h : get? fields key = some value) :
    depth value < depth (.dict fields) := by
  rw [depth, Nat.lt_succ_iff]
  exact depth_le_fields (mem_of_get? h)

end PyJson

end Qontinui
