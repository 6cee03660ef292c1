import Qontinui.Conditions.SafeEval

/-!
The condition language: operands, comparisons and negations of them, joined by
`&&` only or by `||` only; how an expression is written, with any white space
between its tokens, and what it means.
-/

namespace Qontinui.Conditions

/-- White space between two tokens. -/
structure Gap where
  chars : List Char
  blank : ∀ c ∈ chars, isJsSpace c = true

def isTokenChar (c : Char) : Bool :=
  !isJsSpace c && !isQuote c && ! ['(', ')', '&', '|', '=', '!', '<', '>'].contains c

def isKeyword (text : List Char) : Bool :=
  ["true".toList, "false".toList, "null".toList, "undefined".toList].contains text

section Grammar

variable {V : Type*} (js : JsValues V)

/-- The names of a dotted variable; its text is no literal. -/
structure IsPath (path : List (List Char)) : Prop where
  ne_nil : path ≠ []
  names : ∀ name ∈ path, name ≠ [] ∧ ∀ c ∈ name, isTokenChar c = true ∧ c ≠ '.'
  notKeyword : isKeyword (List.intercalate ['.'] path) = false
  notNumber : js.number (List.intercalate ['.'] path) = none

/-- A number is what `Number` reads as one. -/
structure IsNumber (text : List Char) (value : V) : Prop where
  ne_nil : text ≠ []
  chars : ∀ c ∈ text, isTokenChar c = true
  notKeyword : isKeyword text = false
  number : js.number text = some value

/-- A string without backslashes and without its own quote character. -/
structure IsQuoted (quote : Char) (content : List Char) : Prop where
  isQuote : isQuote quote = true
  plain : ∀ c ∈ content, c ≠ quote ∧ c ≠ backslash

inductive Operand where
  | name (path : List (List Char)) (h : IsPath js path)
  | number (text : List Char) (value : V) (h : IsNumber js text value)
  | bool (b : Bool)
  | null
  | quoted (quote : Char) (content : List Char) (h : IsQuoted quote content)

inductive Body where
  | single (operand : Operand js)
  | comparison (left : Operand js) (before : Gap) (op : ComparisonOp) (after : Gap)
      (right : Operand js)

/-- A clause, negated when a gap follows its `!`, between the gaps around it. -/
structure Clause where
  before : Gap
  negated : Option Gap
  body : Body js
  after : Gap

structure Expression where
  op : LogicalOp
  first : Clause js
  rest : List (Clause js)

variable {js}

/-! ### Texts -/

def Operand.text : Operand js → List Char
  | .name path _ => List.intercalate ['.'] path
  | .number text _ _ => text
  | .bool true => "true".toList
  | .bool false => "false".toList
  | .null => "null".toList
  | .quoted quote content _ => quote :: (content ++ [quote])

def Body.text : Body js → List Char
  | .single operand => operand.text
  | .comparison left before op after right =>
      left.text ++ (before.chars ++ (op.text ++ (after.chars ++ right.text)))

def Clause.core (clause : Clause js) : List Char :=
  match clause.negated with
  | none => clause.body.text
  | some gap => '!' :: (gap.chars ++ clause.body.text)

def Clause.text (clause : Clause js) : List Char :=
  clause.before.chars ++ (clause.core ++ clause.after.chars)

def joinClauses (op : LogicalOp) : Clause js → List (Clause js) → List Char
  | clause, [] => clause.text
  | clause, next :: rest => clause.text ++ (op.text ++ joinClauses op next rest)

def Expression.clauses (e : Expression js) : List (Clause js) := e.first :: e.rest

def Expression.text (e : Expression js) : List Char := joinClauses e.op e.first e.rest

/-! ### Values -/

section Values

variable (vars : V)

def Operand.value : Operand js → V
  | .name path _ => resolvePath js vars path
  | .number _ value _ => value
  | .bool b => js.bool b
  | .null => js.null
  | .quoted _ content _ => js.string content

def Body.value : Body js → Bool
  | .single operand => js.truthy (operand.value vars)
  | .comparison left _ op _ right => op.holds js (left.value vars) (right.value vars)

def Clause.value (clause : Clause js) : Bool :=
  match clause.negated with
  | none => clause.body.value vars
  | some _ => !clause.body.value vars

def Expression.value (e : Expression js) : Bool :=
  match e.op with
  | .and => e.clauses.all (·.value vars)
  | .or => e.clauses.any (·.value vars)

end Values

/-! ### What the search for an operator sees of a clause -/

def Operand.content : Operand js → List Char
  | .quoted _ content _ => content
  | _ => []

/-- The operators the search tries before a given one. -/
def triedBefore (op : ComparisonOp) : List ComparisonOp := sortedOps.takeWhile (· ≠ op)

/-- The search finds a clause's own operator: no string of it holds an operator that is
tried before, and the left string does not hold the operator itself; a string that stands
alone holds no operator. -/
def Body.Clear : Body js → Prop
  | .single operand => ∀ op ∈ sortedOps, ¬ op.text <:+: operand.content
  | .comparison left _ op _ right =>
      ¬ op.text <:+: left.content ∧ ∀ other ∈ triedBefore op,
        ¬ other.text <:+: left.content ∧ ¬ other.text <:+: right.content

def Body.parts : Body js → Option SimpleClause
  | .single _ => none
  | .comparison left _ op _ right => some ⟨left.text, op, right.text⟩

/-! ### The characters of a text -/

def isOpChar (c : Char) : Bool := ['=', '!', '<', '>'].contains c

/-- A text that begins and ends with a character that is neither white space nor part of an
operator. -/
structure Bounded (text : List Char) : Prop where
  ne_nil : text ≠ []
  head : ∀ c, text.head? = some c → isJsSpace c = false ∧ isOpChar c = false
  last : ∀ c, text.getLast? = some c → isJsSpace c = false ∧ isOpChar c = false

variable {c : Char}

theorem tokenChar_spec (h : isTokenChar c = true) :
    isJsSpace c = false ∧ isOpChar c = false ∧ isQuote c = false ∧ c ≠ '(' ∧ c ≠ ')' ∧
      c ≠ '&' ∧ c ≠ '|' := by
  simp only [isTokenChar, List.contains_eq_mem, List.mem_cons, List.not_mem_nil,
    Bool.and_eq_true, Bool.not_eq_true', decide_eq_false_iff_not, not_or] at h
  simp [isOpChar, h]

theorem quote_spec (h : isQuote c = true) : isJsSpace c = false ∧ isOpChar c = false := by
  simp only [isQuote, Bool.or_eq_true, beq_iff_eq] at h
  rcases h with rfl | rfl
  · decide
  · decide

theorem space_spec (h : isJsSpace c = true) :
    isOpChar c = false ∧ isQuote c = false ∧ c ≠ '(' ∧ c ≠ ')' ∧ c ≠ '&' ∧ c ≠ '|' := by
  refine ⟨?_, ?_, ?_, ?_, ?_, ?_⟩
  · by_contra hc
    simp only [isOpChar, List.contains_eq_mem, List.mem_cons, List.not_mem_nil, or_false,
      Bool.not_eq_false, decide_eq_true_eq] at hc
    rcases hc with rfl | rfl | rfl | rfl <;> revert h <;> decide
  · by_contra hc
    simp only [isQuote, Bool.not_eq_false, Bool.or_eq_true, beq_iff_eq] at hc
    rcases hc with rfl | rfl <;> revert h <;> decide
  all_goals
    rintro rfl
    revert h
    decide

theorem opChar_spec (h : isOpChar c = true) :
    isJsSpace c = false ∧ isQuote c = false ∧ c ≠ '(' ∧ c ≠ ')' ∧ c ≠ '&' ∧ c ≠ '|' := by
  simp only [isOpChar, List.contains_eq_mem, List.mem_cons, List.not_mem_nil, or_false,
    decide_eq_true_eq] at h
  rcases h with rfl | rfl | rfl | rfl <;> decide

theorem opText_chars (op : ComparisonOp) : ∀ c ∈ op.text, isOpChar c = true := by
  apply List.all_eq_true.mp
  cases op <;> decide

theorem opText_ne_nil (op : ComparisonOp) : op.text ≠ [] := by
  cases op <;> decide

theorem bounded_of_chars {text : List Char} (hne : text ≠ [])
    (h : ∀ c ∈ text, isTokenChar c = true) : Bounded text where
  ne_nil := hne
  head c hc :=
    have hspec := tokenChar_spec (h c (List.mem_of_head? hc))
    ⟨hspec.1, hspec.2.1⟩
  last c hc :=
    have hspec := tokenChar_spec (h c (List.mem_of_getLast? hc))
    ⟨hspec.1, hspec.2.1⟩

theorem bounded_quoted {quote : Char} (h : isQuote quote = true) (content : List Char) :
    Bounded (quote :: (content ++ [quote])) where
  ne_nil := by simp
  head c hc := by
    obtain rfl : quote = c := by simpa using hc
    exact quote_spec h
  last c hc := by
    rw [← List.cons_append, List.getLast?_concat] at hc
    obtain rfl : quote = c := by simpa using hc
    exact quote_spec h

variable {path : List (List Char)}

theorem mem_intercalate {sep : Char} (h : c ∈ List.intercalate [sep] path) :
    c = sep ∨ ∃ name ∈ path, c ∈ name := by
  induction path with
  | nil => simp at h
  | cons name path ih =>
      cases path with
      | nil => exact Or.inr ⟨name, by simp, by simpa using h⟩
      | cons next path =>
          rw [List.intercalate_cons_cons] at h
          simp only [List.append_assoc, List.singleton_append, List.mem_append, List.mem_cons] at h
          rcases h with hc | hc | hc
          · exact Or.inr ⟨name, by simp, hc⟩
          · exact Or.inl hc
          · rcases ih hc with hc | ⟨other, hother, hc⟩
            · exact Or.inl hc
            · exact Or.inr ⟨other, List.mem_cons_of_mem _ hother, hc⟩

theorem IsPath.text_ne_nil (h : IsPath js path) : List.intercalate ['.'] path ≠ [] := by
  cases path with
  | nil => exact absurd rfl h.ne_nil
  | cons name path =>
      have hname := (h.names name (by simp)).1
      cases path with
      | nil => simpa using hname
      | cons next path =>
          rw [List.intercalate_cons_cons]
          simp

theorem IsPath.text_chars (h : IsPath js path) :
    ∀ c ∈ List.intercalate ['.'] path, isTokenChar c = true := by
  intro c hc
  rcases mem_intercalate hc with rfl | ⟨name, hname, hc⟩
  · decide
  · exact ((h.names name hname).2 c hc).1

theorem keyword_chars : ∀ text ∈ ["true".toList, "false".toList, "null".toList],
    text ≠ [] ∧ ∀ c ∈ text, isTokenChar c = true := by
  have h : ["true".toList, "false".toList, "null".toList].all
      (fun text => !text.isEmpty && text.all isTokenChar) = true := by decide
  intro text hmem
  simpa using List.all_eq_true.mp h text hmem

theorem Operand.text_cases (operand : Operand js) :
    ((operand.text ≠ [] ∧ ∀ c ∈ operand.text, isTokenChar c = true) ∧ operand.content = []) ∨
      ∃ quote, IsQuoted quote operand.content ∧
        operand.text = quote :: (operand.content ++ [quote]) := by
  cases operand with
  | name path h =>
      exact Or.inl ⟨⟨h.text_ne_nil, h.text_chars⟩, rfl⟩
  | number text value h => exact Or.inl ⟨⟨h.ne_nil, h.chars⟩, rfl⟩
  | bool b =>
      cases b with
      | true => exact Or.inl ⟨keyword_chars "true".toList (by simp), rfl⟩
      | false => exact Or.inl ⟨keyword_chars "false".toList (by simp), rfl⟩
  | null => exact Or.inl ⟨keyword_chars "null".toList (by simp), rfl⟩
  | quoted quote content h => exact Or.inr ⟨quote, h, rfl⟩

theorem Operand.bounded (operand : Operand js) : Bounded operand.text := by
  rcases operand.text_cases with ⟨⟨hne, hchars⟩, -⟩ | ⟨quote, h, htext⟩
  · exact bounded_of_chars hne hchars
  · rw [htext]
    exact bounded_quoted h.isQuote operand.content

theorem Body.bounded (body : Body js) : Bounded body.text := by
  cases body with
  | single operand => exact operand.bounded
  | comparison left before op after right =>
      refine ⟨by simp [Body.text, left.bounded.ne_nil], ?_, ?_⟩
      · intro c hc
        apply left.bounded.head c
        rwa [Body.text, List.head?_append_of_ne_nil _ left.bounded.ne_nil] at hc
      · intro c hc
        apply right.bounded.last c
        rwa [Body.text, List.getLast?_append_of_ne_nil _ (by simp [opText_ne_nil]),
          List.getLast?_append_of_ne_nil _ (by simp [opText_ne_nil]),
          List.getLast?_append_of_ne_nil _ (by simp [right.bounded.ne_nil]),
          List.getLast?_append_of_ne_nil _ right.bounded.ne_nil] at hc

end Grammar

end Qontinui.Conditions
