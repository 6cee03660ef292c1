import Mathlib.Algebra.GroupWithZero.Nat
import Mathlib.Algebra.Order.BigOperators.Group.List
import Mathlib.Algebra.Order.Group.Nat
import Mathlib.Data.List.Sort
import Qontinui.Base.JsBuiltins
import Qontinui.Base.Substring

/-!
The evaluator of condition strings: split on `&&` or `||` outside quotes, a
`!` in front, one comparison found by searching the text, or a single token.
What the comparison operators and `Number` make of values is a parameter.
-/

namespace Qontinui.Conditions

def doubleQuote : Char := Char.ofNat 34

def singleQuote : Char := Char.ofNat 39

def backslash : Char := Char.ofNat 92

def isQuote (c : Char) : Bool := c == doubleQuote || c == singleQuote

/-- The JavaScript values, with the operations the evaluator applies to them. -/
structure JsValues (V : Type*) where
  undefined : V
  null : V
  bool : Bool → V
  string : List Char → V
  /-- `Number(text)`; `none` is `NaN`. -/
  number : List Char → Option V
  truthy : V → Bool
  /-- `typeof value === "object"` of a value that is not `null`. -/
  isObject : V → Bool
  property : V → List Char → V
  strictEq : V → V → Bool
  looseEq : V → V → Bool
  /-- `Number(a) < Number(b)` -/
  lessThan : V → V → Bool
  /-- `Number(a) <= Number(b)` -/
  atMost : V → V → Bool
  /-- No numeral begins with a quote. -/
  number_quoted : ∀ c rest, isQuote c = true → number (c :: rest) = none

inductive ComparisonOp where
  | strictEq | strictNe | looseEq | looseNe | gt | lt | ge | le
deriving DecidableEq, Repr

def ComparisonOp.text : ComparisonOp → List Char
  | .strictEq => ['=', '=', '=']
  | .strictNe => ['!', '=', '=']
  | .looseEq => ['=', '=']
  | .looseNe => ['!', '=']
  | .gt => ['>']
  | .lt => ['<']
  | .ge => ['>', '=']
  | .le => ['<', '=']

/-- The keys of `COMPARISON_OPS`, in the order they are written. -/
def comparisonOps : List ComparisonOp :=
  [.strictEq, .strictNe, .looseEq, .looseNe, .gt, .lt, .ge, .le]

/-- The operators longest first; the sort keeps the order of equal lengths. -/
def sortedOps : List ComparisonOp :=
  comparisonOps.insertionSort fun a b => b.text.length ≤ a.text.length

inductive LogicalOp where
  | and | or
deriving DecidableEq, Repr

def LogicalOp.text : LogicalOp → List Char
  | .and => ['&', '&']
  | .or => ['|', '|']

/-! ### Splitting on a logical operator -/

/-- The loop of the split: what is left to read, how much of an operator that was found is
still to skip, the character before, the quote that is open, the depth of the parentheses
and the part read so far. -/
def splitLoop (op : List Char) : List Char → Nat → Option Char → Option Char → Int → List Char →
    List (List Char)
  | [], _, _, _, _, part => [part]
  | ch :: rest, skip + 1, _, inStr, depth, part => splitLoop op rest skip (some ch) inStr depth part
  | ch :: rest, 0, before, some quote, depth, part =>
      let inStr := if ch = quote && before != some backslash then none else some quote
      splitLoop op rest 0 (some ch) inStr depth (part ++ [ch])
  | ch :: rest, 0, _, none, depth, part =>
      if isQuote ch then splitLoop op rest 0 (some ch) (some ch) depth (part ++ [ch])
      else
        let depth := if ch = '(' then depth + 1 else if ch = ')' then depth - 1 else depth
        if depth = 0 && op.isPrefixOf (ch :: rest) then
          part :: splitLoop op rest (op.length - 1) (some ch) none depth []
        else splitLoop op rest 0 (some ch) none depth (part ++ [ch])

/-- The parts of an expression between the occurrences of an operator outside quotes and
parentheses. -/
def splitOnLogicalOp (expr : List Char) (op : LogicalOp) : List (List Char) :=
  splitLoop op.text expr 0 none none 0 []

/-- Every cut takes at least a character out of the parts. -/
theorem splitLoop_lengths (op chars : List Char) (skip : Nat) (before inStr : Option Char)
    (depth : Int) (part : List Char) :
    ((splitLoop op chars skip before inStr depth part).map List.length).sum +
      (splitLoop op chars skip before inStr depth part).length ≤
        part.length + chars.length + 1 := by
  induction chars generalizing skip before inStr depth part with
  | nil => simp [splitLoop]
  | cons ch rest ih =>
      cases skip with
      | succ skip =>
          have hrest := ih skip (some ch) inStr depth part
          simp only [splitLoop, List.length_cons]
          omega
      | zero =>
          cases inStr with
          | some quote =>
              simp only [splitLoop, List.length_cons]
              apply (ih _ _ _ _ _).trans
              simp only [List.length_append, List.length_singleton]
              omega
          | none =>
              simp only [splitLoop, List.length_cons]
              split
              · apply (ih _ _ _ _ _).trans
                simp only [List.length_append, List.length_singleton]
                omega
              · generalize (if ch = '(' then depth + 1 else if ch = ')' then depth - 1 else depth) =
                  inner
                split
                · have hrest := ih (op.length - 1) (some ch) none inner []
                  simp only [List.map_cons, List.sum_cons, List.length_cons, List.length_nil]
                    at hrest ⊢
                  omega
                · apply (ih _ _ _ _ _).trans
                  simp only [List.length_append, List.length_singleton]
                  omega

theorem length_part_lt {expr part : List Char} {op : LogicalOp}
    (hsplit : 1 < (splitOnLogicalOp expr op).length) (h : part ∈ splitOnLogicalOp expr op) :
    part.length < expr.length := by
  have hlengths := splitLoop_lengths op.text expr 0 none none 0 []
  have hpart : part.length ≤ ((splitOnLogicalOp expr op).map List.length).sum :=
    List.single_le_sum (by simp) _ (List.mem_map_of_mem h)
  unfold splitOnLogicalOp at hsplit hpart
  simp only [List.length_nil] at hlengths
  omega

/-! ### Tokens and comparisons -/

structure SimpleClause where
  left : List Char
  op : ComparisonOp
  right : List Char
deriving DecidableEq, Repr

/-- The search for one operator, and the texts on its two sides. -/
def splitAtOp (expr : List Char) (op : ComparisonOp) : Option SimpleClause :=
  match indexOf op.text expr with
  | some idx =>
      if 0 < idx then
        let left := trim isJsSpace (expr.take idx)
        let right := trim isJsSpace (expr.drop (idx + op.text.length))
        if left ≠ [] ∧ right ≠ [] then some ⟨left, op, right⟩ else none
      else none
  | none => none

/-- The first operator, longest first, that splits the text into two sides. -/
def parseComparison (expr : List Char) : Option SimpleClause :=
  sortedOps.findSome? (splitAtOp expr)

section Evaluator

variable {V : Type*} (js : JsValues V) (vars : V)

def resolvePath (path : List (List Char)) : V :=
  path.foldl (fun acc key => if js.isObject acc then js.property acc key else js.undefined)
    vars

def startsAndEnds (quote : Char) (text : List Char) : Bool :=
  text.head? == some quote && text.getLast? == some quote

/-- The value of a token: a literal, a quoted string or a variable. -/
def parseToken (token : List Char) : V :=
  let trimmed := trim isJsSpace token
  if trimmed = "true".toList then js.bool true
  else if trimmed = "false".toList then js.bool false
  else if trimmed = "null".toList then js.null
  else if trimmed = "undefined".toList then js.undefined
  else
    match if trimmed = [] then none else js.number trimmed with
    | some value => value
    | none =>
        if startsAndEnds doubleQuote trimmed || startsAndEnds singleQuote trimmed then
          js.string (trimmed.drop 1).dropLast
        else resolvePath js vars (trimmed.splitOn '.')

def ComparisonOp.holds (a b : V) : ComparisonOp → Bool
  | .strictEq => js.strictEq a b
  | .strictNe => !js.strictEq a b
  | .looseEq => js.looseEq a b
  | .looseNe => !js.looseEq a b
  | .gt => js.lessThan b a
  | .lt => js.lessThan a b
  | .ge => js.atMost b a
  | .le => js.atMost a b

def evaluate : Nat → List Char → Bool
  | 0, _ => false
  | depth + 1, expression =>
      let expr := trim isJsSpace expression
      if expr = [] then false
      else if 1 < (splitOnLogicalOp expr .and).length then
        (splitOnLogicalOp expr .and).all (evaluate depth)
      else if 1 < (splitOnLogicalOp expr .or).length then
        (splitOnLogicalOp expr .or).any (evaluate depth)
      else if ['!'].isPrefixOf expr && ! ['!', '='].isPrefixOf expr then
        !evaluate depth (expr.drop 1)
      else
        match parseComparison expr with
        | some clause =>
            clause.op.holds js (parseToken js vars clause.left)
              (parseToken js vars clause.right)
        | none => js.truthy (parseToken js vars expr)

/-- `evaluateCondition(expression, variables)`: every recursive call is on a shorter text. -/
def evaluateCondition (expression : List Char) : Bool :=
  evaluate js vars (expression.length + 1) expression

/-- More depth than the length of the text changes nothing. -/
theorem evaluate_stable {depth : Nat} {text : List Char} (h : text.length < depth) (extra : Nat) :
    evaluate js vars (depth + extra) text = evaluate js vars depth text := by
  induction depth generalizing text with
  | zero => exact absurd h (Nat.not_lt_zero _)
  | succ depth ih =>
      have hle := @length_trim_le Char isJsSpace text
      have hparts : ∀ op, 1 < (splitOnLogicalOp (trim isJsSpace text) op).length →
          ∀ part ∈ splitOnLogicalOp (trim isJsSpace text) op,
            evaluate js vars (depth + extra) part = evaluate js vars depth part := by
        intro op hsplit part hpart
        have hshorter := length_part_lt hsplit hpart
        exact ih (by omega)
      have hrest : trim isJsSpace text ≠ [] →
          evaluate js vars (depth + extra) ((trim isJsSpace text).drop 1) =
            evaluate js vars depth ((trim isJsSpace text).drop 1) := by
        intro hne
        have hpositive := List.length_pos_iff.mpr hne
        exact ih (by rw [List.length_drop]; omega)
      rw [Nat.succ_add]
      simp only [evaluate]
      split
      · rfl
      next hne =>
        split
        next hand =>
          rw [Bool.eq_iff_iff, List.all_eq_true, List.all_eq_true]
          exact forall₂_congr fun part hpart => by rw [hparts .and hand part hpart]
        split
        next hor =>
          rw [Bool.eq_iff_iff, List.any_eq_true, List.any_eq_true]
          exact exists_congr fun part => and_congr_right fun hpart => by
            rw [hparts .or hor part hpart]
        split
        · rw [hrest hne]
        · rfl

end Evaluator

end Qontinui.Conditions
