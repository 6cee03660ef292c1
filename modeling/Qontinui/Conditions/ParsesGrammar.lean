import Qontinui.Conditions.Grammar

/-!
What the evaluator makes of a written expression. The split on a logical
operator respects quotes and always finds the clauses; the search for a
comparison operator does not, and finds the clause's own exactly when no
quoted string stands in its way. Then the expression has its value.
-/

namespace Qontinui.Conditions

variable {V : Type*} {js : JsValues V}

/-! ### The split -/

/-- The loop of the split reads a text without a cut, and comes out of it as it went in. -/
def Passes (op : LogicalOp) (text : List Char) : Prop :=
  ∀ rest before part, ∃ before',
    splitLoop op.text (text ++ rest) 0 before none 0 part =
      splitLoop op.text rest 0 before' none 0 (part ++ text)

/-- A character that neither opens a string or a parenthesis nor begins a logical operator. -/
def isPlain (c : Char) : Bool :=
  !isQuote c && c != '(' && c != ')' && c != '&' && c != '|'

theorem Passes.nil (op : LogicalOp) : Passes op [] := by
  intro rest before part
  exact ⟨before, by simp⟩

variable {text : List Char} {c : Char}

theorem Passes.append {op : LogicalOp} {text' : List Char} (h : Passes op text)
    (h' : Passes op text') : Passes op (text ++ text') := by
  intro rest before part
  obtain ⟨middle, hmiddle⟩ := h (text' ++ rest) before part
  obtain ⟨last, hlast⟩ := h' rest middle (part ++ text)
  exact ⟨last, by rw [List.append_assoc, hmiddle, hlast, List.append_assoc]⟩

theorem passes_char (op : LogicalOp) (h : isPlain c = true) : Passes op [c] := by
  simp only [isPlain, Bool.and_eq_true, Bool.not_eq_true', bne_iff_ne, ne_eq] at h
  obtain ⟨⟨⟨⟨hquote, hopen⟩, hclose⟩, hand⟩, hor⟩ := h
  intro rest before part
  refine ⟨some c, ?_⟩
  have hcut : op.text.isPrefixOf (c :: rest) = false := by
    cases op with
    | and => simp [LogicalOp.text, List.isPrefixOf, Ne.symm hand]
    | or => simp [LogicalOp.text, List.isPrefixOf, Ne.symm hor]
  simp [splitLoop, hquote, hopen, hclose, hcut]

theorem passes_of_plain (op : LogicalOp) (h : ∀ c ∈ text, isPlain c = true) : Passes op text := by
  induction text with
  | nil => exact Passes.nil op
  | cons c text ih =>
      have htail := ih (fun d hd => h d (by simp [hd]))
      exact (passes_char op (h c (by simp))).append htail

theorem splitLoop_content (op : List Char) {quote : Char} {content : List Char}
    (h : ∀ c ∈ content, c ≠ quote ∧ c ≠ backslash) (rest : List Char) (before : Option Char)
    (hbefore : before ≠ some backslash) (part : List Char) :
    splitLoop op (content ++ quote :: rest) 0 before (some quote) 0 part =
      splitLoop op rest 0 (some quote) none 0 (part ++ (content ++ [quote])) := by
  induction content generalizing before part with
  | nil => simp [splitLoop, hbefore]
  | cons c content ih =>
      have hc := h c (by simp)
      have htail := ih (fun d hd => h d (by simp [hd])) (some c) (by simpa using hc.2) (part ++ [c])
      simp [splitLoop, hc.1, htail]

theorem passes_quoted (op : LogicalOp) {quote : Char} {content : List Char}
    (h : IsQuoted quote content) : Passes op (quote :: (content ++ [quote])) := by
  intro rest before part
  refine ⟨some quote, ?_⟩
  have hquote : quote ≠ backslash := by
    rintro rfl
    exact absurd h.isQuote (by decide)
  have hcontent := splitLoop_content op.text h.plain rest (some quote) (by simpa using hquote)
    (part ++ [quote])
  simp [splitLoop, h.isQuote, hcontent]

theorem isPlain_of_token (h : isTokenChar c = true) : isPlain c = true := by
  have hspec := tokenChar_spec h
  simp [isPlain, hspec]

theorem isPlain_of_space (h : isJsSpace c = true) : isPlain c = true := by
  have hspec := space_spec h
  simp [isPlain, hspec]

theorem isPlain_of_opChar (h : isOpChar c = true) : isPlain c = true := by
  have hspec := opChar_spec h
  simp [isPlain, hspec]

theorem Gap.passes (gap : Gap) (op : LogicalOp) : Passes op gap.chars :=
  passes_of_plain op (fun c hc => isPlain_of_space (gap.blank c hc))

variable (operand : Operand js)

theorem Operand.passes (op : LogicalOp) : Passes op operand.text := by
  rcases operand.text_cases with ⟨⟨-, hchars⟩, -⟩ | ⟨quote, h, htext⟩
  · exact passes_of_plain op (fun c hc => isPlain_of_token (hchars c hc))
  · rw [htext]
    exact passes_quoted op h

theorem Body.passes (body : Body js) (op : LogicalOp) : Passes op body.text := by
  cases body with
  | single operand => exact operand.passes op
  | comparison left before comparison after right =>
      have hop : Passes op comparison.text :=
        passes_of_plain op (fun c hc => isPlain_of_opChar (opText_chars comparison c hc))
      exact (left.passes op).append ((before.passes op).append
        (hop.append ((after.passes op).append (right.passes op))))

variable (clause : Clause js)

theorem Clause.passes (op : LogicalOp) : Passes op clause.core := by
  unfold Clause.core
  cases clause.negated with
  | none => exact clause.body.passes op
  | some gap =>
      exact (passes_char op (by decide)).append ((gap.passes op).append (clause.body.passes op))

theorem Passes.split {op : LogicalOp} (h : Passes op text) : splitOnLogicalOp text op = [text] := by
  obtain ⟨before, hbefore⟩ := h [] none []
  rw [List.append_nil] at hbefore
  rw [splitOnLogicalOp, hbefore]
  rfl

theorem splitLoop_cut (op : LogicalOp) (rest : List Char) (before : Option Char)
    (part : List Char) : ∃ before',
    splitLoop op.text (op.text ++ rest) 0 before none 0 part =
      part :: splitLoop op.text rest 0 before' none 0 [] := by
  cases op with
  | and => exact ⟨some '&', by simp [LogicalOp.text, splitLoop, isQuote, doubleQuote, singleQuote]⟩
  | or => exact ⟨some '|', by simp [LogicalOp.text, splitLoop, isQuote, doubleQuote, singleQuote]⟩

/-! ### The text of an expression, trimmed and split -/

/-- Text with a gap on each side of a core. -/
def Surrounds (core text : List Char) : Prop :=
  ∃ before after : Gap, text = before.chars ++ (core ++ after.chars)

theorem Clause.surrounds : Surrounds clause.core clause.text :=
  ⟨clause.before, clause.after, rfl⟩

/-- The text of an expression without the gap in front and the gap at the end. -/
def innerText (op : LogicalOp) : Clause js → List (Clause js) → List Char
  | clause, [] => clause.core
  | clause, next :: rest =>
      clause.core ++ (clause.after.chars ++ (op.text ++ (next.before.chars ++
        innerText op next rest)))

theorem joinClauses_eq (op : LogicalOp) (clause : Clause js) (rest : List (Clause js)) :
    ∃ gap : Gap, joinClauses op clause rest =
      clause.before.chars ++ (innerText op clause rest ++ gap.chars) := by
  induction rest generalizing clause with
  | nil => exact ⟨clause.after, rfl⟩
  | cons next rest ih =>
      obtain ⟨gap, hgap⟩ := ih next
      exact ⟨gap, by simp [joinClauses, innerText, Clause.text, hgap]⟩

theorem Clause.core_ne_nil : clause.core ≠ [] := by
  unfold Clause.core
  cases clause.negated with
  | none => exact clause.body.bounded.ne_nil
  | some gap => simp

theorem Clause.core_head (h : clause.core.head? = some c) : isJsSpace c = false := by
  unfold Clause.core at h
  cases hnegated : clause.negated with
  | none =>
      rw [hnegated] at h
      exact (clause.body.bounded.head c h).1
  | some gap =>
      rw [hnegated] at h
      obtain rfl : '!' = c := by simpa using h
      decide

theorem Clause.core_last (h : clause.core.getLast? = some c) : isJsSpace c = false := by
  unfold Clause.core at h
  cases hnegated : clause.negated with
  | none =>
      rw [hnegated] at h
      exact (clause.body.bounded.last c h).1
  | some gap =>
      simp only [hnegated] at h
      rw [← List.singleton_append, List.getLast?_append_of_ne_nil _
          (by simp [clause.body.bounded.ne_nil]),
        List.getLast?_append_of_ne_nil _ clause.body.bounded.ne_nil] at h
      exact (clause.body.bounded.last c h).1

theorem innerText_ne_nil (op : LogicalOp) (clause : Clause js) (rest : List (Clause js)) :
    innerText op clause rest ≠ [] := by
  cases rest <;> simp [innerText, clause.core_ne_nil]

theorem innerText_head (op : LogicalOp) (clause : Clause js) (rest : List (Clause js))
    (h : (innerText op clause rest).head? = some c) : isJsSpace c = false := by
  cases rest with
  | nil => exact clause.core_head h
  | cons next rest =>
      rw [innerText, List.head?_append_of_ne_nil _ clause.core_ne_nil] at h
      exact clause.core_head h

theorem innerText_last (op : LogicalOp) (clause : Clause js) (rest : List (Clause js))
    (h : (innerText op clause rest).getLast? = some c) : isJsSpace c = false := by
  induction rest generalizing clause with
  | nil => exact clause.core_last h
  | cons next rest ih =>
      have hne := innerText_ne_nil op next rest
      rw [innerText, List.getLast?_append_of_ne_nil _ (by simp [hne]),
        List.getLast?_append_of_ne_nil _ (by simp [hne]),
        List.getLast?_append_of_ne_nil _ (by simp [hne]),
        List.getLast?_append_of_ne_nil _ hne] at h
      exact ih next h

theorem trim_expression (e : Expression js) :
    trim isJsSpace e.text = innerText e.op e.first e.rest := by
  obtain ⟨gap, hgap⟩ := joinClauses_eq e.op e.first e.rest
  rw [Expression.text, hgap]
  exact trim_append e.first.before.blank gap.blank (innerText_ne_nil _ _ _)
    (fun c hc => innerText_head _ _ _ hc) (fun c hc => innerText_last _ _ _ hc)

theorem trim_surrounds {clause : Clause js} (h : Surrounds clause.core text) :
    trim isJsSpace text = clause.core := by
  obtain ⟨before, after, rfl⟩ := h
  exact trim_append before.blank after.blank clause.core_ne_nil
    (fun c hc => clause.core_head hc) (fun c hc => clause.core_last hc)

theorem splitLoop_innerText (op : LogicalOp) (clause : Clause js) (rest : List (Clause js))
    (gap : Gap) (before : Option Char) :
    List.Forall₂ (fun clause text => Surrounds clause.core text) (clause :: rest)
      (splitLoop op.text (innerText op clause rest) 0 before none 0 gap.chars) := by
  induction rest generalizing clause gap before with
  | nil =>
      obtain ⟨before', hread⟩ := clause.passes op [] before gap.chars
      rw [List.append_nil] at hread
      rw [innerText, hread]
      exact .cons ⟨gap, ⟨[], by simp⟩, by simp⟩ .nil
  | cons next rest ih =>
      have hpasses := (clause.passes op).append (clause.after.passes op)
      obtain ⟨middle, hread⟩ := hpasses (op.text ++ (next.before.chars ++ innerText op next rest))
        before gap.chars
      obtain ⟨middle', hcut⟩ := splitLoop_cut op (next.before.chars ++ innerText op next rest)
        middle (gap.chars ++ (clause.core ++ clause.after.chars))
      obtain ⟨last, hgap⟩ := next.before.passes op (innerText op next rest) middle' []
      rw [innerText, ← List.append_assoc, hread, hcut, hgap, List.nil_append]
      exact .cons ⟨gap, clause.after, rfl⟩ (ih next next.before last)

theorem split_expression (e : Expression js) :
    List.Forall₂ (fun clause text => Surrounds clause.core text) e.clauses
      (splitOnLogicalOp (trim isJsSpace e.text) e.op) := by
  rw [trim_expression]
  exact splitLoop_innerText e.op e.first e.rest ⟨[], by simp⟩ none

theorem passes_innerText {op other : LogicalOp} (h : other ≠ op) (clause : Clause js)
    (rest : List (Clause js)) : Passes other (innerText op clause rest) := by
  have hop : Passes other op.text := by
    intro rest before part
    cases op <;> cases other
    · exact absurd rfl h
    · exact ⟨some '&', by
        simp [LogicalOp.text, splitLoop, isQuote, doubleQuote, singleQuote, List.isPrefixOf]⟩
    · exact ⟨some '|', by
        simp [LogicalOp.text, splitLoop, isQuote, doubleQuote, singleQuote, List.isPrefixOf]⟩
    · exact absurd rfl h
  induction rest generalizing clause with
  | nil => exact clause.passes other
  | cons next rest ih =>
      exact (clause.passes other).append ((clause.after.passes other).append
        (hop.append ((next.before.passes other).append (ih next))))

/-! ### The search for an operator -/

theorem sortedOps_eq :
    sortedOps = [.strictEq, .strictNe, .looseEq, .looseNe, .ge, .le, .gt, .lt] := by
  decide

theorem sortedOps_split (op : ComparisonOp) :
    ∃ later, sortedOps = triedBefore op ++ op :: later := by
  unfold triedBefore
  rw [sortedOps_eq]
  cases op
  all_goals exact ⟨_, rfl⟩

variable {op : ComparisonOp}

theorem not_infix_of_triedBefore {other : ComparisonOp} (h : other ∈ triedBefore op) :
    ¬ other.text <:+: op.text := by
  unfold triedBefore at h
  rw [sortedOps_eq] at h
  revert h
  cases op <;> cases other <;> decide

section Occurrence

variable {word : List Char} (hne : word ≠ []) (hchars : ∀ c ∈ word, isOpChar c = true)

include hchars

theorem quiet_of_token {text : List Char} (h : ∀ c ∈ text, isTokenChar c = true) :
    ∀ c ∈ text, c ∉ word := by
  intro c hc hword
  have hspec := (tokenChar_spec (h c hc)).2.1
  rw [hchars c hword] at hspec
  cases hspec

theorem Gap.quiet (gap : Gap) : ∀ c ∈ gap.chars, c ∉ word := by
  intro c hc hword
  have hspec := (space_spec (gap.blank c hc)).1
  rw [hchars c hword] at hspec
  cases hspec

theorem quiet_of_quote {quote : Char} (h : isQuote quote = true) : quote ∉ word := by
  intro hword
  have hspec := (quote_spec h).2
  rw [hchars quote hword] at hspec
  cases hspec

include hne

theorem Operand.infix_front {rest : List Char} (h : word <:+: operand.text ++ rest) :
    word <:+: operand.content ∨ word <:+: rest := by
  rcases operand.text_cases with ⟨⟨-, htoken⟩, -⟩ | ⟨quote, hquoted, htext⟩
  · exact Or.inr (infix_of_append_quiet hne (quiet_of_token hchars htoken) h)
  · have hquote := quiet_of_quote hchars hquoted.isQuote
    rw [htext, List.cons_append, List.append_assoc, List.singleton_append] at h
    have hinside := @infix_of_append_quiet Char word [quote] _ hne (by simpa using hquote) h
    exact infix_append_cons hquote hinside

theorem Operand.infix_back {front : List Char} (h : word <:+: front ++ operand.text) :
    word <:+: front ∨ word <:+: operand.content := by
  rcases operand.text_cases with ⟨⟨htext, htoken⟩, -⟩ | ⟨quote, hquoted, htext⟩
  · left
    have hsplit : word <:+: front ++ (operand.text ++ []) := by simpa using h
    rcases infix_append_quiet hne (quiet_of_token hchars htoken) htext hsplit with h | h
    · exact h
    · exact absurd (List.infix_nil.mp h) hne
  · have hquote := quiet_of_quote hchars hquoted.isQuote
    rw [htext] at h
    rcases infix_append_cons hquote h with h | h
    · exact Or.inl h
    · rcases infix_append_cons hquote h with h | h
      · exact Or.inr h
      · exact absurd (List.infix_nil.mp h) hne

theorem infix_comparison (left right : Operand js) (before after : Gap) (op : ComparisonOp)
    (h : word <:+: (Body.comparison left before op after right).text) :
    word <:+: left.content ∨ word <:+: op.text ∨ word <:+: right.content := by
  rcases left.infix_front hne hchars h with h | h
  · exact Or.inl h
  · right
    have hmiddle := infix_of_append_quiet hne (before.quiet hchars) h
    rw [← List.append_assoc] at hmiddle
    rcases right.infix_back hne hchars hmiddle with h | h
    · left
      by_cases hafter : after.chars = []
      · simpa [hafter] using h
      · have hsplit : word <:+: op.text ++ (after.chars ++ []) := by simpa using h
        rcases infix_append_quiet hne (after.quiet hchars) hafter hsplit with h | h
        · exact h
        · exact absurd (List.infix_nil.mp h) hne
    · exact Or.inr h

end Occurrence

theorem Operand.content_infix : operand.content <:+: operand.text := by
  rcases operand.text_cases with ⟨-, hcontent⟩ | ⟨quote, -, htext⟩
  · rw [hcontent]
    exact List.nil_infix
  · rw [htext]
    exact ⟨[quote], [quote], by simp⟩

/-- In a bounded text an operator that occurs has something on both sides. -/
theorem splitAtOp_of_index (hbounded : Bounded text) {i : Nat} (h : indexOf op.text text = some i) :
    splitAtOp text op = some ⟨trim isJsSpace (text.take i), op,
      trim isJsSpace (text.drop (i + op.text.length))⟩ := by
  obtain ⟨⟨rest, hrest⟩, hle, -⟩ := indexOf_spec h
  obtain ⟨first, tail, htext⟩ := List.exists_cons_of_ne_nil hbounded.ne_nil
  obtain ⟨hfirstSpace, hfirstOp⟩ := hbounded.head first (by rw [htext]; rfl)
  have hpositive : 0 < i := by
    by_contra hzero
    obtain rfl : i = 0 := by omega
    obtain ⟨c, word, hword⟩ := List.exists_cons_of_ne_nil (opText_ne_nil op)
    rw [List.drop_zero, hword, htext] at hrest
    simp only [List.cons_append, List.cons.injEq] at hrest
    have hc := opText_chars op c (by rw [hword]; simp)
    rw [hrest.1, hfirstOp] at hc
    cases hc
  have hleft : trim isJsSpace (text.take i) ≠ [] := by
    have hmem : first ∈ text.take i := by
      rw [htext, show i = i - 1 + 1 by omega]
      simp
    exact List.ne_nil_of_mem (mem_trim hmem hfirstSpace)
  have hdrop : text.drop (i + op.text.length) = rest := by
    rw [← List.drop_drop, ← hrest, List.drop_left]
  have hwhole : text = text.take i ++ (op.text ++ rest) := by
    rw [hrest, List.take_append_drop]
  have hright : trim isJsSpace (text.drop (i + op.text.length)) ≠ [] := by
    rw [hdrop]
    cases hlast : rest.getLast? with
    | none =>
        -- the operator would end the text
        obtain rfl : rest = [] := List.getLast?_eq_none_iff.mp hlast
        have hne := opText_ne_nil op
        have hend : text.getLast? = some (op.text.getLast hne) := by
          rw [hwhole, List.append_nil, List.getLast?_append_of_ne_nil _ hne,
            List.getLast?_eq_some_getLast hne]
        have hop := opText_chars op _ (List.getLast_mem hne)
        rw [(hbounded.last _ hend).2] at hop
        cases hop
    | some c =>
        have hrestne : rest ≠ [] := by
          rintro rfl
          cases hlast
        have hend : text.getLast? = some c := by
          rw [hwhole, List.getLast?_append_of_ne_nil _ (by simp [hrestne]),
            List.getLast?_append_of_ne_nil _ hrestne, hlast]
        exact List.ne_nil_of_mem
          (mem_trim (List.mem_of_getLast? hlast) (hbounded.last c hend).1)
  simp [splitAtOp, h, hpositive, hleft, hright]

theorem splitAtOp_eq_none_iff (hbounded : Bounded text) (op : ComparisonOp) :
    splitAtOp text op = none ↔ ¬ op.text <:+: text := by
  rw [← indexOf_eq_none_iff]
  constructor
  · intro h
    cases hindex : indexOf op.text text with
    | none => rfl
    | some i => simp [splitAtOp_of_index hbounded hindex] at h
  · intro h
    simp [splitAtOp, h]

theorem parseComparison_eq_some (hbounded : Bounded text) {clause : SimpleClause}
    (h : parseComparison text = some clause) :
    splitAtOp text clause.op = some clause ∧
      ∀ other ∈ triedBefore clause.op, ¬ other.text <:+: text := by
  obtain ⟨before, op, after, hsorted, hfound, hbefore⟩ := List.findSome?_eq_some_iff.mp h
  have hop : clause.op = op := by
    cases hindex : indexOf op.text text with
    | none => simp [splitAtOp, hindex] at hfound
    | some i =>
        rw [splitAtOp_of_index hbounded hindex] at hfound
        cases hfound
        rfl
  rw [hop]
  refine ⟨hfound, ?_⟩
  intro other hother
  apply (splitAtOp_eq_none_iff hbounded other).mp
  apply hbefore
  have hnodup : sortedOps.Nodup := by
    rw [sortedOps_eq]
    decide
  have hnotmem : op ∉ before := by
    rw [hsorted] at hnodup
    intro hmem
    exact (List.nodup_append.mp hnodup).2.2 op hmem op (by simp) rfl
  rw [triedBefore, hsorted, List.takeWhile_append_of_pos (by
    intro earlier hearlier
    simpa using ne_of_mem_of_not_mem hearlier hnotmem)] at hother
  simpa using hother

/-! ### A body, read back -/

theorem Body.clear_iff_single :
    parseComparison operand.text = none ↔ (Body.single operand).Clear := by
  simp only [parseComparison, List.findSome?_eq_none_iff, Body.Clear]
  apply forall₂_congr
  intro op _
  rw [splitAtOp_eq_none_iff operand.bounded]
  apply not_congr
  constructor
  · intro h
    have hwhole : op.text <:+: operand.text ++ [] := by simpa using h
    rcases operand.infix_front (opText_ne_nil op) (opText_chars op) hwhole with h | h
    · exact h
    · exact absurd (List.infix_nil.mp h) (opText_ne_nil op)
  · intro h
    exact h.trans operand.content_infix

theorem trim_operand (before after : Gap) :
    trim isJsSpace (before.chars ++ (operand.text ++ after.chars)) = operand.text :=
  trim_append before.blank after.blank operand.bounded.ne_nil
    (fun c hc => (operand.bounded.head c hc).1) (fun c hc => (operand.bounded.last c hc).1)

def Gap.empty : Gap := ⟨[], by simp⟩

theorem trim_operand_self : trim isJsSpace operand.text = operand.text := by
  have h := trim_operand operand Gap.empty Gap.empty
  simpa [Gap.empty] using h

/-- Where the left string does not hold the operator, the search finds the one written. -/
theorem splitAtOp_comparison (left right : Operand js) (before after : Gap) (op : ComparisonOp)
    (h : ¬ op.text <:+: left.content) :
    splitAtOp (Body.comparison left before op after right).text op =
      some ⟨left.text, op, right.text⟩ := by
  have hfront : ¬ op.text <:+: left.text ++ before.chars := by
    intro hinfix
    rcases left.infix_front (opText_ne_nil op) (opText_chars op) hinfix with hcontent | hgap
    · exact h hcontent
    · have hsplit : op.text <:+: before.chars ++ [] := by simpa using hgap
      have hnil := infix_of_append_quiet (opText_ne_nil op) (before.quiet (opText_chars op)) hsplit
      exact opText_ne_nil op (List.infix_nil.mp hnil)
  have hlast : ∀ c, (left.text ++ before.chars).getLast? = some c → c ∉ op.text := by
    intro c hc
    by_cases hgap : before.chars = []
    · rw [hgap, List.append_nil] at hc
      intro hmem
      have hop := opText_chars op c hmem
      rw [(left.bounded.last c hc).2] at hop
      cases hop
    · rw [List.getLast?_append_of_ne_nil _ hgap] at hc
      exact before.quiet (opText_chars op) c (List.mem_of_getLast? hc)
  have hindex : indexOf op.text (Body.comparison left before op after right).text =
      some (left.text ++ before.chars).length := by
    rw [Body.text, ← List.append_assoc]
    exact indexOf_append _ hfront hlast
  rw [splitAtOp_of_index (Body.bounded _) hindex]
  have htext : (Body.comparison left before op after right).text =
      (left.text ++ before.chars) ++ (op.text ++ (after.chars ++ right.text)) := by
    simp [Body.text]
  have hleft := trim_operand left Gap.empty before
  have hright := trim_operand right after Gap.empty
  simp only [Gap.empty, List.nil_append, List.append_nil] at hleft hright
  rw [htext, List.take_left, ← List.drop_drop, List.drop_left, List.drop_left, hleft, hright]

theorem not_infix_of_splitAtOp {left right : Operand js} {before after : Gap}
    (hbounded : Bounded (Body.comparison left before op after right).text)
    (h : splitAtOp (Body.comparison left before op after right).text op =
      some ⟨left.text, op, right.text⟩) : ¬ op.text <:+: left.content := by
  rintro ⟨front, back, hcontent⟩
  rcases left.text_cases with ⟨-, hempty⟩ | ⟨quote, -, htext⟩
  · rw [hempty] at hcontent
    have hnil : op.text = [] := by simp_all
    exact opText_ne_nil op hnil
  · cases hindex : indexOf op.text (Body.comparison left before op after right).text with
    | none => simp [splitAtOp, hindex] at h
    | some i =>
        rw [splitAtOp_of_index hbounded hindex] at h
        simp only [Option.some.injEq, SimpleClause.mk.injEq, true_and] at h
        -- an operator in the left string begins before the end of that string
        have hearly : i ≤ front.length + 1 := by
          by_contra hlate
          apply (indexOf_spec hindex).2.2 (front.length + 1) (by omega)
          rw [Body.text, htext, ← hcontent]
          exact ⟨back ++ quote :: (before.chars ++ (op.text ++ (after.chars ++ right.text))),
            by simp⟩
        have hshort : left.text.length ≤ i := by
          rw [← h.1]
          exact (length_trim_le _).trans (by simp)
        rw [htext, ← hcontent] at hshort
        simp only [List.length_cons, List.length_append, List.length_nil] at hshort
        omega

theorem Body.clear_iff_comparison (left right : Operand js) (before after : Gap)
    (op : ComparisonOp) :
    parseComparison (Body.comparison left before op after right).text =
        some ⟨left.text, op, right.text⟩ ↔
      (Body.comparison left before op after right).Clear := by
  have hbounded := Body.bounded (Body.comparison left before op after right)
  have hleft : left.content <:+: (Body.comparison left before op after right).text :=
    left.content_infix.trans (List.prefix_append _ _).isInfix
  have hright : right.content <:+: (Body.comparison left before op after right).text := by
    apply right.content_infix.trans
    exact ⟨left.text ++ before.chars ++ op.text ++ after.chars, [], by simp [Body.text]⟩
  constructor
  · intro h
    obtain ⟨hsplit, hbefore⟩ := parseComparison_eq_some hbounded h
    refine ⟨?_, fun other hother => ⟨?_, ?_⟩⟩
    · exact not_infix_of_splitAtOp hbounded hsplit
    · intro hcontent
      exact hbefore other hother (hcontent.trans hleft)
    · intro hcontent
      exact hbefore other hother (hcontent.trans hright)
  · rintro ⟨hown, hothers⟩
    have hsplit := splitAtOp_comparison left right before after op hown
    obtain ⟨later, hsorted⟩ := sortedOps_split op
    rw [parseComparison, hsorted, List.findSome?_append]
    have hnone : (triedBefore op).findSome?
        (splitAtOp (Body.comparison left before op after right).text) = none := by
      rw [List.findSome?_eq_none_iff]
      intro other hother
      rw [splitAtOp_eq_none_iff hbounded]
      intro hinfix
      rcases infix_comparison (opText_ne_nil other) (opText_chars other) left right before after op
        hinfix with h | h | h
      · exact (hothers other hother).1 h
      · exact not_infix_of_triedBefore hother h
      · exact (hothers other hother).2 h
    simp [hnone, hsplit]

theorem Body.clear_iff (body : Body js) : parseComparison body.text = body.parts ↔ body.Clear := by
  cases body with
  | single operand => exact Body.clear_iff_single operand
  | comparison left before op after right =>
      exact Body.clear_iff_comparison left right before after op

/-! ### The value -/

section Value

variable (vars : V)

theorem not_startsAndEnds {quote : Char} (hquote : isQuote quote = true) {text : List Char}
    (h : ∀ c ∈ text, isTokenChar c = true) : startsAndEnds quote text = false := by
  cases hhead : text.head? with
  | none => simp [startsAndEnds, hhead]
  | some c =>
      have hc := (tokenChar_spec (h c (List.mem_of_head? hhead))).2.2.1
      have hne : c ≠ quote := by
        rintro rfl
        rw [hquote] at hc
        cases hc
      simp [startsAndEnds, hhead, hne]

theorem quoted_not_keyword {quote : Char} (h : isQuote quote = true) (rest : List Char) :
    isKeyword (quote :: rest) = false := by
  simp only [isQuote, Bool.or_eq_true, beq_iff_eq] at h
  rcases h with rfl | rfl
  · simp [isKeyword, doubleQuote]
  · simp [isKeyword, singleQuote]

theorem parseToken_of_not_keyword {token : List Char} (htrim : trim isJsSpace token = token)
    (hne : token ≠ []) (h : isKeyword token = false) :
    parseToken js vars token = match js.number token with
      | some value => value
      | none =>
          if startsAndEnds doubleQuote token || startsAndEnds singleQuote token then
            js.string (token.drop 1).dropLast
          else resolvePath js vars (token.splitOn '.') := by
  simp only [isKeyword, List.contains_eq_mem, List.mem_cons, List.not_mem_nil, or_false,
    decide_eq_false_iff_not, not_or] at h
  cases hnumber : js.number token <;>
    simp only [parseToken, htrim, h.1, h.2.1, h.2.2.1, h.2.2.2, hne, hnumber, if_false]

theorem parseToken_operand : parseToken js vars operand.text = operand.value vars := by
  have htrim := trim_operand_self operand
  cases operand with
  | name path h =>
      rw [parseToken_of_not_keyword vars htrim h.text_ne_nil h.notKeyword]
      have hsplit : (List.intercalate ['.'] path).splitOn '.' = path := by
        apply List.splitOn_intercalate _ _ h.ne_nil
        intro name hname hdot
        exact ((h.names name hname).2 '.' hdot).2 rfl
      have hdouble := @not_startsAndEnds doubleQuote (by decide) _ h.text_chars
      have hsingle := @not_startsAndEnds singleQuote (by decide) _ h.text_chars
      simp only [Operand.text, h.notNumber, hdouble, hsingle, hsplit]
      rfl
  | number text value h =>
      rw [parseToken_of_not_keyword vars htrim h.ne_nil h.notKeyword]
      simp only [Operand.text, h.number]
      rfl
  | bool b =>
      unfold parseToken
      rw [htrim]
      cases b <;> rfl
  | null =>
      unfold parseToken
      rw [htrim]
      rfl
  | quoted quote content h =>
      have hends : startsAndEnds quote (quote :: (content ++ [quote])) = true := by
        simp [startsAndEnds, List.getLast?_cons]
      rw [parseToken_of_not_keyword vars htrim (by simp [Operand.text])
        (quoted_not_keyword h.isQuote _)]
      have hstring : (startsAndEnds doubleQuote (quote :: (content ++ [quote])) ||
          startsAndEnds singleQuote (quote :: (content ++ [quote]))) = true := by
        have hquote := h.isQuote
        simp only [isQuote, Bool.or_eq_true, beq_iff_eq] at hquote
        rcases hquote with rfl | rfl
        · simp [hends]
        · simp [hends]
      simp only [Operand.text, js.number_quoted quote _ h.isQuote, hstring, if_true]
      simp [Operand.value]

theorem evaluate_body {body : Body js} (h : body.Clear) (depth : Nat) :
    evaluate js vars (depth + 1) body.text = body.value vars := by
  have htrim : trim isJsSpace body.text = body.text := by
    have hgap := trim_append Gap.empty.blank Gap.empty.blank body.bounded.ne_nil
      (fun c hc => (body.bounded.head c hc).1) (fun c hc => (body.bounded.last c hc).1)
    simpa [Gap.empty] using hgap
  have hbang : ['!'].isPrefixOf body.text = false := by
    obtain ⟨c, tail, htext⟩ := List.exists_cons_of_ne_nil body.bounded.ne_nil
    have hc := (body.bounded.head c (by rw [htext]; rfl)).2
    have hne : '!' ≠ c := by
      rintro rfl
      revert hc
      decide
    simp [htext, List.isPrefixOf, hne]
  have hread := body.clear_iff.mpr h
  simp only [evaluate, htrim, body.bounded.ne_nil, if_false, (body.passes .and).split,
    (body.passes .or).split, List.length_singleton, Nat.lt_irrefl, hbang, Bool.false_and,
    Bool.false_eq_true, hread]
  cases body with
  | single operand => simp [Body.parts, Body.text, Body.value, parseToken_operand]
  | comparison left before op after right =>
      simp [Body.parts, Body.value, parseToken_operand]

theorem evaluate_congr {text other : List Char} (h : trim isJsSpace text = trim isJsSpace other)
    (depth : Nat) : evaluate js vars depth text = evaluate js vars depth other := by
  cases depth with
  | zero => rfl
  | succ depth => simp only [evaluate, h]

theorem evaluate_clause {clause : Clause js} (h : clause.body.Clear) (depth : Nat)
    {text : List Char} (htext : Surrounds clause.core text) :
    evaluate js vars (depth + 2) text = clause.value vars := by
  have hself : trim isJsSpace clause.core = clause.core :=
    trim_surrounds ⟨Gap.empty, Gap.empty, by simp [Gap.empty]⟩
  rw [evaluate_congr vars ((trim_surrounds htext).trans hself.symm)]
  cases hnegated : clause.negated with
  | none =>
      have hcore : clause.core = clause.body.text := by simp [Clause.core, hnegated]
      rw [hcore, evaluate_body vars h]
      simp [Clause.value, hnegated]
  | some gap =>
      have hcore : clause.core = '!' :: (gap.chars ++ clause.body.text) := by
        simp [Clause.core, hnegated]
      -- what follows the `!` is white space or the body, so it is not `!=`
      have hnext : ['!', '='].isPrefixOf clause.core = false := by
        rw [hcore]
        cases hgap : gap.chars with
        | nil =>
            obtain ⟨c, tail, hbody⟩ := List.exists_cons_of_ne_nil clause.body.bounded.ne_nil
            have hc := (clause.body.bounded.head c (by rw [hbody]; rfl)).2
            have hne : '=' ≠ c := by
              rintro rfl
              revert hc
              decide
            simp [hbody, List.isPrefixOf, hne]
        | cons c chars =>
            have hc := gap.blank c (by simp [hgap])
            have hne : '=' ≠ c := by
              rintro rfl
              revert hc
              decide
            simp [List.isPrefixOf, hne]
      have hbang : ['!'].isPrefixOf clause.core = true := by
        rw [hcore]
        rfl
      have hdrop : evaluate js vars (depth + 1) (clause.core.drop 1) = clause.body.value vars := by
        rw [← evaluate_body vars h depth]
        apply evaluate_congr
        have hbody := trim_append gap.blank Gap.empty.blank clause.body.bounded.ne_nil
          (fun c hc => (clause.body.bounded.head c hc).1)
          (fun c hc => (clause.body.bounded.last c hc).1)
        have hplain := trim_append Gap.empty.blank Gap.empty.blank clause.body.bounded.ne_nil
          (fun c hc => (clause.body.bounded.head c hc).1)
          (fun c hc => (clause.body.bounded.last c hc).1)
        simp only [Gap.empty, List.nil_append, List.append_nil] at hbody hplain
        rw [hcore, List.drop_one, List.tail_cons, hbody, hplain]
      rw [evaluate]
      simp only [hself, clause.core_ne_nil, if_false, (clause.passes .and).split,
        (clause.passes .or).split, List.length_singleton, Nat.lt_irrefl, hbang, hnext,
        Bool.not_false, Bool.and_self, if_true, hdrop]
      simp [Clause.value, hnegated]

theorem evaluate_parts {clauses : List (Clause js)} {parts : List (List Char)}
    (hparts : List.Forall₂ (fun clause text => Surrounds clause.core text) clauses parts)
    (h : ∀ clause ∈ clauses, clause.body.Clear) (depth : Nat) :
    parts.all (evaluate js vars (depth + 2)) = clauses.all (·.value vars) ∧
      parts.any (evaluate js vars (depth + 2)) = clauses.any (·.value vars) := by
  induction hparts with
  | nil => exact ⟨rfl, rfl⟩
  | @cons clause text clauses parts hpart _ ih =>
      obtain ⟨hall, hany⟩ := ih (fun other hother => h other (by simp [hother]))
      have hclause := evaluate_clause vars (h clause (by simp)) depth hpart
      simp only [List.all_cons, List.any_cons, hclause, hall, hany]
      exact ⟨trivial, trivial⟩

theorem length_text_pos : 0 < clause.text.length := by
  have hcore := List.length_pos_iff.mpr clause.core_ne_nil
  simp only [Clause.text, List.length_append]
  omega

/-- An expression whose clauses are clear evaluates to its value. -/
theorem evaluateCondition_of_clear (e : Expression js)
    (h : ∀ clause ∈ e.clauses, clause.body.Clear) :
    evaluateCondition js vars e.text = e.value vars := by
  have hsplit := split_expression e
  have hne : trim isJsSpace e.text ≠ [] := by
    rw [trim_expression]
    exact innerText_ne_nil _ _ _
  obtain ⟨op, first, rest⟩ := e
  cases rest with
  | nil =>
      obtain ⟨depth, hdepth⟩ := Nat.exists_eq_add_of_le' (length_text_pos first)
      have htext : (Expression.mk op first []).text = first.text := rfl
      have hclause := evaluate_clause vars (h first (by simp [Expression.clauses])) depth
        first.surrounds
      rw [evaluateCondition, htext, hdepth, hclause]
      cases op <;> simp [Expression.value, Expression.clauses]
  | cons next rest =>
      have hlong : 2 ≤ (Expression.mk op first (next :: rest)).text.length := by
        have hop : op.text.length = 2 := by cases op <;> rfl
        simp only [Expression.text, joinClauses, List.length_append, hop]
        omega
      obtain ⟨depth, hdepth⟩ := Nat.exists_eq_add_of_le' hlong
      have hparts := evaluate_parts vars hsplit h depth
      have hlength : 1 < (splitOnLogicalOp (trim isJsSpace
          (Expression.mk op first (next :: rest)).text) op).length := by
        rw [← hsplit.length_eq]
        simp [Expression.clauses]
      rw [evaluateCondition, hdepth, evaluate]
      cases op with
      | and =>
          simp only [hne, if_false, hlength, if_true]
          exact hparts.1
      | or =>
          have hand : splitOnLogicalOp (trim isJsSpace
              (Expression.mk LogicalOp.or first (next :: rest)).text) .and =
                [trim isJsSpace (Expression.mk LogicalOp.or first (next :: rest)).text] := by
            apply Passes.split
            rw [trim_expression]
            exact passes_innerText (by simp) _ _
          simp only [hne, if_false, hand, List.length_singleton, Nat.lt_irrefl, hlength, if_true]
          exact hparts.2

end Value

/-! ### A string that holds an operator -/

def stringValues : JsValues (Option (List Char)) where
  undefined := none
  null := none
  bool b := some (if b then ['t'] else [])
  string := some
  number _ := none
  truthy value := value.any (· ≠ [])
  isObject _ := false
  property _ _ := none
  strictEq a b := a == b
  looseEq a b := a == b
  lessThan _ _ := false
  atMost _ _ := false
  number_quoted _ _ _ := rfl

/-- The string `"a>b"` on its own. -/
def quotedComparison : Expression stringValues :=
  ⟨.and, ⟨Gap.empty, none,
    .single (.quoted doubleQuote ['a', '>', 'b'] ⟨by simp [isQuote, doubleQuote], by simp [doubleQuote, backslash]⟩), Gap.empty⟩, []⟩

end Qontinui.Conditions
