import Mathlib.Data.List.Infix
import Mathlib.Data.List.DropRight

/-!
Substrings of a text: the first occurrence that `String.prototype.indexOf`
finds, where an occurrence can lie in a text made of pieces, and trimming.
-/

namespace Qontinui

variable {α : Type*}

section IndexOf

variable [DecidableEq α]

/-- `text.indexOf(word)`; `none` is `-1`. -/
def indexOf (word : List α) : List α → Option Nat
  | [] => if word = [] then some 0 else none
  | c :: rest =>
      if word <+: c :: rest then some 0 else (indexOf word rest).map (· + 1)

theorem indexOf_eq_none_iff (word text : List α) : indexOf word text = none ↔ ¬ word <:+: text := by
  induction text with
  | nil => simp [indexOf]
  | cons c rest ih =>
      by_cases h : word <+: c :: rest
      · simp [indexOf, h, h.isInfix]
      · simp [indexOf, h, ih, List.infix_cons_iff]

theorem indexOf_append {word front : List α} (rest : List α) (hfront : ¬ word <:+: front)
    (hlast : ∀ c, front.getLast? = some c → c ∉ word) :
    indexOf word (front ++ (word ++ rest)) = some front.length := by
  induction front with
  | nil =>
      cases hrest : word ++ rest with
      | nil => simp_all
      | cons c tail =>
          have hbegin : word <+: c :: tail := ⟨rest, hrest⟩
          simp [indexOf, hbegin]
  | cons c front ih =>
      have hnot : ¬ word <+: c :: (front ++ (word ++ rest)) := by
        intro hbegin
        rcases List.prefix_or_prefix_of_prefix hbegin
          (List.prefix_append (c :: front) (word ++ rest)) with h | h
        · exact hfront h.isInfix
        · have hmem : (c :: front).getLast (by simp) ∈ word :=
            h.subset (List.getLast_mem _)
          exact hlast _ (List.getLast?_eq_some_getLast (by simp)) hmem
      have hrec : indexOf word (front ++ (word ++ rest)) = some front.length := by
        apply ih
        · intro h
          exact hfront (h.trans (List.suffix_cons c front).isInfix)
        · intro d hd
          apply hlast d
          rw [List.getLast?_cons, hd]
          rfl
      simp [indexOf, hnot, hrec]

theorem indexOf_spec {word text : List α} {i : Nat} (h : indexOf word text = some i) :
    word <+: text.drop i ∧ i ≤ text.length ∧ ∀ j < i, ¬ word <+: text.drop j := by
  induction text generalizing i with
  | nil =>
      by_cases hword : word = []
      · simp [indexOf, hword] at h
        subst h
        simp [hword]
      · simp [indexOf, hword] at h
  | cons c rest ih =>
      by_cases hbegin : word <+: c :: rest
      · simp [indexOf, hbegin] at h
        subst h
        simp [hbegin]
      · simp only [indexOf, hbegin, if_false, Option.map_eq_some_iff] at h
        obtain ⟨k, hk, rfl⟩ := h
        obtain ⟨hoccurs, hle, hbefore⟩ := ih hk
        refine ⟨hoccurs, by simpa using hle, ?_⟩
        intro j hj
        cases j with
        | zero => exact hbegin
        | succ j => exact hbefore j (by omega)

end IndexOf

section Pieces

variable {word : List α}

theorem infix_append_cons {front rest : List α} {c : α} (hc : c ∉ word)
    (h : word <:+: front ++ c :: rest) : word <:+: front ∨ word <:+: rest := by
  obtain ⟨before, after, heq⟩ := h
  rw [List.append_assoc] at heq
  rcases List.append_eq_append_iff.mp heq with ⟨gap, hfront, hafter⟩ | ⟨gap, hbefore, hrest⟩
  · rcases List.append_eq_append_iff.mp hafter with ⟨gap', hgap, -⟩ | ⟨gap', hword, hcons⟩
    · left
      exact ⟨before, gap', by rw [hfront, hgap, List.append_assoc]⟩
    · cases gap' with
      | nil =>
          left
          exact ⟨before, [], by simp_all⟩
      | cons d gap' =>
          simp only [List.cons_append, List.cons.injEq] at hcons
          exact absurd (by rw [hword, hcons.1]; simp) hc
  · cases gap with
    | nil =>
        cases word with
        | nil => exact Or.inl (List.nil_infix)
        | cons d word =>
            simp only [List.nil_append, List.cons_append, List.cons.injEq] at hrest
            exact absurd (by rw [hrest.1]; simp) hc
    | cons d gap =>
        simp only [List.cons_append, List.cons.injEq] at hrest
        right
        exact ⟨gap, after, by rw [hrest.2, List.append_assoc]⟩

theorem infix_of_append_quiet {quiet rest : List α} (hword : word ≠ [])
    (hquiet : ∀ c ∈ quiet, c ∉ word) (h : word <:+: quiet ++ rest) : word <:+: rest := by
  induction quiet with
  | nil => exact h
  | cons c quiet ih =>
      apply ih (fun d hd => hquiet d (by simp [hd]))
      rcases @infix_append_cons α word [] (quiet ++ rest) c (hquiet c (by simp)) h with h | h
      · exact absurd (List.infix_nil.mp h) hword
      · exact h

theorem infix_append_quiet {front quiet rest : List α} (hword : word ≠ [])
    (hquiet : ∀ c ∈ quiet, c ∉ word) (hne : quiet ≠ [])
    (h : word <:+: front ++ (quiet ++ rest)) : word <:+: front ∨ word <:+: rest := by
  cases quiet with
  | nil => exact absurd rfl hne
  | cons c quiet =>
      rcases infix_append_cons (hquiet c (by simp)) h with h | h
      · exact Or.inl h
      · exact Or.inr (infix_of_append_quiet hword (fun d hd => hquiet d (by simp [hd])) h)

end Pieces

section Trim

variable (space : α → Bool)

/-- The text without the white space around it. -/
def trim (text : List α) : List α := (text.dropWhile space).rdropWhile space

variable {space}

theorem trim_append {before core after : List α} (hbefore : ∀ c ∈ before, space c = true)
    (hafter : ∀ c ∈ after, space c = true) (hne : core ≠ [])
    (hhead : ∀ c, core.head? = some c → space c = false)
    (hlast : ∀ c, core.getLast? = some c → space c = false) :
    trim space (before ++ (core ++ after)) = core := by
  have hdrop : (before ++ (core ++ after)).dropWhile space = core ++ after := by
    rw [List.dropWhile_append, List.dropWhile_eq_nil_iff.mpr hbefore]
    cases core with
    | nil => exact absurd rfl hne
    | cons c core => simp [hhead c rfl]
  rw [trim, hdrop, List.rdropWhile, List.reverse_append, List.dropWhile_append,
    List.dropWhile_eq_nil_iff.mpr (by simpa using hafter)]
  cases hreverse : core.reverse with
  | nil => simp_all
  | cons c tail =>
      have hc : core.getLast? = some c := by
        rw [← List.head?_reverse, hreverse]
        rfl
      have hback : core = tail.reverse ++ [c] := by
        rw [← List.reverse_reverse core, hreverse]
        simp
      simp [hlast c hc, hback]

theorem mem_dropWhile {text : List α} {c : α} (hc : c ∈ text) (hspace : space c = false) :
    c ∈ text.dropWhile space := by
  rw [← @List.takeWhile_append_dropWhile α space text, List.mem_append] at hc
  rcases hc with htake | hdrop
  · have hskipped := List.mem_takeWhile_imp htake
    simp [hspace] at hskipped
  · exact hdrop

theorem mem_trim {text : List α} {c : α} (hc : c ∈ text) (hspace : space c = false) :
    c ∈ trim space text := by
  rw [trim, List.rdropWhile, List.mem_reverse]
  apply mem_dropWhile _ hspace
  exact List.mem_reverse.mpr (mem_dropWhile hc hspace)

theorem length_trim_le (text : List α) : (trim space text).length ≤ text.length := by
  have h1 := (List.rdropWhile_prefix space (text.dropWhile space)).length_le
  have h2 := (List.dropWhile_suffix space : text.dropWhile space <:+ text).length_le
  exact h1.trans h2

end Trim

end Qontinui
