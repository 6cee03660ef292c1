import Mathlib.Data.List.Induction
import Qontinui.Base.Fields
import Qontinui.Base.Runs

/-!
A cache in front of a computation: an answer worth keeping is written under a
key computed from its input, and a later input with the same key finds it. What
the cache holds after any sequence of inputs is said by two rules.
-/

namespace Qontinui.Memo

variable {α β κ : Type*} [DecidableEq κ] (key : α → κ) (keep : α → Option β)

/-- The cache after an input: a hit leaves it alone, a miss writes what is worth keeping. -/
def remember (cache : List (κ × β)) (input : α) : List (κ × β) :=
  match cache.lookup (key input), keep input with
  | none, some answer => Fields.set (key input) answer cache
  | _, _ => cache

theorem lookup_remember (cache : List (κ × β)) (input : α) (k : κ) :
    (remember key keep cache input).lookup k =
      if k = key input then (cache.lookup k).or (keep input) else cache.lookup k := by
  unfold remember
  by_cases hk : k = key input
  · subst hk
    cases hhit : cache.lookup (key input) <;> cases hkeep : keep input <;> simp [hhit]
  · cases hhit : cache.lookup (key input) <;> cases hkeep : keep input <;>
      simp [hk, Fields.lookup_set_ne hk]

def cacheAfter (inputs : List α) : List (κ × β) := Runs.run (remember key keep) [] inputs

theorem cacheAfter_concat (inputs : List α) (input : α) :
    cacheAfter key keep (inputs ++ [input]) = remember key keep (cacheAfter key keep inputs) input :=
  Runs.run_concat (remember key keep) [] inputs input

theorem lookup_cacheAfter (inputs : List α) (k : κ) :
    (cacheAfter key keep inputs).lookup k =
      (inputs.find? fun input => decide (key input = k) && (keep input).isSome).bind keep := by
  induction inputs using List.reverseRecOn with
  | nil => rfl
  | append_singleton inputs input ih =>
      rw [cacheAfter_concat, lookup_remember, ih, List.find?_append]
      cases hfirst : inputs.find? fun input => decide (key input = k) && (keep input).isSome with
      | some first =>
          have hkept := List.find?_some hfirst
          simp only [Bool.and_eq_true] at hkept
          obtain ⟨answer, hanswer⟩ := Option.isSome_iff_exists.mp hkept.2
          simp [hanswer]
      | none =>
          by_cases hk : k = key input
          · cases hkeep : keep input <;> simp [hk, hkeep]
          · simp [hk, Ne.symm hk]

theorem kept_of_lookup {inputs : List α} {k : κ} {answer : β}
    (h : (cacheAfter key keep inputs).lookup k = some answer) :
    ∃ input ∈ inputs, key input = k ∧ keep input = some answer := by
  rw [lookup_cacheAfter] at h
  obtain ⟨input, hfirst, hkeep⟩ := Option.bind_eq_some_iff.mp h
  have hkey := List.find?_some hfirst
  simp only [Bool.and_eq_true, decide_eq_true_eq] at hkey
  exact ⟨input, List.mem_of_find?_eq_some hfirst, hkey.1, hkeep⟩

/-- Among the inputs with a key whose answers are worth keeping there is a first, and what
was kept for it is found by all the others. -/
theorem exists_first {inputs : List α} {k : κ}
    (h : ∃ input ∈ inputs, key input = k ∧ (keep input).isSome = true) :
    ∃ first, key first = k ∧ (keep first).isSome = true ∧ ∀ input ∈ inputs, key input = k →
      (keep input).isSome = true → input = first ∨
        ∃ front, front ++ [input] <+: inputs ∧
          (cacheAfter key keep front).lookup k = keep first := by
  obtain ⟨other, hmem, hkey, hkept⟩ := h
  have hfound : (inputs.find? fun input =>
      decide (key input = k) && (keep input).isSome).isSome = true := by
    rw [List.find?_isSome]
    exact ⟨other, hmem, by simp [hkey, hkept]⟩
  obtain ⟨first, hfirst⟩ := Option.isSome_iff_exists.mp hfound
  obtain ⟨hproperty, before, after, rfl, hbefore⟩ := List.find?_eq_some_iff_append.mp hfirst
  simp only [Bool.and_eq_true, decide_eq_true_eq] at hproperty
  refine ⟨first, hproperty.1, hproperty.2, ?_⟩
  intro input hinput hinputkey hinputkept
  rcases List.mem_append.mp hinput with hearly | hlate
  · have := hbefore input hearly
    simp [hinputkey, hinputkept] at this
  · rcases List.mem_cons.mp hlate with heq | hlater
    · exact Or.inl heq
    · right
      obtain ⟨between, rest, rfl⟩ := List.append_of_mem hlater
      refine ⟨before ++ first :: between, ⟨rest, by simp⟩, ?_⟩
      rw [lookup_cacheAfter, List.find?_append]
      have hnone : before.find? (fun input =>
          decide (key input = k) && (keep input).isSome) = none := by
        rw [List.find?_eq_none]
        intro early hearly
        simpa [imp_iff_not_or] using hbefore early hearly
      simp [hnone, hproperty.1, hproperty.2]

end Qontinui.Memo
