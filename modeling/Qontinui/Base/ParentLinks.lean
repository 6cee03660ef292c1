import Mathlib.Algebra.Order.BigOperators.Group.List
import Mathlib.Algebra.Order.Ring.Nat
import Mathlib.Tactic.SplitIfs

/-!
Nodes that link to at most one parent each. A ranking that falls along every link rules out
cycles; it survives when a link is dropped, when a node is put under one that is not below
it, and when the links of some nodes are added under those of others.
-/

namespace Qontinui.ParentLinks

variable {α : Type*} {up up' : α → Option α}

/-- Following `n` links from the first node leads to the second. -/
inductive Climbs (up : α → Option α) : Nat → α → α → Prop
  | here (x : α) : Climbs up 0 x x
  | link {n : Nat} {x y z : α} (h : up x = some y) (rest : Climbs up n y z) :
      Climbs up (n + 1) x z

namespace Climbs

variable {x y : α} {n : Nat}

theorem single (h : up x = some y) : Climbs up 1 x y := .link h (.here y)

theorem zero_eq (h : Climbs up 0 x y) : x = y := by
  cases h
  rfl

theorem eq_of_root (h : Climbs up n x y) (hroot : up x = none) : x = y := by
  cases h with
  | here => rfl
  | link hup _ => cases hroot.symm.trans hup

theorem eq_of_self (h : Climbs up n x y) (hself : up x = some x) : y = x := by
  induction h with
  | here => rfl
  | link hup _ ih =>
      cases hself.symm.trans hup
      exact ih hself

variable {z : α}

theorem trans {m : Nat} (h : Climbs up m x y) (h' : Climbs up n y z) : Climbs up (m + n) x z := by
  induction h with
  | here x => simpa using h'
  | link hup _ ih =>
      rw [Nat.succ_add]
      exact .link hup (ih h')

theorem last (h : Climbs up (n + 1) x z) : ∃ y, Climbs up n x y ∧ up y = some z := by
  induction n generalizing x with
  | zero =>
      cases h with
      | link hup rest =>
          cases rest
          exact ⟨x, .here x, hup⟩
  | succ n ih =>
      cases h with
      | link hup rest =>
          obtain ⟨y, hy, hlast⟩ := ih rest
          exact ⟨y, .link hup hy, hlast⟩

theorem linear {m : Nat} (h : Climbs up m x y) (h' : Climbs up (m + n) x z) : Climbs up n y z := by
  induction h with
  | here x => simpa using h'
  | link hup _ ih =>
      rw [Nat.succ_add] at h'
      cases h' with
      | link hup' rest =>
          cases hup.symm.trans hup'
          exact ih rest

theorem congr (h : Climbs up n x z) (hagree : ∀ m y, m < n → Climbs up m x y → up' y = up y) :
    Climbs up' n x z := by
  induction h with
  | here x => exact .here x
  | link hup _ ih =>
      refine .link ((hagree 0 _ (Nat.succ_pos _) (.here _)).trans hup) (ih ?_)
      intro m y hm hy
      exact hagree (m + 1) y (Nat.succ_lt_succ hm) (.link hup hy)

theorem mono (h : Climbs up n x z) (hsub : ∀ x y, up x = some y → up' x = some y) :
    Climbs up' n x z := by
  induction h with
  | here x => exact .here x
  | link hup _ ih => exact .link (hsub _ _ hup) ih

theorem le_of_root {m : Nat} {root : α} (h : Climbs up n x y) (htop : Climbs up m x root)
    (hroot : up root = none) : n ≤ m := by
  rcases Nat.lt_or_ge m n with hlt | hle
  · obtain ⟨k, rfl⟩ := Nat.exists_eq_add_of_lt hlt
    rw [Nat.add_assoc] at h
    cases htop.linear h with
    | link hup _ => cases hroot.symm.trans hup
  · exact hle

theorem through_changed (h : Climbs up' n y z) (hother : ∀ y, y ≠ x → up' y = up y) :
    Climbs up n y z ∨ ∃ j i, n = j + (i + 1) ∧ Climbs up j y x ∧ Climbs up' (i + 1) x z := by
  induction h with
  | here y => exact .inl (.here y)
  | @link n y w z hup rest ih =>
      by_cases hy : y = x
      · subst hy
        exact .inr ⟨0, n, (Nat.zero_add _).symm, .here y, .link hup rest⟩
      · have hup' : up y = some w := (hother y hy).symm.trans hup
        rcases ih with hold | ⟨j, i, rfl, hbelow, habove⟩
        · exact .inl (.link hup' hold)
        · exact .inr ⟨j + 1, i, by omega, .link hup' hbelow, habove⟩

end Climbs

/-! ### Rankings -/

/-- Every link leads to a node of a lower rank. -/
def Ranked (up : α → Option α) : Prop := ∃ rank : α → Nat, ∀ x y, up x = some y → rank y < rank x

theorem rank_add_le {rank : α → Nat} (hrank : ∀ x y, up x = some y → rank y < rank x) {n : Nat}
    {x y : α} (h : Climbs up n x y) : rank y + n ≤ rank x := by
  induction h with
  | here x => exact Nat.le_refl _
  | link hup _ ih =>
      have hlt := hrank _ _ hup
      omega

section

variable (h : Ranked up)
include h

theorem Ranked.no_cycle {n : Nat} {x : α} : ¬Climbs up (n + 1) x x := by
  obtain ⟨rank, hrank⟩ := h
  intro hcycle
  have hle := rank_add_le hrank hcycle
  omega

theorem Ranked.mono (hsub : ∀ x y, up' x = some y → up x = some y) : Ranked up' := by
  obtain ⟨rank, hrank⟩ := h
  exact ⟨rank, fun x y hxy => hrank x y (hsub x y hxy)⟩

/-- A node may be put under any node that is not below it. -/
theorem Ranked.reparent {x : α} {parent : Option α} (hx : up' x = parent)
    (hother : ∀ y, y ≠ x → up' y = up y) (hparent : ∀ p, parent = some p → ∀ n, ¬Climbs up n p x) :
    Ranked up' := by
  classical
  obtain ⟨rank, hrank⟩ := h
  cases hp : parent with
  | none =>
      refine ⟨rank, fun y z hyz => ?_⟩
      by_cases hy : y = x
      · rw [hy, hx, hp] at hyz
        cases hyz
      · rw [hother y hy] at hyz
        exact hrank y z hyz
  | some p =>
      -- the nodes below `x` are lifted above the new parent
      refine ⟨fun y => if ∃ n, Climbs up n y x then rank y + rank p + 1 else rank y, ?_⟩
      intro y z hyz
      have hpx : ¬∃ n, Climbs up n p x := by
        rintro ⟨n, hn⟩
        exact hparent p hp n hn
      by_cases hy : y = x
      · subst hy
        rw [hx, hp] at hyz
        cases hyz
        have hself : ∃ n, Climbs up n y y := ⟨0, .here y⟩
        simp only [if_neg hpx, if_pos hself]
        omega
      · rw [hother y hy] at hyz
        have hlt := hrank y z hyz
        have hiff : (∃ n, Climbs up n y x) ↔ ∃ n, Climbs up n z x := by
          constructor
          · rintro ⟨n, hn⟩
            cases hn with
            | here => exact absurd rfl hy
            | link hup rest =>
                cases hyz.symm.trans hup
                exact ⟨_, rest⟩
          · rintro ⟨n, hn⟩
            exact ⟨n + 1, .link hyz hn⟩
        simp only [hiff]
        split_ifs <;> omega

theorem Ranked.below_iff {x z : α} (hother : ∀ y, y ≠ x → up' y = up y)
    (hold : ∀ p n, up x = some p → ¬Climbs up' n p z)
    (hnew : ∀ p n, up' x = some p → ¬Climbs up' n p z) (y : α) :
    (∃ n, Climbs up' (n + 1) y z) ↔ ∃ n, Climbs up (n + 1) y z := by
  constructor
  · rintro ⟨n, hclimbs⟩
    rcases hclimbs.through_changed hother with hsame | ⟨_, i, _, _, habove⟩
    · exact ⟨n, hsame⟩
    · cases habove with
      | link hup rest => exact absurd rest (hnew _ i hup)
  · rintro ⟨n, hclimbs⟩
    rcases hclimbs.through_changed fun y hy => (hother y hy).symm with
      hsame | ⟨_, i, _, _, habove⟩
    · exact ⟨n, hsame⟩
    · cases habove with
      | link hup rest =>
          -- the way up from the old parent does not come back to `x`
          refine absurd (rest.congr fun m w _ hw => hother w ?_) (hold _ i hup)
          rintro rfl
          exact h.no_cycle (.link hup hw)

theorem Ranked.extend {added : α → Option α} (hadded : Ranked added) {nodes : List α}
    (hold : ∀ x ∈ nodes, ∀ y, up' x = some y → y ∈ nodes ∧ up x = some y)
    (hnew : ∀ x ∉ nodes, ∀ y, up' x = some y → y ∈ nodes ∨ added x = some y) : Ranked up' := by
  classical
  obtain ⟨rank, hrank⟩ := h
  obtain ⟨rank', hrank'⟩ := hadded
  have hbound : ∃ bound, ∀ x ∈ nodes, rank x ≤ bound := by
    refine ⟨(nodes.map rank).sum, fun x hx => ?_⟩
    exact List.single_le_sum (fun _ _ => Nat.zero_le _) _ (List.mem_map_of_mem hx)
  obtain ⟨bound, hbound⟩ := hbound
  refine ⟨fun x => if x ∈ nodes then rank x else rank' x + bound + 1, ?_⟩
  intro x y hxy
  by_cases hx : x ∈ nodes
  · obtain ⟨hy, hup⟩ := hold x hx y hxy
    simpa only [if_pos hx, if_pos hy] using hrank x y hup
  · by_cases hy : y ∈ nodes
    · have hle := hbound y hy
      simp only [if_neg hx, if_pos hy]
      omega
    · have hup := (hnew x hx y hxy).resolve_left hy
      have hlt := hrank' x y hup
      simp only [if_neg hx, if_neg hy]
      omega

end

end Qontinui.ParentLinks
