import Mathlib.Data.List.Infix
import Qontinui.Base.DepthFirst

/-!
The chains of a directed graph in the order in which a depth-first search would try them. A
search that enters each node once enters it along the first of its chains, and a chain that
comes back to itself is met as the closing of a first chain.

Chains are lists with their last node first.
-/

namespace Qontinui.FirstChains

open DepthFirst

variable {α : Type*} (starts : List α) (next : α → List α)

def choices : List α → List α
  | [] => starts
  | v :: _ => next v

/-- A chain goes from a start from node to node and meets none of them twice. -/
inductive Chain : List α → Prop
  | nil : Chain []
  | cons {v : α} {p : List α} (choice : v ∈ choices starts next p) (fresh : v ∉ p)
      (rest : Chain p) : Chain (v :: p)

/-- One item stands in a list before another. -/
def Precedes (items : List α) (b a : α) : Prop := ∃ l r, items = l ++ a :: r ∧ b ∈ l

/-- Where two chains part, the first goes on with the earlier choice. -/
def Before (q : List α) : List α → Prop
  | [] => False
  | a :: p => Before q p ∨ ∃ b, Precedes (choices starts next p) b a ∧ b :: p <:+ q

/-- No chain to the same node comes before this one. -/
structure FirstChain (p : List α) : Prop where
  chain : Chain starts next p
  first : ∀ v q, Chain starts next (v :: q) → p.head? = some v →
    ¬ Before starts next (v :: q) p

/-- A first chain that goes on with a node it has met. -/
inductive Closing : List α → Prop
  | close {v : α} {p : List α} (first : FirstChain starts next p)
      (choice : v ∈ choices starts next p) (back : v ∈ p) : Closing (v :: p)

variable {starts next}

/-! ### The order of chains -/

theorem precedes_or_precedes {items : List α} {a b : α} (ha : a ∈ items) (hb : b ∈ items)
    (hne : a ≠ b) : Precedes items a b ∨ Precedes items b a := by
  obtain ⟨l, r, rfl⟩ := List.append_of_mem ha
  rcases List.mem_append.mp hb with hb | hb
  · exact .inr ⟨l, r, rfl, hb⟩
  · obtain ⟨l', r', rfl⟩ := List.append_of_mem ((List.mem_cons.mp hb).resolve_left hne.symm)
    exact .inl ⟨l ++ a :: l', r', by simp, by simp⟩

theorem precedes_iff {done rest : List α} {a b : α} (hnodup : (done ++ a :: rest).Nodup) :
    Precedes (done ++ a :: rest) b a ↔ b ∈ done := by
  constructor
  · rintro ⟨l, r, heq, hb⟩
    have hnot : a ∉ done := fun ha =>
      (List.nodup_append.mp hnodup).2.2 a ha a List.mem_cons_self rfl
    have hnot' : a ∉ l := fun ha =>
      (List.nodup_append.mp (heq ▸ hnodup)).2.2 a ha a List.mem_cons_self rfl
    rcases List.append_eq_append_iff.mp heq with ⟨m, rfl, hm⟩ | ⟨m, rfl, hm⟩
    · cases m with
      | nil => simpa using hb
      | cons x m =>
          rw [List.cons_append] at hm
          cases hm
          exact absurd (by simp) hnot'
    · cases m with
      | nil => simpa using hb
      | cons x m => exact List.mem_append_left _ hb
  · exact fun hb => ⟨done, rest, rfl, hb⟩

variable {p q : List α}

theorem Before.extend_left {q' : List α} (h : Before starts next q p) (hq : q <:+ q') :
    Before starts next q' p := by
  induction p with
  | nil => exact h
  | cons a p ih =>
      rcases h with h | ⟨b, hb, hsuffix⟩
      · exact .inl (ih h)
      · exact .inr ⟨b, hb, hsuffix.trans hq⟩

theorem Before.extend_right {p' : List α} (h : Before starts next q p) (hp : p <:+ p') :
    Before starts next q p' := by
  induction p' with
  | nil => exact List.suffix_nil.mp hp ▸ h
  | cons a p' ih =>
      rcases List.suffix_cons_iff.mp hp with rfl | hp
      · exact h
      · exact .inl (ih hp)

theorem Before.cut {r : List α} (h : Before starts next q p) (hr : r <:+ q) :
    Before starts next r p ∨ r <:+ p := by
  induction p with
  | nil => cases h
  | cons a p ih =>
      rcases h with h | ⟨b, hb, hsuffix⟩
      · rcases ih h with h | h
        · exact .inl (.inl h)
        · exact .inr (h.trans (List.suffix_cons a p))
      · rcases List.suffix_or_suffix_of_suffix hr hsuffix with hr | hr
        · rcases List.suffix_cons_iff.mp hr with rfl | hr
          · exact .inl (.inr ⟨b, hb, List.suffix_refl _⟩)
          · exact .inr (hr.trans (List.suffix_cons a p))
        · exact .inl (.inr ⟨b, hb, hr⟩)

/-! ### Chains -/

theorem Chain.nodup (h : Chain starts next p) : p.Nodup := by
  induction h with
  | nil => exact List.nodup_nil
  | cons _ fresh _ ih => exact List.nodup_cons.mpr ⟨fresh, ih⟩

theorem Chain.of_suffix (h : Chain starts next p) (hq : q <:+ p) : Chain starts next q := by
  induction h with
  | nil => exact List.suffix_nil.mp hq ▸ .nil
  | cons choice fresh rest ih =>
      rcases List.suffix_cons_iff.mp hq with rfl | hq
      · exact .cons choice fresh rest
      · exact ih hq

theorem Chain.compare (hp : Chain starts next p) (hq : Chain starts next q) :
    Before starts next p q ∨ Before starts next q p ∨ p <:+ q ∨ q <:+ p := by
  induction hp with
  | nil => exact .inr (.inr (.inl (List.nil_suffix)))
  | @cons a p choice fresh rest ih =>
      rcases ih with h | h | h | h
      · exact .inl (h.extend_left (List.suffix_cons a p))
      · exact .inr (.inl (h.extend_right (List.suffix_cons a p)))
      · obtain ⟨e, rfl⟩ := h
        rcases List.eq_nil_or_concat e with rfl | ⟨e, b, rfl⟩
        · exact .inr (.inr (.inr (List.suffix_cons a p)))
        · have hsuffix : b :: p <:+ e.concat b ++ p := ⟨e, by simp⟩
          cases hq.of_suffix hsuffix with
          | cons hb _ _ =>
              by_cases hab : a = b
              · subst hab
                exact .inr (.inr (.inl hsuffix))
              · rcases precedes_or_precedes choice hb hab with h | h
                · have hless : Before starts next (a :: p) (b :: p) :=
                    Or.inr ⟨a, h, List.suffix_refl _⟩
                  exact .inl (hless.extend_right hsuffix)
                · exact .inr (.inl (.inr ⟨b, h, hsuffix⟩))
      · exact .inr (.inr (.inr (h.trans (List.suffix_cons a p))))

theorem Chain.reaches {w : α} (h : Chain starts next (w :: p)) {v : α} (hv : v ∈ w :: p) :
    Reaches next v w := by
  induction p generalizing w with
  | nil =>
      cases List.mem_singleton.mp hv
      exact .refl
  | cons u p ih =>
      cases h with
      | cons choice _ rest =>
          rcases List.mem_cons.mp hv with rfl | hv
          · exact .refl
          · exact (ih rest hv).tail choice

/-- Where one chain to a node comes before another, whatever the second leads on to has a chain
that comes before it too. -/
theorem exists_before {v : α} (hq : Chain starts next (v :: q))
    (hbefore : Before starts next (v :: q) (v :: p)) {e : List α}
    (hchain : Chain starts next (e ++ v :: p)) {w : α} (hw : (e ++ v :: p).head? = some w) :
    ∃ r, Chain starts next (w :: r) ∧ Before starts next (w :: r) (v :: p) := by
  induction e generalizing w with
  | nil =>
      cases hw
      exact ⟨q, hq, hbefore⟩
  | cons x e ih =>
      cases hw
      cases hchain with
      | cons choice fresh rest =>
          obtain ⟨u, hu⟩ : ∃ u, (e ++ v :: p).head? = some u := by
            cases e with
            | nil => exact ⟨v, rfl⟩
            | cons u e => exact ⟨u, rfl⟩
          obtain ⟨r, hr, hless⟩ := ih rest hu
          have hchoices : choices starts next (e ++ v :: p) = next u := by
            cases e with
            | nil | cons =>
                cases hu
                rfl
          by_cases hx : x ∈ u :: r
          · -- the earlier chain has met `x` already
            obtain ⟨l, r', heq⟩ := List.append_of_mem hx
            have hsuffix : x :: r' <:+ u :: r := ⟨l, heq.symm⟩
            refine ⟨r', hr.of_suffix hsuffix, (hless.cut hsuffix).resolve_right fun hcut => ?_⟩
            exact fresh (List.mem_append_right _ (hcut.subset List.mem_cons_self))
          · have hnext : x ∈ choices starts next (e ++ v :: p) := choice
            rw [hchoices] at hnext
            exact ⟨u :: r, .cons hnext hx hr, hless.extend_left (List.suffix_cons x (u :: r))⟩

/-! ### First chains -/

theorem FirstChain.of_suffix {p q : List α} (h : FirstChain starts next p) (hq : q <:+ p) :
    FirstChain starts next q := by
  refine ⟨h.chain.of_suffix hq, fun v r hr hhead hbefore => ?_⟩
  cases q with
  | nil => cases hhead
  | cons _ q =>
      cases hhead
      obtain ⟨e, rfl⟩ := hq
      obtain ⟨w, hw⟩ : ∃ w, (e ++ v :: q).head? = some w := by
        cases e with
        | nil => exact ⟨v, rfl⟩
        | cons w e => exact ⟨w, rfl⟩
      obtain ⟨s, hs, hless⟩ := exists_before hr hbefore h.chain hw
      exact h.first w s hs hw (hless.extend_right ⟨e, rfl⟩)

theorem FirstChain.unique {v : α} (hp : FirstChain starts next (v :: p))
    (hq : FirstChain starts next (v :: q)) : p = q := by
  have hnot : ∀ {p q : List α}, Chain starts next (v :: q) → v :: p <:+ v :: q → p = q := by
    intro p q hchain hsuffix
    rcases List.suffix_cons_iff.mp hsuffix with heq | hsuffix
    · exact (List.cons.inj heq).2
    · exact absurd (hsuffix.subset List.mem_cons_self) (List.nodup_cons.mp hchain.nodup).1
  rcases hp.chain.compare hq.chain with h | h | h | h
  · exact absurd h (hq.first v p hp.chain rfl)
  · exact absurd h (hp.first v q hq.chain rfl)
  · exact hnot hq.chain h
  · exact (hnot hp.chain h).symm

/-! ### Closings -/

theorem Closing.first {v : α} {p : List α} (h : Closing starts next (v :: p)) :
    FirstChain starts next p := by
  cases h with
  | close first _ _ => exact first

theorem Closing.back {v : α} {p : List α} (h : Closing starts next (v :: p)) : v ∈ p := by
  cases h with
  | close _ _ back => exact back

theorem Closing.not_suffix {c : List α} (h : Closing starts next c) (hp : Chain starts next p) :
    ¬ c <:+ p := by
  intro hc
  cases h with
  | close _ _ back => exact (List.nodup_cons.mp (hp.of_suffix hc).nodup).1 back

theorem Closing.suffix_cases {c d : List α} (h : Closing starts next d) (hc : c <:+ d) :
    c = d ∨ c = [] ∨ FirstChain starts next c := by
  cases h with
  | close first _ _ =>
      rcases List.suffix_cons_iff.mp hc with rfl | hc
      · exact .inl rfl
      · exact .inr (.inr (first.of_suffix hc))

section Kept

variable {κ : Type*}

/-- No closing that comes before this one has the same key. -/
structure Kept (starts : List α) (next : α → List α) (key : List α → κ) (c : List α) : Prop where
  closing : Closing starts next c
  new : ∀ d, Closing starts next d → Before starts next d c → key d ≠ key c

variable {key : List α → κ}

variable (key) in
/-- Where every edge on a cycle leads on along first chains, or back by a kept closing, some kept
closing comes back from behind such an edge to before it. -/
theorem exists_kept_over {a b : α} {p : List α} (hfirst : FirstChain starts next (b :: a :: p))
    (hback : Reaches next b a)
    (hcovered : ∀ x y, y ∈ next x → Reaches next y x →
      (∃ q, FirstChain starts next (y :: x :: q)) ∨ (∃ q, Kept starts next key (y :: x :: q)) ∨
        x = y) :
    ∃ v q, Kept starts next key (v :: q) ∧ b :: a :: p <:+ q ∧ v ∈ a :: p := by
  have hab : b ∈ next a := by
    cases hfirst.chain with
    | cons choice _ _ => exact choice
  have hprefix : FirstChain starts next (a :: p) := hfirst.of_suffix (List.suffix_cons b (a :: p))
  by_contra hnone
  -- every node on the way back would lie on a first chain that goes on from `b`
  suffices hall : ∀ x, Reaches next b x →
      Reaches next x a →
      ∃ q, FirstChain starts next (x :: q) ∧ b :: a :: p <:+ x :: q by
    obtain ⟨q, hq, hsuffix⟩ := hall a hback .refl
    rw [hq.unique hprefix] at hsuffix
    have hle := hsuffix.length_le
    simp only [List.length_cons] at hle
    omega
  intro x hx
  induction hx with
  | refl => exact fun _ => ⟨a :: p, hfirst, List.suffix_refl _⟩
  | @tail x y hbx hxy ih =>
      intro hya
      obtain ⟨q, hq, hsuffix⟩ := ih (.head hxy hya)
      have hcycle : Reaches next y x :=
        hya.trans (.head hab hbx)
      rcases hcovered x y hxy hcycle with ⟨q', hq'⟩ | ⟨q', hkept⟩ | rfl
      · refine ⟨x :: q', hq', ?_⟩
        rw [(hq'.of_suffix (List.suffix_cons y (x :: q'))).unique hq]
        exact hsuffix.trans (List.suffix_cons y (x :: q))
      · rw [hkept.closing.first.unique hq] at hkept
        obtain ⟨l, r, heq⟩ := List.append_of_mem hkept.closing.back
        have hy : y :: r <:+ x :: q := ⟨l, heq.symm⟩
        rcases List.suffix_or_suffix_of_suffix hy hsuffix with hle | hle
        · rcases List.suffix_cons_iff.mp hle with heq' | hle
          · exact ⟨r, hq.of_suffix hy, heq' ▸ List.suffix_refl _⟩
          · exact absurd ⟨y, x :: q, hkept, hsuffix, hle.subset List.mem_cons_self⟩ hnone
        · exact ⟨r, hq.of_suffix hy, hle⟩
      · exact ⟨q, hq, hsuffix⟩

end Kept

end Qontinui.FirstChains
