import Mathlib.Algebra.BigOperators.Group.List.Basic
import Mathlib.Data.List.Forall2

/-!
Programs and loops that may stop with an error: when they return, what each step
preserves, what the steps add up to, and which of them stop with no fault.
-/

namespace Qontinui.FallibleLoops

variable {ε σ α β γ : Type} {f : α → Except ε β} {items : List α} {step : σ → α → Except ε σ}

theorem bind_eq_ok_iff {x : Except ε α} {b : β} :
    x >>= f = .ok b ↔ ∃ a, x = .ok a ∧ f a = .ok b := by
  cases x with
  | error e =>
      constructor
      · intro h
        cases h
      · rintro ⟨a, ha, _⟩
        cases ha
  | ok a =>
      constructor
      · intro h
        exact ⟨a, rfl, h⟩
      · rintro ⟨a', ha, h⟩
        cases ha
        exact h

theorem foldlM_returns_iff {P : α → Prop} (hstep : ∀ s, ∀ x ∈ items, (∃ t, step s x = .ok t) ↔ P x)
    (s : σ) : (∃ t, items.foldlM step s = .ok t) ↔ ∀ x ∈ items, P x := by
  induction items generalizing s with
  | nil =>
      constructor
      · simp
      · exact fun _ => ⟨s, rfl⟩
  | cons x rest ih =>
      have hrest := ih fun s y hy => hstep s y (List.mem_cons_of_mem _ hy)
      have hhead := hstep s x List.mem_cons_self
      simp only [List.foldlM_cons, bind_eq_ok_iff, List.forall_mem_cons]
      constructor
      · rintro ⟨t, next, hnext, ht⟩
        exact ⟨hhead.mp ⟨next, hnext⟩, (hrest next).mp ⟨t, ht⟩⟩
      · rintro ⟨hx, hall⟩
        obtain ⟨next, hnext⟩ := hhead.mpr hx
        obtain ⟨t, ht⟩ := (hrest next).mpr hall
        exact ⟨t, next, hnext, ht⟩

theorem foldlM_preserves {P : σ → Prop}
    (hstep : ∀ s, ∀ x ∈ items, ∀ t, P s → step s x = .ok t → P t) {s t : σ} (hs : P s)
    (h : items.foldlM step s = .ok t) : P t := by
  induction items generalizing s with
  | nil =>
      cases h
      exact hs
  | cons x rest ih =>
      rw [List.foldlM_cons, bind_eq_ok_iff] at h
      obtain ⟨next, hnext, hrest⟩ := h
      have hnext' := hstep s x List.mem_cons_self next hs hnext
      exact ih (fun s y hy => hstep s y (List.mem_cons_of_mem _ hy)) hnext' hrest

/-- A relation between states that says by how much something has grown. -/
structure Additive {A : Type} [AddMonoid A] (R : σ → A → σ → Prop) : Prop where
  zero : ∀ s, R s 0 s
  add : ∀ {s t u a b}, R s a t → R t b u → R s (a + b) u

theorem foldlM_adds {A : Type} [AddMonoid A] {R : σ → A → σ → Prop} (hR : Additive R)
    {amount : α → A} (hstep : ∀ s, ∀ x ∈ items, ∀ t, step s x = .ok t → R s (amount x) t) {s t : σ}
    (h : items.foldlM step s = .ok t) : R s (items.map amount).sum t := by
  induction items generalizing s with
  | nil =>
      cases h
      exact hR.zero _
  | cons x rest ih =>
      rw [List.foldlM_cons, bind_eq_ok_iff] at h
      obtain ⟨next, hnext, hrest⟩ := h
      rw [List.map_cons, List.sum_cons]
      apply hR.add (hstep s x List.mem_cons_self next hnext)
      exact ih (fun s y hy => hstep s y (List.mem_cons_of_mem _ hy)) hrest

theorem foldlM_brings_iff {Q : σ → Prop} {P : α → Prop}
    (hstep : ∀ s, ∀ x ∈ items, ∀ t, step s x = .ok t → (Q t ↔ Q s ∨ P x)) {s t : σ}
    (h : items.foldlM step s = .ok t) : Q t ↔ Q s ∨ ∃ x ∈ items, P x := by
  induction items generalizing s with
  | nil =>
      cases h
      simp
  | cons x rest ih =>
      rw [List.foldlM_cons, bind_eq_ok_iff] at h
      obtain ⟨next, hnext, hrest⟩ := h
      rw [ih (fun s y hy => hstep s y (List.mem_cons_of_mem _ hy)) hrest,
        hstep s x List.mem_cons_self next hnext, or_assoc]
      simp

theorem mapM_returns_iff :
    (∃ results, items.mapM f = .ok results) ↔ ∀ x ∈ items, ∃ y, f x = .ok y := by
  induction items with
  | nil =>
      constructor
      · simp
      · exact fun _ => ⟨[], rfl⟩
  | cons x rest ih =>
      simp only [List.mapM_cons, bind_eq_ok_iff, List.forall_mem_cons, ← ih]
      constructor
      · rintro ⟨_, y, hy, ys, hys, _⟩
        exact ⟨⟨y, hy⟩, ys, hys⟩
      · rintro ⟨⟨y, hy⟩, ys, hys⟩
        exact ⟨_, y, hy, ys, hys, rfl⟩

variable {results : List β} {g : α → Bool}

theorem mapM_eq_ok_iff :
    items.mapM f = .ok results ↔ List.Forall₂ (fun x y => f x = .ok y) items results := by
  induction items generalizing results with
  | nil =>
      constructor
      · rintro ⟨⟩
        exact .nil
      · rintro ⟨⟩
        rfl
  | cons x rest ih =>
      rw [List.mapM_cons, bind_eq_ok_iff]
      constructor
      · rintro ⟨y, hy, h⟩
        obtain ⟨later, hlater, h⟩ := bind_eq_ok_iff.mp h
        cases h
        exact .cons hy (ih.mp hlater)
      · rintro (_ | ⟨hy, hlater⟩)
        exact ⟨_, hy, bind_eq_ok_iff.mpr ⟨_, ih.mpr hlater, rfl⟩⟩

theorem mem_right_of_forall₂ {R : α → β → Prop} {xs : List α} {ys : List β}
    (h : List.Forall₂ R xs ys) {y : β} (hy : y ∈ ys) : ∃ x ∈ xs, R x y := by
  induction h with
  | nil => cases hy
  | cons hxy _ ih =>
      rcases List.mem_cons.mp hy with rfl | hy
      · exact ⟨_, List.mem_cons_self, hxy⟩
      · obtain ⟨x, hx, hR⟩ := ih hy
        exact ⟨x, List.mem_cons_of_mem _ hx, hR⟩

theorem mem_left_of_forall₂ {R : α → β → Prop} {xs : List α} {ys : List β}
    (h : List.Forall₂ R xs ys) {x : α} (hx : x ∈ xs) : ∃ y ∈ ys, R x y := by
  obtain ⟨y, hy, hR⟩ := mem_right_of_forall₂ h.flip hx
  exact ⟨y, hy, hR⟩

theorem mapM_observe {observe : β → γ} {expected : α → γ}
    (hf : ∀ x y, f x = .ok y → observe y = expected x) (h : items.mapM f = .ok results) :
    results.map observe = items.map expected := by
  induction items generalizing results with
  | nil =>
      cases h
      rfl
  | cons x rest ih =>
      rw [List.mapM_cons, bind_eq_ok_iff] at h
      obtain ⟨y, hy, h⟩ := h
      rw [bind_eq_ok_iff] at h
      obtain ⟨ys, hys, h⟩ := h
      cases h
      rw [List.map_cons, List.map_cons, hf x y hy, ih hys]

theorem mapM_forall {P : β → Prop} (hf : ∀ x y, f x = .ok y → P y) (h : items.mapM f = .ok results) :
    ∀ y ∈ results, P y := by
  have hobserve : results.map P = items.map fun _ => True :=
    mapM_observe (fun x y hy => eq_true (hf x y hy)) h
  intro y hy
  have hmem : P y ∈ results.map P := List.mem_map_of_mem hy
  rw [hobserve, List.mem_map] at hmem
  obtain ⟨_, -, htrue⟩ := hmem
  exact of_eq_true htrue.symm

theorem mapM_flatten_nil_iff {f : α → Except ε (List β)} :
    (∃ results, items.mapM f = .ok results ∧ results.flatten = []) ↔
      ∀ x ∈ items, f x = .ok [] := by
  induction items with
  | nil =>
      constructor
      · simp
      · exact fun _ => ⟨[], rfl, rfl⟩
  | cons x rest ih =>
      simp only [List.mapM_cons, bind_eq_ok_iff, List.forall_mem_cons, ← ih]
      constructor
      · rintro ⟨_, ⟨y, hy, ys, hys, hcons⟩, hflatten⟩
        cases hcons
        obtain ⟨hnil, hrest⟩ := List.append_eq_nil_iff.mp hflatten
        exact ⟨hnil ▸ hy, ys, hys, hrest⟩
      · rintro ⟨hx, ys, hys, hrest⟩
        exact ⟨[] :: ys, ⟨[], hx, ys, hys, rfl⟩, hrest⟩

theorem mapM_exists {P : α → β → Prop} (h : ∀ x ∈ items, ∃ y, f x = .ok y ∧ P x y) :
    ∃ results, items.mapM f = .ok results ∧ (∀ y ∈ results, ∃ x ∈ items, P x y) ∧
      ∀ x ∈ items, ∃ y ∈ results, P x y := by
  induction items with
  | nil => exact ⟨[], rfl, by simp, by simp⟩
  | cons x rest ih =>
      obtain ⟨⟨y, hy, hp⟩, hrest⟩ := List.forall_mem_cons.mp h
      obtain ⟨ys, hys, hfrom, hto⟩ := ih hrest
      refine ⟨y :: ys, ?_, ?_, ?_⟩
      · rw [List.mapM_cons, hy, hys]
        rfl
      · refine List.forall_mem_cons.mpr ⟨⟨x, List.mem_cons_self, hp⟩, fun other hother => ?_⟩
        obtain ⟨source, hsource, hp⟩ := hfrom other hother
        exact ⟨source, List.mem_cons_of_mem x hsource, hp⟩
      · refine List.forall_mem_cons.mpr ⟨⟨y, List.mem_cons_self, hp⟩, fun other hother => ?_⟩
        obtain ⟨result, hresult, hp⟩ := hto other hother
        exact ⟨result, List.mem_cons_of_mem y hresult, hp⟩

section

variable {f : α → Except ε Bool} (h : ∀ x ∈ items, f x = .ok (g x))
include h

theorem anyM_eq_ok : items.anyM f = .ok (items.any g) := by
  induction items with
  | nil => rfl
  | cons x rest ih =>
      obtain ⟨hx, hrest⟩ := List.forall_mem_cons.mp h
      rw [List.anyM, hx, ih hrest, List.any_cons]
      cases g x <;> rfl

theorem filterAuxM_eq_ok (done : List α) :
    List.filterAuxM f items done = .ok ((items.filter g).reverse ++ done) := by
  induction items generalizing done with
  | nil => rfl
  | cons x rest ih =>
      obtain ⟨hx, hrest⟩ := List.forall_mem_cons.mp h
      simp only [List.filterAuxM, hx, bind, Except.bind]
      cases hg : g x with
      | true => simpa [hg] using ih hrest (x :: done)
      | false => simpa [hg] using ih hrest done

theorem filterM_eq_ok : items.filterM f = .ok (items.filter g) := by
  simp only [List.filterM, filterAuxM_eq_ok h, bind, Except.bind, pure, Except.pure,
    List.append_nil, List.reverse_reverse]

end

theorem mem_filterAuxM {f : α → Except ε Bool} {done result : List α}
    (h : List.filterAuxM f items done = .ok result) : ∀ x ∈ result, x ∈ done ∨ f x = .ok true := by
  induction items generalizing done with
  | nil =>
      cases h
      exact fun x hx => Or.inl hx
  | cons item rest ih =>
      rw [List.filterAuxM, bind_eq_ok_iff] at h
      obtain ⟨holds, hitem, hrest⟩ := h
      intro x hx
      rcases ih hrest x hx with hdone | hholds
      · cases holds with
        | false => exact Or.inl hdone
        | true =>
            rcases List.mem_cons.mp hdone with rfl | hdone
            · exact Or.inr hitem
            · exact Or.inl hdone
      · exact Or.inr hholds

theorem filterM_twice {f : α → Except ε Bool} {result : List α} (h : items.filterM f = .ok result) :
    result.filterM f = .ok result := by
  rw [List.filterM, bind_eq_ok_iff] at h
  obtain ⟨reversed, haux, hreverse⟩ := h
  cases hreverse
  have hkept : ∀ x ∈ reversed.reverse, f x = .ok true := by
    intro x hx
    exact (mem_filterAuxM haux x (List.mem_reverse.mp hx)).resolve_left List.not_mem_nil
  rw [filterM_eq_ok hkept, List.filter_true]

section Partial

/-! ### Programs that may give up -/

variable {items : List α}

theorem mapM_eq_some_iff {f : α → Option β} {results : List β} :
    items.mapM f = some results ↔ List.Forall₂ (fun x y => f x = some y) items results := by
  induction items generalizing results with
  | nil => simp [eq_comm]
  | cons x rest ih =>
      rw [List.mapM_cons, List.forall₂_cons_left_iff]
      simp only [Option.bind_eq_bind, Option.bind_eq_some_iff, Option.pure_def, Option.some.injEq]
      constructor
      · rintro ⟨y, hy, ys, hys, rfl⟩
        exact ⟨y, ys, hy, ih.mp hys, rfl⟩
      · rintro ⟨y, ys, hy, hys, rfl⟩
        exact ⟨y, hy, ys, ih.mpr hys, rfl⟩

theorem mapM_returns {f : α → Option β} (h : ∀ x ∈ items, ∃ y, f x = some y) :
    ∃ results, items.mapM f = some results := by
  induction items with
  | nil => exact ⟨[], rfl⟩
  | cons x rest ih =>
      obtain ⟨y, hy⟩ := h x List.mem_cons_self
      obtain ⟨ys, hys⟩ := ih fun z hz => h z (List.mem_cons_of_mem _ hz)
      exact ⟨y :: ys, by simp [List.mapM_cons, hy, hys]⟩

theorem foldlM_succeeds {step : σ → α → Option σ} (inv : σ → Prop)
    (hstep : ∀ s, ∀ x ∈ items, inv s → ∃ t, step s x = some t ∧ inv t) {s : σ} (hs : inv s) :
    ∃ t, items.foldlM step s = some t ∧ inv t := by
  induction items generalizing s with
  | nil => exact ⟨s, rfl, hs⟩
  | cons x rest ih =>
      obtain ⟨next, hnext, hinv⟩ := hstep s x List.mem_cons_self hs
      obtain ⟨t, ht, htinv⟩ := ih (fun s y hy => hstep s y (List.mem_cons_of_mem x hy)) hinv
      exact ⟨t, by simp [List.foldlM_cons, hnext, ht], htinv⟩

theorem foldlM_invariant {step : σ → α → Option σ} (inv : List α → σ → Prop)
    (hstep : ∀ done x rest s t, items = done ++ x :: rest → inv done s → step s x = some t →
      inv (done ++ [x]) t) {s t : σ} (hs : inv [] s) (h : items.foldlM step s = some t) :
    inv items t := by
  suffices hgoal : ∀ rest done s, items = done ++ rest → inv done s →
      rest.foldlM step s = some t → inv items t from hgoal items [] s rfl hs h
  intro rest
  induction rest with
  | nil =>
      intro done s hitems hinv hrun
      cases hrun
      rw [hitems, List.append_nil]
      exact hinv
  | cons x rest ih =>
      intro done s hitems hinv hrun
      rw [List.foldlM_cons] at hrun
      obtain ⟨next, hnext, hrest⟩ := Option.bind_eq_some_iff.mp hrun
      exact ih (done ++ [x]) next (by simp [hitems])
        (hstep done x rest s next hitems hinv hnext) hrest

end Partial

section Clean

variable {fault : ε → Prop} {post : α → Prop} {x : Except ε α}

/-- The program does not stop with a fault, and what it returns satisfies `post`. -/
def Clean (fault : ε → Prop) (x : Except ε α) (post : α → Prop) : Prop :=
  (∀ e, x = .error e → ¬ fault e) ∧ ∀ a, x = .ok a → post a

theorem Clean.pure {a : α} (h : post a) : Clean fault (Pure.pure a) post := by
  refine ⟨?_, ?_⟩
  · rintro e ⟨⟩
  · rintro b ⟨⟩
    exact h

theorem Clean.throw {e : ε} (h : ¬ fault e) : Clean fault (throw e) post := by
  refine ⟨?_, ?_⟩
  · rintro e' ⟨⟩
    exact h
  · rintro a ⟨⟩

theorem Clean.of_eq_ok {a : α} (hx : x = .ok a) (h : post a) : Clean fault x post := by
  subst hx
  exact Clean.pure h

theorem Clean.mono {post' : α → Prop} (hx : Clean fault x post) (h : ∀ a, post a → post' a) :
    Clean fault x post' :=
  ⟨hx.1, fun a ha => h a (hx.2 a ha)⟩

theorem Clean.returned (hx : Clean fault x post) : Clean fault x fun a => x = .ok a :=
  ⟨hx.1, fun _ ha => ha⟩

theorem Clean.bind {post' : β → Prop} {f : α → Except ε β} (hx : Clean fault x post)
    (hf : ∀ a, post a → Clean fault (f a) post') : Clean fault (x >>= f) post' := by
  obtain ⟨herror, hok⟩ := hx
  cases x with
  | error e => exact Clean.throw (herror e rfl)
  | ok a => exact hf a (hok a rfl)

theorem Clean.ite {c : Prop} [Decidable c] {y : Except ε α} (hthen : c → Clean fault x post)
    (helse : ¬ c → Clean fault y post) : Clean fault (if c then x else y) post := by
  split
  · next h => exact hthen h
  · next h => exact helse h

theorem Clean.foldlM {step : σ → α → Except ε σ} {inv : σ → Prop} {items : List α}
    (hstep : ∀ s, ∀ x ∈ items, inv s → Clean fault (step s x) inv) {s : σ} (hs : inv s) :
    Clean fault (items.foldlM step s) inv := by
  induction items generalizing s with
  | nil => exact Clean.pure hs
  | cons x rest ih =>
      rw [List.foldlM_cons]
      refine (hstep s x List.mem_cons_self hs).bind fun next hnext => ?_
      exact ih (fun s y hy => hstep s y (List.mem_cons_of_mem x hy)) hnext

theorem Clean.loop {step : σ → α → Except ε σ} {items : List α}
    (hstep : ∀ s, ∀ x ∈ items, Clean fault (step s x) fun _ => True) (s : σ) :
    Clean fault (items.foldlM step s) fun _ => True :=
  Clean.foldlM (fun s x hx _ => hstep s x hx) trivial

end Clean

end Qontinui.FallibleLoops
