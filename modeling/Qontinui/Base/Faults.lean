import Mathlib.Logic.Basic

/-!
Stateful programs that may stop with an error, where some errors are faults: the
rules by which a program is free of faults, loops over streams whose items may
be errors themselves, and where in a loop a fault arises.
-/

namespace Qontinui.Stopping

variable {σ ε α β : Type} (fault : ε → Prop)

def Faults (m : StateT σ (Except ε) α) (s : σ) : Prop := ∃ e, fault e ∧ m.run s = .error e

/-- The program never stops with a fault, and what it returns satisfies `post`. -/
def FaultFree (m : StateT σ (Except ε) α) (post : α → Prop) : Prop :=
  ∀ s, ¬ Faults fault m s ∧ ∀ a s', m.run s = .ok (a, s') → post a

/-- A loop over a stream. Each item is made when the loop comes to it, and the body
may leave the loop. -/
def forEach (body : β → α → StateT σ (Except ε) (ForInStep β)) :
    β → List (Except ε α) → StateT σ (Except ε) β
  | acc, [] => pure acc
  | _, .error e :: _ => throw e
  | acc, .ok x :: rest => do
      match ← body acc x with
      | .done acc => return acc
      | .yield acc => forEach body acc rest

/-- A loop over `first, first + 1, …`, as many times as said. -/
def forRange (body : β → Nat → StateT σ (Except ε) (ForInStep β)) :
    β → Nat → Nat → StateT σ (Except ε) β
  | acc, _, 0 => pure acc
  | acc, first, times + 1 => do
      match ← body acc first with
      | .done acc => return acc
      | .yield acc => forRange body acc (first + 1) times

def enumerate (items : List (Except ε α)) : List (Except ε (Nat × α)) :=
  (items.zipIdx 1).map fun (item, count) => item.map fun x => (count, x)

/-- Whatever a stream is made of satisfies `P`, and no fault. -/
def Streams (P : α → Prop) (items : List (Except ε α)) : Prop :=
  ∀ item ∈ items, (∀ x, item = .ok x → P x) ∧ ∀ e, item = .error e → ¬ fault e

section Rules

variable {fault} {m : StateT σ (Except ε) α} {f : α → StateT σ (Except ε) β} {s : σ}
  {post : α → Prop} {post' : β → Prop}

theorem run_bind_ok {a : α} {s' : σ} (h : m.run s = .ok (a, s')) :
    (m >>= f).run s = (f a).run s' := by
  rw [StateT.run_bind, h]
  rfl

theorem run_bind_error {e : ε} (h : m.run s = .error e) : (m >>= f).run s = .error e := by
  rw [StateT.run_bind, h]
  rfl

theorem faults_bind_iff :
    Faults fault (m >>= f) s ↔
      Faults fault m s ∨ ∃ a s', m.run s = .ok (a, s') ∧ Faults fault (f a) s' := by
  cases h : m.run s with
  | error e => simp [Faults, run_bind_error h, h]
  | ok result =>
      obtain ⟨a, s'⟩ := result
      constructor
      · intro hfault
        rw [Faults, run_bind_ok h] at hfault
        exact .inr ⟨a, s', rfl, hfault⟩
      · rintro (⟨e, -, he⟩ | ⟨b, s'', hb, hfault⟩)
        · cases h.symm.trans he
        · cases hb
          rwa [Faults, run_bind_ok h]

theorem faults_bind_of_run {a : α} {s' : σ} (h : m.run s = .ok (a, s')) :
    Faults fault (m >>= f) s ↔ Faults fault (f a) s' := by
  rw [Faults, run_bind_ok h, Faults]

theorem not_faults_pure (a : α) (s : σ) : ¬ Faults fault (pure a : StateT σ (Except ε) α) s := by
  rintro ⟨e, -, he⟩
  cases he

theorem faults_bind_iff_left (hf : ∀ a s', ¬ Faults fault (f a) s') :
    Faults fault (m >>= f) s ↔ Faults fault m s := by
  refine faults_bind_iff.trans ⟨?_, .inl⟩
  rintro (h | ⟨a, s', -, h⟩)
  · exact h
  · exact absurd h (hf a s')

theorem faults_bind_pure_iff {g : α → β} :
    Faults fault (m >>= fun a => pure (g a)) s ↔ Faults fault m s :=
  faults_bind_iff_left fun a => not_faults_pure (g a)

theorem FaultFree.bind {mid : α → Prop} (hm : FaultFree fault m mid)
    (hf : ∀ a, mid a → FaultFree fault (f a) post') : FaultFree fault (m >>= f) post' := by
  intro s
  constructor
  · intro h
    rcases faults_bind_iff.mp h with hfault | ⟨a, s', hrun, hfault⟩
    · exact (hm s).1 hfault
    · exact (hf a ((hm s).2 a s' hrun) s').1 hfault
  · intro b s'' hrun
    cases h : m.run s with
    | error e => rw [run_bind_error h] at hrun; cases hrun
    | ok result =>
        obtain ⟨a, s'⟩ := result
        rw [run_bind_ok h] at hrun
        exact (hf a ((hm s).2 a s' h) s').2 b s'' hrun

theorem FaultFree.pure {a : α} (h : post a) :
    FaultFree fault (Pure.pure a : StateT σ (Except ε) α) post := by
  intro s
  refine ⟨?_, ?_⟩
  · rintro ⟨e, -, he⟩
    cases he
  · rintro b s' hrun
    cases hrun
    exact h

theorem FaultFree.throw {e : ε} (h : ¬ fault e) :
    FaultFree fault (throw e : StateT σ (Except ε) α) post := by
  intro s
  refine ⟨?_, ?_⟩
  · rintro ⟨e', he', hrun⟩
    cases hrun
    exact h he'
  · rintro a s' hrun
    cases hrun

theorem FaultFree.ite {c : Prop} [Decidable c] {m' : StateT σ (Except ε) α}
    (hthen : c → FaultFree fault m post) (helse : ¬ c → FaultFree fault m' post) :
    FaultFree fault (if c then m else m') post := by
  split
  · next h => exact hthen h
  · next h => exact helse h

theorem FaultFree.lift {x : Except ε α} {a : α} (h : x = .ok a) (hpost : post a) :
    FaultFree fault (StateT.lift x : StateT σ (Except ε) α) post := by
  subst h
  exact .pure hpost

theorem FaultFree.get {post : σ → Prop} (h : ∀ s, post s) :
    FaultFree fault (MonadStateOf.get : StateT σ (Except ε) σ) post := by
  intro s
  refine ⟨?_, ?_⟩
  · rintro ⟨e, -, he⟩
    cases he
  · rintro a s' hrun
    exact h a

theorem FaultFree.modify (change : σ → σ) :
    FaultFree fault (modify change : StateT σ (Except ε) PUnit) fun _ => True := by
  intro s
  refine ⟨?_, fun _ _ _ => trivial⟩
  rintro ⟨e, -, he⟩
  cases he

theorem FaultFree.not_faults (h : FaultFree fault m post) (s : σ) : ¬ Faults fault m s := (h s).1

end Rules

section Loops

variable {fault} {body : β → α → StateT σ (Except ε) (ForInStep β)} {P : α → Prop} {inv : β → Prop}
  {items : List (Except ε α)} {acc : β}

theorem FaultFree.forEach
    (hbody : ∀ acc x, inv acc → P x → FaultFree fault (body acc x) fun step => inv step.value)
    (hitems : Streams fault P items) (hacc : inv acc) :
    FaultFree fault (forEach body acc items) inv := by
  induction items generalizing acc with
  | nil => exact .pure hacc
  | cons item rest ih =>
      have hrest : Streams fault P rest := fun other hother => hitems other (by simp [hother])
      cases item with
      | error e => exact .throw ((hitems (.error e) (by simp)).2 e rfl)
      | ok x =>
          refine (hbody acc x hacc ((hitems (.ok x) (by simp)).1 x rfl)).bind fun step hstep => ?_
          cases step with
          | done acc => exact .pure hstep
          | yield acc => exact ih hrest hstep

theorem FaultFree.forRange {body : β → Nat → StateT σ (Except ε) (ForInStep β)}
    (hbody : ∀ acc n, inv acc → FaultFree fault (body acc n) fun step => inv step.value)
    (hacc : inv acc) (first times : Nat) : FaultFree fault (forRange body acc first times) inv := by
  induction times generalizing acc first with
  | zero => exact .pure hacc
  | succ times ih =>
      refine (hbody acc first hacc).bind fun step hstep => ?_
      cases step with
      | done acc => exact .pure hstep
      | yield acc => exact ih hstep (first + 1)

/-- The loop comes to an item: every body before it ran and stayed in the loop. -/
inductive ComesTo (body : β → α → StateT σ (Except ε) (ForInStep β)) :
    β → List (Except ε α) → σ → β → α → σ → Prop
  | here {acc : β} {x : α} {rest : List (Except ε α)} {s : σ} :
      ComesTo body acc (.ok x :: rest) s acc x s
  | later {acc acc' acc'' : β} {x y : α} {rest : List (Except ε α)} {s s' s'' : σ}
      (hrun : (body acc x).run s = .ok (.yield acc', s'))
      (h : ComesTo body acc' rest s' acc'' y s'') : ComesTo body acc (.ok x :: rest) s acc'' y s''

theorem ComesTo.streams (hitems : Streams fault P items) {acc' : β} {s s' : σ} {x : α}
    (h : ComesTo body acc items s acc' x s') : P x := by
  induction h with
  | here => exact (hitems _ (by simp)).1 _ rfl
  | later hrun h ih => exact ih fun other hother => hitems other (by simp [hother])

/-- The loop comes to an item of which `Q` holds, in the state the loop is in then. -/
def Reaches (body : β → α → StateT σ (Except ε) (ForInStep β)) (acc : β)
    (items : List (Except ε α)) (s : σ) (Q : α → σ → Prop) : Prop :=
  ∃ acc' x s', ComesTo body acc items s acc' x s' ∧ Q x s'

/-- A loop stops with a fault exactly where it comes to an item whose body does. -/
theorem faults_forEach_iff (hitems : Streams fault P items) {s : σ} {Q : α → σ → Prop}
    (hbody : ∀ acc x s, P x → (Faults fault (body acc x) s ↔ Q x s)) :
    Faults fault (forEach body acc items) s ↔ Reaches body acc items s Q := by
  constructor
  · intro h
    induction items generalizing acc s with
    | nil => exact absurd h (not_faults_pure _ _)
    | cons item rest ih =>
        have hrest : Streams fault P rest := fun other hother => hitems other (by simp [hother])
        cases item with
        | error e =>
            obtain ⟨e', hfault, he⟩ := h
            cases he
            exact absurd hfault ((hitems (.error e) (by simp)).2 e rfl)
        | ok x =>
            rcases faults_bind_iff.mp h with hfault | ⟨step, s', hrun, hfault⟩
            · have hx : P x := (hitems (.ok x) (by simp)).1 x rfl
              exact ⟨acc, x, s, .here, (hbody acc x s hx).mp hfault⟩
            · cases step with
              | done acc' =>
                  exact absurd hfault (not_faults_pure _ _)
              | yield acc' =>
                  obtain ⟨acc'', y, s'', hcomes, hy⟩ := ih hrest hfault
                  exact ⟨acc'', y, s'', .later hrun hcomes, hy⟩
  · rintro ⟨acc', x, s', hcomes, hQ⟩
    have hfault := (hbody acc' x s' (hcomes.streams hitems)).mpr hQ
    clear hQ
    induction hcomes with
    | here => exact faults_bind_iff.mpr (.inl hfault)
    | later hrun h ih =>
        have hrest := ih (fun other hother => hitems other (by simp [hother])) hfault
        exact faults_bind_iff.mpr (.inr ⟨_, _, hrun, hrest⟩)

end Loops

section Streams

variable {fault} {P : α → Prop} {items : List (Except ε α)}

theorem Streams.mono {Q : α → Prop} (h : Streams fault P items) (hPQ : ∀ x, P x → Q x) :
    Streams fault Q items :=
  fun item hitem => ⟨fun x hx => hPQ x ((h item hitem).1 x hx), (h item hitem).2⟩

theorem Streams.ok (xs : List α) (h : ∀ x ∈ xs, P x) : Streams fault P (xs.map .ok) := by
  intro item hitem
  obtain ⟨x, hx, rfl⟩ := List.mem_map.mp hitem
  refine ⟨?_, nofun⟩
  rintro _ ⟨⟩
  exact h x hx

theorem Streams.take (h : Streams fault P items) (n : Nat) : Streams fault P (items.take n) :=
  fun item hitem => h item (List.mem_of_mem_take hitem)

theorem Streams.enumerate (h : Streams fault P items) :
    Streams fault (fun numbered : Nat × α => P numbered.2) (enumerate items) := by
  intro item hitem
  obtain ⟨⟨original, count⟩, horiginal, rfl⟩ := List.mem_map.mp hitem
  have hmem : original ∈ items := List.fst_mem_of_mem_zipIdx horiginal
  obtain ⟨hok, herror⟩ := h original hmem
  cases original with
  | error e =>
      refine ⟨?_, ?_⟩
      · rintro x ⟨⟩
      · rintro e' ⟨⟩
        exact herror e rfl
  | ok x =>
      refine ⟨?_, ?_⟩
      · rintro y ⟨⟩
        exact hok x rfl
      · rintro e' ⟨⟩

end Streams

end Qontinui.Stopping
