import Mathlib.Data.List.Basic

/-!
Runs of a deterministic machine over a list of events, with the two rules by
which facts about single steps become facts about runs: an invariant that every
step keeps, and one that is kept as long as the steps meet a condition. A machine that
waits for one event at a time comes to its end in an infinite run when no event takes it
further from there, the one it waits for takes it nearer, and what it waits for happens
again and again.
-/

namespace Qontinui.Runs

variable {σ ε : Type*} (step : σ → ε → σ)

def run (state : σ) (events : List ε) : σ := events.foldl step state

@[simp] theorem run_nil (state : σ) : run step state [] = state := rfl

@[simp] theorem run_cons (state : σ) (event : ε) (events : List ε) :
    run step state (event :: events) = run step (step state event) events := rfl

theorem run_append (state : σ) (front rest : List ε) :
    run step state (front ++ rest) = run step (run step state front) rest :=
  List.foldl_append

theorem run_concat (state : σ) (events : List ε) (event : ε) :
    run step state (events ++ [event]) = step (run step state events) event := by
  rw [run_append]
  rfl

/-- Every step of the run is taken under the condition. -/
def Meets (condition : σ → ε → Prop) : σ → List ε → Prop
  | _, [] => True
  | state, event :: events => condition state event ∧ Meets condition (step state event) events

/-- A condition that can be decided at each step can be decided for a run. -/
instance decidableMeets {condition : σ → ε → Prop}
    [decidable : ∀ state event, Decidable (condition state event)] :
    ∀ (state : σ) (events : List ε), Decidable (Meets step condition state events)
  | _, [] => .isTrue trivial
  | state, event :: events =>
      @instDecidableAnd _ _ (decidable state event) (decidableMeets (step state event) events)

variable {condition : σ → ε → Prop}

theorem meets_append (state : σ) (front rest : List ε) :
    Meets step condition state (front ++ rest) ↔
      Meets step condition state front ∧ Meets step condition (run step state front) rest := by
  induction front generalizing state with
  | nil => simp [Meets]
  | cons event front ih => simp only [List.cons_append, Meets, ih, run_cons, and_assoc]

variable {events : List ε} {state : σ}

theorem meets_of_forall {condition : ε → Prop} (h : ∀ event ∈ events, condition event) (state : σ) :
    Meets step (fun _ event => condition event) state events := by
  induction events generalizing state with
  | nil => trivial
  | cons event events ih =>
      exact ⟨h event (by simp), ih (fun other hother => h other (by simp [hother])) _⟩

theorem meets_iff_forall_step (state : σ) (events : List ε) :
    Meets step condition state events ↔
      ∀ front event, front ++ [event] <+: events → condition (run step state front) event := by
  induction events generalizing state with
  | nil => simp [Meets]
  | cons head events ih =>
      constructor
      · rintro ⟨hhead, hrest⟩ front event hfront
        cases front with
        | nil =>
            obtain ⟨rfl, -⟩ := List.cons_prefix_cons.mp hfront
            exact hhead
        | cons head' front =>
            obtain ⟨rfl, htail⟩ := List.cons_prefix_cons.mp hfront
            exact (ih (step state head')).mp hrest front event htail
      · intro h
        refine ⟨h [] head ⟨events, rfl⟩, (ih (step state head)).mpr fun front event hfront => ?_⟩
        exact h (head :: front) event (List.cons_prefix_cons.mpr ⟨rfl, hfront⟩)

theorem run_map {τ : Type*} (target : τ → ε → τ) (f : σ → τ)
    (hstep : ∀ state event, f (step state event) = target (f state) event)
    (state : σ) (events : List ε) :
    f (run step state events) = run target (f state) events := by
  induction events generalizing state with
  | nil => rfl
  | cons event events ih => rw [run_cons, run_cons, ih, hstep]

theorem meets_map {τ : Type*} (target : τ → ε → τ) {condition : τ → ε → Prop} (f : σ → τ)
    (hstep : ∀ state event, f (step state event) = target (f state) event)
    (state : σ) (events : List ε) :
    Meets step (fun state event => condition (f state) event) state events ↔
      Meets target condition (f state) events := by
  induction events generalizing state with
  | nil => exact Iff.rfl
  | cons event events ih => simp only [Meets, ih, hstep]

theorem invariant_of_meets (invariant : σ → Prop)
    (hstep : ∀ state event, invariant state → condition state event →
      invariant (step state event)) (hstart : invariant state)
    (h : Meets step condition state events) : invariant (run step state events) := by
  induction events generalizing state with
  | nil => exact hstart
  | cons event events ih => exact ih (hstep state event hstart h.1) h.2

/-- A property that strengthens to an invariant along the steps that keep it holds all
along a run exactly when the run meets the condition under which steps keep it. -/
theorem property_along_iff {assumption : σ → ε → Prop} (invariant property : σ → Prop)
    (hproperty : ∀ state, invariant state → property state)
    (hstrong : ∀ state event, invariant state → assumption state event →
      property (step state event) → invariant (step state event))
    (hstep : ∀ state event, invariant state → assumption state event →
      (property (step state event) ↔ condition state event)) (hstart : invariant state)
    (h : Meets step assumption state events) :
    (∀ front, front <+: events → property (run step state front)) ↔
      Meets step condition state events := by
  induction events generalizing state with
  | nil =>
      refine ⟨fun _ => trivial, fun _ front hfront => ?_⟩
      rw [List.prefix_nil.mp hfront]
      exact hproperty state hstart
  | cons event events ih =>
      constructor
      · intro hall
        have hnext : property (step state event) := hall [event] ⟨events, rfl⟩
        have hinvariant := hstrong state event hstart h.1 hnext
        refine ⟨(hstep state event hstart h.1).mp hnext, (ih hinvariant h.2).mp ?_⟩
        intro front hfront
        exact hall (event :: front) (List.cons_prefix_cons.mpr ⟨rfl, hfront⟩)
      · intro hmeets front hfront
        have hnext : property (step state event) := (hstep state event hstart h.1).mpr hmeets.1
        have hinvariant := hstrong state event hstart h.1 hnext
        cases front with
        | nil => exact hproperty state hstart
        | cons event' front =>
            obtain ⟨rfl, htail⟩ := List.cons_prefix_cons.mp hfront
            exact (ih hinvariant h.2).mpr hmeets.2 front htail

theorem invariant_along_iff (invariant : σ → Prop) (hstep : ∀ state event, invariant state →
      (invariant (step state event) ↔ condition state event)) (state : σ) (events : List ε)
    (hstart : invariant state) :
    (∀ front, front <+: events → invariant (run step state front)) ↔
      Meets step condition state events :=
  property_along_iff step invariant invariant (fun _ h => h) (fun _ _ _ _ h => h)
    (fun state event h _ => hstep state event h) hstart
    (meets_of_forall step (fun _ _ => trivial) state)

theorem invariant_of_step (invariant : σ → Prop)
    (hstep : ∀ state event, invariant state → invariant (step state event))
    (state : σ) (events : List ε) (hstart : invariant state) :
    invariant (run step state events) := by
  induction events generalizing state with
  | nil => exact hstart
  | cons event events ih => exact ih _ (hstep state event hstart)

/-! ### Infinite runs -/

/-- The state after the first events of an infinite run. -/
def after (state : σ) (events : Nat → ε) : Nat → σ
  | 0 => state
  | n + 1 => step (after state events n) (events n)

theorem invariant_after {invariant : σ → Prop}
    (hstep : ∀ state event, invariant state → invariant (step state event))
    (hstart : invariant state) (events : Nat → ε) (n : Nat) :
    invariant (after step state events n) := by
  induction n with
  | zero => exact hstart
  | succ n ih => exact hstep _ _ ih

section Termination

variable {invariant : σ → Prop} {measure : σ → Nat} {awaits : σ → ε → Prop}
  (hinvariant : ∀ state event, invariant state → invariant (step state event))
  (hstep : ∀ state event, invariant state → measure (step state event) < measure state ∨
    measure (step state event) = measure state ∧
      ∀ other, awaits state other → awaits (step state event) other)
include hinvariant hstep

theorem falls_or_awaits {state : σ} (hstart : invariant state) (events : Nat → ε) (n k : Nat) :
    measure (after step state events (n + k)) < measure (after step state events n) ∨
      measure (after step state events (n + k)) = measure (after step state events n) ∧
        ∀ event, awaits (after step state events n) event →
          awaits (after step state events (n + k)) event := by
  induction k with
  | zero => exact .inr ⟨rfl, fun _ h => h⟩
  | succ k ih =>
      have hinv := invariant_after step hinvariant hstart events (n + k)
      have hnext : after step state events (n + (k + 1)) =
          step (after step state events (n + k)) (events (n + k)) := rfl
      rw [hnext]
      rcases hstep _ (events (n + k)) hinv with hless | ⟨heq, hkeeps⟩
      · rcases ih with hbefore | ⟨hbefore, _⟩
        · exact .inl (Nat.lt_trans hless hbefore)
        · exact .inl (hbefore ▸ hless)
      · rcases ih with hbefore | ⟨hbefore, hawaits⟩
        · exact .inl (heq ▸ hbefore)
        · exact .inr ⟨heq.trans hbefore, fun event h => hkeeps event (hawaits event h)⟩

theorem eventually_zero
    (hawaited : ∀ state event, invariant state → awaits state event →
      measure (step state event) < measure state)
    {state : σ} (hstart : invariant state) (events : Nat → ε)
    (hfair : ∀ n, 0 < measure (after step state events n) →
      ∃ k, awaits (after step state events n) (events (n + k))) :
    ∃ n, measure (after step state events n) = 0 := by
  suffices hfrom : ∀ bound n, measure (after step state events n) ≤ bound →
      ∃ n, measure (after step state events n) = 0 from hfrom _ 0 (Nat.le_refl _)
  intro bound
  induction bound with
  | zero => exact fun n hn => ⟨n, Nat.le_zero.mp hn⟩
  | succ bound ih =>
      intro n hn
      by_cases hzero : measure (after step state events n) = 0
      · exact ⟨n, hzero⟩
      · obtain ⟨k, hk⟩ := hfair n (Nat.pos_of_ne_zero hzero)
        rcases falls_or_awaits step hinvariant hstep hstart events n k with hless | ⟨heq, hkeeps⟩
        · exact ih (n + k) (by omega)
        · have hinv := invariant_after step hinvariant hstart events (n + k)
          have hless := hawaited _ _ hinv (hkeeps _ hk)
          exact ih (n + k + 1) (by
            change measure (step _ _) ≤ bound
            omega)

end Termination

end Qontinui.Runs
