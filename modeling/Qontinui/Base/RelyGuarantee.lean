import Qontinui.Base.Coroutine

/-!
Rely-guarantee reasoning about tasks that take turns on one state. A program is
checked alone, against what the steps of the others may do while it waits; when
every program passes, the invariant holds after every run.
-/

namespace Qontinui

variable {σ Op Ask Reply Env α β : Type}

/-- What the programs of a machine are checked against. -/
structure Spec (σ Op Ask Reply : Type) where
  inv : σ → Prop
  /-- What happens to the state while a task runs a program, by its own actions or others'. -/
  guar : Nat → σ → σ → Prop
  /-- What the steps that are not the task's own do. -/
  rely : Nat → σ → σ → Prop
  /-- What happens while the task waits for an answer, the answer included. -/
  wait : Nat → Ask → σ → σ → Prop
  /-- What a task has to know before an action. -/
  pre : Nat → Op → σ → Prop
  /-- The condition a run puts on an action. -/
  may : Nat → Op → σ → Prop
  /-- What holds at the moment of an ask. -/
  asks : Nat → Ask → σ → Prop
  /-- What holds from the ask until it is answered. -/
  wants : Nat → Ask → σ → Prop
  /-- What an answer tells the task. -/
  told : Nat → Ask → Except Stop Reply → σ → Prop
  /-- The condition a run puts on an answer. -/
  mayTell : Nat → Ask → Except Stop Reply → σ → Prop
  /-- What holds between two turns of a task. -/
  idle : Nat → σ → Prop

variable (M : Machine σ Op Ask Reply Env) (S : Spec σ Op Ask Reply)

/-- The weakest precondition of a program for the task that runs it. -/
def wp (task : Nat) (post : Except Stop α → σ → Prop) : Coro σ Op Ask Reply α → σ → Prop
  | .done result, s => post result s
  | .act op rest, s =>
      S.pre task op s ∧ (S.may task op s → wp task post (rest task s) (M.apply task op s))
  | .ask a rest, s =>
      S.asks task a s ∧ S.wants task a s ∧
        ∀ s' reply, S.inv s' → S.wait task a s s' → S.told task a reply s' →
          wp task post (rest reply) s'

/-- Every action of the program up to its next ask meets the run's condition. -/
def ActsMay (task : Nat) : Coro σ Op Ask Reply α → σ → Prop
  | .done _, _ => True
  | .act op rest, s => S.may task op s ∧ ActsMay task (rest task s) (M.apply task op s)
  | .ask _ _, _ => True

def StepMay (c : Tasks σ Op Ask Reply) : TaskEvent Reply Env → Prop
  | .serve task reply => ∀ p, c.parked task = some p → S.mayTell task p.ask reply c.state
  | .resume task =>
      (∀ p, c.parked task = some p → M.cancelled task c.state = true →
          S.mayTell task p.ask (.error .cancelled) c.state) ∧
        ∀ p state, M.next c task = some (p, state) → ActsMay M S task p state
  | .outside _ => True

/-- The steps of the machine keep what the specification says of them. -/
structure Sound : Prop where
  rely_refl : ∀ task s, S.rely task s s
  rely_trans : ∀ {task s s' s''}, S.rely task s s' → S.rely task s' s'' → S.rely task s s''
  wait_of_rely : ∀ {task a s s'}, S.rely task s s' → S.wait task a s s'
  wait_trans : ∀ {task a s s' s''}, S.wait task a s s' → S.wait task a s' s'' →
    S.wait task a s s''
  guar_refl : ∀ task s, S.guar task s s
  guar_trans : ∀ {task s s' s''}, S.guar task s s' → S.guar task s' s'' → S.guar task s s''
  wants_stable : ∀ {task a s s'}, S.rely task s s' → S.wants task a s → S.wants task a s'
  told_stable : ∀ {task a reply s s'}, S.rely task s s' → S.told task a reply s →
    S.told task a reply s'
  idle_stable : ∀ {task s s'}, S.rely task s s' → S.idle task s → S.idle task s'
  apply : ∀ {task op s}, S.inv s → S.pre task op s → S.may task op s →
    S.inv (M.apply task op s) ∧ S.guar task s (M.apply task op s) ∧
      ∀ other, other ≠ task → S.rely other s (M.apply task op s)
  served : ∀ {task a reply s}, S.inv s → S.wants task a s → M.allowed a reply s = true →
    S.mayTell task a reply s →
    S.inv (M.served task a reply s) ∧ S.told task a reply (M.served task a reply s) ∧
      S.wait task a s (M.served task a reply s) ∧
      ∀ other, other ≠ task → S.rely other s (M.served task a reply s)
  uncancel : ∀ {task a s}, S.inv s → M.cancelled task s = true →
    S.mayTell task a (.error .cancelled) s →
    S.inv (M.uncancel task s) ∧ S.told task a (.error .cancelled) (M.uncancel task s) ∧
      S.wait task a s (M.uncancel task s) ∧
      ∀ other, other ≠ task → S.rely other s (M.uncancel task s)
  finish : ∀ {task s}, S.inv s → S.idle task s →
    S.inv (M.finish task s) ∧ S.idle task (M.finish task s) ∧
      ∀ other, other ≠ task → S.rely other s (M.finish task s)
  outside : ∀ {event s}, S.inv s →
    S.inv (M.outside event s) ∧ ∀ task, S.rely task s (M.outside event s)

/-- Every turn of every task is in order, and leaves the task idle. -/
def Checked : Prop :=
  ∀ task s, S.inv s → S.idle task s → M.live task s = true →
    wp M S task (fun _ s' => S.idle task s') (M.program task s) s

/-- What a task that waits is owed by its program, whatever it will be told. -/
def GoesOn (task : Nat) (a : Ask) (rest : Except Stop Reply → Coro σ Op Ask Reply Bool)
    (s : σ) : Prop :=
  ∀ s' reply, S.inv s' → S.wait task a s s' → S.told task a reply s' →
    wp M S task (fun _ s'' => S.idle task s'') (rest reply) s'

/-- A task is in order: idle between two turns, or waiting with what it is owed. -/
def TaskInOrder (parked : Option (Parked σ Op Ask Reply)) (task : Nat) (s : σ) : Prop :=
  match parked with
  | none => S.idle task s
  | some p =>
      (p.answer = none → S.wants task p.ask s) ∧
        (∀ reply, p.answer = some reply → S.told task p.ask reply s) ∧
        GoesOn M S task p.ask p.rest s

/-- The invariant holds and every task is in order. -/
structure InOrder (c : Tasks σ Op Ask Reply) : Prop where
  inv : S.inv c.state
  task : ∀ task, TaskInOrder M S (c.parked task) task c.state

variable {M S}

theorem TaskInOrder.rely (h : Sound M S) {parked : Option (Parked σ Op Ask Reply)} {task : Nat}
    {s s' : σ} (hs : S.rely task s s') (ht : TaskInOrder M S parked task s) :
    TaskInOrder M S parked task s' := by
  cases parked with
  | none => exact h.idle_stable hs ht
  | some p =>
      obtain ⟨hwants, htold, hgo⟩ := ht
      have hwait : S.wait task p.ask s s' := h.wait_of_rely hs
      exact ⟨fun ha => h.wants_stable hs (hwants ha), fun reply ha => h.told_stable hs (htold reply ha),
        fun s'' reply hinv hafter => hgo s'' reply hinv (h.wait_trans hwait hafter)⟩

variable {c : Tasks σ Op Ask Reply} {post : Except Stop α → σ → Prop}
  {f : α → Coro σ Op Ask Reply β}

theorem InOrder.update (h : Sound M S) {task : Nat} {s : σ}
    {parked : Option (Parked σ Op Ask Reply)} (hc : InOrder M S c) (hinv : S.inv s)
    (hothers : ∀ other, other ≠ task → S.rely other c.state s)
    (hself : TaskInOrder M S parked task s) :
    InOrder M S ⟨s, Function.update c.parked task parked⟩ where
  inv := hinv
  task other := by
    by_cases hother : other = task
    · subst hother
      simpa only [Function.update_self] using hself
    · simpa only [Function.update_of_ne hother] using
        (hc.task other).rely h (hothers other hother)

section

variable (h : Sound M S)
include h

/-- The actions of a checked program keep the invariant and what the others rely on, and
end in what its precondition promised. -/
theorem advance_spec {task : Nat} {p : Coro σ Op Ask Reply α} {s : σ} (hinv : S.inv s)
    (hwp : wp M S task post p s) (hmay : ActsMay M S task p s) :
    S.inv (p.advance M.apply task s).1 ∧
      (∀ other, other ≠ task → S.rely other s (p.advance M.apply task s).1) ∧
      (∀ result, (p.advance M.apply task s).2 = .inl result →
        post result (p.advance M.apply task s).1) ∧
      ∀ a rest, (p.advance M.apply task s).2 = .inr (a, rest) →
        S.asks task a (p.advance M.apply task s).1 ∧
          S.wants task a (p.advance M.apply task s).1 ∧
          ∀ s' reply, S.inv s' → S.wait task a (p.advance M.apply task s).1 s' →
            S.told task a reply s' → wp M S task post (rest reply) s' := by
  induction p generalizing s with
  | done result =>
      refine ⟨hinv, fun other _ => h.rely_refl other s, ?_, ?_⟩
      · intro result' heq
        cases heq
        exact hwp
      · intro a rest heq
        cases heq
  | act op rest ih =>
      obtain ⟨hkept, -, hothers⟩ := h.apply hinv hwp.1 hmay.1
      obtain ⟨hinv', hrely', hdone, hask⟩ := ih task s hkept (hwp.2 hmay.1) hmay.2
      exact ⟨hinv', fun other hne => h.rely_trans (hothers other hne) (hrely' other hne),
        hdone, hask⟩
  | ask a rest =>
      refine ⟨hinv, fun other _ => h.rely_refl other s, ?_, ?_⟩
      · intro result heq
        cases heq
      · intro a' rest' heq
        cases heq
        exact hwp

theorem inv_of_passes_program {task : Nat} {p : Coro σ Op Ask Reply α} {s : σ} (hinv : S.inv s)
    (hwp : wp M S task post p s) (hmay : ActsMay M S task p s) :
    ∀ s' ∈ p.passes M.apply task s, S.inv s' := by
  induction p generalizing s with
  | done | ask =>
      intro s' hs'
      exact List.mem_singleton.mp hs' ▸ hinv
  | act op rest ih =>
      obtain ⟨hkept, -, -⟩ := h.apply hinv hwp.1 hmay.1
      intro s' hs'
      rcases List.mem_cons.mp hs' with rfl | hlater
      · exact hinv
      · exact ih task s hkept (hwp.2 hmay.1) hmay.2 s' hlater

theorem settle_inOrder (hc : InOrder M S c) {task : Nat} {p : Coro σ Op Ask Reply Bool} {s : σ}
    (hinv : S.inv s) (hrely : ∀ other, other ≠ task → S.rely other c.state s)
    (hwp : wp M S task (fun _ s' => S.idle task s') p s) (hmay : ActsMay M S task p s) :
    InOrder M S (M.settle c task p s) := by
  obtain ⟨hinv', hothers, hdone, hask⟩ := advance_spec h hinv hwp hmay
  revert hinv' hothers hdone hask
  simp only [Machine.settle]
  generalize p.advance M.apply task s = out
  obtain ⟨s', result | ⟨a, rest⟩⟩ := out
  · intro hinv' hothers hdone _
    have hrest : TaskInOrder M S none task s' := hdone result rfl
    have hfrom : ∀ other, other ≠ task → S.rely other c.state s' := fun other hne =>
      h.rely_trans (hrely other hne) (hothers other hne)
    obtain ⟨hinvFinish, hidle, hrelyFinish⟩ := h.finish hinv' hrest
    have hfinished : TaskInOrder M S none task (M.finish task s') := hidle
    have hgoesOn := hc.update h hinv' hfrom hrest
    have hended := hc.update h hinvFinish
      (fun other hne => h.rely_trans (hfrom other hne) (hrelyFinish other hne)) hfinished
    cases result with
    | error stop => exact hended
    | ok goesOn =>
        cases goesOn with
        | true => exact hgoesOn
        | false => exact hended
  · intro hinv' hothers _ hask
    obtain ⟨-, hwants, hgo⟩ := hask a rest rfl
    apply hc.update h hinv' fun other hne => h.rely_trans (hrely other hne) (hothers other hne)
    refine ⟨fun _ => hwants, ?_, hgo⟩
    intro reply ha
    cases ha

section

variable (hprogram : Checked M S)
include hprogram

/-- The program a task goes on with is in order where it goes on. -/
theorem next_spec (hc : InOrder M S c) {task : Nat} {p : Coro σ Op Ask Reply Bool} {s : σ}
    (hnext : M.next c task = some (p, s))
    (hcancel : ∀ q, c.parked task = some q → M.cancelled task c.state = true →
      S.mayTell task q.ask (.error .cancelled) c.state) :
    S.inv s ∧ (∀ other, other ≠ task → S.rely other c.state s) ∧
      wp M S task (fun _ s' => S.idle task s') p s := by
  have htask := hc.task task
  simp only [Machine.next] at hnext
  split at hnext
  case isFalse => cases hnext
  case isTrue hlive =>
    split at hnext
    · next hparked =>
        rw [hparked] at htask
        cases hnext
        exact ⟨hc.inv, fun other _ => h.rely_refl other _,
          hprogram task _ hc.inv htask hlive⟩
    · next q hparked =>
        rw [hparked] at htask
        obtain ⟨-, htold, hgo⟩ := htask
        split at hnext
        · next hcancelled =>
            cases hnext
            obtain ⟨hinv, htold, hself, hrely⟩ :=
              h.uncancel hc.inv hcancelled (hcancel q hparked hcancelled)
            exact ⟨hinv, hrely, hgo _ _ hinv hself htold⟩
        · obtain ⟨reply, hanswer, heq⟩ := Option.map_eq_some_iff.mp hnext
          cases heq
          exact ⟨hc.inv, fun other _ => h.rely_refl other _,
            hgo _ _ hc.inv (h.wait_of_rely (h.rely_refl task _)) (htold reply hanswer)⟩

/-- The step lemma: a step that meets the run's condition leaves everything in order. -/
theorem step_inOrder (event : TaskEvent Reply Env) (hc : InOrder M S c) (hmay : StepMay M S c event) :
    InOrder M S (M.step c event) := by
  cases event with
  | serve task reply =>
      have htask := hc.task task
      simp only [Machine.step]
      split
      · next a rest hparked =>
          split
          · next hallowed =>
              rw [hparked] at htask
              obtain ⟨hwants, -, hgo⟩ := htask
              obtain ⟨hinv, htold, hself, hrely⟩ :=
                h.served hc.inv (hwants rfl) hallowed (hmay _ hparked)
              apply hc.update h hinv hrely
              refine ⟨?_, ?_, ?_⟩
              · intro ha
                cases ha
              · intro reply' ha
                cases ha
                exact htold
              · exact fun s' reply' hinv' hs => hgo s' reply' hinv' (h.wait_trans hself hs)
          · exact hc
      · exact hc
  | resume task =>
      simp only [Machine.step]
      split
      · exact hc
      · next p s hnext =>
          obtain ⟨hinv, hrely, hwp⟩ := next_spec h hprogram hc hnext hmay.1
          exact settle_inOrder h hc hinv hrely hwp (hmay.2 p s hnext)
  | outside event =>
      obtain ⟨hinv, hrely⟩ := h.outside hc.inv
      exact ⟨hinv, fun task => (hc.task task).rely h (hrely task)⟩

theorem run_inOrder {events : List (TaskEvent Reply Env)} (hc : InOrder M S c)
    (hmay : Runs.Meets M.step (StepMay M S) c events) : InOrder M S (Runs.run M.step c events) :=
  Runs.invariant_of_meets M.step (InOrder M S)
    (fun _ event hc hmay => step_inOrder h hprogram event hc hmay) hc hmay

theorem asks_of_issued {event : TaskEvent Reply Env} {task : Nat} {a : Ask} (hc : InOrder M S c)
    (hmay : StepMay M S c event) (hissued : M.issued c event = some (task, a)) :
    S.asks task a (M.step c event).state := by
  cases event with
  | serve | outside => cases hissued
  | resume task' =>
      simp only [Machine.issued] at hissued
      split at hissued
      · cases hissued
      · next p s hnext =>
          obtain ⟨hinv, -, hwp⟩ := next_spec h hprogram hc hnext hmay.1
          obtain ⟨-, -, -, hask⟩ := advance_spec h hinv hwp (hmay.2 p s hnext)
          simp only [Machine.step, hnext, Machine.settle]
          revert hask hissued
          generalize p.advance M.apply task' s = out
          obtain ⟨s', result | ⟨a', rest⟩⟩ := out
          · intro hissued
            cases hissued
          · intro hissued hask
            cases hissued
            exact (hask _ _ rfl).1

theorem inv_of_passes {event : TaskEvent Reply Env} (hc : InOrder M S c)
    (hmay : StepMay M S c event) : ∀ s ∈ M.passes c event, S.inv s := by
  cases event with
  | serve | outside =>
      intro s hs
      exact List.mem_singleton.mp hs ▸ hc.inv
  | resume task =>
      simp only [Machine.passes]
      split
      · intro s hs
        exact List.mem_singleton.mp hs ▸ hc.inv
      · next p s₀ hnext =>
          obtain ⟨hinv, -, hwp⟩ := next_spec h hprogram hc hnext hmay.1
          intro s hs
          rcases List.mem_cons.mp hs with rfl | hlater
          · exact hc.inv
          · exact inv_of_passes_program h hinv hwp (hmay.2 p s₀ hnext) s hlater

end

end

/-! ### Rules for programs -/

theorem wp_mono {task : Nat} {post' : Except Stop α → σ → Prop}
    (himp : ∀ result s, post result s → post' result s) {p : Coro σ Op Ask Reply α} {s : σ}
    (hwp : wp M S task post p s) : wp M S task post' p s := by
  induction p generalizing s with
  | done result => exact himp result s hwp
  | act op rest ih => exact ⟨hwp.1, fun hmay => ih task s (hwp.2 hmay)⟩
  | ask a rest ih =>
      exact ⟨hwp.1, hwp.2.1, fun s' reply hinv hrely htold =>
        ih reply (hwp.2.2 s' reply hinv hrely htold)⟩

/-- Only what a program asks for is held to something. -/
def asking (P : Ask → Prop) : Spec σ Op Ask Reply where
  inv _ := True
  guar _ _ _ := True
  rely _ _ _ := True
  wait _ _ _ _ := True
  pre _ _ _ := True
  may _ _ _ := True
  asks _ a _ := P a
  wants _ _ _ := True
  told _ _ _ _ := True
  mayTell _ _ _ _ := True
  idle _ _ := True

theorem wp_asking_of_within {P : Ask → Prop} {okOp : Op → Prop} {okAsk : Ask → Prop} {task : Nat}
    {p : Coro σ Op Ask Reply α} {s : σ} (hp : p.Within okOp okAsk) (himp : ∀ a, okAsk a → P a) :
    wp M (asking P) task (fun _ _ => True) p s := by
  induction p generalizing s with
  | done => trivial
  | act op rest ih => exact ⟨trivial, fun _ => ih task s (hp.2 task s)⟩
  | ask a rest ih =>
      exact ⟨himp a hp.1, trivial, fun _ reply _ _ _ => ih reply (hp.2 reply)⟩

def Following (task : Nat) (f : α → Coro σ Op Ask Reply β) (post : Except Stop β → σ → Prop) :
    Except Stop α → σ → Prop
  | .ok a, s => wp M S task post (f a) s
  | .error stop, s => post (.error stop) s

theorem wp_bind {task : Nat} {post : Except Stop β → σ → Prop} {p : Coro σ Op Ask Reply α} {s : σ} :
    wp M S task post (p >>= f) s ↔
      wp M S task (Following (M := M) (S := S) task f post) p s := by
  show wp M S task post (p.bind f) s ↔ _
  induction p generalizing s with
  | done result => cases result <;> exact Iff.rfl
  | act op rest ih => simp only [Coro.bind, wp, ih]
  | ask a rest ih => simp only [Coro.bind, wp, ih]

theorem wp_attempt {task : Nat} {post : Except Stop (Except Stop α) → σ → Prop}
    {p : Coro σ Op Ask Reply α} {s : σ} :
    wp M S task post p.attempt s ↔ wp M S task (fun result => post (.ok result)) p s := by
  induction p generalizing s with
  | done result => exact Iff.rfl
  | act op rest ih => simp only [Coro.attempt, wp, ih]
  | ask a rest ih => simp only [Coro.attempt, wp, ih]

variable (M S)

/-- From the state `s` the program ends, if at all, with `R`, the invariant kept and no step
that is not guaranteed. -/
def Ends (task : Nat) (R : Except Stop α → σ → Prop) (p : Coro σ Op Ask Reply α) (s : σ) : Prop :=
  wp M S task (fun result s' => S.inv s' ∧ S.guar task s s' ∧ R result s') p s

/-- `Ends` with nothing promised of the end. -/
def Safe (task : Nat) (p : Coro σ Op Ask Reply α) (s : σ) : Prop :=
  Ends M S task (fun _ _ => True) p s

variable {M S} {task : Nat} {s : σ} {p : Coro σ Op Ask Reply α} {R R' : Except Stop α → σ → Prop}

theorem Ends.weaken (hp : Ends M S task R p s)
    (hR : ∀ result s', S.inv s' → S.guar task s s' → R result s' → R' result s') :
    Ends M S task R' p s := by
  apply wp_mono _ hp
  rintro result s' ⟨hinv, hguar, hR'⟩
  exact ⟨hinv, hguar, hR result s' hinv hguar hR'⟩

theorem Ends.safe (hp : Ends M S task R p s) : Safe M S task p s :=
  hp.weaken fun _ _ _ _ _ => trivial

theorem Ends.after (h : Sound M S) {s₀ : σ} (hguar : S.guar task s₀ s)
    (hp : Ends M S task R p s) :
    wp M S task (fun result s' => S.inv s' ∧ S.guar task s₀ s' ∧ R result s') p s := by
  apply wp_mono _ hp
  rintro result s' ⟨hinv, hguar', hR⟩
  exact ⟨hinv, h.guar_trans hguar hguar', hR⟩

theorem Ends.done (h : Sound M S) {result : Except Stop α} (hinv : S.inv s) (hR : R result s) :
    Ends M S task R (.done result) s :=
  ⟨hinv, h.guar_refl task s, hR⟩

theorem Ends.bind (h : Sound M S) {R : Except Stop α → σ → Prop} {R' : Except Stop β → σ → Prop}
    (hp : Ends M S task R p s)
    (hok : ∀ a s', S.inv s' → S.guar task s s' → R (.ok a) s' → Ends M S task R' (f a) s')
    (herror : ∀ stop s', S.inv s' → S.guar task s s' → R (.error stop) s' →
      R' (.error stop) s') : Ends M S task R' (p >>= f) s := by
  apply wp_bind.mpr
  apply wp_mono _ hp
  rintro (stop | a) s' ⟨hinv, hguar, hR⟩
  · exact ⟨hinv, hguar, herror stop s' hinv hguar hR⟩
  · exact (hok a s' hinv hguar hR).after h hguar

theorem Ends.attempt (hp : Ends M S task R p s) :
    Ends M S task (fun result s' => ∃ outcome, result = .ok outcome ∧ R outcome s')
      p.attempt s := by
  apply wp_attempt.mpr
  apply wp_mono _ hp
  rintro result s' ⟨hinv, hguar, hR⟩
  exact ⟨hinv, hguar, result, rfl, hR⟩

theorem Ends.bind_safe (h : Sound M S) (hp : Ends M S task R p s)
    (hf : ∀ a s', S.inv s' → S.guar task s s' → R (.ok a) s' → Safe M S task (f a) s') :
    Safe M S task (p >>= f) s :=
  hp.bind h hf fun _ _ _ _ _ => trivial

theorem Ends.attempt_bind (h : Sound M S) {R : Except Stop α → σ → Prop}
    {R' : Except Stop β → σ → Prop} {f : Except Stop α → Coro σ Op Ask Reply β}
    (hp : Ends M S task R p s)
    (hf : ∀ outcome s', S.inv s' → S.guar task s s' → R outcome s' →
      Ends M S task R' (f outcome) s') :
    Ends M S task R' (p.attempt >>= f) s := by
  apply hp.attempt.bind h
  · rintro a s' hinv hguar ⟨outcome, heq, hR⟩
    cases heq
    exact hf a s' hinv hguar hR
  · rintro stop s' _ _ ⟨outcome, heq, -⟩
    cases heq

theorem Safe.done (h : Sound M S) (result : Except Stop α) (hinv : S.inv s) :
    Safe M S task (.done result) s :=
  Ends.done h hinv trivial

section

variable (h : Sound M S)
include h

theorem Safe.of_within {okOp : Op → Prop} {okAsk : Ask → Prop}
    (hop : ∀ op s, okOp op → S.inv s → S.pre task op s)
    (hask : ∀ a s, okAsk a → S.inv s → S.asks task a s ∧ S.wants task a s ∧
      ∀ s', S.wait task a s s' → S.guar task s s') (hp : p.Within okOp okAsk) (hinv : S.inv s) :
    Safe M S task p s := by
  induction p generalizing s with
  | done result => exact Safe.done h result hinv
  | act op rest ih =>
      refine ⟨hop op s hp.1 hinv, fun hmay => ?_⟩
      obtain ⟨hinv', hguar, -⟩ := h.apply hinv (hop op s hp.1 hinv) hmay
      exact Ends.after h hguar (ih task s (hp.2 task s) hinv')
  | ask a rest ih =>
      obtain ⟨hasks, hwants, hwaits⟩ := hask a s hp.1 hinv
      exact ⟨hasks, hwants, fun s' reply hinv' hwait _ =>
        Ends.after h (hwaits s' hwait) (ih reply (hp.2 reply) hinv')⟩

section

variable (hp : Safe M S task p s)
include hp

theorem Safe.bind (hf : ∀ a s', S.inv s' → S.guar task s s' → Safe M S task (f a) s') :
    Safe M S task (p >>= f) s :=
  Ends.bind_safe h hp fun a s' hinv hguar _ => hf a s' hinv hguar

theorem Safe.bind_ends {R' : Except Stop β → σ → Prop}
    (hf : ∀ a s', S.inv s' → S.guar task s s' → Ends M S task R' (f a) s')
    (herror : ∀ stop s', R' (.error stop) s') : Ends M S task R' (p >>= f) s :=
  Ends.bind h hp (fun a s' hinv hguar _ => hf a s' hinv hguar) fun stop s' _ _ _ => herror stop s'

theorem Safe.attempt {f : Except Stop α → Coro σ Op Ask Reply β}
    (hf : ∀ outcome s', S.inv s' → S.guar task s s' → Safe M S task (f outcome) s') :
    Safe M S task (p.attempt >>= f) s :=
  Ends.attempt_bind h hp fun outcome s' hinv hguar _ => hf outcome s' hinv hguar

theorem Safe.rescue {handler : Coro σ Op Ask Reply α}
    (hhandler : ∀ s', S.inv s' → S.guar task s s' → Safe M S task handler s') :
    Safe M S task (p.rescue handler) s := by
  apply hp.attempt h
  rintro ((- | -) | a) s' hinv hguar
  · exact hhandler s' hinv hguar
  · exact Safe.done h _ hinv
  · exact Safe.done h _ hinv

theorem Safe.ensuring {last : Coro σ Op Ask Reply Unit}
    (hlast : ∀ s', S.inv s' → S.guar task s s' → Safe M S task last s') :
    Safe M S task (p.ensuring last) s :=
  hp.attempt h fun _ s' hinv hguar =>
    (hlast s' hinv hguar).bind h fun _ _ hinv' _ => Safe.done h _ hinv'

end

theorem Safe.forEach {body : β → Coro σ Op Ask Reply Unit} {xs : List β} (hinv : S.inv s)
    (hbody : ∀ x ∈ xs, ∀ s', S.inv s' → S.guar task s s' → Safe M S task (body x) s') :
    Safe M S task (Coro.forEach body xs) s := by
  induction xs generalizing s with
  | nil => exact Safe.done h _ hinv
  | cons x xs ih =>
      apply (hbody x (by simp) s hinv (h.guar_refl task s)).bind h
      intro _ s' hinv' hguar
      apply ih hinv'
      intro y hy s'' hinv'' hguar'
      exact hbody y (by simp [hy]) s'' hinv'' (h.guar_trans hguar hguar')

theorem Ends.act {op : Op} {rest : Nat → σ → Coro σ Op Ask Reply α} (hinv : S.inv s)
    (hpre : S.pre task op s)
    (hrest : S.may task op s → S.inv (M.apply task op s) → S.guar task s (M.apply task op s) →
      Ends M S task R (rest task s) (M.apply task op s)) : Ends M S task R (.act op rest) s := by
  refine ⟨hpre, fun hmay => ?_⟩
  obtain ⟨hinv', hguar, -⟩ := h.apply hinv hpre hmay
  exact (hrest hmay hinv' hguar).after h hguar

theorem Ends.ask {a : Ask} {rest : Except Stop Reply → Coro σ Op Ask Reply α}
    (hasks : S.asks task a s) (hwants : S.wants task a s)
    (hguar : ∀ s', S.wait task a s s' → S.guar task s s')
    (hrest : ∀ s' reply, S.inv s' → S.wait task a s s' → S.told task a reply s' →
      Ends M S task R (rest reply) s') : Ends M S task R (.ask a rest) s :=
  ⟨hasks, hwants, fun s' reply hinv' hwait htold =>
    (hrest s' reply hinv' hwait htold).after h (hguar s' hwait)⟩

end

end Qontinui
