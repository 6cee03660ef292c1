import Mathlib.Logic.Function.Basic
import Qontinui.Base.Runs

/-!
Tasks that share one state and take turns. A program acts on the state at once
and gives the turn away only where it asks its surroundings for something; what
it asked for is served at one moment and the program goes on at a later one. A
task that was cancelled meanwhile is told so in place of its answer.
-/

namespace Qontinui

/-- How a program ends without a result: an exception, or its task was cancelled. -/
inductive Stop where
  | raised
  | cancelled
deriving DecidableEq, Repr

/-- A program over the state `σ`. An action shows the rest of the program which task
runs it and the state before it. -/
inductive Coro (σ Op Ask Reply α : Type) where
  | done (result : Except Stop α)
  | act (op : Op) (rest : Nat → σ → Coro σ Op Ask Reply α)
  | ask (ask : Ask) (rest : Except Stop Reply → Coro σ Op Ask Reply α)

namespace Coro

variable {σ Op Ask Reply α β : Type}

protected def bind : Coro σ Op Ask Reply α → (α → Coro σ Op Ask Reply β) → Coro σ Op Ask Reply β
  | done (.ok a), f => f a
  | done (.error stop), _ => done (.error stop)
  | act op rest, f => act op fun task state => (rest task state).bind f
  | ask a rest, f => ask a fun reply => (rest reply).bind f

instance : Monad (Coro σ Op Ask Reply) where
  pure a := done (.ok a)
  bind := Coro.bind

/-- Run a program to its end and make its outcome the result. -/
def attempt : Coro σ Op Ask Reply α → Coro σ Op Ask Reply (Except Stop α)
  | done result => done (.ok result)
  | act op rest => act op fun task state => (rest task state).attempt
  | ask a rest => ask a fun reply => (rest reply).attempt

/-- `try: … except Exception: handler`: a cancellation is no exception. -/
def rescue (p : Coro σ Op Ask Reply α) (handler : Coro σ Op Ask Reply α) :
    Coro σ Op Ask Reply α :=
  p.attempt >>= fun
    | .error .raised => handler
    | result => done result

/-- `try: … finally: last`. -/
def ensuring (p : Coro σ Op Ask Reply α) (last : Coro σ Op Ask Reply Unit) :
    Coro σ Op Ask Reply α :=
  p.attempt >>= fun result => last >>= fun _ => done result

/-- `for x in xs: body x`. -/
def forEach (body : β → Coro σ Op Ask Reply Unit) : List β → Coro σ Op Ask Reply Unit
  | [] => pure ()
  | x :: xs => body x >>= fun _ => forEach body xs

/-- Every action and every ask the program may come to, whatever it is shown and told. -/
def Within (okOp : Op → Prop) (okAsk : Ask → Prop) : Coro σ Op Ask Reply α → Prop
  | done _ => True
  | act op rest => okOp op ∧ ∀ task state, (rest task state).Within okOp okAsk
  | ask a rest => okAsk a ∧ ∀ reply, (rest reply).Within okOp okAsk

def await (a : Ask) : Coro σ Op Ask Reply Reply := ask a done

/-- The actions up to the next ask or the end. -/
def advance (apply : Nat → Op → σ → σ) (task : Nat) :
    Coro σ Op Ask Reply α → σ →
      σ × (Except Stop α ⊕ (Ask × (Except Stop Reply → Coro σ Op Ask Reply α)))
  | done result, state => (state, .inl result)
  | act op rest, state => (rest task state).advance apply task (apply task op state)
  | ask a rest, state => (state, .inr (a, rest))

section Within

variable {okOp : Op → Prop} {okAsk : Ask → Prop} {p : Coro σ Op Ask Reply α}

theorem Within.mono {okOp' : Op → Prop} {okAsk' : Ask → Prop} (hp : p.Within okOp okAsk)
    (hop : ∀ op, okOp op → okOp' op) (hask : ∀ a, okAsk a → okAsk' a) : p.Within okOp' okAsk' := by
  induction p with
  | done => trivial
  | act op rest ih => exact ⟨hop op hp.1, fun task s => ih task s (hp.2 task s)⟩
  | ask a rest ih => exact ⟨hask a hp.1, fun reply => ih reply (hp.2 reply)⟩

theorem Within.bind {f : α → Coro σ Op Ask Reply β} (hp : p.Within okOp okAsk)
    (hf : ∀ a, (f a).Within okOp okAsk) : (p >>= f).Within okOp okAsk := by
  show (p.bind f).Within okOp okAsk
  induction p with
  | done result =>
      cases result with
      | ok a => exact hf a
      | error stop => trivial
  | act op rest ih => exact ⟨hp.1, fun task s => ih task s (hp.2 task s)⟩
  | ask a rest ih => exact ⟨hp.1, fun reply => ih reply (hp.2 reply)⟩

theorem Within.attempt (hp : p.Within okOp okAsk) : p.attempt.Within okOp okAsk := by
  induction p with
  | done => trivial
  | act op rest ih => exact ⟨hp.1, fun task s => ih task s (hp.2 task s)⟩
  | ask a rest ih => exact ⟨hp.1, fun reply => ih reply (hp.2 reply)⟩

theorem Within.rescue {handler : Coro σ Op Ask Reply α} (hp : p.Within okOp okAsk)
    (hhandler : handler.Within okOp okAsk) : (p.rescue handler).Within okOp okAsk := by
  apply hp.attempt.bind
  rintro ((- | -) | a)
  · exact hhandler
  · trivial
  · trivial

theorem Within.ensuring {last : Coro σ Op Ask Reply Unit} (hp : p.Within okOp okAsk)
    (hlast : last.Within okOp okAsk) : (p.ensuring last).Within okOp okAsk :=
  hp.attempt.bind fun _ => hlast.bind fun _ => trivial

theorem Within.forEach {body : β → Coro σ Op Ask Reply Unit} {xs : List β}
    (hbody : ∀ x ∈ xs, (body x).Within okOp okAsk) : (Coro.forEach body xs).Within okOp okAsk := by
  induction xs with
  | nil => trivial
  | cons x xs ih =>
      exact (hbody x List.mem_cons_self).bind fun _ =>
        ih fun y hy => hbody y (List.mem_cons_of_mem _ hy)

end Within

/-- The states the program passes on its way to its next ask or the end. -/
def passes (apply : Nat → Op → σ → σ) (task : Nat) : Coro σ Op Ask Reply α → σ → List σ
  | done _, state | ask _ _, state => [state]
  | act op rest, state => state :: (rest task state).passes apply task (apply task op state)

theorem head_mem_passes (apply : Nat → Op → σ → σ) (task : Nat) (p : Coro σ Op Ask Reply α)
    (state : σ) : state ∈ p.passes apply task state := by
  cases p <;> exact List.mem_cons_self

end Coro

/-- The state the tasks share, and what the environment does to it. A task's program is
one turn of it; the result `true` starts the next turn. -/
structure Machine (σ Op Ask Reply Env : Type) where
  apply : Nat → Op → σ → σ
  program : Nat → σ → Coro σ Op Ask Reply Bool
  /-- A task that has been started and has not ended. -/
  live : Nat → σ → Bool
  cancelled : Nat → σ → Bool
  uncancel : Nat → σ → σ
  finish : Nat → σ → σ
  /-- What the environment can answer. -/
  allowed : Ask → Except Stop Reply → σ → Bool
  served : Nat → Ask → Except Stop Reply → σ → σ
  outside : Env → σ → σ

/-- A program that has asked and waits, perhaps already answered. -/
structure Parked (σ Op Ask Reply : Type) where
  ask : Ask
  rest : Except Stop Reply → Coro σ Op Ask Reply Bool
  answer : Option (Except Stop Reply)

/-- The shared state and where each task waits; a live task that waits nowhere is about
to begin a turn. -/
structure Tasks (σ Op Ask Reply : Type) where
  state : σ
  parked : Nat → Option (Parked σ Op Ask Reply)

inductive TaskEvent (Reply Env : Type) where
  | serve (task : Nat) (reply : Except Stop Reply)
  | resume (task : Nat)
  | outside (event : Env)

namespace Machine

variable {σ Op Ask Reply Env : Type} (M : Machine σ Op Ask Reply Env)

/-- The program a task goes on with when it gets its turn, and the state it does so in. -/
def next (c : Tasks σ Op Ask Reply) (task : Nat) :
    Option (Coro σ Op Ask Reply Bool × σ) :=
  if M.live task c.state then
    match c.parked task with
    | none => some (M.program task c.state, c.state)
    | some p =>
        if M.cancelled task c.state then
          some (p.rest (.error .cancelled), M.uncancel task c.state)
        else p.answer.map fun reply => (p.rest reply, c.state)
  else none

/-- Let the task act until it asks or ends. -/
def settle (c : Tasks σ Op Ask Reply) (task : Nat) (p : Coro σ Op Ask Reply Bool) (state : σ) :
    Tasks σ Op Ask Reply :=
  match p.advance M.apply task state with
  | (state', .inl (.ok true)) => ⟨state', Function.update c.parked task none⟩
  | (state', .inl _) => ⟨M.finish task state', Function.update c.parked task none⟩
  | (state', .inr (a, rest)) => ⟨state', Function.update c.parked task (some ⟨a, rest, none⟩)⟩

def step (c : Tasks σ Op Ask Reply) : TaskEvent Reply Env → Tasks σ Op Ask Reply
  | .serve task reply =>
      match c.parked task with
      | some ⟨a, rest, none⟩ =>
          if M.allowed a reply c.state then
            ⟨M.served task a reply c.state,
              Function.update c.parked task (some ⟨a, rest, some reply⟩)⟩
          else c
      | _ => c
  | .resume task =>
      match M.next c task with
      | none => c
      | some (p, state) => M.settle c task p state
  | .outside event => { c with state := M.outside event c.state }

def issued (c : Tasks σ Op Ask Reply) : TaskEvent Reply Env → Option (Nat × Ask)
  | .resume task =>
      match M.next c task with
      | none => none
      | some (p, state) =>
          match p.advance M.apply task state with
          | (_, .inr (a, _)) => some (task, a)
          | _ => none
  | _ => none

/-- The states an event finds and, where a task goes on, those it passes. -/
def passes (c : Tasks σ Op Ask Reply) : TaskEvent Reply Env → List σ
  | .resume task =>
      match M.next c task with
      | none => [c.state]
      | some (p, state) => c.state :: p.passes M.apply task state
  | _ => [c.state]

/-! ### What everything keeps -/

/-- A property of the state that nothing the machine does ends. -/
structure Keeps (P : σ → Prop) : Prop where
  apply : ∀ task op s, P s → P (M.apply task op s)
  uncancel : ∀ task s, P s → P (M.uncancel task s)
  finish : ∀ task s, P s → P (M.finish task s)
  served : ∀ task a reply s, P s → P (M.served task a reply s)
  outside : ∀ event s, P s → P (M.outside event s)

variable {M}

theorem Keeps.advance {P : σ → Prop} (h : M.Keeps P) {α : Type} {task : Nat}
    {p : Coro σ Op Ask Reply α} {s : σ} (hs : P s) : P (p.advance M.apply task s).1 := by
  induction p generalizing s with
  | done | ask => exact hs
  | act op rest ih => exact ih task s (h.apply task op s hs)

theorem Keeps.passes_program {P : σ → Prop} (h : M.Keeps P) {α : Type} {task : Nat}
    {p : Coro σ Op Ask Reply α} {s : σ} (hs : P s) : ∀ s' ∈ p.passes M.apply task s, P s' := by
  induction p generalizing s with
  | done | ask =>
      intro s' hs'
      exact List.mem_singleton.mp hs' ▸ hs
  | act op rest ih =>
      intro s' hs'
      rcases List.mem_cons.mp hs' with rfl | hlater
      · exact hs
      · exact ih task s (h.apply task op s hs) s' hlater

theorem Keeps.next {P : σ → Prop} (h : M.Keeps P) {c : Tasks σ Op Ask Reply} {task : Nat}
    {p : Coro σ Op Ask Reply Bool} {s : σ} (hc : P c.state)
    (hnext : M.next c task = some (p, s)) : P s := by
  simp only [Machine.next] at hnext
  split at hnext
  · split at hnext
    · cases hnext
      exact hc
    · split at hnext
      · cases hnext
        exact h.uncancel task _ hc
      · obtain ⟨_, _, heq⟩ := Option.map_eq_some_iff.mp hnext
        cases heq
        exact hc
  · cases hnext

theorem Keeps.passes {P : σ → Prop} (h : M.Keeps P) {c : Tasks σ Op Ask Reply}
    {event : TaskEvent Reply Env} (hc : P c.state) : ∀ s ∈ M.passes c event, P s := by
  cases event with
  | serve | outside =>
      intro s hs
      exact List.mem_singleton.mp hs ▸ hc
  | resume task =>
      simp only [Machine.passes]
      split
      · intro s hs
        exact List.mem_singleton.mp hs ▸ hc
      · next p s₀ hnext =>
          intro s hs
          rcases List.mem_cons.mp hs with rfl | hlater
          · exact hc
          · exact h.passes_program (h.next hc hnext) s hlater

theorem Keeps.step {P : σ → Prop} (h : M.Keeps P) (c : Tasks σ Op Ask Reply)
    (event : TaskEvent Reply Env) (hc : P c.state) : P (M.step c event).state := by
  cases event with
  | serve task reply =>
      simp only [Machine.step]
      split
      · split
        · exact h.served task _ reply _ hc
        · exact hc
      · exact hc
  | outside event => exact h.outside event _ hc
  | resume task =>
      simp only [Machine.step]
      split
      · exact hc
      · next p s hnext =>
          have hadvance : P (p.advance M.apply task s).1 := h.advance (h.next hc hnext)
          revert hadvance
          simp only [settle]
          generalize p.advance M.apply task s = out
          obtain ⟨s', result | ⟨a, rest⟩⟩ := out
          · intro hs'
            cases result with
            | error stop => exact h.finish task s' hs'
            | ok goesOn =>
                cases goesOn with
                | true => exact hs'
                | false => exact h.finish task s' hs'
          · exact id

variable (M)

/-! ### What only an answer changes -/

variable {γ : Type} {M}

/-- A part of the state that the tasks do not touch by themselves. -/
structure OnlyServed (M : Machine σ Op Ask Reply Env) (f : σ → γ) : Prop where
  apply : ∀ task op s, f (M.apply task op s) = f s
  uncancel : ∀ task s, f (M.uncancel task s) = f s
  finish : ∀ task s, f (M.finish task s) = f s
  outside : ∀ event s, f (M.outside event s) = f s

theorem OnlyServed.advance {f : σ → γ} (h : M.OnlyServed f) {α : Type} (task : Nat)
    (p : Coro σ Op Ask Reply α) (s : σ) : f (p.advance M.apply task s).1 = f s := by
  induction p generalizing s with
  | done | ask => rfl
  | act op rest ih => exact (ih task s _).trans (h.apply task op s)

theorem OnlyServed.resume {f : σ → γ} (h : M.OnlyServed f) (c : Tasks σ Op Ask Reply)
    (task : Nat) : f (M.step c (.resume task)).state = f c.state := by
  have hnext {p s} (hp : M.next c task = some (p, s)) : f s = f c.state := by
    simp only [Machine.next] at hp
    split at hp
    · split at hp
      · cases hp
        rfl
      · split at hp
        · cases hp
          exact h.uncancel task _
        · obtain ⟨_, _, heq⟩ := Option.map_eq_some_iff.mp hp
          cases heq
          rfl
    · cases hp
  simp only [Machine.step]
  split
  · rfl
  · next p s hp =>
      have hadvance := (h.advance task p s).trans (hnext hp)
      revert hadvance
      simp only [settle]
      generalize p.advance M.apply task s = out
      intro hadvance
      match out with
      | (s', .inl (.ok true)) => exact hadvance
      | (s', .inl (.ok false)) => exact (h.finish task s').trans hadvance
      | (s', .inl (.error _)) => exact (h.finish task s').trans hadvance
      | (s', .inr _) => exact hadvance

theorem step_serve (c : Tasks σ Op Ask Reply) (task : Nat) (reply : Except Stop Reply) :
    M.step c (.serve task reply) = c ∨
      ∃ a rest, c.parked task = some ⟨a, rest, none⟩ ∧ M.allowed a reply c.state = true ∧
        (M.step c (.serve task reply)).state = M.served task a reply c.state := by
  simp only [step]
  split
  · next a rest hparked =>
      split
      · next hallowed => exact .inr ⟨a, rest, hparked, hallowed, rfl⟩
      · exact .inl rfl
  · exact .inl rfl

end Machine

end Qontinui
