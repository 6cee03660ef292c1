import Qontinui.Relay.Orderly

/-!
Every program of the relay, checked against what its task may rely on: each
lemma says of one program what it needs to be true where it starts.
-/

namespace Qontinui.Relay

variable {rt : Runtime} {careful : Prop} {task : Nat} {s : Socket} {α β : Type}

variable (rt careful task) in
abbrev Behaves (p : Async α) (s : Socket) : Prop :=
  Safe (machine rt) (orderly rt careful) task p s

variable (rt careful task) in
/-- The program may run in this state, and ends in the given way. -/
abbrev Achieves (R : Except Stop α → Socket → Prop) (p : Async α) (s : Socket) : Prop :=
  Ends (machine rt) (orderly rt careful) task R p s

/-! ### The vocabulary -/

variable {R : Except Stop β → Socket → Prop} {a : Ask} {target rid : String} {att : Attachment}
  {op : Op} {p : Async α} {frame : Frame}

section

variable (hinv : Orderly rt careful s)
include hinv

theorem act_bind {give : Nat → Socket → α} {f : α → Async β}
    (hpre : (orderly rt careful).pre task op s)
    (hf : (orderly rt careful).may task op s → Orderly rt careful (Socket.apply task op s) →
      (orderly rt careful).guar task s (Socket.apply task op s) →
      Achieves rt careful task R (f (give task s)) (Socket.apply task op s)) :
    Achieves rt careful task R ((Coro.act op fun task s => pure (give task s) : Async α) >>= f) s :=
  Ends.act orderly_sound hinv hpre hf

theorem pop_bind {give : Socket → α} {f : α → Async β} (hpre : (orderly rt careful).pre task op s)
    (hf : Orderly rt careful (Socket.apply task op s) →
      (orderly rt careful).guar task s (Socket.apply task op s) →
      Achieves rt careful task R (f (give s)) (Socket.apply task op s)) :
    Achieves rt careful task R ((Coro.act op fun _ s => pure (give s) : Async α) >>= f) s :=
  act_bind hinv hpre fun _ => hf

theorem see_bind {f : Socket → Async β} (hf : Achieves rt careful task R (f s) s) :
    Achieves rt careful task R (see >>= f) s :=
  act_bind hinv trivial fun _ _ _ => hf

theorem currentTask_bind {f : Nat → Async β} (hf : Achieves rt careful task R (f task) s) :
    Achieves rt careful task R (currentTask >>= f) s :=
  act_bind hinv trivial fun _ _ _ => hf

theorem perform_bind {f : Unit → Async β} (hpre : (orderly rt careful).pre task op s)
    (hf : (orderly rt careful).may task op s → Orderly rt careful (Socket.apply task op s) →
      (orderly rt careful).guar task s (Socket.apply task op s) →
      Achieves rt careful task R (f ()) (Socket.apply task op s)) :
    Achieves rt careful task R (perform op >>= f) s :=
  act_bind hinv hpre hf

theorem perform_behaves (hpre : (orderly rt careful).pre task op s) :
    Behaves rt careful task (perform op) s :=
  Ends.act orderly_sound hinv hpre fun _ hinv' _ => Safe.done orderly_sound _ hinv'

end

theorem await_achieves (hne : ∀ target, a ≠ .nextMessage target)
    (hasks : (orderly rt careful).asks task a s) (hwants : (orderly rt careful).wants task a s) :
    Achieves rt careful task
      (fun reply s' => (orderly rt careful).told task a reply s' ∧
        (orderly rt careful).wait task a s s') (Coro.await a) s :=
  Ends.ask orderly_sound hasks hwants (fun _ hwait => ⟨hwait.1, hwait.2.1 hne⟩)
    fun _ _ hinv' hwait htold => Ends.done orderly_sound hinv' ⟨htold, hwait⟩

theorem pure_behaves (a : α) (hinv : Orderly rt careful s) : Behaves rt careful task (pure a) s :=
  Safe.done orderly_sound _ hinv

theorem then_pure {f : α → β} (hp : Behaves rt careful task p s) :
    Behaves rt careful task (p >>= fun a => pure (f a)) s :=
  hp.bind orderly_sound fun _ _ hinv _ => pure_behaves _ hinv

theorem awaitUnit_behaves (hne : ∀ target, a ≠ .nextMessage target)
    (hasks : (orderly rt careful).asks task a s) (hwants : (orderly rt careful).wants task a s) :
    Behaves rt careful task (awaitUnit a) s := by
  apply (await_achieves hne hasks hwants).bind_safe orderly_sound
  intro _ s' hinv' _ _
  exact pure_behaves _ hinv'

theorem awaitFlag_achieves (hne : ∀ target, a ≠ .nextMessage target)
    (hasks : (orderly rt careful).asks task a s) (hwants : (orderly rt careful).wants task a s) :
    Achieves rt careful task
      (fun reply s' =>
        (reply = .ok true → (orderly rt careful).told task a (.ok (.flag true)) s') ∧
          (orderly rt careful).wait task a s s') (awaitFlag a) s := by
  apply (await_achieves hne hasks hwants).bind orderly_sound
  · intro reply s' hinv' _ ⟨htold, hwait⟩
    split
    · next b =>
        apply Ends.done orderly_sound hinv'
        refine ⟨fun heq => ?_, hwait⟩
        cases heq
        exact htold
    · apply Ends.done orderly_sound hinv'
      exact ⟨fun heq => (by cases heq), hwait⟩
  · intro stop s' _ _ ⟨_, hwait⟩
    exact ⟨fun heq => (by cases heq), hwait⟩

/-! ### What leaves the loop's candidate as it is -/

variable (rt careful task) in
/-- The program may run in this state, and does nothing that only the source's loop does. -/
abbrev Steady (p : Async α) (s : Socket) : Prop :=
  Achieves rt careful task (fun _ s' => task = 0 → Unadmitting s s') p s

theorem Steady.after {s' : Socket} (hp : Steady rt careful task p s')
    (hun : task = 0 → Unadmitting s s') :
    Achieves rt careful task (fun _ s'' => task = 0 → Unadmitting s s'') p s' :=
  hp.weaken fun _ _ _ _ hun' hzero => (hun hzero).trans (hun' hzero)

theorem steady_pure (a : α) (hinv : Orderly rt careful s) : Steady rt careful task (pure a) s :=
  Ends.done orderly_sound hinv fun _ => Unadmitting.refl s

theorem steady_bind {f : α → Async β} (hp : Steady rt careful task p s)
    (hf : ∀ a s', Orderly rt careful s' → Steady rt careful task (f a) s') :
    Steady rt careful task (p >>= f) s :=
  Ends.bind orderly_sound hp (fun a s' hinv' _ hun => Steady.after (hf a s' hinv') hun)
    fun _ _ _ _ hun => hun

theorem steady_rescue {handler : Async α} (hp : Steady rt careful task p s)
    (hhandler : ∀ s', Orderly rt careful s' → Steady rt careful task handler s') :
    Steady rt careful task (p.rescue handler) s := by
  apply hp.attempt_bind orderly_sound
  rintro ((- | -) | a) s' hinv' _ hun
  · exact Steady.after (hhandler s' hinv') hun
  · exact Ends.done orderly_sound hinv' hun
  · exact Ends.done orderly_sound hinv' hun

theorem steady_see {f : Socket → Async β} (hinv : Orderly rt careful s)
    (hf : Steady rt careful task (f s) s) : Steady rt careful task (see >>= f) s :=
  see_bind hinv hf

theorem steady_perform (hop : op.Lesser) (hinv : Orderly rt careful s)
    (hpre : (orderly rt careful).pre task op s) : Steady rt careful task (perform op) s :=
  Ends.act orderly_sound hinv hpre fun _ hinv' _ =>
    Ends.done orderly_sound hinv' fun _ => (apply_shrinks hop task s).unadmitting

section

variable (hne : ∀ target, a ≠ .nextMessage target)
include hne

section

variable (hnone : a.grantOfCreate = none)
include hnone

section

variable (hasks : (orderly rt careful).asks task a s)
include hasks

section

variable (hwants : (orderly rt careful).wants task a s)
include hwants

theorem steady_await : Steady rt careful task (Coro.await a) s :=
  (await_achieves hne hasks hwants).weaken fun _ _ _ _ hresult hzero =>
    hresult.2.2.2 hzero hnone

theorem steady_awaitUnit : Steady rt careful task (awaitUnit a) s :=
  steady_bind (steady_await hne hnone hasks hwants) fun _ _ hinv' => steady_pure _ hinv'

theorem steady_awaitFlag : Steady rt careful task (awaitFlag a) s :=
  (awaitFlag_achieves hne hasks hwants).weaken fun _ _ _ _ hresult hzero =>
    hresult.2.2.2 hzero hnone

end

end

end

end

/-! ### Core -/

theorem sendToSource_behaves {payload : Frame}
    (hpayload : (orderly rt careful).asks task (.sendToSource payload) s) :
    Behaves rt careful task (sendToSource payload) s :=
  awaitUnit_behaves (fun _ h => by cases h) hpayload trivial

theorem sendToSource_of_type {payload : Frame}
    (htype : payload.get "type" ∉ paneFrameTypes) :
    Behaves rt careful task (sendToSource payload) s :=
  sendToSource_behaves fun _ h => (htype h).elim

theorem refuse_behaves {code message : String} {requestId : Json} {grantJti : Option String}
    {terminalId : Json} :
    Behaves rt careful task (refuse code message requestId grantJti terminalId) s :=
  sendToSource_of_type (by simp [refusal, Frame.get, paneFrameTypes])

theorem sendTerminal_behaves
    (hframe : (orderly rt careful).asks task (.sendTerminal target frame) s)
    (hcreate : (orderly rt careful).wants task (.sendTerminal target frame) s) :
    Behaves rt careful task (sendTerminal target frame) s :=
  (awaitFlag_achieves (fun _ h => by cases h) hframe hcreate).safe

theorem grantOfCreate_of_type {type : String} (htype : frame.get "type" = .str type)
    (hne : type ≠ "terminal_create") : grantOfCreate frame = none := by
  unfold grantOfCreate
  rw [htype]
  split
  · next heq _ =>
      cases heq
      exact if_neg hne
  · rfl

theorem sendTerminal_of_type {type : String} (htype : frame.get "type" = .str type)
    (hwork : Json.str type ∉ workFrameTypes) (hcreate : type ≠ "terminal_create") :
    Behaves rt careful task (sendTerminal target frame) s := by
  apply sendTerminal_behaves
  · intro h
    exact (hwork (htype ▸ h)).elim
  · intro jti hjti
    rw [grantOfCreate_of_type htype hcreate] at hjti
    cases hjti

theorem forwarded_get (rt : Runtime) (s : Socket) (att : Attachment) (targetType : String) (extra : Frame) :
    (forwarded rt s att targetType extra).get "type" = .str targetType ∧
      (forwarded rt s att targetType extra).get "terminal_id" =
        optional (s.marks att.id).terminalId ∧
      (forwarded rt s att targetType extra).get "remote" = .obj att.remoteBlock := by
  simp [forwarded, Frame.override, Frame.get, Fields.lookup_set_ne]

theorem forward_behaves {msg : Frame} {targetType : String} {extra : Frame}
    (hinv : Orderly rt careful s) (htype : targetType ≠ "terminal_create") (hframe : ∃ terminal,
      Works s att.targetDeviceId (forwarded rt s att targetType extra) att terminal) :
    Behaves rt careful task (forward rt msg att targetType extra) s := by
  apply see_bind hinv
  have hcreate : (orderly rt careful).wants task
      (.sendTerminal att.targetDeviceId (forwarded rt s att targetType extra)) s := by
    intro jti hjti
    rw [grantOfCreate_of_type (forwarded_get rt s att targetType extra).1 htype] at hjti
    cases hjti
  apply (sendTerminal_behaves (fun _ => ⟨att, hframe⟩) hcreate).bind orderly_sound
  intro sent s' hinv' _
  split
  · exact pure_behaves _ hinv'
  · apply see_bind hinv'
    apply refuse_behaves.bind orderly_sound
    intro _ s'' hinv'' _
    exact pure_behaves _ hinv''

theorem detachTarget_behaves {terminalId : Option String} (hinv : Orderly rt careful s) :
    Behaves rt careful task (detachTarget rt att terminalId) s := by
  unfold detachTarget
  split
  · exact pure_behaves _ hinv
  · apply see_bind hinv
    apply Safe.rescue orderly_sound
    · apply Safe.bind orderly_sound
      · exact sendTerminal_of_type rfl (by simp [workFrameTypes]) (by simp)
      · intro _ s' hinv' _
        exact pure_behaves _ hinv'
    · exact fun s' hinv' _ => pure_behaves _ hinv'

/-! ### Listeners -/

theorem closePubsub_steady (hinv : Orderly rt careful s) :
    Steady rt careful task (closePubsub target) s := by
  have hclose {s : Socket} (hinv : Orderly rt careful s) :
      Steady rt careful task (Coro.rescue (awaitUnit (.closePubsub target)) (pure ())) s :=
    steady_rescue
      (steady_awaitUnit (fun _ h => by cases h) (by trivial) (by trivial) (by trivial))
      fun _ hinv' => steady_pure _ hinv'
  exact steady_bind (hclose hinv) fun _ _ hinv' => hclose hinv'

theorem sendCommand_steady {subscribe : Bool} :
    Steady rt careful task (awaitFlag (.sendCommand target subscribe)) s :=
  steady_awaitFlag (fun _ h => by cases h) (by trivial) (by trivial) (by trivial)

theorem unsubscribeRunner_steady (hinv : Orderly rt careful s) :
    Steady rt careful task (unsubscribeRunner target) s := by
  apply steady_see hinv
  split
  · apply steady_bind (steady_perform (by trivial) hinv (by trivial))
    intro _ s₁ hinv₁
    apply steady_rescue
    · apply steady_bind sendCommand_steady
      exact fun _ _ hinv₂ => steady_pure _ hinv₂
    · exact fun _ hinv₂ => steady_pure _ hinv₂
  · exact steady_pure _ hinv

theorem spawn_bind {job : Job} {f : Nat → Async β} (hinv : Orderly rt careful s)
    (hsource : job ≠ .source) (hready : JobReady s job)
    (hf : Orderly rt careful (Socket.apply task (.spawn job) s) →
      (orderly rt careful).guar task s (Socket.apply task (.spawn job) s) →
      Achieves rt careful task R (f s.tasks.length) (Socket.apply task (.spawn job) s)) :
    Achieves rt careful task R (spawn job >>= f) s :=
  Ends.act orderly_sound hinv ⟨hsource, hready⟩ fun _ => hf

theorem ensureListener_steady (hinv : Orderly rt careful s) :
    Steady rt careful task (ensureListener target) s := by
  apply steady_see hinv
  split
  · exact steady_pure _ hinv
  · have hopen : Steady rt careful task (awaitUnit (.openPubsub target)) s :=
      steady_awaitUnit (fun _ h => by cases h) (by trivial) (by trivial) (by trivial)
    apply hopen.attempt_bind orderly_sound
    intro opened s₁ hinv₁ _ hun₁
    match opened with
    | .error .raised =>
        apply Steady.after _ hun₁
        apply steady_bind (closePubsub_steady hinv₁)
        exact fun _ _ hinv₂ => Ends.done orderly_sound hinv₂ fun _ => Unadmitting.refl _
    | .error .cancelled => exact Ends.done orderly_sound hinv₁ hun₁
    | .ok _ =>
        apply Steady.after _ hun₁
        apply spawn_bind hinv₁ (fun h => by cases h) (by trivial)
        intro hinv₂ _
        have hun₂ : Unadmitting s₁ (Socket.apply task (.spawn (.listener target)) s₁) :=
          ⟨rfl, fun _ h => .inl h, fun _ => rfl⟩
        apply Steady.after _ fun _ => hun₂
        apply steady_bind (steady_perform (by trivial) hinv₂ (by trivial))
        intro _ s₃ hinv₃
        apply steady_rescue
        · apply steady_bind sendCommand_steady
          intro published s₄ hinv₄
          split
          · apply steady_see hinv₄
            split
            · exact steady_perform (by trivial) hinv₄ (by trivial)
            · apply steady_bind (steady_perform (by trivial) hinv₄ (by trivial))
              exact fun _ _ hinv₅ => unsubscribeRunner_steady hinv₅
          · exact steady_pure _ hinv₄
        · exact fun _ hinv₄ => steady_pure _ hinv₄

theorem gather_behaves {other : Nat} :
    Behaves rt careful task (gather other) s := by
  apply (awaitUnit_behaves (fun _ h => by cases h) (by trivial) (by trivial)).attempt orderly_sound
  intro outcome s' hinv' _
  split
  · apply perform_bind hinv' (by trivial)
    exact fun _ hinv'' _ => Safe.done orderly_sound _ hinv''
  · exact Safe.done orderly_sound _ hinv'

section

variable (hinv : Orderly rt careful s)
include hinv

theorem finishListener_behaves {listener : Nat} :
    Behaves rt careful task (finishListener target listener) s := by
  apply perform_bind hinv (by trivial)
  intro _ hinv₁ _
  apply gather_behaves.bind orderly_sound
  intro _ s₂ hinv₂ _
  apply (closePubsub_steady hinv₂).safe.bind orderly_sound
  exact fun _ _ hinv₃ _ => (unsubscribeRunner_steady hinv₃).safe

theorem stopListener_behaves : Behaves rt careful task (stopListener target) s := by
  apply pop_bind hinv (by trivial)
  intro hinv₁ _
  split
  · exact pure_behaves _ hinv₁
  · apply currentTask_bind hinv₁
    split
    · apply spawn_bind hinv₁ (fun h => by cases h) (by trivial)
      exact fun hinv₂ _ => pure_behaves _ hinv₂
    · exact finishListener_behaves hinv₁

/-! ### Teardown -/

theorem cancelEndTimer_behaves : Behaves rt careful task (cancelEndTimer rid) s := by
  apply pop_bind hinv (by trivial)
  intro hinv₁ _
  split
  · exact pure_behaves _ hinv₁
  · apply currentTask_bind hinv₁
    split
    · exact pure_behaves _ hinv₁
    · exact perform_behaves hinv₁ (by trivial)

theorem maybeStopListener_behaves : Behaves rt careful task (maybeStopListener target) s := by
  apply see_bind hinv
  split
  · exact pure_behaves _ hinv
  · split
    · exact pure_behaves _ hinv
    · exact stopListener_behaves hinv

theorem sweepEnd_behaves :
    Behaves rt careful task (popEnd rid >>= fun _ => cancelEndTimer rid) s := by
  apply pop_bind hinv (by trivial)
  exact fun hinv₁ _ => cancelEndTimer_behaves hinv₁

theorem dropAttachment_behaves
    (hatt : att ∈ s.history.registered ∨ task = 0 ∧ att ∈ s.history.claimed) :
    Behaves rt careful task (dropAttachment att) s := by
  have hrelease {s : Socket} (hinv : Orderly rt careful s) (hdropped : att ∈ s.history.dropped) :
      Behaves rt careful task
        (do
          let release ← spawn (.releaseRegistry att)
          Coro.rescue (awaitUnit (.shield release)) (pure ())
          maybeStopListener att.targetDeviceId) s := by
    apply spawn_bind hinv (fun h => by cases h) (by exact hdropped)
    intro hinv₁ _
    apply Safe.bind orderly_sound
    · apply Safe.rescue orderly_sound
      · exact awaitUnit_behaves (fun _ h => by cases h) trivial trivial
      · exact fun _ hinv₂ _ => pure_behaves _ hinv₂
    · exact fun _ _ hinv₂ _ => maybeStopListener_behaves hinv₂
  apply perform_bind hinv (by exact hatt)
  intro _ hinv₁ _
  have hdropped : att ∈ (Socket.apply task (.drop att) s).history.dropped := List.mem_cons_self
  dsimp only
  split
  · apply see_bind hinv₁
    apply (Safe.forEach orderly_sound hinv₁ _).bind orderly_sound
    · exact fun _ s₂ hinv₂ hguar => hrelease hinv₂ (hguar.1.dropped hdropped)
    · exact fun _ _ _ hinv₂ _ => sweepEnd_behaves hinv₂
  · exact hrelease hinv₁ hdropped

theorem evict_behaves {code message : String} :
    Behaves rt careful task (evict rt att code message) s := by
  apply see_bind hinv
  split
  · next hheld =>
      obtain ⟨-, -, hregistered⟩ := hinv.held hheld
      apply perform_bind hinv (by trivial)
      intro _ hinv₁ hguar₁
      apply Safe.bind orderly_sound
      · exact sendToSource_of_type (by simp [evictionNotice, Frame.get, paneFrameTypes])
      · intro _ s₂ hinv₂ hguar₂
        apply see_bind hinv₂
        apply (detachTarget_behaves hinv₂).bind orderly_sound
        intro _ s₃ hinv₃ hguar₃
        apply dropAttachment_behaves hinv₃
        exact .inl (hguar₃.1.registered (hguar₂.1.registered (hguar₁.1.registered hregistered)))
  · exact pure_behaves _ hinv

theorem reapExpired_behaves {exceptJti : Option String} :
    Behaves rt careful task (reapExpired rt exceptJti) s := by
  apply see_bind hinv
  exact Safe.forEach orderly_sound hinv fun _ _ _ hinv' _ => evict_behaves hinv'

end

end Qontinui.Relay
