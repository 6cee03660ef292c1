import Qontinui.Relay.OrderlyPrograms

/-!
The source's side checked: what a verified grant vouches for, what the doors let
through, and every frame the source may send.
-/

namespace Qontinui.Relay

variable {rt : Runtime} {careful : Prop} {task : Nat} {s : Socket} {α β : Type}

/-- A refusal ends in what the program then returns. -/
theorem refuse_achieves {R : Except Stop β → Socket → Prop} {code message : String}
    {requestId terminalId : Json} {grantJti : Option String} {value : β}
    (hvalue : ∀ s', R (.ok value) s') (hstop : ∀ stop s', R (.error stop) s') :
    Achieves rt careful task R (do
      refuse code message requestId grantJti terminalId
      pure value) s :=
  refuse_behaves.bind_ends orderly_sound
    (fun _ s' hinv' _ => Ends.done orderly_sound hinv' (hvalue s')) hstop

/-! ### Grants -/

/-- What a verified grant stands for, on the socket that verified it. -/
structure Grounded (s : Socket) (door : GrantDoor) (verified : VerifiedGrant) : Prop where
  token : ∃ grant, (grant, verified.claims) ∈ s.history.verified
  subType : verified.claims.get "sub_type" = .str door.subType
  grantSource : uuidOf (verified.claims.get "device_id") = some verified.socketSource
  socketSource : parseUuid s.deviceId = some verified.socketSource
  jti : verified.claims.get "jti" = .str verified.jti
  exp : ∃ exp, numberOf (verified.claims.get "exp") = some exp ∧ verified.exp = truncate exp

variable {door : GrantDoor} {verified : VerifiedGrant} {msg : Frame} {att : Attachment}
  {R : Except Stop β → Socket → Prop} {s' : Socket} {requestId : Json} {rid : String}

theorem Grounded.grows (h : Grounded s door verified) (hgrows : Grows s s') :
    Grounded s' door verified :=
  { h with
    token := h.token.imp fun _ hmem => hgrows.verified hmem
    socketSource := hgrows.deviceId ▸ h.socketSource }

theorem checkClaims_grounded {grant : String} {claims : Frame}
    (hgrant : (grant, claims) ∈ s.history.verified) (h : checkClaims door s claims = .ok verified) :
    Grounded s door verified := by
  unfold checkClaims at h
  split at h
  · cases h
  · next hsub =>
      split at h
      · next grantSource socketSource hgrantSource hsocketSource =>
          split at h
          · cases h
          · next hsame =>
              have hsame : grantSource = socketSource := not_not.mp hsame
              split at h
              · cases h
              · next exp hexp =>
                  split at h
                  · cases h
                  · split at h
                    · next jti hjti =>
                        split at h
                        · cases h
                        · cases h
                          exact ⟨⟨grant, hgrant⟩, not_not.mp hsub, hsame ▸ hgrantSource,
                            hsocketSource, hjti, exp, hexp, rfl⟩
                    · cases h
      · cases h

theorem verifyGrant_achieves :
    Achieves rt careful task
      (fun result s' => ∀ verified, result = .ok (some verified) → Grounded s' door verified)
      (verifyGrant msg door) s := by
  unfold verifyGrant
  dsimp only
  split
  · next grant _ =>
      split
      · exact refuse_achieves (by simp) (by simp)
      · apply (await_achieves (fun _ h => by cases h) (by trivial) (by trivial)).bind orderly_sound
        · intro reply s₁ hinv₁ _ ⟨htold, _⟩
          split
          · exact refuse_achieves (by simp) (by simp)
          · exact refuse_achieves (by simp) (by simp)
          · exact refuse_achieves (by simp) (by simp)
          · next claims =>
              apply see_bind hinv₁
              split
              · exact refuse_achieves (by simp) (by simp)
              · next verified hverified =>
                  apply Ends.done orderly_sound hinv₁
                  intro _ heq
                  cases heq
                  exact checkClaims_grounded htold hverified
          · exact Ends.done orderly_sound hinv₁ fun _ heq => by cases heq
        · exact fun _ _ _ _ _ _ heq => by cases heq
  · exact refuse_achieves (by simp) (by simp)

theorem attachTarget_achieves {claims : Frame} (hinv : Orderly rt careful s) :
    Achieves rt careful task
      (fun result _ => ∀ target, result = .ok (some target) → attachClaims claims = .ok target)
      (attachTarget claims requestId) s := by
  unfold attachTarget
  split
  · exact refuse_achieves (by simp) (by simp)
  · next target htarget =>
      apply Ends.done orderly_sound hinv
      intro _ heq
      cases heq
      exact htarget

/-! ### Admission -/

theorem claimGrant_achieves (hcandidate : Candidate s att) :
    Achieves rt careful task
      (fun result s' => (result = .ok true → att ∈ s'.history.claimed ∧
          (task = 0 → s'.history.creates att.grantJti < s'.history.claims att.grantJti)) ∧
        (task = 0 → Unadmitting s s')) (claimGrant att) s :=
  (awaitFlag_achieves (fun _ h => by cases h) (by trivial)
    (by exact ⟨hcandidate.created, hcandidate.vouched⟩)).weaken
      fun _ _ _ _ hresult => ⟨hresult.1, fun hzero => hresult.2.2.2 hzero rfl⟩

theorem writeGrantRecord_steady : Steady rt careful task (writeGrantRecord att) s := by
  have hcommand {s : Socket} {command : RedisCommand}
      (hwants : (orderly rt careful).wants task (.redis command) s) :
      Steady rt careful task (awaitUnit (.redis command)) s :=
    steady_awaitUnit (fun _ h => by cases h) (by trivial) (by trivial) hwants
  exact steady_bind (hcommand (by trivial)) fun _ _ _ => hcommand (by trivial)

/-- An attachment that is registered and has not been used for a create. -/
structure Admitted (s : Socket) (att : Attachment) : Prop where
  registered : att ∈ s.history.registered
  unspent : s.history.creates att.grantJti < s.history.claims att.grantJti

theorem unspent_kept {jti : String} (hgrows : Grows s s') (hun : Unadmitting s s')
    (h : s.history.creates jti < s.history.claims jti) :
    s'.history.creates jti < s'.history.claims jti := by
  rw [hun.creates]
  exact h.trans_le (hgrows.claims jti)

/-- What a door does with a new attachment: only the source's loop does so, and only an
attachment it has let in is registered. -/
theorem admitGrant_achieves {correlate : Async Unit} {codeConsumed messageConsumed : String}
    (htask : task = 0) (hcandidate : Candidate s att)
    (hcorrelate : ∀ s', Orderly rt careful s' → Grows s s' →
      Steady rt careful task correlate s') :
    Achieves rt careful task (fun result s' => result = .ok true → Admitted s' att)
      (admitGrant att correlate requestId codeConsumed messageConsumed) s := by
  have hregister {s₁ : Socket} (hinv₁ : Orderly rt careful s₁) (hgrows : Grows s s₁)
      (hcandidate₁ : Candidate s₁ att) (hclaimed : att ∈ s₁.history.claimed)
      (hunspent : s₁.history.creates att.grantJti < s₁.history.claims att.grantJti) :
      Achieves rt careful task (fun result s' => ∀ u, result = .ok u → Admitted s' att)
        (do
          writeGrantRecord att
          perform (.putGrant att.grantJti att)
          correlate
          ensureListener att.targetDeviceId) s₁ := by
    apply writeGrantRecord_steady.bind orderly_sound
    · intro _ s₂ hinv₂ hguar₂ hun₂
      have hcandidate₂ := hcandidate₁.stable hguar₂.1 (hun₂ htask)
      apply perform_bind hinv₂
        (by exact ⟨htask, rfl, hcandidate₂, hguar₂.1.claimed hclaimed⟩)
      intro _ hinv₃ hguar₃
      have hunspent₂ := unspent_kept hguar₂.1 (hun₂ htask) hunspent
      have hadmitted : Admitted (Socket.apply task (.putGrant att.grantJti att) s₂) att :=
        ⟨List.mem_cons_self, hunspent₂⟩
      have hgrows₃ := hgrows.trans (hguar₂.1.trans hguar₃.1)
      apply (hcorrelate _ hinv₃ hgrows₃).bind orderly_sound
      · intro _ s₄ hinv₄ hguar₄ hun₄
        apply (ensureListener_steady hinv₄).weaken
        intro _ s₅ _ hguar₅ hun₅ _ _
        have hun := (hun₄ htask).trans (hun₅ htask)
        exact ⟨hguar₅.1.registered (hguar₄.1.registered hadmitted.registered),
          unspent_kept (hguar₄.1.trans hguar₅.1) hun hadmitted.unspent⟩
      · exact fun _ _ _ _ _ _ heq => by cases heq
    · exact fun _ _ _ _ _ _ heq => by cases heq
  apply (claimGrant_achieves hcandidate).attempt_bind orderly_sound
  rintro outcome s₁ hinv₁ hguar₁ ⟨hclaimed, hun⟩
  match outcome with
  | .ok true =>
      obtain ⟨hclaimed, hunspent⟩ := hclaimed rfl
      apply (hregister hinv₁ hguar₁.1 (hcandidate.stable hguar₁.1 (hun htask))
        hclaimed (hunspent htask)).attempt_bind orderly_sound
      intro registered s₂ hinv₂ hguar₂ hadmitted
      match registered with
      | .ok u => exact Ends.done orderly_sound hinv₂ fun _ => hadmitted u rfl
      | .error .raised =>
          apply Safe.bind_ends orderly_sound
          · apply dropAttachment_behaves hinv₂
            exact .inr ⟨htask, hguar₂.1.claimed hclaimed⟩
          · exact fun _ _ _ _ => refuse_achieves (by simp) (by simp)
          · exact fun _ _ heq => by cases heq
      | .error .cancelled => exact Ends.done orderly_sound hinv₂ fun heq => by cases heq
  | .ok false => exact refuse_achieves (by simp) (by simp)
  | .error .raised => exact refuse_achieves (by simp) (by simp)
  | .error .cancelled => exact Ends.done orderly_sound hinv₁ fun heq => by cases heq

/-- What a door lets through: the state is the one the frame was admitted in. -/
structure Admits (s : Socket) (door : Admission) (att : Attachment) : Prop where
  held : (att.grantJti, att) ∈ s.grants
  endOnly : att.endOnly = false
  unexpired : s.now < att.exp
  kind : door.requireAttachKind = true → att.kind = .attach
  bound : door.requireBound = true → (s.marks att.id).attached = true

theorem authorize_achieves {door : Admission} (hinv : Orderly rt careful s) :
    Achieves rt careful task
      (fun result s' => ∀ att, result = .ok (some att) → Admits s' door att)
      (authorize rt msg door) s := by
  unfold authorize
  apply see_bind hinv
  split
  · exact refuse_achieves (by simp) (by simp)
  · next att hlookup =>
      obtain ⟨jti, -, hheld⟩ := Option.bind_eq_some_iff.mp hlookup
      obtain ⟨hmem, rfl, hregistered⟩ := hinv.held hheld
      have hlapsed {s' : Socket} (hinv' : Orderly rt careful s') (hguar : Grows s s') :
          Achieves rt careful task
            (fun result s' => ∀ att, result = .ok (some att) → Admits s' door att)
            (do
              let s ← see
              detachTarget rt att (s.marks att.id).terminalId
              dropAttachment att
              refuse att.expiredCode "grant expired" (msg.get "request_id") att.grantJti
                (msg.get "terminal_id")
              pure none) s' := by
        apply see_bind hinv'
        apply (detachTarget_behaves hinv').bind_ends orderly_sound
        · intro _ s₂ hinv₂ hguar₂
          apply Safe.bind_ends orderly_sound
          · apply dropAttachment_behaves hinv₂
            exact .inl (hguar₂.1.registered (hguar.registered hregistered))
          · exact fun _ _ _ _ => refuse_achieves (by simp) (by simp)
          · exact fun _ _ _ heq => by cases heq
        · exact fun _ _ _ heq => by cases heq
      dsimp only
      split
      · exact refuse_achieves (by simp) (by simp)
      · next hendOnly =>
          split
          · apply perform_bind hinv (by trivial)
            intro _ hinv₁ hguar₁
            split
            · apply Safe.bind_ends orderly_sound
              · exact sendToSource_of_type (by simp [lapsedNotice, Frame.get, paneFrameTypes])
              · exact fun _ _ hinv₂ hguar₂ => hlapsed hinv₂ (hguar₁.1.trans hguar₂.1)
              · exact fun _ _ _ heq => by cases heq
            · exact hlapsed hinv₁ hguar₁.1
          · next hunexpired =>
              have hadmits (hkind : door.requireAttachKind = true → att.kind = .attach)
                  (hbound : door.requireBound = true → (s.marks att.id).attached = true) :
                  Achieves rt careful task
                    (fun result s' => ∀ att, result = .ok (some att) → Admits s' door att)
                    (pure (some att)) s := by
                apply Ends.done orderly_sound hinv
                intro _ heq
                cases heq
                refine ⟨hmem, by simpa using hendOnly, ?_, hkind, hbound⟩
                simpa [Attachment.expired] using hunexpired
              split
              · exact refuse_achieves (by simp) (by simp)
              · next hkind =>
                  have hkind (hdoor : door.requireAttachKind = true) : att.kind = .attach := by
                    by_contra hne
                    exact hkind ⟨hdoor, hne⟩
                  split
                  · next hunbound =>
                      apply hadmits hkind
                      intro hdoor
                      rw [hunbound.1] at hdoor
                      cases hdoor
                  · split
                    · exact refuse_achieves (by simp) (by simp)
                    · next hattached =>
                        split
                        · exact refuse_achieves (by simp) (by simp)
                        · exact hadmits hkind fun _ => by simpa using hattached

/-! ### Ends -/

theorem releaseEndOnly_behaves {entry : PendingEnd} (hinv : Orderly rt careful s) :
    Behaves rt careful task (releaseEndOnly entry) s := by
  apply see_bind hinv
  split
  · next att hatt =>
      have hheld := (Option.filter_eq_some_iff.mp hatt).1
      split at hheld
      · obtain ⟨-, -, hregistered⟩ := hinv.held hheld
        exact dropAttachment_behaves hinv (.inl hregistered)
      · cases hheld
  · exact maybeStopListener_behaves hinv

theorem answerEndAndRelease_behaves {entry : PendingEnd} {payload : Frame}
    (htype : payload.get "type" ∉ paneFrameTypes) :
    Behaves rt careful task (answerEndAndRelease entry payload) s :=
  Safe.ensuring orderly_sound (sendToSource_of_type htype)
    fun _ hinv' _ => releaseEndOnly_behaves hinv'

theorem endErrorPayload_type (entry : PendingEnd) (code message : String) :
    (endErrorPayload entry code message).get "type" ∉ paneFrameTypes := by
  simp [endErrorPayload, Frame.get, paneFrameTypes]

theorem settlePendingEndsOnTarget_behaves {target code message : String}
    {ends : List (String × PendingEnd)} (hinv : Orderly rt careful s) :
    Behaves rt careful task (settlePendingEndsOnTarget target code message ends) s := by
  induction ends generalizing s with
  | nil => exact pure_behaves _ hinv
  | cons field rest ih =>
      obtain ⟨rid, entry⟩ := field
      unfold settlePendingEndsOnTarget
      split
      · exact ih hinv
      · apply pop_bind hinv (by trivial)
        intro hinv₁ _
        split
        · exact ih hinv₁
        · apply (cancelEndTimer_behaves hinv₁).bind orderly_sound
          intro _ s₂ hinv₂ _
          apply Safe.bind orderly_sound
          · exact answerEndAndRelease_behaves (endErrorPayload_type entry code message)
          · intro _ s₃ hinv₃ _
            exact then_pure (ih hinv₃)

theorem popPendingEnd_behaves {wireRequestId : Json} {target : String}
    (hinv : Orderly rt careful s) :
    Behaves rt careful task (popPendingEnd wireRequestId target) s := by
  unfold popPendingEnd
  split
  · apply pop_bind hinv (by trivial)
    intro hinv₁ _
    split
    · exact pure_behaves _ hinv₁
    · split
      · apply perform_bind hinv₁ (by trivial)
        exact fun _ hinv₂ _ => pure_behaves _ hinv₂
      · exact then_pure (cancelEndTimer_behaves hinv₁)
  · exact pure_behaves _ hinv

theorem expirePendingEnd_behaves {minted : String} :
    Behaves rt careful task (expirePendingEnd minted) s := by
  apply Safe.bind orderly_sound
  · exact awaitUnit_behaves (fun _ h => by cases h) (by trivial) (by trivial)
  · intro _ s₁ hinv₁ _
    apply perform_bind hinv₁ (by trivial)
    intro _ hinv₂ _
    apply pop_bind hinv₂ (by trivial)
    intro hinv₃ _
    split
    · exact pure_behaves _ hinv₃
    · exact answerEndAndRelease_behaves (endErrorPayload_type _ _ _)

def Minted (rt : Runtime) (s : Socket) (rid : String) : Prop :=
  ∃ n < s.minted, rid = rt.uuid4hex n

theorem Minted.grows (h : Minted rt s rid) (hgrows : Grows s s') : Minted rt s' rid := by
  obtain ⟨n, hn, heq⟩ := h
  exact ⟨n, hn.trans_le hgrows.minted, heq⟩

theorem mint_bind {f : String → Async β} (hinv : Orderly rt careful s)
    (hf : Orderly rt careful (Socket.apply task .mint s) →
      (orderly rt careful).guar task s (Socket.apply task .mint s) →
      Minted rt (Socket.apply task .mint s) (rt.uuid4hex s.minted) →
      Achieves rt careful task R (f (rt.uuid4hex s.minted)) (Socket.apply task .mint s)) :
    Achieves rt careful task R (mint rt >>= f) s :=
  act_bind hinv trivial fun _ hinv' hguar => hf hinv' hguar ⟨s.minted, Nat.lt_succ_self _, rfl⟩

theorem forwardEnd_behaves {terminalId : Option String} (hinv : Orderly rt careful s) :
    Behaves rt careful task (forwardEnd rt msg att terminalId) s := by
  apply see_bind hinv
  split
  · exact then_pure refuse_behaves
  · apply mint_bind hinv
    intro hinv₁ _ _
    apply perform_bind hinv₁ (by trivial)
    intro _ hinv₂ _
    apply Safe.bind orderly_sound
    · apply Safe.rescue orderly_sound
      · exact sendTerminal_of_type rfl (by simp [workFrameTypes]) (by simp)
      · exact fun _ hinv₃ _ => pure_behaves _ hinv₃
    · intro sent s₃ hinv₃ _
      split
      · apply see_bind hinv₃
        split
        · apply spawn_bind hinv₃ (fun h => by cases h) (by trivial)
          intro hinv₄ _
          apply perform_bind hinv₄ (by trivial)
          exact fun _ hinv₅ _ => pure_behaves _ hinv₅
        · exact pure_behaves _ hinv₃
      · apply pop_bind hinv₃ (by trivial)
        intro hinv₄ _
        split
        · exact pure_behaves _ hinv₄
        · apply see_bind hinv₄
          exact then_pure refuse_behaves

theorem endAttached_behaves (hinv : Orderly rt careful s) :
    Behaves rt careful task (endAttached rt msg) s := by
  apply see_bind hinv
  dsimp only
  split
  · exact refuse_behaves
  · apply (authorize_achieves hinv).bind_safe orderly_sound
    intro found s₁ hinv₁ _ _
    split
    · exact pure_behaves _ hinv₁
    · apply see_bind hinv₁
      exact then_pure (forwardEnd_behaves hinv₁)

theorem Grounded.vouched (h : Grounded s door verified) (hsubType : door.subType = att.kind.subType)
    (hsource : att.sourceDeviceId = verified.socketSource) (hjti : att.grantJti = verified.jti)
    (hexp : att.exp = verified.exp) (htarget : NamesTarget verified.claims att) :
    Vouched s att := by
  obtain ⟨grant, hgrant⟩ := h.token
  refine ⟨grant, verified.claims, hgrant, ?_, ?_, ?_, ?_, ?_, htarget⟩
  · rw [h.subType, hsubType]
  · rw [h.grantSource, hsource]
  · rw [h.socketSource, hsource]
  · rw [h.jti, hjti]
  · rw [hexp]
    exact h.exp

theorem Orderly.candidate (hinv : Orderly rt careful s) (hid : att.id = s.created)
    (hvouched : Vouched s att) : Candidate (Socket.apply task .create s) att where
  created := hid ▸ Nat.lt_succ_self s.created
  fresh other hother heq := by
    have hlt := (hinv.claimed other (hinv.registered other hother)).1
    rw [heq, hid] at hlt
    exact lt_irrefl _ hlt
  undropped hdropped := by
    have hlt := (hinv.claimed att (hinv.dropped att hdropped)).1
    rw [hid] at hlt
    exact lt_irrefl _ hlt
  vouched := hvouched

theorem newAttachment_bind {build : Nat → Attachment} {f : Attachment → Async β}
    (hinv : Orderly rt careful s) (hid : (build s.created).id = s.created)
    (hvouched : Vouched s (build s.created))
    (hf : Orderly rt careful (Socket.apply task .create s) →
      (orderly rt careful).guar task s (Socket.apply task .create s) →
      Candidate (Socket.apply task .create s) (build s.created) →
      Achieves rt careful task R (f (build s.created)) (Socket.apply task .create s)) :
    Achieves rt careful task R (newAttachment build >>= f) s :=
  act_bind hinv trivial fun _ hinv' hguar => hf hinv' hguar (hinv.candidate hid hvouched)

theorem endWithFreshGrant_behaves (htask : task = 0) :
    Behaves rt careful task (endWithFreshGrant rt msg) s := by
  apply verifyGrant_achieves.bind_safe orderly_sound
  intro found s₁ hinv₁ _ hgrounded
  split
  · exact pure_behaves _ hinv₁
  · next verified =>
      apply see_bind hinv₁
      split
      · split
        · exact refuse_behaves
        · exact endAttached_behaves hinv₁
      · apply (attachTarget_achieves hinv₁).bind_safe orderly_sound
        intro named s₂ hinv₂ hguar₂ htarget
        split
        · exact pure_behaves _ hinv₂
        · next target =>
            have hgrounded := (hgrounded verified rfl).grows hguar₂.1
            apply newAttachment_bind hinv₂ rfl
            · exact hgrounded.vouched rfl rfl rfl rfl ⟨target, htarget target rfl, rfl, rfl⟩
            · intro hinv₃ _ hcandidate
              apply (admitGrant_achieves htask hcandidate _).bind_safe orderly_sound
              · intro admitted s₄ hinv₄ _ hregistered
                split
                · next hadmitted =>
                    have hregistered := (hregistered (congrArg _ hadmitted)).registered
                    apply (forwardEnd_behaves hinv₄).bind orderly_sound
                    intro sent s₅ hinv₅ hguar₅
                    apply see_bind hinv₅
                    split
                    · exact dropAttachment_behaves hinv₅
                        (.inl (hguar₅.1.registered hregistered))
                    · exact pure_behaves _ hinv₅
                · exact pure_behaves _ hinv₄
              · exact fun _ hinv' _ => steady_pure _ hinv'

theorem handleEnd_behaves (htask : task = 0) (hinv : Orderly rt careful s) :
    Behaves rt careful task (handleEnd rt msg) s := by
  apply see_bind hinv
  dsimp only
  split
  · exact endWithFreshGrant_behaves htask
  · exact endAttached_behaves hinv

/-! ### Attach and create -/

theorem openAtTarget_behaves {frame : Frame} (htype : frame.get "type" ∉ workFrameTypes)
    (hatt : att ∈ s.history.registered)
    (hcreate : (orderly rt careful).wants task (.sendTerminal att.targetDeviceId frame) s) :
    Behaves rt careful task (openAtTarget att frame requestId) s := by
  apply (sendTerminal_behaves (fun h => (htype h).elim) hcreate).bind orderly_sound
  intro sent s₁ hinv₁ hguar₁
  split
  · exact pure_behaves _ hinv₁
  · apply (dropAttachment_behaves hinv₁ (.inl (hguar₁.1.registered hatt))).bind orderly_sound
    exact fun _ _ _ _ => refuse_behaves

theorem putPending_steady {table : Table} {entry : Pending} (hinv : Orderly rt careful s)
    (hpre : (orderly rt careful).pre task (.putPending table rid entry) s) :
    Steady rt careful task (perform (.putPending table rid entry)) s := by
  apply Ends.act orderly_sound hinv hpre
  intro _ hinv' _
  apply Ends.done orderly_sound hinv'
  cases table with
  | attach | buffer | create => exact fun _ => ⟨rfl, fun _ h => .inl h, fun _ => rfl⟩

theorem grantOfCreate_createFrame {minted : String} :
    grantOfCreate (createFrame rt s msg att minted) = some att.grantJti := rfl

theorem handleAttach_behaves (htask : task = 0) :
    Behaves rt careful task (handleAttach rt msg) s := by
  apply verifyGrant_achieves.bind_safe orderly_sound
  intro found s₁ hinv₁ _ hgrounded
  split
  · exact pure_behaves _ hinv₁
  · next verified =>
      apply (attachTarget_achieves hinv₁).bind_safe orderly_sound
      intro named s₂ hinv₂ hguar₂ htarget
      split
      · exact pure_behaves _ hinv₂
      · next target =>
          apply see_bind hinv₂
          split
          · exact refuse_behaves
          · have hgrounded := (hgrounded verified rfl).grows hguar₂.1
            apply newAttachment_bind hinv₂ rfl
            · exact hgrounded.vouched rfl rfl rfl rfl ⟨target, htarget target rfl, rfl, rfl⟩
            · intro hinv₃ _ hcandidate
              apply mint_bind hinv₃
              intro hinv₄ hguar₄ hminted
              have hcandidate := hcandidate.stable hguar₄.1 ⟨rfl, fun _ h => .inl h, fun _ => rfl⟩
              apply (admitGrant_achieves htask hcandidate _).bind_safe orderly_sound
              · intro admitted s₅ hinv₅ _ hregistered
                split
                · next hadmitted =>
                    have hregistered := (hregistered (congrArg _ hadmitted)).registered
                    apply see_bind hinv₅
                    dsimp only
                    apply perform_bind hinv₅ (by simp [orderly, attachFrame, Frame.get])
                    intro _ hinv₆ hguar₆
                    apply openAtTarget_behaves
                    · simp [attachFrame, Frame.get, workFrameTypes]
                    · exact hguar₆.1.registered hregistered
                    · intro jti hjti
                      rw [grantOfCreate_of_type rfl (by simp)] at hjti
                      cases hjti
                · exact pure_behaves _ hinv₅
              · intro s₅ hinv₅ hgrows
                exact putPending_steady hinv₅ (.inr (hminted.grows hgrows))

theorem handleCreate_behaves (htask : task = 0) :
    Behaves rt careful task (handleCreate rt msg) s := by
  apply verifyGrant_achieves.bind_safe orderly_sound
  intro found s₁ hinv₁ _ hgrounded
  split
  · exact pure_behaves _ hinv₁
  · next verified =>
      split
      · exact refuse_behaves
      · next target htarget =>
          apply see_bind hinv₁
          split
          · exact refuse_behaves
          · apply newAttachment_bind hinv₁ rfl
            · exact (hgrounded verified rfl).vouched rfl rfl rfl rfl htarget
            · intro hinv₂ _ hcandidate
              apply mint_bind hinv₂
              intro hinv₃ hguar₃ hminted
              have hcandidate := hcandidate.stable hguar₃.1 ⟨rfl, fun _ h => .inl h, fun _ => rfl⟩
              apply (admitGrant_achieves htask hcandidate _).bind_safe orderly_sound
              · intro admitted s₄ hinv₄ _ hregistered
                split
                · next hadmitted =>
                    have hadmitted := hregistered (congrArg _ hadmitted)
                    apply see_bind hinv₄
                    apply openAtTarget_behaves
                    · simp [createFrame, Frame.get, workFrameTypes]
                    · exact hadmitted.registered
                    · intro jti hjti
                      rw [grantOfCreate_createFrame] at hjti
                      cases hjti
                      exact ⟨htask, hadmitted.unspent⟩
                · exact pure_behaves _ hinv₄
              · exact fun _ hinv' _ => putPending_steady hinv' (by trivial)

/-! ### Frames under a bound grant -/

theorem Admits.works (h : Admits s {} att) (hinv : Orderly rt careful s) (targetType : String)
    (extra : Frame) :
    ∃ terminal, Works s att.targetDeviceId (forwarded rt s att targetType extra) att terminal := by
  obtain ⟨-, hregistered, -⟩ := hinv.grants _ h.held
  have hattached := hinv.attached att.id
  rw [h.bound rfl] at hattached
  obtain ⟨terminal, hterminal⟩ := Option.isSome_iff_exists.mp hattached.symm
  obtain ⟨-, hterminalId, hremote⟩ := forwarded_get rt s att targetType extra
  refine ⟨terminal, h.held, h.kind rfl, h.endOnly, h.unexpired, rfl, hregistered,
    (hinv.claimed att (hinv.registered att hregistered)).2,
    (hinv.named att hregistered terminal hterminal).1, ?_, ?_⟩
  · rw [hterminalId, hterminal]
    rfl
  · rw [hremote, Attachment.remoteBlock, h.kind rfl]
    rfl

section

variable (hinv : Orderly rt careful s)
include hinv

theorem popPending_bind {table : Table} {f : Option Pending → Async β}
    (hf : Orderly rt careful (Socket.apply task (.popPending table rid) s) →
      (orderly rt careful).guar task s (Socket.apply task (.popPending table rid) s) →
      Achieves rt careful task R (f ((s.pending table).lookup rid))
        (Socket.apply task (.popPending table rid) s)) :
    Achieves rt careful task R (popPending table rid >>= f) s :=
  act_bind hinv trivial fun _ => hf

theorem handleBuffer_behaves (hadmits : Admits s {} att) :
    Behaves rt careful task (handleBuffer rt msg att) s := by
  apply mint_bind hinv
  intro hinv₁ _ _
  apply see_bind hinv₁
  apply perform_bind hinv₁ (by trivial)
  intro _ hinv₂ _
  apply see_bind hinv₂
  split
  · exact refuse_behaves
  · apply perform_bind hinv₂
    · intro _ held hheld hjti
      have hsame := (Fields.lookup_eq_some_iff hinv.keys).mpr hadmits.held
      have hother := (Fields.lookup_eq_some_iff hinv.keys).mpr hheld
      rw [hjti, hsame] at hother
      cases hother
      exact hadmits.bound rfl
    · intro _ hinv₃ _
      apply perform_bind hinv₃ (by trivial)
      intro _ hinv₄ _
      apply Safe.bind orderly_sound
      · apply forward_behaves hinv₄ (by simp)
        apply Admits.works _ hinv₄
        exact ⟨hadmits.held, hadmits.endOnly, hadmits.unexpired, hadmits.kind, hadmits.bound⟩
      · intro sent s₅ hinv₅ _
        split
        · exact pure_behaves _ hinv₅
        · apply popPending_bind hinv₅
          exact fun hinv₆ _ => perform_behaves hinv₆ (by trivial)

theorem handleDetach_behaves (hatt : att ∈ s.history.registered) :
    Behaves rt careful task (handleDetach rt att) s := by
  apply see_bind hinv
  apply (detachTarget_behaves hinv).bind orderly_sound
  exact fun _ _ hinv' hguar => dropAttachment_behaves hinv' (.inl (hguar.1.registered hatt))

theorem authorized_behaves {door : Admission} {body : Attachment → Async Unit}
    (hbody : ∀ att s', Orderly rt careful s' → Admits s' door att →
      Behaves rt careful task (body att) s') :
    Behaves rt careful task (authorized rt msg door body) s := by
  apply (authorize_achieves hinv).bind_safe orderly_sound
  intro found s' hinv' _ hadmits
  split
  · exact pure_behaves _ hinv'
  · next att => exact hbody att s' hinv' (hadmits att rfl)

theorem authorized_forward_behaves {targetType : String} {extra : Frame}
    (htype : targetType ≠ "terminal_create") :
    Behaves rt careful task
      (authorized rt msg {} fun att => do
        let _ ← forward rt msg att targetType extra
        pure ()) s := by
  apply authorized_behaves hinv
  intro att s' hinv' hadmits
  exact then_pure (forward_behaves hinv' htype (hadmits.works hinv' _ _))

end

theorem handleSourceFrame_behaves (htask : task = 0) (hinv : Orderly rt careful s) :
    Behaves rt careful task (handleSourceFrame rt msg) s := by
  apply (reapExpired_behaves hinv).bind orderly_sound
  intro _ s₁ hinv₁ _
  split
  · exact handleAttach_behaves htask
  · exact handleCreate_behaves htask
  · exact handleEnd_behaves htask hinv₁
  · exact authorized_forward_behaves hinv₁ (by simp)
  · exact authorized_forward_behaves hinv₁ (by simp)
  · exact authorized_behaves hinv₁ fun _ _ hinv₂ hadmits => handleBuffer_behaves hinv₂ hadmits
  · exact authorized_forward_behaves hinv₁ (by simp)
  · apply authorized_behaves hinv₁
    exact fun att _ hinv₂ hadmits => handleDetach_behaves hinv₂ (hinv₂.grants _ hadmits.held).2.1
  · exact pure_behaves _ hinv₁

theorem releaseSource_behaves (hinv : Orderly rt careful s) :
    Behaves rt careful task (releaseSource rt) s := by
  apply see_bind hinv
  apply Safe.bind orderly_sound
  · apply Safe.forEach orderly_sound hinv
    intro att hatt s' hinv' hguar
    obtain ⟨entry, hentry, rfl⟩ := List.mem_map.mp hatt
    exact handleDetach_behaves hinv' (hguar.1.registered (hinv.grants entry hentry).2.1)
  · intro _ s₁ hinv₁ _
    apply see_bind hinv₁
    apply Safe.bind orderly_sound
    · exact Safe.forEach orderly_sound hinv₁ fun _ _ _ hinv' _ => stopListener_behaves hinv'
    · intro _ s₂ hinv₂ _
      apply see_bind hinv₂
      exact Safe.forEach orderly_sound hinv₂ fun _ _ _ hinv' _ => sweepEnd_behaves hinv'

end Qontinui.Relay
