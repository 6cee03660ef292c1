import Qontinui.Relay.OrderlySource

/-!
The target's side checked: what a correlated frame and a bound terminal stand
for, and with the loops around both sides that a socket is in order at every
moment of every run.
-/

namespace Qontinui.Relay

variable {rt : Runtime} {careful : Prop} {task : Nat} {s : Socket} {α β : Type}

/-! ### Correlation -/

variable (careful) in
/-- What a correlated frame answers. -/
structure Correlates (s : Socket) (table : Table) (wireRequestId : Json) (target : String)
    (entry : Pending) (att : Attachment) : Prop where
  held : (att.grantJti, att) ∈ s.grants
  jti : entry.grantJti = att.grantJti
  target : att.targetDeviceId = target
  registered : att ∈ s.history.registered
  minted : table = .attach → ∃ rid, wireRequestId = .str rid ∧
    (rid, att.grantJti) ∈ s.history.mintedFor
  bound : careful → table = .buffer → (s.marks att.id).attached = true

theorem putBack_pre {table : Table} {rid : String} {entry : Pending}
    (hinv : Orderly rt careful s) (hentry : (s.pending table).lookup rid = some entry) :
    (orderly rt careful).pre task (.putPending table rid entry)
      (Socket.apply task (.popPending table rid) s) := by
  have hmem := Fields.mem_of_lookup hentry
  cases table with
  | attach => exact .inl (hinv.correlated _ hmem)
  | buffer => exact fun hcareful => hinv.buffers hcareful _ hmem
  | create => trivial

variable {target : String} {att : Attachment} {frame : Frame}

theorem popCorrelated_achieves {table : Table} {wireRequestId : Json} (hinv : Orderly rt careful s) :
    Achieves rt careful task
      (fun result s' => ∀ entry att, result = .ok (.answer entry att) →
        Correlates careful s' table wireRequestId target entry att)
      (popCorrelated table wireRequestId target) s := by
  unfold popCorrelated
  split
  · next rid =>
      apply popPending_bind hinv
      intro hinv₁ _
      split
      · exact Ends.done orderly_sound hinv₁ fun _ _ heq => by cases heq
      · next entry hentry =>
          have hmem := Fields.mem_of_lookup hentry
          apply see_bind hinv₁
          split
          · exact Ends.done orderly_sound hinv₁ fun _ _ heq => by cases heq
          · next att hatt =>
              obtain ⟨hheld, hjti, hregistered⟩ := hinv₁.held hatt
              split
              · apply perform_bind hinv₁ (putBack_pre hinv hentry)
                exact fun _ hinv₂ _ => Ends.done orderly_sound hinv₂ fun _ _ heq => by cases heq
              · next htarget =>
                  apply Ends.done orderly_sound hinv₁
                  intro _ _ heq
                  cases heq
                  refine ⟨hheld, hjti, not_not.mp htarget, hregistered, ?_, ?_⟩
                  · rintro rfl
                    exact ⟨rid, rfl, hjti ▸ hinv.correlated _ hmem⟩
                  · rintro hcareful rfl
                    exact hinv.buffers hcareful _ hmem _ hheld hjti.symm
  · exact Ends.done orderly_sound hinv fun _ _ heq => by cases heq

/-- What a bound terminal stands for. -/
structure BoundTo (s : Socket) (target : String) (terminalId : Json) (att : Attachment) :
    Prop where
  held : (att.grantJti, att) ∈ s.grants
  target : att.targetDeviceId = target
  attached : (s.marks att.id).attached = true
  named : ∃ terminal, (s.marks att.id).terminalId = some terminal ∧ terminalId = .str terminal

theorem byTerminal_boundTo {terminalId : Json} (hinv : Orderly rt careful s)
    (h : s.byTerminal target terminalId = some att) : BoundTo s target terminalId att := by
  unfold Socket.byTerminal at h
  split at h
  · next terminal =>
      obtain ⟨entry, hfind, rfl⟩ := Option.map_eq_some_iff.mp h
      have hmem := List.mem_of_find?_eq_some hfind
      have hmatch := List.find?_some hfind
      simp only [Bool.and_eq_true, beq_iff_eq] at hmatch
      obtain ⟨⟨hattached, htarget⟩, hterminal⟩ := hmatch
      have hjti := (hinv.grants _ hmem).1
      exact ⟨hjti ▸ hmem, htarget, hattached, terminal, hterminal, rfl⟩
  · cases h

theorem boundAttachment_achieves {terminalId : Json} (hinv : Orderly rt careful s) :
    Achieves rt careful task
      (fun result s' => ∀ att, result = .ok (some att) → BoundTo s' target terminalId att)
      (boundAttachment target terminalId) s := by
  apply see_bind hinv
  split
  · exact Ends.done orderly_sound hinv fun _ heq => by cases heq
  · next att hatt =>
      have hbound := byTerminal_boundTo hinv hatt
      split
      · apply Safe.bind_ends orderly_sound
        · exact dropAttachment_behaves hinv (.inl (hinv.grants _ hbound.held).2.1)
        · exact fun _ _ hinv' _ => Ends.done orderly_sound hinv' fun _ heq => by cases heq
        · exact fun _ _ _ heq => by cases heq
      · apply Ends.done orderly_sound hinv
        intro _ heq
        cases heq
        exact hbound

/-! ### Attach and create replies -/

theorem mem_heard (h : s.history.hearing task = some (target, frame)) :
    (task, target, frame) ∈ s.history.heard := by
  obtain ⟨entry, hfind, heq⟩ := Option.map_eq_some_iff.mp h
  have hmem := List.mem_of_find?_eq_some hfind
  have htask : entry.1 = task := by simpa using List.find?_some hfind
  obtain ⟨heard, rest⟩ := entry
  cases heq
  cases htask
  exact hmem

theorem hearing_kept {s' : Socket} (hguar : (orderly rt careful).guar task s s')
    (h : s.history.hearing task = some (target, frame)) :
    s'.history.hearing task = some (target, frame) :=
  hguar.2.trans h

theorem bindTerminal_behaves {terminal : String} (hregistered : att ∈ s.history.registered)
    (hnamed : Named s att terminal) : Behaves rt careful task (bindTerminal att terminal) s := by
  apply (awaitFlag_achieves (fun _ h => by cases h) (by trivial)
    (by exact ⟨hregistered, hnamed⟩)).bind_safe orderly_sound
  intro bound s₁ hinv₁ hguar₁ hbound
  split
  · next hyes =>
      apply perform_bind hinv₁
      · refine ⟨hguar₁.1.registered hregistered, hnamed.grows hguar₁.1, hbound.1 ?_⟩
        rw [hyes]
      · intro _ hinv₂ _
        exact then_pure (awaitUnit_behaves (fun _ h => by cases h) (by trivial) (by trivial))
  · exact pure_behaves _ hinv₁

theorem failed_behaves {code message terminal : String} {requestId : Json}
    (hinv : Orderly rt careful s) (hregistered : att ∈ s.history.registered) :
    Behaves rt careful task
      (do
        detachTarget rt att (some terminal)
        dropAttachment att
        refuse code message requestId att.grantJti (.str terminal)
        pure true) s := by
  apply (detachTarget_behaves hinv).bind orderly_sound
  intro _ s₁ hinv₁ hguar₁
  apply Safe.bind orderly_sound
  · exact dropAttachment_behaves hinv₁ (.inl (hguar₁.1.registered hregistered))
  · intro _ _ _ _
    exact then_pure refuse_behaves

variable {payload : Frame}

theorem sendToSource_then {handled : Bool} (htype : payload.get "type" ∉ paneFrameTypes) :
    Behaves rt careful task
      (do
        sendToSource payload
        pure handled) s := by
  exact then_pure (sendToSource_of_type htype)

theorem routeAttached_behaves (hinv : Orderly rt careful s)
    (hhearing : s.history.hearing task = some (target, frame))
    (htype : frame.get "type" = .str "terminal_attached") :
    Behaves rt careful task (routeAttached rt target frame) s := by
  apply (popCorrelated_achieves hinv).bind_safe orderly_sound
  intro found s₁ hinv₁ hguar₁ hfound
  split
  · exact pure_behaves _ hinv₁
  · exact pure_behaves _ hinv₁
  · next entry att =>
      have hanswer := hfound entry att rfl
      dsimp only
      split
      · exact sendToSource_then (by simp [Frame.get, paneFrameTypes])
      · next terminal hterminal =>
          have hnamed : Named s₁ att terminal := by
            obtain ⟨rid, hrid, hminted⟩ := hanswer.minted rfl
            refine ⟨task, frame, rid, ?_, htype, hrid, ?_, hminted⟩
            · rw [hanswer.target]
              exact mem_heard (hearing_kept hguar₁ hhearing)
            · have htext := (Option.filter_eq_some_iff.mp hterminal).1
              unfold textOf? at htext
              split at htext
              · next heq =>
                  cases htext
                  exact heq
              · cases htext
          apply (bindTerminal_behaves hanswer.registered hnamed).attempt orderly_sound
          intro outcome s₂ hinv₂ hguar₂
          have hregistered := hguar₂.1.registered hanswer.registered
          cases outcome with
          | ok bound =>
              cases bound with
              | true =>
                  exact sendToSource_then (by simp [attachedPayload, Frame.get, paneFrameTypes])
              | false => exact failed_behaves hinv₂ hregistered
          | error stop =>
              cases stop with
              | raised => exact failed_behaves hinv₂ hregistered
              | cancelled => exact Safe.done orderly_sound _ hinv₂

theorem routeCreated_behaves (hinv : Orderly rt careful s) :
    Behaves rt careful task (routeCreated target frame) s := by
  apply (popCorrelated_achieves hinv).bind_safe orderly_sound
  intro found s₁ hinv₁ _ hfound
  split
  · exact pure_behaves _ hinv₁
  · exact pure_behaves _ hinv₁
  · next entry att =>
      have hanswer := hfound entry att rfl
      dsimp only
      apply Safe.bind orderly_sound
      · exact sendToSource_of_type (by simp [Frame.get, paneFrameTypes])
      · intro _ s₂ hinv₂ hguar₂
        apply then_pure
        exact dropAttachment_behaves hinv₂ (.inl (hguar₂.1.registered hanswer.registered))

/-! ### What a bound terminal does -/

theorem showsPane (hinv : Orderly rt careful s) (hheld : (att.grantJti, att) ∈ s.grants)
    (htarget : att.targetDeviceId = target) (hattached : (s.marks att.id).attached = true)
    (hframe : frame.get "terminal_id" = optional (s.marks att.id).terminalId)
    (hjti : payload.get "grant_jti" = .str att.grantJti)
    (hterminal : payload.get "terminal_id" = optional (s.marks att.id).terminalId) :
    ∃ terminal, ShowsPane s target frame payload att terminal := by
  have hbound := hinv.attached att.id
  rw [hattached] at hbound
  obtain ⟨terminal, hsome⟩ := Option.isSome_iff_exists.mp hbound.symm
  rw [hsome] at hframe hterminal
  exact ⟨terminal, hheld, htarget, hattached, hsome, hframe, hjti, hterminal⟩

theorem BoundTo.showsPane {target : String} {frame payload : Frame} {att : Attachment}
    (hinv : Orderly rt careful s) (h : BoundTo s target (frame.get "terminal_id") att)
    (hjti : payload.get "grant_jti" = .str att.grantJti)
    (hterminal : payload.get "terminal_id" = optional (s.marks att.id).terminalId) :
    ∃ terminal, ShowsPane s target frame payload att terminal := by
  obtain ⟨terminal, hsome, hframe⟩ := h.named
  apply Relay.showsPane hinv h.held h.target h.attached _ hjti hterminal
  rw [hframe, hsome]
  rfl

theorem sendToSource_pane (hhearing : s.history.hearing task = some (target, frame))
    (hshows : careful → ∃ terminal, ShowsPane s target frame payload att terminal) :
    Behaves rt careful task (sendToSource payload) s := by
  apply sendToSource_behaves
  intro hcareful _
  obtain ⟨terminal, hshows⟩ := hshows hcareful
  exact ⟨target, frame, att, terminal, hhearing, hshows⟩

section

variable (hinv : Orderly rt careful s)
include hinv

theorem routeOutput_behaves (hhearing : s.history.hearing task = some (target, frame)) :
    Behaves rt careful task (routeOutput target frame) s := by
  apply (boundAttachment_achieves hinv).bind_safe orderly_sound
  intro found s₁ hinv₁ hguar₁ hfound
  split
  · exact pure_behaves _ hinv₁
  · next att =>
      apply see_bind hinv₁
      apply then_pure
      apply sendToSource_pane (hearing_kept hguar₁ hhearing)
      exact fun _ => (hfound att rfl).showsPane hinv₁ rfl rfl

theorem routeExit_behaves (hhearing : s.history.hearing task = some (target, frame)) :
    Behaves rt careful task (routeExit target frame) s := by
  apply (boundAttachment_achieves hinv).bind_safe orderly_sound
  intro found s₁ hinv₁ hguar₁ hfound
  split
  · exact pure_behaves _ hinv₁
  · next att =>
      have hbound := hfound att rfl
      apply see_bind hinv₁
      apply Safe.bind orderly_sound
      · apply sendToSource_pane (hearing_kept hguar₁ hhearing)
        exact fun _ => hbound.showsPane hinv₁ rfl rfl
      · intro _ s₂ hinv₂ hguar₂
        have hregistered := (hinv₁.grants _ hbound.held).2.1
        exact then_pure (dropAttachment_behaves hinv₂ (.inl (hguar₂.1.registered hregistered)))

theorem routeRunnerDisconnected_behaves :
    Behaves rt careful task (routeRunnerDisconnected rt target) s := by
  apply see_bind hinv
  apply (settlePendingEndsOnTarget_behaves hinv).bind orderly_sound
  intro ends s₁ hinv₁ _
  apply see_bind hinv₁
  dsimp only
  split
  · exact pure_behaves _ hinv₁
  · exact then_pure (Safe.forEach orderly_sound hinv₁ fun _ _ _ hinv₂ _ => evict_behaves hinv₂)

/-! ### Marked frames -/

theorem attachmentByRemoteMark_achieves :
    Achieves rt careful task
      (fun result s' => ∀ att, result = .ok (some att) →
        (att.grantJti, att) ∈ s'.grants ∧ att.targetDeviceId = target)
      (attachmentByRemoteMark target frame) s := by
  unfold attachmentByRemoteMark
  split
  · apply (boundAttachment_achieves hinv).weaken
    intro result s' _ _ hbound att heq
    exact ⟨(hbound att heq).held, (hbound att heq).target⟩
  · apply see_bind hinv
    apply Ends.done orderly_sound hinv
    intro att heq
    obtain ⟨hlookup, htarget⟩ := Option.filter_eq_some_iff.mp (Except.ok.inj heq)
    exact ⟨(hinv.held hlookup).1, by simpa using htarget⟩
  · exact Ends.done orderly_sound hinv fun _ heq => by cases heq

end

theorem inputAckPayload_get (att : Attachment) (marks : Marks) (frame : Frame) :
    (inputAckPayload att marks frame).get "grant_jti" = .str att.grantJti ∧
      (inputAckPayload att marks frame).get "terminal_id" = optional marks.terminalId := by
  simp [inputAckPayload, Frame.override, Frame.get, Fields.lookup_set_ne]

section

variable (hinv : Orderly rt careful s)
include hinv

section

variable (hhearing : s.history.hearing task = some (target, frame))
include hhearing

theorem routeInputAck_behaves : Behaves rt careful task (routeInputAck target frame) s := by
  unfold routeInputAck
  split
  · apply (attachmentByRemoteMark_achieves hinv).bind_safe orderly_sound
    intro found s₁ hinv₁ hguar₁ hfound
    split
    · exact pure_behaves _ hinv₁
    · next att =>
        obtain ⟨hheld, htarget⟩ := hfound att rfl
        apply see_bind hinv₁
        split
        · exact pure_behaves _ hinv₁
        · next hattached =>
            have hattached : (s₁.marks att.id).attached = true := by simpa using hattached
            split
            · apply perform_bind hinv₁ (by trivial)
              exact fun _ hinv₂ _ => pure_behaves _ hinv₂
            · next hterminal =>
                apply then_pure
                apply sendToSource_pane (hearing_kept hguar₁ hhearing)
                intro _
                obtain ⟨hjti, hnamed⟩ := inputAckPayload_get att (s₁.marks att.id) frame
                exact showsPane hinv₁ hheld htarget hattached (not_not.mp hterminal) hjti hnamed
  · exact pure_behaves _ hinv

theorem handBuffer_behaves {requestId : Option String} (hheld : (att.grantJti, att) ∈ s.grants)
    (htarget : att.targetDeviceId = target) (hattached : careful → (s.marks att.id).attached = true) :
    Behaves rt careful task (handBuffer att frame requestId) s := by
  apply see_bind hinv
  split
  · exact pure_behaves _ hinv
  · next hterminal =>
      apply then_pure
      apply sendToSource_pane hhearing
      intro hcareful
      exact showsPane hinv hheld htarget (hattached hcareful) (not_not.mp hterminal) rfl rfl

theorem routeBufferResponse_behaves :
    Behaves rt careful task (routeBufferResponse target frame) s := by
  apply (popCorrelated_achieves hinv).bind_safe orderly_sound
  intro found s₁ hinv₁ hguar₁ hfound
  have hhearing₁ := hearing_kept hguar₁ hhearing
  split
  · exact pure_behaves _ hinv₁
  · next entry att =>
      have hanswer := hfound entry att rfl
      exact handBuffer_behaves hinv₁ hhearing₁ hanswer.held hanswer.target
        fun hcareful => hanswer.bound hcareful rfl
  · split
    · apply (attachmentByRemoteMark_achieves hinv₁).bind_safe orderly_sound
      intro marked s₂ hinv₂ hguar₂ hmarked
      split
      · exact pure_behaves _ hinv₂
      · next att =>
          obtain ⟨hheld, htarget⟩ := hmarked att rfl
          apply see_bind hinv₂
          split
          · next hattached =>
              exact handBuffer_behaves hinv₂ (hearing_kept hguar₂ hhearing₁) hheld htarget
                fun _ => hattached
          · exact pure_behaves _ hinv₂
    · exact pure_behaves _ hinv₁

end

/-! ### Ends and refusals -/

theorem routeEndReply_behaves : Behaves rt careful task (routeEndReply target frame) s := by
  apply (popPendingEnd_behaves hinv).bind orderly_sound
  intro found s₁ hinv₁ _
  split
  · exact pure_behaves _ hinv₁
  · apply then_pure
    exact answerEndAndRelease_behaves (by simp [endReplyPayload, Frame.get, paneFrameTypes])

end

theorem targetErrorPayload_type (frame : Frame) (grantJti : String) (requestId : Option String)
    (terminalId : Json) :
    (targetErrorPayload rt frame grantJti requestId terminalId).get "type" ∉ paneFrameTypes := by
  simp [targetErrorPayload, Frame.get, paneFrameTypes]

theorem routeEndError_behaves {entry : PendingEnd} :
    Behaves rt careful task (routeEndError rt entry frame) s := by
  exact then_pure (answerEndAndRelease_behaves (targetErrorPayload_type _ _ _ _))

section

variable (hinv : Orderly rt careful s)
include hinv

theorem handRefusal_behaves {requestId : Option String} {failedAttach : Bool}
    (hatt : att ∈ s.history.registered) :
    Behaves rt careful task (handRefusal rt att frame requestId failedAttach) s := by
  apply see_bind hinv
  apply Safe.bind orderly_sound
  · exact sendToSource_of_type (targetErrorPayload_type _ _ _ _)
  · intro _ s₁ hinv₁ hguar₁
    split
    · exact then_pure (dropAttachment_behaves hinv₁ (.inl (hguar₁.1.registered hatt)))
    · exact pure_behaves _ hinv₁

theorem routeMarkedError_behaves :
    Behaves rt careful task (routeMarkedError rt target frame) s := by
  unfold routeMarkedError
  split
  · apply (attachmentByRemoteMark_achieves hinv).bind_safe orderly_sound
    intro found s₁ hinv₁ _ hfound
    split
    · exact pure_behaves _ hinv₁
    · next att =>
        have hregistered := (hinv₁.grants _ (hfound att rfl).1).2.1
        apply see_bind hinv₁
        split
        · apply pop_bind hinv₁ (by trivial)
          intro hinv₂ _
          split
          · exact pure_behaves _ hinv₂
          · apply (cancelEndTimer_behaves hinv₂).bind orderly_sound
            exact fun _ _ _ _ => routeEndError_behaves
        · exact handRefusal_behaves hinv₁ hregistered
  · exact pure_behaves _ hinv

theorem popFirst_achieves {wireRequestId : Json} {tables : List Table} :
    Achieves rt careful task
      (fun result s' => ∀ table entry att, result = .ok (some (table, .answer entry att)) →
        att ∈ s'.history.registered)
      (popFirst wireRequestId target tables) s := by
  induction tables generalizing s with
  | nil => exact Ends.done orderly_sound hinv fun _ _ _ heq => by cases heq
  | cons table rest ih =>
      unfold popFirst
      apply (popCorrelated_achieves hinv).bind orderly_sound
      · intro found s₁ hinv₁ _ hfound
        split
        · exact ih hinv₁
        · apply Ends.done orderly_sound hinv₁
          intro _ entry att heq
          cases heq
          exact (hfound entry att rfl).registered
      · exact fun _ _ _ _ _ _ _ _ heq => by cases heq

theorem routeTargetError_behaves :
    Behaves rt careful task (routeTargetError rt target frame) s := by
  apply (popPendingEnd_behaves hinv).bind orderly_sound
  intro found s₁ hinv₁ _
  split
  · exact routeEndError_behaves
  · apply (popFirst_achieves hinv₁).bind_safe orderly_sound
    intro answer s₂ hinv₂ _ hanswer
    split
    · next table entry att =>
        have hregistered := hanswer table entry att rfl
        apply see_bind hinv₂
        split
        · apply perform_bind hinv₂ (by trivial)
          intro _ hinv₃ hguar₃
          apply spawn_bind hinv₃ (fun h => by cases h)
            (by exact hguar₃.1.registered hregistered)
          exact fun hinv₄ _ => pure_behaves _ hinv₄
        · exact handRefusal_behaves hinv₂ hregistered
    · exact routeMarkedError_behaves hinv₂

theorem routeTargetFrame_behaves (hhearing : s.history.hearing task = some (target, frame)) :
    Behaves rt careful task (routeTargetFrame rt target frame) s := by
  apply (reapExpired_behaves hinv).bind orderly_sound
  intro _ s₁ hinv₁ hguar₁
  have hhearing := hearing_kept hguar₁ hhearing
  split
  · exact routeTargetError_behaves hinv₁
  · exact routeTargetError_behaves hinv₁
  · next htype => exact routeAttached_behaves hinv₁ hhearing htype
  · exact routeCreated_behaves hinv₁
  · exact routeOutput_behaves hinv₁ hhearing
  · exact routeExit_behaves hinv₁ hhearing
  · exact routeBufferResponse_behaves hinv₁ hhearing
  · exact routeEndReply_behaves hinv₁
  · exact routeInputAck_behaves hinv₁ hhearing
  · exact routeRunnerDisconnected_behaves hinv₁
  · exact pure_behaves _ hinv₁

end

/-! ### The loops -/

theorem representAttach_behaves : Behaves rt careful task (representAttach rt att) s := by
  apply Safe.bind orderly_sound
  · exact awaitUnit_behaves (fun _ h => by cases h) (by trivial) (by trivial)
  · intro _ s₁ hinv₁ _
    apply see_bind hinv₁
    split
    · exact pure_behaves _ hinv₁
    · split
      · exact pure_behaves _ hinv₁
      · next cached hcached =>
          split
          · exact evict_behaves hinv₁
          · apply mint_bind hinv₁
            intro hinv₂ _ hminted
            apply perform_bind hinv₂ (by exact .inr hminted)
            intro _ hinv₃ _
            have htype : (cached.override
                [("request_id", .str (rt.uuid4hex s₁.minted)),
                  ("timestamp", timestamp rt s₁)]).get "type" = .str "terminal_attach" := by
              have hget := hinv₁.cached _ _ hcached
              simp only [Frame.get] at hget
              simp [Frame.override, Frame.get, Fields.lookup_set_ne, hget]
            apply Safe.bind orderly_sound
            · apply Safe.rescue orderly_sound
              · exact sendTerminal_of_type htype (by simp [workFrameTypes]) (by simp)
              · exact fun _ hinv₄ _ => pure_behaves _ hinv₄
            · intro sent s₄ hinv₄ _
              split
              · exact pure_behaves _ hinv₄
              · apply popPending_bind hinv₄
                exact fun hinv₅ _ => evict_behaves hinv₅

theorem listenerLost_behaves (hinv : Orderly rt careful s) :
    Behaves rt careful task (listenerLost rt target) s := by
  apply see_bind hinv
  apply (settlePendingEndsOnTarget_behaves hinv).bind orderly_sound
  intro _ s₁ hinv₁ _
  apply see_bind hinv₁
  apply Safe.bind orderly_sound
  · apply Safe.forEach orderly_sound hinv₁
    intro att _ s₂ hinv₂ _
    split
    · exact evict_behaves hinv₂
    · exact pure_behaves _ hinv₂
  · intro _ s₂ hinv₂ _
    apply (closePubsub_steady hinv₂).safe.bind orderly_sound
    exact fun _ _ hinv₃ _ => (unsubscribeRunner_steady hinv₃).safe

variable (rt careful task) in
/-- One turn of a task's loop, from this state. -/
abbrev Turn (p : Async Bool) (s : Socket) : Prop :=
  wp (machine rt) (orderly rt careful) task (fun _ s' => (orderly rt careful).idle task s') p s

theorem turn_of_behaves {p : Async Bool} (h : Behaves rt careful task p s) :
    Turn rt careful task p s :=
  wp_mono (fun _ _ _ => trivial) h

theorem loseRoute_behaves (last : Except Stop Bool) (hinv : Orderly rt careful s) :
    Behaves rt careful task
      (do
        let self ← currentTask
        let s ← see
        if s.listeners.lookup target = some self then
          perform (.popListener target)
          listenerLost rt target
        else pure ()
        Coro.done last) s := by
  apply currentTask_bind hinv
  apply see_bind hinv
  dsimp only
  split
  · apply perform_bind hinv (by trivial)
    intro _ hinv₁ _
    apply (listenerLost_behaves hinv₁).bind orderly_sound
    exact fun _ _ hinv₂ _ => Safe.done orderly_sound _ hinv₂
  · exact Safe.done orderly_sound _ hinv

/-- A turn that hears a message and goes on with the outcome. -/
theorem hearMessage_turn {rest : Except Stop Bool → Async Bool}
    (hrest : ∀ outcome {s : Socket}, Orderly rt careful s →
      Turn rt careful task (rest outcome) s) :
    Turn rt careful task (Coro.attempt (hearMessage rt target) >>= rest) s := by
  apply wp_bind.mpr
  apply wp_attempt.mpr
  apply wp_bind.mpr
  refine ⟨trivial, trivial, fun s₁ reply hinv₁ _ htold => ?_⟩
  cases reply with
  | error stop => exact hrest (.error stop) hinv₁
  | ok reply =>
      cases reply with
      | frame frame =>
          have hroute : Behaves rt careful task
              (do
                Coro.rescue
                  (do
                    let _ ← routeTargetFrame rt target frame
                    pure ())
                  (pure ())
                pure true) s₁ := by
            apply then_pure
            apply Safe.rescue orderly_sound
            · exact then_pure (routeTargetFrame_behaves hinv₁ htold)
            · exact fun _ hinv₂ _ => pure_behaves _ hinv₂
          apply wp_mono _ hroute
          rintro (stop | result) s₂ ⟨hinv₂, -, -⟩
          · exact hrest (.error stop) hinv₂
          · exact hrest (.ok result) hinv₂
      | _ => exact hrest (.ok false) hinv₁

theorem runListener_turn : Turn rt careful task (runListener rt target) s := by
  unfold runListener
  apply hearMessage_turn
  intro outcome s hinv
  apply turn_of_behaves
  cases outcome with
  | ok goesOn =>
      cases goesOn with
      | true => exact pure_behaves _ hinv
      | false => exact loseRoute_behaves (.ok false) hinv
  | error stop =>
      cases stop with
      | raised => exact loseRoute_behaves (.ok false) hinv
      | cancelled => exact loseRoute_behaves (.error .cancelled) hinv

theorem runSource_behaves (htask : task = 0) : Behaves rt careful task (runSource rt) s := by
  apply (await_achieves (fun _ h => by cases h) (by trivial) (by trivial)).bind_safe orderly_sound
  intro reply s₁ hinv₁ _ _
  split
  · apply then_pure
    apply Safe.rescue orderly_sound (handleSourceFrame_behaves htask hinv₁)
    exact fun _ hinv₂ _ => pure_behaves _ hinv₂
  · apply then_pure
    apply Safe.rescue orderly_sound (releaseSource_behaves hinv₁)
    exact fun _ hinv₂ _ => pure_behaves _ hinv₂

theorem once_behaves {p : Async Unit} (h : Behaves rt careful task p s) :
    Behaves rt careful task (once p) s :=
  h.bind orderly_sound fun _ _ hinv _ => pure_behaves _ hinv

theorem releaseRegistry_behaves (hatt : att ∈ s.history.dropped) :
    Behaves rt careful task (releaseRegistry att) s := by
  apply Safe.bind orderly_sound
  · exact awaitUnit_behaves (fun _ h => by cases h) (by trivial) (by exact hatt)
  · intro _ s₁ hinv₁ hguar₁
    apply see_bind hinv₁
    split
    · exact pure_behaves _ hinv₁
    · exact awaitUnit_behaves (fun _ h => by cases h) (by trivial)
        (by exact hguar₁.1.dropped hatt)

theorem relay_checked : Checked (machine rt) (orderly rt careful) := by
  intro task s hinv _ hlive
  simp only [machine, Option.any_eq_true] at hlive ⊢
  obtain ⟨record, hrecord, -⟩ := hlive
  obtain ⟨hsource, hready⟩ := hinv.jobs task record hrecord
  rw [hrecord, Option.elim_some]
  cases hjob : record.job with
  | source => exact turn_of_behaves (runSource_behaves (hsource hjob))
  | listener target => exact runListener_turn
  | finishListener target listener =>
      exact turn_of_behaves (once_behaves (finishListener_behaves hinv))
  | expirePendingEnd minted => exact turn_of_behaves (once_behaves expirePendingEnd_behaves)
  | representAttach att => exact turn_of_behaves (once_behaves representAttach_behaves)
  | releaseRegistry att =>
      rw [hjob] at hready
      exact turn_of_behaves (once_behaves (releaseRegistry_behaves hready))

theorem connected_inOrder (deviceId : String) (now : Rat) :
    InOrder (machine rt) (orderly rt careful) ⟨{ deviceId, now }, fun _ => none⟩ where
  inv := by
    refine ⟨nofun, List.nodup_nil, nofun, nofun, nofun, nofun, nofun, fun _ => rfl, nofun, nofun,
      nofun, nofun, nofun, nofun, ?_, fun _ => nofun, fun _ => le_rfl⟩
    intro task record hrecord
    have hmem := List.mem_of_getElem? hrecord
    rw [List.mem_singleton] at hmem
    subst hmem
    obtain ⟨hlt, -⟩ := List.getElem?_eq_some_iff.mp hrecord
    exact ⟨fun _ => by simpa using hlt, trivial⟩
  task _ := trivial

/-! ### Runs without a condition -/

theorem actsMay_of_careless (task : Nat) (p : Async α) (s : Socket) :
    ActsMay (machine rt) (orderly rt False) task p s := by
  induction p generalizing s with
  | done | ask => trivial
  | act op rest ih =>
      refine ⟨?_, ih task s _⟩
      cases op with
      | putGrant => exact fun hcareful => hcareful.elim
      | _ => trivial

theorem stepMay_of_careless (c : SocketTasks) (event : SocketEvent) :
    StepMay (machine rt) (orderly rt False) c event := by
  cases event with
  | serve task reply => exact fun _ _ => trivial
  | resume task => exact ⟨fun _ _ _ => trivial, fun p s _ => actsMay_of_careless task p s⟩
  | outside event => trivial

end Qontinui.Relay
