import Qontinui.Relay.Refusals

/-!
The programs of a source socket that leave the scrollbacks alone: they neither hand the
source a scrollback nor hear a target.
-/

namespace Qontinui.Relay

variable {rt : Runtime}

/-- The ask neither hands the source a scrollback nor hears a target. -/
def Ask.Talks : Ask → Prop
  | .nextMessage _ => False
  | .sendToSource payload => payload.get "type" ≠ .str "remote_terminal_buffer"
  | _ => True

/-- A program that has nothing to do with scrollbacks and hears no target. -/
abbrev Talking {α : Type} (p : Async α) : Prop := Meek Ask.Talks p

theorem Silent.talking {α : Type} {p : Async α} (hp : Silent p) : Talking p := by
  apply hp.mono (fun _ h => h)
  intro a ha
  cases a with
  | nextMessage | sendToSource => cases ha
  | _ => trivial

theorem Ask.Talks.not_hearing {a : Ask} (ha : a.Talks) (target : String) :
    a ≠ .nextMessage target := by
  rintro rfl
  exact ha

theorem talking_sendToSource {payload : Frame}
    (htype : payload.get "type" ≠ .str "remote_terminal_buffer") : Talking (sendToSource payload) :=
  meek_awaitUnit htype

theorem talking_refuse (code message : String) (requestId : Json) (grantJti : Option String)
    (terminalId : Json) : Talking (refuse code message requestId grantJti terminalId) :=
  talking_sendToSource (by simp [refusal, Frame.get])

variable (target : String)

theorem talking_sendTerminal (frame : Frame) : Talking (sendTerminal target frame) :=
  meek_awaitFlag trivial

variable (msg : Frame)

theorem talking_forward (att : Attachment) (targetType : String) (extra : Frame) :
    Talking (forward rt msg att targetType extra) := by
  apply meek_act rfl
  intro s
  apply (talking_sendTerminal _ _).bind
  intro sent
  split
  · trivial
  · apply meek_act rfl
    intro s'
    exact (talking_refuse _ _ _ _ _).bind fun _ => trivial

variable (att : Attachment)

theorem talking_detachTarget (terminalId : Option String) :
    Talking (detachTarget rt att terminalId) := by
  unfold detachTarget
  split
  · trivial
  · apply meek_act rfl
    intro s
    apply Coro.Within.rescue
    · exact (talking_sendTerminal _ _).bind fun _ => trivial
    · trivial

theorem talking_ensureListener : Talking (ensureListener target) := by
  apply meek_act rfl
  intro s
  split
  · trivial
  · have hopen : Talking (awaitUnit (.openPubsub target)) := meek_awaitUnit trivial
    apply hopen.attempt.bind
    rintro ((- | -) | opened)
    · exact (silent_closePubsub target).talking.bind fun _ => trivial
    · trivial
    · apply meek_act rfl
      intro listener
      apply (meek_perform rfl).bind
      intro _
      apply Coro.Within.rescue
      · have hcommand : Talking (awaitFlag (.sendCommand target true)) := meek_awaitFlag trivial
        apply hcommand.bind
        intro published
        split
        · apply meek_act rfl
          intro s'
          split
          · exact meek_perform rfl
          · exact (meek_perform rfl).bind fun _ => (silent_unsubscribeRunner target).talking
        · trivial
      · trivial

theorem talking_evict (code message : String) : Talking (evict rt att code message) := by
  apply meek_act rfl
  intro s
  split
  · apply (meek_perform rfl).bind
    intro _
    have hnotice : Talking (sendToSource (evictionNotice att (s.marks att.id) code message)) :=
      talking_sendToSource (by simp [evictionNotice, Frame.get])
    apply hnotice.bind
    intro _
    apply meek_act rfl
    intro s'
    exact (talking_detachTarget _ _).bind fun _ => (silent_dropAttachment att).talking
  · trivial

theorem talking_reapExpired (exceptJti : Option String) : Talking (reapExpired rt exceptJti) :=
  meek_act rfl fun _ => Coro.Within.forEach fun _ _ => talking_evict _ _ _

theorem talking_releaseRegistry : Talking (releaseRegistry att) := by
  have hrows : Talking (awaitUnit (.redis (.deleteRows att))) := meek_awaitUnit trivial
  apply hrows.bind
  intro _
  apply meek_act rfl
  intro s
  split
  · trivial
  · exact meek_awaitUnit trivial

theorem talking_verifyGrant (door : GrantDoor) : Talking (verifyGrant msg door) := by
  have hdeny (code message : String) : Talking (do
      refuse code message (msg.get "request_id") none .null
      pure (none : Option VerifiedGrant)) :=
    (talking_refuse _ _ _ _ _).bind fun _ => trivial
  unfold verifyGrant
  split
  · split
    · exact hdeny _ _
    · next grant _ _ =>
        refine ⟨trivial, ?_⟩
        rintro (stop | reply)
        · trivial
        · cases reply with
          | claims claims =>
              apply meek_act rfl
              intro s
              split
              · exact hdeny _ _
              · trivial
          | rejected why text => cases why <;> exact hdeny _ _
          | _ => trivial
  · exact hdeny _ _

theorem talking_attachTarget (claims : Frame) (requestId : Json) :
    Talking (attachTarget claims requestId) := by
  unfold attachTarget
  split
  · exact (talking_refuse _ _ _ _ _).bind fun _ => trivial
  · trivial

theorem talking_admitGrant {correlate : Async Unit} (requestId : Json)
    (codeConsumed messageConsumed : String) (hcorrelate : Talking correlate) :
    Talking (admitGrant att correlate requestId codeConsumed messageConsumed) := by
  have hrefuse (code message : String) : Talking (do
      refuse code message requestId att.grantJti .null
      pure false) :=
    (talking_refuse _ _ _ _ _).bind fun _ => trivial
  have hregister : Talking (do
      writeGrantRecord att
      perform (.putGrant att.grantJti att)
      correlate
      ensureListener att.targetDeviceId) := by
    have hrecord : Talking (writeGrantRecord att) :=
      Coro.Within.bind (meek_awaitUnit trivial) fun _ => meek_awaitUnit trivial
    apply hrecord.bind
    intro _
    apply (meek_perform rfl).bind
    intro _
    exact hcorrelate.bind fun _ => talking_ensureListener _
  have hclaim : Talking (claimGrant att) := meek_awaitFlag trivial
  apply hclaim.attempt.bind
  rintro ((- | -) | (- | -))
  · exact hrefuse _ _
  · trivial
  · exact hrefuse _ _
  · apply hregister.attempt.bind
    rintro ((- | -) | u)
    · exact (silent_dropAttachment att).talking.bind fun _ => hrefuse _ _
    · trivial
    · trivial

theorem talking_authorize (door : Admission) : Talking (authorize rt msg door) := by
  apply meek_act rfl
  intro s
  dsimp only
  split
  · exact (talking_refuse _ _ _ _ _).bind fun _ => trivial
  · next att _ =>
      have hdeny (code message : String) : Talking (do
          refuse code message (msg.get "request_id") att.grantJti (msg.get "terminal_id")
          pure (none : Option Attachment)) :=
        (talking_refuse _ _ _ _ _).bind fun _ => trivial
      have hlapse : Talking (do
          let s ← see
          detachTarget rt att (s.marks att.id).terminalId
          dropAttachment att
          refuse att.expiredCode "grant expired" (msg.get "request_id") att.grantJti
            (msg.get "terminal_id")
          pure (none : Option Attachment)) := by
        apply meek_act rfl
        intro s'
        apply (talking_detachTarget _ _).bind
        intro _
        exact (silent_dropAttachment att).talking.bind fun _ => hdeny _ _
      split
      · exact hdeny _ _
      · split
        · apply (meek_perform rfl).bind
          intro _
          split
          · have hnotice : Talking (sendToSource (lapsedNotice att)) :=
              talking_sendToSource (by simp [lapsedNotice, Frame.get])
            exact hnotice.bind fun _ => hlapse
          · exact hlapse
        · split
          · exact hdeny _ _
          · split
            · trivial
            · split
              · exact hdeny _ _
              · split
                · exact hdeny _ _
                · trivial

theorem talking_answerEndAndRelease (entry : PendingEnd) {payload : Frame}
    (htype : payload.get "type" ≠ .str "remote_terminal_buffer") :
    Talking (answerEndAndRelease entry payload) :=
  (talking_sendToSource htype).ensuring (silent_releaseEndOnly entry).talking

theorem talking_endError (entry : PendingEnd) (code message : String) :
    Talking (answerEndAndRelease entry (endErrorPayload entry code message)) :=
  talking_answerEndAndRelease entry (by simp [endErrorPayload, Frame.get])

theorem talking_settlePendingEndsOnTarget (target code message : String)
    (ends : List (String × PendingEnd)) :
    Talking (settlePendingEndsOnTarget target code message ends) := by
  induction ends with
  | nil => trivial
  | cons end_ rest ih =>
      obtain ⟨rid, entry⟩ := end_
      unfold settlePendingEndsOnTarget
      split
      · exact ih
      · apply meek_act rfl
        rintro (- | popped)
        · exact ih
        · apply (silent_cancelEndTimer rid).talking.bind
          intro _
          apply (talking_endError entry code message).bind
          intro _
          exact ih.bind fun _ => trivial

theorem silent_popPendingEnd (wire : Json) (target : String) :
    Silent (popPendingEnd wire target) := by
  cases wire with
  | str rid =>
      apply meek_act rfl
      rintro (- | entry)
      · trivial
      · dsimp only
        split
        · exact (meek_perform rfl).bind fun _ => trivial
        · exact (silent_cancelEndTimer rid).bind fun _ => trivial
  | _ => trivial

theorem talking_expirePendingEnd (minted : String) : Talking (expirePendingEnd minted) := by
  have hsleep : Talking (awaitUnit (.sleep pendingEndTtlSeconds)) := meek_awaitUnit trivial
  apply hsleep.bind
  intro _
  apply (meek_perform rfl).bind
  intro _
  apply meek_act rfl
  rintro (- | entry)
  · trivial
  · exact talking_endError _ _ _

theorem talking_forwardEnd (att : Attachment) (terminalId : Option String) :
    Talking (forwardEnd rt msg att terminalId) := by
  apply meek_act rfl
  intro s
  split
  · exact (talking_refuse _ _ _ _ _).bind fun _ => trivial
  · apply meek_act rfl
    intro minted
    apply (meek_perform rfl).bind
    intro _
    apply Coro.Within.bind
    · exact (talking_sendTerminal _ _).rescue trivial
    · intro sent
      split
      · apply meek_act rfl
        intro s'
        split
        · apply meek_act rfl
          intro timer
          exact (meek_perform rfl).bind fun _ => trivial
        · trivial
      · apply meek_act rfl
        rintro (- | entry)
        · trivial
        · apply meek_act rfl
          intro s'
          exact (talking_refuse _ _ _ _ _).bind fun _ => trivial

theorem talking_endAttached : Talking (endAttached rt msg) := by
  apply meek_act rfl
  intro s
  dsimp only
  split
  · exact talking_refuse _ _ _ _ _
  · apply (talking_authorize _ _).bind
    rintro (- | att)
    · trivial
    · apply meek_act rfl
      intro s'
      exact (talking_forwardEnd _ _ _).bind fun _ => trivial

theorem talking_endWithFreshGrant : Talking (endWithFreshGrant rt msg) := by
  apply (talking_verifyGrant _ _).bind
  rintro (- | verified)
  · trivial
  · apply meek_act rfl
    intro s
    split
    · split
      · exact talking_refuse _ _ _ _ _
      · exact talking_endAttached _
    · apply (talking_attachTarget _ _).bind
      rintro (- | target)
      · trivial
      · apply meek_act rfl
        intro att
        have hcorrelate : Talking (pure ()) := trivial
        apply (talking_admitGrant att _ _ _ hcorrelate).bind
        intro admitted
        split
        · apply (talking_forwardEnd _ _ _).bind
          intro sent
          apply meek_act rfl
          intro s'
          split
          · exact (silent_dropAttachment att).talking
          · trivial
        · trivial

theorem talking_handleEnd : Talking (handleEnd rt msg) := by
  apply meek_act rfl
  intro s
  dsimp only
  split
  · exact talking_endWithFreshGrant msg
  · exact talking_endAttached msg

theorem talking_openAtTarget (frame : Frame) (requestId : Json) :
    Talking (openAtTarget att frame requestId) := by
  apply (talking_sendTerminal _ _).bind
  intro sent
  split
  · trivial
  · exact (silent_dropAttachment att).talking.bind fun _ => talking_refuse _ _ _ _ _

theorem talking_handleAttach : Talking (handleAttach rt msg) := by
  apply (talking_verifyGrant _ _).bind
  rintro (- | verified)
  · trivial
  · apply (talking_attachTarget _ _).bind
    rintro (- | target)
    · trivial
    · apply meek_act rfl
      intro s
      split
      · exact talking_refuse _ _ _ _ _
      · apply meek_act rfl
        intro att
        apply meek_act rfl
        intro minted
        apply (talking_admitGrant att _ _ _ (meek_perform rfl)).bind
        intro admitted
        split
        · apply meek_act rfl
          intro s'
          exact (meek_perform rfl).bind fun _ => talking_openAtTarget _ _ _
        · trivial

theorem talking_handleCreate : Talking (handleCreate rt msg) := by
  apply (talking_verifyGrant _ _).bind
  rintro (- | verified)
  · trivial
  · dsimp only
    split
    · exact talking_refuse _ _ _ _ _
    · apply meek_act rfl
      intro s
      split
      · exact talking_refuse _ _ _ _ _
      · apply meek_act rfl
        intro att
        apply meek_act rfl
        intro minted
        apply (talking_admitGrant att _ _ _ (meek_perform rfl)).bind
        intro admitted
        split
        · exact meek_act rfl fun s' => talking_openAtTarget _ _ _
        · trivial

theorem talking_handleDetach : Talking (handleDetach rt att) := by
  apply meek_act rfl
  intro s
  exact (talking_detachTarget _ _).bind fun _ => (silent_dropAttachment att).talking

theorem talking_releaseSource : Talking (releaseSource rt) := by
  apply meek_act rfl
  intro s
  apply (Coro.Within.forEach fun att _ => talking_handleDetach att).bind
  intro _
  apply meek_act rfl
  intro s'
  apply (Coro.Within.forEach fun target _ => (silent_stopListener target).talking).bind
  intro _
  apply meek_act rfl
  intro s''
  apply Coro.Within.forEach
  intro rid _
  exact meek_act rfl fun _ => (silent_cancelEndTimer rid).talking

/-! ### Target frames -/

theorem silent_boundAttachment (terminalId : Json) :
    Silent (boundAttachment target terminalId) := by
  apply meek_act rfl
  intro s
  split
  · trivial
  · split
    · exact (silent_dropAttachment _).bind fun _ => trivial
    · trivial

theorem silent_attachmentByRemoteMark (frame : Frame) :
    Silent (attachmentByRemoteMark target frame) := by
  unfold attachmentByRemoteMark
  split
  · exact silent_boundAttachment _ _
  · exact meek_act rfl fun _ => trivial
  · trivial

theorem silent_popCorrelated {table : Table} (htable : table ≠ .buffer) (wire : Json)
    (target : String) : Silent (popCorrelated table wire target) := by
  cases wire with
  | str rid =>
      apply meek_act rfl
      rintro (- | entry)
      · trivial
      · apply meek_act rfl
        intro s
        split
        · trivial
        · split
          · have hput : (Op.putPending table rid entry).registersScrollback = false := by
              cases table with
              | buffer => exact (htable rfl).elim
              | attach | create => rfl
            exact (meek_perform hput).bind fun _ => trivial
          · trivial
  | _ => trivial

theorem talking_bindTerminal (terminal : String) : Talking (bindTerminal att terminal) := by
  have hask : Talking (awaitFlag (.redis (.bindTerminal att terminal))) := meek_awaitFlag trivial
  apply hask.bind
  intro bound
  split
  · apply (meek_perform rfl).bind
    intro _
    have hrecord : Talking (awaitUnit (.redis (.recordTerminal att terminal))) :=
      meek_awaitUnit trivial
    exact hrecord.bind fun _ => trivial
  · trivial

theorem talking_routeAttached (frame : Frame) : Talking (routeAttached rt target frame) := by
  apply (silent_popCorrelated (by simp) _ _).talking.bind
  rintro (- | entry | ⟨entry, att⟩)
  · trivial
  · trivial
  · have hfail (code message terminal : String) : Talking (do
        detachTarget rt att (some terminal)
        dropAttachment att
        refuse code message (optional entry.requestId) att.grantJti (.str terminal)
        pure true) := by
      apply (talking_detachTarget _ _).bind
      intro _
      apply (silent_dropAttachment att).talking.bind
      intro _
      exact (talking_refuse _ _ _ _ _).bind fun _ => trivial
    dsimp only
    split
    · exact (talking_sendToSource (by simp [Frame.get])).bind fun _ => trivial
    · next terminal _ =>
        apply (talking_bindTerminal att terminal).attempt.bind
        rintro ((- | -) | (- | -))
        · exact hfail _ _ _
        · trivial
        · exact hfail _ _ _
        · have hpayload : (attachedPayload entry att terminal frame).get "type" ≠
              .str "remote_terminal_buffer" := by
            simp [attachedPayload, Frame.get]
          exact (talking_sendToSource hpayload).bind fun _ => trivial

theorem talking_routeCreated (frame : Frame) : Talking (routeCreated target frame) := by
  apply (silent_popCorrelated (by simp) _ _).talking.bind
  rintro (- | entry | ⟨entry, att⟩)
  · trivial
  · trivial
  · apply Coro.Within.bind
    · exact talking_sendToSource (by simp [Frame.get])
    · exact fun _ => (silent_dropAttachment att).talking.bind fun _ => trivial

theorem talking_routeOutput (frame : Frame) : Talking (routeOutput target frame) := by
  apply (silent_boundAttachment _ _).talking.bind
  rintro (- | att)
  · trivial
  · apply meek_act rfl
    intro s
    apply Coro.Within.bind
    · exact talking_sendToSource (by simp [Frame.get])
    · exact fun _ => trivial

theorem talking_routeExit (frame : Frame) : Talking (routeExit target frame) := by
  apply (silent_boundAttachment _ _).talking.bind
  rintro (- | att)
  · trivial
  · apply meek_act rfl
    intro s
    apply Coro.Within.bind
    · exact talking_sendToSource (by simp [Frame.get])
    · exact fun _ => (silent_dropAttachment att).talking.bind fun _ => trivial

theorem talking_routeRunnerDisconnected : Talking (routeRunnerDisconnected rt target) := by
  apply meek_act rfl
  intro s
  apply (talking_settlePendingEndsOnTarget _ _ _ _).bind
  intro ends
  apply meek_act rfl
  intro s'
  dsimp only
  split
  · trivial
  · apply (Coro.Within.forEach fun att _ => talking_evict att _ _).bind
    exact fun _ => trivial

theorem talking_routeEndReply (frame : Frame) : Talking (routeEndReply target frame) := by
  apply (silent_popPendingEnd _ _).talking.bind
  rintro (- | entry)
  · trivial
  · apply Coro.Within.bind
    · exact talking_answerEndAndRelease entry
        (by simp [endReplyPayload, Frame.get])
    · exact fun _ => trivial

theorem talking_routeInputAck (frame : Frame) : Talking (routeInputAck target frame) := by
  unfold routeInputAck
  split
  · apply (silent_attachmentByRemoteMark _ _).talking.bind
    rintro (- | att)
    · trivial
    · apply meek_act rfl
      intro s
      split
      · trivial
      · split
        · exact (meek_perform rfl).bind fun _ => trivial
        · have hpayload : (inputAckPayload att (s.marks att.id) frame).get "type" ≠
              .str "remote_terminal_buffer" := by
            simp [inputAckPayload, Frame.override, Frame.get, Fields.lookup_set_ne]
          exact (talking_sendToSource hpayload).bind fun _ => trivial
  · trivial

theorem refusalPayload_type (frame : Frame) (grantJti : String) (requestId : Option String)
    (terminalId : Json) :
    (targetErrorPayload rt frame grantJti requestId terminalId).get "type" ≠
      .str "remote_terminal_buffer" := by
  simp [targetErrorPayload, Frame.get]

theorem talking_routeEndError (entry : PendingEnd) (frame : Frame) :
    Talking (routeEndError rt entry frame) := by
  apply Coro.Within.bind
  · exact talking_answerEndAndRelease entry (refusalPayload_type _ _ _ _)
  · exact fun _ => trivial

theorem talking_handRefusal (frame : Frame) (requestId : Option String) (failedAttach : Bool) :
    Talking (handRefusal rt att frame requestId failedAttach) := by
  apply meek_act rfl
  intro s
  apply (talking_sendToSource (refusalPayload_type _ _ _ _)).bind
  intro _
  split
  · exact (silent_dropAttachment att).talking.bind fun _ => trivial
  · trivial

theorem talking_routeMarkedError (frame : Frame) : Talking (routeMarkedError rt target frame) := by
  unfold routeMarkedError
  split
  · apply (silent_attachmentByRemoteMark _ _).talking.bind
    rintro (- | att)
    · trivial
    · apply meek_act rfl
      intro s
      split
      · next rid _ =>
          apply meek_act rfl
          rintro (- | entry)
          · trivial
          · exact (silent_cancelEndTimer rid).talking.bind fun _ => talking_routeEndError _ _
      · exact talking_handRefusal _ _ _ _
  · trivial

theorem talking_representAttach : Talking (representAttach rt att) := by
  have hsleep : Talking (awaitUnit (.sleep attachRepresentDelaySeconds)) := meek_awaitUnit trivial
  apply hsleep.bind
  intro _
  apply meek_act rfl
  intro s
  split
  · trivial
  · split
    · trivial
    · split
      · exact talking_evict _ _ _
      · apply meek_act rfl
        intro minted
        apply (meek_perform rfl).bind
        intro _
        apply Coro.Within.bind
        · exact (talking_sendTerminal _ _).rescue trivial
        · intro sent
          split
          · trivial
          · exact meek_act rfl fun _ => talking_evict _ _ _

theorem talking_listenerLost : Talking (listenerLost rt target) := by
  apply meek_act rfl
  intro s
  apply (talking_settlePendingEndsOnTarget _ _ _ _).bind
  intro _
  apply meek_act rfl
  intro s'
  apply Coro.Within.bind
  · apply Coro.Within.forEach
    intro att _
    split
    · exact talking_evict _ _ _
    · trivial
  · intro _
    exact (silent_closePubsub target).talking.bind fun _ =>
      (silent_unsubscribeRunner target).talking

end Qontinui.Relay
