import Qontinui.Relay.Talking

/-!
The scrollback requests of a source socket: how many are in flight, and whose
request a target's reply is handed on for. The relay keeps a request for as long
as its reply is awaited; a marked reply to one that it keeps no longer is taken
for the resync of a pane.
-/

namespace Qontinui.Relay

variable (rt : Runtime) (requests : List (String × Pending)) (careful : Prop)

/-- The wire id is one that the relay has minted, for one of the scrollback requests. -/
def Solicits (s : Socket) (rid : String) : Prop :=
  (∃ request ∈ requests, request.1 = rid) ∧ ∃ n < s.minted, rt.uuid4hex n = rid

/-- Without a request to answer, the frame would be handed on as a resync: its mark leads to
an attachment that is bound to the terminal it names. -/
def Resyncs (s : Socket) (target : String) (frame : Frame) : Prop :=
  ∃ att ∈ s.markedBy target frame, (s.marks att.id).attached = true ∧
    frame.get "terminal_id" = optional (s.marks att.id).terminalId

/-- When the task comes to the request that its frame replies to, that is still in flight to
the target, or the frame would not be handed on without it. -/
def Awaited (task : Nat) (s : Socket) (rid : String) : Prop :=
  ∀ heard ∈ s.history.hearing task, heard.2.get "type" = .str "terminal_buffer_response" →
    heard.2.get "request_id" = .str rid → Solicits rt requests s rid →
      s.standsFor (.str rid) heard.1 .buffer = none → ¬ Resyncs s heard.1 heard.2

/-- What is handed on of a scrollback that replies to a request carries the id the source
gave that request. -/
def Answers (task : Nat) (s : Socket) (payload : Frame) : Prop :=
  ∃ target frame, s.history.hearing task = some (target, frame) ∧
    ∀ rid, frame.get "request_id" = .str rid → Solicits rt requests s rid →
      ∃ entry, (rid, entry) ∈ requests ∧ payload.get "request_id" = optional entry.requestId

/-- Few scrollback requests are in flight, each one of those of the run. -/
structure Bounded (s : Socket) : Prop where
  few : (s.pending .buffer).length ≤ pendingBufferMax
  known : s.pending .buffer ⊆ requests

/-- What the tasks keep of the scrollback requests; where `careful`, no reply comes too late. -/
def scrolling : Spec Socket Op Ask Value where
  inv := Bounded requests
  guar task s s' := s'.history.hearing task = s.history.hearing task
  rely task s s' := s'.history.hearing task = s.history.hearing task
  wait task a s s' :=
    (∀ target, a ≠ .nextMessage target) → s'.history.hearing task = s.history.hearing task
  pre _ op s :=
    match op with
    | .putPending .buffer _ _ => (s.pending .buffer).length < pendingBufferMax
    | _ => True
  may task op s :=
    match op with
    | .putPending .buffer rid entry => (rid, entry) ∈ requests
    | .popPending .buffer rid => careful → Awaited rt requests task s rid
    | _ => True
  asks task a s :=
    match a with
    | .sendToSource payload =>
        careful → payload.get "type" = .str "remote_terminal_buffer" →
          Answers rt requests task s payload
    | _ => True
  wants _ _ _ := True
  told task a reply s :=
    match a, reply with
    | .nextMessage target, .ok (.frame frame) => s.history.hearing task = some (target, frame)
    | _, _ => True
  mayTell _ _ _ _ := True
  idle _ _ := True

variable {rt requests careful}

theorem length_set_le {β : Type} (rid : String) (entry : β) (fields : List (String × β)) :
    (Fields.set rid entry fields).length ≤ fields.length + 1 := by
  induction fields with
  | nil => exact le_rfl
  | cons field rest ih =>
      simp only [Fields.set]
      split
      · exact Nat.le_succ _
      · exact Nat.succ_le_succ ih

theorem hearing_apply (task other : Nat) (op : Op) (s : Socket) :
    (Socket.apply task op s).history.hearing other = s.history.hearing other := by
  cases op with
  | putPending table rid entry =>
      simp only [Socket.apply, Socket.record, History.hearing]
      split <;> rfl
  | _ => rfl

variable {s : Socket} {task : Nat}

theorem pending_buffer_apply {op : Op} (hop : op.registersScrollback = false) :
    ((Socket.apply task op s).pending .buffer).Sublist (s.pending .buffer) := by
  cases op with
  | putPending table rid entry =>
      cases table with
      | buffer => cases hop
      | attach | create => exact List.Sublist.refl _
  | popPending table rid =>
      cases table with
      | buffer => exact List.filter_sublist
      | attach | create => exact List.Sublist.refl _
  | drop | sweepBuffer => exact List.filter_sublist
  | _ => exact List.Sublist.refl _

theorem Bounded.sublist {s' : Socket} (h : Bounded requests s)
    (hsub : (s'.pending .buffer).Sublist (s.pending .buffer)) : Bounded requests s' :=
  ⟨hsub.length_le.trans h.few, fun _ hrequest => h.known (hsub.subset hrequest)⟩

theorem bounded_apply {op : Op} (h : Bounded requests s)
    (hpre : (scrolling rt requests careful).pre task op s)
    (hmay : (scrolling rt requests careful).may task op s) :
    Bounded requests (Socket.apply task op s) := by
  cases hop : op.registersScrollback with
  | false => exact h.sublist (pending_buffer_apply hop)
  | true =>
      unfold Op.registersScrollback at hop
      split at hop
      · next rid entry =>
          have htable : (Socket.apply task (.putPending .buffer rid entry) s).pending .buffer =
              Fields.set rid entry (s.pending .buffer) := rfl
          refine ⟨?_, ?_⟩
          · rw [htable]
            exact (length_set_le rid entry _).trans hpre
          · intro request hrequest
            rw [htable] at hrequest
            rcases Fields.mem_of_mem_set hrequest with hold | rfl
            · exact h.known hold
            · exact hmay
      · cases hop

theorem pending_served (task : Nat) (a : Ask) (reply : Except Stop Value) (s : Socket) :
    (served task a reply s).pending = s.pending := by
  unfold served
  split <;> rfl

theorem hearing_served {a : Ask} {reply : Except Stop Value} (other : Nat)
    (h : other ≠ task ∨ ∀ target, a ≠ .nextMessage target) :
    (served task a reply s).history.hearing other = s.history.hearing other := by
  unfold served
  split
  · rfl
  · rcases h with hne | hask
    · simp [Socket.record, History.hearing, hne.symm]
    · exact (hask _ rfl).elim
  all_goals rfl

theorem scrolling_sound : Sound (machine rt) (scrolling rt requests careful) where
  rely_refl _ _ := rfl
  rely_trans h h' := h'.trans h
  wait_of_rely h := fun _ => h
  wait_trans h h' := fun hne => (h' hne).trans (h hne)
  guar_refl _ _ := rfl
  guar_trans h h' := h'.trans h
  wants_stable _ _ := trivial
  told_stable {_ a reply _ _} h htold := by
    simp only [scrolling] at htold ⊢
    split at htold
    · exact h.trans htold
    · trivial
  idle_stable _ _ := trivial
  apply {task op s} h hpre hmay :=
    ⟨bounded_apply h hpre hmay, hearing_apply task task op s,
      fun other _ => hearing_apply task other op s⟩
  served {task a reply s} h _ _ _ := by
    refine ⟨h.sublist ?_, ?_, fun hne => hearing_served task (.inr hne),
      fun other hother => hearing_served other (.inl hother)⟩
    · rw [machine, pending_served]
    · simp only [scrolling]
      split
      · simp [machine, served, Socket.record, History.hearing]
      · trivial
  uncancel h _ _ := by
    refine ⟨⟨h.few, h.known⟩, ?_, fun _ => rfl, fun _ _ => rfl⟩
    simp [scrolling]
  finish h _ := ⟨⟨h.few, h.known⟩, trivial, fun _ _ => rfl⟩
  outside h := ⟨⟨h.few, h.known⟩, fun _ => rfl⟩

/-! ### Programs -/

theorem Talking.safe {α : Type} {p : Async α} (hp : Talking p) (h : Bounded requests s) :
    Safe (machine rt) (scrolling rt requests careful) task p s := by
  apply Safe.of_within scrolling_sound _ _ hp h
  · intro op s hop _
    cases op with
    | putPending table rid entry =>
        cases table with
        | buffer => cases hop
        | attach | create => trivial
    | _ => trivial
  · intro a s ha _
    refine ⟨?_, trivial, fun s' hwait => hwait ha.not_hearing⟩
    cases a with
    | sendToSource payload => exact fun _ htype => (ha htype).elim
    | _ => trivial

section Scrolling

variable {task : Nat} {s : Socket} {α β : Type}

variable (rt requests careful task) in
abbrev Scrolls (p : Async α) (s : Socket) : Prop :=
  Safe (machine rt) (scrolling rt requests careful) task p s

theorem scroll_act {R : Except Stop β → Socket → Prop} {op : Op} {give : Nat → Socket → α}
    {f : α → Async β} (hinv : Bounded requests s)
    (hpre : (scrolling rt requests careful).pre task op s)
    (hf : (scrolling rt requests careful).may task op s →
      Bounded requests (Socket.apply task op s) →
      Ends (machine rt) (scrolling rt requests careful) task R (f (give task s))
        (Socket.apply task op s)) :
    Ends (machine rt) (scrolling rt requests careful) task R
      ((Coro.act op fun task s => pure (give task s) : Async α) >>= f) s :=
  Ends.act scrolling_sound hinv hpre fun hmay hinv' _ => hf hmay hinv'

variable (rt requests careful task) in
/-- How a reply's request is looked for, and what then is known of it. -/
structure BufferPopped (wire : Json) (target : String) (s : Socket) (outcome : Correlated)
    (s' : Socket) : Prop where
  unmoved : Unmoved s s'
  minted : s'.minted = s.minted
  notOurs : outcome = .notOurs → ∀ rid, wire = .str rid →
    s.standsFor wire target .buffer = none ∧ (careful → Awaited rt requests task s rid)
  answer : ∀ entry att, outcome = .answer entry att →
    ∃ rid, wire = .str rid ∧ (rid, entry) ∈ requests

theorem unmoved_onTable (s : Socket) (table : Table)
    (f : List (String × Pending) → List (String × Pending)) : Unmoved s (s.onTable table f) :=
  ⟨rfl, rfl, rfl, fun _ => Iff.rfl, id⟩

theorem length_erase_lt {rid : String} {fields : List (String × Pending)} {entry : Pending}
    (h : fields.lookup rid = some entry) : (Fields.erase rid fields).length < fields.length := by
  apply List.length_filter_lt_length_iff_exists.mpr
  exact ⟨(rid, entry), Fields.mem_of_lookup h, by simp⟩

variable {target : String} {frame : Frame} {wire : Json}

theorem popBuffer_ends (hinv : Bounded requests s) :
    Ends (machine rt) (scrolling rt requests careful) task
      (fun result s' => ∃ outcome, result = .ok outcome ∧
        BufferPopped rt requests careful task wire target s outcome s')
      (popCorrelated .buffer wire target) s := by
  cases wire with
  | str rid =>
      apply scroll_act hinv (by trivial)
      intro hmay hinv₁
      split
      · next hlookup =>
          apply Ends.done scrolling_sound hinv₁
          refine ⟨_, rfl, unmoved_onTable s _ _, rfl, ?_, by simp⟩
          rintro - rid' heq
          cases heq
          exact ⟨by simp [Socket.standsFor, textOf?, hlookup], hmay⟩
      · next entry hlookup =>
          have hknown : (rid, entry) ∈ requests := hinv.known (Fields.mem_of_lookup hlookup)
          apply scroll_act hinv₁ (by trivial)
          intro _ hinv₂
          split
          · apply Ends.done scrolling_sound hinv₂
            exact ⟨_, rfl, unmoved_onTable s _ _, rfl, by simp, by simp⟩
          · next att hgrant =>
              have hgrant : s.grants.lookup entry.grantJti = some att := hgrant
              split
              · next hne =>
                  have hfew : ((Socket.apply task (.popPending .buffer rid) s).pending
                      .buffer).length < pendingBufferMax :=
                    (length_erase_lt hlookup).trans_le hinv.few
                  apply scroll_act hinv₂ (by exact hfew)
                  intro _ hinv₃
                  apply Ends.done scrolling_sound hinv₃
                  refine ⟨_, rfl, ⟨rfl, rfl, rfl, fun _ => Iff.rfl, id⟩, rfl, ?_,
                    by simp⟩
                  rintro - rid' heq
                  cases heq
                  exact ⟨by simp [Socket.standsFor, textOf?, hlookup, hgrant, hne], hmay⟩
              · apply Ends.done scrolling_sound hinv₂
                refine ⟨_, rfl, unmoved_onTable s _ _, rfl, by simp, ?_⟩
                intro entry' att' heq
                cases heq
                exact ⟨rid, rfl, hknown⟩
  | _ =>
      apply Ends.done scrolling_sound hinv
      exact ⟨_, rfl, Unmoved.refl s, rfl, by simp, by simp⟩

theorem bufferPayload_requestId (att : Attachment) (marks : Marks) (frame : Frame)
    (requestId : Option String) :
    (bufferPayload att marks frame requestId).get "request_id" = optional requestId := by
  cases requestId <;> simp [bufferPayload, Frame.get, Fields.lookup_cons, ifPresent, optional]

section

variable (hinv : Bounded requests s)
include hinv

theorem handBuffer_scrolls {att : Attachment} {requestId : Option String}
    (hanswers : careful → frame.get "terminal_id" = optional (s.marks att.id).terminalId →
      ∀ payload, payload.get "request_id" = optional requestId →
        Answers rt requests task s payload) :
    Scrolls rt requests careful task (handBuffer att frame requestId) s := by
  apply scroll_act hinv (by trivial)
  intro _ hinv₁
  split
  · exact Safe.done scrolling_sound _ hinv₁
  · next heq =>
      refine ⟨fun hcareful _ => ?_, trivial, ?_⟩
      · exact hanswers hcareful (not_not.mp heq) _ (bufferPayload_requestId att _ frame requestId)
      · rintro s' (stop | reply) hinv₂ hwait -
        · exact ⟨hinv₂, hwait (by simp), trivial⟩
        · exact ⟨hinv₂, hwait (by simp), trivial⟩

/-- The search for a marked attachment waits only where it finds none. -/
theorem remoteMark_ends (hmark : isRemoteMarked frame = true) :
    Ends (machine rt) (scrolling rt requests careful) task
      (fun result s' => ∀ att, result = .ok (some att) →
        s' = s ∧ s.markedBy target frame = some att)
      (attachmentByRemoteMark target frame) s := by
  have hnone {s' : Socket} (hinv' : Bounded requests s') :
      Ends (machine rt) (scrolling rt requests careful) task
        (fun result s' => ∀ att, result = .ok (some att) →
          s' = s ∧ s.markedBy target frame = some att)
        (Coro.done (.ok none) : Async (Option Attachment)) s' :=
    Ends.done scrolling_sound hinv' (by simp)
  unfold attachmentByRemoteMark
  split
  · next hhint =>
      apply scroll_act hinv (by trivial)
      intro _ hinv₁
      split
      · exact hnone hinv₁
      · next att hheld =>
          have hheld : s.byTerminal target (frame.get "terminal_id") = some att := hheld
          split
          · apply (silent_dropAttachment att).talking.safe hinv₁ |>.bind_ends scrolling_sound
            · exact fun _ s' hinv' _ => hnone hinv'
            · exact fun _ _ => by simp
          · next hlive =>
              apply Ends.done scrolling_sound hinv₁
              intro att' heq
              cases heq
              exact ⟨rfl, by simpa [Socket.markedBy, hmark, hhint, hheld] using hlive⟩
  · next jti hhint =>
      apply scroll_act hinv (by trivial)
      intro _ hinv₁
      apply Ends.done scrolling_sound hinv₁
      intro att heq
      refine ⟨rfl, ?_⟩
      simp only [Socket.markedBy, hmark, hhint, if_true]
      exact Except.ok.inj heq
  · exact hnone hinv

theorem routeBufferResponse_scrolls (hheard : s.history.hearing task = some (target, frame))
    (htype : frame.get "type" = .str "terminal_buffer_response") :
    Scrolls rt requests careful task (routeBufferResponse target frame) s := by
  apply (popBuffer_ends hinv).bind_safe scrolling_sound
  rintro outcome s₁ hinv₁ hguar ⟨_, heq, hpopped⟩
  cases heq
  have hheard₁ : s₁.history.hearing task = some (target, frame) := hguar.trans hheard
  cases outcome with
  | orphan entry => exact Safe.done scrolling_sound _ hinv₁
  | answer entry att =>
      obtain ⟨rid, hrid, hknown⟩ := hpopped.answer entry att rfl
      apply handBuffer_scrolls hinv₁
      intro _ _ payload hpayload
      refine ⟨target, frame, hheard₁, fun rid' hrid' _ => ?_⟩
      have hsame : rid = rid' := Json.str.inj (hrid.symm.trans hrid')
      exact ⟨entry, hsame ▸ hknown, hpayload⟩
  | notOurs =>
      show Safe _ _ _ (if isRemoteMarked frame then _ else _) _
      split
      · next hmark =>
          apply (remoteMark_ends hinv₁ hmark).bind_safe scrolling_sound
          intro marked s₂ hinv₂ _ hmarked
          cases marked with
          | none => exact Safe.done scrolling_sound _ hinv₂
          | some att =>
              obtain ⟨rfl, hmarkedBy⟩ := hmarked att rfl
              apply scroll_act hinv₂ (by trivial)
              intro _ hinv₃
              split
              · next hattached =>
                  apply handBuffer_scrolls hinv₃
                  intro hcareful hterminal payload _
                  refine ⟨target, frame, hheard₁, fun rid hrid hsolicits => ?_⟩
                  obtain ⟨hnone, hawaited⟩ := hpopped.notOurs rfl rid hrid
                  obtain ⟨hrequest, n, hn, hminted⟩ := hsolicits
                  rw [hpopped.unmoved.markedBy] at hmarkedBy
                  have hsolicited : Solicits rt requests s rid :=
                    ⟨hrequest, n, hpopped.minted ▸ hn, hminted⟩
                  have hresyncs : Resyncs s target frame :=
                    ⟨att, hmarkedBy, hpopped.unmoved.marks ▸ hattached,
                      hpopped.unmoved.marks ▸ hterminal⟩
                  exact (hawaited hcareful (target, frame) hheard htype hrid hsolicited
                    (hrid ▸ hnone) hresyncs).elim
              · exact Safe.done scrolling_sound _ hinv₃
      · exact Safe.done scrolling_sound _ hinv₁

theorem popCorrelated_scrolls {table : Table} :
    Scrolls rt requests careful task (popCorrelated table wire target) s := by
  cases table with
  | buffer => exact (popBuffer_ends hinv).safe
  | attach | create => exact (silent_popCorrelated (by simp) wire target).talking.safe hinv

theorem popFirst_scrolls {tables : List Table} :
    Scrolls rt requests careful task (popFirst wire target tables) s := by
  induction tables generalizing s with
  | nil => exact Safe.done scrolling_sound _ hinv
  | cons table rest ih =>
      apply (popCorrelated_scrolls hinv).bind scrolling_sound
      intro outcome s₁ hinv₁ _
      cases outcome with
      | notOurs => exact ih hinv₁
      | orphan | answer => exact Safe.done scrolling_sound _ hinv₁

theorem routeTargetError_scrolls :
    Scrolls rt requests careful task (routeTargetError rt target frame) s := by
  apply ((silent_popPendingEnd _ _).talking.safe hinv).bind scrolling_sound
  intro ended s₁ hinv₁ _
  cases ended with
  | some entry => exact (talking_routeEndError entry frame).safe hinv₁
  | none =>
      apply (popFirst_scrolls hinv₁).bind scrolling_sound
      intro found s₂ hinv₂ _
      split
      · next table entry att =>
          apply scroll_act hinv₂ (by trivial)
          intro _ hinv₃
          split
          · have hrepresent : Talking (do
                perform (.represent att)
                let _ ← spawn (.representAttach att)
                pure true) := by
              apply (meek_perform rfl).bind
              intro _
              exact meek_act rfl fun _ => trivial
            exact hrepresent.safe hinv₃
          · exact (talking_handRefusal att frame _ _).safe hinv₃
      · exact (talking_routeMarkedError target frame).safe hinv₂

theorem routeTargetFrame_scrolls (hheard : s.history.hearing task = some (target, frame)) :
    Scrolls rt requests careful task (routeTargetFrame rt target frame) s := by
  apply ((talking_reapExpired none).safe hinv).bind scrolling_sound
  intro _ s₁ hinv₁ hguar
  have hheard₁ : s₁.history.hearing task = some (target, frame) := hguar.trans hheard
  split
  · exact routeTargetError_scrolls hinv₁
  · exact routeTargetError_scrolls hinv₁
  · exact (talking_routeAttached target frame).safe hinv₁
  · exact (talking_routeCreated target frame).safe hinv₁
  · exact (talking_routeOutput target frame).safe hinv₁
  · exact (talking_routeExit target frame).safe hinv₁
  · next htype => exact routeBufferResponse_scrolls hinv₁ hheard₁ htype
  · exact (talking_routeEndReply target frame).safe hinv₁
  · exact (talking_routeInputAck target frame).safe hinv₁
  · exact (talking_routeRunnerDisconnected target).safe hinv₁
  · exact Safe.done scrolling_sound _ hinv₁

theorem handleBuffer_scrolls {msg : Frame} {att : Attachment} :
    Scrolls rt requests careful task (handleBuffer rt msg att) s := by
  apply scroll_act hinv (by trivial)
  intro _ hinv₁
  apply scroll_act hinv₁ (by trivial)
  intro _ hinv₂
  apply scroll_act hinv₂ (by trivial)
  intro _ hinv₃
  apply scroll_act hinv₃ (by trivial)
  intro _ hinv₄
  split
  · exact (talking_refuse _ _ _ _ _).safe hinv₄
  · next hroom =>
      apply scroll_act hinv₄ (by exact not_le.mp hroom)
      intro _ hinv₅
      apply scroll_act hinv₅ (by trivial)
      intro _ hinv₆
      apply ((talking_forward _ _ _ _).safe hinv₆).bind scrolling_sound
      intro sent s₇ hinv₇ _
      split
      · exact Safe.done scrolling_sound _ hinv₇
      · apply Talking.safe _ hinv₇
        exact meek_act rfl fun _ => meek_perform rfl

theorem handleSourceFrame_scrolls {msg : Frame} :
    Scrolls rt requests careful task (handleSourceFrame rt msg) s := by
  apply ((talking_reapExpired _).safe hinv).bind scrolling_sound
  intro _ s₁ hinv₁ _
  have hwork {door : Admission} {body : Attachment → Async Unit}
      (hbody : ∀ att, Talking (body att)) :
      Scrolls rt requests careful task (authorized rt msg door body) s₁ := by
    apply Talking.safe _ hinv₁
    apply (talking_authorize msg door).bind
    rintro (- | att)
    · trivial
    · exact hbody att
  have hforward (targetType : String) (extra : Frame) (att : Attachment) : Talking (do
      let _ ← forward rt msg att targetType extra
      pure ()) :=
    (talking_forward _ _ _ _).bind fun _ => trivial
  split
  · exact (talking_handleAttach msg).safe hinv₁
  · exact (talking_handleCreate msg).safe hinv₁
  · exact (talking_handleEnd msg).safe hinv₁
  · exact hwork fun att => hforward _ _ att
  · exact hwork fun att => hforward _ _ att
  · apply ((talking_authorize msg {}).safe hinv₁).bind scrolling_sound
    intro authorized s₂ hinv₂ _
    cases authorized with
    | none => exact Safe.done scrolling_sound _ hinv₂
    | some att => exact handleBuffer_scrolls hinv₂
  · exact hwork fun att => hforward _ _ att
  · exact hwork talking_handleDetach
  · exact Safe.done scrolling_sound _ hinv₁

end

/-! ### Tasks -/

variable (rt requests careful task) in
/-- One turn of a task's loop, from this state. -/
abbrev ScrollTurn (p : Async Bool) (s : Socket) : Prop :=
  wp (machine rt) (scrolling rt requests careful) task (fun _ _ => True) p s

theorem Scrolls.turn {p : Async Bool} (h : Scrolls rt requests careful task p s) :
    ScrollTurn rt requests careful task p s :=
  wp_mono (fun _ _ _ => trivial) h

theorem runSource_scrolls : ScrollTurn rt requests careful task (runSource rt) s := by
  refine ⟨trivial, trivial, ?_⟩
  rintro s₁ (stop | reply) hinv₁ - -
  · trivial
  · have hgo {p : Async Unit} {goesOn : Bool} (hp : Scrolls rt requests careful task p s₁) :
        ScrollTurn rt requests careful task
          (Coro.rescue p (pure ()) >>= fun _ => pure goesOn) s₁ := by
      apply Scrolls.turn
      apply Safe.bind scrolling_sound
      · exact hp.rescue scrolling_sound fun _ hinv₂ _ => Safe.done scrolling_sound _ hinv₂
      · exact fun _ _ hinv₂ _ => Safe.done scrolling_sound _ hinv₂
    cases reply with
    | frame msg => exact hgo (handleSourceFrame_scrolls hinv₁)
    | _ => exact hgo (talking_releaseSource.safe hinv₁)

/-- A turn that hears a message and goes on with the outcome. -/
theorem hearMessage_scrolls {rest : Except Stop Bool → Async Bool}
    (hrest : ∀ outcome, Talking (rest outcome)) :
    ScrollTurn rt requests careful task (Coro.attempt (hearMessage rt target) >>= rest) s := by
  have hgo (outcome : Except Stop Bool) {s' : Socket} (hinv' : Bounded requests s') :
      ScrollTurn rt requests careful task (rest outcome) s' :=
    Scrolls.turn ((hrest outcome).safe hinv')
  apply wp_bind.mpr
  apply wp_attempt.mpr
  apply wp_bind.mpr
  refine ⟨trivial, trivial, ?_⟩
  rintro s₁ (stop | reply) hinv₁ - htold
  · exact hgo (.error stop) hinv₁
  · cases reply with
    | frame frame =>
        have hroute : Scrolls rt requests careful task (do
            Coro.rescue
              (do
                let _ ← routeTargetFrame rt target frame
                pure ())
              (pure ())
            pure true) s₁ := by
          apply Safe.bind scrolling_sound
          · apply Safe.rescue scrolling_sound
            · apply (routeTargetFrame_scrolls hinv₁ htold).bind scrolling_sound
              exact fun _ _ hinv₂ _ => Safe.done scrolling_sound _ hinv₂
            · exact fun _ hinv₂ _ => Safe.done scrolling_sound _ hinv₂
          · exact fun _ _ hinv₂ _ => Safe.done scrolling_sound _ hinv₂
        apply wp_mono _ hroute
        rintro (stop | result) s₂ ⟨hinv₂, -, -⟩
        · exact hgo (.error stop) hinv₂
        · exact hgo (.ok result) hinv₂
    | _ => exact hgo (.ok false) hinv₁

theorem runListener_scrolls : ScrollTurn rt requests careful task (runListener rt target) s := by
  have hlose (last : Except Stop Bool) : Talking (do
      let self ← currentTask
      let s ← see
      if s.listeners.lookup target = some self then
        perform (.popListener target)
        listenerLost rt target
      else pure ()
      Coro.done last) := by
    apply meek_act rfl
    intro self
    apply meek_act rfl
    intro s
    dsimp only
    split
    · apply (meek_perform rfl).bind
      intro _
      exact (talking_listenerLost target).bind fun _ => trivial
    · trivial
  unfold runListener
  apply hearMessage_scrolls
  intro outcome
  cases outcome with
  | ok goesOn =>
      cases goesOn with
      | true => trivial
      | false => exact hlose (.ok false)
  | error stop =>
      cases stop with
      | raised => exact hlose (.ok false)
      | cancelled => exact hlose (.error .cancelled)

end Scrolling

theorem relay_scrolls : Checked (machine rt) (scrolling rt requests careful) := by
  intro task s hinv _ hlive
  simp only [machine, Option.any_eq_true] at hlive ⊢
  obtain ⟨record, hrecord, -⟩ := hlive
  rw [hrecord, Option.elim_some]
  have honce {p : Async Unit} (hp : Talking p) : ScrollTurn rt requests careful task (once p) s :=
    Scrolls.turn (Talking.safe (hp.bind fun _ => trivial) hinv)
  cases record.job with
  | source => exact runSource_scrolls
  | listener target => exact runListener_scrolls
  | finishListener target listener => exact honce (silent_finishListener target listener).talking
  | expirePendingEnd minted => exact honce (talking_expirePendingEnd minted)
  | representAttach att => exact honce (talking_representAttach att)
  | releaseRegistry att => exact honce (talking_releaseRegistry att)

theorem connected_scrolls (deviceId : String) :
    InOrder (machine rt) (scrolling rt requests careful) (connected deviceId) where
  inv := ⟨Nat.zero_le _, List.nil_subset _⟩
  task _ := trivial

/-! ### In every run -/

def scrollbacks (rt : Runtime) : SocketTasks → List SocketEvent → List (String × Pending)
  | _, [] => []
  | c, event :: rest =>
      ((machine rt).passes c event).flatMap (fun s => s.pending .buffer) ++
        scrollbacks rt ((machine rt).step c event) rest

def Op.scrollback? : Op → Option String
  | .popPending .buffer rid => some rid
  | _ => none

/-- Whenever the program comes to a request its frame replies to, on its way to the next
ask, it is in time. -/
def comesInTime (rt : Runtime) (requests : List (String × Pending)) (task : Nat) {α : Type} :
    Async α → Socket → Prop
  | .done _, _ | .ask _ _, _ => True
  | .act op rest, s =>
      (∀ rid ∈ op.scrollback?, Awaited rt requests task s rid) ∧
        comesInTime rt requests task (rest task s) (Socket.apply task op s)

/-- The step hands on no reply to a request of the run as if there were none. -/
def RepliesInTime (rt : Runtime) (requests : List (String × Pending)) (c : SocketTasks) :
    SocketEvent → Prop
  | .resume task =>
      ∀ turn ∈ (machine rt).next c task, comesInTime rt requests task turn.1 turn.2
  | _ => True

section Decidable

variable (rt : Runtime) (requests : List (String × Pending)) (task : Nat)

instance (s : Socket) (rid : String) : Decidable (Solicits rt requests s rid) :=
  inferInstanceAs (Decidable (_ ∧ _))

instance (s : Socket) (target : String) (frame : Frame) : Decidable (Resyncs s target frame) :=
  inferInstanceAs (Decidable (∃ att ∈ _, _))

instance (s : Socket) (rid : String) : Decidable (Awaited rt requests task s rid) :=
  inferInstanceAs (Decidable (∀ heard ∈ _, _))

instance decidableComesInTime {α : Type} :
    ∀ (p : Async α) (s : Socket), Decidable (comesInTime rt requests task p s)
  | .done _, _ | .ask _ _, _ => .isTrue trivial
  | .act op rest, s =>
      @instDecidableAnd _ _ (inferInstanceAs (Decidable (∀ rid ∈ op.scrollback?, _)))
        (decidableComesInTime (rest task s) (Socket.apply task op s))

instance (c : SocketTasks) : DecidablePred (RepliesInTime rt requests c)
  | .resume _ => inferInstanceAs (Decidable (∀ turn ∈ _, _))
  | .serve _ _ | .outside _ => .isTrue trivial

end Decidable

theorem actsMay_of_passes {α : Type} {p : Async α}
    (hknown : ∀ s' ∈ p.passes Socket.apply task s, s'.pending .buffer ⊆ requests)
    (htime : careful → comesInTime rt requests task p s) :
    ActsMay (machine rt) (scrolling rt requests careful) task p s := by
  induction p generalizing s with
  | done | ask => trivial
  | act op rest ih =>
      have hnext : ∀ s' ∈ (rest task s).passes Socket.apply task (Socket.apply task op s),
          s'.pending .buffer ⊆ requests :=
        fun s' hs' => hknown s' (List.mem_cons_of_mem _ hs')
      have hafter := hnext _ (Coro.head_mem_passes _ _ _ _)
      cases op with
      | putPending table rid entry =>
          refine ⟨?_, ih task s hnext fun h => (htime h).2⟩
          cases table with
          | buffer =>
              apply hafter
              exact Fields.mem_of_lookup (Fields.lookup_set_self rid entry _)
          | attach | create => trivial
      | popPending table rid =>
          cases table with
          | buffer => exact ⟨fun h => (htime h).1 rid rfl, ih task s hnext fun h => (htime h).2⟩
          | attach | create => exact ⟨trivial, ih task s hnext fun h => (htime h).2⟩
      | _ => exact ⟨trivial, ih task s hnext fun h => (htime h).2⟩

theorem stepMay_of_passes {c : SocketTasks} {event : SocketEvent}
    (hknown : ∀ s ∈ (machine rt).passes c event, s.pending .buffer ⊆ requests)
    (htime : careful → RepliesInTime rt requests c event) :
    StepMay (machine rt) (scrolling rt requests careful) c event := by
  cases event with
  | serve task reply => exact fun _ _ => trivial
  | outside event => trivial
  | resume task =>
      refine ⟨fun _ _ _ => trivial, fun p s hnext => ?_⟩
      simp only [Machine.passes, hnext] at hknown
      exact actsMay_of_passes (fun s' hs' => hknown s' (List.mem_cons_of_mem _ hs'))
        fun hcareful => htime hcareful (p, s) hnext

theorem subset_scrollbacks {c : SocketTasks} {events front : List SocketEvent} {event : SocketEvent}
    (hfront : front ++ [event] <+: events)
    (hs : s ∈ (machine rt).passes (Runs.run (machine rt).step c front) event) :
    s.pending .buffer ⊆ scrollbacks rt c events := by
  induction events generalizing c front with
  | nil => simp at hfront
  | cons head events ih =>
      intro request hrequest
      cases front with
      | nil =>
          obtain ⟨rfl, -⟩ := List.cons_prefix_cons.mp hfront
          exact List.mem_append_left _ (List.mem_flatMap.mpr ⟨s, hs, hrequest⟩)
      | cons head' front =>
          obtain ⟨rfl, htail⟩ := List.cons_prefix_cons.mp hfront
          exact List.mem_append_right _ (ih htail hs hrequest)

theorem scrollbacks_inOrder (careful : Prop) {deviceId : String} {events front : List SocketEvent}
    (hfront : front <+: events)
    (htime : careful → Runs.Meets (machine rt).step
      (RepliesInTime rt (scrollbacks rt (connected deviceId) events)) (connected deviceId) events) :
    InOrder (machine rt)
      (scrolling rt (scrollbacks rt (connected deviceId) events) careful)
      (afterEvents rt deviceId front) := by
  apply run_inOrder scrolling_sound relay_scrolls (connected_scrolls deviceId)
  apply (Runs.meets_iff_forall_step _ _ _).mpr
  intro before event hbefore
  have hstep : before ++ [event] <+: events := hbefore.trans hfront
  exact stepMay_of_passes (fun s hs => subset_scrollbacks hstep hs)
    fun hcareful => (Runs.meets_iff_forall_step _ _ _).mp (htime hcareful) before event hstep

theorem pending_buffer_bounded (deviceId : String) (events : List SocketEvent) :
    ((afterEvents rt deviceId events).state.pending .buffer).length ≤ pendingBufferMax :=
  (scrollbacks_inOrder False List.prefix_rfl False.elim).inv.few

/-- Whatever scrollback a step hands on in reply to a request of the run carries the id that
the source gave that request. -/
def AnswersRequests (rt : Runtime) (requests : List (String × Pending)) (c : SocketTasks)
    (event : SocketEvent) : Prop :=
  ∀ task payload, (machine rt).issued c event = some (task, .sendToSource payload) →
    payload.get "type" = .str "remote_terminal_buffer" →
      Answers rt requests task ((machine rt).step c event).state payload

/-- In every run in which no reply to a scrollback request comes so late that it would pass
for a resync, every step hands such replies on for their own requests, and few requests are
in flight. -/
theorem replies_keep_requests {deviceId : String} {events : List SocketEvent}
    (h : Runs.Meets (machine rt).step
      (RepliesInTime rt (scrollbacks rt (connected deviceId) events)) (connected deviceId) events) :
    ∀ front, front <+: events →
      ((afterEvents rt deviceId front).state.pending .buffer).length ≤ pendingBufferMax ∧
        ∀ event, front ++ [event] <+: events →
          AnswersRequests rt (scrollbacks rt (connected deviceId) events)
            (afterEvents rt deviceId front) event := by
  intro front hfront
  refine ⟨pending_buffer_bounded deviceId front, ?_⟩
  intro event hevent task payload hissued htype
  have hinOrder := scrollbacks_inOrder True hfront fun _ => h
  have hmay : StepMay (machine rt)
      (scrolling rt (scrollbacks rt (connected deviceId) events) True)
      (afterEvents rt deviceId front) event :=
    stepMay_of_passes (fun s hs => subset_scrollbacks hevent hs)
      fun _ => (Runs.meets_iff_forall_step _ _ _).mp h front event hevent
  exact asks_of_issued scrolling_sound relay_scrolls hinOrder hmay hissued trivial htype

/-! ### Two runs -/

/-- An attached source asks for its scrollback, under an id of its own. -/
def scrolled : List SocketEvent :=
  [.resume 0] ++ attachFirst (attachGrant "grant" plainTarget 1000) ++ [.resume 1] ++
    nameTerminal 1 (plainRuntime.uuid4hex 0) "terminal" ++
    answer 0 (.frame [("type", .str "remote_terminal_buffer"), ("grant_jti", .str "grant"),
      ("terminal_id", .str "terminal"), ("request_id", .str "history:1")]) ++
    answer 0 (.flag true) ++ [.resume 0]

/-- The target's reply to that, with the mark that all of its replies bear. -/
def scrollbackReply : SocketEvent :=
  .serve 1 (.ok (.frame
    [("type", .str "terminal_buffer_response"), ("request_id", .str (plainRuntime.uuid4hex 1)),
      ("remote", .obj [("grant_jti", .str "grant")]), ("terminal_id", .str "terminal"),
      ("data", .str "old")]))

theorem scrolled_keeps_requests :
    AnswersRequests plainRuntime
      (scrollbacks plainRuntime (connected plainSource) (scrolled ++ [scrollbackReply, .resume 1]))
      (afterEvents plainRuntime plainSource (scrolled ++ [scrollbackReply])) (.resume 1) := by
  have hmeets : Runs.Meets (machine plainRuntime).step
      (RepliesInTime plainRuntime (scrollbacks plainRuntime (connected plainSource)
        (scrolled ++ [scrollbackReply, .resume 1]))) (connected plainSource)
      (scrolled ++ [scrollbackReply, .resume 1]) := by decide +kernel
  have hprefix : scrolled ++ [scrollbackReply] ++ [.resume 1] =
      scrolled ++ [scrollbackReply, .resume 1] := List.append_assoc ..
  exact (replies_keep_requests hmeets (scrolled ++ [scrollbackReply])
    ⟨[.resume 1], hprefix⟩).2 (.resume 1) ⟨[], (List.append_nil _).trans hprefix⟩

/-- A minute later the source asks again, and only then the first reply arrives. -/
def scrolledLate : List SocketEvent :=
  scrolled ++ [.outside ⟨0, 60⟩] ++
    answer 0 (.frame [("type", .str "remote_terminal_buffer"), ("grant_jti", .str "grant"),
      ("terminal_id", .str "terminal"), ("request_id", .str "history:2")]) ++
    answer 0 (.flag true) ++ [.resume 0, scrollbackReply]

def splicedReply : Frame :=
  [("type", .str "remote_terminal_buffer"), ("grant_jti", .str "grant"),
    ("terminal_id", .str "terminal"), ("data", .str "old"), ("start_offset", .null),
    ("ring_start_offset", .null), ("total_bytes_produced", .null)]

theorem late_reply_spliced :
    ¬ ∀ (rt : Runtime) (deviceId : String) (events : List SocketEvent) (event : SocketEvent),
      AnswersRequests rt (scrollbacks rt (connected deviceId) (events ++ [event]))
        (afterEvents rt deviceId events) event := by
  intro h
  have hissued : (machine plainRuntime).issued
      (afterEvents plainRuntime plainSource scrolledLate) (.resume 1) =
        some (1, .sendToSource splicedReply) := by decide +kernel
  obtain ⟨target, frame, hheard, hanswers⟩ :=
    h plainRuntime plainSource scrolledLate (.resume 1) 1 splicedReply hissued rfl
  have hrid : frame.get "request_id" = .str (plainRuntime.uuid4hex 1) := by
    have hfound : (((machine plainRuntime).step
        (afterEvents plainRuntime plainSource scrolledLate) (.resume 1)).state.history.hearing
          1).map (fun heard => heard.2.get "request_id") =
        some (.str (plainRuntime.uuid4hex 1)) := by decide +kernel
    rw [hheard] at hfound
    exact Option.some.inj hfound
  obtain ⟨entry, hentry, hcarries⟩ := hanswers _ hrid (by decide +kernel)
  have hnamed : ∀ request ∈ scrollbacks plainRuntime (connected plainSource)
      (scrolledLate ++ [.resume 1]), request.2.requestId ≠ none := by decide +kernel
  have hnone : optional entry.requestId = .null := hcarries.symm
  cases hid : entry.requestId with
  | none => exact hnamed _ hentry hid
  | some id =>
      rw [hid] at hnone
      cases hnone

end Qontinui.Relay
