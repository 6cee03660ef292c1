import Qontinui.Relay.Panes

/-!
A target's refusal speaks with the target's voice. Its code is one the target may
present as it is or is set apart by the prefix, and the grant and the request the
payload names belong to the one attachment the frame was resolved to.
-/

namespace Qontinui.Relay

/-! ### Codes -/

/-- A code by which no target passes for the relay: the one relay code that a target may
present too is that of a lapsed grant. -/
structure TargetsOwn (code : String) : Prop where
  spoken : code ∈ targetErrorCodes ∨ targetCodePrefix.toList <+: code.toList
  relay : code ∈ relayErrorCodes → code = codeGrantExpired
  short : code.length ≤ targetCodePrefix.length + targetCodeMax ∨ code ∈ targetErrorCodes

theorem relay_not_prefixed : ∀ code ∈ relayErrorCodes,
    ¬ targetCodePrefix.toList <+: code.toList := by decide

theorem allowed_relay : ∀ code ∈ targetErrorCodes, code ∈ relayErrorCodes →
    code = codeGrantExpired := by decide

theorem targetsOwn_allowed {code : String} (h : code ∈ targetErrorCodes) : TargetsOwn code :=
  ⟨.inl h, allowed_relay code h, .inr h⟩

theorem targetsOwn_prefixed {slug : String} (h : slug.length ≤ targetCodeMax) :
    TargetsOwn (targetCodePrefix ++ slug) := by
  have hprefixed : targetCodePrefix.toList <+: (targetCodePrefix ++ slug).toList := by
    simp [String.toList_append]
  refine ⟨.inr hprefixed, fun hrelay => (relay_not_prefixed _ hrelay hprefixed).elim, .inl ?_⟩
  simpa [String.length_append] using h

theorem namespaceTargetCode_targetsOwn (u : PyUnicode) (raw : Json) :
    TargetsOwn (namespaceTargetCode u raw) := by
  have hfallback : TargetsOwn targetCodeFallback := targetsOwn_prefixed (by decide)
  unfold namespaceTargetCode
  split
  · dsimp only
    split
    · next hallowed => exact targetsOwn_allowed hallowed
    · split
      · exact hfallback
      · split
        · exact hfallback
        · apply targetsOwn_prefixed
          rw [String.length_ofList, List.length_take]
          exact Nat.min_le_left _ _
  · exact hfallback

/-! ### What a refusal is resolved to -/

/-- The end in flight that a wire id answers, for a target. -/
def Socket.endFor (s : Socket) (wire : Json) (target : String) : Option PendingEnd :=
  (textOf? wire).bind fun rid =>
    (s.pendingEnd.lookup rid).filter fun entry => entry.targetDeviceId = target

/-- What a wire id stands for in one of the tables, for a target: a request, and its
attachment unless that is gone. -/
def Socket.standsFor (s : Socket) (wire : Json) (target : String) (table : Table) :
    Option (Pending × Option Attachment) :=
  (textOf? wire).bind fun rid =>
    ((s.pending table).lookup rid).bind fun entry =>
      match s.grants.lookup entry.grantJti with
      | none => some (entry, none)
      | some att => if att.targetDeviceId = target then some (entry, some att) else none

/-- The attachment that a marked frame names, by its grant or else by its terminal. -/
def Socket.markedBy (s : Socket) (target : String) (frame : Frame) : Option Attachment :=
  if isRemoteMarked frame then
    match grantHint frame with
    | .null =>
        (s.byTerminal target (frame.get "terminal_id")).filter fun att => !att.expired s.now
    | .str jti => (s.grants.lookup jti).filter (·.targetDeviceId == target)
    | _ => none
  else none

inductive Resolution where
  | ending (entry : PendingEnd)
  | request (att : Attachment) (entry : Pending)
  | marked (att : Attachment)
  | markedEnding (att : Attachment) (entry : PendingEnd)

namespace Resolution

def grantJti : Resolution → String
  | ending entry => entry.grantJti
  | request att _ | marked att | markedEnding att _ => att.grantJti

def requestId : Resolution → Option String
  | ending entry | markedEnding _ entry => entry.sourceRequestId
  | request _ entry => entry.requestId
  | marked _ => none

/-- The request is one of the attachment, and the attachment one of the socket. -/
def Own (s : Socket) : Resolution → Prop
  | ending entry => ∃ rid, (rid, entry) ∈ s.pendingEnd
  | request att entry => (att.grantJti, att) ∈ s.grants ∧ entry.grantJti = att.grantJti
  | marked att => (att.grantJti, att) ∈ s.grants
  | markedEnding att entry =>
      (att.grantJti, att) ∈ s.grants ∧ entry.grantJti = att.grantJti ∧
        ∃ rid, (rid, entry) ∈ s.pendingEnd

end Resolution

/-- The routes, in their order: an end in flight, a request in flight, the mark. A request
whose attachment is gone resolves nothing, and its id is not carried on. -/
inductive Resolves (s : Socket) (target : String) (frame : Frame) : Resolution → Prop where
  | ending {entry} (hend : s.endFor (frame.get "request_id") target = some entry) :
      Resolves s target frame (.ending entry)
  | request {att entry} (hend : s.endFor (frame.get "request_id") target = none)
      (hrequest : [Table.attach, .create, .buffer].findSome?
        (s.standsFor (frame.get "request_id") target) = some (entry, some att)) :
      Resolves s target frame (.request att entry)
  | marked {att} (hend : s.endFor (frame.get "request_id") target = none)
      (hrequest : ∀ entry att', [Table.attach, .create, .buffer].findSome?
        (s.standsFor (frame.get "request_id") target) ≠ some (entry, some att'))
      (hmarked : s.markedBy target frame = some att) :
      Resolves s target frame (.marked att)
  | markedEnding {att entry rid} (hend : s.endFor (frame.get "request_id") target = none)
      (hrequest : ∀ entry att', [Table.attach, .create, .buffer].findSome?
        (s.standsFor (frame.get "request_id") target) ≠ some (entry, some att'))
      (hmarked : s.markedBy target frame = some att) (honly : att.endOnly = true)
      (hentry : (rid, entry) ∈ s.pendingEnd) (hjti : entry.grantJti = att.grantJti) :
      Resolves s target frame (.markedEnding att entry)

/-- The payload speaks for what its frame was resolved to, with the target's voice. -/
structure SpeaksFor (r : Resolution) (payload : Frame) : Prop where
  code : ∃ code, payload.get "code" = .str code ∧ TargetsOwn code
  grantJti : payload.get "grant_jti" = .str r.grantJti
  requestId : payload.get "request_id" = optional r.requestId

variable {frame : Frame} {rid target : String}

theorem lookup_remedy {key other : String} (h : other ≠ key) :
    (remedy frame key).lookup other = none := by
  unfold remedy
  split
  · dsimp only
    split
    · rfl
    · rw [List.lookup_cons, beq_eq_false_iff_ne.mpr h]
      rfl
  · rfl

theorem targetErrorPayload_speaksFor {rt : Runtime} (frame : Frame) (r : Resolution)
    (terminalId : Json) :
    SpeaksFor r (targetErrorPayload rt frame r.grantJti r.requestId terminalId) where
  code := ⟨namespaceTargetCode rt.unicode (frame.get "code"),
    by simp [targetErrorPayload, Frame.get, Fields.lookup_cons],
    namespaceTargetCode_targetsOwn _ _⟩
  grantJti := by simp [targetErrorPayload, Frame.get, Fields.lookup_cons]
  requestId := by
    have hterminal : (ifText "terminal_id" terminalId).lookup "request_id" = none := by
      cases terminalId <;> simp [ifText, Fields.lookup_cons]
    cases r.requestId with
    | none =>
        simp [targetErrorPayload, Frame.get, Fields.lookup_cons, List.lookup_append, ifPresent,
          optional, hterminal, lookup_remedy]
    | some id => simp [targetErrorPayload, Frame.get, Fields.lookup_cons, ifPresent, optional]

/-! ### What the programs say -/

variable {rt : Runtime} {P : Frame → Prop} {task : Nat} {s : Socket} {α : Type}

/-- An ask that hands the source only what `P` permits. -/
def Ask.Speaks (P : Frame → Prop) (a : Ask) : Prop :=
  ∀ payload, a = .sendToSource payload → P payload

variable (rt P task) in
/-- Started in this state, the program hands the source only what `P` permits, whatever the
other tasks do while it waits; it ends, if at all, in the given way. -/
abbrev Telling (post : Except Stop α → Socket → Prop) (p : Async α) (s : Socket) : Prop :=
  wp (machine rt) (asking (Ask.Speaks P)) task post p s

variable (rt P task) in
/-- `Telling` with nothing said of the end. -/
abbrev Says (p : Async α) (s : Socket) : Prop := Telling rt P task (fun _ _ => True) p s

def Op.registersScrollback : Op → Bool
  | .putPending .buffer _ _ => true
  | _ => false

/-- The ask neither hands the source something nor hears a target. -/
def Ask.silent : Ask → Bool
  | .sendToSource _ | .nextMessage _ => false
  | _ => true

abbrev Meek (okAsk : Ask → Prop) (p : Async α) : Prop :=
  p.Within (fun op => op.registersScrollback = false) okAsk

/-- A program that moreover hands the source nothing and hears nothing. -/
abbrev Silent (p : Async α) : Prop := Meek (fun a => a.silent = true) p

theorem Silent.saying {p : Async α} (hp : Silent p) : Says rt P task p s := by
  apply wp_asking_of_within hp
  rintro a hsilent payload rfl
  cases hsilent

/-- What a refusal is resolved by: the same but for the order of what is in flight. -/
structure Unmoved (s s' : Socket) : Prop where
  grants : s'.grants = s.grants
  marks : s'.marks = s.marks
  now : s'.now = s.now
  ends : ∀ entry, entry ∈ s'.pendingEnd ↔ entry ∈ s.pendingEnd
  keys : (s.pendingEnd.map Prod.fst).Nodup → (s'.pendingEnd.map Prod.fst).Nodup

theorem Unmoved.refl (s : Socket) : Unmoved s s := ⟨rfl, rfl, rfl, fun _ => Iff.rfl, id⟩

theorem Unmoved.trans {s s' s'' : Socket} (h : Unmoved s s') (h' : Unmoved s' s'') :
    Unmoved s s'' :=
  ⟨h'.grants.trans h.grants, h'.marks.trans h.marks, h'.now.trans h.now,
    fun entry => (h'.ends entry).trans (h.ends entry), fun hs => h'.keys (h.keys hs)⟩

theorem Unmoved.markedBy {s' : Socket} (h : Unmoved s s') (target : String) (frame : Frame) :
    s'.markedBy target frame = s.markedBy target frame := by
  simp only [Socket.markedBy, Socket.byTerminal, h.grants, h.marks, h.now]

variable {β : Type} {wire : Json} {att : Attachment}

theorem telling_act {post : Except Stop β → Socket → Prop} {op : Op} {give : Nat → Socket → α}
    {f : α → Async β} (hf : Telling rt P task post (f (give task s)) (Socket.apply task op s)) :
    Telling rt P task post ((Coro.act op fun task s => pure (give task s) : Async α) >>= f) s :=
  ⟨trivial, fun _ => hf⟩

theorem popEnd_telling {post : Except Stop β → Socket → Prop} {entry : PendingEnd}
    {f : Option PendingEnd → Async β} (hlookup : s.pendingEnd.lookup rid = some entry)
    (hf : Telling rt P task post (f (some entry)) (Socket.apply task (.popEnd rid) s)) :
    Telling rt P task post (popEnd rid >>= f) s := by
  apply telling_act
  rw [hlookup]
  exact hf

theorem cancelEndTimer_telling {post : Except Stop Unit → Socket → Prop}
    (hpost : ∀ s', post (.ok ()) s') : Telling rt P task post (cancelEndTimer rid) s := by
  apply telling_act
  split
  · exact hpost _
  · apply telling_act
    split
    · exact hpost _
    · exact ⟨trivial, fun _ => hpost _⟩

theorem mem_set_erase {entry : β} {fields : List (String × β)}
    (hnodup : (fields.map Prod.fst).Nodup) (hentry : fields.lookup rid = some entry)
    (field : String × β) :
    field ∈ Fields.set rid entry (Fields.erase rid fields) ↔ field ∈ fields := by
  rw [Fields.set_of_absent (Fields.lookup_erase_self rid fields), List.mem_append,
    List.mem_singleton, Fields.mem_erase]
  constructor
  · rintro (⟨hmem, -⟩ | rfl)
    · exact hmem
    · exact Fields.mem_of_lookup hentry
  · intro hmem
    by_cases hrid : field.1 = rid
    · refine .inr (Prod.ext hrid ?_)
      have hfield : fields.lookup rid = some field.2 :=
        (Fields.lookup_eq_some_iff hnodup).mpr (hrid ▸ hmem)
      exact Option.some.inj (hfield.symm.trans hentry)
    · exact .inl ⟨hmem, hrid⟩

theorem popPendingEnd_telling {post : Except Stop (Option PendingEnd) → Socket → Prop}
    (hnodup : (s.pendingEnd.map Prod.fst).Nodup)
    (hsome : ∀ entry, s.endFor wire target = some entry → ∀ s', post (.ok (some entry)) s')
    (hnone : s.endFor wire target = none → ∀ s', Unmoved s s' → s'.pending = s.pending →
      post (.ok none) s') : Telling rt P task post (popPendingEnd wire target) s := by
  cases wire with
  | str rid =>
      apply telling_act
      split
      · next hlookup =>
          have hnone' : s.endFor (.str rid) target = none := by
            simp [Socket.endFor, textOf?, hlookup]
          refine hnone hnone' _ ⟨rfl, rfl, rfl, fun entry => ?_, fun h => ?_⟩ rfl
          · simp [Socket.apply, Fields.erase_of_lookup hlookup]
          · exact Fields.nodup_erase _ h
      · next entry hlookup =>
          split
          · next hne =>
              have hnone' : s.endFor (.str rid) target = none := by
                simp [Socket.endFor, textOf?, hlookup, hne]
              apply telling_act
              refine hnone hnone' _ ⟨rfl, rfl, rfl, ?_, fun h => ?_⟩ rfl
              · exact mem_set_erase hnodup hlookup
              · exact Fields.nodup_set _ _ (Fields.nodup_erase _ h)
          · next heq =>
              have hsome' : s.endFor (.str rid) target = some entry := by
                simp [Socket.endFor, textOf?, hlookup, not_not.mp heq]
              apply wp_bind.mpr
              exact cancelEndTimer_telling fun s' => hsome entry hsome' s'
  | _ => exact hnone rfl s (Unmoved.refl s) rfl

theorem popCorrelated_telling {post : Except Stop Correlated → Socket → Prop} {table : Table}
    (hnotOurs : s.standsFor wire target table = none → ∀ s', Unmoved s s' →
      (∀ other, other ≠ table → s'.pending other = s.pending other) → post (.ok .notOurs) s')
    (horphan : ∀ entry, s.standsFor wire target table = some (entry, none) →
      ∀ s', Unmoved s s' → post (.ok (.orphan entry)) s')
    (hanswer : ∀ entry att, s.standsFor wire target table = some (entry, some att) →
      ∀ s', Unmoved s s' → post (.ok (.answer entry att)) s') :
    Telling rt P task post (popCorrelated table wire target) s := by
  cases wire with
  | str rid =>
      have hunmoved (s : Socket) (f : List (String × Pending) → List (String × Pending)) :
          Unmoved s (s.onTable table f) := ⟨rfl, rfl, rfl, fun _ => Iff.rfl, id⟩
      apply telling_act
      split
      · next hlookup =>
          apply hnotOurs
          · simp [Socket.standsFor, textOf?, hlookup]
          · exact hunmoved s _
          · intro other hne
            exact Function.update_of_ne hne _ _
      · next entry hlookup =>
          apply telling_act
          split
          · next hgrant =>
              have hgrant : s.grants.lookup entry.grantJti = none := hgrant
              apply horphan entry
              · simp [Socket.standsFor, textOf?, hlookup, hgrant]
              · exact hunmoved s _
          · next att hgrant =>
              have hgrant : s.grants.lookup entry.grantJti = some att := hgrant
              split
              · next hne =>
                  apply telling_act
                  apply hnotOurs
                  · simp [Socket.standsFor, textOf?, hlookup, hgrant, hne]
                  · exact ⟨rfl, rfl, rfl, fun _ => Iff.rfl, id⟩
                  · intro other hother
                    exact (Function.update_of_ne hother _ _).trans
                      (Function.update_of_ne hother _ _)
              · next heq =>
                  apply hanswer entry att
                  · simp [Socket.standsFor, textOf?, hlookup, hgrant, not_not.mp heq]
                  · exact hunmoved s _
  | _ => exact hnotOurs rfl s (Unmoved.refl s) fun _ _ => rfl

section Meek

variable {okAsk : Ask → Prop} {β : Type}

theorem meek_act {op : Op} {give : Nat → Socket → α} {f : α → Async β}
    (hop : op.registersScrollback = false) (hf : ∀ a, Meek okAsk (f a)) :
    Meek okAsk ((Coro.act op fun task s => pure (give task s) : Async α) >>= f) :=
  ⟨hop, fun _ _ => hf _⟩

theorem meek_perform {op : Op} (hop : op.registersScrollback = false) :
    Meek okAsk (perform op) :=
  ⟨hop, fun _ _ => trivial⟩

theorem meek_awaitUnit {a : Ask} (ha : okAsk a) : Meek okAsk (awaitUnit a) := by
  refine ⟨ha, ?_⟩
  rintro (stop | reply)
  · trivial
  · trivial

theorem meek_awaitFlag {a : Ask} (ha : okAsk a) : Meek okAsk (awaitFlag a) := by
  refine ⟨ha, ?_⟩
  rintro (stop | reply)
  · trivial
  · cases reply <;> trivial

end Meek

theorem silent_awaitUnit {a : Ask} (ha : a.silent = true) : Silent (awaitUnit a) :=
  meek_awaitUnit ha

theorem silent_awaitFlag {a : Ask} (ha : a.silent = true) : Silent (awaitFlag a) :=
  meek_awaitFlag ha

theorem silent_cancelEndTimer (rid : String) : Silent (cancelEndTimer rid) := by
  apply meek_act rfl
  rintro (- | timer)
  · trivial
  · apply meek_act rfl
    intro self
    split
    · trivial
    · exact meek_perform rfl

theorem silent_closePubsub (target : String) : Silent (closePubsub target) := by
  have hclose : Silent (Coro.rescue (awaitUnit (.closePubsub target)) (pure ())) :=
    (silent_awaitUnit rfl).rescue trivial
  exact hclose.bind fun _ => hclose

theorem silent_unsubscribeRunner (target : String) : Silent (unsubscribeRunner target) := by
  apply meek_act rfl
  intro s
  split
  · apply (meek_perform rfl).bind
    intro _
    apply Coro.Within.rescue
    · exact (silent_awaitFlag rfl).bind fun _ => trivial
    · trivial
  · trivial

theorem silent_finishListener (target : String) (listener : Nat) :
    Silent (finishListener target listener) := by
  apply (meek_perform rfl).bind
  intro _
  have hgather : Silent (gather listener) := by
    apply (silent_awaitUnit rfl).attempt.bind
    rintro ((- | -) | a)
    · trivial
    · exact (meek_perform rfl).bind fun _ => trivial
    · trivial
  apply hgather.bind
  intro _
  exact (silent_closePubsub target).bind fun _ => silent_unsubscribeRunner target

theorem silent_stopListener (target : String) : Silent (stopListener target) := by
  apply meek_act rfl
  rintro (- | listener)
  · trivial
  · apply meek_act rfl
    intro self
    split
    · exact meek_act rfl fun _ => trivial
    · exact silent_finishListener target listener

theorem silent_maybeStopListener (target : String) : Silent (maybeStopListener target) := by
  apply meek_act rfl
  intro s
  split
  · trivial
  · split
    · trivial
    · exact silent_stopListener target

theorem silent_dropAttachment (att : Attachment) : Silent (dropAttachment att) := by
  have hrelease : Silent (do
      let release ← spawn (.releaseRegistry att)
      Coro.rescue (awaitUnit (.shield release)) (pure ())
      maybeStopListener att.targetDeviceId) := by
    apply meek_act rfl
    intro release
    apply Coro.Within.bind
    · exact (silent_awaitUnit rfl).rescue trivial
    · exact fun _ => silent_maybeStopListener _
  apply (meek_perform rfl).bind
  intro _
  dsimp only
  split
  · apply meek_act rfl
    intro s
    apply (Coro.Within.forEach _).bind
    · exact fun _ => hrelease
    · exact fun rid _ => meek_act rfl fun _ => silent_cancelEndTimer rid
  · exact hrelease

theorem silent_releaseEndOnly (entry : PendingEnd) : Silent (releaseEndOnly entry) := by
  apply meek_act rfl
  intro s
  split
  · exact silent_dropAttachment _
  · exact silent_maybeStopListener _

theorem findSome?_eq_of_forall {γ : Type} {f g : β → Option γ} {xs : List β}
    (h : ∀ x ∈ xs, f x = g x) : xs.findSome? f = xs.findSome? g := by
  induction xs with
  | nil => rfl
  | cons x xs ih =>
      rw [List.findSome?_cons, List.findSome?_cons, h x List.mem_cons_self,
        ih fun y hy => h y (List.mem_cons_of_mem _ hy)]

/-- The tables are tried in turn; each leaves the others as they are. -/
theorem popFirst_telling {post : Except Stop (Option (Table × Correlated)) → Socket → Prop}
    {tables : List Table} (hdistinct : tables.Nodup)
    (hnone : tables.findSome? (s.standsFor wire target) = none → ∀ s', Unmoved s s' →
      post (.ok none) s') (horphan : ∀ table entry,
      tables.findSome? (s.standsFor wire target) = some (entry, none) → ∀ s', Unmoved s s' →
        post (.ok (some (table, .orphan entry))) s') (hanswer : ∀ table entry att,
      tables.findSome? (s.standsFor wire target) = some (entry, some att) → ∀ s', Unmoved s s' →
        post (.ok (some (table, .answer entry att))) s') :
    Telling rt P task post (popFirst wire target tables) s := by
  induction tables generalizing s with
  | nil => exact hnone rfl s (Unmoved.refl s)
  | cons table rest ih =>
      obtain ⟨hnotin, hrest⟩ := List.nodup_cons.mp hdistinct
      apply wp_bind.mpr
      apply popCorrelated_telling
      · intro hstands s' hs' hothers
        have hlater : rest.findSome? (s'.standsFor wire target) =
            (table :: rest).findSome? (s.standsFor wire target) := by
          rw [List.findSome?_cons, hstands]
          have hsame : ∀ other ∈ rest,
              s'.standsFor wire target other = s.standsFor wire target other := by
            intro other hother
            have hne : other ≠ table := fun heq => hnotin (heq ▸ hother)
            simp only [Socket.standsFor, hothers other hne, hs'.grants]
          exact findSome?_eq_of_forall hsame
        apply ih hrest
        · exact fun h s'' hs'' => hnone (hlater ▸ h) s'' (hs'.trans hs'')
        · exact fun t entry h s'' hs'' => horphan t entry (hlater ▸ h) s'' (hs'.trans hs'')
        · exact fun t entry att h s'' hs'' => hanswer t entry att (hlater ▸ h) s'' (hs'.trans hs'')
      · intro entry hstands s' hs'
        exact horphan table entry (by rw [List.findSome?_cons, hstands]) s' hs'
      · intro entry att hstands s' hs'
        exact hanswer table entry att (by rw [List.findSome?_cons, hstands]) s' hs'

/-- The search for an attachment waits only where none is found. -/
theorem attachmentByRemoteMark_telling {post : Except Stop (Option Attachment) → Socket → Prop}
    (hmark : isRemoteMarked frame = true)
    (hsome : ∀ att, s.markedBy target frame = some att → post (.ok (some att)) s)
    (hnone : ∀ s', post (.ok none) s') (herror : ∀ stop s', post (.error stop) s') :
    Telling rt P task post (attachmentByRemoteMark target frame) s := by
  unfold attachmentByRemoteMark
  split
  · next hhint =>
      apply telling_act
      split
      · exact hnone _
      · next att hheld =>
          have hheld : s.byTerminal target (frame.get "terminal_id") = some att := hheld
          split
          · apply wp_bind.mpr
            apply wp_mono _ (silent_dropAttachment att).saying
            rintro (stop | u) s' -
            · exact herror stop s'
            · exact hnone s'
          · next hlive =>
              apply hsome att
              simpa [Socket.markedBy, hmark, hhint, hheld] using hlive
  · next jti hhint =>
      apply telling_act
      show post (.ok ((s.grants.lookup jti).filter (·.targetDeviceId == target))) s
      have hmarked : s.markedBy target frame =
          (s.grants.lookup jti).filter (·.targetDeviceId == target) := by
        simp [Socket.markedBy, hmark, hhint]
      rw [← hmarked]
      cases hfound : s.markedBy target frame with
      | none => exact hnone s
      | some att => exact hsome att hfound
  · exact hnone s

theorem sendToSource_telling {post : Except Stop Unit → Socket → Prop} {payload : Frame}
    (hpayload : P payload) (hpost : ∀ result s', post result s') :
    Telling rt P task post (sendToSource payload) s := by
  refine ⟨fun payload' heq => ?_, trivial, ?_⟩
  · cases heq
    exact hpayload
  · rintro s' (stop | reply) - - -
    · exact hpost (.error stop) s'
    · exact hpost (.ok ()) s'

theorem handRefusal_says {requestId : Option String} {failedAttach : Bool}
    (hpayload : ∀ terminalId, P (targetErrorPayload rt frame att.grantJti requestId terminalId)) :
    Says rt P task (handRefusal rt att frame requestId failedAttach) s := by
  apply telling_act
  apply wp_bind.mpr
  apply sendToSource_telling (hpayload _)
  rintro (stop | u) s'
  · trivial
  · show Says rt P task _ s'
    split
    · apply Silent.saying
      exact Coro.Within.bind (silent_dropAttachment att) fun _ => trivial
    · trivial

theorem routeEndError_says {entry : PendingEnd} (hpayload : ∀ terminalId,
      P (targetErrorPayload rt frame entry.grantJti entry.sourceRequestId terminalId)) :
    Says rt P task (routeEndError rt entry frame) s := by
  apply wp_bind.mpr
  apply wp_bind.mpr
  apply wp_attempt.mpr
  apply sendToSource_telling (hpayload _)
  intro result s'
  have hrelease : Silent (releaseEndOnly entry >>= fun _ => Coro.done result) :=
    (silent_releaseEndOnly entry).bind fun _ => trivial
  apply wp_mono _ hrelease.saying
  rintro (stop | u) s'' -
  · trivial
  · trivial

def Spoken (s : Socket) (target : String) (frame payload : Frame) : Prop :=
  ∃ r, Resolves s target frame r ∧ r.Own s ∧ SpeaksFor r payload

/-- The grants are filed under their own ids, and no key of the ends is there twice. -/
structure Filed (s : Socket) : Prop where
  grants : ∀ entry ∈ s.grants, entry.1 = entry.2.grantJti
  ends : (s.pendingEnd.map Prod.fst).Nodup

theorem Filed.held {s : Socket} (h : Filed s) {jti : String}
    (hheld : s.grants.lookup jti = some att) :
    (att.grantJti, att) ∈ s.grants ∧ jti = att.grantJti := by
  have hmem := Fields.mem_of_lookup hheld
  have hjti : jti = att.grantJti := h.grants _ hmem
  exact ⟨hjti ▸ hmem, hjti⟩

theorem Filed.markedBy {s : Socket} (h : Filed s) {target : String} {frame : Frame}
    {att : Attachment} (hmarked : s.markedBy target frame = some att) :
    (att.grantJti, att) ∈ s.grants := by
  unfold Socket.markedBy at hmarked
  split at hmarked
  · split at hmarked
    · have hbound := (Option.filter_eq_some_iff.mp hmarked).1
      unfold Socket.byTerminal at hbound
      split at hbound
      · obtain ⟨entry, hfound, rfl⟩ := Option.map_eq_some_iff.mp hbound
        have hmem := List.mem_of_find?_eq_some hfound
        exact h.grants entry hmem ▸ hmem
      · cases hbound
    · exact (h.held (Option.filter_eq_some_iff.mp hmarked).1).1
    · cases hmarked
  · cases hmarked

theorem Filed.request {s : Socket} (h : Filed s) {tables : List Table} {entry : Pending}
    (hstands : tables.findSome? (s.standsFor wire target) = some (entry, some att)) :
    (att.grantJti, att) ∈ s.grants ∧ entry.grantJti = att.grantJti := by
  obtain ⟨table, -, hstands⟩ := List.exists_of_findSome?_eq_some hstands
  obtain ⟨rid, -, hstands⟩ := Option.bind_eq_some_iff.mp hstands
  obtain ⟨entry', -, hstands⟩ := Option.bind_eq_some_iff.mp hstands
  split at hstands
  · cases hstands
  · next att' hheld =>
      split at hstands
      · cases hstands
        exact h.held hheld
      · cases hstands

theorem mem_endsOf {jti : String} {s : Socket} :
    rid ∈ endsOf jti s ↔ ∃ entry, (rid, entry) ∈ s.pendingEnd ∧ entry.grantJti = jti := by
  simp [endsOf]

theorem routeMarkedError_says {s s' : Socket} (hfiled : Filed s) (hs' : Unmoved s s')
    (hend : s.endFor (frame.get "request_id") target = none)
    (hrequest : ∀ entry att, [Table.attach, .create, .buffer].findSome?
      (s.standsFor (frame.get "request_id") target) ≠ some (entry, some att)) :
    Says rt (Spoken s target frame) task (routeMarkedError rt target frame) s' := by
  unfold routeMarkedError
  split
  · next hmark =>
      apply wp_bind.mpr
      apply attachmentByRemoteMark_telling hmark
      · intro att hmarked
        rw [hs'.markedBy] at hmarked
        have hheld := hfiled.markedBy hmarked
        apply telling_act
        split
        · next rid hhead =>
            split at hhead
            · next honly =>
                obtain ⟨entry, hentry, hjti⟩ := mem_endsOf.mp (List.mem_of_head? hhead)
                have hentry : (rid, entry) ∈ s'.pendingEnd := hentry
                have hlookup : s'.pendingEnd.lookup rid = some entry :=
                  (Fields.lookup_eq_some_iff (hs'.keys hfiled.ends)).mpr hentry
                have hin := (hs'.ends _).mp hentry
                apply popEnd_telling hlookup
                apply wp_bind.mpr
                apply cancelEndTimer_telling
                intro s''
                apply routeEndError_says
                intro terminalId
                exact ⟨.markedEnding att entry, .markedEnding hend hrequest hmarked honly hin hjti,
                  ⟨hheld, hjti, rid, hin⟩,
                  hjti ▸ targetErrorPayload_speaksFor frame (.markedEnding att entry) terminalId⟩
            · cases hhead
        · apply handRefusal_says
          intro terminalId
          exact ⟨.marked att, .marked hend hrequest hmarked, hheld,
            targetErrorPayload_speaksFor frame (.marked att) terminalId⟩
      · exact fun _ => trivial
      · exact fun _ _ => trivial
  · trivial

/-- Whatever the others do meanwhile, a refusal is told to the source with the target's
voice, for the attachment it was resolved to. -/
theorem routeTargetError_says {s : Socket} (hfiled : Filed s) (target : String) (frame : Frame) :
    Says rt (Spoken s target frame) task (routeTargetError rt target frame) s := by
  apply wp_bind.mpr
  apply popPendingEnd_telling hfiled.ends
  · intro entry hend s'
    apply routeEndError_says
    intro terminalId
    obtain ⟨rid, -, hfound⟩ := Option.bind_eq_some_iff.mp hend
    have hin := Fields.mem_of_lookup (Option.filter_eq_some_iff.mp hfound).1
    exact ⟨.ending entry, .ending hend, ⟨rid, hin⟩,
      targetErrorPayload_speaksFor frame (.ending entry) terminalId⟩
  · intro hend s' hs' hpending
    have hsame : ∀ table, s'.standsFor (frame.get "request_id") target table =
        s.standsFor (frame.get "request_id") target table := by
      intro table
      simp only [Socket.standsFor, hpending, hs'.grants]
    have htables : [Table.attach, .create, .buffer].findSome?
        (s'.standsFor (frame.get "request_id") target) = [Table.attach, .create, .buffer].findSome?
          (s.standsFor (frame.get "request_id") target) :=
      findSome?_eq_of_forall fun table _ => hsame table
    apply wp_bind.mpr
    apply popFirst_telling (by decide)
    · intro hnone s'' hs''
      apply routeMarkedError_says hfiled (hs'.trans hs'') hend
      intro entry att hsome
      rw [← htables, hnone] at hsome
      cases hsome
    · intro table entry horphan s'' hs''
      apply routeMarkedError_says hfiled (hs'.trans hs'') hend
      intro entry' att hsome
      rw [← htables, horphan] at hsome
      cases hsome
    · intro table entry att hanswer s'' hs''
      have hrequest := htables ▸ hanswer
      obtain ⟨hheld, hjti⟩ := hfiled.request hrequest
      apply telling_act
      split
      · exact ⟨trivial, fun _ => ⟨trivial, fun _ => trivial⟩⟩
      · apply handRefusal_says
        intro terminalId
        exact ⟨.request att entry, .request hend hrequest, ⟨hheld, hjti⟩,
          targetErrorPayload_speaksFor frame (.request att entry) terminalId⟩

/-! ### In every run -/

theorem ends_kept : (machine rt).Keeps fun s => (s.pendingEnd.map Prod.fst).Nodup where
  apply task op s hs := by
    cases op with
    | putEnd rid entry => exact Fields.nodup_set rid entry hs
    | popEnd rid => exact Fields.nodup_erase rid hs
    | _ => exact hs
  uncancel _ _ hs := hs
  finish _ _ hs := hs
  served task a reply s hs := by
    simp only [machine, served]
    split <;> exact hs
  outside _ _ hs := hs

theorem filed_of_passes {deviceId : String} {events : List SocketEvent} {event : SocketEvent}
    (hs : s ∈ (machine rt).passes (afterEvents rt deviceId events) event) : Filed s where
  grants entry hentry := by
    have hinv : Orderly rt False s := inv_of_passes orderly_sound relay_checked
      (afterEvents_inOrder events) (stepMay_of_careless _ event) s hs
    exact (hinv.grants entry hentry).1
  ends := by
    have hkept := Runs.invariant_of_step (machine rt).step
      (fun c => (c.state.pendingEnd.map Prod.fst).Nodup)
      (fun c event hc => ends_kept.step c event hc) (connected deviceId) events List.nodup_nil
    exact ends_kept.passes hkept s hs

/-- In every run of a socket, at whatever moment a target's refusal is routed: the payloads
handed to the source, whatever the others do meanwhile, carry a code of the target's own, and
the grant and the request of the one attachment the refusal was resolved to. -/
theorem refusal_keeps_voice {deviceId : String} {events : List SocketEvent} {event : SocketEvent}
    (hs : s ∈ (machine rt).passes (afterEvents rt deviceId events) event) (task : Nat)
    (target : String) (frame : Frame) :
    Says rt (fun payload => ∃ r, Resolves s target frame r ∧ r.Own s ∧ SpeaksFor r payload) task
      (routeTargetError rt target frame) s :=
  routeTargetError_says (filed_of_passes hs) target frame

def forgedRefusal : Frame :=
  [("type", .str "error"), ("remote", .obj [("grant_jti", .str "grant")]),
    ("request_id", .str "guessed"), ("code", .str " Not-Registered! ")]

theorem forgedRefusal_keeps_voice :
    Says plainRuntime (fun payload => ∃ r,
        Resolves (afterEvents plainRuntime plainSource typing).state plainTarget forgedRefusal r ∧
          r.Own (afterEvents plainRuntime plainSource typing).state ∧ SpeaksFor r payload) 1
      (routeTargetError plainRuntime plainTarget forgedRefusal)
      (afterEvents plainRuntime plainSource typing).state ∧
    (machine plainRuntime).issued
        (afterEvents plainRuntime plainSource (typing ++ [.serve 1 (.ok (.frame forgedRefusal))]))
        (.resume 1) =
      some (1, .sendToSource
        [("type", .str "remote_terminal_error"), ("grant_jti", .str "grant"),
          ("code", .str "target_said_not_registered"),
          ("message", .str "target refused the remote frame"),
          ("terminal_id", .str "terminal")]) :=
  ⟨refusal_keeps_voice
      (show _ ∈ (machine plainRuntime).passes (afterEvents plainRuntime plainSource typing)
        (.outside ⟨0, 0⟩) from List.mem_singleton_self _) 1 plainTarget forgedRefusal,
    by decide +kernel⟩

end Qontinui.Relay
