import Qontinui.Base.RelyGuarantee
import Qontinui.Relay.Loops

/-!
What every task of a source socket may rely on: where each attachment comes from,
what is known of the terminal it is bound to, and what a dropped one is no longer.
The programs are checked against this in `Qontinui.Relay.OrderlyPrograms`.
-/

namespace Qontinui.Relay

/-! ### What the history vouches for -/

def Kind.subType : Kind → String
  | .attach => attachGrantSubType
  | .create => createGrantSubType

def NamesTarget (claims : Frame) (att : Attachment) : Prop :=
  match att.kind with
  | .attach => ∃ target, attachClaims claims = .ok target ∧
      att.targetDeviceId = target.targetDeviceId ∧
      att.targetSessionId = some target.targetSessionId
  | .create => createTargetDeviceId claims = some att.targetDeviceId

/-- What the claims of an accepted token say of an attachment on a device's socket. -/
structure Vouches (deviceId : String) (claims : Frame) (att : Attachment) : Prop where
  subType : claims.get "sub_type" = .str att.kind.subType
  grantSource : uuidOf (claims.get "device_id") = some att.sourceDeviceId
  socketSource : parseUuid deviceId = some att.sourceDeviceId
  jti : claims.get "jti" = .str att.grantJti
  exp : ∃ exp, numberOf (claims.get "exp") = some exp ∧ att.exp = truncate exp
  target : NamesTarget claims att

/-- The attachment comes from a grant token that was verified on this socket. -/
def Vouched (s : Socket) (att : Attachment) : Prop :=
  ∃ grant claims, (grant, claims) ∈ s.history.verified ∧ Vouches s.deviceId claims att

/-- The target itself named the terminal, in the answer to an attach minted for the grant. -/
def Named (s : Socket) (att : Attachment) (terminal : String) : Prop :=
  ∃ task frame rid, (task, att.targetDeviceId, frame) ∈ s.history.heard ∧
    frame.get "type" = .str "terminal_attached" ∧ frame.get "request_id" = .str rid ∧
    frame.get "terminal_id" = .str terminal ∧ (rid, att.grantJti) ∈ s.history.mintedFor

/-! ### What goes out -/

def workFrameTypes : List Json :=
  [.str "terminal_input", .str "terminal_resize", .str "terminal_buffer", .str "terminal_flow"]

/-- The frame works the terminal of an attachment that may do so. -/
structure Works (s : Socket) (target : String) (frame : Frame) (att : Attachment)
    (terminal : String) : Prop where
  held : (att.grantJti, att) ∈ s.grants
  kind : att.kind = .attach
  endOnly : att.endOnly = false
  unexpired : s.now < att.exp
  target : att.targetDeviceId = target
  registered : att ∈ s.history.registered
  vouched : Vouched s att
  named : Named s att terminal
  terminalId : frame.get "terminal_id" = .str terminal
  remote : frame.get "remote" =
    .obj [("source_device_id", .str att.sourceDeviceId), ("grant_jti", .str att.grantJti)]

/-- The payloads that show a source what its terminal does. -/
def paneFrameTypes : List Json :=
  [.str "remote_terminal_output", .str "remote_terminal_exit", .str "remote_terminal_buffer",
    .str "remote_terminal_input_ack"]

/-- The payload is about the pane of the terminal that the frame heard is about. -/
structure ShowsPane (s : Socket) (target : String) (frame payload : Frame) (att : Attachment)
    (terminal : String) : Prop where
  held : (att.grantJti, att) ∈ s.grants
  target : att.targetDeviceId = target
  attached : (s.marks att.id).attached = true
  bound : (s.marks att.id).terminalId = some terminal
  heard : frame.get "terminal_id" = .str terminal
  grantJti : payload.get "grant_jti" = .str att.grantJti
  terminalId : payload.get "terminal_id" = .str terminal

def grantOfCreate (frame : Frame) : Option String :=
  match frame.get "type", frame.get "remote" with
  | .str type, .obj block =>
      if type = "terminal_create" then textOf? (Frame.get block "grant_jti") else none
  | _, _ => none

def Ask.grantOfCreate : Ask → Option String
  | .sendTerminal _ frame => Relay.grantOfCreate frame
  | _ => none

/-- How often a create was forwarded under the grant. -/
def History.creates (jti : String) (h : History) : Nat :=
  h.offered.countP fun entry => grantOfCreate entry.2 = some jti

/-- How often the socket was told that the grant is its own. -/
def History.claims (jti : String) (h : History) : Nat :=
  h.claimed.countP fun att => att.grantJti = jti

/-! ### The invariant -/

def JobReady (s : Socket) : Job → Prop
  | .releaseRegistry att => att ∈ s.history.dropped
  | .representAttach att => att ∈ s.history.registered
  | _ => True

/-- The scrollback requests still in flight are of bound attachments. -/
def BuffersBound (s : Socket) : Prop :=
  ∀ request ∈ s.pending .buffer, ∀ entry ∈ s.grants, entry.1 = request.2.grantJti →
    (s.marks entry.2.id).attached = true

variable (rt : Runtime) (careful : Prop)

/-- The socket is in order; where `careful`, its scrollback requests are too. -/
structure Orderly (s : Socket) : Prop where
  grants : ∀ entry ∈ s.grants, entry.1 = entry.2.grantJti ∧ entry.2 ∈ s.history.registered ∧
    entry.2 ∉ s.history.dropped
  keys : (s.grants.map Prod.fst).Nodup
  claimed : ∀ att ∈ s.history.claimed, att.id < s.created ∧ Vouched s att
  registered : ∀ att ∈ s.history.registered, att ∈ s.history.claimed
  distinct : ∀ att ∈ s.history.registered, ∀ other ∈ s.history.registered,
    att.id = other.id → att = other
  minted : ∀ entry ∈ s.history.mintedFor, ∃ n < s.minted, entry.1 = rt.uuid4hex n
  correlated : ∀ entry ∈ s.pending .attach, (entry.1, entry.2.grantJti) ∈ s.history.mintedFor
  attached : ∀ id, (s.marks id).attached = (s.marks id).terminalId.isSome
  bearer : ∀ id, (s.marks id).attached = true → ∃ att ∈ s.history.registered, att.id = id
  named : ∀ att ∈ s.history.registered, ∀ terminal, (s.marks att.id).terminalId = some terminal →
    Named s att terminal ∧ (att, terminal) ∈ s.history.bound
  cached : ∀ id frame, (s.marks id).attachFrame = some frame →
    frame.get "type" = .str "terminal_attach"
  bound : ∀ entry ∈ s.history.bound, entry.1 ∈ s.history.registered
  dropped : ∀ att ∈ s.history.dropped, att ∈ s.history.claimed
  released : ∀ att ∈ s.history.released, att ∈ s.history.dropped
  jobs : ∀ task record, s.tasks[task]? = some record →
    (record.job = .source → task = 0) ∧ JobReady s record.job
  buffers : careful → BuffersBound s
  spent : ∀ jti, s.history.creates jti ≤ s.history.claims jti

/-- The history only grows. -/
structure Grows (s s' : Socket) : Prop where
  deviceId : s'.deviceId = s.deviceId
  created : s.created ≤ s'.created
  minted : s.minted ≤ s'.minted
  verified : s.history.verified ⊆ s'.history.verified
  heard : s.history.heard ⊆ s'.history.heard
  mintedFor : s.history.mintedFor ⊆ s'.history.mintedFor
  claimed : s.history.claimed ⊆ s'.history.claimed
  claims : ∀ jti, s.history.claims jti ≤ s'.history.claims jti
  registered : s.history.registered ⊆ s'.history.registered
  bound : s.history.bound ⊆ s'.history.bound
  dropped : s.history.dropped ⊆ s'.history.dropped

/-- What only the source's own loop does is left undone. -/
structure Unadmitting (s s' : Socket) : Prop where
  registered : s'.history.registered = s.history.registered
  dropped : ∀ att ∈ s'.history.dropped, att ∈ s.history.dropped ∨ att ∈ s.history.registered
  creates : ∀ jti, s'.history.creates jti = s.history.creates jti

/-- An attachment that may be registered: new, and vouched for. -/
structure Candidate (s : Socket) (att : Attachment) : Prop where
  created : att.id < s.created
  fresh : ∀ other ∈ s.history.registered, other.id ≠ att.id
  undropped : att ∉ s.history.dropped
  vouched : Vouched s att

/-- What the tasks of a socket keep and are owed. Where `careful`, no grant is registered
while a scrollback request under its id is in flight. -/
def orderly : Spec Socket Op Ask Value where
  inv := Orderly rt careful
  guar task s s' := Grows s s' ∧ s'.history.hearing task = s.history.hearing task
  rely task s s' :=
    Grows s s' ∧ s'.history.hearing task = s.history.hearing task ∧
      (task = 0 → Unadmitting s s')
  wait task a s s' :=
    Grows s s' ∧
      ((∀ target, a ≠ .nextMessage target) →
        s'.history.hearing task = s.history.hearing task) ∧
      (task = 0 → a.grantOfCreate = none → Unadmitting s s')
  pre task op s :=
    match op with
    | .putGrant jti att =>
        task = 0 ∧ jti = att.grantJti ∧ Candidate s att ∧ att ∈ s.history.claimed
    | .putPending .attach rid entry =>
        (rid, entry.grantJti) ∈ s.history.mintedFor ∨ ∃ n < s.minted, rid = rt.uuid4hex n
    | .putPending .buffer _ entry =>
        careful → ∀ held ∈ s.grants, held.1 = entry.grantJti →
          (s.marks held.2.id).attached = true
    | .drop att => att ∈ s.history.registered ∨ task = 0 ∧ att ∈ s.history.claimed
    | .keepFrame _ frame => frame.get "type" = .str "terminal_attach"
    | .bind att terminal =>
        att ∈ s.history.registered ∧ Named s att terminal ∧ (att, terminal) ∈ s.history.bound
    | .spawn job => job ≠ .source ∧ JobReady s job
    | _ => True
  may _ op s :=
    match op with
    | .putGrant jti _ => careful → ∀ request ∈ s.pending .buffer, request.2.grantJti ≠ jti
    | _ => True
  asks task a s :=
    match a with
    | .sendTerminal target frame =>
        frame.get "type" ∈ workFrameTypes → ∃ att terminal, Works s target frame att terminal
    | .sendToSource payload =>
        careful → payload.get "type" ∈ paneFrameTypes →
          ∃ target frame att terminal, s.history.hearing task = some (target, frame) ∧
            ShowsPane s target frame payload att terminal
    | _ => True
  wants task a s :=
    match a with
    | .sendTerminal _ frame =>
        ∀ jti, grantOfCreate frame = some jti →
          task = 0 ∧ s.history.creates jti < s.history.claims jti
    | .redis (.claim att) => att.id < s.created ∧ Vouched s att
    | .redis (.bindTerminal att terminal) =>
        att ∈ s.history.registered ∧ Named s att terminal
    | .redis (.deleteRows att) | .redis (.releaseTerminal att _) => att ∈ s.history.dropped
    | _ => True
  told task a reply s :=
    match a, reply with
    | .verifyToken grant, .ok (.claims claims) => (grant, claims) ∈ s.history.verified
    | .nextMessage target, .ok (.frame frame) => s.history.hearing task = some (target, frame)
    | .redis (.claim att), .ok (.flag true) =>
        att ∈ s.history.claimed ∧
          (task = 0 → s.history.creates att.grantJti < s.history.claims att.grantJti)
    | .redis (.bindTerminal att terminal), .ok (.flag true) => (att, terminal) ∈ s.history.bound
    | _, _ => True
  mayTell _ _ _ _ := True
  idle _ _ := True

variable {rt careful} {att : Attachment} {s s' : Socket} {task : Nat}

theorem Orderly.held (h : Orderly rt careful s) {jti : String}
    (hheld : s.grants.lookup jti = some att) :
    (att.grantJti, att) ∈ s.grants ∧ jti = att.grantJti ∧ att ∈ s.history.registered := by
  have hmem := Fields.mem_of_lookup hheld
  obtain ⟨hjti, hregistered, -⟩ := h.grants _ hmem
  have hjti : jti = att.grantJti := hjti
  exact ⟨hjti ▸ hmem, hjti, hregistered⟩

/-! ### Growth -/

theorem Grows.refl (s : Socket) : Grows s s :=
  ⟨rfl, le_rfl, le_rfl, fun _ h => h, fun _ h => h, fun _ h => h, fun _ h => h, fun _ => le_rfl,
    fun _ h => h, fun _ h => h, fun _ h => h⟩

theorem Grows.trans {s s' s'' : Socket} (h : Grows s s') (h' : Grows s' s'') : Grows s s'' :=
  ⟨h'.deviceId.trans h.deviceId, h.created.trans h'.created, h.minted.trans h'.minted,
    fun _ hx => h'.verified (h.verified hx), fun _ hx => h'.heard (h.heard hx),
    fun _ hx => h'.mintedFor (h.mintedFor hx), fun _ hx => h'.claimed (h.claimed hx),
    fun jti => (h.claims jti).trans (h'.claims jti), fun _ hx => h'.registered (h.registered hx), fun _ hx => h'.bound (h.bound hx),
    fun _ hx => h'.dropped (h.dropped hx)⟩

theorem Grows.of_history (hdevice : s'.deviceId = s.deviceId) (hcreated : s.created ≤ s'.created)
    (hminted : s.minted ≤ s'.minted) (hhistory : s'.history = s.history) : Grows s s' := by
  refine ⟨hdevice, hcreated, hminted, ?_, ?_, ?_, ?_, fun _ => ?_, ?_, ?_, ?_⟩ <;>
    rw [hhistory]
  all_goals exact fun _ h => h

theorem Unadmitting.refl (s : Socket) : Unadmitting s s := ⟨rfl, fun _ h => .inl h, fun _ => rfl⟩

theorem Unadmitting.trans {s s' s'' : Socket} (h : Unadmitting s s') (h' : Unadmitting s' s'') :
    Unadmitting s s'' where
  registered := h'.registered.trans h.registered
  dropped att hatt := by
    rcases h'.dropped att hatt with hdropped | hregistered
    · exact h.dropped att hdropped
    · exact .inr (h.registered ▸ hregistered)
  creates jti := (h'.creates jti).trans (h.creates jti)

theorem Vouched.grows (hv : Vouched s att) (h : Grows s s') : Vouched s' att := by
  obtain ⟨grant, claims, hverified, hvouches⟩ := hv
  refine ⟨grant, claims, h.verified hverified, ?_⟩
  rw [h.deviceId]
  exact hvouches

theorem Named.grows {terminal : String} (hn : Named s att terminal) (h : Grows s s') :
    Named s' att terminal := by
  obtain ⟨task, frame, rid, hheard, htype, hrid, hterminal, hminted⟩ := hn
  exact ⟨task, frame, rid, h.heard hheard, htype, hrid, hterminal, h.mintedFor hminted⟩

theorem JobReady.grows {job : Job} (hj : JobReady s job) (h : Grows s s') : JobReady s' job := by
  cases job with
  | releaseRegistry att => exact h.dropped hj
  | representAttach att => exact h.registered hj
  | source | listener | finishListener | expirePendingEnd => trivial

theorem Candidate.stable (hc : Candidate s att) (h : Grows s s') (hu : Unadmitting s s') :
    Candidate s' att where
  created := hc.created.trans_le h.created
  fresh := hu.registered ▸ hc.fresh
  undropped hdropped := by
    rcases hu.dropped att hdropped with hold | hregistered
    · exact hc.undropped hold
    · exact hc.fresh att hregistered rfl
  vouched := hc.vouched.grows h

/-! ### Steps that only take away -/

/-- Nothing is added that the invariant speaks of. -/
structure Shrinks (s s' : Socket) : Prop where
  deviceId : s'.deviceId = s.deviceId
  created : s'.created = s.created
  minted : s'.minted = s.minted
  history : s'.history = s.history
  grants : ∀ entry ∈ s'.grants, entry ∈ s.grants
  keys : (s.grants.map Prod.fst).Nodup → (s'.grants.map Prod.fst).Nodup
  pending : ∀ table, ∀ entry ∈ s'.pending table, entry ∈ s.pending table
  terminalId : ∀ id, (s'.marks id).terminalId = (s.marks id).terminalId
  attached : ∀ id, (s'.marks id).attached = (s.marks id).attached
  attachFrame : ∀ id, (s'.marks id).attachFrame = (s.marks id).attachFrame
  jobs : ∀ (task : Nat) (record : TaskRecord), s'.tasks[task]? = some record →
    ∃ record', s.tasks[task]? = some record' ∧ record'.job = record.job

theorem Shrinks.grows (hs : Shrinks s s') : Grows s s' :=
  Grows.of_history hs.deviceId hs.created.ge hs.minted.ge hs.history

theorem Shrinks.unadmitting (hs : Shrinks s s') : Unadmitting s s' :=
  ⟨by rw [hs.history], fun att h => .inl (hs.history ▸ h), fun _ => by rw [hs.history]⟩

theorem Shrinks.rely (hs : Shrinks s s') (task : Nat) : (orderly rt careful).rely task s s' :=
  ⟨hs.grows, by rw [hs.history], fun _ => hs.unadmitting⟩

theorem Orderly.shrink (h : Orderly rt careful s) (hs : Shrinks s s') : Orderly rt careful s' where
  grants entry hentry := by
    rw [hs.history]
    exact h.grants entry (hs.grants entry hentry)
  keys := hs.keys h.keys
  claimed att hatt := by
    rw [hs.history] at hatt
    rw [hs.created]
    obtain ⟨hcreated, hvouched⟩ := h.claimed att hatt
    exact ⟨hcreated, hvouched.grows hs.grows⟩
  registered := by
    rw [hs.history]
    exact h.registered
  distinct := by
    rw [hs.history]
    exact h.distinct
  minted := by
    rw [hs.history, hs.minted]
    exact h.minted
  correlated entry hentry := by
    rw [hs.history]
    exact h.correlated entry (hs.pending .attach entry hentry)
  attached id := by
    rw [hs.attached, hs.terminalId]
    exact h.attached id
  bearer id hid := by
    rw [hs.history]
    exact h.bearer id (hs.attached id ▸ hid)
  named att hatt terminal hterminal := by
    rw [hs.terminalId] at hterminal
    rw [hs.history] at hatt ⊢
    obtain ⟨hnamed, hbound⟩ := h.named att hatt terminal hterminal
    exact ⟨hnamed.grows hs.grows, hbound⟩
  cached id frame hframe := h.cached id frame (hs.attachFrame id ▸ hframe)
  bound := by
    rw [hs.history]
    exact h.bound
  dropped := by
    rw [hs.history]
    exact h.dropped
  released := by
    rw [hs.history]
    exact h.released
  jobs task record hrecord := by
    obtain ⟨record', hrecord', hjob⟩ := hs.jobs task record hrecord
    obtain ⟨hsource, hready⟩ := h.jobs task record' hrecord'
    rw [← hjob]
    exact ⟨hsource, hready.grows hs.grows⟩
  buffers hcareful request hrequest entry hentry hjti := by
    rw [hs.attached]
    exact h.buffers hcareful request (hs.pending .buffer request hrequest) entry
      (hs.grants entry hentry) hjti
  spent := by
    rw [hs.history]
    exact h.spent

theorem job_of_modify {tasks : List TaskRecord} {f : TaskRecord → TaskRecord}
    (hf : ∀ record, (f record).job = record.job) (other : Nat) {record : TaskRecord}
    (h : (tasks.modify other f)[task]? = some record) :
    ∃ record', tasks[task]? = some record' ∧ record'.job = record.job := by
  rw [List.getElem?_modify] at h
  obtain ⟨record', hrecord', rfl⟩ := Option.map_eq_some_iff.mp h
  refine ⟨record', hrecord', ?_⟩
  split
  · exact (hf record').symm
  · rfl

/-- The actions that only take away, or touch what the invariant is silent about. -/
def Op.Lesser : Op → Prop
  | .look | .popGrant _ | .popPending _ _ | .putDeadline _ _ | .popDeadline _ | .sweepBuffer _
  | .putEnd _ _ | .popEnd _ | .putTimer _ _ | .popTimer _ | .putListener _ _ | .popListener _
  | .addSubscribed _ | .discardSubscribed _ | .warnAck _ | .represent _ | .cancel _ => True
  | _ => False

variable {table : Table} {frame : Frame} {rid : String} {entry : Pending}

theorem mem_update {table' : Table} {pending : Table → List (String × Pending)}
    {entries : List (String × Pending)} (hsub : ∀ entry ∈ entries, entry ∈ pending table')
    {entry : String × Pending} (h : entry ∈ Function.update pending table' entries table) :
    entry ∈ pending table := by
  by_cases htable : table = table'
  · subst htable
    rw [Function.update_self] at h
    exact hsub entry h
  · rwa [Function.update_of_ne htable] at h

theorem apply_shrinks {op : Op} (hop : op.Lesser) (task : Nat) (s : Socket) :
    Shrinks s (Socket.apply task op s) := by
  have same : Shrinks s s :=
    ⟨rfl, rfl, rfl, rfl, fun _ h => h, id, fun _ _ h => h, fun _ => rfl, fun _ => rfl, fun _ => rfl,
      fun _ record h => ⟨record, h, rfl⟩⟩
  have marked (att : Attachment) (f : Marks → Marks)
      (hf : ∀ m, (f m).terminalId = m.terminalId ∧ (f m).attached = m.attached ∧
        (f m).attachFrame = m.attachFrame) : Shrinks s (s.mark att f) := by
    have hmark (id : Nat) : ((s.mark att f).marks id) = s.marks id ∨
        ((s.mark att f).marks id) = f (s.marks id) := by
      by_cases hid : id = att.id
      · subst hid
        exact .inr (Function.update_self ..)
      · exact .inl (Function.update_of_ne hid ..)
    refine { same with terminalId := ?_, attached := ?_, attachFrame := ?_ } <;>
      intro id <;> rcases hmark id with h | h <;> rw [h] <;> simp only [hf]
  cases op with
  | look | putDeadline | popDeadline | putEnd | popEnd | putTimer | popTimer | putListener
  | popListener | addSubscribed | discardSubscribed => exact { same with }
  | popGrant jti =>
      exact { same with
        grants := fun _ h => (Fields.mem_erase.mp h).1, keys := Fields.nodup_erase jti }
  | popPending table rid =>
      exact { same with
        pending := fun _ _ h => mem_update (fun _ hentry => (Fields.mem_erase.mp hentry).1) h }
  | sweepBuffer now =>
      exact { same with
        pending := fun _ _ h => mem_update (fun _ hentry => List.mem_of_mem_filter hentry) h }
  | warnAck att =>
      exact marked att (fun m => { m with ackMismatchWarned := true }) fun _ => ⟨rfl, rfl, rfl⟩
  | represent att =>
      exact marked att (fun m => { m with represented := true }) fun _ => ⟨rfl, rfl, rfl⟩
  | cancel other =>
      refine { same with jobs := fun _ _ h => job_of_modify ?_ other h }
      intro record
      split <;> rfl
  | create | mint | putGrant | putPending | drop | keepFrame | bind | spawn => cases hop

/-! ### The other actions -/

variable (rt careful) in
/-- What an action or an answer has to come with: the invariant, for the task that it is of
what it guarantees, for the others what they rely on. -/
def Sanctioned (task : Nat) (s s' : Socket) : Prop :=
  Orderly rt careful s' ∧ (orderly rt careful).guar task s s' ∧
    ∀ other, other ≠ task → (orderly rt careful).rely other s s'

theorem Sanctioned.of_unadmitting (hinv : Orderly rt careful s') (hgrows : Grows s s')
    (hheard : s'.history.heard = s.history.heard)
    (hregistered : s'.history.registered = s.history.registered)
    (hdropped : s'.history.dropped = s.history.dropped)
    (hoffered : s'.history.offered = s.history.offered) : Sanctioned rt careful task s s' := by
  have hhearing (other : Nat) : s'.history.hearing other = s.history.hearing other := by
    simp only [History.hearing, hheard]
  exact ⟨hinv, ⟨hgrows, hhearing task⟩, fun other _ => ⟨hgrows, hhearing other, fun _ =>
    ⟨hregistered, fun att hatt => .inl (hdropped ▸ hatt),
      fun _ => by simp only [History.creates, hoffered]⟩⟩⟩

section

variable (h : Orderly rt careful s)
include h

theorem sanctioned_of_lesser {op : Op} (hop : op.Lesser) :
    Sanctioned rt careful task s (Socket.apply task op s) := by
  have hs := apply_shrinks hop task s
  apply Sanctioned.of_unadmitting (h.shrink hs) hs.grows <;> rw [hs.history]

theorem sanctioned_create : Sanctioned rt careful task s (Socket.apply task .create s) := by
  have hgrows : Grows s (Socket.apply task .create s) :=
    { Grows.refl s with created := Nat.le_succ _ }
  refine Sanctioned.of_unadmitting ?_ hgrows rfl rfl rfl rfl
  refine { h with claimed := fun att hatt => ?_ }
  obtain ⟨hcreated, hvouched⟩ := h.claimed att hatt
  exact ⟨Nat.lt_succ_of_lt hcreated, hvouched.grows hgrows⟩

theorem sanctioned_mint : Sanctioned rt careful task s (Socket.apply task .mint s) := by
  refine Sanctioned.of_unadmitting ?_ { Grows.refl s with minted := Nat.le_succ _ } rfl rfl rfl
    rfl
  refine { h with minted := fun entry hentry => ?_ }
  obtain ⟨n, hn, heq⟩ := h.minted entry hentry
  exact ⟨n, Nat.lt_succ_of_lt hn, heq⟩

theorem sanctioned_spawn {job : Job} (hsource : job ≠ .source) (hready : JobReady s job) :
    Sanctioned rt careful task s (Socket.apply task (.spawn job) s) := by
  refine Sanctioned.of_unadmitting ?_ { Grows.refl s with } rfl rfl rfl rfl
  refine { h with jobs := fun other record hrecord => ?_ }
  have hrecord : (s.tasks ++ [⟨job, false, false⟩])[other]? = some record := hrecord
  rw [List.getElem?_append] at hrecord
  split at hrecord
  · exact h.jobs other record hrecord
  · have hmem := List.mem_of_getElem? hrecord
    rw [List.mem_singleton] at hmem
    subst hmem
    exact ⟨fun heq => (hsource heq).elim, hready⟩

end

theorem marks_mark (s : Socket) (att : Attachment) (f : Marks → Marks) (id : Nat) :
    (s.mark att f).marks id = if id = att.id then f (s.marks id) else s.marks id := by
  by_cases hid : id = att.id
  · subst hid
    rw [if_pos rfl]
    exact Function.update_self ..
  · rw [if_neg hid]
    exact Function.update_of_ne hid ..

theorem sanctioned_keepFrame (h : Orderly rt careful s)
    (hframe : frame.get "type" = .str "terminal_attach") :
    Sanctioned rt careful task s (Socket.apply task (.keepFrame att frame) s) := by
  refine Sanctioned.of_unadmitting ?_ { Grows.refl s with } rfl rfl rfl rfl
  have hmarks (id : Nat) : ((Socket.apply task (.keepFrame att frame) s).marks id).terminalId =
      (s.marks id).terminalId ∧
      ((Socket.apply task (.keepFrame att frame) s).marks id).attached =
        (s.marks id).attached := by
    simp only [Socket.apply, marks_mark]
    split <;> exact ⟨rfl, rfl⟩
  refine { h with attached := ?_, bearer := ?_, named := ?_, cached := ?_, buffers := ?_ }
  · intro id
    rw [(hmarks id).1, (hmarks id).2]
    exact h.attached id
  · exact fun id hid => h.bearer id ((hmarks id).2 ▸ hid)
  · intro other hother terminal hterminal
    rw [(hmarks other.id).1] at hterminal
    exact h.named other hother terminal hterminal
  · intro id cached hcached
    simp only [Socket.apply, marks_mark] at hcached
    split at hcached
    · cases hcached
      exact hframe
    · exact h.cached id cached hcached
  · intro hcareful request hrequest entry hentry hjti
    rw [(hmarks entry.2.id).2]
    exact h.buffers hcareful request hrequest entry hentry hjti

theorem sanctioned_bind {terminal : String} (h : Orderly rt careful s)
    (hregistered : att ∈ s.history.registered) (hnamed : Named s att terminal)
    (hbound : (att, terminal) ∈ s.history.bound) :
    Sanctioned rt careful task s (Socket.apply task (.bind att terminal) s) := by
  refine Sanctioned.of_unadmitting ?_ { Grows.refl s with } rfl rfl rfl rfl
  refine { h with attached := ?_, bearer := ?_, named := ?_, cached := ?_, buffers := ?_ }
  · intro id
    simp only [Socket.apply, marks_mark]
    split
    · rfl
    · exact h.attached id
  · intro id hid
    simp only [Socket.apply, marks_mark] at hid
    split at hid
    · next heq => exact ⟨att, hregistered, heq.symm⟩
    · exact h.bearer id hid
  · intro other hother named hnamed'
    simp only [Socket.apply, marks_mark] at hnamed'
    split at hnamed'
    · next hid =>
        cases hnamed'
        rw [h.distinct other hother att hregistered hid]
        exact ⟨hnamed, hbound⟩
    · exact h.named other hother named hnamed'
  · intro id cached hcached
    simp only [Socket.apply, marks_mark] at hcached
    split at hcached
    · exact h.cached id cached hcached
    · exact h.cached id cached hcached
  · intro hcareful request hrequest entry hentry hjti
    simp only [Socket.apply, marks_mark]
    split
    · rfl
    · exact h.buffers hcareful request hrequest entry hentry hjti

theorem pending_putPending {table' : Table} {other : String × Pending}
    (h : other ∈ (Socket.apply task (.putPending table rid entry) s).pending table') :
    other ∈ s.pending table' ∨ table' = table ∧ other = (rid, entry) := by
  have h : other ∈ Function.update s.pending table (Fields.set rid entry (s.pending table)) table' :=
    h
  by_cases htable : table' = table
  · subst htable
    rw [Function.update_self] at h
    exact (Fields.mem_of_mem_set h).imp_right fun heq => ⟨rfl, heq⟩
  · rw [Function.update_of_ne htable] at h
    exact .inl h

section

variable (h : Orderly rt careful s)
include h

theorem sanctioned_putPending_attach
    (hrid : (rid, entry.grantJti) ∈ s.history.mintedFor ∨ ∃ n < s.minted, rid = rt.uuid4hex n) :
    Sanctioned rt careful task s (Socket.apply task (.putPending .attach rid entry) s) := by
  have hgrows : Grows s (Socket.apply task (.putPending .attach rid entry) s) :=
    { Grows.refl s with mintedFor := fun _ hmem => List.mem_cons_of_mem _ hmem }
  refine Sanctioned.of_unadmitting ?_ hgrows rfl rfl rfl rfl
  refine { h with
    claimed := fun att hatt => ⟨(h.claimed att hatt).1, (h.claimed att hatt).2.grows hgrows⟩
    minted := ?_
    correlated := ?_
    named := ?_
    jobs := fun other record hrecord =>
      ⟨(h.jobs other record hrecord).1, (h.jobs other record hrecord).2.grows hgrows⟩
    buffers := ?_ }
  · intro other hother
    rcases List.mem_cons.mp hother with rfl | hold
    · exact hrid.elim (fun hminted => h.minted _ hminted) id
    · exact h.minted other hold
  · intro other hother
    rcases pending_putPending hother with hold | ⟨-, rfl⟩
    · exact List.mem_cons_of_mem _ (h.correlated other hold)
    · exact List.mem_cons_self
  · intro att hatt terminal hterminal
    obtain ⟨hnamed, hbound⟩ := h.named att hatt terminal hterminal
    exact ⟨hnamed.grows hgrows, hbound⟩
  · intro hcareful request hrequest
    rcases pending_putPending hrequest with hold | ⟨htable, -⟩
    · exact h.buffers hcareful request hold
    · cases htable

theorem sanctioned_putPending (htable : table ≠ .attach)
    (hbuffer : table = .buffer → careful → ∀ held ∈ s.grants, held.1 = entry.grantJti →
      (s.marks held.2.id).attached = true) :
    Sanctioned rt careful task s (Socket.apply task (.putPending table rid entry) s) := by
  have hhistory : (Socket.apply task (.putPending table rid entry) s).history = s.history := by
    simp only [Socket.apply, Socket.record, if_neg htable]
    rfl
  have hgrows : Grows s (Socket.apply task (.putPending table rid entry) s) :=
    Grows.of_history rfl le_rfl le_rfl hhistory
  refine Sanctioned.of_unadmitting ?_ hgrows (by rw [hhistory]) (by rw [hhistory])
    (by rw [hhistory]) (by rw [hhistory])
  refine ⟨?_, h.keys, ?_, ?_, ?_, ?_, ?_, h.attached, ?_, ?_, h.cached, ?_, ?_, ?_, ?_, ?_, ?_⟩
  all_goals try rw [hhistory]
  · exact h.grants
  · exact fun att hatt => ⟨(h.claimed att hatt).1, (h.claimed att hatt).2.grows hgrows⟩
  · exact h.registered
  · exact h.distinct
  · exact h.minted
  · intro other hother
    rcases pending_putPending hother with hold | ⟨hattach, -⟩
    · exact h.correlated other hold
    · exact (htable hattach.symm).elim
  · exact h.bearer
  · intro att hatt terminal hterminal
    obtain ⟨hnamed, hbound⟩ := h.named att hatt terminal hterminal
    exact ⟨hnamed.grows hgrows, hbound⟩
  · exact h.bound
  · exact h.dropped
  · exact h.released
  · exact fun other record hrecord =>
      ⟨(h.jobs other record hrecord).1, (h.jobs other record hrecord).2.grows hgrows⟩
  · intro hcareful request hrequest
    rcases pending_putPending hrequest with hold | ⟨htable', rfl⟩
    · exact h.buffers hcareful request hold
    · exact hbuffer htable'.symm hcareful
  · exact h.spent

theorem sanctioned_putGrant (htask : task = 0) (hcandidate : Candidate s att)
    (hclaimed : att ∈ s.history.claimed)
    (hclear : careful → ∀ request ∈ s.pending .buffer, request.2.grantJti ≠ att.grantJti) :
    Sanctioned rt careful task s (Socket.apply task (.putGrant att.grantJti att) s) := by
  have hgrows : Grows s (Socket.apply task (.putGrant att.grantJti att) s) :=
    { Grows.refl s with registered := fun _ hmem => List.mem_cons_of_mem _ hmem }
  have hgrants {entry : String × Attachment}
      (hentry : entry ∈ (Socket.apply task (.putGrant att.grantJti att) s).grants) :
      entry ∈ s.grants ∨ entry = (att.grantJti, att) := Fields.mem_of_mem_set hentry
  have hinv : Orderly rt careful (Socket.apply task (.putGrant att.grantJti att) s) := by
    refine { h with
      grants := ?_, keys := Fields.nodup_set _ _ h.keys, registered := ?_, distinct := ?_,
      bearer := ?_, named := ?_, bound := ?_, jobs := ?_, buffers := ?_ }
    · intro entry hentry
      rcases hgrants hentry with hold | rfl
      · obtain ⟨hjti, hregistered, hdropped⟩ := h.grants entry hold
        exact ⟨hjti, List.mem_cons_of_mem _ hregistered, hdropped⟩
      · exact ⟨rfl, List.mem_cons_self, hcandidate.undropped⟩
    · intro other hother
      rcases List.mem_cons.mp hother with rfl | hold
      · exact hclaimed
      · exact h.registered other hold
    · intro first hfirst second hsecond hid
      rcases List.mem_cons.mp hfirst with rfl | hfirst <;>
        rcases List.mem_cons.mp hsecond with rfl | hsecond
      · rfl
      · exact (hcandidate.fresh second hsecond hid.symm).elim
      · exact (hcandidate.fresh first hfirst hid).elim
      · exact h.distinct first hfirst second hsecond hid
    · intro id hid
      obtain ⟨bearer, hbearer, heq⟩ := h.bearer id hid
      exact ⟨bearer, List.mem_cons_of_mem _ hbearer, heq⟩
    · intro other hother terminal hterminal
      rcases List.mem_cons.mp hother with rfl | hold
      · have hattached := h.attached other.id
        have hterminal : (s.marks other.id).terminalId = some terminal := hterminal
        rw [hterminal] at hattached
        obtain ⟨bearer, hbearer, hid⟩ := h.bearer other.id hattached
        exact (hcandidate.fresh bearer hbearer hid).elim
      · exact h.named other hold terminal hterminal
    · exact fun entry hentry => List.mem_cons_of_mem _ (h.bound entry hentry)
    · exact fun other record hrecord =>
        ⟨(h.jobs other record hrecord).1, (h.jobs other record hrecord).2.grows hgrows⟩
    · intro hcareful request hrequest entry hentry hjti
      rcases hgrants hentry with hold | rfl
      · exact h.buffers hcareful request hrequest entry hold hjti
      · exact (hclear hcareful request hrequest hjti.symm).elim
  exact ⟨hinv, ⟨hgrows, rfl⟩, fun other hother =>
    ⟨hgrows, rfl, fun hzero => (hother (hzero.trans htask.symm)).elim⟩⟩

theorem sanctioned_drop (hatt : att ∈ s.history.registered ∨ task = 0 ∧ att ∈ s.history.claimed) :
    Sanctioned rt careful task s (Socket.apply task (.drop att) s) := by
  have hgrows : Grows s (Socket.apply task (.drop att) s) :=
    { Grows.refl s with dropped := fun _ hmem => List.mem_cons_of_mem _ hmem }
  have hinv : Orderly rt careful (Socket.apply task (.drop att) s) := by
    refine { h with
      grants := ?_, keys := Fields.nodup_erase _ h.keys, correlated := ?_, dropped := ?_,
      released := ?_, jobs := ?_, buffers := ?_ }
    · intro entry hentry
      obtain ⟨hold, hkept⟩ := Fields.mem_erase.mp hentry
      obtain ⟨hjti, hregistered, hdropped⟩ := h.grants entry hold
      refine ⟨hjti, hregistered, fun hmem => ?_⟩
      rcases List.mem_cons.mp hmem with heq | hmem
      · exact hkept (hjti.trans (congrArg Attachment.grantJti heq))
      · exact hdropped hmem
    · exact fun entry hentry => h.correlated entry (List.mem_of_mem_filter hentry)
    · intro other hother
      rcases List.mem_cons.mp hother with rfl | hold
      · exact hatt.elim (h.registered other) And.right
      · exact h.dropped other hold
    · exact fun other hother => List.mem_cons_of_mem _ (h.released other hother)
    · exact fun other record hrecord =>
        ⟨(h.jobs other record hrecord).1, (h.jobs other record hrecord).2.grows hgrows⟩
    · intro hcareful request hrequest entry hentry hjti
      exact h.buffers hcareful request (List.mem_of_mem_filter hrequest) entry
        (Fields.mem_erase.mp hentry).1 hjti
  refine ⟨hinv, ⟨hgrows, rfl⟩, fun other hother => ⟨hgrows, rfl, fun hzero => ⟨rfl, ?_, fun _ => rfl⟩⟩⟩
  intro gone hgone
  rcases List.mem_cons.mp hgone with rfl | hold
  · rcases hatt with hregistered | ⟨htask, -⟩
    · exact .inr hregistered
    · exact (hother (hzero.trans htask.symm)).elim
  · exact .inl hold

theorem sanctioned_apply {op : Op} (hpre : (orderly rt careful).pre task op s)
    (hmay : (orderly rt careful).may task op s) :
    Sanctioned rt careful task s (Socket.apply task op s) := by
  cases op with
  | create => exact sanctioned_create h
  | mint => exact sanctioned_mint h
  | putGrant jti att =>
      obtain ⟨htask, rfl, hcandidate, hclaimed⟩ := hpre
      exact sanctioned_putGrant h htask hcandidate hclaimed hmay
  | putPending table rid entry =>
      cases table with
      | attach => exact sanctioned_putPending_attach h hpre
      | buffer => exact sanctioned_putPending h (by simp) fun _ => hpre
      | create => exact sanctioned_putPending h (by simp) (by simp)
  | drop att => exact sanctioned_drop h hpre
  | keepFrame att frame => exact sanctioned_keepFrame h hpre
  | bind att terminal => exact sanctioned_bind h hpre.1 hpre.2.1 hpre.2.2
  | spawn job => exact sanctioned_spawn h hpre.1 hpre.2
  | look | popGrant | popPending | putDeadline | popDeadline | sweepBuffer | putEnd | popEnd
  | putTimer | popTimer | putListener | popListener | addSubscribed | discardSubscribed
  | warnAck | represent | cancel =>
      apply sanctioned_of_lesser h
      trivial

end

/-! ### The surroundings -/

variable (rt careful) in
/-- An answer, as `Sanctioned` an action: what it tells the task that asked is so, and what
the task waited through is what it waits through. -/
def Answered (task : Nat) (a : Ask) (reply : Except Stop Value) (s s' : Socket) : Prop :=
  Orderly rt careful s' ∧ (orderly rt careful).told task a reply s' ∧
    (orderly rt careful).wait task a s s' ∧
    ∀ other, other ≠ task → (orderly rt careful).rely other s s'

theorem Answered.of_unheard {a : Ask} {reply : Except Stop Value} (hinv : Orderly rt careful s')
    (htold : (orderly rt careful).told task a reply s') (hgrows : Grows s s')
    (hheard : s'.history.heard = s.history.heard)
    (hregistered : s'.history.registered = s.history.registered)
    (hdropped : s'.history.dropped = s.history.dropped)
    (hoffered : s'.history.offered = s.history.offered) :
    Answered rt careful task a reply s s' := by
  have hhearing (other : Nat) : s'.history.hearing other = s.history.hearing other := by
    simp only [History.hearing, hheard]
  have hun : Unadmitting s s' := ⟨hregistered, fun att hatt => .inl (hdropped ▸ hatt),
    fun _ => by simp only [History.creates, hoffered]⟩
  exact ⟨hinv, htold, ⟨hgrows, fun _ => hhearing task, fun _ _ => hun⟩,
    fun other _ => ⟨hgrows, hhearing other, fun _ => hun⟩⟩

theorem answered_heard {target : String} (h : Orderly rt careful s) :
    Answered rt careful task (.nextMessage target) (.ok (.frame frame)) s
      (served task (.nextMessage target) (.ok (.frame frame)) s) := by
  have hgrows : Grows s (served task (.nextMessage target) (.ok (.frame frame)) s) :=
    { Grows.refl s with heard := fun _ hmem => List.mem_cons_of_mem _ hmem }
  have hun : Unadmitting s (served task (.nextMessage target) (.ok (.frame frame)) s) :=
    ⟨rfl, fun _ hatt => .inl hatt, fun _ => rfl⟩
  refine ⟨{ h with claimed := ?_, named := ?_ }, ?_, ⟨hgrows, ?_, fun _ _ => hun⟩, ?_⟩
  · exact fun att hatt => ⟨(h.claimed att hatt).1, (h.claimed att hatt).2.grows hgrows⟩
  · intro att hatt terminal hterminal
    obtain ⟨hnamed, hbound⟩ := h.named att hatt terminal hterminal
    exact ⟨hnamed.grows hgrows, hbound⟩
  · simp [orderly, served, Socket.record, History.hearing]
  · intro hother
    exact (hother target rfl).elim
  · intro other hother
    refine ⟨hgrows, ?_, fun _ => hun⟩
    simp [served, Socket.record, History.hearing, hother.symm]

theorem answered_offered {target : String} {value : Value} (h : Orderly rt careful s)
    (hwants : (orderly rt careful).wants task (.sendTerminal target frame) s) :
    Answered rt careful task (.sendTerminal target frame) (.ok value) s
      (s.record fun h => { h with offered := (target, frame) :: h.offered }) := by
  have hgrows : Grows s (s.record fun h => { h with offered := (target, frame) :: h.offered }) :=
    { Grows.refl s with }
  have hun (hnone : grantOfCreate frame = none) :
      Unadmitting s (s.record fun h => { h with offered := (target, frame) :: h.offered }) := by
    refine ⟨rfl, fun _ hatt => .inl hatt, fun jti => ?_⟩
    simp [Socket.record, History.creates, hnone]
  refine ⟨{ h with spent := fun jti => ?_ }, ?_, ⟨hgrows, fun _ => rfl, fun _ => hun⟩,
    fun other hother => ⟨hgrows, rfl, fun hzero => hun ?_⟩⟩
  · simp only [Socket.record, History.creates, List.countP_cons, decide_eq_true_eq]
    split
    · next heq => exact (hwants jti heq).2
    · exact h.spent jti
  · simp [orderly]
  · cases hjti : grantOfCreate frame with
    | none => rfl
    | some jti => exact (hother (hzero.trans (hwants jti hjti).1.symm)).elim

theorem answered {a : Ask} {reply : Except Stop Value} (h : Orderly rt careful s)
    (hwants : (orderly rt careful).wants task a s) :
    Answered rt careful task a reply s (served task a reply s) := by
  unfold served
  split
  · next grant claims =>
      have hgrows : Grows s (served task (.verifyToken grant) (.ok (.claims claims)) s) :=
        { Grows.refl s with verified := fun _ hmem => List.mem_cons_of_mem _ hmem }
      refine Answered.of_unheard ?_ List.mem_cons_self hgrows rfl rfl rfl rfl
      exact { h with
        claimed := fun att hatt => ⟨(h.claimed att hatt).1, (h.claimed att hatt).2.grows hgrows⟩ }
  · exact answered_heard h
  · exact Answered.of_unheard { h with } trivial { Grows.refl s with } rfl rfl rfl rfl
  · exact answered_offered h hwants
  · exact Answered.of_unheard { h with } trivial { Grows.refl s with } rfl rfl rfl rfl
  · next att =>
      have hclaims (jti : String) : s.history.claims jti ≤
          (s.record fun h => { h with claimed := att :: h.claimed }).history.claims jti := by
        simp only [Socket.record, History.claims, List.countP_cons]
        exact Nat.le_add_right ..
      have hgrows : Grows s (s.record fun h => { h with claimed := att :: h.claimed }) :=
        { Grows.refl s with
          claimed := fun _ hmem => List.mem_cons_of_mem _ hmem, claims := hclaims }
      refine Answered.of_unheard ?_ ⟨List.mem_cons_self, fun _ => ?_⟩ hgrows rfl rfl rfl rfl
      · refine { h with claimed := ?_, registered := ?_, dropped := ?_, spent := ?_ }
        · intro other hother
          rcases List.mem_cons.mp hother with rfl | hold
          · exact ⟨hwants.1, hwants.2.grows hgrows⟩
          · exact ⟨(h.claimed other hold).1, (h.claimed other hold).2.grows hgrows⟩
        · exact fun other hother => List.mem_cons_of_mem _ (h.registered other hother)
        · exact fun other hother => List.mem_cons_of_mem _ (h.dropped other hother)
        · exact fun jti => (h.spent jti).trans (hclaims jti)
      · have hspent := h.spent att.grantJti
        simp only [Socket.record, History.creates, History.claims, List.countP_cons,
          decide_true, if_true] at hspent ⊢
        omega
  · next att terminal =>
      refine Answered.of_unheard ?_ List.mem_cons_self { Grows.refl s with
        bound := fun _ hmem => List.mem_cons_of_mem _ hmem } rfl rfl rfl rfl
      refine { h with named := ?_, bound := ?_ }
      · intro other hother named hnamed
        obtain ⟨hnamed, hbound⟩ := h.named other hother named hnamed
        exact ⟨hnamed, List.mem_cons_of_mem _ hbound⟩
      · intro entry hentry
        rcases List.mem_cons.mp hentry with rfl | hold
        · exact hwants.1
        · exact h.bound entry hold
  · next att =>
      refine Answered.of_unheard ?_ ?_ { Grows.refl s with } rfl rfl rfl rfl
      · refine { h with released := ?_ }
        intro other hother
        rcases List.mem_cons.mp hother with rfl | hold
        · exact hwants
        · exact h.released other hold
      · trivial
  · refine Answered.of_unheard h ?_ (Grows.refl s) rfl rfl rfl rfl
    simp only [orderly]

theorem shrinks_of_modify (s : Socket) (task : Nat) (f : TaskRecord → TaskRecord)
    (hf : ∀ record, (f record).job = record.job) :
    Shrinks s { s with tasks := s.tasks.modify task f } :=
  ⟨rfl, rfl, rfl, rfl, fun _ h => h, id, fun _ _ h => h, fun _ => rfl, fun _ => rfl, fun _ => rfl,
    fun _ _ h => job_of_modify hf task h⟩

theorem shrinks_tick (s : Socket) (tick : Tick) : Shrinks s ((machine rt).outside tick s) :=
  ⟨rfl, rfl, rfl, rfl, fun _ h => h, id, fun _ _ h => h, fun _ => rfl, fun _ => rfl, fun _ => rfl,
    fun _ record h => ⟨record, h, rfl⟩⟩

theorem told_error (task : Nat) (a : Ask) (stop : Stop) (s : Socket) :
    (orderly rt careful).told task a (.error stop) s := by
  simp [orderly]

theorem orderly_sound : Sound (machine rt) (orderly rt careful) where
  rely_refl _ s := ⟨Grows.refl s, rfl, fun _ => Unadmitting.refl s⟩
  rely_trans h h' :=
    ⟨h.1.trans h'.1, h'.2.1.trans h.2.1, fun hzero => (h.2.2 hzero).trans (h'.2.2 hzero)⟩
  wait_of_rely h := ⟨h.1, fun _ => h.2.1, fun hzero _ => h.2.2 hzero⟩
  wait_trans h h' :=
    ⟨h.1.trans h'.1, fun hne => (h'.2.1 hne).trans (h.2.1 hne),
      fun hzero hnone => (h.2.2 hzero hnone).trans (h'.2.2 hzero hnone)⟩
  guar_refl _ s := ⟨Grows.refl s, rfl⟩
  guar_trans h h' := ⟨h.1.trans h'.1, h'.2.trans h.2⟩
  wants_stable {_ a _ _} h hwants := by
    simp only [orderly] at hwants ⊢
    split at hwants
    · intro jti hjti
      obtain ⟨hzero, hspent⟩ := hwants jti hjti
      rw [(h.2.2 hzero).creates jti]
      exact ⟨hzero, hspent.trans_le (h.1.claims jti)⟩
    · exact ⟨hwants.1.trans_le h.1.created, hwants.2.grows h.1⟩
    · exact ⟨h.1.registered hwants.1, hwants.2.grows h.1⟩
    · exact h.1.dropped hwants
    · exact h.1.dropped hwants
    · trivial
  told_stable {_ a reply _ _} h htold := by
    simp only [orderly] at htold ⊢
    split at htold
    · exact h.1.verified htold
    · exact h.2.1.trans htold
    · refine ⟨h.1.claimed htold.1, fun hzero => ?_⟩
      rw [(h.2.2 hzero).creates]
      exact (htold.2 hzero).trans_le (h.1.claims _)
    · exact h.1.bound htold
    · trivial
  idle_stable _ _ := trivial
  apply h hpre hmay := sanctioned_apply h hpre hmay
  served h hwants _ _ := answered h hwants
  uncancel {task _ s} h _ _ := by
    have hs := shrinks_of_modify s task (fun r => { r with cancelled := false }) fun _ => rfl
    have hrely (other : Nat) : (orderly rt careful).rely other s _ := hs.rely other
    exact ⟨h.shrink hs, told_error ..,
      ⟨(hrely task).1, fun _ => (hrely task).2.1, fun hzero _ => (hrely task).2.2 hzero⟩,
      fun other _ => hrely other⟩
  finish {task s} h _ := by
    have hs := shrinks_of_modify s task (fun r => { r with ended := true }) fun _ => rfl
    exact ⟨h.shrink hs, trivial, fun other _ => hs.rely other⟩
  outside {event s} h :=
    ⟨h.shrink (shrinks_tick s event), fun task => (shrinks_tick s event).rely task⟩

end Qontinui.Relay
