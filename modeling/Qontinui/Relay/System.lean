import Mathlib.Algebra.Order.BigOperators.Group.List
import Qontinui.Relay.OrderlyTarget

/-!
The relay as a whole: the source sockets of every replica over one Redis, which
carries out one command at a time and whose answer may be lost. The clocks of
the relays and of Redis agree.

One create grant, one spawn. Every create that is forwarded spends a claim of its
grant, over all sockets; a claim is granted again only when its key has lapsed, and
the key lapses with the whole second of the grant's expiry, the grant itself later.
-/

namespace Qontinui.Relay

/-- The source sockets of every replica, the Redis they share, and the time. -/
structure Relays where
  redis : Redis := {}
  now : Rat := 0
  sockets : List SocketTasks := []

inductive RelayEvent where
  /-- A source connects, to whichever replica. -/
  | connect (deviceId : String)
  | tick (tick : Tick)
  /-- A task goes on. -/
  | resume (socket task : Nat)
  /-- A task is answered; Redis can only fail it so. -/
  | serve (socket task : Nat) (reply : Except Stop Value)
  /-- Redis carries out the command of a task and answers. -/
  | redis (socket task : Nat)
  /-- Redis carries out the command of a task, and the answer does not arrive. -/
  | lose (socket task : Nat)

/-- The command a task waits for Redis to carry out. -/
def commandOf (c : SocketTasks) (task : Nat) : Option RedisCommand :=
  match c.parked task with
  | some ⟨.redis command, _, none⟩ => some command
  | _ => none

namespace Relays

variable (rt : Runtime)

def command? (r : Relays) (socket task : Nat) : Option RedisCommand :=
  (r.sockets[socket]?).bind fun c => commandOf c task

def move (r : Relays) (socket : Nat) (event : SocketEvent) : Relays :=
  { r with sockets := r.sockets.modify socket fun c => (machine rt).step c event }

def step (r : Relays) : RelayEvent → Relays
  | .connect deviceId =>
      { r with sockets := r.sockets ++ [⟨{ deviceId, now := r.now }, fun _ => none⟩] }
  | .tick tick =>
      { r with
        now := r.now + tick.wall
        sockets := r.sockets.map fun c => (machine rt).step c (.outside tick) }
  | .resume socket task => r.move rt socket (.resume task)
  | .serve socket task reply =>
      match r.command? socket task, reply with
      | some _, .ok _ => r
      | _, reply => r.move rt socket (.serve task reply)
  | .redis socket task =>
      match r.command? socket task with
      | none => r
      | some command =>
          let (redis, value) := r.redis.perform r.now socket command
          { r with redis }.move rt socket (.serve task (.ok value))
  | .lose socket task =>
      match r.command? socket task with
      | none => r
      | some command => { r with redis := (r.redis.perform r.now socket command).1 }

/-- The relays after a list of events, from before any source connected. -/
def after (events : List RelayEvent) : Relays := Runs.run (step rt) {} events

variable {rt}

theorem mem_move {r : Relays} {socket : Nat} {event : SocketEvent} {c : SocketTasks}
    (hc : c ∈ (r.move rt socket event).sockets) :
    c ∈ r.sockets ∨
      ∃ before, r.sockets[socket]? = some before ∧ c = (machine rt).step before event := by
  obtain ⟨i, hi⟩ := List.mem_iff_getElem?.mp hc
  simp only [move, List.getElem?_modify] at hi
  obtain ⟨before, hbefore, heq⟩ := Option.map_eq_some_iff.mp hi
  split at heq
  · next hsocket => exact .inr ⟨before, hsocket ▸ hbefore, heq.symm⟩
  · exact .inl (heq ▸ List.mem_of_getElem? hbefore)

/-- What every event of its own keeps of a socket, and every connection brings, is so of
every socket of the relays. -/
theorem step_sockets {P : SocketTasks → Prop} {r : Relays} {event : RelayEvent}
    (hconnected : ∀ deviceId, P ⟨{ deviceId, now := r.now }, fun _ => none⟩)
    (hstep : ∀ c event, c ∈ r.sockets → P c → P ((machine rt).step c event))
    (h : ∀ c ∈ r.sockets, P c) : ∀ c ∈ (r.step rt event).sockets, P c := by
  have hmove {r' : Relays} (hr' : r'.sockets = r.sockets) (socket : Nat) (event : SocketEvent) :
      ∀ c ∈ (r'.move rt socket event).sockets, P c := by
    intro c hc
    rcases mem_move hc with hold | ⟨before, hbefore, rfl⟩
    · exact h c (hr' ▸ hold)
    · have hmem := List.mem_of_getElem? (hr' ▸ hbefore)
      exact hstep before event hmem (h before hmem)
  cases event with
  | connect deviceId =>
      intro c hc
      rcases List.mem_append.mp hc with hold | hnew
      · exact h c hold
      · rw [List.mem_singleton.mp hnew]
        exact hconnected deviceId
  | tick tick =>
      intro c hc
      obtain ⟨before, hbefore, rfl⟩ := List.mem_map.mp hc
      exact hstep before _ hbefore (h before hbefore)
  | resume socket task => exact hmove rfl socket _
  | serve socket task reply =>
      simp only [step]
      split
      · exact h
      · exact hmove rfl socket _
  | redis socket task =>
      simp only [step]
      split
      · exact h
      · exact hmove rfl socket _
  | lose socket task =>
      simp only [step]
      split
      · exact h
      · exact h

def InOrder (rt : Runtime) (r : Relays) : Prop :=
  ∀ c ∈ r.sockets, Qontinui.InOrder (machine rt) (orderly rt False) c

theorem step_inOrder {r : Relays} (event : RelayEvent) (h : InOrder rt r) :
    InOrder rt (r.step rt event) :=
  step_sockets (fun deviceId => connected_inOrder deviceId r.now)
    (fun c event _ hc => Qontinui.step_inOrder orderly_sound relay_checked event hc
      (stepMay_of_careless c event)) h

end Relays

variable {rt : Runtime} {jti : String} {exp : Rat}

/-! ### Counting over sockets -/

namespace Relays

/-- How often a create was forwarded under the grant, by any socket. -/
def creates (jti : String) (r : Relays) : Nat :=
  (r.sockets.map fun c => c.state.history.creates jti).sum

/-- How often the grant was claimed, by any socket. -/
def claims (jti : String) (r : Relays) : Nat :=
  (r.sockets.map fun c => c.state.history.claims jti).sum

end Relays

theorem sum_map_modify {α : Type} (f : α → Nat) (g : α → α) {xs : List α} {i : Nat} {x : α}
    (h : xs[i]? = some x) :
    ((xs.modify i g).map f).sum + f x = (xs.map f).sum + f (g x) := by
  induction xs generalizing i with
  | nil => cases h
  | cons y ys ih =>
      cases i with
      | zero =>
          cases h
          simp only [List.modify_zero_cons, List.map_cons, List.sum_cons]
          omega
      | succ i =>
          have hrest := ih (by simpa using h)
          simp only [List.modify_succ_cons, List.map_cons, List.sum_cons]
          omega

variable {c : SocketTasks} {r : Relays} {socket task : Nat} {s : Socket} {reply : Except Stop Value}

theorem claims_move {event : SocketEvent} (hc : r.sockets[socket]? = some c) :
    (r.move rt socket event).claims jti + c.state.history.claims jti =
      r.claims jti + ((machine rt).step c event).state.history.claims jti :=
  sum_map_modify (fun c => c.state.history.claims jti) _ hc

theorem creates_le_claims (h : r.InOrder rt) : r.creates jti ≤ r.claims jti :=
  List.sum_le_sum fun c hc => (h c hc).inv.spent jti

/-! ### What a socket is told -/

/-- The tokens a socket has accepted and the claims it has won. -/
def admitted (s : Socket) : List (String × Frame) × List Attachment :=
  (s.history.verified, s.history.claimed)

theorem admitted_onlyServed : (machine rt).OnlyServed admitted where
  apply task op s := by
    cases op with
    | putPending table rid entry =>
        simp only [machine, Socket.apply, Socket.record, admitted]
        split <;> rfl
    | _ => rfl
  uncancel _ _ := rfl
  finish _ _ := rfl
  outside _ _ := rfl

theorem claims_of_admitted {s' : Socket} (h : admitted s' = admitted s) :
    s'.history.claims jti = s.history.claims jti := by
  simp only [History.claims, show s'.history.claimed = s.history.claimed from congrArg Prod.snd h]

theorem served_claims {a : Ask}
    (h : ∀ att, a = .redis (.claim att) → reply = .ok (.flag true) → att.grantJti ≠ jti) :
    (served task a reply s).history.claims jti = s.history.claims jti := by
  unfold served
  split
  case h_6 att =>
    have hne := h att rfl rfl
    simp [Socket.record, History.claims, hne]
  all_goals rfl

theorem served_claims_le {a : Ask} :
    (served task a reply s).history.claims jti ≤ s.history.claims jti + 1 := by
  unfold served
  split
  case h_6 att =>
    simp only [Socket.record, History.claims, List.countP_cons]
    split
    · exact le_rfl
    · exact Nat.le_succ _
  all_goals exact Nat.le_succ _

theorem served_verified {a : Ask} {entry : String × Frame}
    (h : entry ∈ (served task a reply s).history.verified) :
    entry ∈ s.history.verified ∨ reply = .ok (.claims entry.2) := by
  unfold served at h
  split at h
  · rcases List.mem_cons.mp h with rfl | hold
    · exact .inr rfl
    · exact .inl hold
  all_goals exact .inl h

/-! ### The grant -/

/-- Whatever the claims under this id are, they are those of one create grant. -/
def OfGrant (jti : String) (exp : Rat) (claims : Frame) : Prop :=
  claims.get "jti" = .str jti →
    claims.get "sub_type" = .str createGrantSubType ∧ numberOf (claims.get "exp") = some exp

/-- The verifier accepts under the id only the token of the one create grant. -/
def Genuine (jti : String) (exp : Rat) : RelayEvent → Prop
  | .serve _ _ (.ok (.claims claims)) => OfGrant jti exp claims
  | _ => True

def RedisCommand.claimant? : RedisCommand → Option Attachment
  | .claim att => some att
  | _ => none

/-- No claim of the grant is carried out later than its key lives, once one was granted. -/
def InTime (jti : String) (r : Relays) : RelayEvent → Prop
  | .redis socket task =>
      ∀ att ∈ (r.command? socket task).bind RedisCommand.claimant?,
        att.grantJti = jti → r.claims jti ≠ 0 → r.now ≤ att.exp
  | _ => True

instance : DecidablePred (Genuine jti exp)
  | .serve _ _ (.ok (.claims _)) => inferInstanceAs (Decidable (_ → _))
  | .serve _ _ (.ok .unit) | .serve _ _ (.ok (.flag _)) | .serve _ _ (.ok (.frame _))
  | .serve _ _ (.ok .closed) | .serve _ _ (.ok (.rejected _ _)) | .serve _ _ (.error _)
  | .connect _ | .tick _ | .resume _ _ | .redis _ _ | .lose _ _ => .isTrue trivial

instance (r : Relays) : DecidablePred (InTime jti r)
  | .redis _ _ => inferInstanceAs (Decidable (∀ att ∈ _, _))
  | .connect _ | .tick _ | .resume _ _ | .serve _ _ _ | .lose _ _ => .isTrue trivial

variable {att : Attachment}

theorem Vouched.ofGrant (hv : Vouched s att)
    (hgenuine : ∀ entry ∈ s.history.verified, OfGrant jti exp entry.2) (hjti : att.grantJti = jti) :
    att.kind = .create ∧ att.exp = truncate exp := by
  obtain ⟨grant, claims, hmem, hvouches⟩ := hv
  obtain ⟨hsub, hexp⟩ := hgenuine _ hmem (hjti ▸ hvouches.jti)
  obtain ⟨exp', hexp', heq⟩ := hvouches.exp
  constructor
  · have hkind := hvouches.subType
    rw [hsub] at hkind
    cases hatt : att.kind with
    | create => rfl
    | attach => simp [hatt, Kind.subType, attachGrantSubType, createGrantSubType] at hkind
  · rw [hexp] at hexp'
    cases hexp'
    exact heq

/-- What holds over the sockets: each is in order and has accepted one grant under the id,
and once that is claimed its key is there. -/
structure Single (rt : Runtime) (jti : String) (exp : Rat) (r : Relays) : Prop where
  inOrder : r.InOrder rt
  genuine : ∀ c ∈ r.sockets, ∀ entry ∈ c.state.history.verified, OfGrant jti exp entry.2
  once : r.claims jti ≤ 1
  held : r.claims jti ≠ 0 → ∃ claim, r.redis.claims.lookup jti = some claim ∧
    claim.att.exp = truncate exp

theorem InOrder.command {command : RedisCommand}
    (h : Qontinui.InOrder (machine rt) (orderly rt False) c)
    (hcommand : commandOf c task = some command) :
    (orderly rt False).wants task (.redis command) c.state := by
  have htask := h.task task
  unfold commandOf at hcommand
  split at hcommand
  · next heq =>
      cases hcommand
      rw [heq] at htask
      exact htask.1 rfl
  · cases hcommand

theorem command?_of_some {command : RedisCommand} (h : r.command? socket task = some command) :
    ∃ c, r.sockets[socket]? = some c ∧ commandOf c task = some command :=
  Option.bind_eq_some_iff.mp h

/-- The key of the grant, once there, stays: no socket in order removes it. -/
theorem perform_held {command : RedisCommand} {now : Rat} (h : Single rt jti exp r)
    (hcommand : r.command? socket task = some command)
    (hheld : ∃ claim, r.redis.claims.lookup jti = some claim ∧ claim.att.exp = truncate exp) :
    ∃ claim, (r.redis.perform now socket command).1.claims.lookup jti = some claim ∧
      claim.att.exp = truncate exp := by
  obtain ⟨c, hc, hwaits⟩ := command?_of_some hcommand
  have hmem := List.mem_of_getElem? hc
  have hwants := InOrder.command (h.inOrder c hmem) hwaits
  cases command with
  | claim att =>
      simp only [Redis.perform, Redis.claimGrant]
      split
      · exact hheld
      · by_cases hjti : att.grantJti = jti
        · obtain ⟨-, hexp⟩ := hwants.2.ofGrant (h.genuine c hmem) hjti
          exact ⟨⟨socket, att⟩, by simp [hjti], hexp⟩
        · simpa only [Fields.lookup_set_ne (Ne.symm hjti)] using hheld
  | bindTerminal att terminal =>
      simp only [Redis.perform, Redis.bindTerminal]
      split
      · split
        · exact hheld
        · exact hheld
      · exact hheld
  | deleteRows att =>
      simp only [Redis.perform, Redis.deleteRows]
      split
      · exact hheld
      · next hkind =>
          have horder := (h.inOrder c hmem).inv
          have hvouched := (horder.claimed att (horder.dropped att hwants)).2
          have hjti : jti ≠ att.grantJti := by
            intro heq
            obtain ⟨hcreate, -⟩ := hvouched.ofGrant (h.genuine c hmem) heq.symm
            rw [hkind] at hcreate
            cases hcreate
          simpa only [Fields.lookup_erase_ne hjti] using hheld
  | releaseTerminal att terminal =>
      simp only [Redis.perform, Redis.releaseTerminal]
      split
      · split
        · exact hheld
        · exact hheld
      · exact hheld
  | writeRecord | expireRecord | recordTerminal => exact hheld

theorem Single.genuine_move {event : SocketEvent} (h : Single rt jti exp r)
    (hverified : ∀ c entry, entry ∈ ((machine rt).step c event).state.history.verified →
      entry ∈ c.state.history.verified ∨ OfGrant jti exp entry.2) :
    ∀ c ∈ (r.move rt socket event).sockets, ∀ entry ∈ c.state.history.verified,
      OfGrant jti exp entry.2 := by
  intro c hc entry hentry
  rcases Relays.mem_move hc with hold | ⟨before, hbefore, rfl⟩
  · exact h.genuine c hold entry hentry
  · rcases hverified before entry hentry with hold | hnew
    · exact h.genuine before (List.mem_of_getElem? hbefore) entry hold
    · exact hnew

theorem Single.move {r : Relays} {socket : Nat} {event : SocketEvent} (h : Single rt jti exp r)
    (hinOrder : (r.move rt socket event).InOrder rt)
    (hverified : ∀ c entry, entry ∈ ((machine rt).step c event).state.history.verified →
      entry ∈ c.state.history.verified ∨ OfGrant jti exp entry.2)
    (hclaims : ∀ c, r.sockets[socket]? = some c →
      ((machine rt).step c event).state.history.claims jti = c.state.history.claims jti) :
    Single rt jti exp (r.move rt socket event) := by
  have hsame : (r.move rt socket event).claims jti = r.claims jti := by
    cases hc : r.sockets[socket]? with
    | none =>
        have hlen : r.sockets.length ≤ socket := List.getElem?_eq_none_iff.mp hc
        simp only [Relays.move, List.modify_eq_self hlen, Relays.claims]
    | some c =>
        have hmove : (r.move rt socket event).claims jti + c.state.history.claims jti =
            r.claims jti + ((machine rt).step c event).state.history.claims jti := claims_move hc
        rw [hclaims c hc] at hmove
        omega
  exact ⟨hinOrder, h.genuine_move hverified, hsame ▸ h.once, fun hne => h.held (hsame ▸ hne)⟩

theorem serve_verified {entry : String × Frame}
    (h : entry ∈ ((machine rt).step c (.serve task reply)).state.history.verified) :
    entry ∈ c.state.history.verified ∨ reply = .ok (.claims entry.2) := by
  rcases Machine.step_serve (M := machine rt) c task reply with hsame | ⟨a, rest, -, -, hserved⟩
  · exact .inl (hsame ▸ h)
  · rw [hserved] at h
    exact served_verified h

theorem serve_claims (h : ∀ att, commandOf c task = some (.claim att) → reply = .ok (.flag true) →
      att.grantJti ≠ jti) :
    ((machine rt).step c (.serve task reply)).state.history.claims jti =
      c.state.history.claims jti := by
  rcases Machine.step_serve (M := machine rt) c task reply with
    hsame | ⟨a, rest, hparked, -, hserved⟩
  · rw [hsame]
  · rw [hserved]
    apply served_claims
    rintro att rfl
    exact h att (by simp [commandOf, hparked])

theorem serve_claims_le :
    ((machine rt).step c (.serve task reply)).state.history.claims jti ≤
      c.state.history.claims jti + 1 := by
  rcases Machine.step_serve (M := machine rt) c task reply with hsame | ⟨a, rest, -, -, hserved⟩
  · rw [hsame]
    exact Nat.le_succ _
  · rw [hserved]
    exact served_claims_le

theorem claim_granted {redis : Redis} {now : Rat}
    (h : (redis.perform now socket (.claim att)).2 = .flag true) :
    redis.claim? now att.grantJti = none ∧
      (redis.perform now socket (.claim att)).1.claims.lookup att.grantJti =
        some ⟨socket, att⟩ := by
  revert h
  simp only [Redis.perform, Redis.claimGrant]
  split
  · intro h
    cases h
  · next hnone =>
      intro _
      exact ⟨hnone, Fields.lookup_set_self ..⟩

theorem Single.won (h : Single rt jti exp r) (htime : InTime jti r (.redis socket task))
    (hcommand : r.command? socket task = some (.claim att)) (hjti : att.grantJti = jti)
    (hwon : (r.redis.perform r.now socket (.claim att)).2 = .flag true) : r.claims jti = 0 := by
  by_contra hne
  obtain ⟨claim, hlookup, hexp⟩ := h.held hne
  obtain ⟨c, hc, hwaits⟩ := command?_of_some hcommand
  have hmem := List.mem_of_getElem? hc
  have hatt := ((InOrder.command (h.inOrder c hmem) hwaits).2.ofGrant (h.genuine c hmem) hjti).2
  have hlives : r.now ≤ att.exp := htime att (by rw [hcommand]; rfl) hjti hne
  have hnone := (claim_granted hwon).1
  rw [hatt, ← hexp] at hlives
  rw [hjti] at hnone
  simp only [Redis.claim?, hlookup, Option.filter_some, hlives, decide_true, if_true] at hnone
  cases hnone

theorem perform_ne_claims (redis : Redis) (now : Rat) (socket : Nat) (command : RedisCommand)
    (claims : Frame) : (redis.perform now socket command).2 ≠ .claims claims := by
  cases command <;> simp [Redis.perform]

/-- Redis has carried out a command and answers it. -/
theorem Single.answer {command : RedisCommand} (h : Single rt jti exp r)
    (htime : InTime jti r (.redis socket task)) (hcommand : r.command? socket task = some command)
    {redis : Redis} {value : Value}
    (hperform : r.redis.perform r.now socket command = (redis, value))
    (hinOrder : ({ r with redis }.move rt socket (.serve task (.ok value))).InOrder rt) :
    Single rt jti exp ({ r with redis }.move rt socket (.serve task (.ok value))) := by
  have hredis : redis = (r.redis.perform r.now socket command).1 := by rw [hperform]
  have hvalue : value = (r.redis.perform r.now socket command).2 := by rw [hperform]
  have hperformed : Single rt jti exp { r with redis } :=
    ⟨h.inOrder, h.genuine, h.once, fun hne => hredis ▸ perform_held h hcommand (h.held hne)⟩
  have hverified (c : SocketTasks) (entry : String × Frame)
      (hentry : entry ∈ ((machine rt).step c (.serve task (.ok value))).state.history.verified) :
      entry ∈ c.state.history.verified ∨ OfGrant jti exp entry.2 := by
    rcases serve_verified hentry with hold | heq
    · exact .inl hold
    · exact (perform_ne_claims _ _ _ _ _ (hvalue.symm.trans (Except.ok.inj heq))).elim
  obtain ⟨c, hc, hwaits⟩ := command?_of_some hcommand
  by_cases hwon : ∃ att, command = .claim att ∧ att.grantJti = jti ∧ value = .flag true
  · obtain ⟨att, rfl, hjti, rfl⟩ := hwon
    have hnobody := h.won htime hcommand hjti hvalue.symm
    refine ⟨hinOrder, hperformed.genuine_move hverified, ?_, fun _ => ?_⟩
    · have hmove : ({ r with redis }.move rt socket (.serve task (.ok (.flag true)))).claims jti +
            c.state.history.claims jti = r.claims jti + ((machine rt).step c
              (.serve task (.ok (.flag true)))).state.history.claims jti :=
        claims_move (r := { r with redis }) hc
      have hle : ((machine rt).step c
          (.serve task (.ok (.flag true)))).state.history.claims jti ≤
            c.state.history.claims jti + 1 := serve_claims_le
      omega
    · have hmem := List.mem_of_getElem? hc
      have hvouched := (InOrder.command (h.inOrder c hmem) hwaits).2
      refine ⟨⟨socket, att⟩, ?_, (hvouched.ofGrant (h.genuine c hmem) hjti).2⟩
      have hkey := (claim_granted hvalue.symm).2
      rwa [← hredis, hjti] at hkey
  · apply hperformed.move hinOrder hverified
    intro other hother
    apply serve_claims
    intro att hatt heq hjti
    have hsame : other = c := Option.some.inj (hother.symm.trans hc)
    rw [hsame, hwaits] at hatt
    exact hwon ⟨att, Option.some.inj hatt, hjti, Except.ok.inj heq⟩

/-- The step lemma. -/
theorem step_single {event : RelayEvent} (h : Single rt jti exp r)
    (hgenuine : Genuine jti exp event) (htime : InTime jti r event) :
    Single rt jti exp (r.step rt event) := by
  have hinOrder := Relays.step_inOrder event h.inOrder
  cases event with
  | connect deviceId =>
      have hclaims : (r.step rt (.connect deviceId)).claims jti = r.claims jti := by
        simp [Relays.step, Relays.claims, History.claims]
      refine ⟨hinOrder, ?_, hclaims ▸ h.once, fun hne => h.held (hclaims ▸ hne)⟩
      intro c hc entry hentry
      rcases List.mem_append.mp hc with hold | hnew
      · exact h.genuine c hold entry hentry
      · rw [List.mem_singleton.mp hnew] at hentry
        cases hentry
  | tick tick =>
      have hclaims : (r.step rt (.tick tick)).claims jti = r.claims jti := by
        simp only [Relays.step, Relays.claims, List.map_map]
        rfl
      refine ⟨hinOrder, ?_, hclaims ▸ h.once, fun hne => h.held (hclaims ▸ hne)⟩
      intro c hc entry hentry
      obtain ⟨before, hbefore, rfl⟩ := List.mem_map.mp hc
      exact h.genuine before hbefore entry hentry
  | resume socket task =>
      have hsame (c : SocketTasks) := admitted_onlyServed.resume (M := machine rt) c task
      apply h.move hinOrder
      · intro c entry hentry
        have hverified : _ = c.state.history.verified := congrArg Prod.fst (hsame c)
        exact .inl (hverified ▸ hentry)
      · exact fun c _ => claims_of_admitted (hsame c)
  | serve socket task reply =>
      simp only [Relays.step] at hinOrder ⊢
      split at hinOrder
      · exact h
      · next hnot =>
          apply h.move hinOrder
          · intro c entry hentry
            rcases serve_verified hentry with hold | rfl
            · exact .inl hold
            · exact .inr hgenuine
          · intro c hc
            apply serve_claims
            rintro att hatt rfl
            exact (hnot _ _ (by simpa [Relays.command?, hc] using hatt) rfl).elim
  | redis socket task =>
      simp only [Relays.step] at hinOrder ⊢
      split at hinOrder
      · exact h
      · next command hcommand =>
          exact h.answer htime hcommand rfl hinOrder
  | lose socket task =>
      simp only [Relays.step] at hinOrder ⊢
      split at hinOrder
      · exact h
      · next command hcommand =>
          exact ⟨h.inOrder, h.genuine, h.once, fun hne => perform_held h hcommand (h.held hne)⟩

/-- In every run in which no claim of a create grant comes after its key has lapsed, at most
one create is forwarded under it. -/
theorem creates_le_one {events : List RelayEvent}
    (h : Runs.Meets (Relays.step rt)
      (fun r event => Genuine jti exp event ∧ InTime jti r event) {} events) :
    (Relays.after rt events).creates jti ≤ 1 := by
  have hstart : Single rt jti exp {} :=
    ⟨by simp [Relays.InOrder], by simp, by simp [Relays.claims], by simp [Relays.claims]⟩
  have hend := Runs.invariant_of_meets (Relays.step rt) (Single rt jti exp)
    (fun _ _ h hmay => step_single h hmay.1 hmay.2) hstart h
  exact (creates_le_claims hend.inOrder).trans hend.once

/-! ### A grant that expires within a second -/

/-- A create grant that expires half a second after second 1000. -/
def presentedGrant : Frame :=
  [("sub_type", .str "create_grant"),
    ("device_id", .str "00000000-0000-0000-0000-000000000001"), ("exp", .num (2001 / 2)),
    ("jti", .str "grant"),
    ("create", .obj [("target_device_id", .str "00000000-0000-0000-0000-000000000002")])]

/-- A source presents the grant on a socket, and its create is forwarded. -/
def presentation (socket : Nat) : List RelayEvent :=
  [.resume socket 0,
    .serve socket 0 (.ok (.frame [("type", .str "remote_terminal_create"),
      ("grant", .str "token")])),
    .resume socket 0, .serve socket 0 (.ok (.claims presentedGrant)),
    -- the claim, and the two commands of the grant's record
    .resume socket 0, .redis socket 0,
    .resume socket 0, .redis socket 0,
    .resume socket 0, .redis socket 0,
    -- the listener's subscription, and the create
    .resume socket 0, .serve socket 0 (.ok .unit),
    .resume socket 0, .serve socket 0 (.ok (.flag true)),
    .resume socket 0, .serve socket 0 (.ok (.flag true))]

/-- A source connects twice and presents the grant on both sockets, at one time. -/
def presentedTwice (wall : NNRat) : List RelayEvent :=
  [.connect "00000000-0000-0000-0000-000000000001",
    .connect "00000000-0000-0000-0000-000000000001", .tick ⟨wall, 0⟩] ++
    presentation 0 ++ presentation 1

theorem creates_le_one_before_expiry :
    (Relays.after plainRuntime (presentedTwice 900)).creates "grant" ≤ 1 := by
  have hmeets : Runs.Meets (Relays.step plainRuntime)
      (fun r event => Genuine "grant" (2001 / 2) event ∧ InTime "grant" r event) {}
      (presentedTwice 900) := by decide +kernel
  exact creates_le_one hmeets

/-- At second 1000.2 the grant has not expired but its key has, and both are forwarded. -/
theorem creates_twice_within_last_second :
    ¬ ∀ (rt : Runtime) (jti : String) (exp : Rat) (events : List RelayEvent),
      Runs.Meets (Relays.step rt) (fun _ event => Genuine jti exp event) {} events →
        (Relays.after rt events).creates jti ≤ 1 := by
  intro h
  have htwice : (Relays.after plainRuntime (presentedTwice (5001 / 5))).creates "grant" = 2 := by
    decide +kernel
  have hle := h plainRuntime "grant" (2001 / 2) (presentedTwice (5001 / 5)) (by decide +kernel)
  omega

/-! ### What the shared keys say -/

section Registry

variable {rt : Runtime} {r : Relays} {event : RelayEvent} {socket task : Nat}

theorem grows_kept (s : Socket) : (machine rt).Keeps fun s' => Grows s s' where
  apply task op s' h := by
    refine h.trans ?_
    cases op with
    | create | mint =>
        exact Grows.of_history rfl (by simp [machine, Socket.apply])
          (by simp [machine, Socket.apply]) rfl
    | putGrant jti att => exact { Grows.refl s' with registered := List.subset_cons_self _ _ }
    | putPending table rid entry =>
        simp only [machine, Socket.apply, Socket.record]
        split
        · exact { Grows.refl s' with mintedFor := List.subset_cons_self _ _ }
        · exact { Grows.refl s' with }
    | drop att => exact { Grows.refl s' with dropped := List.subset_cons_self _ _ }
    | _ => exact { Grows.refl s' with }
  uncancel task s' h := h.trans { Grows.refl s' with }
  finish task s' h := h.trans { Grows.refl s' with }
  served task a reply s' h := by
    refine h.trans ?_
    simp only [machine]
    unfold served
    split
    · exact { Grows.refl s' with verified := List.subset_cons_self _ _ }
    · exact { Grows.refl s' with heard := List.subset_cons_self _ _ }
    case h_6 att =>
      refine { Grows.refl s' with claimed := List.subset_cons_self _ _, claims := ?_ }
      intro jti
      simp only [Socket.record, History.claims, List.countP_cons]
      omega
    case h_7 => exact { Grows.refl s' with bound := List.subset_cons_self _ _ }
    all_goals exact { Grows.refl s' with }
  outside tick s' h := h.trans { Grows.refl s' with }

/-- A socket stays where it is, and its history grows. -/
theorem step_grows {c : SocketTasks} (hc : r.sockets[socket]? = some c) :
    ∃ c', (r.step rt event).sockets[socket]? = some c' ∧ Grows c.state c'.state := by
  have hkept : (machine rt).Keeps fun s => Grows c.state s := grows_kept c.state
  have hmove {r' : Relays} (hr' : r'.sockets = r.sockets) (i : Nat) (event : SocketEvent) :
      ∃ c', (r'.move rt i event).sockets[socket]? = some c' ∧ Grows c.state c'.state := by
    simp only [Relays.move, List.getElem?_modify, hr', hc, Option.map_eq_map, Option.map_some]
    split
    · exact ⟨_, rfl, hkept.step c event (Grows.refl _)⟩
    · exact ⟨_, rfl, Grows.refl _⟩
  cases event with
  | connect deviceId =>
      obtain ⟨hlt, -⟩ := List.getElem?_eq_some_iff.mp hc
      exact ⟨c, (List.getElem?_append_left hlt).trans hc, Grows.refl _⟩
  | tick tick =>
      refine ⟨(machine rt).step c (.outside tick), ?_, hkept.step c _ (Grows.refl _)⟩
      simp only [Relays.step, List.getElem?_map, hc, Option.map_some]
  | resume i task => exact hmove rfl i _
  | serve i task reply =>
      simp only [Relays.step]
      split
      · exact ⟨c, hc, Grows.refl _⟩
      · exact hmove rfl i _
  | redis i task | lose i task =>
      simp only [Relays.step]
      split
      · exact ⟨c, hc, Grows.refl _⟩
      · first
        | exact hmove rfl i _
        | exact ⟨c, hc, Grows.refl _⟩

/-- The socket vouches for the grant of the key that it has written. -/
def Relays.VouchedBy (r : Relays) (socket : Nat) (att : Attachment) : Prop :=
  ∃ c, r.sockets[socket]? = some c ∧ Vouched c.state att

/-- On the socket, the target has named the terminal under the grant. -/
def Relays.NamedOn (r : Relays) (socket : Nat) (att : Attachment) (terminal : String) : Prop :=
  ∃ c, r.sockets[socket]? = some c ∧ Vouched c.state att ∧ Named c.state att terminal

/-- Every key the relays share is of a grant that was verified on the socket it names, and
a terminal's key of a terminal that the target itself has named there under the grant. -/
structure Relays.Backed (r : Relays) : Prop where
  claims : ∀ entry ∈ r.redis.claims,
    entry.1 = entry.2.att.grantJti ∧ r.VouchedBy entry.2.socket entry.2.att
  terminals : ∀ entry ∈ r.redis.terminals, ∃ terminal,
    entry.1 = Redis.terminalKey entry.2.att terminal ∧
      r.NamedOn entry.2.socket entry.2.att terminal

theorem Relays.Backed.grows {r' : Relays} (h : r.Backed) (hredis : r'.redis = r.redis)
    (hsockets : ∀ {socket : Nat} {c : SocketTasks}, r.sockets[socket]? = some c →
      ∃ c', r'.sockets[socket]? = some c' ∧ Grows c.state c'.state) : r'.Backed where
  claims entry hentry := by
    obtain ⟨hjti, c, hc, hvouched⟩ := h.claims entry (hredis ▸ hentry)
    obtain ⟨c', hc', hgrows⟩ := hsockets hc
    exact ⟨hjti, c', hc', hvouched.grows hgrows⟩
  terminals entry hentry := by
    obtain ⟨terminal, hkey, c, hc, hvouched, hnamed⟩ := h.terminals entry (hredis ▸ hentry)
    obtain ⟨c', hc', hgrows⟩ := hsockets hc
    exact ⟨terminal, hkey, c', hc', hvouched.grows hgrows, hnamed.grows hgrows⟩

theorem perform_backed {command : RedisCommand} (now : Rat) (horder : r.InOrder rt) (h : r.Backed)
    (hcommand : r.command? socket task = some command) :
    Relays.Backed { r with redis := (r.redis.perform now socket command).1 } := by
  obtain ⟨c, hc, hwaits⟩ := command?_of_some hcommand
  have hin := horder c (List.mem_of_getElem? hc)
  have hwants := InOrder.command hin hwaits
  cases command with
  | claim att =>
      simp only [Redis.perform, Redis.claimGrant]
      split
      · exact h
      · refine { h with claims := fun entry hentry => ?_ }
        rcases Fields.mem_of_mem_set hentry with hold | rfl
        · exact h.claims entry hold
        · exact ⟨rfl, c, hc, hwants.2⟩
  | bindTerminal att terminal =>
      have hbound : Relays.Backed { r with redis := { r.redis with
          terminals := Fields.set (Redis.terminalKey att terminal) ⟨socket, att⟩
            r.redis.terminals } } := by
        refine { h with terminals := fun entry hentry => ?_ }
        rcases Fields.mem_of_mem_set hentry with hold | rfl
        · exact h.terminals entry hold
        · have hvouched := (hin.inv.claimed att (hin.inv.registered att hwants.1)).2
          exact ⟨terminal, rfl, c, hc, hvouched, hwants.2⟩
      simp only [Redis.perform, Redis.bindTerminal]
      split
      · split
        · exact hbound
        · exact h
      · exact hbound
  | deleteRows att =>
      simp only [Redis.perform, Redis.deleteRows]
      split
      · exact h
      · exact { h with
          claims := fun entry hentry => h.claims entry (List.mem_of_mem_filter hentry) }
  | releaseTerminal att terminal =>
      simp only [Redis.perform, Redis.releaseTerminal]
      split
      · split
        · exact { h with
            terminals := fun entry hentry => h.terminals entry (List.mem_of_mem_filter hentry) }
        · exact h
      · exact h
  | writeRecord | expireRecord | recordTerminal => exact h

theorem step_backed (horder : r.InOrder rt) (h : r.Backed) : (r.step rt event).Backed := by
  have hgrows {socket : Nat} {c : SocketTasks} (hc : r.sockets[socket]? = some c) :
      ∃ c', (r.step rt event).sockets[socket]? = some c' ∧ Grows c.state c'.state := step_grows hc
  cases event with
  | connect deviceId => exact h.grows rfl hgrows
  | tick tick => exact h.grows rfl hgrows
  | resume socket task => exact h.grows rfl hgrows
  | serve socket task reply =>
      refine h.grows ?_ hgrows
      simp only [Relays.step]
      split
      · rfl
      · rfl
  | redis socket task =>
      cases hcommand : r.command? socket task with
      | none =>
          simp only [Relays.step, hcommand]
          exact h
      | some command =>
          refine (perform_backed r.now horder h hcommand).grows ?_ hgrows
          simp only [Relays.step, hcommand]
          rfl
  | lose socket task =>
      simp only [Relays.step]
      split
      · exact h
      · next command hcommand => exact perform_backed r.now horder h hcommand

theorem after_backed (events : List RelayEvent) : (Relays.after rt events).Backed := by
  have hrun := Runs.invariant_of_step (Relays.step rt) (fun r => r.InOrder rt ∧ r.Backed)
    (fun _ event h => ⟨Relays.step_inOrder event h.1, step_backed h.1 h.2⟩) {} events
    ⟨by simp [Relays.InOrder], ⟨by simp, by simp⟩⟩
  exact hrun.2

end Registry

end Qontinui.Relay
