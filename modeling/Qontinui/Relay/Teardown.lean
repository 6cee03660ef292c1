import Qontinui.Relay.State

/-!
Sending on the source socket and towards a target, and starting and stopping the
listener of a target. What runs inside a listener is in `Qontinui.Relay.Loops`.

The Redis registry of the relay: the single-use claim of a grant and the route
of a terminal, the commands on them, and the programs that issue the commands
for one attachment. The per-grant record is written and deleted but never read;
of its commands only that they can fail is kept.

How an attachment goes: dropped by whoever ends it, evicted when the source did
not ask for it, reaped when its grant has expired.
-/

namespace Qontinui.Relay

section Listening

section Sending

variable (rt : Runtime)

/-- `_send_to_source`. Waiting for the send lock is part of the wait; a source that is gone
is no failure. -/
def sendToSource (payload : Frame) : Async Unit := awaitUnit (.sendToSource payload)

/-- `if value is not None: payload[key] = value`. -/
def ifPresent (key : String) (value : Json) : Frame :=
  if value = .null then [] else [(key, value)]

/-- `if isinstance(value, str): payload[key] = value`. -/
def ifText (key : String) (value : Json) : Frame :=
  match value with
  | .str text => [(key, .str text)]
  | _ => []

def refusal (code message : String) (requestId : Json) (grantJti : Option String)
    (terminalId : Json) : Frame :=
  [("type", .str "error"), ("code", .str code), ("message", .str message)] ++
    ifPresent "request_id" requestId ++ ifPresent "grant_jti" (optional grantJti) ++
    ifText "terminal_id" terminalId

/-- `_refuse`. -/
def refuse (code message : String) (requestId : Json) (grantJti : Option String)
    (terminalId : Json) : Async Unit :=
  sendToSource (refusal code message requestId grantJti terminalId)

/-- `utc_now().isoformat()`. -/
def timestamp (s : Socket) : Json := .str (rt.isoformat s.now)

def sendTerminal (target : String) (frame : Frame) : Async Bool :=
  awaitFlag (.sendTerminal target frame)

/-- The frame `_forward` sends: the keys the relay owns win over `extra`. -/
def forwarded (s : Socket) (att : Attachment) (targetType : String) (extra : Frame) : Frame :=
  extra.override
    [("type", .str targetType), ("terminal_id", optional (s.marks att.id).terminalId),
      ("remote", .obj att.remoteBlock), ("timestamp", timestamp rt s)]

/-- `_forward`: one frame to the target of an authorized attachment. -/
def forward (msg : Frame) (att : Attachment) (targetType : String) (extra : Frame) :
    Async Bool := do
  let s ← see
  let sent ← sendTerminal att.targetDeviceId (forwarded rt s att targetType extra)
  if sent then pure true
  else
    let s ← see
    refuse codeTargetNotConnected "target device is not connected" (msg.get "request_id")
      att.grantJti (optional (s.marks att.id).terminalId)
    pure false

/-- `_detach_target`: tell the target to unbind the grant, if it was ever asked to bind it. -/
def detachTarget (att : Attachment) (terminalId : Option String) : Async Unit := do
  if att.kind ≠ .attach ∨ att.endOnly then pure ()
  else
    let s ← see
    Coro.rescue
      (do
        let _ ← sendTerminal att.targetDeviceId
          [("type", .str "terminal_detach"), ("terminal_id", optional terminalId),
            ("remote", .obj att.remoteBlock), ("timestamp", timestamp rt s)]
        pure ())
      (pure ())

end Sending

/-- `_close_pubsub`: both halves are best effort. -/
def closePubsub (target : String) : Async Unit := do
  Coro.rescue (awaitUnit (.closePubsub target)) (pure ())
  Coro.rescue (awaitUnit (.closePubsub target)) (pure ())

/-- `_unsubscribe_runner`: only what this socket subscribed. -/
def unsubscribeRunner (target : String) : Async Unit := do
  let s ← see
  if target ∈ s.subscribed then
    perform (.discardSubscribed target)
    Coro.rescue
      (do
        let _ ← awaitFlag (.sendCommand target false)
        pure ())
      (pure ())
  else pure ()

/-- `_ensure_listener`. -/
def ensureListener (target : String) : Async Unit := do
  let s ← see
  if (s.listeners.lookup target).isSome then pure ()
  else
    let opened ← Coro.attempt (awaitUnit (.openPubsub target))
    match opened with
    | .error .raised =>
        closePubsub target
        Coro.done (.error .raised)
    | .error .cancelled => Coro.done (.error .cancelled)
    | .ok _ =>
        let task ← spawn (.listener target)
        perform (.putListener target task)
        Coro.rescue
          (do
            let published ← awaitFlag (.sendCommand target true)
            if published then
              let s ← see
              if (s.listeners.lookup target).isSome then perform (.addSubscribed target)
              else
                -- the listener went while the subscribe was in flight
                perform (.addSubscribed target)
                unsubscribeRunner target
            else pure ())
          (pure ())

/-- `asyncio.gather(task, return_exceptions=True)`: a cancellation reaches the task too. -/
def gather (task : Nat) : Async Unit := do
  match ← Coro.attempt (awaitUnit (.gather task)) with
  | .error .cancelled =>
      perform (.cancel task)
      Coro.done (.error .cancelled)
  | result => Coro.done result

/-- `_finish_listener`. -/
def finishListener (target : String) (listener : Nat) : Async Unit := do
  perform (.cancel listener)
  gather listener
  closePubsub target
  unsubscribeRunner target

/-- `_stop_listener`: from inside the listener itself, a sibling task finishes it. -/
def stopListener (target : String) : Async Unit := do
  match ← popListener target with
  | none => pure ()
  | some listener =>
      let self ← currentTask
      if listener = self then
        let _ ← spawn (.finishListener target listener)
        pure ()
      else finishListener target listener

end Listening

section Registry

/-- A claim key: the source in its value, and the attachment whose `SET NX` made it. -/
structure Claim where
  socket : Nat
  att : Attachment
deriving DecidableEq

/-- A terminal key, and the attachment that bound it last. -/
structure Route where
  socket : Nat
  att : Attachment
deriving DecidableEq

/-- The keys the relays of all replicas share. Target devices are UUIDs, so no two of the
key forms meet. -/
structure Redis where
  claims : List (String × Claim) := []
  terminals : List ((String × String) × Route) := []

namespace Redis

def claim? (redis : Redis) (now : Rat) (jti : String) : Option Claim :=
  (redis.claims.lookup jti).filter fun claim => now ≤ claim.att.exp

def route? (redis : Redis) (now : Rat) (key : String × String) : Option Route :=
  (redis.terminals.lookup key).filter fun route => now ≤ route.att.exp

/-- `terminal_key(target, terminal)`. -/
def terminalKey (att : Attachment) (terminal : String) : String × String :=
  (att.targetDeviceId, terminal)

/-- `SET claim NX EXAT`. -/
def claimGrant (redis : Redis) (now : Rat) (socket : Nat) (att : Attachment) : Redis × Bool :=
  match redis.claim? now att.grantJti with
  | some _ => (redis, false)
  | none => ({ redis with claims := Fields.set att.grantJti ⟨socket, att⟩ redis.claims }, true)

/-- `BIND_TERMINAL_SCRIPT`: refused while another grant holds the key. -/
def bindTerminal (redis : Redis) (now : Rat) (socket : Nat) (att : Attachment)
    (terminal : String) : Redis × Bool :=
  let bound :=
    { redis with
      terminals := Fields.set (terminalKey att terminal) ⟨socket, att⟩ redis.terminals }
  match redis.route? now (terminalKey att terminal) with
  | some route => if route.att.grantJti = att.grantJti then (bound, true) else (redis, false)
  | none => (bound, true)

/-- `DEL claim grant`; a create's claim key stays until it expires. -/
def deleteRows (redis : Redis) (att : Attachment) : Redis :=
  match att.kind with
  | .create => redis
  | .attach => { redis with claims := Fields.erase att.grantJti redis.claims }

/-- `RELEASE_TERMINAL_SCRIPT`: the key goes only while this grant holds it. -/
def releaseTerminal (redis : Redis) (now : Rat) (att : Attachment) (terminal : String) : Redis :=
  match redis.route? now (terminalKey att terminal) with
  | some route =>
      if route.att.grantJti = att.grantJti then
        { redis with terminals := Fields.erase (terminalKey att terminal) redis.terminals }
      else redis
  | none => redis

def perform (now : Rat) (socket : Nat) : RedisCommand → Redis → Redis × Value
  | .claim att, redis =>
      let (redis', ok) := redis.claimGrant now socket att
      (redis', .flag ok)
  | .bindTerminal att terminal, redis =>
      let (redis', bound) := redis.bindTerminal now socket att terminal
      (redis', .flag bound)
  | .deleteRows att, redis => (redis.deleteRows att, .unit)
  | .releaseTerminal att terminal, redis => (redis.releaseTerminal now att terminal, .unit)
  | .writeRecord _, redis | .expireRecord _, redis | .recordTerminal _ _, redis => (redis, .unit)

end Redis

/-! ### Programs -/

/-- `_claim_grant`. -/
def claimGrant (att : Attachment) : Async Bool := awaitFlag (.redis (.claim att))

/-- `_write_grant_record`. -/
def writeGrantRecord (att : Attachment) : Async Unit := do
  awaitUnit (.redis (.writeRecord att))
  awaitUnit (.redis (.expireRecord att))

/-- `_bind_terminal`: claim the terminal for the grant; false when it is busy. -/
def bindTerminal (att : Attachment) (terminal : String) : Async Bool := do
  let bound ← awaitFlag (.redis (.bindTerminal att terminal))
  if bound then
    perform (.bind att terminal)
    awaitUnit (.redis (.recordTerminal att terminal))
    pure true
  else pure false

/-- `_release_registry`. -/
def releaseRegistry (att : Attachment) : Async Unit := do
  awaitUnit (.redis (.deleteRows att))
  let s ← see
  match (s.marks att.id).terminalId with
  | none => pure ()
  | some terminal => awaitUnit (.redis (.releaseTerminal att terminal))

end Registry

variable (rt : Runtime)

/-- `_cancel_end_timer`, for a wire id that is a string. -/
def cancelEndTimer (rid : String) : Async Unit := do
  match ← popTimer rid with
  | none => pure ()
  | some timer =>
      let self ← currentTask
      if timer = self then pure () else perform (.cancel timer)

/-- `_maybe_stop_listener`: a grant on the target or an end in flight to it still needs it. -/
def maybeStopListener (target : String) : Async Unit := do
  let s ← see
  if target ∈ s.targets then pure ()
  else if s.pendingEnd.any (fun entry => entry.2.targetDeviceId == target) then pure ()
  else stopListener target

def endsOf (jti : String) (s : Socket) : List String :=
  (s.pendingEnd.filter fun entry => entry.2.grantJti == jti).map (·.1)

/-- `_drop_attachment`. Releasing the keys goes on even if the caller is cancelled. -/
def dropAttachment (att : Attachment) : Async Unit := do
  perform (.drop att)
  if att.endOnly then
    let s ← see
    Coro.forEach
      (fun rid => do
        let _ ← popEnd rid
        cancelEndTimer rid)
      (endsOf att.grantJti s)
  else pure ()
  let release ← spawn (.releaseRegistry att)
  Coro.rescue (awaitUnit (.shield release)) (pure ())
  maybeStopListener att.targetDeviceId

/-- The notice an eviction sends; it answers the attach while that is still unanswered. -/
def evictionNotice (att : Attachment) (marks : Marks) (code message : String) : Frame :=
  [("type", .str "remote_terminal_error"), ("grant_jti", .str att.grantJti),
      ("code", .str code), ("message", .str message)] ++
    (if marks.attached then [] else ifPresent "request_id" (optional att.requestId)) ++
    ifPresent "terminal_id" (optional marks.terminalId)

/-- `_evict`: the grant is taken out before the first await, so that of two concurrent
sweeps only one tells the ends. -/
def evict (att : Attachment) (code message : String) : Async Unit := do
  let s ← see
  if s.grants.lookup att.grantJti = some att then
    perform (.popGrant att.grantJti)
    sendToSource (evictionNotice att (s.marks att.id) code message)
    let s ← see
    detachTarget rt att (s.marks att.id).terminalId
    dropAttachment att
  else pure ()

/-- The attachments a sweep finds expired; a fresh-grant end in flight keeps its own. -/
def expiredGrants (s : Socket) (exceptJti : Option String) : List Attachment :=
  let ending := (s.pendingEnd.filter (·.2.endOnly)).map (·.2.grantJti)
  (s.grants.map (·.2)).filter fun att =>
    some att.grantJti ≠ exceptJti ∧ att.expired s.now ∧ ¬ (att.endOnly ∧ att.grantJti ∈ ending)

/-- `_reap_expired`. -/
def reapExpired (exceptJti : Option String) : Async Unit := do
  let s ← see
  Coro.forEach (fun att => evict rt att att.expiredCode "grant expired")
    (expiredGrants s exceptJti)

end Qontinui.Relay
