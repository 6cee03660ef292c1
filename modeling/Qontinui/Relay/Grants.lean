import Qontinui.Relay.Teardown

/-!
Grant authorization: what a capability token is checked for, what an attach
grant says about its target, and the admission of a frame under a grant that is
registered on the socket.
-/

namespace Qontinui.Relay

variable (rt : Runtime)

/-- What the attach and the create door pass to `_verify_grant`. -/
structure GrantDoor where
  subType : String
  kindNoun : String
  codeInvalid : String
  codeExpired : String
  codeWrongSource : String

def attachDoor : GrantDoor :=
  ⟨attachGrantSubType, "an attach grant", codeGrantInvalid, codeGrantExpired,
    codeGrantWrongSource⟩

def createDoor : GrantDoor :=
  ⟨createGrantSubType, "a create grant", codeCreateGrantInvalid, codeCreateGrantExpired,
    codeCreateGrantWrongSource⟩

structure VerifiedGrant where
  claims : Frame
  jti : String
  socketSource : String
  exp : Int

/-- The number an `int | float` claim holds; `True` and `False` are numbers. -/
def numberOf : Json → Option Rat
  | .num n => some n
  | .bool b => some (if b then 1 else 0)
  | _ => none

/-- `int(x)`: towards zero. -/
def truncate (q : Rat) : Int := q.num.tdiv q.den

/-- The checks on verified claims, in order; the refusal is a code and a message. -/
def checkClaims (door : GrantDoor) (s : Socket) (claims : Frame) :
    Except (String × String) VerifiedGrant :=
  if claims.get "sub_type" ≠ .str door.subType then
    .error (door.codeInvalid, "token is not " ++ door.kindNoun)
  else
    match uuidOf (claims.get "device_id"), parseUuid s.deviceId with
    | some grantSource, some socketSource =>
        if grantSource ≠ socketSource then
          .error (door.codeWrongSource, "grant was minted for a different source device")
        else
          match numberOf (claims.get "exp") with
          | none => .error (door.codeExpired, "grant expired")
          | some exp =>
              if exp ≤ s.now then .error (door.codeExpired, "grant expired")
              else
                match claims.get "jti" with
                | .str jti =>
                    if jti = "" then .error (door.codeInvalid, "grant missing jti")
                    else .ok ⟨claims, jti, socketSource, truncate exp⟩
                | _ => .error (door.codeInvalid, "grant missing jti")
    | _, _ => .error (door.codeInvalid, "grant device_id malformed")

/-- `_verify_grant`. -/
def verifyGrant (msg : Frame) (door : GrantDoor) : Async (Option VerifiedGrant) := do
  let deny (code message : String) : Async (Option VerifiedGrant) := do
    refuse code message (msg.get "request_id") none .null
    pure none
  match msg.get "grant" with
  | .str grant =>
      if grant = "" then deny door.codeInvalid "grant missing"
      else
        match ← Coro.await (.verifyToken grant) with
        | .rejected .expired text => deny door.codeExpired text
        | .rejected .invalid text => deny door.codeInvalid text
        | .rejected .unavailable _ =>
            deny codeVerifierUnavailable "grant verifier temporarily unavailable"
        | .claims claims =>
            let s ← see
            match checkClaims door s claims with
            | .error (code, message) => deny code message
            | .ok verified => pure (some verified)
        | _ => pure none
  | _ => deny door.codeInvalid "grant missing"

structure AttachTarget where
  targetDeviceId : String
  targetSessionId : String
  requestedTerminalId : Option String

def attachClaims (claims : Frame) : Except (String × String) AttachTarget :=
  match claims.get "attach" with
  | .obj attach =>
      match uuidOf (Frame.get attach "target_device_id"),
          uuidOf (Frame.get attach "target_session_id") with
      | some device, some session =>
          .ok ⟨device, session, textOf? (Frame.get attach "terminal_id")⟩
      | _, _ => .error (codeGrantInvalid, "grant attach target malformed")
  | _ => .error (codeGrantInvalid, "grant missing attach claims")

/-- `_attach_target`. -/
def attachTarget (claims : Frame) (requestId : Json) : Async (Option AttachTarget) := do
  match attachClaims claims with
  | .error (code, message) =>
      refuse code message requestId none .null
      pure none
  | .ok target => pure (some target)

/-- What the attach, create and end doors do with a new attachment, each written out in
the source: claim the grant, record it, register it and what its reply correlates to,
and listen to the target. False when it was refused. -/
def admitGrant (att : Attachment) (correlate : Async Unit) (requestId : Json)
    (codeConsumed messageConsumed : String) : Async Bool := do
  match ← Coro.attempt (claimGrant att) with
  | .ok true =>
      let registered ← Coro.attempt do
        writeGrantRecord att
        perform (.putGrant att.grantJti att)
        correlate
        ensureListener att.targetDeviceId
      match registered with
      | .ok _ => pure true
      | .error .raised =>
          dropAttachment att
          refuse codeRegistryUnavailable "attachment registry temporarily unavailable"
            requestId att.grantJti .null
          pure false
      | .error .cancelled => Coro.done (.error .cancelled)
  | .ok false =>
      refuse codeConsumed messageConsumed requestId att.grantJti .null
      pure false
  | .error .raised =>
      refuse codeRegistryUnavailable "attachment registry temporarily unavailable"
        requestId att.grantJti .null
      pure false
  | .error .cancelled => Coro.done (.error .cancelled)

/-- What a door lets through: `_authorize`'s keyword arguments. -/
structure Admission where
  requireBound : Bool := true
  requireAttachKind : Bool := true
  settleWaiter : Bool := true

/-- The error that tells a waiting attach or create that its grant has lapsed. -/
def lapsedNotice (att : Attachment) : Frame :=
  [("type", .str "remote_terminal_error"), ("grant_jti", .str att.grantJti),
    ("code", .str att.expiredCode), ("message", .str "grant expired"),
    ("request_id", optional att.requestId)]

/-- `_authorize`: admit a frame only for a registered, live grant; by default one that the
target has bound to the terminal the frame names. -/
def authorize (msg : Frame) (door : Admission) : Async (Option Attachment) := do
  let requestId := msg.get "request_id"
  let terminalId := msg.get "terminal_id"
  let grantJti := textOf? (msg.get "grant_jti")
  let s ← see
  match grantJti.bind (s.grants.lookup ·) with
  | none =>
      refuse codeNotRegistered "no attachment registered for this grant on this socket"
        requestId grantJti terminalId
      pure none
  | some att =>
      let deny (code message : String) : Async (Option Attachment) := do
        refuse code message requestId att.grantJti terminalId
        pure none
      if att.endOnly then
        deny codeEndPending "an end for this grant is still awaiting the target's answer"
      else if att.expired s.now then
        -- claimed out of the grants before the first await, as `evict` does
        perform (.popGrant att.grantJti)
        if door.settleWaiter ∧ (s.marks att.id).attached = false ∧ att.requestId ≠ none ∧
            optional att.requestId ≠ requestId then
          sendToSource (lapsedNotice att)
        else pure ()
        let s ← see
        detachTarget rt att (s.marks att.id).terminalId
        dropAttachment att
        deny att.expiredCode "grant expired"
      else if door.requireAttachKind ∧ att.kind ≠ .attach then
        deny codeGrantWrongKind
          ("a create grant does not attach to a terminal — mint an attach " ++
            "grant for the session it created")
      else if door.requireBound = false ∧ (s.marks att.id).attached = false then
        pure (some att)
      else if (s.marks att.id).attached = false then
        deny codeNotRegistered "target has not attached a terminal for this grant yet"
      else if optional (s.marks att.id).terminalId ≠ terminalId then
        deny codeNotRegistered "terminal_id does not match the attached terminal"
      else pure (some att)

end Qontinui.Relay
