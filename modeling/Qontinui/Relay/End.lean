import Qontinui.Relay.Grants

/-!
The end protocol: a source's request to end a session is forwarded as
`terminal_end`, and a reply, a refusal, its timer, the target's disconnect or a
lost listener settles it.
-/

namespace Qontinui.Relay

variable (rt : Runtime)

def pendingEndTtlSeconds : Rat := 75

def endErrorPayload (entry : PendingEnd) (code message : String) : Frame :=
  [("type", .str "remote_terminal_error"), ("grant_jti", .str entry.grantJti),
      ("code", .str code), ("message", .str message)] ++
    ifPresent "request_id" (optional entry.sourceRequestId) ++
    ifPresent "terminal_id" (optional entry.terminalId)

/-- `_release_end_only`: what a settled end held; never an open tab's attachment. -/
def releaseEndOnly (entry : PendingEnd) : Async Unit := do
  let s ← see
  match (if entry.endOnly then s.grants.lookup entry.grantJti else none).filter (·.endOnly) with
  | some att => dropAttachment att
  | none => maybeStopListener entry.targetDeviceId

/-- `_answer_end_and_release`: the release runs even where the answer cannot be sent. -/
def answerEndAndRelease (entry : PendingEnd) (payload : Frame) : Async Unit :=
  Coro.ensuring (sendToSource payload) (releaseEndOnly entry)

/-- `_settle_pending_ends_on_target`: how many ends were answered. -/
def settlePendingEndsOnTarget (target code message : String) :
    List (String × PendingEnd) → Async Nat
  | [] => pure 0
  | (rid, entry) :: rest => do
      if entry.targetDeviceId ≠ target then settlePendingEndsOnTarget target code message rest
      else
        match ← popEnd rid with
        | none => settlePendingEndsOnTarget target code message rest
        | some _ =>
            cancelEndTimer rid
            answerEndAndRelease entry (endErrorPayload entry code message)
            let settled ← settlePendingEndsOnTarget target code message rest
            pure (settled + 1)

/-- `_pop_pending_end`: the entry a target frame answers; put back for another device. -/
def popPendingEnd (wireRequestId : Json) (target : String) : Async (Option PendingEnd) := do
  match wireRequestId with
  | .str rid =>
      match ← popEnd rid with
      | none => pure none
      | some entry =>
          if entry.targetDeviceId ≠ target then
            perform (.putEnd rid entry)
            pure none
          else
            cancelEndTimer rid
            pure (some entry)
  | _ => pure none

/-- `_expire_pending_end`: the timer of one end. -/
def expirePendingEnd (minted : String) : Async Unit := do
  awaitUnit (.sleep pendingEndTtlSeconds)
  perform (.popTimer minted)
  match ← popEnd minted with
  | none => pure ()
  | some entry =>
      answerEndAndRelease entry
        (endErrorPayload entry codeEndTimeout
          "target did not answer the end request in time; its outcome is unknown")

def endFrame (s : Socket) (msg : Frame) (att : Attachment) (minted : String)
    (terminalId : Option String) : Frame :=
  [("type", .str "terminal_end"), ("request_id", .str minted),
      ("remote", .obj att.sessionRemoteBlock),
      ("force", .bool (msg.get "force" = .bool true)), ("timestamp", timestamp rt s)] ++
    ifPresent "terminal_id" (optional terminalId)

def endSnapshot (s : Socket) (msg : Frame) (att : Attachment) : PendingEnd where
  sourceRequestId := textOf? (msg.get "request_id")
  grantJti := att.grantJti
  targetDeviceId := att.targetDeviceId
  targetSessionId := att.targetSessionId
  terminalId := if (s.marks att.id).attached then (s.marks att.id).terminalId else none
  endOnly := att.endOnly

/-- `_forward_end`: send the end under a minted id and arm its timer; false if not sent. -/
def forwardEnd (msg : Frame) (att : Attachment) (terminalId : Option String) : Async Bool := do
  let s ← see
  if s.pendingEnd.any (fun entry => entry.2.grantJti == att.grantJti) then
    refuse codeEndPending "an end for this grant is still awaiting the target's answer"
      (msg.get "request_id") att.grantJti (optional (s.marks att.id).terminalId)
    pure false
  else
    let minted ← mint rt
    -- registered before it is sent: the reply can race back
    perform (.putEnd minted (endSnapshot s msg att))
    let sent ← Coro.rescue
      (sendTerminal att.targetDeviceId (endFrame rt s msg att minted terminalId)) (pure false)
    if sent then
      let s ← see
      if (s.pendingEnd.lookup minted).isSome then
        let timer ← spawn (.expirePendingEnd minted)
        perform (.putTimer minted timer)
        pure true
      else pure true
    else
      match ← popEnd minted with
      | none => pure false
      | some _ =>
          let s ← see
          refuse codeTargetNotConnected "target device is not connected" (msg.get "request_id")
            att.grantJti (optional (s.marks att.id).terminalId)
          pure false

/-- `_end_attached`: the open tab's path. -/
def endAttached (msg : Frame) : Async Unit := do
  let s ← see
  let held := (textOf? (msg.get "grant_jti")).bind (s.grants.lookup ·)
  match held.filter (·.endOnly) with
  | some att =>
      refuse codeEndPending "an end for this grant is still awaiting the target's answer"
        (msg.get "request_id") att.grantJti .null
  | none =>
      -- an omitted terminal means the one terminal a bound grant holds
      let authorizeMsg : Frame :=
        match held with
        | some att =>
            if (s.marks att.id).attached ∧ msg.get "terminal_id" = .null then
              msg.override [("terminal_id", optional (s.marks att.id).terminalId)]
            else msg
        | none => msg
      match ← authorize rt authorizeMsg {} with
      | none => pure ()
      | some att =>
          let s ← see
          let _ ← forwardEnd rt msg att (s.marks att.id).terminalId
          pure ()

/-- `_end_with_fresh_grant`: verify, claim, listen, forward, and always drop. -/
def endWithFreshGrant (msg : Frame) : Async Unit := do
  let requestId := msg.get "request_id"
  match ← verifyGrant msg attachDoor with
  | none => pure ()
  | some verified =>
      let s ← see
      match s.grants.lookup verified.jti with
      | some held =>
          if held.endOnly then
            refuse codeEndPending "an end for this grant is still awaiting the target's answer"
              requestId verified.jti .null
          else endAttached rt (msg.override [("grant_jti", .str verified.jti)])
      | none =>
          match ← attachTarget verified.claims requestId with
          | none => pure ()
          | some target =>
              let att ← newAttachment fun id =>
                { id
                  grantJti := verified.jti
                  sourceDeviceId := verified.socketSource
                  targetDeviceId := target.targetDeviceId
                  targetSessionId := target.targetSessionId
                  exp := verified.exp
                  requestId := textOf? requestId
                  requestedTerminalId := target.requestedTerminalId
                  endOnly := true }
              let admitted ← admitGrant att (pure ()) requestId codeGrantConsumed
                "grant is already held by a live attachment"
              if admitted then
                let sent ← forwardEnd rt msg att (textOf? (msg.get "terminal_id"))
                let s ← see
                -- dropped only while it is still ours
                if sent = false ∧ s.grants.lookup verified.jti = some att then
                  dropAttachment att
                else pure ()
              else pure ()

/-- `_handle_end`. -/
def handleEnd (msg : Frame) : Async Unit := do
  let s ← see
  let registered := (textOf? (msg.get "grant_jti")).any fun jti => (s.grants.lookup jti).isSome
  if registered = false ∧ (textOf? (msg.get "grant")).any (· ≠ "") then
    endWithFreshGrant rt msg
  else endAttached rt msg

end Qontinui.Relay
