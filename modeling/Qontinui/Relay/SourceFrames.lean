import Qontinui.Relay.End

/-!
The source's side: every `remote_terminal_*` frame of the socket, and the
teardown of the socket itself.
-/

namespace Qontinui.Relay

variable (rt : Runtime)

/-- The attach as it is forwarded. A reattach says which offset the source still holds. -/
def attachFrame (s : Socket) (msg : Frame) (att : Attachment) (minted : String) : Frame :=
  [("type", .str "terminal_attach"), ("request_id", .str minted), ("cols", msg.get "cols"),
      ("rows", msg.get "rows"), ("remote", .obj att.sessionRemoteBlock),
      ("timestamp", timestamp rt s)] ++
    ifPresent "have_offset" (msg.get "have_offset")

def createFrame (s : Socket) (msg : Frame) (att : Attachment) (minted : String) : Frame :=
  [("type", .str "terminal_create"), ("request_id", .str minted),
      ("remote", .obj att.remoteBlock), ("timestamp", timestamp rt s)] ++
    ["title", "cols", "rows", "working_dir_key", "working_dir", "intent_repo"].flatMap
      fun key => ifPresent key (msg.get key)

/-- Send what opens an attach or a create; a target that is not connected ends it. -/
def openAtTarget (att : Attachment) (frame : Frame) (requestId : Json) : Async Unit := do
  let sent ← sendTerminal att.targetDeviceId frame
  if sent then pure ()
  else
    dropAttachment att
    refuse codeTargetNotConnected "target device is not connected" requestId att.grantJti .null

/-- `_handle_attach`. -/
def handleAttach (msg : Frame) : Async Unit := do
  let requestId := msg.get "request_id"
  match ← verifyGrant msg attachDoor with
  | none => pure ()
  | some verified =>
      match ← attachTarget verified.claims requestId with
      | none => pure ()
      | some target =>
          let s ← see
          if (s.grants.lookup verified.jti).isSome then
            refuse codeGrantConsumed "grant already presented on this socket" requestId
              verified.jti .null
          else
            let att ← newAttachment fun id =>
              { id
                grantJti := verified.jti
                sourceDeviceId := verified.socketSource
                targetDeviceId := target.targetDeviceId
                targetSessionId := target.targetSessionId
                exp := verified.exp
                requestId := textOf? requestId
                requestedTerminalId := target.requestedTerminalId }
            let minted ← mint rt
            let admitted ← admitGrant att
              (perform (.putPending .attach minted ⟨att.requestId, att.grantJti⟩)) requestId
              codeGrantConsumed "grant is already held by a live attachment"
            if admitted then
              let s ← see
              let frame := attachFrame rt s msg att minted
              perform (.keepFrame att frame)
              openAtTarget att frame requestId
            else pure ()

/-- `_handle_create`. -/
def handleCreate (msg : Frame) : Async Unit := do
  let requestId := msg.get "request_id"
  match ← verifyGrant msg createDoor with
  | none => pure ()
  | some verified =>
      match createTargetDeviceId verified.claims with
      | none =>
          refuse codeCreateGrantInvalid "grant names no usable target device" requestId
            verified.jti .null
      | some target =>
          let s ← see
          if (s.grants.lookup verified.jti).isSome then
            refuse codeCreateGrantConsumed "grant already presented on this socket" requestId
              verified.jti .null
          else
            let att ← newAttachment fun id =>
              { id
                grantJti := verified.jti
                sourceDeviceId := verified.socketSource
                targetDeviceId := target
                targetSessionId := none
                exp := verified.exp
                requestId := textOf? requestId
                kind := .create }
            let minted ← mint rt
            let admitted ← admitGrant att
              (perform (.putPending .create minted ⟨att.requestId, att.grantJti⟩)) requestId
              codeCreateGrantConsumed "grant already spent — a create grant is single use"
            if admitted then
              let s ← see
              openAtTarget att (createFrame rt s msg att minted) requestId
            else pure ()

/-- The buffer arm of `handle_source_frame`: bound the table before adding to it, and
register the request before it is sent. -/
def handleBuffer (msg : Frame) (att : Attachment) : Async Unit := do
  let minted ← mint rt
  let sourceRequestId := msg.get "request_id"
  let extra : Frame :=
    ("request_id", .str minted) ::
      (ifPresent "from_offset" (msg.get "from_offset") ++
        ifPresent "to_offset" (msg.get "to_offset"))
  let s ← see
  let now := s.monotonic
  perform (.sweepBuffer now)
  let s ← see
  if pendingBufferMax ≤ (s.pending .buffer).length then
    refuse codeBufferBacklog
      ("too many scrollback requests are still unanswered on " ++ "this connection")
      sourceRequestId att.grantJti (optional (s.marks att.id).terminalId)
  else
    perform (.putPending .buffer minted ⟨textOf? sourceRequestId, att.grantJti⟩)
    perform (.putDeadline minted (now + pendingBufferTtlSeconds))
    let sent ← forward rt msg att "terminal_buffer" extra
    if sent then pure ()
    else
      let _ ← popPending .buffer minted
      perform (.popDeadline minted)

def handleDetach (att : Attachment) : Async Unit := do
  let s ← see
  detachTarget rt att (s.marks att.id).terminalId
  dropAttachment att

def authorized (msg : Frame) (door : Admission) (body : Attachment → Async Unit) :
    Async Unit := do
  match ← authorize rt msg door with
  | none => pure ()
  | some att => body att

/-- `handle_source_frame`. -/
def handleSourceFrame (msg : Frame) : Async Unit := do
  reapExpired rt (textOf? (msg.get "grant_jti"))
  match msg.get "type" with
  | .str "remote_terminal_attach" => handleAttach rt msg
  | .str "remote_terminal_create" => handleCreate rt msg
  | .str "remote_terminal_end" => handleEnd rt msg
  | .str "remote_terminal_input" =>
      authorized rt msg {} fun att => do
        let _ ← forward rt msg att "terminal_input" (msg.without inputForwardRelayOwnedKeys)
        pure ()
  | .str "remote_terminal_resize" =>
      authorized rt msg {} fun att => do
        let _ ← forward rt msg att "terminal_resize"
          [("cols", msg.get "cols"), ("rows", msg.get "rows")]
        pure ()
  | .str "remote_terminal_buffer" => authorized rt msg {} (handleBuffer rt msg)
  | .str "remote_terminal_flow" =>
      authorized rt msg {} fun att => do
        let _ ← forward rt msg att "terminal_flow" [("paused", msg.get "paused")]
        pure ()
  | .str "remote_terminal_detach" =>
      authorized rt msg
        { requireBound := false, requireAttachKind := false, settleWaiter := false }
        (handleDetach rt)
  | _ => pure ()

/-- `release_source`: tear down everything the socket held. -/
def releaseSource : Async Unit := do
  let s ← see
  Coro.forEach (handleDetach rt) (s.grants.map (·.2))
  let s ← see
  Coro.forEach stopListener (s.listeners.map (·.1))
  let s ← see
  Coro.forEach
    (fun rid => do
      let _ ← popEnd rid
      cancelEndTimer rid)
    (s.pendingEnd.map (·.1))

end Qontinui.Relay
