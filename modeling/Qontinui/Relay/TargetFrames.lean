import Qontinui.Relay.End

/-!
The return route: each frame heard on a target's channels is correlated with an
id the relay minted, with a bound terminal or with the grant the target marked
it with, and rebuilt for the source.
-/

namespace Qontinui.Relay

variable (rt : Runtime)

def attachRepresentDelaySeconds : Rat := 3

/-- The three outcomes of `_pop_correlated`. -/
inductive Correlated where
  | notOurs
  /-- Ours, but the grant is no longer on this socket. -/
  | orphan (entry : Pending)
  | answer (entry : Pending) (att : Attachment)

/-- `_pop_correlated`: pop what a minted id stands for; put it back for another device. -/
def popCorrelated (table : Table) (wireRequestId : Json) (target : String) : Async Correlated := do
  match wireRequestId with
  | .str rid =>
      match ← popPending table rid with
      | none => pure .notOurs
      | some entry =>
          let s ← see
          match s.grants.lookup entry.grantJti with
          | none => pure (.orphan entry)
          | some att =>
              if att.targetDeviceId ≠ target then
                perform (.putPending table rid entry)
                pure .notOurs
              else pure (.answer entry att)
  | _ => pure .notOurs

/-- `_bound_attachment`: the live attachment bound to the terminal; an expired one goes. -/
def boundAttachment (target : String) (terminalId : Json) : Async (Option Attachment) := do
  let s ← see
  match s.byTerminal target terminalId with
  | none => pure none
  | some att =>
      if att.expired s.now then
        dropAttachment att
        pure none
      else pure (some att)

/-- The answer to an attach, with what the target says about its scrollback. -/
def attachedPayload (entry : Pending) (att : Attachment) (terminal : String) (frame : Frame) :
    Frame :=
  [("type", .str "remote_terminal_attached"), ("request_id", optional entry.requestId),
    ("grant_jti", .str att.grantJti), ("terminal_id", .str terminal),
    ("buffer", (frame.lookup "buffer").getD (frame.get "data")),
    ("start_offset", frame.get "start_offset"),
    ("ring_start_offset", frame.get "ring_start_offset"),
    ("total_bytes_produced", frame.get "total_bytes_produced")]

/-- `_route_attached`: bind the terminal the target names and answer the source. -/
def routeAttached (target : String) (frame : Frame) : Async Bool := do
  match ← popCorrelated .attach (frame.get "request_id") target with
  | .notOurs | .orphan _ => pure false
  | .answer entry att =>
      let fail (code message terminal : String) : Async Bool := do
        detachTarget rt att (some terminal)
        dropAttachment att
        refuse code message (optional entry.requestId) att.grantJti (.str terminal)
        pure true
      match (textOf? (frame.get "terminal_id")).filter (· ≠ "") with
      | none =>
          sendToSource
            [("type", .str "remote_terminal_error"), ("request_id", optional entry.requestId),
              ("grant_jti", .str att.grantJti), ("code", .str "attach_terminal_missing"),
              ("message", .str "target named no terminal_id in terminal_attached")]
          pure true
      | some terminal =>
          match ← Coro.attempt (bindTerminal att terminal) with
          | .ok true =>
              sendToSource (attachedPayload entry att terminal frame)
              pure true
          -- another grant holds it; the target has just bound ours
          | .ok false =>
              fail codeTerminalBusy "terminal is already held by another attachment" terminal
          | .error .raised =>
              fail codeRegistryUnavailable "attachment registry temporarily unavailable" terminal
          | .error .cancelled => Coro.done (.error .cancelled)

/-- `_route_created`: forward the answer to a create; its grant is spent. -/
def routeCreated (target : String) (frame : Frame) : Async Bool := do
  match ← popCorrelated .create (frame.get "request_id") target with
  | .notOurs | .orphan _ => pure false
  | .answer entry att =>
      let terminal := frame.get "terminal"
      let terminalId :=
        match terminal with
        | .obj fields => Frame.get fields "id"
        | _ => frame.get "terminal_id"
      let named :=
        match frame.get "coord_session_id", terminal with
        | .null, .obj fields => Frame.get fields "coordSessionId"
        | id, _ => id
      sendToSource
        [("type", .str "remote_terminal_created"), ("request_id", optional entry.requestId),
          ("grant_jti", .str att.grantJti), ("terminal_id", terminalId), ("terminal", terminal),
          ("coord_session_id", if isUuid named then named else .null)]
      dropAttachment att
      pure true

/-- `_route_output`. -/
def routeOutput (target : String) (frame : Frame) : Async Bool := do
  match ← boundAttachment target (frame.get "terminal_id") with
  | none => pure false
  | some att =>
      let s ← see
      sendToSource
        [("type", .str "remote_terminal_output"), ("grant_jti", .str att.grantJti),
          ("terminal_id", optional (s.marks att.id).terminalId), ("data", frame.get "data")]
      pure true

/-- `_route_exit`: the terminal is gone, and its attachment with it. -/
def routeExit (target : String) (frame : Frame) : Async Bool := do
  match ← boundAttachment target (frame.get "terminal_id") with
  | none => pure false
  | some att =>
      let s ← see
      sendToSource
        [("type", .str "remote_terminal_exit"), ("grant_jti", .str att.grantJti),
          ("terminal_id", optional (s.marks att.id).terminalId),
          ("exit_code", frame.get "exit_code")]
      dropAttachment att
      pure true

/-- `_route_runner_disconnected`: settle the ends in flight to the target, then evict every
attachment on it. -/
def routeRunnerDisconnected (target : String) : Async Bool := do
  let s ← see
  let ends ← settlePendingEndsOnTarget target codeTargetNotConnected
    "target device's relay socket disconnected; the end's outcome is unknown" s.pendingEnd
  let s ← see
  let doomed := (s.grants.map (·.2)).filter (·.targetDeviceId == target)
  if doomed = [] then pure (0 < ends)
  else
    Coro.forEach
      (fun att =>
        evict rt att codeTargetNotConnected "target device's relay socket disconnected")
      doomed
    pure true

/-- The grant a marked frame names: in its `remote` block, else at its top. -/
def grantHint (frame : Frame) : Json :=
  let nested :=
    match frame.get "remote" with
    | .obj block => Frame.get block "grant_jti"
    | _ => .null
  if pyTruthy nested then nested else frame.get "grant_jti"

/-- `_attachment_by_remote_mark`: by the grant the frame names, else by its terminal. -/
def attachmentByRemoteMark (target : String) (frame : Frame) : Async (Option Attachment) := do
  match grantHint frame with
  | .null => boundAttachment target (frame.get "terminal_id")
  | .str jti =>
      let s ← see
      pure ((s.grants.lookup jti).filter (·.targetDeviceId == target))
  | _ => pure none

/-- The outcome a target reports, held to the closed set. -/
def endOutcome (frame : Frame) : String :=
  match frame.get "outcome" with
  | .str outcome => if outcome ∈ endOutcomes then outcome else endOutcomeFallback
  | _ => endOutcomeFallback

/-- A free text of the target, capped; left out when empty. -/
def capped (frame : Frame) (key : String) (limit : Nat) : Frame :=
  match frame.get key with
  | .str text => if text = "" then [] else [(key, .str (cut limit text))]
  | _ => []

def endReplyPayload (entry : PendingEnd) (frame : Frame) : Frame :=
  let terminal :=
    match entry.terminalId with
    | some terminal => some terminal
    | none => (textOf? (frame.get "terminal_id")).map (cut targetMessageMax)
  [("type", .str "remote_terminal_ended"), ("request_id", optional entry.sourceRequestId),
      ("grant_jti", .str entry.grantJti), ("session_id", optional entry.targetSessionId),
      ("terminal_id", optional terminal), ("outcome", .str (endOutcome frame))] ++
    capped frame "via" targetCodeMax ++ capped frame "reason" targetMessageMax

/-- `_route_end_reply`. -/
def routeEndReply (target : String) (frame : Frame) : Async Bool := do
  match ← popPendingEnd (frame.get "request_id") target with
  | none => pure false
  | some entry =>
      answerEndAndRelease entry (endReplyPayload entry frame)
      pure true

/-- The acknowledgement handed on: the target's frame but for the keys the relay owns. -/
def inputAckPayload (att : Attachment) (marks : Marks) (frame : Frame) : Frame :=
  let kept := frame.without inputAckRelayOwnedKeys
  let checked :=
    match kept.lookup "error" with
    | none => kept
    | some (.str text) => Fields.set "error" (.str (cut targetMessageMax text)) kept
    | some _ => Fields.erase "error" kept
  checked.override
    [("type", .str "remote_terminal_input_ack"), ("grant_jti", .str att.grantJti),
      ("terminal_id", optional marks.terminalId)]

/-- `_route_input_ack`. -/
def routeInputAck (target : String) (frame : Frame) : Async Bool := do
  if isRemoteMarked frame then
    match ← attachmentByRemoteMark target frame with
    | none => pure false
    | some att =>
        let s ← see
        if (s.marks att.id).attached = false then pure false
        else if frame.get "terminal_id" ≠ optional (s.marks att.id).terminalId then
          perform (.warnAck att)
          pure false
        else
          sendToSource (inputAckPayload att (s.marks att.id) frame)
          pure true
  else pure false

/-- The request id is the source's own, and only for a request that was correlated. -/
def bufferPayload (att : Attachment) (marks : Marks) (frame : Frame)
    (requestId : Option String) : Frame :=
  [("type", .str "remote_terminal_buffer"), ("grant_jti", .str att.grantJti),
      ("terminal_id", optional marks.terminalId), ("data", frame.get "data"),
      ("start_offset", frame.get "start_offset"),
      ("ring_start_offset", frame.get "ring_start_offset"),
      ("total_bytes_produced", frame.get "total_bytes_produced")] ++
    ifPresent "request_id" (optional requestId)

/-- Hand a scrollback reply on if it names the attachment's own terminal. -/
def handBuffer (att : Attachment) (frame : Frame) (requestId : Option String) : Async Bool := do
  let s ← see
  if frame.get "terminal_id" ≠ optional (s.marks att.id).terminalId then pure false
  else
    sendToSource (bufferPayload att (s.marks att.id) frame requestId)
    pure true

/-- `_route_buffer_response`: a solicited reply is correlated, an unsolicited one is routed
by the grant the target marked it with. -/
def routeBufferResponse (target : String) (frame : Frame) : Async Bool := do
  match ← popCorrelated .buffer (frame.get "request_id") target with
  | .orphan _ => pure false
  | .answer entry att => handBuffer att frame entry.requestId
  | .notOurs =>
      if isRemoteMarked frame then
        match ← attachmentByRemoteMark target frame with
        | none => pure false
        | some att =>
            let s ← see
            if (s.marks att.id).attached then handBuffer att frame none else pure false
      else pure false

/-- `_should_represent_attach`: this refusal is the attach race, not a verdict. -/
def shouldRepresentAttach (s : Socket) (att : Attachment) (frame : Frame) : Bool :=
  att.kind = .attach && !(s.marks att.id).represented && !(s.marks att.id).attached &&
    (s.marks att.id).attachFrame.isSome && !att.expired s.now &&
    namespaceTargetCode rt.unicode (frame.get "code") == targetCodeAttachGrantUnknown

/-- `_represent_attach`: send the cached attach once more, under the same grant. -/
def representAttach (att : Attachment) : Async Unit := do
  awaitUnit (.sleep attachRepresentDelaySeconds)
  let s ← see
  if s.grants.lookup att.grantJti ≠ some att ∨ (s.marks att.id).attached then pure ()
  else
    match (s.marks att.id).attachFrame with
    | none => pure ()
    | some cached =>
        if att.expired s.now then evict rt att att.expiredCode "grant expired"
        else
          let minted ← mint rt
          perform (.putPending .attach minted ⟨att.requestId, att.grantJti⟩)
          let sent ← Coro.rescue
            (sendTerminal att.targetDeviceId
              (cached.override [("request_id", .str minted), ("timestamp", timestamp rt s)]))
            (pure false)
          if sent then pure ()
          else
            let _ ← popPending .attach minted
            evict rt att codeTargetNotConnected "target device is not connected"

/-- The remedies a refusal may carry: a bounded list of short strings. -/
def remedy (frame : Frame) (key : String) : Frame :=
  match frame.get key with
  | .arr items =>
      let safe := items.filter fun
        | .str text => text.length ≤ 256
        | _ => false
      if safe = [] then [] else [(key, .arr (safe.take 64))]
  | _ => []

/-- `_target_error_payload`: a refusal is rebuilt, never forwarded. -/
def targetErrorPayload (frame : Frame) (grantJti : String) (requestId : Option String)
    (terminalId : Json) : Frame :=
  let message :=
    match frame.get "message" with
    | .str text => if pyStrip text.toList = [] then "target refused the remote frame" else text
    | _ => "target refused the remote frame"
  [("type", .str "remote_terminal_error"), ("grant_jti", .str grantJti),
      ("code", .str (namespaceTargetCode rt.unicode (frame.get "code"))),
      ("message", .str (cut targetMessageMax message))] ++
    ifPresent "request_id" (optional requestId) ++ ifText "terminal_id" terminalId ++
    remedy frame "allowed_working_dir_keys" ++ remedy frame "allowed_intent_repos"

/-- `a or b`, for a terminal the relay knows and the one a frame names. -/
def orElse (known : Option String) (named : Json) : Json :=
  match known with
  | some terminal => if terminal = "" then named else .str terminal
  | none => named

/-- `_route_end_error`. -/
def routeEndError (entry : PendingEnd) (frame : Frame) : Async Bool := do
  answerEndAndRelease entry
    (targetErrorPayload rt frame entry.grantJti entry.sourceRequestId
      (orElse entry.terminalId (frame.get "terminal_id")))
  pure true

/-- Try the correlation tables in turn, up to the first that knows the id. -/
def popFirst (wireRequestId : Json) (target : String) :
    List Table → Async (Option (Table × Correlated))
  | [] => pure none
  | table :: rest => do
      match ← popCorrelated table wireRequestId target with
      | .notOurs => popFirst wireRequestId target rest
      | found => pure (some (table, found))

/-- The tail of `_route_target_error`: hand the refusal of `att` on. -/
def handRefusal (att : Attachment) (frame : Frame) (requestId : Option String)
    (failedAttach : Bool) : Async Bool := do
  let s ← see
  sendToSource
    (targetErrorPayload rt frame att.grantJti requestId
      (orElse (s.marks att.id).terminalId (frame.get "terminal_id")))
  if failedAttach ∨ att.endOnly then
    dropAttachment att
    pure true
  else pure true

/-- The fallback of `_route_target_error`: a marked refusal is routed by its mark. -/
def routeMarkedError (target : String) (frame : Frame) : Async Bool := do
  if isRemoteMarked frame then
    match ← attachmentByRemoteMark target frame with
    | none => pure false
    | some att =>
        let s ← see
        -- a fresh-grant end has one thing in flight, and this answers it
        match (if att.endOnly then (endsOf att.grantJti s).head? else none) with
        | some rid =>
            match ← popEnd rid with
            | none => pure false
            | some entry =>
                cancelEndTimer rid
                routeEndError rt entry frame
        | none => handRefusal rt att frame none false
  else pure false

/-- `_route_target_error`. -/
def routeTargetError (target : String) (frame : Frame) : Async Bool := do
  match ← popPendingEnd (frame.get "request_id") target with
  | some entry => routeEndError rt entry frame
  | none =>
      match ← popFirst (frame.get "request_id") target [.attach, .create, .buffer] with
      | some (table, .answer entry att) =>
          let s ← see
          if table = .attach ∧ shouldRepresentAttach rt s att frame then
            perform (.represent att)
            let _ ← spawn (.representAttach att)
            pure true
          else handRefusal rt att frame entry.requestId (table ≠ .buffer)
      -- a correlation whose grant is gone is spent, and resolves nothing
      | _ => routeMarkedError rt target frame

/-- `_dispatch_target_frame`: sweep first, then by type. -/
def routeTargetFrame (target : String) (frame : Frame) : Async Bool := do
  reapExpired rt none
  match frame.get "type" with
  | .str "error" | .str "remote_terminal_error" => routeTargetError rt target frame
  | .str "terminal_attached" => routeAttached rt target frame
  | .str "terminal_created" => routeCreated target frame
  | .str "terminal_output" => routeOutput target frame
  | .str "terminal_exit" => routeExit target frame
  | .str "terminal_buffer_response" => routeBufferResponse target frame
  | .str "terminal_ended" => routeEndReply target frame
  | .str "terminal_input_ack" => routeInputAck target frame
  | .str "runner_disconnected" => routeRunnerDisconnected rt target
  | _ => pure false

end Qontinui.Relay
