import Qontinui.Base.Coroutine
import Qontinui.Relay.Protocol

/-!
What one source socket holds: its session, the attachments on it and the tasks
that serve it, and everything its programs may do to these or ask of Redis, of
the target's connection and of the source.
-/

namespace Qontinui.Relay

/-- One grant on a source socket. `id` is the identity of the object; the fields that are
assigned later are kept apart in `Marks`. -/
structure Attachment where
  id : Nat
  grantJti : String
  sourceDeviceId : String
  targetDeviceId : String
  targetSessionId : Option String
  exp : Int
  requestId : Option String
  kind : Kind := .attach
  requestedTerminalId : Option String := none
  /-- Presented only to end its session. -/
  endOnly : Bool := false
deriving DecidableEq, Repr

/-- The fields of an attachment that change. -/
structure Marks where
  terminalId : Option String := none
  attached : Bool := false
  attachFrame : Option Frame := none
  ackMismatchWarned : Bool := false
  represented : Bool := false

namespace Attachment

/-- `att.expired(now)`. -/
def expired (att : Attachment) (now : Rat) : Bool := att.exp ≤ now

def expiredCode (att : Attachment) : String :=
  match att.kind with
  | .create => codeCreateGrantExpired
  | .attach => codeGrantExpired

def remoteBlock (att : Attachment) : Frame :=
  [("source_device_id", .str att.sourceDeviceId), ("grant_jti", .str att.grantJti)] ++
    match att.kind with
    | .create => [("kind", .str "create")]
    | .attach => []

/-- The `remote` block of a frame about the session: attach and end. -/
def sessionRemoteBlock (att : Attachment) : Frame :=
  att.remoteBlock ++ [("session_id", optional att.targetSessionId)] ++
    match att.requestedTerminalId with
    | none => []
    | some terminal => [("terminal_id", .str terminal)]

end Attachment

/-- What a minted request id maps back to. -/
structure Pending where
  requestId : Option String
  grantJti : String
deriving DecidableEq, Repr

/-- An end in flight, as it was when it was forwarded. -/
structure PendingEnd where
  sourceRequestId : Option String
  grantJti : String
  targetDeviceId : String
  targetSessionId : Option String
  terminalId : Option String
  endOnly : Bool
deriving DecidableEq, Repr

def pendingBufferTtlSeconds : Rat := 60
def pendingBufferMax : Nat := 32

/-- The three correlation tables that share one shape. -/
inductive Table where
  | attach
  | buffer
  | create
deriving DecidableEq, Repr

structure SourceSession where
  deviceId : String
  grants : List (String × Attachment) := []
  pending : Table → List (String × Pending) := fun _ => []
  pendingEnd : List (String × PendingEnd) := []
  /-- The timer task of each end in flight. -/
  pendingEndTimers : List (String × Nat) := []
  pendingBufferDeadline : List (String × Rat) := []
  /-- The listener task of each target. -/
  listeners : List (String × Nat) := []
  subscribed : List String := []

namespace SourceSession

def targets (session : SourceSession) : List String :=
  session.grants.map (·.2.targetDeviceId)

/-- The scrollback requests past their deadline; a missing deadline has passed. -/
def staleBuffers (session : SourceSession) (now : Rat) : List String :=
  (session.pending .buffer).filterMap fun entry =>
    if (session.pendingBufferDeadline.lookup entry.1).getD 0 ≤ now then some entry.1 else none

end SourceSession

/-- What a task of the socket runs. -/
inductive Job where
  | source
  | listener (target : String)
  | finishListener (target : String) (listener : Nat)
  | expirePendingEnd (minted : String)
  | representAttach (att : Attachment)
  | releaseRegistry (att : Attachment)
deriving DecidableEq, Repr

structure TaskRecord where
  job : Job
  cancelled : Bool := false
  ended : Bool := false

/-- What has happened on the socket. No program reads it. -/
structure History where
  /-- Tokens the verifier accepted, with their claims. -/
  verified : List (String × Frame) := []
  /-- Frames heard: by which listener task, on which target's channels, the last one first. -/
  heard : List (Nat × String × Frame) := []
  /-- Ids minted for an attach, with the grant. -/
  mintedFor : List (String × String) := []
  claimed : List Attachment := []
  registered : List Attachment := []
  /-- Terminals bound by the script. -/
  bound : List (Attachment × String) := []
  dropped : List Attachment := []
  released : List Attachment := []
  sentToSource : List Frame := []
  /-- Frames handed to a target's connection, whatever became of them. -/
  offered : List (String × Frame) := []
  /-- Subscribe (`true`) and unsubscribe commands published. -/
  commands : List (String × Bool) := []

/-- The frame a listener task has heard last, and on which target's channels. -/
def History.hearing (h : History) (task : Nat) : Option (String × Frame) :=
  (h.heard.find? (·.1 == task)).map (·.2)

/-- A source socket: its session, the objects and tasks around it, and its clocks. -/
structure Socket extends SourceSession where
  marks : Nat → Marks := fun _ => {}
  created : Nat := 0
  minted : Nat := 0
  now : Rat := 0
  monotonic : Rat := 0
  tasks : List TaskRecord := [⟨.source, false, false⟩]
  history : History := {}

/-- `session.by_terminal(target, terminal)`. -/
def Socket.byTerminal (s : Socket) (target : String) (terminal : Json) : Option Attachment :=
  match terminal with
  | .str name =>
      (s.grants.find? fun entry =>
        (s.marks entry.2.id).attached && entry.2.targetDeviceId == target &&
          (s.marks entry.2.id).terminalId == some name).map (·.2)
  | _ => none

/-! ### Actions -/

/-- What a program does to the socket between two awaits. -/
inductive Op where
  | look
  | create
  | mint
  | putGrant (jti : String) (att : Attachment)
  | popGrant (jti : String)
  | putPending (table : Table) (rid : String) (entry : Pending)
  | popPending (table : Table) (rid : String)
  /-- Pop the grant and sweep the three tables of it. -/
  | drop (att : Attachment)
  | putDeadline (rid : String) (deadline : Rat)
  | popDeadline (rid : String)
  | sweepBuffer (now : Rat)
  | putEnd (rid : String) (entry : PendingEnd)
  | popEnd (rid : String)
  | putTimer (rid : String) (task : Nat)
  | popTimer (rid : String)
  | putListener (target : String) (task : Nat)
  | popListener (target : String)
  | addSubscribed (target : String)
  | discardSubscribed (target : String)
  | keepFrame (att : Attachment) (frame : Frame)
  | bind (att : Attachment) (terminal : String)
  | warnAck (att : Attachment)
  | represent (att : Attachment)
  | spawn (job : Job)
  | cancel (task : Nat)

namespace Socket

def mark (s : Socket) (att : Attachment) (f : Marks → Marks) : Socket :=
  { s with marks := Function.update s.marks att.id (f (s.marks att.id)) }

def onTable (s : Socket) (table : Table)
    (f : List (String × Pending) → List (String × Pending)) : Socket :=
  { s with pending := Function.update s.pending table (f (s.pending table)) }

def record (s : Socket) (f : History → History) : Socket := { s with history := f s.history }

/-- What each action does, for the task that runs it. -/
def apply (_task : Nat) : Op → Socket → Socket
  | .look, s => s
  | .create, s => { s with created := s.created + 1 }
  | .mint, s => { s with minted := s.minted + 1 }
  | .putGrant jti att, s =>
      { s with grants := Fields.set jti att s.grants }.record fun h =>
        { h with registered := att :: h.registered }
  | .popGrant jti, s => { s with grants := Fields.erase jti s.grants }
  | .putPending table rid entry, s =>
      (s.onTable table (Fields.set rid entry)).record fun h =>
        if table = .attach then { h with mintedFor := (rid, entry.grantJti) :: h.mintedFor } else h
  | .popPending table rid, s => s.onTable table (Fields.erase rid)
  | .drop att, s =>
      { s with
        grants := Fields.erase att.grantJti s.grants
        pending := fun table => (s.pending table).filter fun entry =>
          entry.2.grantJti ≠ att.grantJti }.record fun h => { h with dropped := att :: h.dropped }
  | .putDeadline rid deadline, s =>
      { s with pendingBufferDeadline := Fields.set rid deadline s.pendingBufferDeadline }
  | .popDeadline rid, s =>
      { s with pendingBufferDeadline := Fields.erase rid s.pendingBufferDeadline }
  | .sweepBuffer now, s =>
      let kept := (s.pending .buffer).filter fun entry => entry.1 ∉ s.staleBuffers now
      { s with
        pending := Function.update s.pending .buffer kept
        pendingBufferDeadline := s.pendingBufferDeadline.filter fun entry =>
          (kept.lookup entry.1).isSome }
  | .putEnd rid entry, s => { s with pendingEnd := Fields.set rid entry s.pendingEnd }
  | .popEnd rid, s => { s with pendingEnd := Fields.erase rid s.pendingEnd }
  | .putTimer rid timer, s => { s with pendingEndTimers := Fields.set rid timer s.pendingEndTimers }
  | .popTimer rid, s => { s with pendingEndTimers := Fields.erase rid s.pendingEndTimers }
  | .putListener target listener, s =>
      { s with listeners := Fields.set target listener s.listeners }
  | .popListener target, s => { s with listeners := Fields.erase target s.listeners }
  | .addSubscribed target, s => { s with subscribed := s.subscribed.insert target }
  | .discardSubscribed target, s => { s with subscribed := s.subscribed.filter (· ≠ target) }
  | .keepFrame att frame, s => s.mark att fun m => { m with attachFrame := some frame }
  | .bind att terminal, s =>
      s.mark att fun m => { m with terminalId := some terminal, attached := true }
  | .warnAck att, s => s.mark att fun m => { m with ackMismatchWarned := true }
  | .represent att, s => s.mark att fun m => { m with represented := true }
  | .spawn job, s => { s with tasks := s.tasks ++ [⟨job, false, false⟩] }
  | .cancel task, s =>
      { s with tasks := s.tasks.modify task fun r => if r.ended then r else { r with cancelled := true } }

end Socket

/-! ### Asks -/

/-- The Redis commands of the relay, each one atomic. -/
inductive RedisCommand where
  | claim (att : Attachment)
  | writeRecord (att : Attachment)
  | expireRecord (att : Attachment)
  | bindTerminal (att : Attachment) (terminal : String)
  | recordTerminal (att : Attachment) (terminal : String)
  | deleteRows (att : Attachment)
  | releaseTerminal (att : Attachment) (terminal : String)
deriving DecidableEq, Repr

/-- What a program awaits. -/
inductive Ask where
  | nextFrame
  | nextMessage (target : String)
  | verifyToken (grant : String)
  | sendToSource (payload : Frame)
  | sendTerminal (target : String) (frame : Frame)
  /-- A subscribe (`true`) or unsubscribe command for the runner's terminal output. -/
  | sendCommand (target : String) (subscribe : Bool)
  | redis (command : RedisCommand)
  | openPubsub (target : String)
  | closePubsub (target : String)
  | sleep (seconds : Rat)
  /-- Wait for a task, whatever it ended with. -/
  | gather (task : Nat)
  /-- Wait for a task that a cancellation of the waiting one does not reach. -/
  | shield (task : Nat)
deriving DecidableEq

/-- The three refusals of the token verifier. -/
inductive TokenError where
  | expired
  | invalid
  | unavailable
deriving DecidableEq, Repr

inductive Value where
  | unit
  | flag (b : Bool)
  | frame (frame : Frame)
  | closed
  | claims (claims : Frame)
  | rejected (why : TokenError) (text : String)
deriving DecidableEq

/-- The answers each ask can get. A cancellation is not an answer. -/
def allowed (ask : Ask) (reply : Except Stop Value) (s : Socket) : Bool :=
  match ask, reply with
  | _, .error .cancelled => false
  | .nextFrame, .ok (.frame _) | .nextFrame, .ok .closed => true
  | .nextMessage _, .ok (.frame _) | .nextMessage _, .ok .closed
  | .nextMessage _, .error .raised => true
  | .verifyToken _, .ok (.claims _) | .verifyToken _, .ok (.rejected _ _)
  | .verifyToken _, .error .raised => true
  | .sendToSource _, .ok .unit | .sendToSource _, .error .raised => true
  -- both senders catch every failure and answer `False`
  | .sendTerminal _ _, .ok (.flag _) | .sendCommand _ _, .ok (.flag _) => true
  | .redis (.claim _), .ok (.flag _) | .redis (.bindTerminal _ _), .ok (.flag _) => true
  | .redis (.claim _), .ok _ | .redis (.bindTerminal _ _), .ok _ => false
  | .redis _, .ok .unit | .redis _, .error .raised => true
  | .openPubsub _, .ok .unit | .openPubsub _, .error .raised => true
  | .closePubsub _, .ok .unit | .closePubsub _, .error .raised => true
  | .sleep _, .ok .unit => true
  | .gather task, .ok .unit => (s.tasks[task]?.map (·.ended)).getD true
  | .shield task, .ok .unit | .shield task, .error .raised =>
      (s.tasks[task]?.map (·.ended)).getD true
  | _, _ => false

def served (task : Nat) (ask : Ask) (reply : Except Stop Value) (s : Socket) : Socket :=
  match ask, reply with
  | .verifyToken grant, .ok (.claims claims) =>
      s.record fun h => { h with verified := (grant, claims) :: h.verified }
  | .nextMessage target, .ok (.frame frame) =>
      s.record fun h => { h with heard := (task, target, frame) :: h.heard }
  | .sendToSource payload, .ok _ =>
      s.record fun h => { h with sentToSource := payload :: h.sentToSource }
  | .sendTerminal target frame, .ok _ =>
      s.record fun h => { h with offered := (target, frame) :: h.offered }
  | .sendCommand target subscribe, .ok (.flag true) =>
      s.record fun h => { h with commands := (target, subscribe) :: h.commands }
  | .redis (.claim att), .ok (.flag true) =>
      s.record fun h => { h with claimed := att :: h.claimed }
  | .redis (.bindTerminal att terminal), .ok (.flag true) =>
      s.record fun h => { h with bound := (att, terminal) :: h.bound }
  | .redis (.deleteRows att), _ => s.record fun h => { h with released := att :: h.released }
  | _, _ => s

abbrev Async := Coro Socket Op Ask Value

/-! ### The vocabulary of the programs -/

def see : Async Socket := .act .look fun _ s => pure s

/-- `asyncio.current_task()`. -/
def currentTask : Async Nat := .act .look fun task _ => pure task

def perform (op : Op) : Async Unit := .act op fun _ _ => pure ()

/-- A new attachment object; its identity is the number of those before it. -/
def newAttachment (build : Nat → Attachment) : Async Attachment :=
  .act .create fun _ s => pure (build s.created)

/-- `uuid4().hex`. -/
def mint (rt : Runtime) : Async String := .act .mint fun _ s => pure (rt.uuid4hex s.minted)

def popPending (table : Table) (rid : String) : Async (Option Pending) :=
  .act (.popPending table rid) fun _ s => pure ((s.pending table).lookup rid)

def popEnd (rid : String) : Async (Option PendingEnd) :=
  .act (.popEnd rid) fun _ s => pure (s.pendingEnd.lookup rid)

def popTimer (rid : String) : Async (Option Nat) :=
  .act (.popTimer rid) fun _ s => pure (s.pendingEndTimers.lookup rid)

def popListener (target : String) : Async (Option Nat) :=
  .act (.popListener target) fun _ s => pure (s.listeners.lookup target)

def spawn (job : Job) : Async Nat := .act (.spawn job) fun _ s => pure s.tasks.length

def awaitFlag (ask : Ask) : Async Bool := do
  match ← Coro.await ask with
  | .flag b => pure b
  | _ => pure false

def awaitUnit (ask : Ask) : Async Unit := do
  let _ ← Coro.await ask

end Qontinui.Relay
