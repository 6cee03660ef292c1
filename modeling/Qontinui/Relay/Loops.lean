import Qontinui.Relay.SourceFrames
import Qontinui.Relay.TargetFrames

/-!
The loops around the handlers, what every task of a socket runs, and the machine
of one socket.
-/

namespace Qontinui.Relay

variable (rt : Runtime)

/-- `_listener_lost`: the ends in flight first, then every attachment on the target. -/
def listenerLost (target : String) : Async Unit := do
  let s ← see
  let _ ← settlePendingEndsOnTarget target codeListenerLost
    "return route to the target was lost; the end's outcome is unknown" s.pendingEnd
  let s ← see
  Coro.forEach
    (fun att =>
      if att.targetDeviceId = target then
        evict rt att codeListenerLost "return route to the target was lost"
      else pure ())
    (s.grants.map (·.2))
  closePubsub target
  unsubscribeRunner target

/-- One message of `_run_listener`'s loop; false when the pubsub has closed. -/
def hearMessage (target : String) : Async Bool := do
  match ← Coro.await (.nextMessage target) with
  | .frame frame =>
      -- one bad frame must not end the route
      Coro.rescue
        (do
          let _ ← routeTargetFrame rt target frame
          pure ())
        (pure ())
      pure true
  | _ => pure false

/-- `_run_listener`, a turn of its loop: when the loop ends and the registration is still
this task's, the route is lost. -/
def runListener (target : String) : Async Bool := do
  match ← Coro.attempt (hearMessage rt target) with
  | .ok true => pure true
  | outcome =>
      let self ← currentTask
      let s ← see
      if s.listeners.lookup target = some self then
        perform (.popListener target)
        listenerLost rt target
      else pure ()
      match outcome with
      | .error .cancelled => Coro.done (.error .cancelled)
      | _ => pure false

/-- The device socket's loop: one frame at a time, the teardown last. An exception of a
frame does not end it. -/
def runSource : Async Bool := do
  match ← Coro.await .nextFrame with
  | .frame msg =>
      Coro.rescue (handleSourceFrame rt msg) (pure ())
      pure true
  | _ =>
      Coro.rescue (releaseSource rt) (pure ())
      pure false

def once (p : Async Unit) : Async Bool := do
  p
  pure false

def program : Job → Async Bool
  | .source => runSource rt
  | .listener target => runListener rt target
  | .finishListener target listener => once (finishListener target listener)
  | .expirePendingEnd minted => once (expirePendingEnd minted)
  | .representAttach att => once (representAttach rt att)
  | .releaseRegistry att => once (releaseRegistry att)

/-- Time passes, by the wall clock and by the monotonic one. -/
structure Tick where
  wall : NNRat
  monotonic : NNRat

def machine : Machine Socket Op Ask Value Tick where
  apply := Socket.apply
  program task s := ((s.tasks[task]?).elim (Coro.done (.ok false)) fun r => program rt r.job)
  live task s := (s.tasks[task]?).any (!·.ended)
  cancelled task s := (s.tasks[task]?).any (·.cancelled)
  uncancel task s :=
    { s with tasks := s.tasks.modify task fun r => { r with cancelled := false } }
  finish task s := { s with tasks := s.tasks.modify task fun r => { r with ended := true } }
  allowed := allowed
  served := served
  outside tick s :=
    { s with now := s.now + tick.wall, monotonic := s.monotonic + tick.monotonic }

abbrev SocketTasks := Tasks Socket Op Ask Value
abbrev SocketEvent := TaskEvent Value Tick

/-- A socket of a device that has just connected: its loop, about to receive. -/
def connected (deviceId : String) : SocketTasks where
  state := { deviceId }
  parked _ := none

/-- The socket after a list of events, each a step of one task or of its surroundings. -/
def afterEvents (deviceId : String) (events : List SocketEvent) : SocketTasks :=
  Runs.run (machine rt).step (connected deviceId) events

end Qontinui.Relay
