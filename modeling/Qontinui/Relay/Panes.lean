import Qontinui.Relay.OrderlyTarget

/-!
What a source works its terminals with reaches a target only under an attach
grant that was verified on the socket and names that target, for the terminal the
target itself has named.

What comes back to a source is about one pane: of an attachment on the target that
was heard, bound to the terminal that the target's frame is about. A scrollback
request outlives its attachment for as long as the teardown of that has not come
to it, and a grant that is registered again meanwhile takes it over unbound.
-/

namespace Qontinui.Relay

section Authorized

variable {rt : Runtime} {deviceId : String}

theorem afterEvents_inOrder (events : List SocketEvent) :
    InOrder (machine rt) (orderly rt False) (afterEvents rt deviceId events) :=
  Runs.invariant_of_step (machine rt).step (InOrder (machine rt) (orderly rt False))
    (fun c event h => step_inOrder orderly_sound relay_checked event h
      (stepMay_of_careless c event)) _ _ (connected_inOrder deviceId 0)

theorem forwarded_owns (s : Socket) (att : Attachment) (targetType : String) (extra : Frame)
    (key : String) (hkey : key ∈ ["type", "terminal_id", "remote"]) :
    (forwarded rt s att targetType extra).get key =
      (forwarded rt s att targetType []).get key := by
  obtain ⟨htype, hterminal, hremote⟩ := forwarded_get rt s att targetType extra
  obtain ⟨htype', hterminal', hremote'⟩ := forwarded_get rt s att targetType []
  simp only [List.mem_cons, List.not_mem_nil, or_false] at hkey
  rcases hkey with rfl | rfl | rfl
  · exact htype.trans htype'.symm
  · exact hterminal.trans hterminal'.symm
  · exact hremote.trans hremote'.symm

/-- In every run of a socket, a frame that works a terminal goes out under a grant that
permits it, and no key of the source's frame shows in what the relay vouches for. -/
theorem works_authorized {events : List SocketEvent} {event : SocketEvent} {task : Nat}
    {target : String} {frame : Frame}
    (hissued : (machine rt).issued (afterEvents rt deviceId events) event =
      some (task, .sendTerminal target frame))
    (htype : frame.get "type" ∈ workFrameTypes) :
    (∃ att terminal, Works ((machine rt).step (afterEvents rt deviceId events) event).state
      target frame att terminal) ∧
      ∀ s att targetType extra, ∀ key ∈ ["type", "terminal_id", "remote"],
        (forwarded rt s att targetType extra).get key =
          (forwarded rt s att targetType []).get key := by
  have hinOrder : InOrder (machine rt) (orderly rt False) (afterEvents rt deviceId events) :=
    afterEvents_inOrder events
  have hasks := asks_of_issued orderly_sound relay_checked hinOrder
    (stepMay_of_careless _ event) hissued
  exact ⟨hasks htype, forwarded_owns⟩

/-! ### A run -/

def plainSource : String := "00000000-0000-0000-0000-000000000001"
def plainTarget : String := "00000000-0000-0000-0000-000000000002"
def otherTarget : String := "00000000-0000-0000-0000-000000000003"

def attachGrant (jti target : String) (exp : Rat) : Frame :=
  [("sub_type", .str "attach_grant"), ("jti", .str jti), ("exp", .num exp),
    ("device_id", .str plainSource),
    ("attach", .obj [("target_device_id", .str target),
      ("target_session_id", .str "00000000-0000-0000-0000-000000000005")])]

def answer (task : Nat) (value : Value) : List SocketEvent :=
  [.serve task (.ok value), .resume task]

def attachFirst (claims : Frame) : List SocketEvent :=
  answer 0 (.frame [("type", .str "remote_terminal_attach"), ("grant", .str "token")]) ++
    answer 0 (.claims claims) ++ answer 0 (.flag true) ++ answer 0 .unit ++ answer 0 .unit ++
    -- the listener's subscription, and the attach
    answer 0 .unit ++ answer 0 (.flag true) ++ answer 0 (.flag true) ++ [.resume 0]

/-- The target names the terminal, which is bound to the grant and shown to the source. -/
def nameTerminal (listener : Nat) (requestId terminal : String) : List SocketEvent :=
  answer listener (.frame [("type", .str "terminal_attached"), ("request_id", .str requestId),
      ("terminal_id", .str terminal)]) ++
    answer listener (.flag true) ++ answer listener .unit ++ answer listener .unit ++
    [.resume listener]

def typing : List SocketEvent :=
  [.resume 0] ++ attachFirst (attachGrant "grant" plainTarget 1000) ++ [.resume 1] ++
    nameTerminal 1 (plainRuntime.uuid4hex 0) "terminal" ++
    [.serve 0 (.ok (.frame [("type", .str "remote_terminal_input"), ("grant_jti", .str "grant"),
      ("terminal_id", .str "terminal"), ("remote", .str "forged"), ("data", .str "ls")]))]

def typed : Frame :=
  [("data", .str "ls"), ("type", .str "terminal_input"), ("terminal_id", .str "terminal"),
    ("remote", .obj [("source_device_id", .str plainSource), ("grant_jti", .str "grant")]),
    ("timestamp", .str "")]

theorem typed_authorized : ∃ att terminal,
    Works ((machine plainRuntime).step (afterEvents plainRuntime plainSource typing)
      (.resume 0)).state plainTarget typed att terminal := by
  have hissued : (machine plainRuntime).issued (afterEvents plainRuntime plainSource typing)
      (.resume 0) = some (0, .sendTerminal plainTarget typed) := by decide +kernel
  exact (works_authorized hissued (by decide +kernel)).1

end Authorized

variable {rt : Runtime} {deviceId : String}

/-- No action of the program up to its next ask registers a grant while a scrollback
request under its id is in flight. -/
def registersClear (task : Nat) {α : Type} : Async α → Socket → Bool
  | .done _, _ | .ask _ _, _ => true
  | .act op rest, s =>
      (match op with
        | .putGrant jti _ => (s.pending .buffer).all (·.2.grantJti ≠ jti)
        | _ => true) &&
      registersClear task (rest task s) (Socket.apply task op s)

/-- The step registers no grant while a scrollback request under its id is in flight. -/
def RegistersClear (rt : Runtime) (c : SocketTasks) : SocketEvent → Prop
  | .resume task => ((machine rt).next c task).all fun (p, s) => registersClear task p s
  | _ => True

instance (c : SocketTasks) : DecidablePred (RegistersClear rt c)
  | .resume _ => inferInstanceAs (Decidable (_ = true))
  | .serve _ _ | .outside _ => .isTrue trivial

theorem actsMay_of_registersClear {α : Type} {task : Nat} {p : Async α} {s : Socket}
    (h : registersClear task p s = true) : ActsMay (machine rt) (orderly rt True) task p s := by
  induction p generalizing s with
  | done | ask => trivial
  | act op rest ih =>
      obtain ⟨hop, hrest⟩ := Bool.and_eq_true_iff.mp h
      refine ⟨?_, ih task s hrest⟩
      cases op with
      | putGrant jti att =>
          intro _ request hrequest
          simpa using List.all_eq_true.mp hop request hrequest
      | _ => trivial

theorem stepMay_of_registersClear {c : SocketTasks} {event : SocketEvent}
    (h : RegistersClear rt c event) : StepMay (machine rt) (orderly rt True) c event := by
  cases event with
  | serve task reply => exact fun _ _ => trivial
  | resume task =>
      refine ⟨fun _ _ _ => trivial, fun p s hnext => actsMay_of_registersClear ?_⟩
      simpa [RegistersClear, hnext] using h
  | outside event => trivial

/-- Whatever a step sends the source about a pane is about the pane of the terminal that the
frame heard last by the sending task is about. -/
def KeepsPanes (rt : Runtime) (c : SocketTasks) (event : SocketEvent) : Prop :=
  ∀ task payload, (machine rt).issued c event = some (task, .sendToSource payload) →
    payload.get "type" ∈ paneFrameTypes →
      ∃ target frame att terminal,
        ((machine rt).step c event).state.history.hearing task = some (target, frame) ∧
          ShowsPane ((machine rt).step c event).state target frame payload att terminal

/-- In every run in which no grant is registered while a scrollback request under its id is
in flight, every step keeps the panes apart. -/
theorem panes_kept {events : List SocketEvent} {event : SocketEvent}
    (h : Runs.Meets (machine rt).step (RegistersClear rt) (connected deviceId)
      (events ++ [event])) :
    KeepsPanes rt (afterEvents rt deviceId events) event := by
  obtain ⟨hevents, hevent, -⟩ := (Runs.meets_append _ _ _ _).mp h
  have hinOrder : InOrder (machine rt) (orderly rt True) (afterEvents rt deviceId events) :=
    Runs.invariant_of_meets (machine rt).step (InOrder (machine rt) (orderly rt True))
      (fun c event hc hmay => step_inOrder orderly_sound relay_checked event hc
        (stepMay_of_registersClear hmay)) (connected_inOrder deviceId 0) hevents
  intro task payload hissued htype
  exact asks_of_issued orderly_sound relay_checked hinOrder (stepMay_of_registersClear hevent)
    hissued trivial htype

/-! ### Two runs -/

def attachAgain (claims : Frame) : List SocketEvent :=
  answer 0 (.frame [("type", .str "remote_terminal_attach"), ("grant", .str "token")]) ++
    answer 0 (.claims claims) ++ answer 0 (.flag true) ++ answer 0 .unit ++ answer 0 .unit ++
    answer 0 (.flag true) ++ [.resume 0]

def askScrollback (jti terminal : String) : List SocketEvent :=
  answer 0 (.frame [("type", .str "remote_terminal_buffer"), ("grant_jti", .str jti),
      ("terminal_id", .str terminal)]) ++
    answer 0 (.flag true) ++ [.resume 0]

/-- Three grants, two of which expire half a second after second 1000; one of these has its
terminal bound, and a scrollback request in flight. -/
def scrollingBack : List SocketEvent :=
  [.outside ⟨900, 0⟩, .resume 0] ++ attachFirst (attachGrant "first" plainTarget (2001 / 2)) ++
    attachAgain (attachGrant "second" plainTarget (2001 / 2)) ++
    attachFirst (attachGrant "third" otherTarget 2000) ++
    [.resume 1] ++ nameTerminal 1 (plainRuntime.uuid4hex 1) "terminal" ++ [.resume 2] ++
    askScrollback "second" "terminal"

def scrollback (terminal : Json) : Value :=
  .frame [("type", .str "terminal_buffer_response"),
    ("request_id", .str (plainRuntime.uuid4hex 3)), ("terminal_id", terminal)]

theorem scrollingBack_keepsPanes :
    KeepsPanes plainRuntime (afterEvents plainRuntime plainSource
      (scrollingBack ++ [.serve 1 (.ok (scrollback (.str "terminal")))])) (.resume 1) :=
  panes_kept (by decide +kernel)

/-- At second 1000.2 both listeners find grants of theirs expired, and the source presents
the second grant again, whose claim has lapsed. -/
def registeredAgain : List SocketEvent :=
  scrollingBack ++ [.outside ⟨501 / 5, 0⟩] ++
    -- the first listener tells the source of the first grant, the second of the second
    answer 1 (scrollback .null) ++ answer 2 (.frame [("type", .str "terminal_list")]) ++
    attachAgain (attachGrant "second" plainTarget (2001 / 2)) ++
    -- the first grant is torn down, and the first listener comes to the scrollback
    answer 1 .unit ++ answer 1 (.flag true) ++ [.resume 3] ++ answer 3 .unit ++
    [.serve 1 (.ok .unit)]

def unboundBuffer : Frame :=
  [("type", .str "remote_terminal_buffer"), ("grant_jti", .str "second"), ("terminal_id", .null),
    ("data", .null), ("start_offset", .null), ("ring_start_offset", .null),
    ("total_bytes_produced", .null)]

/-- The scrollback is handed on under a grant that is bound to no terminal. -/
theorem registered_again_crosses :
    ¬ ∀ (rt : Runtime) (deviceId : String) (events : List SocketEvent) (event : SocketEvent),
      KeepsPanes rt (afterEvents rt deviceId events) event := by
  intro h
  have hissued : (machine plainRuntime).issued
      (afterEvents plainRuntime plainSource registeredAgain) (.resume 1) =
        some (1, .sendToSource unboundBuffer) := by decide +kernel
  obtain ⟨_, _, _, terminal, _, hshows⟩ :=
    h plainRuntime plainSource registeredAgain (.resume 1) 1 unboundBuffer hissued
      (by decide +kernel)
  have hterminal : Json.null = .str terminal := hshows.terminalId
  cases hterminal

end Qontinui.Relay
