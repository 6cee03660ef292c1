import Qontinui.Base.Json
import Qontinui.Base.PyText

/-!
The wire vocabulary of the remote-terminal relay: frames, refusal codes and the
predicates on them. A frame is a dict; a key that is missing reads as `None`.
-/

namespace Qontinui.Relay

abbrev Frame := List (String × Json)

/-- `frame.get(key)`. -/
def Frame.get (frame : Frame) (key : String) : Json := (frame.lookup key).getD .null

/-- A `str | None` as a JSON value. -/
def optional : Option String → Json
  | none => .null
  | some text => .str text

/-- `value if isinstance(value, str) else None`. -/
def textOf? : Json → Option String
  | .str text => some text
  | _ => none

/-- The truth value Python gives a JSON value. -/
def pyTruthy : Json → Bool
  | .null => false
  | .bool b => b
  | .num n => n ≠ 0
  | .str s => s ≠ ""
  | .arr items => !items.isEmpty
  | .obj fields => !fields.isEmpty

/-- The entries of `frame` whose key is not one of `owned`. -/
def Frame.without (frame : Frame) (owned : List String) : Frame :=
  frame.filter fun field => field.1 ∉ owned

/-- `{**frame, **entries}`. -/
def Frame.override (frame entries : Frame) : Frame :=
  entries.foldl (fun (merged : Frame) field => Fields.set field.1 field.2 merged) frame

/-- What the runtime supplies: the Unicode tables, how a time reads as a timestamp, and
the ids `uuid4` draws. -/
structure Runtime where
  unicode : PyUnicode
  isoformat : Rat → String
  uuid4hex : Nat → String

def plainRuntime : Runtime where
  unicode := .ascii
  isoformat _ := ""
  uuid4hex n := String.ofList (List.replicate n 'a')

def endOutcomes : List String := ["ended", "refused", "still_running", "unknown", "not_found"]
def endOutcomeFallback : String := "unknown"

def attachGrantSubType : String := "attach_grant"
def createGrantSubType : String := "create_grant"

/-- Which capability an attachment holds. -/
inductive Kind where
  | attach
  | create
deriving DecidableEq, Repr

/-! ### Refusal codes -/

def codeGrantInvalid : String := "attach_grant_invalid"
def codeGrantExpired : String := "attach_grant_expired"
def codeGrantWrongSource : String := "attach_grant_wrong_source"
def codeNotRegistered : String := "attach_not_registered"
def codeVerifierUnavailable : String := "attach_verifier_unavailable"
def codeRegistryUnavailable : String := "attach_registry_unavailable"
def codeGrantConsumed : String := "attach_grant_consumed"
def codeTerminalBusy : String := "attach_terminal_busy"
def codeTargetNotConnected : String := "target_not_connected"
def codeCreateGrantInvalid : String := "create_grant_invalid"
def codeCreateGrantExpired : String := "create_grant_expired"
def codeCreateGrantWrongSource : String := "create_grant_wrong_source"
def codeCreateGrantConsumed : String := "create_grant_consumed"
def codeGrantWrongKind : String := "grant_wrong_kind"
def codeListenerLost : String := "listener_lost"
def codeBufferBacklog : String := "buffer_backlog"
def codeEndTimeout : String := "end_reply_timeout"
def codeEndPending : String := "end_already_pending"

/-- The relay's own codes, the one minted at its point of use last. -/
def relayErrorCodes : List String :=
  [codeGrantInvalid, codeGrantExpired, codeGrantWrongSource, codeNotRegistered,
    codeVerifierUnavailable, codeRegistryUnavailable, codeGrantConsumed, codeTerminalBusy,
    codeTargetNotConnected, codeCreateGrantInvalid, codeCreateGrantExpired,
    codeCreateGrantWrongSource, codeCreateGrantConsumed, codeGrantWrongKind, codeListenerLost,
    codeBufferBacklog, codeEndTimeout, codeEndPending, "attach_terminal_missing"]

def targetCodeAttachGrantUnknown : String := "attach_grant_unknown"

def targetErrorCodes : List String :=
  [targetCodeAttachGrantUnknown, "attach_grant_expired", "attach_terminal_mismatch",
    "remote_attach_disabled", "session_not_local", "remote_create_disabled",
    "remote_create_grant_required", "remote_create_grant_unknown",
    "remote_create_grant_expired", "remote_create_no_target_directory",
    "remote_create_working_dir_not_allowed", "remote_create_intent_repo_not_allowed",
    "remote_create_source_user_not_allowed", "remote_type_not_admitted",
    "remote_block_required", "flow_paused_required", "terminal_exited",
    "coord_registration_unconfirmed", "device_drained", "drain_unreadable",
    "role_closes_agent_lane"]

def targetCodePrefix : String := "target_said_"
def targetCodeMax : Nat := 64
def targetMessageMax : Nat := 512
def targetCodeFallback : String := targetCodePrefix ++ "unknown"

def inputForwardRelayOwnedKeys : List String :=
  ["type", "remote", "grant_jti", "terminal_id", "request_id", "timestamp"]

def inputAckRelayOwnedKeys : List String :=
  ["type", "remote", "grant_jti", "terminal_id", "request_id", "code"]

/-- `text[:n]`. -/
def cut (n : Nat) (text : String) : String := String.ofList (text.toList.take n)

def isSlugChar (c : Char) : Bool :=
  ('a' ≤ c && c ≤ 'z') || ('0' ≤ c && c ≤ '9') || c == '_'

/-- `re.sub(r"[^a-z0-9_]+", "_", text)`. -/
def slugify : List Char → List Char
  | [] => []
  | c :: rest =>
      if isSlugChar c then c :: slugify rest
      else
        match rest with
        | [] => ['_']
        | d :: _ => if isSlugChar d then '_' :: slugify rest else slugify rest

/-- `text.strip("_")`. -/
def stripUnderscores (text : List Char) : List Char :=
  (text.dropWhile (· == '_')).rdropWhile (· == '_')

def namespaceTargetCode (u : PyUnicode) : Json → String
  | .str raw =>
      let code := String.ofList (pyStrip raw.toList)
      if code ∈ targetErrorCodes then code
      else
        let slug := (stripUnderscores (slugify (u.lower code).toList)).take targetCodeMax
        if slug = [] then targetCodeFallback
        else
          let namespaced := targetCodePrefix ++ String.ofList slug
          if namespaced ∈ relayErrorCodes then targetCodeFallback else namespaced
  | _ => targetCodeFallback

/-! ### UUIDs -/

/-- Drop every occurrence of `needle`; `skip` characters are still part of the last one. -/
def removeAll (needle : List Char) : Nat → List Char → List Char
  | _, [] => []
  | skip + 1, _ :: rest => removeAll needle skip rest
  | 0, c :: rest =>
      if needle.isPrefixOf (c :: rest) then removeAll needle (needle.length - 1) rest
      else c :: removeAll needle 0 rest

def isHexDigit (c : Char) : Bool :=
  ('0' ≤ c && c ≤ '9') || ('a' ≤ c && c ≤ 'f') || ('A' ≤ c && c ≤ 'F')

/-- `str(UUID(text))`, or nothing where `UUID` raises. -/
def parseUuid (text : String) : Option String :=
  let bare := removeAll "uuid:".toList 0 (removeAll "urn:".toList 0 text.toList)
  let unbraced := (bare.dropWhile ("{}".toList.contains ·)).rdropWhile ("{}".toList.contains ·)
  let hex := unbraced.filter (· != '-')
  if hex.length = 32 ∧ hex.all isHexDigit then
    let low := hex.map Char.toLower
    some (String.ofList (low.take 8 ++ '-' :: (low.drop 8).take 4 ++ '-' :: (low.drop 12).take 4 ++
      '-' :: (low.drop 16).take 4 ++ '-' :: low.drop 20))
  else none

/-- `str(UUID(str(value)))`: only strings and whole numbers print as hex digits. -/
def uuidOf : Json → Option String
  | .str text => parseUuid text
  | .num n => if n.den = 1 then parseUuid (toString n.num) else none
  | _ => none

/-- `_is_uuid`. -/
def isUuid : Json → Bool
  | .str text => (parseUuid (String.ofList (pyStrip text.toList))).isSome
  | _ => false

def createTargetDeviceId (claims : Frame) : Option String :=
  match claims.get "create" with
  | .obj block => uuidOf (Frame.get block "target_device_id")
  | _ => uuidOf (claims.get "target_device_id")

/-- A target frame that carries a `remote` block or a `grant_jti`. -/
def isRemoteMarked (frame : Frame) : Bool :=
  match frame.get "remote" with
  | .obj _ => true
  | _ => frame.get "grant_jti" ≠ .null

end Qontinui.Relay
