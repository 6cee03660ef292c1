import Mathlib.Data.Rat.Defs
import Qontinui.Base.Runs

/-!
The browser's token store and the facade before it: the bearer and the refresh
token in memory with their mirror in `sessionStorage`, the expiries and the
signed-in flag in `localStorage`, and the marker cookie.

The refresh service: one exchange of the stored refresh token for a new bearer
at a time, shared by all callers, and what its answer does to the session. When
a refresh is asked for is left open: the timers and the 401 handlers that ask
for one read nothing else of the service.
-/

namespace Qontinui.Auth

/-- `if (token)`: a string that is there and not empty. -/
def present (token : Option String) : Bool := token.any (· ≠ "")

structure TokenStorage where
  accessToken : Option String := none
  refreshToken : Option String := none
  sessionAccessToken : Option String := none
  sessionRefreshToken : Option String := none
  tokenExpiry : Option Rat := none
  refreshTokenExpiry : Option Rat := none
  isAuthenticated : Bool := false
  markerCookie : Bool := false
deriving DecidableEq, Repr

namespace TokenStorage

/-- What the constructor restores from a page's `sessionStorage`. -/
def restored (storage : TokenStorage) : TokenStorage :=
  { storage with
    accessToken := storage.sessionAccessToken, refreshToken := storage.sessionRefreshToken }

def saveAccessToken (token : Option String) (storage : TokenStorage) : TokenStorage :=
  if present token then
    { storage with
      accessToken := token, sessionAccessToken := token, markerCookie := true,
      isAuthenticated := true }
  else { storage with isAuthenticated := true }

def saveRefreshToken (token : Option String) (storage : TokenStorage) : TokenStorage :=
  if present token then { storage with refreshToken := token, sessionRefreshToken := token }
  else storage

/-- `saveTokenExpiry`, and `clearTokenExpiry` for none. -/
def writeTokenExpiry (expiry : Option Rat) (storage : TokenStorage) : TokenStorage :=
  { storage with tokenExpiry := expiry }

def saveRefreshTokenExpiry (expiry : Rat) (storage : TokenStorage) : TokenStorage :=
  { storage with refreshTokenExpiry := some expiry }

def clearAll (_storage : TokenStorage) : TokenStorage := {}

end TokenStorage

/-- A bearer read from a response body may be missing there. -/
structure TokenResponse where
  accessToken : Option String
  refreshToken : String
  expiresIn : Option Rat
  refreshExpiresIn : Rat
deriving DecidableEq, Repr

/-- `seconds ? Date.now() + seconds * 1000 : null`. -/
def expiryAfter (now : Rat) (seconds : Option Rat) : Option Rat :=
  (seconds.filter (· ≠ 0)).map fun seconds => now + seconds * 1000

/-- `setTokens`. The bearer's own `exp` claim, as `extractExpiry` reads it, wins over what the
issuer says. -/
def setTokens (extractExpiry : String → Option Rat) (now : Rat) (tokens : TokenResponse)
    (storage : TokenStorage) : TokenStorage :=
  let expiry :=
    match tokens.accessToken.bind extractExpiry with
    | some expiry => some expiry
    | none => expiryAfter now tokens.expiresIn
  let saved :=
    ((storage.saveAccessToken tokens.accessToken).saveRefreshToken
      (some tokens.refreshToken)).writeTokenExpiry expiry
  match (expiryAfter now (some tokens.refreshExpiresIn)).filter (· ≠ 0) with
  | some refreshExpiry => saved.saveRefreshTokenExpiry refreshExpiry
  | none => saved

/-- `clearTokens`. -/
def clearTokens (storage : TokenStorage) : TokenStorage := storage.clearAll

theorem setTokens_refreshToken (extractExpiry : String → Option Rat) (now : Rat)
    (tokens : TokenResponse) (storage : TokenStorage) (h : tokens.refreshToken ≠ "") :
    (setTokens extractExpiry now tokens storage).refreshToken = some tokens.refreshToken := by
  have hsaved : present (some tokens.refreshToken) = true := by simpa [present] using h
  simp only [setTokens]
  split <;> simp [TokenStorage.writeTokenExpiry, TokenStorage.saveRefreshTokenExpiry,
    TokenStorage.saveRefreshToken, hsaved]

inductive RefreshOutcome where
  | refreshed
  | expired
  | transient
deriving DecidableEq, Repr

def maxConsecutiveTransientFailures : Nat := 5

/-- The promise all callers share: while the exchange runs, and until its `finally`. -/
inductive Flight where
  | exchanging (refreshToken : String)
  | settled (outcome : RefreshOutcome)
deriving DecidableEq, Repr

/-- How `refreshCognitoTokens` comes back: with a body, with the authoritative rejection of
the refresh token, or with any other failure. -/
inductive Answer where
  | tokens (idToken : Option String) (expiresIn : Option Rat)
  | rejected
  | failed
deriving DecidableEq, Repr

structure RefreshService where
  storage : TokenStorage
  refreshPromise : Option Flight := none
  proactiveStarted : Bool := false
  consecutiveTransientFailures : Nat := 0
  sessionExpiryDispatched : Bool := false
  /-- How often `session-expired` has been dispatched. -/
  announced : Nat := 0
  now : Rat := 0
deriving DecidableEq, Repr

namespace RefreshService

/-- `expireSession`: announced at most once per live session. -/
def expireSession (service : RefreshService) : RefreshService :=
  let cleared :=
    { service with
      consecutiveTransientFailures := 0, storage := clearTokens service.storage }
  if cleared.sessionExpiryDispatched then cleared
  else { cleared with sessionExpiryDispatched := true, announced := cleared.announced + 1 }

/-- `doRefresh`, up to its await. -/
def beginRefresh (service : RefreshService) : RefreshService :=
  match service.storage.refreshToken.filter (· ≠ "") with
  | none => { service.expireSession with refreshPromise := some (.settled .expired) }
  | some refreshToken => { service with refreshPromise := some (.exchanging refreshToken) }

/-- `refreshWithOutcome`. -/
def refreshWithOutcome (service : RefreshService) : RefreshService :=
  match service.refreshPromise with
  | some _ => service
  | none => service.beginRefresh

/-- `doRefresh`, from its await on: the state and the outcome. -/
def settleRefresh (extractExpiry : String → Option Rat) (refreshToken : String) (answer : Answer)
    (service : RefreshService) : RefreshService × RefreshOutcome :=
  match answer with
  | .tokens idToken expiresIn =>
      ({ service with
          storage := setTokens extractExpiry service.now
            { accessToken := idToken, refreshToken, expiresIn, refreshExpiresIn := 0 }
            service.storage
          consecutiveTransientFailures := 0
          sessionExpiryDispatched := false }, .refreshed)
  | .rejected => (service.expireSession, .expired)
  | .failed =>
      let failures := service.consecutiveTransientFailures + 1
      if maxConsecutiveTransientFailures ≤ failures then
        ({ service with consecutiveTransientFailures := failures }.expireSession, .expired)
      else ({ service with consecutiveTransientFailures := failures }, .transient)

/-- The service's part of a session: the timers of the proactive path aside, `start` forgets
an earlier teardown. -/
def start (service : RefreshService) : RefreshService :=
  if service.proactiveStarted then service
  else
    { service with
      proactiveStarted := true, sessionExpiryDispatched := false,
      consecutiveTransientFailures := 0 }

def stop (service : RefreshService) : RefreshService := { service with proactiveStarted := false }

end RefreshService

/-- What can happen in the page between two moments. -/
inductive SessionEvent where
  | refresh
  | settle (answer : Answer)
  /-- The `finally` of the shared promise. -/
  | release
  | setTokens (tokens : TokenResponse)
  | clearTokens
  | setAuthenticated
  | start
  | stop
  | tick (milliseconds : NNRat)

namespace RefreshService

variable (extractExpiry : String → Option Rat)

def step (service : RefreshService) : SessionEvent → RefreshService
  | .refresh => service.refreshWithOutcome
  | .settle answer =>
      match service.refreshPromise with
      | some (.exchanging refreshToken) =>
          let (settled, outcome) := settleRefresh extractExpiry refreshToken answer service
          { settled with refreshPromise := some (.settled outcome) }
      | _ => service
  | .release =>
      match service.refreshPromise with
      | some (.settled _) => { service with refreshPromise := none }
      | _ => service
  | .setTokens tokens =>
      { service with storage := Auth.setTokens extractExpiry service.now tokens service.storage }
  | .clearTokens => { service with storage := Auth.clearTokens service.storage }
  | .setAuthenticated => { service with storage := { service.storage with isAuthenticated := true } }
  | .start => service.start
  | .stop => service.stop
  | .tick milliseconds => { service with now := service.now + milliseconds }

/-- The service of a page that has just loaded, over what the browser had stored. -/
def loaded (storage : TokenStorage) : RefreshService := { storage := storage.restored }

def after (storage : TokenStorage) (events : List SessionEvent) : RefreshService :=
  Runs.run (step extractExpiry) (loaded storage) events

end RefreshService

end Qontinui.Auth
