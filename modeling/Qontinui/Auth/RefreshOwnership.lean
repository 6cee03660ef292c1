import Mathlib.Data.List.Induction
import Qontinui.Auth.TokenRefresh

/-!
Whose session a refresh exchange acts on when it comes back: the one that spent
its refresh token, as long as no other has taken its place meanwhile.
-/

namespace Qontinui.Auth.RefreshService

open Qontinui.Auth

variable (extractExpiry : String → Option Rat)

/-- When an exchange settles, the stored tokens change only if the refresh token it spent is
still the one stored. -/
def ActsOnOwnSession (service : RefreshService) (event : SessionEvent) : Prop :=
  ∀ answer refreshToken, event = .settle answer →
    service.refreshPromise = some (.exchanging refreshToken) →
    (step extractExpiry service event).storage ≠ service.storage →
    service.storage.refreshToken = some refreshToken

/-- Whether the last login or logout was a logout. -/
def signedOut (events : List SessionEvent) : Bool :=
  events.foldl
    (fun out event =>
      match event with
      | .clearTokens => true
      | .setTokens _ => false
      | _ => out)
    false

/-- No bearer and no refresh token, in memory or in the browser's store. -/
structure NoTokens (storage : TokenStorage) : Prop where
  accessToken : storage.accessToken = none
  refreshToken : storage.refreshToken = none
  sessionAccessToken : storage.sessionAccessToken = none
  sessionRefreshToken : storage.sessionRefreshToken = none

/-- Along the run every exchange acts on its own session, and nothing is stored after a
logout until the next login. -/
def KeepsSessions (storage : TokenStorage) (events : List SessionEvent) : Prop :=
  (∀ front event, front ++ [event] <+: events →
    ActsOnOwnSession extractExpiry (after extractExpiry storage front) event) ∧
  ∀ front, front <+: events → signedOut front = true →
    NoTokens (after extractExpiry storage front).storage

/-- The answer leaves the stored tokens alone. -/
def Harmless (service : RefreshService) : Answer → Prop
  | .tokens _ _ => False
  | .rejected => service.storage = {}
  | .failed =>
      service.storage = {} ∨
        service.consecutiveTransientFailures + 1 < maxConsecutiveTransientFailures

/-- An exchange comes back to the session that began it, or with an answer that leaves the
stored tokens alone. -/
def Undisturbed (service : RefreshService) (event : SessionEvent) : Prop :=
  ∀ answer refreshToken, event = .settle answer →
    service.refreshPromise = some (.exchanging refreshToken) →
    service.storage.refreshToken = some refreshToken ∨ Harmless service answer

variable {extractExpiry}

@[simp] theorem expireSession_storage (service : RefreshService) :
    service.expireSession.storage = {} := by
  simp only [expireSession]
  split <;> rfl

def Spends (service : RefreshService) : Prop :=
  ∀ refreshToken, service.refreshPromise = some (.exchanging refreshToken) → refreshToken ≠ ""

theorem step_spends (service : RefreshService) (event : SessionEvent) (h : Spends service) :
    Spends (step extractExpiry service event) := by
  intro refreshToken hflight
  cases event with
  | refresh =>
      simp only [step, refreshWithOutcome] at hflight
      split at hflight
      · exact h refreshToken hflight
      · simp only [beginRefresh] at hflight
        split at hflight
        · cases hflight
        · next token htoken =>
            cases hflight
            simpa using (Option.filter_eq_some_iff.mp htoken).2
  | settle | release =>
      simp only [step] at hflight
      split at hflight
      · cases hflight
      · exact h refreshToken hflight
  | start =>
      simp only [step, start] at hflight
      split at hflight
      · exact h refreshToken hflight
      · exact h refreshToken hflight
  | setTokens | clearTokens | setAuthenticated | stop | tick => exact h refreshToken hflight

theorem after_spends (storage : TokenStorage) (events : List SessionEvent) :
    Spends (after extractExpiry storage events) :=
  Runs.invariant_of_step (step extractExpiry) Spends step_spends (loaded storage) events
    fun _ h => by cases h

theorem settle_storage {service : RefreshService} {refreshToken : String} (answer : Answer)
    (hflight : service.refreshPromise = some (.exchanging refreshToken)) :
    (step extractExpiry service (.settle answer)).storage =
      (settleRefresh extractExpiry refreshToken answer service).1.storage := by
  simp only [step, hflight]

/-- The step lemma. -/
theorem actsOnOwnSession_iff (service : RefreshService) (event : SessionEvent)
    (h : Spends service) :
    ActsOnOwnSession extractExpiry service event ↔ Undisturbed service event := by
  constructor
  · rintro hacts answer refreshToken rfl hflight
    have hacts := hacts answer refreshToken rfl hflight
    rw [settle_storage answer hflight] at hacts
    by_cases hown : service.storage.refreshToken = some refreshToken
    · exact .inl hown
    · have hsame := not_not.mp fun hne => hown (hacts hne)
      cases answer with
      | tokens idToken expiresIn =>
          have hstored : (settleRefresh extractExpiry refreshToken (.tokens idToken expiresIn)
              service).1.storage.refreshToken = some refreshToken :=
            setTokens_refreshToken extractExpiry service.now _ service.storage
              (h refreshToken hflight)
          rw [hsame] at hstored
          exact (hown hstored).elim
      | rejected =>
          simp only [settleRefresh, expireSession_storage] at hsame
          exact .inr hsame.symm
      | failed =>
          simp only [settleRefresh] at hsame
          split at hsame
          · rw [expireSession_storage] at hsame
            exact .inr (.inl hsame.symm)
          · next hfew => exact .inr (.inr (not_le.mp hfew))
  · rintro hundisturbed answer refreshToken rfl hflight hchanged
    rw [settle_storage answer hflight] at hchanged
    rcases hundisturbed answer refreshToken rfl hflight with hown | hharmless
    · exact hown
    · cases answer with
      | tokens idToken expiresIn => exact hharmless.elim
      | rejected =>
          simp only [settleRefresh, expireSession_storage] at hchanged
          exact (hchanged hharmless.symm).elim
      | failed =>
          simp only [settleRefresh] at hchanged
          split at hchanged
          · next hmany =>
              rw [expireSession_storage] at hchanged
              rcases hharmless with hempty | hfew
              · exact (hchanged hempty.symm).elim
              · exact (not_le.mpr hfew hmany).elim
          · exact (hchanged rfl).elim

theorem noTokens_empty : NoTokens {} := ⟨rfl, rfl, rfl, rfl⟩

theorem signedOut_concat (events : List SessionEvent) (event : SessionEvent) :
    signedOut (events ++ [event]) =
      match event with
      | .clearTokens => true
      | .setTokens _ => false
      | _ => signedOut events := by
  simp only [signedOut, List.foldl_append, List.foldl_cons, List.foldl_nil]

/-- Nothing but a login stores tokens where there are none. -/
theorem step_noTokens {service : RefreshService} {event : SessionEvent}
    (hnone : NoTokens service.storage) (hundisturbed : Undisturbed service event)
    (hlogin : ∀ tokens, event ≠ .setTokens tokens) :
    NoTokens (step extractExpiry service event).storage := by
  cases event with
  | refresh =>
      simp only [step, refreshWithOutcome, beginRefresh, hnone.refreshToken]
      split
      · exact hnone
      · simpa using noTokens_empty
  | settle answer =>
      simp only [step]
      split
      · next refreshToken hflight =>
          rcases hundisturbed answer refreshToken rfl hflight with hown | hharmless
          · rw [hnone.refreshToken] at hown
            cases hown
          · cases answer with
            | tokens idToken expiresIn => exact hharmless.elim
            | rejected => simpa [settleRefresh] using noTokens_empty
            | failed =>
                simp only [settleRefresh]
                split
                · simpa using noTokens_empty
                · exact hnone
      · exact hnone
  | setTokens tokens => exact (hlogin tokens rfl).elim
  | clearTokens => exact noTokens_empty
  | setAuthenticated => exact ⟨hnone.1, hnone.2, hnone.3, hnone.4⟩
  | release =>
      simp only [step]
      split <;> exact hnone
  | start =>
      simp only [step, start]
      split <;> exact hnone
  | stop | tick => exact hnone

theorem noTokens_of_signedOut (storage : TokenStorage) (events : List SessionEvent)
    (h : Runs.Meets (step extractExpiry) Undisturbed (loaded storage) events)
    (hout : signedOut events = true) : NoTokens (after extractExpiry storage events).storage := by
  induction events using List.reverseRecOn with
  | nil => cases hout
  | append_singleton front event ih =>
      obtain ⟨hfront, hevent⟩ := (Runs.meets_append _ _ front [event]).mp h
      rw [signedOut_concat] at hout
      rw [after, Runs.run_concat]
      by_cases hlogin : ∃ tokens, event = .setTokens tokens
      · obtain ⟨tokens, rfl⟩ := hlogin
        cases hout
      · by_cases hlogout : event = .clearTokens
        · subst hlogout
          exact noTokens_empty
        · apply step_noTokens _ hevent.1 fun tokens heq => hlogin ⟨tokens, heq⟩
          apply ih hfront
          cases event with
          | setTokens tokens => exact (hlogin ⟨tokens, rfl⟩).elim
          | clearTokens => exact (hlogout rfl).elim
          | refresh | settle | release | setAuthenticated | start | stop | tick => exact hout

/-- A refresh never acts on another session exactly where no exchange comes back to one. -/
theorem keepsSessions_iff (storage : TokenStorage) (events : List SessionEvent) :
    KeepsSessions extractExpiry storage events ↔
      Runs.Meets (step extractExpiry) Undisturbed (loaded storage) events := by
  have hsteps : (∀ front event, front ++ [event] <+: events →
      ActsOnOwnSession extractExpiry (after extractExpiry storage front) event) ↔
      Runs.Meets (step extractExpiry) Undisturbed (loaded storage) events := by
    rw [Runs.meets_iff_forall_step]
    apply forall₃_congr
    intro front event _
    exact actsOnOwnSession_iff _ event (after_spends storage front)
  refine ⟨fun h => hsteps.mp h.1, fun h => ⟨hsteps.mpr h, fun front hfront hout => ?_⟩⟩
  obtain ⟨rest, rfl⟩ := hfront
  exact noTokens_of_signedOut storage front ((Runs.meets_append _ _ front rest).mp h).1 hout

/-- A logout while the exchange is in flight: its answer signs the user in again. -/
theorem refresh_undoes_logout :
    ¬ KeepsSessions (fun _ => none)
      { sessionAccessToken := some "bearer", sessionRefreshToken := some "refresh" }
      [.refresh, .clearTokens, .settle (.tokens (some "renewed") none)] := by
  intro h
  have hnone := h.2 _ (List.prefix_refl _) rfl
  exact absurd hnone.refreshToken (by decide)

end Qontinui.Auth.RefreshService
