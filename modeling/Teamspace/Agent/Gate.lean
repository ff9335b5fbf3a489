import Teamspace.Agent.CommitSoundness

/-!
# The two factors of a callback

`/callback` asks for a signed state and for an `oauth_session` cookie beside it. Both are JWTs over
the same claims under the same key, and the cookie is checked for the CSRF claim only. So a state is
a cookie for itself: a `/callback` that presents a state twice is refused only where the state is
refused whatever cookie comes with it (`state_is_its_own_cookie`).
-/

namespace Teamspace.Agent

open Teamspace.Lib Teamspace.Py Teamspace.Lib.System

variable {Tok : Type} (E : Env Tok)

/-- Go on from a look at the wall clock, at time `now`. -/
def atTime {α : Type} (now : Rat) : Coro α → Coro α
  | .op .time k => k now
  | p => p

/-- At wall-clock time `now` a `/callback` is answered with an error page, before it touches the
store or sends anything. -/
def Refused (code : String) (state : Tok) (cookie : Option Tok) (now : Rat) : Prop :=
  ∃ kind status, atTime now (oauthCallback E code state cookie) = .ret (.error kind status)

/-- A state for thread `t` with CSRF token `csrf`, issued at time `issued`, is refused at time `now`
with any cookie: it has expired; or it does not resolve to a thread, and `MOCK_LLM` is off; or it
carries no CSRF token. -/
def StateRefused (t csrf : String) (issued : Int) (now : Rat) : Prop :=
  (issued + oauthStateTtlSeconds : Int) ≤ now ∨
    (E.settings.mockLlm = false ∧ (now < issued ∨ t = "")) ∨
    ((issued : Rat) ≤ now ∧ t ≠ "" ∧ csrf = "")

/-! ## The gate -/

/-- A request is refused exactly when its gate refuses it. -/
theorem refused_iff {key : String} (hkey : E.settings.stateJwtSigningSecret = .ok key)
    (code : String) (state : Tok) (cookie : Option Tok) (now : Rat) :
    Refused E code state cookie now ↔ ∃ kind, callbackGate E state cookie key now = .error kind := by
  rw [Refused, oauthCallback_eq E hkey]
  dsimp only [atTime]
  cases callbackGate E state cookie key now with
  | error kind => exact ⟨fun _ => ⟨kind, rfl⟩, fun _ => ⟨kind, 400, rfl⟩⟩
  | ok p =>
    refine ⟨?_, ?_⟩
    · -- what has passed the gate goes on to read the credentials of the agent
      rintro ⟨kind, status, h⟩
      cases h
    · rintro ⟨kind, h⟩
      cases h

/-- What a signed token is decoded to. -/
theorem decode_encode (c : StateClaims) (key : String) (now : Rat) :
    E.jwt.decode (E.jwt.encode c key) key now =
      if now < c.iat then .error .invalid
      else if (c.exp : Rat) ≤ now then .error .expired
      else .ok c := by
  rw [JwtLib.decode, E.jwt.verify_encode]

section
variable {E} {key t action csrf : String} {issued : Int} {now : Rat}

/-- A state that lies in the future does not resolve. -/
theorem callbackGate_future (h : now < issued) (cookie : Option Tok) :
    (∃ kind, callbackGate E (E.jwt.encode (statePayload t action csrf issued) key) cookie key now =
      .error kind) ↔ E.settings.mockLlm = false := by
  have hd : E.jwt.decode (E.jwt.encode (statePayload t action csrf issued) key) key now =
      .error .invalid := by
    rw [decode_encode]
    exact if_pos h
  unfold callbackGate decodeSignedState
  rw [hd]
  cases E.settings.mockLlm <;> simp [present]

/-- A state that has expired is refused. -/
theorem callbackGate_expired (h : (issued : Rat) ≤ now)
    (he : (issued + oauthStateTtlSeconds : Int) ≤ now) (cookie : Option Tok) :
    callbackGate E (E.jwt.encode (statePayload t action csrf issued) key) cookie key now =
      .error .expired := by
  have hd : E.jwt.decode (E.jwt.encode (statePayload t action csrf issued) key) key now =
      .error .expired := by
    rw [decode_encode]
    exact (if_neg (not_lt.2 h)).trans (if_pos he)
  unfold callbackGate decodeSignedState
  rw [hd]

/-- A state that lives is decoded to its claims. -/
theorem decode_live (h : (issued : Rat) ≤ now)
    (he : now < (issued + oauthStateTtlSeconds : Int)) :
    E.jwt.decode (E.jwt.encode (statePayload t action csrf issued) key) key now =
      .ok (statePayload t action csrf issued) := by
  rw [decode_encode]
  exact (if_neg (not_lt.2 h)).trans (if_neg (not_le.2 he))

/-- A state without a thread does not resolve either. -/
theorem callbackGate_no_thread (h : (issued : Rat) ≤ now)
    (he : now < (issued + oauthStateTtlSeconds : Int)) (cookie : Option Tok) :
    (∃ kind, callbackGate E (E.jwt.encode (statePayload "" action csrf issued) key) cookie key now =
      .error kind) ↔ E.settings.mockLlm = false := by
  have hp : present ((some (statePayload "" action csrf issued)).bind (·.threadId)) = none := rfl
  unfold callbackGate decodeSignedState
  rw [decode_live h he]
  dsimp only
  rw [hp]
  cases E.settings.mockLlm <;> simp

/-- A state that resolves to a thread is let pass as its cookie lets it. -/
theorem callbackGate_live (h : (issued : Rat) ≤ now)
    (he : now < (issued + oauthStateTtlSeconds : Int)) (ht : t ≠ "") (cookie : Option Tok) :
    callbackGate E (E.jwt.encode (statePayload t action csrf issued) key) cookie key now =
      match verifyOauthCookie E cookie (some csrf) key now with
      | some kind => .error kind
      | none => .ok (t, some action) := by
  have hp : present ((some (statePayload t action csrf issued)).bind (·.threadId)) = some t :=
    if_pos (decide_eq_true ht)
  unfold callbackGate decodeSignedState
  rw [decode_live h he]
  dsimp only
  rewrite [hp]
  rfl

/-- A live state is its own cookie. -/
theorem verifyOauthCookie_self (h : (issued : Rat) ≤ now)
    (he : now < (issued + oauthStateTtlSeconds : Int)) (hc : csrf ≠ "") :
    verifyOauthCookie E (some (E.jwt.encode (statePayload t action csrf issued) key)) (some csrf)
      key now = none := by
  unfold verifyOauthCookie
  rw [Option.filter_some, if_pos (decide_eq_true (E.jwt.text_encode_ne_empty _ _))]
  dsimp only
  rw [decode_live h he]
  simp [statePayload, present, hc]

/-- No cookie helps a state without a CSRF token. -/
theorem verifyOauthCookie_no_csrf (cookie : Option Tok) :
    ∃ kind, verifyOauthCookie E cookie (some "") key now = some kind := by
  unfold verifyOauthCookie
  split
  · exact ⟨_, rfl⟩
  · split
    · exact ⟨_, rfl⟩
    · exact ⟨_, rfl⟩
    · exact ⟨_, if_pos (by simp [present])⟩

end

/-! ## A state and what is made of it -/

/-- A `/callback` that presents an issued state with a cookie made of that state alone is refused,
for every way to make one, exactly where the state is refused with any cookie. -/
theorem state_is_its_own_cookie {key : String}
    (hkey : E.settings.stateJwtSigningSecret = .ok key) (code t action csrf : String)
    (issued : Int) (now : Rat) :
    (∀ f : Tok → Tok, Refused E code (E.jwt.encode (statePayload t action csrf issued) key)
      (some (f (E.jwt.encode (statePayload t action csrf issued) key))) now) ↔
      StateRefused E t csrf issued now := by
  simp only [refused_iff E hkey, StateRefused]
  have hlong : (issued : Rat) < (issued + oauthStateTtlSeconds : Int) := by
    exact_mod_cast Int.lt_add_of_pos_right issued (by decide)
  rcases lt_or_ge now (issued : Rat) with hf | hi
  · -- the state lies in the future
    refine ⟨fun h => ?_, fun h f => (callbackGate_future hf _).2 ?_⟩
    · exact .inr (.inl ⟨(callbackGate_future hf _).1 (h id), .inl hf⟩)
    · rcases h with h | ⟨h, -⟩ | ⟨h, -, -⟩
      · exact absurd h (not_le.2 (hf.trans hlong))
      · exact h
      · exact absurd h (not_le.2 hf)
  rcases le_or_gt ((issued + oauthStateTtlSeconds : Int) : Rat) now with he | hl
  · exact ⟨fun _ => .inl he, fun _ f => ⟨_, callbackGate_expired hi he _⟩⟩
  by_cases ht : t = ""
  · -- it lives, but resolves to no thread
    subst ht
    refine ⟨fun h => ?_, fun h f => (callbackGate_no_thread hi hl _).2 ?_⟩
    · exact .inr (.inl ⟨(callbackGate_no_thread hi hl _).1 (h id), .inr rfl⟩)
    · rcases h with h | ⟨h, -⟩ | ⟨-, h, -⟩
      · exact absurd h (not_le.2 hl)
      · exact h
      · exact absurd rfl h
  · simp only [callbackGate_live hi hl ht]
    by_cases hc : csrf = ""
    · subst hc
      refine ⟨fun _ => .inr (.inr ⟨hi, ht, rfl⟩), fun _ f => ?_⟩
      obtain ⟨kind, hk⟩ : ∃ kind, verifyOauthCookie E
          (some (f (E.jwt.encode (statePayload t action "" issued) key))) (some "") key now =
          some kind := verifyOauthCookie_no_csrf _
      exact ⟨kind, by rw [hk]⟩
    · -- the state itself passes for the cookie
      refine ⟨fun h => ?_, fun h => ?_⟩
      · obtain ⟨kind, hk⟩ := h id
        rw [id, verifyOauthCookie_self hi hl hc] at hk
        cases hk
      · rcases h with h | ⟨-, h | h⟩ | ⟨-, -, h⟩
        · exact absurd h (not_le.2 hl)
        · exact absurd h (not_lt.2 hi)
        · exact absurd h ht
        · exact absurd h hc

open Symbolic in
/-- Two minutes past its end, a captured state is worthless. -/
theorem expired_state_refused : ((0 + oauthStateTtlSeconds : Int) : Rat) ≤ 420 ∧
    ∀ f : Symbolic.Tok → Symbolic.Tok,
      Refused env "code" (env.jwt.encode (statePayload "t" "book" "x" 0) "key")
        (some (f (env.jwt.encode (statePayload "t" "book" "x" 0) "key"))) 420 := by
  have hlate : ((0 + oauthStateTtlSeconds : Int) : Rat) ≤ 420 := by decide +kernel
  have hkey : env.settings.stateJwtSigningSecret = .ok "key" := rfl
  exact ⟨hlate, (state_is_its_own_cookie env hkey "code" "t" "book" "x" 0 420).2 (.inl hlate)⟩

/-- The service lets a `/callback` complete with a copy of its state for a cookie. -/
theorem copied_state_accepted : ¬ ∀ (c : (agentSystem Symbolic.env).Config) j url cookie i code
    (f : Symbolic.Tok → Symbolic.Tok) σ, System.Reachable (Shared.start 0 0) c →
    Issued c.world.log j url cookie →
    Spawned c.world.log i (.callback code url.state (some (f url.state))) →
    ⟨i, σ, .finish (.ok (.page .authorized))⟩ ∉ c.world.log := by
  intro h
  obtain ⟨j, url, cookie, hurl, hstate⟩ := issued_of_state
    (l := (Symbolic.play Symbolic.booked).world.log) (s := Symbolic.state "book" 1)
    (by decide +kernel)
  have hs : Spawned (Symbolic.play Symbolic.booked).world.log 3
      (.callback "code" (Symbolic.state "book" 1) (some (Symbolic.state "book" 1))) :=
    spawned_of_started (by decide +kernel)
  have hend : 3 ∈ (Symbolic.play Symbolic.booked).world.log.filterMap endedAuthorized := by
    decide +kernel
  obtain ⟨σ, hσ⟩ := finish_of_endedAuthorized hend
  refine h _ j url cookie 3 "code" id σ (Symbolic.play_reachable _) hurl ?_ hσ
  rw [hstate]
  exact hs

end Teamspace.Agent
