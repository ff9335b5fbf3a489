import Teamspace.Common.ServiceTokenClient

/-!
# When a call raises

A call of the client returns a token or `None` unless the reply to its request is one that the code
cannot handle (`Handled`): the clauses of `get_token` and `aget_token` catch `ValueError`, and a
body that is no object, a scope that is no text, and a lifetime out of range raise other exceptions.
-/

namespace Teamspace.Common

open Teamspace.Lib Teamspace.Py

/-- What comes of a call that begins in `σ`, and the state that it leaves. The reply to its request
arrives in `σ'`: other calls may have acted in the meantime. -/
def outcome (call : Call (Option Json)) (σ σ' : Client) (reply : TokenReply) :
    Except Exn (Option Json) × Client :=
  call.run clientExec (fun _ _ => (reply, σ')) σ

/-- A call in `σ` sends a request: it can, and it is forced or finds no token in the cache. -/
def Requests (forceRefresh : Bool) (σ : Client) : Prop :=
  σ.config.isUsable = true ∧ (forceRefresh = true ∨ σ.cached σ.config = none)

instance (forceRefresh : Bool) (σ : Client) : Decidable (Requests forceRefresh σ) :=
  inferInstanceAs (Decidable (_ ∧ _))

/-- The call returns a token or `None`. With `None` it leaves the cache as it found it when it
began, or when the reply arrived. -/
def Graceful (call : Bool → Call (Option Json)) (forceRefresh : Bool) (σ σ' : Client)
    (reply : TokenReply) : Prop :=
  ∃ result, (outcome (call forceRefresh) σ σ' reply).1 = .ok result ∧
    (result = none → (outcome (call forceRefresh) σ σ' reply).2.cache =
      if Requests forceRefresh σ then σ'.cache else σ.cache)

/-- A lifetime that `_store` can add to the clock. -/
def InRange (expiresIn : Json) : Prop :=
  expiresIn ≠ .num .inf ∧ expiresIn ≠ .num .negInf ∧
    ∀ n, int expiresIn = .ok n → n - 30 < Json.floatBound

/-- A reply that the code handles: the body of a response with status 200, if it is JSON, is an
object. If it has a token, its scope is a text, if there is one. If this contains the scope that
was asked for, the lifetime is in range. -/
def Handled (config : M2MConfig) : TokenReply → Prop
  | .requestError => True
  | .response statusCode json =>
    statusCode = 200 → ∀ body, json = some body → ∃ d, body = .obj d ∧
      ((field d "access_token").truthy = true → (field d "scope").truthy = true →
        ∃ scope, field d "scope" = .str scope ∧
          (config.scope ∈ split scope → InRange (field d "expires_in")))

/-! ## Lifetimes -/

/-- The bound of floats is above the default lifetime. -/
theorem floatBound_gt : 300 < Json.floatBound := by
  unfold Json.floatBound
  decide +kernel

/-- A time to live is a float exactly if the lifetime is below the bound. -/
theorem ttlOf_lt {L : Int} : (ttlOf L).natAbs < Json.floatBound ↔ L - 30 < Json.floatBound := by
  have := floatBound_gt
  unfold ttlOf expirySkewSeconds
  omega

/-- A text that is no integer raises `ValueError`. -/
theorem intOfStr_error {s : String} {e : Exn} (h : intOfStr s = .error e) : e = .valueError := by
  simp only [intOfStr] at h
  split at h
  · exact (Except.error.inj h).symm
  · split at h
    · exact (Except.error.inj h).symm
    · cases h

/-- `int` raises `OverflowError` only for an infinity. -/
theorem int_overflow {v : Json} (h : v = .num .inf ∨ v = .num .negInf) :
    int v = .error .overflowError := by
  rcases h with rfl | rfl <;> rfl

/-- What does not convert raises one of the two exceptions, but for the infinities. -/
theorem int_error {v : Json} {e : Exn} (h : int v = .error e) (hv : v ≠ .num .inf)
    (hv' : v ≠ .num .negInf) : e = .typeError ∨ e = .valueError := by
  cases v with
  | null | arr | obj => exact .inl (Except.error.inj h).symm
  | bool => cases h
  | str s => exact .inr (intOfStr_error h)
  | num n =>
    cases n with
    | int | float => cases h
    | inf => exact absurd rfl hv
    | negInf => exact absurd rfl hv'
    | nan => exact .inr (Except.error.inj h).symm

/-- A lifetime in range is one that is read and can be added. -/
theorem inRange_iff {v : Json} :
    InRange v ↔ ∃ L, lifetimeOf v = .ok L ∧ (ttlOf L).natAbs < Json.floatBound := by
  have hdefault : (ttlOf defaultLifetimeSeconds).natAbs < Json.floatBound :=
    ttlOf_lt.2 (by have := floatBound_gt; unfold defaultLifetimeSeconds; omega)
  constructor
  · rintro ⟨hinf, hneg, hlt⟩
    unfold lifetimeOf
    cases hi : int v with
    | ok n => exact ⟨n, rfl, ttlOf_lt.2 (hlt n hi)⟩
    | error e =>
      rcases int_error hi hinf hneg with rfl | rfl
      · exact ⟨_, rfl, hdefault⟩
      · exact ⟨_, rfl, hdefault⟩
  · rintro ⟨L, hL, hlt⟩
    have hne : ¬ (v = .num .inf ∨ v = .num .negInf) := fun hv => by
      unfold lifetimeOf at hL
      rw [int_overflow hv] at hL
      cases hL
    refine ⟨fun h => hne (.inl h), fun h => hne (.inr h), fun n hn => ?_⟩
    unfold lifetimeOf at hL
    rw [hn] at hL
    cases hL
    exact ttlOf_lt.1 hlt

/-! ## Outcomes -/

/-- What a client makes of a body raises no exception. -/
def Fine (config : M2MConfig) (json : Option Json) : Prop :=
  match verdict config json with
  | .refuse => True
  | .raise _ => False
  | .keep _ lifetime => (ttlOf lifetime).natAbs < Json.floatBound

/-- The bodies that the code handles are those of which it makes something. -/
theorem handled_iff_fine {config : M2MConfig} {json : Option Json} :
    Handled config (.response 200 json) ↔ Fine config json := by
  match json with
  | none => exact ⟨fun _ => trivial, fun _ _ _ h => nomatch h⟩
  | some .null | some (.bool _) | some (.num _) | some (.str _) | some (.arr _) =>
    refine ⟨fun h => ?_, fun h => h.elim⟩
    obtain ⟨d, hd, -⟩ := h rfl _ rfl
    cases hd
  | some (.obj d) =>
    have hobj : Handled config (.response 200 (some (.obj d))) ↔
        ((field d "access_token").truthy = true → (field d "scope").truthy = true →
          ∃ scope, field d "scope" = .str scope ∧
            (config.scope ∈ split scope → InRange (field d "expires_in"))) := by
      constructor
      · intro h
        obtain ⟨_, hd, h⟩ := h rfl _ rfl
        cases hd
        exact h
      · rintro h - _ ⟨⟩
        exact ⟨d, rfl, h⟩
    rw [hobj]
    unfold Fine
    rw [verdict]
    by_cases ht : (field d "access_token").truthy = true
    · rw [if_neg (by simp [ht])]
      by_cases hs : (field d "scope").truthy = true
      · rw [pyOr, if_pos hs]
        cases hscope : field d "scope" with
        | str scope =>
          change _ ↔ match (if config.scope ∉ split scope then Verdict.refuse else _) with
            | .refuse => True | .raise _ => False | .keep _ L => (ttlOf L).natAbs < Json.floatBound
          by_cases hmem : config.scope ∈ split scope
          · rw [if_neg (not_not_intro hmem)]
            have hrange : ((field d "access_token").truthy = true →
                (Json.str scope).truthy = true → ∃ s, Json.str scope = .str s ∧
                  (config.scope ∈ split s → InRange (field d "expires_in"))) ↔
                InRange (field d "expires_in") := by
              constructor
              · intro h
                obtain ⟨_, hs', h⟩ := h ht (hscope ▸ hs)
                cases hs'
                exact h hmem
              · exact fun h _ _ => ⟨scope, rfl, fun _ => h⟩
            rw [hrange, inRange_iff]
            cases lifetimeOf (field d "expires_in") with
            | error e =>
              constructor
              · rintro ⟨_, h, -⟩
                cases h
              · exact False.elim
            | ok L =>
              constructor
              · rintro ⟨_, h, hlt⟩
                cases h
                exact hlt
              · exact fun h => ⟨L, rfl, h⟩
          · rw [if_pos hmem]
            exact ⟨fun _ => trivial, fun _ _ _ => ⟨scope, rfl, fun h => absurd h hmem⟩⟩
        | null | bool | num | arr | obj =>
          refine ⟨fun h => ?_, fun h => h.elim⟩
          obtain ⟨_, h, -⟩ := h ht (hscope ▸ hs)
          cases h
      · rw [pyOr, if_neg hs]
        exact ⟨fun _ => trivial, fun _ _ h => absurd h hs⟩
    · rw [if_pos (Bool.eq_false_iff.2 ht)]
      exact ⟨fun _ => trivial, fun _ h => absurd h ht⟩

/-- What comes of the body of a response: `None`, with the cache as it is, or the token. -/
theorem outcome_handleResponse (config : M2MConfig) (json : Option Json) (σ σ' : Client)
    (reply : TokenReply) : outcome (handleResponse config json) σ σ' reply =
      match verdict config json with
      | .refuse => (.ok none, σ)
      | .raise e => (.error e, σ)
      | .keep token L =>
        if (ttlOf L).natAbs < Json.floatBound then
          (.ok (some token), (σ.store config token (ttlOf L)).2)
        else (.error .overflowError, σ) := by
  rw [handleResponse_eq]
  cases verdict config json with
  | refuse => rfl
  | raise e => rfl
  | keep token L =>
    change outcome (afterStore token (σ.store config token (ttlOf L)).1)
      (σ.store config token (ttlOf L)).2 σ' reply = _
    by_cases hlt : (ttlOf L).natAbs < Json.floatBound
    · dsimp only
      rw [if_pos hlt, Client.store_of_lt σ config token hlt]
      rfl
    · dsimp only
      rw [if_neg hlt, Client.store_of_not_lt σ config token hlt]
      rfl

section
variable {library : HttpLib} {forceRefresh : Bool} {σ σ' : Client} {reply : TokenReply}

/-- What comes of a call: at once without a request, and else what comes of the reply. -/
theorem outcome_acquire : outcome (acquire library forceRefresh) σ σ' reply =
    if Requests forceRefresh σ then outcome (fetch library σ.config) σ σ' reply
    else (.ok (if σ.config.isUsable then σ.cached σ.config else none), σ) := by
  rw [acquire_eq]
  change (if σ.config.isUsable = false then Program.ret none
    else if forceRefresh then fetch library σ.config
    else .op (.cached σ.config) (afterCached library σ.config) : Call _).run clientExec _ σ = _
  cases hu : σ.config.isUsable with
  | false =>
    have hr : ¬ Requests forceRefresh σ := fun h => Bool.false_ne_true (hu.symm.trans h.1)
    rw [if_pos rfl, if_neg hr]
    rfl
  | true =>
    rw [if_neg Bool.true_eq_false.mp, if_pos rfl]
    cases forceRefresh with
    | true =>
      rw [if_pos rfl, if_pos ⟨hu, .inl rfl⟩]
      rfl
    | false =>
      rw [if_neg Bool.false_ne_true]
      change (afterCached library σ.config (σ.cached σ.config)).run clientExec _ σ = _
      cases hc : σ.cached σ.config with
      | none =>
        rw [if_pos ⟨hu, .inr hc⟩]
        rfl
      | some token =>
        rw [if_neg]
        · rfl
        · rintro ⟨-, h | h⟩
          · cases h
          · cases hc.symm.trans h

/-- What a fetch makes of each reply. -/
theorem outcome_fetch (config : M2MConfig) : outcome (fetch library config) σ σ' reply =
    match reply with
    | .requestError => (.ok none, σ')
    | .response statusCode json =>
      if statusCode ≠ 200 then (.ok none, σ')
      else outcome (handleResponse config json) σ' σ' reply := by
  cases reply with
  | requestError => rfl
  | response statusCode json =>
    change Program.run (I := clientInterface) _ _ (if statusCode ≠ 200 then _ else _) _ = _
    by_cases hs : statusCode = 200
    · rw [if_neg (not_not_intro hs)]
      dsimp only
      rw [if_neg (not_not_intro hs)]
      rfl
    · rw [if_pos hs]
      dsimp only
      rw [if_pos hs]
      rfl

/-- A call is graceful exactly if it handles the reply, should it ask for one. -/
theorem graceful_iff_handled : Graceful (acquire library) forceRefresh σ σ' reply ↔
    (Requests forceRefresh σ → Handled σ.config reply) := by
  unfold Graceful
  rw [outcome_acquire]
  by_cases hr : Requests forceRefresh σ
  · rw [if_pos hr, if_pos hr, outcome_fetch]
    match reply with
    | .requestError => exact ⟨fun _ _ => trivial, fun _ => ⟨none, rfl, fun _ => rfl⟩⟩
    | .response statusCode json =>
      dsimp only
      by_cases hs : statusCode = 200
      · subst hs
        rw [if_neg (not_not_intro rfl), outcome_handleResponse, handled_iff_fine, Fine]
        cases verdict σ.config json with
        | refuse => exact ⟨fun _ _ => trivial, fun _ => ⟨none, rfl, fun _ => rfl⟩⟩
        | raise e =>
          constructor
          · rintro ⟨_, h, -⟩
            cases h
          · exact fun h => (h hr).elim
        | keep token L =>
          dsimp only
          by_cases hlt : (ttlOf L).natAbs < Json.floatBound
          · rw [if_pos hlt]
            exact ⟨fun _ _ => hlt, fun _ => ⟨some token, rfl, nofun⟩⟩
          · rw [if_neg hlt]
            constructor
            · rintro ⟨_, h, -⟩
              cases h
            · exact fun h => absurd (h hr) hlt
      · rw [if_pos hs]
        exact ⟨fun _ _ h => absurd h hs, fun _ => ⟨none, rfl, fun _ => rfl⟩⟩
  · rw [if_neg hr, if_neg hr]
    exact ⟨fun _ h => absurd h hr, fun _ => ⟨_, rfl, fun _ => rfl⟩⟩

end

/-- **Totality.** For every configuration, cache and reply, `get_token` and `aget_token` return a
token or `None`, and leave the cache unchanged with `None`, if and only if they send no request or
the reply is one that the code handles. -/
theorem calls_graceful_iff (forceRefresh : Bool) (σ σ' : Client) (reply : TokenReply) :
    (Graceful getToken forceRefresh σ σ' reply ↔
      (Requests forceRefresh σ → Handled σ.config reply)) ∧
    (Graceful agetToken forceRefresh σ σ' reply ↔
      (Requests forceRefresh σ → Handled σ.config reply)) :=
  ⟨graceful_iff_handled, graceful_iff_handled⟩

/-- A JSON array in place of an object raises. -/
theorem array_raises : ¬ ∀ (forceRefresh : Bool) (σ σ' : Client) (reply : TokenReply),
    Graceful getToken forceRefresh σ σ' reply ∧ Graceful agetToken forceRefresh σ σ' reply := by
  intro h
  let σ := Client.start ⟨"https://is", "", "client", "secret", true, serviceScope⟩ 0
  obtain ⟨result, hresult, -⟩ := (h false σ σ (.response 200 (some (.arr [])))).1
  have hraise : (outcome (getToken false) σ σ (.response 200 (some (.arr [])))).1 =
      .error .attributeError := by decide +kernel
  cases hraise.symm.trans hresult

end Teamspace.Common
