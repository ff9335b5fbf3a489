import Teamspace.Api.Auth

/-!
# What the authenticators raise

The dependencies that authenticate inbound calls answer with a user or with claims, or raise an
`HTTPException`; the routers turn anything else into a 500. Which inputs get through to another
exception is said by `authenticators_total`: no credentials at all where a scope is required, and
verified claims of a shape that the code does not expect.
-/

namespace Teamspace.Api

open Teamspace.Py Teamspace.Common

/-- An outcome that is a result, or an `HTTPException` with one of the statuses for it. -/
def Answered {α : Type} (x : Except AuthExn α) : Prop :=
  ∀ e, x = .error e → ∃ status detail, e = .py (.httpException status detail) ∧
    status ∈ [401, 403, 503]

/-- A subclass of `jwt.InvalidTokenError`. -/
def IsTokenError (e : AuthExn) : Prop := e = .expiredSignature ∨ ∃ message, e = .invalidToken message

/-- PyJWT raises only subclasses of `InvalidTokenError` on a bad token. -/
structure RaisesTokenErrors {Key : Type} (J : PyJwt Key) : Prop where
  header : ∀ token e, J.getUnverifiedHeader token = .error e → IsTokenError e
  decode : ∀ token key x e, J.decode token key x = .error e → IsTokenError e

/-- A JWKS of the published form: a list of objects that are RSA keys. -/
def Published {Key : Type} (J : PyJwt Key) (jwks : Dict) : Prop :=
  ∃ entries : List Dict, Dict.get jwks "keys" = some (.arr (entries.map .obj)) ∧
    ∀ entry ∈ entries, ∃ key, J.fromJwk entry = .ok key

/-- The exception of the Business API when it cannot fetch the JWKS. -/
def jwksUnavailable : AuthExn := .py (.httpException 503 "JWKS unavailable")

/-- What a JWKS getter ends with: a JWKS of the published form, or its exception. -/
def JwksOutcome {Key : Type} (J : PyJwt Key) (failure : AuthExn) : Except AuthExn Dict → Prop
  | .ok jwks => Published J jwks
  | .error e => e = failure

section
variable {α : Type}

/-- A result is an answer. -/
theorem answered_ok (a : α) : Answered (.ok a : Except AuthExn α) := by
  rintro e ⟨⟩

/-- So is an exception with one of the three statuses. -/
theorem answered_http {n : Nat} (detail : String) (h : n ∈ [401, 403, 503]) :
    Answered (httpException n detail : Except AuthExn α) := by
  rintro e ⟨⟩
  exact ⟨n, detail, rfl, h⟩

/-- Another exception of Python is none. -/
theorem not_answered_py {e : Exn} (he : ∀ status detail, e ≠ .httpException status detail) :
    ¬ Answered (.error (.py e) : Except AuthExn α) := by
  intro h
  obtain ⟨status, detail, hs, -⟩ := h _ rfl
  exact he status detail (AuthExn.py.inj hs)

/-- Neither is a runtime error. -/
theorem not_answered_runtime : ¬ Answered (.error .runtimeError : Except AuthExn α) := by
  intro h
  obtain ⟨status, detail, ⟨⟩, -⟩ := h _ rfl

end

/-! ## Verification -/

section
variable {Key : Type} {J : PyJwt Key}

/-- Where all keys can be made, only a key that is missing is an error. -/
theorem findKey_error {h : Header} {entries : List Dict} {e : AuthExn}
    (hkeys : ∀ entry ∈ entries, ∃ key, J.fromJwk entry = .ok key)
    (he : findKey J h (entries.map .obj) = .error e) : e = .signingKeyNotFound := by
  induction entries with
  | nil =>
    cases he
    rfl
  | cons entry rest ih =>
    replace he : (if (Dict.get entry "kid").getD .null = h.kidValue then J.fromJwk entry
      else findKey J h (rest.map .obj)) = .error e := he
    split at he
    · obtain ⟨key, hk⟩ := hkeys entry (.head _)
      rw [hk] at he
      cases he
    · exact ih (fun entry hm => hkeys entry (.tail _ hm)) he

/-- A verification under a published JWKS fails with an error that the authenticators expect. -/
theorem verify_error (hJ : RaisesTokenErrors J) {jwks : Dict} (hpub : Published J jwks)
    {token : String} {x : Expected} {e : AuthExn} (he : verify J jwks token x = .error e) :
    e = .signingKeyNotFound ∨ IsTokenError e := by
  obtain ⟨entries, hkeys, hok⟩ := hpub
  unfold verify selectSigningKey at he
  rw [hkeys] at he
  cases hh : J.getUnverifiedHeader token with
  | error e' =>
    rw [hh] at he
    cases he
    exact .inr (hJ.header token _ hh)
  | ok header =>
    rw [hh] at he
    replace he : (findKey J header (entries.map .obj) >>= fun key => decodeRs256 J token key x) =
      .error e := he
    cases hf : findKey J header (entries.map .obj) with
    | error e' =>
      rw [hf] at he
      cases he
      exact .inl (findKey_error hok hf)
    | ok key =>
      rw [hf] at he
      exact .inr (hJ.decode token key x e he)

end

/-! ## Users -/

section
variable {Key : Type} (A : UserAuth Key)

/-- If the header carries a token that verifies, its `scope` claim is absent or a string, and its
`act` claim is absent or an object. -/
def ClaimsReadable (authorization : Option String) : Prop :=
  ∀ token decoded, A.httpBearer authorization = some token → userClaims A token = .ok decoded →
    (∃ s, claim decoded "scope" (.str "") = .str s) ∧ ∃ act, claim decoded "act" (.obj []) = .obj act

/-- A `UserInfo` can be made exactly of such claims. -/
theorem ofClaims_cases (decoded : Dict) :
    ((∃ s, claim decoded "scope" (.str "") = .str s) ∧
        (∃ act, claim decoded "act" (.obj []) = .obj act) ∧
        ∃ user, UserInfo.ofClaims decoded = .ok user) ∨
      ((¬ ((∃ s, claim decoded "scope" (.str "") = .str s) ∧
        ∃ act, claim decoded "act" (.obj []) = .obj act)) ∧
        UserInfo.ofClaims decoded = .error .attributeError) := by
  unfold UserInfo.ofClaims
  cases hs : claim decoded "scope" (.str "") with
  | str s =>
    cases ha : claim decoded "act" (.obj []) with
    | obj act => exact .inl ⟨⟨s, rfl⟩, ⟨act, rfl⟩, _, rfl⟩
    | null | bool | num | str | arr =>
      refine .inr ⟨?_, rfl⟩
      rintro ⟨-, act, ⟨⟩⟩
  | null | bool | num | arr | obj =>
    refine .inr ⟨?_, rfl⟩
    rintro ⟨⟨s, ⟨⟩⟩, -⟩

variable {A}

/-- An exception of the verification becomes an `HTTPException`. -/
theorem userClaims_error (hJ : RaisesTokenErrors A.jwt)
    (hjwks : JwksOutcome A.jwt jwksUnavailable A.jwks) {token : String} {e : AuthExn}
    (he : userClaims A token = .error e) : ∃ status detail,
      userRefusal e = .py (.httpException status detail) ∧ status ∈ [401, 403, 503] := by
  unfold userClaims at he
  cases hj : A.jwks with
  | error e' =>
    rw [hj] at he hjwks
    cases he
    cases hjwks
    exact ⟨503, _, rfl, by decide⟩
  | ok jwks =>
    rw [hj] at he hjwks
    rcases verify_error hJ hjwks he with rfl | rfl | ⟨message, rfl⟩
    · exact ⟨401, _, rfl, by decide⟩
    · exact ⟨401, _, rfl, by decide⟩
    · exact ⟨401, _, rfl, by decide⟩

/-- What the lookup of the user comes to: no credentials, a user or a refusal, or an
`AttributeError` at claims that cannot be read. -/
theorem getCurrentUser_cases (hJ : RaisesTokenErrors A.jwt)
    (hjwks : JwksOutcome A.jwt jwksUnavailable A.jwks) (authorization : Option String) :
    (A.httpBearer authorization = none ∧ getCurrentUser A authorization = .ok none) ∨
      (A.httpBearer authorization ≠ none ∧ ClaimsReadable A authorization ∧
        ((∃ user, getCurrentUser A authorization = .ok (some user)) ∨
          ∃ status detail, getCurrentUser A authorization = httpException status detail ∧
            status ∈ [401, 403, 503])) ∨
      (¬ ClaimsReadable A authorization ∧
        getCurrentUser A authorization = .error (.py .attributeError)) := by
  cases hb : A.httpBearer authorization with
  | none => exact .inl ⟨rfl, by rw [getCurrentUser, hb]⟩
  | some token =>
    refine .inr ?_
    have hget : getCurrentUser A authorization = (userClaims A token >>= fun decoded =>
        liftPy (UserInfo.ofClaims decoded) >>= fun user => pure (some user)).mapError
          userRefusal := by
      rw [getCurrentUser, hb]
    have readable : ∀ {decoded}, userClaims A token = .ok decoded →
        (ClaimsReadable A authorization ↔ (∃ s, claim decoded "scope" (.str "") = .str s) ∧
          ∃ act, claim decoded "act" (.obj []) = .obj act) := by
      intro decoded hv
      refine ⟨fun h => h token decoded hb hv, fun h token' decoded' ht hd => ?_⟩
      cases hb.symm.trans ht
      cases hv.symm.trans hd
      exact h
    cases hv : userClaims A token with
    | error e =>
      obtain ⟨status, detail, hr, hs⟩ := userClaims_error hJ hjwks hv
      refine .inl ⟨nofun, fun token' decoded ht hd => ?_, .inr ⟨status, detail, ?_, hs⟩⟩
      · cases hb.symm.trans ht
        rw [hv] at hd
        cases hd
      · rw [hget, hv]
        exact congrArg Except.error hr
    | ok decoded =>
      rw [hv] at hget
      replace hget : getCurrentUser A authorization =
        (liftPy (UserInfo.ofClaims decoded) >>= fun user => pure (some user)).mapError userRefusal :=
        hget
      rcases ofClaims_cases decoded with ⟨hs, ha, user, hu⟩ | ⟨hn, hu⟩
      · rw [hu] at hget
        exact .inl ⟨nofun, (readable hv).2 ⟨hs, ha⟩, .inl ⟨user, hget⟩⟩
      · rw [hu] at hget
        exact .inr ⟨fun h => hn ((readable hv).1 h), hget⟩

end

/-! ## Services -/

section
variable {Key : Type} (S : ServiceAuth Key)

/-- What `list(granted or [])` takes: a string, a list, an object, or any falsy value. -/
def Listable (granted : Json) : Prop :=
  granted.truthy = true → (∃ s, granted = .str s) ∨ (∃ items, granted = .arr items) ∨
    ∃ fields, granted = .obj fields

/-- If the header carries a token, the getter does not raise a `RuntimeError`, and if the token
verifies, its `scope` claim is absent, a string, a list, an object or falsy. -/
def ServiceReadable (serviceAuthorization : Option String) : Prop :=
  ∀ token, parseBearer serviceAuthorization = some token → S.jwks ≠ .error .runtimeError ∧
    ∀ jwks decoded, S.jwks = .ok jwks → verify S.jwt jwks token S.expected = .ok decoded →
      Listable ((Dict.get decoded "scope").getD (.str ""))

/-- The scopes can be read exactly of such a claim. -/
theorem grantedScopes_cases (decoded : Dict) :
    (Listable ((Dict.get decoded "scope").getD (.str "")) ∧
        ∃ scopes, grantedScopes decoded = .ok scopes) ∨
      (¬ Listable ((Dict.get decoded "scope").getD (.str "")) ∧
        grantedScopes decoded = .error .typeError) := by
  unfold grantedScopes
  cases (Dict.get decoded "scope").getD (.str "") with
  | str s => exact .inl ⟨fun _ => .inl ⟨s, rfl⟩, _, rfl⟩
  | arr items =>
    refine .inl ⟨fun _ => .inr (.inl ⟨items, rfl⟩), ?_⟩
    cases items with
    | nil => exact ⟨[], rfl⟩
    | cons item items => exact ⟨item :: items, rfl⟩
  | obj fields =>
    refine .inl ⟨fun _ => .inr (.inr ⟨fields, rfl⟩), ?_⟩
    cases fields with
    | nil => exact ⟨[], rfl⟩
    | cons field fields => exact ⟨_, rfl⟩
  | null => exact .inl ⟨nofun, [], rfl⟩
  | bool b =>
    cases b with
    | false => exact .inl ⟨nofun, [], rfl⟩
    | true => exact .inr ⟨fun h => by rcases h rfl with ⟨s, ⟨⟩⟩ | ⟨l, ⟨⟩⟩ | ⟨d, ⟨⟩⟩, rfl⟩
  | num n =>
    cases ht : (Json.num n).truthy with
    | false =>
      have hfalse : ¬ (Json.num n).truthy = true := by
        rw [ht]
        exact Bool.false_ne_true
      refine .inl ⟨fun h => absurd h hfalse, [], ?_⟩
      dsimp only
      rw [pyOr, ht]
      rfl
    | true =>
      refine .inr ⟨fun h => by rcases h ht with ⟨s, ⟨⟩⟩ | ⟨l, ⟨⟩⟩ | ⟨d, ⟨⟩⟩, ?_⟩
      dsimp only
      rw [pyOr, ht]
      rfl

/-- With scopes that can be read, a refusal has a message. -/
theorem verifyServiceClaims_ok {repr : Json → String} {decoded : Dict} {scope : String}
    {scopes : List Json} (hs : grantedScopes decoded = .ok scopes) {e : AuthExn}
    (he : verifyServiceClaims repr decoded scope = .error e) : ∃ message, e = .serviceAuth message := by
  unfold verifyServiceClaims at he
  rw [hs] at he
  replace he : (if Json.str scope ∉ scopes then Except.error (AuthExn.serviceAuth _) else
    (if _ then Except.error (AuthExn.serviceAuth _) else _)) = Except.error e := he
  split at he
  · cases he
    exact ⟨_, rfl⟩
  · split at he
    · cases he
      exact ⟨_, rfl⟩
    · cases he

variable {S}

/-- The authenticator of services answers exactly where the header is readable. -/
theorem requireServiceAuth_answered (hJ : RaisesTokenErrors S.jwt) {failure : AuthExn}
    (hf : failure = jwksUnavailable ∨ failure = .runtimeError)
    (hjwks : JwksOutcome S.jwt failure S.jwks) (serviceAuthorization : Option String) :
    Answered (requireServiceAuth S serviceAuthorization) ↔ ServiceReadable S serviceAuthorization := by
  unfold requireServiceAuth
  cases hb : parseBearer serviceAuthorization with
  | none =>
    refine ⟨fun _ token ht => ?_, fun _ => answered_http _ (by decide)⟩
    rw [hb] at ht
    cases ht
  | some token =>
    have readable : ServiceReadable S serviceAuthorization ↔ S.jwks ≠ .error .runtimeError ∧
        ∀ jwks decoded, S.jwks = .ok jwks → verify S.jwt jwks token S.expected = .ok decoded →
          Listable ((Dict.get decoded "scope").getD (.str "")) := by
      refine ⟨fun h => h token hb, fun h token' ht => ?_⟩
      cases hb.symm.trans ht
      exact h
    rw [readable]
    unfold serviceClaims
    cases hj : S.jwks with
    | error e =>
      rw [hj] at hjwks
      have hjwks : e = failure := hjwks
      rcases hf with hf | hf
      · subst hjwks hf
        refine ⟨fun _ => ⟨nofun, nofun⟩, fun _ => ?_⟩
        exact answered_http (n := 503) _ (by decide)
      · subst hjwks hf
        exact ⟨fun h => absurd h not_answered_runtime, fun h => absurd rfl h.1⟩
    | ok jwks =>
      rw [hj] at hjwks
      change Answered ((verify S.jwt jwks token S.expected >>= fun decoded =>
        verifyServiceClaims S.repr decoded serviceScope >>= fun _ => pure decoded).mapError
          serviceRefusal) ↔ _
      cases hv : verify S.jwt jwks token S.expected with
      | error e =>
        refine ⟨fun _ => ⟨nofun, fun jwks' decoded h hd => ?_⟩, fun _ => ?_⟩
        · cases h
          rw [hv] at hd
          cases hd
        · rcases verify_error hJ hjwks hv with rfl | rfl | ⟨message, rfl⟩
          · exact answered_http (n := 401) _ (by decide)
          · exact answered_http (n := 401) _ (by decide)
          · exact answered_http (n := 401) _ (by decide)
      | ok decoded =>
        change Answered ((verifyServiceClaims S.repr decoded serviceScope >>= fun _ =>
          pure decoded).mapError serviceRefusal) ↔ _
        rcases grantedScopes_cases decoded with ⟨hl, scopes, hs⟩ | ⟨hn, hs⟩
        · refine ⟨fun _ => ⟨nofun, fun jwks' decoded' h hd => ?_⟩, fun _ => ?_⟩
          · cases h
            cases hv.symm.trans hd
            exact hl
          · cases hc : verifyServiceClaims S.repr decoded serviceScope with
            | ok _ => exact answered_ok decoded
            | error e =>
              obtain ⟨message, rfl⟩ := verifyServiceClaims_ok hs hc
              exact answered_http (n := 403) message (by decide)
        · refine ⟨fun h => absurd h ?_, fun h => absurd (h.2 jwks decoded rfl hv) hn⟩
          have hc : verifyServiceClaims S.repr decoded serviceScope = .error (.py .typeError) := by
            unfold verifyServiceClaims
            rw [hs]
            rfl
          rw [hc]
          exact not_answered_py nofun

end

/-! ## Totality -/

/-- The authenticators answer with a user or claims, or raise an `HTTPException` with status 401,
403 or 503, exactly where the input is readable: where a scope is required, the header carries
credentials; and what verifies has claims that the code can read. -/
theorem authenticators_total {Key : Type} {A : UserAuth Key} {S : ServiceAuth Key}
    (hA : RaisesTokenErrors A.jwt) (hAjwks : JwksOutcome A.jwt jwksUnavailable A.jwks)
    (hS : RaisesTokenErrors S.jwt) {failure : AuthExn}
    (hf : failure = jwksUnavailable ∨ failure = .runtimeError)
    (hSjwks : JwksOutcome S.jwt failure S.jwks) (header : Option String) :
    (∀ scope, Answered (requireScope scope (getCurrentUser A header)) ↔
      A.httpBearer header ≠ none ∧ ClaimsReadable A header) ∧
    (Answered (requireCurrentUser (getCurrentUser A header)) ↔ ClaimsReadable A header) ∧
    (Answered (requireServiceAuth S header) ↔ ServiceReadable S header) := by
  refine ⟨fun scope => ?_, ?_, requireServiceAuth_answered hS hf hSjwks header⟩
  · rcases getCurrentUser_cases hA hAjwks header with
      ⟨hb, hu⟩ | ⟨hb, hr, ⟨user, hu⟩ | ⟨status, detail, hu, hs⟩⟩ | ⟨hn, hu⟩
    · -- without credentials there is no user to read scopes of
      rw [hu]
      exact ⟨fun h => absurd h (not_answered_py nofun), fun h => absurd hb h.1⟩
    · rw [hu]
      refine ⟨fun _ => ⟨hb, hr⟩, fun _ => ?_⟩
      change Answered (if _ then _ else _)
      split
      · exact answered_http _ (by decide)
      · exact answered_ok user
    · rw [hu]
      exact ⟨fun _ => ⟨hb, hr⟩, fun _ => answered_http detail hs⟩
    · rw [hu]
      exact ⟨fun h => absurd h (not_answered_py nofun), fun h => absurd h.2 hn⟩
  · rcases getCurrentUser_cases hA hAjwks header with
      ⟨hb, hu⟩ | ⟨hb, hr, ⟨user, hu⟩ | ⟨status, detail, hu, hs⟩⟩ | ⟨hn, hu⟩
    · rw [hu]
      refine ⟨fun _ token decoded ht => ?_, fun _ => answered_http _ (by decide)⟩
      rw [hb] at ht
      cases ht
    · rw [hu]
      exact ⟨fun _ => hr, fun _ => answered_ok user⟩
    · rw [hu]
      exact ⟨fun _ => hr, fun _ => answered_http detail hs⟩
    · rw [hu]
      exact ⟨fun h => absurd h (not_answered_py nofun), fun h => absurd h hn⟩

/-- A PyJWT under which every token is signed by the only key, with the claims that its text
names. -/
def exampleJwt : PyJwt Unit where
  getUnverifiedHeader _ := .ok ⟨some "a"⟩
  fromJwk _ := .ok ()
  truthy _ := true
  decode token _ _ :=
    if token = "user" then .ok [("sub", .str "u"), ("scope", .str "list_meetings")]
    else .error (.invalidToken "Signature verification failed")

/-- The Business API with that PyJWT and one key. -/
def exampleAuth : UserAuth Unit where
  jwt := exampleJwt
  jwks := .ok [("keys", .arr ([[("kid", .str "a")]].map .obj))]
  expected := ⟨"client", "https://is/oauth2/token", 60, 0⟩
  httpBearer header := header.bind fun h => (splitFirst h)[1]?

/-- The tokens of the example raise errors of tokens only. -/
theorem exampleJwt_raises : RaisesTokenErrors exampleJwt where
  header := nofun
  decode token _ _ e h := by
    unfold exampleJwt at h
    dsimp only at h
    split at h
    · cases h
    · cases h
      exact .inr ⟨_, rfl⟩

/-- The key set of the example is one of the published form. -/
theorem exampleJwks_outcome (failure : AuthExn) :
    JwksOutcome exampleJwt failure exampleAuth.jwks :=
  ⟨[[("kid", .str "a")]], rfl, fun _ _ => ⟨(), rfl⟩⟩

/-- The authenticators at a header with a user token. -/
theorem authenticators_total_user :
    (∀ scope, Answered (requireScope scope (getCurrentUser exampleAuth (some "Bearer user"))) ↔
      exampleAuth.httpBearer (some "Bearer user") ≠ none ∧
        ClaimsReadable exampleAuth (some "Bearer user")) ∧
    (Answered (requireCurrentUser (getCurrentUser exampleAuth (some "Bearer user"))) ↔
      ClaimsReadable exampleAuth (some "Bearer user")) ∧
    (Answered (requireServiceAuth ⟨exampleJwt, exampleAuth.jwks, exampleAuth.expected,
        fun _ => ""⟩ (some "Bearer user")) ↔
      ServiceReadable ⟨exampleJwt, exampleAuth.jwks, exampleAuth.expected, fun _ => ""⟩
        (some "Bearer user")) :=
  authenticators_total (A := exampleAuth)
    (S := ⟨exampleJwt, exampleAuth.jwks, exampleAuth.expected, fun _ => ""⟩) exampleJwt_raises
    (exampleJwks_outcome _) exampleJwt_raises (.inl rfl) (exampleJwks_outcome jwksUnavailable) _

/-- A request without an `Authorization` header makes the checker of a scope raise another
exception. -/
theorem missing_credentials_escape : ¬ ∀ (A : UserAuth Unit) (scope : String)
    (header : Option String), RaisesTokenErrors A.jwt → JwksOutcome A.jwt jwksUnavailable A.jwks →
    Answered (requireScope scope (getCurrentUser A header)) := by
  intro h
  have h := h exampleAuth "list_meetings" none exampleJwt_raises (exampleJwks_outcome _)
  exact not_answered_py (e := .attributeError) nofun h

end Teamspace.Api
