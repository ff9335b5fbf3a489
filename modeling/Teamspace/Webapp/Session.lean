import Teamspace.Py.Json
import Teamspace.Py.Str
import Mathlib.Logic.Function.Basic

/-!
# The portal's session

The session of a browser is a dictionary that the login (`webapp/auth.py`) fills with the identity
of a user, and that the pages fill with what they look up for that user and the user's organization.
The callback that completes a login assigns the keys of the identity and removes what it consumes;
every other key is as the pages left it.
-/

namespace Teamspace.Webapp

open Teamspace.Py

/-- The session of a browser. -/
abbrev Session := String → Option Json

namespace Session

/-- `session[k] = v`. -/
def set (s : Session) (k : String) (v : Json) : Session := Function.update s k (some v)

/-- `session.pop(k, None)`. -/
def pop (s : Session) (k : String) : Session := Function.update s k none

/-- `session.get(k, default)`. -/
def get (s : Session) (k : String) (default' : Json) : Json := (s k).getD default'

/-- `session.clear()`. -/
def empty : Session := fun _ => none

end Session

/-! ## Login -/

/-- An exception of a login: one of the identity provider and its client, or of the language. -/
inductive LoginExn
  | provider (message : String)
  | py (e : Exn)
  deriving DecidableEq, Repr

/-- What a callback meets: its `state` argument, Authlib's client and the verification of tokens. -/
structure Login where
  production : Bool
  state : String
  /-- A pending state that Authlib drops as expired. -/
  expired : Json → Bool
  /-- `str.title`. -/
  title : String → String
  /-- The token response, from the stored data of the state and the code verifier. -/
  authorizeAccessToken : Option Json → Json → Except LoginExn Dict
  parseIdToken : Dict → Json → Except LoginExn Dict
  /-- The body of the `try` of `_verify_access_token`. -/
  verifyAccessToken : Json → Except LoginExn Dict
  decodeJwtUnverified : Json → Except LoginExn (Option Dict)

/-- `TEAMSPACE_ADMIN`. -/
def teamspaceAdmin : String := "teamspace-admin"

/-- `_derive_display_name`. -/
def deriveDisplayName (title : String → String) (idClaims : Dict) (email : Json) :
    Except Exn (Json × Json) := do
  let givenName := (Dict.get idClaims "given_name").getD .null
  let familyName := (Dict.get idClaims "family_name").getD .null
  if givenName.truthy || familyName.truthy then
    return (pyOr givenName (.str ""), pyOr familyName (.str ""))
  let fullName := (Dict.get idClaims "name").getD .null
  if fullName.truthy && !(← fullName.contains "@") then
    match fullName with
    | .str name =>
      match splitFirst name with
      | [] => .error .indexError
      | [first] => return (.str first, .str "")
      | first :: rest :: _ => return (.str first, .str rest)
    | _ => .error .attributeError
  else if !email.truthy then return (.str "User", .str "")
  else if !(← email.contains "@") then return (.str "User", .str "")
  else
    match email with
    | .str email =>
      let (name, domain) := splitOnce email '@'
      return (.str (title name), .str (title (splitOnce (domain.getD "") '.').1))
    | _ => .error .attributeError

/-- The name of a role that has one: a text, or one of the fields of an object. -/
def roleEntry : Json → Option Json
  | .str name => some (.str name)
  | .obj entry =>
    some (pyOr ((Dict.get entry "value").getD .null) (pyOr ((Dict.get entry "display").getD .null)
      ((Dict.get entry "displayName").getD (.str ""))))
  | _ => none

/-- What an entry adds to the set of roles: what follows the last slash of its name. -/
def roleOf (entry : Json) : Except Exn (Option String) := do
  match roleEntry entry with
  | none => return none
  | some name =>
    let slashed ← name.contains "/"
    match name with
    | .str name =>
      let name := if slashed then
        String.ofList (name.toList.reverse.takeWhile (· != '/')).reverse else name
      return if name = "" then none else some name
    | _ =>
      -- a list has no `rsplit`, and no list or `dict` goes into a set
      if slashed then .error .attributeError
      if name.truthy then .error .typeError
      return none

/-- `_normalize_roles`. A set is listed in the order of first insertion. -/
def normalizeRoles (raw : List Json) : Except Exn (List String) := do
  return ((← raw.mapM roleOf).filterMap id).eraseDups

/-- The roles in one claim. -/
def rolesIn (claims : Dict) (key : String) : Except Exn (List String) :=
  match (Dict.get claims key).getD .null with
  | .str raw => if raw = "" then .ok [] else normalizeRoles [.str raw]
  | .arr raw => normalizeRoles raw
  | _ => .ok []

/-- `_extract_roles`. -/
def extractRoles (idClaims accessClaims : Dict) : Except Exn (List String) := do
  let roles ← ["roles", "application_roles", "groups"].mapM (rolesIn idClaims)
  let accessRoles ← ["roles", "application_roles", "groups"].mapM (rolesIn accessClaims)
  return (roles ++ accessRoles).flatten.eraseDups

/-- `claims.get("scope", "").split()`. -/
def scopesOf (accessClaims : Dict) : Except Exn (List String) :=
  match (Dict.get accessClaims "scope").getD (.str "") with
  | .str scope => .ok (split scope)
  | _ => .error .attributeError

/-- `id_claims.get("email") or id_claims.get("username") or ""`. -/
def emailOf (idClaims : Dict) : Json :=
  pyOr ((Dict.get idClaims "email").getD .null)
    (pyOr ((Dict.get idClaims "username").getD .null) (.str ""))

/-- The value of `session["user"]`. -/
def userDict (idClaims : Dict) (email name familyName : Json) : Json :=
  let get (k : String) (default' : Json) := (Dict.get idClaims k).getD default'
  .obj [("sub", get "sub" (.str "")), ("email", email), ("name", name),
    ("family_name", familyName), ("org_id", get "org_id" (.str "")),
    ("org_name", get "org_name" (.str "")), ("org_handle", get "org_handle" (.str "")),
    ("groups", get "groups" (.arr [])), ("roles", get "roles" (.arr []))]

namespace Login

variable (L : Login)

/-- The key under which Authlib keeps the state that the callback completes. -/
def stateKey : String := "_state_wso2is_" ++ L.state

/-- The session after Authlib has read the state: without it, and without states that expired. -/
def authorized (s : Session) : Session := fun k =>
  if k = L.stateKey then none
  else (s k).filter fun v => !(startsWith k "_state_wso2is" && L.expired v)

/-- `_verify_access_token`. -/
def accessClaims (rawToken : Json) : Except LoginExn (Option Dict) :=
  if !rawToken.truthy then .ok none
  else match L.verifyAccessToken rawToken with
    | .ok claims => .ok (some claims)
    | .error _ => if L.production then .ok none else L.decodeJwtUnverified rawToken

/-- The claims of both tokens, if the login is to go on. -/
def verifiedClaims (token : Dict) (nonce : Json) : Except LoginExn (Option (Dict × Dict)) := do
  let idClaims ← match L.parseIdToken token nonce with
    | .ok claims => pure (some claims)
    | .error _ =>
      if L.production then return none
      else L.decodeJwtUnverified ((Dict.get token "id_token").getD (.str ""))
  let accessClaims ← L.accessClaims ((Dict.get token "access_token").getD (.str ""))
  match idClaims, accessClaims with
  | some idClaims, some accessClaims => return some (idClaims, accessClaims)
  | _, _ => return none

end Login

/-- Where a callback redirects to. -/
inductive Redirect
  | login
  | home (orgHandle : Json)
  deriving DecidableEq, Repr

/-- `handle_callback`: its outcome and the session that it leaves. -/
def handleCallback (L : Login) (s : Session) : Except LoginExn Redirect × Session :=
  let codeVerifier := s.get "code_verifier" (.str "")
  let s := s.pop "code_verifier"
  let state := s L.stateKey
  let s := L.authorized s
  match L.authorizeAccessToken state codeVerifier with
  | .error e => (.error e, s)
  | .ok token =>
    let s := s.set "token" (.obj token)
    match Json.getItem (.obj token) "access_token" with
    | .error e => (.error (.py e), s)
    | .ok accessToken =>
      let s := s.set "access_token" accessToken
      let s := s.set "id_token_raw" ((Dict.get token "id_token").getD (.str ""))
      let s := s.set "refresh_token" ((Dict.get token "refresh_token").getD (.str ""))
      let nonce := s.get "oidc_nonce" .null
      let s := s.pop "oidc_nonce"
      match L.verifiedClaims token nonce with
      | .error e => (.error e, s)
      | .ok none => (.ok .login, .empty)
      | .ok (some (idClaims, accessClaims)) =>
        let s := s.set "access_token_claims" (.obj accessClaims)
        match scopesOf accessClaims with
        | .error e => (.error (.py e), s)
        | .ok scopes =>
          let s := s.set "user_scopes" (.arr (scopes.map .str))
          let email := emailOf idClaims
          match deriveDisplayName L.title idClaims email with
          | .error e => (.error (.py e), s)
          | .ok (name, familyName) =>
            let s := s.set "user" (userDict idClaims email name familyName)
            match extractRoles idClaims accessClaims with
            | .error e => (.error (.py e), s)
            | .ok roles =>
              let s := s.set "is_admin" (.bool (decide (teamspaceAdmin ∈ roles)))
              let s := s.set "user_roles" (.arr (roles.map .str))
              let orgId := (Dict.get idClaims "org_id").getD (.str "")
              (.ok (.home ((Dict.get idClaims "org_handle").getD orgId)), s)

/-! ## Pages -/

/-- How a lookup fails: without an answer (`requests.RequestException`), or otherwise. -/
inductive LookupExn
  | request
  | other
  deriving DecidableEq, Repr

/-- What the pages ask other services. -/
structure Services where
  organizationPlan : Json → Except LookupExn Dict
  agentConfig : Json → Except LookupExn Json
  personalization : Json → Except LookupExn Json
  /-- `fetch_branding_from_is`, with the organization and the user's token. -/
  brandingFromIs : Json → Json → Except LookupExn Json
  /-- The status of `upsert_personalization`. -/
  upsertPersonalization : Json → Except LookupExn Nat

section

variable (S : Services)

/-- `session.get("user", {}).get("org_id", "")`. -/
def sessionOrg (s : Session) : Json :=
  match getOr (s.get "user" (.obj [])) "org_id" (.str "") with
  | .ok orgId => orgId
  | .error _ => .str ""

/-- `start_login`: the verifier and the nonce, and the state that Authlib stores. -/
def startLogin (codeVerifier nonce state : String) (stateData : Json) (s : Session) : Session :=
  ((s.set "code_verifier" (.str codeVerifier)).set "oidc_nonce" (.str nonce)).set
    ("_state_wso2is_" ++ state) stateData

/-- `logout`. -/
def logout (_ : Session) : Session := .empty

/-- `_populate_org_plan_in_session`. -/
def populateOrgPlan (orgId : Json) (s : Session) : Session :=
  if !orgId.truthy || (s "org_plan").isSome then s
  else match S.organizationPlan orgId with
    | .ok planInfo => s.set "org_plan" ((Dict.get planInfo "plan").getD (.str "basic"))
    | .error .request => s
    | .error .other => s.set "org_plan" (.str "basic")

/-- `_populate_agent_availability_in_session`. -/
def populateAgentAvailability (orgId : Json) (s : Session) : Session :=
  if !orgId.truthy || (s "has_agent_config").isSome then s
  else match S.agentConfig orgId with
    | .ok config => s.set "has_agent_config" (.bool config.truthy)
    | .error .request => s
    | .error .other => s.set "has_agent_config" (.bool false)

/-- `_ensure_branding_loaded`, when it does not raise. -/
def ensureBrandingLoaded (s : Session) : Except LookupExn Session := do
  if (s "org_branding").isSome then return s
  let orgId := sessionOrg s
  if !orgId.truthy then return s
  let branding ← S.personalization orgId
  if branding.truthy then return s.set "org_branding" branding
  if !(s.get "is_admin" (.bool false)).truthy then return s.set "org_branding" .null
  let synced : Except LookupExn (Option Json) := do
    let isBranding ← S.brandingFromIs orgId (s.get "access_token" (.str ""))
    if !isBranding.truthy then return none
    let status ← S.upsertPersonalization isBranding
    return if status = 200 ∨ status = 201 then some isBranding else none
  match synced with
  | .ok (some isBranding) => return s.set "org_branding" isBranding
  | _ => return s.set "org_branding" .null

/-- `_ensure_thread_id`, with the UUID that it draws. -/
def ensureThreadId (uuid : String) (s : Session) : Json × Session :=
  let threadId := s.get "chat_thread_id" .null
  if threadId.truthy then (threadId, s)
  else (.str uuid, ((s.set "chat_thread_id" (.str uuid)).pop "last_obo_jwt").pop "last_agent_jwt")

end

/-! ## What a callback does to the session -/

/-- The keys that a callback assigns. -/
def assignedKeys : List String :=
  ["token", "access_token", "id_token_raw", "refresh_token", "access_token_claims", "user_scopes",
    "user", "is_admin", "user_roles"]

namespace Session

/-- Assign the items in turn. -/
def store (items : List (String × Json)) (s : Session) : Session :=
  items.foldl (fun s item => s.set item.1 item.2) s

/-- Setting one key and removing another commute. -/
theorem set_pop {k k' : String} (h : k ≠ k') (s : Session) (v : Json) :
    (s.set k v).pop k' = (s.pop k').set k v := Function.update_comm h ..

/-- A key that is not among the items is left as it was. -/
theorem store_of_notMem {items : List (String × Json)} {k : String} (h : k ∉ items.map Prod.fst)
    (s : Session) : store items s k = s k := by
  induction items generalizing s with
  | nil => rfl
  | cons item items ih =>
    rw [List.map_cons, List.mem_cons, not_or] at h
    exact (ih h.2 (s.set item.1 item.2)).trans (Function.update_of_ne h.1 ..)

/-- What is assigned to a key does not depend on the session. -/
theorem store_of_mem {items : List (String × Json)} {k : String} (h : k ∈ items.map Prod.fst)
    (s s' : Session) : store items s k = store items s' k := by
  induction items generalizing s s' with
  | nil => cases h
  | cons item items ih =>
    by_cases hk : k ∈ items.map Prod.fst
    · exact ih hk ..
    · have hitem : k = item.1 := (List.mem_cons.1 h).resolve_right hk
      refine (store_of_notMem hk (s.set item.1 item.2)).trans ?_
      refine Eq.trans ?_ (store_of_notMem hk (s'.set item.1 item.2)).symm
      rw [hitem]
      unfold Session.set
      rw [Function.update_self, Function.update_self]

end Session

namespace Login

variable (L : Login)

/-- The keys that belong to the login that is being completed, the language, and the flag that
Flask-Session puts into every session. -/
def loginKeys : List String := ["code_verifier", "oidc_nonce", L.stateKey, "lang", "_permanent"]

/-- The session of a browser with the same login and language, and nothing else. -/
def bare (s : Session) : Session := fun k => if k ∈ L.loginKeys then s k else none

/-- The session without what the callback consumes. -/
def consumed (s : Session) : Session := (L.authorized (s.pop "code_verifier")).pop "oidc_nonce"

/-- The session after the callback. -/
def after (s : Session) : Session := (handleCallback L s).2

/-- The callback logs a user in. -/
def Succeeds (s : Session) : Prop := ∃ orgHandle, (handleCallback L s).1 = .ok (.home orgHandle)

variable {L}

/-- Sessions that are bare of the same have the same under the keys of the login. -/
theorem bare_apply {s s' : Session} (h : L.bare s = L.bare s') {k : String} (hk : k ∈ L.loginKeys) :
    s k = s' k := by
  have hk' := congrFun h k
  unfold bare at hk'
  rwa [if_pos hk, if_pos hk] at hk'

/-- What Authlib leaves under a key depends on the key. -/
theorem authorized_congr {s s' : Session} {k : String} (h : s k = s' k) :
    L.authorized s k = L.authorized s' k := by
  unfold authorized
  rw [h]

/-- The nonce is a key of the login. -/
theorem nonce_congr {s s' : Session} (h : L.bare s = L.bare s') (a b c d : Json) :
    (((((L.authorized (s.pop "code_verifier")).set "token" a).set "access_token" b).set
      "id_token_raw" c).set "refresh_token" d).get "oidc_nonce" .null =
    (((((L.authorized (s'.pop "code_verifier")).set "token" a).set "access_token" b).set
      "id_token_raw" c).set "refresh_token" d).get "oidc_nonce" .null := by
  have hpop : (s.pop "code_verifier") "oidc_nonce" = (s'.pop "code_verifier") "oidc_nonce" := by
    unfold Session.pop
    rw [Function.update_of_ne (by decide), Function.update_of_ne (by decide)]
    exact bare_apply h (.tail _ (.head _))
  have hauth := authorized_congr (L := L) hpop
  unfold Session.get Session.set
  rw [Function.update_of_ne (by decide), Function.update_of_ne (by decide),
    Function.update_of_ne (by decide), Function.update_of_ne (by decide),
    Function.update_of_ne (by decide), Function.update_of_ne (by decide),
    Function.update_of_ne (by decide), Function.update_of_ne (by decide), hauth]

/-- A callback that logs a user in assigns what does not depend on the rest of the session. -/
theorem handleCallback_home {s : Session} {orgHandle : Json}
    (h : (handleCallback L s).1 = .ok (.home orgHandle)) :
    ∃ items : List (String × Json), items.map Prod.fst = assignedKeys ∧
      ∀ s', L.bare s = L.bare s' →
        handleCallback L s' = (.ok (.home orgHandle), Session.store items (L.consumed s')) := by
  unfold handleCallback at h
  dsimp only at h
  split at h
  · cases h
  next token htoken =>
  split at h
  · cases h
  next accessToken haccess =>
  split at h
  · cases h
  · cases h
  next idClaims accessClaims hclaims =>
  split at h
  · cases h
  next scopes hscopes =>
  split at h
  · cases h
  next name familyName hname =>
  split at h
  · cases h
  next roles hroles =>
  cases h
  refine ⟨[("token", .obj token), ("access_token", accessToken),
    ("id_token_raw", (Dict.get token "id_token").getD (.str "")),
    ("refresh_token", (Dict.get token "refresh_token").getD (.str "")),
    ("access_token_claims", .obj accessClaims), ("user_scopes", .arr (scopes.map .str)),
    ("user", userDict idClaims (emailOf idClaims) name familyName),
    ("is_admin", .bool (decide (teamspaceAdmin ∈ roles))),
    ("user_roles", .arr (roles.map .str))], rfl, fun s' hs => ?_⟩
  have hverifier : s.get "code_verifier" (.str "") = s'.get "code_verifier" (.str "") := by
    unfold Session.get
    rw [bare_apply hs (.head _)]
  have hstate : (s.pop "code_verifier") L.stateKey = (s'.pop "code_verifier") L.stateKey := by
    have hkey := bare_apply hs (k := L.stateKey) (.tail _ (.tail _ (.head _)))
    unfold Session.pop
    by_cases hk : L.stateKey = "code_verifier"
    · rw [hk, Function.update_self, Function.update_self]
    · rw [Function.update_of_ne hk, Function.update_of_ne hk, hkey]
  rw [hverifier, hstate] at htoken
  rw [nonce_congr hs] at hclaims
  unfold handleCallback
  simp only [htoken, haccess, hclaims, hscopes, hname, hroles]
  refine congrArg _ ?_
  rw [Session.set_pop (by decide), Session.set_pop (by decide), Session.set_pop (by decide),
    Session.set_pop (by decide)]
  rfl

/-- So does what the callback leaves. -/
theorem consumed_congr {s s' : Session} {k : String} (h : s k = s' k) :
    L.consumed s k = L.consumed s' k := by
  unfold consumed Session.pop
  by_cases hnonce : k = "oidc_nonce"
  · rw [hnonce, Function.update_self, Function.update_self]
  · rw [Function.update_of_ne hnonce, Function.update_of_ne hnonce]
    refine authorized_congr ?_
    by_cases hverifier : k = "code_verifier"
    · rw [hverifier, Function.update_self, Function.update_self]
    · rw [Function.update_of_ne hverifier, Function.update_of_ne hverifier, h]

/-- What is left of a key that is none of the login's. -/
theorem consumed_apply {s : Session} {k : String} (hk : k ∉ L.loginKeys) :
    L.consumed s k = (s k).filter fun v => !(startsWith k "_state_wso2is" && L.expired v) := by
  unfold loginKeys at hk
  simp only [List.mem_cons, not_or] at hk
  unfold consumed Session.pop authorized
  rw [Function.update_of_ne hk.2.1, if_neg hk.2.2.1, Function.update_of_ne hk.1]

variable (L) in
/-- The session after the callback is that of a browser which brought nothing but the login. -/
def OfLogin (s : Session) : Prop := L.after s = L.after (L.bare s)

variable (L) in
/-- The session before the callback holds only keys of the login, keys that the callback assigns and
states that expired. -/
def Clean (s : Session) : Prop :=
  ∀ k v, s k = some v → k ∈ L.loginKeys ∨ k ∈ assignedKeys ∨
    (startsWith k "_state_wso2is" = true ∧ L.expired v = true)

/-- A bare session has nothing more to leave out. -/
theorem bare_bare (s : Session) : L.bare (L.bare s) = L.bare s := by
  funext k
  unfold bare
  split
  · rfl
  · rfl

/-- A session is that of its login just if it was clean before. -/
theorem ofLogin_iff {s : Session} (hs : L.Succeeds s) : L.OfLogin s ↔ L.Clean s := by
  obtain ⟨orgHandle, hs⟩ := hs
  obtain ⟨items, hitems, hafter⟩ := handleCallback_home hs
  have after_eq (s' : Session) (hs' : L.bare s = L.bare s') :
      L.after s' = Session.store items (L.consumed s') := congrArg Prod.snd (hafter s' hs')
  unfold OfLogin
  rw [after_eq s rfl, after_eq (L.bare s) (bare_bare s).symm]
  constructor
  · intro heq k v hv
    by_cases hk : k ∈ L.loginKeys
    · exact .inl hk
    by_cases ha : k ∈ assignedKeys
    · exact .inr (.inl ha)
    -- the key is not written, and the bare session has none
    have hnone : (L.bare s) k = none := if_neg hk
    have hk' := congrFun heq k
    rw [Session.store_of_notMem (hitems ▸ ha), Session.store_of_notMem (hitems ▸ ha),
      consumed_apply hk, consumed_apply hk, hnone, hv] at hk'
    have hdrop := Option.filter_eq_none_iff.1 hk' v rfl
    exact .inr (.inr (by simpa using hdrop))
  · intro hclean
    funext k
    by_cases ha : k ∈ assignedKeys
    · exact Session.store_of_mem (hitems ▸ ha) ..
    rw [Session.store_of_notMem (hitems ▸ ha), Session.store_of_notMem (hitems ▸ ha)]
    by_cases hk : k ∈ L.loginKeys
    · exact consumed_congr (if_pos hk).symm
    have hnone : (L.bare s) k = none := if_neg hk
    rw [consumed_apply hk, consumed_apply hk, hnone]
    refine Option.filter_eq_none_iff.2 fun v hv => ?_
    obtain h | h | ⟨hstate, hexpired⟩ := hclean k v hv
    · exact absurd h hk
    · exact absurd h ha
    · simp [hstate, hexpired]

/-- Two sessions with the same login and language are those of that login afterwards exactly when
neither held anything else that outlives a callback. -/
theorem session_of_login (L : Login) {s s' : Session} (hsame : L.bare s = L.bare s')
    (hs : L.Succeeds s) :
    (L.after s = L.after s' ∧ L.OfLogin s ∧ L.OfLogin s') ↔ L.Clean s ∧ L.Clean s' := by
  have hs' : L.Succeeds s' := by
    obtain ⟨orgHandle, hs⟩ := hs
    obtain ⟨items, -, hafter⟩ := handleCallback_home hs
    exact ⟨orgHandle, congrArg Prod.fst (hafter s' hsame)⟩
  rw [← ofLogin_iff hs, ← ofLogin_iff hs']
  refine ⟨fun h => h.2, fun ⟨h, h'⟩ => ⟨?_, h, h'⟩⟩
  exact h.trans ((congrArg L.after hsame).trans h'.symm)

/-- A login that begins in an empty session, as one after a logout does, brings nothing else. -/
theorem startLogin_clean (codeVerifier nonce : String) (stateData : Json) (s : Session) :
    L.Clean (startLogin codeVerifier nonce L.state stateData (logout s)) := by
  intro k v hv
  refine .inl ?_
  unfold loginKeys
  by_cases hstate : k = L.stateKey
  · exact hstate ▸ .tail _ (.tail _ (.head _))
  by_cases hnonce : k = "oidc_nonce"
  · exact hnonce ▸ .tail _ (.head _)
  by_cases hverifier : k = "code_verifier"
  · exact hverifier ▸ .head _
  unfold startLogin Session.set at hv
  change k ≠ "_state_wso2is_" ++ L.state at hstate
  rw [Function.update_of_ne hstate, Function.update_of_ne hnonce,
    Function.update_of_ne hverifier] at hv
  cases hv

end Login

/-! ## The sessions that logins and pages leave -/

/-- The later session has no keys but those of the earlier one and these. -/
def Session.Within (keys : List String) (s s' : Session) : Prop :=
  ∀ k v, s' k = some v → k ∈ keys ∨ ∃ v', s k = some v'

namespace Session.Within

variable {keys : List String} {s s' : Session} {k : String}

/-- A session has no keys but its own. -/
theorem refl (s : Session) : Within keys s s := fun _ v h => .inr ⟨v, h⟩

/-- An empty session has no keys at all. -/
theorem empty : Within keys s .empty := nofun

/-- A key that may be there may be set. -/
theorem set (h : Within keys s s') (hk : k ∈ keys) (v : Json) : Within keys s (s'.set k v) := by
  intro l w hl
  by_cases hlk : l = k
  · exact .inl (hlk ▸ hk)
  · exact h l w ((Function.update_of_ne hlk ..).symm.trans hl)

/-- Every key may be removed. -/
theorem pop (h : Within keys s s') : Within keys s (s'.pop k) := by
  intro l w hl
  by_cases hlk : l = k
  · rw [hlk] at hl
    cases (Function.update_self ..).symm.trans hl
  · exact h l w ((Function.update_of_ne hlk ..).symm.trans hl)

/-- What Authlib leaves has no new keys. -/
theorem authorized {L : Login} (h : Within keys s s') : Within keys s (L.authorized s') := by
  intro l w hl
  unfold Login.authorized at hl
  split at hl
  · cases hl
  · exact h l w (Option.eq_some_of_filter_eq_some hl)

end Session.Within

/-- A callback assigns no other keys, however it ends. -/
theorem handleCallback_within (L : Login) (s : Session) : s.Within assignedKeys (L.after s) := by
  have key {k : String} (h : assignedKeys.contains k = true) : k ∈ assignedKeys :=
    List.contains_iff_mem.1 h
  unfold Login.after handleCallback
  dsimp only
  have hrefl : s.Within assignedKeys s := Session.Within.refl s
  have h₀ := hrefl.pop (k := "code_verifier") |>.authorized (L := L)
  split
  · exact h₀
  next token _ =>
  have h₁ := h₀.set (key (k := "token") rfl) (.obj token)
  split
  · exact h₁
  next accessToken _ =>
  have h₂ := (((h₁.set (key (k := "access_token") rfl) accessToken).set
    (key (k := "id_token_raw") rfl) ((Dict.get token "id_token").getD (.str ""))).set
    (key (k := "refresh_token") rfl) ((Dict.get token "refresh_token").getD (.str ""))).pop
    (k := "oidc_nonce")
  split
  · exact h₂
  · exact .empty
  next idClaims accessClaims _ =>
  have h₃ := h₂.set (key (k := "access_token_claims") rfl) (.obj accessClaims)
  split
  · exact h₃
  next scopes _ =>
  have h₄ := h₃.set (key (k := "user_scopes") rfl) (.arr (scopes.map .str))
  split
  · exact h₄
  next name familyName _ =>
  have h₅ := h₄.set (key (k := "user") rfl) (userDict idClaims (emailOf idClaims) name familyName)
  split
  · exact h₅
  next roles _ =>
  exact (h₅.set (key (k := "is_admin") rfl) _).set (key (k := "user_roles") rfl) _

/-- The keys that the pages fill for the user or the organization. -/
def cachedKeys : List String := ["org_plan", "has_agent_config", "org_branding", "chat_thread_id"]

/-- The sessions that logins, logouts and page visits leave, but for the messages that pages flash. -/
inductive Visited (S : Services) : Session → Prop
  | first : Visited S .empty
  | login {s : Session} (codeVerifier nonce state : String) (stateData : Json) : Visited S s →
    Visited S (startLogin codeVerifier nonce state stateData s)
  | callback {s : Session} (L : Login) : Visited S s → Visited S (L.after s)
  | logout {s : Session} : Visited S s → Visited S (logout s)
  | language {s : Session} (lang : String) : Visited S s → Visited S (s.set "lang" (.str lang))
  | plan {s : Session} : Visited S s → Visited S (populateOrgPlan S (sessionOrg s) s)
  | agent {s : Session} : Visited S s → Visited S (populateAgentAvailability S (sessionOrg s) s)
  | branding {s s' : Session} : Visited S s → ensureBrandingLoaded S s = .ok s' → Visited S s'
  | thread {s : Session} (uuid : String) : Visited S s → Visited S (ensureThreadId uuid s).2

section

variable {S : Services} {s s' : Session}

/-- The plan is looked up into one of the cached keys. -/
theorem populateOrgPlan_within (orgId : Json) :
    s.Within cachedKeys (populateOrgPlan S orgId s) := by
  unfold populateOrgPlan
  split
  · exact .refl s
  · split
    · exact (Session.Within.refl s).set (.head _) _
    · exact .refl s
    · exact (Session.Within.refl s).set (.head _) _

/-- So is whether there is an agent. -/
theorem populateAgentAvailability_within (orgId : Json) :
    s.Within cachedKeys (populateAgentAvailability S orgId s) := by
  unfold populateAgentAvailability
  split
  · exact .refl s
  · split
    · exact (Session.Within.refl s).set (.tail _ (.head _)) _
    · exact .refl s
    · exact (Session.Within.refl s).set (.tail _ (.head _)) _

/-- So is the branding. -/
theorem ensureBrandingLoaded_within (h : ensureBrandingLoaded S s = .ok s') :
    s.Within cachedKeys s' := by
  have branding (v : Json) : s.Within cachedKeys (s.set "org_branding" v) :=
    (Session.Within.refl s).set (.tail _ (.tail _ (.head _))) v
  unfold ensureBrandingLoaded at h
  dsimp only at h
  split at h
  · cases h
    exact .refl s
  split at h
  · cases h
    exact .refl s
  cases hp : S.personalization (sessionOrg s) with
  | error e =>
    rw [hp] at h
    cases h
  | ok found =>
    rw [hp] at h
    replace h : (if found.truthy = true then _ else _) = Except.ok s' := h
    split at h
    · cases h
      exact branding _
    split at h
    · cases h
      exact branding _
    split at h
    · cases h
      exact branding _
    · cases h
      exact branding _

/-- And the thread of the chat. -/
theorem ensureThreadId_within (uuid : String) : s.Within cachedKeys (ensureThreadId uuid s).2 := by
  unfold ensureThreadId
  dsimp only
  split
  · exact .refl s
  · exact ((Session.Within.refl s).set (.tail _ (.tail _ (.tail _ (.head _)))) _).pop.pop

end

/-- The keys of logins, of pending states and of the pages. -/
def SessionKey (k : String) : Prop :=
  k ∈ ["code_verifier", "oidc_nonce", "lang"] ∨ startsWith k "_state_wso2is" = true ∨
    k ∈ assignedKeys ∨ k ∈ cachedKeys

/-- The key of a state begins with the prefix of Authlib's. -/
theorem startsWith_state (state : String) :
    startsWith ("_state_wso2is_" ++ state) "_state_wso2is" = true := by
  refine decide_eq_true ?_
  rw [String.toList_append]
  exact List.IsPrefix.trans (by decide : "_state_wso2is".toList <+: "_state_wso2is_".toList)
    (List.prefix_append ..)

/-- A session that logins and pages left holds no other keys. -/
theorem Visited.key {S : Services} {s : Session} (h : Visited S s) :
    ∀ k v, s k = some v → SessionKey k := by
  have pages {s s' : Session} (h : s.Within cachedKeys s') (ih : ∀ k v, s k = some v → SessionKey k)
      (k : String) (v : Json) (hk : s' k = some v) : SessionKey k := by
    obtain hc | ⟨v', hv'⟩ := h k v hk
    · exact .inr (.inr (.inr hc))
    · exact ih k v' hv'
  induction h with
  | first => exact nofun
  | @login s codeVerifier nonce state stateData _ ih =>
    intro k v hk
    unfold startLogin Session.set at hk
    by_cases hstate : k = "_state_wso2is_" ++ state
    · exact .inr (.inl (hstate ▸ startsWith_state state))
    by_cases hnonce : k = "oidc_nonce"
    · exact .inl (hnonce ▸ .tail _ (.head _))
    by_cases hverifier : k = "code_verifier"
    · exact .inl (hverifier ▸ .head _)
    rw [Function.update_of_ne hstate, Function.update_of_ne hnonce,
      Function.update_of_ne hverifier] at hk
    exact ih k v hk
  | callback L _ ih =>
    intro k v hk
    obtain ha | ⟨v', hv'⟩ := handleCallback_within L _ k v hk
    · exact .inr (.inr (.inl ha))
    · exact ih k v' hv'
  | logout => exact nofun
  | language lang _ ih =>
    intro k v hk
    by_cases hlang : k = "lang"
    · exact .inl (hlang ▸ .tail _ (.tail _ (.head _)))
    · exact ih k v ((Function.update_of_ne hlang ..).symm.trans hk)
  | plan _ ih => exact pages (populateOrgPlan_within _) ih
  | agent _ ih => exact pages (populateAgentAvailability_within _) ih
  | branding _ h ih => exact pages (ensureBrandingLoaded_within h) ih
  | thread uuid _ ih => exact pages (ensureThreadId_within uuid) ih

/-- Of such a session, the pages' keys and the other pending states are what outlives a callback. -/
theorem Visited.clean_iff {S : Services} {s : Session} (h : Visited S s) (L : Login) :
    L.Clean s ↔ (∀ k ∈ cachedKeys, s k = none) ∧
      ∀ k v, s k = some v → startsWith k "_state_wso2is" = true → k ≠ L.stateKey →
        L.expired v = true := by
  have hassigned : ∀ k ∈ assignedKeys, startsWith k "_state_wso2is" = false := by decide
  have hcached : ∀ k ∈ cachedKeys, startsWith k "_state_wso2is" = false ∧ k ∉ assignedKeys ∧
      k ∉ ["code_verifier", "oidc_nonce", "lang", "_permanent"] := by decide
  have hlogin : ∀ k ∈ ["code_verifier", "oidc_nonce", "lang", "_permanent"],
      startsWith k "_state_wso2is" = false := by decide
  have mem_login (k : String) : k ∈ L.loginKeys ↔
      k ∈ ["code_verifier", "oidc_nonce", "lang", "_permanent"] ∨ k = L.stateKey := by
    simp only [Login.loginKeys, List.mem_cons, List.not_mem_nil, or_false]
    tauto
  constructor
  · intro hclean
    refine ⟨fun k hk => Option.eq_none_iff_forall_ne_some.2 fun v hv => ?_, fun k v hv hk hne => ?_⟩
    · obtain ⟨hstate, hnot, hnot'⟩ := hcached k hk
      obtain hl | ha | ⟨hs, -⟩ := hclean k v hv
      · obtain hl | rfl := (mem_login k).1 hl
        · exact hnot' hl
        · exact Bool.false_ne_true (hstate.symm.trans (startsWith_state L.state))
      · exact hnot ha
      · exact Bool.false_ne_true (hstate.symm.trans hs)
    · obtain hl | ha | ⟨-, hexpired⟩ := hclean k v hv
      · obtain hl | hl := (mem_login k).1 hl
        · exact absurd ((hlogin k hl).symm.trans hk) Bool.false_ne_true
        · exact absurd hl hne
      · exact absurd ((hassigned k ha).symm.trans hk) Bool.false_ne_true
      · exact hexpired
  · rintro ⟨hnone, hpending⟩ k v hv
    obtain hl | hs | ha | hc := h.key k v hv
    · refine .inl ((mem_login k).2 (.inl ?_))
      simp only [List.mem_cons, List.not_mem_nil, or_false] at hl ⊢
      tauto
    · by_cases hk : k = L.stateKey
      · exact .inl ((mem_login k).2 (.inr hk))
      · exact .inr (.inr ⟨hs, hpending k v hv hs hk⟩)
    · exact .inr (.inl ha)
    · cases (hnone k hc).symm.trans hv

/-! ## A session that two users share -/

/-- A login whose tokens carry these claims. -/
def exampleLogin (idClaims : Dict) : Login where
  production := true
  state := "s"
  expired _ := false
  title := id
  authorizeAccessToken state _ :=
    if state.isSome then .ok [("access_token", .str "at"), ("id_token", .str "it")]
    else .error (.provider "mismatching_state")
  parseIdToken _ _ := .ok idClaims
  verifyAccessToken _ := .ok [("scope", .str "list_meetings")]
  decodeJwtUnverified _ := .ok none

/-- A user of the organization `a`. -/
def loginA : Login :=
  exampleLogin [("sub", .str "u"), ("given_name", .str "Ana"), ("org_id", .str "a")]

/-- A user of the organization `b`. -/
def loginB : Login :=
  exampleLogin [("sub", .str "v"), ("given_name", .str "Bo"), ("org_id", .str "b")]

/-- Services that know a plan of every organization. -/
def exampleServices : Services where
  organizationPlan _ := .ok [("plan", .str "enterprise")]
  agentConfig _ := .ok .null
  personalization _ := .ok .null
  brandingFromIs _ _ := .ok .null
  upsertPersonalization _ := .ok 200

/-- The session of a browser in which a user of `a` logged in, saw a page and opened the chat, and
in which a login is started again. -/
def sharedSession : Session :=
  let s := loginA.after (startLogin "cv" "n" "s" .null .empty)
  let s := populateOrgPlan exampleServices (sessionOrg s) s
  startLogin "cv" "n" "s" .null (ensureThreadId "thread" s).2

/-- The user of `b` who then logs in gets the plan and the conversation of the user of `a`, which
the same login does not give in a session without them. -/
theorem shared_session :
    loginB.Succeeds sharedSession ∧ sessionOrg (loginB.after sharedSession) = .str "b" ∧
      loginB.after sharedSession "org_plan" = some (.str "enterprise") ∧
      loginB.after sharedSession "chat_thread_id" = some (.str "thread") ∧
      loginB.after sharedSession ≠ loginB.after (loginB.bare sharedSession) := by
  refine ⟨⟨.str "b", by decide +kernel⟩, by decide +kernel, by decide +kernel, by decide +kernel,
    fun h => ?_⟩
  have hplan : loginB.after (loginB.bare sharedSession) "org_plan" = none := by decide +kernel
  have hplan' : loginB.after sharedSession "org_plan" = some (.str "enterprise") := by
    decide +kernel
  rw [h, hplan] at hplan'
  cases hplan'

/-- The first login of a browser leaves the session of a bare one. -/
theorem session_of_login_first :
    loginB.after (startLogin "cv" "n" "s" .null .empty) =
      loginB.after (loginB.bare (startLogin "cv" "n" "s" .null .empty)) := by
  have hclean : loginB.Clean (startLogin "cv" "n" "s" .null .empty) :=
    Login.startLogin_clean "cv" "n" .null .empty
  exact ((Login.session_of_login loginB rfl ⟨.str "b", by decide +kernel⟩).2
    ⟨hclean, hclean⟩).2.1

end Teamspace.Webapp
