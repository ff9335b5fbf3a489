import Teamspace.Agent.StateManager

/-!
# OBO tokens, agent tokens and PKCE verifiers

`agent/auth_manager.py`. Every reply of WSO2 IS is read the way the code reads it, so a reply of an
unexpected shape raises the exception that it raises there.
-/

namespace Teamspace.Agent

open Teamspace.Lib Teamspace.Py

variable {Tok : Type} (E : Env Tok)

/-- `_PKCE_TTL_SECONDS`. -/
def pkceTtlSeconds : Nat := 600

/-- `_TOKEN_TTL_SECONDS`. -/
def tokenTtlSeconds : Nat := defaultTtlSeconds

/-! ## Stored tokens -/

/-- `_entry`. -/
def entry (token expiresIn : Json) : Coro Json := do
  let now ← time
  let expiresAt ← ofExcept (expiresIn.addTo now)
  return .obj [("token", token), ("expires_at", .num (expiresAt.sub 60))]

/-- `v < now`. -/
def isBefore (v : Json) (now : Rat) : Except Exn Bool :=
  match v with
  | .num x => .ok (x.lt now)
  | .bool b => .ok (decide ((if b then 1 else 0 : Rat) < now))
  | _ => .error .typeError

/-- The token of a stored entry at wall-clock time `now`, unless it has expired. -/
def liveTokenOf (stored : Option Json) (now : Rat) : Except Exn (Option Json) :=
  match notNone stored with
  | none => .ok none
  | some e =>
    if e.truthy then do
      let expired ← isBefore (← getOr e "expires_at" (.num (.int 0))) now
      if expired then return none else return notNone (← e.get "token")
    else .ok none

/-- `_live_token`. -/
def liveToken (n : Namespace) (key : String) : Coro (Option Json) := do
  let stored ← storeGet n key
  let now ← time
  ofExcept (liveTokenOf stored now)

def getOboToken (threadId : String) : Coro (Option Json) := liveToken .oboToken threadId

def getOboJwtRaw (threadId : String) : Coro (Option Json) := liveToken .oboToken threadId

/-- `thread_id or "_default"`. -/
def agentTokenKey (threadId : String) : String := if threadId = "" then "_default" else threadId

def getAgentJwtRaw (threadId : String) : Coro (Option Json) := do
  let token ← liveToken .agentToken (agentTokenKey threadId)
  if token.isNone && threadId ≠ "" then liveToken .agentToken "_default" else return token

def clearOboTokens (threadId : String) : Coro Unit := do
  storeDelete .oboToken threadId
  storeDelete .agentToken threadId

/-! ## The agent's own token -/

/-- `_base`. -/
def base : String := E.settings.isBaseUrl ++ E.settings.tenantPath

/-- The id of the authenticator that the authorize step offers for a password. -/
def passwordAuthenticator : List Json → Except Exn Json
  | [] => .ok (.str "")
  | auth :: rest => do
    if (← auth.get "authenticator") = some (.str "Username & Password") then
      auth.getItem "authenticatorId"
    else passwordAuthenticator rest

/-- The authenticator that the agent answers with: the password one, or else the first. -/
def chooseAuthenticator (authenticators : Json) : Except Exn Json := do
  let items ← iterate authenticators
  let authenticatorId ← passwordAuthenticator items
  if authenticatorId.truthy then return authenticatorId
  else match items with
    | [] => return authenticatorId
    | first :: _ => first.getItem "authenticatorId"

/-- The flow id and the authenticator id of an authorize reply. -/
def readAuthFlow (flowData : Json) : Except Exn (Json × Json) := do
  let flowId ← getOr flowData "flowId" .null
  if flowId.truthy then
    let nextStep ← getOr flowData "nextStep" (.obj [])
    let authenticators ← getOr nextStep "authenticators" (.arr [])
    return (flowId, ← chooseAuthenticator authenticators)
  else .error .valueError

/-- `_init_agent_auth_flow`. -/
def initAgentAuthFlow (codeChallenge : String) : Coro (Json × Json) := do
  let resp ← http (.httpPost (base E ++ "/oauth2/authorize") (.data [
    ("client_id", .str E.settings.clientId),
    ("client_secret", .str E.settings.clientSecret),
    ("response_type", .str "code"),
    ("redirect_uri", .str E.settings.agentRedirectUri),
    ("scope", .str ("openid create_meeting_agent list_meetings_agent update_meeting_agent" ++
      " delete_meeting_agent")),
    ("response_mode", .str "direct"),
    ("code_challenge", .str codeChallenge),
    ("code_challenge_method", .str "S256")]))
  let flowData ← ofExcept resp.readJson
  ofExcept (readAuthFlow flowData)

/-- The authorization code of an authn reply. -/
def readAuthCode (authnData : Json) : Except Exn Json := do
  let authData ← getOr authnData "authData" (.obj [])
  let code := pyOr (← getOr authData "code" (.str ""))
    (pyOr (← getOr authnData "code" (.str "")) (← getOr authnData "authorizationCode" (.str "")))
  if code.truthy then return code else .error .valueError

/-- `_submit_agent_credentials`. -/
def submitAgentCredentials (flowId authenticatorId agentId agentSecret : Json) : Coro Json := do
  let resp ← http (.httpPost (base E ++ "/oauth2/authn") (.json (.obj [
    ("flowId", flowId),
    ("selectedAuthenticator", .obj [
      ("authenticatorId", authenticatorId),
      ("params", .obj [("username", agentId), ("password", agentSecret)])])])))
  let authnData ← ofExcept resp.readJson
  ofExcept (readAuthCode authnData)

/-- The access token and its lifetime in a token reply. -/
def readToken (tokenData : Json) : Except Exn (Json × Json) := do
  if ← tokenData.contains "access_token" then
    let token ← tokenData.getItem "access_token"
    return (token, ← getOr tokenData "expires_in" (.num (.int 3600)))
  else .error .valueError

/-- `_exchange_code_for_agent_token`. -/
def exchangeCodeForAgentToken (code : Json) (codeVerifier : String) : Coro (Json × Json) := do
  let resp ← http (.httpPost (base E ++ "/oauth2/token") (.data [
    ("grant_type", .str "authorization_code"),
    ("client_id", .str E.settings.clientId),
    ("client_secret", .str E.settings.clientSecret),
    ("code", code),
    ("code_verifier", .str codeVerifier),
    ("redirect_uri", .str E.settings.agentRedirectUri)]))
  let tokenData ← ofExcept resp.readJson
  ofExcept (readToken tokenData)

/-- `_store_agent_token`. -/
def storeAgentToken (token expiresIn : Json) (threadId : String) : Coro Unit := do
  storeSet .agentToken (agentTokenKey threadId) (← entry token expiresIn) tokenTtlSeconds

def fetchAgentToken (agentId agentSecret : Json) (threadId : String) : Coro Json := do
  if !agentId.truthy then raise .valueError
  else if !agentSecret.truthy then raise .valueError
  else
    let codeVerifier ← tokenUrlsafe 32
    let (flowId, authenticatorId) ← initAgentAuthFlow E (E.codeChallenge codeVerifier)
    let code ← submitAgentCredentials E flowId authenticatorId agentId agentSecret
    let (token, expiresIn) ← exchangeCodeForAgentToken E code codeVerifier
    storeAgentToken token expiresIn threadId
    return token

/-! ## The delegated token -/

/-- `get_obo_authorization_url`; the scopes and the agent id are accepted and not used. -/
def getOboAuthorizationUrl (threadId action : String) : String :=
  E.settings.agentServiceUrl ++ "/authorize?thread_id=" ++ threadId ++ "&action=" ++ action

/-- The WSO2 IS authorize URL, before it is put into a query string. -/
structure AuthorizeUrl (Tok : Type) where
  endpoint : String
  clientId : String
  responseType : String
  redirectUri : String
  scope : List String
  codeChallenge : String
  codeChallengeMethod : String
  state : Tok
  requestedActor : Json

/-- `urlencode(params)`. It encodes every value; the scopes, the challenge and the signed state are
ASCII, and of the others one that has no encoding raises `UnicodeEncodeError`, a `ValueError`. -/
def urlencode (params : AuthorizeUrl Tok) : Except Exn (AuthorizeUrl Tok) :=
  if E.encodable params.clientId && E.encodable params.redirectUri &&
      E.encodable (E.str params.requestedActor) then .ok params
  else .error .valueError

/-- `get_real_wso2_authorization_url`. -/
def getRealWso2AuthorizationUrl (threadId : String) (scopes : List String) (stateToken : Tok)
    (agentId : Json) : Coro (AuthorizeUrl Tok) := do
  if !agentId.truthy then raise .valueError
  else
    clearOboTokens threadId
    let codeVerifier ← tokenUrlsafe 32
    storeSet .pkceVerifier threadId (.str codeVerifier) pkceTtlSeconds
    ofExcept (urlencode E {
      endpoint := base E ++ "/oauth2/authorize"
      clientId := E.settings.clientId
      responseType := "code"
      redirectUri := E.settings.agentRedirectUri
      scope := scopes
      codeChallenge := E.codeChallenge codeVerifier
      codeChallengeMethod := "S256"
      state := stateToken
      requestedActor := agentId })

/-- The OBO token request of `exchange_obo_code`. -/
def oboTokenRequest (code : String) (codeVerifier agentToken : Json) : Req :=
  .httpPost (base E ++ "/oauth2/token") (.data [
    ("grant_type", .str "authorization_code"),
    ("client_id", .str E.settings.clientId),
    ("client_secret", .str E.settings.clientSecret),
    ("code", .str code),
    ("code_verifier", codeVerifier),
    ("redirect_uri", .str E.settings.agentRedirectUri),
    ("actor_token", agentToken),
    ("actor_token_type", .str "urn:ietf:params:oauth:token-type:jwt")])

/-- `self._store.get(_NS_PKCE, thread_id) or ""`, by what is stored. -/
def codeVerifierOf (stored : Option Json) : Json := pyOr (stored.getD .null) (.str "")

/-- The end of `exchange_obo_code`: the reply to the OBO token request is stored. -/
def storeOboToken (threadId : String) (resp : Response) : Coro Json := do
  let tokenData ← ofExcept resp.readJson
  let (token, expiresIn) ← ofExcept (readToken tokenData)
  storeSet .oboToken threadId (← entry token expiresIn) tokenTtlSeconds
  return token

def exchangeOboCode (threadId code : String) (agentId agentSecret : Json) : Coro Json := do
  let agentToken ← fetchAgentToken E agentId agentSecret threadId
  let stored ← storeGet .pkceVerifier threadId
  storeDelete .pkceVerifier threadId
  let resp ← http (oboTokenRequest E code (codeVerifierOf stored) agentToken)
  storeOboToken threadId resp

end Teamspace.Agent
