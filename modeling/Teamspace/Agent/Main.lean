import Teamspace.Agent.Confirmation

/-!
# The endpoints of the agent service

`agent/main.py`, with `agent/chat_history.py`: chat preparation, `/authorize`, `/callback` and
`/clear`. The signed OAuth state and the `oauth_session` cookie are JWTs under one key; the gate of
`/callback` (`callbackGate`) resolves the state and checks the cookie before anything is exchanged.
-/

namespace Teamspace.Agent

open Teamspace.Lib Teamspace.Py

variable {Tok : Type} (E : Env Tok)

/-! ## Chat -/

/-- The fields of `ChatRequest` that `_prepare_chat` reads; an absent one is empty. -/
structure ChatRequest where
  threadId : String
  message : String
  orgName : String
  agentId : String
  agentSecret : String
  agentName : String
  deriving DecidableEq, Repr

/-- `self._max`. -/
def maxMessages : Nat := 50

/-- The messages that a stored history stands for. -/
def historyOf (stored : Option Json) : Except Exn (List Json) :=
  let stored := stored.getD .null
  if stored.truthy then iterate stored else .ok []

/-- `ChatHistoryManager.get_history`. -/
def getHistory (threadId : String) : Coro (List Json) := do
  ofExcept (historyOf (← storeGet .chatHistory threadId))

/-- The history after a message, cut to its newest `maxMessages`. -/
def appendMessage (history : List Json) (role content : String) : List Json :=
  let history := history ++ [.obj [("role", .str role), ("content", .str content)]]
  history.drop (history.length - maxMessages)

/-- `ChatHistoryManager.add_message`. -/
def addMessage (threadId role content : String) : Coro Unit := do
  let history ← getHistory threadId
  storeSet .chatHistory threadId (.arr (appendMessage history role content)) defaultTtlSeconds

/-- `ChatHistoryManager.clear`. -/
def clearHistory (threadId : String) : Coro Unit := storeDelete .chatHistory threadId

/-- What `_prepare_chat` hands to the generators of the response. -/
structure ChatContext where
  initialOboJwt : Option Json
  initialAgentJwt : Option Json
  history : List Json
  deriving DecidableEq, Repr

/-- `not token`. -/
def isFalsy (token : Option Json) : Bool := !(token.getD .null).truthy

/-- `if value: write`. -/
def storeIf (value : String) (write : Coro Unit) : Coro Unit :=
  if value ≠ "" then write else pure ()

/-- Store what the request says about the organization and its agent. -/
def storeChatAgent (req : ChatRequest) : Coro Unit := do
  storeIf req.orgName (setOrgName req.threadId req.orgName)
  storeIf req.agentId
    (setAgentCredentials req.threadId (.str req.agentId) (.str req.agentSecret))
  storeIf req.agentName (setAgentName req.threadId req.agentName)

/-- Fetch a token of the agent when there is none but there are credentials; an exception is
logged. -/
def prefetchAgentToken (threadId : String) (token : Option Json) : Coro (Option Json) := do
  if isFalsy token then
    let (agentId, agentSecret) ← getAgentCredentials threadId
    if agentId.truthy && agentSecret.truthy then
      Program.tryCatch (do return some (← fetchAgentToken E agentId agentSecret threadId))
        fun _ => pure token
    else return token
  else return token

/-- `_prepare_chat`. -/
def prepareChat (req : ChatRequest) : Coro ChatContext := do
  storeChatAgent req
  let initialOboJwt ← getOboJwtRaw req.threadId
  let agentJwt ← getAgentJwtRaw req.threadId
  let initialAgentJwt ← prefetchAgentToken E req.threadId agentJwt
  let history ← getHistory req.threadId
  addMessage req.threadId "user" req.message
  return { initialOboJwt, initialAgentJwt, history }

/-! ## Pages -/

/-- The keys of `_OAUTH_ERROR_HTML`. -/
inductive OauthError
  | csrfMismatch
  | invalidState
  | invalidSession
  | authFailed
  | misconfigured
  | expired
  | noAgent
  deriving DecidableEq, Repr

/-- What a request to `/authorize` or `/callback` is answered. -/
inductive Page (Tok : Type)
  /-- `_oauth_error_response(kind, status_code)`. -/
  | error (kind : OauthError) (statusCode : Nat)
  /-- The redirect to WSO2 IS and the `oauth_session` cookie set beside it. -/
  | redirect (url : AuthorizeUrl Tok) (cookie : Tok)
  /-- The success page of `/callback`. -/
  | authorized

/-- `_oauth_error_response(kind)`. -/
def oauthErrorResponse (kind : OauthError) : Page Tok := .error kind 400

/-- The page of `_resolve_state_secret` when there is no key. -/
def misconfigured : Page Tok := .error .misconfigured 500

/-! ## `/authorize` -/

/-- `OAUTH_STATE_TTL_SECONDS`. -/
def oauthStateTtlSeconds : Nat := 300

/-- `int(x)`. -/
def truncate (x : Rat) : Int := x.num.tdiv x.den

/-- The scopes of an action, if there is such an action. -/
def scopesOfAction (action : String) : Option (List String) :=
  if action = "list" then some ["list_meetings_agent"]
  else if action = "update" then some ["list_meetings_agent", "update_meeting_agent"]
  else if action = "delete" then some ["list_meetings_agent", "delete_meeting_agent"]
  else if action = "book" then some ["create_meeting_agent"]
  else none

/-- `state_payload`, and with the same fields `cookie_payload`. -/
def statePayload (threadId action csrfToken : String) (now : Int) : StateClaims where
  threadId := some threadId
  action := some action
  state := some csrfToken
  iat := now
  exp := now + oauthStateTtlSeconds

/-- `RedirectResponse(auth_url)`, with its cookie. The header holds the whole URL, so its base is
encoded too. -/
def redirectResponse (authUrl : AuthorizeUrl Tok) (token : Tok) : Except Exn (Page Tok) :=
  if E.encodable authUrl.endpoint then .ok (.redirect authUrl token) else .error .valueError

/-- Everything in the URL of an `/authorize` for this agent can be encoded. -/
structure Env.Encodes (agentId : Json) : Prop where
  clientId : E.encodable E.settings.clientId = true
  redirectUri : E.encodable E.settings.agentRedirectUri = true
  agentId : E.encodable (E.str agentId) = true
  endpoint : E.encodable (base E ++ "/oauth2/authorize") = true

section
variable {E} {agentId : Json} {url : AuthorizeUrl Tok}

/-- Then the query string is made. -/
theorem Env.Encodes.urlencode (h : E.Encodes agentId)
    (hclient : url.clientId = E.settings.clientId)
    (hredirect : url.redirectUri = E.settings.agentRedirectUri)
    (hactor : url.requestedActor = agentId) : Agent.urlencode E url = .ok url := by
  rw [Agent.urlencode, if_pos]
  simp [hclient, hredirect, hactor, h.clientId, h.redirectUri, h.agentId]

/-- And so is the redirect. -/
theorem Env.Encodes.redirectResponse (h : E.Encodes agentId)
    (hurl : url.endpoint = base E ++ "/oauth2/authorize") (token : Tok) :
    Agent.redirectResponse E url token = .ok (.redirect url token) := by
  rw [Agent.redirectResponse, if_pos (hurl ▸ h.endpoint)]

end

/-- `initiate_oauth`. -/
def initiateOauth (threadId action : String) : Coro (Page Tok) := do
  let (agentId, _) ← getAgentCredentials threadId
  if !agentId.truthy then return oauthErrorResponse .noAgent
  else
    let csrfToken ← tokenUrlsafe 16
    match scopesOfAction action with
    | none => raise (.httpException 400 ("Unknown action: " ++ E.repr action))
    | some scopes =>
      let now := truncate (← time)
      match E.settings.stateJwtSigningSecret with
      | .error _ => return misconfigured
      | .ok secret =>
        let payload := statePayload threadId action csrfToken now
        let signedState := E.jwt.encode payload secret
        let authUrl ← getRealWso2AuthorizationUrl E threadId scopes signedState agentId
        let token := E.jwt.encode payload secret
        ofExcept (redirectResponse E authUrl token)

/-! ## `/callback` -/

/-- `_action_to_flow_state`. -/
def actionToFlowState (action : String) : FlowState :=
  if action = "list" then .listAuthorized
  else if action = "update" then .authorized .update
  else if action = "delete" then .authorized .delete
  else .authorized .book

/-- `_decode_signed_state` at wall-clock time `now`: the claims, no claims at all, or `none` for an
expired state. -/
def decodeSignedState (state : Tok) (secret : String) (now : Rat) : Option (Option StateClaims) :=
  match E.jwt.decode state secret now with
  | .ok payload => some (some payload)
  | .error .expired => none
  | .error .invalid => some none

/-- A text that Python takes for true. -/
def present (s : Option String) : Option String := s.filter (· ≠ "")

/-- `_verify_oauth_cookie` at wall-clock time `now`: the error, or `none`. -/
def verifyOauthCookie (cookie : Option Tok) (csrfState : Option String) (secret : String)
    (now : Rat) : Option OauthError :=
  match cookie.filter fun c => E.jwt.text c ≠ "" with
  | none => some .invalidSession
  | some cookie =>
    match E.jwt.decode cookie secret now with
    | .error .expired => some .expired
    | .error .invalid => some .invalidSession
    | .ok payload =>
      if present csrfState = none then some .invalidState
      else if payload.state ≠ csrfState then some .csrfMismatch
      else none

/-- `_fallback_parse_state`. -/
def fallbackParseState (state : String) : String × String :=
  let (threadId, action) := splitOnce state ':'
  (threadId, action.getD "book")

/-- The checks of `oauth_callback` before the exchange, at wall-clock time `now`: the thread and
the action to go on with, or the page that refuses the callback. -/
def callbackGate (state : Tok) (cookie : Option Tok) (secret : String) (now : Rat) :
    Except OauthError (String × Option String) :=
  match decodeSignedState E state secret now with
  | none => .error .expired
  | some payload =>
    match present (payload.bind (·.threadId)) with
    | some threadId =>
      match verifyOauthCookie E cookie (payload.bind (·.state)) secret now with
      | some kind => .error kind
      | none => .ok (threadId, payload.bind (·.action))
    | none =>
      if !E.settings.mockLlm then .error .invalidState
      else
        let (threadId, action) := fallbackParseState (E.jwt.text state)
        .ok (threadId, some action)

/-- `_complete_obo_authorization`: only a `ValueError` becomes an error page. -/
def completeOboAuthorization (threadId code : String) : Coro (Option OauthError) := do
  let (agentId, agentSecret) ← getAgentCredentials threadId
  Program.tryCatch
    (do let _ ← exchangeOboCode E threadId code agentId agentSecret; return none)
    fun e => match e with
      | .valueError => pure (some .authFailed)
      | e => raise e

/-- `oauth_callback`, with the `state` parameter and the `oauth_session` cookie of the request. -/
def oauthCallback (code : String) (state : Tok) (cookie : Option Tok) : Coro (Page Tok) := do
  match E.settings.stateJwtSigningSecret with
  | .error _ => return misconfigured
  | .ok secret =>
    match callbackGate E state cookie secret (← time) with
    | .error kind => return oauthErrorResponse kind
    | .ok (threadId, action) =>
      match ← completeOboAuthorization E threadId code with
      | some kind => return oauthErrorResponse kind
      | none =>
        setState threadId (actionToFlowState (action.getD ""))
        return .authorized

/-- With a signing secret, a callback reads the clock and goes on as its checks let it. -/
theorem oauthCallback_eq {secret : String} (h : E.settings.stateJwtSigningSecret = .ok secret)
    (code : String) (state : Tok) (cookie : Option Tok) :
    oauthCallback E code state cookie = .op .time fun now =>
      match callbackGate E state cookie secret now with
      | .error kind => .ret (oauthErrorResponse kind)
      | .ok (threadId, action) => do
        match ← completeOboAuthorization E threadId code with
        | some kind => return oauthErrorResponse kind
        | none =>
          setState threadId (actionToFlowState (action.getD ""))
          return .authorized := by
  unfold oauthCallback
  rw [h]
  rfl

/-! ## `/clear` -/

/-- `clear_thread`. -/
def clearThread (threadId : String) : Coro Unit := do
  clearOboTokens threadId
  clearHistory threadId
  clearState threadId

end Teamspace.Agent
