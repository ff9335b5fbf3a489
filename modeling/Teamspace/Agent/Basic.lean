import Teamspace.Agent.Store
import Teamspace.Lib.Schedule
import Teamspace.Py.Str

/-!
# What the agent service is written over

The operations of the agent's code on the state its requests share, the HTTP requests at which its
coroutines give up control, and its deployment: the settings of `agent/config.py` and the library
functions it calls that are not part of the repository. The code between two requests runs at one
instant, without interruption; time passes while requests are under way.
-/

namespace Teamspace.Agent

open Teamspace.Lib Teamspace.Py

/-! ## Deployment -/

/-- The settings of `agent/config.py` that the modelled code reads. -/
structure Settings where
  isBaseUrl : String
  tenantPath : String
  clientId : String
  clientSecret : String
  agentRedirectUri : String
  agentServiceUrl : String
  businessApiUrl : String
  mockLlm : Bool
  stateSigningSecret : String

/-- `Settings.state_jwt_signing_secret`. -/
def Settings.stateJwtSigningSecret (s : Settings) : Except Exn String :=
  if s.stateSigningSecret ≠ "" then .ok s.stateSigningSecret
  else if s.clientSecret ≠ "" then .ok s.clientSecret
  else .error .valueError

/-- The claims of the OAuth state and of the `oauth_session` cookie, as `payload.get` reads them. -/
structure StateClaims where
  threadId : Option String
  action : Option String
  state : Option String
  iat : Int
  exp : Int
  deriving DecidableEq, Repr

/-- HS256 tokens as PyJWT makes and checks them. `Tok` is the type of the strings that a browser
may present as one, and `text` is the string. -/
structure JwtLib (Tok : Type) where
  /-- `jwt.encode(claims, key, algorithm="HS256")`. -/
  encode : StateClaims → String → Tok
  /-- The claims of a token whose HS256 signature is valid under the key. -/
  verify : Tok → String → Option StateClaims
  text : Tok → String
  verify_encode : ∀ c k, verify (encode c k) k = some c
  text_encode_ne_empty : ∀ c k, text (encode c k) ≠ ""

/-- Why `jwt.decode` refuses a token: `ExpiredSignatureError`, or any other exception. -/
inductive DecodeError
  | expired
  | invalid
  deriving DecidableEq, Repr

/-- `jwt.decode(token, key, algorithms=["HS256"])` at wall-clock time `now`: the signature, then
`iat` and `exp`, without leeway. -/
def JwtLib.decode {Tok : Type} (J : JwtLib Tok) (token : Tok) (key : String) (now : Rat) :
    Except DecodeError StateClaims :=
  match J.verify token key with
  | none => .error .invalid
  | some c =>
    if now < c.iat then .error .invalid
    else if (c.exp : Rat) ≤ now then .error .expired
    else .ok c

/-- A deployment of the agent: its settings, and the library functions it relies on. -/
structure Env (Tok : Type) where
  settings : Settings
  jwt : JwtLib Tok
  /-- `base64.urlsafe_b64encode(hashlib.sha256(v.encode()).digest()).rstrip(b"=").decode()`. -/
  codeChallenge : String → String
  /-- `secrets.token_urlsafe(nbytes)`, by the number of draws before it. -/
  tokenUrlsafe : Nat → Nat → String
  tokenUrlsafe_ne_empty : ∀ draw nbytes, 0 < nbytes → tokenUrlsafe draw nbytes ≠ ""
  /-- `validate_mcp_token` at a wall-clock time: the verified claims, or the text of the exception.
  It blocks the event loop, so no other request runs meanwhile. -/
  validateMcpToken : Rat → String → Except String Dict
  /-- `str.lower`. -/
  lower : String → String
  /-- `repr(s)` of a `str`. -/
  repr : String → String
  /-- `str(v)`, as an f-string applies it. -/
  str : Json → String
  str_str : ∀ s, str (.str s) = s
  /-- Whether `s.encode()` succeeds. A Python text with an unpaired surrogate cannot be encoded; it is
  here a text for which this is false. -/
  encodable : String → Bool

/-! ## Operations and requests -/

/-- The operations of the agent's code on what its requests share. -/
inductive Op
  | get (namespace' : Namespace) (key : String)
  | set (namespace' : Namespace) (key : String) (value : Json) (ttl : Nat)
  | delete (namespace' : Namespace) (key : String)
  /-- `time.time()`. -/
  | time
  /-- `time.monotonic()`. -/
  | monotonic
  /-- `secrets.token_urlsafe(nbytes)`. -/
  | tokenUrlsafe (nbytes : Nat)
  /-- `validate_mcp_token(token)`. -/
  | validateMcpToken (token : String)
  /-- `_cache.get(org_id)` of `agent_config_cache.py`. -/
  | cachedConfig (orgId : String)
  /-- `_cache[org_id] = (time.monotonic(), data)`. -/
  | cacheConfig (orgId : String) (data : Json)
  deriving DecidableEq

/-- The answer to an operation. -/
def Op.Ans : Op → Type
  | .get .. => Option Json
  | .set .. | .delete .. | .cacheConfig .. => Unit
  | .time | .monotonic => Rat
  | .tokenUrlsafe _ => String
  | .validateMcpToken _ => Except String Dict
  | .cachedConfig _ => Option (Rat × Json)

inductive Method
  | get
  | post
  | put
  | delete
  deriving DecidableEq, Repr

/-- The paths that `mcp_server.py` asks of the Business API: `/meetings/`, and
`f"/meetings/{meeting_id}"` for whatever the argument dictionary holds as the id. -/
inductive Path
  | meetings
  | meeting (meetingId : Json)
  deriving DecidableEq, Repr

/-- The body of a POST: `data=` or `json=`. -/
inductive PostBody
  | data (form : Dict)
  | json (value : Json)
  deriving DecidableEq, Repr

/-- The points at which a coroutine of the agent gives up control. -/
inductive Req
  /-- `AuthManager._http_post`. -/
  | httpPost (url : String) (body : PostBody)
  /-- `_call_business_api`. -/
  | businessApi (method : Method) (path : Path) (token : String) (jsonBody : Option Json)
  /-- `service_token_client.aauth_headers(force_refresh)`. -/
  | serviceToken (forceRefresh : Bool)
  /-- `_get` of `fetch_and_cache_agent_config`, with the service token it sends. -/
  | agentConfig (url : String) (serviceToken : String)
  deriving DecidableEq, Repr

/-- An HTTP response; `json` is `none` when `resp.json()` raises. -/
structure Response where
  statusCode : Nat
  text : String
  json : Option Json
  deriving DecidableEq, Repr

inductive Rep
  /-- The transport failed, `httpx.HTTPError`. -/
  | failed
  | response (resp : Response)
  /-- What the service-token client returned: a token, or none. -/
  | serviceToken (token : Option String)
  deriving DecidableEq, Repr

/-- The interface of the agent's coroutines. -/
def interface : Interface := ⟨Op, Op.Ans, Req, Rep, Exn⟩

/-- A coroutine of the agent with results in `α`. -/
abbrev Coro (α : Type) := Program interface α

/-- What the operations do. -/
def exec {Tok : Type} (E : Env Tok) : (o : Op) → Shared → o.Ans × Shared
  | .get n k, σ => (σ.get n k, σ)
  | .set n k v ttl, σ => ((), σ.set n k v ttl)
  | .delete n k, σ => ((), σ.delete n k)
  | .time, σ => (σ.wall, σ)
  | .monotonic, σ => (σ.monotonic, σ)
  | .tokenUrlsafe n, σ => (E.tokenUrlsafe σ.draws n, { σ with draws := σ.draws + 1 })
  | .validateMcpToken t, σ => (E.validateMcpToken σ.wall t, σ)
  | .cachedConfig o, σ => (σ.configCache o, σ)
  | .cacheConfig o v, σ =>
    ((), { σ with configCache := Function.update σ.configCache o (some (σ.monotonic, v)) })

/-! ## Operations as coroutines -/

def storeGet (n : Namespace) (k : String) : Coro (Option Json) :=
  Program.perform (I := interface) (.get n k)
def storeSet (n : Namespace) (k : String) (v : Json) (ttl : Nat) : Coro Unit :=
  Program.perform (I := interface) (.set n k v ttl)
def storeDelete (n : Namespace) (k : String) : Coro Unit :=
  Program.perform (I := interface) (.delete n k)
def time : Coro Rat := Program.perform (I := interface) .time
def monotonic : Coro Rat := Program.perform (I := interface) .monotonic
def tokenUrlsafe (nbytes : Nat) : Coro String :=
  Program.perform (I := interface) (.tokenUrlsafe nbytes)
def raise {α : Type} (e : Exn) : Coro α := Program.raise (I := interface) e
def ofExcept {α : Type} (x : Except Exn α) : Coro α := Program.ofExcept (I := interface) x
def await (q : Req) : Coro Rep := Program.request (I := interface) q

/-- The response to a request, or the exception of a failed transport. -/
def http (q : Req) : Coro Response := do
  match ← await q with
  | .response resp => pure resp
  | _ => raise .httpError

/-- `resp.json()`. -/
def Response.readJson (resp : Response) : Except Exn Json :=
  match resp.json with
  | some v => .ok v
  | none => .error .valueError

end Teamspace.Agent
