import Mathlib.Algebra.Order.Ring.Unbundled.Rat
import Teamspace.Common.M2mAuth
import Teamspace.Lib.Trace
import Teamspace.Py.IntText

/-!
# The client of the token endpoint

The calling half of `common/m2m_auth.py`: `ServiceTokenClient`, which requests service tokens from
WSO2 IS and keeps them in a cache. Its calls are the jobs of a system that shares the cache, the
settings, which may change at any time, and the monotonic clock. They give up control at the HTTP
request; under a preemptive schedule also between the sections that the lock protects.
-/

namespace Teamspace.Common

open Teamspace.Lib Teamspace.Py

/-- `_EXPIRY_SKEW_SECONDS`. -/
def expirySkewSeconds : Int := 30

/-- `_DEFAULT_LIFETIME_SECONDS`. -/
def defaultLifetimeSeconds : Int := 300

/-- `M2MConfig`. -/
structure M2MConfig where
  isBaseUrl : String
  tenantPath : String
  clientId : String
  clientSecret : String
  verifyTls : Bool
  scope : String := serviceScope
  deriving DecidableEq, Repr

namespace M2MConfig

/-- `M2MConfig.token_url`. -/
def tokenUrl (config : M2MConfig) : String :=
  config.isBaseUrl ++ config.tenantPath ++ "/oauth2/token"

/-- `M2MConfig.is_usable`. -/
def isUsable (config : M2MConfig) : Bool :=
  config.clientId ≠ "" && config.clientSecret ≠ "" && config.isBaseUrl ≠ ""

/-- `M2MConfig.cache_key`. -/
def cacheKey (config : M2MConfig) : String × String × String :=
  (config.tokenUrl, config.clientId, config.scope)

end M2MConfig

/-! ## The cache -/

/-- `_CachedToken`. -/
structure CachedToken where
  value : Json
  expiresAt : Rat
  deriving DecidableEq

/-- What the calls of a client share: `_cache`, what `_config_provider` returns now, and the
monotonic clock. -/
structure Client where
  cache : String × String × String → Option CachedToken
  config : M2MConfig
  monotonic : Rat

namespace Client

/-- A client with an empty cache. -/
def start (config : M2MConfig) (monotonic : Rat) : Client := ⟨fun _ => none, config, monotonic⟩

/-- Time passes and the settings may change. -/
def Passes (σ σ' : Client) : Prop :=
  ∃ config m, σ.monotonic ≤ m ∧ σ' = { σ with config := config, monotonic := m }

/-- `ServiceTokenClient._cached`. -/
def cached (σ : Client) (config : M2MConfig) : Option Json :=
  match σ.cache config.cacheKey with
  | none => none
  | some entry => if σ.monotonic < entry.expiresAt then some entry.value else none

/-- The section of `_store` that holds the lock. The sum needs a `ttl` that becomes a `float`. -/
def store (σ : Client) (config : M2MConfig) (token : Json) (ttl : Int) :
    Except Exn Unit × Client :=
  if ttl.natAbs < Json.floatBound then
    let entry := ⟨token, σ.monotonic + ttl⟩
    (.ok (), { σ with cache := Function.update σ.cache config.cacheKey (some entry) })
  else (.error .overflowError, σ)

/-- `ServiceTokenClient.invalidate`. -/
def invalidate (σ : Client) : Client := { σ with cache := fun _ => none }

/-- A token with a time to live that is a float is cached. -/
theorem store_of_lt (σ : Client) (config : M2MConfig) (token : Json) {ttl : Int}
    (h : ttl.natAbs < Json.floatBound) : σ.store config token ttl = (.ok (), { σ with
      cache := Function.update σ.cache config.cacheKey (some ⟨token, σ.monotonic + ttl⟩) }) :=
  if_pos h

/-- With a longer one it raises. -/
theorem store_of_not_lt (σ : Client) (config : M2MConfig) (token : Json) {ttl : Int}
    (h : ¬ ttl.natAbs < Json.floatBound) : σ.store config token ttl = (.error .overflowError, σ) :=
  if_neg h

/-- Storing takes no time. -/
theorem store_monotonic (σ : Client) (config : M2MConfig) (token : Json) (ttl : Int) :
    (σ.store config token ttl).2.monotonic = σ.monotonic := by
  unfold store
  split <;> rfl

end Client

/-! ## Operations and requests -/

/-- The library that sends a request. -/
inductive HttpLib
  | requests
  | httpx
  deriving DecidableEq, Repr

/-- The request for a token. -/
structure TokenRequest where
  library : HttpLib
  url : String
  data : List (String × String)
  verify : Bool
  deriving DecidableEq

/-- What becomes of a request: an exception of the library (`RequestException`, `RequestError`), or
a response, with its body if it is JSON. -/
inductive TokenReply
  | requestError
  | response (statusCode : Nat) (json : Option Json)
  deriving DecidableEq

/-- What a call does with what is shared. -/
inductive ClientOp
  | config
  | cached (config : M2MConfig)
  | store (config : M2MConfig) (token : Json) (ttl : Int)
  | invalidate
  deriving DecidableEq

/-- The answer of an operation. -/
def ClientOp.Ans : ClientOp → Type
  | .config => M2MConfig
  | .cached _ => Option Json
  | .store .. => Except Exn Unit
  | .invalidate => Unit

/-- The operations and requests of a client. -/
def clientInterface : Interface := ⟨ClientOp, ClientOp.Ans, TokenRequest, TokenReply, Exn⟩

/-- A call of a client. -/
abbrev Call (α : Type) := Program clientInterface α

/-- An operation takes place. -/
def clientExec : (o : ClientOp) → Client → o.Ans × Client
  | .config, σ => (σ.config, σ)
  | .cached config, σ => (σ.cached config, σ)
  | .store config token ttl, σ => σ.store config token ttl
  | .invalidate, σ => ((), σ.invalidate)

/-! ## Calls -/

/-- `ServiceTokenClient._form`. -/
def form (config : M2MConfig) : List (String × String) :=
  [("grant_type", "client_credentials"), ("client_id", config.clientId),
    ("client_secret", config.clientSecret), ("scope", config.scope)]

/-- The request for a token that a client sends. -/
def tokenRequest (library : HttpLib) (config : M2MConfig) : TokenRequest :=
  ⟨library, config.tokenUrl, form config, config.verifyTls⟩

/-- The lifetime that `_store` reads. -/
def lifetimeOf (expiresIn : Json) : Except Exn Int :=
  match int expiresIn with
  | .ok n => .ok n
  | .error .typeError | .error .valueError => .ok defaultLifetimeSeconds
  | .error e => .error e

/-- For how long `_store` keeps a token. -/
def ttlOf (lifetime : Int) : Int := max (lifetime - expirySkewSeconds) 1

/-- `ServiceTokenClient._store`. -/
def store (config : M2MConfig) (token expiresIn : Json) : Call Json := do
  let lifetime ← Program.ofExcept (lifetimeOf expiresIn)
  let stored ← Program.perform (I := clientInterface) (.store config token (ttlOf lifetime))
  Program.ofExcept (I := clientInterface) stored
  return token

/-- `v.split()`: only a `str` has the method. -/
def splitOf : Json → Except Exn (List String)
  | .str s => .ok (split s)
  | _ => .error .attributeError

/-- `ServiceTokenClient._handle_payload`. -/
def handlePayload (config : M2MConfig) (payload : Json) : Call (Option Json) := do
  let token := ((← Program.ofExcept (payload.get "access_token")) : Option Json).getD .null
  if token.truthy = false then
    return none
  else
    let scope := ((← Program.ofExcept (payload.get "scope")) : Option Json).getD .null
    let granted ← Program.ofExcept (splitOf (pyOr scope (.str "")))
    if config.scope ∉ granted then
      return none
    else
      let expiresIn := ((← Program.ofExcept (payload.get "expires_in")) : Option Json).getD .null
      return some (← store config token expiresIn)

/-- The clause `except ValueError` of `get_token` and `aget_token`. -/
def exceptValueError : Exn → Call (Option Json)
  | .valueError => .ret none
  | e => .raise e

/-- The `try` around the body of a response. -/
def handleResponse (config : M2MConfig) (json : Option Json) : Call (Option Json) :=
  Program.tryCatch
    (match json with
      | none => .raise .valueError
      | some payload => handlePayload config payload)
    exceptValueError

/-- What `get_token` and `aget_token` do, up to the library that sends the request. -/
def acquire (library : HttpLib) (forceRefresh : Bool) : Call (Option Json) := do
  let config : M2MConfig ← Program.perform (I := clientInterface) .config
  if config.isUsable = false then
    return none
  else
    let cached : Option Json ←
      if forceRefresh then pure none
      else Program.perform (I := clientInterface) (.cached config)
    match cached with
    | some token => return some token
    | none =>
      match ← Program.request (I := clientInterface) (tokenRequest library config) with
      | .requestError => return none
      | .response statusCode json =>
        if statusCode ≠ 200 then return none
        else handleResponse config json

/-- `ServiceTokenClient.get_token`. -/
def getToken (forceRefresh : Bool) : Call (Option Json) := acquire .requests forceRefresh

/-- `ServiceTokenClient.aget_token`. -/
def agetToken (forceRefresh : Bool) : Call (Option Json) := acquire .httpx forceRefresh

/-- The calls of a client. -/
inductive ClientJob
  | getToken (forceRefresh : Bool)
  | agetToken (forceRefresh : Bool)
  | invalidate
  deriving DecidableEq

/-- A client that is called. -/
def clientSystem : System where
  I := clientInterface
  State := Client
  Job := ClientJob
  Out := Option Json
  exec := clientExec
  program
    | .getToken forceRefresh => getToken forceRefresh
    | .agetToken forceRefresh => agetToken forceRefresh
    | .invalidate => do
      Program.perform (I := clientInterface) .invalidate
      return none
  passes := Client.Passes

/-! ## What becomes of a response -/

/-- What a client makes of the body of a response, up to the cache. -/
inductive Verdict
  | refuse
  | raise (e : Exn)
  | keep (token : Json) (lifetime : Int)

/-- The fields of a body, `None` for those that are missing. -/
def field (d : Dict) (k : String) : Json := (Dict.get d k).getD .null

/-- What a client makes of a body. -/
def verdict (config : M2MConfig) : Option Json → Verdict
  | none => .refuse
  | some (.obj d) =>
    if (field d "access_token").truthy = false then .refuse
    else
      match splitOf (pyOr (field d "scope") (.str "")) with
      | .error e => .raise e
      | .ok granted =>
        if config.scope ∉ granted then .refuse
        else
          match lifetimeOf (field d "expires_in") with
          | .error e => .raise e
          | .ok lifetime => .keep (field d "access_token") lifetime
  | some _ => .raise .attributeError

/-- A lifetime that does not convert raises nothing. -/
theorem lifetimeOf_ne_valueError (v : Json) : lifetimeOf v ≠ .error .valueError := by
  unfold lifetimeOf
  split
  · nofun
  · nofun
  · nofun
  · next hne _ => exact fun h => hne (Except.error.inj h)

/-- A scope that cannot be split has no such attribute. -/
theorem splitOf_error {v : Json} {e : Exn} (h : splitOf v = .error e) : e = .attributeError := by
  cases v with
  | str s => cases h
  | null | bool | num | arr | obj => exact (Except.error.inj h).symm

/-- What follows when the cache was written. -/
def afterStore (token : Json) : Except Exn Unit → Call (Option Json)
  | .ok _ => .ret (some token)
  | .error e => exceptValueError e

/-- The last part of the `try`, after the scope was checked. -/
theorem store_eq (config : M2MConfig) (token expiresIn : Json) :
    (store config token expiresIn >>= fun token => .ret (some token)).tryCatch exceptValueError =
      match lifetimeOf expiresIn with
      | .error e => .raise e
      | .ok lifetime => .op (.store config token (ttlOf lifetime)) (afterStore token) := by
  have hne := lifetimeOf_ne_valueError expiresIn
  unfold store
  cases hl : lifetimeOf expiresIn with
  | error e =>
    change exceptValueError e = .raise e
    cases e with
    | valueError => exact absurd hl hne
    | _ => rfl
  | ok lifetime =>
    refine congrArg (Program.op (I := clientInterface) _) (funext fun stored => ?_)
    match stored with
    | .ok () => rfl
    | .error e => rfl

/-- A response is handled as its body deserves. An exception other than `ValueError` escapes. -/
theorem handleResponse_eq (config : M2MConfig) (json : Option Json) : handleResponse config json =
    match verdict config json with
    | .refuse => .ret none
    | .raise e => .raise e
    | .keep token lifetime => .op (.store config token (ttlOf lifetime)) (afterStore token) := by
  match json with
  | none => rfl
  | some .null | some (.bool _) | some (.num _) | some (.str _) | some (.arr _) => rfl
  | some (.obj d) =>
    have hpayload : handlePayload config (.obj d) =
        if (field d "access_token").truthy = false then .ret none
        else Program.ofExcept (splitOf (pyOr (field d "scope") (.str ""))) >>= fun granted =>
          if config.scope ∉ granted then .ret none
          else store config (field d "access_token") (field d "expires_in") >>= fun token =>
            .ret (some token) := rfl
    change (handlePayload config (.obj d)).tryCatch exceptValueError = _
    rw [hpayload, verdict]
    by_cases ht : (field d "access_token").truthy = false
    · rw [if_pos ht, if_pos ht]
      rfl
    · rw [if_neg ht, if_neg ht]
      cases hs : splitOf (pyOr (field d "scope") (.str "")) with
      | error e =>
        cases splitOf_error hs
        rfl
      | ok granted =>
        change Program.tryCatch (if config.scope ∉ granted then _ else _) _ = _
        by_cases hg : config.scope ∉ granted
        · simp only [if_pos hg]
          rfl
        · simp only [if_neg hg, store_eq]
          cases lifetimeOf (field d "expires_in") <;> rfl

/-- The part of a call that sends the request. -/
def fetch (library : HttpLib) (config : M2MConfig) : Call (Option Json) :=
  .await (tokenRequest library config) fun reply =>
    match reply with
    | .requestError => .ret none
    | .response statusCode json =>
      if statusCode ≠ 200 then .ret none else handleResponse config json

/-- What follows when a call has looked into the cache. -/
def afterCached (library : HttpLib) (config : M2MConfig) : Option Json → Call (Option Json)
  | some token => .ret (some token)
  | none => fetch library config

/-- A call reads the settings, looks into the cache unless it is forced, and sends the request. -/
theorem acquire_eq (library : HttpLib) (forceRefresh : Bool) : acquire library forceRefresh =
    .op .config fun config =>
      if M2MConfig.isUsable config = false then .ret none
      else if forceRefresh then fetch library config
      else .op (.cached config) (afterCached library config) := by
  refine congrArg (Program.op (I := clientInterface) .config) (funext fun config => ?_)
  change (if M2MConfig.isUsable config = false then Program.ret none else _) = _
  by_cases hu : M2MConfig.isUsable config = false
  · rw [if_pos hu, if_pos hu]
  · rw [if_neg hu, if_neg hu]
    cases forceRefresh with
    | true => rfl
    | false =>
      refine congrArg (Program.op (I := clientInterface) (.cached config))
        (funext fun cached => ?_)
      cases cached <;> rfl

end Teamspace.Common
