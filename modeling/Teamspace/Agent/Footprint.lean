import Teamspace.Agent.System

/-!
# What the parts of the service touch

Fetching a token of the agent, choosing the token of a tool call and preparing a chat are *plain*:
they write neither the flow state, the pending meeting, the authorization link nor the delegated
token of any thread, they leave the PKCE verifiers alone, and they ask the Business API and the OBO
exchange for nothing.
-/

namespace Teamspace.Agent

open Teamspace.Lib Teamspace.Py

variable {Tok : Type} (E : Env Tok)

/-- The namespaces whose entries an authorization goes through. -/
def Namespace.Guarded (n : Namespace) : Prop :=
  n = .flowState ∨ n = .pendingMeeting ∨ n = .oboToken ∨ n = .pkceVerifier ∨ n = .authUrl

instance (n : Namespace) : Decidable n.Guarded :=
  inferInstanceAs (Decidable (_ ∨ _ ∨ _ ∨ _ ∨ _))

/-- An operation that writes nothing of an authorization and reads no verifier. -/
def Op.Plain : Op → Prop
  | .get n _ => n ≠ .pkceVerifier
  | .set n _ _ _ | .delete n _ => ¬ n.Guarded
  | _ => True

/-- An OBO token request. -/
def Req.IsObo (q : Req) : Prop := ∃ code verifier agentToken,
  q = oboTokenRequest E code verifier agentToken

/-- A request that asks neither the Business API nor for a delegated token. -/
def Req.Plain (q : Req) : Prop :=
  (∀ method path token body, q ≠ .businessApi method path token body) ∧ ¬ q.IsObo E

/-- A plain program. -/
abbrev Plain {α : Type} (p : Coro α) : Prop := Program.Only (I := interface) Op.Plain (Req.Plain E) p

section
variable {P : Op → Prop} {Q : Req → Prop}

/-- A request that may be sent is all that `http` does. -/
theorem only_http {q : Req} (h : Q q) : Program.Only (I := interface) P Q (http q) := by
  refine Program.Only.bind (I := interface) ⟨h, fun _ => trivial⟩ fun r => ?_
  cases r <;> trivial

/-- Reading the time is one operation. -/
theorem only_time (h : P .time) : Program.Only (I := interface) P Q time := ⟨h, fun _ => trivial⟩

/-- So is reading an entry. -/
theorem only_storeGet {n : Namespace} {k : String} (h : P (.get n k)) :
    Program.Only (I := interface) P Q (storeGet n k) := ⟨h, fun _ => trivial⟩

/-- A token is read with the time at which it must be alive. -/
theorem only_liveToken {n : Namespace} {k : String} (hn : P (.get n k)) (ht : P .time) :
    Program.Only (I := interface) P Q (liveToken n k) :=
  Program.Only.bind (only_storeGet hn) fun _ =>
    Program.Only.bind (only_time ht) fun _ => Program.only_ofExcept _

/-- An entry for a token takes the time. -/
theorem only_entry {token expiresIn : Json} (ht : P .time) :
    Program.Only (I := interface) P Q (entry token expiresIn) :=
  Program.Only.bind (only_time ht) fun _ =>
    Program.Only.bind (Program.only_ofExcept _) fun _ => trivial

/-- Fetching a configuration asks for a service token and for that configuration. -/
theorem only_fetchAndCacheAgentConfig {orgId : String} (hcached : P (.cachedConfig orgId))
    (hmonotonic : P .monotonic) (hcache : ∀ data, P (.cacheConfig orgId data))
    (htoken : ∀ forceRefresh, Q (.serviceToken forceRefresh))
    (hget : ∀ token, Q (.agentConfig
      (rstrip E.settings.businessApiUrl '/' ++ "/agent-config/org/" ++ orgId) token)) :
    Program.Only (I := interface) P Q (fetchAndCacheAgentConfig E orgId) := by
  have onlyHeaders (forceRefresh : Bool) :
      Program.Only (I := interface) P Q (serviceTokenHeaders forceRefresh) := by
    refine ⟨htoken _, fun r => ?_⟩
    cases r <;> trivial
  have onlyGet (token : String) : Program.Only (I := interface) P Q (getAgentConfig
      (rstrip E.settings.businessApiUrl '/' ++ "/agent-config/org/" ++ orgId) token) := by
    refine ⟨hget _, fun r => ?_⟩
    cases r <;> trivial
  have onlyCache (resp : Response) :
      Program.Only (I := interface) P Q (cacheAgentConfig orgId resp) := by
    unfold cacheAgentConfig
    split
    · trivial
    · split
      · trivial
      · exact ⟨hcache _, fun _ => trivial⟩
  refine Program.Only.bind (α := Option (Rat × Json)) ⟨hcached, fun _ => trivial⟩ fun entry => ?_
  refine Program.Only.bind (α := Rat) ⟨hmonotonic, fun _ => trivial⟩ fun now => ?_
  split
  · trivial
  · refine Program.Only.bind (onlyHeaders false) fun token => ?_
    cases token with
    | none => trivial
    | some token =>
      refine Program.Only.bind (onlyGet token) fun resp => ?_
      cases resp with
      | none => trivial
      | some resp =>
        dsimp only
        split
        · refine Program.Only.bind (onlyHeaders true) fun token => ?_
          cases token with
          | none => trivial
          | some token =>
            refine Program.Only.bind (onlyGet token) fun resp => ?_
            cases resp with
            | none => trivial
            | some resp => exact onlyCache resp
        · exact onlyCache resp

end

/-- A read of anything but a verifier is plain. -/
theorem storeGet_plain {n : Namespace} {k : String} (hn : n ≠ .pkceVerifier) :
    Plain E (storeGet n k) := only_storeGet hn

/-- So is a read of a token. -/
theorem liveToken_plain {n : Namespace} {k : String} (hn : n ≠ .pkceVerifier) :
    Plain E (liveToken n k) := only_liveToken (P := Op.Plain) hn trivial

/-- A write of nothing that belongs to an authorization is plain. -/
theorem storeSet_plain {n : Namespace} {k : String} {v : Json} {ttl : Nat}
    (hn : ¬ n.Guarded) : Plain E (storeSet n k v ttl) := ⟨hn, fun _ => trivial⟩

/-! ## Tokens -/

/-- A POST that is no OBO token request is plain. -/
theorem httpPost_plain {url : String} {body : PostBody}
    (h : ¬ (Req.httpPost url body).IsObo E) : (Req.httpPost url body).Plain E := ⟨nofun, h⟩

/-- A program that asks WSO2 IS and touches nothing that requests share. -/
abbrev Asks {α : Type} (p : Coro α) : Prop :=
  Program.Only (I := interface) (fun _ => False) (Req.Plain E) p

/-- A program that only asks WSO2 IS is plain. -/
theorem plain_of_asks {α : Type} {p : Coro α} (h : Asks E p) : Plain E p :=
  h.mono (fun _ ho => ho.elim) fun _ hq => hq

/-- The first request for a token of the agent only asks WSO2 IS. -/
theorem initAgentAuthFlow_asks (codeChallenge : String) :
    Asks E (initAgentAuthFlow E codeChallenge) := by
  refine Program.Only.bind (only_http (httpPost_plain E ?_)) fun resp => ?_
  · rintro ⟨code, verifier, agentToken, h⟩
    simp [oboTokenRequest] at h
  · exact Program.Only.bind (Program.only_ofExcept _) fun _ => Program.only_ofExcept _

/-- So does the second. -/
theorem submitAgentCredentials_asks (flowId authenticatorId agentId agentSecret : Json) :
    Asks E (submitAgentCredentials E flowId authenticatorId agentId agentSecret) := by
  refine Program.Only.bind (only_http (httpPost_plain E ?_)) fun resp => ?_
  · rintro ⟨code, verifier, agentToken, h⟩
    simp [oboTokenRequest] at h
  · exact Program.Only.bind (Program.only_ofExcept _) fun _ => Program.only_ofExcept _

/-- So does the third. -/
theorem exchangeCodeForAgentToken_asks (code : Json) (codeVerifier : String) :
    Asks E (exchangeCodeForAgentToken E code codeVerifier) := by
  refine Program.Only.bind (only_http (httpPost_plain E ?_)) fun resp => ?_
  · rintro ⟨code, verifier, agentToken, h⟩
    simp [oboTokenRequest] at h
  · exact Program.Only.bind (Program.only_ofExcept _) fun _ => Program.only_ofExcept _

/-- Storing the token of the agent is plain. -/
theorem storeAgentToken_plain (token expiresIn : Json) (threadId : String) :
    Plain E (storeAgentToken token expiresIn threadId) :=
  Program.Only.bind (only_entry (P := Op.Plain) trivial) fun _ => storeSet_plain E (by decide)

/-- Fetching a token of the agent is plain. -/
theorem fetchAgentToken_plain (agentId agentSecret : Json) (threadId : String) :
    Plain E (fetchAgentToken E agentId agentSecret threadId) := by
  unfold fetchAgentToken
  split
  · trivial
  · split
    · trivial
    · refine Program.Only.bind (α := String) ⟨trivial, fun _ => trivial⟩ fun codeVerifier => ?_
      refine Program.Only.bind (plain_of_asks E (initAgentAuthFlow_asks E _)) fun flow => ?_
      refine Program.Only.bind (plain_of_asks E (submitAgentCredentials_asks E ..)) fun code => ?_
      refine Program.Only.bind (plain_of_asks E (exchangeCodeForAgentToken_asks E ..)) fun res => ?_
      exact Program.Only.bind (storeAgentToken_plain E ..) fun _ => trivial

/-- `get_agent_jwt_raw` is plain. -/
theorem getAgentJwtRaw_plain (threadId : String) : Plain E (getAgentJwtRaw threadId) := by
  refine Program.Only.bind (liveToken_plain E (by decide)) fun token => ?_
  split
  · exact liveToken_plain E (by decide)
  · trivial

/-! ## The token of a tool call -/

/-- `get_agent_credentials` is plain. -/
theorem getAgentCredentials_plain (threadId : String) : Plain E (getAgentCredentials threadId) :=
  Program.Only.bind (storeGet_plain E (by decide)) fun _ => Program.only_ofExcept _

/-- `fetch_and_cache_agent_config` is plain. -/
theorem fetchAndCacheAgentConfig_plain (orgId : String) :
    Plain E (fetchAndCacheAgentConfig E orgId) := by
  refine only_fetchAndCacheAgentConfig E trivial trivial (fun _ => trivial) (fun _ => ⟨nofun, ?_⟩)
    fun _ => ⟨nofun, ?_⟩ <;>
  · rintro ⟨code, verifier, agentToken, h⟩
    cases h

/-- Looking for the credentials is plain. -/
theorem credentialsFor_plain (threadId : String) : Plain E (credentialsFor E threadId) := by
  refine Program.Only.bind (getAgentCredentials_plain E threadId) fun ⟨agentId, agentSecret⟩ => ?_
  dsimp only
  split
  · trivial
  · refine Program.Only.bind ?_ fun orgName => ?_
    · exact Program.Only.bind (Program.Only.bind (storeGet_plain E (by decide)) fun _ => trivial)
        fun _ => trivial
    split
    · refine Program.Only.bind (fetchAndCacheAgentConfig_plain E _) fun cached => ?_
      refine Program.Only.bind (Program.only_ofExcept _) fun credentials => ?_
      cases credentials with
      | none => trivial
      | some p => exact Program.Only.bind (storeSet_plain E (by decide)) fun _ => trivial
    · trivial

/-- Choosing the token of a tool call is plain. -/
theorem toolToken_plain (threadId : String) : Plain E (toolToken E threadId) := by
  refine Program.Only.bind (liveToken_plain E (by decide)) fun token => ?_
  split
  · trivial
  · refine Program.Only.bind (credentialsFor_plain E threadId) fun ⟨agentId, agentSecret⟩ => ?_
    refine Program.Only.tryCatch ?_ fun _ => trivial
    exact Program.Only.bind (fetchAgentToken_plain E ..) fun _ => trivial

/-! ## Chat -/

/-- Storing something if there is something to store is plain if storing it is. -/
theorem storeIf_plain {value : String} {write : Coro Unit} (h : Plain E write) :
    Plain E (storeIf value write) := by
  unfold storeIf
  split
  · exact h
  · trivial

/-- Storing the agent of a chat is plain. -/
theorem storeChatAgent_plain (req : ChatRequest) : Plain E (storeChatAgent req) :=
  Program.Only.bind (storeIf_plain E (storeSet_plain E (by decide))) fun _ =>
    Program.Only.bind (storeIf_plain E (storeSet_plain E (by decide))) fun _ =>
      storeIf_plain E (storeSet_plain E (by decide))

/-- `get_history` is plain. -/
theorem getHistory_plain (threadId : String) : Plain E (getHistory threadId) :=
  Program.Only.bind (storeGet_plain E (by decide)) fun _ => Program.only_ofExcept _

/-- Prefetching the token of the agent is plain. -/
theorem prefetchAgentToken_plain (threadId : String) (token : Option Json) :
    Plain E (prefetchAgentToken E threadId token) := by
  unfold prefetchAgentToken
  split
  · refine Program.Only.bind (getAgentCredentials_plain E _) fun ⟨agentId, agentSecret⟩ => ?_
    dsimp only
    split
    · refine Program.Only.tryCatch ?_ fun _ => trivial
      exact Program.Only.bind (fetchAgentToken_plain E ..) fun _ => trivial
    · trivial
  · trivial

/-- Preparing a chat is plain. -/
theorem prepareChat_plain (req : ChatRequest) : Plain E (prepareChat E req) := by
  refine Program.Only.bind (storeChatAgent_plain E req) fun _ => ?_
  refine Program.Only.bind (liveToken_plain E (by decide)) fun obo => ?_
  refine Program.Only.bind (getAgentJwtRaw_plain E _) fun jwt => ?_
  refine Program.Only.bind (prefetchAgentToken_plain E ..) fun jwt => ?_
  refine Program.Only.bind (getHistory_plain E _) fun history => ?_
  refine Program.Only.bind ?_ fun _ => trivial
  exact Program.Only.bind (getHistory_plain E _) fun _ => storeSet_plain E (by decide)

end Teamspace.Agent
