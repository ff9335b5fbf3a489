import Teamspace.Agent.AgentConfigCache
import Teamspace.Agent.ChatEndpoints
import Teamspace.Agent.Symbolic
import Teamspace.Agent.Threads
import Teamspace.Api.ServiceReads
import Teamspace.Webapp.AgentIdentities

/-!
# The agent configuration of an organization

`add_agent` saves the configuration of an agent under the `org_id` of the session,
`_build_agent_chat_payload` sends the `org_name` of the session, `_prepare_chat` keeps that for the
thread, and the fallback of `dispatch_tool` asks the Business API for the configuration of that name.
`loads_own_config` says for which organizations that is their own configuration.
-/

namespace Teamspace.Webapp

open Teamspace.Api Teamspace.Agent

/-- `_build_agent_chat_payload`, as the agent reads it. -/
def buildAgentChatPayload (language threadId message : String) (s : PortalSession)
    (agentCfg : Option AgentConfigResponse) : Ask where
  threadId
  message
  orgName := s.orgName
  language
  agentId := (agentCfg.map fun c => c.agentId).getD ""
  agentSecret := (agentCfg.map fun c => c.agentSecret).getD ""
  geminiApiKey := (agentCfg.bind fun c => c.geminiApiKey).getD ""
  customPrompt := (agentCfg.bind fun c => c.customPrompt).getD ""
  agentName :=
    match agentCfg with
    | some c => if c.displayName ≠ "" then c.displayName else defaultAgentName
    | none => defaultAgentName

end Teamspace.Webapp

namespace Teamspace.Agent

open Teamspace.Lib Teamspace.Py
open AgentConfigCache (configUrl configUrl_injective)

/-! ## The Business API -/

/-- The Business API, as the URLs of the agent reach it. -/
structure ConfigApi where
  driver : Api.Driver
  db : Api.Database
  /-- The `org_id` with which a `GET` of a URL reaches `get_agent_config`, if it does. -/
  routed : String → Option String
  isoformat : Api.DateTime → String

namespace ConfigApi

variable (A : ConfigApi)

/-- An `AgentConfigResponse`, as JSON. -/
def configJson (c : Api.AgentConfigResponse) : Json := .obj [
  ("org", .str c.org),
  ("agent_id", .str c.agentId),
  ("agent_secret", .str c.agentSecret),
  ("display_name", .str c.displayName),
  ("description", (c.description.map .str).getD .null),
  ("gemini_api_key", (c.geminiApiKey.map .str).getD .null),
  ("org_client_id", (c.orgClientId.map .str).getD .null),
  ("org_client_secret", (c.orgClientSecret.map .str).getD .null),
  ("custom_prompt", (c.customPrompt.map .str).getD .null),
  ("created_at", .str (A.isoformat c.createdAt))]

/-- What `get_agent_config` answers with, as JSON. -/
def bodyJson : Api.Body → Option Json
  | .agentConfig c => some (A.configJson c)
  | .detail text => some (.obj [("detail", .str text)])
  | _ => none

/-- What `get_agent_config` answers a service. -/
def answer (orgId : String) : Response :=
  let resp := Api.serviceAnswer A.driver orgId A.db
  ⟨resp.statusCode, "", A.bodyJson resp.body⟩

/-- The configuration in the row of an organization. -/
def IsConfigOf (orgId : String) (data : Json) : Prop :=
  ∃ c ∈ A.db.agentConfigs.rows, c.org = orgId ∧
    ∃ createdAt, c.createdAt = some createdAt ∧ data = A.configJson { c with createdAt }

/-- How the service-token client and the Business API may answer. If they are up, the agent has a
token and its requests get through. -/
def Answers (up : Prop) : Req → Rep → Prop
  | .serviceToken _, r => up → ∃ token, token ≠ "" ∧ r = .serviceToken (some token)
  | .agentConfig url _, r => ∀ orgId, A.routed url = some orgId →
      r = .response (A.answer orgId) ∨
        ¬up ∧ ∀ resp, r = .response resp → resp.statusCode ≠ 200
  | _, _ => True

variable {A} {orgId : String}

/-- A configuration says whose it is. -/
theorem IsConfigOf.unique {orgId' : String} {data : Json} (h : A.IsConfigOf orgId data)
    (h' : A.IsConfigOf orgId' data) : orgId = orgId' := by
  obtain ⟨c, -, rfl, t, -, rfl⟩ := h
  obtain ⟨c', -, rfl, t', -, heq⟩ := h'
  simp only [configJson, Json.obj.injEq, List.cons.injEq, Prod.mk.injEq, Json.str.injEq,
    true_and] at heq
  exact heq.1

/-- What a service is answered with is a configuration of the organization. -/
theorem isConfigOf_answer {data : Json} (hstatus : (A.answer orgId).statusCode = 200)
    (hdata : (A.answer orgId).json = some data) : A.IsConfigOf orgId data := by
  obtain ⟨c, hmem, horg, t, hcreated, hanswer⟩ := Api.showsRow_of_status hstatus
  change A.bodyJson (Api.serviceAnswer A.driver orgId A.db).body = some data at hdata
  rw [hanswer] at hdata
  exact ⟨c, hmem, horg, t, hcreated, (Option.some.inj hdata).symm⟩

/-- A row that is shown is the configuration that a service is answered with. -/
theorem answer_of_shown (h : Api.ShowsRow A.driver orgId A.db) :
    (A.answer orgId).statusCode = 200 ∧
      ∃ data, (A.answer orgId).json = some data ∧ A.IsConfigOf orgId data := by
  obtain ⟨c, hmem, horg, t, hcreated, hanswer⟩ := h
  have hstatus : (A.answer orgId).statusCode = 200 := by
    change (Api.serviceAnswer A.driver orgId A.db).statusCode = 200
    rw [hanswer]
  refine ⟨hstatus, A.configJson { c with createdAt := t }, ?_, c, hmem, horg, t, hcreated, rfl⟩
  change A.bodyJson (Api.serviceAnswer A.driver orgId A.db).body = _
  rw [hanswer]
  rfl

end ConfigApi

variable {Tok : Type} {E : Env Tok} {Ans : Req → Rep → Prop} {σ : Shared}

/-! ## The cache -/

/-- An agent to which others answer as `Ans` says, while time passes. -/
def answering (E : Env Tok) (Ans : Req → Rep → Prop) : Environment interface Shared where
  exec := exec E
  answers q σ r σ' := σ.Passes σ' ∧ Ans q r

/-- Later, when nothing more is cached. -/
structure Later (σ σ' : Shared) : Prop where
  configCache : σ'.configCache = σ.configCache
  monotonic : σ.monotonic ≤ σ'.monotonic

/-- Nothing more is cached at once. -/
theorem Later.refl (σ : Shared) : Later σ σ := ⟨rfl, le_refl _⟩

/-- What comes later than later is later. -/
theorem Later.trans {σ₁ σ₂ σ₃ : Shared} (h : Later σ₁ σ₂) (h' : Later σ₂ σ₃) : Later σ₁ σ₃ :=
  ⟨h'.configCache.trans h.configCache, h.monotonic.trans h'.monotonic⟩

/-- The passing of time caches nothing. -/
theorem Shared.Passes.later {σ' : Shared} (h : σ.Passes σ') : Later σ σ' := by
  obtain ⟨m, w, hm, rfl⟩ := h
  exact ⟨rfl, hm⟩

/-- The operation caches nothing. -/
def Op.Uncached : Op → Prop
  | .cacheConfig .. => False
  | _ => True

/-- An operation that caches nothing leads to a later state. -/
theorem later_exec {o : Op} (ho : o.Uncached) (σ : Shared) : Later σ (exec E o σ).2 := by
  cases o with
  | cacheConfig => exact ho.elim
  | _ => exact ⟨rfl, le_refl _⟩

/-- What is as true later on, a program that caches nothing keeps. -/
theorem ends_uncached {α : Type} {p : Coro α} {J : Shared → Prop}
    (hp : Within Op.Uncached p) (hJ : ∀ σ σ', Later σ σ' → J σ → J σ') (hσ : J σ) :
    (answering E Ans).Ends p σ fun _ σ' => J σ' :=
  .only hp hσ (fun _ σ ho => hJ σ _ (later_exec ho σ)) fun _ σ _ σ' _ hs ha => hJ σ σ' ha.1.later hs

/-- Since `σ`, `data` has been cached for `name`, and nothing else. -/
def Caches (σ : Shared) (name : String) (data : Json) (σ' : Shared) : Prop :=
  ∃ at', σ.monotonic ≤ at' ∧ σ'.configCache = Function.update σ.configCache name (some (at', data))

/-- What has been cached stays cached. -/
theorem Caches.later {name : String} {data : Json} {σ₁ σ₂ : Shared} (h : Caches σ name data σ₁)
    (hl : Later σ₁ σ₂) : Caches σ name data σ₂ := by
  obtain ⟨at', hat, hcache⟩ := h
  exact ⟨at', hat, hl.configCache.trans hcache⟩

/-- What is cached later has been cached since before. -/
theorem Caches.of_later {name : String} {data : Json} {σ₁ σ₂ : Shared} (hl : Later σ σ₁)
    (h : Caches σ₁ name data σ₂) : Caches σ name data σ₂ := by
  obtain ⟨at', hat, hcache⟩ := h
  exact ⟨at', hl.monotonic.trans hat, by rw [hcache, hl.configCache]⟩

/-! ## Fetching -/

/-- The headers bear the token that the client has given. -/
theorem serviceTokenHeaders_ends (forceRefresh : Bool) :
    (answering E Ans).Ends (serviceTokenHeaders forceRefresh) σ
      (Environment.Settled fun token σ' => Later σ σ' ∧
        ∃ r, Ans (.serviceToken forceRefresh) r ∧
          ∀ t, t ≠ "" → r = .serviceToken (some t) → token = some t) := by
  rintro r σ' ⟨hpass, hr⟩
  cases r with
  | serviceToken token =>
    refine ⟨hpass.later, _, hr, ?_⟩
    rintro t ht ⟨⟩
    exact Option.filter_eq_some_iff.2 ⟨rfl, decide_eq_true ht⟩
  | failed | response => exact ⟨hpass.later, _, hr, nofun⟩

/-- A request for a configuration gives the response, if there is one. -/
theorem getAgentConfig_ends (url token : String) :
    (answering E Ans).Ends (getAgentConfig url token) σ
      (Environment.Settled fun resp σ' => Later σ σ' ∧
        ∃ r, Ans (.agentConfig url token) r ∧ ∀ x, resp = some x ↔ r = .response x) := by
  rintro r σ' ⟨hpass, hr⟩
  cases r with
  | response resp =>
    refine ⟨hpass.later, _, hr, fun x => ?_⟩
    simp
  | failed | serviceToken => exact ⟨hpass.later, _, hr, fun x => ⟨nofun, nofun⟩⟩

/-- A response of status 200 with JSON is cached, and no other one. -/
theorem cacheAgentConfig_ends (name : String) (resp : Response) :
    (answering E Ans).Ends (cacheAgentConfig name resp) σ fun _ σ' =>
      (σ' = σ ∧ ∀ data, resp.statusCode = 200 → resp.json ≠ some data) ∨
        ∃ data, resp.statusCode = 200 ∧ resp.json = some data ∧ Caches σ name data σ' := by
  unfold cacheAgentConfig
  split
  · next h => exact .inl ⟨rfl, fun _ hstatus => absurd hstatus h⟩
  next hstatus =>
  cases hjson : resp.json with
  | none => exact .inl ⟨rfl, fun _ _ => nofun⟩
  | some data => exact .inr ⟨data, not_not.1 hstatus, rfl, σ.monotonic, le_refl _, rfl⟩

/-- What a fetch leaves: nothing more is cached, or a response that it has got. -/
def Fetched (E : Env Tok) (Ans : Req → Rep → Prop) (name : String) (σ σ' : Shared) : Prop :=
  Later σ σ' ∨ ∃ token resp data,
    Ans (.agentConfig (configUrl E.settings.businessApiUrl name) token) (.response resp) ∧
      resp.statusCode = 200 ∧ resp.json = some data ∧ Caches σ name data σ'

/-- A response that the fetch has got is cached, or nothing is. -/
theorem cacheAgentConfig_fetched {name token : String} {resp : Response} {σ₁ : Shared}
    (hl : Later σ σ₁)
    (hr : Ans (.agentConfig (configUrl E.settings.businessApiUrl name) token) (.response resp)) :
    (answering E Ans).Ends (cacheAgentConfig name resp) σ₁ fun _ σ' =>
      Fetched E Ans name σ σ' := by
  refine (cacheAgentConfig_ends name resp).mono fun _ σ' h => ?_
  rcases h with ⟨rfl, -⟩ | ⟨data, hstatus, hjson, hcaches⟩
  · exact .inl hl
  · exact .inr ⟨token, resp, data, hr, hstatus, hjson, hcaches.of_later hl⟩

/-- A fetch caches what it gets for the name. -/
theorem fetchAndCacheAgentConfig_ends (name : String) :
    (answering E Ans).Ends (fetchAndCacheAgentConfig E name) σ fun _ σ' =>
      Fetched E Ans name σ σ' := by
  refine Environment.ends_perform.2 (Environment.ends_perform.2 ?_)
  split
  · exact .inl (.refl σ)
  refine (serviceTokenHeaders_ends false).settled fun token σ₁ ⟨h₁, _⟩ => ?_
  cases token with
  | none => exact .inl h₁
  | some token =>
    refine (getAgentConfig_ends _ token).settled fun resp σ₂ ⟨h₂, r, hr, hresp⟩ => ?_
    cases resp with
    | none => exact .inl (h₁.trans h₂)
    | some resp =>
      dsimp only
      split
      · -- the retry with a fresh token
        refine (serviceTokenHeaders_ends true).settled fun token σ₃ ⟨h₃, _⟩ => ?_
        cases token with
        | none => exact .inl ((h₁.trans h₂).trans h₃)
        | some token =>
          refine (getAgentConfig_ends _ token).settled fun resp σ₄ ⟨h₄, r, hr, hresp⟩ => ?_
          have hl := ((h₁.trans h₂).trans h₃).trans h₄
          cases resp with
          | none => exact .inl hl
          | some resp => exact cacheAgentConfig_fetched hl ((hresp resp).1 rfl ▸ hr)
      · exact cacheAgentConfig_fetched (h₁.trans h₂) ((hresp resp).1 rfl ▸ hr)

/-- With a service token and a response that can be used, what it shows is cached. -/
theorem fetchAndCacheAgentConfig_loads {name : String} {data : Json}
    (hcache : cachedOf (σ.configCache name) σ.monotonic = none)
    (htoken : ∀ r, Ans (.serviceToken false) r →
      ∃ token, token ≠ "" ∧ r = .serviceToken (some token))
    (hget : ∀ token r, Ans (.agentConfig (configUrl E.settings.businessApiUrl name) token) r →
      ∃ resp, r = .response resp ∧ resp.statusCode = 200 ∧ resp.json = some data) :
    (answering E Ans).Ends (fetchAndCacheAgentConfig E name) σ fun _ σ' =>
      Caches σ name data σ' := by
  refine Environment.ends_perform.2 (Environment.ends_perform.2 ?_)
  split
  · next cached h => exact absurd (hcache.symm.trans h) nofun
  refine (serviceTokenHeaders_ends false).settled fun token σ₁ ⟨h₁, r, hr, ht⟩ => ?_
  obtain ⟨t, hne, rfl⟩ := htoken r hr
  cases ht t hne rfl
  refine (getAgentConfig_ends _ t).settled fun resp σ₂ ⟨h₂, r, hr, hresp⟩ => ?_
  obtain ⟨resp', rfl, hstatus, hjson⟩ := hget t r hr
  cases (hresp resp').2 rfl
  dsimp only
  rw [if_neg (by omega)]
  refine (cacheAgentConfig_ends name resp').mono fun _ σ' h => ?_
  rcases h with ⟨-, hno⟩ | ⟨data', -, hjson', hcaches⟩
  · exact absurd hjson (hno data hstatus)
  · cases hjson.symm.trans hjson'
    exact hcaches.of_later (h₁.trans h₂)

/-! ## The fallback -/

/-- The credentials of the thread are not all there. -/
def Lacking (σ : Shared) (t : String) : Prop :=
  ∃ agentId agentSecret, credentialsOf (σ.get .agentCredentials t) = .ok (agentId, agentSecret) ∧
    (agentId.truthy && agentSecret.truthy) = false

/-- The name of its organization that a thread holds. -/
def heldOrgName (σ : Shared) (t : String) : Json := (notNone (σ.get .orgName t)).getD (.str "")

section

variable {t : String}

/-- Without credentials a thread that holds no name keeps to what it has. -/
theorem credentialsFor_nameless (hlacking : Lacking σ t)
    (hname : (heldOrgName σ t).truthy = false) :
    (answering E Ans).Ends (credentialsFor E t) σ fun _ σ' => σ' = σ := by
  obtain ⟨agentId, agentSecret, hcredentials, hlack⟩ := hlacking
  change (answering E Ans).Ends
    ((ofExcept (credentialsOf (σ.get .agentCredentials t)) : Coro _) >>= _) σ _
  rw [hcredentials]
  change (answering E Ans).Ends (if (agentId.truthy && agentSecret.truthy) = true then _ else _) σ _
  rw [if_neg (ne_true_of_eq_false hlack)]
  change (answering E Ans).Ends (if (heldOrgName σ t).truthy = true then _ else _) σ _
  rw [if_neg (ne_true_of_eq_false hname)]
  exact rfl

/-- Without credentials a thread that holds a name fetches the configuration of that name. -/
theorem credentialsFor_named {J : Shared → Prop} (hlacking : Lacking σ t)
    (hname : (heldOrgName σ t).truthy = true) (hJ : ∀ σ σ', Later σ σ' → J σ → J σ')
    (h : (answering E Ans).Ends (fetchAndCacheAgentConfig E (E.str (heldOrgName σ t))) σ
      fun _ σ' => J σ') :
    (answering E Ans).Ends (credentialsFor E t) σ fun _ σ' => J σ' := by
  obtain ⟨agentId, agentSecret, hcredentials, hlack⟩ := hlacking
  change (answering E Ans).Ends
    ((ofExcept (credentialsOf (σ.get .agentCredentials t)) : Coro _) >>= _) σ _
  rw [hcredentials]
  change (answering E Ans).Ends (if (agentId.truthy && agentSecret.truthy) = true then _ else _) σ _
  rw [if_neg (ne_true_of_eq_false hlack)]
  change (answering E Ans).Ends (if (heldOrgName σ t).truthy = true then _ else _) σ _
  rw [if_pos hname]
  refine h.keeping (fun cached σ₁ h₁ => ?_) fun _ _ h₁ => h₁
  refine ends_uncached (Program.Only.bind (Program.only_ofExcept _) fun credentials => ?_) hJ h₁
  cases credentials with
  | none => trivial
  | some p => exact Program.Only.bind (within_storeSet trivial) fun _ => trivial

/-- The fallback asks for the configuration of the name that the thread holds. -/
theorem credentialsFor_asks {url token : String}
    (hasks : (answering E Ans).Asks (credentialsFor E t) σ (.agentConfig url token)) :
    (heldOrgName σ t).truthy = true ∧
      url = configUrl E.settings.businessApiUrl (E.str (heldOrgName σ t)) := by
  change (answering E Ans).Asks
    ((ofExcept (credentialsOf (σ.get .agentCredentials t)) : Coro _) >>= _) σ _ at hasks
  cases hcredentials : credentialsOf (σ.get .agentCredentials t) with
  | error e =>
    rw [hcredentials] at hasks
    exact hasks.elim
  | ok credentials =>
    rw [hcredentials] at hasks
    change (answering E Ans).Asks (if _ then _ else _) σ _ at hasks
    split at hasks
    · exact hasks.elim
    change (answering E Ans).Asks (if (heldOrgName σ t).truthy = true then _ else _) σ _ at hasks
    split at hasks
    · next hname =>
      refine ⟨hname, ?_⟩
      rcases Environment.asks_bind.1 hasks with h | ⟨cached, σ₁, -, h⟩
      · refine h.only (P := fun _ => True) (R := fun q : Req => ∀ url token,
          q = .agentConfig url token →
            url = configUrl E.settings.businessApiUrl (E.str (heldOrgName σ t))) ?_ url token rfl
        refine only_fetchAndCacheAgentConfig E trivial trivial (fun _ => trivial)
          (fun _ => nofun) ?_
        rintro _ _ _ ⟨⟩
        rfl
      · refine (h.only (P := fun _ => True) (R := fun _ => False) ?_).elim
        refine Program.Only.bind (Program.only_ofExcept _) fun credentials => ?_
        cases credentials with
        | none => trivial
        | some p => exact ⟨trivial, fun _ => trivial⟩
    · exact hasks.elim

/-- What caches nothing suffices for the tools. -/
theorem allowsTools_uncached : AllowsTools Op.Uncached t where
  get _ := trivial
  set _ _ _ _ := trivial
  delete _ _ := trivial
  getToken := trivial
  setToken _ _ := trivial
  default := trivial
  time := trivial
  tokenUrlsafe _ := trivial

/-- No delegated token of the thread is alive. -/
def Undelegated (σ : Shared) (t : String) : Prop :=
  ∃ token, liveTokenOf (σ.get .oboToken t) σ.wall = .ok token ∧ isFalsy token = true

/-- A dispatch without a delegated token leaves of the configurations what the fallback does. -/
theorem dispatchTool_ends {J : Shared → Prop} {name : String} {args : Dict}
    (hundelegated : Undelegated σ t) (hJ : ∀ σ σ', Later σ σ' → J σ → J σ')
    (h : (answering E Ans).Ends (credentialsFor E t) σ fun _ σ' => J σ') :
    (answering E Ans).Ends (dispatchTool E name args t) σ fun _ σ' => J σ' := by
  obtain ⟨token, hlive, hfalsy⟩ := hundelegated
  have htoken : (answering E Ans).Ends (toolToken E t) σ fun _ σ' => J σ' := by
    change (answering E Ans).Ends
      ((ofExcept (liveTokenOf (σ.get .oboToken t) σ.wall) : Coro _) >>= _) σ _
    rw [hlive]
    change (answering E Ans).Ends (if (token.getD .null).truthy = true then _ else _) σ _
    rw [if_neg (by simpa [isFalsy] using hfalsy)]
    refine h.keeping (fun credentials σ₁ h₁ => ?_) fun _ _ h₁ => h₁
    refine ends_uncached (Program.Only.tryCatch ?_ fun _ => trivial) hJ h₁
    exact Program.Only.bind (within_fetchAgentToken E allowsTools_uncached ..) fun _ => trivial
  refine htoken.keeping (fun token σ₁ h₁ => ?_) fun _ _ h₁ => h₁
  refine ends_uncached (Program.only_ite (fun _ => trivial) fun _ => ?_) hJ h₁
  refine Program.Only.bind ?_ fun _ => trivial
  exact within_callTool E allowsTools_uncached (fun _ _ => trivial) _ (threadIdOf_set args t)

end

/-! ## A chat request -/

/-- A value that is stored if it is not empty. -/
def Shared.setIf (σ : Shared) (value : String) (n : Namespace) (k : String) (v : Json) : Shared :=
  if value ≠ "" then σ.set n k v defaultTtlSeconds else σ

namespace Shared

variable {value k : String} {n n' : Namespace} {v : Json}

@[simp] theorem setIf_configCache : (σ.setIf value n k v).configCache = σ.configCache := by
  unfold setIf
  split <;> rfl

@[simp] theorem setIf_monotonic : (σ.setIf value n k v).monotonic = σ.monotonic := by
  unfold setIf
  split <;> rfl

@[simp] theorem setIf_wall : (σ.setIf value n k v).wall = σ.wall := by
  unfold setIf
  split <;> rfl

@[simp] theorem get_setIf_self :
    (σ.setIf value n k v).get n k = if value ≠ "" then some v else σ.get n k := by
  unfold setIf
  split
  · exact get_set_now ..
  · rfl

/-- A value that may be stored leaves the other namespaces. -/
theorem get_setIf_of_ne (h : n' ≠ n) : (σ.setIf value n k v).get n' k = σ.get n' k := by
  unfold setIf
  split
  · exact get_set_of_ne σ (fun he => h (congrArg Prod.fst he)) v _
  · rfl

end Shared

/-- The state after `storeChatAgent`. -/
def afterChatAgent (req : ChatRequest) (σ : Shared) : Shared :=
  ((σ.setIf req.orgName .orgName req.threadId (.str req.orgName)).setIf req.agentId
    .agentCredentials req.threadId (.arr [.str req.agentId, .str req.agentSecret])).setIf
    req.agentName .agentName req.threadId (.str req.agentName)

section

variable {req : ChatRequest} {α : Type} {f : Unit → Coro α} {value k : String} {n : Namespace}
  {v : Json}

/-- What is stored if it is not empty is there for what follows. -/
theorem storeIf_ends {Q : Except Exn α → Shared → Prop} :
    (answering E Ans).Ends (storeIf value (put n k v) >>= f) σ Q ↔
      (answering E Ans).Ends (f ()) (σ.setIf value n k v) Q := by
  unfold storeIf Shared.setIf
  split <;> exact Iff.rfl

/-- And for what follows to ask with. -/
theorem storeIf_asks {q : Req} :
    (answering E Ans).Asks (storeIf value (put n k v) >>= f) σ q ↔
      (answering E Ans).Asks (f ()) (σ.setIf value n k v) q := by
  unfold storeIf Shared.setIf
  split <;> exact Iff.rfl

/-- The agent of a chat is stored for what follows. -/
theorem storeChatAgent_ends {Q : Except Exn α → Shared → Prop} :
    (answering E Ans).Ends (storeChatAgent req >>= f) σ Q ↔
      (answering E Ans).Ends (f ()) (afterChatAgent req σ) Q := by
  unfold storeChatAgent
  simp only [bind_assoc]
  exact storeIf_ends.trans (storeIf_ends.trans storeIf_ends)

/-- And for what follows to ask with. -/
theorem storeChatAgent_asks {q : Req} :
    (answering E Ans).Asks (storeChatAgent req >>= f) σ q ↔
      (answering E Ans).Asks (f ()) (afterChatAgent req σ) q := by
  unfold storeChatAgent
  simp only [bind_assoc]
  exact storeIf_asks.trans (storeIf_asks.trans storeIf_asks)

/-- Storing the agent caches nothing. -/
theorem later_afterChatAgent (req : ChatRequest) (σ : Shared) : Later σ (afterChatAgent req σ) := by
  constructor
  · simp [afterChatAgent]
  · simp [afterChatAgent]

/-- Storing the agent brings no delegated token. -/
theorem Undelegated.afterChatAgent (h : Undelegated σ req.threadId) :
    Undelegated (afterChatAgent req σ) req.threadId := by
  obtain ⟨token, hlive, hfalsy⟩ := h
  refine ⟨token, ?_, hfalsy⟩
  unfold Agent.afterChatAgent
  rw [Shared.get_setIf_of_ne (by decide), Shared.get_setIf_of_ne (by decide),
    Shared.get_setIf_of_ne (by decide)]
  simpa using hlive

/-- A request without credentials brings none. -/
theorem Lacking.afterChatAgent (h : Lacking σ req.threadId)
    (hreq : req.agentId = "" ∨ req.agentSecret = "") :
    Lacking (afterChatAgent req σ) req.threadId := by
  unfold Lacking Agent.afterChatAgent
  rw [Shared.get_setIf_of_ne (by decide), Shared.get_setIf_self]
  split
  · next hid =>
    have hsecret := hreq.resolve_left hid
    exact ⟨_, _, rfl, by simp [hsecret, Json.truthy]⟩
  · rwa [Shared.get_setIf_of_ne (by decide)]

/-- The thread holds the name in the request, if there is one. -/
theorem heldOrgName_afterChatAgent : heldOrgName (afterChatAgent req σ) req.threadId =
    if req.orgName ≠ "" then .str req.orgName else heldOrgName σ req.threadId := by
  unfold heldOrgName afterChatAgent
  rw [Shared.get_setIf_of_ne (by decide), Shared.get_setIf_of_ne (by decide), Shared.get_setIf_self]
  split <;> rfl

end

/-! ## Whose configuration the fallback loads -/

/-- A chat request, and a tool call of the model. -/
def chatDispatch (E : Env Tok) (req : ChatRequest) (name : String) (args : Dict) : Coro Dict := do
  storeChatAgent req
  dispatchTool E name args req.threadId

/-- The agent, to which the service-token client and the Business API answer. -/
abbrev ConfigApi.env (A : ConfigApi) (E : Env Tok) (up : Prop) : Environment interface Shared :=
  answering E (A.Answers up)

/-- For a chat request without credentials, the fallback asks for the configuration of the
organization, caches that one and no other, and finds it if the Business API is up. -/
structure ConfigApi.LoadsOwn (A : ConfigApi) (E : Env Tok) (orgId : String) (req : ChatRequest)
    (name : String) (args : Dict) (σ : Shared) : Prop where
  asks : ∀ up url token, (A.env E up).Asks (storeChatAgent req >>= fun _ =>
      credentialsFor E req.threadId) σ (.agentConfig url token) → A.routed url = some orgId
  caches : ∀ up x σ', (A.env E up).Runs (chatDispatch E req name args) σ x σ' →
    ∀ key e, σ'.configCache key = some e → σ.configCache key = some e ∨ A.IsConfigOf orgId e.2
  finds : ∀ x σ', (A.env E True).Runs (chatDispatch E req name args) σ x σ' →
    ∃ at' data, σ.monotonic ≤ at' ∧ A.IsConfigOf orgId data ∧
      σ'.configCache (E.str (heldOrgName (afterChatAgent req σ) req.threadId)) = some (at', data)

section

variable {A : ConfigApi} {orgId name : String} {req : ChatRequest} {args : Dict}

/-- A fetch in which the Business API answers for `orgId` caches its configuration or nothing. -/
theorem Fetched.of_routed {up : Prop} {key : String} {σ' : Shared}
    (hrouted : A.routed (configUrl E.settings.businessApiUrl key) = some orgId)
    (h : Fetched E (A.Answers up) key σ σ') {k : String} {e : Rat × Json}
    (he : σ'.configCache k = some e) : σ.configCache k = some e ∨ A.IsConfigOf orgId e.2 := by
  rcases h with hl | ⟨token, resp, data, hr, hstatus, hjson, at', -, hcache⟩
  · rw [hl.configCache] at he
    exact .inl he
  · rw [hcache] at he
    by_cases hk : k = key
    · subst hk
      rw [Function.update_self] at he
      cases he
      rcases hr orgId hrouted with heq | ⟨-, hno⟩
      · cases heq
        exact .inr (A.isConfigOf_answer hstatus hjson)
      · exact absurd hstatus (hno resp rfl)
    · rw [Function.update_of_ne hk] at he
      exact .inl he

/-- The fallback finds the configuration of the organization whose id the Business API reads off
the name that the thread holds. -/
theorem loadsOwn_of_routed (hundelegated : Undelegated σ req.threadId)
    (hlacking : Lacking σ req.threadId) (hreq : req.agentId = "" ∨ req.agentSecret = "")
    (hshown : Api.ShowsRow A.driver orgId A.db)
    (hcache : cachedOf (σ.configCache (E.str (heldOrgName (afterChatAgent req σ) req.threadId)))
      σ.monotonic = none)
    (hname : (heldOrgName (afterChatAgent req σ) req.threadId).truthy = true)
    (hrouted : A.routed (configUrl E.settings.businessApiUrl
      (E.str (heldOrgName (afterChatAgent req σ) req.threadId))) = some orgId) :
    A.LoadsOwn E orgId req name args σ where
  asks up url token h := by
    obtain ⟨-, rfl⟩ := credentialsFor_asks (storeChatAgent_asks.1 h)
    exact hrouted
  caches up x σ' hr := by
    have hl := later_afterChatAgent req σ
    let J (σ' : Shared) : Prop := ∀ key e, σ'.configCache key = some e →
      σ.configCache key = some e ∨ A.IsConfigOf orgId e.2
    have hJ (σ₁ σ₂ : Shared) (hl : Later σ₁ σ₂) (h : J σ₁) : J σ₂ := by
      intro key e he
      rw [hl.configCache] at he
      exact h key e he
    have hends : (A.env E up).Ends (chatDispatch E req name args) σ fun _ σ' => J σ' := by
      refine storeChatAgent_ends.2 (dispatchTool_ends hundelegated.afterChatAgent hJ ?_)
      refine credentialsFor_named (hlacking.afterChatAgent hreq) hname hJ ?_
      refine (fetchAndCacheAgentConfig_ends _).mono fun _ σ' h key e he => ?_
      rw [← hl.configCache]
      exact h.of_routed hrouted he
    exact hends.of_runs hr
  finds x σ' hr := by
    have hl := later_afterChatAgent req σ
    obtain ⟨hstatus, data, hjson, hdata⟩ := A.answer_of_shown hshown
    have hends : (A.env E True).Ends (chatDispatch E req name args) σ fun _ σ' =>
        Caches (afterChatAgent req σ)
          (E.str (heldOrgName (afterChatAgent req σ) req.threadId)) data σ' := by
      refine storeChatAgent_ends.2 (dispatchTool_ends hundelegated.afterChatAgent
        (fun _ _ hl h => h.later hl) ?_)
      refine credentialsFor_named (hlacking.afterChatAgent hreq) hname
        (fun _ _ hl h => h.later hl) ?_
      refine fetchAndCacheAgentConfig_loads ?_ (fun r hr => hr trivial) fun token r hr => ?_
      · rw [hl.configCache]
        simpa [afterChatAgent] using hcache
      · rcases hr orgId hrouted with rfl | ⟨hdown, -⟩
        · exact ⟨_, rfl, hstatus, hjson⟩
        · exact absurd trivial hdown
    obtain ⟨at', hat, hcached⟩ := hends.of_runs hr
    refine ⟨at', data, hl.monotonic.trans hat, hdata, ?_⟩
    rw [hcached, Function.update_self]

/-- A configuration that is cached but not found was cached too long ago. -/
theorem stale_of_uncached {key : String} {at' : Rat} {data : Json}
    (hcache : cachedOf (σ.configCache key) σ.monotonic = none)
    (h : σ.configCache key = some (at', data)) (hdata : A.IsConfigOf orgId data) :
    at' < σ.monotonic := by
  obtain ⟨c, -, -, t, -, rfl⟩ := hdata
  rw [h] at hcache
  by_contra hat
  have hfresh : isFresh (at', A.configJson { c with createdAt := t }) σ.monotonic = true := by
    refine decide_eq_true ?_
    have hle : σ.monotonic - at' ≤ 0 := sub_nonpos.2 (not_lt.1 hat)
    exact lt_of_le_of_lt hle (by decide)
  unfold cachedOf at hcache
  dsimp only at hcache
  rw [hfresh] at hcache
  cases hcache

/-- What the service-token client and the Business API answer when they are up and nothing else
is. -/
def ConfigApi.reply (A : ConfigApi) : Req → Rep
  | .serviceToken _ => .serviceToken (some "token")
  | .agentConfig url _ =>
    match A.routed url with
    | some orgId => .response (A.answer orgId)
    | none => .response ⟨404, "", none⟩
  | _ => .failed

/-- The reply of the Business API is one of its answers. -/
theorem ConfigApi.answers_reply (up : Prop) (q : Req) : A.Answers up q (A.reply q) := by
  cases q with
  | serviceToken => exact fun _ => ⟨"token", by decide, rfl⟩
  | agentConfig url token =>
    intro orgId hrouted
    left
    unfold reply
    dsimp only
    rw [hrouted]
  | _ => trivial

/-- A run in which they are up and nothing else is. -/
theorem ConfigApi.exists_run {α : Type} (A : ConfigApi) (E : Env Tok) (p : Coro α) (σ : Shared) :
    ∃ x σ', (A.env E True).Runs p σ x σ' ∧
      (answering E fun q r => r = A.reply q).Runs p σ x σ' := by
  have hpasses (s : Shared) : s.Passes s := ⟨s.monotonic, s.wall, le_refl _, rfl⟩
  let env (q : Req) (s : Shared) : Rep × Shared := (A.reply q, s)
  refine ⟨(p.run (exec E) env σ).1, (p.run (exec E) env σ).2, ?_, ?_⟩
  · exact Environment.runs_run (E := A.env E True)
      (fun q s => ⟨hpasses s, A.answers_reply True q⟩) p σ
  · exact Environment.runs_run (E := answering E fun q r => r = A.reply q)
      (fun q s => ⟨hpasses s, rfl⟩) p σ

/-- What a fetch leaves stays while nothing more is cached. -/
theorem Fetched.later {key : String} {σ₁ σ₂ : Shared} (h : Fetched E Ans key σ σ₁)
    (hl : Later σ₁ σ₂) : Fetched E Ans key σ σ₂ := by
  rcases h with h | ⟨token, resp, data, hr, hstatus, hjson, hcaches⟩
  · exact .inl (h.trans hl)
  · exact .inr ⟨token, resp, data, hr, hstatus, hjson, hcaches.later hl⟩

/-- What the fallback finds is what the Business API reads off the name that the thread holds. -/
theorem routed_of_loadsOwn (hundelegated : Undelegated σ req.threadId)
    (hlacking : Lacking σ req.threadId) (hreq : req.agentId = "" ∨ req.agentSecret = "")
    (hcache : cachedOf (σ.configCache (E.str (heldOrgName (afterChatAgent req σ) req.threadId)))
      σ.monotonic = none)
    (h : A.LoadsOwn E orgId req name args σ) :
    (heldOrgName (afterChatAgent req σ) req.threadId).truthy = true ∧
      A.routed (configUrl E.settings.businessApiUrl
        (E.str (heldOrgName (afterChatAgent req σ) req.threadId))) = some orgId := by
  obtain ⟨x, σ', hup, hrun⟩ := A.exists_run E (chatDispatch E req name args) σ
  obtain ⟨at', data, hat, hdata, hcached⟩ := h.finds _ _ hup
  have hl := later_afterChatAgent req σ
  by_cases hname : (heldOrgName (afterChatAgent req σ) req.threadId).truthy = true
  · refine ⟨hname, ?_⟩
    have hends : (answering E fun q r => r = A.reply q).Ends (chatDispatch E req name args) σ
        fun _ σ' => Fetched E (fun q r => r = A.reply q)
          (E.str (heldOrgName (afterChatAgent req σ) req.threadId)) (afterChatAgent req σ) σ' := by
      refine storeChatAgent_ends.2 (dispatchTool_ends hundelegated.afterChatAgent
        (fun _ _ hl h => h.later hl) ?_)
      exact credentialsFor_named (hlacking.afterChatAgent hreq) hname
        (fun _ _ hl h => h.later hl) (fetchAndCacheAgentConfig_ends _)
    rcases hends.of_runs hrun with hlast | ⟨token, resp, data', hr, hstatus, hjson, t, -, hupdate⟩
    · rw [hlast.configCache, hl.configCache] at hcached
      exact absurd (stale_of_uncached hcache hcached hdata) (not_lt.2 hat)
    · rw [hupdate, Function.update_self] at hcached
      cases hcached
      unfold ConfigApi.reply at hr
      dsimp only at hr
      split at hr
      · next orgId' hrouted =>
        cases hr
        rw [hdata.unique (A.isConfigOf_answer hstatus hjson)]
        exact hrouted
      · cases hr
        cases hstatus
  · have hends : (answering E fun q r => r = A.reply q).Ends (chatDispatch E req name args) σ
        fun _ σ' => σ'.configCache = σ.configCache := by
      refine storeChatAgent_ends.2 (dispatchTool_ends hundelegated.afterChatAgent
        (fun _ _ hl h => hl.configCache.trans h) ?_)
      refine (credentialsFor_nameless (hlacking.afterChatAgent hreq)
        (Bool.eq_false_iff.2 hname)).mono ?_
      rintro _ _ rfl
      exact hl.configCache
    rw [hends.of_runs hrun] at hcached
    exact absurd (stale_of_uncached hcache hcached hdata) (not_lt.2 hat)

end

/-- What is saved without an error is shown. -/
theorem showsRow_of_saved {D : Api.Driver} {data : Api.AgentConfigCreate} {db db' : Api.Database}
    {result : Webapp.ApiResult}
    (ha : Webapp.ApiAnswers D (.createAgentConfig (.ok data)) db result db')
    (hstatus : result.statusCode ∈ [200, 201]) : Api.ShowsRow D data.org db' := by
  have hlt : result.statusCode < 400 := by
    simp only [List.mem_cons, List.not_mem_nil, or_false] at hstatus
    omega
  cases ha with
  | answered claims fresh =>
    obtain ⟨c, hc, hcreated⟩ := Api.handle_createAgentConfig_row hlt
    exact Api.showsRow_of_mem hc.bound hc.row hc.org hcreated
  | unavailable hge | lost _ _ hge => omega

/-- For every organization whose agent the portal has added, and every chat request of one of its
users that brings no credentials to a thread without any, the fallback loads the configuration of
the organization exactly if the Business API reads its id off the URL that ends in the name of the
organization: the name in the request or, if that is empty, the one that the thread holds. -/
theorem loads_own_config {A : ConfigApi} {adminPassword : Bool} {orgHandle : String}
    {form : Webapp.Form} {w w' : Webapp.PortalWorld (List String)}
    {page : Except Webapp.PortalExn Webapp.Page} (hw : ¬w.Reported)
    (hadded : (Webapp.agentEnv A.driver).Runs (Webapp.addAgent adminPassword orgHandle form) w page
      w') (hreported : w'.Reported) (hdb : A.db = w'.db) {s : Webapp.PortalSession}
    (hs : s.orgId = w.session.orgId) {language threadId message : String}
    {agentCfg : Option Api.AgentConfigResponse} {req : Ask}
    (hpayload : req = Webapp.buildAgentChatPayload language threadId message s agentCfg)
    (hreq : req.agentId = "" ∨ req.agentSecret = "") (hundelegated : Undelegated σ threadId)
    (hlacking : Lacking σ threadId) {orgName : Json}
    (hname : orgName = if s.orgName ≠ "" then .str s.orgName else heldOrgName σ threadId)
    (hcache : cachedOf (σ.configCache (E.str orgName)) σ.monotonic = none) (name : String)
    (args : Dict) :
    A.LoadsOwn E s.orgId req.toChatRequest name args σ ↔ orgName.truthy = true ∧
      A.routed (configUrl E.settings.businessApiUrl (E.str orgName)) = some s.orgId := by
  have hsaves := (Webapp.addAgent_saves hw adminPassword orgHandle form).of_runs hadded hreported
  have hshown : Api.ShowsRow A.driver s.orgId A.db := by
    obtain ⟨data, result, horg, ha, hstatus, -, -⟩ := hsaves
    rw [hdb, hs, ← horg]
    exact showsRow_of_saved ha hstatus
  subst hpayload
  have hheld : heldOrgName (afterChatAgent
      (Webapp.buildAgentChatPayload language threadId message s agentCfg).toChatRequest σ)
        threadId = orgName := heldOrgName_afterChatAgent.trans hname.symm
  rw [← hheld] at hcache ⊢
  constructor
  · exact routed_of_loadsOwn hundelegated hlacking hreq hcache
  · exact fun h => loadsOwn_of_routed hundelegated hlacking hreq hshown hcache h.1 h.2

/-! ### An organization named like the id of another one -/

/-- The agent of another organization, whose id is `Acme`. -/
def otherAgent : Api.AgentConfig where
  org := "Acme"
  agentId := "other"
  agentSecret := "s"
  displayName := "Other"
  description := none
  geminiApiKey := none
  orgClientId := none
  orgClientSecret := none
  customPrompt := none
  createdAt := some 0
  updatedAt := none

/-- The Business API with the agent of the other organization. -/
def otherStores : Webapp.AgentStores :=
  ⟨{ Webapp.enterprisePlan with agentConfigs := ⟨[otherAgent], by decide⟩ }, []⟩

/-- What is after organization `o`, whose name is `Acme`, has added its agent. -/
def acmeAdded : Webapp.PortalWorld (List String) :=
  Webapp.afterServing ⟨false, false⟩ (.add "acme" Webapp.agentForm) otherStores

/-- The addition of Acme's agent is a run. -/
theorem runs_acmeAdded : ∃ page, (Webapp.agentEnv .sqlite).Runs
    (Webapp.addAgent false "acme" Webapp.agentForm)
    ⟨Webapp.idpManagerSession, [], otherStores.db, otherStores.alive⟩ page acmeAdded :=
  ⟨_, Environment.runs_run (fun q w => (Webapp.answers_agentsUp ⟨false, false⟩ q w).1)
    (Webapp.addAgent false "acme" Webapp.agentForm)
    ⟨Webapp.idpManagerSession, [], otherStores.db, otherStores.alive⟩⟩

/-- It reports success. -/
theorem reported_acmeAdded : acmeAdded.Reported := Webapp.reported_of_any (by decide +kernel)

/-- What follows the address of the configurations, if it is a plain name. -/
def plainRouted (url : String) : Option String :=
  let address := "https://api/agent-config/org/".toList
  let name := url.toList.drop address.length
  if address.isPrefixOf url.toList && !name.isEmpty && name.all Char.isAlphanum then
    some (String.ofList name)
  else none

/-- The Business API with the agents of both. -/
def acmeApi : ConfigApi := ⟨.sqlite, acmeAdded.db, plainRouted, fun _ => "2026-01-01T00:00:00"⟩

/-- The first request of a user on a thread, when the portal has found no configuration. -/
def firstRequest (s : Webapp.PortalSession) : Ask :=
  Webapp.buildAgentChatPayload "en" "t" "hello" s none

/-- A user of an organization whose name is its id. -/
def sameNameSession : Webapp.PortalSession :=
  { Webapp.idpManagerSession with user := some ⟨"u", "o", "o", "acme"⟩ }

/-- A fresh service has no delegated token. -/
theorem undelegated_start : Undelegated (Shared.start 0 0) "t" := ⟨none, rfl, rfl⟩

/-- A fresh service has no credentials. -/
theorem lacking_start : Lacking (Shared.start 0 0) "t" := ⟨.str "", .str "", rfl, rfl⟩

/-- An organization whose name is its id finds its agent, and one whose name is the id of another
organization does not. -/
theorem loads_own_config_named :
    acmeApi.LoadsOwn Symbolic.env "o" (firstRequest sameNameSession).toChatRequest
        "list_meetings" [] (Shared.start 0 0) ∧
      ¬acmeApi.LoadsOwn Symbolic.env "o" (firstRequest Webapp.idpManagerSession).toChatRequest
        "list_meetings" [] (Shared.start 0 0) := by
  obtain ⟨page, hadded⟩ := runs_acmeAdded
  have hw := Webapp.not_reported_nil
    (w := ⟨Webapp.idpManagerSession, [], otherStores.db, otherStores.alive⟩) rfl
  constructor
  · exact (loads_own_config (A := acmeApi) hw hadded reported_acmeAdded rfl
      (s := sameNameSession) rfl rfl (.inl rfl) undelegated_start lacking_start rfl rfl _ _).2
      ⟨by decide +kernel, by decide +kernel⟩
  · intro h
    have hrouted := ((loads_own_config (A := acmeApi) hw hadded reported_acmeAdded rfl
      (s := Webapp.idpManagerSession) rfl rfl (.inl rfl) undelegated_start lacking_start rfl rfl
      _ _).1 h).2
    exact absurd hrouted (by decide +kernel)

/-- The fallback of an organization does not always load its own configuration. -/
theorem other_config_loaded : ¬ ∀ (A : ConfigApi) (w w' : Webapp.PortalWorld (List String))
    (page : Except Webapp.PortalExn Webapp.Page) (s : Webapp.PortalSession), ¬w.Reported →
    (Webapp.agentEnv A.driver).Runs (Webapp.addAgent false "acme" Webapp.agentForm) w page w' →
    w'.Reported → A.db = w'.db → s.orgId = w.session.orgId →
    A.LoadsOwn Symbolic.env s.orgId (firstRequest s).toChatRequest "list_meetings" []
      (Shared.start 0 0) := by
  intro h
  obtain ⟨page, hadded⟩ := runs_acmeAdded
  have hw := Webapp.not_reported_nil
    (w := ⟨Webapp.idpManagerSession, [], otherStores.db, otherStores.alive⟩) rfl
  have hloads := h acmeApi _ _ page Webapp.idpManagerSession hw hadded reported_acmeAdded rfl rfl
  have hrouted := (routed_of_loadsOwn (A := acmeApi) undelegated_start lacking_start (.inl rfl) rfl
    hloads).2
  exact absurd hrouted (by decide +kernel)

end Teamspace.Agent
