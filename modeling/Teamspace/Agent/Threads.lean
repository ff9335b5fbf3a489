import Teamspace.Agent.Serves

/-!
# The entries of a thread

What a request that is addressed to a thread touches of the store: the entries under the thread's
id, and the token of the agent that is kept for no thread, which it only reads (`Allows`,
`only_serve`).
-/

namespace Teamspace.Agent

open Teamspace.Lib Teamspace.Py

/-- The operations of `P` suffice to work on thread `t`. -/
structure Allows (P : Op → Prop) (t : String) : Prop where
  get : ∀ n, P (.get n t)
  set : ∀ n v ttl, P (.set n t v ttl)
  delete : ∀ n, P (.delete n t)
  /-- The token of the agent that is kept for no thread. -/
  default : P (.get .agentToken "_default")
  time : P .time
  tokenUrlsafe : ∀ nbytes, P (.tokenUrlsafe nbytes)
  validate : ∀ token, P (.validateMcpToken token)

/-- They suffice to work on thread `t`, its history apart: what is kept for no thread is the token
of the agent for the empty one. -/
structure AllowsTools (P : Op → Prop) (t : String) : Prop where
  get : ∀ n, P (.get n t)
  set : ∀ n v ttl, n ≠ .chatHistory → P (.set n t v ttl)
  delete : ∀ n, n ≠ .chatHistory → P (.delete n t)
  getToken : P (.get .agentToken (agentTokenKey t))
  setToken : ∀ v ttl, P (.set .agentToken (agentTokenKey t) v ttl)
  default : P (.get .agentToken "_default")
  time : P .time
  tokenUrlsafe : ∀ nbytes, P (.tokenUrlsafe nbytes)

/-- They suffice to look up the configuration of an agent. -/
structure AllowsConfig (P : Op → Prop) : Prop where
  monotonic : P .monotonic
  cached : ∀ org, P (.cachedConfig org)
  cache : ∀ org data, P (.cacheConfig org data)

variable {Tok : Type} (E : Env Tok) {P : Op → Prop} {t : String}

/-- A program that works within `P`, whatever it asks. -/
abbrev Within {α : Type} (P : Op → Prop) (p : Coro α) : Prop :=
  Program.Only (I := interface) P (fun _ => True) p

/-- What `_prepare_chat` does before it comes to the history: the tokens that it finds. -/
def chatTokens (req : ChatRequest) : Coro (Option Json × Option Json) := do
  storeChatAgent req
  let initialOboJwt ← getOboJwtRaw req.threadId
  let agentJwt ← getAgentJwtRaw req.threadId
  let initialAgentJwt ← prefetchAgentToken E req.threadId agentJwt
  return (initialOboJwt, initialAgentJwt)

/-- `_prepare_chat` looks for the tokens first, and then turns to the history. -/
theorem prepareChat_eq (req : ChatRequest) : prepareChat E req = (do
    let tokens ← chatTokens E req
    let history ← getHistory req.threadId
    addMessage req.threadId "user" req.message
    return ⟨tokens.1, tokens.2, history⟩) := by
  simp only [prepareChat, chatTokens, bind_assoc, pure_bind]

/-- A program that touches nothing works within any operations. -/
theorem within_of_asks {α : Type} {p : Coro α} (h : Asks E p) : Within P p :=
  h.mono (fun _ ho => ho.elim) fun _ _ => trivial

/-- A read of the store works within what it reads. -/
theorem within_storeGet {n : Namespace} {k : String} (h : P (.get n k)) : Within P (storeGet n k) :=
  ⟨h, fun _ => trivial⟩

/-- A write works within what it writes. -/
theorem within_storeSet {n : Namespace} {k : String} {v : Json} {ttl : Nat}
    (h : P (.set n k v ttl)) : Within P (storeSet n k v ttl) := ⟨h, fun _ => trivial⟩

/-- A deletion works within what it deletes. -/
theorem within_storeDelete {n : Namespace} {k : String} (h : P (.delete n k)) :
    Within P (storeDelete n k) := ⟨h, fun _ => trivial⟩

/-- A request of another service touches nothing. -/
theorem within_http (q : Req) : Within P (http q) := only_http trivial

/-- The token of the agent for a thread that has an id is kept under the id. -/
theorem agentTokenKey_of_ne (ht : t ≠ "") : agentTokenKey t = t := if_neg ht

/-- What suffices to work on a thread with an id suffices for its tools. -/
theorem Allows.tools (hP : Allows P t) (ht : t ≠ "") : AllowsTools P t where
  get := hP.get
  set _ _ _ _ := hP.set ..
  delete _ _ := hP.delete _
  getToken := (agentTokenKey_of_ne ht).symm ▸ hP.get _
  setToken _ _ := (agentTokenKey_of_ne ht).symm ▸ hP.set ..
  default := hP.default
  time := hP.time
  tokenUrlsafe := hP.tokenUrlsafe

section

variable (hP : AllowsTools P t)

include hP

/-! ## State -/

/-- `get_state` reads the thread's flow state. -/
theorem within_getState : Within P (getState t) :=
  Program.Only.bind (within_storeGet (hP.get _)) fun _ => trivial

/-- `_fetch` reads one entry of the thread. -/
theorem within_fetch (n : Namespace) : Within P (fetch n t) :=
  Program.Only.bind (within_storeGet (hP.get n)) fun _ => trivial

/-- `get_org_name` reads one entry of the thread. -/
theorem within_getOrgName : Within P (getOrgName t) :=
  Program.Only.bind (within_fetch hP _) fun _ => trivial

/-- `get_agent_name` reads one entry of the thread. -/
theorem within_getAgentName : Within P (getAgentName t) :=
  Program.Only.bind (within_fetch hP _) fun _ => trivial

/-- `get_agent_credentials` reads two entries of the thread. -/
theorem within_getAgentCredentials : Within P (getAgentCredentials t) :=
  Program.Only.bind (within_storeGet (hP.get _)) fun _ => Program.only_ofExcept _

/-! ## Tokens -/

/-- A token of the thread is read with the time. -/
theorem within_liveToken (n : Namespace) : Within P (liveToken n t) :=
  only_liveToken (hP.get n) hP.time

/-- `get_agent_jwt_raw` reads the token of the thread, or else the one that is kept for none. -/
theorem within_getAgentJwtRaw : Within P (getAgentJwtRaw t) := by
  refine Program.Only.bind (only_liveToken hP.getToken hP.time) fun token => ?_
  split
  · exact only_liveToken hP.default hP.time
  · trivial

/-- `clear_obo_tokens` deletes entries of the thread. -/
theorem within_clearOboTokens : Within P (clearOboTokens t) :=
  Program.Only.bind (within_storeDelete (hP.delete _ (by decide))) fun _ =>
    within_storeDelete (hP.delete _ (by decide))

/-- `fetch_agent_token` stores the token under the key of the thread. -/
theorem within_fetchAgentToken (agentId agentSecret : Json) :
    Within P (fetchAgentToken E agentId agentSecret t) := by
  unfold fetchAgentToken
  split
  · trivial
  · split
    · trivial
    · refine Program.Only.bind (α := String) ⟨hP.tokenUrlsafe _, fun _ => trivial⟩
        fun verifier => ?_
      refine Program.Only.bind (within_of_asks E (initAgentAuthFlow_asks E _)) fun flow => ?_
      refine Program.Only.bind (within_of_asks E (submitAgentCredentials_asks E ..)) fun code => ?_
      refine Program.Only.bind (within_of_asks E (exchangeCodeForAgentToken_asks E ..))
        fun res => ?_
      refine Program.Only.bind ?_ fun _ => trivial
      exact Program.Only.bind (only_entry hP.time) fun _ => within_storeSet (hP.setToken ..)

/-- The link clears tokens of the thread and stores its verifier. -/
theorem within_getRealWso2AuthorizationUrl (scopes : List String) (stateToken : Tok)
    (agentId : Json) : Within P (getRealWso2AuthorizationUrl E t scopes stateToken agentId) := by
  unfold getRealWso2AuthorizationUrl
  split
  · trivial
  · refine Program.Only.bind (within_clearOboTokens hP) fun _ => ?_
    refine Program.Only.bind (α := String) ⟨hP.tokenUrlsafe _, fun _ => trivial⟩ fun verifier => ?_
    exact Program.Only.bind (within_storeSet (hP.set _ _ _ (by decide))) fun _ =>
      Program.only_ofExcept _

/-- `exchange_obo_code` reads and deletes the verifier of the thread, and stores its token. -/
theorem within_exchangeOboCode (code : String) (agentId agentSecret : Json) :
    Within P (exchangeOboCode E t code agentId agentSecret) := by
  refine Program.Only.bind (within_fetchAgentToken E hP ..) fun agentToken => ?_
  refine Program.Only.bind (within_storeGet (hP.get _)) fun stored => ?_
  refine Program.Only.bind (within_storeDelete (hP.delete _ (by decide))) fun _ => ?_
  refine Program.Only.bind (within_http _) fun resp => ?_
  refine Program.Only.bind (Program.only_ofExcept _) fun tokenData => ?_
  refine Program.Only.bind (Program.only_ofExcept _) fun token => ?_
  refine Program.Only.bind (only_entry hP.time) fun _ => ?_
  exact Program.Only.bind (within_storeSet (hP.set _ _ _ (by decide))) fun _ => trivial

/-! ## Tools -/

/-- The request to authorize a listing stores a link and a state of the thread. -/
theorem within_requestListAuthorization {c : ToolCall} (hc : c.threadId = t) (message : String) :
    Within P (requestListAuthorization E c message) := by
  unfold requestListAuthorization
  rw [hc]
  refine Program.Only.bind (within_clearOboTokens hP) fun _ => ?_
  refine Program.Only.bind (within_getAgentCredentials hP) fun _ => ?_
  refine Program.Only.bind (within_storeSet (hP.set _ _ _ (by decide))) fun _ => ?_
  exact Program.Only.bind (within_storeSet (hP.set _ _ _ (by decide))) fun _ => trivial

/-- `list_meetings` works on the thread of the call. -/
theorem within_handleListMeetings {c : ToolCall} (hc : c.threadId = t) :
    Within P (handleListMeetings E c) := by
  have hrequest (message : String) := within_requestListAuthorization E hP hc message
  unfold handleListMeetings
  rw [hc]
  split
  · trivial
  · refine Program.Only.bind (within_liveToken hP _) fun token => ?_
    split
    · exact hrequest _
    · refine Program.Only.bind (within_http _) fun resp => ?_
      split
      · refine Program.Only.bind (within_getState hP) fun state => ?_
        split
        · refine Program.Only.bind (within_storeSet (hP.set _ _ _ (by decide))) fun _ => ?_
          refine Program.Only.bind (within_clearOboTokens hP) fun _ => ?_
          exact Program.Only.bind (Program.only_ofExcept _) fun _ => trivial
        · exact Program.Only.bind (Program.only_ofExcept _) fun _ => trivial
      · exact hrequest _

/-- A preview works on the thread of the call. -/
theorem within_handlePreview {c : ToolCall} (hc : c.threadId = t) (p : PreviewTool) :
    Within P (handlePreview E p c) := by
  unfold handlePreview
  rw [hc]
  split
  · trivial
  · refine Program.Only.bind (within_getAgentCredentials hP) fun _ => ?_
    refine Program.Only.bind (within_storeSet (hP.set _ _ _ (by decide))) fun _ => ?_
    refine Program.Only.bind (within_storeSet (hP.set _ _ _ (by decide))) fun _ => ?_
    exact Program.Only.bind (within_storeSet (hP.set _ _ _ (by decide))) fun _ => trivial

/-- A commit works on the thread of the call. -/
theorem within_handleCommit {c : ToolCall} (hc : c.threadId = t) (p : CommitTool) :
    Within P (handleCommit p c) := by
  unfold handleCommit
  rw [hc]
  split
  · trivial
  · refine Program.Only.bind (within_getState hP) fun state => ?_
    refine Program.Only.bind (within_liveToken hP _) fun token => ?_
    split
    · trivial
    · refine Program.Only.bind (within_http _) fun resp => ?_
      unfold finishCommit finalizeAction
      rw [hc]
      split
      · refine Program.Only.bind ?_ fun _ => ?_
        · refine Program.Only.bind (within_storeSet (hP.set _ _ _ (by decide))) fun _ => ?_
          refine Program.Only.bind (within_storeDelete (hP.delete _ (by decide))) fun _ => ?_
          exact within_clearOboTokens hP
        · exact Program.Only.bind (Program.only_ofExcept _) fun _ => trivial
      · trivial

/-- Every tool works on the thread of the call. -/
theorem within_handler {name : String} {handler : ToolCall → Coro TextContent}
    (hm : (name, handler) ∈ toolHandlers E) {c : ToolCall} (hc : c.threadId = t) :
    Within P (handler c) := by
  refine forall_toolHandlers E (C := fun handler => Within P (handler c)) ?_ ?_ ?_ hm
  · exact within_handleListMeetings E hP hc
  · exact within_handlePreview E hP hc
  · exact within_handleCommit hP hc

omit hP in
/-- The verification of a token touches nothing but the key set. -/
theorem within_verifiedScopes {token : Json} (hv : ∀ s, token = .str s → P (.validateMcpToken s)) :
    Within P (verifiedScopes token) := by
  unfold verifiedScopes
  split
  · refine ⟨hv _ rfl, fun r => ?_⟩
    change Except String Dict at r
    cases r <;> trivial
  · trivial

/-- A tool call works on the thread that its arguments name, with the token that it is given. -/
theorem within_callTool {token : Json} (hv : ∀ s, token = .str s → P (.validateMcpToken s))
    (name : String) {args : Dict} (hargs : threadIdOf args = some t) :
    Within P (callTool E token name args) := by
  unfold callTool
  split
  · trivial
  · refine Program.Only.bind (within_verifiedScopes hv) fun r => ?_
    split
    · trivial
    · rw [hargs]
      split
      · next hthread _ =>
        cases hthread
        refine Program.Only.bind (within_getAgentName hP) fun agentName => ?_
        split
        · trivial
        · next handler hlook => exact within_handler E hP (mem_of_lookup hlook) rfl
      · trivial

/-! ## Dispatching -/

section

variable (hcfg : AllowsConfig P)

include hcfg

omit hP in
/-- The configuration of an agent is looked up in its own cache. -/
theorem within_fetchAndCacheAgentConfig (orgId : String) :
    Within P (fetchAndCacheAgentConfig E orgId) :=
  only_fetchAndCacheAgentConfig E (hcfg.cached _) hcfg.monotonic (hcfg.cache _)
    (fun _ => trivial) fun _ => trivial

/-- The credentials of a thread are its own, or those of the configuration of its organization. -/
theorem within_credentialsFor : Within P (credentialsFor E t) := by
  refine Program.Only.bind (within_getAgentCredentials hP) fun credentials => ?_
  dsimp only
  split
  · trivial
  · refine Program.Only.bind (within_getOrgName hP) fun orgName => ?_
    split
    · refine Program.Only.bind (within_fetchAndCacheAgentConfig E hcfg _) fun cached => ?_
      refine Program.Only.bind (Program.only_ofExcept _) fun credentials => ?_
      cases credentials with
      | none => trivial
      | some p => exact Program.Only.bind (within_storeSet (hP.set _ _ _ (by decide))) fun _ => trivial
    · trivial

/-- The token that a tool is called with is one of the thread. -/
theorem within_toolToken : Within P (toolToken E t) := by
  refine Program.Only.bind (within_liveToken hP _) fun token => ?_
  split
  · trivial
  · refine Program.Only.bind (within_credentialsFor E hP hcfg) fun credentials => ?_
    refine Program.Only.tryCatch ?_ fun _ => trivial
    exact Program.Only.bind (within_fetchAgentToken E hP ..) fun _ => trivial

variable (hv : ∀ token, P (.validateMcpToken token))

include hv

/-- `dispatch_tool` works on the thread that it is given. -/
theorem within_dispatchTool (name : String) (args : Dict) :
    Within P (dispatchTool E name args t) := by
  refine Program.Only.bind (within_toolToken E hP hcfg) fun token => ?_
  split
  · trivial
  · refine Program.Only.bind ?_ fun _ => trivial
    exact within_callTool E hP (fun _ _ => hv _) _ (threadIdOf_set args t)

/-! ## The confirmation path -/

/-- The handler of an authorized state works on the thread that it is given. -/
theorem within_authorizedHandler {state : FlowState} {guard : PendingGuard}
    {handler : String → Json → String → Coro Reply}
    (hm : (state, guard, handler) ∈ authorizedStateDispatch E) (pending : Json) (language : String) :
    Within P (handler t pending language) := by
  have hdispatch (name : String) (args : Dict) := within_dispatchTool E hP hcfg hv name args
  simp only [authorizedStateDispatch, List.mem_cons, Prod.mk.injEq, List.not_mem_nil,
    or_false] at hm
  obtain ⟨rfl, rfl, rfl⟩ | ⟨rfl, rfl, rfl⟩ | ⟨rfl, rfl, rfl⟩ | ⟨rfl, rfl, rfl⟩ := hm
  · refine Program.Only.bind (Program.only_ofExcept _) fun meetingId => ?_
    refine Program.Only.bind (hdispatch ..) fun res => ?_
    split <;> trivial
  · refine Program.Only.bind (Program.only_ofExcept _) fun args => ?_
    refine Program.Only.bind (hdispatch ..) fun res => ?_
    split
    · refine Program.Only.bind (Program.only_ofExcept _) fun meeting => ?_
      exact Program.Only.bind (Program.only_ofExcept _) fun topic => trivial
    · trivial
  · refine Program.Only.bind (Program.only_ofExcept _) fun args => ?_
    refine Program.Only.bind (hdispatch ..) fun res => ?_
    split
    · refine Program.Only.bind (Program.only_ofExcept _) fun meetingId => ?_
      refine Program.Only.bind (Program.only_ofExcept _) fun topic => ?_
      split <;> trivial
    · trivial
  · refine Program.Only.bind (hdispatch ..) fun res => ?_
    split
    · dsimp only
      split
      · exact Program.Only.bind (Program.only_ofExcept _) fun items => trivial
      · trivial
    · trivial

omit hP hcfg hv in
/-- So does the first handler of a list that fits, if all of them do. -/
theorem within_dispatchAuthorizedState (state : FlowState) (pending : Json) (language : String) :
    ∀ {es : List (FlowState × PendingGuard × (String → Json → String → Coro Reply))},
      (∀ e ∈ es, Within P (e.2.2 t pending language)) →
      Within P (dispatchAuthorizedState state t pending language es)
  | [], _ => trivial
  | (target, guard, handler) :: rest, h => by
    have hrest := within_dispatchAuthorizedState state pending language
      fun e he => h e (.tail _ he)
    unfold dispatchAuthorizedState
    split
    · refine Program.Only.bind (Program.only_ofExcept _) fun b => ?_
      split
      · exact Program.Only.bind (h _ (.head _)) fun _ => trivial
      · exact hrest
    · exact hrest

/-- `_handle_authorization_callback` works on the thread that it is given. -/
theorem within_handleAuthorizationCallback (message language : String) :
    Within P (handleAuthorizationCallback E message t language) := by
  refine Program.Only.bind (within_getState hP) fun state => ?_
  split
  · split
    · refine Program.Only.bind (within_fetch hP _) fun pending => ?_
      refine Program.Only.bind (within_dispatchAuthorizedState _ _ _ fun e he => ?_) fun reply => ?_
      · obtain ⟨state, guard, handler⟩ := e
        exact within_authorizedHandler E hP hcfg hv he ..
      · cases reply <;> trivial
    · trivial
  · trivial

end

/-! ## Endpoints -/

omit hP in
/-- What is stored only if there is something to store works within the same. -/
theorem within_storeIf {value : String} {write : Coro Unit} (h : Within P write) :
    Within P (storeIf value write) := by
  unfold storeIf
  split
  · exact h
  · trivial

/-- The tokens of a chat are those of its thread. -/
theorem within_chatTokens {req : ChatRequest} (hreq : req.threadId = t) :
    Within P (chatTokens E req) := by
  unfold chatTokens storeChatAgent
  rw [hreq]
  have hset (n : Namespace) (v : Json) (hn : n ≠ .chatHistory) : Within P (put n t v) :=
    within_storeSet (hP.set _ _ _ hn)
  refine Program.Only.bind ?_ fun _ => ?_
  · refine Program.Only.bind (within_storeIf (hset _ _ (by decide))) fun _ => ?_
    exact Program.Only.bind (within_storeIf (hset _ _ (by decide))) fun _ =>
      within_storeIf (hset _ _ (by decide))
  refine Program.Only.bind (within_liveToken hP _) fun obo => ?_
  refine Program.Only.bind (within_getAgentJwtRaw hP) fun jwt => ?_
  refine Program.Only.bind ?_ fun jwt => trivial
  unfold prefetchAgentToken
  split
  · refine Program.Only.bind (within_getAgentCredentials hP) fun credentials => ?_
    dsimp only
    split
    · refine Program.Only.tryCatch ?_ fun _ => trivial
      exact Program.Only.bind (within_fetchAgentToken E hP ..) fun _ => trivial
    · trivial
  · trivial

/-- `/authorize` works on the thread that it is given. -/
theorem within_initiateOauth (action : String) : Within P (initiateOauth E t action) := by
  refine Program.Only.bind (within_getAgentCredentials hP) fun credentials => ?_
  dsimp only
  split
  · trivial
  · refine Program.Only.bind (α := String) ⟨hP.tokenUrlsafe _, fun _ => trivial⟩ fun csrfToken => ?_
    split
    · trivial
    · refine Program.Only.bind (only_time hP.time) fun now => ?_
      split
      · trivial
      · exact Program.Only.bind (within_getRealWso2AuthorizationUrl E hP ..) fun _ =>
          Program.only_ofExcept _

/-- The end of an authorization works on the thread of the state. -/
theorem within_completeOboAuthorization (code : String) :
    Within P (completeOboAuthorization E t code) := by
  refine Program.Only.bind (within_getAgentCredentials hP) fun credentials => ?_
  refine Program.Only.tryCatch ?_ fun e => ?_
  · exact Program.Only.bind (within_exchangeOboCode E hP ..) fun _ => trivial
  · cases e <;> trivial

end

/-! ## The history -/

section

variable (hP : AllowsTools P t) (hhistory : ∀ v ttl, P (.set .chatHistory t v ttl))

include hP

/-- `get_history` reads the history of the thread. -/
theorem within_getHistory : Within P (getHistory t) :=
  Program.Only.bind (within_storeGet (hP.get _)) fun _ => Program.only_ofExcept _

include hhistory

/-- `add_message` reads the history of the thread and writes it back. -/
theorem within_addMessage (role content : String) : Within P (addMessage t role content) :=
  Program.Only.bind (within_getHistory hP) fun _ => within_storeSet (hhistory ..)

/-- `_prepare_chat` works on the thread of the request. -/
theorem within_prepareChat {req : ChatRequest} (hreq : req.threadId = t) :
    Within P (prepareChat E req) := by
  rw [prepareChat_eq, hreq]
  refine Program.Only.bind (within_chatTokens E hP hreq) fun tokens => ?_
  refine Program.Only.bind (within_getHistory hP) fun history => ?_
  exact Program.Only.bind (within_addMessage hP hhistory ..) fun _ => trivial

end

section

variable (hP : Allows P t)

include hP

/-- `clear` of the state deletes entries of the thread. -/
theorem within_clearState : Within P (clearState t) := by
  suffices ∀ l : List Namespace, Within P (l.forM fun n => storeDelete n t) from this allNamespaces
  intro l
  induction l with
  | nil => trivial
  | cons n l ih => exact Program.Only.bind (within_storeDelete (hP.delete n)) fun _ => ih

/-- `/clear` deletes entries of the thread. -/
theorem within_clearThread : Within P (clearThread t) := by
  refine Program.Only.bind ?_ fun _ => ?_
  · exact Program.Only.bind (within_storeDelete (hP.delete _)) fun _ =>
      within_storeDelete (hP.delete _)
  · exact Program.Only.bind (within_storeDelete (hP.delete _)) fun _ => within_clearState hP

end

end Teamspace.Agent
