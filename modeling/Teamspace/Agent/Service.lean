import Teamspace.Agent.Transcript

/-!
# The agent service, with its endpoints

The requests that `agent/main.py` serves, as the jobs of a system whose tasks share one store. A
chat is one task here, from its preparation to the end of its response: it waits for the model, for
the tools that the model calls and, when it streams, for the client that it sends to. All other
requests may be served meanwhile.
-/

namespace Teamspace.Agent

open Teamspace.Lib Teamspace.Py Teamspace.Lib.System

variable {Tok : Type} (E : Env Tok)

/-- A service that runs. -/
structure Service where
  gemini : Gemini E
  /-- `is_production()`. -/
  production : Bool
  /-- Chunks of a response on their way to the client, which takes them when it likes. -/
  send : List String → Coro Unit
  send_outside : ∀ chunks, Outside (send chunks)

variable {E} (A : Service E)

/-! ## The endpoints -/

/-- What is sent when the connection to the model is lost. -/
def lostConnectionChunk : String := " [Error: Connection to Gemini lost. Please try again.]"

/-- `chat_stream`, to a client. Before the first chunk the response is started. -/
def Service.chatStream (req : Ask) : Coro (Option (String × ResponseMetadata)) := do
  let ctx ← prepareChat E req.toChatRequest
  A.send []
  let chunks ← Program.tryCatch (some <$> streamAsk A.gemini req ctx.history) fun _ => pure none
  match chunks with
  | none =>
    A.send [lostConnectionChunk]
    return none
  | some chunks =>
    A.send chunks
    return some (← finishChat req.threadId ctx (String.join chunks))

/-- A client that never makes the service wait. -/
theorem chatStream_eq (hsend : ∀ chunks, A.send chunks = pure ()) :
    A.chatStream = A.gemini.chatStream := by
  funext req
  unfold Service.chatStream Gemini.chatStream streamGenerator
  simp only [hsend]
  rfl

/-- The body of `/state`. -/
structure StateBody where
  state : FrontendState
  oboJwt : Option Json
  agentJwt : Option Json
  tokensWithheld : Bool
  deriving DecidableEq, Repr

/-- `get_state` of `agent/main.py`. -/
def Service.getState (threadId : String) : Coro StateBody := do
  let state ← getFrontendState threadId
  if A.production then
    return ⟨state, none, none, true⟩
  else
    let oboJwt ← getOboJwtRaw threadId
    let agentJwt ← getAgentJwtRaw threadId
    return ⟨state, oboJwt, agentJwt, false⟩

variable (E) in
/-- `create_agent_token`. -/
def createAgentToken : Coro Json := fetchAgentToken E (.str "") (.str "") ""

/-- A request to the service. -/
inductive Endpoint (Tok : Type)
  | chat (req : Ask)
  | chatStream (req : Ask)
  | authorize (threadId action : String)
  | callback (code : String) (state : Tok) (cookie : Option Tok)
  | state (threadId : String)
  | agentToken
  /-- A tool call on an MCP stream. -/
  | callTool (token name : String) (arguments : Dict)
  | clear (threadId : String)
  deriving DecidableEq

/-- What a request is answered. -/
inductive Answer (Tok : Type)
  | chat (text : String) (metadata : ResponseMetadata)
  | connectionLost
  | page (p : Page Tok)
  | state (body : StateBody)
  | agentToken (token : Json)
  | content (c : TextContent)
  | cleared

/-- How a streamed response ends. -/
def streamAnswer : Option (String × ResponseMetadata) → Answer Tok
  | some (text, metadata) => .chat text metadata
  | none => .connectionLost

/-- What serves a request. -/
def Service.serve : Endpoint Tok → Coro (Answer Tok)
  | .chat req => do
    let (text, metadata) ← A.gemini.chat req
    return .chat text metadata
  | .chatStream req => return streamAnswer (← A.chatStream req)
  | .authorize threadId action => return .page (← initiateOauth E threadId action)
  | .callback code state cookie => return .page (← oauthCallback E code state cookie)
  | .state threadId => return .state (← A.getState threadId)
  | .agentToken => return .agentToken (← createAgentToken E)
  | .callTool token name arguments => return .content (← callTool E (.str token) name arguments)
  | .clear threadId => do
    clearThread threadId
    return .cleared

/-- The service as a system. -/
def Service.system : System where
  I := interface
  State := Shared
  Job := Endpoint Tok
  Out := Answer Tok
  exec := exec E
  program := A.serve
  passes := Shared.Passes

/-! ## What keeps the histories -/

variable (E) in
/-- `call_tool` keeps the histories. -/
theorem keeps_callTool (token : Json) (name : String) (args : Dict) :
    Within Op.KeepsHistory (callTool E token name args) := by
  cases hthread : threadIdOf args with
  | some t => exact within_callTool E (allowsTools_keepsHistory t) (fun _ _ => trivial) name hthread
  | none =>
    unfold callTool
    split
    · trivial
    · refine Program.Only.bind (within_verifiedScopes fun _ _ => trivial) fun r => ?_
      split
      · trivial
      · rw [hthread]
        trivial

variable (E) in
/-- So does `/callback`. -/
theorem keeps_oauthCallback (code : String) (state : Tok) (cookie : Option Tok) :
    Within Op.KeepsHistory (oauthCallback E code state cookie) := by
  cases hk : E.settings.stateJwtSigningSecret with
  | error e =>
    unfold oauthCallback
    rw [hk]
    trivial
  | ok secret =>
    rw [oauthCallback_proceed E hk]
    refine ⟨trivial, fun now => ?_⟩
    change Within Op.KeepsHistory (proceed E code (callbackGate E state cookie secret now))
    cases callbackGate E state cookie secret now with
    | error kind => trivial
    | ok passed =>
      obtain ⟨t, action⟩ := passed
      have ht := allowsTools_keepsHistory t
      refine Program.Only.bind (within_completeOboAuthorization E ht code) fun refused => ?_
      cases refused with
      | some kind => trivial
      | none => exact Program.Only.bind (within_storeSet (ht.set _ _ _ (by decide))) fun _ => trivial

/-- So does `/state`. -/
theorem keeps_getState (t : String) : Within Op.KeepsHistory (A.getState t) := by
  have ht := allowsTools_keepsHistory t
  refine Program.Only.bind ?_ fun state => ?_
  · exact Program.Only.bind (within_getState ht) fun _ => trivial
  split
  · trivial
  · refine Program.Only.bind (within_liveToken ht _) fun oboJwt => ?_
    exact Program.Only.bind (within_getAgentJwtRaw ht) fun _ => trivial

/-- A `/clear` deletes what is kept for its thread. -/
theorem clearThread_deletes (t : String) :
    Program.Only (I := interface) (fun o => ∃ n, o = .delete n t) (fun _ => False)
      (clearThread t) := by
  have hdelete (n : Namespace) : Program.Only (I := interface) (fun o => ∃ n, o = .delete n t)
      (fun _ => False) (storeDelete n t) := ⟨⟨n, rfl⟩, fun _ => trivial⟩
  refine Program.Only.bind (Program.Only.bind (hdelete _) fun _ => hdelete _) fun _ => ?_
  refine Program.Only.bind (hdelete _) fun _ => ?_
  suffices ∀ l : List Namespace, Program.Only (I := interface) (fun o => ∃ n, o = .delete n t)
      (fun _ => False) (l.forM fun n => storeDelete n t) from this allNamespaces
  intro l
  induction l with
  | nil => trivial
  | cons n l ih => exact Program.Only.bind (hdelete n) fun _ => ih

end Teamspace.Agent
