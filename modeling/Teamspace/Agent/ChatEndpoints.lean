import Mathlib.Data.List.Defs
import Teamspace.Agent.GeminiAgent
import Teamspace.Agent.Main

/-!
# The chat endpoints

`/chat` and `/chat/stream` of `agent/main.py`. Both store the message before the model runs and what
it answered afterwards. A model run that raises is answered by `/chat` with a message for the user,
which is stored like an answer; `/chat/stream` then ends at once, and stores nothing.
-/

namespace Teamspace.Agent

open Teamspace.Lib Teamspace.Py

variable {Tok : Type} (E : Env Tok)

/-! ## What the user is told -/

/-- The exceptions that `_map_exception_to_user_message` tells apart. -/
inductive AgentError
  | timeout
  | transport
  | api (code : Option Nat)
  | other
  deriving DecidableEq, Repr

/-- `_AI_API_ERROR_MESSAGES`. -/
def aiApiErrorMessages : List (Nat × String) :=
  [(503, "I'm sorry, the AI service is currently experiencing very high demand and is temporarily " ++
      "unavailable. Please try again in a few moments."),
    (429, "I'm sorry, the rate limit for the AI service has been exceeded. Please try again in a " ++
      "few moments."),
    (400, "I'm sorry, the request sent to the AI service was invalid. This could be due to a " ++
      "configuration issue or an incorrect API key.")]

/-- `code or "unknown"`. -/
def codeText : Option Nat → String
  | none | some 0 => "unknown"
  | some code => toString code

/-- `_map_exception_to_user_message`. -/
def mapExceptionToUserMessage : AgentError → String
  | .timeout => "I'm sorry, the request to the AI service timed out. Please try again."
  | .transport => "I'm sorry, I failed to communicate with the AI service. Please verify your " ++
      "connection and try again."
  | .api code =>
    match code.bind fun code => aiApiErrorMessages.lookup code with
    | some message => message
    | none => "I'm sorry, the AI service encountered an error (Code " ++ codeText code ++
        "). Please try again."
  | .other => "I'm sorry, I encountered an unexpected error while processing your request. " ++
      "Please try again."

/-! ## The model -/

/-- A program that does nothing but dispatch tools of a thread. -/
inductive CallsTools (t : String) : {α : Type} → Coro α → Prop
  | ret {α : Type} (a : α) : CallsTools t (.ret a)
  | raise {α : Type} (e : Exn) : CallsTools t (raise (α := α) e)
  | dispatch {α : Type} (name : String) (args : Dict) {k : Dict → Coro α}
      (h : ∀ res, CallsTools t (k res)) : CallsTools t (dispatchTool E name args t >>= k)

/-- A program that leaves the store alone: it waits, returns or raises. -/
abbrev Outside {α : Type} (p : Coro α) : Prop :=
  Program.Only (I := interface) (fun _ => False) (fun _ => True) p

/-- The model that a request is answered with. Each of its calls takes time, and may raise. -/
structure Gemini where
  /-- `_mock_response`. -/
  mockResponse : (message threadId agentName language : String) → Coro String
  mock_tools : ∀ message threadId agentName language,
    CallsTools E threadId (mockResponse message threadId agentName language)
  /-- `_select_gemini_client(gemini_api_key) is not None`. -/
  hasClient : (geminiApiKey : String) → Bool
  /-- `_build_system_instruction`. -/
  systemInstruction : (customPrompt orgName agentName language : String) → Except Exn String
  /-- `_generate_content_sync`. -/
  generate : (systemInstruction : String) → List Content → Coro (List Part)
  generate_outside : ∀ systemInstruction contents, Outside (generate systemInstruction contents)
  /-- `_generate_content_stream_sync`, with the chunks as they arrive. -/
  stream : (systemInstruction : String) → List Content → Coro (List (List Part))
  stream_outside : ∀ systemInstruction contents, Outside (stream systemInstruction contents)
  /-- The text of a reply of the confirmation path. -/
  replyText : (language : String) → Reply → String
  /-- `re.sub(r'<[^>]*>', '', text)`. -/
  stripTags : String → String
  /-- What kind of exception it is. -/
  errorOf : Exn → AgentError

/-- A request to `/chat` or `/chat/stream`. -/
structure Ask extends ChatRequest where
  geminiApiKey : String
  customPrompt : String
  language : String
  deriving DecidableEq, Repr

/-- `req.language or "en"`. -/
def Ask.languageOr (req : Ask) : String := if req.language ≠ "" then req.language else "en"

/-- `req.agent_name or DEFAULT_AGENT_NAME`. -/
def Ask.agentNameOr (req : Ask) : String :=
  if req.agentName ≠ "" then req.agentName else defaultAgentName

variable {E} (G : Gemini E)

/-- The message for a request that no model answers. -/
def noClientReply : String := "No Gemini API key configured for this organization. " ++
  "Ask an admin to register an AI Agent with an API key."

/-- `run_agent` for a request. -/
def answerAsk (req : Ask) (history : List Json) : Coro String := do
  match ← handleAuthorizationCallback E req.message req.threadId req.languageOr with
  | some reply => return G.stripTags (G.replyText req.languageOr reply)
  | none =>
    if E.settings.mockLlm then
      G.mockResponse req.message req.threadId req.agentNameOr req.languageOr
    else if !G.hasClient req.geminiApiKey then
      return noClientReply
    else
      let systemInstruction ← ofExcept
        (G.systemInstruction req.customPrompt req.orgName req.agentNameOr req.languageOr)
      let messages ← ofExcept (historyToContents history req.message)
      let (text, _) ← runGeminiToolLoop (m := Coro) (G.generate systemInstruction)
        (fun name args => dispatchTool E name args req.threadId) maxToolIterations messages
      return text

/-- The text of what `run_agent` answers. -/
def Gemini.answerText (language : String) : AgentAnswer → String
  | .reply reply => G.stripTags (G.replyText language reply)
  | .text text => text

/-- A model that never raises is run as by `runAgent`. -/
theorem answerAsk_eq_runAgent {L : Llm} {req : Ask} (hmock : L.mockResponse = G.mockResponse)
    (hclient : L.hasClient = G.hasClient req.geminiApiKey)
    (hprompt : L.systemInstruction = G.systemInstruction req.customPrompt req.orgName)
    (hgenerate : ∀ systemInstruction contents,
      G.generate systemInstruction contents = pure (L.generate systemInstruction contents))
    (history : List Json) : answerAsk G req history =
      (fun r => G.answerText req.languageOr r.1) <$>
        runAgent E L req.message req.threadId history req.languageOr req.agentNameOr := by
  have hgen (s : String) : G.generate s = fun contents => pure (L.generate s contents) :=
    funext (hgenerate s)
  unfold answerAsk runAgent
  rw [map_bind]
  congr 1
  funext reply
  cases reply with
  | some reply => rfl
  | none =>
    rw [hmock, hclient, hprompt]
    dsimp only
    split
    · simp only [map_bind, map_pure, Gemini.answerText, bind_pure]
    · split
      · rfl
      · simp only [map_bind, map_pure, Gemini.answerText, hgen]

/-- `_stream_text_in_chunks`. -/
def streamTextInChunks (text : String) : List String :=
  (text.toList.toChunks 5).map String.ofList

/-- `run_agent_stream` for a request: the chunks that it yields. -/
def streamAsk (req : Ask) (history : List Json) : Coro (List String) := do
  match ← handleAuthorizationCallback E req.message req.threadId req.languageOr with
  | some reply => return streamTextInChunks (G.replyText req.languageOr reply)
  | none =>
    if E.settings.mockLlm then
      return streamTextInChunks
        (← G.mockResponse req.message req.threadId req.agentNameOr req.languageOr)
    else if !G.hasClient req.geminiApiKey then
      return ["<p>" ++ noClientReply ++ "</p>"]
    else
      let systemInstruction ← ofExcept
        (G.systemInstruction req.customPrompt req.orgName req.agentNameOr req.languageOr)
      let messages ← ofExcept (historyToContents history req.message)
      let (texts, _) ← streamIterations (m := Coro) (G.stream systemInstruction)
        (fun name args => dispatchTool E name args req.threadId) maxToolIterations messages
      return texts

/-! ## The endpoints -/

/-- `FrontendState`. -/
inductive FrontendState
  | idle
  | awaitingAuthorization
  | bookingComplete
  deriving DecidableEq, Repr

/-- The state that the frontend is told for a flow state. -/
def FlowState.frontend : FlowState → FrontendState
  | .previewInitiated _ | .listPreviewInitiated => .awaitingAuthorization
  | .authorized _ | .listAuthorized => .bookingComplete
  | .initial => .idle

/-- `StateManager.get_frontend_state`. -/
def getFrontendState (threadId : String) : Coro FrontendState := do
  return (← getState threadId).frontend

/-- `a or b`, of tokens. -/
def tokenOr (a b : Option Json) : Option Json := if isFalsy a then b else a

/-- What a response carries beside its text. -/
structure ResponseMetadata where
  state : FrontendState
  authorizationUrl : Option Json
  oboJwt : Option Json
  agentJwt : Option Json
  deriving DecidableEq, Repr

/-- `_collect_response_metadata`. -/
def collectResponseMetadata (threadId : String) (initialOboJwt initialAgentJwt : Option Json) :
    Coro ResponseMetadata := do
  let state ← getFrontendState threadId
  let authorizationUrl ←
    if state = .awaitingAuthorization then getAuthUrl threadId else pure none
  let oboJwt ← getOboJwtRaw threadId
  let agentJwt ← getAgentJwtRaw threadId
  return ⟨state, authorizationUrl, tokenOr oboJwt initialOboJwt, tokenOr agentJwt initialAgentJwt⟩

/-- What follows a model run that ended with a text. -/
def finishChat (threadId : String) (ctx : ChatContext) (text : String) :
    Coro (String × ResponseMetadata) := do
  addMessage threadId "assistant" text
  return (text, ← collectResponseMetadata threadId ctx.initialOboJwt ctx.initialAgentJwt)

/-- `chat`. -/
def Gemini.chat (req : Ask) : Coro (String × ResponseMetadata) := do
  let ctx ← prepareChat E req.toChatRequest
  let text ← Program.tryCatch (answerAsk G req ctx.history) fun e =>
    pure (mapExceptionToUserMessage (G.errorOf e))
  finishChat req.threadId ctx text

/-- `stream_generator`, on what `run_agent_stream` yields: the text and the metadata, or nothing
when the connection to the model is lost. -/
def streamGenerator (req : Ask) (ctx : ChatContext) :
    Coro (Option (String × ResponseMetadata)) := do
  let chunks ← Program.tryCatch (some <$> streamAsk G req ctx.history) fun _ => pure none
  match chunks with
  | none => return none
  | some chunks => return some (← finishChat req.threadId ctx (String.join chunks))

/-- `chat_stream`. -/
def Gemini.chatStream (req : Ask) : Coro (Option (String × ResponseMetadata)) := do
  let ctx ← prepareChat E req.toChatRequest
  streamGenerator G req ctx

end Teamspace.Agent
