import Teamspace.Agent.Confirmation

/-!
# The model and its tools

The two ways in which `agent/gemini_agent.py` runs the model: `run_agent` fetches whole responses,
`run_agent_stream` reads them in chunks. Both give the model's tool calls to `dispatch_tool` and its
results back to the model. The loops are over any effects in which a response is fetched and a tool
is dispatched.
-/

namespace Teamspace.Agent

open Teamspace.Lib Teamspace.Py

/-! ## Contents -/

/-- `types.FunctionCall`. -/
structure FunctionCall where
  name : String
  args : Option Dict
  deriving DecidableEq, Repr

/-- `dict(fn_call.args) if fn_call.args else {}`. -/
def FunctionCall.arguments (call : FunctionCall) : Dict := call.args.getD []

/-- `types.Part`, by what it carries. -/
inductive Part
  | text (text : String)
  | functionCall (call : FunctionCall)
  | functionResponse (name : String) (response : Dict)
  /-- A thought, inline data and the like. -/
  | other
  deriving DecidableEq, Repr

/-- `types.Content`. -/
structure Content where
  role : String
  parts : List Part
  deriving DecidableEq, Repr

/-- The content of an entry of the history. -/
def historyContent (m : Json) : Except Exn Content := do
  let role := if (← m.getItem "role") = .str "user" then "user" else "model"
  match ← m.getItem "content" with
  | .str text => return ⟨role, [.text text]⟩
  | _ => .error .valueError

/-- `_history_to_contents`. -/
def historyToContents (history : List Json) (message : String) : Except Exn (List Content) := do
  return (← history.mapM historyContent) ++ [⟨"user", [.text message]⟩]

/-- `_append_tool_call_messages`. -/
def appendToolCallMessages (messages : List Content) (fnCallPart : Part) (fnCall : FunctionCall)
    (toolResult : Dict) : List Content :=
  messages ++ [⟨"model", [fnCallPart]⟩,
    ⟨"user", [.functionResponse fnCall.name [("result", .obj toolResult)]]⟩]

/-! ## The loops -/

section

variable {m : Type → Type} [Monad m]
  /- `_generate_content_sync`, by the parts of the first candidate; without one there are none. -/
  (generate : List Content → m (List Part))
  /- `_generate_content_stream_sync`, by the parts of each chunk. -/
  (stream : List Content → m (List (List Part)))
  /- `dispatch_tool` for the thread. -/
  (dispatch : String → Dict → m Dict)

/-- `_run_tool_call_and_append`. -/
def runToolCallAndAppend (messages : List Content) (part : Part) (fnCall : FunctionCall) :
    m (List Content) := do
  let toolResult ← dispatch fnCall.name fnCall.arguments
  return appendToolCallMessages messages part fnCall toolResult

/-- `_dispatch_tool_and_refetch`, with the messages that it leaves. -/
def dispatchToolAndRefetch (messages : List Content) (part : Part) (fnCall : FunctionCall) :
    m (List Part × List Content) := do
  let messages ← runToolCallAndAppend dispatch messages part fnCall
  let response ← generate messages
  return (response, messages)

/-- The reply of a loop that has got no text. -/
def noTextReply : String := "I couldn't process that request. Could you try again?"

/-- The iterations of `_run_gemini_tool_loop` that are left. -/
def toolIterations : Nat → List Part → List Content → m (String × List Content)
  | 0, _, messages => return (noTextReply, messages)
  | _ + 1, [], messages => return (noTextReply, messages)
  | n + 1, .functionCall fnCall :: _, messages => do
    let (response, messages) ←
      dispatchToolAndRefetch generate dispatch messages (.functionCall fnCall) fnCall
    toolIterations n response messages
  | _ + 1, .text text :: _, messages =>
    return (if text ≠ "" then text else noTextReply, messages)
  | _ + 1, _ :: _, messages => return (noTextReply, messages)

/-- `_run_gemini_tool_loop`, with the messages that it leaves. -/
def runGeminiToolLoop (maxIterations : Nat) (messages : List Content) :
    m (String × List Content) := do
  let response ← generate messages
  toolIterations generate dispatch maxIterations response messages

/-- The texts of the parts up to the first function call, and that call. -/
def consumeParts : List Part → List String × Option FunctionCall
  | [] => ([], none)
  | .functionCall fnCall :: _ => ([], some fnCall)
  | .text text :: rest =>
    ((if text ≠ "" then [text] else []) ++ (consumeParts rest).1, (consumeParts rest).2)
  | _ :: rest => consumeParts rest

/-- `_consume_stream_for_text_and_fn`. -/
def consumeStreamForTextAndFn : List (List Part) → List String × Option FunctionCall
  | [] => ([], none)
  | chunk :: rest =>
    match (consumeParts chunk).2 with
    | some fnCall => ((consumeParts chunk).1, some fnCall)
    | none => ((consumeParts chunk).1 ++ (consumeStreamForTextAndFn rest).1,
        (consumeStreamForTextAndFn rest).2)

/-- The iterations of `run_agent_stream` that are left: what they yield, and the messages that they
leave. -/
def streamIterations : Nat → List Content → m (List String × List Content)
  | 0, messages => return ([], messages)
  | n + 1, messages => do
    let responseStream ← stream messages
    let (texts, fnCall) := consumeStreamForTextAndFn responseStream
    match fnCall with
    | none => return (texts, messages)
    | some fnCall => do
      let toolResult ← dispatch fnCall.name fnCall.arguments
      let (more, messages) ← streamIterations n
        (appendToolCallMessages messages (.functionCall fnCall) fnCall toolResult)
      return (texts ++ more, messages)

end

/-! ## Running the agent -/

/-- The model that a request is answered with. -/
structure Llm where
  /-- `_mock_response`. -/
  mockResponse : (message threadId agentName language : String) → Coro String
  /-- `_select_gemini_client(gemini_api_key) is not None`. -/
  hasClient : Bool
  /-- `_build_system_instruction`, which formats a prompt that an organization may have written. -/
  systemInstruction : (agentName language : String) → Except Exn String
  /-- The parts of the response to these contents. -/
  generate : (systemInstruction : String) → List Content → List Part
  /-- The parts of the chunks in which the same response is streamed. -/
  stream : (systemInstruction : String) → List Content → List (List Part)
  stream_flatten : ∀ systemInstruction contents,
    (stream systemInstruction contents).flatten = generate systemInstruction contents

/-- What `run_agent` answers: a reply of the confirmation path, or a text. -/
inductive AgentAnswer
  | reply (reply : Reply)
  | text (text : String)

/-- What `run_agent_stream` yields. -/
inductive AgentStream
  | reply (reply : Reply)
  | texts (texts : List String)

/-- The default of `max_iterations`. -/
def maxToolIterations : Nat := 5

variable {Tok : Type} (E : Env Tok) (L : Llm)

/-- `run_agent`, with the messages that it leaves. -/
def runAgent (message threadId : String) (history : List Json) (language agentName : String) :
    Coro (AgentAnswer × List Content) := do
  match ← handleAuthorizationCallback E message threadId language with
  | some reply => return (.reply reply, [])
  | none =>
    if E.settings.mockLlm then
      return (.text (← L.mockResponse message threadId agentName language), [])
    else if !L.hasClient then
      return (.text ("No Gemini API key configured for this organization. " ++
        "Ask an admin to register an AI Agent with an API key."), [])
    else
      let systemInstruction ← ofExcept (L.systemInstruction agentName language)
      let messages ← ofExcept (historyToContents history message)
      let (text, messages) ← runGeminiToolLoop (m := Coro)
        (fun contents => pure (L.generate systemInstruction contents))
        (fun name args => dispatchTool E name args threadId) maxToolIterations messages
      return (.text text, messages)

/-- `run_agent_stream`, with the messages that it leaves. -/
def runAgentStream (message threadId : String) (history : List Json)
    (language agentName : String) : Coro (AgentStream × List Content) := do
  match ← handleAuthorizationCallback E message threadId language with
  | some reply => return (.reply reply, [])
  | none =>
    if E.settings.mockLlm then
      return (.texts [← L.mockResponse message threadId agentName language], [])
    else if !L.hasClient then
      return (.texts ["<p>No Gemini API key configured for this organization. " ++
        "Ask an admin to register an AI Agent with an API key.</p>"], [])
    else
      let systemInstruction ← ofExcept (L.systemInstruction agentName language)
      let messages ← ofExcept (historyToContents history message)
      let (texts, messages) ← streamIterations (m := Coro)
        (fun contents => pure (L.stream systemInstruction contents))
        (fun name args => dispatchTool E name args threadId) maxToolIterations messages
      return (.texts texts, messages)

end Teamspace.Agent
