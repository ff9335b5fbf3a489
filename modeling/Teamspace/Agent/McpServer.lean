import Teamspace.Agent.AuthManager

/-!
# The MCP tools

`agent/mcp_server.py`: seven tools behind one entry point. The three preview tools differ in their
scope, their action and their reply only, and so do the three committing tools; each kind is one
handler over a description of the tool. `list_meetings` has its own handler.
-/

namespace Teamspace.Agent

open Teamspace.Lib Teamspace.Py

variable {Tok : Type} (E : Env Tok)

/-- `_require_scope`. -/
def requireScope (scopes : List String) (baseScope : String) : Bool :=
  baseScope ∈ scopes || baseScope ++ "_agent" ∈ scopes

/-- `_require_agent_scope`. -/
def requireAgentScope (scopes : List String) (baseScope : String) : Bool :=
  baseScope ++ "_agent" ∈ scopes

/-- `_call_business_api`. -/
def callBusinessApi (method : Method) (path : Path) (token : String) (jsonBody : Option Json) :
    Coro Response := http (.businessApi method path token jsonBody)

/-- `_finalize_action`. -/
def finalizeAction (threadId : String) : Coro Unit := do
  setState threadId .initial
  clearPendingMeeting threadId
  clearOboTokens threadId

/-- The text of a tool's reply: a JSON document (`_text`) or a message (`_error`). -/
inductive TextContent
  | json (payload : Dict)
  | message (text : String)
  deriving DecidableEq, Repr

/-- What `call_tool` hands to every handler. -/
structure ToolCall where
  token : String
  arguments : Dict
  scopes : List String
  threadId : String
  agentName : Json

/-- `arguments.get(k)`. -/
def ToolCall.arg (c : ToolCall) (k : String) : Json := (Dict.get c.arguments k).getD .null

/-- `{k: v for k, v in arguments.items() if k != "thread_id"}`. -/
def ToolCall.meeting (c : ToolCall) : Dict := Dict.without c.arguments "thread_id"

/-! ## Listing -/

/-- Ask the user to authorize the list, the end of two branches of `_handle_list_meetings`. -/
def requestListAuthorization (c : ToolCall) (message : String) : Coro TextContent := do
  clearOboTokens c.threadId
  let _ ← getAgentCredentials c.threadId
  let authUrl := getOboAuthorizationUrl E c.threadId "list"
  setState c.threadId .listPreviewInitiated
  setAuthUrl c.threadId authUrl
  return .json [
    ("status", .str "preview_ready"),
    ("authorization_url", .str authUrl),
    ("message", .str message)]

/-- `_handle_list_meetings`. -/
def handleListMeetings (c : ToolCall) : Coro TextContent := do
  if !requireScope c.scopes "list_meetings" then
    return .message "Error: Forbidden. Missing scope: list_meetings_agent"
  else
    let oboToken ← getOboToken c.threadId
    if oboToken ≠ some (.str c.token) || c.token = "" then
      requestListAuthorization E c
        ("Please authorize " ++ E.str c.agentName ++ " to view your meetings.")
    else
      let resp ← callBusinessApi .get .meetings c.token none
      if resp.statusCode = 200 then
        let currentState ← getState c.threadId
        if currentState = .listAuthorized || currentState = .listPreviewInitiated then
          setState c.threadId .initial
          clearOboTokens c.threadId
          return .json [("status", .str "success"), ("meetings", ← ofExcept resp.readJson)]
        else
          return .json [("status", .str "success"), ("meetings", ← ofExcept resp.readJson)]
      else
        requestListAuthorization E c ("Session expired or unauthorized. Please re-authorize "
          ++ E.str c.agentName ++ " to view your meetings.")

/-! ## Previews -/

/-- What a preview tool shows and asks for. -/
structure PreviewTool where
  action : Action
  baseScope : String
  forbidden : String
  reply : ToolCall → String → Dict

/-- The action of an authorization link. -/
def Action.name : Action → String
  | .book => "book"
  | .update => "update"
  | .delete => "delete"

/-- The body of the three preview handlers. The scopes that they name in passing are those that
`/authorize` derives from the action. -/
def handlePreview (p : PreviewTool) (c : ToolCall) : Coro TextContent := do
  if !requireScope c.scopes p.baseScope then
    return .message p.forbidden
  else
    let _ ← getAgentCredentials c.threadId
    let authUrl := getOboAuthorizationUrl E c.threadId p.action.name
    setState c.threadId (.previewInitiated p.action)
    setPendingMeeting c.threadId c.meeting
    setAuthUrl c.threadId authUrl
    return .json (p.reply c authUrl)

def scheduleMeetingPreview : PreviewTool where
  action := .book
  baseScope := "create_meeting"
  forbidden := "Error: Forbidden. Missing required scope: create_meeting_agent"
  reply c authUrl := [
    ("status", .str "preview_ready"),
    ("meeting", .obj c.meeting),
    ("authorization_url", .str authUrl),
    ("message", .str ("Please authorize " ++ E.str c.agentName ++
      " to book this meeting on your behalf."))]

def deleteMeetingPreview : PreviewTool where
  action := .delete
  baseScope := "delete_meeting"
  forbidden := "Error: Forbidden. Missing scope: delete_meeting_agent"
  reply c authUrl := [
    ("status", .str "preview_ready"),
    ("meeting_id", c.arg "meeting_id"),
    ("topic", c.arg "topic"),
    ("authorization_url", .str authUrl),
    ("message", .str ("Please authorize " ++ E.str c.agentName ++ " to delete the meeting '" ++
      E.str (c.arg "topic") ++ "'."))]

def updateMeetingPreview : PreviewTool where
  action := .update
  baseScope := "update_meeting"
  forbidden := "Error: Forbidden. Missing scope: update_meeting_agent"
  reply c authUrl := [
    ("status", .str "preview_ready"),
    ("meeting", .obj c.meeting),
    ("authorization_url", .str authUrl),
    ("message", .str ("Please authorize " ++ E.str c.agentName ++ " to update the meeting '" ++
      E.str (c.arg "topic") ++ "' on your behalf."))]

/-- `_handle_schedule_meeting_preview`. -/
def handleScheduleMeetingPreview : ToolCall → Coro TextContent :=
  handlePreview E (scheduleMeetingPreview E)

/-- `_handle_delete_meeting_preview`. -/
def handleDeleteMeetingPreview : ToolCall → Coro TextContent :=
  handlePreview E (deleteMeetingPreview E)

/-- `_handle_update_meeting_preview`. -/
def handleUpdateMeetingPreview : ToolCall → Coro TextContent :=
  handlePreview E (updateMeetingPreview E)

/-! ## Commits -/

/-- What a committing tool sends, which status it takes for success, and what it answers then. -/
structure CommitTool where
  action : Action
  baseScope : String
  method : Method
  path : ToolCall → Path
  jsonBody : ToolCall → Option Json
  success : Nat
  reply : ToolCall → Response → Except Exn Dict

/-- The request of a committing tool. -/
def CommitTool.request (p : CommitTool) (c : ToolCall) : Req :=
  .businessApi p.method (p.path c) c.token (p.jsonBody c)

/-- What a committing handler does with the response. -/
def finishCommit (p : CommitTool) (c : ToolCall) (resp : Response) : Coro TextContent := do
  if resp.statusCode = p.success then
    finalizeAction c.threadId
    return .json (← ofExcept (p.reply c resp))
  else
    return .message ("Error: " ++ toString resp.statusCode ++ " — " ++ resp.text)

/-- The body of the three committing handlers. -/
def handleCommit (p : CommitTool) (c : ToolCall) : Coro TextContent := do
  if !requireAgentScope c.scopes p.baseScope then
    return .message ("Error: Forbidden. Missing scope: " ++ p.baseScope ++ "_agent")
  else
    let state ← getState c.threadId
    let oboToken ← getOboToken c.threadId
    if state ≠ .authorized p.action || oboToken ≠ some (.str c.token) || c.token = "" then
      return .json [("status", .str "waiting_for_authorization")]
    else
      let resp ← callBusinessApi p.method (p.path c) c.token (p.jsonBody c)
      finishCommit p c resp

def scheduleMeeting : CommitTool where
  action := .book
  baseScope := "create_meeting"
  method := .post
  path _ := .meetings
  jsonBody c := some (.obj c.meeting)
  success := 201
  reply _ resp := do return [("status", .str "booked"), ("meeting", ← resp.readJson)]

def deleteMeeting : CommitTool where
  action := .delete
  baseScope := "delete_meeting"
  method := .delete
  path c := .meeting (c.arg "meeting_id")
  jsonBody _ := none
  success := 204
  reply c _ := return [("status", .str "deleted"), ("meeting_id", c.arg "meeting_id")]

def updateMeeting : CommitTool where
  action := .update
  baseScope := "update_meeting"
  method := .put
  path c := .meeting (c.arg "meeting_id")
  jsonBody c := some (.obj [
    ("topic", c.arg "topic"),
    ("date", c.arg "date"),
    ("start_time", c.arg "start_time"),
    ("duration", c.arg "duration"),
    ("time_zone", c.arg "time_zone")])
  success := 200
  reply _ resp := do return [("status", .str "updated"), ("meeting", ← resp.readJson)]

/-- `_handle_schedule_meeting`. -/
def handleScheduleMeeting : ToolCall → Coro TextContent := handleCommit scheduleMeeting

/-- `_handle_delete_meeting`. -/
def handleDeleteMeeting : ToolCall → Coro TextContent := handleCommit deleteMeeting

/-- `_handle_update_meeting`. -/
def handleUpdateMeeting : ToolCall → Coro TextContent := handleCommit updateMeeting

/-! ## The entry point -/

/-- `_TOOL_HANDLERS`. -/
def toolHandlers : List (String × (ToolCall → Coro TextContent)) := [
  ("list_meetings", handleListMeetings E),
  ("schedule_meeting_preview", handleScheduleMeetingPreview E),
  ("schedule_meeting", handleScheduleMeeting),
  ("delete_meeting_preview", handleDeleteMeetingPreview E),
  ("delete_meeting", handleDeleteMeeting),
  ("update_meeting_preview", handleUpdateMeetingPreview E),
  ("update_meeting", handleUpdateMeeting)]

/-- What holds of the list, of every preview and of every commit holds of every handler. -/
theorem forall_toolHandlers {C : (ToolCall → Coro TextContent) → Prop}
    (hlist : C (handleListMeetings E)) (hpreview : ∀ p, C (handlePreview E p))
    (hcommit : ∀ p, C (handleCommit p)) {name : String} {handler : ToolCall → Coro TextContent}
    (hm : (name, handler) ∈ toolHandlers E) : C handler := by
  simp only [toolHandlers, List.mem_cons, Prod.mk.injEq, List.not_mem_nil, or_false] at hm
  obtain ⟨-, rfl⟩ | ⟨-, rfl⟩ | ⟨-, rfl⟩ | ⟨-, rfl⟩ | ⟨-, rfl⟩ | ⟨-, rfl⟩ | ⟨-, rfl⟩ := hm
  · exact hlist
  · exact hpreview _
  · exact hcommit _
  · exact hpreview _
  · exact hcommit _
  · exact hpreview _
  · exact hcommit _

/-- The class name in the message of an `AttributeError`. -/
def typeName : Json → String
  | .null => "NoneType"
  | .bool _ => "bool"
  | .num (.int _) => "int"
  | .num _ => "float"
  | .str _ => "str"
  | .arr _ => "list"
  | .obj _ => "dict"

/-- `set(decoded.get("scope", "").split())`. -/
def scopesOf (decoded : Dict) : Except String (List String) :=
  match (Dict.get decoded "scope").getD (.str "") with
  | .str s => .ok (split s)
  | v => .error ("'" ++ typeName v ++ "' object has no attribute 'split'")

/-- The scopes of a token that verifies. A token that is no string is refused by PyJWT. -/
def verifiedScopes (token : Json) : Coro (Except String (List String)) := do
  match token with
  | .str t =>
    match ← Program.perform (I := interface) (.validateMcpToken t) with
    | .ok decoded => return scopesOf decoded
    | .error e => return .error e
  | _ => return .error "Invalid token type. Token must be a <class 'bytes'>"

/-- `arguments.get("thread_id", "")`. For an MCP client the `inputSchema` of every tool requires a
string here before the tool runs, and `dispatch_tool` passes one. -/
def threadIdOf (arguments : Dict) : Option String :=
  match Dict.get arguments "thread_id" with
  | none => some ""
  | some (.str t) => some t
  | some _ => none

/-- `call_tool`, with the token that `mcp_token_ctx` holds for the task. -/
def callTool (token : Json) (name : String) (arguments : Dict) : Coro TextContent := do
  if !token.truthy then
    return .message "Error: Unauthorized. Missing bearer token."
  else
    match ← verifiedScopes token with
    | .error e => return .message ("Error: Unauthorized. Invalid token: " ++ e)
    | .ok scopes =>
      match threadIdOf arguments, token with
      | some threadId, .str t =>
        let agentName ← getAgentName threadId
        match (toolHandlers E).lookup name with
        | none => return .message ("Error: Unknown tool: " ++ name)
        | some handler => handler ⟨t, arguments, scopes, threadId, agentName⟩
      | _, _ => return .message "Input validation error"

end Teamspace.Agent
