import Teamspace.Agent.McpServer

/-!
# Dispatching tools

`agent/agent_config_cache.py` and `dispatch_tool` of `agent/tools.py`: the in-process MCP client of
the chat. It picks the token that a tool call is made with, so a tool runs under the delegated
token while one is stored and under the agent's own token otherwise.
-/

namespace Teamspace.Agent

open Teamspace.Lib Teamspace.Py

variable {Tok : Type} (E : Env Tok)

/-! ## The agent configuration -/

/-- `_AGENT_CONFIG_TTL_SECONDS`. -/
def agentConfigTtlSeconds : Rat := 300

/-- `_is_fresh`. -/
def isFresh (entry : Rat × Json) (now : Rat) : Bool := decide (now - entry.1 < agentConfigTtlSeconds)

/-- A fresh cached configuration that is not `None`. -/
def cachedOf (entry : Option (Rat × Json)) (now : Rat) : Option Json :=
  match entry with
  | some e => if isFresh e now then notNone (some e.2) else none
  | none => none

/-- `_get`: a failed transport is no response. -/
def getAgentConfig (url serviceToken : String) : Coro (Option Response) := do
  match ← await (.agentConfig url serviceToken) with
  | .response resp => return some resp
  | _ => return none

/-- `service_token_client.aauth_headers`, by the token in the header. -/
def serviceTokenHeaders (forceRefresh : Bool) : Coro (Option String) := do
  match ← await (.serviceToken forceRefresh) with
  | .serviceToken token => return token.filter (· ≠ "")
  | _ => return none

/-- The end of `fetch_and_cache_agent_config`: a usable response is cached. -/
def cacheAgentConfig (orgId : String) (resp : Response) : Coro (Option Json) := do
  if resp.statusCode ≠ 200 then return none
  else match resp.json with
    | none => return none
    | some data =>
      Program.perform (I := interface) (.cacheConfig orgId data)
      return some data

/-- `fetch_and_cache_agent_config`, with `force_refresh` false. -/
def fetchAndCacheAgentConfig (orgId : String) : Coro (Option Json) := do
  let entry ← Program.perform (I := interface) (.cachedConfig orgId)
  let now ← monotonic
  match cachedOf entry now with
  | some cached => return some cached
  | none =>
    match ← serviceTokenHeaders false with
    | none => return none
    | some token =>
      let url := rstrip E.settings.businessApiUrl '/' ++ "/agent-config/org/" ++ orgId
      match ← getAgentConfig url token with
      | none => return none
      | some resp =>
        if resp.statusCode = 401 then
          -- the service token may have been revoked: one retry with a fresh one
          match ← serviceTokenHeaders true with
          | none => return none
          | some token =>
            match ← getAgentConfig url token with
            | none => return none
            | some resp => cacheAgentConfig orgId resp
        else cacheAgentConfig orgId resp

/-! ## The client -/

/-- The credentials in a cached configuration, when both are there. -/
def configCredentials (cached : Option Json) : Except Exn (Option (Json × Json)) :=
  match notNone cached with
  | none => return none
  | some config =>
    if config.truthy then do
      let newId ← getOr config "agent_id" (.str "")
      let newSecret ← getOr config "agent_secret" (.str "")
      if newId.truthy && newSecret.truthy then return some (newId, newSecret) else return none
    else return none

/-- The credentials of the thread, or those of its organization's agent. -/
def credentialsFor (threadId : String) : Coro (Json × Json) := do
  let (agentId, agentSecret) ← getAgentCredentials threadId
  if agentId.truthy && agentSecret.truthy then return (agentId, agentSecret)
  else
    let orgName ← getOrgName threadId
    if orgName.truthy then
      let cached ← fetchAndCacheAgentConfig E (E.str orgName)
      match ← ofExcept (configCredentials cached) with
      | some (newId, newSecret) =>
        setAgentCredentials threadId newId newSecret
        return (newId, newSecret)
      | none => return (agentId, agentSecret)
    else return (agentId, agentSecret)

/-- The token of a tool call: the delegated one, or a fresh one of the agent. Any exception on the
way to the latter is logged and leaves none. -/
def toolToken (threadId : String) : Coro (Option Json) := do
  let token ← getOboToken threadId
  if (token.getD .null).truthy then return token
  else
    let (agentId, agentSecret) ← credentialsFor E threadId
    Program.tryCatch (do return some (← fetchAgentToken E agentId agentSecret threadId))
      fun _ => pure none

/-- What the client makes of a tool's reply. A message of a tool never starts with a brace. -/
def parseContent : TextContent → Dict
  | .json payload => payload
  | .message text =>
    [("status", .str (if startsWith text "Error:" then "error" else "success")),
      ("message", .str text)]

/-- `dispatch_tool`. -/
def dispatchTool (name : String) (args : Dict) (threadId : String) : Coro Dict := do
  let token ← toolToken E threadId
  if !(token.getD .null).truthy then
    return [("status", .str "error"), ("message", .str "Agent authentication failed")]
  else
    let content ← callTool E (token.getD .null) name (Dict.set args "thread_id" (.str threadId))
    return parseContent content

/-- What is looked up is in the table. -/
theorem mem_of_lookup {α : Type} {k : String} {v : α} :
    ∀ {l : List (String × α)}, l.lookup k = some v → (k, v) ∈ l
  | (k', v') :: l, h => by
    rw [List.lookup_cons] at h
    split at h
    · next hk => cases h; rw [eq_of_beq hk]; exact .head _
    · exact .tail _ (mem_of_lookup h)

end Teamspace.Agent
