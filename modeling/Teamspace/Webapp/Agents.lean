import Teamspace.Webapp.Gates
import Teamspace.Webapp.Subscription

/-!
# AI agents

The handlers of `webapp/blueprints/agents.py` that add and delete the agent of an organization: an
identity in IS, and a row of the Business API that holds its credentials.
-/

namespace Teamspace.Webapp

open Teamspace.Py Teamspace.Lib Teamspace.Api Handling

/-- `agent_data.get("id", "")` and `agent_data.get("password", "")`. -/
def agentCredentials : IsData → Handling (String × String)
  | .agent id password => return (id.getD "", password.getD "")
  | .other => .raise .attributeError
  | _ => return ("", "")

/-- `save_agent_config`. -/
def saveAgentConfig (data : AgentConfigCreate) : Handling ApiResult :=
  apiRequest none (.createAgentConfig (.ok data))

/-- The `agent_id` of what `get_agent_config` gives, if it gives something. -/
def configuredAgentId (orgId : String) : Handling (Option String) := do
  let resp ← apiRequest none (.getAgentConfig orgId)
  if resp.statusCode ≠ 200 then return none
  match resp.data with
  | .agentConfig c => return some c.agentId
  | _ => .raise .attributeError

/-- `delete_agent_config`. -/
def deleteAgentConfig (orgId : String) : Handling ApiResult :=
  apiRequest none (.deleteAgentConfig orgId)

/-- `add_agent` behind its gate. -/
def addAgentBody (adminPassword : Bool) (orgHandle : String) (form : Form) : Handling Page := do
  let user ← session
  let displayName ← form.item "display_name"
  let description := (form.get "description").getD ""
  let geminiApiKey := (form.get "gemini_api_key").getD ""
  let customPrompt := (form.get "custom_prompt").getD ""
  let back : Page := .redirect "agents.list_agents" (some orgHandle)
  let agentToken ← getAgentManagementToken
  if agentToken = "" then
    flash "error" "Failed to get agent management token. Check IS configuration."
    return back
  let result ← callIs (.bearer agentToken)
    (.createAgent displayName description (user.sub ++ "@" ++ user.orgHandle))
  if result.statusCode ∉ [200, 201] then
    flash "error" "Failed to create agent in IS."
    return back
  let (agentId, agentSecret) ← agentCredentials result.data
  let rootToken ← getRootRoleManagementToken
  if rootToken ≠ "" ∧ agentId ≠ "" then
    assignRolesToUser adminPassword rootToken agentId false [teamspaceUser]
  let saveResult ← saveAgentConfig {
    org := user.orgId
    agentId
    agentSecret
    displayName
    description := some description
    geminiApiKey := some geminiApiKey
    orgClientId := none
    orgClientSecret := none
    customPrompt := some customPrompt }
  if saveResult.statusCode ∈ [200, 201] then
    flash "success" ("Agent '" ++ displayName ++ "' deployed successfully.")
    setHasAgentConfig true
  else flash "warning" "Agent created in IS but config save failed."
  return back

/-- `add_agent`. -/
def addAgent (adminPassword : Bool) (orgHandle : String) (form : Form) : Handling Page :=
  behind (agentsGate orgHandle) (addAgentBody adminPassword orgHandle form)

/-- `delete_agent` behind its gate. -/
def deleteAgentBody (orgHandle : String) : Handling Page := do
  let user ← session
  let back : Page := .redirect "agents.list_agents" (some orgHandle)
  match ← configuredAgentId user.orgId with
  | none =>
    flash "error" "No agent configured."
    return back
  | some agentId =>
    let agentToken ← getAgentManagementToken
    if agentToken ≠ "" ∧ agentId ≠ "" then
      let result ← callIs (.bearer agentToken) (.deleteAgent agentId)
      if result.statusCode ∉ [204, 404] then
        flash "warning" "Failed to delete agent from IS."
    let _ ← deleteAgentConfig user.orgId
    setHasAgentConfig false
    flash "success" "Agent removed."
    return back

/-- `delete_agent`. -/
def deleteAgent (orgHandle : String) : Handling Page :=
  behind (agentsGate orgHandle) (deleteAgentBody orgHandle)

section

variable {P : PortalOp → Prop} {Q : PortalReq → Prop}

/-- Reading the credentials of an agent takes nothing. -/
theorem only_agentCredentials (data : IsData) : (agentCredentials data).Only P Q := by
  cases data <;> trivial

/-- The configured agent is one request, after the session is read. -/
theorem only_configuredAgentId {orgId : String} (hs : P .session)
    (hq : ∀ token, Q (.api token (.getAgentConfig orgId))) : (configuredAgentId orgId).Only P Q := by
  refine .bind (only_apiRequest hs hq) fun resp => Program.only_ite (fun _ => trivial) fun _ => ?_
  split <;> trivial

end

end Teamspace.Webapp
