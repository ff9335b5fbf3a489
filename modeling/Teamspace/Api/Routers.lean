import Teamspace.Api.Models

/-!
# The routers of the Business API

The handlers of `api/routers/`, each as one transaction on the database: `get_db` rolls a session
back when its handler raises. FastAPI resolves the dependencies of a handler before it validates the
request body, and checks the result against the response model after the commit.
-/

namespace Teamspace.Api

open Teamspace.Py Teamspace.Common Teamspace.Lib

/-- What `get_current_user` makes of the verified claims of a token, if there is one. -/
def userOf (claims : Except AuthExn (Option Dict)) : Except AuthExn (Option UserInfo) := do
  match ← claims with
  | none => return none
  | some decoded => return some (← liftPy (UserInfo.ofClaims decoded))

/-- The verified claims of the token in an `Authorization` header, if there is one. -/
def tokenClaims {Key : Type} (A : UserAuth Key) (authorization : Option String) :
    Except AuthExn (Option Dict) :=
  match A.httpBearer authorization with
  | none => .ok none
  | some token => ((userClaims A token).map some).mapError userRefusal

/-- `get_current_user` makes its user of the verified claims. -/
theorem userOf_tokenClaims {Key : Type} (A : UserAuth Key) (authorization : Option String) :
    userOf (tokenClaims A authorization) = getCurrentUser A authorization := by
  unfold tokenClaims getCurrentUser
  cases A.httpBearer authorization with
  | none => rfl
  | some token =>
    change userOf (((userClaims A token).map some).mapError userRefusal) =
      (userClaims A token >>= fun decoded => liftPy (UserInfo.ofClaims decoded) >>= fun user =>
        pure (some user)).mapError userRefusal
    cases userClaims A token with
    | error e => rfl
    | ok decoded =>
      change (liftPy (UserInfo.ofClaims decoded) >>= fun user => pure (some user)) =
        (liftPy (UserInfo.ofClaims decoded) >>= fun user => pure (some user)).mapError userRefusal
      cases UserInfo.ofClaims decoded with
      | error e => rfl
      | ok user => rfl

/-- What a dependency raises. -/
def depends {α : Type} (e : Except AuthExn α) : Except ApiExn α := e.mapError .auth

/-- The user has the scope, or the agent's scope of that name. -/
def UserInfo.HasScope (user : UserInfo) (scope : String) : Prop :=
  scope ∈ user.scopes ∨ scope ++ "_agent" ∈ user.scopes

/-- A handler that asks for a scope runs for a user who has it. -/
theorem requireScope_ok {scope : String} {user : Except AuthExn (Option UserInfo)} {u : UserInfo}
    (h : depends (requireScope scope user) = .ok u) : user = .ok (some u) ∧ u.HasScope scope := by
  unfold depends at h
  match user with
  | .error e => cases h
  | .ok none => cases h
  | .ok (some v) =>
    change (if scope ∉ v.scopes ∧ scope ++ "_agent" ∉ v.scopes then _ else Except.ok v :
      Except AuthExn UserInfo).mapError ApiExn.auth = _ at h
    split at h
    · cases h
    · next hscope =>
      cases h
      exact ⟨rfl, not_and_or.1 hscope |>.imp not_not.1 not_not.1⟩

/-- The user who is required is the one that was found. -/
theorem requireCurrentUser_ok {user : Except AuthExn (Option UserInfo)} {u : UserInfo}
    (h : depends (requireCurrentUser user) = .ok u) : user = .ok (some u) := by
  match user with
  | .error e => cases h
  | .ok none => cases h
  | .ok (some v) =>
    cases h
    rfl

/-- `raise HTTPException(status_code, detail)`. -/
def raise {α : Type} (statusCode : Nat) (detail : String) : Except ApiExn α :=
  .error (.auth (.py (.httpException statusCode detail)))

/-- `if org != user.org: raise HTTPException(...)`. -/
def checkOrg (org : String) (user : UserInfo) : Except ApiExn Unit :=
  if .str org ≠ user.org then raise 403 "Forbidden: organization mismatch" else return ()

/-- A parsed request body, or the content of the answer to one that fails validation. -/
abbrev Parsed (α : Type) := Except Json α

/-- The request body, once it is needed. -/
def validated {α : Type} (data : Parsed α) : Except ApiExn α := data.mapError .requestValidation

/-- A handler, on the database. -/
abbrev Handler := Transaction ApiExn Database

variable (D : Driver)

/-! ## What the routers of tables with one row for an organization share -/

section

variable {ρ : Type} {key : ρ → String} (T : Part Database.rowsOf ρ key)

/-- The row of an organization, or `404`. -/
def ofOrg (org detail : String) : Handler ρ := do
  let isOrg ← liftM (D.equals (.str org))
  match ← T.first fun r => isOrg (T.owner r) with
  | some row => return row
  | none => liftM (raise 404 detail : Except ApiExn ρ)

/-- Assign to the row of an organization, or create it. -/
def upsert (org : String) (setattr : ρ → Except ApiExn ρ) (create : Except ApiExn ρ) :
    Handler ρ := do
  let isOrg ← liftM (D.equals (.str org))
  match ← T.first fun r => isOrg (T.owner r) with
  | some existing =>
    let row ← liftM (setattr existing)
    T.update row
  | none =>
    let row ← liftM create
    T.insert .database row

/-- Delete the row of an organization. -/
def deleteOfOrg (org : String) : Handler Unit := do
  let isOrg ← liftM (D.equals (.str org))
  T.deleteWhere fun r => isOrg (T.owner r)

variable {D T} {org detail : String} {isOrg : String → Bool} {db : Database}

/-- The row of an organization is read. -/
theorem ofOrg_found (h : D.equals (.str org) = .ok isOrg) {row : ρ}
    (hrow : (T.table db).first (fun r => isOrg (T.owner r)) = some row) :
    (ofOrg D T org detail).outcome db = (.ok row, db) := by
  unfold ofOrg Part.first
  rw [h, Transaction.outcome_ok_bind, Transaction.outcome_read_bind, hrow]
  rfl

/-- Without one there is a 404. -/
theorem ofOrg_missing (h : D.equals (.str org) = .ok isOrg)
    (hrow : (T.table db).first (fun r => isOrg (T.owner r)) = none) :
    (ofOrg D T org detail).outcome db = (raise 404 detail, db) := by
  unfold ofOrg Part.first
  rw [h, Transaction.outcome_ok_bind, Transaction.outcome_read_bind, hrow]
  rfl

end

/-! ## Meetings -/

section

variable (user : Except AuthExn (Option UserInfo)) (fresh : Fresh)

/-- `list_meetings`. -/
def listMeetings : Handler (List Meeting) := do
  let user ← liftM (depends (requireScope "list_meetings" user))
  let isOrg ← liftM (D.equals user.org)
  Meeting.table.all fun m => isOrg m.org

/-- `create_meeting`. -/
def createMeeting (data : Parsed MeetingCreate) : Handler Meeting := do
  let user ← liftM (depends (requireScope "create_meeting" user))
  let data ← liftM (validated data)
  let meeting ← liftM (Meeting.create D fresh data user)
  Meeting.table.insert .database meeting

/-- The query of `get_meeting`, `update_meeting` and `delete_meeting` and what is done with the
meeting that it finds. -/
def withMeeting {α : Type} (meetingId : String) (user : UserInfo) (act : Meeting → Handler α) :
    Handler α := do
  let isId ← liftM (D.equals (.str meetingId))
  let isOrg ← liftM (D.equals user.org)
  match ← Meeting.table.first fun m => isId m.id && isOrg m.org with
  | some meeting => act meeting
  | none => liftM (raise 404 "Meeting not found" : Except ApiExn α)

/-- `get_meeting`. -/
def getMeeting (meetingId : String) : Handler Meeting := do
  let user ← liftM (depends (requireScope "view_meeting" user))
  withMeeting D meetingId user fun meeting => pure meeting

/-- `update_meeting`. -/
def updateMeeting (meetingId : String) (data : Parsed MeetingCreate) : Handler Meeting := do
  let user ← liftM (depends (requireScope "update_meeting" user))
  let data ← liftM (validated data)
  withMeeting D meetingId user fun meeting => do
    let meeting ← liftM (Meeting.setattr D fresh data meeting)
    Meeting.table.update meeting

/-- `delete_meeting`. -/
def deleteMeeting (meetingId : String) : Handler Unit := do
  let user ← liftM (depends (requireScope "delete_meeting" user))
  withMeeting D meetingId user fun meeting =>
    Meeting.table.deleteWhere fun m => decide (m.id = meeting.id)

/-! ## Personalization -/

/-- `get_personalization`. -/
def getPersonalization (orgId : String) : Handler Personalization := do
  let user ← liftM (depends (requireCurrentUser user))
  liftM (checkOrg orgId user)
  ofOrg D Personalization.table orgId "No personalization found"

/-- `upsert_personalization`. -/
def upsertPersonalization (data : Parsed PersonalizationUpsert) : Handler Personalization := do
  let user ← liftM (depends (requireScope "create_basic_branding" user))
  let data ← liftM (validated data)
  liftM (checkOrg data.org user)
  upsert D Personalization.table data.org (Personalization.setattr D fresh data)
    (Personalization.create D fresh data)

/-- `delete_personalization_by_org`. -/
def deletePersonalizationByOrg (orgId : String) : Handler Unit := do
  let user ← liftM (depends (requireScope "delete_branding" user))
  liftM (checkOrg orgId user)
  deleteOfOrg D Personalization.table orgId

/-! ## Agent configurations -/

/-- Who may read an agent configuration: a service, whose token is in its own header, or else a user
of the organization with the scope. -/
def agentConfigAccess (orgId : String) (user : Option UserInfo)
    (service : Option (Except AuthExn Dict)) : Except ApiExn Unit :=
  match service, user with
  | some serviceClaims, _ => do
    let _ ← depends serviceClaims
    return ()
  | none, some user =>
    if "view_agent_config" ∉ user.scopes ∧ "view_agent_config_agent" ∉ user.scopes then
      raise 403 "Missing required scope: view_agent_config or view_agent_config_agent"
    else checkOrg orgId user
  | none, none =>
    raise 401 ("Authentication required: provide an X-Service-Authorization service " ++
      "token or a user JWT with the view_agent_config scope")

/-- `get_agent_config`. `service` is what `require_service_auth` says of the service header. -/
def getAgentConfig (orgId : String) (service : Option (Except AuthExn Dict)) :
    Handler AgentConfig := do
  let user ← liftM (depends user)
  liftM (agentConfigAccess orgId user service)
  ofOrg D AgentConfig.table orgId "No agent config found"

/-- `create_agent_config`. -/
def createAgentConfig (data : Parsed AgentConfigCreate) : Handler AgentConfig := do
  let user ← liftM (depends (requireScope "manage_agent_config" user))
  let data ← liftM (validated data)
  liftM (checkOrg data.org user)
  upsert D AgentConfig.table data.org (AgentConfig.setattr D fresh data)
    (AgentConfig.create D fresh data)

/-- `delete_agent_config`. -/
def deleteAgentConfig (orgId : String) : Handler Unit := do
  let user ← liftM (depends (requireScope "manage_agent_config" user))
  liftM (checkOrg orgId user)
  deleteOfOrg D AgentConfig.table orgId

/-! ## Plans -/

/-- `get_plan`, which asks for no user. -/
def getPlan (orgId : String) : Handler OrganizationPlan :=
  ofOrg D OrganizationPlan.table orgId "No plan found"

/-- The attribute `org` of what `get_current_user` gave. -/
def currentUser : Except ApiExn UserInfo := do
  match ← depends user with
  | none => .error (.auth (.py .attributeError))
  | some user => return user

/-- The user whose organization is read is the one that was found. -/
theorem currentUser_ok {user : Except AuthExn (Option UserInfo)} {u : UserInfo}
    (h : currentUser user = .ok u) : user = .ok (some u) := by
  match user with
  | .error e => cases h
  | .ok none => cases h
  | .ok (some v) =>
    cases h
    rfl

/-- `upsert_plan`. Its user may be missing, and a missing user has no `org`. -/
def upsertPlan (data : Parsed OrganizationPlanUpsert) : Handler OrganizationPlan := do
  let _ ← liftM (depends user)
  let data ← liftM (validated data)
  let user ← liftM (currentUser user)
  liftM (checkOrg data.org user)
  upsert D OrganizationPlan.table data.org (OrganizationPlan.setattr D fresh data)
    (OrganizationPlan.create D fresh data)

end

/-! ## Responses -/

/-- `MeetingResponse`. -/
structure MeetingResponse where
  id : String
  org : String
  createdAt : DateTime
  topic : String
  date : String
  startTime : String
  duration : String
  timeZone : String
  userId : String
  emailAddress : Option String
  actorUserId : Option String
  deriving DecidableEq, Repr

/-- `AgentConfigResponse`. -/
structure AgentConfigResponse extends AgentConfigCreate where
  createdAt : DateTime
  deriving DecidableEq, Repr

/-- The content of a response. -/
inductive Body
  | empty
  | meeting (m : MeetingResponse)
  | meetings (l : List MeetingResponse)
  | agentConfig (c : AgentConfigResponse)
  | personalization (p : PersonalizationUpsert)
  | organizationPlan (p : OrganizationPlanUpsert)
  | detail (text : String)
  | validation (content : Json)
  deriving DecidableEq, Repr

/-- A response. -/
structure Response where
  statusCode : Nat
  body : Body
  deriving DecidableEq, Repr

/-- The time of creation, which a response must have. -/
def required (createdAt : Option DateTime) : Except ApiExn DateTime :=
  match createdAt with
  | some t => .ok t
  | none => .error .responseValidation

/-- The response model of a meeting. -/
def MeetingResponse.ofRow (m : Meeting) : Except ApiExn MeetingResponse := do
  return { m with createdAt := ← required m.createdAt }

/-- The response model of an agent configuration. -/
def AgentConfigResponse.ofRow (c : AgentConfig) : Except ApiExn AgentConfigResponse := do
  return { c with createdAt := ← required c.createdAt }

/-- The answer to a request that raises. What no handler of `api/main.py` expects is an internal
error. -/
def refusal : ApiExn → Response
  | .auth (.py (.httpException statusCode detail)) => ⟨statusCode, .detail detail⟩
  | .requestValidation content => ⟨422, .validation content⟩
  | _ => ⟨500, .detail "Internal Server Error"⟩

/-- Answer with the result of a handler, and leave the database that it leaves. -/
def respond {α : Type} (statusCode : Nat) (render : α → Except ApiExn Body) (handler : Handler α)
    (db : Database) : Response × Database :=
  ((match (handler.outcome db).1 >>= render with
    | .ok body => ⟨statusCode, body⟩
    | .error e => refusal e), (handler.outcome db).2)

section
variable {α : Type} {statusCode : Nat} {render : α → Except ApiExn Body} {handler : Handler α}
  {db db' : Database}

/-- An exception is answered with its refusal. -/
theorem respond_error {e : ApiExn} (h : handler.outcome db = (.error e, db')) :
    respond statusCode render handler db = (refusal e, db') := by
  rw [respond, h]
  rfl

/-- A result is answered with its body. -/
theorem respond_ok {a : α} {body : Body} (h : handler.outcome db = (.ok a, db'))
    (hrender : render a = .ok body) :
    respond statusCode render handler db = (⟨statusCode, body⟩, db') := by
  have hbody : (handler.outcome db).1 >>= render = .ok body := by
    rw [h]
    exact hrender
  rw [respond, hbody, h]

/-- A result that cannot be rendered is refused. -/
theorem respond_unrendered {a : α} {e : ApiExn} (h : handler.outcome db = (.ok a, db'))
    (hrender : render a = .error e) : respond statusCode render handler db = (refusal e, db') := by
  have hbody : (handler.outcome db).1 >>= render = .error e := by
    rw [h]
    exact hrender
  rw [respond, hbody, h]

end

/-! ## Requests -/

/-- A request to the routers. -/
inductive Request
  | listMeetings
  | createMeeting (data : Parsed MeetingCreate)
  | getMeeting (meetingId : String)
  | updateMeeting (meetingId : String) (data : Parsed MeetingCreate)
  | deleteMeeting (meetingId : String)
  | getPersonalization (orgId : String)
  | upsertPersonalization (data : Parsed PersonalizationUpsert)
  | deletePersonalizationByOrg (orgId : String)
  | getAgentConfig (orgId : String)
  | createAgentConfig (data : Parsed AgentConfigCreate)
  | deleteAgentConfig (orgId : String)
  | getPlan (orgId : String)
  | upsertPlan (data : Parsed OrganizationPlanUpsert)

/-- A request as it arrives: with the verified claims of the user's token, what the service header
says, and what the service draws while it answers. -/
structure Call where
  claims : Except AuthExn (Option Dict)
  service : Option (Except AuthExn Dict)
  request : Request
  fresh : Fresh

/-- The user of a call. -/
def Call.user (c : Call) : Except AuthExn (Option UserInfo) := userOf c.claims

/-- The response of one meeting. -/
def meetingBody (m : Meeting) : Except ApiExn Body := (MeetingResponse.ofRow m).map .meeting

/-- The response of a list of meetings. -/
def meetingsBody (l : List Meeting) : Except ApiExn Body :=
  (l.mapM MeetingResponse.ofRow).map .meetings

/-- The response of an agent configuration. -/
def agentConfigBody (c : AgentConfig) : Except ApiExn Body :=
  (AgentConfigResponse.ofRow c).map .agentConfig

/-- The response of a personalization. -/
def personalizationBody (p : Personalization) : Except ApiExn Body :=
  .ok (.personalization p.toPersonalizationUpsert)

/-- The response of a plan. -/
def planBody (p : OrganizationPlan) : Except ApiExn Body :=
  .ok (.organizationPlan p.toOrganizationPlanUpsert)

/-- A response without content. -/
def noBody (_ : Unit) : Except ApiExn Body := .ok .empty

/-- Answer a call. -/
def handle (c : Call) : Database → Response × Database :=
  match c.request with
  | .listMeetings => respond 200 meetingsBody (listMeetings D c.user)
  | .createMeeting data => respond 201 meetingBody (createMeeting D c.user c.fresh data)
  | .getMeeting meetingId => respond 200 meetingBody (getMeeting D c.user meetingId)
  | .updateMeeting meetingId data =>
    respond 200 meetingBody (updateMeeting D c.user c.fresh meetingId data)
  | .deleteMeeting meetingId => respond 204 noBody (deleteMeeting D c.user meetingId)
  | .getPersonalization orgId => respond 200 personalizationBody (getPersonalization D c.user orgId)
  | .upsertPersonalization data =>
    respond 200 personalizationBody (upsertPersonalization D c.user c.fresh data)
  | .deletePersonalizationByOrg orgId =>
    respond 204 noBody (deletePersonalizationByOrg D c.user orgId)
  | .getAgentConfig orgId => respond 200 agentConfigBody (getAgentConfig D c.user orgId c.service)
  | .createAgentConfig data =>
    respond 201 agentConfigBody (createAgentConfig D c.user c.fresh data)
  | .deleteAgentConfig orgId => respond 204 noBody (deleteAgentConfig D c.user orgId)
  | .getPlan orgId => respond 200 planBody (getPlan D orgId)
  | .upsertPlan data => respond 200 planBody (upsertPlan D c.user c.fresh data)

end Teamspace.Api
