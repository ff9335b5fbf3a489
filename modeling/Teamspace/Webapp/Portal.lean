import Teamspace.Api.Writes
import Teamspace.Lib.Environment
import Teamspace.Webapp.Session

/-!
# The portal and what it calls

The handlers of the portal (`webapp/blueprints/`) as programs: they read the session of the browser
and cache in it, flash messages, and call WSO2 IS (`webapp/is_client.py`) and the Business API
(`webapp/api_proxy.py`). A call to the Business API is answered by the routers of `Teamspace.Api`;
what IS keeps and answers is a parameter of the environment. Debug data that the pages show is left
out.
-/

namespace Teamspace.Webapp

open Teamspace.Py Teamspace.Common Teamspace.Lib Teamspace.Api

/-! ## Sessions -/

/-- `session["user"]`. -/
structure PortalUser where
  sub : String
  orgId : String
  orgName : String
  orgHandle : String
  deriving DecidableEq, Repr

/-- What the handlers read of a session after a login, and what they cache in it. -/
structure PortalSession where
  user : Option PortalUser
  accessToken : Option String
  userRoles : List String
  isAdmin : Bool
  orgPlan : Option String
  hasAgentConfig : Option Bool
  orgBranding : Option PersonalizationUpsert
  deriving DecidableEq, Repr

namespace PortalSession

/-- `session.get("user", {}).get("org_id", "")`. -/
def orgId (s : PortalSession) : String := (s.user.map PortalUser.orgId).getD ""

/-- `session.get("user", {}).get("org_handle", "")`. -/
def orgHandle (s : PortalSession) : String := (s.user.map PortalUser.orgHandle).getD ""

/-- `session.get("user", {}).get("org_name", "")`. -/
def orgName (s : PortalSession) : String := (s.user.map PortalUser.orgName).getD ""

/-- `session.get("user", {}).get("sub", "")`. -/
def sub (s : PortalSession) : String := (s.user.map PortalUser.sub).getD ""

end PortalSession

/-- `TEAMSPACE_USER`. -/
def teamspaceUser : String := "teamspace-user"
/-- `BASIC_BRANDING_EDITOR`. -/
def basicBrandingEditor : String := "basic-branding-editor"
/-- `ADVANCED_BRANDING_EDITOR`. -/
def advancedBrandingEditor : String := "advanced-branding-editor"
/-- `IDP_MANAGER`. -/
def idpManager : String := "idp-manager"

/-- A flashed message. -/
structure Flash where
  type : String
  message : String
  deriving DecidableEq, Repr

/-- What a handler answers with. -/
inductive Page
  /-- `redirect(url_for(endpoint, org_handle=org_handle))`. -/
  | redirect (endpoint : String) (orgHandle : Option String)
  | template (name : String)
  /-- `admin/access_denied.html`. -/
  | accessDenied (title description requiredRole : String)
  deriving DecidableEq, Repr

/-- What ends a request without a page. -/
inductive PortalExn
  | abort (statusCode : Nat)
  /-- `requests.RequestException`. -/
  | request
  | keyError
  | typeError
  | attributeError
  deriving DecidableEq, Repr

/-! ## WSO2 IS -/

/-- One way to sign in. -/
structure AuthOption where
  idp : String
  authenticator : String
  deriving DecidableEq, Repr

/-- A step of a login flow. -/
structure AuthStep where
  id : Nat
  options : List AuthOption
  deriving DecidableEq, Repr

/-- An `authenticationSequence`. -/
structure AuthSequence where
  type : String
  steps : List AuthStep
  deriving DecidableEq, Repr

/-- The form of a new IdP. -/
structure IdpBody where
  name : String
  properties : List (String × String)
  groupAttribute : String
  orgHandle : String
  jitEnabled : Bool
  deriving DecidableEq, Repr

/-- The calls to IS. `org` says whether the path has the `/o` of an organization. -/
inductive IsCall
  /-- `GET /scim2/v2/Roles?filter=displayName+eq+{name}`. -/
  | findRoles (org : Bool) (name : String)
  /-- `POST /o/scim2/v2/Roles`. -/
  | createRole (name orgId : String)
  /-- `GET /o/scim2/v2/Roles`. -/
  | listRoles
  /-- `GET /o/scim2/v2/Roles/{role_id}`. -/
  | getRole (roleId : String)
  /-- `PATCH /o/scim2/v2/Roles/{role_id}`, of its groups. -/
  | replaceRoleGroups (roleId : String) (groups : List String)
  /-- `PATCH /scim2/v2/Roles/{role_id}`, with one more user. -/
  | addRoleUser (org : Bool) (roleId userId : String)
  /-- `PATCH /api/server/v1/applications/share`. -/
  | shareRoles (orgId : String) (roles : List String)
  /-- `POST /o/api/server/v1/identity-providers`. -/
  | createIdp (body : IdpBody)
  /-- `GET /o/api/server/v1/identity-providers/{idp_id}`. -/
  | getIdp (idpId : String)
  /-- `DELETE /o/api/server/v1/identity-providers/{idp_id}`. -/
  | deleteIdp (idpId : String)
  /-- `PUT /o/api/server/v1/identity-providers/{idp_id}/provisioning/jit`. -/
  | putJit (idpId : String) (jitEnabled : Bool)
  /-- `PUT /o/api/server/v1/identity-providers/{idp_id}/groups`. -/
  | putIdpGroups (idpId : String) (names : List String)
  /-- `GET /o/api/server/v1/applications`. -/
  | listApplications
  /-- `PATCH /o/api/server/v1/applications/{app_id}`. -/
  | patchAuthSequence (appId : String) (sequence : AuthSequence)
  /-- `PATCH /o/api/server/v1/applications/{app_id}`, with a body that is passed on. -/
  | patchApplication (appId : String) (body : Json)
  /-- `POST /o/scim2/Agents`. -/
  | createAgent (displayName description owner : String)
  /-- `DELETE /o/scim2/Agents/{agent_id}`. -/
  | deleteAgent (agentId : String)
  /-- `POST /api/server/v1/organizations`. -/
  | createOrganization (name orgHandle : String)
  /-- `GET /api/server/v1/organizations?limit={limit}&recursive=false`. -/
  | listOrganizations (limit : Nat)
  /-- `POST /o/scim2/Users`. -/
  | createUser (userName password givenName familyName : String)
  /-- `PUT /o/api/server/v1/branding-preference`. -/
  | putBranding (data : PersonalizationUpsert) (orgName : String)
  /-- `POST /o/api/server/v1/branding-preference`. -/
  | postBranding (data : PersonalizationUpsert) (orgName : String)
  /-- `DELETE /o/api/server/v1/branding-preference`. -/
  | deleteBranding (orgId : String)
  /-- `GET /o/api/server/v1/branding-preference/resolve`. -/
  | resolveBranding (orgId : String)
  deriving DecidableEq, Repr

/-- How a call to IS is authorized. -/
inductive IsAuth
  | bearer (token : String)
  /-- The root administrator, by password. -/
  | basic
  | none
  deriving DecidableEq, Repr

/-- A role, as a search of roles gives it. -/
structure ScimRole where
  id : String
  audienceType : Option String
  deriving DecidableEq, Repr

/-- A group of an IdP. -/
structure IdpGroup where
  name : Option String
  id : Option String
  deriving DecidableEq, Repr

/-- An application. -/
structure Application where
  name : Option String
  id : Option String
  deriving DecidableEq, Repr

/-- An organization. -/
structure Organization where
  orgHandle : Option String
  id : Option String
  deriving DecidableEq, Repr

/-- The content of a reply of IS, by what the handlers look for in it. -/
inductive IsData
  | roles (resources : List ScimRole)
  | role (groups : List String)
  | idp (id : Option String) (groups : List IdpGroup)
  | idpGroups (groups : List IdpGroup)
  | applications (applications : List Application)
  | agent (id password : Option String)
  | organization (id : String) (orgHandle : Option String)
  | organizations (organizations : List Organization)
  | user (id : Option String)
  /-- The branding of an organization. -/
  | preference (data : Json)
  /-- Nothing that a handler reads. -/
  | other
  deriving DecidableEq, Repr

/-- `ISResponse`. -/
structure IsResponse where
  statusCode : Nat
  data : IsData
  deriving DecidableEq, Repr

/-! ## Programs -/

/-- What `_request_token` asks for. -/
inductive Grant
  | clientCredentials
  | roleManagement
  | agentManagement
  | organizationSwitch (orgId token : String)
  deriving DecidableEq, Repr

/-- `ApiResult`. -/
structure ApiResult where
  statusCode : Nat
  data : Body
  deriving DecidableEq, Repr

/-- What a handler does by itself. -/
inductive PortalOp
  | session
  | flash (flash : Flash)
  | setOrgPlan (plan : String)
  | setHasAgentConfig (b : Bool)
  | setOrgBranding (branding : Option PersonalizationUpsert)

/-- What it gets. -/
abbrev PortalOp.Ans : PortalOp → Type
  | .session => PortalSession
  | _ => Unit

/-- What a handler asks others. -/
inductive PortalReq
  | token (grant : Grant)
  | is (auth : IsAuth) (call : IsCall)
  | api (token : String) (request : Api.Request)

/-- What it is answered. -/
inductive PortalRep
  /-- An access token, or an empty text. -/
  | token (token : String)
  | is (response : IsResponse)
  | api (result : ApiResult)
  /-- No response. -/
  | failed
  deriving DecidableEq, Repr

/-- The interface of the handlers. -/
abbrev portal : Interface where
  Op := PortalOp
  Ans := PortalOp.Ans
  Req := PortalReq
  Rep := PortalRep
  Exn := PortalExn

/-- A part of a handler. -/
abbrev Handling (α : Type) := Program portal α

namespace Handling

/-- `session`. -/
def session : Handling PortalSession := .op .session .ret

/-- `flash(...)`. -/
def flash (type message : String) : Handling Unit := .op (.flash ⟨type, message⟩) .ret

/-- `session["org_plan"] = plan`. -/
def setOrgPlan (plan : String) : Handling Unit := .op (.setOrgPlan plan) .ret

/-- `session["has_agent_config"] = b`. -/
def setHasAgentConfig (b : Bool) : Handling Unit := .op (.setHasAgentConfig b) .ret

/-- `session["org_branding"] = data`, or its removal. -/
def setOrgBranding (branding : Option PersonalizationUpsert) : Handling Unit :=
  .op (.setOrgBranding branding) .ret

/-- `abort(status_code)`. -/
def abort {α : Type} (statusCode : Nat) : Handling α := .raise (.abort statusCode)

/-- `_request_token`, which never raises. -/
def requestToken (grant : Grant) : Handling String :=
  .await (.token grant) fun
    | .token token => .ret token
    | _ => .ret ""

/-- `ISClient.call`. -/
def callIs (auth : IsAuth) (call : IsCall) : Handling IsResponse :=
  .await (.is auth call) fun
    | .is response => .ret response
    | _ => .raise .request

/-- What `api_request` makes of a missing response. -/
def offline : ApiResult := ⟨503, .detail "Business API offline"⟩

/-- `api_request` and `_parse_response`, with the token of the session if there is no other. -/
def apiRequest (token : Option String) (request : Api.Request) : Handling ApiResult := do
  let s ← session
  let token := (token.filter (· ≠ "")).getD (s.accessToken.getD "")
  .await (.api token request) fun
    | .api result => .ret result
    | _ => .ret offline

/-- `session["access_token"]`. -/
def accessToken : Handling String := do
  match (← session).accessToken with
  | some token => return token
  | none => .raise .keyError

/-- `get_client_credentials_token`. -/
def getClientCredentialsToken : Handling String := requestToken .clientCredentials

/-- `get_root_role_management_token`. -/
def getRootRoleManagementToken : Handling String := requestToken .roleManagement

/-- `get_agent_management_token`. -/
def getAgentManagementToken : Handling String := requestToken .agentManagement

/-- `switch_org_token`. -/
def switchOrgToken (orgId token : String) : Handling String :=
  requestToken (.organizationSwitch orgId token)

end Handling

open Handling

/-! ## Forms -/

/-- `request.form`: the fields in the order of the request. -/
abbrev Form := List (String × String)

namespace Form

/-- `form.get(k)`. -/
def get (form : Form) (k : String) : Option String := form.lookup k

/-- `form[k]`. -/
def item (form : Form) (k : String) : Handling String :=
  match form.get k with
  | some v => .ret v
  | none => abort 400

/-- `form.getlist(k)`. -/
def getlist (form : Form) (k : String) : List String :=
  (form.filter fun field => field.1 = k).map Prod.snd

end Form

/-! ## Decorators -/

/-- `login_required`, for a route of an organization: the answer instead of the handler's. -/
def loginRequired (orgHandle : String) : Handling (Option Page) := do
  let s ← session
  match s.user with
  | none =>
    return some (.redirect "main.login" (if orgHandle = "" then none else some orgHandle))
  | some user =>
    if orgHandle ≠ "" ∧ user.orgHandle ≠ "" ∧ orgHandle ≠ user.orgHandle then abort 403
    else return none

/-- `admin_required`. -/
def adminRequired : Handling Unit := do
  if (← session).isAdmin then return () else abort 403

/-- `role_required(*roles)`. -/
def roleRequired (roles : List String) : Handling Unit := do
  let s ← session
  if roles.any (· ∈ s.userRoles) then return () else abort 403

/-! ## Plans -/

/-- `DEFAULT_PLAN`. -/
def defaultPlan : String := "basic"

/-- `resp.json().get("plan") or DEFAULT_PLAN`, or `None` for what is no JSON. -/
def planOf : Body → Handling (Option String)
  | .organizationPlan p => .ret (some (if p.plan = "" then defaultPlan else p.plan))
  | .empty => .ret none
  | .meetings _ => .raise .attributeError
  | .meeting _ | .agentConfig _ | .personalization _ | .detail _ => .ret (some defaultPlan)
  | .validation content =>
    match content with
    | .obj fields =>
      match (Dict.get fields "plan").getD .null with
      | .str plan => .ret (some (if plan = "" then defaultPlan else plan))
      | _ => .ret (some defaultPlan)
    | _ => .raise .attributeError

/-- `resolve_plan_for_gating`. -/
def resolvePlanForGating (orgId : String) : Handling (Option String) := do
  if orgId = "" then return none
  let resp ← apiRequest none (.getPlan orgId)
  if resp.statusCode = 200 then planOf resp.data
  else if resp.statusCode = 404 then return some defaultPlan
  else return none

/-- `save_organization_plan`. -/
def saveOrganizationPlan (orgId planId : String) (token : String) : Handling ApiResult :=
  apiRequest (some token) (.upsertPlan (.ok ⟨orgId, planId⟩))

/-! ## Footprints -/

section

variable {P : PortalOp → Prop} {Q : PortalReq → Prop}

/-- Reading the session is one operation. -/
theorem only_session (h : P .session) : session.Only P Q := ⟨h, fun _ => trivial⟩

/-- So is reading the access token. -/
theorem only_accessToken (h : P .session) : accessToken.Only P Q := by
  refine .bind (only_session h) fun s => ?_
  cases s.accessToken <;> trivial

/-- A field of the form takes nothing. -/
theorem only_item {form : Form} {k : String} : (form.item k).Only P Q := by
  unfold Form.item
  cases form.get k <;> trivial

/-- A message is one operation. -/
theorem only_flash {type message : String} (h : P (.flash ⟨type, message⟩)) :
    (flash type message).Only P Q := ⟨h, fun _ => trivial⟩

/-- So is the plan that is set. -/
theorem only_setOrgPlan {plan : String} (h : P (.setOrgPlan plan)) : (setOrgPlan plan).Only P Q :=
  ⟨h, fun _ => trivial⟩

/-- A token is one request. -/
theorem only_requestToken {grant : Grant} (h : Q (.token grant)) :
    (requestToken grant).Only P Q := by
  refine ⟨h, fun r => ?_⟩
  cases r <;> trivial

/-- A call of IS is one request. -/
theorem only_callIs {auth : IsAuth} {call : IsCall} (h : Q (.is auth call)) :
    (callIs auth call).Only P Q := by
  refine ⟨h, fun r => ?_⟩
  cases r <;> trivial

/-- A call of the Business API is one request, after the session is read. -/
theorem only_apiRequest {token : Option String} {request : Api.Request} (hs : P .session)
    (h : ∀ token, Q (.api token request)) : (apiRequest token request).Only P Q := by
  refine ⟨hs, fun s => ⟨h _, fun r => ?_⟩⟩
  cases r <;> trivial

/-- Reading a plan takes nothing. -/
theorem only_planOf (body : Body) : (planOf body).Only P Q := by
  cases body with
  | validation content =>
    cases content with
    | obj fields =>
      unfold planOf
      dsimp only
      split <;> trivial
    | _ => trivial
  | _ => trivial

/-- The check for a login reads the session. -/
theorem only_loginRequired {orgHandle : String} (h : P .session) :
    (loginRequired orgHandle).Only P Q := by
  refine .bind (only_session h) fun s => ?_
  cases s.user with
  | none => trivial
  | some user => exact Program.only_ite (fun _ => trivial) fun _ => trivial

/-- So does that for an administrator. -/
theorem only_adminRequired (h : P .session) : adminRequired.Only P Q :=
  .bind (only_session h) fun _ => Program.only_ite (fun _ => trivial) fun _ => trivial

/-- So does that for a role. -/
theorem only_roleRequired {roles : List String} (h : P .session) : (roleRequired roles).Only P Q :=
  .bind (only_session h) fun _ => Program.only_ite (fun _ => trivial) fun _ => trivial

end

/-! ## The environment -/

/-- The session of a browser, what has been flashed (newest first), the database of the Business
API, and what IS keeps. -/
structure PortalWorld (ι : Type) where
  session : PortalSession
  flashes : List Flash
  db : Database
  is : ι

namespace PortalWorld

variable {ι : Type}

/-- What an operation does. -/
def exec : (o : PortalOp) → PortalWorld ι → o.Ans × PortalWorld ι
  | .session, w => (w.session, w)
  | .flash f, w => ((), { w with flashes := f :: w.flashes })
  | .setOrgPlan plan, w => ((), { w with session := { w.session with orgPlan := some plan } })
  | .setHasAgentConfig b, w =>
    ((), { w with session := { w.session with hasAgentConfig := some b } })
  | .setOrgBranding branding, w =>
    ((), { w with session := { w.session with orgBranding := branding } })

end PortalWorld

/-- How the Business API answers a request: with the response of its routers, whatever the token
says if there is a token that verifies, or with an error, before or after the routers have done
their work. -/
inductive ApiAnswers (D : Driver) (request : Api.Request) (db : Database) :
    ApiResult → Database → Prop
  | answered (claims : Option Dict) (fresh : Fresh) :
      ApiAnswers D request db
        ⟨(handle D ⟨.ok claims, none, request, fresh⟩ db).1.statusCode,
          (handle D ⟨.ok claims, none, request, fresh⟩ db).1.body⟩
        (handle D ⟨.ok claims, none, request, fresh⟩ db).2
  | unavailable (result : ApiResult) : 400 ≤ result.statusCode → ApiAnswers D request db result db
  | lost (result : ApiResult) (claims : Option Dict) (fresh : Fresh) :
      400 ≤ result.statusCode →
      ApiAnswers D request db result (handle D ⟨.ok claims, none, request, fresh⟩ db).2

/-- What IS may answer to a call in a state, or `none` for no response, and the state after it. -/
abbrev IsAnswers (ι : Type) := IsAuth → IsCall → ι → Option IsResponse → ι → Prop

/-- How a request may be answered. -/
inductive PortalAnswers {ι : Type} (D : Driver) (isAnswers : IsAnswers ι) :
    PortalReq → PortalWorld ι → PortalRep → PortalWorld ι → Prop
  | token (grant : Grant) (w : PortalWorld ι) (token : String) :
      PortalAnswers D isAnswers (.token grant) w (.token token) w
  | is {auth : IsAuth} {call : IsCall} {w : PortalWorld ι} {r : IsResponse} {s : ι} :
      isAnswers auth call w.is (some r) s →
      PortalAnswers D isAnswers (.is auth call) w (.is r) { w with is := s }
  | isFailed {auth : IsAuth} {call : IsCall} {w : PortalWorld ι} {s : ι} :
      isAnswers auth call w.is none s →
      PortalAnswers D isAnswers (.is auth call) w .failed { w with is := s }
  | api {token : String} {request : Api.Request} {w : PortalWorld ι} {result : ApiResult}
      {db : Database} : ApiAnswers D request w.db result db →
      PortalAnswers D isAnswers (.api token request) w (.api result) { w with db := db }

/-- The environment of the handlers. -/
def portalEnv {ι : Type} (D : Driver) (isAnswers : IsAnswers ι) :
    Environment portal (PortalWorld ι) where
  exec := PortalWorld.exec
  answers := PortalAnswers D isAnswers

section

variable {ι : Type} {D : Driver} {isAnswers : IsAnswers ι} {w : PortalWorld ι}

/-- How a call to IS ends. -/
theorem callIs_ends {auth : IsAuth} {call : IsCall}
    {Q : Except PortalExn IsResponse → PortalWorld ι → Prop}
    (hok : ∀ r s, isAnswers auth call w.is (some r) s → Q (.ok r) { w with is := s })
    (hfailed : ∀ s, isAnswers auth call w.is none s → Q (.error .request) { w with is := s }) :
    (portalEnv D isAnswers).Ends (callIs auth call) w Q := by
  intro r u ha
  cases ha with
  | is h => exact hok _ _ h
  | isFailed h => exact hfailed _ h

/-- A call to IS, and what follows a response. -/
theorem callIs_then {α : Type} {auth : IsAuth} {call : IsCall} {f : IsResponse → Handling α}
    {Q : Except PortalExn α → PortalWorld ι → Prop}
    (hok : ∀ r s, isAnswers auth call w.is (some r) s →
      (portalEnv D isAnswers).Ends (f r) { w with is := s } Q)
    (hfailed : ∀ s, isAnswers auth call w.is none s → Q (.error .request) { w with is := s }) :
    (portalEnv D isAnswers).Ends (callIs auth call >>= f) w Q :=
  .bind (callIs_ends hok hfailed)

/-- A request for a token, and what follows it. -/
theorem requestToken_then {α : Type} {grant : Grant} {f : String → Handling α}
    {Q : Except PortalExn α → PortalWorld ι → Prop}
    (h : ∀ token, (portalEnv D isAnswers).Ends (f token) w Q) :
    (portalEnv D isAnswers).Ends (requestToken grant >>= f) w Q := by
  intro r u ha
  cases ha with
  | token => exact h _

/-- A request to the Business API, and what follows it. -/
theorem apiRequest_then {α : Type} {token : Option String} {request : Api.Request}
    {f : ApiResult → Handling α} {Q : Except PortalExn α → PortalWorld ι → Prop}
    (h : ∀ result db, ApiAnswers D request w.db result db →
      (portalEnv D isAnswers).Ends (f result) { w with db := db } Q) :
    (portalEnv D isAnswers).Ends (apiRequest token request >>= f) w Q := by
  intro r u ha
  cases ha with
  | api ha => exact h _ _ ha

/-- A request that only reads leaves the database. -/
theorem ApiAnswers.same {request : Api.Request} (h : request.Unseen id) {db db' : Database}
    {result : ApiResult} (ha : ApiAnswers D request db result db') : db' = db := by
  cases ha with
  | answered | lost => exact handle_keeps (q := id) _ db h
  | unavailable => rfl

/-- What makes no call that changes IS leaves it. -/
theorem ends_leaving_is {α : Type} {s : ι} {Q : PortalReq → Prop} {p : Handling α}
    (hp : p.Only (fun _ => True) Q) (hw : w.is = s)
    (hQ : ∀ auth call r t, Q (.is auth call) → isAnswers auth call s r t → t = s) :
    (portalEnv D isAnswers).Ends p w fun _ u => u.is = s := by
  refine Environment.Ends.only (J := fun u : PortalWorld ι => u.is = s) hp hw ?_ ?_
  · intro o u _ hu
    cases o <;> exact hu
  · intro q u r t hq hu ha
    cases ha with
    | token => exact hu
    | api => exact hu
    | is h => exact hQ _ _ _ _ hq (hu ▸ h)
    | isFailed h => exact hQ _ _ _ _ hq (hu ▸ h)

end

end Teamspace.Webapp
