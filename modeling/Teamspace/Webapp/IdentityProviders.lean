import Teamspace.Webapp.Gates
import Teamspace.Webapp.Subscription

/-!
# Identity providers

The handlers of `webapp/blueprints/admin.py` that add and delete an IdP, with the operations on
roles, groups and the login flow that they share.
-/

namespace Teamspace.Webapp

open Teamspace.Py Teamspace.Lib Handling

/-- What the handlers read of the configuration. -/
structure PortalConfig where
  /-- `IS_BASE_URL`. -/
  isBaseUrl : String
  /-- `APP_NAME`. -/
  appName : String
  deriving DecidableEq, Repr

variable (C : PortalConfig)

/-! ## The login flow -/

/-- The option of a password. -/
def localOption : AuthOption := ⟨"LOCAL", "BasicAuthenticator"⟩

/-- The option of an IdP. -/
def idpOption (name : String) : AuthOption := ⟨name, "OpenIDConnectAuthenticator"⟩

/-- The login flow that `add_idp` writes. -/
def flowWith (name : String) : AuthSequence :=
  ⟨"USER_DEFINED", [⟨1, [localOption, idpOption name]⟩]⟩

/-- The login flow that `delete_idp` writes. -/
def defaultFlow : AuthSequence := ⟨"DEFAULT", [⟨1, [localOption]⟩]⟩

/-- The `id` of the application of that name, unless it is empty. -/
def appIdIn (applications : List Application) : Option String :=
  ((applications.find? fun a => a.name = some C.appName).bind Application.id).filter (· ≠ "")

/-- `_resolve_teamspace_app_id`, with an empty `id` for none. -/
def resolveTeamspaceAppId (token : String) : Handling (Option String) := do
  let appsRes ← callIs (.bearer token) .listApplications
  if appsRes.statusCode ≠ 200 then return none
  match appsRes.data with
  | .applications apps => return appIdIn C apps
  | _ => return none

/-- `_patch_auth_sequence`. -/
def patchAuthSequence (token appId : String) (authSequence : AuthSequence) : Handling IsResponse :=
  callIs (.bearer token) (.patchAuthSequence appId authSequence)

/-- Write a login flow to the application, if there is one. -/
def writeAuthSequence (token : String) (authSequence : AuthSequence) : Handling Unit := do
  match ← resolveTeamspaceAppId C token with
  | some appId => let _ ← patchAuthSequence token appId authSequence
  | none => pure ()

/-! ## Adding an IdP -/

/-- The roles that `add_idp` makes sure of: the body of its loop. -/
def ensureRole (token orgId roleName : String) : Handling Unit := do
  let checkRes ← callIs (.bearer token) (.findRoles true roleName)
  let known := decide (checkRes.statusCode = 200) && (resources checkRes.data).any fun r =>
    decide (r.audienceType = some "organization") || decide (r.audienceType = some "application")
  if !known then
    let _ ← callIs (.bearer token) (.createRole roleName orgId)

/-- `(form.get(k, "") or "").strip()`. -/
def stripped (form : Form) (k : String) : String := strip ((form.get k).getD "")

/-- `a or b`, of texts. -/
def orElse (a b : String) : String := if a = "" then b else a

/-- `_build_oidc_authenticator_properties`. -/
def buildOidcAuthenticatorProperties (form : Form) (orgId tokenEndpoint : String) :
    Handling (List (String × String)) := do
  let clientId ← form.item "client_id"
  let clientSecret ← form.item "client_secret"
  let authEndpoint ← form.item "auth_endpoint"
  let endpoint (path : String) : String := tokenEndpoint.replace "/oauth2/token" path
  let defaultScopes := "openid email profile groups"
  let scopes := orElse (strip (orElse ((form.get "scopes").getD defaultScopes) defaultScopes))
    defaultScopes
  return [
    ("ClientId", clientId),
    ("ClientSecret", clientSecret),
    ("OAuth2AuthzEPUrl", authEndpoint),
    ("OAuth2TokenEPUrl", tokenEndpoint),
    ("JwksUri", orElse (stripped form "jwks_uri") (endpoint "/oauth2/jwks")),
    ("UserInfoUrl", orElse (stripped form "userinfo_endpoint") (endpoint "/oauth2/userinfo")),
    ("OIDCLogoutEPUrl", orElse (stripped form "logout_endpoint") (endpoint "/oidc/logout")),
    ("Scopes", scopes),
    ("IsPKCEEnabled", "false"),
    ("IsBasicAuthEnabled", "false"),
    ("callbackUrl", C.isBaseUrl ++ "/o/" ++ orgId ++ "/commonauth"),
    ("AdditionalQueryParameters", "scope=" ++ scopes),
    ("commonAuthEPUrl", C.isBaseUrl ++ "/commonauth")]

/-- Building the properties takes nothing. -/
theorem only_buildOidcAuthenticatorProperties {P : PortalOp → Prop} {Q : PortalReq → Prop}
    (form : Form) (orgId tokenEndpoint : String) :
    (buildOidcAuthenticatorProperties C form orgId tokenEndpoint).Only P Q :=
  .bind only_item fun _ => .bind only_item fun _ => .bind only_item fun _ => trivial

/-- The parts of a text between the commas, with the part being read so far, in reverse. -/
def commaParts (part : List Char) : List Char → List String
  | [] => [String.ofList part.reverse]
  | c :: cs =>
    if c = ',' then String.ofList part.reverse :: commaParts [] cs else commaParts (c :: part) cs

/-- The names in the field `groups`. -/
def externalGroupNames (form : Form) : List String :=
  ((commaParts [] ((form.get "groups").getD "").toList).map strip).filter (· ≠ "")

/-- The `id` of a group that has one. -/
def IdpGroup.realId (group : IdpGroup) : Option String := group.id.filter (· ≠ "")

/-- The groups of the role that come from other IdPs, and those that the form selects. -/
def combinedGroups (form : Form) (resolved : List IdpGroup) (roleId : String)
    (current : List String) : List String :=
  let idpGroupIds := resolved.filterMap IdpGroup.realId
  let selectedNames := form.getlist ("role_groups[" ++ roleId ++ "]")
  let selected := resolved.filter fun group => group.name.any (· ∈ selectedNames)
  current.filter (· ∉ idpGroupIds) ++ selected.filterMap IdpGroup.realId

/-- The content is a JSON object. -/
def IsData.IsObject : IsData → Bool
  | .idpGroups _ | .other => false
  | _ => true

/-- `detail_res.get("data", {}).get("groups", [])`. -/
def groupsOfIdp : IsData → Handling (List IdpGroup)
  | .idp _ groups => return groups
  | .idpGroups _ | .other => .raise .attributeError
  | _ => return []

/-- `role_detail.get("data", {}).get("groups", [])`, by the values of the groups. -/
def groupsOfRole : IsData → Handling (List String)
  | .role groups => return groups
  | .idpGroups _ | .other => .raise .attributeError
  | _ => return []

@[simp] theorem groupsOfRole_role (groups : List String) :
    groupsOfRole (.role groups) = pure groups := rfl

/-- An object is read, with the groups that it has or none. -/
theorem groupsOfIdp_of_isObject {data : IsData} (h : data.IsObject = true) :
    ∃ groups, groupsOfIdp data = pure groups := by
  cases data with
  | idp id groups => exact ⟨groups, rfl⟩
  | idpGroups | other => cases h
  | _ => exact ⟨[], rfl⟩

/-- An object has the groups of a role. -/
theorem groupsOfRole_of_isObject {data : IsData} (h : data.IsObject = true) :
    ∃ groups, groupsOfRole data = pure groups := by
  cases data with
  | role groups => exact ⟨groups, rfl⟩
  | idpGroups | other => cases h
  | _ => exact ⟨[], rfl⟩

/-- The groups of the IdP, after the `PUT` or by a `GET`. -/
def resolvedGroups (token idpId : String) (names : List String) : Handling (List IdpGroup) := do
  let groupsRes ← callIs (.bearer token) (.putIdpGroups idpId names)
  let resolved : Option (List IdpGroup) :=
    match groupsRes.data with
    | .idpGroups groups => if groupsRes.statusCode ∈ [200, 201] then some groups else none
    | _ => none
  match resolved with
  | some groups => return groups
  | none =>
    let detailRes ← callIs (.bearer token) (.getIdp idpId)
    if detailRes.statusCode = 200 then groupsOfIdp detailRes.data else return []

/-- The loop of `_apply_idp_role_group_mappings`. -/
def mapRoles (token : String) (form : Form) (resolved : List IdpGroup) :
    List ScimRole → Handling Unit
  | [] => return ()
  | role :: roles => do
    let roleDetail ← callIs (.bearer token) (.getRole role.id)
    if roleDetail.statusCode = 200 then
      let current ← groupsOfRole roleDetail.data
      let groups := combinedGroups form resolved role.id current
      let _ ← callIs (.bearer token) (.replaceRoleGroups role.id groups)
    mapRoles token form resolved roles

/-- `_apply_idp_role_group_mappings`. -/
def applyIdpRoleGroupMappings (token idpId : String) (form : Form) : Handling Unit := do
  let resolved ← resolvedGroups token idpId (externalGroupNames form)
  let rolesRes ← callIs (.bearer token) .listRoles
  let scimRoles := if rolesRes.statusCode = 200 then resources rolesRes.data else []
  mapRoles token form resolved scimRoles

/-- `create_resp.get("data", {}).get("id")`, unless it is empty. -/
def createdId : IsData → Handling (Option String)
  | .idp id _ => return id.filter (· ≠ "")
  | .other => .raise .attributeError
  | _ => return none

/-- The id of an IdP is the one that it was created with. -/
theorem createdId_some {id : String} (hid : id ≠ "") (groups : List IdpGroup) :
    createdId (.idp (some id) groups) = pure (some id) := by
  change pure ((some id).filter _) = _
  rw [Option.filter_some, if_pos (decide_eq_true hid)]

/-- `add_idp` behind its gate. -/
def addIdpBody (orgHandle : String) (form : Form) : Handling Page := do
  let token ← accessToken
  let s ← session
  ensureRole token s.orgId teamspaceAdmin
  ensureRole token s.orgId teamspaceUser
  let name ← form.item "name"
  let jitEnabled := decide (form.get "jit_enabled" = some "true")
  let groupAttribute := (form.get "group_attribute").getD "groups"
  let tokenEndpoint ← form.item "token_endpoint"
  let properties ← buildOidcAuthenticatorProperties C form s.orgId tokenEndpoint
  let createResp ← callIs (.bearer token)
    (.createIdp ⟨name, properties, groupAttribute, orgHandle, jitEnabled⟩)
  if createResp.statusCode ∉ [200, 201] then
    flash "error" "Failed to create IdP."
    return .redirect "admin.idp" (some orgHandle)
  match ← createdId createResp.data with
  | some idpId =>
    let _ ← callIs (.bearer token) (.putJit idpId jitEnabled)
    applyIdpRoleGroupMappings token idpId form
  | none => pure ()
  writeAuthSequence C token (flowWith name)
  flash "success" "Identity Provider created."
  return .redirect "admin.idp" (some orgHandle)

/-- `add_idp`. -/
def addIdp (orgHandle : String) (form : Form) : Handling Page :=
  behind (IdpRoute.addIdp.gate orgHandle) (addIdpBody C orgHandle form)

/-! ## Deleting an IdP -/

/-- `delete_idp` behind its gate. -/
def deleteIdpBody (orgHandle idpId : String) : Handling Page := do
  let token ← accessToken
  let _ ← callIs (.bearer token) (.getIdp idpId)
  writeAuthSequence C token defaultFlow
  let deleteRes ← callIs (.bearer token) (.deleteIdp idpId)
  if deleteRes.statusCode ∈ [200, 204] then
    flash "success" "Identity Provider deleted successfully."
  else flash "error" "Failed to delete Identity Provider."
  return .redirect "admin.idp" (some orgHandle)

/-- `delete_idp`. -/
def deleteIdp (orgHandle idpId : String) : Handling Page :=
  behind (IdpRoute.deleteIdp.gate orgHandle) (deleteIdpBody C orgHandle idpId)

end Teamspace.Webapp
