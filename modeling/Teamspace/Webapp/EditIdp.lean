import Teamspace.Webapp.FormInputs

/-!
# The edit page of an IdP

`edit_idp_form` and `edit_idp` of `webapp/blueprints/admin.py`, with what they read of IS beyond the
other handlers: the name, the authenticator, the provisioning and the claims of an IdP. They are
programs over the interface of the handlers with more requests (`editPortal`), into which what all
handlers share is embedded.
-/

namespace Teamspace.Webapp

open Teamspace.Py Teamspace.Lib Handling

/-! ## Claims -/

/-- A local claim, as IS shows it. -/
structure LocalClaim where
  uri : Option String
  id : Option String
  displayName : Option String
  deriving DecidableEq, Repr

/-- A claim of the IdP and the local claim that it becomes. -/
structure ClaimMapping where
  idpClaim : Option String
  localClaim : LocalClaim
  deriving DecidableEq, Repr

/-- The claims of an IdP. -/
structure IdpClaims where
  userIdClaim : LocalClaim
  roleClaim : LocalClaim
  mappings : List ClaimMapping
  deriving DecidableEq, Repr

/-- What is kept of a local claim beside its URI. -/
structure ClaimInfo where
  id : Option String
  displayName : Option String
  deriving DecidableEq, Repr

/-- Local claims by their URI. -/
abbrev ClaimIndex := String → Option ClaimInfo

def usernameClaim : String := "http://wso2.org/claims/username"
def emailClaim : String := "http://wso2.org/claims/emailaddress"
def rolesClaim : String := "http://wso2.org/claims/roles"
def groupsClaim : String := "http://wso2.org/claims/groups"

/-- `DEFAULT_LOCAL_CLAIMS`. -/
def defaultLocalClaims : List (String × ClaimInfo) := [
  (usernameClaim, ⟨some "aHR0cDovL3dzbzIub3JnL2NsYWltcy91c2VybmFtZQ", some "Username"⟩),
  (emailClaim, ⟨some "aHR0cDovL3dzbzIub3JnL2NsYWltcy9lbWFpbGFkZHJlc3M", some "Email"⟩),
  (rolesClaim, ⟨some "aHR0cDovL3dzbzIub3JnL2NsYWltcy9yb2xlcw", some "Roles"⟩)]

/-- A local claim that has a URI is put into the index. -/
def ClaimIndex.put (index : ClaimIndex) (c : LocalClaim) : ClaimIndex :=
  match c.uri.filter (· ≠ "") with
  | some uri => Function.update index uri (some ⟨c.id, c.displayName⟩)
  | none => index

/-- `index[uri].get("id")`, unless it is empty. -/
def ClaimIndex.idOf (index : ClaimIndex) (uri : String) : Option String :=
  ((index uri).bind ClaimInfo.id).filter (· ≠ "")

/-- A claim that has no id in the index has the default one. -/
def ClaimIndex.orDefault (index : ClaimIndex) (claim : String × ClaimInfo) : ClaimIndex :=
  if (index.idOf claim.1).isSome then index else Function.update index claim.1 (some claim.2)

/-- `_build_local_claims_index`. -/
def buildLocalClaimsIndex (claims : IdpClaims) : ClaimIndex :=
  let named := claims.userIdClaim :: claims.roleClaim :: claims.mappings.map ClaimMapping.localClaim
  defaultLocalClaims.foldl ClaimIndex.orDefault (named.foldl ClaimIndex.put fun _ => none)

/-- `make_local_claim`. -/
def makeLocalClaim (index : ClaimIndex) (uri : String) : LocalClaim :=
  match index uri with
  | some info => ⟨some uri, info.id, info.displayName⟩
  | none => ⟨some uri, some "", some ""⟩

/-- `_build_claims_put_body`. -/
def buildClaimsPutBody (index : ClaimIndex) (groupAttribute : String) : IdpClaims where
  userIdClaim := makeLocalClaim index emailClaim
  roleClaim := makeLocalClaim index rolesClaim
  mappings := [
    ⟨some "sub", makeLocalClaim index usernameClaim⟩,
    ⟨some "email", makeLocalClaim index emailClaim⟩,
    ⟨some groupAttribute, makeLocalClaim index rolesClaim⟩,
    ⟨some "roles", makeLocalClaim index rolesClaim⟩]

/-! ## Requests -/

/-- The detail of an IdP. -/
structure IdpDetail where
  name : Option String
  groups : List IdpGroup
  jitEnabled : Bool
  claims : IdpClaims
  deriving DecidableEq, Repr

/-- The properties of an authenticator, by key. -/
abbrev AuthenticatorProperties := List (String × Option String)

/-- A call to IS that only the edit page makes. -/
inductive EditCall
  /-- `GET /o/api/server/v1/identity-providers/{idp_id}`, for more than its groups. -/
  | getDetail (idpId : String)
  /-- `GET .../{idp_id}/federated-authenticators/{OIDC_AUTHENTICATOR_ID}`. -/
  | getAuthenticator (idpId : String)
  /-- `GET .../{idp_id}/claims`. -/
  | getClaims (idpId : String)
  /-- `GET /o/scim2/v2/Roles`, for the names of the roles too. -/
  | listNamedRoles
  /-- `PATCH .../{idp_id}`, of its name. -/
  | patchName (idpId name : String)
  /-- `PUT .../{idp_id}/federated-authenticators/{OIDC_AUTHENTICATOR_ID}`. -/
  | putAuthenticator (idpId : String) (properties : AuthenticatorProperties)
  /-- `PUT .../{idp_id}/claims`. -/
  | putClaims (idpId : String) (claims : IdpClaims)
  deriving DecidableEq, Repr

/-- The content of a reply, by what the edit page looks for in it. -/
inductive EditData
  | detail (detail : IdpDetail)
  | properties (properties : AuthenticatorProperties)
  | mappings (mappings : List ClaimMapping)
  | namedRoles (roles : List (String × Option String))
  /-- Another JSON object. -/
  | record
  | other
  deriving DecidableEq, Repr

/-- `ISResponse`. -/
structure EditResponse where
  statusCode : Nat
  data : EditData
  deriving DecidableEq, Repr

/-- What the handlers of the edit page ask others. -/
inductive EditReq
  | portal (q : PortalReq)
  | edit (call : EditCall)

/-- What they are answered. -/
inductive EditRep
  | portal (r : PortalRep)
  | edit (response : EditResponse)

/-- The interface of the handlers of the edit page. -/
abbrev editPortal : Interface where
  Op := PortalOp
  Ans := PortalOp.Ans
  Req := EditReq
  Rep := EditRep
  Exn := PortalExn

/-- A part of a handler of the edit page. -/
abbrev Editing (α : Type) := Program editPortal α

/-- A part that is a part of any handler. -/
def embed {α : Type} : Handling α → Editing α
  | .ret a => .ret a
  | .raise e => .raise e
  | .op o k => .op o fun a => embed (k a)
  | .await q k => .await (.portal q) fun
    | .portal r => embed (k r)
    | .edit _ => embed (k .failed)

/-- `ISClient.call`. -/
def callEdit (call : EditCall) : Editing EditResponse :=
  .await (.edit call) fun
    | .edit response => .ret response
    | .portal _ => .raise .request

/-! ## The page -/

/-- A role on the page, with the groups of the IdP that grant it. -/
structure RoleMapping where
  id : String
  displayName : Option String
  mappedGroups : List String
  deriving DecidableEq, Repr

/-- `admin/idp_edit.html`, by what it shows. -/
structure EditPage where
  name : Option String
  clientId : Option String
  authEndpoint : Option String
  tokenEndpoint : Option String
  jwksUri : Option String
  userinfoEndpoint : Option String
  logoutEndpoint : Option String
  scopes : Option String
  jitEnabled : Bool
  groupAttribute : Option String
  externalGroups : List String
  roles : List RoleMapping
  deriving DecidableEq, Repr

/-- A page of the routes of IdPs. -/
inductive IdpPage
  | plain (page : Page)
  | edit (page : EditPage)
  deriving DecidableEq, Repr

/-- A value in a template. -/
def printed (v : Option String) : String := v.getD "None"

/-- The field of the checkboxes of a role. -/
def roleField (roleId : String) : String := "role_groups[" ++ roleId ++ "]"

/-- The fields of the page that are not of a role. -/
def EditPage.fields (page : EditPage) : Form := [
    ("name", textInput (page.name.getD "")),
    ("client_id", textInput (printed page.clientId)),
    ("client_secret", ""),
    ("auth_endpoint", urlInput (printed page.authEndpoint)),
    ("token_endpoint", urlInput (printed page.tokenEndpoint)),
    ("jwks_uri", urlInput (printed page.jwksUri)),
    ("userinfo_endpoint", urlInput (printed page.userinfoEndpoint)),
    ("logout_endpoint", urlInput (printed page.logoutEndpoint)),
    ("scopes", textInput (printed page.scopes))] ++
  (if page.jitEnabled then [("jit_enabled", "true")] else []) ++
  [("group_attribute", textInput (orElse (page.groupAttribute.getD "") "groups")),
    ("groups", textInput (", ".intercalate page.externalGroups))]

/-- The checkboxes of a role that are checked. -/
def EditPage.checked (page : EditPage) (role : RoleMapping) : Form :=
  (page.externalGroups.filter (· ∈ role.mappedGroups)).map fun g =>
    (roleField role.id, checkboxInput g)

/-- What the browser sends when the page is saved as it is. -/
def EditPage.form (page : EditPage) : Form := page.fields ++ page.roles.flatMap page.checked

/-! ## Showing -/

/-- `_fetch_idp_props_dict`. -/
def fetchIdpPropsDict (idpId : String) : Editing AuthenticatorProperties := do
  let authRes ← callEdit (.getAuthenticator idpId)
  match authRes.data with
  | .properties props =>
    return if authRes.statusCode = 200 then props.filter (fun p => p.1 ≠ "") else []
  | _ => return []

/-- `props_dict.get(k)`: the last property of the key. -/
def propOf (props : AuthenticatorProperties) (k : String) : Option (Option String) :=
  props.reverse.lookup k

/-- `idp_res.get("data", {})`, of which something is read. -/
def detailOf : EditData → Editing IdpDetail
  | .detail d => return d
  | .other => .raise .attributeError
  | _ => return ⟨none, [], false, ⟨⟨none, none, none⟩, ⟨none, none, none⟩, []⟩⟩

/-- `claims_data.get("mappings", [])`. -/
def mappingsOf : EditData → Editing (List ClaimMapping)
  | .mappings mappings => return mappings
  | .other => .raise .attributeError
  | _ => return []

/-- The `idpClaim` of the first mapping to the groups or the roles. -/
def groupAttributeOf (mappings : List ClaimMapping) : Option String :=
  match mappings.find? fun m =>
      m.localClaim.uri = some groupsClaim ∨ m.localClaim.uri = some rolesClaim with
  | some m => m.idpClaim
  | none => some "groups"

/-- The names of the groups of the IdP that are among those of a role. -/
def mappedGroups (idpGroups : List IdpGroup) (assigned : List String) : Editing (List String) :=
  (idpGroups.filter fun g => g.realId.any (· ∈ assigned)).mapM fun g =>
    match g.name with
    | some name => pure name
    | none => .raise .keyError

/-- The loop of `edit_idp_form` over the roles. -/
def rolesWithMappings (token : String) (idpGroups : List IdpGroup) :
    List (String × Option String) → Editing (List RoleMapping)
  | [] => return []
  | (roleId, displayName) :: roles => do
    let roleDetail ← embed (callIs (.bearer token) (.getRole roleId))
    let assigned ←
      if roleDetail.statusCode = 200 then embed (groupsOfRole roleDetail.data) else return []
    let mapped ← mappedGroups idpGroups assigned
    let more ← rolesWithMappings token idpGroups roles
    return ⟨roleId, displayName, mapped⟩ :: more

/-- The roles that IS lists. -/
def namedRoles (res : EditResponse) : List (String × Option String) :=
  match res.data with
  | .namedRoles roles => if res.statusCode = 200 then roles else []
  | _ => []

/-- `edit_idp_form` behind its gate. -/
def editIdpFormBody (orgHandle idpId : String) : Editing IdpPage := do
  let token ← embed accessToken
  let idpRes ← callEdit (.getDetail idpId)
  if idpRes.statusCode ≠ 200 then
    embed (flash "error" "Failed to fetch Identity Provider details.")
    return .plain (.redirect "admin.idp" (some orgHandle))
  let props ← fetchIdpPropsDict idpId
  let detail ← detailOf idpRes.data
  let claimsRes ← callEdit (.getClaims idpId)
  let mappings ← mappingsOf claimsRes.data
  let rolesRes ← callEdit .listNamedRoles
  let roles ← rolesWithMappings token detail.groups (namedRoles rolesRes)
  let prop (k default : String) : Option String := (propOf props k).getD (some default)
  return .edit {
    name := detail.name
    clientId := prop "ClientId" ""
    authEndpoint := prop "OAuth2AuthzEPUrl" ""
    tokenEndpoint := prop "OAuth2TokenEPUrl" ""
    jwksUri := prop "JwksUri" ""
    userinfoEndpoint := prop "UserInfoUrl" ""
    logoutEndpoint := prop "OIDCLogoutEPUrl" ""
    scopes := prop "Scopes" "openid email profile groups"
    jitEnabled := detail.jitEnabled
    groupAttribute := groupAttributeOf mappings
    externalGroups := (detail.groups.filterMap IdpGroup.name).filter (· ≠ "")
    roles := roles }

/-- A handler behind its gate. -/
def behindEdit (gate : Handling (Option Page)) (handler : Editing IdpPage) : Editing IdpPage := do
  match ← embed gate with
  | some page => return .plain page
  | none => handler

/-- `edit_idp_form`. -/
def editIdpForm (orgHandle idpId : String) : Editing IdpPage :=
  behindEdit (IdpRoute.editIdpForm.gate orgHandle) (editIdpFormBody orgHandle idpId)

/-! ## Saving -/

variable (C : PortalConfig)

/-- `_build_oidc_authenticator_properties`, of a form with this client secret, which may be none. -/
def editedProperties (form : Form) (clientSecret : Option String) (orgId tokenEndpoint : String) :
    Handling AuthenticatorProperties := do
  let properties ← buildOidcAuthenticatorProperties C
    (("client_secret", clientSecret.getD "") :: form) orgId tokenEndpoint
  return properties.map fun p => (p.1, if p.1 = "ClientSecret" then clientSecret else some p.2)

/-- The secret of the form, or the one that IS has. -/
def clientSecretOf (form : Form) (props : AuthenticatorProperties) : Option String :=
  ((form.get "client_secret").filter (· ≠ "")).or ((propOf props "ClientSecret").getD none)

/-- `edit_idp` behind its gate. -/
def editIdpBody (orgHandle idpId : String) (form : Form) : Editing IdpPage := do
  let token ← embed accessToken
  let idpRes ← callEdit (.getDetail idpId)
  if idpRes.statusCode ≠ 200 then
    embed (flash "error" "Failed to update Identity Provider details.")
    return .plain (.redirect "admin.idp" (some orgHandle))
  let props ← fetchIdpPropsDict idpId
  let name ← embed (form.item "name")
  let tokenEndpoint ← embed (form.item "token_endpoint")
  let s ← embed session
  let _ ← callEdit (.patchName idpId name)
  let properties ← embed
    (editedProperties C form (clientSecretOf form props) s.orgId tokenEndpoint)
  let _ ← callEdit (.putAuthenticator idpId properties)
  let jitEnabled := decide (form.get "jit_enabled" = some "true")
  let _ ← embed (callIs (.bearer token) (.putJit idpId jitEnabled))
  let groupAttribute ← embed (form.item "group_attribute")
  let detail ← detailOf idpRes.data
  let body := buildClaimsPutBody (buildLocalClaimsIndex detail.claims) groupAttribute
  let _ ← callEdit (.putClaims idpId body)
  embed (applyIdpRoleGroupMappings token idpId form)
  embed (flash "success" "Identity Provider updated successfully.")
  return .plain (.redirect "admin.idp" (some orgHandle))

/-- `edit_idp`. -/
def editIdp (orgHandle idpId : String) (form : Form) : Editing IdpPage :=
  behindEdit (IdpRoute.editIdp.gate orgHandle) (editIdpBody C orgHandle idpId form)

end Teamspace.Webapp
