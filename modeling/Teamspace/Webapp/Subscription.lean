import Teamspace.Webapp.Portal

/-!
# Signup and subscription

`webapp/plans.py`, the role operations of `webapp/is_operations.py` that a plan needs, and the two
handlers that save a plan: the signup (`webapp/blueprints/signup.py`), which takes the plan from its
form, and the upgrade (`webapp/blueprints/subscription.py`), which looks it up in `PLANS`.
-/

namespace Teamspace.Webapp

open Teamspace.Py Teamspace.Lib Handling

/-! ## Plans -/

/-- An entry of `PLANS`. -/
structure Plan where
  id : String
  name : String
  upgradeRoles : List String
  deriving DecidableEq, Repr

/-- `PLANS`. -/
def plans : List Plan :=
  [⟨"basic", "Basic", []⟩, ⟨"business", "Business", [basicBrandingEditor]⟩,
    ⟨"enterprise", "Enterprise", [basicBrandingEditor, advancedBrandingEditor, idpManager]⟩]

/-- `PLAN_ROLES`. -/
def planRoles : List (String × List String) :=
  [("basic", []), ("business", [basicBrandingEditor]),
    ("enterprise", [basicBrandingEditor, advancedBrandingEditor, idpManager])]

/-! ## Roles -/

/-- `_get_auth_params`, without the password of the root administrator if there is none. -/
def getAuthParams (adminPassword : Bool) (token : String) (useOrgEndpoint : Bool) : IsAuth :=
  if useOrgEndpoint then .bearer token else if adminPassword then .basic else .none

/-- `result["data"].get("Resources", [])`, for a `dict`. -/
def resources : IsData → List ScimRole
  | .roles l => l
  | _ => []

/-- The loop of `poll_for_role_id`, with this many attempts left. -/
def pollForRoleId (auth : IsAuth) (org : Bool) (roleName : String) : Nat → Handling (Option String)
  | 0 => return none
  | attempts + 1 => do
    let result ← callIs auth (.findRoles org roleName)
    match resources result.data with
    | role :: _ => return some role.id
    | [] => pollForRoleId auth org roleName attempts

/-- `assign_roles_to_user`. -/
def assignRolesToUser (adminPassword : Bool) (token userId : String) (useOrgEndpoint : Bool) :
    List String → Handling Unit
  | [] => return ()
  | roleName :: roleNames => do
    let auth := getAuthParams adminPassword token useOrgEndpoint
    match ← pollForRoleId auth useOrgEndpoint roleName 5 with
    | some roleId => let _ ← callIs auth (.addRoleUser useOrgEndpoint roleId userId)
    | none => pure ()
    assignRolesToUser adminPassword token userId useOrgEndpoint roleNames

/-- `share_roles_with_org`. -/
def shareRolesWithOrg (rootToken orgId : String) (roleNames : List String) : Handling Unit := do
  if roleNames = [] then return ()
  let _ ← callIs (.bearer rootToken) (.shareRoles orgId roleNames)

section

variable {P : PortalOp → Prop} {Q : PortalReq → Prop}

/-- Polling for a role asks for nothing else. -/
theorem only_pollForRoleId {auth : IsAuth} {org : Bool} {roleName : String} {attempts : Nat}
    (h : Q (.is auth (.findRoles org roleName))) :
    (pollForRoleId auth org roleName attempts).Only P Q := by
  induction attempts with
  | zero => trivial
  | succ attempts ih =>
    refine .bind (only_callIs h) fun result => ?_
    split
    · trivial
    · exact ih

/-- Assigning roles looks for them and adds the user. -/
theorem only_assignRolesToUser {adminPassword : Bool} {token userId : String}
    {useOrgEndpoint : Bool} {roleNames : List String}
    (hfind : ∀ auth name, Q (.is auth (.findRoles useOrgEndpoint name)))
    (hadd : ∀ auth roleId, Q (.is auth (.addRoleUser useOrgEndpoint roleId userId))) :
    (assignRolesToUser adminPassword token userId useOrgEndpoint roleNames).Only P Q := by
  induction roleNames with
  | nil => trivial
  | cons roleName roleNames ih =>
    refine .bind (only_pollForRoleId (hfind _ _)) fun roleId => ?_
    split
    · exact .bind (only_callIs (hadd _ _)) fun _ => ih
    · exact ih

/-- Sharing roles is one request. -/
theorem only_shareRolesWithOrg {rootToken orgId : String} {roleNames : List String}
    (h : Q (.is (.bearer rootToken) (.shareRoles orgId roleNames))) :
    (shareRolesWithOrg rootToken orgId roleNames).Only P Q :=
  Program.only_ite (fun _ => trivial) fun _ => .bind (only_callIs h) fun _ => trivial

end

/-! ## Upgrade -/

/-- `upgrade`. -/
def upgrade (orgHandle : String) (form : Form) : Handling Page := do
  if let some page ← loginRequired orgHandle then return page
  adminRequired
  let back : Page := .redirect "subscription.plans" (some orgHandle)
  match plans.find? fun p => some p.id = form.get "plan" with
  | none =>
    flash "error" "Invalid plan."
    return back
  | some plan =>
    let rootToken ← getClientCredentialsToken
    if rootToken = "" then
      flash "error" "Failed to authenticate with Identity Server."
      return back
    let s ← session
    shareRolesWithOrg rootToken s.orgId plan.upgradeRoles
    let subOrgToken ← switchOrgToken s.orgId rootToken
    if subOrgToken = "" then
      flash "error" "Failed to update organization plan. Please try again."
      return back
    if plan.upgradeRoles ≠ [] ∧ s.sub ≠ "" then
      assignRolesToUser true subOrgToken s.sub true plan.upgradeRoles
    let planSaveRes ← saveOrganizationPlan s.orgId plan.id subOrgToken
    if planSaveRes.statusCode ∉ [200, 201] then
      flash "error" ("Roles for the " ++ plan.name ++ " plan were granted, but saving the plan " ++
        "failed (" ++ toString planSaveRes.statusCode ++ "). Your organization is still on " ++
        "its previous plan — please retry.")
      return back
    setOrgPlan plan.id
    flash "success" ("Upgraded to " ++ plan.name ++
      " plan! Please log out and back in to see new features.")
    return back

/-! ## Signup -/

/-- What Python knows of the characters of all scripts. -/
structure Unicode where
  /-- `str.lower`. -/
  lower : String → String
  /-- What `\w` matches. -/
  isWord : Char → Bool

/-- A run of characters that satisfy `p` becomes one hyphen. -/
def hyphenate (p : Char → Bool) : List Char → List Char
  | [] => []
  | c :: cs =>
    if p c then
      match hyphenate p cs with
      | '-' :: rest => '-' :: rest
      | rest => '-' :: rest
    else c :: hyphenate p cs

/-- `slugify`. -/
def slugify (U : Unicode) (text : String) : String :=
  let text := (strip (U.lower text)).toList
  let text := text.filter fun c => U.isWord c || isSpace c || c == '-'
  let text := hyphenate (fun c => isSpace c || c == '_' || c == '-') text
  String.ofList (((text.dropWhile (· == '-')).reverse.dropWhile (· == '-')).reverse)

/-- A match of `_FORBIDDEN_ORG_CHARS`. -/
def isForbiddenOrgChar (c : Char) : Bool := c == '<' || c == '>' || c == '&' || c.toNat == 0

/-- A match of `_CONTROL_CHARS_RE`. -/
def isControlChar (c : Char) : Bool :=
  let n := c.toNat
  n ≤ 8 || n == 11 || n == 12 || (14 ≤ n && n ≤ 31)

/-- What the character classes of `_EMAIL_RE` match. -/
def isEmailChar (c : Char) : Bool := c != '@' && !isSpace c && 31 < c.toNat

/-- Whether a text is two parts that are not empty, around a dot. -/
def hasInnerDot : List Char → Bool
  | _ :: c :: d :: cs => c == '.' || hasInnerDot (c :: d :: cs)
  | _ => false

/-- `_EMAIL_RE.match(value)`, of a stripped text. -/
def isEmail (value : String) : Bool :=
  let (user, host) := splitOnce value '@'
  match host with
  | none => false
  | some host => user != "" && user.toList.all isEmailChar && host.toList.all isEmailChar &&
      hasInnerDot host.toList

/-- `_invalid_field`. -/
def invalidField (field message : String) : Handling Page := do
  flash "error" (field ++ ": " ++ message)
  return .redirect "signup.signup_form" none

/-- `_check_org_name`. -/
def checkOrgName (value : String) : Option (String × String) :=
  if value = "" then some ("Organization name", "is required")
  else if 100 < value.length then some ("Organization name", "must be at most 100 characters")
  else if value.toList.any fun c => isForbiddenOrgChar c || isControlChar c then
    some ("Organization name", "contains forbidden characters")
  else none

/-- `_check_org_handle`. -/
def checkOrgHandle (value : String) : Option (String × String) :=
  if value.toList.any isForbiddenOrgChar then
    some ("Organization handle", "contains forbidden characters")
  else none

/-- `_check_admin_email`. -/
def checkAdminEmail (value : String) : Option (String × String) :=
  if value = "" ∨ contains value "@" = false ∨ value.toList.any isControlChar then
    some ("Email", "must be a valid address")
  else if !isEmail value then some ("Email", "must be a valid address")
  else none

/-- `_check_admin_password`. -/
def checkAdminPassword (value : String) : Option (String × String) :=
  if value = "" ∨ 128 < value.length then
    some ("Password", "is required and must be reasonable length")
  else none

/-- `_check_name_field`. -/
def checkNameField (label value : String) : Option (String × String) :=
  if 100 < value.length ∨ value.toList.any isControlChar then
    some (label, "must be at most 100 characters")
  else none

/-- The fields of a signup. -/
structure SignupFields where
  orgName : String
  orgHandle : String
  adminEmail : String
  adminPassword : String
  firstName : String
  lastName : String
  selectedPlan : String
  deriving DecidableEq, Repr

/-- `_validate_signup_form`: the fields, or the messages of the checks that fail. The checks are
made all, and flash each its message, before the first failure is answered. -/
def validateSignupForm (U : Unicode) (form : Form) : Except (List (String × String)) SignupFields :=
  let field (k : String) : String := strip ((form.get k).getD "")
  let orgName := field "org_name"
  let orgHandleInput := field "org_handle"
  let adminEmail := field "email"
  let adminPassword := (form.get "password").getD ""
  let firstName := field "first_name"
  let lastName := field "last_name"
  let selectedPlan := strip (((form.get "plan").filter (· ≠ "")).getD "basic")
  let failures := [checkOrgName orgName, checkOrgHandle orgHandleInput, checkAdminEmail adminEmail,
    checkAdminPassword adminPassword, checkNameField "First name" firstName,
    checkNameField "Last name" lastName].filterMap id
  if failures ≠ [] then .error failures
  else .ok {
    orgName
    orgHandle := if orgHandleInput = "" then slugify U orgName else orgHandleInput
    adminEmail
    adminPassword
    firstName
    lastName
    selectedPlan }

/-- The answer to the first of the checks that fail. -/
def invalidForm : List (String × String) → Handling Page
  | [] => return .redirect "signup.signup_form" none
  | (field, message) :: failures => do
    let page ← invalidField field message
    let _ ← invalidForm failures
    return page

/-- `user_result["data"].get("id", "")`. -/
def userIdOf : IsData → Handling String
  | .user id => return id.getD ""
  | .other => .raise .attributeError
  | _ => return ""

/-- `register`. What IS replied is left out of the messages that quote it. -/
def register (U : Unicode) (form : Form) : Handling Page := do
  match validateSignupForm U form with
  | .error failures => invalidForm failures
  | .ok fields =>
    let back : Page := .redirect "signup.signup_form" none
    let rootToken ← getClientCredentialsToken
    if rootToken = "" then
      flash "error" "Failed to authenticate with Identity Server."
      return back
    let result ← callIs (.bearer rootToken) (.createOrganization fields.orgName fields.orgHandle)
    if result.statusCode ∉ [200, 201] then
      flash "error" "Failed to create organization: "
      return back
    match result.data with
    | .organization newOrgId orgHandle =>
      let orgHandle := orgHandle.getD newOrgId
      let extraRoles := (planRoles.lookup fields.selectedPlan).getD []
      shareRolesWithOrg rootToken newOrgId extraRoles
      let subOrgToken ← switchOrgToken newOrgId rootToken
      if subOrgToken = "" then
        flash "error" "Failed to switch to new organization context."
        return back
      let userResult ← callIs (.bearer subOrgToken)
        (.createUser fields.adminEmail fields.adminPassword fields.firstName fields.lastName)
      if userResult.statusCode ∉ [200, 201] then
        flash "error" "Failed to create admin user: "
        return back
      let userId ← userIdOf userResult.data
      assignRolesToUser true subOrgToken userId true
        ([teamspaceAdmin, teamspaceUser] ++ extraRoles)
      let planSaveRes ← saveOrganizationPlan newOrgId fields.selectedPlan subOrgToken
      if planSaveRes.statusCode ∉ [200, 201] then
        flash "warning" ("Organization '" ++ fields.orgName ++ "' was created, but saving the " ++
          fields.selectedPlan ++ " plan failed (" ++ toString planSaveRes.statusCode ++
          "). It starts on the basic plan; an admin can upgrade it from the Subscription page.")
      else
        flash "success" ("Organization '" ++ fields.orgName ++ "' created! You can now sign in.")
      return .redirect "main.landing" (some orgHandle)
    | _ => .raise .keyError

end Teamspace.Webapp
