import Teamspace.Webapp.Branding

/-!
# The branding of a page

Before every request, the hook `auto_ensure_branding` loads the branding of the organization into
the session, if the session does not hold one yet (`webapp/app.py`,
`webapp/blueprints/dashboard.py`). If the Business API has none and the user is an administrator,
the hook asks IS for the branding and stores it in the Business API. A session may hold `None` for
the branding, so whether it holds one is kept beside it (`cached`).
-/

namespace Teamspace.Webapp

open Teamspace.Py Teamspace.Common Teamspace.Lib Teamspace.Api Handling

/-! ## What IS shows -/

/-- The fields of `fetch_branding_from_is`, as IS has them. -/
structure IsBranding where
  org : String
  logoUrl : Json
  logoAltText : Json
  faviconUrl : Json
  primaryColor : Json
  secondaryColor : Json
  deriving DecidableEq, Repr

namespace IsBranding

/-- `t.get(part, {}).get(item, {}).get(key, default)`. -/
def lookup (t : Json) (part item key default' : String) : Except Exn Json := do
  getOr (← getOr (← getOr t part (.obj [])) item (.obj [])) key (.str default')

/-- What `fetch_branding_from_is` reads from the data of the response. -/
def ofData (orgId : String) (data : Json) : Except Exn IsBranding := do
  let pref ← getOr data "preference" (.obj [])
  let theme ← getOr pref "theme" (.obj [])
  let active ← getOr theme "activeTheme" (.str "LIGHT")
  let t ← match active with
    | .str active => getOr theme active (.obj [])
    -- Lists and objects are not hashable, and no other value is a key of an object.
    | .arr _ | .obj _ => .error .typeError
    | _ => .ok (.obj [])
  return {
    org := orgId
    logoUrl := ← lookup t "images" "logo" "imgURL" ""
    logoAltText := ← lookup t "images" "logo" "altText" ""
    faviconUrl := ← lookup t "images" "favicon" "imgURL" ""
    primaryColor := ← lookup t "colors" "primary" "main" defaultPrimaryColor
    secondaryColor := ← lookup t "colors" "secondary" "main" defaultSecondaryColor }

/-- The fields that `PersonalizationUpsert` may have to refuse. -/
def fields (b : IsBranding) : List (String × Json) :=
  [("logo_url", b.logoUrl), ("logo_alt_text", b.logoAltText), ("favicon_url", b.faviconUrl),
    ("primary_color", b.primaryColor), ("secondary_color", b.secondaryColor)]

/-- A field of type `Optional[str]`. -/
def optionalStr : Json → Except Json (Option String)
  | .str s => .ok (some s)
  | .null => .ok none
  | v => .error v

/-- The error of a field of type `Optional[str]`. -/
def fieldError (name : String) (v : Json) : Json :=
  .obj [("type", .str "string_type"), ("loc", .arr [.str "body", .str name]),
    ("msg", .str "Input should be a valid string"), ("input", v)]

/-- The errors of all fields. -/
def fieldErrors (b : IsBranding) : List Json :=
  b.fields.filterMap fun f => match optionalStr f.2 with
    | .ok _ => none
    | .error v => some (fieldError f.1 v)

/-- The branding as the body of `POST /personalization`. -/
def parsed (b : IsBranding) : Parsed PersonalizationUpsert :=
  (do return {
    org := b.org
    logoUrl := ← optionalStr b.logoUrl
    logoAltText := ← optionalStr b.logoAltText
    faviconUrl := ← optionalStr b.faviconUrl
    primaryColor := ← optionalStr b.primaryColor
    secondaryColor := ← optionalStr b.secondaryColor } : Except Json PersonalizationUpsert).mapError
    fun _ => .obj [("detail", .arr b.fieldErrors)]

end IsBranding

/-- The branding that IS shows for the organization, if `fetch_branding_from_is` can read it. -/
def shownBranding (orgId : String) (result : IsResponse) : Option (Parsed PersonalizationUpsert) :=
  match result.data with
  | .preference data =>
    if result.statusCode ≠ 200 ∨ data.truthy = false then none
    else (IsBranding.ofData orgId data).toOption.map IsBranding.parsed
  | _ => none

/-- `fetch_branding_from_is`. -/
def fetchBrandingFromIs (orgId token : String) :
    Handling (Option (Parsed PersonalizationUpsert)) := do
  if token = "" then return none
  let result ← callIs (.bearer token) (.resolveBranding orgId)
  return shownBranding orgId result

/-! ## The hook -/

/-- `get_personalization`. -/
def getPersonalization (orgId : String) : Handling (Option PersonalizationUpsert) := do
  let resp ← apiRequest none (.getPersonalization orgId)
  if resp.statusCode = 200 then
    match resp.data with
    | .personalization branding => return some branding
    -- The Business API answers with nothing else here.
    | _ => .raise .request
  else return none

/-- The `try` of `_ensure_branding_loaded`: whether the branding of IS has been stored. -/
def syncBranding (orgId token : String) : Handling Bool := do
  match ← fetchBrandingFromIs orgId token with
  | none => return false
  | some isBranding =>
    let upsertRes ← apiRequest none (.upsertPersonalization isBranding)
    if upsertRes.statusCode ∈ [200, 201] then
      setOrgBranding isBranding.toOption
      return true
    else return false

namespace Hook

/-- `_ensure_branding_loaded`: whether `org_branding` is in the session afterwards. -/
def ensureBrandingLoaded (cached : Bool) : Handling Bool := do
  if cached then return true
  let s ← session
  if s.orgId = "" then return false
  match ← getPersonalization s.orgId with
  | some branding =>
    setOrgBranding (some branding)
    return true
  | none =>
    if !s.isAdmin then
      setOrgBranding none
      return true
    let synced ← (syncBranding s.orgId (s.accessToken.getD "")).tryCatch fun _ => .ret false
    if !synced then setOrgBranding none
    return true

/-- `auto_ensure_branding`. -/
def autoEnsureBranding (cached : Bool) : Handling Bool :=
  (ensureBrandingLoaded cached).tryCatch fun _ => .ret false

end Hook

/-! ## Requests -/

/-- `home`. -/
def home (orgHandle : String) (cached : Bool) : Handling Page := do
  if let some page ← loginRequired orgHandle then return page
  let _ ← Hook.ensureBrandingLoaded cached
  return .template "dashboard/home.html"

/-- The request reads or writes no personalization but by reading it. -/
def LeavesBranding : PortalReq → Prop
  | .api _ (.upsertPersonalization _) | .api _ (.deletePersonalizationByOrg _) => False
  | _ => True

/-- The handler of a page that leaves the branding as it is. -/
structure View where
  handler : Handling Page
  leaves : handler.Only (fun _ => True) LeavesBranding

/-- The `plan` of `get_organization_plan`. -/
def getOrganizationPlan (orgId : String) : Handling (Option String) := do
  let resp ← apiRequest none (.getPlan orgId)
  if resp.statusCode = 200 then planOf resp.data else return some defaultPlan

/-- `branding`, the page of the forms. -/
def brandingPage (orgHandle : String) : Handling Page := do
  if let some page ← loginRequired orgHandle then return page
  let s ← session
  if s.userRoles.any (· ∈ [basicBrandingEditor, advancedBrandingEditor]) then
    let _ ← getPersonalization s.orgId
    return .template "personalization/branding.html"
  let orgPlan ← getOrganizationPlan s.orgId
  if orgPlan = some "business" then
    return .accessDenied "Personalization"
      "Customize your organization's branding, logo, and colors." basicBrandingEditor
  else if orgPlan = some "enterprise" then
    return .accessDenied "Personalization"
      "Customize your organization's branding, logo, and colors." advancedBrandingEditor
  else return .template "personalization/upgrade_prompt.html"

section

variable {P : PortalOp → Prop} {Q : PortalReq → Prop}

/-- The personalization is one request, after the session is read. -/
theorem only_getPersonalization {orgId : String} (hs : P .session)
    (h : ∀ token, Q (.api token (.getPersonalization orgId))) :
    (getPersonalization orgId).Only P Q := by
  refine .bind (only_apiRequest hs h) fun resp => Program.only_ite (fun _ => ?_) fun _ => trivial
  cases resp.data <;> trivial

/-- So is the plan. -/
theorem only_getOrganizationPlan {orgId : String} (hs : P .session)
    (h : ∀ token, Q (.api token (.getPlan orgId))) : (getOrganizationPlan orgId).Only P Q :=
  .bind (only_apiRequest hs h) fun _ => Program.only_ite (fun _ => only_planOf _) fun _ => trivial

end

/-- The page of the forms leaves the branding as it is. -/
def brandingView (orgHandle : String) : View where
  handler := brandingPage orgHandle
  leaves := by
    unfold brandingPage
    refine .bind (only_loginRequired trivial) fun page => ?_
    cases page with
    | some page => trivial
    | none =>
      refine .bind (only_session trivial) fun s => Program.only_ite (fun _ => ?_) fun _ => ?_
      · exact .bind (only_getPersonalization trivial fun _ => trivial) fun _ => trivial
      · refine .bind (only_getOrganizationPlan trivial fun _ => trivial) fun orgPlan => ?_
        refine Program.only_ite (fun _ => trivial) fun _ => ?_
        exact Program.only_ite (fun _ => trivial) fun _ => trivial

/-- A request to the portal: of a form of the branding page, or of a page. -/
inductive BrandingRequest
  | update (orgHandle : String) (form : Form)
  | reset (orgHandle : String)
  | home (orgHandle : String)
  | page (view : View)

/-- A request together with whether `org_branding` is in the session. -/
structure Visit where
  request : BrandingRequest
  cached : Bool

/-- What serves a request. -/
def Visit.program (v : Visit) : Handling Page := do
  let cached ← Hook.autoEnsureBranding v.cached
  match v.request with
  | .update orgHandle form => updateBranding orgHandle form
  | .reset orgHandle => resetBranding orgHandle
  | .home orgHandle => home orgHandle cached
  | .page view => view.handler

end Teamspace.Webapp
