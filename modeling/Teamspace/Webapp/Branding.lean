import Teamspace.Webapp.Portal

/-!
# Branding

The handlers of `webapp/blueprints/personalization.py` that write, and the two operations of
`webapp/is_operations.py` that keep the branding of an organization in two places.
-/

namespace Teamspace.Webapp

open Teamspace.Py Teamspace.Lib Teamspace.Api Handling

/-! ## Forms -/

/-- `DEFAULT_PRIMARY_COLOR`. -/
def defaultPrimaryColor : String := "#4F46E5"
/-- `DEFAULT_SECONDARY_COLOR`. -/
def defaultSecondaryColor : String := "#E0E7FF"

/-- A hexadecimal digit. -/
def isHexDigit (c : Char) : Bool := c.isDigit || ('a' ≤ c && c ≤ 'f') || ('A' ≤ c && c ≤ 'F')

/-- `_COLOR_RE.match(value)`. The end of the pattern also matches before a last newline. -/
def isColor (value : String) : Bool :=
  match value.toList with
  | '#' :: rest =>
    let digits := if rest.getLast? = some '\n' then rest.dropLast else rest
    3 ≤ digits.length && digits.length ≤ 8 && digits.all isHexDigit
  | _ => false

/-- Whether a text starts with one character of each set. -/
def startsLike : List (List Char) → List Char → Bool
  | [], _ => true
  | _ :: _, [] => false
  | set :: sets, c :: cs => set.contains c && startsLike sets cs

/-- `_valid_http_url`. Without regard to case, the long s is an s. -/
def validHttpUrl (value : String) : Bool :=
  let http := [['h', 'H'], ['t', 'T'], ['t', 'T'], ['p', 'P']]
  let s := [['s', 'S', 'ſ']]
  let colon := [[':'], ['/'], ['/']]
  value != "" && (startsLike (http ++ colon) (strip value).toList ||
    startsLike (http ++ s ++ colon) (strip value).toList)

/-- The checks of `update_branding`, and what it saves. -/
def brandingData (orgId : String) (form : Form) : Except String PersonalizationUpsert :=
  let primaryColor := (form.get "primary_color").getD defaultPrimaryColor
  let secondaryColor := (form.get "secondary_color").getD defaultSecondaryColor
  let logoUrl := (form.get "logo_url").getD ""
  let faviconUrl := (form.get "favicon_url").getD ""
  if !isColor primaryColor then .error "Invalid primary color. Use a hex value like #4F46E5."
  else if !isColor secondaryColor then
    .error "Invalid secondary color. Use a hex value like #E0E7FF."
  else if logoUrl ≠ "" ∧ !validHttpUrl logoUrl then
    .error "Invalid logo URL. Must start with http:// or https://."
  else if faviconUrl ≠ "" ∧ !validHttpUrl faviconUrl then
    .error "Invalid favicon URL. Must start with http:// or https://."
  else .ok {
    org := orgId
    logoUrl := some logoUrl
    logoAltText := some ((form.get "logo_alt_text").getD "")
    faviconUrl := some faviconUrl
    primaryColor := some primaryColor
    secondaryColor := some secondaryColor }

/-! ## Both places -/

/-- `DualWriteResult`. -/
structure DualWriteResult where
  dbSuccess : Bool
  isSuccess : Bool
  dbStatus : Nat
  isStatus : Nat
  errorMessage : String
  deriving DecidableEq, Repr

namespace IsOps

/-- `is_ops.update_branding`. -/
def updateBranding (data : PersonalizationUpsert) (token orgName : String) :
    Handling DualWriteResult := do
  let dbResult ← apiRequest none (.upsertPersonalization (.ok data))
  if dbResult.statusCode ∉ [200, 201] then
    return ⟨false, false, dbResult.statusCode, 0, "Failed to update branding in DB"⟩
  if token = "" then
    return ⟨true, false, dbResult.statusCode, 0, "No access token available for IS sync"⟩
  let failed (result : IsResponse) : DualWriteResult :=
    ⟨true, false, dbResult.statusCode, result.statusCode,
      "IS branding sync failed with status " ++ toString result.statusCode⟩
  let result ← callIs (.bearer token) (.putBranding data orgName)
  if result.statusCode ∈ [200, 201] then
    return ⟨true, true, dbResult.statusCode, result.statusCode, ""⟩
  if result.statusCode ≠ 404 then return failed result
  let result ← callIs (.bearer token) (.postBranding data orgName)
  if result.statusCode ∈ [200, 201] then
    return ⟨true, true, dbResult.statusCode, result.statusCode, ""⟩
  return failed result

/-- `is_ops.delete_branding`. -/
def deleteBranding (orgId token : String) : Handling DualWriteResult := do
  let dbResult ← apiRequest none (.deletePersonalizationByOrg orgId)
  let dbSuccess := decide (dbResult.statusCode ∈ [200, 201, 204])
  if token = "" then
    return ⟨dbSuccess, false, dbResult.statusCode, 0, "No access token available for IS delete"⟩
  let result ← callIs (.bearer token) (.deleteBranding orgId)
  return ⟨dbSuccess, decide (result.statusCode ∈ [200, 204]), dbResult.statusCode,
    result.statusCode, ""⟩

end IsOps

/-! ## Handlers -/

/-- `update_branding`. -/
def updateBranding (orgHandle : String) (form : Form) : Handling Page := do
  if let some page ← loginRequired orgHandle then return page
  roleRequired [basicBrandingEditor, advancedBrandingEditor]
  let s ← session
  let back : Page := .redirect "personalization.branding" (some orgHandle)
  match brandingData s.orgId form with
  | .error message =>
    flash "error" message
    return back
  | .ok data =>
    let res ← IsOps.updateBranding data (s.accessToken.getD "") s.orgName
    if res.dbSuccess then
      setOrgBranding (some data)
      if res.isSuccess then flash "success" "Branding updated and synced to login portal."
      else
        flash "warning" ("Branding updated locally, but failed to sync to login portal: " ++
          res.errorMessage)
    else flash "error" ("Failed to update branding: " ++ res.errorMessage)
    return back

/-- `reset_branding`. -/
def resetBranding (orgHandle : String) : Handling Page := do
  if let some page ← loginRequired orgHandle then return page
  roleRequired [basicBrandingEditor, advancedBrandingEditor]
  let s ← session
  let res ← IsOps.deleteBranding s.orgId (s.accessToken.getD "")
  if res.dbSuccess then
    setOrgBranding none
    if res.isSuccess then flash "success" "Branding reverted to defaults."
    else flash "warning" "Branding reverted locally, but failed to sync removal to login portal."
  else flash "error" "Failed to revert branding."
  return .redirect "personalization.branding" (some orgHandle)

end Teamspace.Webapp
