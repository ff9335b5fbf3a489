import Teamspace.Api.ColumnWidths
import Teamspace.Webapp.BrandingSync

/-!
# The branding payload of IS

`build_is_branding_payload` puts the five fields of a branding into the document that IS keeps
(`webapp/is_operations.py`), and `fetch_branding_from_is` reads them from the document that IS
shows. As long as IS shows the preference that it was sent last, the fields come back
(`branding_round_trip`), also after an update by the portal (`updated_branding_shown`).
-/

namespace Teamspace.Webapp

open Teamspace.Py Teamspace.Common Teamspace.Lib Teamspace.Api Handling

/-! ## The payload -/

/-- `{"main": color}`. -/
def mainColor (color : Json) : Json := .obj [("main", color)]

/-- The base of a button. -/
def buttonBase (fields : Dict) : Json := .obj [("base", .obj fields)]

/-- `{"borderRadius": radius}`. -/
def borderRadius (radius : String) : String × Json :=
  ("border", .obj [("borderRadius", .str radius)])

/-- `{"color": color}`. -/
def fontColor (color : String) : String × Json := ("font", .obj [("color", .str color)])

/-- A white background. -/
def whiteBackground : String × Json :=
  ("background", .obj [("backgroundColor", .str "#FFFFFF")])

/-- `theme.LIGHT.buttons`. -/
def themeButtons : Json := .obj [
  ("externalConnection", buttonBase [whiteBackground, borderRadius "22px", fontColor "#000000de"]),
  ("primary", buttonBase [borderRadius "22px", fontColor "#ffffffe6"]),
  ("secondary", buttonBase [borderRadius "22px", fontColor "#000000de"])]

/-- `theme.LIGHT.colors`. -/
def themeColors (primary secondary : Json) : Json := .obj [
  ("alerts", .obj [
    ("error", mainColor (.str "#ffd8d8")),
    ("info", mainColor (.str "#eff7fd")),
    ("neutral", mainColor (.str "#f8f8f9")),
    ("warning", mainColor (.str "#fff6e7"))]),
  ("background", .obj [
    ("body", mainColor (.str "#fbfbfb")),
    ("surface", .obj [
      ("main", .str "#ffffff"),
      ("dark", .str "#F6F4F2"),
      ("light", .str "#f9fafb"),
      ("inverted", .str "#212A32")])]),
  ("illustrations", .obj [
    ("accent1", mainColor (.str "#3865B5")),
    ("accent2", mainColor (.str "#19BECE")),
    ("accent3", mainColor (.str "#FFFFFF")),
    ("primary", mainColor primary),
    ("secondary", mainColor (.str "#E0E1E2"))]),
  ("outlined", .obj [("default", .str "#dadce0")]),
  ("primary", mainColor primary),
  ("secondary", mainColor secondary),
  ("text", .obj [("primary", .str "#000000de"), ("secondary", .str "#00000066")])]

/-- `theme.LIGHT.images`. -/
def themeImages (logoUrl logoAlt faviconUrl : Json) : Json := .obj [
  ("favicon", .obj [("imgURL", faviconUrl)]),
  ("logo", .obj [("altText", logoAlt), ("imgURL", logoUrl)]),
  ("myAccountLogo", .obj [("title", .str "Account")])]

/-- `build_is_branding_payload`. -/
def buildIsBrandingPayload (data : Dict) (orgName : String) : Json :=
  let get (k default' : String) : Json := (Dict.get data k).getD (.str default')
  let primary := get "primary_color" defaultPrimaryColor
  let secondary := get "secondary_color" defaultSecondaryColor
  let logoUrl := get "logo_url" ""
  let logoAlt := get "logo_alt_text" ""
  let faviconUrl := get "favicon_url" ""
  .obj [
    ("type", .str "ORG"),
    ("locale", .str "en-US"),
    ("preference", .obj [
      ("configs", .obj [
        ("isBrandingEnabled", .bool true),
        ("removeDefaultBranding", .bool true)]),
      ("layout", .obj [("activeLayout", .str "centered")]),
      ("organizationDetails", .obj [
        ("displayName", .str orgName),
        ("supportEmail", .str "")]),
      ("theme", .obj [
        ("activeTheme", .str "LIGHT"),
        ("LIGHT", .obj [
          ("buttons", themeButtons),
          ("colors", themeColors primary secondary),
          ("images", themeImages logoUrl logoAlt faviconUrl),
          ("inputs", .obj [("base", .obj [whiteBackground, borderRadius "8px"])]),
          ("loginBox", .obj [("border", .obj [
            ("borderRadius", .str "12px"),
            ("borderWidth", .str "1px")])]),
          ("typography", .obj [("font", .obj [("fontFamily", .str "Gilmer")])])])]),
      ("urls", .obj [
        ("cookiePolicyURL", .str ""),
        ("privacyPolicyURL", .str ""),
        ("termsOfUseURL", .str "")])])]

/-! ## The fields -/

/-- The five fields of a branding. -/
structure BrandingRecord where
  logoUrl : String
  logoAltText : String
  faviconUrl : String
  primaryColor : String
  secondaryColor : String
  deriving DecidableEq, Repr

namespace BrandingRecord

/-- The fields stand in the data, possibly among others. -/
structure Within (b : BrandingRecord) (data : Dict) : Prop where
  logoUrl : Dict.get data "logo_url" = some (.str b.logoUrl)
  logoAltText : Dict.get data "logo_alt_text" = some (.str b.logoAltText)
  faviconUrl : Dict.get data "favicon_url" = some (.str b.faviconUrl)
  primaryColor : Dict.get data "primary_color" = some (.str b.primaryColor)
  secondaryColor : Dict.get data "secondary_color" = some (.str b.secondaryColor)

/-- The fields as the branding of an organization. -/
def ofOrg (b : BrandingRecord) (orgId : String) : PersonalizationUpsert where
  org := orgId
  logoUrl := some b.logoUrl
  logoAltText := some b.logoAltText
  faviconUrl := some b.faviconUrl
  primaryColor := some b.primaryColor
  secondaryColor := some b.secondaryColor

/-- The fields of a branding stand in what it is dumped to. -/
theorem within_dump (b : BrandingRecord) (orgId : String) : b.Within (b.ofOrg orgId).dump :=
  ⟨rfl, rfl, rfl, rfl, rfl⟩

end BrandingRecord

/-! ## What IS shows -/

/-- The document shows the preference of the payload. -/
def SamePreference (payload data : Json) : Prop :=
  ∃ preference, payload.get "preference" = .ok (some preference) ∧
    data.get "preference" = .ok (some preference)

/-- IS keeps the payload that it has accepted last, and shows its preference. -/
inductive PreferenceAnswers : IsAnswers Json
  | put {auth : IsAuth} {data : PersonalizationUpsert} {orgName : String} {kept : Json}
      {r : IsResponse} : r.statusCode ∈ [200, 201] →
      PreferenceAnswers auth (.putBranding data orgName) kept (some r)
        (buildIsBrandingPayload data.dump orgName)
  | post {auth : IsAuth} {data : PersonalizationUpsert} {orgName : String} {kept : Json}
      {r : IsResponse} : r.statusCode ∈ [200, 201] →
      PreferenceAnswers auth (.postBranding data orgName) kept (some r)
        (buildIsBrandingPayload data.dump orgName)
  | refused {auth : IsAuth} {call : IsCall} {kept : Json} {response : Option IsResponse} :
      (∀ orgId, call ≠ .resolveBranding orgId) → (∀ r ∈ response, r.statusCode ∉ [200, 201]) →
      PreferenceAnswers auth call kept response kept
  | resolve {auth : IsAuth} {orgId : String} {kept data : Json} : SamePreference kept data →
      PreferenceAnswers auth (.resolveBranding orgId) kept (some ⟨200, .preference data⟩) kept

/-- The environment in which IS shows what it was sent. -/
abbrev preferenceEnv (D : Driver) : Environment portal (PortalWorld Json) :=
  portalEnv D PreferenceAnswers

/-- What is there needs no default. -/
theorem getOr_of_get {v x default' : Json} {k : String} (h : v.get k = .ok (some x)) :
    getOr v k default' = .ok x := by
  unfold getOr
  rw [h]
  rfl

/-- What is read of a document that shows the preference of a payload is what was put into the
payload. -/
theorem ofData_payload {data : Dict} {b : BrandingRecord} (hb : b.Within data) (orgName : String)
    {shown : Json} (hshown : SamePreference (buildIsBrandingPayload data orgName) shown)
    (orgId : String) :
    IsBranding.ofData orgId shown = .ok ⟨orgId, .str b.logoUrl, .str b.logoAltText,
      .str b.faviconUrl, .str b.primaryColor, .str b.secondaryColor⟩ := by
  obtain ⟨preference, hpayload, hpreference⟩ := hshown
  unfold buildIsBrandingPayload at hpayload
  dsimp only at hpayload
  rw [hb.logoUrl, hb.logoAltText, hb.faviconUrl, hb.primaryColor, hb.secondaryColor] at hpayload
  cases hpayload
  unfold IsBranding.ofData
  rw [getOr_of_get hpreference]
  rfl

/-- What IS shows of a payload is a branding that the Business API takes. -/
theorem shown_payload {data : Dict} {b : BrandingRecord} (hb : b.Within data) (orgName : String)
    {shown : Json} (hshown : SamePreference (buildIsBrandingPayload data orgName) shown)
    (orgId : String) :
    shownBranding orgId ⟨200, .preference shown⟩ = some (.ok (b.ofOrg orgId)) := by
  have hdata := ofData_payload hb orgName hshown orgId
  obtain ⟨preference, -, hpreference⟩ := hshown
  have htruthy : shown.truthy = true := by
    cases shown with
    | obj fields =>
      cases fields with
      | nil => cases hpreference
      | cons field fields => rfl
    | _ => cases hpreference
  unfold shownBranding
  dsimp only
  rw [htruthy, hdata]
  rfl

section

variable {D : Driver} {w : PortalWorld Json} {orgId token : String}

/-- What IS was sent last is what is fetched: the same five fields, for the organization that is
asked for. -/
theorem branding_round_trip {data : Dict} {b : BrandingRecord} (hb : b.Within data)
    {orgName : String} (hkept : w.is = buildIsBrandingPayload data orgName) (htoken : token ≠ "") :
    (preferenceEnv D).Ends (fetchBrandingFromIs orgId token) w
      (Environment.Settled fun branding u => branding = some (.ok (b.ofOrg orgId)) ∧ u = w) := by
  unfold fetchBrandingFromIs
  rw [if_neg htoken]
  refine callIs_then (fun r s h => ?_) fun s h => ?_
  · cases h with
    | resolve hshown => exact ⟨shown_payload hb orgName (hkept ▸ hshown) orgId, rfl⟩
    | refused hcall => exact absurd rfl (hcall orgId)
  · cases h with
    | refused hcall => exact absurd rfl (hcall orgId)

/-- An update of the branding and then what a page reads from IS. -/
def updateAndFetch (b : BrandingRecord) (orgId orgName token : String) :
    Handling (DualWriteResult × Option (Parsed PersonalizationUpsert)) := do
  let res ← IsOps.updateBranding (b.ofOrg orgId) token orgName
  let shown ← fetchBrandingFromIs orgId token
  return (res, shown)

/-- An update that reports that IS has the branding leaves IS with its payload. -/
theorem updateBranding_keeps (b : BrandingRecord) (orgName : String) :
    (preferenceEnv D).Ends (IsOps.updateBranding (b.ofOrg orgId) token orgName) w
      (Environment.Returning fun res u => res.isSuccess = true →
        u.is = buildIsBrandingPayload (b.ofOrg orgId).dump orgName) := by
  unfold IsOps.updateBranding
  refine apiRequest_then fun dbResult db _ => ?_
  split
  · exact nofun
  split
  · exact nofun
  refine callIs_then (fun r s h => ?_) fun _ _ => trivial
  split
  · next hstatus =>
    intro _
    cases h with
    | put => rfl
    | refused _ hrefused => exact absurd hstatus (hrefused r rfl)
  split
  · exact nofun
  refine callIs_then (fun r s h => ?_) fun _ _ => trivial
  split
  · next hstatus =>
    intro _
    cases h with
    | post => rfl
    | refused _ hrefused => exact absurd hstatus (hrefused r rfl)
  · exact nofun

/-- After an update that reports success, IS shows the branding that was saved. -/
theorem updated_branding_shown (b : BrandingRecord) {orgName : String} (htoken : token ≠ "") :
    (preferenceEnv D).Ends (updateAndFetch b orgId orgName token) w
      (Environment.Returning fun out _ => out.1.isSuccess = true →
        out.2 = some (.ok (b.ofOrg orgId))) := by
  refine (updateBranding_keeps b orgName).returning fun res u hres => ?_
  by_cases hsuccess : res.isSuccess = true
  · refine (branding_round_trip (b.within_dump orgId) (hres hsuccess) htoken).settled ?_
    exact fun shown v hshown _ => hshown.1
  · have hany : (preferenceEnv D).Ends (fetchBrandingFromIs orgId token) u
        (Environment.Returning fun _ _ => True) := Environment.ends_iff.2 fun x _ _ => by
      cases x <;> trivial
    exact hany.returning fun shown v _ h => absurd h hsuccess

end

/-- The branding of an organization. -/
def acmeBranding : BrandingRecord := ⟨"https://a/logo", "Acme", "", "#111111", "#eeeeee"⟩

/-- The portal, whose IS was sent that branding last. -/
def acmeWorld : PortalWorld Json where
  session := ⟨none, some "t", [], true, none, none, none⟩
  flashes := []
  db := .empty
  is := buildIsBrandingPayload (acmeBranding.ofOrg "o").dump "Acme"

/-- Acme's branding is fetched as it was sent. -/
theorem branding_round_trip_acme :
    (preferenceEnv .sqlite).Ends (fetchBrandingFromIs "o" "t") acmeWorld
      (Environment.Settled fun branding u =>
        branding = some (.ok (acmeBranding.ofOrg "o")) ∧ u = acmeWorld) :=
  branding_round_trip (acmeBranding.within_dump "o") rfl (by decide)

end Teamspace.Webapp
