import Teamspace.Webapp.EditIdpRuns
import Teamspace.Webapp.GroupNames
import Teamspace.Webapp.LoginFlow

/-!
# Saving what the edit page shows

After an IdP has been saved, its edit page shows what was saved. If the form of the save is one
that the page keeps (`Keepable`), as the forms are that a browser sends from it, then saving the page
as it is changes nothing in IS, whichever of its calls IS refuses (`edit_page_round_trip`). So the
page may be opened and saved any number of times, by any administrators of the organization.
-/

namespace Teamspace.Webapp

open Teamspace.Py Teamspace.Lib Teamspace.Api Handling

/-! ## The form of the page -/

section

variable {page : EditPage} {k roleId : String}

/-- No field of a role has a key that begins in another way. -/
theorem roleField_ne (hk : k.toList.take 12 ≠ "role_groups[".toList) : roleField roleId ≠ k := by
  rintro rfl
  simp [roleField] at hk

/-- Each role has a field of its own. -/
theorem roleField_inj {roleId' : String} (h : roleField roleId = roleField roleId') :
    roleId = roleId' := by
  simpa [roleField] using h

/-- The fixed fields of the page are not those of roles. -/
theorem fields_keys : ∀ k ∈ page.fields.map Prod.fst, k.toList.take 12 ≠ "role_groups[".toList := by
  have hkeys : page.fields.map Prod.fst = ["name", "client_id", "client_secret", "auth_endpoint",
      "token_endpoint", "jwks_uri", "userinfo_endpoint", "logout_endpoint", "scopes"] ++
      (if page.jitEnabled then ["jit_enabled"] else []) ++ ["group_attribute", "groups"] := by
    unfold EditPage.fields
    cases page.jitEnabled <;> rfl
  rw [hkeys]
  cases page.jitEnabled <;> decide

/-- The box of the provisioning is sent if it is checked. -/
theorem lookup_jitEnabled :
    page.fields.lookup "jit_enabled" = if page.jitEnabled then some "true" else none := by
  unfold EditPage.fields
  cases page.jitEnabled <;> simp [List.lookup_cons]

/-- The attribute of the groups is sent as it is shown, or else the default one. -/
theorem lookup_groupAttribute : page.fields.lookup "group_attribute" =
    some (textInput (orElse (page.groupAttribute.getD "") "groups")) := by
  unfold EditPage.fields
  cases page.jitEnabled <;> simp [List.lookup_cons]

/-- The external groups are sent as one text. -/
theorem lookup_groups :
    page.fields.lookup "groups" = some (textInput (", ".intercalate page.externalGroups)) := by
  unfold EditPage.fields
  cases page.jitEnabled <;> simp [List.lookup_cons]

/-- The fields of the roles are no others. -/
theorem get_form (hk : k.toList.take 12 ≠ "role_groups[".toList) :
    page.form.get k = page.fields.lookup k := by
  have hroles : (page.roles.flatMap page.checked).lookup k = none := by
    refine List.lookup_eq_none_iff.2 fun field hfield => ?_
    obtain ⟨role, -, hfield⟩ := List.mem_flatMap.1 hfield
    obtain ⟨g, -, rfl⟩ := List.mem_map.1 hfield
    simpa using (roleField_ne hk).symm
  unfold Form.get EditPage.form
  rw [List.lookup_append, hroles, Option.or_none]

/-- The groups that the page selects for a role. -/
theorem mem_getlist_form {g : String} : g ∈ page.form.getlist (roleField roleId) ↔
    ∃ role ∈ page.roles, role.id = roleId ∧ ∃ n ∈ page.externalGroups, n ∈ role.mappedGroups ∧
      checkboxInput n = g := by
  unfold Form.getlist EditPage.form
  rw [List.filter_append, List.map_append, List.mem_append]
  have hfields : page.fields.filter (fun field => field.1 = roleField roleId) = [] := by
    refine List.filter_eq_nil_iff.2 fun field hfield h => ?_
    exact roleField_ne (fields_keys _ (List.mem_map_of_mem hfield)) (of_decide_eq_true h).symm
  rw [hfields]
  constructor
  · rintro (h | h)
    · cases h
    · obtain ⟨field, hfield, rfl⟩ := List.mem_map.1 h
      obtain ⟨hfield, hkey⟩ := List.mem_filter.1 hfield
      obtain ⟨role, hrole, hfield⟩ := List.mem_flatMap.1 hfield
      obtain ⟨n, hn, rfl⟩ := List.mem_map.1 hfield
      obtain ⟨hn, hmapped⟩ := List.mem_filter.1 hn
      exact ⟨role, hrole, roleField_inj (of_decide_eq_true hkey), n, hn,
        of_decide_eq_true hmapped, rfl⟩
  · rintro ⟨role, hrole, rfl, n, hn, hmapped, rfl⟩
    refine .inr (List.mem_map.2
      ⟨(roleField role.id, checkboxInput n), List.mem_filter.2 ⟨?_, by simp⟩, rfl⟩)
    exact List.mem_flatMap.2 ⟨role, hrole,
      List.mem_map.2 ⟨n, List.mem_filter.2 ⟨hn, decide_eq_true hmapped⟩, rfl⟩⟩

end

/-! ## Authenticators -/

/-- A form that the page keeps: the values are as its inputs hold them, the attribute of the groups
that it requires is there, and no endpoint that goes with the token endpoint, and is written for want
of another, has blanks around it. -/
structure Keepable (form : Form) : Prop where
  text : ∀ k ∈ ["name", "client_id", "scopes", "group_attribute", "groups"], ∀ v,
    form.get k = some v → textInput v = v
  url : ∀ k ∈ ["auth_endpoint", "token_endpoint", "jwks_uri", "userinfo_endpoint",
    "logout_endpoint"], ∀ v, form.get k = some v → urlInput v = v
  groupAttribute : form.get "group_attribute" ≠ some ""
  jwksUri : ∀ t, form.get "token_endpoint" = some t → stripped form "jwks_uri" = "" →
    strip (urlInput (t.replace "/oauth2/token" "/oauth2/jwks")) =
      t.replace "/oauth2/token" "/oauth2/jwks"
  userinfoEndpoint : ∀ t, form.get "token_endpoint" = some t →
    stripped form "userinfo_endpoint" = "" →
    strip (urlInput (t.replace "/oauth2/token" "/oauth2/userinfo")) =
      t.replace "/oauth2/token" "/oauth2/userinfo"
  logoutEndpoint : ∀ t, form.get "token_endpoint" = some t →
    stripped form "logout_endpoint" = "" →
    strip (urlInput (t.replace "/oauth2/token" "/oidc/logout")) =
      t.replace "/oauth2/token" "/oidc/logout"

/-- A text that is not empty needs no default. -/
theorem orElse_ne {a b : String} (h : a ≠ "") : orElse a b = a := if_neg h

/-- An empty text has the default. -/
theorem orElse_empty (b : String) : orElse "" b = b := if_pos rfl

/-- A default is taken once. -/
theorem orElse_orElse (a b : String) : orElse (orElse a b) b = orElse a b := by
  by_cases ha : a = ""
  · rw [ha, orElse_empty]
    exact ite_id ..
  · rw [orElse_ne ha, orElse_ne ha]

namespace OidcSettings.From

variable {form : Form} {o : OidcSettings}

/-- The address of the keys is that of the form, or goes with the token endpoint. -/
theorem jwksUri (h : o.From form) :
    o.jwksUri = endpoint form "jwks_uri" o.tokenEndpoint "/oauth2/jwks" := by
  simpa only [ofForm] using congrArg OidcSettings.jwksUri h.settings

/-- So does the userinfo endpoint. -/
theorem userinfoEndpoint (h : o.From form) :
    o.userinfoEndpoint = endpoint form "userinfo_endpoint" o.tokenEndpoint "/oauth2/userinfo" := by
  simpa only [ofForm] using congrArg OidcSettings.userinfoEndpoint h.settings

/-- And the logout endpoint. -/
theorem logoutEndpoint (h : o.From form) :
    o.logoutEndpoint = endpoint form "logout_endpoint" o.tokenEndpoint "/oidc/logout" := by
  simpa only [ofForm] using congrArg OidcSettings.logoutEndpoint h.settings

/-- The scopes are those of the form, or the default ones. -/
theorem scopes (h : o.From form) :
    o.scopes = orElse (strip (orElse ((form.get "scopes").getD defaultScopes) defaultScopes))
      defaultScopes := by
  simpa only [ofForm] using congrArg OidcSettings.scopes h.settings

end OidcSettings.From

/-- A text that is read once more is the same, where the text for want of another has no blanks
around it. -/
theorem strip_orElse {a b : String} (hb : strip a = "" → strip b = b) :
    orElse (strip (orElse (strip a) b)) b = orElse (strip a) b := by
  by_cases ha : strip a = ""
  · rw [ha, orElse_empty, hb ha]
    exact ite_id ..
  · rw [orElse_ne ha, strip_strip, orElse_ne ha]

section

variable {C : PortalConfig} {orgId : String} {form : Form} {s : EditIs} {o : OidcSettings}

/-- The page, of an IdP with these settings. -/
theorem page_eq (h : s.properties = o.properties C orgId) : s.page = {
    name := some s.name
    clientId := some o.clientId
    authEndpoint := some o.authEndpoint
    tokenEndpoint := some o.tokenEndpoint
    jwksUri := some o.jwksUri
    userinfoEndpoint := some o.userinfoEndpoint
    logoutEndpoint := some o.logoutEndpoint
    scopes := some o.scopes
    jitEnabled := s.jitEnabled
    groupAttribute := groupAttributeOf s.claims.mappings
    externalGroups := (s.groups.map GroupRow.name).filter (· ≠ "")
    roles := s.roles.map s.roleMapping } := by
  unfold EditIs.page EditIs.prop EditIs.keyed
  rw [h]
  simp [propOf, OidcSettings.properties, List.lookup_cons]

/-- The secret that a save of the page writes is the one that IS has. -/
theorem clientSecretOf_page (h : s.properties = o.properties C orgId) :
    clientSecretOf s.page.form s.keyed = o.clientSecret := by
  have hsecret : s.page.form.get "client_secret" = some "" := by
    rw [get_form (by decide)]
    simp [EditPage.fields, List.lookup_cons]
  have hprop : propOf s.keyed "ClientSecret" = some o.clientSecret := by
    unfold EditIs.keyed
    rw [h]
    simp [propOf, OidcSettings.properties, List.lookup_cons]
  unfold clientSecretOf
  rw [hsecret, hprop]
  rfl

/-- A field that is there is stripped. -/
theorem stripped_eq {k v : String} (h : form.get k = some v) : stripped form k = strip v := by
  unfold stripped
  rw [h]
  rfl

/-- An endpoint that the page shows is the one that a save of the page writes. -/
theorem endpoint_page {k t path v : String} {page : EditPage}
    (hk : page.form.get k = some (urlInput v)) (hv : v = OidcSettings.endpoint form k t path)
    (hurl : ∀ v, form.get k = some v → urlInput v = v)
    (hpath : stripped form k = "" → strip (urlInput (t.replace "/oauth2/token" path)) =
      t.replace "/oauth2/token" path) :
    OidcSettings.endpoint page.form k t path = v := by
  unfold OidcSettings.endpoint at hv ⊢
  rw [stripped_eq hk]
  by_cases hempty : stripped form k = ""
  · rw [hempty, orElse_empty] at hv
    rw [hv, hpath hempty]
    exact ite_id ..
  · rw [orElse_ne hempty] at hv
    obtain ⟨given, hgiven⟩ : ∃ given, form.get k = some given := by
      refine Option.ne_none_iff_exists'.1 fun hnone => hempty ?_
      unfold stripped
      rw [hnone]
      rfl
    rw [stripped_eq hgiven] at hv hempty
    have hone := oneLine_of_urlInput (hurl _ hgiven)
    rw [hv, urlInput_strip hone, strip_strip, orElse_ne hempty]

/-- The scopes that are written have no newline. -/
theorem oneLine_scopes (ho : o.From form) (hform : Keepable form) : OneLine o.scopes := by
  have hdefault : OneLine OidcSettings.defaultScopes := by
    have hall : (OidcSettings.defaultScopes.toList.all fun c => !isNewline c) = true := by
      decide +kernel
    intro c hc
    simpa using List.all_eq_true.1 hall c hc
  have hgiven : OneLine ((form.get "scopes").getD OidcSettings.defaultScopes) := by
    cases hget : form.get "scopes" with
    | none => exact hdefault
    | some v => exact oneLine_of_textInput (hform.text _ (by simp) _ hget)
  have hor : ∀ {a : String}, OneLine a → OneLine (orElse a OidcSettings.defaultScopes) := by
    intro a ha
    by_cases hempty : a = ""
    · rwa [hempty, orElse_empty]
    · rwa [orElse_ne hempty]
  rw [ho.scopes]
  exact hor (hor hgiven).strip

/-- The settings of the page are those that IS has. -/
theorem ofForm_page (h : s.properties = o.properties C orgId) (ho : o.From form)
    (hform : Keepable form) :
    .ofForm s.page.form o.clientId o.clientSecret o.authEndpoint o.tokenEndpoint = o := by
  have hpage := page_eq h
  have hjwks : s.page.form.get "jwks_uri" = some (urlInput o.jwksUri) := by
    rw [get_form (by decide), hpage]
    simp [EditPage.fields, List.lookup_cons, printed]
  have huserinfo : s.page.form.get "userinfo_endpoint" = some (urlInput o.userinfoEndpoint) := by
    rw [get_form (by decide), hpage]
    simp [EditPage.fields, List.lookup_cons, printed]
  have hlogout : s.page.form.get "logout_endpoint" = some (urlInput o.logoutEndpoint) := by
    rw [get_form (by decide), hpage]
    simp [EditPage.fields, List.lookup_cons, printed]
  have hscopes : s.page.form.get "scopes" = some o.scopes := by
    rw [get_form (by decide), hpage]
    simp [EditPage.fields, List.lookup_cons, printed, (oneLine_scopes ho hform).textInput]
  have hjwks := endpoint_page hjwks ho.jwksUri (hform.url _ (by simp))
    (hform.jwksUri _ ho.tokenEndpoint)
  have huserinfo := endpoint_page huserinfo ho.userinfoEndpoint (hform.url _ (by simp))
    (hform.userinfoEndpoint _ ho.tokenEndpoint)
  have hlogout := endpoint_page hlogout ho.logoutEndpoint (hform.url _ (by simp))
    (hform.logoutEndpoint _ ho.tokenEndpoint)
  have hdefault : strip OidcSettings.defaultScopes = OidcSettings.defaultScopes := by
    decide +kernel
  have hread : orElse (strip (orElse ((s.page.form.get "scopes").getD OidcSettings.defaultScopes)
      OidcSettings.defaultScopes)) OidcSettings.defaultScopes = o.scopes := by
    rw [hscopes, Option.getD_some, ho.scopes, orElse_orElse]
    exact strip_orElse fun _ => hdefault
  unfold OidcSettings.ofForm
  rw [hjwks, huserinfo, hlogout, hread]

end

/-! ## Claims -/

section

variable {index : ClaimIndex} {uri : String} {claim : String × ClaimInfo}

/-- A local claim is made with its URI. -/
theorem makeLocalClaim_uri : (makeLocalClaim index uri).uri = some uri := by
  unfold makeLocalClaim
  split <;> rfl

/-- A claim that is in the index is made with its id and its name. -/
theorem makeLocalClaim_of_some {info : ClaimInfo} (h : index uri = some info) :
    makeLocalClaim index uri = ⟨some uri, info.id, info.displayName⟩ := by
  unfold makeLocalClaim
  rw [h]

/-- The id of a claim depends on its entry in the index. -/
theorem idOf_congr {index' : ClaimIndex} (h : index' uri = index uri) :
    index'.idOf uri = index.idOf uri := by
  unfold ClaimIndex.idOf
  rw [h]

/-- Another claim is left as it is. -/
theorem orDefault_of_ne (h : uri ≠ claim.1) : index.orDefault claim uri = index uri := by
  unfold ClaimIndex.orDefault
  split
  · rfl
  · exact Function.update_of_ne h ..

/-- A claim that has an id is left as it is. -/
theorem orDefault_of_isSome (h : (index.idOf claim.1).isSome) : index.orDefault claim = index :=
  if_pos h

/-- A claim that has a default id has an id. -/
theorem orDefault_isSome {id : String} (hid : claim.2.id = some id) (hne : id ≠ "") :
    ((index.orDefault claim).idOf claim.1).isSome := by
  unfold ClaimIndex.orDefault
  split
  · assumption
  · simp [ClaimIndex.idOf, hid, hne]

/-- The claims that a save writes have ids. -/
theorem buildLocalClaimsIndex_isSome (claims : IdpClaims) :
    ∀ uri ∈ [usernameClaim, emailClaim, rolesClaim],
      ((buildLocalClaimsIndex claims).idOf uri).isSome := by
  have hue : usernameClaim ≠ emailClaim := by decide
  have hur : usernameClaim ≠ rolesClaim := by decide
  have her : emailClaim ≠ rolesClaim := by decide
  unfold buildLocalClaimsIndex defaultLocalClaims
  simp only [List.foldl_cons, List.foldl_nil, List.forall_mem_cons]
  refine ⟨?_, ?_, ?_, List.forall_mem_nil _⟩
  · rw [idOf_congr (orDefault_of_ne hur), idOf_congr (orDefault_of_ne hue)]
    exact orDefault_isSome rfl (by decide)
  · rw [idOf_congr (orDefault_of_ne her)]
    exact orDefault_isSome rfl (by decide)
  · exact orDefault_isSome rfl (by decide)

/-- Putting a claim that was made from an index copies its entry. -/
theorem put_makeLocalClaim (hne : uri ≠ "") (h : (index.idOf uri).isSome) (start : ClaimIndex) :
    start.put (makeLocalClaim index uri) = Function.update start uri (index uri) := by
  cases hinfo : index uri with
  | none => simp [ClaimIndex.idOf, hinfo] at h
  | some info =>
    rw [makeLocalClaim_of_some hinfo]
    unfold ClaimIndex.put
    rw [Option.filter_some, if_pos (decide_eq_true hne)]

/-- Claims of an index that are put into another one are as they were. -/
theorem foldl_put {uris : List String}
    (huris : ∀ uri ∈ uris, uri ≠ "" ∧ (index.idOf uri).isSome) {start : ClaimIndex}
    (h : uri ∈ uris ∨ start uri = index uri) :
    (uris.map (makeLocalClaim index)).foldl ClaimIndex.put start uri = index uri := by
  induction uris generalizing start with
  | nil => exact h.resolve_left List.not_mem_nil
  | cons v uris ih =>
    obtain ⟨⟨hne, hid⟩, huris⟩ := List.forall_mem_cons.1 huris
    rw [List.map_cons, List.foldl_cons, put_makeLocalClaim hne hid]
    refine ih huris ?_
    by_cases huv : uri = v
    · subst huv
      exact .inr (Function.update_self ..)
    · rw [Function.update_of_ne huv]
      exact h.imp_left fun h => (List.mem_cons.1 h).resolve_left huv

/-- What is written of the claims depends on the claims that are written. -/
theorem buildClaimsPutBody_congr {index' : ClaimIndex} (groupAttribute : String)
    (h : ∀ uri ∈ [usernameClaim, emailClaim, rolesClaim], index' uri = index uri) :
    buildClaimsPutBody index' groupAttribute = buildClaimsPutBody index groupAttribute := by
  have hclaim : ∀ uri ∈ [usernameClaim, emailClaim, rolesClaim],
      makeLocalClaim index' uri = makeLocalClaim index uri := by
    intro uri huri
    unfold makeLocalClaim
    rw [h uri huri]
  simp only [List.forall_mem_cons] at hclaim
  obtain ⟨husername, hemail, hroles, -⟩ := hclaim
  unfold buildClaimsPutBody
  rw [husername, hemail, hroles]

/-- Claims that have been written are written in the same way again. -/
theorem buildClaimsPutBody_again (before : IdpClaims) (groupAttribute : String) :
    buildClaimsPutBody (buildLocalClaimsIndex
      (buildClaimsPutBody (buildLocalClaimsIndex before) groupAttribute)) groupAttribute =
      buildClaimsPutBody (buildLocalClaimsIndex before) groupAttribute := by
  have hids := buildLocalClaimsIndex_isSome before
  generalize buildLocalClaimsIndex before = index at hids ⊢
  have hne : ∀ uri ∈ [usernameClaim, emailClaim, rolesClaim], uri ≠ "" := by decide
  let uris := [emailClaim, rolesClaim, usernameClaim, emailClaim, rolesClaim, rolesClaim]
  have hperm : ∀ uri, uri ∈ uris ↔ uri ∈ [usernameClaim, emailClaim, rolesClaim] := by
    intro uri
    simp only [uris, List.mem_cons, List.not_mem_nil, or_false]
    tauto
  have hput (uri : String) (huri : uri ∈ [usernameClaim, emailClaim, rolesClaim]) :
      (uris.map (makeLocalClaim index)).foldl ClaimIndex.put (fun _ => none) uri = index uri :=
    foldl_put (fun v hv => ⟨hne v ((hperm v).1 hv), hids v ((hperm v).1 hv)⟩)
      (.inl ((hperm uri).2 huri))
  have hdefault : buildLocalClaimsIndex (buildClaimsPutBody index groupAttribute) =
      (uris.map (makeLocalClaim index)).foldl ClaimIndex.put fun _ => none := by
    have hsome (uri : String) (huri : uri ∈ [usernameClaim, emailClaim, rolesClaim]) :=
      (idOf_congr (hput uri huri)).symm ▸ hids uri huri
    change defaultLocalClaims.foldl ClaimIndex.orDefault
      ((uris.map (makeLocalClaim index)).foldl ClaimIndex.put fun _ => none) = _
    unfold defaultLocalClaims
    rw [List.foldl_cons, orDefault_of_isSome (hsome _ (by simp)), List.foldl_cons,
      orDefault_of_isSome (hsome _ (by simp)), List.foldl_cons,
      orDefault_of_isSome (hsome _ (by simp)), List.foldl_nil]
  rw [hdefault]
  exact buildClaimsPutBody_congr groupAttribute hput

/-- The attribute of the groups is read back. -/
theorem groupAttributeOf_written (groupAttribute : String) :
    groupAttributeOf (buildClaimsPutBody index groupAttribute).mappings = some groupAttribute := by
  have hu : usernameClaim ≠ groupsClaim ∧ usernameClaim ≠ rolesClaim := by decide
  have he : emailClaim ≠ groupsClaim ∧ emailClaim ≠ rolesClaim := by decide
  simp [groupAttributeOf, buildClaimsPutBody, makeLocalClaim_uri, hu, he]

end

/-! ## Groups -/

/-- Groups that are replaced by groups of the same names stay. -/
theorem Replaces.same {before after : List GroupRow} {names : List String}
    (h : Replaces before names after) (hnames : before.map GroupRow.name = names) :
    after = before := by
  have hmem (g : GroupRow) (hg : g ∈ before) : g ∈ after :=
    h.kept g hg (hnames ▸ List.mem_map_of_mem hg)
  have horder : after.map GroupRow.name = before.map GroupRow.name := h.order.trans hnames.symm
  refine List.ext_getElem (by simpa using congrArg List.length horder) fun i hi hi' => ?_
  have hname := List.getElem_of_eq horder (by simpa using hi)
  rw [List.getElem_map, List.getElem_map] at hname
  exact List.inj_on_of_nodup_map h.names_nodup (List.getElem_mem hi)
    (hmem _ (List.getElem_mem hi')) hname

section

variable {form : Form} {groups : List GroupRow} {roleId : String}

/-- A role has those groups of the IdP that the form selects for it. -/
theorem mem_combinedGroups (hnodup : (ids groups).Nodup) (hne : ∀ g ∈ groups, g.id ≠ "")
    {before : List String} {g : GroupRow} (hg : g ∈ groups) :
    g.id ∈ combinedGroups form (groups.map GroupRow.shown) roleId before ↔
      g.name ∈ form.getlist (roleField roleId) := by
  rw [combinedGroups_shown hne, List.mem_append]
  constructor
  · rintro (h | h)
    · exact absurd (List.mem_map_of_mem hg) (of_decide_eq_true (List.mem_filter.1 h).2)
    · obtain ⟨g', hg', hid⟩ := List.mem_map.1 h
      obtain ⟨hmem, hname⟩ := List.mem_filter.1 hg'
      obtain rfl := List.inj_on_of_nodup_map hnodup hmem hg hid
      exact of_decide_eq_true hname
  · exact fun h => .inr (List.mem_map_of_mem (List.mem_filter.2 ⟨hg, decide_eq_true h⟩))

/-- The groups of a role that are written once more are the same, if the same are selected. -/
theorem combinedGroups_again {form' : Form} (hne : ∀ g ∈ groups, g.id ≠ "")
    (h : ∀ g ∈ groups, g.name ∈ form'.getlist (roleField roleId) ↔
      g.name ∈ form.getlist (roleField roleId)) (before : List String) :
    combinedGroups form' (groups.map GroupRow.shown) roleId
      (combinedGroups form (groups.map GroupRow.shown) roleId before) =
      combinedGroups form (groups.map GroupRow.shown) roleId before := by
  have hselected : selectedGroups form' groups roleId = selectedGroups form groups roleId :=
    congrArg ids (List.filter_congr fun g hg => decide_eq_decide.2 (h g hg))
  have hnone : (selectedGroups form groups roleId).filter (fun g => g ∉ ids groups) = [] :=
    List.filter_eq_nil_iff.2 fun g hg hout =>
      of_decide_eq_true hout ((selectedGroups_sublist roleId).subset hg)
  rw [combinedGroups_shown hne, combinedGroups_shown hne, hselected, List.filter_append, hnone,
    List.append_nil, List.filter_filter]
  simp

end

/-! ## What the page shows -/

/-- The page shows the values of the form. -/
structure EditPage.Shows (form : Form) (page : EditPage) : Prop where
  name : page.name = form.get "name"
  clientId : page.clientId = form.get "client_id"
  authEndpoint : page.authEndpoint = form.get "auth_endpoint"
  tokenEndpoint : page.tokenEndpoint = form.get "token_endpoint"
  jwksUri : stripped form "jwks_uri" ≠ "" → page.jwksUri = some (stripped form "jwks_uri")
  userinfoEndpoint : stripped form "userinfo_endpoint" ≠ "" →
    page.userinfoEndpoint = some (stripped form "userinfo_endpoint")
  logoutEndpoint : stripped form "logout_endpoint" ≠ "" →
    page.logoutEndpoint = some (stripped form "logout_endpoint")
  jitEnabled : page.jitEnabled = decide (form.get "jit_enabled" = some "true")
  groupAttribute : page.groupAttribute = form.get "group_attribute"
  externalGroups : page.externalGroups = externalGroupNames form
  mappedGroups : ∀ role ∈ page.roles, role.mappedGroups =
    (externalGroupNames form).filter (· ∈ form.getlist (roleField role.id))

namespace Holds

variable {C : PortalConfig} {orgId : String} {form : Form} {s : EditIs}

/-- IS has the groups that the form names. -/
theorem groupNames (h : Holds C orgId form s) :
    s.groups.map GroupRow.name = externalGroupNames form := by
  obtain ⟨before, hgroups⟩ := h.groups
  exact hgroups.order

/-- The page shows the groups that the form names. -/
theorem externalGroups (h : Holds C orgId form s) :
    s.page.externalGroups = externalGroupNames form := by
  change (s.groups.map GroupRow.name).filter _ = _
  rw [h.groupNames]
  exact List.filter_eq_self.2 fun n hn => decide_eq_true (externalGroupNames_valid form n hn).ne

/-- The page shows the attribute of the groups that the form says. -/
theorem groupAttribute (h : Holds C orgId form s) :
    s.page.groupAttribute = form.get "group_attribute" := by
  obtain ⟨before, groupAttribute, hattribute, hclaims⟩ := h.claims
  change groupAttributeOf s.claims.mappings = _
  rw [hclaims, hattribute]
  exact groupAttributeOf_written groupAttribute

/-- The groups of the IdP that the page shows for a role are those that the form selects. -/
theorem mem_roleGroups (h : Holds C orgId form s) {role : String × Option String}
    (hrole : role ∈ s.roles) {g : GroupRow} (hg : g ∈ s.groups) :
    g.id ∈ s.roleGroups role.1 ↔ g.name ∈ form.getlist (roleField role.1) := by
  obtain ⟨_, hgroups⟩ := h.groups
  obtain ⟨before, hbefore⟩ := h.roleGroups role hrole
  rw [hbefore]
  exact mem_combinedGroups hgroups.ids_nodup hgroups.ids_ne hg

/-- The groups of a role are those that the form checks. -/
theorem mappedNames (h : Holds C orgId form s) {role : String × Option String}
    (hrole : role ∈ s.roles) : s.mappedNames role.1 =
      (externalGroupNames form).filter (· ∈ form.getlist (roleField role.1)) := by
  obtain ⟨_, hgroups⟩ := h.groups
  unfold EditIs.mappedNames
  rw [← h.groupNames, List.filter_map]
  congr 1
  refine List.filter_congr fun g hg => ?_
  have hid : g.shown.realId = some g.id := by
    simp [GroupRow.shown, IdpGroup.realId, hgroups.ids_ne g hg]
  rw [hid]
  simp [h.mem_roleGroups hrole hg]

/-- What has been saved is shown. -/
theorem shows (h : Holds C orgId form s) : s.page.Shows form := by
  obtain ⟨o, ho, hproperties⟩ := h.properties
  have hpage := page_eq hproperties
  have hgiven {k v path : String} (hv : v = OidcSettings.endpoint form k o.tokenEndpoint path)
      (hk : stripped form k ≠ "") : some v = some (stripped form k) :=
    congrArg some (hv.trans (orElse_ne hk))
  constructor
  · exact h.name.symm
  · rw [hpage, ho.clientId]
  · rw [hpage, ho.authEndpoint]
  · rw [hpage, ho.tokenEndpoint]
  · rw [hpage]
    exact hgiven ho.jwksUri
  · rw [hpage]
    exact hgiven ho.userinfoEndpoint
  · rw [hpage]
    exact hgiven ho.logoutEndpoint
  · exact h.jitEnabled
  · exact h.groupAttribute
  · exact h.externalGroups
  · intro mapping hmapping
    obtain ⟨role, hrole, rfl⟩ := List.mem_map.1 hmapping
    exact h.mappedNames hrole

/-- The names of the groups have no newline. -/
theorem oneLine_names (hform : Keepable form) : ∀ n ∈ externalGroupNames form, OneLine n :=
  oneLine_externalGroupNames fun v hv => oneLine_of_textInput (hform.text _ (by simp) v hv)

/-- The page selects the groups for a role that the form selects. -/
theorem mem_getlist_page (h : Holds C orgId form s) (hform : Keepable form)
    {role : String × Option String} (hrole : role ∈ s.roles) {g : GroupRow} (hg : g ∈ s.groups) :
    g.name ∈ s.page.form.getlist (roleField role.1) ↔
      g.name ∈ form.getlist (roleField role.1) := by
  have hname : g.name ∈ externalGroupNames form := h.groupNames ▸ List.mem_map_of_mem hg
  rw [mem_getlist_form, h.externalGroups]
  constructor
  · rintro ⟨mapping, hmapping, hid, n, hn, hmapped, hsent⟩
    obtain ⟨role', hrole', rfl⟩ := List.mem_map.1 hmapping
    rw [EditIs.roleMapping, h.mappedNames hrole'] at hmapped
    have hid : role'.1 = role.1 := hid
    obtain rfl : n = g.name := ((oneLine_names hform n hn).checkboxInput).symm.trans hsent
    exact hid ▸ of_decide_eq_true (List.mem_filter.1 hmapped).2
  · intro hselected
    refine ⟨s.roleMapping role, List.mem_map_of_mem hrole, rfl, g.name, hname, ?_,
      (oneLine_names hform _ hname).checkboxInput⟩
    rw [EditIs.roleMapping, h.mappedNames hrole]
    exact List.mem_filter.2 ⟨hname, decide_eq_true hselected⟩

/-- What has been saved is what the page says. -/
theorem fixed (h : Holds C orgId form s) (hform : Keepable form) :
    Fixed C orgId s.page.form s := by
  obtain ⟨o, ho, hproperties⟩ := h.properties
  obtain ⟨before, hgroups⟩ := h.groups
  have hpage := page_eq hproperties
  constructor
  · intro name hname
    rw [get_form (by decide)] at hname
    cases hname
    exact hform.text _ (by simp) _ h.name
  · intro clientId authEndpoint tokenEndpoint hid hauth htoken
    rw [get_form (by decide), hpage] at hid hauth htoken
    have hid : clientId = o.clientId :=
      (Option.some.inj hid).symm.trans (hform.text _ (by simp) _ ho.clientId)
    have hauth : authEndpoint = o.authEndpoint :=
      (Option.some.inj hauth).symm.trans (hform.url _ (by simp) _ ho.authEndpoint)
    have htoken : tokenEndpoint = o.tokenEndpoint :=
      (Option.some.inj htoken).symm.trans (hform.url _ (by simp) _ ho.tokenEndpoint)
    rw [hid, hauth, htoken, clientSecretOf_page hproperties, hproperties]
    exact congrArg (OidcSettings.properties C orgId) (ofForm_page hproperties ho hform)
  · rw [get_form (by decide), lookup_jitEnabled]
    change decide ((if s.jitEnabled then some "true" else none) = some "true") = s.jitEnabled
    cases s.jitEnabled <;> rfl
  · intro groupAttribute hget
    obtain ⟨claims, written, hsaved, hclaims⟩ := h.claims
    have hne : written ≠ "" := fun hempty => hform.groupAttribute (hempty ▸ hsaved)
    have hshown : s.page.form.get "group_attribute" = some written := by
      rw [get_form (by decide), lookup_groupAttribute, h.groupAttribute, hsaved, Option.getD_some,
        orElse_ne hne, hform.text _ (by simp) _ hsaved]
    obtain rfl : written = groupAttribute := Option.some.inj (hshown.symm.trans hget)
    rw [hclaims]
    exact buildClaimsPutBody_again claims written
  · intro after hafter
    have hget : s.page.form.get "groups" = some (", ".intercalate (externalGroupNames form)) := by
      rw [get_form (by decide), lookup_groups, h.externalGroups,
        (oneLine_intercalate (oneLine_names hform)).textInput]
    rw [externalGroupNames_shown (externalGroupNames_valid form) hget] at hafter
    exact hafter.same h.groupNames
  · intro role hrole
    obtain ⟨before, hbefore⟩ := h.roleGroups role hrole
    rw [hbefore]
    exact combinedGroups_again hgroups.ids_ne (fun g hg => h.mem_getlist_page hform hrole hg) before

end Holds

/-! ## The law -/

/-- What happens after a save, with the pages that have been opened, newest first: administrators of
the organization open the edit page, which IS answers, and save it as it is, which IS may refuse in
any of its parts; the sessions and the Business API may change. -/
inductive Visits (C : PortalConfig) (D : Driver) (idpId : String) (u : PortalWorld EditIs) :
    List EditPage → PortalWorld EditIs → Prop
  | none : Visits C D idpId u [] u
  | opened {orgHandle : String} {p : EditPage} {pages : List EditPage}
      {v v' : PortalWorld EditIs} : Visits C D idpId u pages v →
      (editEnv D idpId True).Runs (editIdpForm orgHandle idpId) v (.ok (.edit p)) v' →
      Visits C D idpId u (p :: pages) v'
  | saved {orgHandle : String} {p : EditPage} {pages : List EditPage} {v v' : PortalWorld EditIs}
      {x : Except PortalExn IdpPage} : Visits C D idpId u pages v → p ∈ pages →
      (editEnv D idpId False).Runs (editIdp C orgHandle idpId p.form) v x v' →
      Visits C D idpId u pages v'
  | elsewhere {pages : List EditPage} {v v' : PortalWorld EditIs} : Visits C D idpId u pages v →
      v'.is = v.is → v'.session.orgId = v.session.orgId → Visits C D idpId u pages v'

/-- Visits of an IdP whose page says what IS has leave it as it is, and see that page. -/
theorem Visits.keeps {C : PortalConfig} {D : Driver} {idpId : String} {u v : PortalWorld EditIs}
    {pages : List EditPage} (hfixed : Fixed C u.session.orgId u.is.page.form u.is)
    (h : Visits C D idpId u pages v) :
    v.is = u.is ∧ v.session.orgId = u.session.orgId ∧ ∀ p ∈ pages, p = u.is.page := by
  induction h with
  | none => exact ⟨rfl, rfl, List.forall_mem_nil _⟩
  | opened _ hrun ih =>
    obtain ⟨his, horg, hpages⟩ := ih
    obtain ⟨hsame, hp⟩ := (editIdpForm_shows _).of_runs hrun
    refine ⟨hsame.is.trans his, (congrArg PortalSession.orgId hsame.session).trans horg, ?_⟩
    exact List.forall_mem_cons.2 ⟨(hp _ rfl).trans (congrArg EditIs.page his), hpages⟩
  | saved _ hp hrun ih =>
    obtain ⟨his, horg, hpages⟩ := ih
    rw [hpages _ hp] at hrun
    obtain ⟨hsession, hsame⟩ := (editIdp_keeps _ (by rw [his, horg]; exact hfixed)).of_runs hrun
    exact ⟨hsame.trans his, (congrArg PortalSession.orgId hsession).trans horg, hpages⟩
  | elsewhere _ his horg ih => exact ⟨his.trans ih.1, horg.trans ih.2.1, ih.2.2⟩

/-- After a save that reports its success, an edit page that is opened while IS has what was saved
shows it. If the page keeps the form of the save, then in all visits that follow no save of the page
as it is changes anything in IS, whatever IS refuses of it, and every page shows what was saved. -/
theorem edit_page_round_trip {C : PortalConfig} {D : Driver} {orgHandle idpId : String}
    {form : Form} {w u : PortalWorld EditIs} {x : Except PortalExn IdpPage}
    (hsave : (editEnv D idpId True).Runs (editIdp C orgHandle idpId form) w x u)
    (hsuccess : u.flashes = ⟨"success", "Identity Provider updated successfully."⟩ :: w.flashes) :
    (∀ orgHandle' p v v', v.is = u.is →
      (editEnv D idpId True).Runs (editIdpForm orgHandle' idpId) v (.ok (.edit p)) v' →
      p.Shows form) ∧
    (Keepable form → ∀ pages v, Visits C D idpId u pages v →
      v.is = u.is ∧ ∀ p ∈ pages, p.Shows form) := by
  obtain ⟨hsession, hholds⟩ := (editIdp_saves orgHandle form).of_runs hsave
  have hsaved := hholds fun h => List.cons_ne_self _ _ (hsuccess ▸ h)
  rw [← hsession] at hsaved
  constructor
  · intro orgHandle' p v v' his hrun
    obtain ⟨-, hp⟩ := (editIdpForm_shows _).of_runs hrun
    rw [hp p rfl, his]
    exact hsaved.shows
  · intro hform pages v hvisits
    obtain ⟨his, -, hpages⟩ := hvisits.keeps (hsaved.fixed hform)
    exact ⟨his, fun p hp => hpages p hp ▸ hsaved.shows⟩

/-! ## A visit -/

/-- An IdP, and a role with a group from elsewhere. -/
def staffIs : EditIs where
  name := "A"
  properties := []
  jitEnabled := true
  claims := ⟨⟨none, none, none⟩, ⟨none, none, none⟩, []⟩
  groups := [⟨"staff", "1"⟩]
  roles := [("r", some "Reader")]
  roleGroups := fun _ => ["9"]

/-- The portal for an IdP manager. -/
def staffWorld : PortalWorld EditIs := ⟨idpManagerSession, [], .empty, staffIs⟩

/-- The form of an edit, with one more group, which is selected for the role. -/
def staffForm : Form := [("name", "B"), ("client_id", "c"), ("client_secret", "s"),
  ("auth_endpoint", "https://idp/a"), ("token_endpoint", "https://idp/t"),
  ("jwks_uri", "https://idp/j"), ("userinfo_endpoint", "https://idp/u"),
  ("logout_endpoint", "https://idp/l"), ("group_attribute", "groups"),
  ("groups", "staff, support"), ("role_groups[r]", "support")]

/-- The groups after the edit. -/
def staffAfter : List GroupRow := [⟨"staff", "1"⟩, ⟨"support", "2"⟩]

/-- The page keeps the form of the visit. -/
theorem staffForm_keepable : Keepable staffForm where
  text k hk v hv := by
    have hall : ∀ k ∈ ["name", "client_id", "scopes", "group_attribute", "groups"],
        (staffForm.get k).map textInput = staffForm.get k := by
      decide +kernel
    have hkept := hall k hk
    rw [hv] at hkept
    exact Option.some.inj hkept
  url k hk v hv := by
    have hall : ∀ k ∈ ["auth_endpoint", "token_endpoint", "jwks_uri", "userinfo_endpoint",
        "logout_endpoint"], (staffForm.get k).map urlInput = staffForm.get k := by
      decide +kernel
    have hkept := hall k hk
    rw [hv] at hkept
    exact Option.some.inj hkept
  groupAttribute := by decide
  jwksUri _ _ h := absurd h (by decide +kernel)
  userinfoEndpoint _ _ h := absurd h (by decide +kernel)
  logoutEndpoint _ _ h := absurd h (by decide +kernel)

/-- The groups after the edit replace those before it. -/
theorem staffAfter_replaces :
    Replaces staffIs.groups (externalGroupNames staffForm) staffAfter := by
  have hnames : externalGroupNames staffForm = staffAfter.map GroupRow.name := by decide +kernel
  rw [hnames]
  exact ⟨⟨fun _ => Iff.rfl, by decide, by decide, by decide, by decide, by decide⟩, rfl⟩

/-- What the edit leaves. -/
def staffSaved : EditIs where
  name := "B"
  properties := (OidcSettings.ofForm staffForm "c" (some "s") "https://idp/a"
    "https://idp/t").properties exampleConfig "o"
  jitEnabled := false
  claims := buildClaimsPutBody (buildLocalClaimsIndex staffIs.claims) "groups"
  groups := staffAfter
  roles := staffIs.roles
  roleGroups := Function.update staffIs.roleGroups "r"
    (combinedGroups staffForm (staffAfter.map GroupRow.shown) "r" ["9"])

section

variable {idpId : String} {sure : Prop} {w v u : PortalWorld EditIs} {α β : Type}

/-- A part of any handler runs as it does there. -/
theorem runs_embed {p : Handling α} {x : Except PortalExn α}
    (h : (editIsEnv .sqlite idpId sure).Runs p w x u) :
    (editEnv .sqlite idpId sure).Runs (embed p) w x u := by
  induction p generalizing w with
  | ret a => exact h
  | raise e => exact h
  | op o k ih => exact ih _ h
  | await q k ih =>
    obtain ⟨r, v, ha, hr⟩ := h
    rw [embed]
    exact ⟨.portal r, v, .portal ha, ih r hr⟩

/-- Such a part, and what follows. -/
theorem embed_runs {p : Handling α} {a : α} {f : α → Editing β} {x : Except PortalExn β}
    (hp : (editIsEnv .sqlite idpId sure).Runs p w (.ok a) v)
    (hf : (editEnv .sqlite idpId sure).Runs (f a) v x u) :
    (editEnv .sqlite idpId sure).Runs (embed p >>= f) w x u :=
  Environment.runs_bind.2 (.inl ⟨a, v, runs_embed hp, hf⟩)

/-- A call of the edit page, and what follows. -/
theorem callEdit_runs {call : EditCall} {r : EditResponse} {s : EditIs}
    {f : EditResponse → Editing β} {x : Except PortalExn β}
    (h : EditAnswers idpId sure call w.is (some r) s)
    (hf : (editEnv .sqlite idpId sure).Runs (f r) { w with is := s } x u) :
    (editEnv .sqlite idpId sure).Runs (callEdit call >>= f) w x u := ⟨_, _, .edit h, hf⟩

/-- The properties of the authenticator, and what follows. -/
theorem fetchIdpPropsDict_runs {f : AuthenticatorProperties → Editing β} {x : Except PortalExn β}
    (hf : (editEnv .sqlite idpId sure).Runs (f w.is.keyed) w x u) :
    (editEnv .sqlite idpId sure).Runs (fetchIdpPropsDict idpId >>= f) w x u :=
  Environment.runs_bind.2 (.inl ⟨w.is.keyed, w, callEdit_runs .getAuthenticator ⟨rfl, rfl⟩, hf⟩)

end

section

variable {sure : Prop} {flashes : List Flash} {db : Database} {is : EditIs}

/-- The gate of the edit page lets the IdP manager in. -/
theorem gate_runs : (editIsEnv .sqlite "i" sure).Runs (IdpRoute.editIdp.gate "acme")
    ⟨idpManagerSession, flashes, db, is⟩ (.ok none) ⟨idpManagerSession, flashes, db, is⟩ := by
  refine ⟨_, _, .api (.unavailable offline (by decide)), ?_⟩
  exact ⟨rfl, rfl⟩

/-- The edit page can be opened. -/
theorem form_runs (h : is.roles = [("r", some "Reader")]) :
    (editEnv .sqlite "i" True).Runs (editIdpForm "acme" "i")
      ⟨idpManagerSession, flashes, db, is⟩ (.ok (.edit is.page))
      ⟨idpManagerSession, flashes, db, is⟩ := by
  let w : PortalWorld EditIs := ⟨idpManagerSession, flashes, db, is⟩
  have hpage : is.page = { is.page with
      externalGroups := (is.shownGroups.filterMap IdpGroup.name).filter (· ≠ "")
      roles := [is.roleMapping ("r", some "Reader")] } := by
    unfold EditIs.page EditIs.shownGroups
    rw [filterMap_shown, h]
    rfl
  have hroles : (editEnv .sqlite "i" True).Runs (rolesWithMappings "t" is.shownGroups is.roles) w
      (.ok [is.roleMapping ("r", some "Reader")]) w := by
    rw [h]
    refine embed_runs (v := w) ⟨_, _, .is .getRole, rfl, rfl⟩ ?_
    change (editEnv .sqlite "i" True).Runs
      (mappedGroups is.shownGroups (is.roleGroups "r") >>= fun mapped =>
        rolesWithMappings "t" is.shownGroups [] >>= fun more =>
          pure ((⟨"r", some "Reader", mapped⟩ : RoleMapping) :: more)) w _ w
    have hmapped : mappedGroups is.shownGroups (is.roleGroups "r") = pure (is.mappedNames "r") :=
      mappedGroups_shown ..
    rw [hmapped, pure_bind]
    exact ⟨rfl, rfl⟩
  refine embed_runs gate_runs (embed_runs (v := w) ⟨rfl, rfl⟩ (callEdit_runs .getDetail ?_))
  rw [if_neg fun h => h rfl]
  refine fetchIdpPropsDict_runs (callEdit_runs .getClaims (callEdit_runs .listNamedRoles ?_))
  refine Environment.runs_bind.2 (.inl ⟨_, w, hroles, ?_⟩)
  rw [hpage]
  exact ⟨rfl, rfl⟩

/-- A save can fail on the way. -/
theorem lost_runs (form : Form) : (editEnv .sqlite "i" False).Runs
    (editIdp exampleConfig "acme" "i" form) ⟨idpManagerSession, flashes, db, is⟩
    (.error .request) ⟨idpManagerSession, flashes, db, is⟩ := by
  refine embed_runs gate_runs (embed_runs ⟨rfl, rfl⟩ ?_)
  exact ⟨_, _, .editFailed (.refused id (by simp)), rfl, rfl⟩

end

/-- The portal after the edit. -/
def savedWorld : PortalWorld EditIs where
  session := idpManagerSession
  flashes := [⟨"success", "Identity Provider updated successfully."⟩]
  db := .empty
  is := staffSaved

/-- The save. -/
theorem staff_runs : (editEnv .sqlite "i" True).Runs (editIdp exampleConfig "acme" "i" staffForm)
    staffWorld (.ok (.plain (.redirect "admin.idp" (some "acme")))) savedWorld := by
  refine embed_runs gate_runs
    (embed_runs (v := staffWorld) ⟨rfl, rfl⟩ (callEdit_runs .getDetail ?_))
  rw [if_neg fun h => h rfl]
  refine fetchIdpPropsDict_runs (embed_runs (v := staffWorld) ⟨rfl, rfl⟩
    (embed_runs (v := staffWorld) ⟨rfl, rfl⟩ (embed_runs (v := staffWorld) ⟨rfl, rfl⟩ ?_)))
  refine callEdit_runs (r := ⟨200, .record⟩) .patchName ?_
  rw [editedProperties_eq]
  refine embed_runs ⟨rfl, rfl⟩ (callEdit_runs (r := ⟨200, .record⟩) .putAuthenticator ?_)
  refine embed_runs ⟨.is ⟨200, .other⟩, _, .is .putJit, rfl, rfl⟩ (embed_runs ⟨rfl, rfl⟩ ?_)
  refine callEdit_runs (r := ⟨200, .record⟩) .putClaims
    (embed_runs (a := ()) (v := { savedWorld with flashes := [] }) ?_ ⟨rfl, rfl⟩)
  have hshown : ∀ r ∈ some (⟨200, .idpGroups (staffAfter.map GroupRow.shown)⟩ : IsResponse),
      ∀ groups, r.data = .idpGroups groups → groups = staffAfter.map GroupRow.shown := by
    rintro r ⟨⟩ groups ⟨⟩
    rfl
  refine ⟨_, _, .is (.putIdpGroups staffAfter_replaces hshown), ?_⟩
  have hroles : [(⟨"r", none⟩ : ScimRole)].map ScimRole.id = staffIs.roles.map Prod.fst := rfl
  refine ⟨_, _, .is (.listRoles hroles), ?_⟩
  refine ⟨_, _, .is .getRole, ?_⟩
  refine ⟨_, _, .is (@EditIsAnswers.replaceRoleGroups _ _ _ _ _ _ (some ⟨200, .other⟩)), ?_⟩
  exact ⟨rfl, rfl⟩

/-- A page that is opened after a save shows it, and is saved without success. -/
theorem edit_page_round_trip_staff : ∃ (u v : PortalWorld EditIs) (p : EditPage),
    Visits exampleConfig .sqlite "i" u [p] v ∧ v.is = u.is ∧ p.Shows staffForm := by
  have hvisits : Visits exampleConfig .sqlite "i" savedWorld [staffSaved.page] savedWorld :=
    (Visits.none.opened (form_runs rfl)).saved (List.mem_singleton_self _)
      (lost_runs staffSaved.page.form)
  obtain ⟨-, hkept⟩ := edit_page_round_trip staff_runs rfl
  obtain ⟨his, hpages⟩ := hkept staffForm_keepable _ _ hvisits
  exact ⟨_, _, _, hvisits, his, hpages _ (List.mem_singleton_self _)⟩

end Teamspace.Webapp
