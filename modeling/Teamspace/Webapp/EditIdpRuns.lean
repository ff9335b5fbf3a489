import Teamspace.Webapp.EditIdpIs

/-!
# How the edit page of an IdP ends

What the edit page shows (`editIdpForm_shows`), what a save that reports its success leaves in IS
(`editIdp_saves`), and with which forms a save leaves everything as it was, whatever IS refuses
(`editIdp_keeps`).
-/

namespace Teamspace.Webapp

open Teamspace.Py Teamspace.Lib Teamspace.Api Handling

/-! ## The page -/

namespace EditIs

/-- The names of the groups of the IdP that are among those of a role. -/
def mappedNames (s : EditIs) (roleId : String) : List String :=
  (s.groups.filter fun g => g.shown.realId.any (· ∈ s.roleGroups roleId)).map GroupRow.name

/-- The properties that have a key. -/
def keyed (s : EditIs) : AuthenticatorProperties := s.properties.filter fun p => p.1 ≠ ""

/-- A property, or what is shown without it. -/
def prop (s : EditIs) (k default : String) : Option String :=
  (propOf s.keyed k).getD (some default)

/-- A role, as the page shows it. -/
def roleMapping (s : EditIs) (role : String × Option String) : RoleMapping :=
  ⟨role.1, role.2, s.mappedNames role.1⟩

/-- The page that shows what IS has. -/
def page (s : EditIs) : EditPage where
  name := some s.name
  clientId := s.prop "ClientId" ""
  authEndpoint := s.prop "OAuth2AuthzEPUrl" ""
  tokenEndpoint := s.prop "OAuth2TokenEPUrl" ""
  jwksUri := s.prop "JwksUri" ""
  userinfoEndpoint := s.prop "UserInfoUrl" ""
  logoutEndpoint := s.prop "OIDCLogoutEPUrl" ""
  scopes := s.prop "Scopes" "openid email profile groups"
  jitEnabled := s.jitEnabled
  groupAttribute := groupAttributeOf s.claims.mappings
  externalGroups := (s.groups.map GroupRow.name).filter (· ≠ "")
  roles := s.roles.map s.roleMapping

end EditIs

section

variable {D : Driver} {idpId : String} {w : PortalWorld EditIs}

/-- The names of the groups that IS shows are the names of the groups. -/
theorem filterMap_shown (groups : List GroupRow) :
    (groups.map GroupRow.shown).filterMap IdpGroup.name = groups.map GroupRow.name := by
  rw [List.filterMap_map, ← List.filterMap_eq_map]
  rfl

/-- The groups of a role are looked up by their ids. -/
theorem mappedGroups_shown (groups : List GroupRow) (assigned : List String) :
    mappedGroups (groups.map GroupRow.shown) assigned =
      pure ((groups.filter fun g => g.shown.realId.any (· ∈ assigned)).map GroupRow.name) := by
  unfold mappedGroups
  rw [List.filter_map, List.mapM_map]
  exact List.mapM_pure

/-- The page has the groups of every role, as IS has them. -/
theorem rolesWithMappings_ends (token : String) (roles : List (String × Option String)) :
    (editEnv D idpId True).Ends (rolesWithMappings token w.is.shownGroups roles) w
      (Environment.Either (fun mappings u => u = w ∧ mappings = roles.map w.is.roleMapping)
        fun _ u => u = w) := by
  induction roles with
  | nil => exact ⟨rfl, rfl⟩
  | cons role roles ih =>
    refine .bind (ends_embed (callIs_ends (fun r s h => ?_) fun s h => ?_))
    · cases h with
      | refused hsure => exact absurd trivial hsure
      | getRole =>
        change (editEnv D idpId True).Ends
          (mappedGroups w.is.shownGroups (w.is.roleGroups role.1) >>= fun mapped =>
            rolesWithMappings token w.is.shownGroups roles >>= fun more =>
              pure (⟨role.1, role.2, mapped⟩ :: more)) w _
        have hmapped : mappedGroups w.is.shownGroups (w.is.roleGroups role.1) =
            pure (w.is.mappedNames role.1) := mappedGroups_shown ..
        rw [hmapped, pure_bind]
        refine .bind (ih.mono fun x u hx => ?_)
        cases x with
        | error e => exact hx
        | ok mappings =>
          obtain ⟨rfl, rfl⟩ := hx
          exact ⟨rfl, rfl⟩
    · cases h with
      | refused hsure => exact absurd trivial hsure

/-- What fails shows no page of the IdP. -/
theorem Same.shows_none {e : PortalExn} {u : PortalWorld EditIs} (hu : Same w u) :
    Same w u ∧ ∀ p, (.error e : Except PortalExn IdpPage) = .ok (.edit p) → p = w.is.page := by
  refine ⟨hu, fun p hp => ?_⟩
  cases hp

/-- The page shows what IS has, and changes nothing. -/
theorem editIdpFormBody_shows (orgHandle : String) :
    (editEnv D idpId True).Ends (editIdpFormBody orgHandle idpId) w fun x u =>
      Same w u ∧ ∀ p, x = .ok (.edit p) → p = w.is.page := by
  unfold editIdpFormBody
  refine quiet_then (only_accessToken rfl) (fun token u hu => ?_) fun _ u hu => hu.shows_none
  have failed {e : PortalExn} {v : PortalWorld EditIs} (hv : v = u) :
      Same w v ∧ ∀ p, (.error e : Except PortalExn IdpPage) = .ok (.edit p) → p = w.is.page :=
    (hv ▸ hu : Same w v).shows_none
  refine callEdit_then (fun r s h => ?_) fun s h => ?_
  · cases h with
    | refused hsure => exact absurd trivial hsure
    | getDetail =>
      rw [if_neg fun h => h rfl]
      refine fetchIdpPropsDict_then ?_ fun _ => failed rfl
      change (editEnv D idpId True).Ends (callEdit (.getClaims idpId) >>= _) u _
      refine callEdit_then (fun r s h => ?_) fun s h => ?_
      · cases h with
        | refused hsure => exact absurd trivial hsure
        | getClaims =>
          change (editEnv D idpId True).Ends (callEdit .listNamedRoles >>= _) u _
          refine callEdit_then (fun r s h => ?_) fun s h => ?_
          · cases h with
            | refused hsure => exact absurd trivial hsure
            | listNamedRoles =>
              refine .bind ((rolesWithMappings_ends token u.is.roles).mono fun x v hx => ?_)
              cases x with
              | error e => exact failed hx
              | ok mappings =>
                obtain ⟨rfl, rfl⟩ := hx
                refine ⟨hu, fun p hp => ?_⟩
                cases hp
                rw [← hu.is]
                unfold EditIs.page
                rw [← filterMap_shown]
                rfl
          · cases h with
            | refused hsure => exact absurd trivial hsure
      · cases h with
        | refused hsure => exact absurd trivial hsure
  · cases h with
    | refused hsure => exact absurd trivial hsure

/-- The edit page shows what IS has. -/
theorem editIdpForm_shows (orgHandle : String) :
    (editEnv D idpId True).Ends (editIdpForm orgHandle idpId) w fun x u =>
      Same w u ∧ ∀ p, x = .ok (.edit p) → p = w.is.page := by
  refine quiet_then (gate_quiet .editIdpForm _)
    (fun page u hu => ?_) fun _ u hu => hu.shows_none
  cases page with
  | some page => exact ⟨hu, fun _ hp => by cases hp⟩
  | none =>
    refine (editIdpFormBody_shows orgHandle).mono fun x v hv => ?_
    exact ⟨hu.trans hv.1, fun p hp => by rw [hv.2 p hp, hu.is]⟩

end

/-! ## Writes -/

section

variable {idpId : String} {sure : Prop} {s t : EditIs}

/-- A PATCH of the name changes the name, or nothing. -/
theorem EditAnswers.of_patchName {name : String} {response : Option EditResponse}
    (h : EditAnswers idpId sure (.patchName idpId name) s response t) :
    t = { s with name := name } ∨ ¬ sure ∧ t = s := by
  cases h with
  | patchName => exact .inl rfl
  | refused hsure => exact .inr ⟨hsure, rfl⟩

/-- A PUT of the authenticator changes its properties, or nothing. -/
theorem EditAnswers.of_putAuthenticator {properties : AuthenticatorProperties}
    {response : Option EditResponse}
    (h : EditAnswers idpId sure (.putAuthenticator idpId properties) s response t) :
    t = { s with properties := properties } ∨ ¬ sure ∧ t = s := by
  cases h with
  | putAuthenticator => exact .inl rfl
  | refused hsure => exact .inr ⟨hsure, rfl⟩

/-- A PUT of the claims changes the claims, or nothing. -/
theorem EditAnswers.of_putClaims {claims : IdpClaims} {response : Option EditResponse}
    (h : EditAnswers idpId sure (.putClaims idpId claims) s response t) :
    t = { s with claims := claims } ∨ ¬ sure ∧ t = s := by
  cases h with
  | putClaims => exact .inl rfl
  | refused hsure => exact .inr ⟨hsure, rfl⟩

/-- A PUT of the provisioning changes it, or nothing. -/
theorem EditIsAnswers.of_putJit {auth : IsAuth} {jitEnabled : Bool} {response : Option IsResponse}
    (h : EditIsAnswers idpId sure auth (.putJit idpId jitEnabled) s response t) :
    t = { s with jitEnabled := jitEnabled } ∨ ¬ sure ∧ t = s := by
  cases h with
  | putJit => exact .inl rfl
  | refused hsure => exact .inr ⟨hsure, rfl⟩

/-- The groups that IS has after a write, which it may have refused. -/
def Becomes (sure : Prop) (before : List GroupRow) (names : List String) (after : List GroupRow) :
    Prop := Replaces before names after ∨ ¬ sure ∧ after = before

/-- A PUT of the groups changes the groups. -/
theorem EditIsAnswers.of_putIdpGroups {auth : IsAuth} {names : List String}
    {response : Option IsResponse}
    (h : EditIsAnswers idpId sure auth (.putIdpGroups idpId names) s response t) :
    ∃ after, Becomes sure s.groups names after ∧ t = { s with groups := after } ∧
      ∀ r ∈ response, r.statusCode ∈ [200, 201] → ∀ groups, r.data = .idpGroups groups →
        groups = after.map GroupRow.shown := by
  cases h with
  | putIdpGroups hafter hr => exact ⟨_, .inl hafter, rfl, fun r hmem _ => hr r hmem⟩
  | refused hsure hr => exact ⟨_, .inr ⟨hsure, rfl⟩, rfl, fun r hmem h => absurd h (hr r hmem)⟩

end

section

variable {D : Driver} {idpId : String} {sure : Prop} {w : PortalWorld EditIs}

/-- The world in which the IdP has these groups. -/
def withGroups (w : PortalWorld EditIs) (groups : List GroupRow) : PortalWorld EditIs :=
  { w with is := { w.is with groups := groups } }

/-- The handler goes on with the groups that IS has. Only where IS refuses to show them, it goes on
with none. -/
theorem resolvedGroups_becomes (token : String) (names : List String) :
    (editIsEnv D idpId sure).Ends (resolvedGroups token idpId names) w
      (Environment.Either
        (fun resolved u => ∃ after, Becomes sure w.is.groups names after ∧
          u = withGroups w after ∧ (resolved = after.map GroupRow.shown ∨ ¬ sure ∧ resolved = []))
        fun _ u => ∃ after, Becomes sure w.is.groups names after ∧ u = withGroups w after) := by
  refine callIs_then (fun groupsRes s h => ?_) fun s h => ?_
  · obtain ⟨after, hafter, rfl, hshown⟩ := h.of_putIdpGroups
    dsimp only
    split
    · next groups hgroups =>
      refine ⟨after, hafter, rfl, .inl ?_⟩
      split at hgroups
      · next hdata =>
        split at hgroups
        · next hstatus =>
          cases hgroups
          exact hshown groupsRes rfl hstatus groups hdata
        · cases hgroups
      · cases hgroups
    · refine callIs_then (fun detailRes s h => ?_) fun s h => ?_
      · cases h with
        | getIdp =>
          rw [if_pos rfl]
          exact ⟨after, hafter, rfl, .inl rfl⟩
        | refused hsure hr =>
          have hstatus : detailRes.statusCode ≠ 200 := fun h => hr detailRes rfl (by simp [h])
          rw [if_neg hstatus]
          exact ⟨after, hafter, rfl, .inr ⟨hsure, rfl⟩⟩
      · cases h with
        | refused hsure => exact ⟨after, hafter, rfl⟩
  · obtain ⟨after, hafter, rfl, -⟩ := h.of_putIdpGroups
    exact ⟨after, hafter, rfl⟩

/-- A role has the groups that the form gives it, among those that the IdP has. -/
def Combined (form : Form) (resolved : List IdpGroup) (roleGroups : String → List String)
    (roleId : String) : Prop :=
  ∃ before, roleGroups roleId = combinedGroups form resolved roleId before

/-- The world in which the roles have these groups. -/
def withRoleGroups (w : PortalWorld EditIs) (roleGroups : String → List String) :
    PortalWorld EditIs :=
  { w with is := { w.is with roleGroups := roleGroups } }

/-- Every role is written, and what is written is what the form gives it. -/
theorem mapRoles_combined (token : String) (form : Form) (resolved : List IdpGroup)
    (roles : List ScimRole) :
    (editIsEnv D idpId True).Ends (mapRoles token form resolved roles) w fun x u =>
      ∃ roleGroups, u = withRoleGroups w roleGroups ∧
        (∀ roleId, Combined form resolved w.is.roleGroups roleId →
          Combined form resolved roleGroups roleId) ∧
        (x = .ok () → ∀ role ∈ roles, Combined form resolved roleGroups role.id) := by
  induction roles generalizing w with
  | nil => exact ⟨w.is.roleGroups, rfl, fun _ h => h, fun _ => List.forall_mem_nil _⟩
  | cons role roles ih =>
    refine callIs_then (fun r s h => ?_) fun s h => ?_
    · cases h with
      | refused hsure => exact absurd trivial hsure
      | getRole =>
        rw [if_pos rfl]
        have hwritten : Combined form resolved
            (Function.update w.is.roleGroups role.id
              (combinedGroups form resolved role.id (w.is.roleGroups role.id))) role.id :=
          ⟨w.is.roleGroups role.id, Function.update_self ..⟩
        have hkeep (roleId : String) (h : Combined form resolved w.is.roleGroups roleId) :
            Combined form resolved
              (Function.update w.is.roleGroups role.id
                (combinedGroups form resolved role.id (w.is.roleGroups role.id))) roleId := by
          by_cases hid : roleId = role.id
          · exact hid ▸ hwritten
          · obtain ⟨before, hbefore⟩ := h
            exact ⟨before, (Function.update_of_ne hid ..).trans hbefore⟩
        refine callIs_then (fun _ s h => ?_) fun s h => ?_
        · cases h with
          | refused hsure => exact absurd trivial hsure
          | replaceRoleGroups =>
            refine ih.mono fun x u hu => ?_
            obtain ⟨roleGroups, rfl, hold, hnew⟩ := hu
            refine ⟨roleGroups, rfl, fun roleId h => hold roleId (hkeep roleId h), fun hx => ?_⟩
            exact List.forall_mem_cons.2 ⟨hold role.id hwritten, hnew hx⟩
        · cases h with
          | refused hsure => exact absurd trivial hsure
          | replaceRoleGroups => exact ⟨_, rfl, hkeep, nofun⟩
    · cases h with
      | refused hsure => exact absurd trivial hsure

/-- Roles that have what the form gives them keep it. -/
theorem mapRoles_keeps (token : String) {form : Form} {resolved : List IdpGroup}
    {roles : List ScimRole} (h : ∀ role ∈ roles,
      combinedGroups form resolved role.id (w.is.roleGroups role.id) = w.is.roleGroups role.id) :
    (editIsEnv D idpId sure).Ends (mapRoles token form resolved roles) w fun _ u => u = w := by
  induction roles with
  | nil => rfl
  | cons role roles ih =>
    obtain ⟨hrole, hroles⟩ := List.forall_mem_cons.1 h
    refine callIs_then (fun r s hs => ?_) fun s hs => ?_
    · cases hs with
      | refused hsure hr =>
        have hstatus : r.statusCode ≠ 200 := fun h => hr r rfl (by simp [h])
        rw [if_neg hstatus]
        exact ih hroles
      | getRole =>
        rw [if_pos rfl, groupsOfRole_role, pure_bind, hrole]
        refine callIs_then (fun _ s hs => ?_) fun s hs => ?_
        · cases hs with
          | refused => exact ih hroles
          | replaceRoleGroups =>
            rw [Function.update_eq_self]
            exact ih hroles
        · cases hs with
          | refused => rfl
          | replaceRoleGroups =>
            rw [Function.update_eq_self]
    · cases hs with
      | refused => rfl

/-- A save with success gives the IdP the groups of the form, and every role what the form gives
it. -/
theorem applyIdpRoleGroupMappings_replaces (token : String) (form : Form) :
    (editIsEnv D idpId True).Ends (applyIdpRoleGroupMappings token idpId form) w fun x u =>
      ∃ groups roleGroups, u = withRoleGroups (withGroups w groups) roleGroups ∧
        (x = .ok () → Replaces w.is.groups (externalGroupNames form) groups ∧
          ∀ role ∈ w.is.roles,
            Combined form (groups.map GroupRow.shown) roleGroups role.1) := by
  refine .bind ((resolvedGroups_becomes token _).mono fun x u hx => ?_)
  cases x with
  | error e =>
    obtain ⟨after, -, rfl⟩ := hx
    exact ⟨after, w.is.roleGroups, rfl, nofun⟩
  | ok resolved =>
    obtain ⟨after, hafter | ⟨hsure, -⟩, rfl, rfl | ⟨hsure, -⟩⟩ := hx
    · refine callIs_then (fun rolesRes s h => ?_) fun s h => ?_
      · cases h with
        | refused hsure => exact absurd trivial hsure
        | listRoles hroles =>
          refine (mapRoles_combined token form _ _).mono fun x u hu => ?_
          obtain ⟨roleGroups, rfl, -, hnew⟩ := hu
          refine ⟨after, roleGroups, rfl, fun hx => ⟨hafter, fun role hrole => ?_⟩⟩
          have hid : role.1 ∈ List.map ScimRole.id _ := hroles ▸ List.mem_map_of_mem hrole
          obtain ⟨scim, hscim, hid⟩ := List.mem_map.1 hid
          exact hid ▸ hnew hx scim hscim
      · cases h with
        | refused hsure => exact absurd trivial hsure
    all_goals exact absurd trivial hsure

/-- A form that gives the IdP and the roles the groups that they have changes none of them. -/
theorem applyIdpRoleGroupMappings_keeps (token : String) {form : Form}
    (hgroups : ∀ after, Replaces w.is.groups (externalGroupNames form) after → after = w.is.groups)
    (hroles : ∀ role ∈ w.is.roles,
      combinedGroups form w.is.shownGroups role.1 (w.is.roleGroups role.1) =
        w.is.roleGroups role.1) :
    (editIsEnv D idpId sure).Ends (applyIdpRoleGroupMappings token idpId form) w fun _ u =>
      u = w := by
  have same {after : List GroupRow} (h : Becomes sure w.is.groups (externalGroupNames form) after) :
      after = w.is.groups := h.elim (hgroups after) And.right
  refine .bind ((resolvedGroups_becomes token _).mono fun x u hx => ?_)
  cases x with
  | error e =>
    obtain ⟨after, hafter, rfl⟩ := hx
    obtain rfl := same hafter
    rfl
  | ok resolved =>
    obtain ⟨after, hafter, rfl, hresolved⟩ := hx
    obtain rfl := same hafter
    have keep (role : String × Option String) (hrole : role ∈ w.is.roles) :
        combinedGroups form resolved role.1 (w.is.roleGroups role.1) = w.is.roleGroups role.1 := by
      obtain rfl | ⟨-, rfl⟩ := hresolved
      · exact hroles role hrole
      · simp [combinedGroups]
    refine callIs_then (fun rolesRes s h => ?_) fun s h => ?_
    · cases h with
      | refused hsure hr =>
        have hstatus : rolesRes.statusCode ≠ 200 := fun h => hr rolesRes rfl (by simp [h])
        dsimp only
        rw [if_neg hstatus]
        rfl
      | listRoles hids =>
        refine mapRoles_keeps token fun scim hscim => ?_
        have hid : scim.id ∈ w.is.roles.map Prod.fst := hids ▸ List.mem_map_of_mem hscim
        obtain ⟨role, hrole, hid⟩ := List.mem_map.1 hid
        exact hid ▸ keep role hrole
    · cases h with
      | refused => rfl

end

/-! ## EditSaved -/

/-- These are the settings of the form, with some client secret. -/
structure OidcSettings.From (form : Form) (o : OidcSettings) : Prop where
  clientId : form.get "client_id" = some o.clientId
  authEndpoint : form.get "auth_endpoint" = some o.authEndpoint
  tokenEndpoint : form.get "token_endpoint" = some o.tokenEndpoint
  settings : o = .ofForm form o.clientId o.clientSecret o.authEndpoint o.tokenEndpoint

/-- IS has what the form says. -/
structure Holds (C : PortalConfig) (orgId : String) (form : Form) (s : EditIs) : Prop where
  name : form.get "name" = some s.name
  properties : ∃ o : OidcSettings, o.From form ∧ s.properties = o.properties C orgId
  jitEnabled : s.jitEnabled = decide (form.get "jit_enabled" = some "true")
  claims : ∃ before groupAttribute, form.get "group_attribute" = some groupAttribute ∧
    s.claims = buildClaimsPutBody (buildLocalClaimsIndex before) groupAttribute
  groups : ∃ before, Replaces before (externalGroupNames form) s.groups
  roleGroups : ∀ role ∈ s.roles, Combined form s.shownGroups s.roleGroups role.1

/-- A save keeps the session, and what it leaves in IS, if it flashes something, is what the form
says. -/
structure EditSaved (C : PortalConfig) (form : Form) (w u : PortalWorld EditIs) : Prop where
  session : u.session = w.session
  holds : u.flashes ≠ w.flashes → Holds C w.session.orgId form u.is

/-- What the form says is what IS has. -/
structure Fixed (C : PortalConfig) (orgId : String) (form : Form) (s : EditIs) : Prop where
  name : ∀ name, form.get "name" = some name → name = s.name
  properties : ∀ clientId authEndpoint tokenEndpoint, form.get "client_id" = some clientId →
    form.get "auth_endpoint" = some authEndpoint → form.get "token_endpoint" = some tokenEndpoint →
    (OidcSettings.ofForm form clientId (clientSecretOf form s.keyed) authEndpoint
      tokenEndpoint).properties C orgId = s.properties
  jitEnabled : decide (form.get "jit_enabled" = some "true") = s.jitEnabled
  claims : ∀ groupAttribute, form.get "group_attribute" = some groupAttribute →
    buildClaimsPutBody (buildLocalClaimsIndex s.claims) groupAttribute = s.claims
  groups : ∀ after, Replaces s.groups (externalGroupNames form) after → after = s.groups
  roleGroups : ∀ role ∈ s.roles,
    combinedGroups form s.shownGroups role.1 (s.roleGroups role.1) = s.roleGroups role.1

section

variable {C : PortalConfig} {D : Driver} {idpId : String} {sure : Prop} {w : PortalWorld EditIs}

/-- A save that reports nothing has nothing to show for it. -/
theorem EditSaved.unflashed {form : Form} {u : PortalWorld EditIs}
    (hsession : u.session = w.session) (hflashes : u.flashes = w.flashes) :
    EditSaved C form w u := ⟨hsession, fun h => absurd hflashes h⟩

/-- What is written, by an IS that is sure to answer. -/
theorem written_of_sure {s t : EditIs} {p : Prop} (h : p ∨ ¬ True ∧ t = s) : p :=
  h.resolve_right fun h => h.1 trivial

/-- A save that reports its success has saved the form. -/
theorem editIdpBody_saves (orgHandle : String) (form : Form) :
    (editEnv D idpId True).Ends (editIdpBody C orgHandle idpId form) w fun _ u =>
      EditSaved C form w u := by
  unfold editIdpBody
  refine quiet_then (only_accessToken rfl) (fun token u hu => ?_) fun _ u hu =>
    .unflashed hu.session hu.flashes
  have failed {s : EditIs} : EditSaved C form w { u with is := s } :=
    .unflashed hu.session hu.flashes
  refine callEdit_then (fun r s h => ?_) fun s _ => failed
  cases h with
  | refused hsure => exact absurd trivial hsure
  | getDetail =>
    rw [if_neg fun h => h rfl]
    refine fetchIdpPropsDict_then ?_ fun _ => failed
    refine item_then (fun name hname => ?_) fun _ => failed
    refine item_then (fun tokenEndpoint htoken => ?_) fun _ => failed
    refine Environment.ends_perform.2 ?_
    refine callEdit_then (fun _ s h => ?_) fun s _ => failed
    obtain rfl := written_of_sure h.of_patchName
    refine editedProperties_then (fun clientId authEndpoint hid hauth => ?_) fun _ => failed
    refine callEdit_then (fun _ s h => ?_) fun s _ => failed
    obtain rfl := written_of_sure h.of_putAuthenticator
    refine .bind (ends_embed (callIs_ends (fun _ s h => ?_) fun s _ => failed))
    obtain rfl := written_of_sure h.of_putJit
    refine item_then (fun groupAttribute hattribute => ?_) fun _ => failed
    refine callEdit_then (fun _ s h => ?_) fun s _ => failed
    obtain rfl := written_of_sure h.of_putClaims
    refine .bind (ends_embed
      ((applyIdpRoleGroupMappings_replaces token form).mono fun x v hx => ?_))
    obtain ⟨groups, roleGroups, rfl, hdone⟩ := hx
    cases x with
    | error e => exact failed
    | ok _ =>
      obtain ⟨hgroups, hroles⟩ := hdone rfl
      have hsession : PortalSession.orgId w.session = u.session.orgId := by rw [hu.session]
      refine ⟨hu.session, fun _ => ?_⟩
      rw [hsession]
      exact {
        name := hname
        properties := ⟨_, ⟨hid, hauth, htoken, rfl⟩, rfl⟩
        jitEnabled := rfl
        claims := ⟨_, groupAttribute, hattribute, rfl⟩
        groups := ⟨_, hgroups⟩
        roleGroups := hroles }

/-- What a save that reports its success leaves in IS is what the form says. -/
theorem editIdp_saves (orgHandle : String) (form : Form) :
    (editEnv D idpId True).Ends (editIdp C orgHandle idpId form) w fun _ u =>
      EditSaved C form w u := by
  refine quiet_then (gate_quiet .editIdp _) (fun page u hu => ?_)
    fun _ u hu => .unflashed hu.session hu.flashes
  cases page with
  | some page => exact .unflashed hu.session hu.flashes
  | none =>
    refine (editIdpBody_saves orgHandle form).mono fun x v hv => ⟨?_, fun hflashes => ?_⟩
    · exact hv.session.trans hu.session
    · exact hu.session ▸ hv.holds (hu.flashes ▸ hflashes)

/-- A save of what IS has leaves it. -/
theorem editIdpBody_keeps (orgHandle : String) {form : Form}
    (h : Fixed C w.session.orgId form w.is) :
    (editEnv D idpId sure).Ends (editIdpBody C orgHandle idpId form) w fun _ u =>
      u.session = w.session ∧ u.is = w.is := by
  unfold editIdpBody
  refine quiet_then (only_accessToken rfl) (fun token u hu => ?_) fun _ u hu => ⟨hu.session, hu.is⟩
  rw [← hu.session, ← hu.is] at h ⊢
  refine callEdit_then (fun r s hs => ?_) fun s hs => ?_
  · cases hs with
    | refused hsure hr =>
      rw [if_pos (hr r rfl).1]
      exact ⟨rfl, rfl⟩
    | getDetail =>
      rw [if_neg fun h => h rfl]
      refine fetchIdpPropsDict_then ?_ fun _ => ⟨rfl, rfl⟩
      refine item_then (fun name hname => ?_) fun _ => ⟨rfl, rfl⟩
      refine item_then (fun tokenEndpoint htoken => ?_) fun _ => ⟨rfl, rfl⟩
      refine Environment.ends_perform.2 ?_
      -- every write writes what IS has
      have same {s t : EditIs} (hs : s = t ∨ ¬ sure ∧ s = u.is) (ht : t = u.is) : s = u.is :=
        hs.elim (·.trans ht) And.right
      have hname : { u.is with name := name } = u.is :=
        congrArg (fun n => { u.is with name := n }) (h.name name hname)
      refine callEdit_then (fun _ s hs => ?_) fun s hs => ⟨rfl, same hs.of_patchName hname⟩
      obtain rfl := same hs.of_patchName hname
      refine editedProperties_then (fun clientId authEndpoint hid hauth => ?_) fun _ => ⟨rfl, rfl⟩
      have hproperties := congrArg (fun p => { u.is with properties := p })
        (h.properties _ _ _ hid hauth htoken)
      refine callEdit_then (fun _ s hs => ?_) fun s hs =>
        ⟨rfl, same hs.of_putAuthenticator hproperties⟩
      obtain rfl := same hs.of_putAuthenticator hproperties
      have hjit := congrArg (fun b => { u.is with jitEnabled := b }) h.jitEnabled
      refine .bind (ends_embed (callIs_ends (fun _ s hs => ?_) fun s hs =>
        ⟨rfl, same hs.of_putJit hjit⟩))
      obtain rfl := same hs.of_putJit hjit
      refine item_then (fun groupAttribute hattribute => ?_) fun _ => ⟨rfl, rfl⟩
      have hclaims := congrArg (fun c => { u.is with claims := c })
        (h.claims groupAttribute hattribute)
      refine callEdit_then (fun _ s hs => ?_) fun s hs => ⟨rfl, same hs.of_putClaims hclaims⟩
      obtain rfl := same hs.of_putClaims hclaims
      refine .bind (ends_embed
        ((applyIdpRoleGroupMappings_keeps token h.groups h.roleGroups).mono fun x v hx => ?_))
      obtain rfl := hx
      cases x <;> exact ⟨rfl, rfl⟩
  · cases hs with
    | refused => exact ⟨rfl, rfl⟩

/-- A save of a form that says what IS has changes nothing, whatever IS refuses. -/
theorem editIdp_keeps (orgHandle : String) {form : Form} (h : Fixed C w.session.orgId form w.is) :
    (editEnv D idpId sure).Ends (editIdp C orgHandle idpId form) w fun _ u =>
      u.session = w.session ∧ u.is = w.is := by
  refine quiet_then (gate_quiet .editIdp _) (fun page u hu => ?_)
    fun _ u hu => ⟨hu.session, hu.is⟩
  cases page with
  | some page => exact ⟨hu.session, hu.is⟩
  | none =>
    rw [← hu.session, ← hu.is] at h ⊢
    exact editIdpBody_keeps orgHandle h

end

end Teamspace.Webapp
