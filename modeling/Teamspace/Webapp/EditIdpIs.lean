import Teamspace.Webapp.EditIdp
import Teamspace.Webapp.IdpGroups

/-!
# IS and the edit page of an IdP

What IS keeps of one IdP and of the roles, and how it answers the calls of the edit page; the rules
for the parts of its handlers in the environment that answers so.
-/

namespace Teamspace.Webapp

open Teamspace.Py Teamspace.Lib Teamspace.Api Handling

/-! ## IS -/

/-- What IS keeps of an IdP, and of the roles by their ids. -/
structure EditIs where
  name : String
  properties : AuthenticatorProperties
  jitEnabled : Bool
  claims : IdpClaims
  groups : List GroupRow
  roles : List (String × Option String)
  roleGroups : String → List String

namespace EditIs

/-- The groups, as IS shows them. -/
def shownGroups (s : EditIs) : List IdpGroup := s.groups.map GroupRow.shown

/-- The detail of the IdP. -/
def detail (s : EditIs) : IdpDetail := ⟨some s.name, s.shownGroups, s.jitEnabled, s.claims⟩

end EditIs

/-- The new groups stand in the order that is asked for. -/
structure Replaces (before : List GroupRow) (names : List String) (after : List GroupRow) : Prop
    extends Renews before names after where
  order : after.map GroupRow.name = names

/-- How IS answers the calls that other handlers make too. It shows what it has and keeps what it is
sent, whatever it answers to a write; a call can also be refused, unless IS is sure to answer. -/
inductive EditIsAnswers (idpId : String) (sure : Prop) : IsAnswers EditIs
  | getIdp {auth : IsAuth} {id : Option String} {s : EditIs} :
      EditIsAnswers idpId sure auth (.getIdp idpId) s (some ⟨200, .idp id s.shownGroups⟩) s
  | listRoles {auth : IsAuth} {roles : List ScimRole} {s : EditIs} :
      roles.map ScimRole.id = s.roles.map Prod.fst →
      EditIsAnswers idpId sure auth .listRoles s (some ⟨200, .roles roles⟩) s
  | getRole {auth : IsAuth} {roleId : String} {s : EditIs} :
      EditIsAnswers idpId sure auth (.getRole roleId) s (some ⟨200, .role (s.roleGroups roleId)⟩) s
  | putJit {auth : IsAuth} {jitEnabled : Bool} {s : EditIs} {response : Option IsResponse} :
      EditIsAnswers idpId sure auth (.putJit idpId jitEnabled) s response
        { s with jitEnabled := jitEnabled }
  | putIdpGroups {auth : IsAuth} {names : List String} {after : List GroupRow} {s : EditIs}
      {response : Option IsResponse} : Replaces s.groups names after →
      (∀ r ∈ response, ∀ groups, r.data = .idpGroups groups → groups = after.map GroupRow.shown) →
      EditIsAnswers idpId sure auth (.putIdpGroups idpId names) s response
        { s with groups := after }
  | replaceRoleGroups {auth : IsAuth} {roleId : String} {groups : List String} {s : EditIs}
      {response : Option IsResponse} :
      EditIsAnswers idpId sure auth (.replaceRoleGroups roleId groups) s response
        { s with roleGroups := Function.update s.roleGroups roleId groups }
  | refused {auth : IsAuth} {call : IsCall} {s : EditIs} {response : Option IsResponse} :
      ¬ sure → (∀ r ∈ response, r.statusCode ∉ [200, 201]) →
      EditIsAnswers idpId sure auth call s response s

/-- How IS answers the other calls of the edit page. The read of the authenticator is answered with
what IS has or not at all. -/
inductive EditAnswers (idpId : String) (sure : Prop) :
    EditCall → EditIs → Option EditResponse → EditIs → Prop
  | getDetail {s : EditIs} :
      EditAnswers idpId sure (.getDetail idpId) s (some ⟨200, .detail s.detail⟩) s
  | getAuthenticator {s : EditIs} :
      EditAnswers idpId sure (.getAuthenticator idpId) s (some ⟨200, .properties s.properties⟩) s
  | getClaims {s : EditIs} :
      EditAnswers idpId sure (.getClaims idpId) s (some ⟨200, .mappings s.claims.mappings⟩) s
  | listNamedRoles {s : EditIs} :
      EditAnswers idpId sure .listNamedRoles s (some ⟨200, .namedRoles s.roles⟩) s
  | patchName {name : String} {s : EditIs} {response : Option EditResponse} :
      EditAnswers idpId sure (.patchName idpId name) s response { s with name := name }
  | putAuthenticator {properties : AuthenticatorProperties} {s : EditIs}
      {response : Option EditResponse} :
      EditAnswers idpId sure (.putAuthenticator idpId properties) s response
        { s with properties := properties }
  | putClaims {claims : IdpClaims} {s : EditIs} {response : Option EditResponse} :
      EditAnswers idpId sure (.putClaims idpId claims) s response { s with claims := claims }
  | refused {call : EditCall} {s : EditIs} {response : Option EditResponse} : ¬ sure →
      (∀ r ∈ response, r.statusCode ≠ 200 ∧ call ≠ .getAuthenticator idpId) →
      EditAnswers idpId sure call s response s

/-- How a request of the edit page may be answered. -/
inductive EditReplies (D : Driver) (idpId : String) (sure : Prop) :
    EditReq → PortalWorld EditIs → EditRep → PortalWorld EditIs → Prop
  | portal {q : PortalReq} {w u : PortalWorld EditIs} {r : PortalRep} :
      PortalAnswers D (EditIsAnswers idpId sure) q w r u →
      EditReplies D idpId sure (.portal q) w (.portal r) u
  | edit {call : EditCall} {w : PortalWorld EditIs} {r : EditResponse} {s : EditIs} :
      EditAnswers idpId sure call w.is (some r) s →
      EditReplies D idpId sure (.edit call) w (.edit r) { w with is := s }
  | editFailed {call : EditCall} {w : PortalWorld EditIs} {s : EditIs} :
      EditAnswers idpId sure call w.is none s →
      EditReplies D idpId sure (.edit call) w (.portal .failed) { w with is := s }

/-- The environment of what other handlers do too. -/
abbrev editIsEnv (D : Driver) (idpId : String) (sure : Prop) :
    Environment portal (PortalWorld EditIs) := portalEnv D (EditIsAnswers idpId sure)

/-- The environment of the handlers of the edit page. -/
def editEnv (D : Driver) (idpId : String) (sure : Prop) :
    Environment editPortal (PortalWorld EditIs) where
  exec := PortalWorld.exec
  answers := EditReplies D idpId sure

/-! ## Rules -/

/-- A request to the Business API. -/
def AsksApi : PortalReq → Prop
  | .api _ _ => True
  | _ => False

/-- The session, the messages and IS are as they were. -/
structure Same (w u : PortalWorld EditIs) : Prop where
  session : u.session = w.session
  flashes : u.flashes = w.flashes
  is : u.is = w.is

/-- The world is the same as it is. -/
theorem Same.refl (w : PortalWorld EditIs) : Same w w := ⟨rfl, rfl, rfl⟩

/-- What is the same twice is the same. -/
theorem Same.trans {w u v : PortalWorld EditIs} (h : Same w u) (h' : Same u v) : Same w v :=
  ⟨h'.session.trans h.session, h'.flashes.trans h.flashes, h'.is.trans h.is⟩

section

variable {D : Driver} {idpId : String} {sure : Prop} {w : PortalWorld EditIs} {α β : Type}

/-- A part of any handler ends as it does there. -/
theorem ends_embed {p : Handling α} {Q : Except PortalExn α → PortalWorld EditIs → Prop}
    (h : (editIsEnv D idpId sure).Ends p w Q) : (editEnv D idpId sure).Ends (embed p) w Q := by
  induction p generalizing w with
  | ret a => exact h
  | raise e => exact h
  | op o k ih => exact ih _ h
  | await q k ih =>
    rw [embed]
    intro r u ha
    cases ha with
    | portal ha => exact ih _ (h _ _ ha)

/-- A call of the edit page, and what follows a response. -/
theorem callEdit_then {call : EditCall} {f : EditResponse → Editing α}
    {Q : Except PortalExn α → PortalWorld EditIs → Prop}
    (hok : ∀ r s, EditAnswers idpId sure call w.is (some r) s →
      (editEnv D idpId sure).Ends (f r) { w with is := s } Q)
    (hfailed : ∀ s, EditAnswers idpId sure call w.is none s →
      Q (.error .request) { w with is := s }) :
    (editEnv D idpId sure).Ends (callEdit call >>= f) w Q := by
  intro r u ha
  cases ha with
  | edit h => exact hok _ _ h
  | editFailed h => exact hfailed _ h

/-- What only looks at the session and asks the Business API leaves everything as it was. -/
theorem ends_quiet {p : Handling α} (hp : p.Only (· = PortalOp.session) AsksApi) :
    (editIsEnv D idpId sure).Ends p w fun _ u => Same w u := by
  refine Environment.Ends.only hp (.refl w) (fun o u ho hu => ?_) fun q u r v hq hu ha => ?_
  · subst ho
    exact hu
  · cases ha with
    | api => exact hu.trans ⟨rfl, rfl, rfl⟩
    | _ => exact hq.elim

/-- The gates of IdPs are such parts. -/
theorem gate_quiet (route : IdpRoute) (orgHandle : String) :
    (route.gate orgHandle).Only (· = PortalOp.session) AsksApi :=
  route.only_gate (P := (· = PortalOp.session)) rfl (fun _ _ => trivial) orgHandle

/-- Such a part, and what follows. -/
theorem quiet_then {p : Handling α} (hp : p.Only (· = PortalOp.session) AsksApi) {f : α → Editing β}
    {Q : Except PortalExn β → PortalWorld EditIs → Prop}
    (hok : ∀ a u, Same w u → (editEnv D idpId sure).Ends (f a) u Q)
    (herror : ∀ e u, Same w u → Q (.error e) u) :
    (editEnv D idpId sure).Ends (embed p >>= f) w Q :=
  (ends_embed (ends_quiet hp)).keeping hok herror

/-- A field of a form, and what follows. -/
theorem item_then {form : Form} {k : String} {f : String → Editing α}
    {Q : Except PortalExn α → PortalWorld EditIs → Prop}
    (hsome : ∀ v, form.get k = some v → (editEnv D idpId sure).Ends (f v) w Q)
    (hnone : ∀ e, Q (.error e) w) :
    (editEnv D idpId sure).Ends (embed (form.item k) >>= f) w Q := by
  unfold Form.item
  cases h : form.get k with
  | some v => exact hsome v h
  | none => exact hnone _

/-- The properties of the authenticator. -/
theorem fetchIdpPropsDict_then {f : AuthenticatorProperties → Editing α}
    {Q : Except PortalExn α → PortalWorld EditIs → Prop}
    (hok : (editEnv D idpId sure).Ends (f (w.is.properties.filter fun p => p.1 ≠ "")) w Q)
    (herror : ∀ e, Q (.error e) w) :
    (editEnv D idpId sure).Ends (fetchIdpPropsDict idpId >>= f) w Q := by
  refine .bind (callEdit_then (fun r s h => ?_) fun s h => ?_)
  · cases h with
    | getAuthenticator => exact hok
    | refused _ hr => exact absurd rfl (hr r rfl).2
  · cases h with
    | refused => exact herror _

end

/-! ## Authenticators -/

/-- What the form says of the authenticator, with a client secret. -/
structure OidcSettings where
  clientId : String
  clientSecret : Option String
  authEndpoint : String
  tokenEndpoint : String
  jwksUri : String
  userinfoEndpoint : String
  logoutEndpoint : String
  scopes : String
  deriving DecidableEq, Repr

namespace OidcSettings

/-- The scopes of a form that gives none. -/
def defaultScopes : String := "openid email profile groups"

/-- An endpoint of the form, or the one that goes with its token endpoint. -/
def endpoint (form : Form) (k tokenEndpoint path : String) : String :=
  orElse (stripped form k) (tokenEndpoint.replace "/oauth2/token" path)

/-- The settings of a form. -/
def ofForm (form : Form) (clientId : String) (clientSecret : Option String)
    (authEndpoint tokenEndpoint : String) : OidcSettings where
  clientId := clientId
  clientSecret := clientSecret
  authEndpoint := authEndpoint
  tokenEndpoint := tokenEndpoint
  jwksUri := endpoint form "jwks_uri" tokenEndpoint "/oauth2/jwks"
  userinfoEndpoint := endpoint form "userinfo_endpoint" tokenEndpoint "/oauth2/userinfo"
  logoutEndpoint := endpoint form "logout_endpoint" tokenEndpoint "/oidc/logout"
  scopes := orElse (strip (orElse ((form.get "scopes").getD defaultScopes) defaultScopes))
    defaultScopes

/-- The properties of the authenticator with these settings. -/
def properties (C : PortalConfig) (orgId : String) (o : OidcSettings) : AuthenticatorProperties := [
  ("ClientId", some o.clientId),
  ("ClientSecret", o.clientSecret),
  ("OAuth2AuthzEPUrl", some o.authEndpoint),
  ("OAuth2TokenEPUrl", some o.tokenEndpoint),
  ("JwksUri", some o.jwksUri),
  ("UserInfoUrl", some o.userinfoEndpoint),
  ("OIDCLogoutEPUrl", some o.logoutEndpoint),
  ("Scopes", some o.scopes),
  ("IsPKCEEnabled", some "false"),
  ("IsBasicAuthEnabled", some "false"),
  ("callbackUrl", some (C.isBaseUrl ++ "/o/" ++ orgId ++ "/commonauth")),
  ("AdditionalQueryParameters", some ("scope=" ++ o.scopes)),
  ("commonAuthEPUrl", some (C.isBaseUrl ++ "/commonauth"))]

end OidcSettings

section

variable {C : PortalConfig} {D : Driver} {idpId : String} {sure : Prop} {w : PortalWorld EditIs}

/-- Filling in the secret leaves the other fields. -/
theorem get_secret {form : Form} {k v : String} (hk : k ≠ "client_secret") :
    Form.get (("client_secret", v) :: form) k = form.get k := by
  unfold Form.get
  rw [List.lookup_cons, beq_false_of_ne hk]

/-- Also where they must be there. -/
theorem item_secret {form : Form} {k v : String} (hk : k ≠ "client_secret") :
    Form.item (("client_secret", v) :: form) k = form.item k := by
  unfold Form.item
  rw [get_secret hk]

/-- And where they are stripped. -/
theorem stripped_secret {form : Form} {k v : String} (hk : k ≠ "client_secret") :
    stripped (("client_secret", v) :: form) k = stripped form k := by
  unfold stripped
  rw [get_secret hk]

/-- What a save writes are the settings of the form. -/
theorem editedProperties_eq (form : Form) (clientSecret : Option String)
    (orgId tokenEndpoint : String) :
    editedProperties C form clientSecret orgId tokenEndpoint = (do
      let clientId ← form.item "client_id"
      let authEndpoint ← form.item "auth_endpoint"
      return (OidcSettings.ofForm form clientId clientSecret authEndpoint tokenEndpoint).properties
        C orgId) := by
  unfold editedProperties buildOidcAuthenticatorProperties
  have hsecret : Form.item (("client_secret", clientSecret.getD "") :: form) "client_secret" =
      .ret (clientSecret.getD "") := rfl
  rw [item_secret (by decide), hsecret, item_secret (by decide), stripped_secret (by decide),
    stripped_secret (by decide), stripped_secret (by decide), get_secret (by decide)]
  unfold Form.item
  cases form.get "client_id" with
  | none => rfl
  | some clientId =>
    cases form.get "auth_endpoint" with
    | none => rfl
    | some authEndpoint =>
      simp [OidcSettings.properties, OidcSettings.ofForm, OidcSettings.endpoint,
        OidcSettings.defaultScopes]

/-- The properties of the authenticator that a save writes, and what follows. -/
theorem editedProperties_then {α : Type} {form : Form} {clientSecret : Option String}
    {orgId tokenEndpoint : String} {f : AuthenticatorProperties → Editing α}
    {Q : Except PortalExn α → PortalWorld EditIs → Prop}
    (hok : ∀ clientId authEndpoint, form.get "client_id" = some clientId →
      form.get "auth_endpoint" = some authEndpoint →
      (editEnv D idpId sure).Ends (f ((OidcSettings.ofForm form clientId clientSecret authEndpoint
        tokenEndpoint).properties C orgId)) w Q)
    (herror : ∀ e, Q (.error e) w) :
    (editEnv D idpId sure).Ends
      (embed (editedProperties C form clientSecret orgId tokenEndpoint) >>= f) w Q := by
  rw [editedProperties_eq]
  unfold Form.item
  cases hid : form.get "client_id" with
  | none => exact herror _
  | some clientId =>
    cases hauth : form.get "auth_endpoint" with
    | none => exact herror _
    | some authEndpoint => exact hok clientId authEndpoint hid hauth

end

end Teamspace.Webapp
