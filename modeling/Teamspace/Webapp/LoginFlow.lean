import Teamspace.Webapp.IdentityProviders

/-!
# The login flow of an organization

`add_idp` and `delete_idp` keep the IdPs of an organization and its login flow in step, each by
writing a whole login flow: the one offers a password and the new IdP, the other a password alone.
In a run in which IS answers every call with success, the login flow that was written last offers
all connected IdPs exactly as long as no other IdP is connected whenever one is added or deleted
(`login_flow_offers_idps`).
-/

namespace Teamspace.Webapp

open Teamspace.Py Teamspace.Common Teamspace.Lib Teamspace.Api Handling

/-! ## IS -/

/-- What IS keeps of an organization: the connected IdPs, by id and name, and the login flow that
was written last to the application. -/
structure FlowIs where
  idps : List (String × String)
  sequence : Option AuthSequence
  deriving DecidableEq, Repr

/-- A call that neither changes nor reads what `FlowIs` keeps. -/
def IsCall.Bystander : IsCall → Prop
  | .createIdp _ | .deleteIdp _ | .listApplications | .patchAuthSequence _ _ => False
  | _ => True

/-- A call that asks for an object, in which a handler looks for groups. -/
def IsCall.AsksObject : IsCall → Prop
  | .getIdp _ | .getRole _ => True
  | _ => False

/-- IS answers every call with success, and with an object where one is asked for. `appId` is the
application of the portal. -/
inductive FlowAnswers (C : PortalConfig) (appId : String) : IsAnswers FlowIs
  | createIdp {auth : IsAuth} {body : IdpBody} {s : FlowIs} {statusCode : Nat} {id : String}
      {groups : List IdpGroup} : statusCode ∈ [200, 201] → id ≠ "" → (∀ i ∈ s.idps, i.1 ≠ id) →
      FlowAnswers C appId auth (.createIdp body) s (some ⟨statusCode, .idp (some id) groups⟩)
        { s with idps := (id, body.name) :: s.idps }
  | deleteIdp {auth : IsAuth} {idpId : String} {s : FlowIs} {r : IsResponse} :
      r.statusCode ∈ [200, 204] →
      FlowAnswers C appId auth (.deleteIdp idpId) s (some r)
        { s with idps := s.idps.filter fun i => i.1 ≠ idpId }
  | listApplications {auth : IsAuth} {s : FlowIs} {apps : List Application} :
      appIdIn C apps = some appId →
      FlowAnswers C appId auth .listApplications s (some ⟨200, .applications apps⟩) s
  | patchAuthSequence {auth : IsAuth} {authSequence : AuthSequence} {s : FlowIs} {r : IsResponse} :
      r.statusCode ∈ [200, 204] →
      FlowAnswers C appId auth (.patchAuthSequence appId authSequence) s (some r)
        { s with sequence := some authSequence }
  | patchOther {auth : IsAuth} {appId' : String} {authSequence : AuthSequence} {s : FlowIs}
      {r : IsResponse} : appId' ≠ appId →
      FlowAnswers C appId auth (.patchAuthSequence appId' authSequence) s (some r) s
  | bystander {auth : IsAuth} {call : IsCall} {s : FlowIs} {r : IsResponse} : call.Bystander →
      200 ≤ r.statusCode → r.statusCode < 300 → (call.AsksObject → r.data.IsObject = true) →
      FlowAnswers C appId auth call s (some r) s

/-- The environment of the handlers in which IS answers every call with success. -/
abbrev flowEnv (C : PortalConfig) (appId : String) (D : Driver) :
    Environment portal (PortalWorld FlowIs) :=
  portalEnv D (FlowAnswers C appId)

/-! ## What the handlers do -/

section

variable {C : PortalConfig} {appId : String} {D : Driver} {w : PortalWorld FlowIs} {α : Type}

/-- A request that leaves what `FlowIs` keeps. -/
def LeavesFlow : PortalReq → Prop
  | .is _ call => call.Bystander
  | _ => True

/-- A bystander call is answered, and leaves what `FlowIs` keeps. -/
theorem FlowAnswers.of_bystander {auth : IsAuth} {call : IsCall} (hcall : call.Bystander)
    {s t : FlowIs} {r : Option IsResponse} (h : FlowAnswers C appId auth call s r t) :
    t = s ∧ ∃ response, r = some response ∧
      (call.AsksObject → response.data.IsObject = true) := by
  cases h with
  | bystander _ _ _ hobject => exact ⟨rfl, _, rfl, hobject⟩
  | createIdp | deleteIdp | listApplications | patchAuthSequence | patchOther => exact hcall.elim

/-- What makes bystander calls alone leaves the IdPs and the login flow. -/
theorem ends_leaving {p : Handling α} {s : FlowIs} (hw : w.is = s)
    (hp : p.Only (fun _ => True) LeavesFlow) :
    (flowEnv C appId D).Ends p w fun _ u => u.is = s :=
  ends_leaving_is hp hw fun _ _ _ _ hq h => (h.of_bystander hq).1

/-- A bystander call, and what follows it. -/
theorem callIs_bystander {auth : IsAuth} {call : IsCall} {s : FlowIs} {f : IsResponse → Handling α}
    {Q : Except PortalExn α → PortalWorld FlowIs → Prop} (hcall : call.Bystander) (hw : w.is = s)
    (hf : ∀ r u, u.is = s → (call.AsksObject → r.data.IsObject = true) →
      (flowEnv C appId D).Ends (f r) u Q) :
    (flowEnv C appId D).Ends (callIs auth call >>= f) w Q := by
  subst hw
  refine callIs_then (fun r s h => ?_) fun s h => ?_
  · obtain ⟨hs, _, ⟨⟩, hobject⟩ := h.of_bystander hcall
    exact hf r _ hs hobject
  · obtain ⟨-, _, hnone, -⟩ := h.of_bystander hcall
    cases hnone

/-- The login flow is written. -/
theorem writeAuthSequence_ends (token : String) (authSequence : AuthSequence) :
    (flowEnv C appId D).Ends (writeAuthSequence C token authSequence) w
      (Environment.Settled fun _ u => u.is = { w.is with sequence := some authSequence }) := by
  have resolved : (flowEnv C appId D).Ends (resolveTeamspaceAppId C token) w
      (Environment.Settled fun id u => id = some appId ∧ u.is = w.is) := by
    refine callIs_then (fun r s h => ?_) fun s h => by cases h
    cases h with
    | listApplications happs => exact ⟨happs, rfl⟩
    | bystander h => exact h.elim
  refine resolved.settled ?_
  rintro id u ⟨rfl, hu⟩
  refine callIs_then (fun r s h => ?_) fun s h => by cases h
  rw [hu] at h
  cases h with
  | patchAuthSequence => exact rfl
  | patchOther hne => exact absurd rfl hne
  | bystander h => exact h.elim

/-! ### Groups and roles -/

/-- Looking for the groups of an IdP leaves the flow. -/
theorem resolvedGroups_ends {s : FlowIs} (hw : w.is = s) (token idpId : String)
    (names : List String) :
    (flowEnv C appId D).Ends (resolvedGroups token idpId names) w
      (Environment.Settled fun _ u => u.is = s) := by
  refine callIs_bystander trivial hw fun groupsRes u hu _ => ?_
  dsimp only
  split
  · exact hu
  · refine callIs_bystander trivial hu fun detailRes v hv hobject => ?_
    obtain ⟨groups, hgroups⟩ := groupsOfIdp_of_isObject (hobject trivial)
    rw [hgroups]
    split <;> exact hv

/-- So does mapping them to roles. -/
theorem mapRoles_ends {s : FlowIs} (hw : w.is = s) (token : String) (form : Form)
    (resolved : List IdpGroup) (roles : List ScimRole) :
    (flowEnv C appId D).Ends (mapRoles token form resolved roles) w
      (Environment.Settled fun _ u => u.is = s) := by
  induction roles generalizing w with
  | nil => exact hw
  | cons role roles ih =>
    refine callIs_bystander trivial hw fun roleDetail u hu hobject => ?_
    obtain ⟨groups, hgroups⟩ := groupsOfRole_of_isObject (hobject trivial)
    rw [hgroups]
    split
    · exact callIs_bystander trivial hu fun _ v hv _ => ih hv
    · exact ih hu

/-- So does all that becomes of the groups. -/
theorem applyIdpRoleGroupMappings_ends {s : FlowIs} (hw : w.is = s) (token idpId : String)
    (form : Form) :
    (flowEnv C appId D).Ends (applyIdpRoleGroupMappings token idpId form) w
      (Environment.Settled fun _ u => u.is = s) := by
  refine (resolvedGroups_ends hw token idpId _).settled fun resolved u hu => ?_
  refine callIs_bystander trivial hu fun rolesRes v hv _ => ?_
  exact mapRoles_ends hv ..

/-! ### The handlers -/

/-- Making sure of a role leaves the flow. -/
theorem only_ensureRole (token orgId roleName : String) :
    (ensureRole token orgId roleName).Only (fun _ => True) LeavesFlow := by
  refine .bind (only_callIs trivial) fun checkRes => Program.only_ite (fun _ => ?_) fun _ => trivial
  exact .bind (only_callIs trivial) fun _ => trivial

/-- An IdP is connected, and offered beside a password, and no other. -/
def Connects (form : Form) (s t : FlowIs) : Prop :=
  ∃ id name, form.get "name" = some name ∧ t = ⟨(id, name) :: s.idps, some (flowWith name)⟩

/-- An IdP is disconnected, and a password offered alone. -/
def Disconnects (idpId : String) (s t : FlowIs) : Prop :=
  t = ⟨s.idps.filter fun i => i.1 ≠ idpId, some defaultFlow⟩

/-- `add_idp` leaves the IdPs and the login flow, or connects an IdP. -/
theorem addIdpBody_ends {s : FlowIs} (hw : w.is = s) (orgHandle : String) (form : Form) :
    (flowEnv C appId D).Ends (addIdpBody C orgHandle form) w fun _ u =>
      u.is = s ∨ Connects form s u.is := by
  unfold addIdpBody
  refine (ends_leaving hw (only_accessToken trivial)).keeping (fun token w hw => ?_)
    fun _ _ => .inl
  refine (ends_leaving hw (only_session trivial)).keeping (fun session w hw => ?_) fun _ _ => .inl
  refine (ends_leaving hw (only_ensureRole ..)).keeping (fun _ w hw => ?_) fun _ _ => .inl
  refine (ends_leaving hw (only_ensureRole ..)).keeping (fun _ w hw => ?_) fun _ _ => .inl
  unfold Form.item
  cases hname : form.get "name" with
  | none => exact .inl hw
  | some name =>
    refine (ends_leaving hw only_item).keeping (fun tokenEndpoint w hw => ?_) fun _ _ => .inl
    refine (ends_leaving hw (only_buildOidcAuthenticatorProperties ..)).keeping
      (fun properties w hw => ?_) fun _ _ => .inl
    refine callIs_then (fun r t h => ?_) fun t h => by cases h
    rw [hw] at h
    cases h with
    | bystander h => exact h.elim
    | @createIdp _ _ _ statusCode id groups hstatus hid hfresh =>
      rw [if_neg (not_not.2 hstatus)]
      rw [createdId_some hid]
      refine callIs_bystander trivial rfl fun _ w hw _ => ?_
      refine (applyIdpRoleGroupMappings_ends hw _ _ _).settled fun _ w hw => ?_
      refine (writeAuthSequence_ends _ _).settled fun _ w' hw' => ?_
      refine .inr ⟨id, name, hname, ?_⟩
      rw [hw] at hw'
      exact hw'

/-- `delete_idp` leaves the IdPs and the login flow, or disconnects an IdP. -/
theorem deleteIdpBody_ends {s : FlowIs} (hw : w.is = s) (orgHandle idpId : String) :
    (flowEnv C appId D).Ends (deleteIdpBody C orgHandle idpId) w fun _ u =>
      u.is = s ∨ Disconnects idpId s u.is := by
  unfold deleteIdpBody
  refine (ends_leaving hw (only_accessToken trivial)).keeping (fun token w hw => ?_)
    fun _ _ => .inl
  refine callIs_bystander trivial hw fun _ w hw _ => ?_
  refine (writeAuthSequence_ends _ _).settled fun _ w hflow => ?_
  refine callIs_then (fun r t h => ?_) fun t h => by cases h
  rw [hflow, hw] at h
  cases h with
  | bystander h => exact h.elim
  | deleteIdp => split <;> exact .inr rfl

end

/-! ## Runs -/

/-- A request that adds or deletes an IdP. -/
inductive FlowRequest
  | addIdp (orgHandle : String) (form : Form)
  | deleteIdp (orgHandle idpId : String)

namespace FlowRequest

/-- The handler of a request. -/
def handler (C : PortalConfig) : FlowRequest → Handling Page
  | .addIdp orgHandle form => Webapp.addIdp C orgHandle form
  | .deleteIdp orgHandle idpId => Webapp.deleteIdp C orgHandle idpId

/-- The request names a new IdP as none that is connected is named, or deletes one that is. -/
def Proper (s : FlowIs) : FlowRequest → Prop
  | .addIdp _ form => ∀ i ∈ s.idps, form.get "name" ≠ some i.2
  | .deleteIdp _ idpId => ∃ i ∈ s.idps, i.1 = idpId

/-- What a request can make of the IdPs and the login flow, from any session and database. -/
def Serves (C : PortalConfig) (appId : String) (D : Driver) (request : FlowRequest)
    (s t : FlowIs) : Prop :=
  ∃ session db x w, (flowEnv C appId D).Runs (request.handler C) ⟨session, [], db, s⟩ x w ∧ w.is = t

end FlowRequest

/-- A request that has changed something, with what was before and is after it. -/
structure FlowStep where
  request : FlowRequest
  before : FlowIs
  after : FlowIs

/-- The steps of a sequence of requests of an organization that starts without IdPs, and what is
after them. A request that is refused is no step. -/
inductive FlowRun (C : PortalConfig) (appId : String) (D : Driver) : List FlowStep → FlowIs → Prop
  | start : FlowRun C appId D [] ⟨[], none⟩
  | refused {steps : List FlowStep} {request : FlowRequest} {s : FlowIs} :
      FlowRun C appId D steps s → request.Serves C appId D s s → FlowRun C appId D steps s
  | step {steps : List FlowStep} {request : FlowRequest} {s t : FlowIs} :
      FlowRun C appId D steps s → request.Proper s → request.Serves C appId D s t → t ≠ s →
      FlowRun C appId D (steps ++ [⟨request, s, t⟩]) t

/-! ## The law -/

/-- The options of a login flow. -/
def AuthSequence.options (authSequence : AuthSequence) : List AuthOption :=
  authSequence.steps.flatMap AuthStep.options

/-- The login flow offers a password and every connected IdP, and nothing else. -/
structure AuthSequence.Offers (authSequence : AuthSequence) (idps : List (String × String)) :
    Prop where
  password : localOption ∈ authSequence.options
  connected : ∀ i ∈ idps, idpOption i.2 ∈ authSequence.options
  only : ∀ o ∈ authSequence.options, o = localOption ∨ ∃ i ∈ idps, o = idpOption i.2

/-- The login flow that was written last is right. -/
def FlowIs.Right (s : FlowIs) : Prop :=
  ∃ authSequence, s.sequence = some authSequence ∧ authSequence.Offers s.idps

/-- No other IdP is connected when the request comes. -/
def FlowStep.Alone (step : FlowStep) : Prop :=
  match step.request with
  | .addIdp _ _ => step.before.idps = []
  | .deleteIdp _ idpId => ∀ i ∈ step.before.idps, i.1 = idpId

/-- A flow that was written is right if it offers the connected IdPs. -/
theorem FlowIs.right_iff {idps : List (String × String)} {authSequence : AuthSequence} :
    FlowIs.Right ⟨idps, some authSequence⟩ ↔ authSequence.Offers idps := by
  constructor
  · rintro ⟨_, ⟨⟩, h⟩
    exact h
  · exact fun h => ⟨_, rfl, h⟩

/-- The flow of a new IdP is right if it is the only one. -/
theorem flowWith_offers {id name : String} {idps : List (String × String)}
    (hname : ∀ i ∈ idps, i.2 ≠ name) : (flowWith name).Offers ((id, name) :: idps) ↔ idps = [] := by
  constructor
  · intro h
    cases idps with
    | nil => rfl
    | cons i idps =>
      have hi := h.connected i (by simp)
      have hne := hname i (by simp)
      simp [flowWith, AuthSequence.options, localOption, idpOption, hne] at hi
  · rintro rfl
    exact ⟨by simp [flowWith, AuthSequence.options], by simp [flowWith, AuthSequence.options],
      by simp [flowWith, AuthSequence.options]⟩

/-- The flow without IdPs is right if none is connected. -/
theorem defaultFlow_offers {idps : List (String × String)} : defaultFlow.Offers idps ↔ idps = [] := by
  constructor
  · intro h
    cases idps with
    | nil => rfl
    | cons i idps =>
      have hi := h.connected i (by simp)
      simp [defaultFlow, AuthSequence.options, localOption, idpOption] at hi
  · rintro rfl
    exact ⟨by simp [defaultFlow, AuthSequence.options], by simp,
      by simp [defaultFlow, AuthSequence.options]⟩

section

variable {C : PortalConfig} {appId : String} {D : Driver}

/-- A gate leaves the IdPs and the login flow to the handler behind it. -/
theorem behind_ends {w : PortalWorld FlowIs} {s : FlowIs} (hw : w.is = s) {route : IdpRoute}
    {orgHandle : String} {handler : Handling Page} {Q : FlowIs → Prop}
    (h : ∀ w : PortalWorld FlowIs, w.is = s →
      (flowEnv C appId D).Ends handler w fun _ u => u.is = s ∨ Q u.is) :
    (flowEnv C appId D).Ends (behind (route.gate orgHandle) handler) w fun _ u =>
      u.is = s ∨ Q u.is := by
  refine (ends_leaving hw (route.only_gate trivial (fun _ _ => trivial) orgHandle)).keeping
    (fun page w hw => ?_) fun _ _ => .inl
  cases page with
  | some page => exact .inl hw
  | none => exact h w hw

/-- After a step the login flow is right if no other IdP was connected before it. -/
theorem step_right {request : FlowRequest} {s t : FlowIs} (hproper : request.Proper s)
    (h : request.Serves C appId D s t) (hne : t ≠ s) :
    t.Right ↔ FlowStep.Alone ⟨request, s, t⟩ := by
  obtain ⟨session, db, x, w, hr, rfl⟩ := h
  cases request with
  | addIdp orgHandle form =>
    obtain h | ⟨id, name, hname, h⟩ := (behind_ends (Q := Connects form s) rfl
      fun w hw => addIdpBody_ends hw orgHandle form).of_runs hr
    · exact absurd h hne
    · rw [h, FlowIs.right_iff]
      exact flowWith_offers fun i hi hi' => hproper i hi (hname.trans (congrArg some hi'.symm))
  | deleteIdp orgHandle idpId =>
    obtain h | h := (behind_ends (Q := Disconnects idpId s) rfl
      fun w hw => deleteIdpBody_ends hw orgHandle idpId).of_runs hr
    · exact absurd h hne
    · unfold Disconnects at h
      rw [h, FlowIs.right_iff, defaultFlow_offers, List.filter_eq_nil_iff]
      simp [FlowStep.Alone]

/-- In a run in which IS answers every call with success, the login flow that was written last
offers a password and all connected IdPs after every step, exactly if no other IdP is connected when
one is added or deleted. -/
theorem login_flow_offers_idps {steps : List FlowStep} {s : FlowIs}
    (hrun : FlowRun C appId D steps s) :
    (∀ step ∈ steps, step.after.Right) ↔ ∀ step ∈ steps, step.Alone := by
  induction hrun with
  | start => exact iff_of_true (List.forall_mem_nil _) (List.forall_mem_nil _)
  | refused _ _ ih => exact ih
  | step _ hproper hserves hne ih =>
    rw [List.forall_mem_append, List.forall_mem_append, ih, List.forall_mem_singleton,
      List.forall_mem_singleton, step_right hproper hserves hne]

end

/-! ## Two IdPs -/

/-- The configuration of the portal. -/
def exampleConfig : PortalConfig := ⟨"https://is", "teamspace"⟩

/-- The length of all ids together. -/
def idsLength : List (String × String) → Nat
  | [] => 0
  | i :: idps => i.1.length + idsLength idps

/-- Each id is as long as all of them at most. -/
theorem length_le_idsLength {idps : List (String × String)} {i : String × String} (hi : i ∈ idps) :
    i.1.length ≤ idsLength idps := by
  induction idps with
  | nil => cases hi
  | cons j idps ih =>
    unfold idsLength
    obtain rfl | hi := List.mem_cons.1 hi
    · omega
    · have := ih hi
      omega

/-- An id that no connected IdP has. -/
def freshId (idps : List (String × String)) : String :=
  String.ofList (List.replicate (idsLength idps + 1) 'i')

/-- A fresh id is none of the others. -/
theorem freshId_ne {idps : List (String × String)} {i : String × String} (hi : i ∈ idps) :
    i.1 ≠ freshId idps := by
  intro h
  have hle := length_le_idsLength hi
  have hlen := congrArg String.length h
  simp [freshId] at hlen
  omega

/-- A fresh id is not empty. -/
theorem freshId_ne_empty (idps : List (String × String)) : freshId idps ≠ "" := by
  intro h
  have hlen := congrArg String.length h
  simp [freshId] at hlen

/-- IS and the Business API, both up, for an administrator of `o`. -/
def flowUp : PortalReq → PortalWorld FlowIs → PortalRep × PortalWorld FlowIs
  | .token _, w => (.token "t", w)
  | .is _ (.createIdp body), w =>
    let id := freshId w.is.idps
    (.is ⟨201, .idp (some id) []⟩,
      { w with is := { w.is with idps := (id, body.name) :: w.is.idps } })
  | .is _ (.deleteIdp idpId), w =>
    (.is ⟨204, .other⟩,
      { w with is := { w.is with idps := w.is.idps.filter fun i => i.1 ≠ idpId } })
  | .is _ .listApplications, w => (.is ⟨200, .applications [⟨some "teamspace", some "app"⟩]⟩, w)
  | .is _ (.patchAuthSequence appId authSequence), w =>
    (.is ⟨200, .other⟩,
      { w with is := if appId = "app" then { w.is with sequence := some authSequence } else w.is })
  | .is _ (.getIdp _), w => (.is ⟨200, .idp none []⟩, w)
  | .is _ (.getRole _), w => (.is ⟨200, .role []⟩, w)
  | .is _ _, w => (.is ⟨200, .other⟩, w)
  | .api _ request, w =>
    let answer := handle .sqlite ⟨.ok none, none, request, ⟨"k", 0, 0⟩⟩ w.db
    (.api ⟨answer.1.statusCode, answer.1.body⟩, { w with db := answer.2 })

/-- They answer as IS and the Business API may. -/
theorem answers_flowUp (q : PortalReq) (w : PortalWorld FlowIs) :
    (flowEnv exampleConfig "app" .sqlite).answers q w (flowUp q w).1 (flowUp q w).2 := by
  cases q with
  | token grant => exact .token grant w "t"
  | api token request => exact .api (.answered _ _)
  | is auth call =>
    cases call with
    | createIdp body =>
      exact .is (.createIdp (by decide) (freshId_ne_empty _) fun i => freshId_ne)
    | deleteIdp idpId => exact .is (.deleteIdp (by decide))
    | listApplications => exact .is (.listApplications (by decide))
    | patchAuthSequence appId authSequence =>
      have h : FlowAnswers exampleConfig "app" auth (.patchAuthSequence appId authSequence) w.is
          (some ⟨200, .other⟩)
          (if appId = "app" then { w.is with sequence := some authSequence } else w.is) := by
        split
        · next happ =>
          subst happ
          exact .patchAuthSequence (by decide)
        · next happ => exact .patchOther happ
      exact .is h
    | getIdp | getRole => exact .is (.bystander trivial (by decide) (by decide) fun _ => rfl)
    | _ => exact .is (.bystander trivial (by decide) (by decide) False.elim)

/-- A session of an IdP manager. -/
def idpManagerSession : PortalSession where
  user := some ⟨"u", "o", "Acme", "acme"⟩
  accessToken := some "t"
  userRoles := [teamspaceAdmin, idpManager]
  isAdmin := true
  orgPlan := none
  hasAgentConfig := none
  orgBranding := none

/-- The database with the organization on the enterprise plan. -/
def enterprisePlan : Database :=
  { Database.empty with organizationPlans := ⟨[⟨⟨"o", "enterprise"⟩, some 0⟩], by decide⟩ }

/-- The form of a new IdP. -/
def idpForm (name : String) : Form :=
  [("name", name), ("token_endpoint", "https://idp/oauth2/token"), ("client_id", "c"),
    ("client_secret", "s"), ("auth_endpoint", "https://idp/oauth2/authorize")]

/-- The portal for an IdP manager of that organization. -/
def flowWorld (s : FlowIs) : PortalWorld FlowIs := ⟨idpManagerSession, [], enterprisePlan, s⟩

/-- What is left after adding an IdP. -/
def flowAfter (name : String) (s : FlowIs) : FlowIs :=
  ((addIdp exampleConfig "acme" (idpForm name)).run PortalWorld.exec flowUp (flowWorld s)).2.is

/-- The addition of an IdP is served so. -/
theorem serves_flowAfter (name : String) (s : FlowIs) :
    (FlowRequest.addIdp "acme" (idpForm name)).Serves exampleConfig "app" .sqlite s
      (flowAfter name s) :=
  ⟨idpManagerSession, enterprisePlan, _, _,
    Environment.runs_run answers_flowUp (addIdp exampleConfig "acme" (idpForm name)) (flowWorld s),
    rfl⟩

/-- What is left after deleting an IdP. -/
def flowWithout (idpId : String) (s : FlowIs) : FlowIs :=
  ((deleteIdp exampleConfig "acme" idpId).run PortalWorld.exec flowUp (flowWorld s)).2.is

/-- So is its deletion. -/
theorem serves_flowWithout (idpId : String) (s : FlowIs) :
    (FlowRequest.deleteIdp "acme" idpId).Serves exampleConfig "app" .sqlite s
      (flowWithout idpId s) :=
  ⟨idpManagerSession, enterprisePlan, _, _,
    Environment.runs_run answers_flowUp (deleteIdp exampleConfig "acme" idpId) (flowWorld s), rfl⟩

/-- After the addition of A the flow offers A. -/
theorem flowAfter_A : flowAfter "A" ⟨[], none⟩ = ⟨[("i", "A")], some (flowWith "A")⟩ := by
  decide +kernel

/-- After that of B it offers B only. -/
theorem flowAfter_B : flowAfter "B" ⟨[("i", "A")], some (flowWith "A")⟩ =
    ⟨[("ii", "B"), ("i", "A")], some (flowWith "B")⟩ := by decide +kernel

/-- After the deletion of A it offers the password only. -/
theorem flowWithout_A : flowWithout "i" ⟨[("i", "A")], some (flowWith "A")⟩ =
    ⟨[], some defaultFlow⟩ := by decide +kernel

/-- After the addition of B to that it offers B. -/
theorem flowAfter_again : flowAfter "B" ⟨[], some defaultFlow⟩ =
    ⟨[("i", "B")], some (flowWith "B")⟩ := by decide +kernel

/-- The addition of an IdP to none. -/
def firstStep : FlowStep :=
  ⟨.addIdp "acme" (idpForm "A"), ⟨[], none⟩, ⟨[("i", "A")], some (flowWith "A")⟩⟩

/-- The addition of another one. -/
def secondStep : FlowStep :=
  ⟨.addIdp "acme" (idpForm "B"), firstStep.after,
    ⟨[("ii", "B"), ("i", "A")], some (flowWith "B")⟩⟩

/-- One addition is a run. -/
theorem flowRun_first : FlowRun exampleConfig "app" .sqlite [firstStep] firstStep.after :=
  .step .start (List.forall_mem_nil _) (flowAfter_A ▸ serves_flowAfter "A" _) (by decide)

/-- So are two additions. -/
theorem flowRun_second :
    FlowRun exampleConfig "app" .sqlite [firstStep, secondStep] secondStep.after :=
  .step flowRun_first (List.forall_mem_singleton.2 (by decide))
    (flowAfter_B ▸ serves_flowAfter "B" _) (by decide)

/-- The deletion of the first IdP. -/
def deletingStep : FlowStep :=
  ⟨.deleteIdp "acme" "i", firstStep.after, ⟨[], some defaultFlow⟩⟩

/-- The addition of an IdP in its place. -/
def nextStep : FlowStep :=
  ⟨.addIdp "acme" (idpForm "B"), deletingStep.after, ⟨[("i", "B")], some (flowWith "B")⟩⟩

/-- So are an addition, a deletion and another addition. -/
theorem flowRun_next : FlowRun exampleConfig "app" .sqlite [firstStep, deletingStep, nextStep]
    nextStep.after := by
  have hdeleted : FlowRun exampleConfig "app" .sqlite [firstStep, deletingStep]
      deletingStep.after :=
    .step flowRun_first ⟨("i", "A"), by decide, rfl⟩ (flowWithout_A ▸ serves_flowWithout "i" _)
      (by decide)
  exact .step hdeleted (List.forall_mem_nil _) (flowAfter_again ▸ serves_flowAfter "B" _)
    (by decide)

/-- An IdP that is added when the one before it has been deleted is offered, and that one is not. -/
theorem login_flow_offers_one :
    firstStep.after.Right ∧ deletingStep.after.Right ∧ nextStep.after.Right := by
  have hright := (login_flow_offers_idps flowRun_next).2 (by
    simp only [List.forall_mem_cons]
    exact ⟨rfl, List.forall_mem_singleton.2 rfl, rfl, List.forall_mem_nil _⟩)
  simp only [List.forall_mem_cons] at hright
  obtain ⟨hone, htwo, hthree, -⟩ := hright
  exact ⟨hone, htwo, hthree⟩

/-- After the second IdP the first one, which is still connected, is not offered. -/
theorem second_idp_hides_first :
    FlowRun exampleConfig "app" .sqlite [firstStep, secondStep] secondStep.after ∧
      ("i", "A") ∈ secondStep.after.idps ∧
      secondStep.after.sequence = some (flowWith "B") ∧
      idpOption "A" ∉ (flowWith "B").options ∧ ¬secondStep.after.Right := by
  refine ⟨flowRun_second, by decide, rfl, by decide, ?_⟩
  rintro ⟨_, ⟨⟩, h⟩
  exact absurd (h.connected ("i", "A") (by decide)) (by decide)

end Teamspace.Webapp
