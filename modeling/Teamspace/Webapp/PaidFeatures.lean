import Teamspace.Webapp.Branding
import Teamspace.Webapp.Gates
import Teamspace.Webapp.StoredPlans

/-!
# Paid features

Roles are granted with a plan and never revoked, so that only the stored plan says what an
organization pays for. The handlers of IdPs, login flows and agents ask for it before anything else;
the handlers of the branding ask for the role alone.
-/

namespace Teamspace.Webapp

open Teamspace.Py Teamspace.Common Teamspace.Lib Teamspace.Api Handling

variable {ι : Type}

/-- The stored plan of an organization. -/
def storedPlan (db : Database) (org : String) : Option String :=
  (db.organizationPlans.first fun p => decide (p.org = org)).map fun p => p.plan

/-- A plan lookup is answered 200 or 404. -/
def LooksUp : PortalReq → PortalRep → Prop
  | .api _ (.getPlan _), .api result => result.statusCode ∈ [200, 404]
  | .api _ (.getPlan _), _ => False
  | _, _ => True

/-- The environment of the handlers while plan lookups are answered. -/
abbrev lookupEnv (D : Driver) (isAnswers : IsAnswers ι) : Environment portal (PortalWorld ι) :=
  (portalEnv D isAnswers).restrict LooksUp

/-! ## The lookup -/

section

variable {D : Driver} {isAnswers : IsAnswers ι} {w : PortalWorld ι}

/-- What a lookup says when it is answered 200. -/
theorem handle_getPlan {c : Call} {org : String} (hc : c.request = .getPlan org) {db : Database}
    (h : (handle D c db).1.statusCode = 200) :
    ∃ plan, (handle D c db).1.body = .organizationPlan ⟨org, plan⟩ ∧ storedPlan db org = some plan := by
  obtain ⟨claims, service, request, fresh⟩ := c
  cases hc
  let handler : Handler OrganizationPlan := ofOrg D OrganizationPlan.table org "No plan found"
  change (respond 200 planBody handler db).1.statusCode = 200 at h
  change ∃ plan, (respond 200 planBody handler db).1.body = _ ∧ _
  cases hop : D.equals (.str org) with
  | error e =>
    have he : e = .database := by
      unfold Driver.equals at hop
      split at hop <;> cases hop
      rfl
    have hout : handler.outcome db = (.error e, db) := by
      unfold handler ofOrg
      rw [hop]
      rfl
    rw [respond_error hout, he] at h
    cases h
  | ok isOrg =>
    have hfirst : (db.organizationPlans.first fun p => isOrg p.org) =
        db.organizationPlans.first fun p => decide (p.org = org) := by
      refine congrArg db.organizationPlans.first (funext fun p => ?_)
      exact Bool.eq_iff_iff.2 ((Driver.equals_str hop).trans decide_eq_true_iff.symm)
    cases hrow : db.organizationPlans.first fun p => isOrg p.org with
    | none =>
      rw [respond_error (ofOrg_missing hop hrow)] at h
      cases h
    | some p =>
      have horg : p.org = org := (Driver.equals_str hop).1 (Table.mem_of_first hrow).2
      have hbody : planBody p = .ok (.organizationPlan p.toOrganizationPlanUpsert) := rfl
      refine ⟨p.plan, ?_, ?_⟩
      · rw [respond_ok (ofOrg_found hop hrow) hbody, ← horg]
      · unfold storedPlan
        rw [← hfirst, hrow]
        rfl

/-- What a lookup is answered. -/
theorem apiRequest_getPlan (org : String) :
    (lookupEnv D isAnswers).Ends (apiRequest none (.getPlan org)) w
      (Environment.Returning fun result _ => result.statusCode = 404 ∨ result.statusCode = 200 ∧
        ∃ plan, result.data = .organizationPlan ⟨org, plan⟩ ∧ storedPlan w.db org = some plan) := by
  rintro r u ⟨ha, hr⟩
  cases ha with
  | @api _ _ _ result db ha =>
    have hr : result.statusCode ∈ [200, 404] := hr
    change result.statusCode = 404 ∨ _
    cases ha with
    | answered claims fresh =>
      obtain hr | hr := List.mem_pair.1 hr
      · exact .inr ⟨hr, handle_getPlan rfl hr⟩
      · exact .inl hr
    | unavailable hge | lost _ _ hge =>
      obtain hr | hr := List.mem_pair.1 hr
      · omega
      · exact .inl hr

/-- A lookup finds the stored plan, or the default one. -/
theorem resolvePlanForGating_ends (org : String) :
    (lookupEnv D isAnswers).Ends (resolvePlanForGating org) w
      (Environment.Returning fun plan _ => org ≠ "" →
        ∃ p, plan = some p ∧ (p = defaultPlan ∨ storedPlan w.db org = some p)) := by
  unfold resolvePlanForGating
  split
  · next h => exact fun hne => absurd h hne
  · refine (apiRequest_getPlan org).returning fun result u h => ?_
    obtain h | ⟨h, plan, hdata, hplan⟩ := h
    · rw [if_neg (by omega), if_pos h]
      exact fun _ => ⟨_, rfl, .inl rfl⟩
    · rw [if_pos h, hdata]
      intro _
      change ∃ p, some (if plan = "" then defaultPlan else plan) = some p ∧ _
      split
      · exact ⟨_, rfl, .inl rfl⟩
      · exact ⟨_, rfl, .inr hplan⟩

/-- Past the check of plan and role, the stored plan is the one that is asked for. -/
theorem checkPlanAndRole_ends {requiredPlan : String} (hrequired : requiredPlan ≠ defaultPlan)
    (requiredRole title description upgradeTemplate : String) :
    (lookupEnv D isAnswers).Ends
      (checkPlanAndRole requiredPlan requiredRole title description upgradeTemplate) w
      (Environment.Returning fun page _ => page = none → w.session.orgId ≠ "" →
        storedPlan w.db w.session.orgId = some requiredPlan) := by
  change (lookupEnv D isAnswers).Ends (resolvePlanForGating w.session.orgId >>= _) w _
  refine (resolvePlanForGating_ends w.session.orgId).returning fun plan u hplan => ?_
  split
  · exact nofun
  · next hok =>
    have paid (horg : w.session.orgId ≠ "") :
        storedPlan w.db w.session.orgId = some requiredPlan := by
      obtain ⟨p, rfl, hp⟩ := hplan horg
      have hreq : p = requiredPlan := by simpa using hok
      obtain hp | hp := hp
      · exact absurd (hreq.symm.trans hp) hrequired
      · rw [hp, hreq]
    split
    · exact fun _ => paid
    · split <;> exact nofun

/-! ## The gates -/

/-- What only reads the session leaves everything as it is. -/
theorem ends_reading {α : Type} {p : Handling α}
    (hp : p.Only (fun o => o = PortalOp.session) fun _ => False) :
    (lookupEnv D isAnswers).Ends p w (Environment.Returning fun _ u => u = w) := by
  refine (Environment.Ends.only (J := fun u => u = w) hp rfl ?_ ?_).mono fun x u hu => ?_
  · intro o u ho hu
    rw [ho, hu]
    rfl
  · exact fun _ _ _ _ h => h.elim
  · cases x with
    | ok a => exact hu
    | error e => trivial

/-- Whoever is past the gate of a route for IdPs or login flows is on the enterprise plan. -/
theorem idpGate_ends (route : IdpRoute) (orgHandle : String) :
    (lookupEnv D isAnswers).Ends (route.gate orgHandle) w
      (Environment.Returning fun page _ => page = none → w.session.orgId ≠ "" →
        storedPlan w.db w.session.orgId = some "enterprise") := by
  have access : (lookupEnv D isAnswers).Ends route.access w
      (Environment.Returning fun page _ => page = none → w.session.orgId ≠ "" →
        storedPlan w.db w.session.orgId = some "enterprise") := by
    cases route <;> exact checkPlanAndRole_ends (by decide) ..
  refine (ends_reading (only_loginRequired rfl)).returning ?_
  rintro page u rfl
  cases page with
  | some page => exact nofun
  | none =>
    refine (ends_reading (only_roleRequired rfl)).returning ?_
    rintro - u rfl
    refine (ends_reading (only_verifyOrgHandle rfl)).returning ?_
    rintro - u rfl
    exact access

/-- Whoever is past the gate of the agents is on the enterprise plan. -/
theorem agentsGate_ends (orgHandle : String) :
    (lookupEnv D isAnswers).Ends (agentsGate orgHandle) w
      (Environment.Returning fun page _ => page = none → w.session.orgId ≠ "" →
        storedPlan w.db w.session.orgId = some "enterprise") := by
  have gate : (lookupEnv D isAnswers).Ends gateAgentsByPlan w
      (Environment.Returning fun page _ => page = none → w.session.orgId ≠ "" →
        storedPlan w.db w.session.orgId = some "enterprise") := by
    refine (ends_reading (only_adminRequired rfl)).returning ?_
    rintro - u rfl
    exact checkPlanAndRole_ends (by decide) ..
  refine gate.returning fun page u hpage => ?_
  cases page with
  | some page => exact nofun
  | none =>
    refine (ends_reading (only_loginRequired rfl)).returning fun page _ _ => ?_
    cases page with
    | some page => exact nofun
    | none =>
      refine (ends_reading (only_adminRequired rfl)).returning fun _ _ _ => ?_
      exact fun _ => hpage rfl

/-! ## The branding -/

/-- The session may use a route of the organization. -/
def PortalSession.Enters (s : PortalSession) (orgHandle : String) : Prop :=
  ∃ user, s.user = some user ∧
    ¬(orgHandle ≠ "" ∧ user.orgHandle ≠ "" ∧ orgHandle ≠ user.orgHandle)

/-- The session has one of the roles. -/
def PortalSession.HasRole (s : PortalSession) (roles : List String) : Prop :=
  ∃ role ∈ roles, role ∈ s.userRoles

variable {α : Type} {q : PortalReq}

/-- After the session is read, the rest asks. -/
theorem asks_session {f : PortalSession → Handling α} :
    (lookupEnv D isAnswers).Asks (session >>= f) w q ↔
      (lookupEnv D isAnswers).Asks (f w.session) w q := Iff.rfl

/-- A handler behind the login asks exactly if the session enters and the rest asks. -/
theorem asks_loginRequired {orgHandle : String} {f : Option Page → Handling α}
    (hf : ∀ page, ¬(lookupEnv D isAnswers).Asks (f (some page)) w q) :
    (lookupEnv D isAnswers).Asks (loginRequired orgHandle >>= f) w q ↔
      w.session.Enters orgHandle ∧ (lookupEnv D isAnswers).Asks (f none) w q := by
  unfold PortalSession.Enters loginRequired
  rw [bind_assoc, asks_session]
  cases huser : w.session.user with
  | none =>
    refine ⟨fun h => absurd h (hf _), ?_⟩
    rintro ⟨⟨user, ⟨⟩, -⟩, -⟩
  | some user =>
    change (lookupEnv D isAnswers).Asks ((if _ then _ else _) >>= f) w q ↔ _
    split
    · next h =>
      refine ⟨False.elim, ?_⟩
      rintro ⟨⟨user, ⟨⟩, hno⟩, -⟩
      exact hno h
    · next h => exact ⟨fun hq => ⟨⟨user, rfl, h⟩, hq⟩, fun hq => hq.2⟩

/-- One behind a role asks exactly if the session has it and the rest asks. -/
theorem asks_roleRequired {roles : List String} {f : Unit → Handling α} :
    (lookupEnv D isAnswers).Asks (roleRequired roles >>= f) w q ↔
      w.session.HasRole roles ∧ (lookupEnv D isAnswers).Asks (f ()) w q := by
  have hrole : roles.any (· ∈ w.session.userRoles) = true ↔ w.session.HasRole roles := by
    simp [PortalSession.HasRole]
  unfold roleRequired
  rw [bind_assoc, asks_session]
  split
  · next h => exact ⟨fun hq => ⟨hrole.1 h, hq⟩, fun hq => hq.2⟩
  · next h => exact ⟨False.elim, fun hq => h (hrole.2 hq.1)⟩

/-- A request that writes the branding, in the Business API or in IS. -/
def WritesBranding : PortalReq → Prop
  | .api _ (.upsertPersonalization _) | .api _ (.deletePersonalizationByOrg _) => True
  | .is _ (.putBranding _ _) | .is _ (.postBranding _ _) | .is _ (.deleteBranding _) => True
  | _ => False

/-- The roles that may write the branding. -/
def brandingEditors : List String := [basicBrandingEditor, advancedBrandingEditor]

/-- `update_branding` writes whatever passes its checks. -/
theorem updateBranding_writes (orgHandle : String) (form : Form) :
    (∃ q, WritesBranding q ∧ (lookupEnv D isAnswers).Asks (updateBranding orgHandle form) w q) ↔
      w.session.Enters orgHandle ∧ w.session.HasRole brandingEditors ∧
        ∃ data, brandingData w.session.orgId form = .ok data := by
  unfold updateBranding
  constructor
  · rintro ⟨q, -, hq⟩
    obtain ⟨henters, hq⟩ := (asks_loginRequired fun _ => id).1 hq
    obtain ⟨hrole, hq⟩ := asks_roleRequired.1 hq
    refine ⟨henters, hrole, ?_⟩
    have hq := asks_session.1 hq
    cases hdata : brandingData w.session.orgId form with
    | error message =>
      rw [hdata] at hq
      exact hq.elim
    | ok data => exact ⟨data, rfl⟩
  · rintro ⟨henters, hrole, data, hdata⟩
    refine ⟨.api (w.session.accessToken.getD "") (.upsertPersonalization (.ok data)), trivial, ?_⟩
    refine (asks_loginRequired fun _ => id).2 ⟨henters, asks_roleRequired.2 ⟨hrole, ?_⟩⟩
    refine asks_session.2 ?_
    rw [hdata]
    exact .inl rfl

/-- `reset_branding` writes for whoever passes its checks. -/
theorem resetBranding_writes (orgHandle : String) :
    (∃ q, WritesBranding q ∧ (lookupEnv D isAnswers).Asks (resetBranding orgHandle) w q) ↔
      w.session.Enters orgHandle ∧ w.session.HasRole brandingEditors := by
  unfold resetBranding
  constructor
  · rintro ⟨q, -, hq⟩
    obtain ⟨henters, hq⟩ := (asks_loginRequired fun _ => id).1 hq
    exact ⟨henters, (asks_roleRequired.1 hq).1⟩
  · rintro ⟨henters, hrole⟩
    refine ⟨.api (w.session.accessToken.getD "") (.deletePersonalizationByOrg w.session.orgId),
      trivial, ?_⟩
    refine (asks_loginRequired fun _ => id).2 ⟨henters, asks_roleRequired.2 ⟨hrole, ?_⟩⟩
    exact .inl rfl

end

/-! ## Requests for paid features -/

/-- A request for a paid feature. -/
inductive PaidRequest
  | idp (route : IdpRoute) (orgHandle : String)
  | agents (orgHandle : String)
  | updateBranding (orgHandle : String) (form : Form)
  | resetBranding (orgHandle : String)

/-- The organization of the session is on one of these plans. -/
def PortalWorld.OnPlan (w : PortalWorld ι) (plans : List String) : Prop :=
  ∃ plan ∈ plans, storedPlan w.db w.session.orgId = some plan

/-- What the stored plan is to decide: whether a handler runs past its gate, if the gate has looked
the plan up, and whether it writes the branding. -/
def PaidRequest.FollowsPlan (D : Driver) (isAnswers : IsAnswers ι) (w : PortalWorld ι) :
    PaidRequest → Prop
  | .idp route orgHandle => w.session.orgId ≠ "" →
    ∀ u, (lookupEnv D isAnswers).Runs (route.gate orgHandle) w (.ok none) u →
      w.OnPlan ["enterprise"]
  | .agents orgHandle => w.session.orgId ≠ "" →
    ∀ u, (lookupEnv D isAnswers).Runs (agentsGate orgHandle) w (.ok none) u →
      w.OnPlan ["enterprise"]
  | .updateBranding orgHandle form =>
    (∃ q, WritesBranding q ∧
      (lookupEnv D isAnswers).Asks (Webapp.updateBranding orgHandle form) w q) →
      w.OnPlan ["business", "enterprise"]
  | .resetBranding orgHandle =>
    (∃ q, WritesBranding q ∧ (lookupEnv D isAnswers).Asks (Webapp.resetBranding orgHandle) w q) →
      w.OnPlan ["business", "enterprise"]

/-- The request is stopped where the plan does not allow it: a request for IdPs, login flows or
agents always, a write of the branding by the check of the session, the role or the form, if at
all. -/
def PaidRequest.Stopped (w : PortalWorld ι) : PaidRequest → Prop
  | .idp _ _ | .agents _ => True
  | .updateBranding orgHandle form => w.OnPlan ["business", "enterprise"] ∨
    ¬w.session.Enters orgHandle ∨ ¬w.session.HasRole brandingEditors ∨
      ∃ message, brandingData w.session.orgId form = .error message
  | .resetBranding orgHandle => w.OnPlan ["business", "enterprise"] ∨
    ¬w.session.Enters orgHandle ∨ ¬w.session.HasRole brandingEditors

/-- In whatever state a history of plans and grants has left the database and the session, the
stored plan decides about a request exactly if it is none for branding, or is stopped by another
check. -/
theorem paid_features_follow_plan (D : Driver) (isAnswers : IsAnswers ι) (w : PortalWorld ι)
    (request : PaidRequest) : request.FollowsPlan D isAnswers w ↔ request.Stopped w := by
  cases request with
  | idp route orgHandle =>
    refine iff_of_true (fun horg u hu => ?_) trivial
    exact ⟨_, List.mem_singleton_self _, (idpGate_ends route orgHandle).of_runs hu rfl horg⟩
  | agents orgHandle =>
    refine iff_of_true (fun horg u hu => ?_) trivial
    exact ⟨_, List.mem_singleton_self _, (agentsGate_ends orgHandle).of_runs hu rfl horg⟩
  | updateBranding orgHandle form =>
    refine (imp_congr_left (updateBranding_writes orgHandle form)).trans ?_
    change _ ↔ w.OnPlan _ ∨ ¬w.session.Enters orgHandle ∨ ¬w.session.HasRole brandingEditors ∨ _
    cases brandingData w.session.orgId form with
    | error message => simp
    | ok data =>
      simp only [Except.ok.injEq, exists_eq', and_true, reduceCtorEq, exists_false, or_false]
      tauto
  | resetBranding orgHandle =>
    refine (imp_congr_left (resetBranding_writes orgHandle)).trans ?_
    change _ ↔ w.OnPlan _ ∨ ¬w.session.Enters orgHandle ∨ ¬w.session.HasRole brandingEditors
    tauto

/-- An administrator of an organization that was on the enterprise plan when the roles of the
session were granted. -/
def formerEnterprise : PortalSession where
  user := some ⟨"u", "o", "Acme", "acme"⟩
  accessToken := some "t"
  userRoles := [teamspaceAdmin, basicBrandingEditor, advancedBrandingEditor, idpManager]
  isAdmin := true
  orgPlan := none
  hasAgentConfig := none
  orgBranding := none

/-- A world in which everything is up. -/
def worldOf (session : PortalSession) (db : Database) : PortalWorld Unit := ⟨session, [], db, ()⟩

/-- The database after a signup for the enterprise plan. -/
def enterpriseDatabase : Database :=
  ((register asciiUnicode (exampleSignup "enterprise")).run PortalWorld.exec allUp newPortal).2.db

/-- The database after a downgrade. -/
def downgradedDatabase : Database :=
  ((upgrade "acme" [("plan", "basic")]).run PortalWorld.exec allUp
    (worldOf formerEnterprise enterpriseDatabase)).2.db

/-- After a signup for the enterprise plan and a downgrade to the basic one, the branding is still
written, and saved. -/
theorem branding_after_downgrade :
    PlanRun .sqlite asciiUnicode
        [.signup (exampleSignup "enterprise"), .upgrade "acme" [("plan", "basic")]] .empty
        downgradedDatabase ∧
      storedPlan downgradedDatabase "o" = some "basic" ∧
      ¬(PaidRequest.updateBranding "acme" []).FollowsPlan .sqlite anyReply
        (worldOf formerEnterprise downgradedDatabase) ∧
      ((updateBranding "acme" []).run PortalWorld.exec allUp
        (worldOf formerEnterprise downgradedDatabase)).2.db.personalizations.rows.map (·.org) =
          ["o"] := by
  have hsignup := PlanRequest.Serves.signup (U := asciiUnicode)
    (Environment.runs_run answers_allUp (register asciiUnicode (exampleSignup "enterprise")) newPortal)
  have hdowngrade := PlanRequest.Serves.upgrade (U := asciiUnicode)
    (Environment.runs_run answers_allUp (upgrade "acme" [("plan", "basic")])
      (worldOf formerEnterprise enterpriseDatabase))
  have hplan : storedPlan downgradedDatabase "o" = some "basic" := by decide +kernel
  refine ⟨.snoc (.snoc .nil hsignup) hdowngrade, hplan, fun h => ?_, by decide +kernel⟩
  obtain ⟨plan, hmem, hstored⟩ := h ((updateBranding_writes "acme" []).2
    ⟨⟨_, rfl, by decide⟩, ⟨basicBrandingEditor, by decide, by decide⟩, _, rfl⟩)
  have hbasic : some plan = some "basic" := hstored.symm.trans hplan
  cases hbasic
  exact absurd hmem (by decide)

end Teamspace.Webapp
