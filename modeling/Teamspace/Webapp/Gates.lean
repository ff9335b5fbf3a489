import Teamspace.Webapp.Portal

/-!
# Gates

What stands before the handlers of IdPs, login flows and agents: the decorators,
`_verify_org_handle` and the check of plan and role, of which `webapp/blueprints/admin.py` and
`webapp/blueprints/agents.py` have a copy each.
-/

namespace Teamspace.Webapp

open Teamspace.Lib Handling

/-- `_verify_org_handle`. -/
def verifyOrgHandle (orgHandle : String) : Handling Unit := do
  let s ← session
  if s.orgHandle ≠ "" ∧ orgHandle ≠ s.orgHandle then abort 403 else return ()

/-- The check of the handle reads the session. -/
theorem only_verifyOrgHandle {P : PortalOp → Prop} {Q : PortalReq → Prop} {orgHandle : String}
    (h : P .session) : (verifyOrgHandle orgHandle).Only P Q :=
  .bind (only_session h) fun _ => Program.only_ite (fun _ => trivial) fun _ => trivial

/-- `_check_plan_and_role`: the page that is answered instead of the handler's, if there is one. -/
def checkPlanAndRole (requiredPlan requiredRole title description upgradeTemplate : String) :
    Handling (Option Page) := do
  let s ← session
  let orgPlan ← resolvePlanForGating s.orgId
  if orgPlan ≠ none ∧ orgPlan ≠ some requiredPlan then return some (.template upgradeTemplate)
  if requiredRole ∈ s.userRoles then return none
  if orgPlan = some requiredPlan then return some (.accessDenied title description requiredRole)
  return some (.template upgradeTemplate)

/-- `check_idp_access`. -/
def checkIdpAccess (title description upgradeTemplate : String) : Handling (Option Page) :=
  checkPlanAndRole "enterprise" idpManager title description upgradeTemplate

/-- A handler behind a gate. -/
def behind (gate : Handling (Option Page)) (handler : Handling Page) : Handling Page := do
  match ← gate with
  | some page => return page
  | none => handler

/-- The routes of `admin.py` for IdPs and login flows. -/
inductive IdpRoute
  | idp
  | idpForm
  | addIdp
  | editIdpForm
  | editIdp
  | deleteIdp
  | loginFlow
  | updateLoginFlow
  deriving DecidableEq, Repr

namespace IdpRoute

/-- The call of `check_idp_access` of a route. -/
def access : IdpRoute → Handling (Option Page)
  | .loginFlow | .updateLoginFlow =>
    checkIdpAccess "Login Flow Configuration" "Customize the login flow for your organization."
      "admin/login_flow_upgrade.html"
  | _ =>
    checkIdpAccess "Identity Providers" "Connect external identity providers for federated SSO."
      "admin/idp_upgrade.html"

/-- What a route does before its own work. -/
def gate (route : IdpRoute) (orgHandle : String) : Handling (Option Page) := do
  if let some page ← loginRequired orgHandle then return some page
  roleRequired [teamspaceAdmin, idpManager]
  verifyOrgHandle orgHandle
  route.access

end IdpRoute

/-- `gate_agents_by_plan`. -/
def gateAgentsByPlan : Handling (Option Page) := do
  adminRequired
  checkPlanAndRole "enterprise" teamspaceAdmin "AI Agents"
    "Deploy autonomous AI agents to interact with your team." "admin/agents_upgrade.html"

/-- What every route of `agents.py` does before its own work. -/
def agentsGate (orgHandle : String) : Handling (Option Page) := do
  if let some page ← gateAgentsByPlan then return some page
  if let some page ← loginRequired orgHandle then return some page
  adminRequired
  return none

/-! ## Footprints -/

section

variable {P : PortalOp → Prop} {Q : PortalReq → Prop} (hs : P .session)
  (hq : ∀ token org, Q (.api token (.getPlan org)))

include hs hq

/-- The plan is taken from the session, or looked up. -/
theorem only_resolvePlanForGating (org : String) : (resolvePlanForGating org).Only P Q := by
  refine Program.only_ite (fun _ => trivial) fun _ => ?_
  refine .bind (only_apiRequest hs fun _ => hq _ _) fun resp => ?_
  refine Program.only_ite (fun _ => ?_) fun _ => Program.only_ite (fun _ => trivial) fun _ => trivial
  exact only_planOf _

/-- So it is for the check of plan and role. -/
theorem only_checkPlanAndRole
    (requiredPlan requiredRole title description upgradeTemplate : String) :
    (checkPlanAndRole requiredPlan requiredRole title description upgradeTemplate).Only P Q := by
  refine .bind (only_session hs) fun s => .bind (only_resolvePlanForGating hs hq _) fun plan => ?_
  refine Program.only_ite (fun _ => trivial) fun _ => Program.only_ite (fun _ => trivial) fun _ => ?_
  exact Program.only_ite (fun _ => trivial) fun _ => trivial

/-- So it is for the gate of every route of the IdPs. -/
theorem IdpRoute.only_gate (route : IdpRoute) (orgHandle : String) :
    (route.gate orgHandle).Only P Q := by
  refine .bind (only_loginRequired hs) fun page => ?_
  cases page with
  | some page => trivial
  | none =>
    refine .bind (only_roleRequired hs) fun _ => .bind (only_verifyOrgHandle hs) fun _ => ?_
    cases route <;> exact only_checkPlanAndRole hs hq ..

/-- And for that of the agents. -/
theorem only_agentsGate (orgHandle : String) : (agentsGate orgHandle).Only P Q := by
  refine .bind (.bind (only_adminRequired hs) fun _ => only_checkPlanAndRole hs hq ..) fun page => ?_
  cases page with
  | some page => trivial
  | none =>
    refine .bind (only_loginRequired hs) fun page => ?_
    cases page with
    | some page => trivial
    | none => exact .bind (only_adminRequired hs) fun _ => trivial

end

end Teamspace.Webapp
