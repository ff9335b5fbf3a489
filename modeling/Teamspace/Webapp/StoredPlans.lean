import Teamspace.Webapp.Subscription

/-!
# Stored plans

Plans are stored by the signup, by the upgrade and by whoever calls `POST /plans` directly. Of the
three only the upgrade looks its plan up in `PLANS`: the routers check the organization of a request
and not its plan, and the signup form passes on whatever it is given. As long as every form and
every body names a plan of `PLANS`, every stored plan is one (`stored_plans_real`).
-/

namespace Teamspace.Webapp

open Teamspace.Py Teamspace.Common Teamspace.Lib Teamspace.Api

/-- The text is the id of a plan. -/
def IsPlan (plan : String) : Prop := plan ∈ plans.map Plan.id

instance (plan : String) : Decidable (IsPlan plan) := inferInstanceAs (Decidable (plan ∈ _))

/-- Every stored plan is a plan. -/
def PlansReal (db : Database) : Prop := ∀ p ∈ db.organizationPlans.rows, IsPlan p.plan

/-! ## Runs -/

/-- What reaches the portal, or the Business API directly. -/
inductive PlanRequest
  | signup (form : Form)
  | upgrade (orgHandle : String) (form : Form)
  | api (call : Call)

/-- IS may answer anything. -/
def anyReply : IsAnswers Unit := fun _ _ _ _ _ => True

/-- What a request can make of the database, from any session. -/
inductive PlanRequest.Serves (D : Driver) (U : Unicode) : PlanRequest → Database → Database → Prop
  | signup {form : Form} {session : PortalSession} {db : Database} {x : Except PortalExn Page}
      {w : PortalWorld Unit} :
      (portalEnv D anyReply).Runs (register U form) ⟨session, [], db, ()⟩ x w →
      Serves D U (.signup form) db w.db
  | upgrade {orgHandle : String} {form : Form} {session : PortalSession} {db : Database}
      {x : Except PortalExn Page} {w : PortalWorld Unit} :
      (portalEnv D anyReply).Runs (Webapp.upgrade orgHandle form) ⟨session, [], db, ()⟩ x w →
      Serves D U (.upgrade orgHandle form) db w.db
  | api {call : Call} {db : Database} : Serves D U (.api call) db (handle D call db).2

/-- What a sequence of requests can make of the database. -/
inductive PlanRun (D : Driver) (U : Unicode) : List PlanRequest → Database → Database → Prop
  | nil {db : Database} : PlanRun D U [] db db
  | snoc {requests : List PlanRequest} {request : PlanRequest} {db db' db'' : Database} :
      PlanRun D U requests db db' → request.Serves D U db' db'' →
      PlanRun D U (requests ++ [request]) db db''

/-- A request that names a plan of `PLANS`, if it passes the checks of its handler. -/
def PlanRequest.NamesPlan (U : Unicode) : PlanRequest → Prop
  | .signup form => ∀ fields, validateSignupForm U form = .ok fields → IsPlan fields.selectedPlan
  | .upgrade _ _ => True
  | .api call => ∀ data, call.Posts data → IsPlan data.plan

/-! ## One request -/

section

variable {D : Driver} {U : Unicode} {db db' : Database}

/-- A call that posts plans only leaves plans. -/
theorem handle_plansReal {c : Call} (hc : ∀ data, c.Posts data → IsPlan data.plan)
    (h : PlansReal db) : PlansReal (handle D c db).2 := by
  intro p hp
  obtain hp | ⟨data, hdata, hplan⟩ := handle_plan_rows hp
  · exact h p hp
  · rw [hplan]
    exact hc data hdata

/-- The plan that the portal posts, if it posts one, is a plan. -/
def SavesPlan : PortalReq → Prop
  | .api _ request => ∀ data, request = .upsertPlan (.ok data) → IsPlan data.plan
  | _ => True

/-- Only the Business API changes the database. -/
theorem answers_plansReal {q : PortalReq} {w w' : PortalWorld Unit} {r : PortalRep}
    (hq : SavesPlan q) (hw : PlansReal w.db) (h : (portalEnv D anyReply).answers q w r w') :
    PlansReal w'.db := by
  cases h with
  | token => exact hw
  | is => exact hw
  | isFailed => exact hw
  | api h =>
    have posted {claims fresh data} (hp : Call.Posts ⟨.ok claims, none, _, fresh⟩ data) :
        IsPlan data.plan := hq data hp.1
    cases h with
    | answered => exact handle_plansReal (fun _ => posted) hw
    | unavailable => exact hw
    | lost => exact handle_plansReal (fun _ => posted) hw

/-- No operation of a request changes the database. -/
theorem exec_db {ι : Type} (o : PortalOp) (w : PortalWorld ι) : (PortalWorld.exec o w).2.db = w.db := by
  cases o <;> rfl

/-- A handler that saves plans only leaves plans. -/
theorem runs_plansReal {p : Handling Page} (hp : p.Only (fun _ => True) SavesPlan)
    {session : PortalSession} (h : PlansReal db) {x : Except PortalExn Page} {w : PortalWorld Unit}
    (hr : (portalEnv D anyReply).Runs p ⟨session, [], db, ()⟩ x w) : PlansReal w.db := by
  refine (Environment.Ends.only (J := fun w => PlansReal w.db) hp h ?_ ?_).of_runs hr
  · intro o w _ hw
    change PlansReal (PortalWorld.exec o w).2.db
    rw [exec_db]
    exact hw
  · intro q w r w' hq hw ha
    exact answers_plansReal hq hw ha

/-! ## The handlers -/

/-- A plan that is one is saved. -/
theorem only_saveOrganizationPlan {orgId planId token : String} (h : IsPlan planId) :
    (saveOrganizationPlan orgId planId token).Only (fun _ => True) SavesPlan := by
  refine only_apiRequest trivial fun token data hdata => ?_
  cases hdata
  exact h

/-- Reading the id of a user saves nothing. -/
theorem only_userIdOf (data : IsData) : (userIdOf data).Only (fun _ => True) SavesPlan := by
  cases data <;> trivial

/-- The upgrade saves the plan that it has looked up. -/
theorem only_upgrade (orgHandle : String) (form : Form) :
    (upgrade orgHandle form).Only (fun _ => True) SavesPlan := by
  unfold upgrade
  refine .bind (only_loginRequired trivial) fun page => ?_
  cases page with
  | some page => trivial
  | none =>
    refine .bind (only_adminRequired trivial) fun _ => ?_
    cases hplan : plans.find? fun p => some p.id = form.get "plan" with
    | none => exact .bind (only_flash trivial) fun _ => trivial
    | some plan =>
      have hid : IsPlan plan.id := List.mem_map_of_mem (List.mem_of_find?_eq_some hplan)
      refine .bind (only_requestToken trivial) fun rootToken => Program.only_ite (fun _ => ?_) fun _ => ?_
      · exact .bind (only_flash trivial) fun _ => trivial
      refine .bind (only_session trivial) fun s => .bind (only_shareRolesWithOrg trivial) fun _ => ?_
      refine .bind (only_requestToken trivial) fun subOrgToken => ?_
      refine Program.only_ite (fun _ => .bind (only_flash trivial) fun _ => trivial) fun _ => ?_
      refine Program.only_when (fun _ => only_assignRolesToUser (fun _ _ => trivial) fun _ _ => trivial) ?_
      refine .bind (only_saveOrganizationPlan hid) fun planSaveRes => ?_
      refine Program.only_ite (fun _ => .bind (only_flash trivial) fun _ => trivial) fun _ => ?_
      exact .bind (only_setOrgPlan trivial) fun _ => .bind (only_flash trivial) fun _ => trivial

/-- An invalid form saves nothing. -/
theorem only_invalidForm (failures : List (String × String)) :
    (invalidForm failures).Only (fun _ => True) SavesPlan := by
  induction failures with
  | nil => trivial
  | cons failure failures ih =>
    refine .bind (.bind (only_flash trivial) fun _ => trivial) fun page => ?_
    exact .bind ih fun _ => trivial

/-- The signup saves the plan of its form, as it is. -/
theorem only_register {U : Unicode} {form : Form}
    (h : ∀ fields, validateSignupForm U form = .ok fields → IsPlan fields.selectedPlan) :
    (register U form).Only (fun _ => True) SavesPlan := by
  unfold register
  cases hfields : validateSignupForm U form with
  | error failures => exact only_invalidForm failures
  | ok fields =>
    have hplan : IsPlan fields.selectedPlan := h fields hfields
    refine .bind (only_requestToken trivial) fun rootToken => ?_
    refine Program.only_ite (fun _ => .bind (only_flash trivial) fun _ => trivial) fun _ => ?_
    refine .bind (only_callIs trivial) fun result => ?_
    refine Program.only_ite (fun _ => .bind (only_flash trivial) fun _ => trivial) fun _ => ?_
    split
    · refine .bind (only_shareRolesWithOrg trivial) fun _ => ?_
      refine .bind (only_requestToken trivial) fun subOrgToken => ?_
      refine Program.only_ite (fun _ => .bind (only_flash trivial) fun _ => trivial) fun _ => ?_
      refine .bind (only_callIs trivial) fun userResult => ?_
      refine Program.only_ite (fun _ => .bind (only_flash trivial) fun _ => trivial) fun _ => ?_
      refine .bind (only_userIdOf _) fun userId => ?_
      refine .bind (only_assignRolesToUser (fun _ _ => trivial) fun _ _ => trivial) fun _ => ?_
      refine .bind (only_saveOrganizationPlan hplan) fun planSaveRes => ?_
      refine Program.only_ite (fun _ => ?_) fun _ => ?_
      · exact .bind (only_flash trivial) fun _ => trivial
      · exact .bind (only_flash trivial) fun _ => trivial
    · trivial

/-! ## Sequences of requests -/

/-- A request that names a plan leaves plans. -/
theorem serves_plansReal {request : PlanRequest} (hrequest : request.NamesPlan U)
    (hdb : PlansReal db) (h : request.Serves D U db db') : PlansReal db' := by
  cases h with
  | signup h => exact runs_plansReal (only_register hrequest) hdb h
  | upgrade h => exact runs_plansReal (only_upgrade ..) hdb h
  | api => exact handle_plansReal hrequest hdb

end

/-- As long as every signup form and every `POST /plans` that is accepted names a plan of `PLANS`,
every stored plan is one, whatever IS and the Business API answer to the portal. -/
theorem stored_plans_real {D : Driver} {U : Unicode} {requests : List PlanRequest}
    {before after : Database} (hrun : PlanRun D U requests before after) (hbefore : PlansReal before)
    (hplans : ∀ request ∈ requests, request.NamesPlan U) : PlansReal after := by
  induction hrun with
  | nil => exact hbefore
  | snoc _ hserves ih =>
    have hdb := ih hbefore fun request h => hplans request (List.mem_append_left _ h)
    exact serves_plansReal (hplans _ (List.mem_append_right _ (List.mem_singleton_self _))) hdb hserves

/-- The characters of ASCII. -/
def asciiUnicode : Unicode where
  lower s := String.ofList (s.toList.map Char.toLower)
  isWord c := c.isAlphanum || c == '_'

/-- A direct request that sets the plan of the organization `o`. -/
def postPlan (plan : String) : Call where
  claims := .ok (some [("sub", .str "u"), ("org_id", .str "o")])
  service := none
  request := .upsertPlan (.ok ⟨"o", plan⟩)
  fresh := ⟨"k", 0, 0⟩

/-- A direct request for the business plan stores a plan. -/
theorem stored_plans_real_business :
    (handle .sqlite (postPlan "business") .empty).1.statusCode = 200 ∧
      PlansReal (handle .sqlite (postPlan "business") .empty).2 := by
  have hserves : (PlanRequest.api (postPlan "business")).Serves .sqlite asciiUnicode .empty
      (handle .sqlite (postPlan "business") .empty).2 := .api
  refine ⟨by decide +kernel, stored_plans_real (.snoc .nil hserves) (List.forall_mem_nil _) ?_⟩
  intro request hrequest
  rw [List.mem_singleton.1 hrequest]
  rintro data ⟨⟨⟩, -⟩
  decide

/-- A signup for a plan. -/
def exampleSignup (plan : String) : Form :=
  [("org_name", "Acme"), ("org_handle", "acme"), ("email", "admin@acme.org"), ("password", "secret"),
    ("first_name", "A"), ("last_name", "B"), ("plan", plan)]

/-- IS and the Business API, both up, for a user with the scopes of a branding editor. -/
def allUp : PortalReq → PortalWorld Unit → PortalRep × PortalWorld Unit
  | .token _, w => (.token "t", w)
  | .is _ (.createOrganization _ _), w => (.is ⟨201, .organization "o" none⟩, w)
  | .is _ (.createUser _ _ _ _), w => (.is ⟨201, .user (some "u")⟩, w)
  | .is _ (.findRoles _ _), w => (.is ⟨200, .roles [⟨"r", none⟩]⟩, w)
  | .is _ _, w => (.is ⟨200, .other⟩, w)
  | .api _ request, w =>
    let answer := handle .sqlite
      ⟨.ok (some [("sub", .str "u"), ("org_id", .str "o"),
        ("scope", .str "create_basic_branding delete_branding")]), none, request, ⟨"k", 0, 0⟩⟩ w.db
    (.api ⟨answer.1.statusCode, answer.1.body⟩, { w with db := answer.2 })

/-- They answer as IS and the Business API may. -/
theorem answers_allUp (q : PortalReq) (w : PortalWorld Unit) :
    (portalEnv .sqlite anyReply).answers q w (allUp q w).1 (allUp q w).2 := by
  cases q with
  | token grant => exact .token grant w "t"
  | is auth call => cases call <;> exact .is trivial
  | api token request => exact .api (.answered _ _)

/-- A browser without a login. -/
def signedOut : PortalSession := ⟨none, none, [], false, none, none, none⟩

/-- The portal before the signup. -/
def newPortal : PortalWorld Unit := ⟨signedOut, [], .empty, ()⟩

/-- The database after the signup. -/
def goldDatabase : Database :=
  ((register asciiUnicode (exampleSignup "gold")).run PortalWorld.exec allUp newPortal).2.db

/-- The signup stores the plan `gold`, and no plan has that id. -/
theorem signup_stores_gold :
    PlanRun .sqlite asciiUnicode [.signup (exampleSignup "gold")] .empty goldDatabase ∧
      (∃ p ∈ goldDatabase.organizationPlans.rows, p.org = "o" ∧ p.plan = "gold") ∧
      ¬PlansReal goldDatabase := by
  have hrows : goldDatabase.organizationPlans.rows = [⟨⟨"o", "gold"⟩, some 0⟩] := by decide +kernel
  have hserves := PlanRequest.Serves.signup (U := asciiUnicode)
    (Environment.runs_run answers_allUp (register asciiUnicode (exampleSignup "gold")) newPortal)
  refine ⟨.snoc .nil hserves, ?_, fun h => ?_⟩
  · rw [hrows]
    exact ⟨_, List.mem_singleton_self _, rfl, rfl⟩
  · have hgold : IsPlan "gold" := h ⟨⟨"o", "gold"⟩, some 0⟩ (by rw [hrows]; exact List.mem_singleton_self _)
    exact absurd hgold (by decide)

end Teamspace.Webapp
