import Teamspace.Webapp.LoginFlow

/-!
# A deletion of an IdP that fails

`delete_idp` writes the login flow without IdPs before it deletes the IdP, and does not write the
old one back when IS refuses the deletion (`webapp/blueprints/admin.py`). A request whose `DELETE`
fails has left the login flows alone exactly if there was nothing to write: IS did not list the
application, did not carry out the `PATCH`, or had that login flow already
(`failed_deletion_keeps_flows`).
-/

namespace Teamspace.Webapp

open Teamspace.Py Teamspace.Common Teamspace.Lib Teamspace.Api Handling

/-! ## IS -/

/-- The login flow of every application, by its id, and whether a `DELETE` of an IdP has come. -/
structure AppFlows where
  flows : String → AuthSequence
  deleteSent : Bool

/-- What IS answers to the calls of one request, or `none` where it does not, and whether it carries
out the `PATCH`. -/
structure DeletionReplies where
  idp : Option IsResponse
  applications : Option IsResponse
  patch : Option IsResponse
  patched : Bool
  delete : Option IsResponse

namespace DeletionReplies

/-- The `DELETE` is answered with success. -/
def Deletes (R : DeletionReplies) : Prop := ∃ r, R.delete = some r ∧ r.statusCode ∈ [200, 204]

/-- The application that a list of applications gives. -/
def appIdOf (C : PortalConfig) (appsRes : IsResponse) : Option String :=
  if appsRes.statusCode ≠ 200 then none
  else match appsRes.data with
    | .applications apps => appIdIn C apps
    | _ => none

/-- The application that IS lists, if it does. -/
def appId (C : PortalConfig) (R : DeletionReplies) : Option String := R.applications.bind (appIdOf C)

end DeletionReplies

/-- A call that a deletion does not make. -/
def IsCall.Unasked : IsCall → Prop
  | .getIdp _ | .listApplications | .patchAuthSequence _ _ | .deleteIdp _ => False
  | _ => True

/-- IS answers with these replies. -/
inductive DeletionAnswers (R : DeletionReplies) : IsAnswers AppFlows
  | getIdp {auth : IsAuth} {idpId : String} {s : AppFlows} {response : Option IsResponse} :
      R.idp = response → DeletionAnswers R auth (.getIdp idpId) s response s
  | listApplications {auth : IsAuth} {s : AppFlows} {response : Option IsResponse} :
      R.applications = response → DeletionAnswers R auth .listApplications s response s
  | patchAuthSequence {auth : IsAuth} {appId : String} {sequence : AuthSequence} {s : AppFlows}
      {response : Option IsResponse} : R.patch = response →
      DeletionAnswers R auth (.patchAuthSequence appId sequence) s response
        { s with flows := if R.patched then Function.update s.flows appId sequence else s.flows }
  | deleteIdp {auth : IsAuth} {idpId : String} {s : AppFlows} {response : Option IsResponse} :
      R.delete = response →
      DeletionAnswers R auth (.deleteIdp idpId) s response { s with deleteSent := true }
  | unasked {auth : IsAuth} {call : IsCall} {s : AppFlows} {response : Option IsResponse} :
      call.Unasked → DeletionAnswers R auth call s response s

/-- The environment in which IS answers with these replies. -/
abbrev deletionEnv (D : Driver) (R : DeletionReplies) : Environment portal (PortalWorld AppFlows) :=
  portalEnv D (DeletionAnswers R)

/-- The login flows after the login flow without IdPs has been written, if it is. -/
def DeletionReplies.written (C : PortalConfig) (R : DeletionReplies) (flows : String → AuthSequence) :
    String → AuthSequence :=
  match R.appId C with
  | some appId => if R.patched then Function.update flows appId defaultFlow else flows
  | none => flows

/-! ## The handler -/

section

variable {C : PortalConfig} {D : Driver} {R : DeletionReplies} {w : PortalWorld AppFlows}

/-- A request that is no call to IS. -/
def Elsewhere : PortalReq → Prop
  | .is _ _ => False
  | _ => True

/-- What makes no calls to IS leaves the login flows. -/
theorem ends_elsewhere {α : Type} {p : Handling α} (hp : p.Only (fun _ => True) Elsewhere) :
    (deletionEnv D R).Ends p w fun _ u => u.is = w.is :=
  ends_leaving_is hp rfl fun _ _ _ _ hq _ => hq.elim

/-- The id of the application is the one that the replies give. -/
theorem resolveTeamspaceAppId_ends (token : String) :
    (deletionEnv D R).Ends (resolveTeamspaceAppId C token) w
      (Environment.Either (fun appId u => appId = R.appId C ∧ u.is = w.is) fun _ u => u.is = w.is) := by
  refine callIs_then (fun r s h => ?_) fun s h => ?_
  · cases h with
    | listApplications hr =>
      have happ : R.appId C = DeletionReplies.appIdOf C r := congrArg (Option.bind · _) hr
      rw [happ]
      unfold DeletionReplies.appIdOf
      split
      · exact ⟨rfl, rfl⟩
      · cases r.data <;> exact ⟨rfl, rfl⟩
    | unasked hcall => exact hcall.elim
  · cases h with
    | listApplications => rfl
    | unasked hcall => exact hcall.elim

/-- Writing the login flow without IdPs leaves what is left of the flows, whether IS answers or
not. -/
theorem writeAuthSequence_flows (token : String) :
    (deletionEnv D R).Ends (writeAuthSequence C token defaultFlow) w
      (Environment.Either
        (fun _ u => u.is = { w.is with flows := R.written C w.is.flows })
        fun _ u => u.is.deleteSent = w.is.deleteSent) := by
  refine Environment.Ends.bind ((resolveTeamspaceAppId_ends token).mono fun x u hx => ?_)
  cases x with
  | error e => exact congrArg AppFlows.deleteSent hx
  | ok appId =>
    obtain ⟨rfl, hu⟩ := hx
    unfold DeletionReplies.written
    cases R.appId C with
    | none => exact hu
    | some appId =>
      refine callIs_then (fun r s h => ?_) fun s h => ?_
      · cases h with
        | patchAuthSequence =>
          rw [hu]
          rfl
        | unasked hcall => exact hcall.elim
      · cases h with
        | patchAuthSequence =>
          change u.is.deleteSent = _
          rw [hu]
        | unasked hcall => exact hcall.elim

/-- What the handler leaves of the flows, once it has sent the `DELETE`. -/
def Leaves (C : PortalConfig) (R : DeletionReplies) (w u : PortalWorld AppFlows) : Prop :=
  u.is.deleteSent = true → u.is.flows = R.written C w.is.flows

/-- An end without the `DELETE` leaves nothing to say. -/
theorem unsent_leaves {u : PortalWorld AppFlows} (hw : w.is.deleteSent = false)
    (hu : u.is.deleteSent = w.is.deleteSent) : Leaves C R w u := fun h => by
  rw [hu, hw] at h
  cases h

/-- A deletion leaves the flows as its replies say. -/
theorem deleteIdpBody_flows (hw : w.is.deleteSent = false) (orgHandle idpId : String) :
    (deletionEnv D R).Ends (deleteIdpBody C orgHandle idpId) w fun _ u => Leaves C R w u := by
  unfold deleteIdpBody
  refine (ends_elsewhere (only_accessToken trivial)).keeping (fun token u hu => ?_)
    fun _ u hu => unsent_leaves hw (congrArg AppFlows.deleteSent hu)
  refine callIs_then (fun r s h => ?_) fun s h => ?_
  · cases h with
    | getIdp =>
      refine Environment.Ends.bind ((writeAuthSequence_flows token).mono fun x v hx => ?_)
      cases x with
      | error e => exact unsent_leaves hw (hx.trans (congrArg AppFlows.deleteSent hu))
      | ok _ =>
        refine callIs_then (fun r s h => ?_) fun s h => ?_
        · cases h with
          | deleteIdp =>
            have hflows : v.is.flows = R.written C w.is.flows := by
              rw [hx]
              change R.written C u.is.flows = _
              rw [hu]
            split <;> exact fun _ => hflows
          | unasked hcall => exact hcall.elim
        · cases h with
          | deleteIdp =>
            intro _
            change v.is.flows = _
            rw [hx]
            change R.written C u.is.flows = _
            rw [hu]
          | unasked hcall => exact hcall.elim
    | unasked hcall => exact hcall.elim
  · cases h with
    | getIdp => exact unsent_leaves hw (congrArg AppFlows.deleteSent hu)
    | unasked hcall => exact hcall.elim

end

/-! ## The law -/

/-- The login flow without IdPs is not written, or was there before. -/
def DeletionReplies.NothingWritten (C : PortalConfig) (R : DeletionReplies)
    (flows : String → AuthSequence) : Prop :=
  ∀ appId, R.appId C = some appId → R.patched = true → flows appId = defaultFlow

/-- The flows are left exactly if nothing was written. -/
theorem written_eq_iff {C : PortalConfig} {R : DeletionReplies} {flows : String → AuthSequence} :
    R.written C flows = flows ↔ R.NothingWritten C flows := by
  unfold DeletionReplies.written DeletionReplies.NothingWritten
  cases R.appId C with
  | none => exact iff_of_true rfl nofun
  | some appId =>
    cases hpatched : R.patched with
    | false => simp
    | true => simp [eq_comm]

/-- A request whose `DELETE` was sent leaves the login flows as they were, should the `DELETE` fail,
exactly if it succeeds or the login flow without IdPs was not written, or was there before. -/
theorem failed_deletion_keeps_flows {C : PortalConfig} {D : Driver} {R : DeletionReplies}
    {orgHandle idpId : String} {w u : PortalWorld AppFlows} {x : Except PortalExn Page}
    (hw : w.is.deleteSent = false)
    (hrun : (deletionEnv D R).Runs (deleteIdp C orgHandle idpId) w x u)
    (hsent : u.is.deleteSent = true) :
    (¬ R.Deletes → u.is.flows = w.is.flows) ↔ R.Deletes ∨ R.NothingWritten C w.is.flows := by
  have hends : (deletionEnv D R).Ends (deleteIdp C orgHandle idpId) w
      fun _ u => Leaves C R w u := by
    refine (ends_elsewhere (IdpRoute.deleteIdp.only_gate trivial (fun _ _ => trivial) _)).keeping
      (fun page v hv => ?_) fun _ v hv => unsent_leaves hw (congrArg AppFlows.deleteSent hv)
    cases page with
    | some page => exact unsent_leaves hw (congrArg AppFlows.deleteSent hv)
    | none =>
      have hbody := deleteIdpBody_flows (C := C) (D := D) (R := R)
        ((congrArg AppFlows.deleteSent hv).trans hw) orgHandle idpId
      unfold Leaves at hbody
      rw [hv] at hbody
      exact hbody
  rw [hends.of_runs hrun hsent, written_eq_iff, imp_iff_or_not, not_not, or_comm]

/-! ## A deletion that is refused -/

/-- IS, which answers with these replies, and the Business API, which is up. -/
def repliesUp (R : DeletionReplies) :
    PortalReq → PortalWorld AppFlows → PortalRep × PortalWorld AppFlows
  | .token _, w => (.token "t", w)
  | .is _ (.getIdp _), w => (R.idp.elim .failed .is, w)
  | .is _ .listApplications, w => (R.applications.elim .failed .is, w)
  | .is _ (.patchAuthSequence appId sequence), w =>
    (R.patch.elim .failed .is, { w with is := { w.is with
      flows := if R.patched then Function.update w.is.flows appId sequence else w.is.flows } })
  | .is _ (.deleteIdp _), w =>
    (R.delete.elim .failed .is, { w with is := { w.is with deleteSent := true } })
  | .is _ _, w => (.failed, w)
  | .api _ request, w =>
    let answer := handle .sqlite ⟨.ok none, none, request, ⟨"k", 0, 0⟩⟩ w.db
    (.api ⟨answer.1.statusCode, answer.1.body⟩, { w with db := answer.2 })

/-- A response, or none, is what the environment answers with. -/
theorem answers_elim {R : DeletionReplies} {auth : IsAuth} {call : IsCall}
    {w : PortalWorld AppFlows} {response : Option IsResponse} {s : AppFlows}
    (h : DeletionAnswers R auth call w.is response s) :
    (deletionEnv .sqlite R).answers (.is auth call) w (response.elim .failed .is)
      { w with is := s } := by
  cases response with
  | none => exact .isFailed h
  | some r => exact .is h

/-- They answer as the replies say. -/
theorem answers_repliesUp (R : DeletionReplies) (q : PortalReq) (w : PortalWorld AppFlows) :
    (deletionEnv .sqlite R).answers q w (repliesUp R q w).1 (repliesUp R q w).2 := by
  cases q with
  | token grant => exact .token grant w "t"
  | api token request => exact .api (.answered _ _)
  | is auth call =>
    cases call with
    | getIdp => exact answers_elim (.getIdp rfl)
    | listApplications => exact answers_elim (.listApplications rfl)
    | patchAuthSequence => exact answers_elim (.patchAuthSequence rfl)
    | deleteIdp => exact answers_elim (.deleteIdp rfl)
    | _ => exact .isFailed (.unasked trivial)

/-- IS refuses to delete an IdP that is in use, after it has carried out the `PATCH` or not. -/
def refusedWith (patched : Bool) : DeletionReplies where
  idp := some ⟨200, .idp (some "i") []⟩
  applications := some ⟨200, .applications [⟨some "teamspace", some "app"⟩]⟩
  patch := some ⟨if patched then 200 else 403, .other⟩
  patched := patched
  delete := some ⟨409, .other⟩

/-- The portal for an IdP manager, with a login flow that offers an IdP. -/
def flowsWorld : PortalWorld AppFlows where
  session := idpManagerSession
  flashes := []
  db := enterprisePlan
  is := ⟨fun _ => flowWith "A", false⟩

/-- What is left after the deletion. -/
def afterRefusal (patched : Bool) : PortalWorld AppFlows :=
  ((deleteIdp exampleConfig "acme" "i").run PortalWorld.exec (repliesUp (refusedWith patched))
    flowsWorld).2

/-- A refusal deletes nothing. -/
theorem refusedWith_not_deletes (patched : Bool) : ¬ (refusedWith patched).Deletes := by
  rintro ⟨r, hr, hstatus⟩
  cases hr
  exact absurd hstatus (by decide)

/-- A login flow that is not overwritten stays. -/
theorem failed_deletion_keeps_unpatched : (afterRefusal false).is.flows = flowsWorld.is.flows := by
  have hrun : (deletionEnv .sqlite (refusedWith false)).Runs (deleteIdp exampleConfig "acme" "i")
      flowsWorld ((deleteIdp exampleConfig "acme" "i").run PortalWorld.exec
        (repliesUp (refusedWith false)) flowsWorld).1 (afterRefusal false) :=
    Environment.runs_run (answers_repliesUp _) _ _
  refine (failed_deletion_keeps_flows rfl hrun (by decide +kernel)).2 (.inr ?_)
    (refusedWith_not_deletes false)
  intro _ _ hpatched
  cases hpatched

/-- A refused deletion has left the application with a password alone. -/
theorem refused_deletion_resets_flow :
    ¬ ∀ (C : PortalConfig) (D : Driver) (R : DeletionReplies) (orgHandle idpId : String)
      (w u : PortalWorld AppFlows) (x : Except PortalExn Page), w.is.deleteSent = false →
      (deletionEnv D R).Runs (deleteIdp C orgHandle idpId) w x u → u.is.deleteSent = true →
      ¬ R.Deletes → u.is.flows = w.is.flows := by
  intro h
  have hflows := h exampleConfig .sqlite (refusedWith true) "acme" "i" flowsWorld _ _ rfl
    (Environment.runs_run (answers_repliesUp _) _ _) (by decide +kernel) (refusedWith_not_deletes true)
  have hreset : (afterRefusal true).is.flows "app" = defaultFlow := by decide +kernel
  exact absurd ((congrFun hflows "app").symm.trans hreset) (by decide)

end Teamspace.Webapp
