import Teamspace.Api.EditRoundTrip
import Teamspace.Api.TenantStore

/-!
# The Business API as one store for each organization

What `handle` answers to a call for an organization, and what it leaves of the organization, are as
`Holding.Serves` has them (`handle_serves`): one case for each handler, each opened with the checks
that the handler makes before it reads or writes its table (`Served`).
-/

namespace Teamspace.Api

open Teamspace.Py Teamspace.Common Teamspace.Lib

/-! ## Outcomes -/

/-- The answer to an outcome and what it leaves are as the store of the organization has them. -/
def Served {α : Type} (o : String) (c : Call) (db : Database) (statusCode : Nat)
    (render : α → Except ApiExn Body) (out : Except ApiExn α × Database) : Prop :=
  ∀ handler : Handler α, handler.outcome db = out →
    (db.rowsOf o).holding.Serves o c (respond statusCode render handler db).1
      ((respond statusCode render handler db).2.rowsOf o).holding

section

variable {α : Type} {D : Driver} {o detail : String} {c : Call} {db db' : Database}
  {statusCode : Nat} {render : α → Except ApiExn Body} {user : UserInfo}

/-- A denial is what the store of the organization would answer. -/
theorem Served.denied {e : ApiExn} (h : Denial (c.Entitled o) e) :
    Served o c db statusCode render (.error e, db) := by
  intro handler hout
  rw [respond_error hout]
  exact .refused h.le h.ne h.internal

/-- So is a failure inside the server. -/
theorem Served.failed {β : Type} {x : Except ApiExn β} (h : FailsInside x) (e : ApiExn)
    (he : x = .error e) : Served o c db statusCode render (.error e, db) := .denied (h.denial he)

/-- So is the refusal of a token that is not verified. -/
theorem Served.unverified {e : AuthExn} (h : c.claims = .error e ∨ c.service = some (.error e)) :
    Served o c db statusCode render (.error (.auth e), db) := by
  intro handler hout
  rw [respond_error hout]
  exact .unverified h

/-- So is the 404 for something that is not kept. -/
theorem Served.missing
    (h : (db.rowsOf o).holding.Serves o c ⟨404, .detail detail⟩ (db.rowsOf o).holding) :
    Served o c db statusCode render (raise 404 detail, db) := by
  intro handler hout
  rw [respond_error hout]
  exact h

/-- An answer that is rendered is served if the store of the organization answers so. -/
theorem Served.answered {a : α} {body : Body} (hbody : render a = .ok body)
    (h : (db.rowsOf o).holding.Serves o c ⟨statusCode, body⟩ (db'.rowsOf o).holding) :
    Served o c db statusCode render (.ok a, db') := by
  intro handler hout
  rw [respond_ok hout hbody]
  exact h

/-- A user who may use a scope has it. -/
theorem Call.MayUse.hasScope {scope : String} (h : c.MayUse o scope)
    (hu : c.user = .ok (some user)) : user.HasScope scope := by
  obtain ⟨user', hu', -, hscope⟩ := h
  rw [hu] at hu'
  cases hu'
  exact hscope

/-- The check of a scope. -/
theorem Served.of_scope {scope : String} {f : UserInfo → Handler α}
    (hE : c.Entitled o → user.HasScope scope)
    (h : Served o c db statusCode render ((f user).outcome db)) :
    Served o c db statusCode render
      ((liftM (depends (requireScope scope (.ok (some user)))) >>= f : Handler α).outcome db) := by
  refine Transaction.of_checked (fun e he => .denied (denial_requireScope hE he)) fun u hu => ?_
  obtain rfl : user = u := Option.some.inj (Except.ok.inj (requireScope_ok hu).1)
  exact h

/-- The check of a body. -/
theorem Served.of_validated {β : Type} {data : Parsed β} {f : β → Handler α}
    (hE : c.Entitled o → ∃ d, data = .ok d)
    (h : ∀ d, data = .ok d → Served o c db statusCode render ((f d).outcome db)) :
    Served o c db statusCode render ((liftM (validated data) >>= f : Handler α).outcome db) :=
  Transaction.of_checked (fun _ he => .denied (denial_validated hE he)) fun d hd =>
    h d (validated_ok hd)

/-- The check of an organization. -/
theorem Served.of_checkOrg {org : String} {f : Unit → Handler α} (ho : user.org = .str o)
    (hE : c.Entitled o → org = o)
    (h : org = o → Served o c db statusCode render ((f ()).outcome db)) :
    Served o c db statusCode render ((liftM (checkOrg org user) >>= f : Handler α).outcome db) :=
  Transaction.of_checked (fun _ he => .denied (denial_checkOrg ho hE he)) fun _ hok =>
    h (checkOrg_org ho hok)

/-! ## Tables with one row for an organization -/

variable {ρ : Type} {key : ρ → String} {T : Part Database.rowsOf ρ key}
  {renderRow : ρ → Except ApiExn Body}

/-- The rows that a driver finds for an organization are its own. -/
theorem isOrg_eq {isOrg : String → Bool} (h : D.equals (.str o) = .ok isOrg) :
    (fun r => isOrg (T.owner r)) = fun r => decide (T.owner r = o) :=
  funext fun _ => Bool.eq_iff_iff.2 ((Driver.equals_str h).trans decide_eq_true_iff.symm)

/-- A read of the row of an organization is served if both of its answers are. -/
theorem served_ofOrg
    (hfound : ∀ r, (T.table db).first (fun r => decide (T.owner r = o)) = some r →
      Served o c db statusCode renderRow (.ok r, db))
    (hmissing : (T.table db).first (fun r => decide (T.owner r = o)) = none →
      Served o c db statusCode renderRow (raise 404 detail, db)) :
    Served o c db statusCode renderRow ((ofOrg D T o detail).outcome db) := by
  cases hop : D.equals (.str o) with
  | error e =>
    refine Transaction.of_checked (Served.failed (failsInside_equals (.str o))) fun _ hisOrg => ?_
    cases hop.symm.trans hisOrg
  | ok isOrg =>
    cases hfirst : (T.table db).first fun r => decide (T.owner r = o) with
    | some r =>
      rw [ofOrg_found hop (by rw [isOrg_eq hop, hfirst])]
      exact hfound r hfirst
    | none =>
      rw [ofOrg_missing hop (by rw [isOrg_eq hop, hfirst])]
      exact hmissing hfirst

/-- A write is served if the change of the row and its creation are. -/
theorem served_upsert {setattr : ρ → Except ApiExn ρ} {create : Except ApiExn ρ}
    (hset : ∀ r, FailsInside (setattr r)) (hcreate : FailsInside create)
    (hupdated : ∀ old row, (T.table db).first (fun r => decide (T.owner r = o)) = some old →
      setattr old = .ok row →
      Served o c db statusCode renderRow (.ok row, T.replace db ((T.table db).update row)))
    (hcreated : ∀ row t, (T.table db).first (fun r => decide (T.owner r = o)) = none →
      create = .ok row → (T.table db).insert row = some t →
      Served o c db statusCode renderRow (.ok row, T.replace db t)) :
    Served o c db statusCode renderRow ((upsert D T o setattr create).outcome db) := by
  refine Transaction.of_checked (Served.failed (failsInside_equals _)) fun isOrg hisOrg => ?_
  unfold Part.first
  rw [Transaction.outcome_read_bind, isOrg_eq hisOrg]
  cases hfirst : (T.table db).first fun r => decide (T.owner r = o) with
  | some old =>
    refine Transaction.of_checked (Served.failed (hset old)) fun row hrow => ?_
    exact hupdated old row hfirst hrow
  | none =>
    refine Transaction.of_checked (Served.failed hcreate) fun row hrow => ?_
    exact Part.of_insert (.denied .database) fun t ht => hcreated row t hfirst hrow ht

/-- A deletion is served if what it leaves is. -/
theorem served_deleteOfOrg {renderUnit : Unit → Except ApiExn Body}
    (h : ∀ t, t.first (fun r => decide (T.owner r = o)) = none →
      Served o c db statusCode renderUnit (.ok (), T.replace db t)) :
    Served o c db statusCode renderUnit ((deleteOfOrg D T o).outcome db) := by
  refine Transaction.of_checked (Served.failed (failsInside_equals _)) fun isOrg hisOrg => ?_
  refine h _ (Table.first_deleteWhere fun r hr => ?_)
  exact (Driver.equals_str hisOrg).2 (of_decide_eq_true hr)

end

/-! ## Meetings -/

section

variable {D : Driver} {o meetingId : String} {c : Call} {db : Database} {user : UserInfo}

/-- `list_meetings` serves the organization of the user. -/
theorem served_listMeetings (hc : c.request = .listMeetings) (hu : c.user = .ok (some user))
    (ho : user.org = .str o) (hdb : db.Dated) :
    Served o c db 200 meetingsBody ((listMeetings D (.ok (some user))).outcome db) := by
  refine .of_scope (fun he => ?_) ?_
  · simp only [Call.Entitled, hc] at he
    exact he.hasScope hu
  refine Transaction.of_checked (Served.failed (failsInside_equals _)) fun isOrg hisOrg => ?_
  rw [ho] at hisOrg
  have hselect : db.meetings.select (fun m => isOrg m.org) =
      db.meetings.select fun m => decide (m.org = o) :=
    congrArg db.meetings.select (isOrg_eq (T := Meeting.table) hisOrg)
  refine .answered (meetingsBody_of_dated (l := db.meetings.select fun m => isOrg m.org)
    fun m hm => hdb.meetings m (List.mem_filter.1 hm).1) ?_
  rw [hselect]
  exact .listed hc

/-- `create_meeting` serves the organization of the user. -/
theorem served_createMeeting {data : Parsed MeetingCreate} (hc : c.request = .createMeeting data)
    (hu : c.user = .ok (some user)) (ho : user.org = .str o) :
    Served o c db 201 meetingBody
      ((createMeeting D (.ok (some user)) c.fresh data).outcome db) := by
  have hE : c.Entitled o → c.MayUse o "create_meeting" ∧ ∃ d, data = .ok d := fun he => by
    simpa only [Call.Entitled, hc] using he
  refine .of_scope (fun he => (hE he).1.hasScope hu) ?_
  refine .of_validated (fun he => (hE he).2) fun d hd => ?_
  refine Transaction.of_checked (Served.failed (Meeting.failsInside_create ..)) fun m hm => ?_
  refine Part.of_insert (.denied .database) fun t ht => ?_
  obtain ⟨horg, r, hr, hid, hrorg, hcreated, hedited⟩ := Meeting.create_response ho hm
  refine .answered (meetingBody_of_response hr) ?_
  rw [holding_insert ht horg hr]
  subst hd
  refine .created hc hid hrorg hcreated hedited fun x hx => ?_
  obtain ⟨y, hy, -, hyx⟩ := mem_holding.1 hx
  rw [Meeting.response?_id hyx, Meeting.response?_id hr]
  exact fun he => (Table.rows_of_insert ht).1 (he ▸ List.mem_map_of_mem hy)

/-- A handler of one meeting acts on the one with that id that is kept, or finds none. -/
theorem served_withMeeting {α : Type} {statusCode : Nat} {render : α → Except ApiExn Body}
    {act : Meeting → Handler α} (hc : c.request.meetingId = some meetingId)
    (ho : user.org = .str o) (hdb : db.Dated)
    (hact : ∀ m r, m ∈ db.meetings.rows → m.org = o → m.response? = some r → r.id = meetingId →
      r ∈ (db.rowsOf o).holding.meetings → Served o c db statusCode render ((act m).outcome db)) :
    Served o c db statusCode render ((withMeeting D meetingId user act).outcome db) := by
  refine Transaction.of_checked (Served.failed (failsInside_equals _)) fun isId hisId => ?_
  refine Transaction.of_checked (Served.failed (failsInside_equals _)) fun isOrg hisOrg => ?_
  rw [ho] at hisOrg
  unfold Part.first
  rw [Transaction.outcome_read_bind]
  cases hfirst : (Meeting.table.table db).first fun m => isId m.id && isOrg m.org with
  | none =>
    refine .missing (.noMeeting hc fun r hr hid => ?_)
    obtain ⟨m, hm, horg, hresponse⟩ := mem_holding.1 hr
    have hq := Table.of_first_none hfirst hm
    rw [(Driver.equals_str hisId).2 ((Meeting.response?_id hresponse).symm.trans hid),
      (Driver.equals_str hisOrg).2 horg] at hq
    cases hq
  | some m =>
    obtain ⟨hm, hq⟩ := Table.mem_of_first hfirst
    obtain ⟨hid, horg⟩ := Bool.and_eq_true_iff.1 hq
    have horg : m.org = o := (Driver.equals_str hisOrg).1 horg
    obtain ⟨t, ht⟩ := Option.ne_none_iff_exists'.1 (hdb.meetings m hm)
    have hr : m.response? = some { m with createdAt := t } := by
      rw [Meeting.response?, ht, Option.map_some]
    exact hact m _ hm horg hr ((Driver.equals_str hisId).1 hid) (mem_holding.2 ⟨m, hm, horg, hr⟩)

/-- `get_meeting` serves the organization of the user. -/
theorem served_getMeeting (hc : c.request = .getMeeting meetingId) (hu : c.user = .ok (some user))
    (ho : user.org = .str o) (hdb : db.Dated) :
    Served o c db 200 meetingBody ((getMeeting D (.ok (some user)) meetingId).outcome db) := by
  refine .of_scope (fun he => ?_) ?_
  · simp only [Call.Entitled, hc] at he
    exact he.hasScope hu
  refine served_withMeeting (by rw [hc]; rfl) ho hdb fun m r _ _ hr hid hmem => ?_
  subst hid
  exact .answered (meetingBody_of_response hr) (.shown hc hmem)

/-- `update_meeting` serves the organization of the user. -/
theorem served_updateMeeting {data : Parsed MeetingCreate}
    (hc : c.request = .updateMeeting meetingId data) (hu : c.user = .ok (some user))
    (ho : user.org = .str o) (hdb : db.Dated) :
    Served o c db 200 meetingBody
      ((updateMeeting D (.ok (some user)) c.fresh meetingId data).outcome db) := by
  have hE : c.Entitled o → c.MayUse o "update_meeting" ∧ ∃ d, data = .ok d := fun he => by
    simpa only [Call.Entitled, hc] using he
  refine .of_scope (fun he => (hE he).1.hasScope hu) ?_
  refine .of_validated (fun he => (hE he).2) fun d hd => ?_
  refine served_withMeeting (by rw [hc]; rfl) ho hdb fun m r hm horg hr hid hmem => ?_
  refine Transaction.of_checked (Served.failed (Meeting.failsInside_setattr ..)) fun m' hm' => ?_
  subst hid hd
  have hr' := Meeting.setattr_response hm' hr
  refine .answered (meetingBody_of_response hr') ?_
  -- the row keeps its id and its organization
  have hidentity := (Meeting.setattr_eq hm').1
  have hkey : m.id = m'.id := (congrArg (·.1) hidentity).symm
  have horg' : m'.org = o := (congrArg (·.2.1) hidentity).trans horg
  change Holding.Serves o c _ _
    ((Meeting.table.replace db (db.meetings.update m')).rowsOf o).holding
  rw [holding_update hdb hm hkey horg horg' hr']
  exact .updated hc hmem

/-- `delete_meeting` serves the organization of the user. -/
theorem served_deleteMeeting (hc : c.request = .deleteMeeting meetingId)
    (hu : c.user = .ok (some user)) (ho : user.org = .str o) (hdb : db.Dated) :
    Served o c db 204 noBody ((deleteMeeting D (.ok (some user)) meetingId).outcome db) := by
  refine .of_scope (fun he => ?_) ?_
  · simp only [Call.Entitled, hc] at he
    exact he.hasScope hu
  refine served_withMeeting (by rw [hc]; rfl) ho hdb fun m r hm horg hr hid hmem => ?_
  subst hid
  have hdeleted := Holding.Serves.deleted (o := o) hc hmem
  rw [Meeting.response?_id hr, ← holding_delete] at hdeleted
  exact .answered rfl hdeleted

end

/-! ## Personalizations, agent configurations and plans -/

section

variable {D : Driver} {o orgId : String} {c : Call} {db : Database} {user : UserInfo}

/-- The row that an update leaves is found. -/
theorem first_update {ρ : Type} {key : ρ → String} {t : Table ρ key} {old row : ρ}
    (hold : t.first (fun r => decide (key r = o)) = some old) (hrow : key row = o) :
    (t.update row).first (fun r => decide (key r = o)) = some row := by
  obtain ⟨hmem, hkey⟩ := Table.mem_of_first hold
  subst hrow
  exact Table.first_key (Table.mem_update_self hmem (of_decide_eq_true hkey))

/-- The row that an insertion leaves is found. -/
theorem first_insert {ρ : Type} {key : ρ → String} {t t' : Table ρ key} {row : ρ}
    (ht : t.insert row = some t') (hrow : key row = o) :
    t'.first (fun r => decide (key r = o)) = some row := by
  subst hrow
  refine Table.first_key ?_
  rw [(Table.rows_of_insert ht).2]
  exact List.mem_append_right _ (List.mem_singleton_self _)

/-- The personalization that is kept is that of the first row of the organization. -/
theorem holding_personalization : (db.rowsOf o).holding.personalization =
    (db.personalizations.first fun p => decide (p.org = o)).map
      fun p => p.toPersonalizationUpsert := by
  rw [← Table.head?_select]
  rfl

/-- So is the configuration of the agent, as far as it can be shown. -/
theorem holding_agentConfig : (db.rowsOf o).holding.agentConfig =
    (db.agentConfigs.first fun c => decide (c.org = o)).bind AgentConfig.response? := by
  rw [← Table.head?_select]
  rfl

/-- So is the plan. -/
theorem holding_plan : (db.rowsOf o).holding.plan =
    (db.organizationPlans.first fun p => decide (p.org = o)).map
      fun p => p.toOrganizationPlanUpsert := by
  rw [← Table.head?_select]
  rfl

/-- `get_personalization` serves the organization of the user. -/
theorem served_getPersonalization (hc : c.request = .getPersonalization orgId)
    (ho : user.org = .str o) :
    Served o c db 200 personalizationBody
      ((getPersonalization D (.ok (some user)) orgId).outcome db) := by
  have hE : c.Entitled o → orgId = o := fun he => by
    simp only [Call.Entitled, hc] at he
    exact he.2
  refine Transaction.of_checked (fun e he => by cases he) fun u hu => ?_
  obtain rfl : user = u := Option.some.inj (Except.ok.inj (requireCurrentUser_ok hu))
  refine .of_checkOrg ho hE fun horg => ?_
  subst horg
  refine served_ofOrg (fun r hr => ?_) fun hnone => ?_
  · have hfirst : (db.personalizations.first fun p => decide (p.org = orgId)) = some r := hr
    refine .answered rfl (.personalizationShown hc ?_)
    rw [holding_personalization, hfirst]
    rfl
  · have hfirst : (db.personalizations.first fun p => decide (p.org = orgId)) = none := hnone
    refine .missing (.noPersonalization hc ?_)
    rw [holding_personalization, hfirst]
    rfl

/-- `upsert_personalization` serves the organization of the user. -/
theorem served_upsertPersonalization (hD : D.WritesNull) {data : Parsed PersonalizationUpsert}
    (hc : c.request = .upsertPersonalization data) (hu : c.user = .ok (some user))
    (ho : user.org = .str o) :
    Served o c db 200 personalizationBody
      ((upsertPersonalization D (.ok (some user)) c.fresh data).outcome db) := by
  have hE : c.Entitled o → c.MayUse o "create_basic_branding" ∧ ∃ d, data = .ok d ∧ d.org = o :=
    fun he => by simpa only [Call.Entitled, hc] using he
  refine .of_scope (fun he => (hE he).1.hasScope hu) ?_
  refine .of_validated (fun he => (hE he).2.imp fun d hd => hd.1) fun d hd => ?_
  subst hd
  refine .of_checkOrg ho (fun he => ?_) fun horg => ?_
  · obtain ⟨d', hd', horg⟩ := (hE he).2
    cases hd'
    exact horg
  have kept {row : Personalization} {t : Table Personalization fun p => p.org}
      (hcells : row.cells = d.cells) (hfirst : t.first (fun p => decide (p.org = o)) = some row) :
      Served o c db 200 personalizationBody (.ok row, Personalization.table.replace db t) := by
    have heq : row.toPersonalizationUpsert = d := PersonalizationUpsert.eq_of_cells hcells
    refine .answered rfl ?_
    rw [holding_personalizations, hfirst, Option.map_some, heq]
    exact .personalizationKept hc horg
  rw [horg]
  refine served_upsert (Personalization.failsInside_setattr _ d)
    (Personalization.failsInside_create _ d) (fun old row hold hrow => ?_) fun row t _ hrow ht => ?_
  · have holdOrg : old.org = d.org :=
      (of_decide_eq_true (Table.mem_of_first hold).2).trans horg.symm
    exact kept (Personalization.setattr_cells hD hrow)
      (first_update hold ((Personalization.setattr_org holdOrg hrow).trans horg))
  · exact kept (Personalization.create_cells hD hrow)
      (first_insert ht ((Personalization.create_org hrow).trans horg))

/-- `delete_personalization_by_org` serves the organization of the user. -/
theorem served_deletePersonalizationByOrg (hc : c.request = .deletePersonalizationByOrg orgId)
    (hu : c.user = .ok (some user)) (ho : user.org = .str o) :
    Served o c db 204 noBody
      ((deletePersonalizationByOrg D (.ok (some user)) orgId).outcome db) := by
  have hE : c.Entitled o → c.MayUse o "delete_branding" ∧ orgId = o := fun he => by
    simpa only [Call.Entitled, hc] using he
  refine .of_scope (fun he => (hE he).1.hasScope hu) ?_
  refine .of_checkOrg ho (fun he => (hE he).2) fun horg => ?_
  subst horg
  refine served_deleteOfOrg fun t ht => .answered rfl ?_
  have hfirst : t.first (fun p => decide (p.org = orgId)) = none := ht
  rw [holding_personalizations, hfirst]
  exact .personalizationDeleted hc

/-- A service and a user with the scope read the same agent configuration. -/
theorem served_ofOrg_agentConfig (hc : c.request = .getAgentConfig o) (hdb : db.Dated) :
    Served o c db 200 agentConfigBody
      ((ofOrg D AgentConfig.table o "No agent config found").outcome db) := by
  refine served_ofOrg (fun r hr => ?_) fun hnone => ?_
  · have hfirst : (db.agentConfigs.first fun c => decide (c.org = o)) = some r := hr
    obtain ⟨t, ht⟩ := Option.ne_none_iff_exists'.1 (hdb.agentConfigs r (Table.mem_of_first hr).1)
    have hresponse : r.response? = some { r with createdAt := t } := by
      rw [AgentConfig.response?, ht, Option.map_some]
    refine .answered (agentConfigBody_of_response hresponse) (.agentConfigShown hc ?_)
    rw [holding_agentConfig, hfirst]
    exact hresponse
  · have hfirst : (db.agentConfigs.first fun c => decide (c.org = o)) = none := hnone
    refine .missing (.noAgentConfig hc ?_)
    rw [holding_agentConfig, hfirst]
    rfl

/-- `create_agent_config` serves the organization of the user. -/
theorem served_createAgentConfig (hD : D.WritesNull) {data : Parsed AgentConfigCreate}
    (hc : c.request = .createAgentConfig data) (hu : c.user = .ok (some user))
    (ho : user.org = .str o) (hdb : db.Dated) :
    Served o c db 201 agentConfigBody
      ((createAgentConfig D (.ok (some user)) c.fresh data).outcome db) := by
  have hE : c.Entitled o → c.MayUse o "manage_agent_config" ∧ ∃ d, data = .ok d ∧ d.org = o :=
    fun he => by simpa only [Call.Entitled, hc] using he
  refine .of_scope (fun he => (hE he).1.hasScope hu) ?_
  refine .of_validated (fun he => (hE he).2.imp fun d hd => hd.1) fun d hd => ?_
  subst hd
  refine .of_checkOrg ho (fun he => ?_) fun horg => ?_
  · obtain ⟨d', hd', horg⟩ := (hE he).2
    cases hd'
    exact horg
  have kept {row : AgentConfig} {t : Table AgentConfig fun c => c.org} {created : DateTime}
      (hcells : row.cells = d.cells) (hfirst : t.first (fun c => decide (c.org = o)) = some row)
      (hcreated : row.createdAt = some created)
      (hsince : created =
        ((db.rowsOf o).holding.agentConfig.map AgentConfigResponse.createdAt).getD
          c.fresh.createdAt) :
      Served o c db 201 agentConfigBody (.ok row, AgentConfig.table.replace db t) := by
    have hresponse : row.response? = some { row with createdAt := created } := by
      rw [AgentConfig.response?, hcreated, Option.map_some]
    refine .answered (agentConfigBody_of_response hresponse) ?_
    rw [holding_agentConfigs, hfirst, Option.bind_some, hresponse]
    exact .agentConfigKept hc horg (AgentConfigCreate.eq_of_cells hcells) hsince
  rw [horg]
  refine served_upsert (AgentConfig.failsInside_setattr _ d) (AgentConfig.failsInside_create _ d)
    (fun old row hold hrow => ?_) fun row t hnone hrow ht => ?_
  · obtain ⟨hmem, hown⟩ := Table.mem_of_first hold
    have holdOrg : old.org = d.org := (of_decide_eq_true hown).trans horg.symm
    obtain ⟨created, hold'⟩ := Option.ne_none_iff_exists'.1 (hdb.agentConfigs old hmem)
    refine kept (AgentConfig.setattr_cells hD hrow)
      (first_update hold ((AgentConfig.setattr_org holdOrg hrow).trans horg))
      ((AgentConfig.setattr_createdAt hrow).trans hold') ?_
    have hfirst : (db.agentConfigs.first fun c => decide (c.org = o)) = some old := hold
    rw [holding_agentConfig, hfirst, Option.bind_some, AgentConfig.response?, hold']
    rfl
  · have hfirst : (db.agentConfigs.first fun c => decide (c.org = o)) = none := hnone
    refine kept (AgentConfig.create_cells hD hrow)
      (first_insert ht ((AgentConfig.create_org hrow).trans horg))
      (AgentConfig.create_createdAt hrow) ?_
    rw [holding_agentConfig, hfirst]
    rfl

/-- `delete_agent_config` serves the organization of the user. -/
theorem served_deleteAgentConfig (hc : c.request = .deleteAgentConfig orgId)
    (hu : c.user = .ok (some user)) (ho : user.org = .str o) :
    Served o c db 204 noBody ((deleteAgentConfig D (.ok (some user)) orgId).outcome db) := by
  have hE : c.Entitled o → c.MayUse o "manage_agent_config" ∧ orgId = o := fun he => by
    simpa only [Call.Entitled, hc] using he
  refine .of_scope (fun he => (hE he).1.hasScope hu) ?_
  refine .of_checkOrg ho (fun he => (hE he).2) fun horg => ?_
  subst horg
  refine served_deleteOfOrg fun t ht => .answered rfl ?_
  have hfirst : t.first (fun c => decide (c.org = orgId)) = none := ht
  rw [holding_agentConfigs, hfirst]
  exact .agentConfigDeleted hc

/-- `get_plan` serves the organization that is asked for. -/
theorem served_getPlan (hc : c.request = .getPlan o) :
    Served o c db 200 planBody ((getPlan D o).outcome db) := by
  refine served_ofOrg (fun r hr => ?_) fun hnone => ?_
  · have hfirst : (db.organizationPlans.first fun p => decide (p.org = o)) = some r := hr
    refine .answered rfl (.planShown hc ?_)
    rw [holding_plan, hfirst]
    rfl
  · have hfirst : (db.organizationPlans.first fun p => decide (p.org = o)) = none := hnone
    refine .missing (.noPlan hc ?_)
    rw [holding_plan, hfirst]
    rfl

/-- `upsert_plan` serves the organization of the user. -/
theorem served_upsertPlan {data : Parsed OrganizationPlanUpsert} (hc : c.request = .upsertPlan data)
    (ho : user.org = .str o) :
    Served o c db 200 planBody ((upsertPlan D (.ok (some user)) c.fresh data).outcome db) := by
  have hE : c.Entitled o → ∃ d, data = .ok d ∧ d.org = o := fun he => by
    simp only [Call.Entitled, hc] at he
    exact he.2
  refine Transaction.of_checked (fun e he => by cases he) fun _ _ => ?_
  refine .of_validated (fun he => (hE he).imp fun d hd => hd.1) fun d hd => ?_
  subst hd
  refine Transaction.of_checked (fun e he => by cases he) fun u hu => ?_
  obtain rfl : user = u := Option.some.inj (Except.ok.inj (currentUser_ok hu))
  refine .of_checkOrg ho (fun he => ?_) fun horg => ?_
  · obtain ⟨d', hd', horg⟩ := hE he
    cases hd'
    exact horg
  have kept {row : OrganizationPlan} {t : Table OrganizationPlan fun p => p.org}
      (hrow : row.org = d.org) (hplan : row.plan = d.plan)
      (hfirst : t.first (fun p => decide (p.org = o)) = some row) :
      Served o c db 200 planBody (.ok row, OrganizationPlan.table.replace db t) := by
    have heq : row.toOrganizationPlanUpsert = d := by
      obtain ⟨⟨org, plan⟩, updatedAt⟩ := row
      cases hrow
      cases hplan
      rfl
    refine .answered rfl ?_
    rw [holding_organizationPlans, hfirst, Option.map_some, heq]
    exact .planKept hc horg
  rw [horg]
  refine served_upsert (OrganizationPlan.failsInside_setattr _ d)
    (OrganizationPlan.failsInside_create _ d) (fun old row hold hrow => ?_)
    fun row t _ hrow ht => ?_
  · have holdOrg : old.org = d.org :=
      (of_decide_eq_true (Table.mem_of_first hold).2).trans horg.symm
    have hrowOrg := OrganizationPlan.setattr_org holdOrg hrow
    exact kept hrowOrg (OrganizationPlan.setattr_plan hrow)
      (first_update hold (hrowOrg.trans horg))
  · have hrowOrg := OrganizationPlan.create_org hrow
    exact kept hrowOrg (OrganizationPlan.create_plan hrow) (first_insert ht (hrowOrg.trans horg))

end

/-! ## The refinement -/

section

variable {D : Driver} {o : String} {db : Database}

/-- The reader of an agent configuration is a service, or a user of the organization. -/
theorem served_getAgentConfig {c : Call} {orgId : String} (hc : c.request = .getAgentConfig orgId)
    (hdb : db.Dated) (htenant : c.tenant = some o)
    (horg : ∀ user, c.user = .ok (some user) → ∃ o, user.org = .str o) :
    Served o c db 200 agentConfigBody
      ((getAgentConfig D c.user orgId c.service).outcome db) := by
  have hE : c.Entitled o → c.service = none → c.MayUse o "view_agent_config" := fun he => by
    simp only [Call.Entitled, hc] at he
    exact he.1
  refine Transaction.of_checked (fun e he => ?_) fun user hu => ?_
  · -- the token of the user does not verify, or its claims are none of a user
    unfold Call.user at he
    cases hclaims : c.claims with
    | error e' =>
      rw [hclaims] at he
      cases he
      exact .unverified (.inl hclaims)
    | ok claims =>
      rw [hclaims] at he
      cases claims with
      | none => cases he
      | some decoded =>
        change (liftPy (UserInfo.ofClaims decoded) >>= fun user => pure (some user)).mapError
          ApiExn.auth = _ at he
        cases hdecoded : UserInfo.ofClaims decoded with
        | ok user =>
          rw [hdecoded] at he
          cases he
        | error e' =>
          rw [hdecoded] at he
          cases he
          rw [ofClaims_error hdecoded]
          exact .denied ⟨by decide, by decide, fun _ => rfl⟩
  have hu := depends_ok hu
  cases hservice : c.service with
  | some claims =>
    have htenant : some orgId = some o := by
      rw [← htenant, Call.tenant, hc, hservice]
    cases htenant
    cases claims with
    | error e =>
      refine Transaction.of_checked (fun e' he => ?_) fun _ hok => by cases hok
      cases he
      exact .unverified (.inr hservice)
    | ok claims =>
      refine Transaction.of_checked (fun e' he => by cases he) fun _ _ => ?_
      exact served_ofOrg_agentConfig hc hdb
  | none =>
    have htenant : c.userOrg = some o := by
      rw [← htenant, Call.tenant, hc, hservice]
    cases user with
    | none =>
      unfold Call.userOrg at htenant
      rw [hu] at htenant
      cases htenant
    | some user =>
      obtain ⟨o', ho⟩ := horg user hu
      obtain rfl : o' = o := Option.some.inj ((Call.userOrg_eq hu ho).symm.trans htenant)
      refine Transaction.of_checked (fun e he => .denied ?_) fun _ hok => ?_
      · change (if "view_agent_config" ∉ user.scopes ∧ "view_agent_config_agent" ∉ user.scopes then
          _ else checkOrg orgId user) = _ at he
        split at he
        · next hscope =>
          cases he
          refine ⟨by change 400 ≤ 403; omega, by change 403 ≠ 404; omega, fun hent => ?_⟩
          exact absurd ((hE hent hservice).hasScope hu) (not_or.2 hscope)
        · refine denial_checkOrg ho (fun hent => ?_) he
          simp only [Call.Entitled, hc] at hent
          exact hent.2
      · obtain rfl := agentConfigAccess_org ho hok
        exact served_ofOrg_agentConfig hc hdb

/-- A call for an organization is served as by a store of the organization. -/
theorem handle_serves (hD : D.WritesNull) {c : Call} (hdb : db.Dated) (htenant : c.tenant = some o)
    (horg : ∀ user, c.user = .ok (some user) → ∃ o, user.org = .str o) :
    (db.rowsOf o).holding.Serves o c (handle D c db).1 ((handle D c db).2.rowsOf o).holding := by
  -- but for services and the readers of plans, the call has a user of the organization
  have byUser (h : c.tenant = c.userOrg) :
      ∃ user, c.user = .ok (some user) ∧ user.org = .str o := by
    rw [htenant] at h
    unfold Call.userOrg at h
    cases hu : c.user with
    | error e =>
      rw [hu] at h
      cases h
    | ok user =>
      cases user with
      | none =>
        rw [hu] at h
        cases h
      | some user =>
        obtain ⟨o', ho⟩ := horg user hu
        refine ⟨user, rfl, ?_⟩
        have huser := Call.userOrg_eq hu ho
        unfold Call.userOrg at huser
        rw [huser] at h
        cases h
        exact ho
  unfold handle
  cases hc : c.request with
  | listMeetings =>
    obtain ⟨user, hu, ho⟩ := byUser (by rw [Call.tenant, hc])
    rw [hu]
    exact served_listMeetings hc hu ho hdb _ rfl
  | createMeeting data =>
    obtain ⟨user, hu, ho⟩ := byUser (by rw [Call.tenant, hc])
    rw [hu]
    exact served_createMeeting hc hu ho _ rfl
  | getMeeting meetingId =>
    obtain ⟨user, hu, ho⟩ := byUser (by rw [Call.tenant, hc])
    rw [hu]
    exact served_getMeeting hc hu ho hdb _ rfl
  | updateMeeting meetingId data =>
    obtain ⟨user, hu, ho⟩ := byUser (by rw [Call.tenant, hc])
    rw [hu]
    exact served_updateMeeting hc hu ho hdb _ rfl
  | deleteMeeting meetingId =>
    obtain ⟨user, hu, ho⟩ := byUser (by rw [Call.tenant, hc])
    rw [hu]
    exact served_deleteMeeting hc hu ho hdb _ rfl
  | getPersonalization orgId =>
    obtain ⟨user, hu, ho⟩ := byUser (by rw [Call.tenant, hc])
    rw [hu]
    exact served_getPersonalization hc ho _ rfl
  | upsertPersonalization data =>
    obtain ⟨user, hu, ho⟩ := byUser (by rw [Call.tenant, hc])
    rw [hu]
    exact served_upsertPersonalization hD hc hu ho _ rfl
  | deletePersonalizationByOrg orgId =>
    obtain ⟨user, hu, ho⟩ := byUser (by rw [Call.tenant, hc])
    rw [hu]
    exact served_deletePersonalizationByOrg hc hu ho _ rfl
  | getAgentConfig orgId => exact served_getAgentConfig hc hdb htenant horg _ rfl
  | createAgentConfig data =>
    obtain ⟨user, hu, ho⟩ := byUser (by rw [Call.tenant, hc])
    rw [hu]
    exact served_createAgentConfig hD hc hu ho hdb _ rfl
  | deleteAgentConfig orgId =>
    obtain ⟨user, hu, ho⟩ := byUser (by rw [Call.tenant, hc])
    rw [hu]
    exact served_deleteAgentConfig hc hu ho _ rfl
  | getPlan orgId =>
    have horgId : some orgId = some o := by rw [← htenant, Call.tenant, hc]
    cases horgId
    exact served_getPlan hc _ rfl
  | upsertPlan data =>
    obtain ⟨user, hu, ho⟩ := byUser (by rw [Call.tenant, hc])
    rw [hu]
    exact served_upsertPlan hc ho _ rfl

/-- Over any history of requests, the answers to those of an organization are those of a store of
the organization, whatever the others send, and what is kept of it at the end is what they leave. -/
theorem holding_run (hD : D.WritesNull) {calls : List Call} (h : Ordered calls db) (hdb : db.Dated)
    (o : String) :
    Tenancy.Run (fun c h r h' => Holding.Serves o c h r h')
      (((businessApi D).answers calls db).filter fun x => (businessApi D).isOf o x.1)
      (db.rowsOf o).holding (((businessApi D).after calls db).rowsOf o).holding :=
  (businessApi_partitioned D).own_run (fun _ _ _ _ hdated => handle_dated hdated)
    (fun c _ _ hs hdated howner => handle_serves hD hdated howner (hs.org c (.head _))) h hdb

end

/-- A deletion of another organization's meeting and one of its own, as a run of `a`'s store. -/
theorem holding_run_deletion :
    Tenancy.Run (fun c h r h' => Holding.Serves "a" c h r h')
      (((businessApi .sqlite).answers [neighbourDeletion, exampleDeletion] exampleDatabase').filter
        fun x => (businessApi .sqlite).isOf "a" x.1)
      (exampleDatabase'.rowsOf "a").holding
      (((businessApi .sqlite).after [neighbourDeletion, exampleDeletion] exampleDatabase').rowsOf
        "a").holding :=
  holding_run Driver.sqlite_writesNull (ordered_examples (by simp)) ⟨by decide, by decide⟩ "a"

end Teamspace.Api
