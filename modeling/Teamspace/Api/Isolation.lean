import Teamspace.Api.Routers

/-!
# Tenant isolation of the Business API

A handler that runs for a user of an organization is confined to the rows of the organization: each
filters its query by the organization of the user, or checks that the organization in the path or
the body is the user's before it queries. So its response, and what it leaves of the organization,
are functions of the organization's rows, and it leaves the rows of every other one.

The one place where the organizations meet is the key of `meetings`, which is drawn afresh.
-/

namespace Teamspace.Api

open Teamspace.Py Teamspace.Common Teamspace.Lib

variable {D : Driver} {o : String} {P : Database → Prop}

/-- The handler depends on, and changes, the rows of `o` only. -/
abbrev ConfinedTo (o : String) (P : Database → Prop) {α : Type} (handler : Handler α) : Prop :=
  Confined Database.rowsOf o P handler

/-! ## The checks of a handler -/

/-- An organization that passes the check is that of the user. -/
theorem checkOrg_org {org : String} {user : UserInfo} (ho : user.org = .str o)
    (h : checkOrg org user = .ok ()) : org = o := by
  unfold checkOrg at h
  split at h
  · cases h
  · next hne => exact Json.str.inj ((not_not.1 hne).trans ho)

/-- Without a service header, the reader of an agent configuration is a user of its organization. -/
theorem agentConfigAccess_org {orgId : String} {user : UserInfo} (ho : user.org = .str o)
    (h : agentConfigAccess orgId (some user) none = .ok ()) : orgId = o := by
  unfold agentConfigAccess at h
  split at h
  · next hs => cases hs
  · next hu =>
    cases hu
    split at h
    · cases h
    · exact checkOrg_org ho h
  · next hu => cases hu

/-! ## The tables with one row for an organization -/

section

variable {ρ : Type} {key : ρ → String} {T : Part Database.rowsOf ρ key}

/-- A read of the organization's row is confined to it. -/
theorem ofOrg_confined (org detail : String) (ho : org = o) :
    ConfinedTo o P (ofOrg D T org detail) := by
  refine .check fun isOrg hisOrg => ?_
  refine Part.confined_first (fun r hr => ((Driver.equals_str hisOrg).1 hr).trans ho) ?_ fun r _ => ?_
  · exact .fail _
  · exact .pure _

/-- An upsert is confined if what it assigns to keeps its key, and what it creates has the key of
the organization. -/
theorem upsert_confined {org : String} {setattr : ρ → Except ApiExn ρ} {create : Except ApiExn ρ}
    (ho : org = o) (hkey : ∀ r, T.owner r = key r)
    (hset : ∀ r r', T.owner r = org → setattr r = .ok r' → key r' = org)
    (hcreate : ∀ r, create = .ok r → key r = org) :
    ConfinedTo o P (upsert D T org setattr create) := by
  subst ho
  refine .check fun isOrg hisOrg => ?_
  have hown (r : ρ) (hr : isOrg (T.owner r) = true) : T.owner r = org := (Driver.equals_str hisOrg).1 hr
  refine Part.confined_first hown ?_ fun r hr => ?_
  · refine .check fun row hrow => ?_
    refine Part.confined_insert ((hkey row).trans (hcreate row hrow)) fun db hdb x hx hk => ?_
    -- a row with that key would have been found
    have hxorg : T.owner x = org := (hkey x).trans (hk.trans (hcreate row hrow))
    exact Bool.false_ne_true ((hdb.2 x hx).symm.trans ((Driver.equals_str hisOrg).2 hxorg))
  · refine .check fun row hrow => ?_
    have hrow := hset r row (hown r hr) hrow
    exact Part.confined_update (((hkey r).symm.trans (hown r hr)).trans hrow.symm) (hown r hr)
      ((hkey row).trans hrow) fun db hdb => hdb.2

/-- So is a deletion of its rows. -/
theorem deleteOfOrg_confined {org : String} (ho : org = o) :
    ConfinedTo o P (deleteOfOrg D T org) := by
  refine .check fun isOrg hisOrg => ?_
  exact Part.confined_deleteWhere fun _ _ r _ hr => ((Driver.equals_str hisOrg).1 hr).trans ho

end

/-! ## The handlers -/

section

variable {user : UserInfo} {fresh : Fresh} (ho : user.org = .str o)

include ho

/-- `list_meetings` is confined to the organization of the user. -/
theorem listMeetings_confined : ConfinedTo o P (listMeetings D (.ok (some user))) := by
  refine .check fun user' huser => ?_
  cases (requireScope_ok huser).1
  rw [ho]
  refine .check fun isOrg hisOrg => ?_
  exact Part.confined_all fun m hm => (Driver.equals_str hisOrg).1 hm

/-- `create_meeting` is, if the id is new. -/
theorem createMeeting_confined {data : Parsed MeetingCreate}
    (hfresh : ∀ db, P db → ∀ m ∈ db.meetings.rows, m.id ≠ fresh.id) :
    ConfinedTo o P (createMeeting D (.ok (some user)) fresh data) := by
  refine .check fun user' huser => ?_
  cases (requireScope_ok huser).1
  refine .check fun data _ => .check fun meeting hmeeting => ?_
  obtain ⟨hid, horg, -⟩ := Meeting.create_eq hmeeting
  rw [ho] at horg
  refine Part.confined_insert (Option.some.inj (D.text_str horg)) fun db hdb m hm => ?_
  rw [hid]
  exact hfresh db hdb m hm

/-- A query for a meeting finds one of the organization of the user. -/
theorem withMeeting_confined {α : Type} {meetingId : String} {act : Meeting → Handler α}
    (hact : ∀ m, m.org = o →
      ConfinedTo o (fun db => P db ∧ m ∈ db.meetings.rows) (act m)) :
    ConfinedTo o P (withMeeting D meetingId user act) := by
  refine .check fun isId _ => ?_
  rw [ho]
  refine .check fun isOrg hisOrg => ?_
  have hown (m : Meeting) (hm : (isId m.id && isOrg m.org) = true) : m.org = o :=
    (Driver.equals_str hisOrg).1 (Bool.and_eq_true_iff.1 hm).2
  refine Part.confined_first hown ?_ fun m hm => hact m (hown m hm)
  exact .fail _

/-- `get_meeting` is confined to the organization of the user. -/
theorem getMeeting_confined {meetingId : String} :
    ConfinedTo o P (getMeeting D (.ok (some user)) meetingId) := by
  refine .check fun user' huser => ?_
  cases (requireScope_ok huser).1
  exact withMeeting_confined ho fun m _ => .pure _

/-- `update_meeting` is confined to the organization of the user. -/
theorem updateMeeting_confined {meetingId : String} {data : Parsed MeetingCreate} :
    ConfinedTo o P (updateMeeting D (.ok (some user)) fresh meetingId data) := by
  refine .check fun user' huser => ?_
  cases (requireScope_ok huser).1
  refine .check fun data _ => withMeeting_confined ho fun m hm => .check fun m' hm' => ?_
  obtain ⟨hid, -⟩ := Meeting.setattr_eq hm'
  have hid' : m'.id = m.id := congrArg (·.1) hid
  have horg : m'.org = m.org := congrArg (·.2.1) hid
  exact Part.confined_update hid'.symm hm (horg.trans hm) fun db hdb => hdb.2

/-- `delete_meeting` is confined to the organization of the user. -/
theorem deleteMeeting_confined {meetingId : String} :
    ConfinedTo o P (deleteMeeting D (.ok (some user)) meetingId) := by
  refine .check fun user' huser => ?_
  cases (requireScope_ok huser).1
  refine withMeeting_confined ho fun m hm => Part.confined_deleteWhere fun db hdb m' hm' hid => ?_
  -- the key tells which meeting is deleted
  cases Table.eq_of_key hm' hdb.2 (of_decide_eq_true hid)
  exact hm

/-- `get_personalization` is confined to the organization of the user. -/
theorem getPersonalization_confined {orgId : String} :
    ConfinedTo o P (getPersonalization D (.ok (some user)) orgId) := by
  refine .check fun user' huser => ?_
  cases requireCurrentUser_ok huser
  exact .check fun _ horg => ofOrg_confined orgId _ (checkOrg_org ho horg)

/-- `upsert_personalization` is confined to the organization of the user. -/
theorem upsertPersonalization_confined {data : Parsed PersonalizationUpsert} :
    ConfinedTo o P (upsertPersonalization D (.ok (some user)) fresh data) := by
  refine .check fun user' huser => ?_
  cases (requireScope_ok huser).1
  refine .check fun data _ => .check fun _ horg => ?_
  exact upsert_confined (checkOrg_org ho horg) (fun _ => rfl) (fun _ _ => Personalization.setattr_org)
    fun _ => Personalization.create_org

/-- `delete_personalization_by_org` is confined to the organization of the user. -/
theorem deletePersonalizationByOrg_confined {orgId : String} :
    ConfinedTo o P (deletePersonalizationByOrg D (.ok (some user)) orgId) := by
  refine .check fun user' huser => ?_
  cases (requireScope_ok huser).1
  exact .check fun _ horg => deleteOfOrg_confined (checkOrg_org ho horg)

/-- `get_agent_config` is, without a service header. -/
theorem getAgentConfig_confined {orgId : String} :
    ConfinedTo o P (getAgentConfig D (.ok (some user)) orgId none) := by
  refine .check fun user' huser => ?_
  cases huser
  exact .check fun _ hacc => ofOrg_confined orgId _ (agentConfigAccess_org ho hacc)

/-- `create_agent_config` is confined to the organization of the user. -/
theorem createAgentConfig_confined {data : Parsed AgentConfigCreate} :
    ConfinedTo o P (createAgentConfig D (.ok (some user)) fresh data) := by
  refine .check fun user' huser => ?_
  cases (requireScope_ok huser).1
  refine .check fun data _ => .check fun _ horg => ?_
  exact upsert_confined (checkOrg_org ho horg) (fun _ => rfl) (fun _ _ => AgentConfig.setattr_org)
    fun _ => AgentConfig.create_org

/-- `delete_agent_config` is confined to the organization of the user. -/
theorem deleteAgentConfig_confined {orgId : String} :
    ConfinedTo o P (deleteAgentConfig D (.ok (some user)) orgId) := by
  refine .check fun user' huser => ?_
  cases (requireScope_ok huser).1
  exact .check fun _ horg => deleteOfOrg_confined (checkOrg_org ho horg)

/-- `upsert_plan` is confined to the organization of the user. -/
theorem upsertPlan_confined {data : Parsed OrganizationPlanUpsert} :
    ConfinedTo o P (upsertPlan D (.ok (some user)) fresh data) := by
  refine .check fun _ _ => .check fun data _ => .check fun user' huser => ?_
  cases currentUser_ok huser
  refine .check fun _ horg => ?_
  exact upsert_confined (checkOrg_org ho horg) (fun _ => rfl) (fun _ _ => OrganizationPlan.setattr_org)
    fun _ => OrganizationPlan.create_org

end

/-- The response and what is left of `o` follow from the rows of `o`, and the other rows stay. -/
theorem respond_confined {α : Type} {statusCode : Nat} {render : α → Except ApiExn Body}
    {handler : Handler α} (h : ConfinedTo o P handler) {db db' : Database} (hdb : P db)
    (hdb' : P db') (hrows : db.rowsOf o = db'.rowsOf o) :
    (respond statusCode render handler db).1 = (respond statusCode render handler db').1 ∧
      (respond statusCode render handler db).2.rowsOf o =
        (respond statusCode render handler db').2.rowsOf o ∧
      ∀ o' ≠ o, (respond statusCode render handler db).2.rowsOf o' = db.rowsOf o' := by
  obtain ⟨hres, hafter⟩ := h.agree hdb hdb' hrows
  refine ⟨?_, hafter, fun o' ho' => h.frame hdb ho'⟩
  unfold respond
  rw [hres]

/-- No meeting has the id. -/
def Database.Unused (db : Database) (id : String) : Prop := ∀ m ∈ db.meetings.rows, m.id ≠ id

/-- A request that a user of `o` makes, with the user's token alone, is answered from the rows of
`o` and changes no others. The public `GET /plans/org/{org_id}` is none: it asks for no user. -/
theorem tenant_isolation (D : Driver) (c : Call) {user : UserInfo} {o : String}
    (huser : c.user = .ok (some user)) (ho : user.org = .str o) (hservice : c.service = none)
    (hplan : ∀ orgId, c.request ≠ .getPlan orgId) {db db' : Database}
    (hfresh : ∀ data, c.request = .createMeeting data → db.Unused c.fresh.id)
    (hfresh' : ∀ data, c.request = .createMeeting data → db'.Unused c.fresh.id)
    (hrows : db.rowsOf o = db'.rowsOf o) :
    (handle D c db).1 = (handle D c db').1 ∧
      (handle D c db).2.rowsOf o = (handle D c db').2.rowsOf o ∧
      (∀ o' ≠ o, (handle D c db).2.rowsOf o' = db.rowsOf o') ∧
      ∀ o' ≠ o, (handle D c db').2.rowsOf o' = db'.rowsOf o' := by
  obtain ⟨claims, service, request, fresh⟩ := c
  -- what a confined handler gives, of both runs
  have confined {α : Type} {statusCode : Nat} {render : α → Except ApiExn Body}
      {handler : Handler α}
      (h : ConfinedTo o (fun db => ∀ data, request = .createMeeting data → db.Unused fresh.id)
        handler) :
      (respond statusCode render handler db).1 = (respond statusCode render handler db').1 ∧
        (respond statusCode render handler db).2.rowsOf o =
          (respond statusCode render handler db').2.rowsOf o ∧
        (∀ o' ≠ o, (respond statusCode render handler db).2.rowsOf o' = db.rowsOf o') ∧
        ∀ o' ≠ o, (respond statusCode render handler db').2.rowsOf o' = db'.rowsOf o' := by
    obtain ⟨hres, hafter, hframe⟩ := respond_confined h hfresh hfresh' hrows
    exact ⟨hres, hafter, hframe, (respond_confined h hfresh' hfresh hrows.symm).2.2⟩
  unfold handle
  rw [huser]
  cases hservice
  cases request with
  | listMeetings => exact confined (listMeetings_confined ho)
  | createMeeting data => exact confined (createMeeting_confined ho fun db hdb => hdb data rfl)
  | getMeeting meetingId => exact confined (getMeeting_confined ho)
  | updateMeeting meetingId data => exact confined (updateMeeting_confined ho)
  | deleteMeeting meetingId => exact confined (deleteMeeting_confined ho)
  | getPersonalization orgId => exact confined (getPersonalization_confined ho)
  | upsertPersonalization data => exact confined (upsertPersonalization_confined ho)
  | deletePersonalizationByOrg orgId => exact confined (deletePersonalizationByOrg_confined ho)
  | getAgentConfig orgId => exact confined (getAgentConfig_confined ho)
  | createAgentConfig data => exact confined (createAgentConfig_confined ho)
  | deleteAgentConfig orgId => exact confined (deleteAgentConfig_confined ho)
  | getPlan orgId => exact absurd rfl (hplan orgId)
  | upsertPlan data => exact confined (upsertPlan_confined ho)

/-- A meeting of an organization. -/
def exampleMeeting (id org : String) : Meeting where
  id := id
  org := org
  createdAt := some 0
  updatedAt := some 0
  topic := "plan"
  date := "2026-05-25"
  startTime := "15:00"
  duration := "30"
  timeZone := "UTC"
  userId := "u"
  emailAddress := none
  actorUserId := none

/-- A database with a meeting of one organization. -/
def exampleDatabase : Database := { Database.empty with meetings := ⟨[exampleMeeting "m" "a"], by decide⟩ }

/-- The same with a meeting of another one. -/
def exampleDatabase' : Database :=
  { Database.empty with meetings := ⟨[exampleMeeting "n" "b", exampleMeeting "m" "a"], by decide⟩ }

/-- The deletion of a meeting by a user of its organization. -/
def exampleDeletion : Call where
  claims := .ok (some [("sub", .str "u"), ("org_id", .str "a"), ("scope", .str "delete_meeting")])
  service := none
  request := .deleteMeeting "m"
  fresh := ⟨"k", 0, 0⟩

/-- A deletion in `a` is carried out and leaves the rows of `b`. -/
theorem tenant_isolation_deletion :
    (handle .sqlite exampleDeletion exampleDatabase').1.statusCode = 204 ∧
      (handle .sqlite exampleDeletion exampleDatabase').2.rowsOf "b" = exampleDatabase'.rowsOf "b" := by
  refine ⟨by decide +kernel, ?_⟩
  have hrows : exampleDatabase.rowsOf "a" = exampleDatabase'.rowsOf "a" := rfl
  exact (tenant_isolation .sqlite exampleDeletion
    (show exampleDeletion.user = .ok (some ⟨.str "u", .str "a", .str "", ["delete_meeting"], .arr [],
      .str "", .str "APPLICATION_USER"⟩) by decide +kernel) rfl rfl nofun nofun nofun
    hrows).2.2.2 "b" (by decide)

end Teamspace.Api
