import Teamspace.Api.ColumnWidths
import Teamspace.Api.EditRoundTrip
import Teamspace.Api.RecordedAgents
import Teamspace.Api.TenantHistories

/-!
# What an organization keeps

For each organization the Business API is a store of meetings and of at most one agent
configuration, one personalization and one plan (`Holding`). `Holding.Serves` says what a request
of the organization may be answered from what is kept, and what is kept afterwards, without rows,
columns or other organizations. This module has what the handlers' proofs need of it: when a request
is refused, that everything has a time of creation, and what a write of a table shows.
-/

namespace Teamspace.Api

open Teamspace.Py Teamspace.Common Teamspace.Lib

/-- What the Business API keeps for an organization, as its responses show it. -/
structure Holding where
  meetings : List MeetingResponse
  agentConfig : Option AgentConfigResponse
  personalization : Option PersonalizationUpsert
  plan : Option OrganizationPlanUpsert

/-- The response of a meeting that has a time of creation. -/
def Meeting.response? (m : Meeting) : Option MeetingResponse :=
  m.createdAt.map fun t => { m with createdAt := t }

/-- The response of an agent configuration that has a time of creation. -/
def AgentConfig.response? (c : AgentConfig) : Option AgentConfigResponse :=
  c.createdAt.map fun t => { c with createdAt := t }

/-- What rows show. -/
def OrgRows.holding (rows : OrgRows) : Holding where
  meetings := rows.meetings.filterMap Meeting.response?
  agentConfig := rows.agentConfigs.head?.bind AgentConfig.response?
  personalization := rows.personalizations.head?.map fun p => p.toPersonalizationUpsert
  plan := rows.organizationPlans.head?.map fun p => p.toOrganizationPlanUpsert

/-- The meeting with the content of a request. -/
def MeetingResponse.edited (m : MeetingResponse) (data : MeetingCreate) : MeetingResponse :=
  { m with
    topic := data.topic
    date := data.date
    startTime := data.startTime
    duration := toString data.duration
    timeZone := data.timeZone }

/-- The meeting that a request names. -/
def Request.meetingId : Request → Option String
  | .getMeeting meetingId | .updateMeeting meetingId _ | .deleteMeeting meetingId => some meetingId
  | _ => none

/-- The call has a user of the organization. -/
def Call.HasUser (c : Call) (o : String) : Prop :=
  ∃ user, c.user = .ok (some user) ∧ user.org = .str o

/-- The call has a user of the organization with the scope. -/
def Call.MayUse (c : Call) (o scope : String) : Prop :=
  ∃ user, c.user = .ok (some user) ∧ user.org = .str o ∧ user.HasScope scope

/-- The call is one for the organization that its handler should carry out: with the scope that the
handler asks for, a body that parses, and the organization where the request names one. -/
def Call.Entitled (c : Call) (o : String) : Prop :=
  match c.request with
  | .listMeetings => c.MayUse o "list_meetings"
  | .createMeeting data => c.MayUse o "create_meeting" ∧ ∃ d, data = .ok d
  | .getMeeting _ => c.MayUse o "view_meeting"
  | .updateMeeting _ data => c.MayUse o "update_meeting" ∧ ∃ d, data = .ok d
  | .deleteMeeting _ => c.MayUse o "delete_meeting"
  | .getPersonalization orgId => c.HasUser o ∧ orgId = o
  | .upsertPersonalization data =>
    c.MayUse o "create_basic_branding" ∧ ∃ d, data = .ok d ∧ d.org = o
  | .deletePersonalizationByOrg orgId => c.MayUse o "delete_branding" ∧ orgId = o
  | .getAgentConfig orgId =>
    (c.service = none → c.MayUse o "view_agent_config") ∧ orgId = o
  | .createAgentConfig data => c.MayUse o "manage_agent_config" ∧ ∃ d, data = .ok d ∧ d.org = o
  | .deleteAgentConfig orgId => c.MayUse o "manage_agent_config" ∧ orgId = o
  | .getPlan orgId => orgId = o
  | .upsertPlan data => c.HasUser o ∧ ∃ d, data = .ok d ∧ d.org = o

/-- What a request of the organization may be answered from what is kept, and what is kept
afterwards. -/
inductive Holding.Serves (o : String) (c : Call) (h : Holding) : Response → Holding → Prop
  /-- A token of the user or of the service does not verify. -/
  | unverified {e : AuthExn} : c.claims = .error e ∨ c.service = some (.error e) →
    Serves o c h (refusal (.auth e)) h
  /-- What should be carried out fails inside only. -/
  | refused {r : Response} : 400 ≤ r.statusCode → r.statusCode ≠ 404 →
    (c.Entitled o → r.statusCode = 500) → Serves o c h r h
  | listed : c.request = .listMeetings → Serves o c h ⟨200, .meetings h.meetings⟩ h
  | created {data : MeetingCreate} {m : MeetingResponse} :
    c.request = .createMeeting (.ok data) → m.id = c.fresh.id → m.org = o →
    m.createdAt = c.fresh.createdAt → m = m.edited data → (∀ x ∈ h.meetings, x.id ≠ m.id) →
    Serves o c h ⟨201, .meeting m⟩ { h with meetings := h.meetings ++ [m] }
  | shown {m : MeetingResponse} : c.request = .getMeeting m.id → m ∈ h.meetings →
    Serves o c h ⟨200, .meeting m⟩ h
  | updated {data : MeetingCreate} {m : MeetingResponse} :
    c.request = .updateMeeting m.id (.ok data) → m ∈ h.meetings →
    Serves o c h ⟨200, .meeting (m.edited data)⟩
      { h with meetings := h.meetings.map fun x => if x.id = m.id then m.edited data else x }
  | deleted {m : MeetingResponse} : c.request = .deleteMeeting m.id → m ∈ h.meetings →
    Serves o c h ⟨204, .empty⟩
      { h with meetings := h.meetings.filter fun x => decide (x.id ≠ m.id) }
  | noMeeting {meetingId : String} : c.request.meetingId = some meetingId →
    (∀ m ∈ h.meetings, m.id ≠ meetingId) → Serves o c h ⟨404, .detail "Meeting not found"⟩ h
  | personalizationShown {p : PersonalizationUpsert} : c.request = .getPersonalization o →
    h.personalization = some p → Serves o c h ⟨200, .personalization p⟩ h
  | noPersonalization : c.request = .getPersonalization o → h.personalization = none →
    Serves o c h ⟨404, .detail "No personalization found"⟩ h
  | personalizationKept {data : PersonalizationUpsert} :
    c.request = .upsertPersonalization (.ok data) → data.org = o →
    Serves o c h ⟨200, .personalization data⟩ { h with personalization := some data }
  | personalizationDeleted : c.request = .deletePersonalizationByOrg o →
    Serves o c h ⟨204, .empty⟩ { h with personalization := none }
  | agentConfigShown {a : AgentConfigResponse} : c.request = .getAgentConfig o →
    h.agentConfig = some a → Serves o c h ⟨200, .agentConfig a⟩ h
  | noAgentConfig : c.request = .getAgentConfig o → h.agentConfig = none →
    Serves o c h ⟨404, .detail "No agent config found"⟩ h
  /-- A configuration keeps its time of creation. -/
  | agentConfigKept {data : AgentConfigCreate} {a : AgentConfigResponse} :
    c.request = .createAgentConfig (.ok data) → data.org = o → a.toAgentConfigCreate = data →
    a.createdAt = (h.agentConfig.map AgentConfigResponse.createdAt).getD c.fresh.createdAt →
    Serves o c h ⟨201, .agentConfig a⟩ { h with agentConfig := some a }
  | agentConfigDeleted : c.request = .deleteAgentConfig o →
    Serves o c h ⟨204, .empty⟩ { h with agentConfig := none }
  | planShown {p : OrganizationPlanUpsert} : c.request = .getPlan o → h.plan = some p →
    Serves o c h ⟨200, .organizationPlan p⟩ h
  | noPlan : c.request = .getPlan o → h.plan = none →
    Serves o c h ⟨404, .detail "No plan found"⟩ h
  | planKept {data : OrganizationPlanUpsert} : c.request = .upsertPlan (.ok data) → data.org = o →
    Serves o c h ⟨200, .organizationPlan data⟩ { h with plan := some data }

/-! ## Refusals -/

/-- The answer to the exception refuses a request, with an internal error where `E` holds. -/
structure Denial (E : Prop) (e : ApiExn) : Prop where
  le : 400 ≤ (refusal e).statusCode
  ne : (refusal e).statusCode ≠ 404
  internal : E → (refusal e).statusCode = 500

section

variable {α β : Type} {D : Driver} {E : Prop}

/-- A failure of the database denies a request with an internal error. -/
theorem Denial.database : Denial E .database := ⟨by decide, by decide, fun _ => rfl⟩

/-- So does every failure inside the server. -/
theorem FailsInside.denial {x : Except ApiExn α} (h : FailsInside x) {e : ApiExn}
    (he : x = .error e) : Denial E e := by
  obtain rfl := h.eq e he
  exact .database

variable {fresh : Fresh} {user : UserInfo}

/-- A user who is refused for a scope does not have it. -/
theorem denial_requireScope {scope : String} (hE : E → user.HasScope scope) {e : ApiExn}
    (h : depends (requireScope scope (.ok (some user))) = .error e) : Denial E e := by
  by_cases hscope : user.HasScope scope
  · rw [requireScope_of_hasScope hscope] at h
    cases h
  · have hnot : scope ∉ user.scopes ∧ scope ++ "_agent" ∉ user.scopes := not_or.1 hscope
    change (if scope ∉ user.scopes ∧ scope ++ "_agent" ∉ user.scopes then _ else Except.ok user :
      Except AuthExn UserInfo).mapError ApiExn.auth = _ at h
    rw [if_pos hnot] at h
    cases h
    exact ⟨by change 400 ≤ 403; omega, by change 403 ≠ 404; omega, fun he => absurd (hE he) hscope⟩

/-- A body that is not parsed denies a request, since an entitled one has a body that is. -/
theorem denial_validated {data : Parsed α} (hE : E → ∃ d, data = .ok d) {e : ApiExn}
    (h : validated data = .error e) : Denial E e := by
  cases data with
  | ok d => cases h
  | error content =>
    cases h
    refine ⟨by change 400 ≤ 422; omega, by change 422 ≠ 404; omega, fun he => ?_⟩
    obtain ⟨d, hd⟩ := hE he
    cases hd

/-- Another organization denies a request, since an entitled one names the user's. -/
theorem denial_checkOrg {org o : String} (ho : user.org = .str o) (hE : E → org = o) {e : ApiExn}
    (h : checkOrg org user = .error e) : Denial E e := by
  unfold checkOrg at h
  split at h
  · next hne =>
    cases h
    refine ⟨by change 400 ≤ 403; omega, by change 403 ≠ 404; omega, fun he => absurd ?_ hne⟩
    rw [ho, hE he]
  · cases h

end

/-! ## Creation times -/

/-- Every meeting and every agent configuration has a time of creation. -/
structure Database.Dated (db : Database) : Prop where
  meetings : ∀ m ∈ db.meetings.rows, m.createdAt ≠ none
  agentConfigs : ∀ c ∈ db.agentConfigs.rows, c.createdAt ≠ none

section

variable {D : Driver} {fresh : Fresh}

/-- A configuration that is created has its time of creation. -/
theorem AgentConfig.create_createdAt {data : AgentConfigCreate} {r : AgentConfig}
    (h : AgentConfig.create D fresh data = .ok r) : r.createdAt = some fresh.createdAt := by
  unfold AgentConfig.create at h
  repeat obtain ⟨_, -, h⟩ := ok_of_bind h
  cases h
  rfl

/-- A configuration that is changed keeps its time of creation. -/
theorem AgentConfig.setattr_createdAt {data : AgentConfigCreate} {existing r : AgentConfig}
    (h : AgentConfig.setattr D fresh data existing = .ok r) : r.createdAt = existing.createdAt := by
  unfold AgentConfig.setattr at h
  repeat obtain ⟨_, -, h⟩ := ok_of_bind h
  cases h
  split
  · rfl
  · rfl

/-- A call leaves every meeting with a time of creation. -/
theorem handle_datedMeetings {c : Call} {db : Database} (h : db.Dated) :
    ∀ m ∈ (handle D c db).2.meetings.rows, m.createdAt ≠ none := by
  intro m hm
  have hstep := meetingStep D db c
  generalize (handle D c db).2 = after at hm hstep
  cases hstep with
  | unchanged hsame _ =>
    rw [hsame] at hm
    exact h.meetings m hm
  | created _ _ _ hcreate hins _ =>
    change m ∈ Table.rows _ at hm
    rw [(Table.rows_of_insert hins).2, List.mem_append, List.mem_singleton] at hm
    rcases hm with hm | rfl
    · exact h.meetings m hm
    · rw [(Meeting.create_eq hcreate).2.2.2.2.2.1]
      exact Option.some_ne_none _
  | updated _ _ _ _ hin hset _ =>
    rcases Table.mem_update hm with rfl | ⟨hm, -⟩
    · have hcreated : m.createdAt = _ :=
        congrArg (fun i => i.2.2.2.2.2) (Meeting.setattr_eq hset).1
      rw [hcreated]
      exact h.meetings _ hin
    · exact h.meetings m hm
  | deleted => exact h.meetings m (Table.mem_deleteWhere.1 hm).1

/-- A call leaves every agent configuration with a time of creation. -/
theorem handle_datedAgentConfigs {c : Call} {db : Database} (h : db.Dated) :
    ∀ a ∈ (handle D c db).2.agentConfigs.rows, a.createdAt ≠ none := by
  obtain ⟨claims, service, request, fresh⟩ := c
  have kept (hq : request.Unseen Database.agentConfigs) :
      ∀ a ∈ (handle D ⟨claims, service, request, fresh⟩ db).2.agentConfigs.rows,
        a.createdAt ≠ none := by
    intro a ha
    rw [handle_keeps (q := Database.agentConfigs) ⟨claims, service, request, fresh⟩ db hq] at ha
    exact h.agentConfigs a ha
  cases request with
  | listMeetings | getMeeting | getPersonalization | getAgentConfig | getPlan => exact kept trivial
  | createMeeting | updateMeeting | deleteMeeting | upsertPersonalization
  | deletePersonalizationByOrg | upsertPlan => exact kept fun _ _ => rfl
  | createAgentConfig parsed =>
    let R (out : Except ApiExn AgentConfig × Database) : Prop :=
      ∀ a ∈ out.2.agentConfigs.rows, a.createdAt ≠ none
    have failed (e : ApiExn) : R (.error e, db) := h.agentConfigs
    change R ((createAgentConfig D (userOf claims) fresh parsed).outcome db)
    refine Transaction.of_check failed fun _ _ => Transaction.of_check failed fun data _ => ?_
    refine Transaction.of_check failed fun _ _ => ?_
    obtain ⟨e, he⟩ | ⟨old, hold, row, -, hrow, hout⟩ | ⟨row, t, -, hrow, ht, hout⟩ :=
      upsert_outcome (D := D) (T := AgentConfig.table) data.org (AgentConfig.setattr D fresh data)
        (AgentConfig.create D fresh data) db
    · rw [he]
      exact failed e
    · rw [hout]
      intro a ha
      rcases Table.mem_update ha with rfl | ⟨ha, -⟩
      · rw [AgentConfig.setattr_createdAt hrow]
        exact h.agentConfigs old hold
      · exact h.agentConfigs a ha
    · rw [hout]
      intro a ha
      change a ∈ t.rows at ha
      rw [(Table.rows_of_insert ht).2, List.mem_append, List.mem_singleton] at ha
      rcases ha with ha | rfl
      · exact h.agentConfigs a ha
      · rw [AgentConfig.create_createdAt hrow]
        exact Option.some_ne_none _
  | deleteAgentConfig orgId =>
    let R (out : Except ApiExn Unit × Database) : Prop :=
      ∀ a ∈ out.2.agentConfigs.rows, a.createdAt ≠ none
    have failed (e : ApiExn) : R (.error e, db) := h.agentConfigs
    change R ((deleteAgentConfig D (userOf claims) orgId).outcome db)
    refine Transaction.of_check failed fun _ _ => Transaction.of_check failed fun _ _ => ?_
    exact Transaction.of_check failed fun _ _ a ha =>
      h.agentConfigs a (Table.mem_deleteWhere.1 ha).1

/-- The Business API dates what it creates. -/
theorem handle_dated {c : Call} {db : Database} (h : db.Dated) : (handle D c db).2.Dated :=
  ⟨handle_datedMeetings h, handle_datedAgentConfigs h⟩

end

/-! ## What writes show -/

section

variable {o : String} {db : Database}

/-- A replaced table of meetings is seen in the meetings that are kept. -/
theorem holding_meetings (t : Table Meeting Meeting.id) :
    ((Meeting.table.replace db t).rowsOf o).holding =
      { (db.rowsOf o).holding with
        meetings := (t.select fun m => decide (m.org = o)).filterMap Meeting.response? } := rfl

/-- One of agent configurations is seen in the configuration that is kept. -/
theorem holding_agentConfigs (t : Table AgentConfig fun c => c.org) :
    ((AgentConfig.table.replace db t).rowsOf o).holding =
      { (db.rowsOf o).holding with
        agentConfig := (t.first fun c => decide (c.org = o)).bind AgentConfig.response? } := by
  rw [← Table.head?_select]
  rfl

/-- One of personalizations is seen in the personalization that is kept. -/
theorem holding_personalizations (t : Table Personalization fun p => p.org) :
    ((Personalization.table.replace db t).rowsOf o).holding =
      { (db.rowsOf o).holding with
        personalization := (t.first fun p => decide (p.org = o)).map
          fun p => p.toPersonalizationUpsert } := by
  rw [← Table.head?_select]
  rfl

/-- One of plans is seen in the plan that is kept. -/
theorem holding_organizationPlans (t : Table OrganizationPlan fun p => p.org) :
    ((OrganizationPlan.table.replace db t).rowsOf o).holding =
      { (db.rowsOf o).holding with
        plan := (t.first fun p => decide (p.org = o)).map
          fun p => p.toOrganizationPlanUpsert } := by
  rw [← Table.head?_select]
  rfl

/-- A meeting is shown under its id. -/
theorem Meeting.response?_id {m : Meeting} {r : MeetingResponse} (h : m.response? = some r) :
    r.id = m.id := by
  obtain ⟨t, -, rfl⟩ := Option.map_eq_some_iff.1 h
  rfl

/-- The meetings that are kept are those of the rows. -/
theorem mem_holding {r : MeetingResponse} : r ∈ (db.rowsOf o).holding.meetings ↔
    ∃ m ∈ db.meetings.rows, m.org = o ∧ m.response? = some r := by
  change r ∈ (db.meetings.rows.filter fun m => decide (m.org = o)).filterMap _ ↔ _
  simp only [List.mem_filterMap, List.mem_filter, decide_eq_true_eq, and_assoc]

/-- What a meeting shows is the body of the answer. -/
theorem meetingBody_of_response {m : Meeting} {r : MeetingResponse} (h : m.response? = some r) :
    meetingBody m = .ok (.meeting r) := by
  obtain ⟨t, ht, rfl⟩ := Option.map_eq_some_iff.1 h
  unfold meetingBody MeetingResponse.ofRow
  rw [ht]
  rfl

/-- Meetings with times of creation are all shown. -/
theorem meetingsBody_of_dated {l : List Meeting} (h : ∀ m ∈ l, m.createdAt ≠ none) :
    meetingsBody l = .ok (.meetings (l.filterMap Meeting.response?)) := by
  have hmap : l.mapM MeetingResponse.ofRow = .ok (l.filterMap Meeting.response?) := by
    induction l with
    | nil => rfl
    | cons m l ih =>
      obtain ⟨t, ht⟩ := Option.ne_none_iff_exists'.1 (h m (.head _))
      have hrow : MeetingResponse.ofRow m = .ok { m with createdAt := t } := by
        unfold MeetingResponse.ofRow
        rw [ht]
        rfl
      have hresponse : m.response? = some { m with createdAt := t } := by
        rw [Meeting.response?, ht, Option.map_some]
      rw [List.mapM_cons, hrow, ih fun x hx => h x (.tail _ hx), List.filterMap_cons_some hresponse]
      rfl
  rw [meetingsBody, hmap]
  rfl

/-- What a configuration shows is the body of the answer. -/
theorem agentConfigBody_of_response {c : AgentConfig} {a : AgentConfigResponse}
    (h : c.response? = some a) : agentConfigBody c = .ok (.agentConfig a) := by
  obtain ⟨t, ht, rfl⟩ := Option.map_eq_some_iff.1 h
  unfold agentConfigBody AgentConfigResponse.ofRow
  rw [ht]
  rfl

/-- An update of a row is one of its response. -/
theorem filterMap_replaceBy {l : List Meeting} {m : Meeting} {r : MeetingResponse}
    (hl : ∀ x ∈ l, x.createdAt ≠ none) (hm : m.response? = some r) :
    (l.map (Table.replaceBy Meeting.id m)).filterMap Meeting.response? =
      (l.filterMap Meeting.response?).map fun x => if x.id = r.id then r else x := by
  induction l with
  | nil => rfl
  | cons x l ih =>
    obtain ⟨t, ht⟩ := Option.ne_none_iff_exists'.1 (hl x (.head _))
    have hx : x.response? = some { x with createdAt := t } := by
      rw [Meeting.response?, ht, Option.map_some]
    have ih := ih fun y hy => hl y (.tail _ hy)
    rw [List.map_cons, List.filterMap_cons_some hx, List.map_cons, ← ih]
    unfold Table.replaceBy
    rw [Meeting.response?_id hm]
    by_cases hid : x.id = m.id
    · simp [hid, hm]
    · simp [hid, hx]

/-- A deletion of rows is one of their responses. -/
theorem filterMap_filter_id {l : List Meeting} (id : String) :
    (l.filter fun m => !decide (m.id = id)).filterMap Meeting.response? =
      (l.filterMap Meeting.response?).filter fun r => decide (r.id ≠ id) := by
  induction l with
  | nil => rfl
  | cons m l ih =>
    cases hr : m.response? with
    | none =>
      rw [List.filterMap_cons_none hr, ← ih]
      by_cases hid : m.id = id
      · simp [hid]
      · simp [hid, hr]
    | some r =>
      have hrid := Meeting.response?_id hr
      rw [List.filterMap_cons_some hr]
      by_cases hid : m.id = id
      · simpa [hid, hrid] using ih
      · simpa [hid, hrid, hr] using ih

variable {D : Driver} {fresh : Fresh}

/-- An assignment edits the response. -/
theorem Meeting.setattr_response {data : MeetingCreate} {m m' : Meeting} {r : MeetingResponse}
    (h : Meeting.setattr D fresh data m = .ok m') (hr : m.response? = some r) :
    m'.response? = some (r.edited data) := by
  obtain ⟨hidentity, hcontent⟩ := Meeting.setattr_eq h
  obtain ⟨t, ht, rfl⟩ := Option.map_eq_some_iff.1 hr
  obtain ⟨id, org, createdAt, updatedAt, topic, date, startTime, duration, timeZone, userId,
    emailAddress, actorUserId⟩ := m'
  obtain ⟨rfl, rfl, rfl, rfl, rfl⟩ := hcontent
  simp only [Meeting.identity, Prod.mk.injEq] at hidentity
  obtain ⟨rfl, rfl, rfl, rfl, rfl, rfl⟩ := hidentity
  simp [Meeting.response?, ht, MeetingResponse.edited]

/-- A new meeting of a user of `o` shows what the request says. -/
theorem Meeting.create_response {data : MeetingCreate} {user : UserInfo} {m : Meeting}
    (ho : user.org = .str o) (h : Meeting.create D fresh data user = .ok m) :
    m.org = o ∧ ∃ r, m.response? = some r ∧ r.id = fresh.id ∧ r.org = o ∧
      r.createdAt = fresh.createdAt ∧ r = r.edited data := by
  obtain ⟨hid, horg, -, -, -, hcreated, hcontent⟩ := Meeting.create_eq h
  rw [ho] at horg
  have horg : m.org = o := Option.some.inj (D.text_str horg)
  obtain ⟨id, org, createdAt, updatedAt, topic, date, startTime, duration, timeZone, userId,
    emailAddress, actorUserId⟩ := m
  obtain ⟨rfl, rfl, rfl, rfl, rfl⟩ := hcontent
  cases hid
  cases horg
  cases hcreated
  exact ⟨rfl, _, rfl, rfl, rfl, rfl, rfl⟩

/-- A new meeting of an organization is kept after the others. -/
theorem holding_insert {m : Meeting} {r : MeetingResponse} {t : Table Meeting Meeting.id}
    (ht : db.meetings.insert m = some t) (horg : m.org = o) (hr : m.response? = some r) :
    ((Meeting.table.replace db t).rowsOf o).holding =
      { (db.rowsOf o).holding with meetings := (db.rowsOf o).holding.meetings ++ [r] } := by
  have hsingle : [m].filter (fun m => decide (m.org = o)) = [m] := by simp [horg]
  rw [holding_meetings, Table.select_insert ht, hsingle, List.filterMap_append,
    List.filterMap_cons_some hr, List.filterMap_nil]
  rfl

/-- A meeting that is changed is kept in its place. -/
theorem holding_update {m m' : Meeting} {r : MeetingResponse} (hdb : db.Dated)
    (hm : m ∈ db.meetings.rows) (hkey : m.id = m'.id) (horg : m.org = o) (horg' : m'.org = o)
    (hr : m'.response? = some r) :
    ((Meeting.table.replace db (db.meetings.update m')).rowsOf o).holding =
      { (db.rowsOf o).holding with
        meetings := (db.rowsOf o).holding.meetings.map fun x => if x.id = r.id then r else x } := by
  have hdated : ∀ x ∈ db.meetings.select fun m => decide (m.org = o), x.createdAt ≠ none :=
    fun x hx => hdb.meetings x (List.mem_filter.1 hx).1
  rw [holding_meetings, Table.select_update hm hkey (by rw [horg, horg']),
    filterMap_replaceBy hdated hr]
  rfl

/-- A meeting that is deleted is no longer kept. -/
theorem holding_delete (id : String) :
    ((Meeting.table.replace db (db.meetings.deleteWhere fun m => decide (m.id = id))).rowsOf
        o).holding =
      { (db.rowsOf o).holding with
        meetings := (db.rowsOf o).holding.meetings.filter fun r => decide (r.id ≠ id) } := by
  rw [holding_meetings, Table.select_deleteWhere, filterMap_filter_id]
  rfl

/-- A configuration is what it writes. -/
theorem AgentConfigCreate.eq_of_cells {a b : AgentConfigCreate} (h : a.cells = b.cells) :
    a = b := by
  cases a
  cases b
  simpa [AgentConfigCreate.cells] using h

/-- So is a personalization. -/
theorem PersonalizationUpsert.eq_of_cells {a b : PersonalizationUpsert} (h : a.cells = b.cells) :
    a = b := by
  cases a
  cases b
  simpa [PersonalizationUpsert.cells] using h

end

end Teamspace.Api
