import Teamspace.Api.Writes

/-!
# Attribution of meetings

What a request can do to the table `meetings` is one of four things (`MeetingStep`): nothing, the
insertion of a meeting for its user, an update that keeps the identity of a meeting, and a deletion,
the last two of a meeting of the user's organization. Over a sequence of requests each stored
meeting is thereby the meeting of the request that created it, with the content of the last accepted
one.
-/

namespace Teamspace.Api

open Teamspace.Py Teamspace.Common Teamspace.Lib

/-! ## Who may do what -/

/-- The driver takes the value for this organization, in a row or in a query. -/
def Driver.Denotes (D : Driver) (v : Json) (org : String) : Prop :=
  D.text 200 v = some (some org) ∨ D.operand v = some (some org)

/-- The call carries a verified token of the organization with the scope. -/
def Call.By (D : Driver) (c : Call) (org scope : String) : Prop :=
  ∃ decoded user, c.claims = .ok (some decoded) ∧ UserInfo.ofClaims decoded = .ok user ∧
    D.Denotes user.org org ∧ user.HasScope scope

/-- The meeting has the identity that a POST gives it: its id is the one that was drawn, its other
fields the claims of the token. -/
def Call.Creates (D : Driver) (c : Call) (m : Meeting) : Prop :=
  ∃ data decoded, c.request = .createMeeting (.ok data) ∧ c.claims = .ok (some decoded) ∧
    m.id = c.fresh.id ∧ m.createdAt = some c.fresh.createdAt ∧
    D.text 200 (pyOr (claim decoded "org_id" (.str "")) (claim decoded "user_org" (.str ""))) =
      some (some m.org) ∧
    D.text 200 (claim decoded "sub" (.str "")) = some (some m.userId) ∧
    D.text 200 (claim decoded "email" (.str "")) = some m.emailAddress ∧
    ∃ actor, getOr (claim decoded "act" (.obj [])) "sub" (.str "") = .ok actor ∧
      D.text 200 (pyOr actor .null) = some m.actorUserId

/-- The call is answered with a meeting. -/
def Call.Accepted (D : Driver) (db : Database) (c : Call) : Prop :=
  ∃ statusCode r, (handle D c db).1 = ⟨statusCode, .meeting r⟩

/-- The call is an accepted POST or PUT for the meeting, which asks for this scope. -/
inductive Call.Writes (D : Driver) (db : Database) (c : Call) (id : String) :
    String → MeetingCreate → Prop
  | post {data : MeetingCreate} : c.request = .createMeeting (.ok data) → c.fresh.id = id →
    c.Accepted D db → Writes D db c id "create_meeting" data
  | put {data : MeetingCreate} : c.request = .updateMeeting id (.ok data) → c.Accepted D db →
    Call.Writes D db c id "update_meeting" data

/-- The database after a sequence of calls, from an empty one. -/
def serve (D : Driver) (calls : List Call) : Database :=
  calls.foldl (fun db c => (handle D c db).2) .empty

/-- The last call is handled on what the others leave. -/
theorem serve_snoc (D : Driver) (calls : List Call) (c : Call) :
    serve D (calls ++ [c]) = (handle D c (serve D calls)).2 := List.foldl_concat ..

/-! ## What one call does -/

/-- What a call can do to the meetings. -/
inductive MeetingStep (D : Driver) (db : Database) (c : Call) : Database → Prop
  | unchanged {after : Database} : after.meetings = db.meetings →
    (∀ id scope data, ¬c.Writes D db id scope data) → MeetingStep D db c after
  | created {m : Meeting} {t : Table Meeting Meeting.id} {data : MeetingCreate} {user : UserInfo} :
    c.request = .createMeeting (.ok data) → c.user = .ok (some user) →
    user.HasScope "create_meeting" → Meeting.create D c.fresh data user = .ok m →
    db.meetings.insert m = some t → c.Accepted D db →
    MeetingStep D db c { db with meetings := t }
  | updated {m m' : Meeting} {data : MeetingCreate} {user : UserInfo} :
    c.request = .updateMeeting m.id (.ok data) → c.user = .ok (some user) →
    user.HasScope "update_meeting" → D.operand user.org = some (some m.org) →
    m ∈ db.meetings.rows → Meeting.setattr D c.fresh data m = .ok m' →
    (m.createdAt ≠ none → c.Accepted D db) →
    MeetingStep D db c { db with meetings := db.meetings.update m' }
  | deleted {m : Meeting} {user : UserInfo} :
    c.request = .deleteMeeting m.id → c.user = .ok (some user) →
    user.HasScope "delete_meeting" → D.operand user.org = some (some m.org) →
    m ∈ db.meetings.rows →
    MeetingStep D db c
      { db with meetings := db.meetings.deleteWhere fun x => decide (x.id = m.id) }

section

variable {D : Driver} {user : Except AuthExn (Option UserInfo)} {fresh : Fresh} {db : Database}

/-- Creating a meeting fails, or inserts one for the user. -/
theorem createMeeting_outcome (data : Parsed MeetingCreate) :
    (∃ e, (createMeeting D user fresh data).outcome db = (.error e, db)) ∨
      ∃ u d m t, data = .ok d ∧ user = .ok (some u) ∧ u.HasScope "create_meeting" ∧
        Meeting.create D fresh d u = .ok m ∧ db.meetings.insert m = some t ∧
        (createMeeting D user fresh data).outcome db = (.ok m, { db with meetings := t }) := by
  let R (out : Except ApiExn Meeting × Database) : Prop :=
    (∃ e, out = (.error e, db)) ∨
      ∃ u d m t, data = .ok d ∧ user = .ok (some u) ∧ u.HasScope "create_meeting" ∧
        Meeting.create D fresh d u = .ok m ∧ db.meetings.insert m = some t ∧
        out = (.ok m, { db with meetings := t })
  have failed (e : ApiExn) : R (.error e, db) := .inl ⟨e, rfl⟩
  change R ((createMeeting D user fresh data).outcome db)
  refine Transaction.of_check failed fun u hu => ?_
  refine Transaction.of_check failed fun d hd => ?_
  refine Transaction.of_check failed fun m hm => ?_
  refine Part.of_insert (failed _) fun t ht => ?_
  have hd : data = .ok d := validated_ok hd
  exact .inr ⟨u, d, m, t, hd, (requireScope_ok hu).1, (requireScope_ok hu).2, hm, ht, rfl⟩

/-- A handler of one meeting fails, or acts on a meeting of the user's organization. -/
theorem withMeeting_outcome {α : Type} (meetingId : String) (u : UserInfo)
    (act : Meeting → Handler α) :
    (∃ e, (withMeeting D meetingId u act).outcome db = (.error e, db)) ∨
      ∃ m ∈ db.meetings.rows, m.id = meetingId ∧ D.operand u.org = some (some m.org) ∧
        (withMeeting D meetingId u act).outcome db = (act m).outcome db := by
  let R (out : Except ApiExn α × Database) : Prop :=
    (∃ e, out = (.error e, db)) ∨
      ∃ m ∈ db.meetings.rows, m.id = meetingId ∧ D.operand u.org = some (some m.org) ∧
        out = (act m).outcome db
  have failed (e : ApiExn) : R (.error e, db) := .inl ⟨e, rfl⟩
  change R ((withMeeting D meetingId u act).outcome db)
  refine Transaction.of_check failed fun isId hisId => ?_
  refine Transaction.of_check failed fun isOrg hisOrg => ?_
  refine Part.of_first (failed _) fun m hm hq => ?_
  obtain ⟨hid, horg⟩ := Bool.and_eq_true_iff.1 hq
  exact .inr ⟨m, hm, (Driver.equals_str hisId).1 hid, (Driver.equals_ok hisOrg).1 horg, rfl⟩

/-- An update fails, or assigns to a meeting of the user's organization. -/
theorem updateMeeting_outcome (meetingId : String) (data : Parsed MeetingCreate) :
    (∃ e, (updateMeeting D user fresh meetingId data).outcome db = (.error e, db)) ∨
      ∃ u d m m', data = .ok d ∧ user = .ok (some u) ∧ u.HasScope "update_meeting" ∧
        m ∈ db.meetings.rows ∧ m.id = meetingId ∧ D.operand u.org = some (some m.org) ∧
        Meeting.setattr D fresh d m = .ok m' ∧
        (updateMeeting D user fresh meetingId data).outcome db =
          (.ok m', { db with meetings := db.meetings.update m' }) := by
  let R (out : Except ApiExn Meeting × Database) : Prop :=
    (∃ e, out = (.error e, db)) ∨
      ∃ u d m m', data = .ok d ∧ user = .ok (some u) ∧ u.HasScope "update_meeting" ∧
        m ∈ db.meetings.rows ∧ m.id = meetingId ∧ D.operand u.org = some (some m.org) ∧
        Meeting.setattr D fresh d m = .ok m' ∧
        out = (.ok m', { db with meetings := db.meetings.update m' })
  have failed (e : ApiExn) : R (.error e, db) := .inl ⟨e, rfl⟩
  change R ((updateMeeting D user fresh meetingId data).outcome db)
  refine Transaction.of_check failed fun u hu => ?_
  refine Transaction.of_check failed fun d hd => ?_
  have hd : data = .ok d := validated_ok hd
  obtain ⟨e, he⟩ | ⟨m, hm, hid, horg, hact⟩ := @withMeeting_outcome D db _ meetingId u
    fun meeting => do
      let meeting ← liftM (Meeting.setattr D fresh d meeting)
      Meeting.table.update meeting
  · rw [he]
    exact failed e
  · rw [hact]
    refine Transaction.of_check failed fun m' hm' => ?_
    exact .inr ⟨u, d, m, m', hd, (requireScope_ok hu).1, (requireScope_ok hu).2, hm, hid, horg, hm',
      rfl⟩

/-- A deletion fails, or deletes a meeting of the user's organization. -/
theorem deleteMeeting_outcome (meetingId : String) :
    (∃ e, (deleteMeeting D user meetingId).outcome db = (.error e, db)) ∨
      ∃ u m, user = .ok (some u) ∧ u.HasScope "delete_meeting" ∧ m ∈ db.meetings.rows ∧
        m.id = meetingId ∧ D.operand u.org = some (some m.org) ∧
        (deleteMeeting D user meetingId).outcome db =
          (.ok (), { db with meetings := db.meetings.deleteWhere fun x => decide (x.id = m.id) }) := by
  let R (out : Except ApiExn Unit × Database) : Prop :=
    (∃ e, out = (.error e, db)) ∨
      ∃ u m, user = .ok (some u) ∧ u.HasScope "delete_meeting" ∧ m ∈ db.meetings.rows ∧
        m.id = meetingId ∧ D.operand u.org = some (some m.org) ∧
        out = (.ok (), { db with meetings := db.meetings.deleteWhere fun x => decide (x.id = m.id) })
  have failed (e : ApiExn) : R (.error e, db) := .inl ⟨e, rfl⟩
  change R ((deleteMeeting D user meetingId).outcome db)
  refine Transaction.of_check failed fun u hu => ?_
  obtain ⟨e, he⟩ | ⟨m, hm, hid, horg, hact⟩ := @withMeeting_outcome D db _ meetingId u
    fun meeting => Meeting.table.deleteWhere fun m => decide (m.id = meeting.id)
  · rw [he]
    exact failed e
  · rw [hact]
    exact .inr ⟨u, m, (requireScope_ok hu).1, (requireScope_ok hu).2, hm, hid, horg, rfl⟩

end

/-- The handlers of the other requests leave the meetings. -/
theorem handle_meetings (D : Driver) (c : Call) (db : Database)
    (hcreate : ∀ data, c.request ≠ .createMeeting data)
    (hupdate : ∀ id data, c.request ≠ .updateMeeting id data)
    (hdelete : ∀ id, c.request ≠ .deleteMeeting id) :
    (handle D c db).2.meetings = db.meetings := by
  obtain ⟨claims, service, request, fresh⟩ := c
  refine handle_keeps _ db ?_
  cases request with
  | createMeeting data => exact absurd rfl (hcreate data)
  | updateMeeting meetingId data => exact absurd rfl (hupdate meetingId data)
  | deleteMeeting meetingId => exact absurd rfl (hdelete meetingId)
  | listMeetings | getMeeting | getPersonalization | getAgentConfig | getPlan => trivial
  | upsertPersonalization | deletePersonalizationByOrg | createAgentConfig | deleteAgentConfig
  | upsertPlan => exact fun _ _ => rfl

/-! ## The step -/

/-- A request that fails is not answered with a meeting. -/
theorem refusal_ne (e : ApiExn) (statusCode : Nat) (r : MeetingResponse) :
    refusal e ≠ ⟨statusCode, .meeting r⟩ := by
  intro h
  have hbody := congrArg Response.body h
  unfold refusal at hbody
  split at hbody <;> cases hbody

/-- A meeting with a time of creation has a response. -/
theorem meetingBody_ok {m : Meeting} (h : m.createdAt ≠ none) : ∃ r, meetingBody m = .ok (.meeting r) := by
  cases hc : m.createdAt with
  | none => exact absurd hc h
  | some t =>
    unfold meetingBody MeetingResponse.ofRow
    rw [hc]
    exact ⟨_, rfl⟩

/-- What a call does to the meetings is a step. -/
theorem meetingStep (D : Driver) (db : Database) (c : Call) :
    MeetingStep D db c (handle D c db).2 := by
  obtain ⟨claims, service, request, fresh⟩ := c
  -- a response that is no meeting is to no accepted call
  have notWritten (h : ∀ statusCode r, (handle D ⟨claims, service, request, fresh⟩ db).1 ≠
      ⟨statusCode, .meeting r⟩) (id scope : String) (data : MeetingCreate) :
      ¬Call.Writes D db ⟨claims, service, request, fresh⟩ id scope data := by
    rintro (⟨-, -, statusCode, r, hr⟩ | ⟨-, statusCode, r, hr⟩) <;> exact h _ _ hr
  cases request with
  | createMeeting data =>
    obtain ⟨e, he⟩ | ⟨u, d, m, t, rfl, hu, hscope, hm, ht, hout⟩ :=
      @createMeeting_outcome D (userOf claims) fresh db data
    · refine .unchanged (congrArg (·.2.meetings) he) (notWritten fun statusCode r => ?_)
      change (respond 201 meetingBody (createMeeting D (userOf claims) fresh data) db).1 ≠ _
      rw [respond_error he]
      exact refusal_ne e statusCode r
    · have hafter : (handle D ⟨claims, service, .createMeeting (.ok d), fresh⟩ db).2 =
          { db with meetings := t } := congrArg Prod.snd hout
      rw [hafter]
      refine .created rfl hu hscope hm ht ?_
      obtain ⟨-, -, -, -, -, hcreated, -⟩ := Meeting.create_eq hm
      obtain ⟨r, hr⟩ := meetingBody_ok (m := m) (by rw [hcreated]; exact Option.some_ne_none _)
      refine ⟨201, r, ?_⟩
      change (respond 201 meetingBody (createMeeting D (userOf claims) fresh (.ok d)) db).1 = _
      rw [respond_ok hout hr]
  | updateMeeting meetingId data =>
    obtain ⟨e, he⟩ | ⟨u, d, m, m', rfl, hu, hscope, hin, rfl, horg, hm', hout⟩ :=
      @updateMeeting_outcome D (userOf claims) fresh db meetingId data
    · refine .unchanged (congrArg (·.2.meetings) he) (notWritten fun statusCode r => ?_)
      change (respond 200 meetingBody (updateMeeting D (userOf claims) fresh meetingId data) db).1 ≠ _
      rw [respond_error he]
      exact refusal_ne e statusCode r
    · have hafter : (handle D ⟨claims, service, .updateMeeting m.id (.ok d), fresh⟩ db).2 =
          { db with meetings := db.meetings.update m' } := congrArg Prod.snd hout
      rw [hafter]
      refine .updated rfl hu hscope horg hin hm' fun hcreated => ?_
      have hcreated' : m'.createdAt = m.createdAt :=
        congrArg (·.2.2.2.2.2) (Meeting.setattr_eq hm').1
      obtain ⟨r, hr⟩ := meetingBody_ok (m := m') (hcreated' ▸ hcreated)
      refine ⟨200, r, ?_⟩
      change (respond 200 meetingBody (updateMeeting D (userOf claims) fresh m.id (.ok d)) db).1 = _
      rw [respond_ok hout hr]
  | deleteMeeting meetingId =>
    obtain ⟨e, he⟩ | ⟨u, m, hu, hscope, hin, rfl, horg, hout⟩ :=
      @deleteMeeting_outcome D (userOf claims) db meetingId
    · refine .unchanged (congrArg (·.2.meetings) he) fun id scope data hw => ?_
      cases hw with
      | post h _ _ => cases h
      | put h _ => cases h
    · have hafter : (handle D ⟨claims, service, .deleteMeeting m.id, fresh⟩ db).2 =
          { db with meetings := db.meetings.deleteWhere fun x => decide (x.id = m.id) } :=
        congrArg Prod.snd hout
      rw [hafter]
      exact .deleted rfl hu hscope horg hin
  | _ =>
    refine .unchanged (handle_meetings D _ db ?_ ?_ ?_) fun id scope data hw => ?_
    · rintro _ ⟨⟩
    · rintro _ _ ⟨⟩
    · rintro _ ⟨⟩
    cases hw with
    | post h _ _ => cases h
    | put h _ => cases h

/-! ## Sequences of calls -/

/-- An accepted call of the sequence created the meeting, by a token of its organization with the
scope, and since then there was always a meeting with its identity. -/
def CreatedIn (D : Driver) (calls : List Call) (m : Meeting) : Prop :=
  ∃ before c after, calls = before ++ c :: after ∧ c.Accepted D (serve D before) ∧ c.Creates D m ∧
    c.By D m.org "create_meeting" ∧ ∀ later rest, after = later ++ rest →
      ∃ m' ∈ (serve D (before ++ c :: later)).meetings.rows, m'.identity = m.identity

/-- The meeting has the content of the last accepted POST or PUT for its id, which a token of its
organization with the scope made. -/
def LastWrittenIn (D : Driver) (calls : List Call) (m : Meeting) : Prop :=
  ∃ before c after scope data, calls = before ++ c :: after ∧
    c.Writes D (serve D before) m.id scope data ∧ c.By D m.org scope ∧ m.HasContent data ∧
    ∀ later c' rest, after = later ++ c' :: rest →
      ∀ scope' data', ¬c'.Writes D (serve D (before ++ c :: later)) m.id scope' data'

section

variable {D : Driver} {calls : List Call} {c : Call}

/-- The user of a call comes from the claims of its token. -/
theorem Call.user_claims {user : UserInfo} (h : c.user = .ok (some user)) :
    ∃ decoded, c.claims = .ok (some decoded) ∧ UserInfo.ofClaims decoded = .ok user := by
  unfold Call.user userOf at h
  obtain ⟨claims, hclaims, h⟩ := ok_of_bind h
  cases claims with
  | none => cases h
  | some decoded =>
    obtain ⟨u, hu, h⟩ := ok_of_bind h
    cases h
    cases hc : UserInfo.ofClaims decoded with
    | error e =>
      rw [hc] at hu
      cases hu
    | ok u' =>
      rw [hc] at hu
      cases hu
      exact ⟨decoded, hclaims, hc⟩

/-- A call with a user of the scope is one of the user's organization. -/
theorem Call.by_of_user {user : UserInfo} {org scope : String} (h : c.user = .ok (some user))
    (horg : D.Denotes user.org org) (hscope : user.HasScope scope) : c.By D org scope := by
  obtain ⟨decoded, hclaims, huser⟩ := Call.user_claims h
  exact ⟨decoded, user, hclaims, huser, horg, hscope⟩

/-- A meeting that is made from the call is created by it. -/
theorem Call.creates_of_create {data : MeetingCreate} {user : UserInfo} {m : Meeting}
    (hreq : c.request = .createMeeting (.ok data)) (hu : c.user = .ok (some user))
    (hm : Meeting.create D c.fresh data user = .ok m) : c.Creates D m := by
  obtain ⟨hid, horg, hsub, hemail, hactor, hcreated, -⟩ := Meeting.create_eq hm
  obtain ⟨decoded, hclaims, huser⟩ := Call.user_claims hu
  unfold UserInfo.ofClaims at huser
  obtain ⟨scopes, -, huser⟩ := ok_of_bind huser
  obtain ⟨actor, hact, huser⟩ := ok_of_bind huser
  cases huser
  exact ⟨data, decoded, hreq, hclaims, hid, hcreated, horg, hsub, hemail, actor, hact, hactor⟩

/-- Who has created a meeting depends on its identity. -/
theorem Call.Creates.of_identity {m m' : Meeting} (h : c.Creates D m)
    (hm : m'.identity = m.identity) : c.Creates D m' := by
  obtain ⟨hid, horg, huser, hemail, hactor, hcreated⟩ : m'.id = m.id ∧ m'.org = m.org ∧
      m'.userId = m.userId ∧ m'.emailAddress = m.emailAddress ∧ m'.actorUserId = m.actorUserId ∧
      m'.createdAt = m.createdAt := by simpa [Meeting.identity] using hm
  unfold Call.Creates
  rw [hid, horg, huser, hemail, hactor, hcreated]
  exact h

/-- The parts of a sequence with one more call. -/
theorem snoc_eq_append {l later rest : List Call} (h : l ++ [c] = later ++ rest) :
    (rest = [] ∧ later = l ++ [c]) ∨ ∃ rest', rest = rest' ++ [c] ∧ l = later ++ rest' := by
  rcases List.eq_nil_or_concat rest with rfl | ⟨rest', x, rfl⟩
  · exact .inl ⟨rfl, (h.trans (List.append_nil _)).symm⟩
  · rw [List.concat_eq_append, ← List.append_assoc] at h
    obtain ⟨hl, hx⟩ := List.append_inj' h rfl
    cases hx
    exact .inr ⟨rest', List.concat_eq_append, hl⟩

/-- One more call that keeps a meeting with the identity keeps its creation. -/
theorem CreatedIn.snoc {m m' : Meeting} (h : CreatedIn D calls m)
    (hin : m' ∈ (serve D (calls ++ [c])).meetings.rows) (hm : m'.identity = m.identity) :
    CreatedIn D (calls ++ [c]) m' := by
  obtain ⟨before, create, after, rfl, haccepted, hcreates, hby, hkept⟩ := h
  have horg : m'.org = m.org := congrArg (·.2.1) hm
  refine ⟨before, create, after ++ [c], by rw [List.append_assoc, List.cons_append], haccepted,
    hcreates.of_identity hm, horg ▸ hby, fun later rest hsplit => ?_⟩
  obtain ⟨rfl, rfl⟩ | ⟨rest', rfl, rfl⟩ := snoc_eq_append hsplit
  · refine ⟨m', ?_, rfl⟩
    rw [List.append_assoc, List.cons_append] at hin
    exact hin
  · obtain ⟨x, hx, hid⟩ := hkept later rest' rfl
    exact ⟨x, hx, hid.trans hm.symm⟩

/-- One more call that does not write the meeting leaves the last one that did. -/
theorem LastWrittenIn.snoc {m : Meeting} (h : LastWrittenIn D calls m)
    (hc : ∀ scope data, ¬c.Writes D (serve D calls) m.id scope data) :
    LastWrittenIn D (calls ++ [c]) m := by
  obtain ⟨before, write, after, scope, data, rfl, hwrites, hby, hcontent, hlast⟩ := h
  refine ⟨before, write, after ++ [c], scope, data, by rw [List.append_assoc, List.cons_append],
    hwrites, hby, hcontent, fun later c' rest hsplit => ?_⟩
  obtain ⟨hrest, -⟩ | ⟨rest', hrest, rfl⟩ := snoc_eq_append hsplit
  · cases hrest
  · cases rest' with
    | nil =>
      cases hrest
      rw [List.append_nil] at hc
      exact hc
    | cons x rest' =>
      cases hrest
      exact hlast later c' rest' rfl

/-- The last call that writes a meeting has written it last. -/
theorem LastWrittenIn.last {m : Meeting} {scope : String} {data : MeetingCreate}
    (hwrites : c.Writes D (serve D calls) m.id scope data) (hby : c.By D m.org scope)
    (hcontent : m.HasContent data) : LastWrittenIn D (calls ++ [c]) m :=
  ⟨calls, c, [], scope, data, rfl, hwrites, hby, hcontent, fun later c' rest h => by
    cases later <;> cases h⟩

end

/-- The invariant of every sequence of calls. -/
theorem serve_attributed (D : Driver) (calls : List Call) :
    ∀ m ∈ (serve D calls).meetings.rows, CreatedIn D calls m ∧ LastWrittenIn D calls m := by
  induction calls using List.reverseRecOn with
  | nil => exact fun m hm => absurd hm List.not_mem_nil
  | append_singleton calls c ih =>
    intro m hm
    have hm' := hm
    rw [serve_snoc] at hm'
    -- a meeting that was there before, and is not written, stays attributed
    have stays (hin : m ∈ (serve D calls).meetings.rows)
        (hc : ∀ scope data, ¬c.Writes D (serve D calls) m.id scope data) :
        CreatedIn D (calls ++ [c]) m ∧ LastWrittenIn D (calls ++ [c]) m :=
      ⟨(ih m hin).1.snoc hm rfl, (ih m hin).2.snoc hc⟩
    generalize hafter : (handle D c (serve D calls)).2 = after at hm'
    cases hafter ▸ meetingStep D (serve D calls) c with
    | unchanged heq hc => exact stays (heq ▸ hm') (hc m.id)
    | @created m₀ t data user hreq hu hscope hm₀ ht haccepted =>
      obtain ⟨hfresh, hrows⟩ := Table.rows_of_insert ht
      obtain ⟨hid, horg, -, -, -, -, hcontent⟩ := Meeting.create_eq hm₀
      have hby : c.By D m₀.org "create_meeting" := Call.by_of_user hu (.inl horg) hscope
      change m ∈ t.rows at hm'
      rw [hrows] at hm'
      obtain hin | hnew := List.mem_append.1 hm'
      · refine stays hin fun scope data hw => hfresh (List.mem_map.2 ⟨m, hin, ?_⟩)
        cases hw with
        | post _ hw _ => exact hw.symm.trans hid.symm
        | put hw _ => rw [hreq] at hw; cases hw
      · cases List.mem_singleton.1 hnew
        refine ⟨⟨calls, c, [], rfl, haccepted, Call.creates_of_create hreq hu hm₀, hby,
          fun later rest h => ?_⟩, .last (.post hreq hid.symm haccepted) hby hcontent⟩
        obtain ⟨rfl, rfl⟩ := List.append_eq_nil_iff.1 h.symm
        exact ⟨m, hm, rfl⟩
    | @updated m₀ m₁ data user hreq hu hscope horg hin hm₁ haccepted =>
      obtain ⟨hidentity, hcontent⟩ := Meeting.setattr_eq hm₁
      have hid : m₁.id = m₀.id := congrArg (·.1) hidentity
      obtain rfl | ⟨hold, hne⟩ := Table.mem_update hm'
      · have hcreated : m₀.createdAt ≠ none := by
          obtain ⟨-, c₀, -, -, -, ⟨-, -, -, -, -, hcreated, -⟩, -⟩ := (ih m₀ hin).1
          rw [hcreated]
          exact Option.some_ne_none _
        have horg' : m.org = m₀.org := congrArg (·.2.1) hidentity
        refine ⟨(ih m₀ hin).1.snoc hm hidentity, .last (.put (hid ▸ hreq) (haccepted hcreated)) ?_
          hcontent⟩
        exact Call.by_of_user hu (horg' ▸ .inr horg) hscope
      · refine stays hold fun scope data hw => hne ?_
        cases hw with
        | post hw _ _ => rw [hreq] at hw; cases hw
        | put hw _ =>
          exact (Request.updateMeeting.inj (hw.symm.trans hreq)).1.trans hid.symm
    | deleted hreq hu hscope horg hin =>
      refine stays (Table.mem_deleteWhere.1 hm').1 fun scope data hw => ?_
      cases hw with
      | post hw _ _ => rw [hreq] at hw; cases hw
      | put hw _ => rw [hreq] at hw; cases hw

/-- A meeting disappears only by a DELETE of its id, from a token of its organization with the
scope. -/
theorem gone_deleted (D : Driver) (db : Database) (c : Call) {m : Meeting}
    (hm : m ∈ db.meetings.rows) (hgone : ∀ m' ∈ (handle D c db).2.meetings.rows, m'.id ≠ m.id) :
    c.request = .deleteMeeting m.id ∧ c.By D m.org "delete_meeting" := by
  generalize hafter : (handle D c db).2 = after at hgone
  cases hafter ▸ meetingStep D db c with
  | unchanged heq _ => exact absurd rfl (hgone m (heq ▸ hm))
  | created _ _ _ _ ht _ =>
    refine absurd rfl (hgone m ?_)
    rw [(Table.rows_of_insert ht).2]
    exact List.mem_append_left _ hm
  | @updated m₀ m₁ _ _ _ _ _ _ hin hm₁ _ =>
    have hid : m₁.id = m₀.id := congrArg (·.1) (Meeting.setattr_eq hm₁).1
    by_cases hk : m.id = m₁.id
    · exact absurd hk.symm (hgone m₁ (Table.mem_update_self hin hid.symm))
    · exact absurd rfl (hgone m (Table.mem_update_of_ne hm hk))
  | @deleted m₀ user hreq hu hscope horg hin =>
    by_cases hk : m.id = m₀.id
    · cases Table.eq_of_key hm hin hk
      exact ⟨hreq, Call.by_of_user hu (.inr horg) hscope⟩
    · exact absurd rfl (hgone m (Table.mem_deleteWhere.2 ⟨hm, decide_eq_false hk⟩))

/-- Over every sequence of calls, each stored meeting is the meeting of the call that created it,
with the content of the last accepted write of its organization, and only a deletion of its
organization removes one. -/
theorem meeting_attribution (D : Driver) (calls : List Call) :
    (∀ m ∈ (serve D calls).meetings.rows, CreatedIn D calls m ∧ LastWrittenIn D calls m) ∧
      ∀ before c after, calls = before ++ c :: after → ∀ m ∈ (serve D before).meetings.rows,
        (∀ m' ∈ (serve D (before ++ [c])).meetings.rows, m'.id ≠ m.id) →
        c.request = .deleteMeeting m.id ∧ c.By D m.org "delete_meeting" := by
  refine ⟨serve_attributed D calls, fun before c after _ m hm hgone => ?_⟩
  rw [serve_snoc] at hgone
  exact gone_deleted D _ c hm hgone

end Teamspace.Api
