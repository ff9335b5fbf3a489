import Teamspace.Api.Attribution
import Teamspace.Api.MeetingLanguage

/-!
# Submitting a meeting unchanged

A meeting is shown by its `MeetingResponse`, with the duration as a text, and edited by a
`MeetingCreate`, with the duration as an integer. The rows of a served database hold what the
validators have accepted (`serve_stored`), so the five fields of a response are accepted again, and
leave all of the row but the time of its last change (`edit_round_trip`).
-/

namespace Teamspace.Api

open Teamspace.Py Teamspace.Common Teamspace.Lib

/-- The body of a PUT with the five fields of a response. -/
def MeetingResponse.edit (r : MeetingResponse) : Dict :=
  [("topic", .str r.topic), ("date", .str r.date), ("start_time", .str r.startTime),
    ("duration", .str r.duration), ("time_zone", .str r.timeZone)]

/-- What the call hands to a handler of meetings has been validated. -/
def Call.Validated (zones : List String) (c : Call) : Prop :=
  ∀ data, (c.request = .createMeeting (.ok data) ∨ ∃ id, c.request = .updateMeeting id (.ok data)) →
    ∃ body, validate (MeetingCreate.fields zones) body = .ok data.dump

/-- The row holds what was accepted, the duration as the database wrote it. -/
def Meeting.Stored (D : Driver) (zones : List String) (m : Meeting) : Prop :=
  ∃ body data, validate (MeetingCreate.fields zones) body = .ok data.dump ∧ m.HasContent data ∧
    D.notNull 10 (.num (.int data.duration)) = .ok m.duration

/-! ## Stored rows -/

section

variable {D : Driver} {zones : List String} {fresh : Fresh} {data : MeetingCreate} {m m' : Meeting}

/-- A meeting is created with the duration as the database writes it. -/
theorem Meeting.create_duration {user : UserInfo} (h : Meeting.create D fresh data user = .ok m) :
    D.notNull 10 (.num (.int data.duration)) = .ok m.duration := by
  unfold Meeting.create at h
  obtain ⟨org, -, h⟩ := ok_of_bind h
  obtain ⟨topic, -, h⟩ := ok_of_bind h
  obtain ⟨date, -, h⟩ := ok_of_bind h
  obtain ⟨startTime, -, h⟩ := ok_of_bind h
  obtain ⟨duration, hduration, h⟩ := ok_of_bind h
  obtain ⟨timeZone, -, h⟩ := ok_of_bind h
  obtain ⟨userId, -, h⟩ := ok_of_bind h
  obtain ⟨email, -, h⟩ := ok_of_bind h
  obtain ⟨actor, -, h⟩ := ok_of_bind h
  cases h
  exact hduration

/-- So it is changed. -/
theorem Meeting.setattr_duration (h : Meeting.setattr D fresh data m = .ok m') :
    D.notNull 10 (.num (.int data.duration)) = .ok m'.duration := by
  unfold Meeting.setattr at h
  obtain ⟨topic, -, h⟩ := ok_of_bind h
  obtain ⟨date, -, h⟩ := ok_of_bind h
  obtain ⟨startTime, -, h⟩ := ok_of_bind h
  obtain ⟨duration, hduration, h⟩ := ok_of_bind h
  obtain ⟨timeZone, -, h⟩ := ok_of_bind h
  cases h
  unfold Driver.assign at hduration
  split at hduration
  · next he => cases he
  · exact hduration

/-- Every call keeps the rows stored. -/
theorem handle_stored {c : Call} {db : Database} (hc : c.Validated zones)
    (hdb : ∀ m ∈ db.meetings.rows, m.Stored D zones) :
    ∀ m ∈ (handle D c db).2.meetings.rows, m.Stored D zones := by
  intro m hm
  generalize hafter : (handle D c db).2 = after at hm
  cases hafter ▸ meetingStep D db c with
  | unchanged heq => exact hdb m (heq ▸ hm)
  | created hreq hu hscope hm₀ ht haccepted =>
    obtain ⟨body, hbody⟩ := hc _ (.inl hreq)
    change m ∈ _ at hm
    rw [(Table.rows_of_insert ht).2] at hm
    obtain hin | hnew := List.mem_append.1 hm
    · exact hdb m hin
    · cases List.mem_singleton.1 hnew
      exact ⟨body, _, hbody, (Meeting.create_eq hm₀).2.2.2.2.2.2, Meeting.create_duration hm₀⟩
  | updated hreq hu hscope horg hin hm₁ haccepted =>
    obtain ⟨body, hbody⟩ := hc _ (.inr ⟨_, hreq⟩)
    obtain rfl | ⟨hold, -⟩ := Table.mem_update hm
    · exact ⟨body, _, hbody, (Meeting.setattr_eq hm₁).2, Meeting.setattr_duration hm₁⟩
    · exact hdb m hold
  | deleted => exact hdb m (Table.mem_deleteWhere.1 hm).1

/-- The rows of a served database are stored. -/
theorem serve_stored {calls : List Call} (hcalls : ∀ c ∈ calls, c.Validated zones) :
    ∀ m ∈ (serve D calls).meetings.rows, m.Stored D zones := by
  induction calls using List.reverseRecOn with
  | nil => exact fun m hm => absurd hm List.not_mem_nil
  | append_singleton calls c ih =>
    rw [serve_snoc]
    exact handle_stored (hcalls c (by simp)) (ih fun c' hc' => hcalls c' (by simp [hc']))

/-! ## The edit -/

/-- A duration is read back from its text. -/
theorem int_duration {n : Int} (h : 1 ≤ n ∧ n ≤ 480) : int (.str (toString n)) = .ok n := by
  have hall : ∀ k < 481, intOfStr (toString (k : Nat)) = .ok (k : Int) := by decide +kernel
  obtain ⟨k, rfl⟩ := Int.eq_ofNat_of_zero_le (a := n) (by omega)
  exact hall k (by omega)

/-- The fields of a response are accepted, with the content of its row. -/
theorem validate_edit {body : Dict} {r : MeetingResponse} (hr : MeetingResponse.ofRow m = .ok r)
    (hbody : validate (MeetingCreate.fields zones) body = .ok data.dump) (hm : m.HasContent data) :
    validate (MeetingCreate.fields zones) r.edit = .ok data.dump := by
  obtain ⟨createdAt, -, h⟩ := ok_of_bind hr
  cases h
  obtain ⟨hregular, htime⟩ := MeetingCreate.of_validate hbody
  have hpayload : IsPayload (MeetingResponse.edit { m with createdAt }) data.topic data.date
      data.startTime (.str (toString data.duration)) data.timeZone := by
    unfold MeetingResponse.edit
    rw [hm.topic, hm.date, hm.startTime, hm.duration, hm.timeZone]
    exact ⟨.inr ⟨_, rfl⟩, rfl, rfl, rfl, rfl, rfl⟩
  exact (MeetingCreate.validate_iff hpayload).2
    ⟨data.duration, int_duration hregular.duration, hregular, htime, rfl⟩

/-- A text that is there already is assigned as it is. -/
theorem Driver.assign_same {width : Nat} {s t : String} (h : s = t) :
    D.assign width s (.str t) = .ok s := by
  unfold Driver.assign
  rw [if_pos (congrArg Json.str h.symm)]

/-- Assigning its own content to a row changes the time of its last change only. -/
theorem Meeting.setattr_same (hm : m.HasContent data)
    (hduration : D.notNull 10 (.num (.int data.duration)) = .ok m.duration) :
    Meeting.setattr D fresh data m = .ok { m with updatedAt := some fresh.now } := by
  have hassign : D.assign 10 m.duration (.num (.int data.duration)) = .ok m.duration := by
    unfold Driver.assign
    rw [if_neg (by rintro ⟨⟩)]
    exact hduration
  unfold Meeting.setattr
  rw [Driver.assign_same hm.topic, Driver.assign_same hm.date, Driver.assign_same hm.startTime,
    hassign, Driver.assign_same hm.timeZone]
  rfl

/-- A user with the scope passes. -/
theorem requireScope_of_hasScope {scope : String} {user : UserInfo} (h : user.HasScope scope) :
    depends (requireScope scope (.ok (some user))) = .ok user := by
  have hnot : ¬ (scope ∉ user.scopes ∧ scope ++ "_agent" ∉ user.scopes) := by
    rw [not_and_or, not_not, not_not]
    exact h
  change (if scope ∉ user.scopes ∧ scope ++ "_agent" ∉ user.scopes then _ else Except.ok user :
    Except AuthExn UserInfo).mapError ApiExn.auth = _
  rw [if_neg hnot]
  rfl

/-- A comparison is one with the operand. -/
theorem Driver.equals_of_operand {v : Json} {operand : Option String}
    (h : D.operand v = some operand) :
    D.equals v = .ok fun column => decide (operand = some column) := by
  unfold Driver.equals
  rw [h]

/-- A handler of one meeting finds it for a user of its organization. -/
theorem withMeeting_found {α : Type} {db : Database} {user : UserInfo} (hin : m ∈ db.meetings.rows)
    (hid : D.operand (.str m.id) ≠ none) (horg : D.operand user.org = some (some m.org))
    (act : Meeting → Handler α) :
    (withMeeting D m.id user act).outcome db = (act m).outcome db := by
  obtain ⟨operand, hop⟩ := Option.ne_none_iff_exists'.1 hid
  obtain rfl := D.operand_str hop
  have hfirst : (Meeting.table.table db).first (fun x => decide (some m.id = some x.id) &&
      decide (some m.org = some x.org)) = some m := by
    cases hf : (Meeting.table.table db).first (fun x => decide (some m.id = some x.id) &&
        decide (some m.org = some x.org)) with
    | none =>
      have hq := Table.of_first_none hf hin
      simp at hq
    | some x =>
      obtain ⟨hx, hq⟩ := Table.mem_of_first hf
      have hboth : m.id = x.id ∧ m.org = x.org := by simpa using hq
      rw [Table.eq_of_key hx hin hboth.1.symm]
  unfold withMeeting Part.first
  rw [Driver.equals_of_operand hop, Driver.equals_of_operand horg, Transaction.outcome_ok_bind,
    Transaction.outcome_ok_bind, Transaction.outcome_read_bind, hfirst]

/-- A PUT of a row's own content is answered with the row, which has a new time of change. -/
theorem updateMeeting_same {db : Database} {user : UserInfo} (hin : m ∈ db.meetings.rows)
    (hid : D.operand (.str m.id) ≠ none) (horg : D.operand user.org = some (some m.org))
    (hscope : user.HasScope "update_meeting") (hm : m.HasContent data)
    (hduration : D.notNull 10 (.num (.int data.duration)) = .ok m.duration) :
    (updateMeeting D (.ok (some user)) fresh m.id (.ok data)).outcome db =
      (.ok { m with updatedAt := some fresh.now },
        { db with meetings := db.meetings.update { m with updatedAt := some fresh.now } }) := by
  unfold updateMeeting validated
  rw [requireScope_of_hasScope hscope, Transaction.outcome_ok_bind]
  refine (withMeeting_found hin hid horg _).trans ?_
  rw [Meeting.setattr_same hm hduration, Transaction.outcome_ok_bind]
  rfl

end

/-! ## The round trip -/

/-- The user of the call may update a meeting of this organization. -/
def Call.MayUpdate (D : Driver) (c : Call) (org : String) : Prop :=
  ∃ user, c.user = .ok (some user) ∧ user.HasScope "update_meeting" ∧
    D.operand user.org = some (some org)

/-- After any calls, the five fields of the response of a stored meeting are accepted. A PUT of them
is answered with the same response, and all that it changes is when the row was last changed. -/
theorem edit_round_trip {D : Driver} {zones : List String} {calls : List Call}
    (hcalls : ∀ c ∈ calls, c.Validated zones) {m : Meeting}
    (hm : m ∈ (serve D calls).meetings.rows) (hid : D.operand (.str m.id) ≠ none)
    {r : MeetingResponse} (hr : MeetingResponse.ofRow m = .ok r) :
    ∃ data, validate (MeetingCreate.fields zones) r.edit = .ok data.dump ∧
      ∀ c : Call, c.request = .updateMeeting r.id (.ok data) → c.MayUpdate D m.org →
        handle D c (serve D calls) = (⟨200, .meeting r⟩,
          { serve D calls with meetings :=
            (serve D calls).meetings.update { m with updatedAt := some c.fresh.now } }) := by
  obtain ⟨body, data, hbody, hcontent, hduration⟩ := serve_stored hcalls m hm
  refine ⟨data, validate_edit hr hbody hcontent, fun c hrequest hmay => ?_⟩
  obtain ⟨user, huser, hscope, horg⟩ := hmay
  obtain ⟨createdAt, hcreated, hr⟩ := ok_of_bind hr
  cases hr
  have hbody : meetingBody { m with updatedAt := some c.fresh.now } =
      .ok (.meeting { m with createdAt }) := by
    unfold meetingBody MeetingResponse.ofRow
    rw [hcreated]
    rfl
  unfold handle
  rw [hrequest]
  refine respond_ok ?_ hbody
  rw [huser]
  exact updateMeeting_same hm hid horg hscope hcontent hduration

/-- A meeting that is created. -/
def standup : MeetingCreate := ⟨"Standup", "2026-01-05", "09:30", 30, "UTC"⟩

/-- Its creation. -/
def standupCreation : Call where
  claims := .ok (some [("sub", .str "u"), ("org_id", .str "a"), ("scope", .str "create_meeting")])
  service := none
  request := .createMeeting (.ok standup)
  fresh := ⟨"k", 0, 0⟩

/-- Its row. -/
def standupRow : Meeting :=
  ⟨"k", "a", some 0, some 0, "Standup", "2026-01-05", "09:30", "30", "UTC", "u", some "", none⟩

/-- Its response. -/
def standupResponse : MeetingResponse :=
  ⟨"k", "a", 0, "Standup", "2026-01-05", "09:30", "30", "UTC", "u", some "", none⟩

/-- An edit of it, a second later, by another user of the organization. -/
def standupEdit (data : MeetingCreate) : Call where
  claims := .ok (some [("sub", .str "v"), ("org_id", .str "a"), ("scope", .str "update_meeting")])
  service := none
  request := .updateMeeting "k" (.ok data)
  fresh := ⟨"l", 1000000, 1000000⟩

/-- The creation of the example has been validated. -/
theorem standupCreation_validated : standupCreation.Validated ["UTC"] := by
  rintro data (h | ⟨id, h⟩)
  · cases h
    exact ⟨payloadAt "09:30", by decide +kernel⟩
  · cases h

/-- The standup is edited as it is shown, and only the time of its change is new. -/
theorem edit_round_trip_standup :
    ∃ data, validate (MeetingCreate.fields ["UTC"]) standupResponse.edit = .ok data.dump ∧
      handle .sqlite (standupEdit data) (serve .sqlite [standupCreation]) =
        (⟨200, .meeting standupResponse⟩, { serve .sqlite [standupCreation] with
          meetings := (serve .sqlite [standupCreation]).meetings.update
            { standupRow with updatedAt := some 1000000 } }) := by
  obtain ⟨data, hvalid, h⟩ := edit_round_trip (D := .sqlite) (m := standupRow)
    (List.forall_mem_singleton.2 standupCreation_validated) (by decide +kernel) (by decide)
    (r := standupResponse) rfl
  refine ⟨data, hvalid, h (standupEdit data) rfl ?_⟩
  exact ⟨⟨.str "v", .str "a", .str "", ["update_meeting"], .arr [], .str "",
    .str "APPLICATION_USER"⟩, rfl, .inl (by decide), rfl⟩

end Teamspace.Api
