import Teamspace.Api.Routers

/-!
# What a request writes

Each request writes one table at most: what does not see that table stays as it was
(`handle_keeps`). The rows of the table of plans are those of before, and what an accepted `POST
/plans` saves (`handle_plan_rows`).
-/

namespace Teamspace.Api

open Teamspace.Py Teamspace.Common Teamspace.Lib

/-! ## Failures of the database -/

/-- What the computation raises is a failure of the database. -/
structure FailsInside {α : Type} (x : Except ApiExn α) : Prop where
  eq : ∀ e, x = .error e → e = .database

section

variable {α β : Type} {D : Driver}

/-- A value is no failure. -/
theorem FailsInside.ok (a : α) : FailsInside (.ok a) := ⟨fun _ h => by cases h⟩

/-- An error of the database is one inside the server. -/
theorem FailsInside.error : FailsInside (.error .database : Except ApiExn α) :=
  ⟨fun _ h => (Except.error.inj h).symm⟩

/-- Two steps fail inside if each of them does. -/
theorem FailsInside.bind {x : Except ApiExn α} {f : α → Except ApiExn β} (hx : FailsInside x)
    (hf : ∀ a, FailsInside (f a)) : FailsInside (x >>= f) := by
  cases x with
  | ok a => exact hf a
  | error e =>
    obtain rfl := hx.eq e rfl
    exact .error

/-- A comparison fails inside. -/
theorem failsInside_equals (v : Json) : FailsInside (D.equals v) := by
  unfold Driver.equals
  split
  · exact .error
  · exact .ok _

/-- The write of a value fails inside. -/
theorem failsInside_notNull (width : Nat) (v : Json) : FailsInside (D.notNull width v) := by
  unfold Driver.notNull
  split
  · exact .ok _
  · exact .error

/-- So does that of a value that may be missing. -/
theorem failsInside_nullable (width : Nat) (v : Json) : FailsInside (D.nullable width v) := by
  unfold Driver.nullable
  split
  · exact .error
  · exact .ok _

/-- An assignment fails inside. -/
theorem failsInside_assign (width : Nat) (old : String) (new : Json) :
    FailsInside (D.assign width old new) := by
  unfold Driver.assign
  split
  · exact .ok _
  · exact failsInside_notNull ..

/-- So does that of a value that may be missing. -/
theorem failsInside_assignNullable (width : Nat) (old new : Option String) :
    FailsInside (D.assignNullable width old new) := by
  unfold Driver.assignNullable
  split
  · exact .ok _
  · exact failsInside_nullable ..

variable (fresh : Fresh)

/-- The creation of a meeting fails inside. -/
theorem Meeting.failsInside_create (data : MeetingCreate) (user : UserInfo) :
    FailsInside (Meeting.create D fresh data user) := by
  refine .bind (failsInside_notNull ..) fun _ => .bind (failsInside_notNull ..) fun _ => ?_
  refine .bind (failsInside_notNull ..) fun _ => .bind (failsInside_notNull ..) fun _ => ?_
  refine .bind (failsInside_notNull ..) fun _ => .bind (failsInside_notNull ..) fun _ => ?_
  refine .bind (failsInside_notNull ..) fun _ => .bind (failsInside_nullable ..) fun _ => ?_
  exact .bind (failsInside_nullable ..) fun _ => .ok _

/-- So does a change of a meeting. -/
theorem Meeting.failsInside_setattr (data : MeetingCreate) (m : Meeting) :
    FailsInside (Meeting.setattr D fresh data m) := by
  refine .bind (failsInside_assign ..) fun _ => .bind (failsInside_assign ..) fun _ => ?_
  refine .bind (failsInside_assign ..) fun _ => .bind (failsInside_assign ..) fun _ => ?_
  exact .bind (failsInside_assign ..) fun _ => .ok _

/-- The creation of an agent configuration fails inside. -/
theorem AgentConfig.failsInside_create (data : AgentConfigCreate) :
    FailsInside (AgentConfig.create D fresh data) := by
  refine .bind (failsInside_notNull ..) fun _ => .bind (failsInside_notNull ..) fun _ => ?_
  refine .bind (failsInside_notNull ..) fun _ => .bind (failsInside_notNull ..) fun _ => ?_
  refine .bind (failsInside_nullable ..) fun _ => .bind (failsInside_nullable ..) fun _ => ?_
  refine .bind (failsInside_nullable ..) fun _ => .bind (failsInside_nullable ..) fun _ => ?_
  exact .bind (failsInside_nullable ..) fun _ => .ok _

/-- So does a change of one. -/
theorem AgentConfig.failsInside_setattr (data : AgentConfigCreate) (existing : AgentConfig) :
    FailsInside (AgentConfig.setattr D fresh data existing) := by
  refine .bind (failsInside_assign ..) fun _ => .bind (failsInside_assign ..) fun _ => ?_
  refine .bind (failsInside_assign ..) fun _ => .bind (failsInside_assignNullable ..) fun _ => ?_
  refine .bind (failsInside_assignNullable ..) fun _ => ?_
  refine .bind (failsInside_assignNullable ..) fun _ => ?_
  refine .bind (failsInside_assignNullable ..) fun _ => ?_
  exact .bind (failsInside_assignNullable ..) fun _ => .ok _

/-- The creation of a personalization fails inside. -/
theorem Personalization.failsInside_create (data : PersonalizationUpsert) :
    FailsInside (Personalization.create D fresh data) := by
  refine .bind (failsInside_notNull ..) fun _ => .bind (failsInside_nullable ..) fun _ => ?_
  refine .bind (failsInside_nullable ..) fun _ => .bind (failsInside_nullable ..) fun _ => ?_
  refine .bind (failsInside_nullable ..) fun _ => .bind (failsInside_nullable ..) fun _ => .ok _

/-- So does a change of one. -/
theorem Personalization.failsInside_setattr (data : PersonalizationUpsert)
    (existing : Personalization) : FailsInside (Personalization.setattr D fresh data existing) := by
  refine .bind (failsInside_assignNullable ..) fun _ => ?_
  refine .bind (failsInside_assignNullable ..) fun _ => ?_
  refine .bind (failsInside_assignNullable ..) fun _ => ?_
  refine .bind (failsInside_assignNullable ..) fun _ => ?_
  exact .bind (failsInside_assignNullable ..) fun _ => .ok _

/-- The creation of a plan fails inside. -/
theorem OrganizationPlan.failsInside_create (data : OrganizationPlanUpsert) :
    FailsInside (OrganizationPlan.create D fresh data) :=
  .bind (failsInside_notNull ..) fun _ => .bind (failsInside_notNull ..) fun _ => .ok _

/-- So does a change of one. -/
theorem OrganizationPlan.failsInside_setattr (data : OrganizationPlanUpsert)
    (existing : OrganizationPlan) :
    FailsInside (OrganizationPlan.setattr D fresh data existing) :=
  .bind (failsInside_assign ..) fun _ => .ok _

end

/-! ## Tables with one row for an organization -/

section

variable {D : Driver} {db : Database} {ρ τ : Type} {key : ρ → String}
  {T : Part Database.rowsOf ρ key} {q : Database → τ}

/-- A read keeps the database. -/
theorem ofOrg_keeps (org detail : String) : q ((ofOrg D T org detail).outcome db).2 = q db := by
  let R (out : Except ApiExn ρ × Database) : Prop := q out.2 = q db
  change R _
  refine Transaction.of_check (fun _ => rfl) fun isOrg _ => ?_
  exact Part.of_first rfl fun _ _ _ => rfl

/-- A write keeps what does not depend on its table. -/
theorem upsert_keeps (hT : ∀ t, q (T.replace db t) = q db) (org : String)
    (setattr : ρ → Except ApiExn ρ) (create : Except ApiExn ρ) :
    q ((upsert D T org setattr create).outcome db).2 = q db := by
  let R (out : Except ApiExn ρ × Database) : Prop := q out.2 = q db
  change R _
  refine Transaction.of_check (fun _ => rfl) fun isOrg _ => Part.of_first ?_ fun _ _ _ => ?_
  · exact Transaction.of_check (fun _ => rfl) fun row _ => Part.of_insert rfl fun t _ => hT t
  · exact Transaction.of_check (fun _ => rfl) fun row _ => hT _

/-- So does a deletion. -/
theorem deleteOfOrg_keeps (hT : ∀ t, q (T.replace db t) = q db) (org : String) :
    q ((deleteOfOrg D T org).outcome db).2 = q db := by
  let R (out : Except ApiExn Unit × Database) : Prop := q out.2 = q db
  change R _
  exact Transaction.of_check (fun _ => rfl) fun isOrg _ => hT _

/-- An upsert fails and leaves the table, or assigns to the row of the organization, or creates
it. -/
theorem upsert_outcome (org : String) (setattr : ρ → Except ApiExn ρ) (create : Except ApiExn ρ)
    (db : Database) :
    (∃ e, (upsert D T org setattr create).outcome db = (.error e, db)) ∨
      (∃ old ∈ (T.table db).rows, ∃ row, T.owner old = org ∧ setattr old = .ok row ∧
        (upsert D T org setattr create).outcome db =
          (.ok row, T.replace db ((T.table db).update row))) ∨
      ∃ row t, (∀ old ∈ (T.table db).rows, T.owner old ≠ org) ∧ create = .ok row ∧
        (T.table db).insert row = some t ∧
        (upsert D T org setattr create).outcome db = (.ok row, T.replace db t) := by
  let R (out : Except ApiExn ρ × Database) : Prop :=
    (∃ e, out = (.error e, db)) ∨
      (∃ old ∈ (T.table db).rows, ∃ row, T.owner old = org ∧ setattr old = .ok row ∧
        out = (.ok row, T.replace db ((T.table db).update row))) ∨
      ∃ row t, (∀ old ∈ (T.table db).rows, T.owner old ≠ org) ∧ create = .ok row ∧
        (T.table db).insert row = some t ∧ out = (.ok row, T.replace db t)
  have failed (e : ApiExn) : R (.error e, db) := .inl ⟨e, rfl⟩
  change R _
  refine Transaction.of_check failed fun isOrg hisOrg => ?_
  have howner (r : ρ) : isOrg (T.owner r) = true ↔ T.owner r = org := Driver.equals_str hisOrg
  cases hfirst : (T.table db).first fun r => isOrg (T.owner r) with
  | some old =>
    obtain ⟨hold, hq⟩ := Table.mem_of_first hfirst
    unfold Part.first
    rw [Transaction.outcome_read_bind, hfirst]
    refine Transaction.of_check failed fun row hrow => ?_
    exact .inr (.inl ⟨old, hold, row, (howner old).1 hq, hrow, rfl⟩)
  | none =>
    unfold Part.first
    rw [Transaction.outcome_read_bind, hfirst]
    refine Transaction.of_check failed fun row hrow => Part.of_insert (failed _) fun t ht => ?_
    refine .inr (.inr ⟨row, t, fun old hold hown => ?_, hrow, ht, rfl⟩)
    exact Bool.false_ne_true ((Table.of_first_none hfirst hold).symm.trans ((howner old).2 hown))

end

/-! ## Frames -/

section

variable {D : Driver} {τ : Type}

/-- `q` does not see the table that the request may write. -/
def Request.Unseen (q : Database → τ) : Request → Prop
  | .createMeeting _ | .updateMeeting _ _ | .deleteMeeting _ =>
    ∀ db t, q { db with meetings := t } = q db
  | .upsertPersonalization _ | .deletePersonalizationByOrg _ =>
    ∀ db t, q { db with personalizations := t } = q db
  | .createAgentConfig _ | .deleteAgentConfig _ => ∀ db t, q { db with agentConfigs := t } = q db
  | .upsertPlan _ => ∀ db t, q { db with organizationPlans := t } = q db
  | .listMeetings | .getMeeting _ | .getPersonalization _ | .getAgentConfig _ | .getPlan _ => True

/-- A handler of one meeting keeps what its action keeps. -/
theorem withMeeting_keeps {α : Type} {q : Database → τ} {db : Database} {meetingId : String}
    {user : UserInfo} {act : Meeting → Handler α} (hact : ∀ m, q ((act m).outcome db).2 = q db) :
    q ((withMeeting D meetingId user act).outcome db).2 = q db := by
  let R (out : Except ApiExn α × Database) : Prop := q out.2 = q db
  change R _
  refine Transaction.of_check (fun _ => rfl) fun _ _ => ?_
  exact Transaction.of_check (fun _ => rfl) fun _ _ => Part.of_first rfl fun m _ _ => hact m

/-- What does not see the table that a request writes stays as it was. -/
theorem handle_keeps {q : Database → τ} (c : Call) (db : Database) (h : c.request.Unseen q) :
    q (handle D c db).2 = q db := by
  obtain ⟨claims, service, request, fresh⟩ := c
  let R {α : Type} (out : Except ApiExn α × Database) : Prop := q out.2 = q db
  have failed {α : Type} (e : ApiExn) : R ((.error e, db) : Except ApiExn α × Database) := rfl
  cases request with
  | listMeetings =>
    change R ((listMeetings D _).outcome db)
    exact Transaction.of_check failed fun _ _ => Transaction.of_check failed fun _ _ => rfl
  | createMeeting data =>
    change R ((createMeeting D _ fresh data).outcome db)
    refine Transaction.of_check failed fun _ _ => Transaction.of_check failed fun _ _ => ?_
    exact Transaction.of_check failed fun _ _ => Part.of_insert (failed _) fun t _ => h db t
  | getMeeting meetingId =>
    change R ((getMeeting D _ meetingId).outcome db)
    exact Transaction.of_check failed fun _ _ => withMeeting_keeps fun _ => rfl
  | updateMeeting meetingId data =>
    change R ((updateMeeting D _ fresh meetingId data).outcome db)
    refine Transaction.of_check failed fun _ _ => Transaction.of_check failed fun _ _ => ?_
    exact withMeeting_keeps fun _ =>
      Transaction.of_check (R := fun out => q out.2 = q db) (fun _ => rfl) fun _ _ => h db _
  | deleteMeeting meetingId =>
    change R ((deleteMeeting D _ meetingId).outcome db)
    exact Transaction.of_check failed fun _ _ => withMeeting_keeps fun _ => h db _
  | getPersonalization orgId =>
    change R ((getPersonalization D _ orgId).outcome db)
    refine Transaction.of_check failed fun _ _ => Transaction.of_check failed fun _ _ => ?_
    exact ofOrg_keeps ..
  | upsertPersonalization data =>
    change R ((upsertPersonalization D _ fresh data).outcome db)
    refine Transaction.of_check failed fun _ _ => Transaction.of_check failed fun _ _ => ?_
    exact Transaction.of_check failed fun _ _ => upsert_keeps (h db) ..
  | deletePersonalizationByOrg orgId =>
    change R ((deletePersonalizationByOrg D _ orgId).outcome db)
    refine Transaction.of_check failed fun _ _ => Transaction.of_check failed fun _ _ => ?_
    exact deleteOfOrg_keeps (h db) ..
  | getAgentConfig orgId =>
    change R ((getAgentConfig D _ orgId service).outcome db)
    refine Transaction.of_check failed fun _ _ => Transaction.of_check failed fun _ _ => ?_
    exact ofOrg_keeps ..
  | createAgentConfig data =>
    change R ((createAgentConfig D _ fresh data).outcome db)
    refine Transaction.of_check failed fun _ _ => Transaction.of_check failed fun _ _ => ?_
    exact Transaction.of_check failed fun _ _ => upsert_keeps (h db) ..
  | deleteAgentConfig orgId =>
    change R ((deleteAgentConfig D _ orgId).outcome db)
    refine Transaction.of_check failed fun _ _ => Transaction.of_check failed fun _ _ => ?_
    exact deleteOfOrg_keeps (h db) ..
  | getPlan orgId => exact ofOrg_keeps ..
  | upsertPlan data =>
    change R ((upsertPlan D _ fresh data).outcome db)
    refine Transaction.of_check failed fun _ _ => Transaction.of_check failed fun _ _ => ?_
    refine Transaction.of_check failed fun _ _ => Transaction.of_check failed fun _ _ => ?_
    exact upsert_keeps (h db) ..

end

/-! ## Plans -/

section

variable {D : Driver} {fresh : Fresh} {data : OrganizationPlanUpsert}

/-- A plan is created as it was sent. -/
theorem OrganizationPlan.create_plan {r : OrganizationPlan}
    (h : OrganizationPlan.create D fresh data = .ok r) : r.plan = data.plan := by
  unfold OrganizationPlan.create at h
  obtain ⟨_, -, h⟩ := ok_of_bind h
  obtain ⟨plan, hplan, h⟩ := ok_of_bind h
  cases h
  exact D.notNull_str hplan

/-- A plan is changed to what was sent. -/
theorem OrganizationPlan.setattr_plan {existing r : OrganizationPlan}
    (h : OrganizationPlan.setattr D fresh data existing = .ok r) : r.plan = data.plan := by
  unfold OrganizationPlan.setattr at h
  obtain ⟨plan, hplan, h⟩ := ok_of_bind h
  cases h
  split
  · next heq =>
    rw [← heq]
    exact D.assign_str hplan
  · exact D.assign_str hplan

end

/-- The call is a `POST /plans` that passes the checks of its handler. -/
def Call.Posts (c : Call) (data : OrganizationPlanUpsert) : Prop :=
  c.request = .upsertPlan (.ok data) ∧ ∃ user, c.user = .ok (some user) ∧ user.org = .str data.org

/-- The organization that passes the check is the user's. -/
theorem checkOrg_ok {org : String} {user : UserInfo} (h : checkOrg org user = .ok ()) :
    user.org = .str org := by
  unfold checkOrg at h
  split at h
  · cases h
  · next hne => exact (not_not.1 hne).symm

/-- A body that passes is one that was parsed. -/
theorem validated_ok {α : Type} {data : Parsed α} {d : α} (h : validated data = .ok d) :
    data = .ok d := by
  cases data with
  | error e => cases h
  | ok d' =>
    cases h
    rfl

/-- A stored plan was stored before, or is what the call posts. -/
theorem handle_plan_rows {D : Driver} {c : Call} {db : Database} {p : OrganizationPlan}
    (hp : p ∈ (handle D c db).2.organizationPlans.rows) :
    p ∈ db.organizationPlans.rows ∨ ∃ data, c.Posts data ∧ p.plan = data.plan := by
  obtain ⟨claims, service, request, fresh⟩ := c
  have kept (h : request.Unseen Database.organizationPlans) : p ∈ db.organizationPlans.rows ∨
      ∃ data, Call.Posts ⟨claims, service, request, fresh⟩ data ∧ p.plan = data.plan := by
    rw [handle_keeps (q := Database.organizationPlans) ⟨claims, service, request, fresh⟩ db h] at hp
    exact .inl hp
  cases request with
  | listMeetings | getMeeting | getPersonalization | getAgentConfig | getPlan => exact kept trivial
  | createMeeting | updateMeeting | deleteMeeting | upsertPersonalization
  | deletePersonalizationByOrg | createAgentConfig | deleteAgentConfig =>
    exact kept fun _ _ => rfl
  | upsertPlan parsed =>
    let R (out : Except ApiExn OrganizationPlan × Database) : Prop :=
      ∀ p ∈ out.2.organizationPlans.rows, p ∈ db.organizationPlans.rows ∨
        ∃ data, Call.Posts ⟨claims, service, .upsertPlan parsed, fresh⟩ data ∧ p.plan = data.plan
    have failed (e : ApiExn) : R (.error e, db) := fun p hp => .inl hp
    suffices h : R ((upsertPlan D (userOf claims) fresh parsed).outcome db) from h p hp
    refine Transaction.of_check failed fun _ _ => Transaction.of_check failed fun data hdata => ?_
    refine Transaction.of_check failed fun user huser => Transaction.of_check failed fun _ horg => ?_
    have hposts : Call.Posts ⟨claims, service, .upsertPlan parsed, fresh⟩ data :=
      ⟨by rw [validated_ok hdata], user, currentUser_ok huser, checkOrg_ok horg⟩
    obtain ⟨e, he⟩ | ⟨old, hold, row, -, hrow, hout⟩ | ⟨row, t, -, hrow, ht, hout⟩ :=
      upsert_outcome (D := D) (T := OrganizationPlan.table) data.org
        (OrganizationPlan.setattr D fresh data) (OrganizationPlan.create D fresh data) db
    · rw [he]
      exact failed e
    · rw [hout]
      intro p hp
      obtain rfl | ⟨hp, -⟩ := Table.mem_update hp
      · exact .inr ⟨data, hposts, OrganizationPlan.setattr_plan hrow⟩
      · exact .inl hp
    · rw [hout]
      intro p hp
      have hp : p ∈ t.rows := hp
      rw [(Table.rows_of_insert ht).2] at hp
      obtain hp | hp := List.mem_append.1 hp
      · exact .inl hp
      · rw [List.mem_singleton.1 hp]
        exact .inr ⟨data, hposts, OrganizationPlan.create_plan hrow⟩

end Teamspace.Api
