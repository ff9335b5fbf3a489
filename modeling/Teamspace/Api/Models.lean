import Mathlib.Algebra.Group.Int.Defs
import Teamspace.Lib.Confinement
import Teamspace.Api.Auth

/-!
# The database of the Business API

The four tables of `api/models.py`, the request models of `api/schemas.py` and what the database
driver makes of the values that the routers hand to it. A claim of a token can be any JSON value,
and it is written to a text column, or compared with one, as the driver converts it.
-/

namespace Teamspace.Api

open Teamspace.Py Teamspace.Common Teamspace.Lib

/-- A point in time, in microseconds. -/
abbrev DateTime := Int

/-- Why a request is not answered by its handler's result. -/
inductive ApiExn
  | auth (e : AuthExn)
  /-- The request body is not what the handler takes, with the content of the answer. -/
  | requestValidation (content : Json)
  /-- The database or its driver refuses a statement. -/
  | database
  /-- The result does not fit the response model. -/
  | responseValidation
  deriving DecidableEq, Repr

/-- What the database and its driver make of a value. -/
structure Driver where
  /-- The content of a text column of this width to which the value is written, if it can be:
  `some none` is `NULL`. -/
  text : Nat → Json → Option (Option String)
  /-- The text with which a column is compared, if it can be. -/
  operand : Json → Option (Option String)
  text_str : ∀ {width s v}, text width (.str s) = some v → v = some s
  text_int : ∀ {width n v}, text width (.num (.int n)) = some v → v = some (toString n)
  operand_str : ∀ {s v}, operand (.str s) = some v → v = some s

namespace Driver

/-- SQLite, but for the texts of floating point numbers. A list or a `dict` cannot be bound, and
neither can an integer of more than 64 bits. -/
def sqlite : Driver :=
  let bind : Json → Option (Option String) := fun
    | .null => some none
    | .str s => some (some s)
    | .bool b => some (some (if b then "1" else "0"))
    | .num (.int n) => if -2 ^ 63 ≤ n ∧ n < 2 ^ 63 then some (some (toString n)) else none
    | _ => none
  { text := fun _ => bind
    operand := bind
    text_str := fun h => (Option.some.inj h).symm
    text_int := fun {_ n v} h => by
      change (if -2 ^ 63 ≤ n ∧ n < 2 ^ 63 then some (some (toString n)) else none) = some v at h
      split at h
      · exact (Option.some.inj h).symm
      · cases h
    operand_str := fun h => (Option.some.inj h).symm }

variable (D : Driver)

/-- `column == v` in a `WHERE` clause. `NULL` equals nothing. -/
def equals (v : Json) : Except ApiExn (String → Bool) :=
  match D.operand v with
  | none => .error .database
  | some operand => .ok fun column => decide (operand = some column)

/-- What is written to a column. -/
def nullable (width : Nat) (v : Json) : Except ApiExn (Option String) :=
  match D.text width v with
  | none => .error .database
  | some column => .ok column

/-- What is written to a column that is `NOT NULL`. -/
def notNull (width : Nat) (v : Json) : Except ApiExn String :=
  match D.text width v with
  | some (some column) => .ok column
  | _ => .error .database

/-- What an assignment leaves in a column that is `NOT NULL`: an unchanged value is not written. -/
def assign (width : Nat) (old : String) (new : Json) : Except ApiExn String :=
  if new = .str old then .ok old else D.notNull width new

/-- What an assignment leaves in a column. -/
def assignNullable (width : Nat) (old new : Option String) : Except ApiExn (Option String) :=
  if new = old then .ok old else D.nullable width ((new.map .str).getD .null)

variable {D}

/-- A comparison compares with the operand. -/
theorem equals_ok {v : Json} {isV : String → Bool} (h : D.equals v = .ok isV) {column : String} :
    isV column = true ↔ D.operand v = some (some column) := by
  unfold equals at h
  split at h
  · cases h
  · next operand hop =>
    cases h
    rw [hop, decide_eq_true_iff, Option.some_inj]

/-- A comparison with a text compares with that text. -/
theorem equals_str {o : String} {isOrg : String → Bool} (h : D.equals (.str o) = .ok isOrg)
    {column : String} : isOrg column = true ↔ column = o := by
  refine (equals_ok h).trans ⟨fun hc => Option.some.inj (D.operand_str hc), fun hc => ?_⟩
  unfold equals at h
  split at h
  · cases h
  · next operand hop => rw [hop, D.operand_str hop, hc]

/-- A value that is written is the text that the driver makes of it. -/
theorem notNull_eq {width : Nat} {v : Json} {column : String} (h : D.notNull width v = .ok column) :
    D.text width v = some (some column) := by
  unfold notNull at h
  split at h
  · next c hc =>
    cases h
    exact hc
  · cases h

/-- So is one that may be missing. -/
theorem nullable_eq {width : Nat} {v : Json} {column : Option String}
    (h : D.nullable width v = .ok column) : D.text width v = some column := by
  unfold nullable at h
  split at h
  · cases h
  · next c hc =>
    cases h
    exact hc

/-- A string is written as it is. -/
theorem notNull_str {width : Nat} {s column : String} (h : D.notNull width (.str s) = .ok column) :
    column = s := Option.some.inj (D.text_str (notNull_eq h))

/-- So is one that is assigned. -/
theorem assign_str {width : Nat} {old s column : String}
    (h : D.assign width old (.str s) = .ok column) : column = s := by
  unfold assign at h
  split at h
  · next hs =>
    cases h
    exact (Json.str.inj hs).symm
  · exact notNull_str h

/-- An integer is written with its digits. -/
theorem notNull_int {width : Nat} {n : Int} {column : String}
    (h : D.notNull width (.num (.int n)) = .ok column) : column = toString n :=
  Option.some.inj (D.text_int (notNull_eq h))

/-- So is one that is assigned. -/
theorem assign_int {width : Nat} {old : String} {n : Int} {column : String}
    (h : D.assign width old (.num (.int n)) = .ok column) : column = toString n := by
  unfold assign at h
  split at h
  · next hs => cases hs
  · exact notNull_int h

end Driver

/-! ## Request models -/

/-- `MeetingCreate`. -/
structure MeetingCreate where
  topic : String
  date : String
  startTime : String
  duration : Int
  timeZone : String
  deriving DecidableEq, Repr

/-- `AgentConfigCreate`. -/
structure AgentConfigCreate where
  org : String
  agentId : String
  agentSecret : String
  displayName : String
  description : Option String
  geminiApiKey : Option String
  orgClientId : Option String
  orgClientSecret : Option String
  customPrompt : Option String
  deriving DecidableEq, Repr

/-- `PersonalizationUpsert`. -/
structure PersonalizationUpsert where
  org : String
  logoUrl : Option String
  logoAltText : Option String
  faviconUrl : Option String
  primaryColor : Option String
  secondaryColor : Option String
  deriving DecidableEq, Repr

/-- `OrganizationPlanUpsert`. -/
structure OrganizationPlanUpsert where
  org : String
  plan : String
  deriving DecidableEq, Repr

/-! ## Rows -/

/-- What a request draws: a new id, the time of the service and the time of the database. -/
structure Fresh where
  id : String
  createdAt : DateTime
  now : DateTime
  deriving DecidableEq, Repr

/-- `Meeting`. -/
structure Meeting where
  id : String
  org : String
  createdAt : Option DateTime
  updatedAt : Option DateTime
  topic : String
  date : String
  startTime : String
  duration : String
  timeZone : String
  userId : String
  emailAddress : Option String
  actorUserId : Option String
  deriving DecidableEq, Repr

/-- `AgentConfig`. -/
structure AgentConfig extends AgentConfigCreate where
  createdAt : Option DateTime
  updatedAt : Option DateTime
  deriving DecidableEq, Repr

/-- `Personalization`. -/
structure Personalization extends PersonalizationUpsert where
  updatedAt : Option DateTime
  deriving DecidableEq, Repr

/-- `OrganizationPlan`. -/
structure OrganizationPlan extends OrganizationPlanUpsert where
  updatedAt : Option DateTime
  deriving DecidableEq, Repr

/-- The database. -/
structure Database where
  meetings : Table Meeting Meeting.id
  agentConfigs : Table AgentConfig fun c => c.org
  personalizations : Table Personalization fun p => p.org
  organizationPlans : Table OrganizationPlan fun p => p.org

/-- The rows of an organization. -/
structure OrgRows where
  meetings : List Meeting
  agentConfigs : List AgentConfig
  personalizations : List Personalization
  organizationPlans : List OrganizationPlan

namespace Database

/-- The database without rows. -/
def empty : Database := ⟨.empty, .empty, .empty, .empty⟩

/-- The rows whose `org` is `o`. -/
def rowsOf (o : String) (db : Database) : OrgRows where
  meetings := db.meetings.select fun m => decide (m.org = o)
  agentConfigs := db.agentConfigs.select fun c => decide (c.org = o)
  personalizations := db.personalizations.select fun p => decide (p.org = o)
  organizationPlans := db.organizationPlans.select fun p => decide (p.org = o)

end Database

/-- The table `meetings`. -/
def Meeting.table : Part Database.rowsOf Meeting Meeting.id where
  owner := Meeting.org
  table := Database.meetings
  replace db t := { db with meetings := t }
  shown := OrgRows.meetings
  replaceShown rows l := { rows with meetings := l }
  shown_view _ _ := rfl
  view_replace _ _ _ := rfl
  replaceShown_shown _ := rfl

/-- The table `agent_configs`. -/
def AgentConfig.table : Part Database.rowsOf AgentConfig fun c => c.org where
  owner c := c.org
  table := Database.agentConfigs
  replace db t := { db with agentConfigs := t }
  shown := OrgRows.agentConfigs
  replaceShown rows l := { rows with agentConfigs := l }
  shown_view _ _ := rfl
  view_replace _ _ _ := rfl
  replaceShown_shown _ := rfl

/-- The table `personalizations`. -/
def Personalization.table : Part Database.rowsOf Personalization fun p => p.org where
  owner p := p.org
  table := Database.personalizations
  replace db t := { db with personalizations := t }
  shown := OrgRows.personalizations
  replaceShown rows l := { rows with personalizations := l }
  shown_view _ _ := rfl
  view_replace _ _ _ := rfl
  replaceShown_shown _ := rfl

/-- The table `organization_plans`. -/
def OrganizationPlan.table : Part Database.rowsOf OrganizationPlan fun p => p.org where
  owner p := p.org
  table := Database.organizationPlans
  replace db t := { db with organizationPlans := t }
  shown := OrgRows.organizationPlans
  replaceShown rows l := { rows with organizationPlans := l }
  shown_view _ _ := rfl
  view_replace _ _ _ := rfl
  replaceShown_shown _ := rfl

/-! ## Writing rows -/

section

variable (D : Driver) (fresh : Fresh)

/-- The row that `Meeting(...)` becomes in `create_meeting`. -/
def Meeting.create (data : MeetingCreate) (user : UserInfo) : Except ApiExn Meeting := do
  return {
    id := fresh.id
    org := ← D.notNull 200 user.org
    createdAt := some fresh.createdAt
    updatedAt := some fresh.now
    topic := ← D.notNull 200 (.str data.topic)
    date := ← D.notNull 20 (.str data.date)
    startTime := ← D.notNull 10 (.str data.startTime)
    duration := ← D.notNull 10 (.num (.int data.duration))
    timeZone := ← D.notNull 50 (.str data.timeZone)
    userId := ← D.notNull 200 user.userId
    emailAddress := ← D.nullable 200 user.email
    actorUserId := ← D.nullable 200 (pyOr user.actorUserId .null) }

/-- The row after `setattr` of every field of `data`. The duration, an integer, differs from the
text that was read, so that the row is always written. -/
def Meeting.setattr (data : MeetingCreate) (meeting : Meeting) : Except ApiExn Meeting := do
  return { meeting with
    updatedAt := some fresh.now
    topic := ← D.assign 200 meeting.topic (.str data.topic)
    date := ← D.assign 20 meeting.date (.str data.date)
    startTime := ← D.assign 10 meeting.startTime (.str data.startTime)
    duration := ← D.assign 10 meeting.duration (.num (.int data.duration))
    timeZone := ← D.assign 50 meeting.timeZone (.str data.timeZone) }

/-- The identity of a meeting: what `create_meeting` fixes. -/
def Meeting.identity (m : Meeting) :
    String × String × String × Option String × Option String × Option DateTime :=
  (m.id, m.org, m.userId, m.emailAddress, m.actorUserId, m.createdAt)

/-- The meeting has the content of `data`. -/
structure Meeting.HasContent (m : Meeting) (data : MeetingCreate) : Prop where
  topic : m.topic = data.topic
  date : m.date = data.date
  startTime : m.startTime = data.startTime
  duration : m.duration = toString data.duration
  timeZone : m.timeZone = data.timeZone

variable {D fresh}

/-- A meeting is created for the user, with the content of the request. -/
theorem Meeting.create_eq {data : MeetingCreate} {user : UserInfo} {m : Meeting}
    (h : Meeting.create D fresh data user = .ok m) :
    m.id = fresh.id ∧ D.text 200 user.org = some (some m.org) ∧
      D.text 200 user.userId = some (some m.userId) ∧
      D.text 200 user.email = some m.emailAddress ∧
      D.text 200 (pyOr user.actorUserId .null) = some m.actorUserId ∧
      m.createdAt = some fresh.createdAt ∧ m.HasContent data := by
  unfold Meeting.create at h
  obtain ⟨org, horg, h⟩ := ok_of_bind h
  obtain ⟨topic, htopic, h⟩ := ok_of_bind h
  obtain ⟨date, hdate, h⟩ := ok_of_bind h
  obtain ⟨startTime, hstart, h⟩ := ok_of_bind h
  obtain ⟨duration, hduration, h⟩ := ok_of_bind h
  obtain ⟨timeZone, hzone, h⟩ := ok_of_bind h
  obtain ⟨userId, huser, h⟩ := ok_of_bind h
  obtain ⟨email, hemail, h⟩ := ok_of_bind h
  obtain ⟨actor, hactor, h⟩ := ok_of_bind h
  cases h
  exact ⟨rfl, D.notNull_eq horg, D.notNull_eq huser, D.nullable_eq hemail, D.nullable_eq hactor, rfl,
    D.notNull_str htopic, D.notNull_str hdate, D.notNull_str hstart, D.notNull_int hduration,
    D.notNull_str hzone⟩

/-- An update keeps the identity of a meeting and gives it the content of the request. -/
theorem Meeting.setattr_eq {data : MeetingCreate} {m m' : Meeting}
    (h : Meeting.setattr D fresh data m = .ok m') :
    m'.identity = m.identity ∧ m'.HasContent data := by
  unfold Meeting.setattr at h
  obtain ⟨topic, htopic, h⟩ := ok_of_bind h
  obtain ⟨date, hdate, h⟩ := ok_of_bind h
  obtain ⟨startTime, hstart, h⟩ := ok_of_bind h
  obtain ⟨duration, hduration, h⟩ := ok_of_bind h
  obtain ⟨timeZone, hzone, h⟩ := ok_of_bind h
  cases h
  exact ⟨rfl, D.assign_str htopic, D.assign_str hdate, D.assign_str hstart, D.assign_int hduration,
    D.assign_str hzone⟩

variable (D fresh)

/-- What a new row takes from an optional value. -/
def column (width : Nat) (v : Option String) : Except ApiExn (Option String) :=
  D.nullable width ((v.map .str).getD .null)

/-- The row that `AgentConfig(**data.model_dump())` becomes. -/
def AgentConfig.create (data : AgentConfigCreate) : Except ApiExn AgentConfig := do
  return {
    org := ← D.notNull 200 (.str data.org)
    agentId := ← D.notNull 200 (.str data.agentId)
    agentSecret := ← D.notNull 200 (.str data.agentSecret)
    displayName := ← D.notNull 200 (.str data.displayName)
    description := ← column D 500 data.description
    geminiApiKey := ← column D 200 data.geminiApiKey
    orgClientId := ← column D 200 data.orgClientId
    orgClientSecret := ← column D 500 data.orgClientSecret
    customPrompt := ← column D 2000 data.customPrompt
    createdAt := some fresh.createdAt
    updatedAt := some fresh.now }

/-- The row after `setattr` of every field of `data`. A row without changes is not written. -/
def AgentConfig.setattr (data : AgentConfigCreate) (existing : AgentConfig) :
    Except ApiExn AgentConfig := do
  let row : AgentConfig := { existing with
    org := data.org
    agentId := ← D.assign 200 existing.agentId (.str data.agentId)
    agentSecret := ← D.assign 200 existing.agentSecret (.str data.agentSecret)
    displayName := ← D.assign 200 existing.displayName (.str data.displayName)
    description := ← D.assignNullable 500 existing.description data.description
    geminiApiKey := ← D.assignNullable 200 existing.geminiApiKey data.geminiApiKey
    orgClientId := ← D.assignNullable 200 existing.orgClientId data.orgClientId
    orgClientSecret := ← D.assignNullable 500 existing.orgClientSecret data.orgClientSecret
    customPrompt := ← D.assignNullable 2000 existing.customPrompt data.customPrompt }
  return if row = existing then existing else { row with updatedAt := some fresh.now }

/-- The row that `Personalization(**data.model_dump())` becomes. -/
def Personalization.create (data : PersonalizationUpsert) : Except ApiExn Personalization := do
  return {
    org := ← D.notNull 200 (.str data.org)
    logoUrl := ← column D 500 data.logoUrl
    logoAltText := ← column D 200 data.logoAltText
    faviconUrl := ← column D 500 data.faviconUrl
    primaryColor := ← column D 20 data.primaryColor
    secondaryColor := ← column D 20 data.secondaryColor
    updatedAt := some fresh.now }

/-- The row after `setattr` of every field of `data`. -/
def Personalization.setattr (data : PersonalizationUpsert) (existing : Personalization) :
    Except ApiExn Personalization := do
  let row : Personalization := { existing with
    org := data.org
    logoUrl := ← D.assignNullable 500 existing.logoUrl data.logoUrl
    logoAltText := ← D.assignNullable 200 existing.logoAltText data.logoAltText
    faviconUrl := ← D.assignNullable 500 existing.faviconUrl data.faviconUrl
    primaryColor := ← D.assignNullable 20 existing.primaryColor data.primaryColor
    secondaryColor := ← D.assignNullable 20 existing.secondaryColor data.secondaryColor }
  return if row = existing then existing else { row with updatedAt := some fresh.now }

/-- The row that `OrganizationPlan(**data.model_dump())` becomes. -/
def OrganizationPlan.create (data : OrganizationPlanUpsert) : Except ApiExn OrganizationPlan := do
  return {
    org := ← D.notNull 200 (.str data.org)
    plan := ← D.notNull 50 (.str data.plan)
    updatedAt := some fresh.now }

/-- The row after `existing.plan = data.plan`. -/
def OrganizationPlan.setattr (data : OrganizationPlanUpsert) (existing : OrganizationPlan) :
    Except ApiExn OrganizationPlan := do
  let row : OrganizationPlan := { existing with
    plan := ← D.assign 50 existing.plan (.str data.plan) }
  return if row = existing then existing else { row with updatedAt := some fresh.now }

variable {D fresh}

/-- A configuration is created for its organization. -/
theorem AgentConfig.create_org {data : AgentConfigCreate} {r : AgentConfig}
    (h : AgentConfig.create D fresh data = .ok r) : r.org = data.org := by
  unfold AgentConfig.create at h
  obtain ⟨org, horg, h⟩ := ok_of_bind h
  repeat obtain ⟨_, -, h⟩ := ok_of_bind h
  cases h
  exact D.notNull_str horg

/-- A change leaves it with its organization. -/
theorem AgentConfig.setattr_org {data : AgentConfigCreate} {existing r : AgentConfig}
    (hr : existing.org = data.org) (h : AgentConfig.setattr D fresh data existing = .ok r) :
    r.org = data.org := by
  unfold AgentConfig.setattr at h
  repeat obtain ⟨_, -, h⟩ := ok_of_bind h
  cases h
  split
  · exact hr
  · rfl

/-- A personalization is created for its organization. -/
theorem Personalization.create_org {data : PersonalizationUpsert} {r : Personalization}
    (h : Personalization.create D fresh data = .ok r) : r.org = data.org := by
  unfold Personalization.create at h
  obtain ⟨org, horg, h⟩ := ok_of_bind h
  repeat obtain ⟨_, -, h⟩ := ok_of_bind h
  cases h
  exact D.notNull_str horg

/-- A change leaves it with its organization. -/
theorem Personalization.setattr_org {data : PersonalizationUpsert} {existing r : Personalization}
    (hr : existing.org = data.org) (h : Personalization.setattr D fresh data existing = .ok r) :
    r.org = data.org := by
  unfold Personalization.setattr at h
  repeat obtain ⟨_, -, h⟩ := ok_of_bind h
  cases h
  split
  · exact hr
  · rfl

/-- A plan is created for its organization. -/
theorem OrganizationPlan.create_org {data : OrganizationPlanUpsert} {r : OrganizationPlan}
    (h : OrganizationPlan.create D fresh data = .ok r) : r.org = data.org := by
  unfold OrganizationPlan.create at h
  obtain ⟨org, horg, h⟩ := ok_of_bind h
  obtain ⟨_, -, h⟩ := ok_of_bind h
  cases h
  exact D.notNull_str horg

/-- A change leaves it with its organization. -/
theorem OrganizationPlan.setattr_org {data : OrganizationPlanUpsert}
    {existing r : OrganizationPlan} (hr : existing.org = data.org)
    (h : OrganizationPlan.setattr D fresh data existing = .ok r) : r.org = data.org := by
  unfold OrganizationPlan.setattr at h
  obtain ⟨_, -, h⟩ := ok_of_bind h
  cases h
  split
  · exact hr
  · exact hr

end

end Teamspace.Api
