import Teamspace.Api.MeetingLanguage

/-!
# Columns and what is written to them

The declared lengths of the text columns, in `api/models.py` and in the baseline migration, which
agree, and the texts that an accepted request writes to them. Of a meeting, the schema bounds the
date, the start time and the duration as tightly as their columns, and the topic less tightly; it
bounds nothing of an agent configuration or a personalization. `accepted_fits` says for which
accepted payloads all that is written fits.
-/

namespace Teamspace.Api

open Teamspace.Py Teamspace.Lib

/-- The text columns of a table, with their lengths. -/
abbrev Columns := List (String × Nat)

/-- The texts of a row, or of a part of one, by column. -/
abbrev Cells := List (String × Option String)

/-- The texts have at most the characters that their columns are declared with. -/
def Fits (columns : Columns) (cells : Cells) : Prop :=
  ∀ cell ∈ cells, ∀ s ∈ cell.2, ∀ width ∈ columns.lookup cell.1, s.length ≤ width

/-- What an update writes: the columns whose values are new. -/
def written (old new : Cells) : Cells := new.filter fun cell => cell ∉ old

/-! ## Declared lengths -/

/-- `Meeting`. -/
def Meeting.columns : Columns :=
  [("id", 36), ("org", 200), ("topic", 200), ("date", 20), ("start_time", 10), ("duration", 10),
    ("time_zone", 50), ("user_id", 200), ("email_address", 200), ("actor_user_id", 200)]

/-- `AgentConfig`. -/
def AgentConfig.columns : Columns :=
  [("org", 200), ("agent_id", 200), ("agent_secret", 200), ("display_name", 200),
    ("description", 500), ("gemini_api_key", 200), ("org_client_id", 200),
    ("org_client_secret", 500), ("custom_prompt", 2000)]

/-- `Personalization`. -/
def Personalization.columns : Columns :=
  [("org", 200), ("logo_url", 500), ("logo_alt_text", 200), ("favicon_url", 500),
    ("primary_color", 20), ("secondary_color", 20)]

/-- `upgrade` of the baseline migration, without the table of the plans. -/
def upgrade : List (String × Columns) :=
  [ ("agent_configs", [("org", 200), ("agent_id", 200), ("agent_secret", 200),
      ("display_name", 200), ("description", 500), ("gemini_api_key", 200), ("org_client_id", 200),
      ("org_client_secret", 500), ("custom_prompt", 2000)]),
    ("meetings", [("id", 36), ("org", 200), ("topic", 200), ("date", 20), ("start_time", 10),
      ("duration", 10), ("time_zone", 50), ("user_id", 200), ("email_address", 200),
      ("actor_user_id", 200)]),
    ("personalizations", [("org", 200), ("logo_url", 500), ("logo_alt_text", 200),
      ("favicon_url", 500), ("primary_color", 20), ("secondary_color", 20)]) ]

/-! ## Texts of rows and of payloads -/

/-- The texts of a meeting that do not come from the payload. -/
def Meeting.identityCells (m : Meeting) : Cells :=
  [("id", some m.id), ("org", some m.org), ("user_id", some m.userId),
    ("email_address", m.emailAddress), ("actor_user_id", m.actorUserId)]

/-- The texts of a meeting that come from the payload. -/
def Meeting.contentCells (m : Meeting) : Cells :=
  [("topic", some m.topic), ("date", some m.date), ("start_time", some m.startTime),
    ("duration", some m.duration), ("time_zone", some m.timeZone)]

/-- The texts of a meeting. -/
def Meeting.cells (m : Meeting) : Cells := m.identityCells ++ m.contentCells

/-- The texts of an agent configuration. -/
def AgentConfigCreate.cells (data : AgentConfigCreate) : Cells :=
  [("org", some data.org), ("agent_id", some data.agentId), ("agent_secret", some data.agentSecret),
    ("display_name", some data.displayName), ("description", data.description),
    ("gemini_api_key", data.geminiApiKey), ("org_client_id", data.orgClientId),
    ("org_client_secret", data.orgClientSecret), ("custom_prompt", data.customPrompt)]

/-- The texts of a personalization. -/
def PersonalizationUpsert.cells (data : PersonalizationUpsert) : Cells :=
  [("org", some data.org), ("logo_url", data.logoUrl), ("logo_alt_text", data.logoAltText),
    ("favicon_url", data.faviconUrl), ("primary_color", data.primaryColor),
    ("secondary_color", data.secondaryColor)]

/-- What an optional text is in a payload. -/
def optionalJson (v : Option String) : Json := (v.map .str).getD .null

/-- `model_dump()`. -/
def AgentConfigCreate.dump (data : AgentConfigCreate) : Dict :=
  [("org", .str data.org), ("agent_id", .str data.agentId), ("agent_secret", .str data.agentSecret),
    ("display_name", .str data.displayName), ("description", optionalJson data.description),
    ("gemini_api_key", optionalJson data.geminiApiKey),
    ("org_client_id", optionalJson data.orgClientId),
    ("org_client_secret", optionalJson data.orgClientSecret),
    ("custom_prompt", optionalJson data.customPrompt)]

/-- `model_dump()`. -/
def PersonalizationUpsert.dump (data : PersonalizationUpsert) : Dict :=
  [("org", .str data.org), ("logo_url", optionalJson data.logoUrl),
    ("logo_alt_text", optionalJson data.logoAltText), ("favicon_url", optionalJson data.faviconUrl),
    ("primary_color", optionalJson data.primaryColor),
    ("secondary_color", optionalJson data.secondaryColor)]

/-! ## What is accepted of a meeting -/

/-- A date has ten characters. -/
theorem IsDate.length {s : String} (h : IsDate s) : s.length = 10 := by
  obtain ⟨year, month, day, -, -, -, hs⟩ := h
  rw [← String.length_toList, hs]
  rfl

/-- A start time has six at most. -/
theorem startTime_length {s : String} (h : IsTime s ∨ LooseTime s) : s.length ≤ 6 := by
  rw [← String.length_toList]
  rcases h with ⟨hour, minute, -, -, hs⟩ | ⟨h₁, h₂, m₁, m₂, rest, hs, -, -, -, hrest, -⟩
  · rw [hs]
    exact Nat.le_succ 5
  · rw [hs]
    rcases hrest with rfl | rfl
    · exact Nat.le_succ 5
    · exact le_refl 6

/-- A duration has three at most. -/
theorem duration_length {n : Int} (h : 1 ≤ n ∧ n ≤ 480) : (toString n).length ≤ 3 := by
  have hall : ∀ k < 481, (toString (k : Nat)).length ≤ 3 := by decide +kernel
  obtain ⟨k, rfl⟩ := Int.eq_ofNat_of_zero_le (a := n) (by omega)
  exact hall k (by omega)

/-! ## What is written -/

/-- No cells fit any columns. -/
theorem fits_nil (columns : Columns) : Fits columns [] := nofun

/-- Cells fit if the first one does and the others do. -/
theorem fits_cons {columns : Columns} {name : String} {text : Option String} {cells : Cells} :
    Fits columns ((name, text) :: cells) ↔
      (∀ s ∈ text, ∀ width ∈ columns.lookup name, s.length ≤ width) ∧ Fits columns cells :=
  List.forall_mem_cons

/-- Cells that are joined fit if both parts do. -/
theorem fits_append {columns : Columns} {cells cells' : Cells} :
    Fits columns (cells ++ cells') ↔ Fits columns cells ∧ Fits columns cells' :=
  List.forall_mem_append

/-- `None` is written as `NULL`. -/
structure Driver.WritesNull (D : Driver) : Prop where
  text_null : ∀ {width v}, D.text width .null = some v → v = none

section
variable {D : Driver} {fresh : Fresh}

/-- A text that may be missing is written as it is. -/
theorem Driver.WritesNull.text_optional (hD : D.WritesNull) {width : Nat} {v w : Option String}
    (h : D.text width (optionalJson v) = some w) : w = v := by
  cases v with
  | none => exact hD.text_null h
  | some s => exact D.text_str h

/-- So is one that is checked first. -/
theorem Driver.WritesNull.column (hD : D.WritesNull) {width : Nat} {v w : Option String}
    (h : column D width v = .ok w) : w = v := hD.text_optional (D.nullable_eq h)

/-- So is one that is assigned. -/
theorem Driver.WritesNull.assign (hD : D.WritesNull) {width : Nat} {old new w : Option String}
    (h : D.assignNullable width old new = .ok w) : w = new := by
  unfold Driver.assignNullable at h
  split at h
  · next hsame =>
    cases h
    exact hsame.symm
  · exact hD.text_optional (D.nullable_eq h)

/-- The texts of a new agent configuration are those of the payload. -/
theorem AgentConfig.create_cells (hD : D.WritesNull) {data : AgentConfigCreate} {r : AgentConfig}
    (h : AgentConfig.create D fresh data = .ok r) : r.cells = data.cells := by
  unfold AgentConfig.create at h
  obtain ⟨org, horg, h⟩ := ok_of_bind h
  obtain ⟨agentId, hid, h⟩ := ok_of_bind h
  obtain ⟨agentSecret, hsecret, h⟩ := ok_of_bind h
  obtain ⟨displayName, hname, h⟩ := ok_of_bind h
  obtain ⟨description, hdescription, h⟩ := ok_of_bind h
  obtain ⟨geminiApiKey, hkey, h⟩ := ok_of_bind h
  obtain ⟨orgClientId, hclient, h⟩ := ok_of_bind h
  obtain ⟨orgClientSecret, hclientSecret, h⟩ := ok_of_bind h
  obtain ⟨customPrompt, hprompt, h⟩ := ok_of_bind h
  cases h
  unfold AgentConfigCreate.cells
  simp only [D.notNull_str horg, D.notNull_str hid, D.notNull_str hsecret, D.notNull_str hname,
    hD.column hdescription, hD.column hkey, hD.column hclient, hD.column hclientSecret,
    hD.column hprompt]

/-- So are the texts of one that is updated. -/
theorem AgentConfig.setattr_cells (hD : D.WritesNull) {data : AgentConfigCreate}
    {existing r : AgentConfig} (h : AgentConfig.setattr D fresh data existing = .ok r) :
    r.cells = data.cells := by
  unfold AgentConfig.setattr at h
  obtain ⟨agentId, hid, h⟩ := ok_of_bind h
  obtain ⟨agentSecret, hsecret, h⟩ := ok_of_bind h
  obtain ⟨displayName, hname, h⟩ := ok_of_bind h
  obtain ⟨description, hdescription, h⟩ := ok_of_bind h
  obtain ⟨geminiApiKey, hkey, h⟩ := ok_of_bind h
  obtain ⟨orgClientId, hclient, h⟩ := ok_of_bind h
  obtain ⟨orgClientSecret, hclientSecret, h⟩ := ok_of_bind h
  obtain ⟨customPrompt, hprompt, h⟩ := ok_of_bind h
  cases D.assign_str hid
  cases D.assign_str hsecret
  cases D.assign_str hname
  cases hD.assign hdescription
  cases hD.assign hkey
  cases hD.assign hclient
  cases hD.assign hclientSecret
  cases hD.assign hprompt
  cases h
  split
  · next hsame => rw [← hsame]
  · rfl

/-- The texts of a new personalization are those of the payload. -/
theorem Personalization.create_cells (hD : D.WritesNull) {data : PersonalizationUpsert}
    {r : Personalization} (h : Personalization.create D fresh data = .ok r) :
    r.cells = data.cells := by
  unfold Personalization.create at h
  obtain ⟨org, horg, h⟩ := ok_of_bind h
  obtain ⟨logoUrl, hlogo, h⟩ := ok_of_bind h
  obtain ⟨logoAltText, halt, h⟩ := ok_of_bind h
  obtain ⟨faviconUrl, hfavicon, h⟩ := ok_of_bind h
  obtain ⟨primaryColor, hprimary, h⟩ := ok_of_bind h
  obtain ⟨secondaryColor, hsecondary, h⟩ := ok_of_bind h
  cases h
  unfold PersonalizationUpsert.cells
  simp only [D.notNull_str horg, hD.column hlogo, hD.column halt, hD.column hfavicon,
    hD.column hprimary, hD.column hsecondary]

/-- So are the texts of one that is updated. -/
theorem Personalization.setattr_cells (hD : D.WritesNull) {data : PersonalizationUpsert}
    {existing r : Personalization} (h : Personalization.setattr D fresh data existing = .ok r) :
    r.cells = data.cells := by
  unfold Personalization.setattr at h
  obtain ⟨logoUrl, hlogo, h⟩ := ok_of_bind h
  obtain ⟨logoAltText, halt, h⟩ := ok_of_bind h
  obtain ⟨faviconUrl, hfavicon, h⟩ := ok_of_bind h
  obtain ⟨primaryColor, hprimary, h⟩ := ok_of_bind h
  obtain ⟨secondaryColor, hsecondary, h⟩ := ok_of_bind h
  cases hD.assign hlogo
  cases hD.assign halt
  cases hD.assign hfavicon
  cases hD.assign hprimary
  cases hD.assign hsecondary
  cases h
  split
  · next hsame => rw [← hsame]
  · rfl

/-- The claims of a user, as they are written, fit their columns. -/
def ClaimsFit (D : Driver) (user : UserInfo) : Prop :=
  ∀ v ∈ [user.org, user.userId, user.email, pyOr user.actorUserId .null], ∀ s,
    D.text 200 v = some (some s) → s.length ≤ 200

/-- The texts of a meeting that are its identity. -/
theorem fits_identityCells {m : Meeting} : Fits Meeting.columns m.identityCells ↔
    m.id.length ≤ 36 ∧ m.org.length ≤ 200 ∧ m.userId.length ≤ 200 ∧
      (∀ s ∈ m.emailAddress, s.length ≤ 200) ∧ ∀ s ∈ m.actorUserId, s.length ≤ 200 := by
  simp [Meeting.identityCells, Meeting.columns, fits_cons, fits_nil, List.lookup_cons]

/-- The texts of a meeting that are its content. -/
theorem fits_contentCells {m : Meeting} : Fits Meeting.columns m.contentCells ↔
    m.topic.length ≤ 200 ∧ m.date.length ≤ 20 ∧ m.startTime.length ≤ 10 ∧
      m.duration.length ≤ 10 ∧ m.timeZone.length ≤ 50 := by
  simp [Meeting.contentCells, Meeting.columns, fits_cons, fits_nil, List.lookup_cons]

/-- What an update of a meeting writes. -/
theorem fits_written {m m' : Meeting} (h : m'.identity = m.identity) :
    Fits Meeting.columns (written m.cells m'.cells) ↔
      (m'.topic ≠ m.topic → m'.topic.length ≤ 200) ∧ (m'.date ≠ m.date → m'.date.length ≤ 20) ∧
        (m'.startTime ≠ m.startTime → m'.startTime.length ≤ 10) ∧
        (m'.duration ≠ m.duration → m'.duration.length ≤ 10) ∧
        (m'.timeZone ≠ m.timeZone → m'.timeZone.length ≤ 50) := by
  have hidentity : m'.identityCells = m.identityCells := by
    unfold Meeting.identity at h
    simp only [Prod.mk.injEq] at h
    obtain ⟨hid, horg, huser, hemail, hactor, -⟩ := h
    unfold Meeting.identityCells
    rw [hid, horg, huser, hemail, hactor]
  have hnew : written m.cells m'.cells = m'.contentCells.filter fun cell => cell ∉ m.cells := by
    unfold written Meeting.cells
    rw [List.filter_append, hidentity, List.filter_eq_nil_iff.2, List.nil_append]
    intro cell hcell
    simpa using fun h => absurd hcell h
  rw [hnew]
  unfold Fits
  simp [Meeting.contentCells, Meeting.cells, Meeting.identityCells, Meeting.columns,
    List.lookup_cons]

/-- A new meeting has the claims of its user. -/
theorem Meeting.create_fits {data : MeetingCreate} {user : UserInfo} {m : Meeting}
    (hid : fresh.id.length = 36) (h : Meeting.create D fresh data user = .ok m) :
    Fits Meeting.columns m.identityCells ↔ ClaimsFit D user := by
  obtain ⟨hfresh, horg, huser, hemail, hactor, -, -⟩ := Meeting.create_eq h
  rw [fits_identityCells, hfresh, hid]
  unfold ClaimsFit
  simp [horg, huser, hemail, hactor]

/-- What is written of a payload that is accepted fits its columns just under these conditions. -/
structure FitsExactly (D : Driver) (fresh : Fresh) : Prop where
  /-- The models and the migration declare the same lengths. -/
  declared : upgrade = [("agent_configs", AgentConfig.columns), ("meetings", Meeting.columns),
    ("personalizations", Personalization.columns)]
  createMeeting : ∀ zones body data user m,
    validate (MeetingCreate.fields zones) body = .ok data.dump →
    Meeting.create D fresh data user = .ok m →
      (Fits Meeting.columns m.cells ↔
        data.topic.length ≤ 200 ∧ data.timeZone.length ≤ 50 ∧ ClaimsFit D user)
  updateMeeting : ∀ zones body data m m',
    validate (MeetingCreate.fields zones) body = .ok data.dump →
    Meeting.setattr D fresh data m = .ok m' →
      (Fits Meeting.columns (written m.cells m'.cells) ↔
        (data.topic ≠ m.topic → data.topic.length ≤ 200) ∧
          (data.timeZone ≠ m.timeZone → data.timeZone.length ≤ 50))
  createAgentConfig : ∀ body data r,
    validate AgentConfigCreate.fields body = .ok data.dump →
    AgentConfig.create D fresh data = .ok r →
      (Fits AgentConfig.columns r.cells ↔ Fits AgentConfig.columns data.cells)
  updateAgentConfig : ∀ body data existing r,
    validate AgentConfigCreate.fields body = .ok data.dump →
    AgentConfig.setattr D fresh data existing = .ok r →
      (Fits AgentConfig.columns (written existing.cells r.cells) ↔
        Fits AgentConfig.columns (written existing.cells data.cells))
  createPersonalization : ∀ body data r,
    validate PersonalizationUpsert.fields body = .ok data.dump →
    Personalization.create D fresh data = .ok r →
      (Fits Personalization.columns r.cells ↔ Fits Personalization.columns data.cells)
  updatePersonalization : ∀ body data existing r,
    validate PersonalizationUpsert.fields body = .ok data.dump →
    Personalization.setattr D fresh data existing = .ok r →
      (Fits Personalization.columns (written existing.cells r.cells) ↔
        Fits Personalization.columns (written existing.cells data.cells))

/-- The date, the start time and the duration of an accepted meeting fit their columns. -/
theorem Meeting.HasContent.fits {zones : List String} {body : Dict} {data : MeetingCreate}
    {m : Meeting} (hm : m.HasContent data)
    (h : validate (MeetingCreate.fields zones) body = .ok data.dump) :
    m.date.length ≤ 20 ∧ m.startTime.length ≤ 10 ∧ m.duration.length ≤ 10 := by
  obtain ⟨hregular, htime⟩ := MeetingCreate.of_validate h
  have h₁ := hregular.date.length
  have h₂ := startTime_length htime
  have h₃ := duration_length hregular.duration
  rw [hm.date, hm.startTime, hm.duration]
  omega

/-- Of what accepted requests write, the lengths of these fields and claims are all that may not
fit. -/
theorem accepted_fits (hD : D.WritesNull) (hid : fresh.id.length = 36) : FitsExactly D fresh where
  declared := rfl
  createMeeting zones body data user m hvalid hcreate := by
    have hm := (Meeting.create_eq hcreate).2.2.2.2.2.2
    obtain ⟨hdate, htime, hduration⟩ := hm.fits hvalid
    have hclaims := Meeting.create_fits hid hcreate
    unfold Meeting.cells
    rw [fits_append, hclaims, fits_contentCells, hm.topic, hm.timeZone]
    tauto
  updateMeeting zones body data m m' hvalid hset := by
    obtain ⟨hidentity, hm⟩ := Meeting.setattr_eq hset
    obtain ⟨hdate, htime, hduration⟩ := hm.fits hvalid
    rw [fits_written hidentity, hm.topic, hm.timeZone]
    tauto
  createAgentConfig body data r _ hcreate := by rw [AgentConfig.create_cells hD hcreate]
  updateAgentConfig body data existing r _ hset := by rw [AgentConfig.setattr_cells hD hset]
  createPersonalization body data r _ hcreate := by rw [Personalization.create_cells hD hcreate]
  updatePersonalization body data existing r _ hset := by
    rw [Personalization.setattr_cells hD hset]

end

/-- SQLite writes `None` as `NULL`. -/
theorem Driver.sqlite_writesNull : Driver.sqlite.WritesNull := ⟨fun h => (Option.some.inj h).symm⟩

/-- An id of a meeting. -/
def someFresh : Fresh := ⟨"0b5e7f9c-3f1e-4f0e-9c57-0d8a6d0f2f11", 0, 0⟩

/-- In SQLite what is accepted fits just so. -/
theorem accepted_fits_sqlite : FitsExactly Driver.sqlite someFresh :=
  accepted_fits Driver.sqlite_writesNull (by decide)

/-- A topic of 201 characters is accepted. -/
theorem long_topic_accepted : ¬ ∀ (D : Driver) (fresh : Fresh) (zones : List String) (body : Dict)
    (data : MeetingCreate) (user : UserInfo) (m : Meeting), D.WritesNull → fresh.id.length = 36 →
      validate (MeetingCreate.fields zones) body = .ok data.dump →
      Meeting.create D fresh data user = .ok m → Fits Meeting.columns m.cells := by
  intro h
  let topic := String.ofList (List.replicate 201 'a')
  let data : MeetingCreate := ⟨topic, "2026-01-05", "09:30", 30, "UTC"⟩
  have hp : IsPayload data.dump topic "2026-01-05" "09:30" (.num (.int 30)) "UTC" :=
    ⟨.inl ⟨30, rfl⟩, rfl, rfl, rfl, rfl, rfl⟩
  have hlength : topic.length = 201 := by rw [String.length_ofList, List.length_replicate]
  have hregular : Regular ["UTC"] data := by
    refine ⟨by rw [hlength]; decide, fun c hc => ?_,
      ⟨2026, 1, 5, by decide, by decide, by decide, by decide⟩, by decide, by decide⟩
    rw [String.toList_ofList] at hc
    rw [List.eq_of_mem_replicate hc]
    decide
  have hvalid : validate (MeetingCreate.fields ["UTC"]) data.dump = .ok data.dump :=
    (MeetingCreate.validate_iff hp).2
      ⟨30, rfl, hregular, .inl ⟨9, 30, by decide, by decide, by decide⟩, rfl⟩
  let user : UserInfo := ⟨.str "u", .str "o", .str "e", [], .null, .null, .null⟩
  have hfits := h Driver.sqlite someFresh ["UTC"] data.dump data user _ Driver.sqlite_writesNull
    (by decide) hvalid rfl
  unfold Meeting.cells at hfits
  have htopic := (fits_contentCells.1 (fits_append.1 hfits).2).1
  change topic.length ≤ 200 at htopic
  rw [hlength] at htopic
  exact absurd htopic (by decide)

end Teamspace.Api
