import Teamspace.Api.Schemas
import Teamspace.Common.ValidationErrors

/-!
# Secrets in the errors of the request models

The models that the services read bodies with, and what `handle_validation_error` says of the bodies
that they reject. Every field of every model rejects a list or an object as it is and accepts a
secret text, so what reveals a secret is a required field that is missing, or a list or an object
within which the secret stands (`validation_error_masked`).
-/

namespace Teamspace.Agent

open Teamspace.Py Teamspace.Api

/-- The fields of `ChatRequest` of `agent/schemas.py`. -/
def ChatRequest.fields : List Field :=
  [ requiredStr "thread_id", requiredStr "message", ⟨"org_name", some (.str ""), strCheck none⟩,
    optionalField "agent_id" .null, optionalField "agent_secret" .null,
    optionalField "gemini_api_key" .null, optionalField "custom_prompt" .null,
    optionalField "language" (.str "en"),
    optionalField "agent_name" (.str "Worklink Assistant") ]

end Teamspace.Agent

namespace Teamspace.Api

open Teamspace.Py Teamspace.Common Teamspace.Agent

/-- The models of the request bodies of the two services. -/
def requestModels (zones : List String) : List (List Field) :=
  [MeetingCreate.fields zones, AgentConfigCreate.fields, PersonalizationUpsert.fields,
    OrganizationPlanUpsert.fields, ChatRequest.fields]

/-- `str.lower` leaves the names of the fields of a meeting as they are. -/
structure LowersNames (lower : String → String) : Prop where
  name : ∀ k ∈ ["topic", "date", "start_time", "duration", "time_zone"], lower k = k

section
variable {lower : String → String}

/-- A list or an object is no string. -/
theorem strCheck_container (maxLength : Option Nat) {v : Json} (h : ¬ v.IsAtom) :
    strCheck maxLength v = .error ⟨"string_type", "Input should be a valid string", v, none⟩ := by
  cases v with
  | arr | obj => rfl
  | null | bool | num | str => exact absurd trivial h

/-- A text field rejects lists and objects as they are. -/
theorem guards_str {name : String} {default' : Option Json} :
    Guards lower ⟨name, default', strCheck none⟩ :=
  ⟨⟨"string_type", "Input should be a valid string", none,
      fun _ h => strCheck_container none h⟩,
    fun _ s => ⟨.str s, rfl⟩⟩

/-- So does one that may be missing. -/
theorem guards_optional {name : String} {default' : Option Json} :
    Guards lower ⟨name, default', optionalStr⟩ := by
  refine ⟨⟨"string_type", "Input should be a valid string", none, fun v h => ?_⟩,
    fun _ s => ⟨.str s, rfl⟩⟩
  have hsame : optionalStr v = strCheck none v := by
    cases v with
    | arr | obj => rfl
    | null | bool | num | str => exact absurd trivial h
  exact hsame.trans (strCheck_container none h)

/-- A field of a meeting that has a validator. -/
theorem guards_after {name : String} {default' : Option Json} {maxLength : Option Nat}
    {validator : String → Option String} (hname : isSensitive lower name = false) :
    Guards lower ⟨name, default', (strCheck maxLength).after validator⟩ := by
  refine ⟨⟨"string_type", "Input should be a valid string", none, fun v h => ?_⟩, fun hs => ?_⟩
  · change (strCheck maxLength v >>= _) = _
    rw [strCheck_container maxLength h]
    rfl
  · cases hname.symm.trans hs

/-- So does the duration, whose name is not sensitive. -/
theorem guards_duration {name : String} {default' : Option Json} {ge le : Int}
    (hname : isSensitive lower name = false) :
    Guards lower ⟨name, default', fun v => durationCoerce v >>= intCheck ge le⟩ := by
  refine ⟨⟨"int_type", "Input should be a valid integer", none, fun v h => ?_⟩, fun hs => ?_⟩
  · cases v with
    | arr | obj => rfl
    | null | bool | num | str => exact absurd trivial h
  · cases hname.symm.trans hs

/-- The names of the fields of a meeting are not sensitive. -/
theorem LowersNames.plain (h : LowersNames lower) :
    ∀ k ∈ ["topic", "date", "start_time", "duration", "time_zone"], isSensitive lower k = false := by
  intro k hk
  have hid : isSensitive lower k = isSensitive id k := by
    unfold isSensitive
    rw [h.name k hk]
    rfl
  have hall : ∀ k ∈ ["topic", "date", "start_time", "duration", "time_zone"],
      isSensitive id k = false := by decide +kernel
  rw [hid]
  exact hall k hk

/-- Every field of the request models guards secrets. -/
theorem requestModels_guard (h : LowersNames lower) {zones : List String} :
    ∀ fields ∈ requestModels zones, ∀ f ∈ fields, Guards lower f := by
  have hplain := h.plain
  simp only [List.forall_mem_cons] at hplain
  obtain ⟨htopic, hdate, hstart, hduration, hzone, -⟩ := hplain
  unfold requestModels MeetingCreate.fields AgentConfigCreate.fields PersonalizationUpsert.fields
    OrganizationPlanUpsert.fields ChatRequest.fields requiredStr optionalField
  simp only [List.forall_mem_cons]
  refine ⟨⟨guards_after htopic, guards_after hdate, guards_after hstart,
    guards_duration hduration, guards_after hzone, nofun⟩, ?_⟩
  simp only [guards_str, guards_optional, List.not_mem_nil, false_imp_iff, implies_true, and_self]

/-- A body that one of the models rejects, and a body that differs from it only in texts under
sensitive keys: the second is rejected too, and the same is logged and returned for both just when
no required field is missing from different bodies, what is rejected is the same in both, and they
differ only where objects alone lead to. -/
theorem validation_error_masked {F : FloatText} (hF : F.Lawful) (hlower : LowersNames lower)
    (zones : List String) {fields : List Field} (hfields : fields ∈ requestModels zones)
    {raw raw' : String} {body body' : Dict} (hraw : loads F raw = .ok (.obj body))
    (hraw' : loads F raw' = .ok (.obj body'))
    (h : AlikeFields (SecretTexts lower) body body') {errs : List ErrorDetails}
    (herrs : validate fields body = .error errs) (appName path : String) :
    ∃ errs', validate fields body' = .error errs' ∧
      (handleValidationError F lower appName path raw errs =
          handleValidationError F lower appName path raw' errs' ↔
        (∀ f ∈ fields, Unrevealed f body body') ∧ ShallowFields (Hidden lower) body body') := by
  have hguards := requestModels_guard hlower fields hfields
  obtain ⟨rfl, hne⟩ := validate_error.1 herrs
  have hne' : errors fields body' ≠ [] := fun he => hne ((errors_eq_iff hguards h).1.2 he)
  exact ⟨errors fields body', validate_error.2 ⟨rfl, hne'⟩,
    handleValidationError_eq_iff hF hguards hraw hraw' h⟩

end

/-- A function that lowers nothing leaves the names as they are. -/
theorem lowersNames_id : LowersNames id := ⟨fun _ _ => rfl⟩

/-- An agent configuration with this secret, whose display name is a number. -/
def misnamed (secret : String) : Dict :=
  [("org", .str "acme"), ("agent_id", .str "a"), ("agent_secret", .str secret),
    ("display_name", .num (.int 1))]

/-- An agent configuration of which only this secret is there. -/
def secretOnly (secret : String) : Dict := [("agent_secret", .str secret)]

/-- The body with the wrong name is read back as it was written. -/
theorem loads_misnamed (secret : String) :
    loads noFloats (dumps noFloats (.obj (misnamed secret))) = .ok (.obj (misnamed secret)) :=
  loads_dumps ⟨by simp [misnamed], trivial, trivial, trivial, trivial, trivial⟩

/-- So is the body with the secret only. -/
theorem loads_secretOnly (secret : String) :
    loads noFloats (dumps noFloats (.obj (secretOnly secret))) = .ok (.obj (secretOnly secret)) :=
  loads_dumps ⟨by simp [secretOnly], trivial, trivial⟩

/-- Two such bodies differ in their secrets only. -/
theorem alike_misnamed (secret secret' : String) :
    AlikeFields (SecretTexts id) (misnamed secret) (misnamed secret') :=
  ⟨_, _, rfl, .inr rfl, _, _, rfl, .inr rfl, _, _, rfl,
    .inl ⟨by decide +kernel, ⟨_, rfl⟩, _, rfl⟩, _, _, rfl, .inr rfl, rfl⟩

/-- So do two bodies with the secret only. -/
theorem alike_secretOnly (secret secret' : String) :
    AlikeFields (SecretTexts id) (secretOnly secret) (secretOnly secret') :=
  ⟨_, _, rfl, .inl ⟨by decide +kernel, ⟨_, rfl⟩, _, rfl⟩, rfl⟩

/-- What is said of two configurations whose display name is a number. -/
theorem validation_error_masked_misnamed :
    ∃ errs', validate AgentConfigCreate.fields (misnamed "xyz") = .error errs' ∧
      (handleValidationError noFloats id "Business API" "/agent-config"
          (dumps noFloats (.obj (misnamed "abc"))) (errors AgentConfigCreate.fields (misnamed "abc")) =
        handleValidationError noFloats id "Business API" "/agent-config"
          (dumps noFloats (.obj (misnamed "xyz"))) errs' ↔
        (∀ f ∈ AgentConfigCreate.fields, Unrevealed f (misnamed "abc") (misnamed "xyz")) ∧
          ShallowFields (Hidden id) (misnamed "abc") (misnamed "xyz")) :=
  validation_error_masked noFloats_lawful lowersNames_id [] (.tail _ (.head _))
    (loads_misnamed "abc") (loads_misnamed "xyz") (alike_misnamed "abc" "xyz")
    (validate_error.2 ⟨rfl, by decide +kernel⟩) "Business API" "/agent-config"

/-- A body of which a field is missing is returned as it is, with its secret. -/
theorem missing_field_reveals : ¬ ∀ (F : FloatText) (lower : String → String) (zones : List String)
    (fields : List Field) (raw raw' : String) (body body' : Dict) (errs errs' : List ErrorDetails)
    (appName path : String), F.Lawful → LowersNames lower → fields ∈ requestModels zones →
      loads F raw = .ok (.obj body) → loads F raw' = .ok (.obj body') →
      AlikeFields (SecretTexts lower) body body' → validate fields body = .error errs →
      validate fields body' = .error errs' →
      handleValidationError F lower appName path raw errs =
        handleValidationError F lower appName path raw' errs' := by
  intro h
  have hsame := h noFloats id [] AgentConfigCreate.fields _ _ (secretOnly "abc") (secretOnly "xyz")
    _ _ "Business API" "/agent-config" noFloats_lawful lowersNames_id (.tail _ (.head _))
    (loads_secretOnly "abc") (loads_secretOnly "xyz") (alike_secretOnly "abc" "xyz")
    (validate_error.2 ⟨rfl, by decide +kernel⟩) (validate_error.2 ⟨rfl, by decide +kernel⟩)
  exact absurd (handleValidationError_inj.1 hsame).1 (by decide +kernel)

end Teamspace.Api
