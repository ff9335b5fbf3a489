import Teamspace.Common.FastapiErrors
import Teamspace.Py.Pydantic

/-!
# Answers to bodies that fail validation

`handle_validation_error` of `common/fastapi_errors.py`. It logs and returns the entries of
`errors()` beside the masked body. An entry carries the value that was rejected, which for a missing
field is the whole body: `handleValidationError_eq_iff` says for which bodies that differ only in
texts under sensitive keys the entries say the same.
-/

namespace Teamspace.Common

open Teamspace.Py

/-! ## The handler -/

mutual

/-- A value without the numbers that `JSONResponse` refuses. -/
def isFinite : Json → Bool
  | .null | .bool _ | .str _ | .num (.int _) | .num (.float _) => true
  | .num .inf | .num .negInf | .num .nan => false
  | .arr items => itemsFinite items
  | .obj fields => fieldsFinite fields

/-- `isFinite` of the items of a list. -/
def itemsFinite : List Json → Bool
  | [] => true
  | v :: items => isFinite v && itemsFinite items

/-- `isFinite` of the fields of an object. -/
def fieldsFinite : Dict → Bool
  | [] => true
  | (_, v) :: fields => isFinite v && fieldsFinite fields

end

/-- An entry of `errors()` in the content of a response. An exception is not JSON. -/
def detailOf (e : ErrorDetails) : Except Exn Json :=
  let entry : Dict := [("type", .str e.type), ("loc", .arr (e.loc.map .str)), ("msg", .str e.msg),
    ("input", e.input)]
  if isFinite e.input then
    match e.ctx with
    | none => .ok (.obj entry)
    | some (.bound name value) => .ok (.obj (entry ++ [("ctx", .obj [(name, .num (.int value))])]))
    | some (.error _) => .error .typeError
  else .error .valueError

/-- What is logged, by its arguments. -/
structure ErrorLog where
  appName : String
  path : String
  errors : List ErrorDetails
  maskedBody : String
  deriving DecidableEq, Repr

/-- `JSONResponse`. -/
structure JsonResponse where
  statusCode : Nat
  content : Json
  deriving DecidableEq, Repr

/-- `handle_validation_error`: the line of the log, and the response or what is raised instead. -/
def handleValidationError (F : FloatText) (lower : String → String) (appName path body : String)
    (errors : List ErrorDetails) : ErrorLog × Except Exn JsonResponse :=
  let maskedBody := maskRequestBody F lower body
  (⟨appName, path, errors, maskedBody⟩, do
    let detail ← errors.mapM detailOf
    return ⟨422, .obj [("detail", .arr detail), ("body", .str maskedBody)]⟩)

/-- The lines and responses are the same just when the errors and the masked bodies are. -/
theorem handleValidationError_inj {F : FloatText} {lower : String → String}
    {appName path body body' : String} {errs errs' : List ErrorDetails} :
    handleValidationError F lower appName path body errs =
        handleValidationError F lower appName path body' errs' ↔
      errs = errs' ∧ maskRequestBody F lower body = maskRequestBody F lower body' := by
  constructor
  · intro h
    have hlog := congrArg Prod.fst h
    exact ⟨congrArg ErrorLog.errors hlog, congrArg ErrorLog.maskedBody hlog⟩
  · rintro ⟨rfl, hbody⟩
    unfold handleValidationError
    rw [hbody]

/-! ## The errors of bodies that differ in secrets -/

/-- Two texts under a sensitive key. -/
def SecretTexts (lower : String → String) (k : String) (v w : Json) : Prop :=
  isSensitive lower k = true ∧ (∃ s, v = .str s) ∧ ∃ s, w = .str s

/-- How a field treats what may hold a secret: a list or an object it rejects as it is, and a secret
text it accepts. -/
structure Guards (lower : String → String) (f : Field) : Prop where
  container : ∃ type msg ctx, ∀ v, ¬ v.IsAtom → f.check v = .error ⟨type, msg, v, ctx⟩
  text : isSensitive lower f.name = true → ∀ s, ∃ w, f.check (.str s) = .ok w

/-- The entry of a field, if it has one, carries nothing in which the bodies differ: it is not
missing from different bodies, and what is rejected is the same in both. -/
structure Unrevealed (f : Field) (body body' : Dict) : Prop where
  missing : f.default = none → Dict.get body f.name = none → body = body'
  rejected : ∀ v r, Dict.get body f.name = some v → f.check v = .error r →
    Dict.get body' f.name = some v

section
variable {lower : String → String} {f : Field} {body body' : Dict}

/-- A value that is accepted has no error. -/
theorem error_of_accepted {v w : Json} (h : Dict.get body f.name = some v)
    (hv : f.check v = .ok w) : f.error body = none := by
  simp only [Field.error, Field.read, h, hv, Except.mapError]

/-- One that is rejected has the error at its field. -/
theorem error_of_rejected {v : Json} {r : Rejection} (h : Dict.get body f.name = some v)
    (hv : f.check v = .error r) : f.error body = some { r with loc := ["body", f.name] } := by
  simp only [Field.error, Field.read, h, hv, Except.mapError]

/-- A field that is missing, and must not be, has its error. -/
theorem error_of_missing (h : Dict.get body f.name = none) (hf : f.default = none) :
    f.error body = some (f.missing body) := by
  simp only [Field.error, Field.read, h, hf, Option.elim]

/-- A field that may be missing has none. -/
theorem error_of_default {v : Json} (h : Dict.get body f.name = none) (hf : f.default = some v) :
    f.error body = none := by
  simp only [Field.error, Field.read, h, hf, Option.elim]

/-- A field reads the same of bodies that have the same value for it. -/
theorem error_congr {v : Json} (h : Dict.get body f.name = some v)
    (h' : Dict.get body' f.name = some v) : f.error body = f.error body' := by
  cases hv : f.check v with
  | ok w => rw [error_of_accepted h hv, error_of_accepted h' hv]
  | error r => rw [error_of_rejected h hv, error_of_rejected h' hv]

/-- A field that is missing from both bodies. -/
theorem error_of_both_missing (h : Dict.get body f.name = none)
    (h' : Dict.get body' f.name = none) : (f.error body = none ↔ f.error body' = none) ∧
      (f.error body = f.error body' ↔ Unrevealed f body body') := by
  cases hf : f.default with
  | some v =>
    rw [error_of_default h hf, error_of_default h' hf]
    refine ⟨Iff.rfl, iff_of_true rfl ⟨fun hd => ?_, fun v r hv => ?_⟩⟩
    · cases hf.symm.trans hd
    · cases h.symm.trans hv
  | none =>
    rw [error_of_missing h hf, error_of_missing h' hf]
    refine ⟨iff_of_false nofun nofun, fun he => ⟨fun _ _ => ?_, fun v r hv => ?_⟩, fun hu => ?_⟩
    · have hinput := congrArg (fun e => e.toRejection.input) (Option.some.inj he)
      exact Json.obj.inj hinput
    · cases h.symm.trans hv
    · rw [hu.missing hf h]

/-- Bodies that differ only in secret texts fail at the same fields, and have the same entries just
where these reveal nothing. -/
theorem Guards.error (hf : Guards lower f) (h : AlikeFields (SecretTexts lower) body body') :
    (f.error body = none ↔ f.error body' = none) ∧
      (f.error body = f.error body' ↔ Unrevealed f body body') := by
  rcases h.get f.name with ⟨hv, hw⟩ | ⟨v, w, hv, hw, ⟨hs, ⟨s, rfl⟩, t, rfl⟩ | halike⟩
  · exact error_of_both_missing hv hw
  · obtain ⟨u, hu⟩ := hf.text hs s
    obtain ⟨u', hu'⟩ := hf.text hs t
    rw [error_of_accepted hv hu, error_of_accepted hw hu']
    refine ⟨Iff.rfl, iff_of_true rfl ⟨fun _ hget => ?_, fun v r hget hr => ?_⟩⟩
    · cases hv.symm.trans hget
    · cases hv.symm.trans hget
      cases hu.symm.trans hr
  · by_cases hatom : v.IsAtom
    · obtain rfl := halike.eq_of_atom hatom
      rw [error_congr hv hw]
      refine ⟨Iff.rfl, iff_of_true rfl ⟨fun _ hget => ?_, fun u r hget _ => ?_⟩⟩
      · cases hv.symm.trans hget
      · exact hw.trans (hv.symm.trans hget)
    · obtain ⟨type, msg, ctx, hcontainer⟩ := hf.container
      have hatom' : ¬ w.IsAtom := halike.not_atom hatom
      rw [error_of_rejected hv (hcontainer v hatom), error_of_rejected hw (hcontainer w hatom')]
      refine ⟨iff_of_false nofun nofun, fun he => ⟨fun _ hget => ?_, fun u r hget _ => ?_⟩,
        fun hu => ?_⟩
      · cases hv.symm.trans hget
      · have hinput : v = w :=
          congrArg (fun e => e.toRejection.input) (Option.some.inj he)
        rw [← hget, hv, hw, hinput]
      · have hsame := hu.rejected v _ hv (hcontainer v hatom)
        cases hw.symm.trans hsame
        rfl

end

/-- The entries of bodies that differ only in secret texts. -/
theorem errors_eq_iff {lower : String → String} {fields : List Field}
    (hf : ∀ f ∈ fields, Guards lower f) {body body' : Dict}
    (h : AlikeFields (SecretTexts lower) body body') :
    (errors fields body = [] ↔ errors fields body' = []) ∧
      (errors fields body = errors fields body' ↔ ∀ f ∈ fields, Unrevealed f body body') := by
  induction fields with
  | nil => exact ⟨Iff.rfl, iff_of_true rfl nofun⟩
  | cons f fields ih =>
    obtain ⟨hnone, hsame⟩ := (hf f (.head _)).error h
    obtain ⟨ihnone, ihsame⟩ := ih fun g hg => hf g (.tail _ hg)
    rw [List.forall_mem_cons, ← hsame, ← ihsame]
    unfold errors at ihnone ⊢
    rw [List.filterMap_cons, List.filterMap_cons]
    cases he : f.error body with
    | none =>
      rw [hnone.1 he]
      exact ⟨ihnone, (and_iff_right rfl).symm⟩
    | some e =>
      cases he' : f.error body' with
      | none => cases he.symm.trans (hnone.2 he')
      | some e' =>
        refine ⟨iff_of_false nofun nofun, ?_⟩
        dsimp only
        rw [List.cons.injEq, Option.some.injEq]

/-- What a service logs and returns when it rejects a body: the same for a body that differs only in
secret texts just when no entry reveals anything and the bodies are shallowly alike. -/
theorem handleValidationError_eq_iff {F : FloatText} (hF : F.Lawful) {lower : String → String}
    {fields : List Field} (hf : ∀ f ∈ fields, Guards lower f) {raw raw' : String}
    {body body' : Dict} (hraw : loads F raw = .ok (.obj body))
    (hraw' : loads F raw' = .ok (.obj body'))
    (h : AlikeFields (SecretTexts lower) body body') {appName path : String} :
    handleValidationError F lower appName path raw (errors fields body) =
        handleValidationError F lower appName path raw' (errors fields body') ↔
      (∀ f ∈ fields, Unrevealed f body body') ∧ ShallowFields (Hidden lower) body body' := by
  rw [handleValidationError_inj, (errors_eq_iff hf h).2, maskRequestBody_eq_iff hF hraw hraw']

end Teamspace.Common
