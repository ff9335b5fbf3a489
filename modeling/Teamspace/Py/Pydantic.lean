import Mathlib.Algebra.Group.Int.Defs
import Teamspace.Py.Json

/-!
# Validation of request bodies

What Pydantic makes of a decoded JSON object: the fields of a model in their order, each with a
check that accepts a value, changed or not, or rejects it with an entry of `errors()`. Every entry
carries the value that was rejected, which is the whole body for a field that is missing. Keys that
are no field are ignored. A body is accepted just when every field accepts its part (`validate_ok`).
-/

namespace Teamspace.Py

/-- What an error says beside its message. -/
inductive ErrorContext
  | bound (name : String) (value : Int)
  /-- The exception that a validator raised, of which there is no JSON. -/
  | error (message : String)
  deriving DecidableEq, Repr

/-- Why a value is rejected. -/
structure Rejection where
  type : String
  msg : String
  input : Json
  ctx : Option ErrorContext
  deriving DecidableEq, Repr

/-- An entry of `errors()`. -/
structure ErrorDetails extends Rejection where
  loc : List String
  deriving DecidableEq, Repr

/-- What a field makes of its value. -/
abbrev Check := Json → Except Rejection Json

/-- A field of a model. A field without a default is required. -/
structure Field where
  name : String
  default : Option Json
  check : Check

/-! ## Checks -/

/-- `str`, of any length or of a greatest one. -/
def strCheck (maxLength : Option Nat) : Check
  | .str s =>
    match maxLength with
    | none => .ok (.str s)
    | some n =>
      if s.length ≤ n then .ok (.str s)
      else .error ⟨"string_too_long", "String should have at most " ++ toString n ++ " characters",
        .str s, some (.bound "max_length" n)⟩
  | v => .error ⟨"string_type", "Input should be a valid string", v, none⟩

/-- `Optional[str]`. -/
def optionalStr : Check
  | .null => .ok .null
  | v => strCheck none v

/-- The bounds `ge` and `le` of an `int` that was made of `input`. -/
def boundedInt (ge le : Int) (input : Json) (n : Int) : Except Rejection Json :=
  if n < ge then .error ⟨"greater_than_equal",
    "Input should be greater than or equal to " ++ toString ge, input, some (.bound "ge" ge)⟩
  else if le < n then .error ⟨"less_than_equal",
    "Input should be less than or equal to " ++ toString le, input, some (.bound "le" le)⟩
  else .ok (.num (.int n))

/-- A `float` that is read as an `int` is one of 64 bits. -/
def isInt64 (n : Int) : Bool := -2 ^ 63 < n && n < 2 ^ 63

/-- `int` between two bounds, for a value that is no text. A `bool` counts as a number, and so does
a `float` without a fraction. -/
def intCheck (ge le : Int) (v : Json) : Except Rejection Json :=
  match v with
  | .bool b => boundedInt ge le v (if b then 1 else 0)
  | .num (.int n) => boundedInt ge le v n
  | .num (.float q) =>
    if q.den = 1 then
      if isInt64 q.num then boundedInt ge le v q.num
      else .error ⟨"int_parsing_size",
        "Unable to parse input string as an integer, exceeded maximum size", v, none⟩
    else .error ⟨"int_from_float",
      "Input should be a valid integer, got a number with a fractional part", v, none⟩
  | .num _ => .error ⟨"finite_number", "Input should be a finite number", v, none⟩
  | .null | .str _ | .arr _ | .obj _ =>
    .error ⟨"int_type", "Input should be a valid integer", v, none⟩

/-- What a `ValueError` of a validator becomes. -/
def valueError {α : Type} (message : String) (input : Json) : Except Rejection α :=
  .error ⟨"value_error", "Value error, " ++ message, input, some (.error message)⟩

/-- A validator of a text that runs after a check: the message of its `ValueError`, if it raises. -/
def Check.after (check : Check) (validator : String → Option String) : Check := fun v => do
  match ← check v with
  | .str s => (validator s).elim (.ok (.str s)) fun message => valueError message v
  | w => return w

/-! ## Models -/

/-- The entry for a required field that is missing. -/
def Field.missing (f : Field) (body : Dict) : ErrorDetails where
  type := "missing"
  msg := "Field required"
  input := .obj body
  ctx := none
  loc := ["body", f.name]

/-- What a field makes of its part of a body. -/
def Field.read (f : Field) (body : Dict) : Except ErrorDetails Json :=
  match Dict.get body f.name with
  | some v => (f.check v).mapError fun r => { r with loc := ["body", f.name] }
  | none => f.default.elim (.error (f.missing body)) .ok

/-- The error of a field, if it has one. -/
def Field.error (f : Field) (body : Dict) : Option ErrorDetails :=
  match f.read body with
  | .ok _ => none
  | .error e => some e

/-- `errors()`, of the body of a request. -/
def errors (fields : List Field) (body : Dict) : List ErrorDetails :=
  fields.filterMap (·.error body)

/-- The fields of the model that a body becomes, or the errors. -/
def validate (fields : List Field) (body : Dict) : Except (List ErrorDetails) Dict :=
  (fields.mapM fun f : Field => (f.read body).map fun v => (f.name, v)).mapError
    fun _ => errors fields body

/-! ## What is accepted -/

/-- A string passes exactly if it is short enough, and is left as it is. -/
theorem strCheck_str {maxLength : Option Nat} {s : String} {w : Json} :
    strCheck maxLength (.str s) = .ok w ↔ (∀ n ∈ maxLength, s.length ≤ n) ∧ w = .str s := by
  cases maxLength with
  | none =>
    exact ⟨fun h => ⟨nofun, (Except.ok.inj h).symm⟩, fun ⟨_, h⟩ => congrArg Except.ok h.symm⟩
  | some n =>
    unfold strCheck
    dsimp only
    split
    · next hle =>
      refine ⟨fun h => ⟨?_, (Except.ok.inj h).symm⟩, fun ⟨_, h⟩ => congrArg Except.ok h.symm⟩
      rintro m ⟨⟩
      exact hle
    · next hlt => exact iff_of_false nofun fun h => hlt (h.1 n rfl)

/-- An integer passes exactly if it is within the bounds. -/
theorem boundedInt_ok {ge le n : Int} {input w : Json} :
    boundedInt ge le input n = .ok w ↔ (ge ≤ n ∧ n ≤ le) ∧ w = .num (.int n) := by
  unfold boundedInt
  split
  · next h => exact iff_of_false nofun fun hb => absurd hb.1.1 (Int.not_le.2 h)
  · next h =>
    split
    · next h' => exact iff_of_false nofun fun hb => absurd hb.1.2 (Int.not_le.2 h')
    · next h' =>
      exact ⟨fun hw => ⟨⟨Int.not_lt.1 h, Int.not_lt.1 h'⟩, (Except.ok.inj hw).symm⟩,
        fun hw => congrArg Except.ok hw.2.symm⟩

/-- What passes as an integer is one within the bounds. -/
theorem intCheck_ok {ge le : Int} {v w : Json} (h : intCheck ge le v = .ok w) :
    ∃ n, (ge ≤ n ∧ n ≤ le) ∧ w = .num (.int n) := by
  cases v with
  | null | str | arr | obj => cases h
  | bool b => exact ⟨_, boundedInt_ok.1 h⟩
  | num n =>
    cases n with
    | int n => exact ⟨n, boundedInt_ok.1 h⟩
    | float q =>
      unfold intCheck at h
      dsimp only at h
      split at h
      · split at h
        · exact ⟨_, boundedInt_ok.1 h⟩
        · cases h
      · cases h
    | inf | negInf | nan => cases h

/-- A validator of a text accepts what its check accepts, unless it raises. -/
theorem Check.after_str {check : Check} {validator : String → Option String} {s : String} {w : Json}
    (hcheck : ∀ {w}, check (.str s) = .ok w → w = .str s) :
    check.after validator (.str s) = .ok w ↔ check (.str s) = .ok w ∧ validator s = none := by
  unfold Check.after
  cases hc : check (.str s) with
  | error e => exact iff_of_false nofun fun h => nomatch h.1
  | ok u =>
    obtain rfl := hcheck hc
    change (validator s).elim (.ok (.str s)) (fun message => valueError message (.str s)) = .ok w ↔
      _
    cases validator s with
    | none => exact (and_iff_left rfl).symm
    | some message => exact iff_of_false nofun fun h => nomatch h.2

/-- A field has no error exactly if it is read. -/
theorem Field.error_eq_none {f : Field} {body : Dict} :
    f.error body = none ↔ ∃ v, f.read body = .ok v := by
  unfold Field.error
  cases f.read body with
  | ok v => exact iff_of_true rfl ⟨v, rfl⟩
  | error e => exact iff_of_false nofun nofun

/-- Another exception makes no other result. -/
theorem mapError_eq_ok {α ε ε' : Type} {x : Except ε α} {f : ε → ε'} {a : α} :
    x.mapError f = .ok a ↔ x = .ok a := by
  cases x with
  | ok b =>
    constructor
    · exact fun h => congrArg Except.ok (Except.ok.inj h)
    · exact fun h => congrArg Except.ok (Except.ok.inj h)
  | error e => exact iff_of_false nofun nofun

/-- A field reads what it has in the body. -/
theorem Field.read_some {f : Field} {body : Dict} {v w : Json} (h : Dict.get body f.name = some v) :
    f.read body = .ok w ↔ f.check v = .ok w := by
  have hread : f.read body = (f.check v).mapError fun r => { r with loc := ["body", f.name] } := by
    rw [Field.read, h]
  rw [hread, mapError_eq_ok]

/-- A body is accepted with the values that its fields accept. -/
theorem validate_ok {fields : List Field} {body values : Dict} :
    validate fields body = .ok values ↔
      List.Forall₂ (fun f p => ∃ v, f.read body = .ok v ∧ p = (f.name, v)) fields values := by
  refine mapError_eq_ok.trans (mapM_eq_ok.trans ?_)
  simp only [map_eq_ok]

/-- A body is accepted just when it has no errors. -/
theorem validate_isOk {fields : List Field} {body : Dict} :
    (∃ values, validate fields body = .ok values) ↔ errors fields body = [] := by
  simp only [validate_ok]
  induction fields with
  | nil => exact iff_of_true ⟨[], .nil⟩ rfl
  | cons f fields ih =>
    have herrors : errors (f :: fields) body = [] ↔
        f.error body = none ∧ errors fields body = [] := by
      unfold errors
      rw [List.filterMap_cons]
      cases f.error body with
      | none => exact (and_iff_right rfl).symm
      | some e => exact iff_of_false nofun fun h => nomatch h.1
    rw [herrors, ← ih, Field.error_eq_none]
    constructor
    · rintro ⟨_, h⟩
      obtain ⟨p, values, ⟨v, hv, -⟩, hvalues, -⟩ := List.forall₂_cons_left_iff.1 h
      exact ⟨⟨v, hv⟩, values, hvalues⟩
    · rintro ⟨⟨v, hv⟩, values, hvalues⟩
      exact ⟨_, .cons ⟨v, hv, rfl⟩ hvalues⟩

/-- A body that is rejected is rejected with its errors. -/
theorem validate_error {fields : List Field} {body : Dict} {l : List ErrorDetails} :
    validate fields body = .error l ↔ l = errors fields body ∧ errors fields body ≠ [] := by
  have hshape : (∃ values, validate fields body = .ok values) ∨
      validate fields body = .error (errors fields body) := by
    unfold validate
    cases fields.mapM fun f : Field => (f.read body).map fun v => (f.name, v) with
    | ok values => exact .inl ⟨values, rfl⟩
    | error e => exact .inr rfl
  constructor
  · intro h
    have hnone : ¬ ∃ values, validate fields body = .ok values := by
      rintro ⟨values, hv⟩
      cases h.symm.trans hv
    exact ⟨Except.error.inj (h.symm.trans (hshape.resolve_left hnone)),
      fun he => hnone (validate_isOk.2 he)⟩
  · rintro ⟨rfl, hne⟩
    exact hshape.resolve_left fun hok => hne (validate_isOk.1 hok)

end Teamspace.Py
