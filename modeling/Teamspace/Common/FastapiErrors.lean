import Teamspace.Py.JsonAlike
import Teamspace.Py.JsonText
import Teamspace.Py.Str

/-!
# Masked request bodies

`mask_request_body` of `common/fastapi_errors.py`. It visits the objects within objects, not those
within lists, and it asks whether a value is an object before it asks whether its key is sensitive.
So the texts of two bodies are the same just when the bodies differ only in values that are no
objects, under sensitive keys, where objects alone lead to (`mask_request_body_hides`).
-/

namespace Teamspace.Common

open Teamspace.Py

/-- The parts of the names of sensitive keys. -/
def sensitiveParts : List String := ["secret", "key", "password", "token"]

variable (F : FloatText) (lower : String → String)

/-- Whether the lower-cased name of a key has a sensitive part. -/
def isSensitive (k : String) : Bool := sensitiveParts.any fun s => contains (lower k) s

mutual

/-- What `mask_dict` leaves under a key. -/
def maskValue (k : String) : Json → Json
  | .obj fields => .obj (maskDict fields)
  | v => if isSensitive lower k then .str "[MASKED]" else v

/-- `mask_dict`. -/
def maskDict : Dict → Dict
  | [] => []
  | (k, v) :: fields => (k, maskValue k v) :: maskDict fields

end

/-- `mask_request_body`, of the text of a body. -/
def maskRequestBody (body : String) : String :=
  match if body = "" then .ok (.obj []) else loads F body with
  | .error _ => "<unreadable>"
  | .ok (.obj fields) => dumps F (.obj (maskDict lower fields))
  | .ok _ => "<empty>"

/-! ## What the masked fields say -/

/-- A value is no object. -/
def NoObject : Json → Prop
  | .obj _ => False
  | .null | .bool _ | .num _ | .str _ | .arr _ => True

/-- Values that are masked alike: no objects, under a sensitive key. -/
def Hidden (k : String) (v w : Json) : Prop :=
  isSensitive lower k = true ∧ NoObject v ∧ NoObject w

variable {F} {lower}

/-- A value that is no object is masked as a whole or not at all. -/
theorem maskValue_of_noObject {k : String} {v : Json} (hv : NoObject v) :
    maskValue lower k v = if isSensitive lower k then .str "[MASKED]" else v := by
  cases v with
  | obj => exact hv.elim
  | null | bool | num | str | arr => rfl

/-- A value that is no object is only alike itself. -/
theorem shallowlyAlike_of_noObject {P : String → Json → Json → Prop} {v w : Json}
    (hv : NoObject v) : ShallowlyAlike P v w ↔ w = v := by
  cases v with
  | obj => exact hv.elim
  | null | bool | num | str | arr => exact Iff.rfl

/-- What is no object is not masked to an object. -/
theorem maskValue_noObject {k : String} {v : Json} (hv : NoObject v) (fields : Dict) :
    maskValue lower k v ≠ .obj fields := by
  rw [maskValue_of_noObject hv]
  split
  · nofun
  · rintro rfl
    exact hv

/-- Masking tells values apart from one that is no object, unless it hides them. -/
theorem maskValue_eq_iff_of_noObject {k : String} {v : Json} (hv : NoObject v) (w : Json) :
    maskValue lower k v = maskValue lower k w ↔
      Hidden lower k v w ∨ ShallowlyAlike (Hidden lower) v w := by
  rw [shallowlyAlike_of_noObject hv]
  by_cases hw : NoObject w
  · rw [maskValue_of_noObject hv, maskValue_of_noObject hw]
    split
    · next hs => exact iff_of_true rfl (.inl ⟨hs, hv, hw⟩)
    · next hs =>
      refine ⟨fun h => .inr h.symm, ?_⟩
      rintro (h | h)
      · exact absurd h.1 hs
      · exact h.symm
  · cases w with
    | obj fields =>
      refine iff_of_false (maskValue_noObject hv _) ?_
      rintro (⟨-, -, h⟩ | rfl)
      · exact h
      · exact hv
    | null | bool | num | str | arr => exact absurd trivial hw

/-- It tells an object from what is none. -/
theorem maskValue_obj_ne {k : String} {fields : Dict} {w : Json} (hw : NoObject w) :
    maskValue lower k (.obj fields) = maskValue lower k w ↔
      Hidden lower k (.obj fields) w ∨ ShallowlyAlike (Hidden lower) (.obj fields) w := by
  refine iff_of_false (fun h => maskValue_noObject hw _ h.symm) ?_
  rintro (⟨-, h, -⟩ | ⟨fields', rfl, -⟩)
  · exact h
  · exact hw

mutual

/-- The masked copies of two values under a key are the same just when both are hidden or they are
shallowly alike. -/
theorem maskValue_eq_iff {k : String} : (v w : Json) →
    (maskValue lower k v = maskValue lower k w ↔
      Hidden lower k v w ∨ ShallowlyAlike (Hidden lower) v w)
  | .obj fields, .obj fields' => by
    have ih := maskDict_eq_iff fields fields'
    constructor
    · intro h
      exact .inr ⟨fields', rfl, ih.1 (Json.obj.inj h)⟩
    · rintro (⟨-, h, -⟩ | ⟨_, h, hf⟩)
      · exact h.elim
      · cases h
        exact congrArg Json.obj (ih.2 hf)
  | .obj _, .null | .obj _, .bool _ | .obj _, .num _ | .obj _, .str _ | .obj _, .arr _ =>
    maskValue_obj_ne trivial
  | .null, w => maskValue_eq_iff_of_noObject (v := .null) trivial w
  | .bool b, w => maskValue_eq_iff_of_noObject (v := .bool b) trivial w
  | .num n, w => maskValue_eq_iff_of_noObject (v := .num n) trivial w
  | .str s, w => maskValue_eq_iff_of_noObject (v := .str s) trivial w
  | .arr items, w => maskValue_eq_iff_of_noObject (v := .arr items) trivial w

/-- The masked copies of two objects are the same just when the objects are shallowly alike. -/
theorem maskDict_eq_iff : (fields fields' : Dict) →
    (maskDict lower fields = maskDict lower fields' ↔ ShallowFields (Hidden lower) fields fields')
  | [], [] => iff_of_true rfl rfl
  | [], _ :: _ => iff_of_false nofun nofun
  | _ :: _, [] => iff_of_false nofun fun ⟨_, _, h, _⟩ => nomatch h
  | (k, v) :: fields, (l, w) :: fields' => by
    have ihv := maskValue_eq_iff (k := k) v w
    have ihf := maskDict_eq_iff fields fields'
    rw [maskDict, maskDict, List.cons.injEq, Prod.mk.injEq, ihf]
    constructor
    · rintro ⟨⟨rfl, hv⟩, hf⟩
      exact ⟨w, fields', rfl, ihv.1 hv, hf⟩
    · rintro ⟨w', fields'', h, hv, hf⟩
      cases h
      exact ⟨⟨rfl, ihv.2 hv⟩, hf⟩

end

/-! ## The text of the masked fields -/

/-- Masking keeps the keys. -/
theorem maskDict_keys (fields : Dict) :
    (maskDict lower fields).map Prod.fst = fields.map Prod.fst := by
  induction fields with
  | nil => rfl
  | cons f fields ih => exact congrArg (f.1 :: ·) ih

/-- A masked value that is no object is a value. -/
theorem maskValue_isValue_of_noObject {k : String} {v : Json} (hv : NoObject v)
    (h : v.IsValue F) : (maskValue lower k v).IsValue F := by
  rw [maskValue_of_noObject hv]
  split
  · trivial
  · exact h

mutual

/-- A masked value is a value. -/
theorem maskValue_isValue {k : String} : (v : Json) → v.IsValue F → (maskValue lower k v).IsValue F
  | .obj fields, h => ⟨(maskDict_keys fields).symm ▸ h.1, maskDict_areValues fields h.2⟩
  | .null, h | .bool _, h | .num _, h | .str _, h | .arr _, h =>
    maskValue_isValue_of_noObject trivial h

/-- The fields of a masked object are values. -/
theorem maskDict_areValues : (fields : Dict) → FieldsAreValues F fields →
    FieldsAreValues F (maskDict lower fields)
  | [], _ => trivial
  | (_, v) :: fields, h => ⟨maskValue_isValue v h.1, maskDict_areValues fields h.2⟩

end

/-- Values with the same text are the same. -/
theorem dumps_inj {v w : Json} (hv : v.IsValue F) (hw : w.IsValue F) :
    dumps F v = dumps F w ↔ v = w := by
  refine ⟨fun h => ?_, fun h => congrArg (dumps F) h⟩
  have hloads := congrArg (loads F) h
  rw [loads_dumps hv, loads_dumps hw] at hloads
  exact Except.ok.inj hloads

/-- A body that is an object is written as the masked object. -/
theorem maskRequestBody_eq {body : String} {fields : Dict} (h : loads F body = .ok (.obj fields)) :
    maskRequestBody F lower body = dumps F (.obj (maskDict lower fields)) := by
  have hne : body ≠ "" := by
    rintro rfl
    cases h
  unfold maskRequestBody
  rw [if_neg hne, h]

/-- A masked object is a value. -/
theorem maskDict_isValue {fields : Dict} (h : (Json.obj fields).IsValue F) :
    (Json.obj (maskDict lower fields)).IsValue F := maskValue_isValue (k := "") _ h

/-- Two bodies have the same masked text just when they are shallowly alike. -/
theorem maskRequestBody_eq_iff (hF : F.Lawful) {body body' : String} {fields fields' : Dict}
    (h : loads F body = .ok (.obj fields)) (h' : loads F body' = .ok (.obj fields')) :
    maskRequestBody F lower body = maskRequestBody F lower body' ↔
      ShallowFields (Hidden lower) fields fields' := by
  rw [maskRequestBody_eq h, maskRequestBody_eq h',
    dumps_inj (maskDict_isValue (loads_isValue hF h)) (maskDict_isValue (loads_isValue hF h')),
    Json.obj.injEq, maskDict_eq_iff]

/-! ## What is kept -/

/-- No key of the path is sensitive. -/
def Plain (lower : String → String) (path : List Step) : Prop :=
  ∀ k, .key k ∈ path → isSensitive lower k = false

/-- A value under a key that is not sensitive is kept if it is no object. -/
theorem maskValue_of_plain {k : String} {v : Json} (hk : isSensitive lower k = false)
    (hv : NoObject v) : maskValue lower k v = v := by
  rw [maskValue_of_noObject hv, hk]
  rfl

mutual

/-- A value without sensitive keys is kept. -/
theorem maskValue_of_without {k : String} (hk : ¬ isSensitive lower k = true) : (v : Json) →
    (v.Without fun k => isSensitive lower k = true) → maskValue lower k v = v
  | .obj fields, h => congrArg Json.obj (maskDict_of_without fields h)
  | .null, _ | .bool _, _ | .num _, _ | .str _, _ | .arr _, _ =>
    maskValue_of_plain (Bool.eq_false_iff.2 hk) trivial

/-- So are the fields of an object. -/
theorem maskDict_of_without : (fields : Dict) →
    FieldsWithout (fun k => isSensitive lower k = true) fields → maskDict lower fields = fields
  | [], _ => rfl
  | (_, v) :: fields, h => by
    rw [maskDict, maskValue_of_without h.1 v h.2.1, maskDict_of_without fields h.2.2]

end

/-- Under each key stands the masked value. -/
theorem get_maskDict (fields : Dict) (k : String) :
    Dict.get (maskDict lower fields) k = (Dict.get fields k).map (maskValue lower k) := by
  induction fields with
  | nil => rfl
  | cons f fields ih =>
    obtain ⟨l, v⟩ := f
    unfold Dict.get at ih ⊢
    rw [maskDict, List.lookup_cons, List.lookup_cons]
    split
    · next h => rw [← beq_iff_eq.1 h]; rfl
    · exact ih

/-- A value without sensitive keys stays where a path without them leads. -/
theorem valueAt_maskDict {path : List Step} (hpath : Plain lower path) {fields : Dict} {v : Json}
    (hv : v.Without fun k => isSensitive lower k = true)
    (h : valueAt (.obj fields) path = some v) :
    valueAt (.obj (maskDict lower fields)) path = some v := by
  induction path generalizing fields with
  | nil =>
    cases h
    rw [valueAt, maskDict_of_without fields hv]
  | cons step path ih =>
    cases step with
    | item n => cases h
    | key k =>
      have hk : isSensitive lower k = false := hpath k (.head _)
      have hpath' : Plain lower path := fun l hl => hpath l (.tail _ hl)
      rw [valueAt, Option.bind_eq_some_iff] at h
      obtain ⟨u, hu, h⟩ := h
      rw [valueAt, get_maskDict, hu, Option.map_some, Option.bind_some]
      by_cases hobj : NoObject u
      · rw [maskValue_of_plain hk hobj]
        exact h
      · cases u with
        | obj fields => exact ih hpath' h
        | null | bool | num | str | arr => exact absurd trivial hobj

/-! ## Masking -/

/-- Two bodies have the same masked text just when they are shallowly alike, as only some of those
are that differ under sensitive keys alone; and what stands apart from sensitive keys is kept. -/
theorem mask_request_body_hides (hF : F.Lawful) {body body' : String} {fields fields' : Dict}
    (h : loads F body = .ok (.obj fields)) (h' : loads F body' = .ok (.obj fields')) :
    (maskRequestBody F lower body = maskRequestBody F lower body' ↔
      ShallowFields (Hidden lower) fields fields') ∧
    (ShallowFields (Hidden lower) fields fields' →
      AlikeFields (fun k _ _ => isSensitive lower k = true) fields fields') ∧
    ∃ masked, loads F (maskRequestBody F lower body) = .ok masked ∧
      ∀ path v, Plain lower path → v.Without (fun k => isSensitive lower k = true) →
        valueAt (.obj fields) path = some v → valueAt masked path = some v := by
  refine ⟨maskRequestBody_eq_iff hF h h', ShallowFields.alike (fun _ _ _ hh => hh.1) fields,
    .obj (maskDict lower fields), ?_, fun path v hpath hv hat => valueAt_maskDict hpath hv hat⟩
  rw [maskRequestBody_eq h]
  exact loads_dumps (maskDict_isValue (loads_isValue hF h))

/-- Floating point numbers whose literals stand for no `float`: none of these bodies has one. -/
def noFloats : FloatText := ⟨fun _ => ⟨false, 0, ['0'], none⟩, fun _ => .nan⟩

/-- Where there are no floats, the law of their texts holds. -/
theorem noFloats_lawful : noFloats.Lawful := ⟨nofun⟩

/-- A body with this secret, and with this token within a list. -/
def twoSecrets (secret token : String) : Dict :=
  [("client_secret", .str secret), ("calls", .arr [.obj [("token", .str token)]])]

/-- The example is read back as it was written. -/
theorem loads_twoSecrets (secret token : String) :
    loads noFloats (dumps noFloats (.obj (twoSecrets secret token))) =
      .ok (.obj (twoSecrets secret token)) :=
  loads_dumps ⟨by simp [twoSecrets], trivial, ⟨⟨by simp, trivial, trivial⟩, trivial⟩, trivial⟩

/-- The secret of an object is masked. -/
theorem mask_request_body_hides_secret :
    maskRequestBody noFloats id (dumps noFloats (.obj (twoSecrets "abc" "t"))) =
      maskRequestBody noFloats id (dumps noFloats (.obj (twoSecrets "xyz" "t"))) :=
  (mask_request_body_hides noFloats_lawful (loads_twoSecrets "abc" "t")
    (loads_twoSecrets "xyz" "t")).1.2
      ⟨_, _, rfl, .inl ⟨by decide, trivial, trivial⟩, _, _, rfl, .inr rfl, rfl⟩

/-- The token of an object within a list is not. -/
theorem list_not_masked : ¬ ∀ (F : FloatText) (lower : String → String) (body body' : String)
    (fields fields' : Dict), F.Lawful → loads F body = .ok (.obj fields) →
      loads F body' = .ok (.obj fields') →
      AlikeFields (fun k _ _ => isSensitive lower k = true) fields fields' →
      maskRequestBody F lower body = maskRequestBody F lower body' := by
  intro h
  have hsame := h noFloats id _ _ _ _ noFloats_lawful (loads_twoSecrets "s" "abc")
    (loads_twoSecrets "s" "xyz") ⟨_, _, rfl, .inr rfl, _, _, rfl, .inr ⟨_, rfl, _, _, rfl,
      ⟨_, rfl, _, _, rfl, .inl (by decide), rfl⟩, rfl⟩, rfl⟩
  rw [maskRequestBody_eq (loads_twoSecrets "s" "abc"),
    maskRequestBody_eq (loads_twoSecrets "s" "xyz")] at hsame
  exact absurd hsame (by decide +kernel)

end Teamspace.Common
