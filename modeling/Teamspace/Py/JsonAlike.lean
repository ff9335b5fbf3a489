import Teamspace.Py.Json

/-!
# Values that differ under some keys only

Two JSON values of one shape that differ, at any depth, only in the values that a relation `P` lets
differ under their key (`Alike`); and those of them that differ only where objects alone lead to
(`ShallowlyAlike`), which a traversal of the objects within objects reaches. A key that stands
nowhere in a value leaves nothing to differ (`Json.Without`), and a path leads to a part of a value
(`valueAt`).
-/

namespace Teamspace.Py

section
variable (P : String → Json → Json → Prop)

mutual

/-- The values differ only in what `P` lets differ, at any depth. -/
def Alike : Json → Json → Prop
  | .arr items, w => ∃ items', w = .arr items' ∧ AlikeItems items items'
  | .obj fields, w => ∃ fields', w = .obj fields' ∧ AlikeFields fields fields'
  | .null, w => w = .null
  | .bool b, w => w = .bool b
  | .num n, w => w = .num n
  | .str s, w => w = .str s

/-- `Alike` of the items of lists. -/
def AlikeItems : List Json → List Json → Prop
  | [], l => l = []
  | v :: items, l => ∃ w items', l = w :: items' ∧ Alike v w ∧ AlikeItems items items'

/-- `Alike` of the fields of objects. -/
def AlikeFields : Dict → Dict → Prop
  | [], l => l = []
  | (k, v) :: fields, l => ∃ w fields', l = (k, w) :: fields' ∧ (P k v w ∨ Alike v w) ∧
    AlikeFields fields fields'

end

mutual

/-- The values differ only in what `P` lets differ, where objects alone lead to. -/
def ShallowlyAlike : Json → Json → Prop
  | .obj fields, w => ∃ fields', w = .obj fields' ∧ ShallowFields fields fields'
  | .null, w => w = .null
  | .bool b, w => w = .bool b
  | .num n, w => w = .num n
  | .str s, w => w = .str s
  | .arr items, w => w = .arr items

/-- `ShallowlyAlike` of the fields of objects. -/
def ShallowFields : Dict → Dict → Prop
  | [], l => l = []
  | (k, v) :: fields, l => ∃ w fields', l = (k, w) :: fields' ∧ (P k v w ∨ ShallowlyAlike v w) ∧
    ShallowFields fields fields'

end

mutual

/-- A value is alike itself. -/
theorem Alike.refl : (v : Json) → Alike P v v
  | .null | .bool _ | .num _ | .str _ => rfl
  | .arr items => ⟨items, rfl, AlikeItems.refl items⟩
  | .obj fields => ⟨fields, rfl, AlikeFields.refl fields⟩

/-- So are items. -/
theorem AlikeItems.refl : (items : List Json) → AlikeItems P items items
  | [] => rfl
  | v :: items => ⟨v, items, rfl, Alike.refl v, AlikeItems.refl items⟩

/-- So are fields. -/
theorem AlikeFields.refl : (fields : Dict) → AlikeFields P fields fields
  | [] => rfl
  | (_, v) :: fields => ⟨v, fields, rfl, .inr (Alike.refl v), AlikeFields.refl fields⟩

end

end

section
variable {P Q : String → Json → Json → Prop}

mutual

/-- What objects alone lead to is reached at any depth. -/
theorem ShallowlyAlike.alike (h : ∀ k v w, P k v w → Q k v w) :
    (v : Json) → {w : Json} → ShallowlyAlike P v w → Alike Q v w
  | .null, _, hw | .bool _, _, hw | .num _, _, hw | .str _, _, hw => hw
  | .arr items, _, rfl => ⟨items, rfl, AlikeItems.refl Q items⟩
  | .obj fields, _, ⟨fields', hw, hf⟩ => ⟨fields', hw, ShallowFields.alike h fields hf⟩

/-- Fields that are alike on the surface are alike. -/
theorem ShallowFields.alike (h : ∀ k v w, P k v w → Q k v w) : (fields : Dict) →
    {fields' : Dict} → ShallowFields P fields fields' → AlikeFields Q fields fields'
  | [], _, hl => hl
  | (k, v) :: fields, _, ⟨w, fields', hl, hvw, hf⟩ =>
    ⟨w, fields', hl, hvw.imp (h k v w) (ShallowlyAlike.alike h v), ShallowFields.alike h fields hf⟩

end

/-- A value that is neither a list nor an object. -/
def Json.IsAtom : Json → Prop
  | .arr _ | .obj _ => False
  | .null | .bool _ | .num _ | .str _ => True

/-- An atom is only alike itself. -/
theorem Alike.eq_of_atom {v w : Json} (hv : v.IsAtom) (h : Alike P v w) : w = v := by
  cases v with
  | arr | obj => exact hv.elim
  | null | bool | num | str => exact h

/-- A list or an object is alike none. -/
theorem Alike.not_atom {v w : Json} (hv : ¬ v.IsAtom) (h : Alike P v w) : ¬ w.IsAtom := by
  cases v with
  | arr items =>
    obtain ⟨_, rfl, -⟩ := h
    exact id
  | obj fields =>
    obtain ⟨_, rfl, -⟩ := h
    exact id
  | null | bool | num | str => exact absurd trivial hv

/-- A key leads to values that are alike, or that `P` lets differ. -/
theorem AlikeFields.get {fields fields' : Dict} (h : AlikeFields P fields fields') (k : String) :
    (Dict.get fields k = none ∧ Dict.get fields' k = none) ∨
      ∃ v w, Dict.get fields k = some v ∧ Dict.get fields' k = some w ∧ (P k v w ∨ Alike P v w) := by
  induction fields generalizing fields' with
  | nil =>
    cases h
    exact .inl ⟨rfl, rfl⟩
  | cons f fields ih =>
    obtain ⟨l, v⟩ := f
    obtain ⟨w, fields', rfl, hvw, hf⟩ := h
    by_cases hk : k = l
    · subst hk
      exact .inr ⟨v, w, List.lookup_cons_self, List.lookup_cons_self, hvw⟩
    · have hne : (k == l) = false := beq_false_of_ne hk
      have hget (u : Json) (d : Dict) : Dict.get ((l, u) :: d) k = Dict.get d k := by
        unfold Dict.get
        rw [List.lookup_cons, hne]
      rw [hget, hget]
      exact ih hf

end

/-! ## Keys -/

section
variable (S : String → Prop)

mutual

/-- No key of the value, at any depth, satisfies `S`. -/
def Json.Without : Json → Prop
  | .null | .bool _ | .num _ | .str _ => True
  | .arr items => ItemsWithout items
  | .obj fields => FieldsWithout fields

/-- `Json.Without` of the items of a list. -/
def ItemsWithout : List Json → Prop
  | [] => True
  | v :: items => v.Without ∧ ItemsWithout items

/-- `Json.Without` of the fields of an object. -/
def FieldsWithout : Dict → Prop
  | [] => True
  | (k, v) :: fields => ¬ S k ∧ v.Without ∧ FieldsWithout fields

end

end

/-! ## Paths -/

/-- A step from a value to a part of it. -/
inductive Step
  | key (k : String)
  | item (n : Nat)
  deriving DecidableEq, Repr

/-- The part of a value to which a path leads. -/
def valueAt : Json → List Step → Option Json
  | v, [] => some v
  | .obj fields, .key k :: path => (Dict.get fields k).bind (valueAt · path)
  | .arr items, .item n :: path => items[n]?.bind (valueAt · path)
  | _, _ :: _ => none

end Teamspace.Py
