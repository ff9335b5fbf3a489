import Mathlib.Data.List.Forall2
import Teamspace.Py.JsonAlike
import Teamspace.Py.JsonText
import Teamspace.Py.Str

/-!
# The pieces of a JSON text

Serialisers write the same values with other white space, other escapes and other literals for
numbers. Here a text is a sequence of pieces (`pieces`), in which a key stands with the colon after
it and with its value, if that is a string. What a piece may be and what may follow it does not
depend on the serialiser (`pieces_laid`), and values that differ in strings alone have pieces that
do (`pieces_alike`). `json.dumps` is one of the serialisers (`jsonDumps_text`).
-/

namespace Teamspace.Py

/-! ## Pieces -/

/-- What may stand between the quotes of a string: every quote has a backslash before it, and every
backslash a character after it. -/
inductive Literal : List Char → Prop
  | nil : Literal []
  | plain {c : Char} {s : List Char} : c ≠ '"' → c ≠ '\\' → Literal s → Literal (c :: s)
  | escape {c : Char} {s : List Char} : Literal s → Literal ('\\' :: c :: s)

/-- White space. -/
def Spaces (s : List Char) : Prop := ∀ c ∈ s, isSpace c = true

/-- A colon among white space. -/
def IsColon (s : List Char) : Prop := ∃ a b, s = a ++ ':' :: b ∧ Spaces a ∧ Spaces b

/-- A part of a text. -/
inductive Piece
  /-- A character outside strings. -/
  | plain (c : Char)
  /-- A string that is no key, and not the value of one. -/
  | value (s : List Char)
  /-- A key whose value is no string. -/
  | opening (k colon : List Char)
  /-- A key with its value. -/
  | entry (k colon s : List Char)
  deriving DecidableEq

/-- A key, up to the opening quote of its value. -/
def keyText (k colon : List Char) : List Char := '"' :: (k ++ '"' :: (colon ++ ['"']))

/-- The text of a piece. -/
def Piece.text : Piece → List Char
  | .plain c => [c]
  | .value s => '"' :: (s ++ ['"'])
  | .opening k colon => '"' :: (k ++ '"' :: colon)
  | .entry k colon s => keyText k colon ++ (s ++ ['"'])

/-- The text of a sequence of pieces. -/
def piecesText (ps : List Piece) : List Char := ps.flatMap Piece.text

/-- Characters outside strings. -/
def plains (s : List Char) : List Piece := s.map .plain

@[simp] theorem piecesText_nil : piecesText [] = [] := rfl

@[simp] theorem piecesText_cons (p : Piece) (ps : List Piece) :
    piecesText (p :: ps) = p.text ++ piecesText ps := rfl

@[simp] theorem piecesText_append (ps qs : List Piece) :
    piecesText (ps ++ qs) = piecesText ps ++ piecesText qs := List.flatMap_append

@[simp] theorem piecesText_plains (s : List Char) : piecesText (plains s) = s := by
  induction s with
  | nil => rfl
  | cons c s ih => exact congrArg (c :: ·) ih

/-! ## Serialisers -/

/-- A letter or an underscore. -/
def isWordChar (c : Char) : Bool :=
  let n := c.toNat
  (65 ≤ n && n ≤ 90) || (97 ≤ n && n ≤ 122) || c == '_'

/-- How a serialiser writes strings and numbers, and the white space it leaves in a container of a
given depth. -/
structure Serialiser where
  /-- A string, between its quotes. -/
  content : String → List Char
  /-- A number. -/
  number : Number → List Char
  /-- What stands between a key and its value. -/
  colon : List Char
  /-- The white space after the opening bracket. -/
  opened : Nat → List Char
  /-- The white space after a comma. -/
  comma : Nat → List Char
  /-- The white space before the closing bracket. -/
  closed : Nat → List Char
  literal : ∀ s, Literal (content s)
  word : ∀ s : String, s.toList.all isWordChar = true → content s = s.toList
  number_ne_nil : ∀ n, number n ≠ []
  number_plain : ∀ n, ∀ c ∈ number n, c ≠ '"' ∧ c ≠ '\\' ∧ isSpace c = false
  isColon : IsColon colon
  spaces : ∀ d, Spaces (opened d) ∧ Spaces (comma d) ∧ Spaces (closed d)

/-- A key before the pieces of its value. -/
def keyed (k colon : List Char) : List Piece → List Piece
  | .value s :: ps => .entry k colon s :: ps
  | ps => .opening k colon :: ps

section
variable (S : Serialiser)

mutual

/-- The pieces of a value within so many containers. -/
def pieces : Nat → Json → List Piece
  | _, .null => plains ['n', 'u', 'l', 'l']
  | _, .bool true => plains ['t', 'r', 'u', 'e']
  | _, .bool false => plains ['f', 'a', 'l', 's', 'e']
  | _, .num n => plains (S.number n)
  | _, .str s => [.value (S.content s)]
  | _, .arr [] => plains ['[', ']']
  | d, .arr (v :: items) =>
    .plain '[' :: (plains (S.opened d) ++ (pieces (d + 1) v ++ itemPieces d items))
  | _, .obj [] => plains ['{', '}']
  | d, .obj ((k, v) :: fields) => .plain '{' :: (plains (S.opened d) ++
    (keyed (S.content k) S.colon (pieces (d + 1) v) ++ fieldPieces d fields))

/-- The pieces of the items after the first one. -/
def itemPieces : Nat → List Json → List Piece
  | d, [] => plains (S.closed d) ++ [.plain ']']
  | d, v :: items => .plain ',' :: (plains (S.comma d) ++ (pieces (d + 1) v ++ itemPieces d items))

/-- The pieces of the fields after the first one. -/
def fieldPieces : Nat → List (String × Json) → List Piece
  | d, [] => plains (S.closed d) ++ [.plain '}']
  | d, (k, v) :: fields => .plain ',' :: (plains (S.comma d) ++
    (keyed (S.content k) S.colon (pieces (d + 1) v) ++ fieldPieces d fields))

end

/-- The text that the serialiser writes for a value. -/
def Serialiser.serialise (v : Json) : List Char := piecesText (pieces S 0 v)

end

/-! ## What follows a piece -/

/-- What follows a value: white space up to a comma or a bracket, if anything. -/
def AfterValue (s : List Char) : Prop := ∃ a r, s = a ++ r ∧ Spaces a ∧ Ends r

/-- A piece that can stand in a text. -/
def Piece.Valid : Piece → Prop
  | .plain c => c ≠ '"' ∧ c ≠ '\\'
  | .value s => Literal s
  | .opening k colon => Literal k ∧ IsColon colon
  | .entry k colon s => Literal k ∧ IsColon colon ∧ Literal s

/-- The text can follow the piece. -/
def Piece.Follows (s : List Char) : Piece → Prop
  | .plain _ => True
  | .value _ | .entry .. => AfterValue s
  | .opening .. => NotNext isSpace s ∧ NotNext (· == '"') s

/-- The pieces can stand in a text, one after the other. -/
def Laid : List Piece → Prop
  | [] => True
  | p :: ps => p.Valid ∧ p.Follows (piecesText ps) ∧ Laid ps

/-- White space is neither a quote nor a backslash. -/
theorem isSpace_plain {c : Char} (h : isSpace c = true) : c ≠ '"' ∧ c ≠ '\\' := by
  constructor
  · rintro rfl
    exact absurd h (by decide)
  · rintro rfl
    exact absurd h (by decide)

/-- A colon among white space has no quote. -/
theorem IsColon.no_quote {colon : List Char} (h : IsColon colon) : '"' ∉ colon := by
  obtain ⟨a, b, rfl, ha, hb⟩ := h
  intro hm
  rcases List.mem_append.1 hm with hm | hm
  · exact absurd (ha _ hm) (by decide)
  · rcases List.mem_cons.1 hm with hm | hm
    · exact absurd hm (by decide)
    · exact absurd (hb _ hm) (by decide)

/-- A colon among white space is literal. -/
theorem IsColon.literal {colon : List Char} (h : IsColon colon) : Literal colon := by
  have hspaces {s t : List Char} (hs : Spaces s) (ht : Literal t) : Literal (s ++ t) := by
    induction s with
    | nil => exact ht
    | cons c s ih =>
      have hc := isSpace_plain (hs c (.head _))
      exact .plain hc.1 hc.2 (ih fun d hd => hs d (.tail _ hd))
  obtain ⟨a, b, rfl, ha, hb⟩ := h
  have htail := hspaces hb .nil
  rw [List.append_nil] at htail
  exact hspaces ha (.plain (by decide) (by decide) htail)

/-- Characters that are neither quotes nor backslashes may be laid before a text. -/
theorem plains_laid {s : List Char} (hs : ∀ c ∈ s, c ≠ '"' ∧ c ≠ '\\') {ps : List Piece}
    (h : Laid ps) : Laid (plains s ++ ps) := by
  induction s with
  | nil => exact h
  | cons c s ih => exact ⟨hs c (.head _), trivial, ih fun d hd => hs d (.tail _ hd)⟩

/-- So may white space. -/
theorem spaces_laid {s : List Char} (hs : Spaces s) {ps : List Piece} (h : Laid ps) :
    Laid (plains s ++ ps) := plains_laid (fun c hc => isSpace_plain (hs c hc)) h

/-- What may follow a number may follow any value. -/
theorem Ends.afterValue {s : List Char} (h : Ends s) : AfterValue s := ⟨[], s, rfl, nofun, h⟩

/-- A comma or a closing bracket may follow a number. -/
theorem ends_cons {c : Char} {s : List Char} (h : c = ',' ∨ c = ']' ∨ c = '}') : Ends (c :: s) := by
  intro d hd
  cases hd
  exact h

/-- What does not come next does not come next in a part. -/
theorem notNext_take {p : Char → Bool} {s : List Char} (h : NotNext p s) (n : Nat) :
    NotNext p (s.take n) := by
  intro c hc
  cases s with
  | nil =>
    rw [List.take_nil] at hc
    cases hc
  | cons d s => cases n with
    | zero => cases hc
    | succ n => exact h c hc

/-- What can follow a piece can be cut. -/
theorem Piece.follows_take {p : Piece} {s : List Char} (h : p.Follows s) (n : Nat) :
    p.Follows (s.take n) := by
  have hvalue (h : AfterValue s) : AfterValue (s.take n) := by
    obtain ⟨a, r, rfl, ha, hr⟩ := h
    refine ⟨a.take n, r.take (n - a.length), List.take_append, fun c hc => ?_, fun c hc => ?_⟩
    · exact ha c (List.mem_of_mem_take hc)
    · cases r with
      | nil =>
        rw [List.take_nil] at hc
        cases hc
      | cons d r => cases hn : n - a.length with
        | zero =>
          rw [hn] at hc
          cases hc
        | succ m =>
          rw [hn] at hc
          exact hr c hc
  cases p with
  | plain c => trivial
  | value v => exact hvalue h
  | entry k colon v => exact hvalue h
  | opening k colon => exact ⟨notNext_take h.1 n, notNext_take h.2 n⟩

variable {S : Serialiser}

/-- After an item comes what may follow a value. -/
theorem afterValue_items (d : Nat) (items : List Json) (ps : List Piece) :
    AfterValue (piecesText (itemPieces S d items ++ ps)) := by
  cases items with
  | nil =>
    rw [itemPieces, List.append_assoc, piecesText_append, piecesText_plains]
    exact ⟨_, _, rfl, (S.spaces d).2.2, ends_cons (.inr (.inl rfl))⟩
  | cons v items => exact (ends_cons (.inl rfl)).afterValue

/-- After a field comes what may follow a value. -/
theorem afterValue_fields (d : Nat) (fields : Dict) (ps : List Piece) :
    AfterValue (piecesText (fieldPieces S d fields ++ ps)) := by
  cases fields with
  | nil =>
    rw [fieldPieces, List.append_assoc, piecesText_append, piecesText_plains]
    exact ⟨_, _, rfl, (S.spaces d).2.2, ends_cons (.inr (.inr rfl))⟩
  | cons f fields => exact (ends_cons (.inl rfl)).afterValue

/-- A value is a string, or its text begins with a character that is neither a quote nor a space. -/
theorem pieces_head (d : Nat) (v : Json) : (∃ s, v = .str s) ∨
    ∃ c qs, pieces S d v = .plain c :: qs ∧ c ≠ '"' ∧ isSpace c = false := by
  cases v with
  | str s => exact .inl ⟨s, rfl⟩
  | null => exact .inr ⟨_, _, rfl, by decide, by decide⟩
  | bool b => cases b with
    | true => exact .inr ⟨_, _, rfl, by decide, by decide⟩
    | false => exact .inr ⟨_, _, rfl, by decide, by decide⟩
  | num n =>
    obtain ⟨c, s, hs⟩ := List.exists_cons_of_ne_nil (S.number_ne_nil n)
    have hc := S.number_plain n c (hs ▸ .head _)
    refine .inr ⟨c, plains s, ?_, hc.1, hc.2.2⟩
    rw [pieces, hs]
    rfl
  | arr items => cases items with
    | nil => exact .inr ⟨_, _, rfl, by decide, by decide⟩
    | cons v items => exact .inr ⟨_, _, rfl, by decide, by decide⟩
  | obj fields => cases fields with
    | nil => exact .inr ⟨_, _, rfl, by decide, by decide⟩
    | cons f fields => exact .inr ⟨_, _, rfl, by decide, by decide⟩

/-- A key is laid out before its value. -/
theorem keyed_laid (k : String) {d : Nat} {v : Json} {ps : List Piece}
    (h : Laid (pieces S d v ++ ps)) (hps : AfterValue (piecesText ps)) :
    Laid (keyed (S.content k) S.colon (pieces S d v) ++ ps) := by
  obtain ⟨s, rfl⟩ | ⟨c, qs, hv, hquote, hspace⟩ := pieces_head (S := S) d v
  · exact ⟨⟨S.literal k, S.isColon, S.literal s⟩, hps, h.2.2⟩
  · rw [hv] at h ⊢
    have hnext {p : Char → Bool} (hp : p c = false) :
        NotNext p (piecesText (.plain c :: (qs ++ ps))) := notNext_cons.2 hp
    exact ⟨⟨S.literal k, S.isColon⟩, ⟨hnext hspace, hnext (beq_false_of_ne hquote)⟩, h⟩

mutual

/-- The pieces of a value can stand in a text, before what follows a value. -/
theorem pieces_laid : (v : Json) → (d : Nat) → {ps : List Piece} → Laid ps →
    AfterValue (piecesText ps) → Laid (pieces S d v ++ ps)
  | .null, _, _, h, _ | .bool true, _, _, h, _ | .bool false, _, _, h, _
  | .arr [], _, _, h, _ | .obj [], _, _, h, _ => plains_laid (by simp) h
  | .num n, _, _, h, _ =>
    plains_laid (fun c hc => ⟨(S.number_plain n c hc).1, (S.number_plain n c hc).2.1⟩) h
  | .str s, _, _, h, hps => ⟨S.literal s, hps, h⟩
  | .arr (v :: items), d, ps, h, _ => by
    have ih := pieces_laid v (d + 1) (itemPieces_laid items d h) (afterValue_items d items ps)
    rw [pieces, List.cons_append, List.append_assoc, List.append_assoc]
    exact ⟨⟨by decide, by decide⟩, trivial, spaces_laid (S.spaces d).1 ih⟩
  | .obj ((k, v) :: fields), d, ps, h, _ => by
    have hafter := afterValue_fields (S := S) d fields ps
    have ih := keyed_laid k (pieces_laid v (d + 1) (fieldPieces_laid fields d h) hafter) hafter
    rw [pieces, List.cons_append, List.append_assoc, List.append_assoc]
    exact ⟨⟨by decide, by decide⟩, trivial, spaces_laid (S.spaces d).1 ih⟩

/-- The items of a list are laid out. -/
theorem itemPieces_laid : (items : List Json) → (d : Nat) → {ps : List Piece} → Laid ps →
    Laid (itemPieces S d items ++ ps)
  | [], d, ps, h => by
    rw [itemPieces, List.append_assoc]
    exact spaces_laid (S.spaces d).2.2 ⟨⟨by decide, by decide⟩, trivial, h⟩
  | v :: items, d, ps, h => by
    have ih := pieces_laid v (d + 1) (itemPieces_laid items d h) (afterValue_items d items ps)
    rw [itemPieces, List.cons_append, List.append_assoc, List.append_assoc]
    exact ⟨⟨by decide, by decide⟩, trivial, spaces_laid (S.spaces d).2.1 ih⟩

/-- The fields of an object are laid out. -/
theorem fieldPieces_laid : (fields : Dict) → (d : Nat) → {ps : List Piece} → Laid ps →
    Laid (fieldPieces S d fields ++ ps)
  | [], d, ps, h => by
    rw [fieldPieces, List.append_assoc]
    exact spaces_laid (S.spaces d).2.2 ⟨⟨by decide, by decide⟩, trivial, h⟩
  | (k, v) :: fields, d, ps, h => by
    have hafter := afterValue_fields (S := S) d fields ps
    have ih := keyed_laid k (pieces_laid v (d + 1) (fieldPieces_laid fields d h) hafter) hafter
    rw [fieldPieces, List.cons_append, List.append_assoc, List.append_assoc]
    exact ⟨⟨by decide, by decide⟩, trivial, spaces_laid (S.spaces d).2.1 ih⟩

end

/-! ## Values that differ in strings -/

/-- The pieces are the same, or keys with property `N` whose values are as long as each other. -/
def Piece.Alike (N : List Char → Prop) (p p' : Piece) : Prop :=
  p = p' ∨ ∃ k colon s s', N k ∧ s.length = s'.length ∧
    p = .entry k colon s ∧ p' = .entry k colon s'

/-- Strings, of the same length as the serialiser writes them. -/
def Serialiser.SameLength (S : Serialiser) (v w : Json) : Prop :=
  ∃ s t, v = .str s ∧ w = .str t ∧ (S.content s).length = (S.content t).length

section
variable {N : List Char → Prop} {P : String → Json → Json → Prop}

/-- A piece is alike itself. -/
theorem Piece.Alike.refl (p : Piece) : p.Alike N p := .inl rfl

/-- Pieces are alike themselves. -/
theorem forall₂_refl (ps : List Piece) : List.Forall₂ (Piece.Alike N) ps ps :=
  List.forall₂_same.2 fun p _ => .refl p

/-- Keys before alike pieces are alike. -/
theorem keyed_alike {k colon : List Char} {ps ps' : List Piece}
    (h : List.Forall₂ (Piece.Alike N) ps ps') :
    List.Forall₂ (Piece.Alike N) (keyed k colon ps) (keyed k colon ps') := by
  cases h with
  | nil => exact .cons (.refl _) .nil
  | @cons p p' ps ps' hp h =>
    obtain rfl | ⟨k', colon', s, s', hk, hlen, rfl, rfl⟩ := hp
    · cases p with
      | value s => exact .cons (.refl _) h
      | plain | opening | entry => exact .cons (.refl _) (.cons (.refl _) h)
    · exact .cons (.refl _) (.cons (.inr ⟨k', colon', s, s', hk, hlen, rfl, rfl⟩) h)

/-- What `P` lets differ are strings of the same length, under keys with property `N`. -/
def Serialiser.OnlyStrings (S : Serialiser) (N : List Char → Prop)
    (P : String → Json → Json → Prop) : Prop :=
  ∀ k v w, P k v w → N (S.content k) ∧ S.SameLength v w

/-- The texts of one key with values of one length are alike. -/
theorem keyed_sameLength {k : String} {d : Nat} {v w : Json} (hk : N (S.content k))
    (h : S.SameLength v w) : List.Forall₂ (Piece.Alike N)
      (keyed (S.content k) S.colon (pieces S d v))
      (keyed (S.content k) S.colon (pieces S d w)) := by
  obtain ⟨s, t, rfl, rfl, hlen⟩ := h
  exact .cons (.inr ⟨_, _, _, _, hk, hlen, rfl, rfl⟩) .nil

mutual

/-- Values that differ in strings under such keys alone have pieces that do. -/
theorem pieces_alike (hP : S.OnlyStrings N P) : (v : Json) → (d : Nat) → {w : Json} → Alike P v w →
    List.Forall₂ (Piece.Alike N) (pieces S d v) (pieces S d w)
  | .null, _, _, rfl | .bool _, _, _, rfl | .num _, _, _, rfl | .str _, _, _, rfl => forall₂_refl _
  | .arr [], _, _, ⟨_, rfl, rfl⟩ => forall₂_refl _
  | .arr (v :: items), d, _, ⟨_, rfl, w, items', rfl, hv, hi⟩ =>
    .cons (.refl _) (List.rel_append (forall₂_refl _)
      (List.rel_append (pieces_alike hP v (d + 1) hv) (itemPieces_alike hP items d hi)))
  | .obj [], _, _, ⟨_, rfl, rfl⟩ => forall₂_refl _
  | .obj ((k, v) :: fields), d, _, ⟨_, rfl, w, fields', rfl, hv, hf⟩ =>
    .cons (.refl _) (List.rel_append (forall₂_refl _) (List.rel_append
      (hv.elim (fun h => keyed_sameLength (hP k v w h).1 (hP k v w h).2)
        fun h => keyed_alike (pieces_alike hP v (d + 1) h))
      (fieldPieces_alike hP fields d hf)))

/-- Items that are alike are laid out alike. -/
theorem itemPieces_alike (hP : S.OnlyStrings N P) : (items : List Json) → (d : Nat) →
    {items' : List Json} → AlikeItems P items items' →
    List.Forall₂ (Piece.Alike N) (itemPieces S d items) (itemPieces S d items')
  | [], _, _, rfl => forall₂_refl _
  | v :: items, d, _, ⟨w, items', rfl, hv, hi⟩ =>
    .cons (.refl _) (List.rel_append (forall₂_refl _)
      (List.rel_append (pieces_alike hP v (d + 1) hv) (itemPieces_alike hP items d hi)))

/-- Fields that are alike are laid out alike. -/
theorem fieldPieces_alike (hP : S.OnlyStrings N P) : (fields : Dict) → (d : Nat) →
    {fields' : Dict} → AlikeFields P fields fields' →
    List.Forall₂ (Piece.Alike N) (fieldPieces S d fields) (fieldPieces S d fields')
  | [], _, _, rfl => forall₂_refl _
  | (k, v) :: fields, d, _, ⟨w, fields', rfl, hv, hf⟩ =>
    .cons (.refl _) (List.rel_append (forall₂_refl _) (List.rel_append
      (hv.elim (fun h => keyed_sameLength (hP k v w h).1 (hP k v w h).2)
        fun h => keyed_alike (pieces_alike hP v (d + 1) h))
      (fieldPieces_alike hP fields d hf)))

end

end

/-! ## `json.dumps` -/

/-- A literal text after a literal text is literal. -/
theorem Literal.append {s t : List Char} (hs : Literal s) (ht : Literal t) : Literal (s ++ t) := by
  induction hs with
  | nil => exact ht
  | plain hquote hback _ ih => exact .plain hquote hback ih
  | escape _ ih => exact .escape ih

/-- Literal texts one after the other are literal. -/
theorem Literal.flatMap {α : Type} {l : List α} {f : α → List Char} (h : ∀ a ∈ l, Literal (f a)) :
    Literal (l.flatMap f) := by
  induction l with
  | nil => exact .nil
  | cons a l ih =>
    rw [List.flatMap_cons]
    exact (h a (.head _)).append (ih fun b hb => h b (.tail _ hb))

/-- The escape of a unit is literal. -/
theorem unicodeEscape_literal (n : Nat) : Literal (unicodeEscape n) := by
  have hdigit (k : Nat) : Nat.digitChar (k % 16) ≠ '"' ∧ Nat.digitChar (k % 16) ≠ '\\' := by
    have hall : ∀ d < 16, Nat.digitChar d ≠ '"' ∧ Nat.digitChar d ≠ '\\' := by decide +kernel
    exact hall _ (Nat.mod_lt _ (by decide))
  refine .escape ?_
  exact .plain (hdigit _).1 (hdigit _).2 (.plain (hdigit _).1 (hdigit _).2
    (.plain (hdigit _).1 (hdigit _).2 (.plain (hdigit _).1 (hdigit _).2 .nil)))

/-- The text of a character is literal. -/
theorem charText_literal (c : Char) : Literal (charText c) := by
  unfold charText
  split
  · exact .escape .nil
  · next hc =>
    split
    · refine .plain ?_ ?_ .nil
      · rintro rfl
        cases hc
      · rintro rfl
        cases hc
    · exact .flatMap fun n _ => unicodeEscape_literal n

/-- A letter or an underscore is written as it is. -/
theorem charText_word {c : Char} (h : isWordChar c = true) : charText c = [c] := by
  have hletter : escapeLetter c = none := by
    unfold escapeLetter
    rw [if_neg, if_neg, if_neg, if_neg, if_neg, if_neg, if_neg] <;>
      (rintro rfl; revert h; decide)
  have hrange : ' '.toNat ≤ c.toNat ∧ c.toNat ≤ '~'.toNat := by
    simp only [isWordChar, Bool.or_eq_true, Bool.and_eq_true, decide_eq_true_eq, beq_iff_eq] at h
    change 32 ≤ c.toNat ∧ c.toNat ≤ 126
    rcases h with h | rfl
    · omega
    · decide
  unfold charText
  rw [hletter]
  exact if_pos hrange

/-- A character that can stand in a number. -/
def Bare (c : Char) : Prop := c ≠ '"' ∧ c ≠ '\\' ∧ isSpace c = false

/-- A digit is bare. -/
theorem bare_digit {c : Char} (h : c.isDigit = true) : Bare c := by
  refine ⟨?_, ?_, ?_⟩
  · rintro rfl
    cases h
  · rintro rfl
    cases h
  · simp only [Char.isDigit, Bool.and_eq_true, decide_eq_true_eq, ge_iff_le,
      UInt32.le_iff_toNat_le] at h
    simp at h
    unfold isSpace Char.toNat
    simp
    omega

/-- The digits of a number are bare. -/
theorem bare_digits (n : Nat) : ∀ c ∈ Nat.toDigits 10 n, Bare c :=
  fun _ hc => bare_digit (Nat.isDigit_of_mem_toDigits (by decide) (by decide) hc)

/-- A literal is written with characters that can stand in a number. -/
theorem Decimal.Literal.bare {d : Decimal} (h : d.Literal) : ∀ c ∈ d.text, Bare c := by
  have hsign (b : Bool) (e : Char) (s : List Char) (he : Bare e) (hs : ∀ c ∈ s, Bare c) :
      ∀ c ∈ (if b then '-' else e) :: s, Bare c := by
    refine List.forall_mem_cons.2 ⟨?_, hs⟩
    split
    · exact ⟨by decide, by decide, by decide⟩
    · exact he
  unfold Decimal.text
  simp only [List.forall_mem_append]
  refine ⟨?_, bare_digits _, ?_, ?_⟩
  · split
    · exact List.forall_mem_singleton.2 ⟨by decide, by decide, by decide⟩
    · nofun
  · split
    · nofun
    · exact List.forall_mem_cons.2 ⟨⟨by decide, by decide, by decide⟩,
        fun c hc => bare_digit (h.fraction c hc)⟩
  · split
    · nofun
    · next negative digits he =>
      refine List.forall_mem_cons.2 ⟨⟨by decide, by decide, by decide⟩,
        hsign _ _ _ ⟨by decide, by decide, by decide⟩ fun c hc => ?_⟩
      exact bare_digit ((h.exponent (negative, digits) he).2 c hc)

/-- The text of a number is not empty and is bare. -/
theorem numberText_bare {F : FloatText} (hF : ∀ q, (F.repr q).Literal) (n : Number) :
    numberText F n ≠ [] ∧ ∀ c ∈ numberText F n, Bare c := by
  cases n with
  | int n =>
    refine ⟨fun h => Nat.toDigits_ne_nil (List.append_eq_nil_iff.1 h).2,
      List.forall_mem_append.2 ⟨?_, bare_digits _⟩⟩
    split
    · exact List.forall_mem_singleton.2 ⟨by decide, by decide, by decide⟩
    · nofun
  | float q =>
    refine ⟨fun h => ?_, (hF q).bare⟩
    exact Nat.toDigits_ne_nil (List.append_eq_nil_iff.1 (List.append_eq_nil_iff.1 h).2).1
  | inf | negInf | nan =>
    refine ⟨List.cons_ne_nil _ _, ?_⟩
    unfold numberText Bare
    simp
    decide

/-- `json.dumps`, with its default settings. -/
def jsonDumps (F : FloatText) (hF : ∀ q, (F.repr q).Literal) : Serialiser where
  content s := s.toList.flatMap charText
  number := numberText F
  colon := [':', ' ']
  opened _ := []
  comma _ := [' ']
  closed _ := []
  literal s := .flatMap fun c _ => charText_literal c
  word s h := by
    have hall : ∀ l : List Char, l.all isWordChar = true → l.flatMap charText = l := by
      intro l hl
      induction l with
      | nil => rfl
      | cons c l ih =>
        rw [List.all_cons, Bool.and_eq_true] at hl
        rw [List.flatMap_cons, charText_word hl.1, ih hl.2, List.singleton_append]
    exact hall _ h
  number_ne_nil n := (numberText_bare hF n).1
  number_plain n := (numberText_bare hF n).2
  isColon := ⟨[], [' '], rfl, nofun, List.forall_mem_singleton.2 (by decide)⟩
  spaces _ := ⟨nofun, List.forall_mem_singleton.2 (by decide), nofun⟩

/-- The text of a key and its value: the quoted key, the colon and the value. -/
theorem keyed_text (k colon : List Char) (ps : List Piece) :
    piecesText (keyed k colon ps) = '"' :: (k ++ '"' :: (colon ++ piecesText ps)) := by
  have hopening : piecesText (.opening k colon :: ps) =
      '"' :: (k ++ '"' :: (colon ++ piecesText ps)) := by
    simp only [piecesText_cons, Piece.text, List.cons_append, List.append_assoc]
  cases ps with
  | nil => exact hopening
  | cons p ps => cases p with
    | value s =>
      simp only [keyed, piecesText_cons, Piece.text, keyText, List.cons_append, List.append_assoc,
        List.nil_append]
    | plain | opening | entry => exact hopening

section
variable {F : FloatText} (hF : ∀ q, (F.repr q).Literal)

mutual

/-- The pieces of `json.dumps` make up the text of the value. -/
theorem piecesText_dumps : (v : Json) → (d : Nat) →
    piecesText (pieces (jsonDumps F hF) d v) = text F v
  | .null, _ | .bool true, _ | .bool false, _ | .arr [], _ | .obj [], _ => rfl
  | .num n, _ => piecesText_plains _
  | .str s, _ => List.append_nil _
  | .arr (v :: items), d => by
    rw [pieces, piecesText_cons, piecesText_append, piecesText_append, piecesText_plains,
      piecesText_dumps v (d + 1), itemsText_dumps items d]
    rfl
  | .obj ((k, v) :: fields), d => by
    rw [pieces, piecesText_cons, piecesText_append, piecesText_append, piecesText_plains,
      keyed_text, piecesText_dumps v (d + 1), fieldsText_dumps fields d, text, strText]
    simp only [Piece.text, jsonDumps, List.cons_append, List.append_assoc, List.nil_append]

/-- Those of a list make up the text of its items. -/
theorem itemsText_dumps : (items : List Json) → (d : Nat) →
    piecesText (itemPieces (jsonDumps F hF) d items) = itemsText F items
  | [], _ => rfl
  | v :: items, d => by
    rw [itemPieces, piecesText_cons, piecesText_append, piecesText_append, piecesText_plains,
      piecesText_dumps v (d + 1), itemsText_dumps items d]
    rfl

/-- Those of an object make up the text of its fields. -/
theorem fieldsText_dumps : (fields : Dict) → (d : Nat) →
    piecesText (fieldPieces (jsonDumps F hF) d fields) = fieldsText F fields
  | [], _ => rfl
  | (k, v) :: fields, d => by
    rw [fieldPieces, piecesText_cons, piecesText_append, piecesText_append, piecesText_plains,
      keyed_text, piecesText_dumps v (d + 1), fieldsText_dumps fields d, fieldsText, strText]
    simp only [Piece.text, jsonDumps, List.cons_append, List.append_assoc, List.nil_append]

end

/-- The text of `json.dumps` is the one that it writes as a serialiser. -/
theorem jsonDumps_text (v : Json) : (jsonDumps F hF).serialise v = text F v :=
  piecesText_dumps hF v 0

end

end Teamspace.Py
