import Mathlib.Data.List.Forall2
import Teamspace.Common.TokenRedaction

/-!
# What is shown of token fields

The text of a JSON value is cut and redacted piece by piece. A piece leaves the same characters
whatever follows it (`redact_piece`), a value of a token field those that follow its first quote, or
all of it when the cut comes before any quote (`redact_secret`, `redact_secret_cut`). Two texts that
differ in such values alone are the same after it just when each of the values leaves the same
(`agree_pieces`): one that leaves more does not make up for one that leaves less, because the keys
would have to stand elsewhere.
-/

namespace Teamspace.Common

open Teamspace.Lib Teamspace.Py

/-! ## Texts without a dangling backslash -/

/-- A text of literals between quotes. -/
inductive Whole : List Char → Prop
  | literal {s : List Char} : Literal s → Whole s
  | quote {s w : List Char} : Literal s → Whole w → Whole (s ++ '"' :: w)

/-- Two whole texts make a whole one. -/
theorem Whole.append {s t : List Char} (hs : Whole s) (ht : Whole t) : Whole (s ++ t) := by
  induction hs with
  | literal hs => cases ht with
    | literal ht => exact .literal (hs.append ht)
    | quote hx hw =>
      rw [← List.append_assoc]
      exact .quote (hs.append hx) hw
  | quote hs _ ih =>
    rw [List.append_assoc]
    exact .quote hs ih

/-- A character that is neither a quote nor a backslash may stand before a whole text. -/
theorem Whole.cons {c : Char} {s : List Char} (hquote : c ≠ '"') (hback : c ≠ '\\')
    (hs : Whole s) : Whole (c :: s) :=
  Whole.append (.literal (.plain hquote hback .nil)) hs

/-- So may a quote. -/
theorem Whole.cons_quote {s : List Char} (hs : Whole s) : Whole ('"' :: s) := .quote .nil hs

/-- What stands before the first quote that ends a literal is determined. -/
theorem literal_unique {q p s t : List Char} (hq : Literal q) (hp : Literal p)
    (h : q ++ '"' :: s = p ++ '"' :: t) : q = p ∧ s = t := by
  induction hq generalizing p with
  | nil => cases hp with
    | nil => exact ⟨rfl, (List.cons.inj h).2⟩
    | plain hquote => exact absurd (List.cons.inj h).1.symm hquote
    | escape => exact absurd (List.cons.inj h).1 (by decide)
  | plain hquote hback _ ih => cases hp with
    | nil => exact absurd (List.cons.inj h).1 hquote
    | plain _ _ hp =>
      obtain ⟨rfl, htail⟩ := List.cons.inj h
      obtain ⟨rfl, hs⟩ := ih hp htail
      exact ⟨rfl, hs⟩
    | escape => exact absurd (List.cons.inj h).1 hback
  | escape _ ih => cases hp with
    | nil => exact absurd (List.cons.inj h).1 (by decide)
    | plain _ hback => exact absurd (List.cons.inj h).1.symm hback
    | escape hp =>
      obtain ⟨rfl, htail⟩ := List.cons.inj (List.cons.inj h).2
      obtain ⟨rfl, hs⟩ := ih hp htail
      exact ⟨rfl, hs⟩

/-- The texts are the same, or the same up to some place after two literals that differ. -/
def Aligned (s t : List Char) : Prop :=
  s = t ∨ ∃ w a b x y, Whole w ∧ Literal a ∧ Literal b ∧ a ≠ b ∧
    s = w ++ '"' :: (a ++ '"' :: (b ++ '"' :: x)) ∧ t = w ++ '"' :: (a ++ '"' :: (b ++ '"' :: y))

/-- It does not matter which text comes first. -/
theorem Aligned.symm {s t : List Char} (h : Aligned s t) : Aligned t s := by
  obtain rfl | ⟨w, a, b, x, y, hw, ha, hb, hne, rfl, rfl⟩ := h
  · exact .inl rfl
  · exact .inr ⟨w, a, b, y, x, hw, ha, hb, hne, rfl, rfl⟩

/-- A whole text may stand before both. -/
theorem Aligned.append {v s t : List Char} (hv : Whole v) (h : Aligned s t) :
    Aligned (v ++ s) (v ++ t) := by
  obtain rfl | ⟨w, a, b, x, y, hw, ha, hb, hne, rfl, rfl⟩ := h
  · exact .inl rfl
  · exact .inr ⟨v ++ w, a, b, x, y, hv.append hw, ha, hb, hne, (List.append_assoc ..).symm,
      (List.append_assoc ..).symm⟩

/-- A text is not shifted by one literal: each literal up to that place would be the one before. -/
theorem not_shifted {w a b q x y : List Char} (hw : Whole w) (ha : Literal a) (hb : Literal b)
    (hq : Literal q) (h : q ++ '"' :: (w ++ '"' :: (a ++ '"' :: (b ++ '"' :: y))) =
      w ++ '"' :: (a ++ '"' :: (b ++ '"' :: x))) : a = b := by
  induction hw generalizing q with
  | literal hw =>
    obtain ⟨rfl, h⟩ := literal_unique hq hw h
    obtain ⟨rfl, h⟩ := literal_unique hq ha h
    exact (literal_unique hq hb h).1
  | quote hs _ ih =>
    rw [List.append_assoc, List.append_assoc, List.cons_append, List.cons_append] at h
    obtain ⟨rfl, h⟩ := literal_unique hq hs h
    exact ih hq h

/-- One text is not the other one behind a literal and its quote. -/
theorem Aligned.not_shifted {s t q : List Char} (h : Aligned s t) (hq : Literal q) :
    q ++ '"' :: t ≠ s := by
  intro he
  obtain rfl | ⟨w, a, b, x, y, hw, ha, hb, hne, rfl, rfl⟩ := h
  · have hlen := congrArg List.length he
    rw [List.length_append, List.length_cons] at hlen
    omega
  · exact hne (Common.not_shifted hw ha hb hq he)

/-! ## Pieces -/

/-- A value up to its closing quote has a first quote, and after it nothing or a literal and the
closing quote. -/
theorem value_quote {v : List Char} (hv : Literal v) : ∃ a rest, '"' ∉ a ∧
    v ++ ['"'] = a ++ '"' :: rest ∧ (rest = [] ∨ ∃ q, Literal q ∧ rest = q ++ ['"']) := by
  induction hv with
  | nil => exact ⟨[], [], List.not_mem_nil, rfl, .inl rfl⟩
  | @plain c s hquote hback _ ih =>
    obtain ⟨a, rest, ha, he, hrest⟩ := ih
    refine ⟨c :: a, rest, ?_, congrArg (c :: ·) he, hrest⟩
    exact List.not_mem_cons_of_ne_of_not_mem (Ne.symm hquote) ha
  | @escape c s hs ih =>
    by_cases hc : c = '"'
    · subst hc
      exact ⟨['\\'], s ++ ['"'], by decide, rfl, .inr ⟨s, hs, rfl⟩⟩
    · obtain ⟨a, rest, ha, he, hrest⟩ := ih
      refine ⟨'\\' :: c :: a, rest, ?_, congrArg ('\\' :: c :: ·) he, hrest⟩
      exact List.not_mem_cons_of_ne_of_not_mem (by decide)
        (List.not_mem_cons_of_ne_of_not_mem (Ne.symm hc) ha)

/-- What is shown of a value, of which `u` stands in the text. -/
def shown (u : List Char) : List Char := (matchRest u).elim u (redacted ++ ·)

/-- What is shown of two values is the same: they are the same, or the same follows their first
quotes. -/
def SameShown (u u' : List Char) : Prop :=
  u = u' ∨ ∃ rest, matchRest u = some rest ∧ matchRest u' = some rest

/-- What is shown of two values is the same exactly if they are, or what follows their first quotes
is. -/
theorem sameShown_iff {u u' : List Char} : shown u = shown u' ↔ SameShown u u' := by
  have hquote {u rest : List Char} (h : matchRest u = none) : u ≠ redacted ++ rest := by
    rintro rfl
    have hsplit : redacted ++ rest = "[REDACTED]".toList ++ '"' :: rest := rfl
    rw [hsplit, matchRest_of_quote (by decide)] at h
    cases h
  unfold shown SameShown
  cases hu : matchRest u with
  | none => cases hu' : matchRest u' with
    | none => exact ⟨.inl, fun h => h.elim id fun ⟨_, h, _⟩ => nomatch h⟩
    | some rest' =>
      refine iff_of_false (hquote hu) ?_
      rintro (rfl | ⟨_, ⟨⟩, -⟩)
      rw [hu] at hu'
      cases hu'
  | some rest => cases hu' : matchRest u' with
    | none =>
      refine iff_of_false (fun h => hquote hu' h.symm) ?_
      rintro (rfl | ⟨_, -, ⟨⟩⟩)
      rw [hu] at hu'
      cases hu'
    | some rest' =>
      constructor
      · intro h
        exact .inr ⟨rest, rfl, congrArg some (List.append_cancel_left h).symm⟩
      · rintro (rfl | ⟨_, ⟨⟩, ⟨⟩⟩)
        · rw [hu] at hu'
          cases hu'
          rfl
        · rfl

/-- What is left of a literal is kept, and the redaction goes on behind it. -/
theorem redact_rest {rest s : List Char} (hrest : rest = [] ∨ ∃ q, Literal q ∧ rest = q ++ ['"'])
    (hs : AfterValue s) : redactTokenJson (rest ++ s) = rest ++ redactTokenJson s := by
  obtain rfl | ⟨q, hq, rfl⟩ := hrest
  · rfl
  · rw [List.append_assoc, List.append_assoc]
    exact redact_literal hq (noMatch_of_afterValue hs)

/-- The value of a token field, of which the text has the end. -/
theorem redact_secret {name colon v : List Char} (hname : IsTokenField name)
    (hcolon : IsColon colon) (hv : Literal v) {s : List Char} (hs : AfterValue s) :
    redactTokenJson (keyText name colon ++ (v ++ '"' :: s)) =
      keyText name colon ++ (shown (v ++ ['"']) ++ redactTokenJson s) := by
  obtain ⟨a, rest, ha, he, hrest⟩ := value_quote hv
  have hsplit : v ++ '"' :: s = a ++ '"' :: (rest ++ s) := by
    have := congrArg (· ++ s) he
    simpa only [List.append_assoc, List.cons_append, List.nil_append] using this
  rw [hsplit, redact_match hname hcolon ha, redact_rest hrest hs, he, shown, matchRest_of_quote ha,
    Option.elim_some, List.append_assoc]

/-- Without a quote there is no name. -/
theorem matchName_no_quote {u : List Char} (hu : '"' ∉ u) : matchName u = none := by
  cases hm : matchName u with
  | none => rfl
  | some r =>
    obtain ⟨name, t⟩ := r
    obtain ⟨-, rfl⟩ := matchName_iff.1 hm
    exact absurd (List.mem_append_right _ (.head _)) hu

/-- A value without an end is not redacted. -/
theorem redact_no_end {name colon u : List Char} (hname : '"' ∉ name) (hcolon : IsColon colon)
    (hu : '"' ∉ u) : redactTokenJson (keyText name colon ++ u) = keyText name colon ++ u := by
  have htext : keyText name colon ++ u = '"' :: (name ++ '"' :: (colon ++ '"' :: u)) := by
    simp only [keyText, List.cons_append, List.append_assoc, List.nil_append]
  have hvalue : matchSecret ('"' :: u) = none := by
    rw [matchSecret_quote, matchName_no_quote hu, Option.bind_none]
  have hclose : matchSecret ('"' :: (colon ++ '"' :: u)) = none := by
    rw [matchSecret_quote, matchName_colon hcolon, Option.bind_none]
  have hkey : matchSecret ('"' :: (name ++ '"' :: (colon ++ '"' :: u))) = none := by
    rw [matchSecret_quote]
    cases hm : matchName (name ++ '"' :: (colon ++ '"' :: u)) with
    | none => rfl
    | some r =>
      obtain ⟨name', t⟩ := r
      obtain ⟨hfield, ht⟩ := matchName_iff.1 hm
      obtain ⟨-, rfl⟩ := append_sep_inj hname hfield.no_quote.1 ht
      rw [Option.bind_some, matchColon_colon hcolon (notNext_cons.2 (by decide))]
      exact congrArg (Option.bind · _) (matchRest_of_no_quote hu)
  have hend := redact_no_quote hu []
  rw [List.append_nil, redact_nil, List.append_nil] at hend
  rw [htext, redact_of_no_match hkey, redact_no_quote hname, redact_of_no_match hclose,
    redact_no_quote hcolon.no_quote, redact_of_no_match hvalue, hend]

/-- The value of a token field that is cut somewhere. -/
theorem redact_secret_cut {name colon u e : List Char} (hname : IsTokenField name)
    (hcolon : IsColon colon) (hv : Literal (u ++ e)) :
    redactTokenJson (keyText name colon ++ u) = keyText name colon ++ shown u := by
  by_cases hu : '"' ∈ u
  · obtain ⟨a, b, rfl, ha⟩ := List.eq_append_cons_of_mem hu
    obtain ⟨a', rest, ha', he, hrest⟩ := value_quote hv
    rw [List.append_assoc, List.append_assoc] at he
    obtain ⟨rfl, hb⟩ := append_sep_inj ha ha' he
    have hcut : redactTokenJson b = b := by
      obtain rfl | ⟨q, hq, rfl⟩ := hrest
      · have hnil := (List.append_eq_nil_iff.1 hb).2
        exact absurd (List.append_eq_nil_iff.1 hnil).2 (List.cons_ne_nil _ _)
      · have hq' : b ++ e = q := List.append_cancel_right ((List.append_assoc ..).trans hb)
        exact redact_cut hq hq'
    rw [redact_match hname hcolon ha, hcut, shown, matchRest_of_quote ha]
    rfl
  · rw [redact_no_end hname.no_quote.1 hcolon hu, shown, matchRest_of_no_quote hu]
    rfl

/-! ## Other pieces -/

/-- The end of a key with its value, before `s`. -/
def fromKey (k colon v s : List Char) : List Char := k ++ '"' :: (colon ++ '"' :: (v ++ '"' :: s))

/-- What is shown of a literal is whole. -/
theorem whole_shown {v : List Char} (hv : Literal v) : Whole (shown (v ++ ['"'])) := by
  obtain ⟨a, rest, ha, he, hrest⟩ := value_quote hv
  have hredacted : Literal "[REDACTED]".toList := by
    repeat refine .plain (by decide) (by decide) ?_
    exact .nil
  rw [he, shown, matchRest_of_quote ha, Option.elim_some]
  refine Whole.quote hredacted ?_
  obtain rfl | ⟨q, hq, rfl⟩ := hrest
  · exact .literal .nil
  · exact .quote hq (.literal .nil)

section
variable {k colon v : List Char} (hk : Literal k) (hcolon : IsColon colon) (hv : Literal v)
include hk hcolon hv

/-- A quote before the end of a key, where a name of a token field can be. -/
theorem redact_quote_key (h : ∃ w, Whole w ∧ ∀ s, AfterValue s →
      redactTokenJson (fromKey k colon v s) = w ++ redactTokenJson s) :
    ∃ w, Whole w ∧ ∀ s, AfterValue s →
      redactTokenJson ('"' :: fromKey k colon v s) = '"' :: (w ++ redactTokenJson s) := by
  by_cases hname : IsTokenField k
  · refine ⟨k ++ '"' :: (colon ++ '"' :: shown (v ++ ['"'])),
      .quote hk (.quote hcolon.literal (whole_shown hv)), fun s hs => ?_⟩
    have htext : '"' :: fromKey k colon v s = keyText k colon ++ (v ++ '"' :: s) := by
      simp only [fromKey, keyText, List.cons_append, List.append_assoc, List.nil_append]
    rw [htext, redact_secret hname hcolon hv hs]
    simp only [keyText, List.cons_append, List.append_assoc, List.nil_append]
  · obtain ⟨w, hw, h⟩ := h
    refine ⟨w, hw, fun s hs => ?_⟩
    have hnone : matchSecret ('"' :: fromKey k colon v s) = none :=
      matchSecret_literal hk fun hf => absurd hf hname
    rw [redact_of_no_match hnone, h s hs]

/-- What is left of the end of a key and its value does not depend on what follows. -/
theorem redact_fromKey : ∃ w, Whole w ∧ ∀ s, AfterValue s →
    redactTokenJson (fromKey k colon v s) = w ++ redactTokenJson s := by
  induction hk with
  | nil =>
    refine ⟨'"' :: (colon ++ '"' :: (v ++ ['"'])),
      .quote .nil (.quote hcolon.literal (.quote hv (.literal .nil))), fun s hs => ?_⟩
    have hclose : matchSecret ('"' :: (colon ++ '"' :: (v ++ '"' :: s))) = none := by
      rw [matchSecret_quote, matchName_colon hcolon, Option.bind_none]
    rw [fromKey, List.nil_append, redact_of_no_match hclose, redact_no_quote hcolon.no_quote,
      redact_quoted hv (noMatch_of_afterValue hs)]
    simp only [List.cons_append, List.append_assoc, List.nil_append]
  | @plain c k hquote hback _ ih =>
    obtain ⟨w, hw, h⟩ := ih
    refine ⟨c :: w, hw.cons hquote hback, fun s hs => ?_⟩
    have hcons : fromKey (c :: k) colon v s = c :: fromKey k colon v s := rfl
    rw [hcons, redact_plain hquote, h s hs]
    rfl
  | @escape c k hk ih =>
    have hcons (s : List Char) :
        fromKey ('\\' :: c :: k) colon v s = '\\' :: c :: fromKey k colon v s := rfl
    by_cases hc : c = '"'
    · subst hc
      obtain ⟨w, hw, h⟩ := redact_quote_key hk hcolon hv ih
      refine ⟨'\\' :: '"' :: w, Whole.append (.literal (.escape .nil)) hw, fun s hs => ?_⟩
      rw [hcons, redact_plain (by decide), h s hs]
      rfl
    · obtain ⟨w, hw, h⟩ := ih
      refine ⟨'\\' :: c :: w, Whole.append (.literal (.escape .nil)) hw, fun s hs => ?_⟩
      rw [hcons, redact_plain (by decide), redact_plain hc, h s hs]
      rfl

end

/-- What is left of a piece does not depend on what follows. -/
theorem redact_piece {p : Piece} (hp : p.Valid) : ∃ w, Whole w ∧ ∀ s, p.Follows s →
    redactTokenJson (p.text ++ s) = w ++ redactTokenJson s := by
  cases p with
  | plain c => exact ⟨[c], .literal (.plain hp.1 hp.2 .nil), fun s _ => redact_plain hp.1 s⟩
  | value v =>
    refine ⟨'"' :: (v ++ ['"']), .quote .nil (.quote hp (.literal .nil)), fun s hs => ?_⟩
    rw [Piece.text, List.cons_append, List.append_assoc]
    refine (redact_quoted hp (noMatch_of_afterValue hs)).trans ?_
    simp only [List.cons_append, List.append_assoc, List.nil_append]
  | opening k colon =>
    obtain ⟨hk, hcolon⟩ := hp
    refine ⟨'"' :: (k ++ '"' :: colon), .quote .nil (.quote hk (.literal hcolon.literal)),
      fun s hs => ?_⟩
    have hnone : matchColon (colon ++ s) = none := by
      rw [matchColon_colon hcolon hs.1]
      cases s with
      | nil => rfl
      | cons c s => exact if_neg (by simpa using notNext_cons.1 hs.2)
    rw [Piece.text, List.cons_append, List.append_assoc, List.cons_append,
      redact_quoted hk ⟨matchName_colon hcolon s, hnone⟩, redact_no_quote hcolon.no_quote]
    simp only [List.cons_append, List.append_assoc]
  | entry k colon v =>
    obtain ⟨hk, hcolon, hv⟩ := hp
    obtain ⟨w, hw, h⟩ := redact_quote_key hk hcolon hv (redact_fromKey hk hcolon hv)
    refine ⟨'"' :: w, hw.cons_quote, fun s hs => ?_⟩
    rw [← List.cons_append.symm, ← h s hs, Piece.text]
    simp only [fromKey, keyText, List.cons_append, List.append_assoc, List.nil_append]

/-! ## A text that is cut -/

instance (name : List Char) : Decidable (IsTokenField name) :=
  inferInstanceAs (Decidable (∃ n ∈ tokenFieldNames, name = n.toList))

/-- What stands in the first `n` characters of a piece of the value of a token field, with its
closing quote. -/
def visibleOf (n : Nat) : Piece → List (List Char)
  | .entry k colon v =>
    if IsTokenField k then [(v ++ ['"']).take (n - (keyText k colon).length)] else []
  | .plain _ | .value _ | .opening .. => []

/-- What stands in the first `n` characters of a text of the values of token fields. -/
def visible : Nat → List Piece → List (List Char)
  | _, [] => []
  | n, p :: ps => visibleOf n p ++ visible (n - p.text.length) ps

/-- The text that is redacted. -/
def cut (n : Nat) (ps : List Piece) : List Char := (piecesText ps).take n

/-- The pieces are the same but for the values of token fields. -/
def SecretsApart : List Piece → List Piece → Prop := List.Forall₂ (Piece.Alike IsTokenField)

/-- Of one value the same is shown. -/
theorem sameShown_refl (u : List Char) : SameShown u u := .inl rfl

/-- A piece that both texts begin with makes no difference. -/
theorem visibleOf_append (n : Nat) (p : Piece) {l l' : List (List Char)} :
    List.Forall₂ SameShown (visibleOf n p ++ l) (visibleOf n p ++ l') ↔
      List.Forall₂ SameShown l l' := by
  have hone (u : List Char) : List.Forall₂ SameShown (u :: l) (u :: l') ↔
      List.Forall₂ SameShown l l' :=
    List.forall₂_cons.trans (and_iff_right (sameShown_refl u))
  cases p with
  | plain | value | opening => exact Iff.rfl
  | entry k colon v =>
    rw [visibleOf]
    split
    · exact hone _
    · exact Iff.rfl

/-- Where the text ends, no more is visible. -/
theorem visible_zero {ps ps' : List Piece} (h : SecretsApart ps ps') :
    List.Forall₂ SameShown (visible 0 ps) (visible 0 ps') := by
  induction h with
  | nil => exact .nil
  | @cons p p' ps ps' hp _ ih =>
    have hof : visibleOf 0 p' = visibleOf 0 p := by
      obtain rfl | ⟨k, colon, v, v', hk, -, rfl, rfl⟩ := hp
      · rfl
      · simp only [visibleOf, Nat.zero_sub, List.take_zero]
    unfold visible
    rw [hof, Nat.zero_sub, Nat.zero_sub]
    exact (visibleOf_append 0 p).2 ih

/-- A text is cut piece by piece. -/
theorem cut_cons (n : Nat) (p : Piece) (ps : List Piece) :
    cut n (p :: ps) = p.text.take n ++ cut (n - p.text.length) ps := List.take_append

/-- The text is cut within a piece that starts alike. -/
theorem cut_within {n : Nat} {p : Piece} (h : n ≤ p.text.length) (ps : List Piece) :
    cut n (p :: ps) = p.text.take n := by
  rw [cut_cons, Nat.sub_eq_zero_of_le h, cut, List.take_zero, List.append_nil]

/-- The redacted texts are the same just when what is shown of the values is. -/
def Agree (n : Nat) (ps ps' : List Piece) : Prop :=
  Aligned (redactTokenJson (cut n ps)) (redactTokenJson (cut n ps')) ∧
    (redactTokenJson (cut n ps) = redactTokenJson (cut n ps') ↔
      List.Forall₂ SameShown (visible n ps) (visible n ps'))

/-- Texts that are cut to the same, with the same shown of them, agree. -/
theorem agree_of_eq {n : Nat} {ps ps' : List Piece} (h : cut n ps = cut n ps')
    (hv : List.Forall₂ SameShown (visible n ps) (visible n ps')) : Agree n ps ps' := by
  unfold Agree
  rw [h]
  exact ⟨.inl rfl, iff_of_true rfl hv⟩

/-- One piece that is the same. -/
theorem agree_same {p : Piece} {ps ps' : List Piece} (hp : p.Valid)
    (hps : p.Follows (piecesText ps)) (hps' : p.Follows (piecesText ps')) (h : SecretsApart ps ps')
    (ih : ∀ n, Agree n ps ps') (n : Nat) : Agree n (p :: ps) (p :: ps') := by
  by_cases hn : n ≤ p.text.length
  · refine agree_of_eq (by rw [cut_within hn, cut_within hn]) ?_
    unfold visible
    rw [Nat.sub_eq_zero_of_le hn]
    exact (visibleOf_append n p).2 (visible_zero h)
  · obtain ⟨w, hw, hredact⟩ := redact_piece hp
    obtain ⟨haligned, hiff⟩ := ih (n - p.text.length)
    have hcut (qs : List Piece) (hqs : p.Follows (piecesText qs)) :
        redactTokenJson (cut n (p :: qs)) = w ++ redactTokenJson (cut (n - p.text.length) qs) := by
      rw [cut_cons, List.take_of_length_le (Nat.le_of_not_le hn)]
      exact hredact _ (p.follows_take hqs _)
    unfold Agree visible
    rw [hcut ps hps, hcut ps' hps', visibleOf_append, List.append_right_inj, ← hiff]
    exact ⟨haligned.append hw, Iff.rfl⟩

/-- Two texts behind the same key of a token field are aligned. -/
theorem aligned_secret {k colon : List Char} (hk : IsTokenField k) (hcolon : IsColon colon)
    (s t : List Char) : Aligned (keyText k colon ++ s) (keyText k colon ++ t) := by
  have htext (s : List Char) :
      keyText k colon ++ s = [] ++ '"' :: (k ++ '"' :: (colon ++ '"' :: s)) := by
    simp only [keyText, List.cons_append, List.append_assoc, List.nil_append]
  have hliteral {l : List Char} (hl : '"' ∉ l ∧ '\\' ∉ l) : Literal l := by
    induction l with
    | nil => exact .nil
    | cons c l ih =>
      refine .plain (fun h => hl.1 (h ▸ .head _)) (fun h => hl.2 (h ▸ .head _)) (ih ⟨?_, ?_⟩)
      · exact fun hm => hl.1 (.tail _ hm)
      · exact fun hm => hl.2 (.tail _ hm)
  have hne : k ≠ colon := by
    rintro rfl
    obtain ⟨n, hn, rfl⟩ := hk
    obtain ⟨a, b, he, -, -⟩ := hcolon
    have hall : ∀ n ∈ tokenFieldNames, ':' ∉ n.toList := by decide +kernel
    exact hall n hn (he ▸ List.mem_append_right _ (.head _))
  exact .inr ⟨[], k, colon, s, t, .literal .nil, hliteral hk.no_quote, hcolon.literal, hne, htext s,
    htext t⟩

/-- Texts after values of a token field that are alike only when the values are shown alike. -/
theorem shown_append_iff {v v' s t : List Char} (hv : Literal v) (hv' : Literal v')
    (h : Aligned s t) : shown (v ++ ['"']) ++ s = shown (v' ++ ['"']) ++ t ↔
      SameShown (v ++ ['"']) (v' ++ ['"']) ∧ s = t := by
  rw [← sameShown_iff]
  constructor
  · intro he
    obtain ⟨a, rest, ha, hva, hrest⟩ := value_quote hv
    obtain ⟨a', rest', ha', hva', hrest'⟩ := value_quote hv'
    have hshown : shown (v ++ ['"']) = redacted ++ rest := by
      rw [hva, shown, matchRest_of_quote ha]
      rfl
    have hshown' : shown (v' ++ ['"']) = redacted ++ rest' := by
      rw [hva', shown, matchRest_of_quote ha']
      rfl
    rw [hshown, hshown', List.append_assoc, List.append_assoc, List.append_right_inj] at he
    rw [hshown, hshown', List.append_right_inj]
    obtain rfl | ⟨q, hq, rfl⟩ := hrest
    · obtain rfl | ⟨q', hq', rfl⟩ := hrest'
      · exact ⟨rfl, he⟩
      · rw [List.append_assoc] at he
        exact absurd he.symm (h.not_shifted hq')
    · rw [List.append_assoc] at he
      obtain rfl | ⟨q', hq', rfl⟩ := hrest'
      · exact absurd he (h.symm.not_shifted hq)
      · rw [List.append_assoc] at he
        obtain ⟨rfl, rfl⟩ := literal_unique hq hq' he
        exact ⟨rfl, rfl⟩
  · rintro ⟨he, rfl⟩
    rw [he]

/-- A text that ends within its first entry is cut there. -/
theorem cut_entry {n : Nat} {k colon v : List Char} (h : n ≤ (keyText k colon ++ v).length)
    (ps : List Piece) : cut n (.entry k colon v :: ps) = (keyText k colon ++ v).take n := by
  have htext : (Piece.entry k colon v).text = keyText k colon ++ v ++ ['"'] :=
    (List.append_assoc ..).symm
  rw [cut_within (by rw [htext, List.length_append]; omega), htext,
    List.take_append_of_le_length h]

/-- Then only a part of the entry's value is visible. -/
theorem visible_entry {n : Nat} {k colon v : List Char} (hk : IsTokenField k)
    (h : n ≤ (keyText k colon ++ v).length) (ps : List Piece) :
    visible n (.entry k colon v :: ps) =
      v.take (n - (keyText k colon).length) :: visible 0 ps := by
  have hlen : (Piece.entry k colon v).text.length = (keyText k colon ++ v).length + 1 := by
    simp only [Piece.text, List.length_append, List.length_cons, List.length_nil]
    omega
  rw [List.length_append] at h
  have hzero : n - ((keyText k colon).length + v.length + 1) = 0 := by omega
  rw [visible, visibleOf, if_pos hk, hlen, List.length_append,
    List.take_append_of_le_length (by omega), hzero]
  rfl

/-- A token field with two values. -/
theorem agree_secret {k colon v v' : List Char} {ps ps' : List Piece} (hk : IsTokenField k)
    (hp : (Piece.entry k colon v).Valid) (hp' : (Piece.entry k colon v').Valid)
    (hlen : v.length = v'.length) (hps : AfterValue (piecesText ps))
    (hps' : AfterValue (piecesText ps')) (h : SecretsApart ps ps') (ih : ∀ n, Agree n ps ps')
    (n : Nat) : Agree n (.entry k colon v :: ps) (.entry k colon v' :: ps') := by
  obtain ⟨-, hcolon, hv⟩ := hp
  obtain ⟨-, -, hv'⟩ := hp'
  by_cases hvalue : n ≤ (keyText k colon ++ v).length
  · have hvalue' : n ≤ (keyText k colon ++ v').length := by
      rwa [List.length_append, ← hlen, ← List.length_append]
    have hone (u u' : List Char) :
        List.Forall₂ SameShown (u :: visible 0 ps) (u' :: visible 0 ps') ↔ SameShown u u' :=
      List.forall₂_cons.trans (and_iff_left (visible_zero h))
    unfold Agree
    rw [cut_entry hvalue, cut_entry hvalue', visible_entry hk hvalue, visible_entry hk hvalue',
      hone]
    by_cases hkey : n ≤ (keyText k colon).length
    · rw [List.take_append_of_le_length hkey, List.take_append_of_le_length hkey,
        Nat.sub_eq_zero_of_le hkey, List.take_zero, List.take_zero]
      exact ⟨.inl rfl, iff_of_true rfl (sameShown_refl [])⟩
    · have htake (u : List Char) : (keyText k colon ++ u).take n =
          keyText k colon ++ u.take (n - (keyText k colon).length) := by
        rw [List.take_append, List.take_of_length_le (Nat.le_of_not_le hkey)]
      have hcut {u : List Char} (hu : Literal u) (m : Nat) :
          redactTokenJson (keyText k colon ++ u.take m) = keyText k colon ++ shown (u.take m) :=
        redact_secret_cut (e := u.drop m) hk hcolon (by rwa [List.take_append_drop])
      rw [htake, htake, hcut hv, hcut hv', List.append_right_inj, sameShown_iff]
      exact ⟨aligned_secret hk hcolon _ _, Iff.rfl⟩
  · have hsplit {v : List Char} (hv : Literal v) (hn : ¬ n ≤ (keyText k colon ++ v).length)
        (qs : List Piece) (hqs : AfterValue (piecesText qs)) :
        redactTokenJson (cut n (.entry k colon v :: qs)) = keyText k colon ++ (shown (v ++ ['"']) ++
          redactTokenJson (cut (n - ((keyText k colon).length + (v.length + 1))) qs)) ∧
        visible n (.entry k colon v :: qs) = (v ++ ['"']) ::
          visible (n - ((keyText k colon).length + (v.length + 1))) qs := by
      rw [List.length_append] at hn
      have hlen : (Piece.entry k colon v).text.length =
          (keyText k colon).length + (v.length + 1) := by
        simp only [Piece.text, List.length_append, List.length_cons, List.length_nil]
      constructor
      · have hafter := (Piece.value v).follows_take hqs
          (n - ((keyText k colon).length + (v.length + 1)))
        rw [cut_cons, List.take_of_length_le (by omega), hlen, Piece.text, List.append_assoc,
          List.append_assoc]
        exact redact_secret hk hcolon hv hafter
      · rw [visible, visibleOf, if_pos hk, hlen, List.take_of_length_le]
        · rfl
        · rw [List.length_append, List.length_singleton]
          omega
    have hvalue' : ¬ n ≤ (keyText k colon ++ v').length := by
      rwa [List.length_append, ← hlen, ← List.length_append]
    obtain ⟨hcut, hvisible⟩ := hsplit hv hvalue ps hps
    obtain ⟨hcut', hvisible'⟩ := hsplit hv' hvalue' ps' hps'
    rw [← hlen] at hcut' hvisible'
    obtain ⟨haligned, hiff⟩ := ih (n - ((keyText k colon).length + (v.length + 1)))
    unfold Agree
    rw [hcut, hcut', hvisible, hvisible', List.append_right_inj, shown_append_iff hv hv' haligned,
      List.forall₂_cons, hiff]
    exact ⟨aligned_secret hk hcolon _ _, Iff.rfl⟩

/-- The redacted texts of pieces that differ in values of token fields are the same just when what
is shown of each value is. -/
theorem agree_pieces {ps ps' : List Piece} (h : SecretsApart ps ps') (hps : Laid ps)
    (hps' : Laid ps') (n : Nat) : Agree n ps ps' := by
  induction h generalizing n with
  | nil => exact agree_of_eq rfl .nil
  | @cons p p' ps ps' hp h ih =>
    obtain ⟨hvalid, hfollows, hps⟩ := hps
    obtain ⟨hvalid', hfollows', hps'⟩ := hps'
    obtain rfl | ⟨k, colon, v, v', hk, hlen, rfl, rfl⟩ := hp
    · exact agree_same hvalid hfollows hfollows' h (ih hps hps') n
    · exact agree_secret hk hvalid hvalid' hlen hfollows hfollows' h (ih hps hps') n

end Teamspace.Common
