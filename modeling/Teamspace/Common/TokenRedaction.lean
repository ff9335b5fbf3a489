import Mathlib.Data.List.Infix
import Teamspace.Lib.Separator
import Teamspace.Py.JsonLayout

/-!
# Redacted token texts

`redact_token_json` of `common/safe_auth_logger.py`. The regular expression knows no escapes: a
value ends at its first quote for it (`redact_match`), and a quote within a string can begin a
match. That happens only where the rest of the string is a name of a token field and a colon follows
it (`matchSecret_literal`), so any other string is kept (`redact_quoted`).
-/

namespace Teamspace.Common

open Teamspace.Lib Teamspace.Py

/-! ## The substitution -/

/-- `_TOKEN_FIELD_NAMES`. -/
def tokenFieldNames : List String :=
  ["access_token", "refresh_token", "id_token", "code", "client_secret"]

/-- A name and its closing quote at the start of a text, and what follows them. -/
def matchName (s : List Char) : Option (List Char × List Char) :=
  tokenFieldNames.findSome? fun name =>
    (s.dropPrefix? (name.toList ++ ['"'])).map fun rest => (name.toList, rest)

/-- `\s*:\s*"` at the start of a text: what stands before the quote, and what follows it. -/
def matchColon (s : List Char) : Option (List Char × List Char) :=
  match s.dropWhile isSpace with
  | ':' :: t =>
    match t.dropWhile isSpace with
    | '"' :: rest => some (s.takeWhile isSpace ++ ':' :: t.takeWhile isSpace, rest)
    | _ => none
  | _ => none

/-- `[^"]*"` at the start of a text: what follows it. -/
def matchRest (s : List Char) : Option (List Char) := (s.dropWhile (· != '"')).tail?

/-- `_REDACT_REGEX` at the start of a text: its first group, and what follows the match. -/
def matchSecret : List Char → Option (List Char × List Char)
  | '"' :: s => do
    let (name, s) ← matchName s
    let (colon, s) ← matchColon s
    let rest ← matchRest s
    return (keyText name colon, rest)
  | _ => none

/-- What `\1[REDACTED]\2` puts for a match, after its first group. -/
def redacted : List Char := "[REDACTED]\"".toList

/-- The substitution in a text of which the first characters, so many of them, belong to a match. -/
def redactFrom : Nat → List Char → List Char
  | _, [] => []
  | n + 1, _ :: s => redactFrom n s
  | 0, c :: s =>
    match matchSecret (c :: s) with
    | some (group, rest) => group ++ (redacted ++ redactFrom (s.length - rest.length) s)
    | none => c :: redactFrom 0 s

/-- `redact_token_json`. -/
def redactTokenJson (s : List Char) : List Char := redactFrom 0 s

/-! ## Matches -/

/-- A name of a token field. -/
def IsTokenField (name : List Char) : Prop := ∃ n ∈ tokenFieldNames, name = n.toList

/-- The name of a token field has neither quotes nor backslashes. -/
theorem IsTokenField.no_quote {name : List Char} (h : IsTokenField name) :
    '"' ∉ name ∧ '\\' ∉ name := by
  obtain ⟨n, hn, rfl⟩ := h
  have hall : ∀ n ∈ tokenFieldNames, '"' ∉ n.toList ∧ '\\' ∉ n.toList := by decide +kernel
  exact hall n hn

/-- A name is matched exactly if it is one of a token field, up to its quote. -/
theorem matchName_iff {s name rest : List Char} : matchName s = some (name, rest) ↔
    IsTokenField name ∧ s = name ++ '"' :: rest := by
  have hsound {name rest : List Char} (h : matchName s = some (name, rest)) :
      IsTokenField name ∧ s = name ++ '"' :: rest := by
    obtain ⟨n, hn, h⟩ := List.exists_of_findSome?_eq_some h
    obtain ⟨r, hr, he⟩ := Option.map_eq_some_iff.1 h
    cases he
    obtain ⟨p, hp, hs⟩ := List.dropPrefix?_eq_some_iff.1 hr
    refine ⟨⟨n, hn, rfl⟩, ?_⟩
    rw [hp, eq_of_beq hs, List.append_assoc]
    rfl
  refine ⟨hsound, ?_⟩
  rintro ⟨hname, hs⟩
  have hsome : (matchName s).isSome = true := by
    obtain ⟨n, hn, rfl⟩ := hname
    refine List.findSome?_isSome_iff.2 ⟨n, hn, ?_⟩
    have hdrop : s.dropPrefix? (n.toList ++ ['"']) = some rest :=
      List.dropPrefix?_eq_some_iff.2 ⟨_, by rw [hs, List.append_assoc]; rfl, BEq.rfl⟩
    rw [hdrop]
    rfl
  obtain ⟨⟨name', rest'⟩, h⟩ := Option.isSome_iff_exists.1 hsome
  obtain ⟨hname', hs'⟩ := hsound h
  obtain ⟨rfl, rfl⟩ := append_sep_inj hname.no_quote.1 hname'.no_quote.1 (hs ▸ hs')
  exact h

/-- White space is dropped up to where it ends. -/
theorem dropWhile_spaces {a s : List Char} (ha : Spaces a) (hs : NotNext isSpace s) :
    (a ++ s).dropWhile isSpace = s ∧ (a ++ s).takeWhile isSpace = a := by
  have hdrop : s.dropWhile isSpace = s := by
    cases s with
    | nil => rfl
    | cons c s => rw [List.dropWhile_cons_of_neg (by simp [hs c rfl])]
  have htake : s.takeWhile isSpace = [] := by
    cases s with
    | nil => rfl
    | cons c s => rw [List.takeWhile_cons_of_neg (by simp [hs c rfl])]
  constructor
  · rw [List.dropWhile_append_of_pos ha, hdrop]
  · rw [List.takeWhile_append_of_pos ha, htake, List.append_nil]

/-- What is matched when white space ends before `s`. -/
theorem matchColon_spaces {a s : List Char} (ha : Spaces a) (hs : NotNext isSpace s)
    (hcolon : NotNext (· == ':') s) : matchColon (a ++ s) = none := by
  unfold matchColon
  rw [(dropWhile_spaces ha hs).1]
  split
  · exact absurd (notNext_cons.1 hcolon) (by decide)
  · rfl

/-- What is matched after a colon and white space. -/
theorem matchColon_colon {colon s : List Char} (h : IsColon colon) (hs : NotNext isSpace s) :
    matchColon (colon ++ s) =
      s.head?.bind fun c => if c = '"' then some (colon, s.tail) else none := by
  obtain ⟨a, b, rfl, ha, hb⟩ := h
  have h₁ := dropWhile_spaces (s := ':' :: (b ++ s)) ha (notNext_cons.2 (by decide))
  have h₂ := dropWhile_spaces hb hs
  rw [List.append_assoc, List.cons_append]
  unfold matchColon
  rw [h₁.1, h₁.2]
  simp only [h₂.1, h₂.2]
  cases s with
  | nil => rfl
  | cons c s =>
    rw [List.head?_cons, Option.bind_some, List.tail_cons]
    split
    · next he =>
      obtain ⟨rfl, rfl⟩ := List.cons.inj he
      rw [if_pos rfl]
    · next hne =>
      rw [if_neg]
      rintro rfl
      exact hne s rfl

/-- A secret is matched by a name, a colon and a value. -/
theorem matchSecret_quote (s : List Char) : matchSecret ('"' :: s) = (matchName s).bind fun n =>
    (matchColon n.2).bind fun c => (matchRest c.2).bind fun rest =>
      some (keyText n.1 c.1, rest) := rfl

/-- A secret begins with a quote. -/
theorem matchSecret_other {c : Char} (hc : c ≠ '"') (s : List Char) :
    matchSecret (c :: s) = none := by
  unfold matchSecret
  split
  · next he => exact absurd (List.cons.inj he).1 hc
  · rfl

/-- A value is matched up to its quote. -/
theorem matchRest_of_quote {v rest : List Char} (hv : '"' ∉ v) :
    matchRest (v ++ '"' :: rest) = some rest := by
  have hv' : ∀ c ∈ v, (c != '"') = true := by
    intro c hc
    simp only [bne_iff_ne]
    rintro rfl
    exact hv hc
  unfold matchRest
  rw [List.dropWhile_append_of_pos hv']
  rfl

/-- A value without a quote is not matched. -/
theorem matchRest_of_no_quote {v : List Char} (hv : '"' ∉ v) : matchRest v = none := by
  have hv' : ∀ c ∈ v, (c != '"') = true := by
    intro c hc
    simp only [bne_iff_ne]
    rintro rfl
    exact hv hc
  unfold matchRest
  rw [List.dropWhile_eq_nil_iff.2 hv']
  rfl

/-! ## What the substitution leaves -/

/-- Redacting after some characters is redacting what is left. -/
theorem redactFrom_drop (n : Nat) (s : List Char) :
    redactFrom n s = redactTokenJson (s.drop n) := by
  induction s generalizing n with
  | nil =>
    rw [List.drop_nil]
    cases n with
    | zero => rfl
    | succ n => rfl
  | cons c s ih => cases n with
    | zero => rfl
    | succ n => exact ih n

/-- An empty text is not redacted. -/
theorem redact_nil : redactTokenJson [] = [] := rfl

/-- Where nothing is matched the character is kept. -/
theorem redact_of_no_match {c : Char} {s : List Char} (h : matchSecret (c :: s) = none) :
    redactTokenJson (c :: s) = c :: redactTokenJson s := by
  unfold redactTokenJson
  rw [redactFrom, h]

/-- A character that is no quote is kept. -/
theorem redact_plain {c : Char} (hc : c ≠ '"') (s : List Char) :
    redactTokenJson (c :: s) = c :: redactTokenJson s :=
  redact_of_no_match (matchSecret_other hc s)

/-- So is a text without quotes. -/
theorem redact_no_quote {a : List Char} (ha : '"' ∉ a) (s : List Char) :
    redactTokenJson (a ++ s) = a ++ redactTokenJson s := by
  induction a with
  | nil => rfl
  | cons c a ih =>
    rw [List.cons_append, redact_plain (fun hc => ha (hc ▸ .head _)), ih fun hm => ha (.tail _ hm)]
    rfl

/-- A match, up to the first quote in the value. -/
theorem redact_match {name colon v : List Char} (hname : IsTokenField name) (hcolon : IsColon colon)
    (hv : '"' ∉ v) (rest : List Char) :
    redactTokenJson (keyText name colon ++ (v ++ '"' :: rest)) =
      keyText name colon ++ (redacted ++ redactTokenJson rest) := by
  have htext : keyText name colon ++ (v ++ '"' :: rest) =
      '"' :: (name ++ '"' :: (colon ++ '"' :: (v ++ '"' :: rest))) := by
    simp only [keyText, List.cons_append, List.append_assoc, List.nil_append]
  have hmatchColon : matchColon (colon ++ '"' :: (v ++ '"' :: rest)) =
      some (colon, v ++ '"' :: rest) := matchColon_colon hcolon (notNext_cons.2 (by decide))
  have hmatch : matchSecret ('"' :: (name ++ '"' :: (colon ++ '"' :: (v ++ '"' :: rest)))) =
      some (keyText name colon, rest) := by
    rw [matchSecret_quote, matchName_iff.2 ⟨hname, rfl⟩, Option.bind_some, hmatchColon,
      Option.bind_some, matchRest_of_quote hv, Option.bind_some]
  have hdrop : (name ++ '"' :: (colon ++ '"' :: (v ++ '"' :: rest))).drop
      ((name ++ '"' :: (colon ++ '"' :: (v ++ '"' :: rest))).length - rest.length) = rest := by
    have happend : name ++ '"' :: (colon ++ '"' :: (v ++ '"' :: rest)) =
        (name ++ '"' :: (colon ++ '"' :: (v ++ ['"']))) ++ rest := by
      simp only [List.cons_append, List.append_assoc, List.nil_append]
    rw [happend, List.length_append, Nat.add_sub_cancel, List.drop_left]
  rw [htext]
  unfold redactTokenJson
  rw [redactFrom, hmatch]
  simp only
  rw [redactFrom_drop, hdrop]
  rfl

/-! ## Literals -/

/-- No match begins with a quote before such a text. -/
def NoMatch (s : List Char) : Prop := matchName s = none ∧ matchColon s = none

/-- A name that ends where a literal could go on is the literal. -/
theorem literal_name {q name s t : List Char} (hq : Literal q) (hname : '"' ∉ name ∧ '\\' ∉ name)
    (h : name ++ '"' :: t = q ++ '"' :: s) : name = q ∧ t = s := by
  induction hq generalizing name with
  | nil => cases name with
    | nil => exact ⟨rfl, (List.cons.inj h).2⟩
    | cons d name => exact absurd ((List.cons.inj h).1 ▸ .head _) hname.1
  | plain hquote _ _ ih => cases name with
    | nil => exact absurd (List.cons.inj h).1.symm hquote
    | cons d name =>
      obtain ⟨rfl, htail⟩ := List.cons.inj h
      obtain ⟨rfl, hs⟩ := ih ⟨fun hm => hname.1 (.tail _ hm), fun hm => hname.2 (.tail _ hm)⟩ htail
      exact ⟨rfl, hs⟩
  | escape _ _ => cases name with
    | nil => exact absurd (List.cons.inj h).1 (by decide)
    | cons d name => exact absurd ((List.cons.inj h).1 ▸ .head _) hname.2

/-- A literal matches nothing if it is no name before a colon. -/
theorem matchSecret_literal {q s : List Char} (hq : Literal q)
    (h : IsTokenField q → matchColon s = none) : matchSecret ('"' :: (q ++ '"' :: s)) = none := by
  rw [matchSecret_quote]
  cases hm : matchName (q ++ '"' :: s) with
  | none => rfl
  | some r =>
    obtain ⟨name, t⟩ := r
    obtain ⟨hname, ht⟩ := matchName_iff.1 hm
    obtain ⟨rfl, rfl⟩ := literal_name hq hname.no_quote ht.symm
    rw [Option.bind_some, h hname, Option.bind_none]

/-- A literal and its closing quote are kept. -/
theorem redact_literal {q s : List Char} (hq : Literal q) (hs : NoMatch s) :
    redactTokenJson (q ++ '"' :: s) = q ++ '"' :: redactTokenJson s := by
  induction hq with
  | nil =>
    refine redact_of_no_match ?_
    rw [matchSecret_quote, hs.1, Option.bind_none]
  | plain hquote _ _ ih =>
    rw [List.cons_append, redact_plain hquote, ih]
    rfl
  | @escape c q hq ih =>
    rw [List.cons_append, List.cons_append, redact_plain (by decide)]
    by_cases hc : c = '"'
    · subst hc
      rw [redact_of_no_match (matchSecret_literal hq fun _ => hs.2), ih]
      rfl
    · rw [redact_plain hc, ih]
      rfl

/-- A quoted literal is kept if nothing is matched there. -/
theorem redact_quoted {q s : List Char} (hq : Literal q) (hs : NoMatch s) :
    redactTokenJson ('"' :: (q ++ '"' :: s)) = '"' :: (q ++ '"' :: redactTokenJson s) := by
  rw [redact_of_no_match (matchSecret_literal hq fun _ => hs.2), redact_literal hq hs]

/-- A literal that is cut somewhere is kept. -/
theorem redact_cut {q b e : List Char} (hq : Literal q) (h : b ++ e = q) :
    redactTokenJson b = b := by
  induction hq generalizing b with
  | nil =>
    rw [(List.append_eq_nil_iff.1 h).1]
    rfl
  | plain hquote _ _ ih => cases b with
    | nil => rfl
    | cons d b =>
      obtain ⟨rfl, htail⟩ := List.cons.inj h
      rw [redact_plain hquote, ih htail]
  | @escape c q hq ih => cases b with
    | nil => rfl
    | cons d b =>
      obtain ⟨rfl, htail⟩ := List.cons.inj h
      rw [redact_plain (by decide)]
      cases b with
      | nil => rfl
      | cons d b =>
        obtain ⟨rfl, hq'⟩ := List.cons.inj htail
        have hbe : b ++ e = q := hq'
        have hmatch : matchName b = none := by
          cases hm : matchName b with
          | none => rfl
          | some r =>
            obtain ⟨name, t⟩ := r
            obtain ⟨hname, rfl⟩ := matchName_iff.1 hm
            have hlonger : name ++ '"' :: (t ++ e ++ ['"']) = q ++ '"' :: [] := by
              rw [← hbe]
              simp only [List.cons_append, List.append_assoc]
            have hnil := (literal_name hq hname.no_quote hlonger).2
            exact absurd (List.append_eq_nil_iff.1 hnil).2 (List.cons_ne_nil _ _)
        have hnone : matchSecret (d :: b) = none := by
          by_cases hd : d = '"'
          · rw [hd, matchSecret_quote, hmatch, Option.bind_none]
          · exact matchSecret_other hd b
        rw [redact_of_no_match hnone, ih hbe]

/-! ## What follows a string -/

/-- A character that no name of a token field begins with. -/
theorem matchName_head {c : Char} {s : List Char}
    (h : (isSpace c || c == ':' || c == ',' || c == ']' || c == '}') = true) :
    matchName (c :: s) = none := by
  cases hm : matchName (c :: s) with
  | none => rfl
  | some r =>
    obtain ⟨name, t⟩ := r
    obtain ⟨⟨n, hn, rfl⟩, hs⟩ := matchName_iff.1 hm
    have hall : ∀ n ∈ tokenFieldNames, (n.toList.head?.all fun c =>
        !(isSpace c || c == ':' || c == ',' || c == ']' || c == '}')) = true ∧
        n.toList ≠ [] := by decide +kernel
    obtain ⟨hhead, hne⟩ := hall n hn
    obtain ⟨d, l, hl⟩ := List.exists_cons_of_ne_nil hne
    rw [hl] at hs hhead
    obtain ⟨rfl, -⟩ := List.cons.inj hs
    rw [List.head?_cons, Option.all_some, h] at hhead
    cases hhead

/-- Nothing is matched by what follows a value. -/
theorem noMatch_of_afterValue {s : List Char} (h : AfterValue s) : NoMatch s := by
  obtain ⟨a, r, rfl, ha, hr⟩ := h
  refine ⟨?_, matchColon_spaces ha (hr.notNext (by decide) (by decide) (by decide))
    (hr.notNext (by decide) (by decide) (by decide))⟩
  cases a with
  | cons c a =>
    refine matchName_head ?_
    rw [ha c (.head _)]
    rfl
  | nil => cases r with
    | nil => rfl
    | cons c r =>
      refine matchName_head ?_
      rcases hr c rfl with rfl | rfl | rfl <;> decide

/-- No name is matched by a colon. -/
theorem matchName_colon {colon : List Char} (h : IsColon colon) (s : List Char) :
    matchName (colon ++ s) = none := by
  obtain ⟨a, b, rfl, ha, -⟩ := h
  cases a with
  | nil => exact matchName_head (by decide)
  | cons c a =>
    refine matchName_head ?_
    rw [ha c (.head _)]
    rfl

end Teamspace.Common
