import Mathlib.Computability.Language

/-!
# Regular expressions

Regular expressions over classes of symbols, with the language that each denotes, and the syntax
that engines share as far as it is used here: literals, escapes, dots, stars, alternatives and
groups. A text in which literals stand escaped between wildcards, in alternatives within one group,
denotes what it looks like (`mem_lang_compile`).
-/

namespace Teamspace.Lib

open Computability

/-! ## Languages -/

/-- A regular expression. -/
inductive Regex (α : Type)
  | epsilon
  /-- One symbol of a class. -/
  | symbol (p : α → Bool)
  | seq (r s : Regex α)
  | alt (r s : Regex α)
  | star (r : Regex α)

namespace Regex

variable {α : Type} {p : α → Bool} {r : Regex α} {rs ss : List (Regex α)} {s t : List α}

/-- The words that match in full. -/
def lang : Regex α → Language α
  | .epsilon => 1
  | .symbol p => {t | ∃ x, t = [x] ∧ p x = true}
  | .seq r s => r.lang * s.lang
  | .alt r s => r.lang + s.lang
  | .star r => r.lang∗

/-- A sequence. -/
def seqOf (rs : List (Regex α)) : Regex α := rs.foldr .seq .epsilon

/-- Alternatives: the first and the others. -/
def altOf (r : Regex α) : List (Regex α) → Regex α
  | [] => r
  | s :: rs => .alt r (altOf s rs)

/-- A literal. -/
def literal [DecidableEq α] (x : α) : Regex α := .symbol fun y => decide (y = x)

/-- A sequence matches a match of its head with one of its tail. -/
theorem mem_seqOf_cons : t ∈ (seqOf (r :: rs)).lang ↔
    ∃ u ∈ r.lang, ∃ v ∈ (seqOf rs).lang, u ++ v = t := Language.mem_mul

/-- Alternatives match what one of them matches. -/
theorem mem_altOf : t ∈ (altOf r rs).lang ↔ ∃ s ∈ r :: rs, t ∈ s.lang := by
  induction rs generalizing r with
  | nil => simp [altOf]
  | cons s rs ih =>
    have halt : t ∈ (altOf r (s :: rs)).lang ↔ t ∈ r.lang ∨ t ∈ (altOf s rs).lang :=
      Language.mem_add ..
    rw [halt, ih]
    simp

/-- A sequence of two parts matches a match of each. -/
theorem mem_seqOf_append : t ∈ (seqOf (rs ++ ss)).lang ↔
    ∃ u ∈ (seqOf rs).lang, ∃ v ∈ (seqOf ss).lang, u ++ v = t := by
  induction rs generalizing t with
  | nil =>
    have hnil {u : List α} : u ∈ (seqOf ([] : List (Regex α))).lang ↔ u = [] := Language.mem_one u
    simp [hnil]
  | cons r rs ih =>
    rw [List.cons_append, mem_seqOf_cons]
    constructor
    · rintro ⟨u, hu, vw, hvw, rfl⟩
      obtain ⟨v, hv, w, hw, rfl⟩ := ih.1 hvw
      exact ⟨u ++ v, mem_seqOf_cons.2 ⟨u, hu, v, hv, rfl⟩, w, hw, List.append_assoc ..⟩
    · rintro ⟨uv, huv, w, hw, rfl⟩
      obtain ⟨u, hu, v, hv, rfl⟩ := mem_seqOf_cons.1 huv
      exact ⟨u, hu, v ++ w, ih.2 ⟨v, hv, w, hw, rfl⟩, (List.append_assoc ..).symm⟩

/-- Literals match themselves. -/
theorem mem_seqOf_literals [DecidableEq α] : t ∈ (seqOf (s.map literal)).lang ↔ t = s := by
  induction s generalizing t with
  | nil => exact Language.mem_one t
  | cons x s ih =>
    rw [List.map_cons, mem_seqOf_cons]
    constructor
    · rintro ⟨_, ⟨y, rfl, hy⟩, v, hv, rfl⟩
      rw [ih.1 hv, of_decide_eq_true hy, List.singleton_append]
    · rintro rfl
      exact ⟨[x], ⟨x, rfl, decide_eq_true rfl⟩, s, ih.2 rfl, rfl⟩

/-- Any number of symbols of a class. -/
theorem mem_star_symbol : t ∈ (star (symbol p)).lang ↔ ∀ x ∈ t, p x = true := by
  have hstar : t ∈ (star (symbol p)).lang ↔
      ∃ parts : List (List α), t = parts.flatten ∧ ∀ u ∈ parts, ∃ x, u = [x] ∧ p x = true :=
    Language.mem_kstar
  rw [hstar]
  constructor
  · rintro ⟨parts, rfl, hparts⟩ x hx
    obtain ⟨u, hu, hxu⟩ := List.mem_flatten.1 hx
    obtain ⟨y, rfl, hy⟩ := hparts u hu
    rw [List.mem_singleton.1 hxu]
    exact hy
  · intro h
    refine ⟨t.map fun x => [x], ?_, ?_⟩
    · rw [← List.flatMap_def, List.flatMap_singleton']
    · intro u hu
      obtain ⟨x, hx, rfl⟩ := List.mem_map.1 hu
      exact ⟨x, rfl, h x hx⟩

end Regex

/-! ## Syntax -/

/-- A part of a text. -/
inductive RegexToken
  | char (c : Char)
  | dot
  | star
  | bar
  | opening
  | closing
  deriving DecidableEq, Repr

/-- A character that stands for itself or is an operator. None stands for the operators that are
left out. -/
def regexToken (c : Char) : Option RegexToken :=
  if c = '.' then some .dot
  else if c = '*' then some .star
  else if c = '|' then some .bar
  else if c = '(' then some .opening
  else if c = ')' then some .closing
  else if c ∈ ['[', ']', '\x7b', '\x7d', '?', '+', '^', '$', '\\'] then none
  else some (.char c)

/-- The parts of a text. A backslash escapes what is no letter and no digit. -/
def regexTokens : List Char → Option (List RegexToken)
  | [] => some []
  | '\\' :: c :: s => if c.isAlphanum then none else (regexTokens s).map (.char c :: ·)
  | c :: s => (regexToken c).bind fun t => (regexTokens s).map (t :: ·)

/-- What has been read of a group: the alternatives before the present one, and the items of this
one, each in reverse. -/
structure RegexFrame where
  alternatives : List (Regex Char)
  items : List (Regex Char)

namespace RegexFrame

def empty : RegexFrame := ⟨[], []⟩

/-- One more item. -/
def push (f : RegexFrame) (r : Regex Char) : RegexFrame := { f with items := r :: f.items }

/-- The next alternative. -/
def next (f : RegexFrame) : RegexFrame := ⟨Regex.seqOf f.items.reverse :: f.alternatives, []⟩

/-- What a group denotes. -/
def regex (f : RegexFrame) : Regex Char :=
  match f.next.alternatives.reverse with
  | r :: rs => .altOf r rs
  | [] => .epsilon

end RegexFrame

/-- The regular expression of some parts, from what has been read of the groups that are open. A
star repeats one item that is not repeated yet. -/
def parseRegex (dot : Char → Bool) :
    RegexFrame → List RegexFrame → List RegexToken → Option (Regex Char)
  | f, [], [] => some f.regex
  | _, _ :: _, [] => none
  | f, stack, .char c :: ts => parseRegex dot (f.push (.literal c)) stack ts
  | f, stack, .dot :: ts => parseRegex dot (f.push (.symbol dot)) stack ts
  | f, stack, .star :: ts =>
    match f.items with
    | [] | .star _ :: _ => none
    | r :: items => parseRegex dot { f with items := .star r :: items } stack ts
  | f, stack, .bar :: ts => parseRegex dot f.next stack ts
  | f, stack, .opening :: ts => parseRegex dot .empty (f :: stack) ts
  | _, [], .closing :: _ => none
  | f, g :: stack, .closing :: ts => parseRegex dot (g.push f.regex) stack ts

/-- The regular expression of a text, where a dot matches the characters of a class. -/
def compileRegex (dot : Char → Bool) (text : List Char) : Option (Regex Char) :=
  (regexTokens text).bind (parseRegex dot .empty [])

/-! ## Literals between wildcards -/

/-- A piece of a pattern. -/
inductive PatternPiece
  | literal (s : List Char)
  /-- Any characters that a dot matches. -/
  | wild
  deriving DecidableEq, Repr

namespace PatternPiece

/-- The text of a piece, by the text of a literal character. -/
def text (escape : Char → List Char) : PatternPiece → List Char
  | .literal s => s.flatMap escape
  | .wild => ['.', '*']

/-- The parts of its text. -/
def tokens : PatternPiece → List RegexToken
  | .literal s => s.map .char
  | .wild => [.dot, .star]

/-- Its items. -/
def items (dot : Char → Bool) : PatternPiece → List (Regex Char)
  | .literal s => s.map .literal
  | .wild => [.star (.symbol dot)]

/-- What some pieces match. -/
def Matches (dot : Char → Bool) : List PatternPiece → List Char → Prop
  | [], t => t = []
  | .literal s :: ps, t => ∃ u, t = s ++ u ∧ Matches dot ps u
  | .wild :: ps, t => ∃ u v, t = u ++ v ∧ (∀ c ∈ u, dot c = true) ∧ Matches dot ps v

end PatternPiece

/-- The alternatives of a pattern, in a group: the first and the others. -/
def patternText (escape : Char → List Char) (alternative : List PatternPiece)
    (alternatives : List (List PatternPiece)) : List Char :=
  '(' :: (alternative.flatMap (PatternPiece.text escape) ++
    alternatives.flatMap (fun ps => '|' :: ps.flatMap (PatternPiece.text escape)) ++ [')'])

section

variable {escape : Char → List Char} {dot : Char → Bool}
  (hescape : ∀ c s, regexTokens (escape c ++ s) = (regexTokens s).map (.char c :: ·))

include hescape

/-- An escaped text is read as its characters. -/
theorem regexTokens_literal (s t : List Char) : regexTokens (s.flatMap escape ++ t) =
    (regexTokens t).map (s.map .char ++ ·) := by
  induction s with
  | nil => simp
  | cons c s ih =>
    rw [List.flatMap_cons, List.append_assoc, hescape, ih, Option.map_map]
    rfl

/-- Pieces are read as their tokens. -/
theorem regexTokens_pieces (ps : List PatternPiece) (t : List Char) :
    regexTokens (ps.flatMap (PatternPiece.text escape) ++ t) =
      (regexTokens t).map (ps.flatMap PatternPiece.tokens ++ ·) := by
  induction ps with
  | nil => simp
  | cons piece ps ih =>
    rw [List.flatMap_cons, List.flatMap_cons, List.append_assoc]
    cases piece with
    | literal s =>
      rw [PatternPiece.text, regexTokens_literal hescape, ih, Option.map_map]
      simp [PatternPiece.tokens, Function.comp_def]
    | wild =>
      have hwild : regexTokens (['.', '*'] ++ (ps.flatMap (PatternPiece.text escape) ++ t)) =
          (regexTokens (ps.flatMap (PatternPiece.text escape) ++ t)).map (.dot :: .star :: ·) := by
        simp [regexTokens, regexToken, Function.comp_def]
      rw [PatternPiece.text, hwild, ih, Option.map_map]
      rfl

/-- Alternatives are read with the bars between them. -/
theorem regexTokens_alternatives (pss : List (List PatternPiece)) (t : List Char) :
    regexTokens (pss.flatMap (fun ps => '|' :: ps.flatMap (PatternPiece.text escape)) ++ t) =
      (regexTokens t).map
        (pss.flatMap (fun ps => .bar :: ps.flatMap PatternPiece.tokens) ++ ·) := by
  induction pss with
  | nil => simp
  | cons ps pss ih =>
    have hbar (u : List Char) : regexTokens ('|' :: u) = (regexTokens u).map (.bar :: ·) := by
      simp [regexTokens, regexToken]
    rw [List.flatMap_cons, List.flatMap_cons, List.append_assoc, List.cons_append, hbar,
      regexTokens_pieces hescape, ih, Option.map_map, Option.map_map]
    simp [Function.comp_def]

/-- A pattern is read as its alternatives in one group. -/
theorem regexTokens_patternText (ps : List PatternPiece) (pss : List (List PatternPiece)) :
    regexTokens (patternText escape ps pss) =
      some (.opening :: (ps.flatMap PatternPiece.tokens ++
        (pss.flatMap (fun ps => .bar :: ps.flatMap PatternPiece.tokens) ++ [.closing]))) := by
  have hopening (u : List Char) : regexTokens ('(' :: u) = (regexTokens u).map (.opening :: ·) := by
    simp [regexTokens, regexToken]
  have hclosing : regexTokens [')'] = some [.closing] := by
    simp [regexTokens, regexToken]
  rw [patternText, hopening, List.append_assoc, regexTokens_pieces hescape,
    regexTokens_alternatives hescape, hclosing]
  rfl

end

section

variable {dot : Char → Bool} {f : RegexFrame} {stack : List RegexFrame} {ts : List RegexToken}

/-- Characters are parsed to literals. -/
theorem parseRegex_chars (s : List Char) : parseRegex dot f stack (s.map .char ++ ts) =
    parseRegex dot ⟨f.alternatives, (s.map .literal).reverse ++ f.items⟩ stack ts := by
  induction s generalizing f with
  | nil => rfl
  | cons c s ih =>
    rw [List.map_cons, List.cons_append, parseRegex, ih]
    simp [RegexFrame.push]

/-- Pieces are parsed to their items. -/
theorem parseRegex_pieces (ps : List PatternPiece) :
    parseRegex dot f stack (ps.flatMap PatternPiece.tokens ++ ts) =
      parseRegex dot ⟨f.alternatives, (ps.flatMap (PatternPiece.items dot)).reverse ++ f.items⟩
        stack ts := by
  induction ps generalizing f with
  | nil => rfl
  | cons piece ps ih =>
    rw [List.flatMap_cons, List.append_assoc]
    cases piece with
    | literal s =>
      rw [PatternPiece.tokens, parseRegex_chars, ih]
      simp [PatternPiece.items]
    | wild =>
      have hwild : parseRegex dot f stack (PatternPiece.wild.tokens ++
          (ps.flatMap PatternPiece.tokens ++ ts)) =
          parseRegex dot (f.push (.star (.symbol dot))) stack
            (ps.flatMap PatternPiece.tokens ++ ts) := by
        simp [PatternPiece.tokens, parseRegex, RegexFrame.push]
      rw [hwild, ih]
      simp [PatternPiece.items, RegexFrame.push]

/-- What has been read once some alternatives have been. -/
theorem parseRegex_alternatives (pss : List (List PatternPiece)) :
    ∃ g : RegexFrame,
      parseRegex dot f stack
        (pss.flatMap (fun ps => .bar :: ps.flatMap PatternPiece.tokens) ++ ts) =
          parseRegex dot g stack ts ∧
      g.next.alternatives.reverse = f.next.alternatives.reverse ++
        pss.map fun ps => .seqOf (ps.flatMap (PatternPiece.items dot)) := by
  induction pss generalizing f with
  | nil => exact ⟨f, rfl, (List.append_nil _).symm⟩
  | cons ps pss ih =>
    rw [List.flatMap_cons, List.append_assoc, List.cons_append, parseRegex, parseRegex_pieces]
    obtain ⟨g, hg, halternatives⟩ := @ih
      ⟨f.next.alternatives, (ps.flatMap (PatternPiece.items dot)).reverse ++ f.next.items⟩
    refine ⟨g, hg, halternatives.trans ?_⟩
    simp [RegexFrame.next]

/-- The items of pieces match what the pieces match. -/
theorem mem_items {ps : List PatternPiece} {t : List Char} :
    t ∈ (Regex.seqOf (ps.flatMap (PatternPiece.items dot))).lang ↔
      PatternPiece.Matches dot ps t := by
  induction ps generalizing t with
  | nil => exact Language.mem_one t
  | cons piece ps ih =>
    rw [List.flatMap_cons, Regex.mem_seqOf_append]
    cases piece with
    | literal s =>
      simp only [PatternPiece.items, Regex.mem_seqOf_literals, exists_eq_left, ih]
      constructor
      · rintro ⟨v, hv, h⟩
        exact ⟨v, h.symm, hv⟩
      · rintro ⟨v, h, hv⟩
        exact ⟨v, hv, h.symm⟩
    | wild =>
      have hwild {u : List Char} : u ∈ (Regex.seqOf [.star (.symbol dot)]).lang ↔
          ∀ c ∈ u, dot c = true := by
        rw [Regex.mem_seqOf_cons, ← Regex.mem_star_symbol]
        constructor
        · rintro ⟨v, hv, w, hw, rfl⟩
          rw [(Language.mem_one w).1 hw, List.append_nil]
          exact hv
        · exact fun h => ⟨u, h, [], (Language.mem_one _).2 rfl, List.append_nil u⟩
      simp only [PatternPiece.items, hwild, ih]
      constructor
      · rintro ⟨u, hu, v, hv, h⟩
        exact ⟨u, v, h.symm, hu, hv⟩
      · rintro ⟨u, v, h, hu, hv⟩
        exact ⟨u, hu, v, hv, h.symm⟩

end

/-- A pattern of alternatives matches what one of them matches. -/
theorem mem_lang_compile {escape : Char → List Char} (dot : Char → Bool)
    (hescape : ∀ c s, regexTokens (escape c ++ s) = (regexTokens s).map (.char c :: ·))
    (ps : List PatternPiece) (pss : List (List PatternPiece)) :
    ∃ r, compileRegex dot (patternText escape ps pss) = some r ∧
      ∀ t, t ∈ r.lang ↔ ∃ alternative ∈ ps :: pss, PatternPiece.Matches dot alternative t := by
  obtain ⟨g, hg, halternatives⟩ := @parseRegex_alternatives dot
    ⟨[], (ps.flatMap (PatternPiece.items dot)).reverse⟩ [.empty] [.closing] pss
  have hregex : g.regex = .altOf (.seqOf (ps.flatMap (PatternPiece.items dot)))
      (pss.map fun ps => .seqOf (ps.flatMap (PatternPiece.items dot))) := by
    rw [RegexFrame.regex, halternatives]
    simp [RegexFrame.next]
  refine ⟨.seqOf [g.regex], ?_, fun t => ?_⟩
  · rw [compileRegex, regexTokens_patternText hescape, Option.bind_some, parseRegex,
      parseRegex_pieces, RegexFrame.empty, List.append_nil]
    exact hg
  · rw [Regex.mem_seqOf_cons]
    have hgroup : (∃ u ∈ g.regex.lang, ∃ v ∈ (Regex.seqOf ([] : List (Regex Char))).lang,
        u ++ v = t) ↔ t ∈ g.regex.lang := by
      constructor
      · rintro ⟨u, hu, v, hv, rfl⟩
        rw [(Language.mem_one v).1 hv, List.append_nil]
        exact hu
      · exact fun h => ⟨t, h, [], (Language.mem_one _).2 rfl, List.append_nil t⟩
    rw [hgroup, hregex, Regex.mem_altOf]
    simp only [List.mem_cons, List.mem_map, exists_eq_or_imp, exists_exists_and_eq_and, mem_items]

end Teamspace.Lib
