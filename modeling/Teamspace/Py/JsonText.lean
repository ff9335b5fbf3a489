import Mathlib.Data.List.TakeWhile
import Mathlib.Data.Nat.Notation
import Teamspace.Py.Json

/-!
# JSON texts

`json.dumps` with its default settings, and `json.loads`, on the values of `Teamspace.Py.Json`. A
value is read back from its text (`loads_dumps`), and what is read is a value (`loads_isValue`).
Which decimal literal stands for a `float`, and which `float` a literal stands for, is the affair of
`repr` and `float`, given by a `FloatText`. Texts are sequences of characters without surrogates, so
an escaped surrogate that has no partner is not read. The limits of the module itself, on the digits
of an integer and on the depth of nesting, are left out.
-/

namespace Teamspace.Py

/-! ## Texts of values -/

/-- A decimal literal: its sign, its whole part, the digits after the point if it has one, and the
sign and the digits of its exponent if it has one. -/
structure Decimal where
  negative : Bool
  whole : Nat
  fraction : List Char
  exponent : Option (Bool × List Char)
  deriving DecidableEq, Repr

/-- How a `float` is written and read. -/
structure FloatText where
  /-- `repr(q)`. -/
  repr : Rat → Decimal
  /-- `float(text)`, for a text with a point or an exponent. -/
  float : Decimal → Number

/-- The text of a literal. -/
def Decimal.text (d : Decimal) : List Char :=
  (if d.negative then ['-'] else []) ++ (Nat.toDigits 10 d.whole ++
    ((if d.fraction = [] then [] else '.' :: d.fraction) ++
      match d.exponent with
      | none => []
      | some (negative, digits) => 'e' :: (if negative then '-' else '+') :: digits))

/-- `'\\u{0:04x}'.format(n)`. -/
def unicodeEscape (n : Nat) : List Char :=
  ['\\', 'u', Nat.digitChar (n / 4096 % 16), Nat.digitChar (n / 256 % 16),
    Nat.digitChar (n / 16 % 16), Nat.digitChar (n % 16)]

/-- The code units of a character: itself, or a pair of surrogates. -/
def codeUnits (c : Char) : List Nat :=
  if c.toNat < 0x10000 then [c.toNat]
  else [0xd800 + (c.toNat - 0x10000) / 0x400, 0xdc00 + (c.toNat - 0x10000) % 0x400]

/-- The letter of the escape of a character that has one, `ESCAPE_DCT`. -/
def escapeLetter (c : Char) : Option Char :=
  if c = '"' then some '"'
  else if c = '\\' then some '\\'
  else if c = '\x08' then some 'b'
  else if c = '\x0c' then some 'f'
  else if c = '\n' then some 'n'
  else if c = '\r' then some 'r'
  else if c = '\t' then some 't'
  else none

/-- A character within a string. -/
def charText (c : Char) : List Char :=
  match escapeLetter c with
  | some e => ['\\', e]
  | none =>
    if ' '.toNat ≤ c.toNat ∧ c.toNat ≤ '~'.toNat then [c]
    else (codeUnits c).flatMap unicodeEscape

/-- A string. -/
def strText (s : List Char) : List Char := '"' :: (s.flatMap charText ++ ['"'])

/-- A number. -/
def numberText (F : FloatText) : Number → List Char
  | .int n => (if n < 0 then ['-'] else []) ++ Nat.toDigits 10 n.natAbs
  | .float q => (F.repr q).text
  | .inf => "Infinity".toList
  | .negInf => "-Infinity".toList
  | .nan => "NaN".toList

mutual

/-- The text of a value. -/
def text (F : FloatText) : Json → List Char
  | .null => "null".toList
  | .bool true => "true".toList
  | .bool false => "false".toList
  | .num n => numberText F n
  | .str s => strText s.toList
  | .arr [] => ['[', ']']
  | .arr (v :: items) => '[' :: (text F v ++ itemsText F items)
  | .obj [] => ['{', '}']
  | .obj ((k, v) :: fields) =>
    '{' :: (strText k.toList ++ ':' :: ' ' :: (text F v ++ fieldsText F fields))

/-- The items after the first one. -/
def itemsText (F : FloatText) : List Json → List Char
  | [] => [']']
  | v :: items => ',' :: ' ' :: (text F v ++ itemsText F items)

/-- The fields after the first one. -/
def fieldsText (F : FloatText) : List (String × Json) → List Char
  | [] => ['}']
  | (k, v) :: fields =>
    ',' :: ' ' :: (strText k.toList ++ ':' :: ' ' :: (text F v ++ fieldsText F fields))

end

/-- `json.dumps(v)`. -/
def dumps (F : FloatText) (v : Json) : String := String.ofList (text F v)

/-! ## Reading texts -/

/-- Leave out white space. -/
def skipSpace (s : List Char) : List Char :=
  s.dropWhile fun c => c = ' ' || c = '\t' || c = '\n' || c = '\r'

/-- The value of a hexadecimal digit. -/
def hexValue (c : Char) : Option Nat :=
  let n := c.toNat
  if '0'.toNat ≤ n ∧ n ≤ '9'.toNat then some (n - '0'.toNat)
  else if 'a'.toNat ≤ n ∧ n ≤ 'f'.toNat then some (n - 'a'.toNat + 10)
  else if 'A'.toNat ≤ n ∧ n ≤ 'F'.toNat then some (n - 'A'.toNat + 10)
  else none

/-- The character that an escape stands for, `BACKSLASH`. -/
def unescape (c : Char) : Option Char :=
  if c = '"' then some '"'
  else if c = '\\' then some '\\'
  else if c = '/' then some '/'
  else if c = 'b' then some '\x08'
  else if c = 'f' then some '\x0c'
  else if c = 'n' then some '\n'
  else if c = 'r' then some '\r'
  else if c = 't' then some '\t'
  else none

/-- The code units of a string up to its closing quote, and what follows it. -/
def scanUnits : List Char → Option (List Nat × List Char)
  | [] => none
  | '"' :: s => some ([], s)
  | '\\' :: 'u' :: a :: b :: c :: d :: s => do
    let n := (← hexValue a) * 4096 + (← hexValue b) * 256 + (← hexValue c) * 16 + (← hexValue d)
    let (units, rest) ← scanUnits s
    return (n :: units, rest)
  | '\\' :: c :: s => do
    let c ← unescape c
    let (units, rest) ← scanUnits s
    return (c.toNat :: units, rest)
  | c :: s =>
    if c.toNat < ' '.toNat then none
    else do
      let (units, rest) ← scanUnits s
      return (c.toNat :: units, rest)

/-- The characters that code units stand for. -/
def ofUnits : List Nat → Option (List Char)
  | [] => some []
  | [u] => if u.isValidChar then some [Char.ofNat u] else none
  | u :: v :: units =>
    if (0xd800 ≤ u ∧ u < 0xdc00) ∧ (0xdc00 ≤ v ∧ v < 0xe000) then do
      return Char.ofNat (0x10000 + (u - 0xd800) * 0x400 + (v - 0xdc00)) :: (← ofUnits units)
    else if u.isValidChar then do
      return Char.ofNat u :: (← ofUnits (v :: units))
    else none

/-- A string after its opening quote. -/
def scanString (s : List Char) : Option (List Char × List Char) := do
  let (units, rest) ← scanUnits s
  return (← ofUnits units, rest)

/-- The digits at the start of a text, and what follows them. -/
def spanDigits (s : List Char) : List Char × List Char :=
  (s.takeWhile Char.isDigit, s.dropWhile Char.isDigit)

/-- A whole number: a zero, or digits that do not begin with one. -/
def scanWhole : List Char → Option (Nat × List Char)
  | '0' :: s => some (0, s)
  | s =>
    match spanDigits s with
    | ([], _) => none
    | (digits, rest) => some (Nat.ofDigitChars 10 digits 0, rest)

/-- The digits after a point, if there is one with digits. -/
def scanFraction : List Char → List Char × List Char
  | '.' :: s =>
    match spanDigits s with
    | ([], _) => ([], '.' :: s)
    | (digits, rest) => (digits, rest)
  | s => ([], s)

/-- The sign of an exponent, after its letter. -/
def scanSign : List Char → Bool × List Char
  | '-' :: s => (true, s)
  | '+' :: s => (false, s)
  | s => (false, s)

/-- An exponent, if there is one with digits. -/
def scanExponent (s : List Char) : Option (Bool × List Char) × List Char :=
  match s with
  | 'e' :: s' | 'E' :: s' =>
    let (negative, s') := scanSign s'
    match spanDigits s' with
    | ([], _) => (none, s)
    | (digits, rest) => (some (negative, digits), rest)
  | _ => (none, s)

/-- A number after its sign. -/
def scanUnsigned (F : FloatText) (negative : Bool) (s : List Char) :
    Option (Number × List Char) :=
  match scanWhole s with
  | none => none
  | some (whole, s) =>
    let (fraction, s) := scanFraction s
    let (exponent, s) := scanExponent s
    some (if fraction = [] ∧ exponent = none then .int (if negative then -whole else whole)
      else F.float ⟨negative, whole, fraction, exponent⟩, s)

/-- A number. -/
def scanNumber (F : FloatText) : List Char → Option (Number × List Char)
  | '-' :: s => scanUnsigned F true s
  | s => scanUnsigned F false s

/-- The values that are written as words. -/
def words : List (List Char × Json) :=
  [(['n', 'u', 'l', 'l'], .null),
    (['t', 'r', 'u', 'e'], .bool true),
    (['f', 'a', 'l', 's', 'e'], .bool false),
    (['N', 'a', 'N'], .num .nan),
    (['I', 'n', 'f', 'i', 'n', 'i', 't', 'y'], .num .inf),
    (['-', 'I', 'n', 'f', 'i', 'n', 'i', 't', 'y'], .num .negInf)]

/-- A value that is written as a word. -/
def scanWord (s : List Char) : Option (Json × List Char) :=
  words.findSome? fun w => (s.dropPrefix? w.1).map fun rest => (w.2, rest)

/-- A value that is neither a string, a list nor an object. -/
def scanAtom (F : FloatText) (s : List Char) : Option (Json × List Char) :=
  match scanWord s with
  | some r => some r
  | none => (scanNumber F s).map fun p => (.num p.1, p.2)

mutual

/-- `scan_once`: a value at the start of a text, and what follows it. The number bounds the
nesting. -/
def scanOnce (F : FloatText) : Nat → List Char → Option (Json × List Char)
  | 0, _ => none
  | n + 1, s =>
    match s with
    | '"' :: s => (scanString s).map fun p => (.str (String.ofList p.1), p.2)
    | '[' :: s =>
      match skipSpace s with
      | ']' :: s => some (.arr [], s)
      | s => (scanItems F n s).map fun p => (.arr p.1, p.2)
    | '{' :: s =>
      match skipSpace s with
      | '}' :: s => some (.obj [], s)
      | s => (scanFields F n s).map fun p =>
        (.obj (p.1.foldl (fun d f => Dict.set d f.1 f.2) []), p.2)
    | s => scanAtom F s

/-- The items of a list, up to its bracket. -/
def scanItems (F : FloatText) : Nat → List Char → Option (List Json × List Char)
  | 0, _ => none
  | n + 1, s => do
    let (v, s) ← scanOnce F n s
    match skipSpace s with
    | ']' :: s => return ([v], s)
    | ',' :: s =>
      let (items, s) ← scanItems F n (skipSpace s)
      return (v :: items, s)
    | _ => none

/-- The fields of an object, up to its brace. -/
def scanFields (F : FloatText) : Nat → List Char → Option (List (String × Json) × List Char)
  | 0, _ => none
  | n + 1, s =>
    match s with
    | '"' :: s => do
      let (k, s) ← scanString s
      match skipSpace s with
      | ':' :: s =>
        let (v, s) ← scanOnce F n (skipSpace s)
        match skipSpace s with
        | '}' :: s => return ([(String.ofList k, v)], s)
        | ',' :: s =>
          let (fields, s) ← scanFields F n (skipSpace s)
          return ((String.ofList k, v) :: fields, s)
        | _ => none
      | _ => none
    | _ => none

end

/-- `json.loads(raw)`. -/
def loads (F : FloatText) (raw : String) : Except Exn Json :=
  match scanOnce F (raw.length + 1) (skipSpace raw.toList) with
  | some (v, rest) => if skipSpace rest = [] then .ok v else .error .valueError
  | none => .error .valueError

/-! ## Values that are read back -/

/-- A literal of digits that has a point or an exponent. -/
structure Decimal.Literal (d : Decimal) : Prop where
  fraction : ∀ c ∈ d.fraction, c.isDigit = true
  exponent : ∀ e ∈ d.exponent, e.2 ≠ [] ∧ ∀ c ∈ e.2, c.isDigit = true
  notWhole : ¬ (d.fraction = [] ∧ d.exponent = none)

/-- `repr` writes `q` as a literal of which `float` makes `q` again, as it does for every
`float`. -/
structure FloatText.IsFloat (F : FloatText) (q : Rat) : Prop where
  literal : (F.repr q).Literal
  reads : F.float (F.repr q) = .float q

mutual

/-- A value as the interpreter has it: its numbers are an `int` or a `float`, and the keys of an
object are distinct. -/
def Json.IsValue (F : FloatText) : Json → Prop
  | .null | .bool _ | .str _ => True
  | .num (.float q) => F.IsFloat q
  | .num (.int _) | .num .inf | .num .negInf | .num .nan => True
  | .arr items => AreValues F items
  | .obj fields => (fields.map Prod.fst).Nodup ∧ FieldsAreValues F fields

/-- `Json.IsValue` of the items of a list. -/
def AreValues (F : FloatText) : List Json → Prop
  | [] => True
  | v :: items => v.IsValue F ∧ AreValues F items

/-- `Json.IsValue` of the fields of an object. -/
def FieldsAreValues (F : FloatText) : List (String × Json) → Prop
  | [] => True
  | (_, v) :: fields => v.IsValue F ∧ FieldsAreValues F fields

end

/-! ## Numbers -/

/-- No character with property `p` comes next. -/
def NotNext (p : Char → Bool) (s : List Char) : Prop := ∀ c ∈ s.head?, p c = false

/-- What comes next is the first character. -/
theorem notNext_cons {p : Char → Bool} {c : Char} {s : List Char} :
    NotNext p (c :: s) ↔ p c = false := by simp [NotNext]

/-- Digits are read up to where they end. -/
theorem spanDigits_append {ds s : List Char} (hd : ∀ c ∈ ds, c.isDigit = true)
    (hs : NotNext Char.isDigit s) : spanDigits (ds ++ s) = (ds, s) := by
  unfold spanDigits
  rw [List.takeWhile_append_of_pos hd, List.dropWhile_append_of_pos hd]
  cases s with
  | nil => rw [List.takeWhile_nil, List.append_nil, List.dropWhile_nil]
  | cons c s =>
    rw [List.takeWhile_cons, List.dropWhile_cons, notNext_cons.1 hs]
    exact Prod.ext (List.append_nil ds) rfl

/-- A number that is not zero has a first digit that is not zero. -/
theorem toDigits_head {n : Nat} (hn : 0 < n) :
    ∃ c cs, Nat.toDigits 10 n = c :: cs ∧ c ≠ '0' := by
  induction n using Nat.strong_induction_on with
  | _ n ih =>
    by_cases h : n < 10
    · refine ⟨_, _, Nat.toDigits_of_lt_base h, fun hz => ?_⟩
      rw [Nat.digitChar_eq_zero] at hz
      omega
    · obtain ⟨c, cs, hc, hne⟩ := ih (n / 10) (by omega) (by omega)
      exact ⟨c, _, by rw [Nat.toDigits_of_base_le (by decide) (by omega), hc]; rfl, hne⟩

/-- The digits of a number are read as the number. -/
theorem scanWhole_toDigits {n : Nat} {s : List Char} (hs : NotNext Char.isDigit s) :
    scanWhole (Nat.toDigits 10 n ++ s) = some (n, s) := by
  by_cases hn : n = 0
  · subst hn
    rfl
  · obtain ⟨c, cs, hc, hne⟩ := toDigits_head (Nat.pos_of_ne_zero hn)
    have hspan : spanDigits (Nat.toDigits 10 n ++ s) = (Nat.toDigits 10 n, s) := spanDigits_append
      (fun c hc => Nat.isDigit_of_mem_toDigits (by decide) (by decide) hc) hs
    have hval : Nat.ofDigitChars 10 (Nat.toDigits 10 n) 0 = n := Nat.ofDigitChars_ten_toDigits
    unfold scanWhole
    split
    · next s' he =>
      rw [hc, List.cons_append] at he
      exact absurd (List.cons.inj he).1 hne
    · rw [hspan]
      rw [hc] at hval ⊢
      exact congrArg (fun n => some (n, s)) hval

/-- What may follow a number within a text. -/
def Ends (s : List Char) : Prop := ∀ c ∈ s.head?, c = ',' ∨ c = ']' ∨ c = '}'

/-- What may follow a number is none of its characters. -/
theorem Ends.notNext {s : List Char} (hs : Ends s) {p : Char → Bool} (h₁ : p ',' = false)
    (h₂ : p ']' = false) (h₃ : p '}' = false) : NotNext p s := by
  intro c hc
  rcases hs c hc with rfl | rfl | rfl
  · exact h₁
  · exact h₂
  · exact h₃

/-- A fraction is read up to where its digits end. -/
theorem scanFraction_text {ds s : List Char} (hd : ∀ c ∈ ds, c.isDigit = true)
    (hs : NotNext Char.isDigit s) (hpoint : NotNext (· == '.') s) :
    scanFraction ((if ds = [] then [] else '.' :: ds) ++ s) = (ds, s) := by
  split
  · next hnil =>
    subst hnil
    cases s with
    | nil => rfl
    | cons c s =>
      have hc : c ≠ '.' := by simpa using notNext_cons.1 hpoint
      unfold scanFraction
      split
      · next s' he => exact absurd (List.cons.inj he).1 hc
      · rfl
  · next hne =>
    cases ds with
    | nil => exact absurd rfl hne
    | cons d ds =>
      change (match spanDigits (d :: ds ++ s) with | ([], _) => _ | (digits, rest) => _) = _
      rw [spanDigits_append hd hs]

/-- The text of an exponent. -/
def exponentText : Option (Bool × List Char) → List Char
  | none => []
  | some (negative, digits) => 'e' :: (if negative then '-' else '+') :: digits

/-- An exponent is read up to where its digits end. -/
theorem scanExponent_text {e : Option (Bool × List Char)} {s : List Char}
    (he : ∀ x ∈ e, x.2 ≠ [] ∧ ∀ c ∈ x.2, c.isDigit = true) (hs : Ends s) :
    scanExponent (exponentText e ++ s) = (e, s) := by
  cases e with
  | none =>
    cases s with
    | nil => rfl
    | cons c s => rcases hs c rfl with rfl | rfl | rfl <;> rfl
  | some x =>
    obtain ⟨negative, digits⟩ := x
    obtain ⟨hne, hd⟩ := he _ rfl
    cases digits with
    | nil => exact absurd rfl hne
    | cons d ds =>
      have hspan := spanDigits_append hd (hs.notNext rfl rfl rfl)
      cases negative
      all_goals
        change (match spanDigits (d :: ds ++ s) with | ([], _) => _ | (digits, rest) => _) = _
        rw [hspan]

section
variable {F : FloatText} {s : List Char}

/-- The digits of a number, with nothing after them, are read as an integer. -/
theorem scanUnsigned_int {n : Nat} (negative : Bool) (hs : Ends s) :
    scanUnsigned F negative (Nat.toDigits 10 n ++ s) =
      some (.int (if negative then -(n : Int) else n), s) := by
  have hf : scanFraction s = ([], s) := @scanFraction_text [] s nofun
    (hs.notNext rfl rfl rfl) (hs.notNext rfl rfl rfl)
  have he : scanExponent s = (none, s) := scanExponent_text (e := none) nofun hs
  simp only [scanUnsigned, scanWhole_toDigits (hs.notNext rfl rfl rfl), hf, he, true_and, if_true]

/-- A decimal literal is read as the float of it. -/
theorem scanUnsigned_decimal {d : Decimal} (hd : d.Literal) (hs : Ends s) :
    scanUnsigned F d.negative (Nat.toDigits 10 d.whole ++
      ((if d.fraction = [] then [] else '.' :: d.fraction) ++ (exponentText d.exponent ++ s))) =
      some (F.float d, s) := by
  have notNext : ∀ {p : Char → Bool}, p ',' = false → p ']' = false → p '}' = false →
      p 'e' = false → NotNext p (exponentText d.exponent ++ s) := by
    intro p h₁ h₂ h₃ h₄
    cases d.exponent with
    | none => exact hs.notNext h₁ h₂ h₃
    | some e => exact notNext_cons.2 h₄
  have hf := scanFraction_text hd.fraction (notNext rfl rfl rfl rfl) (notNext rfl rfl rfl rfl)
  have hw : NotNext Char.isDigit ((if d.fraction = [] then [] else '.' :: d.fraction) ++
      (exponentText d.exponent ++ s)) := by
    split
    · exact notNext rfl rfl rfl rfl
    · exact notNext_cons.2 rfl
  simp only [scanUnsigned, scanWhole_toDigits hw, hf, scanExponent_text hd.exponent hs,
    if_neg hd.notWhole]

/-- A text that begins otherwise does not have the prefix. -/
theorem dropPrefix?_of_ne {c d : Char} (h : c ≠ d) (w : List Char) :
    (c :: s).dropPrefix? (d :: w) = none := by
  rw [List.dropPrefix?, if_neg (by simpa using h)]

/-- No word begins with a digit. -/
theorem scanWord_digit {c : Char} (hc : c.isDigit = true) : scanWord (c :: s) = none := by
  have hne : ∀ {d : Char}, d.isDigit = false → c ≠ d := by
    rintro d hd rfl
    rw [hc] at hd
    cases hd
  simp only [scanWord, words, List.findSome?_cons, List.findSome?_nil, Option.map_none,
    dropPrefix?_of_ne (hne (d := 'n') rfl), dropPrefix?_of_ne (hne (d := 't') rfl),
    dropPrefix?_of_ne (hne (d := 'f') rfl), dropPrefix?_of_ne (hne (d := 'N') rfl),
    dropPrefix?_of_ne (hne (d := 'I') rfl), dropPrefix?_of_ne (hne (d := '-') rfl)]

/-- A minus sign before a digit begins no word. -/
theorem scanWord_minus_digit {c : Char} (hc : c.isDigit = true) :
    scanWord ('-' :: c :: s) = none := by
  have hne : c ≠ 'I' := by
    rintro rfl
    cases hc
  have hlast : ('-' :: c :: s).dropPrefix? ['-', 'I', 'n', 'f', 'i', 'n', 'i', 't', 'y'] = none := by
    rw [List.dropPrefix?, if_pos (by decide), dropPrefix?_of_ne hne]
  simp only [scanWord, words, List.findSome?_cons, List.findSome?_nil, Option.map_none, hlast,
    dropPrefix?_of_ne (show '-' ≠ 'n' by decide), dropPrefix?_of_ne (show '-' ≠ 't' by decide),
    dropPrefix?_of_ne (show '-' ≠ 'f' by decide), dropPrefix?_of_ne (show '-' ≠ 'N' by decide),
    dropPrefix?_of_ne (show '-' ≠ 'I' by decide)]

/-- A signed number is read as one. -/
theorem scanAtom_signed {negative : Bool} {n : Nat} {x : Number} {t : List Char}
    (h : scanUnsigned F negative (Nat.toDigits 10 n ++ t) = some (x, s)) :
    scanAtom F ((if negative then ['-'] else []) ++ (Nat.toDigits 10 n ++ t)) =
      some (.num x, s) := by
  obtain ⟨c, cs, hc⟩ := List.exists_cons_of_ne_nil (Nat.toDigits_ne_nil (n := n) (b := 10))
  have hdigit : c.isDigit = true :=
    Nat.isDigit_of_mem_toDigits (b := 10) (n := n) (by decide) (by decide) (by rw [hc]; exact .head _)
  have hne : c ≠ '-' := by
    rintro rfl
    cases hdigit
  rw [hc, List.cons_append] at h ⊢
  cases negative with
  | false =>
    have hn : scanNumber F (c :: (cs ++ t)) = scanUnsigned F false (c :: (cs ++ t)) := by
      unfold scanNumber
      split
      · next he => exact absurd (List.cons.inj he).1 hne
      · rfl
    simp only [scanAtom, Bool.false_eq_true, if_false, List.nil_append, scanWord_digit hdigit, hn, h]
    rfl
  | true =>
    have hn : scanNumber F ('-' :: c :: (cs ++ t)) = scanUnsigned F true (c :: (cs ++ t)) := rfl
    simp only [scanAtom, if_true, List.cons_append, List.nil_append, scanWord_minus_digit hdigit,
      hn, h]
    rfl

/-- A value that is written as a word is read from it. -/
theorem scanWord_append {w : List Char × Json} (hw : w ∈ words) :
    scanWord (w.1 ++ s) = some (w.2, s) := by
  simp only [words, List.mem_cons, List.not_mem_nil, or_false] at hw
  rcases hw with rfl | rfl | rfl | rfl | rfl | rfl <;>
    simp [scanWord, words, List.dropPrefix?]

/-- A word is read as the value that it stands for. -/
theorem scanAtom_append {w : List Char × Json} (hw : w ∈ words) :
    scanAtom F (w.1 ++ s) = some (w.2, s) := by
  rw [scanAtom, scanWord_append hw]

/-- A number is read from its text. -/
theorem scanAtom_number {n : Number} (hn : (Json.num n).IsValue F) (hs : Ends s) :
    scanAtom F (numberText F n ++ s) = some (.num n, s) := by
  cases n with
  | int n =>
    have hval : (if decide (n < 0) = true then -(n.natAbs : Int) else n.natAbs) = n := by
      simp only [decide_eq_true_eq]
      split <;> omega
    have h := scanUnsigned_int (F := F) (n := n.natAbs) (decide (n < 0)) hs
    rw [hval] at h
    have h := scanAtom_signed h
    simp only [decide_eq_true_eq] at h
    have hword : numberText F (.int n) ++ s =
        (if n < 0 then ['-'] else []) ++ (Nat.toDigits 10 n.natAbs ++ s) := List.append_assoc ..
    rw [hword]
    exact h
  | float q =>
    have h := scanAtom_signed (scanUnsigned_decimal (F := F) hn.literal hs)
    rw [hn.reads] at h
    have hword : numberText F (.float q) ++ s = (if (F.repr q).negative then ['-'] else []) ++
        (Nat.toDigits 10 (F.repr q).whole ++ ((if (F.repr q).fraction = [] then [] else
          '.' :: (F.repr q).fraction) ++ (exponentText (F.repr q).exponent ++ s))) := by
      change (F.repr q).text ++ s = _
      simp only [Decimal.text, exponentText, List.append_assoc]
    rw [hword]
    exact h
  | inf => exact scanAtom_append (w := ("Infinity".toList, _)) (by decide)
  | negInf => exact scanAtom_append (w := ("-Infinity".toList, _)) (by decide)
  | nan => exact scanAtom_append (w := ("NaN".toList, _)) (by decide)

end

/-! ## Strings -/

/-- A hexadecimal digit is read as its value. -/
theorem hexValue_digitChar {n : Nat} (hn : n < 16) : hexValue (Nat.digitChar n) = some n := by
  have : ∀ m : Fin 16, hexValue (Nat.digitChar m.val) = some m.val := by decide
  exact this ⟨n, hn⟩

/-- The escape of a UTF-16 unit is read as the unit. -/
theorem scanUnits_unicodeEscape {n : Nat} (hn : n < 0x10000) (s : List Char) :
    scanUnits (unicodeEscape n ++ s) = (scanUnits s).map fun p => (n :: p.1, p.2) := by
  have h₁ := hexValue_digitChar (Nat.mod_lt (n / 4096) (by decide : 0 < 16))
  have h₂ := hexValue_digitChar (Nat.mod_lt (n / 256) (by decide : 0 < 16))
  have h₃ := hexValue_digitChar (Nat.mod_lt (n / 16) (by decide : 0 < 16))
  have h₄ := hexValue_digitChar (Nat.mod_lt n (by decide : 0 < 16))
  have hval : n / 4096 % 16 * 4096 + n / 256 % 16 * 256 + n / 16 % 16 * 16 + n % 16 = n := by omega
  change (do
    let m := (← hexValue _) * 4096 + (← hexValue _) * 256 + (← hexValue _) * 16 + (← hexValue _)
    let (units, rest) ← scanUnits s
    return (m :: units, rest)) = _
  rw [h₁, h₂, h₃, h₄]
  change (scanUnits s).bind (fun p => some ((_ : Nat) :: p.1, p.2)) = _
  rw [hval, Option.map_eq_bind]
  rfl

/-- A code point is below 0x110000. -/
theorem toNat_lt (c : Char) : c.toNat < 0x110000 := by
  rcases c.valid with h | h
  · exact h.trans (by decide)
  · exact h.2

/-- A code unit is of sixteen bits. -/
theorem codeUnits_lt {c : Char} {n : Nat} (hn : n ∈ codeUnits c) : n < 0x10000 := by
  have hc := toNat_lt c
  unfold codeUnits at hn
  split at hn
  · next h => rwa [List.mem_singleton.1 hn]
  · simp only [List.mem_cons, List.not_mem_nil, or_false] at hn
    omega

/-- A character that needs no escape is read as itself. -/
theorem scanUnits_plain {c : Char} (hquote : c ≠ '"') (hback : c ≠ '\\')
    (hc : ' '.toNat ≤ c.toNat) (s : List Char) :
    scanUnits (c :: s) = (scanUnits s).map fun p => (c.toNat :: p.1, p.2) := by
  rw [scanUnits.eq_def]
  split
  · next he => cases he
  · next he => exact absurd (List.cons.inj he).1 hquote
  · next he => exact absurd (List.cons.inj he).1 hback
  · next he => exact absurd (List.cons.inj he).1 hback
  · next he =>
    obtain ⟨rfl, rfl⟩ := List.cons.inj he
    rw [if_neg (by omega), Option.map_eq_bind]
    rfl

/-- A short escape is read as the character that it stands for. -/
theorem scanUnits_escape {e c : Char} (hu : e ≠ 'u') (he : unescape e = some c) (s : List Char) :
    scanUnits ('\\' :: e :: s) = (scanUnits s).map fun p => (c.toNat :: p.1, p.2) := by
  rw [scanUnits.eq_def]
  split
  · next h => cases h
  · next h => exact absurd (List.cons.inj h).1 (by decide)
  · next h => exact absurd (List.cons.inj (List.cons.inj h).2).1 hu
  · next h =>
    obtain ⟨rfl, rfl⟩ := List.cons.inj (List.cons.inj h).2
    rw [he, Option.map_eq_bind]
    rfl
  · next hne h => exact (hne _ _ (List.cons.inj h).1.symm (List.cons.inj h).2.symm).elim

/-- The escape of a character is read as it. -/
theorem unescape_escapeLetter {c e : Char} (h : escapeLetter c = some e) :
    e ≠ 'u' ∧ unescape e = some c ∧ codeUnits c = [c.toNat] := by
  unfold escapeLetter at h
  repeat' split at h
  all_goals cases h
  all_goals next hc => subst hc; decide

/-- The escapes of several units are read as the units. -/
theorem scanUnits_escapes {units : List Nat} (h : ∀ n ∈ units, n < 0x10000) (s : List Char) :
    scanUnits (units.flatMap unicodeEscape ++ s) =
      (scanUnits s).map fun p => (units ++ p.1, p.2) := by
  induction units with
  | nil => simp
  | cons n units ih =>
    rw [List.flatMap_cons, List.append_assoc, scanUnits_unicodeEscape (h n (.head _)),
      ih fun m hm => h m (.tail _ hm), Option.map_map]
    rfl

/-- A character is read as its code units. -/
theorem scanUnits_charText (c : Char) (s : List Char) :
    scanUnits (charText c ++ s) = (scanUnits s).map fun p => (codeUnits c ++ p.1, p.2) := by
  unfold charText
  split
  · next e he =>
    obtain ⟨hu, hread, hunits⟩ := unescape_escapeLetter he
    rw [hunits]
    exact scanUnits_escape hu hread s
  · next he =>
    split
    · next hprint =>
      have hlt : c.toNat < 0x10000 := hprint.2.trans_lt (by decide)
      rw [codeUnits, if_pos hlt]
      refine scanUnits_plain ?_ ?_ hprint.1 s
      · rintro rfl
        cases he
      · rintro rfl
        cases he
    · exact scanUnits_escapes (fun _ => codeUnits_lt) s

/-- The text of a string is read as its UTF-16 units, up to the closing quote. -/
theorem scanUnits_flatMap (cs s : List Char) :
    scanUnits (cs.flatMap charText ++ '"' :: s) = some (cs.flatMap codeUnits, s) := by
  induction cs with
  | nil => rfl
  | cons c cs ih =>
    rw [List.flatMap_cons, List.append_assoc, scanUnits_charText, ih]
    rfl

/-- The code units of a character are read as it. -/
theorem ofUnits_codeUnits (c : Char) (units : List Nat) :
    ofUnits (codeUnits c ++ units) = (ofUnits units).map (c :: ·) := by
  have hc := toNat_lt c
  unfold codeUnits
  split
  · have hvalid : c.toNat.isValidChar := c.valid
    have hsurrogate : ¬ (0xd800 ≤ c.toNat ∧ c.toNat < 0xdc00) := by
      rcases hvalid with h | h <;> omega
    cases units with
    | nil => simp [ofUnits, hvalid]
    | cons v units =>
      rw [List.singleton_append, ofUnits, if_neg fun h => hsurrogate h.1, if_pos hvalid,
        Option.map_eq_bind, Char.ofNat_toNat]
      rfl
  · next hge =>
    have hval : 0x10000 + (0xd800 + (c.toNat - 0x10000) / 0x400 - 0xd800) * 0x400 +
        (0xdc00 + (c.toNat - 0x10000) % 0x400 - 0xdc00) = c.toNat := by omega
    rw [List.cons_append, List.singleton_append, ofUnits, if_pos (by omega), hval,
      Option.map_eq_bind, Char.ofNat_toNat]
    rfl

/-- The UTF-16 units of characters are put together to the characters. -/
theorem ofUnits_flatMap (cs : List Char) : ofUnits (cs.flatMap codeUnits) = some cs := by
  induction cs with
  | nil => rfl
  | cons c cs ih => rw [List.flatMap_cons, ofUnits_codeUnits, ih]; rfl

/-- A string is read from its text. -/
theorem scanString_strText (cs s : List Char) :
    scanString (cs.flatMap charText ++ '"' :: s) = some (cs, s) := by
  rw [scanString, scanUnits_flatMap]
  change (ofUnits _).bind (fun cs => some (cs, s)) = _
  rw [ofUnits_flatMap]
  rfl

/-! ## Values -/

/-- A text begins with this character if it is that of a number or a word. -/
def atomStart (c : Char) : Bool :=
  c.isDigit || c = '-' || c = 'n' || c = 't' || c = 'f' || c = 'N' || c = 'I'

/-- `skipSpace` leaves a text that begins with this character as it is, and no list or object ends
with it. -/
def valueStart (c : Char) : Bool := atomStart c || c = '"' || c = '[' || c = '{'

/-- What may begin an atom may begin a value. -/
theorem valueStart_of_atomStart {c : Char} (h : atomStart c = true) : valueStart c = true := by
  simp [valueStart, h]

section
variable {F : FloatText} {s : List Char}

/-- The text of an integer begins as an atom may. -/
theorem signed_head (negative : Bool) (n : Nat) (t : List Char) :
    ∃ c cs, (if negative then ['-'] else []) ++ (Nat.toDigits 10 n ++ t) = c :: cs ∧
      atomStart c = true := by
  obtain ⟨c, cs, hc⟩ := List.exists_cons_of_ne_nil (Nat.toDigits_ne_nil (n := n) (b := 10))
  have hdigit : c.isDigit = true :=
    Nat.isDigit_of_mem_toDigits (b := 10) (n := n) (by decide) (by decide) (by rw [hc]; exact .head _)
  cases negative with
  | false => exact ⟨c, cs ++ t, by rw [hc]; rfl, by simp [atomStart, hdigit]⟩
  | true => exact ⟨'-', _, rfl, rfl⟩

/-- The text of a number begins as an atom may. -/
theorem numberText_head (n : Number) :
    ∃ c cs, numberText F n = c :: cs ∧ atomStart c = true := by
  cases n with
  | int n =>
    obtain ⟨c, cs, hc, hstart⟩ := signed_head (decide (n < 0)) n.natAbs []
    refine ⟨c, cs, ?_, hstart⟩
    rw [← hc, List.append_nil]
    simp only [decide_eq_true_eq]
    rfl
  | float q => exact signed_head (F.repr q).negative (F.repr q).whole _
  | inf => exact ⟨'I', _, rfl, rfl⟩
  | negInf => exact ⟨'-', _, rfl, rfl⟩
  | nan => exact ⟨'N', _, rfl, rfl⟩

/-- The text of a value begins as a value may. -/
theorem text_head (v : Json) : ∃ c cs, text F v = c :: cs ∧ valueStart c = true := by
  match v with
  | .null => exact ⟨'n', _, rfl, rfl⟩
  | .bool true => exact ⟨'t', _, rfl, rfl⟩
  | .bool false => exact ⟨'f', _, rfl, rfl⟩
  | .num n =>
    obtain ⟨c, cs, hc, hstart⟩ := numberText_head (F := F) n
    exact ⟨c, cs, hc, valueStart_of_atomStart hstart⟩
  | .str _ => exact ⟨'"', _, rfl, rfl⟩
  | .arr [] => exact ⟨'[', _, rfl, rfl⟩
  | .arr (_ :: _) => exact ⟨'[', _, rfl, rfl⟩
  | .obj [] => exact ⟨'{', _, rfl, rfl⟩
  | .obj (_ :: _) => exact ⟨'{', _, rfl, rfl⟩

/-- There is no space to skip where a value begins. -/
theorem skipSpace_of_start {c : Char} (hc : valueStart c = true) :
    skipSpace (c :: s) = c :: s := by
  rw [skipSpace, List.dropWhile_cons_of_neg]
  intro h
  simp only [Bool.or_eq_true, decide_eq_true_eq] at h
  rcases h with ((rfl | rfl) | rfl) | rfl <;> cases hc

/-- There is no space to skip before the text of a value. -/
theorem skipSpace_text (v : Json) : skipSpace (text F v ++ s) = text F v ++ s := by
  obtain ⟨c, cs, hc, hstart⟩ := text_head (F := F) v
  rw [hc, List.cons_append, skipSpace_of_start hstart]

/-- What begins as an atom is read as one. -/
theorem scanOnce_atom {c : Char} (hc : atomStart c = true) (n : Nat) :
    scanOnce F (n + 1) (c :: s) = scanAtom F (c :: s) := by
  rw [scanOnce]
  all_goals
    intro t he
    cases (List.cons.inj he).1
    cases hc

/-- A word is read as its value. -/
theorem scanOnce_word {w : List Char × Json} (hw : w ∈ words) (n : Nat) :
    scanOnce F (n + 1) (w.1 ++ s) = some (w.2, s) := by
  have hstart : ∃ c cs, w.1 = c :: cs ∧ atomStart c = true := by
    simp only [words, List.mem_cons, List.not_mem_nil, or_false] at hw
    rcases hw with rfl | rfl | rfl | rfl | rfl | rfl <;> exact ⟨_, _, rfl, rfl⟩
  obtain ⟨c, cs, hc, hstart⟩ := hstart
  have h := scanAtom_append (F := F) (s := s) hw
  rw [hc, List.cons_append] at h ⊢
  rw [scanOnce_atom hstart, h]

/-- The text of a number is read as the number. -/
theorem scanOnce_number {x : Number} (hx : (Json.num x).IsValue F) (hs : Ends s) (n : Nat) :
    scanOnce F (n + 1) (numberText F x ++ s) = some (.num x, s) := by
  obtain ⟨c, cs, hc, hstart⟩ := numberText_head (F := F) x
  have h := scanAtom_number hx hs
  rw [hc, List.cons_append] at h ⊢
  rw [scanOnce_atom hstart, h]

/-- The text of a string is read as the string. -/
theorem scanOnce_str (t : String) (n : Nat) :
    scanOnce F (n + 1) (strText t.toList ++ s) = some (.str t, s) := by
  rw [strText, List.cons_append, List.append_assoc, List.singleton_append]
  change (scanString _).map _ = _
  rw [scanString_strText]
  exact congrArg (fun t => some (Json.str t, s)) String.ofList_toList

/-- The brackets of a list that is not empty enclose its items. -/
theorem scanOnce_arr (v : Json) (n : Nat) :
    scanOnce F (n + 1) ('[' :: (text F v ++ s)) =
      (scanItems F n (text F v ++ s)).map fun p => (Json.arr p.1, p.2) := by
  change (match skipSpace (text F v ++ s) with
    | ']' :: s => some (Json.arr [], s)
    | s => (scanItems F n s).map fun (p : List Json × List Char) => (Json.arr p.1, p.2)) = _
  rw [skipSpace_text]
  obtain ⟨c, cs, hc, hstart⟩ := text_head (F := F) v
  rw [hc, List.cons_append]
  split
  · next he =>
    cases (List.cons.inj he).1
    cases hstart
  · rfl

/-- After an opening brace the fields are read, and stored one by one. -/
theorem scanOnce_obj (k : List Char) (n : Nat) :
    scanOnce F (n + 1) ('{' :: (strText k ++ s)) =
      (scanFields F n (strText k ++ s)).map fun p =>
        (Json.obj (p.1.foldl (fun d f => Dict.set d f.1 f.2) []), p.2) := rfl

/-- What follows an item of a list. -/
theorem ends_itemsText (items : List Json) : Ends (itemsText F items ++ s) := by
  intro c hc
  cases items with
  | nil => exact .inr (.inl (Option.some.inj hc).symm)
  | cons v items => exact .inl (Option.some.inj hc).symm

/-- After a value among fields comes a comma or a closing brace. -/
theorem ends_fieldsText (fields : List (String × Json)) : Ends (fieldsText F fields ++ s) := by
  intro c hc
  cases fields with
  | nil => exact .inr (.inr (Option.some.inj hc).symm)
  | cons f fields => exact .inl (Option.some.inj hc).symm

/-- The last item is read up to the bracket. -/
theorem scanItems_last {v : Json} {n : Nat} {t : List Char}
    (h : scanOnce F n t = some (v, ']' :: s)) : scanItems F (n + 1) t = some ([v], s) := by
  rw [scanItems, h]
  rfl

/-- An item is read up to the comma, and the others after it. -/
theorem scanItems_cons {v w : Json} {n : Nat} {t : List Char} {items : List Json}
    {r : List Char} (h : scanOnce F n t = some (v, ',' :: ' ' :: (text F w ++ s)))
    (hrest : scanItems F n (text F w ++ s) = some (items, r)) :
    scanItems F (n + 1) t = some (v :: items, r) := by
  rw [scanItems, h]
  change (scanItems F n (skipSpace (' ' :: (text F w ++ s)))).bind
    (fun p => some (v :: p.1, p.2)) = _
  have hskip : skipSpace (' ' :: (text F w ++ s)) = text F w ++ s := skipSpace_text w
  rw [hskip, hrest]
  rfl

/-- What is read of the field of an object whose value is followed by `r`. -/
theorem scanFields_field {k : String} {v : Json} {n : Nat} {r : List Char}
    (h : scanOnce F n (text F v ++ r) = some (v, r)) :
    scanFields F (n + 1) (strText k.toList ++ ':' :: ' ' :: (text F v ++ r)) =
      match skipSpace r with
      | '}' :: s => some ([(k, v)], s)
      | ',' :: s => (scanFields F n (skipSpace s)).bind fun p => some ((k, v) :: p.1, p.2)
      | _ => none := by
  have hskip : skipSpace (' ' :: (text F v ++ r)) = text F v ++ r := skipSpace_text v
  rw [strText, List.cons_append, List.append_assoc, List.singleton_append, scanFields,
    scanString_strText]
  change (scanOnce F n (skipSpace (' ' :: (text F v ++ r)))).bind _ = _
  rw [hskip, h, Option.bind_some, String.ofList_toList]
  rfl

/-- A new key is stored at the end. -/
theorem set_of_not_mem {d : Dict} {k : String} (h : k ∉ d.map Prod.fst) (v : Json) :
    Dict.set d k v = d ++ [(k, v)] := by
  induction d with
  | nil => rfl
  | cons f d ih =>
    simp only [List.map_cons, List.mem_cons, not_or] at h
    rw [Dict.set, if_neg (Ne.symm h.1), ih h.2, List.cons_append]

/-- Fields with distinct keys are kept in their order. -/
theorem foldl_set {d fields : Dict} (h : ((d ++ fields).map Prod.fst).Nodup) :
    fields.foldl (fun d f => Dict.set d f.1 f.2) d = d ++ fields := by
  induction fields generalizing d with
  | nil => rw [List.foldl_nil, List.append_nil]
  | cons f fields ih =>
    have hf : f.1 ∉ d.map Prod.fst := fun hmem => by
      rw [List.map_append, List.map_cons] at h
      exact (List.nodup_append.1 h).2.2 _ hmem _ (.head _) rfl
    rw [List.foldl_cons, set_of_not_mem hf, ih, List.append_assoc, List.singleton_append]
    rwa [List.append_assoc, List.singleton_append]

/-- The value is read from its text, at every bound above the length of the text. -/
def Reads (F : FloatText) (v : Json) : Prop :=
  ∀ s, Ends s → ∀ n, (text F v).length < n → scanOnce F n (text F v ++ s) = some (v, s)

/-- A value is read if it is at every positive bound. -/
theorem Reads.succ {v : Json}
    (h : ∀ s, Ends s → ∀ n, (text F v).length ≤ n → scanOnce F (n + 1) (text F v ++ s) = some (v, s)) :
    Reads F v
  | _, _, 0, hn => absurd hn (Nat.not_lt_zero _)
  | s, hs, n + 1, hn => h s hs n (Nat.le_of_lt_succ hn)

mutual

/-- Every value is read from its text. -/
theorem reads_text : (v : Json) → v.IsValue F → Reads F v
  | .null, _ => .succ fun _ _ n _ => scanOnce_word (w := ("null".toList, .null)) (by decide) n
  | .bool true, _ =>
    .succ fun _ _ n _ => scanOnce_word (w := ("true".toList, .bool true)) (by decide) n
  | .bool false, _ =>
    .succ fun _ _ n _ => scanOnce_word (w := ("false".toList, .bool false)) (by decide) n
  | .num _, hv => .succ fun _ hs n _ => scanOnce_number hv hs n
  | .str t, _ => .succ fun _ _ n _ => scanOnce_str t n
  | .arr [], _ => .succ fun _ _ _ _ => rfl
  | .arr (v :: items), hv => .succ fun s _ n hn => by
    have h := reads_items items hv.2 (reads_text v hv.1) s n (Nat.lt_of_succ_le hn)
    change scanOnce F (n + 1) ('[' :: ((text F v ++ itemsText F items) ++ s)) = _
    rw [List.append_assoc, scanOnce_arr, h]
    rfl
  | .obj [], _ => .succ fun _ _ _ _ => rfl
  | .obj ((k, v) :: fields), hv => .succ fun s _ n hn => by
    have h := reads_fields fields hv.2.2 k (reads_text v hv.2.1) s n (Nat.lt_of_succ_le hn)
    change scanOnce F (n + 1) ('{' :: ((strText k.toList ++
      ':' :: ' ' :: (text F v ++ fieldsText F fields)) ++ s)) = _
    rw [List.append_assoc, List.cons_append, List.cons_append, List.append_assoc, scanOnce_obj, h]
    exact congrArg (fun d => some (Json.obj d, s)) (foldl_set (d := []) hv.1)

/-- The items of a list are read from their texts, the first one before them. -/
theorem reads_items : (items : List Json) → AreValues F items → {v : Json} → Reads F v →
    (s : List Char) → (n : Nat) → (text F v ++ itemsText F items).length < n →
    scanItems F n (text F v ++ (itemsText F items ++ s)) = some (v :: items, s)
  | _, _, _, _, _, 0, hn => absurd hn (Nat.not_lt_zero _)
  | [], _, v, hv, s, n + 1, hn => by
    have hlen : (itemsText F []).length = 1 := rfl
    rw [List.length_append, hlen] at hn
    exact scanItems_last (hv _ (ends_itemsText []) n (by omega))
  | w :: items, hl, v, hv, s, n + 1, hn => by
    have hlen : (itemsText F (w :: items)).length = (text F w ++ itemsText F items).length + 2 := rfl
    have htext : itemsText F (w :: items) ++ s =
        ',' :: ' ' :: (text F w ++ (itemsText F items ++ s)) := by
      change ',' :: ' ' :: (_ ++ _) ++ s = _
      simp only [List.cons_append, List.append_assoc]
    rw [List.length_append, hlen] at hn
    have h := hv (itemsText F (w :: items) ++ s) (ends_itemsText _) n (by omega)
    have hrest := reads_items items hl.2 (reads_text w hl.1) s n (by omega)
    rw [htext] at h ⊢
    exact scanItems_cons h hrest

/-- The fields of an object are read from their texts, the first one before them. -/
theorem reads_fields : (fields : List (String × Json)) → FieldsAreValues F fields →
    (k : String) → {v : Json} → Reads F v → (s : List Char) → (n : Nat) →
    (strText k.toList ++ ':' :: ' ' :: (text F v ++ fieldsText F fields)).length < n →
    scanFields F n (strText k.toList ++ ':' :: ' ' :: (text F v ++ (fieldsText F fields ++ s))) =
      some ((k, v) :: fields, s)
  | _, _, _, _, _, _, 0, hn => absurd hn (Nat.not_lt_zero _)
  | [], _, k, v, hv, s, n + 1, hn => by
    simp only [List.length_append, List.length_cons] at hn
    rw [scanFields_field (hv _ (ends_fieldsText []) n (by omega))]
    rfl
  | (l, w) :: fields, hl, k, v, hv, s, n + 1, hn => by
    have hlen : (fieldsText F ((l, w) :: fields)).length =
        (strText l.toList ++ ':' :: ' ' :: (text F w ++ fieldsText F fields)).length + 2 := rfl
    rw [List.length_append, List.length_cons, List.length_cons, List.length_append, hlen] at hn
    have hrest := reads_fields fields hl.2 l (reads_text w hl.1) s n (by omega)
    rw [scanFields_field (hv _ (ends_fieldsText ((l, w) :: fields)) n (by omega))]
    have htext : fieldsText F ((l, w) :: fields) ++ s = ',' :: ' ' :: (strText l.toList ++
        ':' :: ' ' :: (text F w ++ (fieldsText F fields ++ s))) := by
      change ',' :: ' ' :: (_ ++ _) ++ s = _
      simp only [List.cons_append, List.append_assoc]
    rw [htext]
    change (scanFields F n (skipSpace (' ' :: (strText l.toList ++ _)))).bind _ = _
    have hskip : ∀ r, skipSpace (' ' :: (strText l.toList ++ r)) = strText l.toList ++ r :=
      fun _ => rfl
    rw [hskip, hrest]
    rfl

end

/-- **Round trip.** `json.loads` reads the text that `json.dumps` writes as the value written. -/
theorem loads_dumps {v : Json} (hv : v.IsValue F) : loads F (dumps F v) = .ok v := by
  have h := reads_text v hv [] nofun ((text F v).length + 1) (Nat.lt_succ_self _)
  have hskip := skipSpace_text (F := F) (s := []) v
  rw [List.append_nil] at h hskip
  have hlist : (dumps F v).toList = text F v := String.toList_ofList
  have hlen : (dumps F v).length = (text F v).length := String.length_ofList
  rw [loads, hlist, hlen, hskip, h]
  rfl

/-! ## What is read -/

/-- What `float` makes of a literal is infinite, no number, or a `float` that `repr` writes. -/
structure FloatText.Lawful (F : FloatText) : Prop where
  isFloat : ∀ {d q}, F.float d = .float q → F.IsFloat q

/-- Storing a field adds its key, and keeps the keys distinct. -/
theorem set_keys {d : Dict} {k : String} {v : Json} (h : (d.map Prod.fst).Nodup) :
    ((Dict.set d k v).map Prod.fst).Nodup ∧ ∀ l ∈ (Dict.set d k v).map Prod.fst,
      l = k ∨ l ∈ d.map Prod.fst := by
  induction d with
  | nil =>
    exact ⟨List.nodup_cons.2 ⟨nofun, List.nodup_nil⟩, fun l hl => .inl (List.mem_singleton.1 hl)⟩
  | cons f d ih =>
    obtain ⟨k', v'⟩ := f
    rw [List.map_cons, List.nodup_cons] at h
    rw [Dict.set]
    split
    · next hk =>
      subst hk
      exact ⟨List.nodup_cons.2 h, fun l hl => .inr hl⟩
    · next hk =>
      obtain ⟨hnodup, hmem⟩ := ih h.2
      refine ⟨List.nodup_cons.2 ⟨fun hl => ?_, hnodup⟩, fun l hl => ?_⟩
      · exact (hmem k' hl).elim hk h.1
      · rcases List.mem_cons.1 hl with rfl | hl
        · exact .inr (.head _)
        · exact (hmem l hl).imp_right (.tail _)

/-- Storing a value keeps the fields values. -/
theorem set_areValues {d : Dict} {k : String} {v : Json} (h : FieldsAreValues F d)
    (hv : v.IsValue F) : FieldsAreValues F (Dict.set d k v) := by
  induction d with
  | nil => exact ⟨hv, trivial⟩
  | cons f d ih =>
    rw [Dict.set]
    split
    · exact ⟨hv, h.2⟩
    · exact ⟨h.1, ih h.2⟩

/-- Fields that are stored one by one make an object that is a value. -/
theorem foldl_set_isValue {fields d : Dict} (hf : FieldsAreValues F fields)
    (hd : (Json.obj d).IsValue F) :
    (Json.obj (fields.foldl (fun d f => Dict.set d f.1 f.2) d)).IsValue F := by
  induction fields generalizing d with
  | nil => exact hd
  | cons f fields ih => exact ih hf.2 ⟨(set_keys hd.1).1, set_areValues hd.2 hf.1⟩

/-- What a number is read as is a value. -/
theorem number_isValue (hF : F.Lawful) (c : Prop) [Decidable c] (n : Int) (d : Decimal) :
    (Json.num (if c then .int n else F.float d)).IsValue F := by
  split
  · trivial
  · cases hx : F.float d with
    | float q => exact hF.isFloat hx
    | int | inf | negInf | nan => trivial

/-- What an atom is read as is a value. -/
theorem scanAtom_isValue (hF : F.Lawful) {s rest : List Char} {v : Json}
    (h : scanAtom F s = some (v, rest)) : v.IsValue F := by
  unfold scanAtom at h
  split at h
  · next r hword =>
    cases h
    unfold scanWord at hword
    obtain ⟨w, hw, hr⟩ := List.exists_of_findSome?_eq_some hword
    rw [Option.map_eq_some_iff] at hr
    obtain ⟨rest', -, he⟩ := hr
    cases he
    have hall : ∀ w ∈ words, w.2.IsValue F := by
      unfold words
      simp only [List.forall_mem_cons]
      exact ⟨trivial, trivial, trivial, trivial, trivial, trivial, nofun⟩
    exact hall w hw
  · rw [Option.map_eq_some_iff] at h
    obtain ⟨p, hp, he⟩ := h
    cases he
    have hunsigned {negative : Bool} {s : List Char} {p : Number × List Char}
        (hp : scanUnsigned F negative s = some p) : (Json.num p.1).IsValue F := by
      unfold scanUnsigned at hp
      split at hp
      · cases hp
      · cases hp
        exact number_isValue hF ..
    unfold scanNumber at hp
    split at hp
    · exact hunsigned hp
    · exact hunsigned hp

/-- What is read is a value, at every bound. -/
theorem scan_isValue (hF : F.Lawful) (n : Nat) :
    (∀ s v rest, scanOnce F n s = some (v, rest) → v.IsValue F) ∧
    (∀ s items rest, scanItems F n s = some (items, rest) → AreValues F items) ∧
    ∀ s fields rest, scanFields F n s = some (fields, rest) → FieldsAreValues F fields := by
  induction n with
  | zero => exact ⟨nofun, nofun, nofun⟩
  | succ n ih =>
    obtain ⟨ihOnce, ihItems, ihFields⟩ := ih
    refine ⟨fun s v rest h => ?_, fun s items rest h => ?_, fun s fields rest h => ?_⟩
    · unfold scanOnce at h
      split at h
      · rw [Option.map_eq_some_iff] at h
        obtain ⟨p, -, hp⟩ := h
        cases hp
        trivial
      · split at h
        · cases h
          trivial
        · rw [Option.map_eq_some_iff] at h
          obtain ⟨p, hp, he⟩ := h
          cases he
          exact ihItems _ _ _ hp
      · split at h
        · cases h
          exact ⟨List.nodup_nil, trivial⟩
        · rw [Option.map_eq_some_iff] at h
          obtain ⟨p, hp, he⟩ := h
          cases he
          exact foldl_set_isValue (ihFields _ _ _ hp) ⟨List.nodup_nil, trivial⟩
      · exact scanAtom_isValue hF h
    · unfold scanItems at h
      obtain ⟨⟨v, s₁⟩, hv, h⟩ := Option.bind_eq_some_iff.1 h
      dsimp only at h
      split at h
      · cases h
        exact ⟨ihOnce _ _ _ hv, trivial⟩
      · obtain ⟨⟨items', s₂⟩, hitems, h⟩ := Option.bind_eq_some_iff.1 h
        cases h
        exact ⟨ihOnce _ _ _ hv, ihItems _ _ _ hitems⟩
      · cases h
    · unfold scanFields at h
      split at h
      · obtain ⟨⟨k, s₁⟩, -, h⟩ := Option.bind_eq_some_iff.1 h
        dsimp only at h
        split at h
        · obtain ⟨⟨v, s₂⟩, hv, h⟩ := Option.bind_eq_some_iff.1 h
          dsimp only at h
          split at h
          · cases h
            exact ⟨ihOnce _ _ _ hv, trivial⟩
          · obtain ⟨⟨fields', s₃⟩, hfields, h⟩ := Option.bind_eq_some_iff.1 h
            cases h
            exact ⟨ihOnce _ _ _ hv, ihFields _ _ _ hfields⟩
          · cases h
        · cases h
      · cases h

/-- What is read is a value. -/
theorem loads_isValue (hF : F.Lawful) {raw : String} {v : Json} (h : loads F raw = .ok v) :
    v.IsValue F := by
  unfold loads at h
  split at h
  · next v' rest hscan =>
    split at h
    · cases h
      exact (scan_isValue hF _).1 _ _ _ hscan
    · cases h
  · cases h

end

end Teamspace.Py
