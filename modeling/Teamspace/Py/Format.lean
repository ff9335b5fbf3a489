import Teamspace.Py.IntText
import Mathlib.Algebra.BigOperators.Group.List.Basic
import Mathlib.Algebra.Ring.Int.Defs
import Mathlib.Data.List.TakeWhile

/-!
# `str.format`

`s.format(**kwargs)` for values that are strings: how a text is divided into literal text and fields
and what a field shows or raises. What a field shows that goes on after the name with lookups, a
conversion or a format specification is a parameter. Where all braces belong to bare fields, the
text is formatted as it looks (`format_onlyFields`), and only there (`onlyFields_of_format`).
-/

namespace Teamspace.Py

/-! ## Fields -/

/-- What is read of a field: the name, an index in it, the conversion, what follows it, or the
format specification, inside of so many braces. -/
inductive FieldPart
  | name
  | index
  | conversion
  | converted
  | spec (depth : Nat)

/-- The length of a field, up to the brace that closes it. -/
def fieldLength : FieldPart → List Char → Option Nat
  | _, [] => none
  | .name, c :: s =>
    if c = '\x7b' then none
    else if c = '\x7d' then some 0
    else
      let part : FieldPart :=
        if c = '[' then .index else if c = ':' then .spec 0 else if c = '!' then .conversion
        else .name
      (fieldLength part s).map (· + 1)
  | .index, c :: s => (fieldLength (if c = ']' then .name else .index) s).map (· + 1)
  | .conversion, _ :: s => (fieldLength .converted s).map (· + 1)
  | .converted, c :: s =>
    if c = '\x7d' then some 0
    else if c = ':' then (fieldLength (.spec 0) s).map (· + 1)
    else none
  | .spec depth, c :: s =>
    if c = '\x7b' then (fieldLength (.spec (depth + 1)) s).map (· + 1)
    else if c = '\x7d' then
      match depth with
      | 0 => some 0
      | depth + 1 => (fieldLength (.spec depth) s).map (· + 1)
    else (fieldLength (.spec depth) s).map (· + 1)

/-- `sys.maxsize`. -/
def maxsize : Nat := 9223372036854775807

/-- The number that a key is, if it is one. -/
def keyNumber (n : Nat) : List Char → Except Exn (Option Nat)
  | [] => .ok (some n)
  | c :: s =>
    match decimalValue c with
    | none => .ok none
    | some d => if maxsize < 10 * n + d then .error .valueError else keyNumber (10 * n + d) s

/-- What a key raises that is no keyword. There are no positional arguments. -/
def missingKey {α : Type} (key : List Char) : Except Exn α :=
  if key.isEmpty then .error .indexError
  else
    match keyNumber 0 key with
    | .error e => .error e
    | .ok (some _) => .error .indexError
    | .ok none => .error .keyError

/-- What a field shows, or raises, that goes on after one of the names. -/
abbrev FieldReader := (value : List Char → List Char) → (field : List Char) → Except Exn (List Char)

variable (F : FieldReader) (names : List (List Char)) (value : List Char → List Char)

/-- What a field shows. -/
def readField (field : List Char) : Except Exn (List Char) :=
  let key := field.takeWhile fun c => decide (c ∉ ['.', '[', ':', '!'])
  if key ∈ names then if key = field then .ok (value key) else F value field
  else missingKey key

/-- `s.format(**kwargs)`, after so many characters. -/
def formatFrom : Nat → List Char → Except Exn (List Char)
  | _, [] => .ok []
  | skip + 1, _ :: s => formatFrom skip s
  | 0, c :: s =>
    if c = '\x7b' then
      if s.head? = some '\x7b' then (formatFrom 1 s).map ('\x7b' :: ·)
      else
        match fieldLength .name s with
        | none => .error .valueError
        | some n =>
          (readField F names value (s.take n)).bind fun shown =>
            (formatFrom (n + 1) s).map (shown ++ ·)
    else if c = '\x7d' then
      if s.head? = some '\x7d' then (formatFrom 1 s).map ('\x7d' :: ·) else .error .valueError
    else (formatFrom 0 s).map (c :: ·)

/-- `s.format(**kwargs)`. -/
def format (s : List Char) : Except Exn (List Char) := formatFrom F names value 0 s

/-! ## Replacing fields -/

/-- The field of a name. -/
def bareField (name : List Char) : List Char := '\x7b' :: (name ++ ['\x7d'])

/-- The name whose field a text begins with. -/
def bareFieldAt (s : List Char) : Option (List Char) :=
  names.find? fun name => decide (bareField name <+: s)

/-- The text with all bare fields replaced, after so many characters. -/
def fillFrom : Nat → List Char → List Char
  | _, [] => []
  | skip + 1, _ :: s => fillFrom skip s
  | 0, c :: s =>
    match bareFieldAt names (c :: s) with
    | none => c :: fillFrom 0 s
    | some name => value name ++ fillFrom (name.length + 1) s

/-- The text with all bare fields replaced, and nothing else changed. -/
def fill (s : List Char) : List Char := fillFrom names value 0 s

/-- A text without braces. -/
def NoBraces (s : List Char) : Prop := ∀ c ∈ s, c ≠ '\x7b' ∧ c ≠ '\x7d'

/-- A text whose braces all belong to bare fields. -/
inductive OnlyFields : List Char → Prop
  | nil : OnlyFields []
  | cons {c : Char} {s : List Char} (hopen : c ≠ '\x7b') (hclose : c ≠ '\x7d') (h : OnlyFields s) :
    OnlyFields (c :: s)
  | field {name s : List Char} (hname : name ∈ names) (h : OnlyFields s) :
    OnlyFields (bareField name ++ s)

/-! ## Texts of bare fields -/

/-- Names without the characters that have a meaning in a field. -/
def PlainNames : Prop :=
  ∀ name ∈ names, ∀ c ∈ name, c ∉ ['\x7b', '\x7d', '.', '[', ':', '!']

section

variable {F names value} {name s t : List Char} {c : Char}

/-- Formatting after some characters is formatting what is left. -/
theorem formatFrom_drop (n : Nat) (s : List Char) :
    formatFrom F names value n s = format F names value (s.drop n) := by
  induction n generalizing s with
  | zero => rfl
  | succ n ih =>
    cases s with
    | nil => simp [formatFrom, format]
    | cons c s => rw [formatFrom, ih, List.drop_succ_cons]

/-- So is filling. -/
theorem fillFrom_drop (n : Nat) (s : List Char) :
    fillFrom names value n s = fill names value (s.drop n) := by
  induction n generalizing s with
  | zero => rfl
  | succ n ih =>
    cases s with
    | nil => simp [fillFrom, fill]
    | cons c s => rw [fillFrom, ih, List.drop_succ_cons]

/-- After a field comes what is written after it. -/
theorem drop_field (name s : List Char) : (name ++ '\x7d' :: s).drop (name.length + 1) = s := by
  rw [List.drop_append]
  simp

/-- A text that begins with a field reads on after it. -/
theorem bareField_append (name s : List Char) :
    bareField name ++ s = '\x7b' :: (name ++ '\x7d' :: s) := by
  simp [bareField]

/-- A bare field ends at its brace. -/
theorem fieldLength_bare (hname : ∀ c ∈ name, c ∉ ['\x7b', '\x7d', '.', '[', ':', '!']) :
    fieldLength .name (name ++ '\x7d' :: s) = some name.length := by
  induction name with
  | nil => rfl
  | cons c name ih =>
    have hc := hname c (.head _)
    simp only [List.mem_cons, not_or] at hc
    rw [List.cons_append, fieldLength, if_neg hc.1, if_neg hc.2.1]
    simp [hc, ih fun d hd => hname d (.tail _ hd)]

/-- A plain name goes to its end. -/
theorem takeWhile_key (hname : ∀ c ∈ name, c ∉ ['\x7b', '\x7d', '.', '[', ':', '!']) :
    (name.takeWhile fun c => decide (c ∉ ['.', '[', ':', '!'])) = name := by
  rw [List.takeWhile_eq_self_iff]
  intro c hc
  exact decide_eq_true fun hmem => hname c hc (.tail _ (.tail _ hmem))

/-- A bare field shows the value of its name, if it has one. -/
theorem format_bareField (hplain : ∀ c ∈ name, c ∉ ['\x7b', '\x7d', '.', '[', ':', '!']) :
    format F names value (bareField name ++ s) =
      (if name ∈ names then .ok (value name) else missingKey name).bind fun shown =>
        (format F names value s).map (shown ++ ·) := by
  have hhead : (name ++ '\x7d' :: s).head? ≠ some '\x7b' := by
    cases name with
    | nil => simp
    | cons c name =>
      have hc := hplain c (.head _)
      simp only [List.mem_cons, not_or] at hc
      simpa using hc.1
  rw [bareField_append, format, formatFrom, if_pos rfl, if_neg hhead, fieldLength_bare hplain]
  simp only [List.take_left']
  rw [readField, takeWhile_key hplain, if_pos rfl, formatFrom_drop, drop_field]

/-- A character that is no brace is formatted to itself. -/
theorem format_cons (hopen : c ≠ '\x7b') (hclose : c ≠ '\x7d') :
    format F names value (c :: s) = (format F names value s).map (c :: ·) := by
  rw [format, formatFrom, if_neg hopen, if_neg hclose]
  rfl

/-! ## What is filled in -/

/-- A text begins with one field at most. -/
theorem bareField_inj {name' : List Char} (hnames : PlainNames names) (hname : name ∈ names)
    (hname' : name' ∈ names) (h : bareField name' <+: bareField name ++ s) : name' = name := by
  have hclose {name : List Char} (hname : name ∈ names) :
      ∀ c ∈ name, (c != '\x7d') = true := fun c hc => by
    have hc := hnames name hname c hc
    simp only [List.mem_cons, not_or] at hc
    simpa using hc.2.1
  obtain ⟨t, ht⟩ := h
  rw [bareField_append, bareField_append, List.cons.injEq] at ht
  have htake := congrArg (List.takeWhile (· != '\x7d')) ht.2
  rw [List.takeWhile_append_of_pos (hclose hname'), List.takeWhile_append_of_pos (hclose hname)]
    at htake
  simpa using htake

/-- A bare field of a known name is found. -/
theorem bareFieldAt_field (hnames : PlainNames names) (hname : name ∈ names) :
    bareFieldAt names (bareField name ++ s) = some name := by
  cases hfind : bareFieldAt names (bareField name ++ s) with
  | none =>
    have := List.find?_eq_none.1 hfind name hname
    simp at this
  | some name' =>
    have hprefix := List.find?_some hfind
    rw [bareField_inj hnames hname (List.mem_of_find?_eq_some hfind) (of_decide_eq_true hprefix)]

/-- A text that begins with a field. -/
theorem eq_of_bareFieldAt (h : bareFieldAt names s = some name) :
    name ∈ names ∧ ∃ t, s = bareField name ++ t := by
  have hprefix := List.find?_some h
  obtain ⟨t, ht⟩ := of_decide_eq_true hprefix
  exact ⟨List.mem_of_find?_eq_some h, t, ht.symm⟩

/-- It is filled with the value. -/
theorem fill_field (hnames : PlainNames names) (hname : name ∈ names) :
    fill names value (bareField name ++ s) = value name ++ fill names value s := by
  have hat := bareFieldAt_field (s := s) hnames hname
  rw [bareField_append] at hat ⊢
  simp only [fill, fillFrom, hat]
  rw [fillFrom_drop, drop_field]
  rfl

/-- Where no field begins, the character stays. -/
theorem fill_of_none (h : bareFieldAt names (c :: s) = none) :
    fill names value (c :: s) = c :: fill names value s := by
  simp only [fill, fillFrom, h]

/-- No field begins with another character than a brace. -/
theorem bareFieldAt_cons (hopen : c ≠ '\x7b') : bareFieldAt names (c :: s) = none := by
  refine List.find?_eq_none.2 fun name _ => ?_
  rw [decide_eq_true_eq]
  intro hprefix
  exact hopen (List.cons_prefix_cons.1 hprefix).1.symm

/-- A character that is no opening brace stays. -/
theorem fill_cons (hopen : c ≠ '\x7b') :
    fill names value (c :: s) = c :: fill names value s :=
  fill_of_none (bareFieldAt_cons hopen)

/-- Two texts with bare fields only make one. -/
theorem OnlyFields.append (hs : OnlyFields names s) (ht : OnlyFields names t) :
    OnlyFields names (s ++ t) := by
  induction hs with
  | nil => exact ht
  | cons hopen hclose _ ih => exact .cons hopen hclose ih
  | field hname _ ih =>
    rw [List.append_assoc]
    exact .field hname ih

/-- So do many. -/
theorem OnlyFields.flatMap {α : Type} {f : α → List Char} {l : List α}
    (h : ∀ a ∈ l, OnlyFields names (f a)) : OnlyFields names (l.flatMap f) := by
  induction l with
  | nil => exact .nil
  | cons a l ih =>
    rw [List.flatMap_cons]
    exact (h a (.head _)).append (ih fun b hb => h b (.tail _ hb))

/-- A missing key is no result. -/
theorem missingKey_ne_ok {α : Type} {key : List Char} {a : α} : missingKey key ≠ .ok a := by
  unfold missingKey
  split
  · simp
  · split <;> simp

variable {fields : List (List Char)}

/-- A text with these fields is formatted with other names as well, if the fields are among them. -/
theorem format_fields (hfields : PlainNames fields) (h : OnlyFields fields s)
    (hsub : ∀ name ∈ fields, name ∈ names) :
    format F names value s = .ok (fill fields value s) := by
  induction h with
  | nil => rfl
  | cons hopen hclose _ ih =>
    rw [format_cons hopen hclose, ih, fill_cons hopen]
    rfl
  | @field name s hname _ ih =>
    rw [format_bareField (hfields name hname), if_pos (hsub name hname), ih,
      fill_field hfields hname]
    rfl

/-- Where all braces belong to bare fields, the text is formatted as it looks. -/
theorem format_onlyFields (hnames : PlainNames names) (h : OnlyFields names s) :
    format F names value s = .ok (fill names value s) :=
  format_fields hnames h fun _ hname => hname

/-- If it is formatted at all, then as it looks. -/
theorem eq_fill_of_format (hfields : PlainNames fields) (h : OnlyFields fields s)
    {out : List Char} (hout : format F names value s = .ok out) : out = fill fields value s := by
  induction h generalizing out with
  | nil => exact (Except.ok.inj hout).symm
  | cons hopen hclose _ ih =>
    rw [format_cons hopen hclose] at hout
    obtain ⟨rest, hrest, rfl⟩ := map_eq_ok.1 hout
    rw [fill_cons hopen, ih hrest]
  | @field name s hname _ ih =>
    rw [format_bareField (hfields name hname)] at hout
    split at hout
    · obtain ⟨rest, hrest, rfl⟩ := map_eq_ok.1 hout
      rw [fill_field hfields hname, ih hrest]
    · next hmissing =>
      cases hkey : missingKey (α := List Char) name with
      | error e => rw [hkey] at hout; cases hout
      | ok shown => exact absurd hkey missingKey_ne_ok

end

/-! ## How a text is divided -/

/-- What a text is formatted to, piece by piece: characters, doubled braces, bare fields, and fields
that go on after the name. -/
inductive Formats : List Char → List Char → Prop
  | nil : Formats [] []
  | cons {c : Char} {s out : List Char} (hopen : c ≠ '\x7b') (hclose : c ≠ '\x7d')
    (h : Formats s out) : Formats (c :: s) (c :: out)
  | double {c : Char} {s out : List Char} (hc : c = '\x7b' ∨ c = '\x7d') (h : Formats s out) :
    Formats (c :: c :: s) (c :: out)
  | bare {name s out : List Char} (hname : name ∈ names) (h : Formats s out) :
    Formats (bareField name ++ s) (value name ++ out)
  | read {field shown s out : List Char} (hread : F value field = .ok shown)
    (hfield : bareFieldAt names (bareField field ++ s) = none) (h : Formats s out) :
    Formats (bareField field ++ s) (shown ++ out)

section

variable {F names value} {name s t : List Char} {c : Char} {out : List Char}

/-- A field of some length ends with its brace. -/
theorem fieldLength_inv {part : FieldPart} {n : Nat} (h : fieldLength part s = some n) :
    ∃ field rest, s = field ++ '\x7d' :: rest ∧ field.length = n := by
  induction s generalizing part n with
  | nil => cases part <;> cases h
  | cons c s ih =>
    have hnext {part : FieldPart} (h : (fieldLength part s).map (· + 1) = some n) :
        ∃ field rest, c :: s = field ++ '\x7d' :: rest ∧ field.length = n := by
      obtain ⟨m, hm, rfl⟩ := Option.map_eq_some_iff.1 h
      obtain ⟨field, rest, rfl, rfl⟩ := ih hm
      exact ⟨c :: field, rest, rfl, rfl⟩
    have hclose (hc : c = '\x7d') (h : some 0 = some n) :
        ∃ field rest, c :: s = field ++ '\x7d' :: rest ∧ field.length = n :=
      ⟨[], s, by rw [hc]; rfl, Option.some.inj h⟩
    cases part with
    | name =>
      rw [fieldLength] at h
      split at h
      · cases h
      · split at h
        · exact hclose ‹_› h
        · exact hnext h
    | index => exact hnext h
    | conversion => exact hnext h
    | converted =>
      rw [fieldLength] at h
      split at h
      · exact hclose ‹_› h
      · split at h
        · exact hnext h
        · cases h
    | spec depth =>
      cases depth with
      | zero =>
        rw [fieldLength] at h
        split at h
        · exact hnext h
        · split at h
          · exact hclose ‹_› h
          · exact hnext h
      | succ depth =>
        rw [fieldLength] at h
        split at h
        · exact hnext h
        · split at h
          · exact hnext h
          · exact hnext h

/-- A field that shows something is bare, or goes on after one of the names. -/
theorem readField_inv (hnames : PlainNames names) {field shown : List Char}
    (hlength : fieldLength .name (field ++ '\x7d' :: s) = some field.length)
    (h : readField F names value field = .ok shown) :
    (field ∈ names ∧ shown = value field) ∨
      (F value field = .ok shown ∧ bareFieldAt names (bareField field ++ s) = none) := by
  rw [readField] at h
  split at h
  · rename_i hkey
    split at h
    · rename_i hbare
      rw [hbare] at hkey h
      exact .inl ⟨hkey, (Except.ok.inj h).symm⟩
    · rename_i hmore
      refine .inr ⟨h, List.find?_eq_none.2 fun name hname => ?_⟩
      rw [decide_eq_true_eq]
      rintro ⟨t, ht⟩
      -- a bare field would have been read up to the same brace
      rw [bareField_append, bareField_append, List.cons.injEq] at ht
      rw [← ht.2, fieldLength_bare (hnames name hname), Option.some.injEq] at hlength
      obtain rfl := (List.append_inj ht.2 hlength).1
      exact hmore (takeWhile_key (hnames name hname))
  · exact absurd h missingKey_ne_ok

/-- What formatting succeeds with is made piece by piece. -/
theorem formats_of_format (hnames : PlainNames names) (h : format F names value s = .ok out) :
    Formats F names value s out := by
  induction hn : s.length using Nat.strong_induction_on generalizing s out with
  | _ n ih =>
    have hnext {t out : List Char} (ht : t.length < n) (h : format F names value t = .ok out) :
        Formats F names value t out := ih t.length ht h rfl
    cases s with
    | nil =>
      obtain rfl := Except.ok.inj h
      exact .nil
    | cons c s =>
      subst hn
      have hdouble (hc : c = '\x7b' ∨ c = '\x7d') (hhead : s.head? = some c)
          (h : (formatFrom F names value 1 s).map (c :: ·) = .ok out) :
          Formats F names value (c :: s) out := by
        obtain ⟨out, hout, rfl⟩ := map_eq_ok.1 h
        obtain ⟨t, rfl⟩ := List.head?_eq_some_iff.1 hhead
        rw [formatFrom_drop] at hout
        exact .double hc (hnext (by simp only [List.length_cons]; omega) hout)
      rw [format, formatFrom] at h
      split at h
      · rename_i hopen
        split at h
        · rename_i hhead
          rw [← hopen] at hhead h
          exact hdouble (.inl hopen) hhead h
        · split at h
          · cases h
          · rename_i n hlength
            obtain ⟨field, rest, rfl, rfl⟩ := fieldLength_inv hlength
            rw [List.take_left' rfl] at h
            cases hread : readField F names value field with
            | error e => rw [hread] at h; cases h
            | ok shown =>
              rw [hread] at h
              obtain ⟨out, hout, rfl⟩ := map_eq_ok.1 h
              rw [formatFrom_drop, drop_field] at hout
              have hrest := hnext (by simp; omega) hout
              rw [hopen, ← bareField_append]
              obtain ⟨hname, rfl⟩ | ⟨hmore, hnone⟩ := readField_inv hnames hlength hread
              · exact .bare hname hrest
              · exact .read hmore hnone hrest
      · rename_i hopen
        split at h
        · rename_i hclose
          split at h
          · rename_i hhead
            rw [← hclose] at hhead h
            exact hdouble (.inr hclose) hhead h
          · cases h
        · rename_i hclose
          obtain ⟨out, hout, rfl⟩ := map_eq_ok.1 h
          exact .cons hopen hclose (hnext (Nat.lt_succ_self _) hout)

/-! ## Braces in what is shown -/

/-- The weight of a character: a brace that opens a field weighs much, one that closes it a little,
and everything else less than nothing. -/
def braceWeight (W : Int) (c : Char) : Int :=
  if c = '\x7b' then W else if c = '\x7d' then 1 else -1

/-- The weight of a text. -/
def weight (W : Int) (s : List Char) : Int := (s.map (braceWeight W)).sum

variable {W : Int}

@[simp] theorem weight_nil : weight W [] = 0 := rfl

@[simp] theorem weight_cons : weight W (c :: s) = braceWeight W c + weight W s := by
  simp [weight]

@[simp] theorem weight_append : weight W (s ++ t) = weight W s + weight W t := by
  simp [weight]

@[simp] theorem braceWeight_open : braceWeight W '\x7b' = W := if_pos rfl

@[simp] theorem braceWeight_close : braceWeight W '\x7d' = 1 := by
  rw [braceWeight, if_neg (by decide), if_pos rfl]

/-- A text without braces weighs less by each character. -/
theorem weight_of_noBraces (h : NoBraces s) : weight W s = -s.length := by
  induction s with
  | nil => rfl
  | cons c s ih =>
    have hc := h c (.head _)
    rw [weight_cons, ih fun d hd => h d (.tail _ hd), braceWeight, if_neg hc.1, if_neg hc.2,
      List.length_cons]
    omega

/-- A plain name has no braces. -/
theorem PlainNames.noBraces (hnames : PlainNames names) (hname : name ∈ names) :
    NoBraces name := by
  intro c hc
  have := hnames name hname c hc
  simp only [List.mem_cons, not_or] at this
  exact ⟨this.1, this.2.1⟩

/-- A text without braces stays before what is filled. -/
theorem fill_append (h : NoBraces t) :
    fill names value (t ++ s) = t ++ fill names value s := by
  induction t with
  | nil => rfl
  | cons c t ih =>
    rw [List.cons_append, fill_cons (h c (.head _)).1, ih fun d hd => h d (.tail _ hd),
      List.cons_append]

/-- Values without braces that are shorter than their names. -/
def ShortValues (names : List (List Char)) (value : List Char → List Char) : Prop :=
  ∀ name ∈ names, NoBraces (value name) ∧ (value name).length + 2 ≤ name.length

/-- A brace in front adds to the weight, also when it makes a field of what follows. -/
theorem weight_fill_open (hnames : PlainNames names) (hvalue : ShortValues names value)
    (hW : 1 ≤ W) :
    weight W (fill names value s) + 1 ≤ weight W (fill names value ('\x7b' :: s)) := by
  cases hat : bareFieldAt names ('\x7b' :: s) with
  | none =>
    rw [fill_of_none hat, weight_cons, braceWeight_open]
    omega
  | some name =>
    obtain ⟨hname, t, ht⟩ := eq_of_bareFieldAt hat
    have hshort := hvalue name hname
    rw [ht, fill_field hnames hname, weight_append, weight_of_noBraces hshort.1]
    rw [bareField_append, List.cons.injEq] at ht
    rw [ht.2, fill_append (hnames.noBraces hname), weight_append,
      weight_of_noBraces (hnames.noBraces hname), fill_cons (by decide), weight_cons,
      braceWeight_close]
    have := hshort.2
    omega

/-- Filling more text removes no weight but that of the text. -/
theorem weight_fill_append (hnames : PlainNames names) (hvalue : ShortValues names value)
    (hW : 1 ≤ W) (t : List Char) :
    weight W (fill names value s) - t.length ≤ weight W (fill names value (t ++ s)) := by
  induction t with
  | nil => simp
  | cons c t ih =>
    rw [List.cons_append, List.length_cons]
    by_cases hopen : c = '\x7b'
    · have := @weight_fill_open _ _ (t ++ s) _ hnames hvalue hW
      rw [hopen]
      omega
    · rw [fill_cons hopen, weight_cons, braceWeight, if_neg hopen]
      split <;> omega

/-- A text never shows more braces than are left when its bare fields are replaced, and shows as
many only if all its braces belong to bare fields. -/
theorem Formats.weight_le (h : Formats F names value s out) (hnames : PlainNames names)
    (hvalue : ShortValues names value)
    (hread : ∀ field shown, '\x7b' :: field <:+: s → F value field = .ok shown → NoBraces shown)
    (hW : (s.length : Int) < W) :
    weight W out ≤ weight W (fill names value s) ∧
      (weight W (fill names value s) ≤ weight W out → OnlyFields names s) := by
  have hrest {t s : List Char}
      (hread : ∀ field shown, '\x7b' :: field <:+: t ++ s → F value field = .ok shown →
        NoBraces shown) :
      ∀ field shown, '\x7b' :: field <:+: s → F value field = .ok shown → NoBraces shown :=
    fun field shown hfield =>
      hread field shown (hfield.trans (List.suffix_append t s).isInfix)
  induction h with
  | nil => exact ⟨Int.le_refl _, fun _ => .nil⟩
  | @cons c s out hopen hclose _ ih =>
    obtain ⟨hle, honly⟩ := ih (@hrest [c] s hread) (by simp at hW; omega)
    rw [fill_cons hopen, weight_cons, weight_cons]
    exact ⟨by omega, fun h => .cons hopen hclose (honly (by omega))⟩
  | @double c s out hc _ ih =>
    have hW' : (s.length : Int) < W := by simp at hW; omega
    obtain ⟨hle, -⟩ := ih (@hrest [c, c] s hread) hW'
    -- only one of the two braces is shown
    have hlt : weight W (c :: out) < weight W (fill names value (c :: c :: s)) := by
      rcases hc with rfl | rfl
      · have hnone : bareFieldAt names ('\x7b' :: '\x7b' :: s) = none := by
          refine List.find?_eq_none.2 fun name hname => ?_
          rw [decide_eq_true_eq, bareField, List.cons_prefix_cons]
          rintro ⟨-, hprefix⟩
          cases name with
          | nil => simp at hprefix
          | cons d name =>
            exact (hnames.noBraces hname d (.head _)).1 (List.cons_prefix_cons.1 hprefix).1
        have hopen := @weight_fill_open _ _ s _ hnames hvalue (by omega : 1 ≤ W)
        rw [fill_of_none hnone, weight_cons, weight_cons, braceWeight_open]
        omega
      · rw [fill_cons (by decide), fill_cons (by decide), weight_cons, weight_cons, weight_cons,
          braceWeight_close]
        omega
    exact ⟨Int.le_of_lt hlt, fun h => absurd h (Int.not_le.2 hlt)⟩
  | @bare name s out hname _ ih =>
    obtain ⟨hle, honly⟩ := ih (hrest hread) (by simp at hW; omega)
    rw [fill_field hnames hname, weight_append, weight_append]
    exact ⟨by omega, fun h => .field hname (honly (by omega))⟩
  | @read field shown s out hF hnone _ ih =>
    obtain ⟨hle, -⟩ := ih (hrest hread) (by simp at hW; omega)
    have hshown : NoBraces shown := by
      refine hread field shown ⟨[], '\x7d' :: s, ?_⟩ hF
      simp [bareField]
    -- the brace that opens the field outweighs the field and is not shown
    have hlt : weight W (shown ++ out) < weight W (fill names value (bareField field ++ s)) := by
      have hfield := @weight_fill_append _ _ ('\x7d' :: s) W hnames hvalue (by omega) field
      rw [bareField_append] at hnone hW ⊢
      rw [fill_of_none hnone, weight_cons, braceWeight_open, weight_append,
        weight_of_noBraces hshown]
      rw [fill_cons (by decide), weight_cons, braceWeight_close] at hfield
      simp only [List.length_cons, List.length_append] at hW
      omega
    exact ⟨Int.le_of_lt hlt, fun h => absurd h (Int.not_le.2 hlt)⟩

/-- Only where all braces belong to bare fields, a text is formatted as it looks. -/
theorem onlyFields_of_format (hnames : PlainNames names) (hvalue : ShortValues names value)
    (hread : ∀ field shown, '\x7b' :: field <:+: s → F value field = .ok shown → NoBraces shown)
    (h : format F names value s = .ok (fill names value s)) : OnlyFields names s :=
  ((formats_of_format hnames h).weight_le hnames hvalue hread (Int.lt_succ _)).2 (Int.le_refl _)

end

/-! ## Deciding it -/

/-- Whether all braces belong to bare fields, after so many characters. -/
def onlyFieldsFrom : Nat → List Char → Bool
  | _, [] => true
  | skip + 1, _ :: s => onlyFieldsFrom skip s
  | 0, c :: s =>
    match bareFieldAt names (c :: s) with
    | none => c != '\x7b' && c != '\x7d' && onlyFieldsFrom 0 s
    | some name => onlyFieldsFrom (name.length + 1) s

section

variable {names} {s : List Char}

/-- The check after some characters is that of what is left. -/
theorem onlyFieldsFrom_drop (n : Nat) (s : List Char) :
    onlyFieldsFrom names n s = onlyFieldsFrom names 0 (s.drop n) := by
  induction n generalizing s with
  | zero => rfl
  | succ n ih =>
    cases s with
    | nil => simp [onlyFieldsFrom]
    | cons c s => rw [onlyFieldsFrom, ih, List.drop_succ_cons]

/-- A text that passes the check has bare fields only. -/
theorem onlyFields_of_onlyFieldsFrom (h : onlyFieldsFrom names 0 s = true) :
    OnlyFields names s := by
  induction hn : s.length using Nat.strong_induction_on generalizing s with
  | _ n ih =>
    cases s with
    | nil => exact .nil
    | cons c s =>
      subst hn
      cases hat : bareFieldAt names (c :: s) with
      | none =>
        simp only [onlyFieldsFrom, hat, Bool.and_eq_true, bne_iff_ne] at h
        exact .cons h.1.1 h.1.2 (ih s.length (Nat.lt_succ_self _) h.2 rfl)
      | some name =>
        obtain ⟨hname, t, ht⟩ := eq_of_bareFieldAt hat
        simp only [onlyFieldsFrom, hat] at h
        have hs := ht
        rw [bareField_append, List.cons.injEq] at hs
        rw [hs.2, onlyFieldsFrom_drop, drop_field] at h
        have hlength : t.length < (c :: s).length := by
          rw [ht, List.length_append, bareField, List.length_cons]
          omega
        rw [ht]
        exact .field hname (ih t.length hlength h rfl)

/-- The check is exact. -/
theorem onlyFieldsFrom_iff (hnames : PlainNames names) :
    onlyFieldsFrom names 0 s = true ↔ OnlyFields names s := by
  refine ⟨onlyFields_of_onlyFieldsFrom, fun h => ?_⟩
  induction h with
  | nil => rfl
  | @cons c s hopen hclose _ ih =>
    simp only [onlyFieldsFrom, bareFieldAt_cons hopen, ih, bne_iff_ne.2 hopen, bne_iff_ne.2 hclose,
      Bool.and_self]
  | @field name s hname _ ih =>
    have hat := @bareFieldAt_field _ _ s hnames hname
    rw [bareField_append] at hat ⊢
    simp only [onlyFieldsFrom, hat]
    rw [onlyFieldsFrom_drop, drop_field, ih]

end

end Teamspace.Py
