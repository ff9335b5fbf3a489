import Teamspace.Lib.Runs
import Teamspace.Py.CaseTables
import Teamspace.Webapp.Subscription

/-!
# The handles of signups

`slugify` leaves exactly the slugs as they are (`slugify_eq_iff`): runs of lowered letters and
digits that single hyphens join. A handle derived from the name of an organization is one, or is
empty where the name has no letter and no digit; a handle that was typed is taken over unchecked
(`signup_handle_usable`).
-/

namespace Teamspace.Webapp

open Teamspace.Py Teamspace.Lib

/-! ## Characters -/

namespace Unicode

/-- A word character other than the underscore. -/
def isLetter (U : Unicode) (c : Char) : Bool := U.isWord c && c != '_'

/-- A character that is its own lower case. -/
def Lowered (U : Unicode) (c : Char) : Prop := U.lower (String.singleton c) = String.singleton c

/-- What holds of the characters of all scripts. -/
structure Lawful (U : Unicode) : Prop where
  /-- Lowering leaves a text of lowered characters alone. -/
  lower_eq : ∀ s, (∀ c ∈ s.toList, U.Lowered c) → U.lower s = s
  /-- It leaves no other characters. -/
  lowered : ∀ s, ∀ c ∈ (U.lower s).toList, U.Lowered c
  /-- It keeps letters and digits, and makes none. -/
  letter_lower : ∀ s, (∃ c ∈ (U.lower s).toList, U.isLetter c = true) ↔
    ∃ c ∈ s.toList, U.isLetter c = true
  lowered_hyphen : U.Lowered '-'
  word_not_space : ∀ c, U.isWord c = true → isSpace c = false
  hyphen_not_word : U.isWord '-' = false

/-- What `\w` does not match. -/
structure Words (U : Unicode) : Prop where
  word_not_space : ∀ c, U.isWord c = true → isSpace c = false
  hyphen_not_word : U.isWord '-' = false

/-- Where the laws hold, `\w` does not match what makes a hyphen. -/
theorem Lawful.words {U : Unicode} (hU : U.Lawful) : U.Words :=
  ⟨hU.word_not_space, hU.hyphen_not_word⟩

end Unicode

/-- `str.lower` and `\w` by the tables of Unicode. -/
def unicodeOf (T : CaseTables) (isWord : Char → Bool) : Unicode := ⟨T.lower, isWord⟩

/-- Tables in which case and `\w` agree are lawful. -/
theorem lawful_unicodeOf {T : CaseTables} (hT : T.Lawful) {isWord : Char → Bool}
    (hhyphen : T.lowerChar '-' = ['-']) (hspace : ∀ c, isWord c = true → isSpace c = false)
    (hword : isWord '-' = false) (hsigma : isWord 'σ' = isWord 'Σ')
    (hfinal : isWord 'ς' = isWord 'Σ')
    (hletter : ∀ c, c ≠ 'Σ' → ((∃ d ∈ T.lowerChar c, (isWord d && d != '_') = true) ↔
      (isWord c && c != '_') = true)) : (unicodeOf T isWord).Lawful where
  lower_eq s h := CaseTables.lower_eq fun c hc => (CaseTables.lower_singleton c).1 (h c hc)
  lowered s c hc := (CaseTables.lower_singleton c).2 (hT.lowered_of_mem hc)
  letter_lower := CaseTables.exists_mem_lower (p := fun c => (isWord c && c != '_') = true)
    (by simp [hsigma]) (by simp [hfinal]) hletter
  lowered_hyphen := (CaseTables.lower_singleton '-').2 ⟨by decide, hhyphen⟩
  word_not_space := hspace
  hyphen_not_word := hword

/-! ## Slugs -/

/-- Runs of lowered letters and digits, joined by single hyphens. -/
def IsSlug (U : Unicode) (s : String) : Prop :=
  Joined '-' (fun c => U.isLetter c = true ∧ U.Lowered c) s.toList

section

variable {U : Unicode} {p : Char → Bool} {q : Char → Prop}

/-- A break before a hyphen adds nothing, and elsewhere a hyphen. -/
theorem hyphenate_cons_of_pos {c : Char} {s : List Char} (hc : p c = true) :
    (∃ rest, hyphenate p s = '-' :: rest ∧ hyphenate p (c :: s) = '-' :: rest) ∨
      (∀ rest, hyphenate p s ≠ '-' :: rest) ∧ hyphenate p (c :: s) = '-' :: hyphenate p s := by
  rw [hyphenate, if_pos hc]
  split
  · next rest he => exact .inl ⟨rest, he, rfl⟩
  · next he => exact .inr ⟨fun rest h => he rest h, rfl⟩

/-- Another character stays. -/
theorem hyphenate_cons_of_neg {c : Char} {s : List Char} (hc : p c = false) :
    hyphenate p (c :: s) = c :: hyphenate p s := by
  rw [hyphenate, if_neg (by simp [hc])]

/-- Every run has become one hyphen. -/
theorem padded_hyphenate (hq : ¬ q '-') : ∀ {s : List Char}, (∀ c ∈ s, p c = false → q c) →
    Padded '-' q (hyphenate p s)
  | [], _ => .none (.inl rfl)
  | c :: s, h => by
    have ih := padded_hyphenate hq fun d hd => h d (List.mem_cons_of_mem c hd)
    cases hc : p c with
    | false =>
      rw [hyphenate_cons_of_neg hc]
      exact ih.cons (h c List.mem_cons_self hc)
    | true =>
      rcases hyphenate_cons_of_pos (s := s) hc with ⟨rest, he, hr⟩ | ⟨hne, hr⟩
      · rw [hr, ← he]
        exact ih
      · rw [hr]
        generalize hyphenate p s = t at ih hne
        cases ih with
        | none hpost =>
          rcases hpost with rfl | rfl
          · exact .none (.inr rfl)
          · exact absurd rfl (hne [])
        | runs hpre hs hpost =>
          rcases hpre with rfl | rfl
          · exact .runs (a := ['-']) (.inr rfl) hs hpost
          · exact absurd rfl (hne _)

/-- The other characters stay. -/
theorem mem_hyphenate {c : Char} (hc : p c = false) (hne : c ≠ '-') : ∀ {s : List Char},
    c ∈ hyphenate p s ↔ c ∈ s
  | [] => Iff.rfl
  | d :: s => by
    have ih := mem_hyphenate hc hne (s := s)
    cases hd : p d with
    | false => rw [hyphenate_cons_of_neg hd, List.mem_cons, List.mem_cons, ih]
    | true =>
      have hcd : c ≠ d := by
        rintro rfl
        exact Bool.false_ne_true (hc.symm.trans hd)
      rcases hyphenate_cons_of_pos (s := s) hd with ⟨rest, he, hr⟩ | ⟨-, hr⟩
      · rw [hr, ← he, ih, List.mem_cons, or_iff_right hcd]
      · rw [hr, List.mem_cons, or_iff_right hne, ih, List.mem_cons, or_iff_right hcd]

/-- Single hyphens stay. -/
theorem hyphenate_of_joined {s : List Char} (hhyphen : p '-' = true)
    (hq : ∀ c, q c → p c = false) (h : Joined '-' q s) : hyphenate p s = s := by
  induction h with
  | single hx => rw [hyphenate_cons_of_neg (hq _ hx), hyphenate]
  | cons hx _ ih => rw [hyphenate_cons_of_neg (hq _ hx), ih]
  | @sep x s hx hs ih =>
    rw [hyphenate_cons_of_neg (hq _ hx)]
    rcases hyphenate_cons_of_pos (s := s) hhyphen with ⟨rest, he, -⟩ | ⟨-, hr⟩
    · -- runs do not begin with a hyphen
      obtain ⟨y, _, rfl, hy⟩ := hs.first
      rw [ih] at he
      cases he
      exact absurd (hq _ hy) (by simp [hhyphen])
    · rw [hr, ih]

end

/-! ## `slugify` -/

section

variable {U : Unicode} {text s : String}

/-- What `slugify` keeps of a text before it joins the words. -/
def slugChars (U : Unicode) (text : String) : List Char :=
  (strip (U.lower text)).toList.filter fun c => U.isWord c || isSpace c || c == '-'

/-- What `slugify` makes a hyphen. -/
def isBreak (c : Char) : Bool := isSpace c || c == '_' || c == '-'

/-- A slug is what is kept of the text, with hyphens for the breaks, and trimmed. -/
theorem slugify_eq (U : Unicode) (text : String) :
    slugify U text = String.ofList (trim '-' (hyphenate isBreak (slugChars U text))) := rfl

/-- A letter makes no hyphen. -/
theorem Unicode.Words.not_break (hU : U.Words) {c : Char} (hc : U.isLetter c = true) :
    isBreak c = false := by
  simp only [Unicode.isLetter, Bool.and_eq_true, bne_iff_ne] at hc
  have hspace := hU.word_not_space c hc.1
  have hhyphen : c ≠ '-' := by
    rintro rfl
    exact Bool.false_ne_true (hU.hyphen_not_word.symm.trans hc.1)
  simp [isBreak, hspace, hc.2, hhyphen]

/-- A hyphen is no letter. -/
theorem Unicode.Words.hyphen_not_letter (hU : U.Words) : ¬ U.isLetter '-' = true := by
  simp [Unicode.isLetter, hU.hyphen_not_word]

/-- What is not dropped at the front is still there. -/
theorem mem_dropWhile {α : Type} {p : α → Bool} {x : α} {l : List α} (hx : x ∈ l)
    (hp : p x = false) : x ∈ l.dropWhile p := by
  rw [← List.takeWhile_append_dropWhile (p := p) (l := l), List.mem_append] at hx
  rcases hx with hx | hx
  · have hx' := List.all_eq_true.1 List.all_takeWhile x hx
    exact absurd (hp.symm.trans hx') Bool.false_ne_true
  · exact hx

/-- `strip` takes off spaces only. -/
theorem mem_strip {c : Char} (hc : c ∈ s.toList) (hspace : isSpace c = false) :
    c ∈ (strip s).toList := by
  rw [strip, String.toList_ofList, List.mem_reverse]
  exact mem_dropWhile (List.mem_reverse.2 (mem_dropWhile hc hspace)) hspace

/-- What is left after stripping was there. -/
theorem strip_subset {c : Char} (hc : c ∈ (strip s).toList) : c ∈ s.toList := by
  rw [strip, String.toList_ofList, List.mem_reverse] at hc
  exact (List.dropWhile_suffix _).subset (List.mem_reverse.1 ((List.dropWhile_suffix _).subset hc))

/-- What is no break among the characters kept is a letter or a digit. -/
theorem letter_of_mem_slugChars {c : Char} (hc : c ∈ slugChars U text) (hb : isBreak c = false) :
    U.isLetter c = true := by
  have hkept := (List.mem_filter.1 hc).2
  simp only [isBreak, Bool.or_eq_false_iff, beq_eq_false_iff_ne] at hb
  simp only [Bool.or_eq_true, hb.1.1, beq_iff_eq, hb.2, or_false, Bool.false_eq_true] at hkept
  simp [Unicode.isLetter, hkept, hb.1.2]

/-- What a slug keeps is lower case. -/
theorem lowered_of_mem_slugChars (hU : U.Lawful) {c : Char} (hc : c ∈ slugChars U text) :
    U.Lowered c :=
  hU.lowered text c (strip_subset (List.mem_filter.1 hc).1)

/-- The letters and digits are kept. -/
theorem exists_letter_slugChars (hU : U.Lawful) :
    (∃ c ∈ slugChars U text, U.isLetter c = true) ↔ ∃ c ∈ text.toList, U.isLetter c = true := by
  rw [← hU.letter_lower]
  constructor
  · rintro ⟨c, hc, hletter⟩
    exact ⟨c, strip_subset (List.mem_filter.1 hc).1, hletter⟩
  · rintro ⟨c, hc, hletter⟩
    have hword : U.isWord c = true := (Bool.and_eq_true_iff.1 hletter).1
    have hstrip := mem_strip hc (hU.word_not_space c hword)
    exact ⟨c, List.mem_filter.2 ⟨hstrip, by simp [hword]⟩, hletter⟩

/-- What `slugify` makes is empty, or runs of letters and digits that single hyphens join. -/
theorem slugify_joined (hU : U.Words) (text : String) :
    (slugify U text = "" ∧ ¬ ∃ c ∈ slugChars U text, U.isLetter c = true) ∨
      Joined '-' (fun c => U.isLetter c = true) (slugify U text).toList := by
  have hpadded : Padded '-' (fun c => U.isLetter c = true)
      (hyphenate isBreak (slugChars U text)) :=
    padded_hyphenate hU.hyphen_not_letter fun c hc hb => letter_of_mem_slugChars hc hb
  rcases hpadded.trim hU.hyphen_not_letter with ⟨hnil, hnone⟩ | hjoined
  · refine .inl ⟨by rw [slugify_eq, hnil], ?_⟩
    rintro ⟨c, hc, hletter⟩
    have hne : c ≠ '-' := fun he => hU.hyphen_not_letter (he ▸ hletter)
    exact hnone c ((mem_hyphenate (hU.not_break hletter) hne).2 hc) hletter
  · right
    rw [slugify_eq, String.toList_ofList]
    exact hjoined

/-- Its letters and digits are those of the text. -/
theorem mem_slugChars_of_mem (hU : U.Words) {c : Char} (hc : c ∈ (slugify U text).toList)
    (hletter : U.isLetter c = true) : c ∈ slugChars U text := by
  rw [slugify_eq, String.toList_ofList] at hc
  have hne : c ≠ '-' := fun he => hU.hyphen_not_letter (he ▸ hletter)
  exact (mem_hyphenate (hU.not_break hletter) hne).1 (trim_subset hc)

/-- What `slugify` makes is a slug, or empty where the text has no letter and no digit. -/
theorem slugify_cases (hU : U.Lawful) (text : String) :
    (slugify U text = "" ∧ ¬ ∃ c ∈ text.toList, U.isLetter c = true) ∨
      IsSlug U (slugify U text) := by
  rcases slugify_joined hU.words text with ⟨hempty, hnone⟩ | hjoined
  · exact .inl ⟨hempty, fun h => hnone ((exists_letter_slugChars hU).2 h)⟩
  · refine .inr (hjoined.and fun c hc => ?_)
    rcases hjoined.mem hc with hletter | rfl
    · exact lowered_of_mem_slugChars hU (mem_slugChars_of_mem hU.words hc hletter)
    · exact hU.lowered_hyphen

/-- `slugify` leaves such runs as they are, if they are lower case. -/
theorem slugify_of_joined (hU : U.Words) (h : Joined '-' (fun c => U.isLetter c = true) s.toList)
    (hlower : U.lower s = s) : slugify U s = s := by
  have hchars : ∀ c ∈ s.toList, U.isLetter c = true ∨ c = '-' := fun c hc => h.mem hc
  have hword {c : Char} (hc : U.isLetter c = true) : U.isWord c = true :=
    (Bool.and_eq_true_iff.1 hc).1
  have hstrip : strip s = s := by
    refine strip_of_no_space fun c hc => ?_
    rcases hchars c hc with hc | rfl
    · exact hU.word_not_space c (hword hc)
    · decide
  have hkept : slugChars U s = s.toList := by
    rw [slugChars, hlower, hstrip, List.filter_eq_self]
    intro c hc
    rcases hchars c hc with hc | rfl
    · simp [hword hc]
    · simp
  have hhyphenate : hyphenate isBreak s.toList = s.toList :=
    hyphenate_of_joined (by decide) (fun c hc => hU.not_break hc) h
  rw [slugify_eq, hkept, hhyphenate, Joined.trim_self h hU.hyphen_not_letter, String.ofList_toList]

/-- `slugify` leaves the empty text as it is. -/
theorem slugify_empty (hlower : U.lower "" = "") : slugify U "" = "" := by
  have hkept : slugChars U "" = [] := by
    rw [slugChars, hlower, strip_of_no_space (by simp), String.toList_empty, List.filter_nil]
  rw [slugify_eq, hkept]
  rfl

/-- `slugify` leaves a slug as it is. -/
theorem slugify_of_isSlug (hU : U.Lawful) (h : IsSlug U s) : slugify U s = s := by
  refine slugify_of_joined hU.words (h.mono fun c hc => hc.1) (hU.lower_eq s fun c hc => ?_)
  rcases h.mem hc with hc | rfl
  · exact hc.2
  · exact hU.lowered_hyphen

/-- A slug is not empty. -/
theorem IsSlug.ne_empty (h : IsSlug U s) : s ≠ "" := by
  rintro rfl
  obtain ⟨_, _, he, _⟩ := Joined.first h
  cases he

/-- The texts that `slugify` leaves as they are. -/
theorem slugify_eq_iff (hU : U.Lawful) : s ≠ "" ∧ slugify U s = s ↔ IsSlug U s := by
  constructor
  · rintro ⟨hne, hs⟩
    rcases slugify_cases hU s with ⟨hempty, -⟩ | h
    · exact absurd (hs.symm.trans hempty) hne
    · rwa [hs] at h
  · exact fun h => ⟨h.ne_empty, slugify_of_isSlug hU h⟩

/-- The texts of which `slugify` makes a slug. -/
theorem isSlug_slugify_iff (hU : U.Lawful) :
    IsSlug U (slugify U text) ↔ ∃ c ∈ text.toList, U.isLetter c = true := by
  constructor
  · intro h
    rcases slugify_cases hU text with ⟨hempty, -⟩ | hslug
    · exact absurd hempty h.ne_empty
    · -- a slug begins with a letter that was kept
      obtain ⟨c, rest, he, hc⟩ := Joined.first hslug
      have hmem : c ∈ (slugify U text).toList := he ▸ List.mem_cons_self
      exact (exists_letter_slugChars hU).1 ⟨c, mem_slugChars_of_mem hU.words hmem hc.1, hc.1⟩
  · intro h
    rcases slugify_cases hU text with ⟨-, hnone⟩ | hslug
    · exact absurd h hnone
    · exact hslug

end

/-! ## Signups -/

/-- The handle that a signup names. -/
def typedHandle (form : Form) : String := strip ((form.get "org_handle").getD "")

/-- The name of the organization of a signup. -/
def signupOrgName (form : Form) : String := strip ((form.get "org_name").getD "")

/-- The handle is the one that was typed, or else the slug of the name. -/
theorem orgHandle_of_validate {U : Unicode} {form : Form} {fields : SignupFields}
    (h : validateSignupForm U form = .ok fields) :
    fields.orgHandle =
      if typedHandle form = "" then slugify U (signupOrgName form) else typedHandle form := by
  unfold validateSignupForm at h
  dsimp only at h
  split at h
  · cases h
  · cases h
    rfl

/-- The handle of an accepted signup can serve where it was typed as a slug, or where none was typed
and the name of the organization has a letter or a digit. -/
theorem signup_handle_usable {U : Unicode} (hU : U.Lawful) {form : Form} {fields : SignupFields}
    (h : validateSignupForm U form = .ok fields) :
    fields.orgHandle ≠ "" ∧ slugify U fields.orgHandle = fields.orgHandle ↔
      IsSlug U (typedHandle form) ∨
        typedHandle form = "" ∧ ∃ c ∈ (signupOrgName form).toList, U.isLetter c = true := by
  rw [slugify_eq_iff hU, orgHandle_of_validate h]
  split
  · next hempty =>
    rw [isSlug_slugify_iff hU, hempty]
    constructor
    · exact fun h => .inr ⟨rfl, h⟩
    · rintro (hslug | ⟨-, hletter⟩)
      · exact absurd rfl hslug.ne_empty
      · exact hletter
  · next hne => simp [hne]

/-! ## A signup -/

/-- Lower case in ASCII. -/
def lowerAscii (c : Char) : Char :=
  if 65 ≤ c.toNat ∧ c.toNat ≤ 90 then Char.ofNat (c.toNat + 32) else c

/-- The ASCII capitals are moved by 32. -/
theorem lowerAscii_toNat (c : Char) :
    (lowerAscii c).toNat = if 65 ≤ c.toNat ∧ c.toNat ≤ 90 then c.toNat + 32 else c.toNat := by
  unfold lowerAscii
  split
  · next h =>
    have hall : ∀ n < 91, 65 ≤ n → (Char.ofNat (n + 32)).toNat = n + 32 := by decide +kernel
    exact hall c.toNat (by omega) h.1
  · rfl

/-- What `\w` matches in ASCII. -/
def isAsciiWord (c : Char) : Bool :=
  let n := c.toNat
  (48 ≤ n && n ≤ 57) || (65 ≤ n && n ≤ 90) || n == 95 || (97 ≤ n && n ≤ 122)

/-- The word characters of ASCII by their codes. -/
theorem isAsciiWord_iff {c : Char} : isAsciiWord c = true ↔
    (48 ≤ c.toNat ∧ c.toNat ≤ 57) ∨ (65 ≤ c.toNat ∧ c.toNat ≤ 90) ∨ c.toNat = 95 ∨
      (97 ≤ c.toNat ∧ c.toNat ≤ 122) := by
  simp [isAsciiWord, or_assoc]

/-- The tables for ASCII. -/
def asciiTables : CaseTables where
  lowerChar c := [lowerAscii c]
  isCased c := isAsciiWord c && 65 ≤ c.toNat && c != '_'
  isCaseIgnorable c := c == '\'' || c == '.' || c == ':' || c == '^' || c == '\u0060'

/-- The lower case of a character but the final sigma's capital is lower case. -/
theorem lowered_lowerAscii {c : Char} (hc : c ≠ 'Σ') : asciiTables.Lowered (lowerAscii c) := by
  have hn := lowerAscii_toNat c
  have hsigma : ('Σ' : Char).toNat = 931 := rfl
  refine ⟨fun he => ?_, congrArg (fun d => [d]) ?_⟩
  · have h931 : (lowerAscii c).toNat = 931 := by rw [he, hsigma]
    split at hn
    · omega
    · exact hc (Char.toNat_inj.1 (by omega))
  · refine Char.toNat_inj.1 ?_
    rw [lowerAscii_toNat]
    split at hn <;> split <;> omega

/-- The tables of ASCII obey the law of lower case. -/
theorem lawful_asciiTables : asciiTables.Lawful where
  lowered c hc d hd := by
    rw [List.mem_singleton.1 hd]
    exact lowered_lowerAscii hc
  sigma := rfl
  finalSigma := rfl

/-- The characters of ASCII. -/
def asciiCharacters : Unicode := unicodeOf asciiTables isAsciiWord

/-- The characters of ASCII obey the laws. -/
theorem lawful_asciiCharacters : asciiCharacters.Lawful := by
  refine lawful_unicodeOf lawful_asciiTables rfl ?_ rfl rfl rfl ?_
  · intro c hc
    rw [isAsciiWord_iff] at hc
    simp only [isSpace, Bool.or_eq_false_iff, Bool.and_eq_false_iff, decide_eq_false_iff_not,
      beq_eq_false_iff_ne]
    omega
  · intro c _
    have hunder : ∀ d : Char, (d != '_') = true ↔ d.toNat ≠ 95 := by
      intro d
      rw [bne_iff_ne, Ne, ← Char.toNat_inj]
      rfl
    have hn := lowerAscii_toNat c
    simp only [asciiTables, List.mem_singleton, exists_eq_left, Bool.and_eq_true, hunder,
      isAsciiWord_iff]
    split at hn <;> omega

/-- A signup that names no handle. -/
def acmeSignup : Form :=
  [("org_name", "Acme  Corp"), ("org_handle", ""), ("email", "ann@acme.com"), ("password", "pw")]

/-- A signup whose handle is no slug. -/
def typedSignup : Form :=
  [("org_name", "Acme"), ("org_handle", "Acme Corp"), ("email", "ann@acme.com"), ("password", "pw")]

/-- Its fields. -/
def signupFields (orgName orgHandle : String) : SignupFields :=
  ⟨orgName, orgHandle, "ann@acme.com", "pw", "", "", "basic"⟩

/-- The handle of Acme Corp is its own slug. -/
theorem signup_handle_usable_acme :
    "acme-corp" ≠ "" ∧ slugify asciiCharacters "acme-corp" = "acme-corp" := by
  have h : validateSignupForm asciiCharacters acmeSignup =
      .ok (signupFields "Acme  Corp" "acme-corp") := by decide +kernel
  exact (signup_handle_usable lawful_asciiCharacters h).2
    (.inr ⟨by decide +kernel, 'A', by decide +kernel, by decide +kernel⟩)

/-- A handle that is typed need not be its own slug. -/
theorem typed_handle_kept : ¬ ∀ (U : Unicode) (form : Form) (fields : SignupFields), U.Lawful →
    validateSignupForm U form = .ok fields →
      fields.orgHandle ≠ "" ∧ slugify U fields.orgHandle = fields.orgHandle := by
  intro h
  have hform : validateSignupForm asciiCharacters typedSignup =
      .ok (signupFields "Acme" "Acme Corp") := by decide +kernel
  have hslug := (h _ _ _ lawful_asciiCharacters hform).2
  exact absurd hslug (by decide +kernel)

end Teamspace.Webapp
