import Teamspace.Webapp.Slugs

/-!
# The normal form of handles

`slugify` of `webapp/utils/helpers.py` pass by pass: each `re.sub` works on what the one before it
has left, and the last two, of which the first makes hyphens that the second may have to join with
those of the text, do what one pass over all breaks does (`slugify_passes`). So what `slugify` makes
is in a normal form, which it leaves as it is (`slugify_normal_form`).
-/

namespace Teamspace.Webapp.Helpers

open Teamspace.Py Teamspace.Lib

/-- `re.sub(r"[...]+", "-", text)` for a class of characters. `inRun` says whether the run that a
match has begun goes on. -/
def subRuns (p : Char → Bool) : (inRun : Bool) → List Char → List Char
  | _, [] => []
  | inRun, c :: text =>
    if p c then
      if inRun then subRuns p true text else '-' :: subRuns p true text
    else c :: subRuns p false text

/-- `slugify`. -/
def slugify (U : Unicode) (text : String) : String :=
  let text := (strip (U.lower text)).toList
  let text := text.filter fun c => U.isWord c || isSpace c || c == '-'
  let text := subRuns (fun c => isSpace c || c == '_') false text
  let text := subRuns (· == '-') false text
  .ofList (trim '-' text)

section

variable {p : Char → Bool} {c : Char} {s : List Char} {b : Bool}

/-- A character without the property ends a run. -/
theorem subRuns_cons_of_neg (hc : p c = false) : subRuns p b (c :: s) = c :: subRuns p false s := by
  rw [subRuns, if_neg (by simp [hc])]

/-- One with it begins a run, as a hyphen. -/
theorem subRuns_begin (hc : p c = true) : subRuns p false (c :: s) = '-' :: subRuns p true s := by
  simp [subRuns, hc]

/-- And goes on with it. -/
theorem subRuns_goes_on (hc : p c = true) : subRuns p true (c :: s) = subRuns p true s := by
  simp [subRuns, hc]

/-- One pass over the breaks that are no hyphens, and one over hyphens, are one over all breaks. The
first may be in a run only where a hyphen has been written last. -/
theorem subRuns_subRuns {d : Bool} (hb : b = true → d = true) :
    subRuns (· == '-') d (subRuns (fun c => isSpace c || c == '_') b s) = subRuns isBreak d s := by
  induction s generalizing b d with
  | nil => rfl
  | cons c s ih =>
    cases hp : isSpace c || c == '_' with
    | true =>
      have hbreak : isBreak c = true := by rw [isBreak, hp, Bool.true_or]
      cases b with
      | true =>
        rw [hb rfl, subRuns_goes_on (p := fun c => isSpace c || c == '_') hp,
          subRuns_goes_on hbreak]
        exact ih fun _ => rfl
      | false =>
        rw [subRuns_begin (p := fun c => isSpace c || c == '_') hp]
        cases d with
        | true =>
          rw [subRuns_goes_on (p := (· == '-')) rfl, subRuns_goes_on hbreak]
          exact ih fun _ => rfl
        | false =>
          rw [subRuns_begin (p := (· == '-')) rfl, subRuns_begin hbreak, ih fun _ => rfl]
    | false =>
      have ih' {d : Bool} := ih (b := false) (d := d) (by simp)
      rw [subRuns_cons_of_neg (p := fun c => isSpace c || c == '_') hp]
      cases hc : c == '-' with
      | true =>
        have hbreak : isBreak c = true := by rw [isBreak, hc, Bool.or_true]
        cases d with
        | true =>
          rw [subRuns_goes_on (p := (· == '-')) hc, subRuns_goes_on hbreak]
          exact ih'
        | false =>
          rw [subRuns_begin (p := (· == '-')) hc, subRuns_begin hbreak, ih']
      | false =>
        have hbreak : isBreak c = false := by rw [isBreak, hp, hc]; rfl
        rw [subRuns_cons_of_neg (p := (· == '-')) hc, subRuns_cons_of_neg hbreak, ih']

/-- A run that goes on writes what follows the hyphen of one that begins. -/
theorem subRuns_eq (hhyphen : p '-' = true) : ∀ s : List Char,
    subRuns p false s = hyphenate p s ∧
      (hyphenate p s = '-' :: subRuns p true s ∨
        hyphenate p s = subRuns p true s ∧ ∀ rest, hyphenate p s ≠ '-' :: rest)
  | [] => ⟨rfl, .inr ⟨rfl, by simp [hyphenate]⟩⟩
  | c :: s => by
    obtain ⟨hbegin, hgoes⟩ := subRuns_eq hhyphen s
    cases hc : p c with
    | true =>
      rw [subRuns_begin hc, subRuns_goes_on hc]
      have heq : hyphenate p (c :: s) = '-' :: subRuns p true s := by
        rcases hyphenate_cons_of_pos (s := s) hc with ⟨rest, he, hr⟩ | ⟨hne, hr⟩
        · rcases hgoes with h | ⟨-, h⟩
          · rw [hr, ← he, h]
          · exact absurd he (h rest)
        · rcases hgoes with h | ⟨h, -⟩
          · exact absurd h (hne _)
          · rw [hr, h]
      exact ⟨heq.symm, .inl heq⟩
    | false =>
      have hne : c ≠ '-' := by
        rintro rfl
        exact Bool.false_ne_true (hc.symm.trans hhyphen)
      rw [subRuns_cons_of_neg hc, subRuns_cons_of_neg hc, hyphenate_cons_of_neg hc, hbegin]
      exact ⟨rfl, .inr ⟨rfl, fun rest h => hne (List.cons.inj h).1⟩⟩

/-- The passes of `slugify` are those of the handles. -/
theorem slugify_passes (U : Unicode) (text : String) : slugify U text = Webapp.slugify U text := by
  rw [slugify_eq, ← (subRuns_eq rfl _).1]
  exact congrArg (fun l => String.ofList (trim '-' l)) (subRuns_subRuns nofun)

end

/-! ## The normal form -/

variable {T : CaseTables} {isWord : Char → Bool}

/-- What `slugify` makes of a text is empty, or runs of word characters other than the underscore
that single hyphens join; and if lowering leaves the characters that remain, so does `slugify`. -/
theorem slugify_normal_form (hU : (unicodeOf T isWord).Words) (s : String)
    (hlower : ∀ c ∈ (slugify (unicodeOf T isWord) s).toList,
      T.lower (String.singleton c) = String.singleton c) :
    slugify (unicodeOf T isWord) (slugify (unicodeOf T isWord) s) =
        slugify (unicodeOf T isWord) s ∧
      (slugify (unicodeOf T isWord) s = "" ∨
        Joined '-' (fun c => isWord c = true ∧ c ≠ '_') (slugify (unicodeOf T isWord) s).toList) ∧
      (slugify (unicodeOf T isWord) s).toList.head? ≠ some '-' ∧
      (slugify (unicodeOf T isWord) s).toList.getLast? ≠ some '-' ∧
      ∀ c ∈ (slugify (unicodeOf T isWord) s).toList, isSpace c = false := by
  simp only [slugify_passes] at hlower ⊢
  rcases slugify_joined hU s with ⟨hempty, -⟩ | hjoined
  · rw [hempty]
    refine ⟨slugify_empty (CaseTables.lower_eq ?_), .inl rfl, ?_, ?_, ?_⟩ <;> simp
  · have hsame := slugify_of_joined hU hjoined
      (CaseTables.lower_eq fun c hc => (CaseTables.lower_singleton c).1 (hlower c hc))
    have hchars {c : Char} (hc : (unicodeOf T isWord).isLetter c = true) :
        isWord c = true ∧ c ≠ '_' := by
      simpa [Unicode.isLetter, unicodeOf] using hc
    have hhyphen {c : Char} (hc : (unicodeOf T isWord).isLetter c = true) : c ≠ '-' :=
      fun he => hU.hyphen_not_letter (he ▸ hc)
    refine ⟨hsame, .inr (hjoined.mono fun c hc => hchars hc), ?_, ?_, fun c hc => ?_⟩
    · obtain ⟨c, rest, he, hc⟩ := hjoined.first
      rw [he, List.head?_cons]
      exact fun h => hhyphen hc (Option.some.inj h)
    · obtain ⟨init, c, he, hc⟩ := hjoined.last
      rw [he, List.getLast?_concat]
      exact fun h => hhyphen hc (Option.some.inj h)
    · rcases hjoined.mem hc with hc | rfl
      · exact hU.word_not_space c (hchars hc).1
      · rfl

/-- A name with underscores, spaces and hyphens next to one another. -/
theorem slugify_normal_form_acme :
    slugify asciiCharacters (slugify asciiCharacters " Acme_ -- (Corp)_2_") =
      slugify asciiCharacters " Acme_ -- (Corp)_2_" := by
  refine (slugify_normal_form lawful_asciiCharacters.words _ ?_).1
  have h : slugify asciiCharacters " Acme_ -- (Corp)_2_" = "acme-corp-2" := by decide +kernel
  have hall : "acme-corp-2".toList.all (fun c =>
      asciiTables.lower (String.singleton c) = String.singleton c) = true := by decide +kernel
  rw [show unicodeOf asciiTables isAsciiWord = asciiCharacters from rfl, h]
  exact fun c hc => of_decide_eq_true (List.all_eq_true.1 hall c hc)

end Teamspace.Webapp.Helpers
