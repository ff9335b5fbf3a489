import Mathlib.Data.List.Basic

/-!
# Lower case

`str.lower`, over the tables of Unicode. The tables are a parameter: what is used of them is that a
character of a lowered text is lowered already (`CaseTables.Lawful`). A capital sigma is the one
character whose lower case depends on what stands around it, and it is in no lowered text.
-/

namespace Teamspace.Py

/-- What Unicode says of the case of characters. -/
structure CaseTables where
  /-- The lower case of a character on its own. -/
  lowerChar : Char → List Char
  isCased : Char → Bool
  isCaseIgnorable : Char → Bool

namespace CaseTables

variable {T : CaseTables}

/-- Whether a capital sigma ends a word, from what precedes it, in reverse, and what follows it. -/
def isFinalSigma (T : CaseTables) (before after : List Char) : Bool :=
  (before.dropWhile T.isCaseIgnorable).head?.any T.isCased &&
    !(after.dropWhile T.isCaseIgnorable).head?.any T.isCased

/-- The lower case of a character in its place. -/
def lowerAt (T : CaseTables) (before : List Char) (c : Char) (after : List Char) : List Char :=
  if c = 'Σ' then if T.isFinalSigma before after then ['ς'] else ['σ'] else T.lowerChar c

/-- The lower case of what follows `before`. -/
def lowerFrom (T : CaseTables) (before : List Char) : List Char → List Char
  | [] => []
  | c :: after => T.lowerAt before c after ++ T.lowerFrom (c :: before) after

/-- `s.lower()`. -/
def lower (T : CaseTables) (s : String) : String := String.ofList (T.lowerFrom [] s.toList)

/-- A character that is its own lower case. -/
def Lowered (T : CaseTables) (c : Char) : Prop := c ≠ 'Σ' ∧ T.lowerChar c = [c]

/-- The lower case of a character is lower case. -/
structure Lawful (T : CaseTables) : Prop where
  lowered : ∀ c, c ≠ 'Σ' → ∀ d ∈ T.lowerChar c, T.Lowered d
  sigma : T.lowerChar 'σ' = ['σ']
  finalSigma : T.lowerChar 'ς' = ['ς']

/-- A lower case character stays, wherever it stands. -/
theorem Lowered.lowerAt {c : Char} (h : T.Lowered c) (before after : List Char) :
    T.lowerAt before c after = [c] := by
  rw [CaseTables.lowerAt, if_neg h.1, h.2]

/-- So does a lower case text. -/
theorem lowerFrom_eq {before s : List Char} (h : ∀ c ∈ s, T.Lowered c) :
    T.lowerFrom before s = s := by
  induction s generalizing before with
  | nil => rfl
  | cons c s ih =>
    rw [lowerFrom, (h c List.mem_cons_self).lowerAt, List.singleton_append,
      ih fun d hd => h d (List.mem_cons_of_mem c hd)]

/-- A text of lower case is left alone. -/
theorem lower_eq {s : String} (h : ∀ c ∈ s.toList, T.Lowered c) : T.lower s = s := by
  rw [lower, lowerFrom_eq h, String.ofList_toList]

/-- A character is lower case exactly if it is its own lower case. -/
theorem lower_singleton (c : Char) :
    T.lower (String.singleton c) = String.singleton c ↔ T.Lowered c := by
  constructor
  · intro h
    have hlist : T.lowerAt [] c [] = [c] := by
      have := congrArg String.toList h
      simpa [lower, lowerFrom] using this
    by_cases hc : c = 'Σ'
    · subst hc
      exact absurd hlist (by simp [lowerAt, isFinalSigma])
    · rw [lowerAt, if_neg hc] at hlist
      exact ⟨hc, hlist⟩
  · intro h
    refine lower_eq fun d hd => ?_
    rw [String.toList_singleton, List.mem_singleton] at hd
    rwa [hd]

/-- What is in the lower case of a text comes from one of its characters. -/
theorem mem_lowerFrom {before s : List Char} {d : Char} (h : d ∈ T.lowerFrom before s) :
    ∃ b c a, c ∈ s ∧ d ∈ T.lowerAt b c a := by
  induction s generalizing before with
  | nil => cases h
  | cons c s ih =>
    rcases List.mem_append.1 h with h | h
    · exact ⟨_, c, _, List.mem_cons_self, h⟩
    · obtain ⟨b, x, a, hx, hd⟩ := ih h
      exact ⟨b, x, a, List.mem_cons_of_mem c hx, hd⟩

/-- What `lowerAt` gives for a capital sigma. -/
theorem mem_lowerAt_sigma {b a : List Char} {d : Char} (h : d ∈ T.lowerAt b 'Σ' a) :
    d = 'ς' ∨ d = 'σ' := by
  rw [lowerAt, if_pos rfl] at h
  split at h
  · exact .inl (List.mem_singleton.1 h)
  · exact .inr (List.mem_singleton.1 h)

/-- A lowered text is lower case. -/
theorem Lawful.lowered_of_mem (hT : T.Lawful) {s : String} {d : Char}
    (h : d ∈ (T.lower s).toList) : T.Lowered d := by
  rw [lower, String.toList_ofList] at h
  obtain ⟨b, c, a, -, hd⟩ := mem_lowerFrom h
  by_cases hc : c = 'Σ'
  · subst hc
    rcases mem_lowerAt_sigma hd with rfl | rfl
    · exact ⟨by decide, hT.finalSigma⟩
    · exact ⟨by decide, hT.sigma⟩
  · rw [lowerAt, if_neg hc] at hd
    exact hT.lowered c hc d hd

/-- Lowering a text keeps that it has a character of a kind, if lowering a character does. -/
theorem exists_mem_lower {p : Char → Prop} (hlow : p 'σ' ↔ p 'Σ') (hfinal : p 'ς' ↔ p 'Σ')
    (h : ∀ c, c ≠ 'Σ' → ((∃ d ∈ T.lowerChar c, p d) ↔ p c)) (s : String) :
    (∃ d ∈ (T.lower s).toList, p d) ↔ ∃ c ∈ s.toList, p c := by
  have hat : ∀ b c a, (∃ d ∈ T.lowerAt b c a, p d) ↔ p c := by
    intro b c a
    by_cases hc : c = 'Σ'
    · subst hc
      rw [lowerAt, if_pos rfl]
      split
      · simpa using hfinal
      · simpa using hlow
    · rw [lowerAt, if_neg hc]
      exact h c hc
  have hfrom : ∀ l b, (∃ d ∈ T.lowerFrom b l, p d) ↔ ∃ c ∈ l, p c := by
    intro l
    induction l with
    | nil => simp [lowerFrom]
    | cons c l ih =>
      intro b
      simp only [lowerFrom, List.mem_append, or_and_right, exists_or, hat, ih, List.mem_cons,
        exists_eq_left]
  rw [lower, String.toList_ofList]
  exact hfrom s.toList []

end CaseTables

end Teamspace.Py
