import Mathlib.Data.List.Infix

/-!
# Glob patterns

The patterns of a key scan: `*` stands for any characters, `?` for one, `[…]` for one of a class,
and `\` takes the character after it as it is. A pattern is read into tokens from the left. A text
without these characters, followed by `*`, matches exactly what begins with it
(`accept_plain_star`). No other text is a pattern for what begins with it, whatever stands between
it and the last `*` (`exact_iff`).
-/

namespace Teamspace.Lib.Glob

/-- A part of a pattern: any characters, or one character in one of the ranges, or in none. -/
inductive Token
  | star
  | one (negated : Bool) (ranges : List (Char × Char))
  deriving DecidableEq, Repr

/-- A class has this character. The ends of a range stand in either order. -/
def accepts (negated : Bool) (ranges : List (Char × Char)) (c : Char) : Bool :=
  negated != ranges.any fun r => decide ((r.1 ≤ c ∧ c ≤ r.2) ∨ (r.2 ≤ c ∧ c ≤ r.1))

/-- A character that stands for itself. -/
def literal (c : Char) : Token := .one false [(c, c)]

/-- The ranges of a class up to its closing bracket, and what follows it. A class without one takes
the rest of the pattern. -/
def classRanges : List Char → List (Char × Char) × List Char
  | [] => ([], [])
  | '\\' :: c :: s => ((c, c) :: (classRanges s).1, (classRanges s).2)
  | ']' :: s => ([], s)
  | a :: '-' :: b :: s => ((a, b) :: (classRanges s).1, (classRanges s).2)
  | c :: s => ((c, c) :: (classRanges s).1, (classRanges s).2)

/-- A class after its opening bracket. -/
def classToken : List Char → Token × List Char
  | '^' :: s => (.one true (classRanges s).1, (classRanges s).2)
  | s => (.one false (classRanges s).1, (classRanges s).2)

/-- The token that begins with `c`, and what follows it. -/
def token : Char → List Char → Token × List Char
  | '*', s => (.star, s)
  | '?', s => (.one true [], s)
  | '[', s => classToken s
  | '\\', c :: s => (literal c, s)
  | c, s => (literal c, s)

/-- The tokens of a pattern, up to `n` of them. -/
def tokensWithin : Nat → List Char → List Token
  | 0, _ | _ + 1, [] => []
  | n + 1, c :: s => (token c s).1 :: tokensWithin n (token c s).2

/-- The tokens of a pattern. -/
def tokens (pattern : List Char) : List Token := tokensWithin pattern.length pattern

/-- A text is matched as a whole. -/
def accept : List Token → List Char → Bool
  | [], s => s.isEmpty
  | .star :: ts, s => s.tails.any (accept ts)
  | .one _ _ :: _, [] => false
  | .one negated ranges :: ts, c :: s => accepts negated ranges c && accept ts s

/-- `s` matches `pattern`. -/
def isMatch (pattern s : String) : Bool := accept (tokens pattern.toList) s.toList

/-- A character that does not stand for itself. -/
def special (c : Char) : Bool := c = '*' || c = '?' || c = '[' || c = '\\'

/-- A text of characters that stand for themselves. -/
def Plain (s : List Char) : Prop := ∀ c ∈ s, special c = false

instance (s : List Char) : Decidable (Plain s) := s.decidableBAll fun c => special c = false

/-! ## Tokens -/

variable {p q r s x : List Char} {ts : List Token} {c : Char}

/-- What follows the ranges of a class is an end of the pattern. -/
theorem classRanges_suffix (s : List Char) : (classRanges s).2 <:+ s := by
  fun_induction classRanges s with
  | case1 => exact List.suffix_rfl
  | case2 c s ih => exact ih.trans ⟨['\\', c], rfl⟩
  | case3 s => exact ⟨[']'], rfl⟩
  | case4 a b s _ _ ih => exact ih.trans ⟨[a, '-', b], rfl⟩
  | case5 c s _ _ _ ih => exact ih.trans ⟨[c], rfl⟩

/-- A class takes at least one character, if there is one. -/
theorem classRanges_cons_suffix (c : Char) (s : List Char) : (classRanges (c :: s)).2 <:+ s := by
  rw [classRanges.eq_def]
  split
  · next he => cases he
  · next he =>
    cases (List.cons.inj he).2
    exact (classRanges_suffix _).trans (List.suffix_cons _ _)
  · next he =>
    cases (List.cons.inj he).2
    exact List.suffix_rfl
  · next he =>
    cases (List.cons.inj he).2
    exact (classRanges_suffix _).trans ⟨['-', _], rfl⟩
  · next he =>
    cases (List.cons.inj he).2
    exact classRanges_suffix _

/-- So is what follows a class. -/
theorem classToken_cons_suffix (c : Char) (s : List Char) : (classToken (c :: s)).2 <:+ s := by
  unfold classToken
  split
  · next he =>
    cases (List.cons.inj he).2
    exact classRanges_suffix s
  · exact classRanges_cons_suffix c s

/-- So is what follows a token. -/
theorem token_suffix (c : Char) (s : List Char) : (token c s).2 <:+ s := by
  unfold token
  split
  · exact List.suffix_rfl
  · exact List.suffix_rfl
  · cases s with
    | nil => exact List.suffix_rfl
    | cons d s => exact (classToken_cons_suffix d s).trans (List.suffix_cons d s)
  · exact List.suffix_cons _ _
  · exact List.suffix_rfl

/-- The bound on the number of tokens is not reached. -/
theorem tokensWithin_eq {m n : Nat} (hm : s.length ≤ m) (hn : s.length ≤ n) :
    tokensWithin m s = tokensWithin n s := by
  induction m generalizing n s with
  | zero =>
    cases List.length_eq_zero_iff.1 (Nat.le_zero.1 hm)
    cases n <;> rfl
  | succ m ih =>
    cases s with
    | nil => cases n <;> rfl
    | cons c s =>
      cases n with
      | zero => cases hn
      | succ n =>
        have hlen := (token_suffix c s).length_le
        rw [List.length_cons] at hm hn
        rw [tokensWithin, tokensWithin, ih (n := n) (by omega) (by omega)]

/-- The tokens of a pattern are its first and those of what follows it. -/
theorem tokens_cons (c : Char) (s : List Char) :
    tokens (c :: s) = (token c s).1 :: tokens (token c s).2 := by
  change (token c s).1 :: tokensWithin s.length _ = _
  rw [tokensWithin_eq (token_suffix c s).length_le (Nat.le_refl _)]
  rfl

/-- A plain character is a token that stands for itself. -/
theorem token_of_plain (hc : special c = false) (s : List Char) : token c s = (literal c, s) := by
  simp only [special, Bool.or_eq_false_iff, decide_eq_false_iff_not] at hc
  obtain ⟨⟨⟨h₁, h₂⟩, h₃⟩, h₄⟩ := hc
  unfold token
  split
  · contradiction
  · contradiction
  · contradiction
  · contradiction
  · rfl

/-! ## Plain texts -/

/-- A literal accepts its own character. -/
theorem accepts_literal {d : Char} : accepts false [(c, c)] d = true ↔ d = c := by
  simp only [accepts, List.any_cons, List.any_nil, Bool.or_false, Bool.false_bne,
    decide_eq_true_eq, or_self]
  exact ⟨fun h => Char.le_antisymm h.2 h.1, fun h => h ▸ ⟨Char.le_refl _, Char.le_refl _⟩⟩

/-- A plain text at the start of a pattern is what a text it matches begins with. -/
theorem accept_plain (hq : Plain q) :
    accept (tokens (q ++ x)) s = true ↔ ∃ t, s = q ++ t ∧ accept (tokens x) t = true := by
  induction q generalizing s with
  | nil => exact ⟨fun h => ⟨s, rfl, h⟩, fun ⟨t, ht, h⟩ => ht ▸ h⟩
  | cons c q ih =>
    rw [List.cons_append, tokens_cons, token_of_plain (hq c (.head _))]
    have ih := fun s => ih (s := s) fun d hd => hq d (.tail _ hd)
    cases s with
    | nil =>
      constructor
      · intro h
        cases h
      · rintro ⟨t, ht, -⟩
        cases ht
    | cons d s =>
      change (accepts false [(c, c)] d && accept (tokens (q ++ x)) s) = true ↔ _
      rw [Bool.and_eq_true, accepts_literal, ih]
      constructor
      · rintro ⟨rfl, t, rfl, h⟩
        exact ⟨t, rfl, h⟩
      · rintro ⟨t, ht, h⟩
        obtain ⟨rfl, rfl⟩ := List.cons.inj ht
        exact ⟨rfl, t, rfl, h⟩

/-- A star accepts any text before what follows it. -/
theorem accept_star : accept (.star :: ts) s = true ↔ ∃ u t, s = u ++ t ∧ accept ts t = true := by
  change s.tails.any (accept ts) = true ↔ _
  rw [List.any_eq_true]
  constructor
  · rintro ⟨t, ht, h⟩
    obtain ⟨u, rfl⟩ := (List.mem_tails ..).1 ht
    exact ⟨u, t, rfl, h⟩
  · rintro ⟨u, t, rfl, h⟩
    exact ⟨t, (List.mem_tails ..).2 ⟨u, rfl⟩, h⟩

/-- A plain text followed by `*` matches what begins with it. -/
theorem accept_plain_star (hq : Plain q) :
    accept (tokens (q ++ ['*'])) s = true ↔ q <+: s := by
  have hstar : ∀ t, accept (tokens ['*']) t = true := fun t =>
    accept_star.2 ⟨t, [], (List.append_nil t).symm, rfl⟩
  rw [accept_plain hq]
  constructor
  · rintro ⟨t, rfl, -⟩
    exact ⟨t, rfl⟩
  · rintro ⟨t, rfl⟩
    exact ⟨t, rfl, hstar t⟩

/-! ## Other texts -/

/-- The number of characters that the tokens need. -/
def singles : List Token → Nat
  | [] => 0
  | .star :: ts => singles ts
  | .one _ _ :: ts => singles ts + 1

/-- Tokens that match a text match one of just the characters they need. -/
theorem exists_accept_singles (h : accept ts s = true) :
    ∃ t, accept ts t = true ∧ t.length = singles ts := by
  induction ts generalizing s with
  | nil => exact ⟨[], rfl, rfl⟩
  | cons token ts ih =>
    cases token with
    | star =>
      obtain ⟨-, t, -, ht⟩ := accept_star.1 h
      obtain ⟨t, ht, hlen⟩ := ih ht
      exact ⟨t, accept_star.2 ⟨[], t, rfl, ht⟩, hlen⟩
    | one negated ranges =>
      cases s with
      | nil => cases h
      | cons c s =>
        obtain ⟨hc, hs⟩ := Bool.and_eq_true_iff.1 h
        obtain ⟨t, ht, hlen⟩ := ih hs
        exact ⟨c :: t, Bool.and_eq_true_iff.2 ⟨hc, ht⟩, congrArg (· + 1) hlen⟩

/-- A token needs one character at most. -/
theorem singles_cons_le (t : Token) (ts : List Token) : singles (t :: ts) ≤ singles ts + 1 := by
  cases t with
  | star => exact Nat.le_succ _
  | one negated ranges => exact Nat.le_refl _

/-- A pattern that ends with `*` needs no more characters than stand before it. -/
theorem singles_tokens_star (x : List Char) : singles (tokens (x ++ ['*'])) ≤ x.length := by
  induction hn : x.length using Nat.strong_induction_on generalizing x with
  | _ n ih =>
    cases x with
    | nil => exact Nat.zero_le _
    | cons c x =>
      rw [List.cons_append, tokens_cons]
      rw [List.length_cons] at hn
      refine (singles_cons_le ..).trans ?_
      rcases List.suffix_concat_iff.1 (token_suffix c (x ++ ['*'])) with h | ⟨y, h, hy⟩
      · rw [h]
        exact hn ▸ Nat.le_add_left 1 x.length
      · have hlen := hy.length_le
        have := ih y.length (by omega) y rfl
        rw [h]
        omega

/-- A text that is not plain, up to its first special character. -/
theorem exists_special (h : ¬ Plain p) :
    ∃ q c r, p = q ++ c :: r ∧ Plain q ∧ special c = true := by
  induction p with
  | nil => exact absurd nofun h
  | cons c p ih =>
    by_cases hc : special c = true
    · exact ⟨[], c, p, rfl, nofun, hc⟩
    · have hp : ¬ Plain p := fun hp => h fun d hd => by
        rcases List.mem_cons.1 hd with rfl | hd
        · exact Bool.eq_false_iff.2 hc
        · exact hp d hd
      obtain ⟨q, d, r, rfl, hq, hd⟩ := ih hp
      refine ⟨c :: q, d, r, rfl, fun e he => ?_, hd⟩
      rcases List.mem_cons.1 he with rfl | he
      · exact Bool.eq_false_iff.2 hc
      · exact hq e he

/-- A class or an escape takes characters of what follows it, so fewer characters can match it and
the rest of the pattern than are written there. -/
theorem not_exact_of_one {negated : Bool} {ranges : List (Char × Char)} {y : List Char}
    (ht : token c (x ++ ['*']) = (.one negated ranges, y)) (hy : y.length < x.length + 1)
    (hx : x ≠ []) (h : ∀ s, accept (tokens (c :: (x ++ ['*']))) s = true ↔ c :: x <+: s) : False := by
  have htokens : tokens (c :: (x ++ ['*'])) = .one negated ranges :: tokens y := by
    rw [tokens_cons, ht]
  rw [htokens] at h
  obtain ⟨hc, hs⟩ := Bool.and_eq_true_iff.1 ((h (c :: x)).2 List.prefix_rfl)
  obtain ⟨t, ht', hlen⟩ := exists_accept_singles hs
  have hle := ((h (c :: t)).1 (Bool.and_eq_true_iff.2 ⟨hc, ht'⟩)).length_le
  have hsuffix := token_suffix c (x ++ ['*'])
  rw [ht] at hsuffix
  have hpos := List.length_pos_iff.2 hx
  rw [List.length_cons, List.length_cons] at hle
  rcases List.suffix_concat_iff.1 hsuffix with rfl | ⟨y, rfl, -⟩
  · have : singles (tokens []) = 0 := rfl
    omega
  · have := singles_tokens_star y
    rw [List.length_append, List.length_singleton] at hy
    omega

/-- A `*` also matches a character more. -/
theorem not_exact_of_star (h : ∀ s, accept (tokens ('*' :: x)) s = true → '*' :: q <+: s)
    (hs : accept (tokens ('*' :: x)) s = true) : False := by
  rw [tokens_cons] at hs
  obtain ⟨u, t, rfl, ht⟩ := accept_star.1 hs
  have hmore : accept (tokens ('*' :: x)) ('?' :: (u ++ t)) = true := by
    rw [tokens_cons]
    exact accept_star.2 ⟨'?' :: u, t, rfl, ht⟩
  exact absurd (List.cons_prefix_cons.1 (h _ hmore)).1 (by decide)

/-- A `?` also matches another character. -/
theorem not_exact_of_any (h : ∀ s, accept (tokens ('?' :: x)) s = true → '?' :: q <+: s)
    (hs : accept (tokens ('?' :: x)) (c :: s) = true) : False := by
  have hmore : accept (tokens ('?' :: x)) ('*' :: s) = true := by
    rw [tokens_cons] at hs ⊢
    exact hs
  exact absurd (List.cons_prefix_cons.1 (h _ hmore)).1 (by decide)

/-- A class is one token. -/
theorem classToken_eq (s : List Char) :
    ∃ negated ranges y, classToken s = (.one negated ranges, y) := by
  unfold classToken
  split <;> exact ⟨_, _, _, rfl⟩

/-- The token of a special character is `*`, `?`, or takes characters of what follows it. -/
theorem token_of_special (hc : special c = true) (hs : s ≠ []) :
    c = '*' ∨ c = '?' ∨
      ∃ negated ranges y, token c s = (.one negated ranges, y) ∧ y.length < s.length := by
  obtain ⟨d, s, rfl⟩ := List.exists_cons_of_ne_nil hs
  simp only [special, Bool.or_eq_true, decide_eq_true_eq] at hc
  rcases hc with ((rfl | rfl) | rfl) | rfl
  · exact .inl rfl
  · exact .inr (.inl rfl)
  · obtain ⟨negated, ranges, y, he⟩ := classToken_eq (d :: s)
    have hlen := (classToken_cons_suffix d s).length_le
    rw [he] at hlen
    exact .inr (.inr ⟨negated, ranges, y, he, Nat.lt_succ_of_le hlen⟩)
  · exact .inr (.inr ⟨false, [(d, d)], s, rfl, Nat.lt_succ_self _⟩)

/-- **Exactness.** With a plain text after it, a text and `*` match exactly what begins with the two
texts if and only if it is plain. -/
theorem exact_iff (hr : Plain r) (hne : r ≠ []) :
    (∀ s, accept (tokens (p ++ r ++ ['*'])) s = true ↔ p ++ r <+: s) ↔ Plain p := by
  constructor
  · intro h
    by_contra hp
    obtain ⟨q, c, x, rfl, hq, hc⟩ := exists_special hp
    have h' : ∀ s, accept (tokens (c :: (x ++ r ++ ['*']))) s = true ↔ c :: (x ++ r) <+: s := by
      intro s
      have hs := h (q ++ s)
      simp only [List.append_assoc, List.cons_append, List.prefix_append_right_inj] at hs ⊢
      rw [← hs, accept_plain hq]
      constructor
      · intro hs
        exact ⟨s, rfl, hs⟩
      · rintro ⟨t, ht, hs⟩
        cases List.append_cancel_left ht
        exact hs
    have hself := (h' _).2 List.prefix_rfl
    rcases token_of_special (s := x ++ r ++ ['*']) hc (by simp) with rfl | rfl | ⟨_, _, y, ht, hy⟩
    · exact not_exact_of_star (fun s => (h' s).1) hself
    · exact not_exact_of_any (fun s => (h' s).1) hself
    · rw [List.length_append, List.length_singleton] at hy
      exact not_exact_of_one ht hy (by simp [hne]) h'
  · intro hp
    have hplain : Plain (p ++ r) := fun c hc =>
      (List.mem_append.1 hc).elim (hp c) (hr c)
    exact fun s => accept_plain_star hplain

end Teamspace.Lib.Glob
