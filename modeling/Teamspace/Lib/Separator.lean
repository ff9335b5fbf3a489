import Mathlib.Data.List.Infix

/-!
# Texts with a separator

The first occurrence of a separator in a text (`cut`), and the pieces between its occurrences
(`pieces`), as the splitting methods of programming languages find them: from the left, without
overlaps.
-/

namespace Teamspace.Lib

/-- Two texts that agree up to their first separator agree before and after it. -/
theorem append_sep_inj {α : Type} {sep : α} :
    ∀ {a b k l : List α}, sep ∉ a → sep ∉ b → a ++ sep :: k = b ++ sep :: l → a = b ∧ k = l
  | [], [], _, _, _, _, h => ⟨rfl, (List.cons.inj h).2⟩
  | [], y :: _, _, _, _, hb, h => absurd (List.cons.inj h).1 fun e => hb (by simp [e])
  | x :: _, [], _, _, ha, _, h => absurd (List.cons.inj h).1 fun e => ha (by simp [e])
  | x :: a, y :: b, _, _, ha, hb, h => by
    simp only [List.cons_append, List.cons.injEq] at h
    obtain ⟨rfl, h⟩ := h
    obtain ⟨rfl, h'⟩ := append_sep_inj (fun e => ha (.tail _ e)) (fun e => hb (.tail _ e)) h
    exact ⟨rfl, h'⟩

variable {α : Type} [DecidableEq α] {sep s a b : List α}

/-- What stands before the first occurrence of `sep`, and what follows it. -/
def cut (sep : List α) : List α → Option (List α × List α)
  | [] => if sep = [] then some ([], []) else none
  | x :: xs =>
    if sep <+: x :: xs then some ([], (x :: xs).drop sep.length)
    else (cut sep xs).map fun p => (x :: p.1, p.2)

/-- The pieces between the occurrences of `sep`, up to `n` of them and what remains. -/
def pieces (sep : List α) : Nat → List α → List (List α)
  | 0, s => [s]
  | n + 1, s =>
    match cut sep s with
    | none => [s]
    | some (a, b) => a :: pieces sep n b

/-- A cut is the first occurrence. -/
theorem cut_eq_some : cut sep s = some (a, b) ↔
    s = a ++ sep ++ b ∧ ∀ k < a.length, ¬ sep <+: s.drop k := by
  induction s generalizing a with
  | nil =>
    constructor
    · intro h
      unfold cut at h
      split at h
      · next hs =>
        cases h
        exact ⟨by rw [hs]; rfl, fun k hk => absurd hk (Nat.not_lt_zero k)⟩
      · cases h
    · rintro ⟨h, -⟩
      obtain ⟨hab, rfl⟩ := List.append_eq_nil_iff.1 h.symm
      obtain ⟨rfl, rfl⟩ := List.append_eq_nil_iff.1 hab
      rfl
  | cons x xs ih =>
    unfold cut
    split
    · next hp =>
      constructor
      · intro h
        cases h
        refine ⟨?_, fun k hk => absurd hk (Nat.not_lt_zero k)⟩
        rw [List.nil_append]
        exact (List.prefix_iff_eq_append.1 hp).symm
      · rintro ⟨h, hfirst⟩
        -- nothing precedes an occurrence at the very start
        cases a with
        | nil =>
          rw [h, List.nil_append, List.drop_left]
        | cons y a => exact absurd hp (hfirst 0 (Nat.succ_pos _))
    · next hp =>
      rw [Option.map_eq_some_iff]
      constructor
      · rintro ⟨⟨a', b'⟩, h, he⟩
        cases he
        obtain ⟨rfl, hfirst⟩ := ih.1 h
        refine ⟨rfl, fun k hk => ?_⟩
        cases k with
        | zero => exact hp
        | succ k => exact hfirst k (Nat.lt_of_succ_lt_succ hk)
      · rintro ⟨h, hfirst⟩
        cases a with
        | nil =>
          rw [List.nil_append] at h
          exact absurd ⟨b, h.symm⟩ hp
        | cons y a =>
          obtain ⟨rfl, rfl⟩ := List.cons.inj h
          exact ⟨(a, b), ih.2 ⟨rfl, fun k hk => hfirst (k + 1) (Nat.succ_lt_succ hk)⟩, rfl⟩

/-- A text without the separator is not cut. -/
theorem cut_eq_none : cut sep s = none ↔ ¬ sep <:+: s := by
  induction s with
  | nil => simp [cut]
  | cons x xs ih =>
    unfold cut
    split
    · next hp => exact ⟨by rintro ⟨⟩, fun h => absurd hp.isInfix h⟩
    · next hp =>
      rw [Option.map_eq_none_iff, ih, List.infix_cons_iff, not_or]
      exact ⟨fun h => ⟨hp, h⟩, And.right⟩

/-- A text with the separator is cut. -/
theorem exists_cut (h : sep <:+: s) : ∃ a b, cut sep s = some (a, b) := by
  cases hc : cut sep s with
  | none => exact absurd h (cut_eq_none.1 hc)
  | some p => exact ⟨p.1, p.2, rfl⟩

/-- The first piece is a prefix of the text, and all of it where the separator is missing. -/
theorem pieces_head (sep : List α) (n : Nat) (s : List α) : ∃ p rest, pieces sep n s = p :: rest ∧
    p <+: s ∧ (¬ sep <:+: s → p = s) := by
  cases n with
  | zero => exact ⟨s, [], rfl, List.prefix_refl s, fun _ => rfl⟩
  | succ n =>
    unfold pieces
    split
    · exact ⟨s, [], rfl, List.prefix_refl s, fun _ => rfl⟩
    · next a b hc =>
      obtain ⟨rfl, -⟩ := cut_eq_some.1 hc
      refine ⟨a, _, rfl, ?_, fun h => absurd ⟨a, b, rfl⟩ h⟩
      rw [List.append_assoc]
      exact List.prefix_append ..

/-- The first two pieces of a text that has the separator. -/
theorem pieces_cut (hsep : sep ≠ []) (h : cut sep s = some (a, b)) :
    ∃ p rest, pieces sep s.length s = a :: p :: rest ∧ p <+: b ∧ (¬ sep <:+: b → p = b) := by
  obtain ⟨rfl, -⟩ := cut_eq_some.1 h
  obtain ⟨n, hn⟩ : ∃ n, (a ++ sep ++ b).length = n + 1 := by
    refine Nat.exists_eq_add_one.2 (List.length_pos_of_ne_nil fun hnil => hsep ?_)
    exact (List.append_eq_nil_iff.1 (List.append_eq_nil_iff.1 hnil).1).2
  obtain ⟨p, rest, hp, hpre, hall⟩ := pieces_head sep n b
  refine ⟨p, rest, ?_, hpre, hall⟩
  rw [hn, pieces, h]
  exact congrArg (a :: ·) hp

end Teamspace.Lib
