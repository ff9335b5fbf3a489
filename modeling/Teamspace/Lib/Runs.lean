import Mathlib.Data.List.Basic

/-!
# Runs joined by a separator

A list of runs, none of them empty, that single separators join (`Joined`). A list in which no two
separators are adjacent (`Padded`) is one, or has no run, once the separators at its ends are taken
off (`Padded.trim`).
-/

namespace Teamspace.Lib

variable {α : Type} {sep : α} {p q : α → Prop} {s : List α}

/-- Runs of elements that satisfy `p`, with a single `sep` between two of them. -/
inductive Joined (sep : α) (p : α → Prop) : List α → Prop
  | single {x : α} : p x → Joined sep p [x]
  | cons {x : α} {s : List α} : p x → Joined sep p s → Joined sep p (x :: s)
  | sep {x : α} {s : List α} : p x → Joined sep p s → Joined sep p (x :: sep :: s)

namespace Joined

/-- What is joined consists of the runs and separators. -/
theorem mem (h : Joined sep p s) {x : α} (hx : x ∈ s) : p x ∨ x = sep := by
  induction h with
  | single hy =>
    rw [List.mem_singleton] at hx
    exact .inl (hx ▸ hy)
  | cons hy _ ih =>
    rcases List.mem_cons.1 hx with rfl | hx
    · exact .inl hy
    · exact ih hx
  | sep hy _ ih =>
    rcases List.mem_cons.1 hx with rfl | hx
    · exact .inl hy
    · rcases List.mem_cons.1 hx with rfl | hx
      · exact .inr rfl
      · exact ih hx

/-- It begins with a run. -/
theorem first (h : Joined sep p s) : ∃ x rest, s = x :: rest ∧ p x := by
  cases h with
  | single hx | cons hx _ | sep hx _ => exact ⟨_, _, rfl, hx⟩

/-- It ends with a run. -/
theorem last (h : Joined sep p s) : ∃ init x, s = init ++ [x] ∧ p x := by
  induction h with
  | single hx => exact ⟨[], _, rfl, hx⟩
  | @cons y _ _ _ ih =>
    obtain ⟨init, x, rfl, hx⟩ := ih
    exact ⟨y :: init, x, rfl, hx⟩
  | @sep y _ _ _ ih =>
    obtain ⟨init, x, rfl, hx⟩ := ih
    exact ⟨y :: sep :: init, x, rfl, hx⟩

/-- A wider property joins the same. -/
theorem mono (h : Joined sep p s) (hpq : ∀ x, p x → q x) : Joined sep q s := by
  induction h with
  | single hx => exact .single (hpq _ hx)
  | cons hx _ ih => exact .cons (hpq _ hx) ih
  | sep hx _ ih => exact .sep (hpq _ hx) ih

/-- What all elements satisfy is satisfied by those of the runs. -/
theorem and (h : Joined sep p s) (hq : ∀ x ∈ s, q x) : Joined sep (fun x => p x ∧ q x) s := by
  induction h with
  | single hx => exact .single ⟨hx, hq _ List.mem_cons_self⟩
  | cons hx _ ih =>
    exact .cons ⟨hx, hq _ List.mem_cons_self⟩ (ih fun y hy => hq y (List.mem_cons_of_mem _ hy))
  | sep hx _ ih =>
    exact .sep ⟨hx, hq _ List.mem_cons_self⟩
      (ih fun y hy => hq y (List.mem_cons_of_mem _ (List.mem_cons_of_mem _ hy)))

end Joined

/-- Runs, or none, with at most one separator at each end. -/
inductive Padded (sep : α) (p : α → Prop) : List α → Prop
  | none {b : List α} : b = [] ∨ b = [sep] → Padded sep p b
  | runs {a s b : List α} : a = [] ∨ a = [sep] → Joined sep p s → b = [] ∨ b = [sep] →
      Padded sep p (a ++ s ++ b)

/-- A run may begin behind another character of it. -/
theorem Padded.cons {x : α} (hx : p x) (h : Padded sep p s) : Padded sep p (x :: s) := by
  cases h with
  | none hpost => exact .runs (a := []) (.inl rfl) (.single hx) hpost
  | runs hpre hs hpost =>
    rcases hpre with rfl | rfl
    · exact .runs (a := []) (.inl rfl) (.cons hx hs) hpost
    · exact .runs (a := []) (.inl rfl) (.sep hx hs) hpost

section

variable [BEq α]

/-- A list without the separators at its ends. -/
def trim (sep : α) (s : List α) : List α :=
  ((s.dropWhile (· == sep)).reverse.dropWhile (· == sep)).reverse

/-- Trimming leaves what was there. -/
theorem trim_subset {x : α} (h : x ∈ trim sep s) : x ∈ s := by
  have hx := (List.dropWhile_suffix _).subset (List.mem_reverse.1 h)
  exact (List.dropWhile_suffix _).subset (List.mem_reverse.1 hx)

variable [LawfulBEq α]

/-- Runs are all that is left between separators. -/
theorem Joined.trim {a b : List α} (h : Joined sep p s) (hsep : ¬ p sep)
    (hpre : a = [] ∨ a = [sep]) (hpost : b = [] ∨ b = [sep]) : trim sep (a ++ s ++ b) = s := by
  have hne : ∀ {x}, p x → ¬ (x == sep) = true := fun hx he => hsep (beq_iff_eq.1 he ▸ hx)
  have hfront : (a ++ s ++ b).dropWhile (· == sep) = s ++ b := by
    obtain ⟨x, rest, rfl, hx⟩ := h.first
    rcases hpre with rfl | rfl <;> simp [hne hx]
  have hback : (s ++ b).reverse.dropWhile (· == sep) = s.reverse := by
    obtain ⟨init, x, rfl, hx⟩ := h.last
    rcases hpost with rfl | rfl <;> simp [hne hx]
  rw [Lib.trim, hfront, hback, List.reverse_reverse]

/-- What is joined has nothing to trim. -/
theorem Joined.trim_self (h : Joined sep p s) (hsep : ¬ p sep) : Lib.trim sep s = s := by
  simpa using h.trim hsep (.inl rfl) (.inl rfl)

/-- What is left between the separators at the ends: runs, or nothing where there is no run. -/
theorem Padded.trim (h : Padded sep p s) (hsep : ¬ p sep) :
    (Lib.trim sep s = [] ∧ ∀ x ∈ s, ¬ p x) ∨ Joined sep p (Lib.trim sep s) := by
  cases h with
  | none hpost =>
    refine .inl ?_
    rcases hpost with rfl | rfl
    · exact ⟨rfl, fun x hx => absurd hx List.not_mem_nil⟩
    · refine ⟨by simp [Lib.trim], fun x hx => ?_⟩
      rw [List.mem_singleton] at hx
      exact hx ▸ hsep
  | runs hpre hs hpost =>
    rw [hs.trim hsep hpre hpost]
    exact .inr hs

end

end Teamspace.Lib
