import Teamspace.Lib.Noninterference

/-!
# Replaying a program in stages

A program that is replayed on given replies leaves the replies that it has not received. So a
program in sequence with another hands them on (`runOn_bind`), and what it does in all is found
stage by stage.
-/

namespace Teamspace.Lib.Program

variable {I : Interface} {σ α β : Type} (exec : (o : I.Op) → σ → I.Ans o × σ)

/-- Run a program by itself on these replies, with those that it leaves; `none` if there are too
few. -/
def runOn : Program I α → List (Arrival I σ) → σ →
    Option (Except I.Exn α × List (Arrival I σ) × σ)
  | .ret a, l, s => some (.ok a, l, s)
  | .raise e, l, s => some (.error e, l, s)
  | .op o k, l, s => runOn (k (exec o s).1) l (exec o s).2
  | .await _ _, [], _ => none
  | .await _ k, (r, meanwhile) :: l, s => runOn (k r) l (meanwhile s)

variable {exec} {p : Program I α} {P : I.Op → Prop} {Q : I.Req → Prop} {s t : σ}
  {l l' : List (Arrival I σ)}

/-- Replaying forgets the replies that are left. -/
theorem replay_eq_runOn (p : Program I α) (l : List (Arrival I σ)) (s : σ) :
    p.replay exec l s = (p.runOn exec l s).map fun r => (r.1, r.2.2) := by
  induction p generalizing l s with
  | ret a | raise e => rfl
  | op o k ih => exact ih _ ..
  | await q k ih =>
    cases l with
    | nil => rfl
    | cons r l => exact ih _ ..

/-- A program in sequence ends where its first part raises, or where its second part ends. -/
theorem runOn_bind {f : α → Program I β} {x : Except I.Exn β}
    (h : (p >>= f).runOn exec l s = some (x, l', t)) :
    (∃ e, p.runOn exec l s = some (.error e, l', t) ∧ x = .error e) ∨
      ∃ a l₁ s₁, p.runOn exec l s = some (.ok a, l₁, s₁) ∧
        (f a).runOn exec l₁ s₁ = some (x, l', t) := by
  induction p generalizing l s with
  | ret a => exact .inr ⟨a, l, s, rfl, h⟩
  | raise e =>
    cases h
    exact .inl ⟨e, rfl, rfl⟩
  | op o k ih => exact ih _ h
  | await q k ih =>
    cases l with
    | nil => cases h
    | cons r l => exact ih _ h

/-- A program with a handler ends where it returns, or where the handler of what it raises ends. -/
theorem runOn_tryCatch {handler : I.Exn → Program I α} {x : Except I.Exn α}
    (h : (p.tryCatch handler).runOn exec l s = some (x, l', t)) :
    (∃ a, p.runOn exec l s = some (.ok a, l', t) ∧ x = .ok a) ∨
      ∃ e l₁ s₁, p.runOn exec l s = some (.error e, l₁, s₁) ∧
        (handler e).runOn exec l₁ s₁ = some (x, l', t) := by
  induction p generalizing l s with
  | ret a =>
    cases h
    exact .inl ⟨a, rfl, rfl⟩
  | raise e => exact .inr ⟨e, l, s, rfl, h⟩
  | op o k ih => exact ih _ h
  | await q k ih =>
    cases l with
    | nil => cases h
    | cons r l => exact ih _ h

/-- The replies that are left are the last ones. -/
theorem runOn_suffix {x : Except I.Exn α} (h : p.runOn exec l s = some (x, l', t)) : l' <:+ l := by
  induction p generalizing l s with
  | ret a | raise e =>
    cases h
    exact List.suffix_refl _
  | op o k ih => exact ih _ h
  | await q k ih =>
    cases l with
    | nil => cases h
    | cons r l => exact (ih _ h).trans (List.suffix_cons r l)

/-- What the footprint and the others keep is kept. -/
theorem Only.runOn_keeps {J : σ → Prop} (hp : p.Only P Q)
    (hop : ∀ o s, P o → J s → J (exec o s).2) (hothers : ∀ x ∈ l, ∀ s, J s → J (x.2 s))
    {x : Except I.Exn α} (h : p.runOn exec l s = some (x, l', t)) (hs : J s) : J t := by
  refine hp.replay_keeps (x := x) hop hothers ?_ hs
  rw [replay_eq_runOn, h]
  rfl

end Teamspace.Lib.Program
