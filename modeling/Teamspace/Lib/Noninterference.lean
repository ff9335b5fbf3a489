import Mathlib.Data.List.Forall2
import Teamspace.Lib.Program

/-!
# Frames and noninterference

A program that is replayed on given replies, with whatever others do to the state while it waits.
Its footprint bounds what it changes and what it depends on: what the operations of the footprint
keep is kept by the program (`Only.replay_keeps`), and states that those operations cannot tell
apart lead to the same result and to states that they cannot tell apart (`Only.replay_agrees`).
-/

namespace Teamspace.Lib.Program

variable {I : Interface} {σ α : Type} (exec : (o : I.Op) → σ → I.Ans o × σ)

/-- A reply, and what others do to the state until it arrives. -/
abbrev Arrival (I : Interface) (σ : Type) := I.Rep × (σ → σ)

/-- Run a program by itself on these replies; `none` if there are too few. -/
def replay : Program I α → List (Arrival I σ) → σ → Option (Except I.Exn α × σ)
  | .ret a, _, s => some (.ok a, s)
  | .raise e, _, s => some (.error e, s)
  | .op o k, l, s => replay (k (exec o s).1) l (exec o s).2
  | .await _ _, [], _ => none
  | .await _ k, (r, meanwhile) :: l, s => replay (k r) l (meanwhile s)

variable {exec} {p : Program I α} {P : I.Op → Prop} {Q : I.Req → Prop} {s s' t : σ}
  {l l' : List (Arrival I σ)}

/-- What the footprint and the others keep is kept. -/
theorem Only.replay_keeps {J : σ → Prop} (hp : p.Only P Q)
    (hop : ∀ o s, P o → J s → J (exec o s).2) (hothers : ∀ x ∈ l, ∀ s, J s → J (x.2 s))
    {x : Except I.Exn α} (h : p.replay exec l s = some (x, t)) (hs : J s) : J t := by
  induction p generalizing l s with
  | ret a | raise e =>
    cases h
    exact hs
  | op o k ih => exact ih _ (hp.2 _) hothers h (hop o s hp.1 hs)
  | await q k ih =>
    cases l with
    | nil => cases h
    | cons y l =>
      have hothers := List.forall_mem_cons.1 hothers
      exact ih y.1 (hp.2 _) hothers.2 h (hothers.1 s hs)

/-- The same replies, with others that keep related states related. -/
abbrev SameReplies (R : σ → σ → Prop) : List (Arrival I σ) → List (Arrival I σ) → Prop :=
  List.Forall₂ fun x y => x.1 = y.1 ∧ ∀ s s', R s s' → R (x.2 s) (y.2 s')

/-- States that the footprint cannot tell apart lead to the same result, and to states that it
cannot tell apart. -/
theorem Only.replay_agrees {R : σ → σ → Prop} (hp : p.Only P Q)
    (hop : ∀ o s s', P o → R s s' → (exec o s).1 = (exec o s').1 ∧ R (exec o s).2 (exec o s').2)
    (hl : SameReplies R l l') (hs : R s s') :
    Option.Rel (fun x y => x.1 = y.1 ∧ R x.2 y.2) (p.replay exec l s) (p.replay exec l' s') := by
  induction p generalizing l l' s s' with
  | ret a | raise e => exact .some ⟨rfl, hs⟩
  | op o k ih =>
    obtain ⟨hans, hstate⟩ := hop o s s' hp.1 hs
    unfold replay
    rw [← hans]
    exact ih _ (hp.2 _) hl hstate
  | await q k ih =>
    cases hl with
    | nil => exact .none
    | cons hxy hl =>
      obtain ⟨hreply, hothers⟩ := hxy
      unfold replay
      rw [← hreply]
      exact ih _ (hp.2 _) hl (hothers s s' hs)

end Teamspace.Lib.Program
