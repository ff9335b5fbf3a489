import Mathlib.Order.Defs.PartialOrder
import Teamspace.Lib.Trace

/-!
# What a history says about a part of the state

A part of the shared state that changes only at certain entries is as the last such entry left it
(`Consistent.last_write`), and a clock that no operation sets back has passed every instant of the
history (`Consistent.clock_le`). The end of a task is justified by the whole of its trace
(`Preempted.finished`). So a value that a task reads from a cache is traced back to the entry that
stored it, to the instant of that entry and to what its task did before.
-/

namespace Teamspace.Lib

namespace System

variable {S : System} {β : Type}

/-- A part of the state is what the last entry that writes it left, or is still as at the start. -/
theorem Consistent.last_write {f : S.State → β} {W : Entry S.I S.State S.Job S.Out → Prop}
    (hW : ∀ x, ¬ W x → f (Event.after (S := S) x.event x.state) = f x.state)
    (hpass : ∀ σ σ', S.passes σ σ' → f σ' = f σ) {σ : S.State} {w : S.World}
    (h : Consistent σ w) : (f w.state = f σ ∧ ∀ x ∈ w.log, ¬ W x) ∨
      ∃ l₁ x l₂, w.log = l₁ ++ x :: l₂ ∧ W x ∧
        f w.state = f (Event.after (S := S) x.event x.state) ∧ ∀ y ∈ l₁, ¬ W y := by
  induction h with
  | start => exact .inl ⟨rfl, nofun⟩
  | @record w i e _ _ ih =>
    by_cases hx : W ⟨i, w.state, e⟩
    · exact .inr ⟨[], _, _, rfl, hx, rfl, nofun⟩
    · have hsame : f (w.record i e).state = f w.state := hW ⟨i, w.state, e⟩ hx
      rcases ih with ⟨hf, hl⟩ | ⟨l₁, x, l₂, hlog, hWx, hf, hl₁⟩
      · exact .inl ⟨hsame.trans hf, List.forall_mem_cons.2 ⟨hx, hl⟩⟩
      · refine .inr ⟨⟨i, w.state, e⟩ :: l₁, x, l₂, ?_, hWx, hsame.trans hf,
          List.forall_mem_cons.2 ⟨hx, hl₁⟩⟩
        rw [World.record_log, hlog]
        rfl
  | pass _ hp ih => rwa [hpass _ _ hp]

/-- A clock that is not set back has passed every instant of the history. -/
theorem Consistent.clock_le [Preorder β] {f : S.State → β} (hop : ∀ o σ, f σ ≤ f (S.exec o σ).2)
    (hpass : ∀ σ σ', S.passes σ σ' → f σ ≤ f σ') {σ : S.State} {w : S.World}
    (h : Consistent σ w) : ∀ x ∈ w.log, f x.state ≤ f w.state := by
  induction h with
  | start => nofun
  | @record w i e _ _ ih =>
    have hle : f w.state ≤ f (w.record i e).state := by
      cases e with
      | op o a => exact hop o w.state
      | spawn | send | recv | finish => exact le_refl _
    exact List.forall_mem_cons.2 ⟨hle, fun x hx => le_trans (ih x hx) hle⟩
  | pass _ hp ih => exact fun x hx => le_trans (ih x hx) (hpass _ _ hp)

/-- An event of a trace, found in the history. -/
theorem mem_trace_split {i : Nat} {l : S.History} {e : Event S.I S.Job S.Out}
    (h : e ∈ trace i l) : ∃ l₁ s l₂, l = l₁ ++ ⟨i, s, e⟩ :: l₂ := by
  obtain ⟨s, hs⟩ := mem_trace.1 h
  obtain ⟨l₁, l₂, rfl⟩ := List.append_of_mem hs
  exact ⟨l₁, s, l₂, rfl⟩

/-- Every event of a trace but the start is justified by the events before it. -/
theorem Preempted.justified_trace {J : Event S.I S.Job S.Out → List (Event S.I S.Job S.Out) → Prop}
    (hJ : ∀ j, Local J (fun x h => J (.finish x) h) (S.program j) [.spawn j]) {σ : S.State}
    {c : S.Config} (hc : Preempted σ c) {i : Nat} {t₁ t₂ : List (Event S.I S.Job S.Out)}
    {e : Event S.I S.Job S.Out} (ht : trace i c.world.log = t₁ ++ e :: t₂) :
    (∃ j, e = .spawn j ∧ t₂ = []) ∨ J e t₂ := by
  rcases hc.follows i with ⟨hf, -⟩ | ⟨j, h, htr, hl⟩
  · rw [trace_of_fresh hf] at ht
    simp at ht
  · rw [ht] at htr
    rcases List.eq_nil_or_concat t₂ with rfl | ⟨t, x, rfl⟩
    · obtain ⟨-, he⟩ := List.append_inj' htr rfl
      exact .inl ⟨j, (List.cons.inj he).1, rfl⟩
    · rw [List.concat_eq_append, ← List.cons_append, ← List.append_assoc] at htr
      obtain ⟨rfl, hx⟩ := List.append_inj' htr rfl
      cases hx
      rw [List.concat_eq_append]
      exact .inr ((hl.local (hJ j)).1 t₁ e t rfl)

/-- The end of a task is its newest event, and is justified by all that the task did. -/
theorem Preempted.finished {J : Event S.I S.Job S.Out → List (Event S.I S.Job S.Out) → Prop}
    (hJ : ∀ j, Local J (fun x h => J (.finish x) h) (S.program j) [.spawn j]) {σ : S.State}
    {c : S.Config} (hc : Preempted σ c) {i : Nat} {x : Except S.I.Exn S.Out}
    (h : .finish x ∈ trace i c.world.log) :
    ∃ t, trace i c.world.log = .finish x :: t ∧ J (.finish x) t := by
  obtain ⟨l₁, s, l₂, hl⟩ := mem_trace_split h
  have ht : trace i c.world.log = .finish x :: trace i l₂ := by
    have hlast : trace i l₁ = [] := trace_of_fresh (hc.finish_last hl)
    rw [hl, trace_append, trace_cons_self, hlast]
    rfl
  have ht' : trace i c.world.log = [] ++ .finish x :: trace i l₂ := ht
  exact ⟨_, ht, (hc.justified_trace hJ ht').resolve_left (by rintro ⟨j, ⟨⟩, -⟩)⟩

/-- The task that an entry ends, and the result that it returns. -/
def returned (x : Entry S.I S.State S.Job S.Out) : Option (Nat × S.Out) :=
  match x.event with
  | .finish (.ok a) => some (x.task, a)
  | _ => none

/-- A task that is listed as returned has ended with its result. -/
theorem finish_of_returned {l : S.History} {i : Nat} {a : S.Out}
    (h : l.head?.bind returned = some (i, a)) : .finish (.ok a) ∈ trace i l := by
  cases l with
  | nil => cases h
  | cons x l =>
    obtain ⟨k, s, e⟩ := x
    have h : returned ⟨k, s, e⟩ = some (i, a) := h
    unfold returned at h
    split at h
    · next b he =>
      cases he
      cases h
      exact mem_trace.2 ⟨s, .head _⟩
    · cases h

end System

end Teamspace.Lib
