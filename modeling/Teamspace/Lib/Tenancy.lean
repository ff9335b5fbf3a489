import Mathlib.Data.List.Basic

/-!
# Services with tenants

A service answers requests one after another, each from a state that holds something of every owner
(`view o`). It is *partitioned* when what a request of an owner is answered, and what it leaves of
the owner, are functions of what it finds of the owner, and every other request leaves that as it
was. A partitioned service is then as good as one service for each owner
(`Partitioned.own_history`).
-/

namespace Teamspace.Lib

/-- A service: what a request is answered and leaves, what the state holds of an owner, and whose
the request is, if anyone's. -/
structure Tenancy (ω Q R σ V : Type) where
  step : Q → σ → R × σ
  view : ω → σ → V
  owner : Q → Option ω

namespace Tenancy

variable {ω Q R σ V : Type} (S : Tenancy ω Q R σ V)

/-- The requests, each with its answer. -/
def answers : List Q → σ → List (Q × R)
  | [], _ => []
  | q :: qs, s => (q, (S.step q s).1) :: answers qs (S.step q s).2

/-- The state after the requests. -/
def after : List Q → σ → σ
  | [], s => s
  | q :: qs, s => after qs (S.step q s).2

/-- As long as `P` holds of the requests that are left and the state, the owners do not meet. -/
structure Partitioned (P : List Q → σ → Prop) : Prop where
  agree : ∀ {q qs qs' s s' o}, P (q :: qs) s → P (q :: qs') s' → S.owner q = some o →
    S.view o s = S.view o s' → (S.step q s).1 = (S.step q s').1 ∧
      S.view o (S.step q s).2 = S.view o (S.step q s').2
  frame : ∀ {q qs s o}, P (q :: qs) s → S.owner q ≠ some o →
    S.view o (S.step q s).2 = S.view o s
  next : ∀ {q qs s}, P (q :: qs) s → P qs (S.step q s).2

variable [DecidableEq ω]

/-- The request is one of `o`. -/
def isOf (o : ω) (q : Q) : Bool := decide (S.owner q = some o)

variable {S} {P : List Q → σ → Prop}

/-- What an owner is answered in a history, and what the history leaves of the owner, is what the
requests of the owner alone would be answered and would leave. -/
theorem Partitioned.own_history (h : S.Partitioned P) {o : ω} {qs : List Q} {s s' : σ}
    (hs : P qs s) (hs' : P (qs.filter (S.isOf o)) s') (hv : S.view o s = S.view o s') :
    (S.answers qs s).filter (fun x => S.isOf o x.1) = S.answers (qs.filter (S.isOf o)) s' ∧
      S.view o (S.after qs s) = S.view o (S.after (qs.filter (S.isOf o)) s') := by
  induction qs generalizing s s' with
  | nil => exact ⟨rfl, hv⟩
  | cons q qs ih =>
    by_cases hq : S.owner q = some o
    · have hof : S.isOf o q = true := decide_eq_true hq
      rw [List.filter_cons_of_pos hof] at hs' ⊢
      obtain ⟨hanswer, hview⟩ := h.agree hs hs' hq hv
      obtain ⟨hanswers, hafter⟩ := ih (h.next hs) (h.next hs') hview
      refine ⟨?_, hafter⟩
      simp only [answers, List.filter_cons, hof, if_true]
      rw [hanswers, hanswer]
    · have hof : ¬ S.isOf o q = true := by simpa [isOf] using hq
      rw [List.filter_cons_of_neg hof] at hs' ⊢
      obtain ⟨hanswers, hafter⟩ := ih (h.next hs) hs' ((h.frame hs hq).trans hv)
      refine ⟨?_, hafter⟩
      simp only [answers, List.filter_cons, hof]
      exact hanswers

/-- Requests with their answers, each as `Serve` allows it from what those before it have left. -/
inductive Run {A : Type} (Serve : Q → A → R → A → Prop) : List (Q × R) → A → A → Prop
  | nil (a : A) : Run Serve [] a a
  | cons {q : Q} {r : R} {l : List (Q × R)} {a a' a'' : A} :
    Serve q a r a' → Run Serve l a' a'' → Run Serve ((q, r) :: l) a a''

/-- If each request of an owner is served as an abstract store of the owner allows it, so is, in any
history, every sequence of requests of the owner. -/
theorem Partitioned.own_run (h : S.Partitioned P) {A : Type} {Serve : Q → A → R → A → Prop}
    {shows : V → A} {I : σ → Prop} {o : ω}
    (hinv : ∀ q qs s, P (q :: qs) s → I s → I (S.step q s).2)
    (hserve : ∀ q qs s, P (q :: qs) s → I s → S.owner q = some o →
      Serve q (shows (S.view o s)) (S.step q s).1 (shows (S.view o (S.step q s).2)))
    {qs : List Q} {s : σ} (hs : P qs s) (hI : I s) :
    Run Serve ((S.answers qs s).filter fun x => S.isOf o x.1) (shows (S.view o s))
      (shows (S.view o (S.after qs s))) := by
  induction qs generalizing s with
  | nil => exact .nil _
  | cons q qs ih =>
    have htail := ih (h.next hs) (hinv q qs s hs hI)
    by_cases hq : S.owner q = some o
    · have hof : S.isOf o q = true := decide_eq_true hq
      simp only [answers, List.filter_cons, hof, if_true]
      exact .cons (hserve q qs s hs hI hq) htail
    · have hof : ¬ S.isOf o q = true := by simpa [isOf] using hq
      simp only [answers, List.filter_cons, hof]
      rw [← h.frame hs hq]
      exact htail

end Tenancy

end Teamspace.Lib
