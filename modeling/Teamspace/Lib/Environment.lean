import Teamspace.Lib.Program

/-!
# Programs in an environment

A program that runs by itself against an environment: its operations act on the state, and each of
its requests is given some answer that the environment allows, which may change the state as well.
`Runs` says that the program can end in a given way, and `Ends` that it can end in no other way than
a condition allows; the rules for `Ends` follow the structure of programs.
-/

namespace Teamspace.Lib

/-- What operations do, and how requests may be answered. -/
structure Environment (I : Interface) (σ : Type) where
  exec : (o : I.Op) → σ → I.Ans o × σ
  answers : I.Req → σ → I.Rep → σ → Prop

namespace Environment

variable {I : Interface} {σ α β : Type} (E : Environment I σ)

/-- The program can end with this result in this state. -/
def Runs : Program I α → σ → Except I.Exn α → σ → Prop
  | .ret a, s, x, t => x = .ok a ∧ t = s
  | .raise e, s, x, t => x = .error e ∧ t = s
  | .op o k, s, x, t => Runs (k (E.exec o s).1) (E.exec o s).2 x t
  | .await q k, s, x, t => ∃ r u, E.answers q s r u ∧ Runs (k r) u x t

/-- However the program ends, it ends as `Q` says. -/
def Ends : Program I α → σ → (Except I.Exn α → σ → Prop) → Prop
  | .ret a, s, Q => Q (.ok a) s
  | .raise e, s, Q => Q (.error e) s
  | .op o k, s, Q => Ends (k (E.exec o s).1) (E.exec o s).2 Q
  | .await q k, s, Q => ∀ r u, E.answers q s r u → Ends (k r) u Q

/-- The program can come to send this request. -/
def Asks : Program I α → σ → I.Req → Prop
  | .ret _, _, _ => False
  | .raise _, _, _ => False
  | .op o k, s, q => Asks (k (E.exec o s).1) (E.exec o s).2 q
  | .await q' k, s, q => q = q' ∨ ∃ r u, E.answers q' s r u ∧ Asks (k r) u q

/-- The same environment, as long as it answers as `P` says. -/
def restrict (P : I.Req → I.Rep → Prop) : Environment I σ where
  exec := E.exec
  answers q s r t := E.answers q s r t ∧ P q r

/-- The same environment, as long as what it does to the state satisfies `P` as well. -/
def within (P : I.Req → σ → I.Rep → σ → Prop) : Environment I σ where
  exec := E.exec
  answers q s r t := E.answers q s r t ∧ P q s r t

variable {E} {p : Program I α} {s : σ} {Q Q' : Except I.Exn α → σ → Prop}

/-- A program ends so exactly if all its runs do. -/
theorem ends_iff : E.Ends p s Q ↔ ∀ x t, E.Runs p s x t → Q x t := by
  induction p generalizing s with
  | ret a => exact ⟨fun h x t ⟨hx, ht⟩ => by rw [hx, ht]; exact h, fun h => h _ _ ⟨rfl, rfl⟩⟩
  | raise e => exact ⟨fun h x t ⟨hx, ht⟩ => by rw [hx, ht]; exact h, fun h => h _ _ ⟨rfl, rfl⟩⟩
  | op o k ih => exact ih _
  | await q k ih =>
    refine ⟨fun h x t ⟨r, u, ha, hr⟩ => (ih r).1 (h r u ha) x t hr, fun h r u ha => ?_⟩
    exact (ih r).2 fun x t hr => h x t ⟨r, u, ha, hr⟩

/-- What holds of the ends holds of the end of a run. -/
theorem Ends.of_runs (h : E.Ends p s Q) {x : Except I.Exn α} {t : σ} (hr : E.Runs p s x t) :
    Q x t := ends_iff.1 h x t hr

/-- What ends with more ends with less. -/
theorem Ends.mono (h : E.Ends p s Q) (hQ : ∀ x t, Q x t → Q' x t) : E.Ends p s Q' :=
  ends_iff.2 fun x t hr => hQ x t (h.of_runs hr)

/-- A program ends in fewer ways in an environment that does less. -/
theorem Ends.within {P : I.Req → σ → I.Rep → σ → Prop} (h : E.Ends p s Q) :
    (E.within P).Ends p s Q := by
  induction p generalizing s with
  | ret a => exact h
  | raise e => exact h
  | op o k ih => exact ih _ h
  | await q k ih => exact fun r u ha => ih r (h r u ha.1)

/-- What holds of the state after a result, and after an exception. -/
def Either (R : α → σ → Prop) (F : I.Exn → σ → Prop) : Except I.Exn α → σ → Prop
  | .ok a, t => R a t
  | .error e, t => F e t

/-- An operation, and what follows. -/
theorem ends_perform {o : I.Op} {f : I.Ans o → Program I α} :
    E.Ends (Program.perform o >>= f) s Q ↔ E.Ends (f (E.exec o s).1) (E.exec o s).2 Q := Iff.rfl

/-- A program and then another one. -/
theorem Ends.bind {f : α → Program I β} {Q : Except I.Exn β → σ → Prop}
    (h : E.Ends p s (Either (fun a t => E.Ends (f a) t Q) fun e t => Q (.error e) t)) :
    E.Ends (p >>= f) s Q := by
  induction p generalizing s with
  | ret a => exact h
  | raise e => exact h
  | op o k ih => exact ih _ h
  | await q k ih => exact fun r u ha => ih r (h r u ha)

/-- A run of two programs is a run of the first and, if it returns, one of the second. -/
theorem runs_bind {f : α → Program I β} {x : Except I.Exn β} {t : σ} :
    E.Runs (p >>= f) s x t ↔ (∃ a u, E.Runs p s (.ok a) u ∧ E.Runs (f a) u x t) ∨
      ∃ e, x = .error e ∧ E.Runs p s (.error e) t := by
  induction p generalizing s with
  | ret a =>
    refine ⟨fun h => .inl ⟨a, s, ⟨rfl, rfl⟩, h⟩, ?_⟩
    rintro (⟨b, u, ⟨⟨⟩, rfl⟩, h⟩ | ⟨e, rfl, ⟨⟩, -⟩)
    exact h
  | raise e =>
    refine ⟨fun h => .inr ⟨e, h.1, rfl, h.2⟩, ?_⟩
    rintro (⟨b, u, ⟨⟨⟩, -⟩, -⟩ | ⟨e', rfl, ⟨⟩, rfl⟩)
    exact ⟨rfl, rfl⟩
  | op o k ih => exact ih _
  | await q k ih =>
    constructor
    · rintro ⟨r, u, ha, hr⟩
      rcases (ih r).1 hr with ⟨a, v, h, hf⟩ | ⟨e, rfl, h⟩
      · exact .inl ⟨a, v, ⟨r, u, ha, h⟩, hf⟩
      · exact .inr ⟨e, rfl, r, u, ha, h⟩
    · rintro (⟨a, v, ⟨r, u, ha, h⟩, hf⟩ | ⟨e, rfl, r, u, ha, h⟩)
      · exact ⟨r, u, ha, (ih r).2 (.inl ⟨a, v, h, hf⟩)⟩
      · exact ⟨r, u, ha, (ih r).2 (.inr ⟨e, rfl, h⟩)⟩

/-- What two programs come to ask is what the first one does, or the second one if the first
returns. -/
theorem asks_bind {f : α → Program I β} {q : I.Req} :
    E.Asks (p >>= f) s q ↔ E.Asks p s q ∨ ∃ a u, E.Runs p s (.ok a) u ∧ E.Asks (f a) u q := by
  induction p generalizing s with
  | ret a =>
    refine ⟨fun h => .inr ⟨a, s, ⟨rfl, rfl⟩, h⟩, ?_⟩
    rintro (h | ⟨b, u, ⟨⟨⟩, rfl⟩, h⟩)
    · exact h.elim
    · exact h
  | raise e =>
    refine ⟨False.elim, ?_⟩
    rintro (h | ⟨b, u, ⟨⟨⟩, -⟩, -⟩)
    exact h
  | op o k ih => exact ih _
  | await q' k ih =>
    constructor
    · rintro (h | ⟨r, u, ha, h⟩)
      · exact .inl (.inl h)
      · rcases (ih r).1 h with h | ⟨a, v, hr, h⟩
        · exact .inl (.inr ⟨r, u, ha, h⟩)
        · exact .inr ⟨a, v, ⟨r, u, ha, hr⟩, h⟩
    · rintro ((h | ⟨r, u, ha, h⟩) | ⟨a, v, ⟨r, u, ha, hr⟩, h⟩)
      · exact .inl h
      · exact .inr ⟨r, u, ha, (ih r).2 (.inl h)⟩
      · exact .inr ⟨r, u, ha, (ih r).2 (.inr ⟨a, v, hr, h⟩)⟩

/-- A program asks within its footprint. -/
theorem Asks.only {P : I.Op → Prop} {R : I.Req → Prop} (hp : p.Only P R) {q : I.Req}
    (h : E.Asks p s q) : R q := by
  induction p generalizing s with
  | ret a => exact h.elim
  | raise e => exact h.elim
  | op o k ih => exact ih _ (hp.2 _) h
  | await q' k ih =>
    rcases h with rfl | ⟨r, u, -, h⟩
    · exact hp.1
    · exact ih r (hp.2 r) h

/-- A program that keeps `J`, and then another one. -/
theorem Ends.keeping {f : α → Program I β} {Q : Except I.Exn β → σ → Prop} {J : σ → Prop}
    (h : E.Ends p s fun _ t => J t) (hf : ∀ a t, J t → E.Ends (f a) t Q)
    (herror : ∀ e t, J t → Q (.error e) t) : E.Ends (p >>= f) s Q := by
  refine Ends.bind (h.mono fun x t hx => ?_)
  cases x with
  | ok a => exact hf a t hx
  | error e => exact herror e t hx

/-- A step that is made on a condition and keeps `J`, and what follows. -/
theorem Ends.when {c : Prop} [Decidable c] {p : Program I Unit} {k : Unit → Program I α} {J : σ → Prop}
    (hs : J s) (h : c → E.Ends p s fun _ t => J t) (hk : ∀ t, J t → E.Ends (k ()) t Q)
    (herror : ∀ e t, J t → Q (.error e) t) : E.Ends (if c then p >>= k else k ()) s Q := by
  split
  · next hc => exact (h hc).keeping (fun _ => hk) herror
  · exact hk s hs

/-- What holds of the state after a result, if there is one. -/
abbrev Returning (R : α → σ → Prop) : Except I.Exn α → σ → Prop := Either R fun _ _ => True

/-- A program and then another one, as far as they return. -/
theorem Ends.returning {f : α → Program I β} {R : α → σ → Prop} {R' : β → σ → Prop}
    (h : E.Ends p s (Returning R)) (hf : ∀ a t, R a t → E.Ends (f a) t (Returning R')) :
    E.Ends (p >>= f) s (Returning R') := by
  refine Ends.bind (h.mono fun x t hx => ?_)
  cases x with
  | ok a => exact hf a t hx
  | error e => trivial

/-- What holds of the state after a result, and no exception. -/
abbrev Settled (R : α → σ → Prop) : Except I.Exn α → σ → Prop := Either R fun _ _ => False

/-- So does what ends with a result. -/
theorem Ends.imp {R R' : α → σ → Prop} (h : E.Ends p s (Settled R)) (hR : ∀ a t, R a t → R' a t) :
    E.Ends p s (Settled R') := by
  refine h.mono fun x t hx => ?_
  cases x with
  | ok a => exact hR a t hx
  | error e => exact hx

/-- A program that returns, and then another one. -/
theorem Ends.settled {f : α → Program I β} {R : α → σ → Prop} {Q : Except I.Exn β → σ → Prop}
    (h : E.Ends p s (Settled R)) (hf : ∀ a t, R a t → E.Ends (f a) t Q) : E.Ends (p >>= f) s Q := by
  refine Ends.bind (h.mono fun x t hx => ?_)
  cases x with
  | ok a => exact hf a t hx
  | error e => exact hx.elim

/-- A run of a program with a footprint in which all answers satisfy `P` is one within `P`. -/
theorem Runs.within {P : I.Req → σ → I.Rep → σ → Prop} {O : I.Op → Prop} {R : I.Req → Prop}
    (hp : p.Only O R) (hP : ∀ q s r t, R q → E.answers q s r t → P q s r t) {x : Except I.Exn α}
    {t : σ} (h : E.Runs p s x t) : (E.within P).Runs p s x t := by
  induction p generalizing s with
  | ret a => exact h
  | raise e => exact h
  | op o k ih => exact ih _ (hp.2 _) h
  | await q k ih =>
    obtain ⟨r, u, ha, hr⟩ := h
    exact ⟨r, u, ⟨ha, hP q s r u hp.1 ha⟩, ih r (hp.2 r) hr⟩

/-- What the operations and the answers within a footprint keep, every program within it keeps. -/
theorem Ends.only {P : I.Op → Prop} {R : I.Req → Prop} {J : σ → Prop} (hp : p.Only P R) (hs : J s)
    (hop : ∀ o s, P o → J s → J (E.exec o s).2)
    (hreq : ∀ q s r t, R q → J s → E.answers q s r t → J t) : E.Ends p s fun _ t => J t := by
  induction p generalizing s with
  | ret a => exact hs
  | raise e => exact hs
  | op o k ih => exact ih _ (hp.2 _) (hop o s hp.1 hs)
  | await q k ih => exact fun r u ha => ih r (hp.2 r) (hreq q s r u hp.1 hs ha)

/-- What all operations and answers keep, every program keeps. -/
theorem Ends.always {J : σ → Prop} (hs : J s) (hop : ∀ o s, J s → J (E.exec o s).2)
    (hreq : ∀ q s r t, J s → E.answers q s r t → J t) : E.Ends p s fun _ t => J t := by
  induction p generalizing s with
  | ret a => exact hs
  | raise e => exact hs
  | op o k ih => exact ih _ (hop o s hs)
  | await q k ih => exact fun r u ha => ih r (hreq q s r u hs ha)

/-- The run in which `env` answers. -/
theorem runs_run {env : I.Req → σ → I.Rep × σ} (henv : ∀ q s, E.answers q s (env q s).1 (env q s).2)
    (p : Program I α) (s : σ) : E.Runs p s (p.run E.exec env s).1 (p.run E.exec env s).2 := by
  induction p generalizing s with
  | ret a => exact ⟨rfl, rfl⟩
  | raise e => exact ⟨rfl, rfl⟩
  | op o k ih => exact ih _ _
  | await q k ih => exact ⟨_, _, henv q s, ih _ _⟩

end Environment

end Teamspace.Lib
