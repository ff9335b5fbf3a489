import Mathlib.Logic.Relation

/-!
# Programs of cooperative tasks

A program is a finite-depth tree of *operations* on a state that it shares with other tasks and of
*requests* to the outside world, each followed by a continuation on the answer. A request is the
only point at which a task gives up control, as `await` is in a cooperative event loop. The
interface leaves the operations uninterpreted: `Teamspace.Lib.Schedule` interleaves the programs
of a system over a shared state.

`Program.Only` is the footprint of a program: every operation and every request that it can ever
make, whatever it is answered, satisfies a given predicate.
-/

namespace Teamspace.Lib

/-- The operations, requests and exceptions that a family of programs is written over. -/
structure Interface where
  Op : Type
  Ans : Op → Type
  Req : Type
  Rep : Type
  Exn : Type

/-- A program over `I` with results in `α`. -/
inductive Program (I : Interface) (α : Type) : Type
  /-- Return a result. -/
  | ret (a : α)
  /-- Raise an exception. -/
  | raise (e : I.Exn)
  /-- Perform an operation on the shared state, without giving up control. -/
  | op (o : I.Op) (k : I.Ans o → Program I α)
  /-- Send a request and give up control until the reply is there. -/
  | await (q : I.Req) (k : I.Rep → Program I α)

namespace Program

variable {I : Interface} {α β γ : Type}

/-- Run `p`, then `f` on its result; an exception of `p` skips `f`. -/
protected def bind : Program I α → (α → Program I β) → Program I β
  | .ret a, f => f a
  | .raise e, _ => .raise e
  | .op o k, f => .op o fun a => (k a).bind f
  | .await q k, f => .await q fun r => (k r).bind f

/-- Run `p`; an exception of `p` runs the handler instead of escaping. -/
protected def tryCatch : Program I α → (I.Exn → Program I α) → Program I α
  | .ret a, _ => .ret a
  | .raise e, h => h e
  | .op o k, h => .op o fun a => (k a).tryCatch h
  | .await q k, h => .await q fun r => (k r).tryCatch h

/-- Run `p`, then `f` however `p` ends. -/
protected def finallyDo (p : Program I α) (f : Program I Unit) : Program I α :=
  (p.tryCatch fun e => f.bind fun _ => .raise e).bind fun a => f.bind fun _ => .ret a

instance : Monad (Program I) where
  pure := .ret
  bind := Program.bind

/-- A single operation. -/
def perform (o : I.Op) : Program I (I.Ans o) := .op o .ret

/-- A single request. -/
def request (q : I.Req) : Program I I.Rep := .await q .ret

/-- A computation that touches nothing but may fail. -/
def ofExcept : Except I.Exn α → Program I α
  | .ok a => .ret a
  | .error e => .raise e

@[simp] theorem pure_eq (a : α) : (pure a : Program I α) = .ret a := rfl
@[simp] theorem ret_bind (a : α) (f : α → Program I β) : (Program.ret a >>= f) = f a := rfl
@[simp] theorem raise_bind (e : I.Exn) (f : α → Program I β) :
    (Program.raise e >>= f) = .raise e := rfl
@[simp] theorem op_bind (o : I.Op) (k : I.Ans o → Program I α) (f : α → Program I β) :
    (Program.op o k >>= f) = .op o fun a => k a >>= f := rfl
@[simp] theorem await_bind (q : I.Req) (k : I.Rep → Program I α) (f : α → Program I β) :
    (Program.await q k >>= f) = .await q fun r => k r >>= f := rfl
@[simp] theorem perform_bind (o : I.Op) (f : I.Ans o → Program I β) :
    (perform o >>= f) = .op o f := rfl
@[simp] theorem request_bind (q : I.Req) (f : I.Rep → Program I β) :
    (request q >>= f) = .await q f := rfl
@[simp] theorem ofExcept_ok (a : α) : (ofExcept (.ok a) : Program I α) = .ret a := rfl
@[simp] theorem ofExcept_error (e : I.Exn) : (ofExcept (.error e) : Program I α) = .raise e := rfl

/-- Sequencing is associative. -/
theorem bind_assoc' (p : Program I α) (f : α → Program I β) (g : β → Program I γ) :
    ((p >>= f) >>= g) = (p >>= fun a => f a >>= g) := by
  induction p with
  | ret a => rfl
  | raise e => rfl
  | op o k ih => simp only [op_bind, ih]
  | await q k ih => simp only [await_bind, ih]

/-- Returning the result changes nothing. -/
theorem bind_ret (p : Program I α) : (p >>= Program.ret) = p := by
  induction p with
  | ret a => rfl
  | raise e => rfl
  | op o k ih => simp only [op_bind, ih]
  | await q k ih => simp only [await_bind, ih]

instance : LawfulMonad (Program I) :=
  LawfulMonad.mk' _ bind_ret (fun _ _ => rfl) bind_assoc'

/-! ## Results -/

/-- The program can end with `a`, for some answers and replies. -/
inductive CanReturn : Program I α → α → Prop
  | ret (a : α) : CanReturn (.ret a) a
  | op {o : I.Op} {k : I.Ans o → Program I α} (x : I.Ans o) {a : α} :
      CanReturn (k x) a → CanReturn (.op o k) a
  | await {q : I.Req} {k : I.Rep → Program I α} (r : I.Rep) {a : α} :
      CanReturn (k r) a → CanReturn (.await q k) a

/-- Two programs after each other can return what the second can, after a result of the first. -/
theorem canReturn_bind {p : Program I α} {f : α → Program I β} {b : β} :
    (p >>= f).CanReturn b ↔ ∃ a, p.CanReturn a ∧ (f a).CanReturn b := by
  constructor
  · intro h
    induction p with
    | ret a => exact ⟨a, .ret a, h⟩
    | raise e => cases h
    | op o k ih =>
      cases h with
      | op x h =>
        obtain ⟨a, ha, hb⟩ := ih x h
        exact ⟨a, .op x ha, hb⟩
    | await q k ih =>
      cases h with
      | await r h =>
        obtain ⟨a, ha, hb⟩ := ih r h
        exact ⟨a, .await r ha, hb⟩
  · rintro ⟨a, ha, hb⟩
    induction ha with
    | ret a => exact hb
    | op x _ ih => exact .op x (ih hb)
    | await r _ ih => exact .await r (ih hb)

/-- A value can return itself. -/
theorem canReturn_ofExcept {x : Except I.Exn α} {a : α} :
    (ofExcept x : Program I α).CanReturn a ↔ x = .ok a := by
  cases x with
  | ok b =>
    constructor
    · intro h
      cases h
      rfl
    · intro h
      cases h
      exact .ret _
  | error e => exact ⟨fun h => (nomatch h), fun h => (nomatch h)⟩

/-- What follows a program matters only at the results that it can end with. -/
theorem bind_eq_bind_iff {p : Program I α} {f g : α → Program I β} :
    (p >>= f) = (p >>= g) ↔ ∀ a, p.CanReturn a → f a = g a := by
  constructor
  · intro h a ha
    induction ha with
    | ret a => exact h
    | op x _ ih =>
      injection h with _ hk
      exact ih (congrFun hk x)
    | await r _ ih =>
      injection h with _ hk
      exact ih (congrFun hk r)
  · intro h
    induction p with
    | ret a => exact h a (.ret a)
    | raise e => rfl
    | op o k ih => exact congrArg (Program.op o) (funext fun x => ih x fun a ha => h a (.op x ha))
    | await q k ih => exact congrArg (Program.await q) (funext fun r => ih r fun a ha => h a (.await r ha))

/-- Run a program by itself. `env` gives the reply to a request, and the state in which it
arrives. -/
def run {σ : Type} (exec : (o : I.Op) → σ → I.Ans o × σ) (env : I.Req → σ → I.Rep × σ) :
    Program I α → σ → Except I.Exn α × σ
  | .ret a, s => (.ok a, s)
  | .raise e, s => (.error e, s)
  | .op o k, s => run exec env (k (exec o s).1) (exec o s).2
  | .await q k, s => run exec env (k (env q s).1) (env q s).2

/-- The result of a program that runs by itself is one that it can end with. -/
theorem canReturn_of_run {σ : Type} {exec : (o : I.Op) → σ → I.Ans o × σ}
    {env : I.Req → σ → I.Rep × σ} {p : Program I α} {s : σ} {a : α}
    (h : (p.run exec env s).1.toOption = some a) : p.CanReturn a := by
  induction p generalizing s with
  | ret b =>
    cases h
    exact .ret _
  | raise e => cases h
  | op o k ih => exact .op _ (ih _ h)
  | await q k ih => exact .await _ (ih _ h)

/-! ## Footprints -/

/-- Every operation of `p` satisfies `P` and every request satisfies `Q`, whatever the answers. -/
def Only (P : I.Op → Prop) (Q : I.Req → Prop) : Program I α → Prop
  | .ret _ | .raise _ => True
  | .op o k => P o ∧ ∀ a, Only P Q (k a)
  | .await q k => Q q ∧ ∀ r, Only P Q (k r)

section
variable {P P' : I.Op → Prop} {Q Q' : I.Req → Prop}

@[simp] theorem only_ret (a : α) : Only P Q (.ret a : Program I α) := trivial
@[simp] theorem only_raise (e : I.Exn) : Only P Q (.raise e : Program I α) := trivial
@[simp] theorem only_op (o : I.Op) (k : I.Ans o → Program I α) :
    Only P Q (.op o k) ↔ P o ∧ ∀ a, Only P Q (k a) := Iff.rfl
@[simp] theorem only_await (q : I.Req) (k : I.Rep → Program I α) :
    Only P Q (.await q k) ↔ Q q ∧ ∀ r, Only P Q (k r) := Iff.rfl
@[simp] theorem only_perform (o : I.Op) : Only P Q (perform o : Program I _) ↔ P o :=
  ⟨fun h => h.1, fun h => ⟨h, fun _ => trivial⟩⟩
@[simp] theorem only_request (q : I.Req) : Only P Q (request q : Program I _) ↔ Q q :=
  ⟨fun h => h.1, fun h => ⟨h, fun _ => trivial⟩⟩
@[simp] theorem only_ofExcept (x : Except I.Exn α) : Only P Q (ofExcept x : Program I α) := by
  cases x <;> trivial

/-- The footprint of a choice lies within the footprints of its branches. -/
theorem only_ite {c : Prop} [Decidable c] {p q : Program I α} (hp : c → Only P Q p)
    (hq : ¬c → Only P Q q) : Only P Q (if c then p else q) := by
  split
  · next h => exact hp h
  · next h => exact hq h

/-- The footprint of a sequence lies within the footprints of its parts. -/
theorem Only.bind {p : Program I α} {f : α → Program I β} (hp : Only P Q p)
    (hf : ∀ a, Only P Q (f a)) : Only P Q (p >>= f) := by
  induction p with
  | ret a => exact hf a
  | raise e => trivial
  | op o k ih => exact ⟨hp.1, fun a => ih a (hp.2 a)⟩
  | await q k ih => exact ⟨hp.1, fun r => ih r (hp.2 r)⟩

/-- The footprint of a guarded program lies within those of the program and of the handler. -/
theorem Only.tryCatch {p : Program I α} {h : I.Exn → Program I α} (hp : Only P Q p)
    (hh : ∀ e, Only P Q (h e)) : Only P Q (p.tryCatch h) := by
  induction p with
  | ret a => trivial
  | raise e => exact hh e
  | op o k ih => exact ⟨hp.1, fun a => ih a (hp.2 a)⟩
  | await q k ih => exact ⟨hp.1, fun r => ih r (hp.2 r)⟩

/-- The footprint of a step that is made on a condition, and of what follows. -/
theorem only_when {c : Prop} [Decidable c] {p : Program I Unit} {k : Unit → Program I α}
    (hp : c → Only P Q p) (hk : Only P Q (k ())) : Only P Q (if c then p >>= k else k ()) :=
  only_ite (fun hc => (hp hc).bind fun _ => hk) fun _ => hk

/-- What lies within two footprints lies within both. -/
theorem Only.and {p : Program I α} (hp : Only P Q p) (hp' : Only P' Q' p) :
    Only (fun o => P o ∧ P' o) (fun q => Q q ∧ Q' q) p := by
  induction p with
  | ret a => trivial
  | raise e => trivial
  | op o k ih => exact ⟨⟨hp.1, hp'.1⟩, fun a => ih a (hp.2 a) (hp'.2 a)⟩
  | await q k ih => exact ⟨⟨hp.1, hp'.1⟩, fun r => ih r (hp.2 r) (hp'.2 r)⟩

/-- A footprint may be widened. -/
theorem Only.mono (hP : ∀ o, P o → P' o) (hQ : ∀ q, Q q → Q' q) {p : Program I α}
    (hp : Only P Q p) : Only P' Q' p := by
  induction p with
  | ret a => trivial
  | raise e => trivial
  | op o k ih => exact ⟨hP o hp.1, fun a => ih a (hp.2 a)⟩
  | await q k ih => exact ⟨hQ q hp.1, fun r => ih r (hp.2 r)⟩

end

/-- Every program that `p` can come to, whatever it is answered, satisfies `P`. -/
def Everywhere (P : Program I α → Prop) : Program I α → Prop
  | .ret a => P (.ret a)
  | .raise e => P (.raise e)
  | .op o k => P (.op o k) ∧ ∀ a, Everywhere P (k a)
  | .await q k => P (.await q k) ∧ ∀ r, Everywhere P (k r)

/-- What holds everywhere holds here. -/
theorem Everywhere.here {P : Program I α → Prop} {p : Program I α} (h : Everywhere P p) : P p := by
  cases p with
  | ret a => exact h
  | raise e => exact h
  | op o k => exact h.1
  | await q k => exact h.1

end Program

end Teamspace.Lib
