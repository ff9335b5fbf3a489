import Mathlib.Logic.Function.Basic
import Mathlib.Logic.Relation
import Teamspace.Lib.Program

/-!
# Threads with a lock

Threads that share a state and one lock, preempted between any two operations. The lock is not
reentrant: a thread that asks for it waits while any thread holds it, itself included. The threads
run programs of `Teamspace.Lib.Program`, whose requests are the two of the lock.

A `Discipline` names what the lock protects (`guarded`), what only grows (`keeps`) and what always
holds (`inv`). `Discipline.Ok` is then a condition on a program by itself: it asks for the lock only
without it, ends without it, and changes what is guarded only with it. `Kept.run` carries it over
every interleaving, and `Kept.can_end` shows that no thread is ever kept from its end. Both hold of
the runs in which every call begins under a condition (`allows`), which may be trivial. The runs in
which no call begins (`Onward`) are those under an impossible one.
-/

namespace Teamspace.Lib

/-- A request to the lock. -/
inductive LockReq
  | acquire
  | release
  deriving DecidableEq

/-- The interface of threads with these operations on the shared state, and a lock. -/
abbrev lockInterface (Op : Type) (Ans : Op → Type) (Exn : Type) : Interface where
  Op := Op
  Ans := Ans
  Req := LockReq
  Rep := Unit
  Exn := Exn

/-- `with lock: body`. -/
def withLock {Op : Type} {Ans : Op → Type} {Exn α : Type}
    (body : Program (lockInterface Op Ans Exn) α) : Program (lockInterface Op Ans Exn) α := do
  let _ ← .request .acquire
  let a ← body.tryCatch fun e => do
    let _ ← .request .release
    .raise e
  let _ ← .request .release
  return a

/-- A shared state, and the programs of the calls on it. An operation may have several outcomes. -/
structure LockSystem where
  Op : Type
  Ans : Op → Type
  Exn : Type
  State : Type
  Call : Type
  Out : Type
  exec : (o : Op) → State → Ans o → State → Prop
  total : ∀ o s, ∃ a s', exec o s a s'
  program : Call → Program (lockInterface Op Ans Exn) Out

namespace LockSystem

variable (S : LockSystem)

/-- The program of a thread. -/
abbrev Prog := Program (lockInterface S.Op S.Ans S.Exn) S.Out

/-- The shared state, who holds the lock, and what is left of the program of each thread. -/
structure Config where
  state : S.State
  holder : Option Nat
  thread : Nat → Option S.Prog

variable {S}

/-- Thread `i` has `p` left. -/
def Config.put (c : S.Config) (i : Nat) (p : S.Prog) : S.Config :=
  { c with thread := Function.update c.thread i (some p) }

/-- No thread has started. -/
def Config.start (s : S.State) : S.Config := ⟨s, none, fun _ => none⟩

/-- One step of one thread. A call begins only where `allows` holds of it and of the state. -/
inductive Step (allows : S.Call → S.State → Prop) : S.Config → S.Config → Prop
  | call {c : S.Config} {i : Nat} (j : S.Call) : c.thread i = none → allows j c.state →
      Step allows c (c.put i (S.program j))
  | op {c : S.Config} {i : Nat} {o : S.Op} {k : S.Ans o → S.Prog} {a : S.Ans o} {s : S.State} :
      c.thread i = some (.op o k) → S.exec o c.state a s →
      Step allows c ({ c with state := s }.put i (k a))
  | acquire {c : S.Config} {i : Nat} {k : Unit → S.Prog} :
      c.thread i = some (.await .acquire k) → c.holder = none →
      Step allows c ({ c with holder := some i }.put i (k ()))
  | release {c : S.Config} {i : Nat} {k : Unit → S.Prog} :
      c.thread i = some (.await .release k) →
      Step allows c ({ c with holder := none }.put i (k ()))

/-- The steps of a run. -/
def Run (allows : S.Call → S.State → Prop) : S.Config → S.Config → Prop :=
  Relation.ReflTransGen (Step allows)

/-- The steps of a run in which no call begins. -/
abbrev Onward : S.Config → S.Config → Prop := Run fun _ _ => False

/-- The thread asks for the lock. -/
def Asks (c : S.Config) (i : Nat) : Prop := ∃ k, c.thread i = some (.await .acquire k)

/-- The thread has returned. -/
def Returned (c : S.Config) (i : Nat) (a : S.Out) : Prop := c.thread i = some (.ret a)

/-- The thread has raised. -/
def Raised (c : S.Config) (i : Nat) (e : S.Exn) : Prop := c.thread i = some (.raise e)

/-- The thread has returned or raised. -/
def Ended (c : S.Config) (i : Nat) : Prop := (∃ a, Returned c i a) ∨ ∃ e, Raised c i e

@[simp] theorem Config.put_state (c : S.Config) (i : Nat) (p : S.Prog) :
    (c.put i p).state = c.state := rfl
@[simp] theorem Config.put_holder (c : S.Config) (i : Nat) (p : S.Prog) :
    (c.put i p).holder = c.holder := rfl
@[simp] theorem Config.put_self (c : S.Config) (i : Nat) (p : S.Prog) :
    (c.put i p).thread i = some p := Function.update_self ..
/-- Another thread has left what it had. -/
theorem Config.put_of_ne (c : S.Config) {i j : Nat} (h : j ≠ i) (p : S.Prog) :
    (c.put i p).thread j = c.thread j := Function.update_of_ne h ..

/-- A thread that has started stays the same for the others. -/
theorem Config.put_eq_none {c : S.Config} {i : Nat} (h : c.thread i ≠ none) (p : S.Prog) (j : Nat) :
    (c.put i p).thread j = none ↔ c.thread j = none := by
  by_cases hj : j = i
  · subst hj
    rw [Config.put_self]
    exact ⟨nofun, fun hn => absurd hn h⟩
  · rw [Config.put_of_ne _ hj]

/-- Steps under a condition are steps under a weaker one. -/
theorem Step.mono {allows allows' : S.Call → S.State → Prop} {c c' : S.Config}
    (hallows : ∀ j, allows j c.state → allows' j c.state) (h : Step allows c c') :
    Step allows' c c' := by
  cases h with
  | call j hi hj => exact .call j hi (hallows j hj)
  | op hi hexec => exact .op hi hexec
  | acquire hi hfree => exact .acquire hi hfree
  | release hi => exact .release hi

/-- A run in which no call begins is a run under any condition. -/
theorem Onward.run {allows : S.Call → S.State → Prop} {c c' : S.Config} (h : Onward c c') :
    Run allows c c' := by
  induction h with
  | refl => exact .refl
  | tail _ hstep ih => exact ih.tail (hstep.mono fun _ => False.elim)

/-- What holds of every program that a call can come to holds of what every thread has left. -/
theorem Run.everywhere {allows : S.Call → S.State → Prop} {P : S.Prog → Prop}
    (hprogram : ∀ j, (S.program j).Everywhere P) {c c' : S.Config}
    (hc : ∀ i p, c.thread i = some p → p.Everywhere P) (h : Run allows c c') :
    ∀ i p, c'.thread i = some p → p.Everywhere P := by
  have put {c : S.Config} {j : Nat} {q : S.Prog} (hq : q.Everywhere P)
      (hc : ∀ i p, c.thread i = some p → p.Everywhere P) :
      ∀ i p, (c.put j q).thread i = some p → p.Everywhere P := by
    intro i p hp
    by_cases hi : i = j
    · subst hi
      rw [Config.put_self] at hp
      cases hp
      exact hq
    · rw [Config.put_of_ne _ hi] at hp
      exact hc i p hp
  induction h with
  | refl => exact hc
  | tail _ hstep ih =>
    cases hstep with
    | call j _ _ => exact put (hprogram j) ih
    | op hi _ => exact put ((ih _ _ hi).2 _) ih
    | acquire hi _ => exact put ((ih _ _ hi).2 ()) ih
    | release hi => exact put ((ih _ _ hi).2 ()) ih

/-! ## One thread by itself -/

section

variable {allows : S.Call → S.State → Prop} (c : S.Config) {i : Nat} {s : S.State}
  {holder : Option Nat}

/-- The threads of `c`, but for thread `i`, which has `p` left, with this state and this holder. -/
def Config.solo (i : Nat) (s : S.State) (holder : Option Nat) (p : S.Prog) : S.Config :=
  Config.put ⟨s, holder, c.thread⟩ i p

/-- A thread that goes on leaves the others as they were. -/
theorem Config.solo_put (p p' : S.Prog) (s' : S.State) (holder' : Option Nat) :
    Config.put { c.solo i s holder p with state := s', holder := holder' } i p' =
      c.solo i s' holder' p' := congrArg (Config.mk s' holder') (Function.update_idem ..)

/-- A thread that has none begins a call. -/
theorem Step.solo_call (j : S.Call) (hi : c.thread i = none) (hj : allows j c.state) :
    Step allows c (c.solo i c.state c.holder (S.program j)) := .call j hi hj

/-- It carries out an operation. -/
theorem Step.solo_op {o : S.Op} {k : S.Ans o → S.Prog} {a : S.Ans o} {s' : S.State}
    (h : S.exec o s a s') :
    Step allows (c.solo i s holder (.op o k)) (c.solo i s' holder (k a)) := by
  rw [← c.solo_put (.op o k) (k a) s' holder]
  exact .op (Config.put_self ..) h

/-- It takes the free lock. -/
theorem Step.solo_acquire {k : Unit → S.Prog} :
    Step allows (c.solo i s none (.await .acquire k)) (c.solo i s (some i) (k ())) := by
  rw [← c.solo_put (.await .acquire k) (k ()) s (some i)]
  exact .acquire (Config.put_self ..) rfl

/-- It releases the lock. -/
theorem Step.solo_release {k : Unit → S.Prog} :
    Step allows (c.solo i s holder (.await .release k)) (c.solo i s none (k ())) := by
  rw [← c.solo_put (.await .release k) (k ()) s none]
  exact .release (Config.put_self ..)

end

/-! ## Disciplines -/

/-- What threads may rely on. -/
structure Discipline (S : LockSystem) where
  /-- What always holds. -/
  inv : S.State → Prop
  /-- How the state may change while a thread does not look. -/
  keeps : S.State → S.State → Prop
  Guarded : Type
  /-- What changes only with the lock. -/
  guarded : S.State → Guarded
  /-- What holds of a result from then on. -/
  post : S.Out → S.State → Prop
  /-- What may be raised. -/
  raises : S.Exn → Prop
  keeps_refl : ∀ s, keeps s s
  keeps_trans : ∀ {s t u}, keeps s t → keeps t u → keeps s u

namespace Discipline

variable (Δ : Discipline S)

/-- How the state may change before a thread acts, which has the lock or not. -/
structure Rely (held : Bool) (s t : S.State) : Prop where
  keeps : Δ.keeps s t
  guarded : held = true → Δ.guarded t = Δ.guarded s
  inv : Δ.inv t

/-- The program keeps to the discipline, from the state in which its thread last acted, as far as it
takes the lock where `cond` holds of what it does with it, and of the state. `held` says whether the
thread has the lock. -/
def Ok (cond : S.Prog → S.State → Prop) : Bool → S.Prog → S.State → Prop
  | held, .ret a, s => held = false ∧ ∀ t, Δ.Rely held s t → Δ.post a t
  | held, .raise e, _ => held = false ∧ Δ.raises e
  | held, .op o k, s => ∀ t, Δ.Rely held s t → ∀ a u, S.exec o t a u → Δ.inv u ∧ Δ.keeps t u ∧
      (held = false → Δ.guarded u = Δ.guarded t) ∧ Ok cond held (k a) u
  | held, .await .acquire k, s => held = false ∧ ∀ t, Δ.Rely held s t → cond (k ()) t →
      Ok cond true (k ()) t
  | held, .await .release k, s => held = true ∧ ∀ t, Δ.Rely held s t → Ok cond false (k ()) t

variable {Δ} {cond : S.Prog → S.State → Prop}

/-- The state may stay as it is. -/
theorem Rely.refl {held : Bool} {s : S.State} (h : Δ.inv s) : Δ.Rely held s s :=
  ⟨Δ.keeps_refl s, fun _ => rfl, h⟩

/-- It may change twice. -/
theorem Rely.trans {held : Bool} {s t u : S.State} (h : Δ.Rely held s t) (h' : Δ.Rely held t u) :
    Δ.Rely held s u :=
  ⟨Δ.keeps_trans h.keeps h'.keeps, fun hh => (h'.guarded hh).trans (h.guarded hh), h'.inv⟩

/-- What other threads do leaves a program within the discipline. -/
theorem Ok.stable {held : Bool} {p : S.Prog} {s t : S.State} (h : Δ.Ok cond held p s)
    (hst : Δ.Rely held s t) : Δ.Ok cond held p t := by
  cases p with
  | ret a => exact ⟨h.1, fun u hu => h.2 u (hst.trans hu)⟩
  | raise e => exact h
  | op o k => exact fun u hu => h u (hst.trans hu)
  | await q k =>
    cases q with
    | acquire => exact ⟨h.1, fun u hu => h.2 u (hst.trans hu)⟩
    | release => exact ⟨h.1, fun u hu => h.2 u (hst.trans hu)⟩

/-- A program that keeps to the discipline where it takes the lock under a condition keeps to it
under a stronger one. -/
theorem Ok.imp {cond' : S.Prog → S.State → Prop} (hcond : ∀ p s, cond' p s → cond p s)
    {p : S.Prog} : ∀ {held : Bool} {s : S.State}, Δ.Ok cond held p s → Δ.Ok cond' held p s := by
  induction p with
  | ret a => exact id
  | raise e => exact id
  | op o k ih =>
    intro held s h t ht a u hexec
    obtain ⟨hinv, hkeeps, hguarded, hok⟩ := h t ht a u hexec
    exact ⟨hinv, hkeeps, hguarded, ih a hok⟩
  | await q k ih =>
    intro held s h
    cases q with
    | acquire => exact ⟨h.1, fun t ht hc => ih () (h.2 t ht (hcond _ _ hc))⟩
    | release => exact ⟨h.1, fun t ht => ih () (h.2 t ht)⟩

variable (Δ)

/-- The program keeps to the discipline, wherever it takes the lock. -/
abbrev Always (held : Bool) (p : S.Prog) (s : S.State) : Prop := Δ.Ok (fun _ _ => True) held p s

/-- Every thread keeps to the discipline, and only a thread that has started holds the lock. -/
structure Kept (c : S.Config) : Prop where
  inv : Δ.inv c.state
  ok : ∀ i p, c.thread i = some p → Δ.Always (decide (c.holder = some i)) p c.state
  started : ∀ i, c.holder = some i → c.thread i ≠ none

variable {Δ} {allows : S.Call → S.State → Prop} {c c' : S.Config}

/-- The call keeps to the discipline, where it may begin. -/
abbrev Admits (Δ : Discipline S) (allows : S.Call → S.State → Prop) : Prop :=
  ∀ s, Δ.inv s → ∀ j, allows j s → Δ.Always false (S.program j) s

/-- At the start all threads keep to the discipline. -/
theorem Kept.start {s : S.State} (hs : Δ.inv s) : Δ.Kept (Config.start s) where
  inv := hs
  ok i p h := by cases h
  started i h := by cases h

/-- A thread acts: its program goes on within the discipline, and the others may rely on what it
did. -/
theorem Kept.put {i : Nat} {p p' : S.Prog} {s : S.State} {holder : Option Nat} (h : Δ.Kept c)
    (hp : c.thread i = some p) (hs : Δ.inv s)
    (hok : Δ.Always (decide (holder = some i)) p' s)
    (hothers : ∀ j ≠ i, (holder = some j ↔ c.holder = some j) ∧
      Δ.Rely (decide (c.holder = some j)) c.state s) :
    Δ.Kept (Config.put ⟨s, holder, c.thread⟩ i p') where
  inv := hs
  ok j q hq := by
    by_cases hj : j = i
    · subst hj
      rw [Config.put_self] at hq
      cases hq
      exact hok
    · rw [Config.put_of_ne _ hj] at hq
      obtain ⟨hholder, hrely⟩ := hothers j hj
      have hflag : decide (holder = some j) = decide (c.holder = some j) := decide_eq_decide.2 hholder
      rw [Config.put_holder, hflag]
      exact (h.ok j q hq).stable hrely
  started j hj := by
    by_cases hji : j = i
    · subst hji
      rw [Config.put_self]
      exact Option.some_ne_none _
    · rw [Config.put_of_ne _ hji]
      exact h.started j ((hothers j hji).1.1 hj)

/-- A step keeps the discipline, if the programs of all calls are within it. -/
theorem Kept.step (hprogram : Δ.Admits allows)
    (h : Δ.Kept c) (hstep : Step allows c c') : Δ.Kept c' := by
  cases hstep with
  | @call i j hi hj =>
    have hholder : c.holder ≠ some i := fun hc => h.started i hc hi
    refine ⟨h.inv, fun k q hq => ?_, fun k hk => ?_⟩
    · by_cases hki : k = i
      · subst hki
        rw [Config.put_self] at hq
        cases hq
        rw [Config.put_holder, decide_eq_false hholder]
        exact hprogram c.state h.inv j hj
      · rw [Config.put_of_ne _ hki] at hq
        exact h.ok k q hq
    · have hki : k ≠ i := fun heq => hholder (heq ▸ hk)
      rw [Config.put_of_ne _ hki]
      exact h.started k hk
  | @op i o k a s hi hexec =>
    obtain ⟨hinv, hkeeps, hguarded, hok⟩ := h.ok i _ hi c.state (.refl h.inv) a s hexec
    refine h.put hi hinv hok fun j hj => ⟨Iff.rfl, hkeeps, fun hheld => hguarded ?_, hinv⟩
    refine decide_eq_false fun hc => hj ?_
    exact Option.some.inj ((of_decide_eq_true hheld).symm.trans hc)
  | @acquire i k hi hfree =>
    obtain ⟨-, hok⟩ := h.ok i _ hi
    refine h.put hi h.inv ?_ fun j hj => ⟨?_, .refl h.inv⟩
    · rw [decide_eq_true rfl]
      exact hok c.state (.refl h.inv) trivial
    · rw [hfree]
      exact ⟨fun hij => absurd (Option.some.inj hij).symm hj, nofun⟩
  | @release i k hi =>
    obtain ⟨hheld, hok⟩ := h.ok i _ hi
    refine h.put hi h.inv ?_ fun j hj => ⟨?_, .refl h.inv⟩
    · exact hok c.state (.refl h.inv)
    · rw [of_decide_eq_true hheld]
      exact ⟨nofun, fun hij => absurd (Option.some.inj hij).symm hj⟩

/-- A run keeps the discipline. -/
theorem Kept.run (hprogram : Δ.Admits allows)
    (h : Δ.Kept c) (hrun : Run allows c c') : Δ.Kept c' := by
  induction hrun with
  | refl => exact h
  | tail _ hstep ih => exact ih.step hprogram hstep

/-- No thread asks for the lock while it holds it. -/
theorem Kept.not_self_wait (h : Δ.Kept c) {i : Nat} (hasks : Asks c i) : c.holder ≠ some i := by
  obtain ⟨k, hk⟩ := hasks
  exact of_decide_eq_false (h.ok i _ hk).1

/-- A result is what the discipline says of it. -/
theorem Kept.post (h : Δ.Kept c) {i : Nat} {a : S.Out} (ha : Returned c i a) :
    Δ.post a c.state := (h.ok i _ ha).2 c.state (.refl h.inv)

/-- A thread raises only what the discipline lets it. -/
theorem Kept.raises (h : Δ.Kept c) {i : Nat} {e : S.Exn} (he : Raised c i e) : Δ.raises e :=
  (h.ok i _ he).2

/-- A step changes the state as others may rely on. -/
theorem Kept.step_keeps (h : Δ.Kept c) (hstep : Step allows c c') : Δ.keeps c.state c'.state := by
  cases hstep with
  | call j _ _ => exact Δ.keeps_refl _
  | @op i o k a s hi hexec => exact (h.ok i _ hi c.state (.refl h.inv) a s hexec).2.1
  | acquire hi hfree => exact Δ.keeps_refl _
  | release hi => exact Δ.keeps_refl _

/-- Where every call may begin, every run is one in which it may. -/
theorem Kept.run_of_ready (hprogram : Δ.Admits allows) (h : Δ.Kept c)
    (hready : ∀ t, Δ.keeps c.state t → ∀ j, allows j t)
    (hrun : Run (fun _ _ => True) c c') : Run allows c c' ∧ Δ.keeps c.state c'.state := by
  induction hrun with
  | refl => exact ⟨.refl, Δ.keeps_refl _⟩
  | tail _ hstep ih =>
    obtain ⟨hb, hkeeps⟩ := ih
    have hstep' := hstep.mono fun j _ => hready _ hkeeps j
    exact ⟨hb.tail hstep', Δ.keeps_trans hkeeps ((h.run hprogram hb).step_keeps hstep')⟩

/-! ## Ends -/

/-- No call begins. -/
theorem admits_none : Δ.Admits fun _ _ => False := fun _ _ _ => False.elim

/-- A thread that holds the lock can go on until it releases it. -/
theorem Kept.can_release {i : Nat} : ∀ (p : S.Prog) {c : S.Config}, Δ.Kept c → c.holder = some i →
    c.thread i = some p → ∃ c', Onward c c' ∧ c'.holder = none ∧
      ∀ j, c'.thread j = none ↔ c.thread j = none := by
  intro p
  induction p with
  | ret a =>
    intro c h hi hp
    have hheld := (h.ok i _ hp).1
    rw [hi, decide_eq_true rfl] at hheld
    cases hheld
  | raise e =>
    intro c h hi hp
    have hheld := (h.ok i _ hp).1
    rw [hi, decide_eq_true rfl] at hheld
    cases hheld
  | op o k ih =>
    intro c h hi hp
    obtain ⟨a, s, hexec⟩ := S.total o c.state
    have hstep : Step (fun _ _ => False) c ({ c with state := s }.put i (k a)) := .op hp hexec
    obtain ⟨c', hrun, hfree, hsame⟩ := ih a (h.step admits_none hstep) hi (Config.put_self ..)
    refine ⟨c', .head hstep hrun, hfree, fun j => (hsame j).trans ?_⟩
    exact Config.put_eq_none (by rw [hp]; nofun) _ j
  | await q k ih =>
    intro c h hi hp
    cases q with
    | acquire => exact absurd hi (h.not_self_wait ⟨k, hp⟩)
    | release =>
      exact ⟨_, .single (.release hp), rfl, fun j => Config.put_eq_none (by rw [hp]; nofun) _ j⟩

/-- A thread that no other keeps from the lock can go on to its end. -/
theorem Kept.can_finish {i : Nat} : ∀ (p : S.Prog) {c : S.Config}, Δ.Kept c →
    (∀ j, c.holder = some j → j = i) → c.thread i = some p →
    ∃ c', Onward c c' ∧ Ended c' i := by
  intro p
  induction p with
  | ret a => exact fun _ _ hp => ⟨_, .refl, .inl ⟨a, hp⟩⟩
  | raise e => exact fun _ _ hp => ⟨_, .refl, .inr ⟨e, hp⟩⟩
  | op o k ih =>
    intro c h hi hp
    obtain ⟨a, s, hexec⟩ := S.total o c.state
    have hstep : Step (fun _ _ => False) c ({ c with state := s }.put i (k a)) := .op hp hexec
    obtain ⟨c', hrun, hend⟩ := ih a (h.step admits_none hstep) hi (Config.put_self ..)
    exact ⟨c', .head hstep hrun, hend⟩
  | await q k ih =>
    intro c h hi hp
    cases q with
    | acquire =>
      have hfree : c.holder = none := by
        cases hc : c.holder with
        | none => rfl
        | some j =>
          cases hi j hc
          exact absurd hc (h.not_self_wait ⟨k, hp⟩)
      have hstep : Step (fun _ _ => False) c ({ c with holder := some i }.put i (k ())) :=
        .acquire hp hfree
      obtain ⟨c', hrun, hend⟩ := ih () (h.step admits_none hstep)
        (fun j hj => (Option.some.inj hj).symm) (Config.put_self ..)
      exact ⟨c', .head hstep hrun, hend⟩
    | release =>
      have hstep : Step (fun _ _ => False) c ({ c with holder := none }.put i (k ())) := .release hp
      obtain ⟨c', hrun, hend⟩ := ih () (h.step admits_none hstep) nofun (Config.put_self ..)
      exact ⟨c', .head hstep hrun, hend⟩

/-- Every call can end, without another one. -/
theorem Kept.can_end (h : Δ.Kept c) {i : Nat} (hi : c.thread i ≠ none) :
    ∃ c', Onward c c' ∧ Ended c' i := by
  obtain ⟨c₁, hrun₁, hfree₁, hsame⟩ : ∃ c₁, Onward c c₁ ∧ c₁.holder = none ∧
      ∀ j, c₁.thread j = none ↔ c.thread j = none := by
    cases hc : c.holder with
    | none => exact ⟨c, .refl, hc, fun _ => Iff.rfl⟩
    | some j =>
      obtain ⟨p, hp⟩ := Option.ne_none_iff_exists'.1 (h.started j hc)
      exact h.can_release p hc hp
  have hi₁ : c₁.thread i ≠ none := fun hn => hi ((hsame i).1 hn)
  obtain ⟨p, hp⟩ := Option.ne_none_iff_exists'.1 hi₁
  obtain ⟨c₂, hrun₂, hend⟩ := (h.run admits_none hrun₁).can_finish p
    (fun j hj => by rw [hfree₁] at hj; cases hj) hp
  exact ⟨c₂, hrun₁.trans hrun₂, hend⟩

end Discipline

end LockSystem

end Teamspace.Lib
