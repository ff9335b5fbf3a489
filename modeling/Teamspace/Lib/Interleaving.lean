import Mathlib.Logic.Equiv.Defs
import Mathlib.Logic.Function.Basic
import Teamspace.Lib.Environment

/-!
# Interleaved programs

Programs in one environment, each of which can be interrupted at any of its steps. A state of the
environment is what belongs to one program together with what all of them share, and a run writes a
log of what happens, newest event first. A program that obeys a law while others may change what
they share between any two of its steps (`Obeys`) obeys it in every interleaved run
(`Reachable.obedient`).
-/

namespace Teamspace.Lib

open Relation (ReflTransGen)

/-- What a program does at one of its steps. -/
inductive Act (I : Interface)
  | op (o : I.Op) (a : I.Ans o)
  | exchange (q : I.Req) (r : I.Rep)

/-- The operation or the request, without the answer. -/
def Act.call {I : Interface} : Act I → I.Op ⊕ I.Req
  | .op o _ => .inl o
  | .exchange q _ => .inr q

/-- Programs that run interleaved: the environment, how its state is divided, and which program
serves a job, with what it may start with. -/
structure Interleaving (I : Interface) (World Own Shared Job Out : Type) where
  env : Environment I World
  split : World ≃ Own × Shared
  program : Job → Program I Out
  starts : Job → Own → Prop

/-- Run by itself, the program can do exactly these acts, and end so. -/
def Program.Performs {I : Interface} {α : Type} : Program I α → List (Act I) → Except I.Exn α → Prop
  | .ret a, l, x => l = [] ∧ x = .ok a
  | .raise e, l, x => l = [] ∧ x = .error e
  | .op o k, l, x => ∃ a l', l = .op o a :: l' ∧ Performs (k a) l' x
  | .await q k, l, x => ∃ r l', l = .exchange q r :: l' ∧ Performs (k r) l' x

namespace Interleaving

variable {I : Interface} {World Own Shared Job Out α β : Type}

/-! ## Runs -/

/-- What happens in a run. -/
inductive Event (I : Interface) (Own Job Out : Type)
  | starts (i : Nat) (job : Job)
  | act (i : Nat) (job : Job) (x : Act I)
  | ends (i : Nat) (job : Job) (x : Except I.Exn Out) (own : Own)

/-- The task of an event. -/
def Event.task : Event I Own Job Out → Nat
  | .starts i _ | .act i _ _ | .ends i _ _ _ => i

/-- What a task has done. -/
def actsOf (i : Nat) : List (Event I Own Job Out) → List (Act I)
  | [] => []
  | .act j _ x :: l => if j = i then x :: actsOf i l else actsOf i l
  | .starts _ _ :: l | .ends _ _ _ _ :: l => actsOf i l

/-- The task has ended. -/
def Ended (i : Nat) (l : List (Event I Own Job Out)) : Prop := ∃ job x own, .ends i job x own ∈ l

/-- A task that has not ended. -/
structure Task (I : Interface) (Own Job Out : Type) where
  job : Job
  own : Own
  rest : Program I Out

/-- What the programs share, the tasks, and what has happened. -/
structure Config (I : Interface) (Own Shared Job Out : Type) where
  shared : Shared
  task : Nat → Option (Task I Own Job Out)
  log : List (Event I Own Job Out)

variable (M : Interleaving I World Own Shared Job Out)

/-- A state of the environment. -/
def world (own : Own) (shared : Shared) : World := M.split.symm (own, shared)

/-- What belongs to the program. -/
def own (w : World) : Own := (M.split w).1

/-- What all programs share. -/
def shared (w : World) : Shared := (M.split w).2

@[simp] theorem own_world (a : Own) (s : Shared) : M.own (M.world a s) = a := by
  simp [own, world]

@[simp] theorem shared_world (a : Own) (s : Shared) : M.shared (M.world a s) = s := by
  simp [shared, world]

@[simp] theorem world_own_shared (w : World) : M.world (M.own w) (M.shared w) = w :=
  M.split.symm_apply_apply w

/-- One step of one task. -/
inductive Step : Config I Own Shared Job Out → Config I Own Shared Job Out → Prop
  | start {c : Config I Own Shared Job Out} (i : Nat) (job : Job) (a : Own) :
      (∀ e ∈ c.log, e.task ≠ i) → M.starts job a →
      Step c ⟨c.shared, Function.update c.task i (some ⟨job, a, M.program job⟩),
        .starts i job :: c.log⟩
  | op {c : Config I Own Shared Job Out} {i : Nat} {job : Job} {a : Own} {o : I.Op}
      {k : I.Ans o → Program I Out} : c.task i = some ⟨job, a, .op o k⟩ →
      Step c ⟨M.shared (M.env.exec o (M.world a c.shared)).2,
        Function.update c.task i (some ⟨job, M.own (M.env.exec o (M.world a c.shared)).2,
          k (M.env.exec o (M.world a c.shared)).1⟩),
        .act i job (.op o (M.env.exec o (M.world a c.shared)).1) :: c.log⟩
  | exchange {c : Config I Own Shared Job Out} {i : Nat} {job : Job} {a : Own} {q : I.Req}
      {k : I.Rep → Program I Out} {r : I.Rep} {w : World} :
      c.task i = some ⟨job, a, .await q k⟩ → M.env.answers q (M.world a c.shared) r w →
      Step c ⟨M.shared w, Function.update c.task i (some ⟨job, M.own w, k r⟩),
        .act i job (.exchange q r) :: c.log⟩
  | finish {c : Config I Own Shared Job Out} {i : Nat} {job : Job} {a : Own}
      (x : Except I.Exn Out) : c.task i = some ⟨job, a, .ofExcept x⟩ →
      Step c ⟨c.shared, Function.update c.task i none, .ends i job x a :: c.log⟩

/-- Reachable from a shared state. -/
def Reachable (s : Shared) (c : Config I Own Shared Job Out) : Prop :=
  ReflTransGen M.Step ⟨s, fun _ => none, []⟩ c

/-! ## Laws -/

/-- Whatever others do to what is shared, the program does and sends only what `J` allows it after
the acts `h`, and it ends as `Q` says. -/
def Obeys (J : List (Act I) → I.Op ⊕ I.Req → Prop) :
    Program I α → Own → List (Act I) → (Except I.Exn α → Own → List (Act I) → Prop) → Prop
  | .ret a, own, h, Q => Q (.ok a) own h
  | .raise e, own, h, Q => Q (.error e) own h
  | .op o k, own, h, Q => J h (.inl o) ∧ ∀ s, Obeys J (k (M.env.exec o (M.world own s)).1)
      (M.own (M.env.exec o (M.world own s)).2) (.op o (M.env.exec o (M.world own s)).1 :: h) Q
  | .await q k, own, h, Q => J h (.inr q) ∧ ∀ s r w, M.env.answers q (M.world own s) r w →
      Obeys J (k r) (M.own w) (.exchange q r :: h) Q

section

variable {M} {J : List (Act I) → I.Op ⊕ I.Req → Prop} {p : Program I α} {a : Own}
  {h : List (Act I)} {Q Q' : Except I.Exn α → Own → List (Act I) → Prop}

/-- What ends with more ends with less. -/
theorem Obeys.mono (hp : M.Obeys J p a h Q) (hQ : ∀ x a h, Q x a h → Q' x a h) :
    M.Obeys J p a h Q' := by
  induction p generalizing a h with
  | ret v => exact hQ _ _ _ hp
  | raise e => exact hQ _ _ _ hp
  | op o k ih => exact ⟨hp.1, fun s => ih _ (hp.2 s)⟩
  | await q k ih => exact ⟨hp.1, fun s r w hr => ih r (hp.2 s r w hr)⟩

/-- What holds after a result, and after an exception. -/
def Either (R : α → Own → List (Act I) → Prop) (F : I.Exn → Own → List (Act I) → Prop) :
    Except I.Exn α → Own → List (Act I) → Prop
  | .ok v, a, h => R v a h
  | .error e, a, h => F e a h

/-- A program and then another one. -/
theorem Obeys.bind {f : α → Program I β} {Q : Except I.Exn β → Own → List (Act I) → Prop}
    (hp : M.Obeys J p a h (Either (fun v a h => M.Obeys J (f v) a h Q) fun e a h => Q (.error e) a h)) :
    M.Obeys J (p >>= f) a h Q := by
  induction p generalizing a h with
  | ret v => exact hp
  | raise e => exact hp
  | op o k ih => exact ⟨hp.1, fun s => ih _ (hp.2 s)⟩
  | await q k ih => exact ⟨hp.1, fun s r w hr => ih r (hp.2 s r w hr)⟩

/-- A program that keeps `K`, and then another one. -/
theorem Obeys.keeping {f : α → Program I β} {Q : Except I.Exn β → Own → List (Act I) → Prop}
    {K : Own → List (Act I) → Prop} (hp : M.Obeys J p a h fun _ => K)
    (hf : ∀ v a h, K a h → M.Obeys J (f v) a h Q) (herror : ∀ e a h, K a h → Q (.error e) a h) :
    M.Obeys J (p >>= f) a h Q := by
  refine Obeys.bind (hp.mono fun x a h hx => ?_)
  cases x with
  | ok v => exact hf v a h hx
  | error e => exact herror e a h hx

/-- A guarded program. -/
theorem Obeys.tryCatch {f : I.Exn → Program I α}
    (hp : M.Obeys J p a h (Either (fun v => Q (.ok v)) fun e a h => M.Obeys J (f e) a h Q)) :
    M.Obeys J (p.tryCatch f) a h Q := by
  induction p generalizing a h with
  | ret v => exact hp
  | raise e => exact hp
  | op o k ih => exact ⟨hp.1, fun s => ih _ (hp.2 s)⟩
  | await q k ih => exact ⟨hp.1, fun s r w hr => ih r (hp.2 s r w hr)⟩

/-- A program, and then another one however it ends. -/
theorem Obeys.finallyDo {f : Program I Unit}
    (hp : M.Obeys J p a h fun x a h =>
      M.Obeys J f a h (Either (fun _ => Q x) fun e => Q (.error e))) :
    M.Obeys J (p.finallyDo f) a h Q := by
  refine Obeys.bind (Obeys.tryCatch (hp.mono fun x a h hx => ?_))
  cases x with
  | ok v => exact Obeys.bind hx
  | error e => exact Obeys.bind hx

/-- A program with a footprint within the law, and what it has done in the end. -/
theorem Obeys.performs {O : I.Op → Prop} {R : I.Req → Prop} {K : Own → Prop} (hp : p.Only O R)
    (ha : K a) (hJop : ∀ h o, O o → J h (.inl o)) (hJreq : ∀ h q, R q → J h (.inr q))
    (hop : ∀ o a s, O o → K a → K (M.own (M.env.exec o (M.world a s)).2))
    (hreq : ∀ q a s r w, R q → K a → M.env.answers q (M.world a s) r w → K (M.own w)) :
    M.Obeys J p a h fun x a h' => K a ∧ ∃ l, h' = l ++ h ∧ p.Performs l.reverse x := by
  induction p generalizing a h with
  | ret v => exact ⟨ha, [], rfl, rfl, rfl⟩
  | raise e => exact ⟨ha, [], rfl, rfl, rfl⟩
  | op o k ih =>
    refine ⟨hJop h o hp.1, fun s => (ih _ (hp.2 _) (hop o a s hp.1 ha)).mono ?_⟩
    rintro x a' h' ⟨ha', l, rfl, hl⟩
    refine ⟨ha', _, List.append_cons l _ h, ?_⟩
    rw [List.reverse_append]
    exact ⟨_, _, rfl, hl⟩
  | await q k ih =>
    refine ⟨hJreq h q hp.1, fun s r w hr => (ih r (hp.2 r) (hreq q a s r w hp.1 ha hr)).mono ?_⟩
    rintro x a' h' ⟨ha', l, rfl, hl⟩
    refine ⟨ha', _, List.append_cons l _ h, ?_⟩
    rw [List.reverse_append]
    exact ⟨_, _, rfl, hl⟩

/-- A program with a footprint within the law keeps what the footprint keeps. -/
theorem Obeys.only {O : I.Op → Prop} {R : I.Req → Prop} {K : Own → List (Act I) → Prop}
    (hp : p.Only O R) (ha : K a h) (hJop : ∀ a h o, O o → K a h → J h (.inl o))
    (hJreq : ∀ a h q, R q → K a h → J h (.inr q))
    (hop : ∀ o a h s, O o → K a h → K (M.own (M.env.exec o (M.world a s)).2)
      (.op o (M.env.exec o (M.world a s)).1 :: h))
    (hreq : ∀ q a h s r w, R q → K a h → M.env.answers q (M.world a s) r w →
      K (M.own w) (.exchange q r :: h)) :
    M.Obeys J p a h fun _ => K := by
  induction p generalizing a h with
  | ret v => exact ha
  | raise e => exact ha
  | op o k ih =>
    exact ⟨hJop a h o hp.1 ha, fun s => ih _ (hp.2 _) (hop o a h s hp.1 ha)⟩
  | await q k ih =>
    exact ⟨hJreq a h q hp.1 ha, fun s r w hr => ih r (hp.2 r) (hreq q a h s r w hp.1 ha hr)⟩

end

variable {M} {J : Job → List (Act I) → I.Op ⊕ I.Req → Prop}
  {Q : Job → Except I.Exn Out → Own → List (Act I) → Prop}

/-- The acts of a task are those of its events. -/
theorem mem_actsOf {i : Nat} {x : Act I} {l : List (Event I Own Job Out)} :
    x ∈ actsOf i l ↔ ∃ job, .act i job x ∈ l := by
  induction l with
  | nil => simp [actsOf]
  | cons e l ih =>
    cases e with
    | starts => simp [actsOf, ih]
    | ends => simp [actsOf, ih]
    | act j job y =>
      rw [actsOf]
      split
      · next hj =>
        subst hj
        simp only [List.mem_cons, ih, Event.act.injEq, true_and]
        constructor
        · rintro (rfl | ⟨job', h⟩)
          · exact ⟨job, .inl ⟨rfl, rfl⟩⟩
          · exact ⟨job', .inr h⟩
        · rintro ⟨job', ⟨-, hx⟩ | h⟩
          · exact .inl hx
          · exact .inr ⟨job', h⟩
      · next hj => simp [ih, Ne.symm hj]

/-- The event follows the laws of its job. -/
def Event.Lawful (J : Job → List (Act I) → I.Op ⊕ I.Req → Prop)
    (Q : Job → Except I.Exn Out → Own → List (Act I) → Prop) (earlier : List (Event I Own Job Out)) :
    Event I Own Job Out → Prop
  | .starts _ _ => True
  | .act i job x => J job (actsOf i earlier) x.call ∧ ¬Ended i earlier
  | .ends i job x own => Q job x own (actsOf i earlier)

/-- The tasks follow the laws of their jobs, so far and from now on. -/
structure Obedient (M : Interleaving I World Own Shared Job Out)
    (J : Job → List (Act I) → I.Op ⊕ I.Req → Prop)
    (Q : Job → Except I.Exn Out → Own → List (Act I) → Prop) (c : Config I Own Shared Job Out) :
    Prop where
  live : ∀ i t, c.task i = some t →
    M.Obeys (J t.job) t.rest t.own (actsOf i c.log) (Q t.job) ∧ ¬Ended i c.log
  past : ∀ e earlier, e :: earlier <:+ c.log → e.Lawful J Q earlier

/-- A task that has not begun has done nothing. -/
theorem actsOf_fresh {i : Nat} {l : List (Event I Own Job Out)} (h : ∀ e ∈ l, e.task ≠ i) :
    actsOf i l = [] := by
  induction l with
  | nil => rfl
  | cons e l ih =>
    have hl := ih fun e he => h e (List.mem_cons_of_mem _ he)
    cases e with
    | starts => exact hl
    | ends => exact hl
    | act j job x =>
      have hj : j ≠ i := h _ List.mem_cons_self
      rw [actsOf, if_neg hj, hl]

/-- What task `i` does does not concern another task. -/
theorem actsOf_other {i j : Nat} {e : Event I Own Job Out} (he : e.task = i) (hj : j ≠ i)
    (l : List (Event I Own Job Out)) : actsOf j (e :: l) = actsOf j l := by
  cases e with
  | starts => rfl
  | ends => rfl
  | act i' job x =>
    have hi : i' ≠ j := fun h => hj (h.symm.trans he)
    rw [actsOf, if_neg hi]

/-- The event of a task ends no other one. -/
theorem ended_other {i j : Nat} {e : Event I Own Job Out} (he : e.task = i) (hj : j ≠ i)
    {l : List (Event I Own Job Out)} (h : Ended j (e :: l)) : Ended j l := by
  obtain ⟨job, x, own, hmem⟩ := h
  rcases List.mem_cons.1 hmem with heq | hmem
  · exact absurd (he.symm.trans (congrArg Event.task heq.symm)) hj.symm
  · exact ⟨job, x, own, hmem⟩

/-- A task that acts, the others being where they were. -/
theorem Obedient.act {c : Config I Own Shared Job Out} {i : Nat} {s : Shared}
    {t : Option (Task I Own Job Out)} {e : Event I Own Job Out} (hc : M.Obedient J Q c)
    (he : e.task = i) (hlawful : e.Lawful J Q c.log)
    (ht : ∀ u, t = some u →
      M.Obeys (J u.job) u.rest u.own (actsOf i (e :: c.log)) (Q u.job) ∧ ¬Ended i (e :: c.log)) :
    M.Obedient J Q ⟨s, Function.update c.task i t, e :: c.log⟩ where
  live j u hj := by
    rcases eq_or_ne j i with rfl | hij
    · exact ht u (by simpa using hj)
    · obtain ⟨hobeys, hended⟩ := hc.live j u (by simpa [hij] using hj)
      refine ⟨?_, fun h => hended (ended_other he hij h)⟩
      rw [show actsOf j (e :: c.log) = _ from actsOf_other he hij c.log]
      exact hobeys
  past e' earlier h := by
    rcases List.suffix_cons_iff.1 h with heq | h
    · cases heq
      exact hlawful
    · exact hc.past e' earlier h

/-- A task that performs an operation or has an exchange. -/
theorem Obedient.acts {c : Config I Own Shared Job Out} {i : Nat} {s : Shared} {job : Job} {a : Own}
    {p : Program I Out} {x : Act I} (hc : M.Obedient J Q c) (hx : J job (actsOf i c.log) x.call)
    (hended : ¬Ended i c.log) (hp : M.Obeys (J job) p a (x :: actsOf i c.log) (Q job)) :
    M.Obedient J Q ⟨s, Function.update c.task i (some ⟨job, a, p⟩), .act i job x :: c.log⟩ := by
  refine hc.act rfl ⟨hx, hended⟩ fun u hu => ?_
  cases hu
  refine ⟨?_, fun ⟨job', x', own, hmem⟩ => ?_⟩
  · rw [actsOf, if_pos rfl]
    exact hp
  · cases hmem with
    | tail _ hmem => exact hended ⟨job', x', own, hmem⟩

/-- A step of a run in which all tasks obey keeps them obedient. -/
theorem Obedient.step {c c' : Config I Own Shared Job Out}
    (hstart : ∀ job a, M.starts job a → M.Obeys (J job) (M.program job) a [] (Q job))
    (hc : M.Obedient J Q c) (h : M.Step c c') : M.Obedient J Q c' := by
  cases h with
  | start i job a hfresh hjob =>
    refine hc.act rfl trivial fun u hu => ?_
    cases hu
    refine ⟨?_, fun ⟨job', x, own, hmem⟩ => ?_⟩
    · rw [actsOf, actsOf_fresh hfresh]
      exact hstart job a hjob
    · cases hmem with
      | tail _ hmem => exact hfresh _ hmem rfl
  | @op i job a o k hi =>
    obtain ⟨hobeys, hended⟩ := hc.live i _ hi
    exact hc.acts hobeys.1 hended (hobeys.2 _)
  | @exchange i job a q k r w hi hr =>
    obtain ⟨hobeys, hended⟩ := hc.live i _ hi
    exact hc.acts hobeys.1 hended (hobeys.2 _ r w hr)
  | @finish i job a x hi =>
    obtain ⟨hobeys, -⟩ := hc.live i _ hi
    refine hc.act rfl ?_ nofun
    cases x with
    | ok v => exact hobeys
    | error e => exact hobeys

/-- What every program obeys by itself, the tasks obey in every interleaved run. -/
theorem Reachable.obedient {s : Shared} {c : Config I Own Shared Job Out}
    (hstart : ∀ job a, M.starts job a → M.Obeys (J job) (M.program job) a [] (Q job))
    (h : M.Reachable s c) : M.Obedient J Q c := by
  induction h with
  | refl => exact ⟨nofun, fun e earlier h => absurd (List.suffix_nil.1 h) (List.cons_ne_nil _ _)⟩
  | tail _ hstep ih => exact ih.step hstart hstep

/-- A task that has ended has done what it had done then. -/
theorem Obedient.actsOf_ended {c : Config I Own Shared Job Out} (hc : M.Obedient J Q c) {i : Nat}
    {job : Job} {x : Except I.Exn Out} {own : Own} {earlier : List (Event I Own Job Out)} :
    ∀ {later : List (Event I Own Job Out)}, later ++ .ends i job x own :: earlier <:+ c.log →
      actsOf i (later ++ .ends i job x own :: earlier) = actsOf i earlier
  | [], _ => rfl
  | e :: later, h => by
    have ih := hc.actsOf_ended ((List.suffix_cons e _).trans h)
    cases e with
    | starts => exact ih
    | ends => exact ih
    | act j job' y =>
      have hj : j ≠ i := by
        rintro rfl
        exact (hc.past _ _ h).2 ⟨job, x, own, List.mem_append_right _ List.mem_cons_self⟩
      rw [List.cons_append, actsOf, if_neg hj]
      exact ih

/-- A task that has ended has ended as its law says, after what it has done. -/
theorem Obedient.ended {c : Config I Own Shared Job Out} (hc : M.Obedient J Q c) {i : Nat}
    {job : Job} {x : Except I.Exn Out} {own : Own} (h : .ends i job x own ∈ c.log) :
    Q job x own (actsOf i c.log) := by
  obtain ⟨later, earlier, hlog⟩ := List.append_of_mem h
  have hsuffix : later ++ .ends i job x own :: earlier <:+ c.log := hlog ▸ List.suffix_rfl
  rw [hlog, hc.actsOf_ended hsuffix]
  exact hc.past _ earlier ⟨later, hlog.symm⟩

/-! ## A task that is not interrupted -/

/-- The request of an exchange may be answered so. -/
def Answered (E : Environment I World) : Act I → Prop
  | .op _ _ => True
  | .exchange q r => ∃ s t, E.answers q s r t

/-- The task can end in this way, having done nothing but acts of its own, with answers of `E`. -/
def Serves (M : Interleaving I World Own Shared Job Out) (E : Environment I World) (i : Nat)
    (job : Job) (x : Except I.Exn Out) (w : World) (c : Config I Own Shared Job Out) : Prop :=
  ∃ l, ReflTransGen M.Step c ⟨M.shared w, Function.update c.task i none,
      .ends i job x (M.own w) :: (l ++ c.log)⟩ ∧
    ∀ e ∈ l, ∃ y : Act I, e = .act i job y ∧ Answered E y

variable {E : Environment I World}

/-- A step of the task may come before the others. -/
theorem Serves.step {c : Config I Own Shared Job Out} {i : Nat} {job : Job} {x : Except I.Exn Out}
    {w : World} {s : Shared} {t : Option (Task I Own Job Out)} {y : Act I}
    (hstep : M.Step c ⟨s, Function.update c.task i t, .act i job y :: c.log⟩) (hy : Answered E y)
    (h : M.Serves E i job x w ⟨s, Function.update c.task i t, .act i job y :: c.log⟩) :
    M.Serves E i job x w c := by
  obtain ⟨l, hl, hmem⟩ := h
  refine ⟨l ++ [.act i job y], .head hstep ?_, fun e he => ?_⟩
  · simpa using hl
  · rcases List.mem_append.1 he with he | he
    · exact hmem e he
    · exact ⟨y, List.mem_singleton.1 he, hy⟩

/-- A run of the rest of a task, in an environment that does no more, as steps of the task. -/
theorem serves_of_runs {i : Nat} {job : Job} {p : Program I Out} {a : Own} {x : Except I.Exn Out}
    {w : World} (c : Config I Own Shared Job Out) (hi : c.task i = some ⟨job, a, p⟩)
    (hexec : E.exec = M.env.exec) (hE : ∀ q s r t, E.answers q s r t → M.env.answers q s r t)
    (hr : E.Runs p (M.world a c.shared) x w) : M.Serves E i job x w c := by
  induction p generalizing a c with
  | ret v =>
    obtain ⟨rfl, rfl⟩ := hr
    refine ⟨[], ?_, nofun⟩
    simpa using ReflTransGen.single (Step.finish (M := M) (.ok v) hi)
  | raise e =>
    obtain ⟨rfl, rfl⟩ := hr
    refine ⟨[], ?_, nofun⟩
    simpa using ReflTransGen.single (Step.finish (M := M) (.error e) hi)
  | op o k ih =>
    refine .step (.op hi) trivial (ih _ _ (Function.update_self ..) ?_)
    rw [world_own_shared, ← hexec]
    exact hr
  | await q k ih =>
    obtain ⟨r, u, ha, hr⟩ := hr
    refine .step (.exchange hi (hE _ _ _ _ ha)) ⟨_, u, ha⟩ (ih r _ (Function.update_self ..) ?_)
    rw [world_own_shared]
    exact hr

/-- A task that is served without an interruption, in an environment that does no more. -/
theorem serves (E : Environment I World) {i : Nat} {job : Job} {a : Own} {x : Except I.Exn Out}
    {w : World} (c : Config I Own Shared Job Out) (hfresh : ∀ e ∈ c.log, e.task ≠ i) (hjob : M.starts job a)
    (hexec : E.exec = M.env.exec) (hE : ∀ q s r t, E.answers q s r t → M.env.answers q s r t)
    (hr : E.Runs (M.program job) (M.world a c.shared) x w) :
    ∃ l, ReflTransGen M.Step c ⟨M.shared w, Function.update c.task i none,
        .ends i job x (M.own w) :: (l ++ .starts i job :: c.log)⟩ ∧
      ∀ e ∈ l, ∃ y : Act I, e = .act i job y ∧ Answered E y := by
  obtain ⟨l, hl, hmem⟩ := serves_of_runs ⟨c.shared, Function.update c.task i (some _),
    .starts i job :: c.log⟩ (Function.update_self ..) hexec hE hr
  refine ⟨l, .head (.start i job a hfresh hjob) ?_, hmem⟩
  simpa using hl

end Interleaving

end Teamspace.Lib
