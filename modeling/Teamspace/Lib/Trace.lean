import Teamspace.Lib.Schedule

/-!
# Traces of single tasks

Under a *preemptive* schedule (`Preempt`) the tasks interleave at every operation, as they do when
several workers share one store. Every cooperative step is a sequence of preemptive ones that
leaves the same history (`Step.preempt`), so what holds of all preemptive runs holds of all
cooperative ones.

Whatever the schedule, the entries of one task follow its program. `Local` is the judgement about
a program alone: every event that it may add to its own trace, for any answers and replies, is
justified by the trace before it. `Preempted.justified` carries it over to the history of a system.
Nothing is known here about the shared state: `Consistent` relates the answers in a history to the
states that the operations produced.
-/

namespace Teamspace.Lib

namespace System

variable {S : System} {α β : Type}

/-! ## Consistent histories -/

/-- The state after an event. -/
def Event.after (e : Event S.I S.Job S.Out) (σ : S.State) : S.State :=
  match e with
  | .op o _ => (S.exec o σ).2
  | _ => σ

/-- The answer of an operation is the one that the state gives. -/
def Event.Holds (e : Event S.I S.Job S.Out) (σ : S.State) : Prop :=
  match e with
  | .op o a => a = (S.exec o σ).1
  | _ => True

/-- Add an event of task `i`. -/
def World.record (w : S.World) (i : Nat) (e : Event S.I S.Job S.Out) : S.World :=
  ⟨Event.after e w.state, ⟨i, w.state, e⟩ :: w.log⟩

@[simp] theorem World.record_log (w : S.World) (i : Nat) (e : Event S.I S.Job S.Out) :
    (w.record i e).log = ⟨i, w.state, e⟩ :: w.log := rfl

/-- A world whose history accounts for its state, from a start in `σ`. -/
inductive Consistent (σ : S.State) : S.World → Prop
  | start : Consistent σ ⟨σ, []⟩
  | record {w : S.World} (i : Nat) (e : Event S.I S.Job S.Out) : Consistent σ w →
      Event.Holds e w.state → Consistent σ (w.record i e)
  | pass {w : S.World} {σ' : S.State} : Consistent σ w → S.passes w.state σ' →
      Consistent σ { w with state := σ' }

/-- An operation keeps a world consistent. -/
theorem Consistent.perform {σ : S.State} {w : S.World} (hw : Consistent σ w) (i : Nat)
    (o : S.I.Op) : Consistent σ (w.perform i o) :=
  .record i (.op o (S.exec o w.state).1) hw rfl

/-- So does an event that is none. -/
theorem Consistent.emit {σ : S.State} {w : S.World} (hw : Consistent σ w) (i : Nat)
    {e : Event S.I S.Job S.Out} (he : ∀ o a, e ≠ .op o a) : Consistent σ (w.emit i e) := by
  cases e with
  | op o a => exact absurd rfl (he o a)
  | spawn j => exact .record i (.spawn j) hw trivial
  | send q => exact .record i (.send q) hw trivial
  | recv q r => exact .record i (.recv q r) hw trivial
  | finish x => exact .record i (.finish x) hw trivial

/-- The world in which an entry was added was consistent, and the entry holds there. -/
theorem Consistent.before {σ : S.State} {w : S.World} (h : Consistent σ w) {l₁ l₂ : S.History}
    {x : Entry S.I S.State S.Job S.Out} (hl : w.log = l₁ ++ x :: l₂) :
    Consistent σ ⟨x.state, l₂⟩ ∧ Event.Holds (S := S) x.event x.state := by
  induction h generalizing l₁ with
  | start => simp at hl
  | @record w i e hw he ih =>
    cases l₁ with
    | nil =>
      obtain ⟨rfl, rfl⟩ := List.cons.inj hl
      exact ⟨hw, he⟩
    | cons y l₁ => exact ih (List.cons.inj hl).2
  | pass _ _ ih => exact ih hl

/-! ## The preemptive schedule -/

/-- A thread acts by itself: one event, and what is left of the thread. -/
inductive Act : S.Thread → Event S.I S.Job S.Out → Option S.Thread → Prop
  | op (o : S.I.Op) (k : S.I.Ans o → Program S.I S.Out) (a : S.I.Ans o) :
      Act (.ready (.op o k)) (.op o a) (some (.ready (k a)))
  | send (q : S.I.Req) (k : S.I.Rep → Program S.I S.Out) :
      Act (.ready (.await q k)) (.send q) (some (.waiting q k))
  | recv (q : S.I.Req) (k : S.I.Rep → Program S.I S.Out) (r : S.I.Rep) :
      Act (.waiting q k) (.recv q r) (some (.ready (k r)))
  | ret (a : S.Out) : Act (.ready (.ret a)) (.finish (.ok a)) none
  | raise (e : S.I.Exn) : Act (.ready (.raise e)) (.finish (.error e)) none

/-- Task `i` adds an event and becomes `th`. -/
def Config.record (c : S.Config) (i : Nat) (e : Event S.I S.Job S.Out) (th : Option S.Thread) :
    S.Config :=
  ⟨c.world.record i e, Function.update c.task i th⟩

@[simp] theorem Config.record_world (c : S.Config) (i : Nat) (e : Event S.I S.Job S.Out)
    (th : Option S.Thread) : (c.record i e th).world = c.world.record i e := rfl

@[simp] theorem Config.record_task_self (c : S.Config) (i : Nat) (e : Event S.I S.Job S.Out)
    (th : Option S.Thread) : (c.record i e th).task i = th := Function.update_self ..

/-- What one task records leaves the other tasks. -/
theorem Config.record_task_of_ne {c : S.Config} {i k : Nat} (h : k ≠ i)
    {e : Event S.I S.Job S.Out} {th : Option S.Thread} : (c.record k e th).task i = c.task i :=
  Function.update_of_ne (Ne.symm h) ..

/-- One step of a preemptive schedule. -/
inductive Preempt : S.Config → S.Config → Prop
  | spawn {c : S.Config} (i : Nat) (j : S.Job) : Fresh i c.world.log →
      Preempt c (c.record i (.spawn j) (some (.ready (S.program j))))
  | act {c : S.Config} {i : Nat} {th : S.Thread} {e : Event S.I S.Job S.Out}
      {th' : Option S.Thread} : c.task i = some th → Act th e th' → Event.Holds e c.world.state →
      Preempt c (c.record i e th')
  | pass {c : S.Config} {σ : S.State} : S.passes c.world.state σ →
      Preempt c { c with world := { c.world with state := σ } }

/-- Reachable from a start in `σ` under a preemptive schedule. -/
def Preempted (σ : S.State) (c : S.Config) : Prop :=
  Relation.ReflTransGen Preempt (Config.start σ) c

/-- Every world that a preemptive run reaches is consistent. -/
theorem Preempted.consistent {σ : S.State} {c : S.Config} (h : Preempted σ c) :
    Consistent σ c.world := by
  induction h with
  | refl => exact .start
  | tail _ hs ih =>
    cases hs with
    | spawn i j _ => exact .record i (.spawn j) ih trivial
    | act _ _ he => exact .record _ _ ih he
    | pass hp => exact .pass ih hp

/-! ## Cooperative runs are preemptive ones -/

/-- A stretch is a sequence of preemptive steps. -/
theorem advance_preempt {i : Nat} : ∀ {p : Program S.I S.Out} {c : S.Config},
    c.task i = some (.ready p) →
    Relation.ReflTransGen Preempt c
      ⟨(advance i p c.world).1, Function.update c.task i (advance i p c.world).2⟩ := by
  intro p
  induction p with
  | ret a => exact fun hc => .single (.act hc (.ret a) trivial)
  | raise e => exact fun hc => .single (.act hc (.raise e) trivial)
  | op o k ih =>
    intro c hc
    have hs : Preempt c (c.record i (.op o (S.exec o c.world.state).1) _) := .act hc (.op o k _) rfl
    have ht := ih (S.exec o c.world.state).1 (Function.update_self i _ c.task)
      (c := c.record i (.op o (S.exec o c.world.state).1) (some (.ready (k _))))
    rw [Config.record, Function.update_idem] at ht
    exact .head hs ht
  | await q k _ => exact fun hc => .single (.act hc (.send q k) trivial)

/-- A cooperative step is a sequence of preemptive ones. -/
theorem Step.preempt {c c' : S.Config} (h : Step c c') : Relation.ReflTransGen Preempt c c' := by
  cases h with
  | spawn i j hi =>
    have ht := advance_preempt (Function.update_self i _ c.task)
      (c := c.record i (.spawn j) (some (.ready (S.program j))))
    rw [Config.record, Function.update_idem] at ht
    exact .head (.spawn i j hi) ht
  | @resume i q k r hk =>
    have hs : Preempt c (c.record i (.recv q r) _) := .act hk (.recv q k r) trivial
    have ht := advance_preempt (Function.update_self i _ c.task)
      (c := c.record i (.recv q r) (some (.ready (k r))))
    rw [Config.record, Function.update_idem] at ht
    exact .head hs ht
  | pass hp => exact .single (.pass hp)

/-- What a cooperative schedule reaches, a preemptive one reaches. -/
theorem Reachable.preempted {σ : S.State} {c : S.Config} (h : Reachable σ c) : Preempted σ c := by
  induction h with
  | refl => exact .refl
  | tail _ hs ih => exact ih.trans hs.preempt

/-! ## Playing a preemptive schedule -/

/-- A preemptive scheduling decision. -/
inductive Pick (S : System) : Type
  | act (i : Nat)
  | reply (i : Nat) (r : S.I.Rep)

/-- Carry out a scheduling decision; one that is not possible changes nothing. -/
def Config.pick (c : S.Config) : S.Pick → S.Config
  | .act i =>
      match c.task i with
      | some (.ready (.op o k)) =>
        c.record i (.op o (S.exec o c.world.state).1) (some (.ready (k (S.exec o c.world.state).1)))
      | some (.ready (.await q k)) => c.record i (.send q) (some (.waiting q k))
      | some (.ready (.ret a)) => c.record i (.finish (.ok a)) none
      | some (.ready (.raise e)) => c.record i (.finish (.error e)) none
      | _ => c
  | .reply i r =>
      match c.task i with
      | some (.waiting q k) => c.record i (.recv q r) (some (.ready (k r)))
      | _ => c

/-- Playing a schedule stays within what a preemptive schedule reaches. -/
theorem Preempted.picks {σ : S.State} {c : S.Config} (h : Preempted σ c) (ps : List S.Pick) :
    Preempted σ (ps.foldl Config.pick c) := by
  induction ps generalizing c with
  | nil => exact h
  | cons p ps ih =>
    refine ih ?_
    cases p with
    | act i =>
      unfold Config.pick
      dsimp only
      split
      · next o k hk => exact h.tail (.act hk (.op o k _) rfl)
      · next q k hk => exact h.tail (.act hk (.send q k) trivial)
      · next a hk => exact h.tail (.act hk (.ret a) trivial)
      · next e hk => exact h.tail (.act hk (.raise e) trivial)
      · exact h
    | reply i r =>
      unfold Config.pick
      dsimp only
      split
      · next q k hk => exact h.tail (.act hk (.recv q k r) trivial)
      · exact h

/-! ## The trace of a task -/

/-- The events of task `i`, newest first. -/
def trace (i : Nat) (l : S.History) : List (Event S.I S.Job S.Out) :=
  (l.filter fun x => x.task = i).map fun x => x.event

@[simp] theorem trace_nil (i : Nat) : trace i ([] : S.History) = [] := rfl

/-- An event of the task is the newest of its trace. -/
theorem trace_cons_self (i : Nat) (σ : S.State) (e : Event S.I S.Job S.Out) (l : S.History) :
    trace i (⟨i, σ, e⟩ :: l) = e :: trace i l := by
  simp [trace]

/-- An event of another task leaves the trace. -/
theorem trace_cons_of_ne {i : Nat} {x : Entry S.I S.State S.Job S.Out} (h : x.task ≠ i)
    (l : S.History) : trace i (x :: l) = trace i l := by
  simp [trace, h]

/-- A task that has not begun has an empty trace. -/
theorem trace_of_fresh {i : Nat} {l : S.History} (h : Fresh i l) : trace i l = [] := by
  rw [trace, List.filter_eq_nil_iff.2 (fun x hx => by simpa using h x hx), List.map_nil]

/-- The trace of a history is made of those of its parts. -/
theorem trace_append (i : Nat) (l₁ l₂ : S.History) :
    trace i (l₁ ++ l₂) = trace i l₁ ++ trace i l₂ := by
  simp [trace]

/-- A trace has the events of its task. -/
theorem mem_trace {i : Nat} {l : S.History} {e : Event S.I S.Job S.Out} :
    e ∈ trace i l ↔ ∃ σ, (⟨i, σ, e⟩ : Entry S.I S.State S.Job S.Out) ∈ l := by
  simp only [trace, List.mem_map, List.mem_filter, decide_eq_true_eq]
  constructor
  · rintro ⟨⟨j, σ, e'⟩, ⟨hx, rfl⟩, rfl⟩; exact ⟨σ, hx⟩
  · rintro ⟨σ, hx⟩; exact ⟨_, ⟨hx, rfl⟩, rfl⟩

/-- The newest event of a trace, found in the history. -/
theorem trace_eq_cons {i : Nat} {l : S.History} {e : Event S.I S.Job S.Out}
    {h : List (Event S.I S.Job S.Out)} (ht : trace i l = e :: h) :
    ∃ m σ l', l = m ++ ⟨i, σ, e⟩ :: l' ∧ trace i l' = h ∧ ∀ x ∈ m, x.task ≠ i := by
  induction l with
  | nil => simp at ht
  | cons x l ih =>
    by_cases hx : x.task = i
    · obtain ⟨j, σ, e'⟩ := x
      cases hx
      rw [trace_cons_self] at ht
      obtain ⟨rfl, rfl⟩ := List.cons.inj ht
      exact ⟨[], σ, l, rfl, rfl, nofun⟩
    · rw [trace_cons_of_ne hx] at ht
      obtain ⟨m, σ, l', rfl, hl', hm⟩ := ih ht
      refine ⟨x :: m, σ, l', rfl, hl', fun y hy => ?_⟩
      rcases List.mem_cons.1 hy with rfl | hy
      · exact hx
      · exact hm y hy

/-- Running `p` may leave the trace `h` and the rest `th`. -/
inductive Leads (p : Program S.I S.Out) :
    List (Event S.I S.Job S.Out) → Option S.Thread → Prop
  | start : Leads p [] (some (.ready p))
  | act {h : List (Event S.I S.Job S.Out)} {th : S.Thread} {e : Event S.I S.Job S.Out}
      {th' : Option S.Thread} : Leads p h (some th) → Act th e th' → Leads p (e :: h) th'

/-- Task `i` follows the program of its job. -/
def Follows (c : S.Config) (i : Nat) : Prop :=
  (Fresh i c.world.log ∧ c.task i = none) ∨
    ∃ j h, trace i c.world.log = h ++ [.spawn j] ∧ Leads (S.program j) h (c.task i)

/-- What another task does changes nothing for task `i`. -/
theorem Follows.record {c : S.Config} {i k : Nat} (hki : k ≠ i) (h : Follows c i)
    (e : Event S.I S.Job S.Out) (th : Option S.Thread) : Follows (c.record k e th) i := by
  rcases h with ⟨hf, ht⟩ | ⟨j, h, ht, hl⟩
  · refine .inl ⟨fun x hx => ?_, by rw [Config.record_task_of_ne hki, ht]⟩
    rcases List.mem_cons.1 hx with rfl | hx
    · exact hki
    · exact hf x hx
  · refine .inr ⟨j, h, ?_, by rwa [Config.record_task_of_ne hki]⟩
    rw [Config.record_world, World.record_log, trace_cons_of_ne hki, ht]

/-- Every task follows the program of its job, under any schedule. -/
theorem Preempted.follows {σ : S.State} {c : S.Config} (hc : Preempted σ c) (i : Nat) :
    Follows c i := by
  induction hc with
  | refl => exact .inl ⟨nofun, rfl⟩
  | tail _ hs ih =>
    cases hs with
    | spawn k j hk =>
      by_cases hki : k = i
      · subst hki
        refine .inr ⟨j, [], ?_, by rw [Config.record_task_self]; exact .start⟩
        rw [Config.record_world, World.record_log, trace_cons_self, trace_of_fresh hk]; rfl
      · exact ih.record hki _ _
    | @act k th e th' hk ha he =>
      by_cases hki : k = i
      · subst hki
        rcases ih with ⟨hf, ht⟩ | ⟨j, h, ht, hl⟩
        · rw [ht] at hk; cases hk
        · rw [hk] at hl
          refine .inr ⟨j, e :: h, ?_, by rw [Config.record_task_self]; exact .act hl ha⟩
          rw [Config.record_world, World.record_log, trace_cons_self, ht]; rfl
      · exact ih.record hki _ _
    | pass _ => exact ih

/-- An entry of a task is its start, or belongs to what its program leaves in the trace. -/
theorem Preempted.leads {σ : S.State} {c : S.Config} (hc : Preempted σ c) {l₁ l₂ : S.History}
    {i : Nat} {s : S.State} {e : Event S.I S.Job S.Out}
    (hl : c.world.log = l₁ ++ ⟨i, s, e⟩ :: l₂) :
    (∃ j, e = .spawn j ∧ trace i l₂ = []) ∨
      ∃ j h, trace i l₂ = h ++ [.spawn j] ∧
        Leads (S.program j) (trace i l₁ ++ e :: h) (c.task i) := by
  have htr : trace i c.world.log = trace i l₁ ++ e :: trace i l₂ := by
    rw [hl, trace_append, trace_cons_self]
  rcases hc.follows i with ⟨hf, -⟩ | ⟨j, h, ht, hlead⟩
  · rw [trace_of_fresh hf] at htr
    simp at htr
  · rw [ht] at htr
    rcases List.eq_nil_or_concat (trace i l₂) with h₂ | ⟨h₂, x, h₂'⟩
    · rw [h₂] at htr
      exact .inl ⟨j, (List.cons.inj (List.append_inj' htr rfl).2).1.symm, h₂⟩
    · rw [List.concat_eq_append] at h₂'
      rw [h₂', ← List.cons_append, ← List.append_assoc] at htr
      obtain ⟨h1, h2⟩ := List.append_inj' htr rfl
      exact .inr ⟨j, h₂, by rw [h₂', ← h2], h1 ▸ hlead⟩

/-! ## Programs that justify what they do -/

/-- Every event that `p` may add to the trace `h`, for any answers and replies, is justified by
the trace before it, and `p` ends with `Q`. -/
def Local (J : Event S.I S.Job S.Out → List (Event S.I S.Job S.Out) → Prop)
    (Q : Except S.I.Exn α → List (Event S.I S.Job S.Out) → Prop) :
    Program S.I α → List (Event S.I S.Job S.Out) → Prop
  | .ret a, h => Q (.ok a) h
  | .raise e, h => Q (.error e) h
  | .op o k, h => ∀ a, J (.op o a) h ∧ Local J Q (k a) (.op o a :: h)
  | .await q k, h => J (.send q) h ∧
      ∀ r, J (.recv q r) (.send q :: h) ∧ Local J Q (k r) (.recv q r :: .send q :: h)

section
variable {J : Event S.I S.Job S.Out → List (Event S.I S.Job S.Out) → Prop}

/-- What ends with more ends with less. -/
theorem Local.mono {Q Q' : Except S.I.Exn α → List (Event S.I S.Job S.Out) → Prop}
    (hQ : ∀ x h, Q x h → Q' x h) :
    ∀ {p : Program S.I α} {h : List (Event S.I S.Job S.Out)}, Local J Q p h → Local J Q' p h := by
  intro p
  induction p with
  | ret a => exact fun hp => hQ _ _ hp
  | raise e => exact fun hp => hQ _ _ hp
  | op o k ih => exact fun hp a => ⟨(hp a).1, ih a (hp a).2⟩
  | await q k ih => exact fun hp => ⟨hp.1, fun r => ⟨(hp.2 r).1, ih r (hp.2 r).2⟩⟩

/-- Two programs after each other justify their events one after the other. -/
theorem Local.bind {Q : Except S.I.Exn β → List (Event S.I S.Job S.Out) → Prop}
    {f : α → Program S.I β} :
    ∀ {p : Program S.I α} {h : List (Event S.I S.Job S.Out)},
      Local J (fun x h => match x with
        | .ok a => Local J Q (f a) h
        | .error e => Q (.error e) h) p h →
      Local J Q (p >>= f) h := by
  intro p
  induction p with
  | ret a => exact id
  | raise e => exact id
  | op o k ih => exact fun hp a => ⟨(hp a).1, ih a (hp a).2⟩
  | await q k ih => exact fun hp => ⟨hp.1, fun r => ⟨(hp.2 r).1, ih r (hp.2 r).2⟩⟩

/-- So do a program and the handler of its exceptions. -/
theorem Local.tryCatch {Q : Except S.I.Exn α → List (Event S.I S.Job S.Out) → Prop}
    {f : S.I.Exn → Program S.I α} :
    ∀ {p : Program S.I α} {h : List (Event S.I S.Job S.Out)},
      Local J (fun x h => match x with
        | .ok a => Q (.ok a) h
        | .error e => Local J Q (f e) h) p h →
      Local J Q (p.tryCatch f) h := by
  intro p
  induction p with
  | ret a => exact id
  | raise e => exact id
  | op o k ih => exact fun hp a => ⟨(hp a).1, ih a (hp a).2⟩
  | await q k ih => exact fun hp => ⟨hp.1, fun r => ⟨(hp.2 r).1, ih r (hp.2 r).2⟩⟩

/-- A value ends at once. -/
theorem Local.ofExcept {Q : Except S.I.Exn α → List (Event S.I S.Job S.Out) → Prop}
    {x : Except S.I.Exn α} {h : List (Event S.I S.Job S.Out)} (hx : Q x h) :
    Local J Q (Program.ofExcept x) h := by
  cases x with
  | ok a => exact hx
  | error e => exact hx

/-- A program whose footprint needs no justification keeps an invariant of its trace. -/
theorem Local.only {P : S.I.Op → Prop} {R : S.I.Req → Prop}
    {I : List (Event S.I S.Job S.Out) → Prop}
    (ho : ∀ o a h, P o → I h → J (.op o a) h ∧ I (.op o a :: h))
    (hs : ∀ q h, R q → I h → J (.send q) h ∧ I (.send q :: h))
    (hr : ∀ q r h, R q → I h → J (.recv q r) h ∧ I (.recv q r :: h)) :
    ∀ {p : Program S.I α} {h : List (Event S.I S.Job S.Out)}, p.Only P R → I h →
      Local J (fun _ h => I h) p h := by
  intro p
  induction p with
  | ret a => exact fun _ hI => hI
  | raise e => exact fun _ hI => hI
  | op o k ih =>
    intro h hp hI a
    exact ⟨(ho o a h hp.1 hI).1, ih a (hp.2 a) (ho o a h hp.1 hI).2⟩
  | await q k ih =>
    intro h hp hI
    have h1 := hs q h hp.1 hI
    refine ⟨h1.1, fun r => ?_⟩
    have h2 := hr q r _ hp.1 h1.2
    exact ⟨h2.1, ih r (hp.2 r) h2.2⟩

/-- What a thread still promises. -/
def Thread.Local (J : Event S.I S.Job S.Out → List (Event S.I S.Job S.Out) → Prop)
    (h : List (Event S.I S.Job S.Out)) : Option S.Thread → Prop
  | none => True
  | some (.ready p) => System.Local J (fun x h => J (.finish x) h) p h
  | some (.waiting q k) => ∀ r, J (.recv q r) h ∧
      System.Local J (fun x h => J (.finish x) h) (k r) (.recv q r :: h)

/-- A thread that acts justifies the event, and goes on with its promise. -/
theorem Act.local {h : List (Event S.I S.Job S.Out)} {th : S.Thread}
    {e : Event S.I S.Job S.Out} {th' : Option S.Thread} (ha : Act th e th')
    (ht : Thread.Local J h (some th)) : J e h ∧ Thread.Local J (e :: h) th' := by
  cases ha with
  | op o k a => exact ht a
  | send q k => exact ht
  | recv q k r => exact ht r
  | ret a => exact ⟨ht, trivial⟩
  | raise e => exact ⟨ht, trivial⟩

/-- All that a program leaves in a trace is justified. -/
theorem Leads.local {p : Program S.I S.Out} {h₀ h : List (Event S.I S.Job S.Out)}
    {th : Option S.Thread} (hp : Local J (fun x h => J (.finish x) h) p h₀) (hl : Leads p h th) :
    (∀ h₁ e h₂, h = h₁ ++ e :: h₂ → J e (h₂ ++ h₀)) ∧ Thread.Local J (h ++ h₀) th := by
  induction hl with
  | start => exact ⟨by simp, hp⟩
  | act _ ha ih =>
    obtain ⟨hJ, ht⟩ := ha.local ih.2
    refine ⟨fun h₁ e h₂ he => ?_, ht⟩
    cases h₁ with
    | nil =>
      obtain ⟨rfl, rfl⟩ := List.cons.inj he
      exact hJ
    | cons x h₁ => exact ih.1 h₁ e h₂ (List.cons.inj he).2

end

/-- Every entry of a history but the starts of tasks is justified by the earlier entries of its
task, if the programs of the system justify what they do. -/
theorem Preempted.justified {J : Event S.I S.Job S.Out → List (Event S.I S.Job S.Out) → Prop}
    (hJ : ∀ j, Local J (fun x h => J (.finish x) h) (S.program j) [.spawn j]) {σ : S.State}
    {c : S.Config} (hc : Preempted σ c) {l₁ l₂ : S.History} {i : Nat} {s : S.State}
    {e : Event S.I S.Job S.Out} (hl : c.world.log = l₁ ++ ⟨i, s, e⟩ :: l₂) :
    (∃ j, e = .spawn j ∧ trace i l₂ = []) ∨ J e (trace i l₂) := by
  rcases hc.leads hl with hs | ⟨j, h, ht, hlead⟩
  · exact .inl hs
  · rw [ht]
    exact .inr ((hlead.local (hJ j)).1 _ e h rfl)

/-! ## Starts and ends -/

/-- What a program leaves has no spawn of its own. -/
theorem Leads.not_spawn {p : Program S.I S.Out} {h : List (Event S.I S.Job S.Out)}
    {th : Option S.Thread} (hl : Leads p h th) (j : S.Job) : Event.spawn j ∉ h := by
  induction hl with
  | start => simp
  | act _ ha ih =>
    intro hm
    rcases List.mem_cons.1 hm with rfl | hm
    · cases ha
    · exact ih hm

/-- A task is started once. -/
theorem Preempted.spawn_unique {σ : S.State} {c : S.Config} (hc : Preempted σ c) {i : Nat}
    {s s' : S.State} {j j' : S.Job} (h : ⟨i, s, .spawn j⟩ ∈ c.world.log)
    (h' : ⟨i, s', .spawn j'⟩ ∈ c.world.log) : j = j' := by
  have hm := mem_trace.2 ⟨s, h⟩
  have hm' := mem_trace.2 ⟨s', h'⟩
  rcases hc.follows i with ⟨hf, -⟩ | ⟨k, t, ht, hl⟩
  · exact absurd rfl (hf _ h)
  · rw [ht, List.mem_append, List.mem_singleton] at hm hm'
    have := (hm.resolve_left (hl.not_spawn j)).trans (hm'.resolve_left (hl.not_spawn j')).symm
    cases this
    rfl

/-- A trace goes on only while its thread lives, so an end is its newest event. -/
theorem Leads.finish {p : Program S.I S.Out} {h : List (Event S.I S.Job S.Out)}
    {th : Option S.Thread} (hl : Leads p h th) {h₁ h₂ : List (Event S.I S.Job S.Out)}
    {x : Except S.I.Exn S.Out} (he : h = h₁ ++ .finish x :: h₂) : h₁ = [] ∧ th = none := by
  induction hl generalizing h₁ with
  | start => simp at he
  | act _ ha ih =>
    cases h₁ with
    | nil =>
      obtain ⟨rfl, rfl⟩ := List.cons.inj he
      cases ha <;> exact ⟨rfl, rfl⟩
    | cons y h₁ => exact absurd (ih (List.cons.inj he).2).2 nofun

/-- A task does nothing after its end. -/
theorem Preempted.finish_last {σ : S.State} {c : S.Config} (hc : Preempted σ c)
    {l₁ l₂ : S.History} {i : Nat} {s : S.State} {x : Except S.I.Exn S.Out}
    (hl : c.world.log = l₁ ++ ⟨i, s, .finish x⟩ :: l₂) : ∀ y ∈ l₁, y.task ≠ i := by
  rcases hc.leads hl with ⟨j, he, -⟩ | ⟨j, h, -, hlead⟩
  · cases he
  · rintro ⟨k, s', e⟩ hy rfl
    have := mem_trace.2 ⟨s', hy⟩
    rw [(hlead.finish rfl).1] at this
    cases this

/-! ## Uninterrupted stretches -/

/-- An event with which a task takes control. -/
def Event.Takes : Event S.I S.Job S.Out → Prop
  | .spawn _ | .recv _ _ => True
  | .op _ _ | .send _ | .finish _ => False

/-- Every entry but those with which a task takes control stands directly above one of its own
task. -/
def Contiguous (l : S.History) : Prop :=
  ∀ x l', x :: l' <:+ l → Event.Takes (S := S) x.event ∨ ∃ y l'', l' = y :: l'' ∧ y.task = x.task

/-- So do they in a seamless history, where each also finds the state that the entry below left. -/
def Seamless (l : S.History) : Prop :=
  ∀ x l', x :: l' <:+ l → Event.Takes (S := S) x.event ∨ ∃ y l'', l' = y :: l'' ∧
    y.task = x.task ∧ x.state = Event.after (S := S) y.event y.state

/-- A seamless history is contiguous. -/
theorem Seamless.contiguous {l : S.History} (hl : Seamless l) : Contiguous l := fun x l' h =>
  (hl x l' h).imp id fun ⟨y, l'', he, ht, _⟩ => ⟨y, l'', he, ht⟩

/-- An entry that takes control, or finds the state that was left, keeps a history seamless. -/
theorem Seamless.cons {x : Entry S.I S.State S.Job S.Out} {l : S.History} (hl : Seamless l)
    (hx : Event.Takes (S := S) x.event ∨ ∃ y l', l = y :: l' ∧ y.task = x.task ∧
      x.state = Event.after (S := S) y.event y.state) : Seamless (x :: l) := by
  intro y l' h
  rcases List.suffix_cons_iff.1 h with h | h
  · obtain ⟨rfl, rfl⟩ := List.cons.inj h
    exact hx
  · exact hl y l' h

/-- A stretch goes on above its own newest entry, in the state that it has made. -/
theorem advance_seamless (i : Nat) : ∀ (p : Program S.I S.Out) (w : S.World), Seamless w.log →
    (∃ y l, w.log = y :: l ∧ y.task = i ∧ w.state = Event.after (S := S) y.event y.state) →
    Seamless (advance i p w).1.log := by
  intro p
  induction p with
  | ret a => exact fun w hw hi => hw.cons (.inr hi)
  | raise e => exact fun w hw hi => hw.cons (.inr hi)
  | op o k ih => exact fun w hw hi => ih _ (w.perform i o) (hw.cons (.inr hi)) ⟨_, _, rfl, rfl, rfl⟩
  | await q k _ => exact fun w hw hi => hw.cons (.inr hi)

/-- Under a cooperative schedule no stretch is interrupted. -/
theorem Reachable.seamless {σ : S.State} {c : S.Config} (hc : Reachable σ c) :
    Seamless c.world.log := by
  induction hc with
  | refl =>
    intro x l hx
    exact absurd (List.suffix_nil.1 hx) (List.cons_ne_nil x l)
  | tail _ hs ih =>
    cases hs with
    | spawn i j _ =>
      exact advance_seamless i _ _ (ih.cons (.inl trivial)) ⟨_, _, rfl, rfl, rfl⟩
    | @resume i q k r _ =>
      exact advance_seamless i _ _ (ih.cons (.inl trivial)) ⟨_, _, rfl, rfl, rfl⟩
    | pass _ => exact ih

/-- The history of a run is contiguous. -/
theorem Reachable.contiguous {σ : S.State} {c : S.Config} (hc : Reachable σ c) :
    Contiguous c.world.log := hc.seamless.contiguous

/-- In a seamless history, the event before in the trace is the entry below, and led to the
state. -/
theorem Seamless.below {l l' : S.History} (hl : Seamless l)
    {x : Entry S.I S.State S.Job S.Out} (hx : x :: l' <:+ l) (ht : ¬ Event.Takes (S := S) x.event)
    {e : Event S.I S.Job S.Out} {h : List (Event S.I S.Job S.Out)}
    (htr : trace x.task l' = e :: h) :
    ∃ s l'', l' = ⟨x.task, s, e⟩ :: l'' ∧ trace x.task l'' = h ∧
      x.state = Event.after (S := S) e s := by
  obtain ⟨⟨i, s, e'⟩, l'', rfl, rfl, hs⟩ := (hl x l' hx).resolve_left ht
  rw [trace_cons_self] at htr
  obtain ⟨rfl, rfl⟩ := List.cons.inj htr
  exact ⟨s, l'', rfl, rfl, hs⟩

/-! ## The worlds of a run -/

/-- A world that the run has come through: the present one, or that in which an entry was added. -/
inductive Moment (c : S.Config) : S.World → Prop
  | now : Moment c c.world
  | before {x : Entry S.I S.State S.Job S.Out} {l : S.History} : x :: l <:+ c.world.log →
      Moment c ⟨x.state, l⟩

/-- The history of a world that the run has come through is an end of the present one. -/
theorem Moment.suffix {c : S.Config} {w : S.World} (h : Moment c w) : w.log <:+ c.world.log := by
  cases h with
  | now => exact List.suffix_rfl
  | before h => exact (List.suffix_cons _ _).trans h

/-- And such a world is consistent. -/
theorem Moment.consistent {σ : S.State} {c : S.Config} (hc : Consistent σ c.world) {w : S.World}
    (h : Moment c w) : Consistent σ w := by
  cases h with
  | now => exact hc
  | before h =>
    obtain ⟨l₁, hl⟩ := h
    exact (hc.before hl.symm).1

/-! ## Reading a contiguous history -/

/-- In an uninterrupted stretch, the event before in the trace is the entry below. -/
theorem Contiguous.below {l l' : S.History} (hl : Contiguous l)
    {x : Entry S.I S.State S.Job S.Out} (hx : x :: l' <:+ l) (ht : ¬ Event.Takes (S := S) x.event)
    {e : Event S.I S.Job S.Out} {h : List (Event S.I S.Job S.Out)}
    (htr : trace x.task l' = e :: h) :
    ∃ s l'', l' = ⟨x.task, s, e⟩ :: l'' ∧ trace x.task l'' = h := by
  obtain ⟨⟨i, s, e'⟩, l'', rfl, rfl⟩ := (hl x l' hx).resolve_left ht
  rw [trace_cons_self] at htr
  obtain ⟨rfl, rfl⟩ := List.cons.inj htr
  exact ⟨s, l'', rfl, rfl⟩

/-- A stretch of events in the trace is one in the history. -/
theorem Contiguous.stretch {l : S.History} (hl : Contiguous l) {i : Nat}
    {h : List (Event S.I S.Job S.Out)} :
    ∀ {es : List (Event S.I S.Job S.Out)} {x : Entry S.I S.State S.Job S.Out} {l' : S.History},
      x :: l' <:+ l → x.task = i → ¬ Event.Takes (S := S) x.event →
      (∀ e ∈ es, ¬ Event.Takes (S := S) e) → trace i l' = es ++ h →
      ∃ ys l'', l' = ys ++ l'' ∧ ys.map Entry.event = es ∧ trace i l'' = h := by
  intro es
  induction es with
  | nil => exact fun _ _ _ _ htr => ⟨[], _, rfl, rfl, htr⟩
  | cons e es ih =>
    rintro x l' hx rfl ht hes htr
    obtain ⟨s, l₁, rfl, h₁⟩ := hl.below hx ht htr
    obtain ⟨ys, l'', rfl, rfl, h₂⟩ := ih ((List.suffix_cons _ _).trans hx) rfl (hes e (.head _))
      (fun e' he' => hes e' (.tail _ he')) h₁
    exact ⟨_ :: ys, l'', rfl, rfl, h₂⟩

end System

end Teamspace.Lib
