import Teamspace.Lib.Schedule

/-!
# Guarantees of cooperative tasks

Between two requests a task runs alone, so what it promises is a relation between the worlds at
the ends of each such stretch: a sequence of *moves* (`E`, the relation a caller chooses). While
it waits the state may change in any way; the task relies only on the history growing by entries
of other tasks. `Within` says that a program keeps this promise from a point in the middle of a
stretch, `Spec` is the same at a point where the moves so far are complete, with a postcondition,
and composes along the structure of a program. `Reachable.moves` turns the promises of all
programs of a system into a path of moves to every reachable world, so that an invariant of the
system is proved by one case analysis on the moves.
-/

namespace Teamspace.Lib

open Relation (ReflTransGen)

namespace System

variable {S : System} {α β : Type}

/-- From world `w`, in a stretch that started in `s`, task `i` running `p` completes each stretch
as a sequence of moves `E`, and ends with `Q`. -/
def Within (E : S.World → S.World → Prop) (i : Nat)
    (Q : Except S.I.Exn α → S.World → S.World → Prop) :
    S.World → Program S.I α → S.World → Prop
  | s, .ret a, w => Q (.ok a) s w
  | s, .raise e, w => Q (.error e) s w
  | s, .op o k, w => Within E i Q s (k (S.exec o w.state).1) (w.perform i o)
  | s, .await q k, w => ReflTransGen E s (w.emit i (.send q)) ∧
      ∀ r w', Others i (w.emit i (.send q)) w' → Within E i Q w' (k r) (w'.emit i (.recv q r))

/-- From world `w`, where all moves are complete, task `i` running `p` makes only moves `E`, and
ends with the moves complete and `Q`. -/
def Spec (E : S.World → S.World → Prop) (i : Nat) (p : Program S.I α) (w : S.World)
    (Q : Except S.I.Exn α → S.World → Prop) : Prop :=
  Within E i (fun x s w' => ReflTransGen E s w' ∧ Q x w') w p w

section
variable {E : S.World → S.World → Prop} {i : Nat} {w : S.World}

/-- A weaker postcondition. -/
theorem Within.mono {Q Q' : Except S.I.Exn α → S.World → S.World → Prop}
    (hQ : ∀ x s w, Q x s w → Q' x s w) :
    ∀ {p : Program S.I α} {s w : S.World}, Within E i Q s p w → Within E i Q' s p w := by
  intro p
  induction p with
  | ret a => exact fun h => hQ _ _ _ h
  | raise e => exact fun h => hQ _ _ _ h
  | op o k ih => exact fun h => ih _ h
  | await q k ih => exact fun h => ⟨h.1, fun r w' hw => ih r (h.2 r w' hw)⟩

/-- Moves made before the stretch may be counted into it. -/
theorem Within.shift {Q : Except S.I.Exn α → S.World → S.World → Prop}
    (hQ : ∀ x s t w, ReflTransGen E s t → Q x t w → Q x s w) :
    ∀ {p : Program S.I α} {s t w : S.World}, ReflTransGen E s t →
      Within E i Q t p w → Within E i Q s p w := by
  intro p
  induction p with
  | ret a => exact fun hs h => hQ _ _ _ _ hs h
  | raise e => exact fun hs h => hQ _ _ _ _ hs h
  | op o k ih => exact fun hs h => ih _ hs h
  | await q k _ => exact fun hs h => ⟨hs.trans h.1, h.2⟩

/-- An operation within a move. -/
theorem Within.step {Q : Except S.I.Exn α → S.World → S.World → Prop} {o : S.I.Op}
    {k : S.I.Ans o → Program S.I α} {s : S.World}
    (h : Within E i Q s (k (S.exec o w.state).1) (w.perform i o)) :
    Within E i Q s (.op o k) w := h

/-- An operation that is a move by itself. -/
theorem Within.op {Q : Except S.I.Exn α → S.World → S.World → Prop}
    (hQ : ∀ x s t w, ReflTransGen E s t → Q x t w → Q x s w) {o : S.I.Op}
    {k : S.I.Ans o → Program S.I α} (hE : E w (w.perform i o))
    (h : Within E i Q (w.perform i o) (k (S.exec o w.state).1) (w.perform i o)) :
    Within E i Q w (.op o k) w := Within.shift hQ (.single hE) h

/-- A request and its reply that are moves by themselves. -/
theorem Within.await {Q : Except S.I.Exn α → S.World → S.World → Prop}
    (hQ : ∀ x s t w, ReflTransGen E s t → Q x t w → Q x s w) {q : S.I.Req}
    {k : S.I.Rep → Program S.I α} (hE : E w (w.emit i (.send q)))
    (hr : ∀ r w', Others i (w.emit i (.send q)) w' → E w' (w'.emit i (.recv q r)))
    (h : ∀ r w', Others i (w.emit i (.send q)) w' →
      Within E i Q (w'.emit i (.recv q r)) (k r) (w'.emit i (.recv q r))) :
    Within E i Q w (.await q k) w :=
  ⟨.single hE, fun r w' hw => Within.shift hQ (.single (hr r w' hw)) (h r w' hw)⟩

/-- A postcondition whose moves are complete may count earlier moves. -/
theorem complete_shift {Q : Except S.I.Exn α → S.World → Prop} (x : Except S.I.Exn α)
    (s t w : S.World) (hs : ReflTransGen E s t) (h : ReflTransGen E t w ∧ Q x w) :
    ReflTransGen E s w ∧ Q x w := ⟨hs.trans h.1, h.2⟩

/-- A sequence runs its second part from wherever the first part ends. -/
theorem Within.bind {Q : Except S.I.Exn β → S.World → S.World → Prop} {f : α → Program S.I β} :
    ∀ {p : Program S.I α} {s w : S.World},
      Within E i (fun x s w => match x with
        | .ok a => Within E i Q s (f a) w
        | .error e => Q (.error e) s w) s p w →
      Within E i Q s (p >>= f) w := by
  intro p
  induction p with
  | ret a => exact id
  | raise e => exact id
  | op o k ih => exact fun h => ih _ h
  | await q k ih => exact fun h => ⟨h.1, fun r w' hw => ih r (h.2 r w' hw)⟩

/-- A guarded program runs its handler from wherever the exception is raised. -/
theorem Within.tryCatch {Q : Except S.I.Exn α → S.World → S.World → Prop}
    {f : S.I.Exn → Program S.I α} :
    ∀ {p : Program S.I α} {s w : S.World},
      Within E i (fun x s w => match x with
        | .ok a => Q (.ok a) s w
        | .error e => Within E i Q s (f e) w) s p w →
      Within E i Q s (p.tryCatch f) w := by
  intro p
  induction p with
  | ret a => exact id
  | raise e => exact id
  | op o k ih => exact fun h => ih _ h
  | await q k ih => exact fun h => ⟨h.1, fun r w' hw => ih r (h.2 r w' hw)⟩

/-- A value ends a stretch. -/
theorem Within.ret {Q : Except S.I.Exn α → S.World → S.World → Prop} {s : S.World} {a : α}
    (h : Q (.ok a) s w) : Within E i Q s (.ret a) w := h

/-- So does a value or an exception. -/
theorem Within.ofExcept {Q : Except S.I.Exn α → S.World → S.World → Prop} {s : S.World}
    {x : Except S.I.Exn α} (h : Q x s w) : Within E i Q s (Program.ofExcept x) w := by
  cases x with
  | ok a => exact h
  | error e => exact h

/-- A program only adds to the history. -/
theorem Within.later {Q : Except S.I.Exn α → S.World → S.World → Prop} {l : S.History} :
    ∀ {p : Program S.I α} {s w : S.World}, l <:+ w.log → Within E i Q s p w →
      Within E i (fun x s w' => Q x s w' ∧ l <:+ w'.log) s p w := by
  intro p
  induction p with
  | ret a => exact fun hl h => ⟨h, hl⟩
  | raise e => exact fun hl h => ⟨h, hl⟩
  | op o k ih => exact fun hl h => ih _ (hl.trans (List.suffix_cons _ _)) h
  | await q k ih =>
    exact fun hl h => ⟨h.1, fun r w' hw => ih r
      (((hl.trans (List.suffix_cons _ _)).trans hw.suffix).trans (List.suffix_cons _ _))
      (h.2 r w' hw)⟩

/-! ## Composition of specifications -/

/-- What ends with more ends with less. -/
theorem Spec.mono {p : Program S.I α} {Q Q' : Except S.I.Exn α → S.World → Prop}
    (h : Spec E i p w Q) (hQ : ∀ x w', Q x w' → Q' x w') : Spec E i p w Q' :=
  Within.mono (fun _ _ _ h => ⟨h.1, hQ _ _ h.2⟩) h

/-- A value ends at once. -/
theorem Spec.ret {a : α} {Q : Except S.I.Exn α → S.World → Prop} (h : Q (.ok a) w) :
    Spec E i (.ret a) w Q := ⟨.refl, h⟩

/-- So does an exception. -/
theorem Spec.raise {e : S.I.Exn} {Q : Except S.I.Exn α → S.World → Prop} (h : Q (.error e) w) :
    Spec E i (.raise e) w Q := ⟨.refl, h⟩

/-- So does either. -/
theorem Spec.ofExcept {x : Except S.I.Exn α} {Q : Except S.I.Exn α → S.World → Prop}
    (h : Q x w) : Spec E i (Program.ofExcept x) w Q := Within.ofExcept ⟨.refl, h⟩

/-- Moves that are complete may be followed by a program that meets its specification. -/
theorem Spec.after {p : Program S.I α} {Q : Except S.I.Exn α → S.World → Prop} {w' : S.World}
    (hE : ReflTransGen E w w') (h : Spec E i p w' Q) :
    Within E i (fun x s w' => ReflTransGen E s w' ∧ Q x w') w p w' := Within.shift complete_shift hE h

/-- A stretch whose moves are complete with this operation. -/
theorem Spec.afterOp {o : S.I.Op} {k : S.I.Ans o → Program S.I α}
    {Q : Except S.I.Exn α → S.World → Prop} {s : S.World} (hE : ReflTransGen E s (w.perform i o))
    (h : Spec E i (k (S.exec o w.state).1) (w.perform i o) Q) :
    Within E i (fun x s w' => ReflTransGen E s w' ∧ Q x w') s (.op o k) w := Within.shift complete_shift hE h

/-- An operation that is a move by itself. -/
theorem Spec.op {o : S.I.Op} {k : S.I.Ans o → Program S.I α}
    {Q : Except S.I.Exn α → S.World → Prop} (hE : E w (w.perform i o))
    (h : Spec E i (k (S.exec o w.state).1) (w.perform i o) Q) : Spec E i (.op o k) w Q :=
  Within.op complete_shift hE h

/-- A request and its reply that are moves by themselves. -/
theorem Spec.await {q : S.I.Req} {k : S.I.Rep → Program S.I α}
    {Q : Except S.I.Exn α → S.World → Prop} (hE : E w (w.emit i (.send q)))
    (hr : ∀ r w', Others i (w.emit i (.send q)) w' → E w' (w'.emit i (.recv q r)))
    (h : ∀ r w', Others i (w.emit i (.send q)) w' → Spec E i (k r) (w'.emit i (.recv q r)) Q) :
    Spec E i (.await q k) w Q := Within.await complete_shift hE hr h

/-- Two programs after each other make their moves one after the other. -/
theorem Spec.bind {p : Program S.I α} {f : α → Program S.I β}
    {Q : Except S.I.Exn β → S.World → Prop}
    (h : Spec E i p w fun x w' => match x with
      | .ok a => Spec E i (f a) w' Q
      | .error e => Q (.error e) w') : Spec E i (p >>= f) w Q := by
  refine Within.bind (Within.mono (fun x s w' hx => ?_) h)
  cases x with
  | ok a => exact Within.shift complete_shift hx.1 hx.2
  | error e => exact hx

/-- So do a program and the handler of its exceptions. -/
theorem Spec.tryCatch {p : Program S.I α} {f : S.I.Exn → Program S.I α}
    {Q : Except S.I.Exn α → S.World → Prop}
    (h : Spec E i p w fun x w' => match x with
      | .ok a => Q (.ok a) w'
      | .error e => Spec E i (f e) w' Q) : Spec E i (p.tryCatch f) w Q := by
  refine Within.tryCatch (Within.mono (fun x s w' hx => ?_) h)
  cases x with
  | ok a => exact hx
  | error e => exact Within.shift complete_shift hx.1 hx.2

/-- At the end the history has grown. -/
theorem Spec.later {p : Program S.I α} {Q : Except S.I.Exn α → S.World → Prop}
    (h : Spec E i p w Q) : Spec E i p w fun x w' => Q x w' ∧ w.log <:+ w'.log :=
  Within.mono (fun _ _ _ h => ⟨h.1.1, h.1.2, h.2⟩) (Within.later (List.suffix_refl _) h)

/-- A program whose footprint consists of moves makes only moves. -/
theorem Spec.only {P : S.I.Op → Prop} {R : S.I.Req → Prop}
    (hP : ∀ o w, P o → E w (w.perform i o))
    (hs : ∀ q w, R q → E w (w.emit i (.send q)))
    (hr : ∀ q r w, R q → E w (w.emit i (.recv q r))) :
    ∀ {p : Program S.I α} {w : S.World}, p.Only P R → Spec E i p w fun _ _ => True := by
  intro p
  induction p with
  | ret a => exact fun _ => .ret trivial
  | raise e => exact fun _ => .raise trivial
  | op o k ih => exact fun h => .op (hP o _ h.1) (ih _ (h.2 _))
  | await q k ih =>
    intro w h
    exact .await (hs q _ h.1) (fun r w' _ => hr q r w' h.1) fun r _ _ => ih r (h.2 r)

end

/-! ## Soundness -/

/-- Started on job `j` in world `w`, the program of `j` makes only moves `E`, its end included. -/
def Serves (E : S.World → S.World → Prop) (i : Nat) (j : S.Job) (w : S.World) : Prop :=
  Within E i (fun x s w' => ReflTransGen E s (w'.emit i (.finish x))) w (S.program j)
    (w.emit i (.spawn j))

/-- A specification of the program of a job, whose start and end are moves too. -/
theorem Spec.serves {E : S.World → S.World → Prop} {i : Nat} {j : S.Job} {w : S.World}
    {Q : Except S.I.Exn S.Out → S.World → Prop} (hs : E w (w.emit i (.spawn j)))
    (h : Spec E i (S.program j) (w.emit i (.spawn j)) Q)
    (hf : ∀ x w', Q x w' → E w' (w'.emit i (.finish x))) : Serves E i j w :=
  Within.mono (fun x _ w' hx => hx.1.tail (hf x w' hx.2)) (Spec.after (.single hs) h)

/-- What a waiting task still promises. -/
def Waiting (E : Nat → S.World → S.World → Prop) (c : S.Config) : Prop :=
  ∀ i q k, c.task i = some (.waiting q k) → ∀ r w', Others i c.world w' →
    Within (E i) i (fun x s w' => ReflTransGen (E i) s (w'.emit i (.finish x))) w' (k r)
      (w'.emit i (.recv q r))

/-- A promised stretch, run to its end. -/
theorem Within.advance {E : S.World → S.World → Prop} {i : Nat} :
    ∀ {p : Program S.I S.Out} {s w : S.World},
      Within E i (fun x s w' => ReflTransGen E s (w'.emit i (.finish x))) s p w →
      ReflTransGen E s (System.advance i p w).1 ∧
        ∀ q k, (System.advance i p w).2 = some (.waiting q k) →
          ∀ r w', Others i (System.advance i p w).1 w' →
            Within E i (fun x s w' => ReflTransGen E s (w'.emit i (.finish x))) w' (k r)
              (w'.emit i (.recv q r)) := by
  intro p
  induction p with
  | ret a => exact fun h => ⟨h, nofun⟩
  | raise e => exact fun h => ⟨h, nofun⟩
  | op o k ih => exact fun h => ih _ h
  | await q k _ =>
    intro s w h
    refine ⟨h.1, fun q' k' he r w' hw => ?_⟩
    cases he
    exact h.2 r w' hw

variable {E : Nat → S.World → S.World → Prop}

/-- A world after a stretch of some task, or after the state changed by itself. -/
def Moves (E : Nat → S.World → S.World → Prop) (w w' : S.World) : Prop :=
  (∃ i, E i w w') ∨ ∃ σ, S.passes w.state σ ∧ w' = { w with state := σ }

/-- A task that runs to its next wait makes moves, and the others still wait. -/
theorem Waiting.run {c : S.Config} (hc : Waiting E c) {i : Nat} {p : Program S.I S.Out}
    {e : Event S.I S.Job S.Out}
    (h : Within (E i) i (fun x s w' => ReflTransGen (E i) s (w'.emit i (.finish x))) c.world p
      (c.world.emit i e)) :
    ReflTransGen (E i) c.world (c.run i p (c.world.emit i e)).world ∧
      Waiting E (c.run i p (c.world.emit i e)) := by
  obtain ⟨h1, h2⟩ := h.advance
  refine ⟨h1, fun j q k hj r w' hw => ?_⟩
  by_cases hij : j = i
  · subst hij
    exact h2 q k (by simpa [Config.run] using hj) r w' hw
  · refine hc j q k (by simpa [Config.run, Function.update_of_ne hij] using hj) r w' ?_
    exact (advance_others hij p c.world e).trans hw

/-- A system whose programs keep their promises moves as they promise. -/
theorem Step.guarantee (h : ∀ i j w, Fresh i w.log → Serves (E i) i j w) {c c' : S.Config}
    (hc : Waiting E c) (hs : Step c c') :
    ReflTransGen (Moves E) c.world c'.world ∧ Waiting E c' := by
  have lift : ∀ {i : Nat} {w w' : S.World}, ReflTransGen (E i) w w' →
      ReflTransGen (Moves E) w w' := by
    intro i w w' hw
    exact hw.lift id fun _ _ he => .inl ⟨i, he⟩
  cases hs with
  | spawn i j hi =>
    obtain ⟨h1, h2⟩ := hc.run (h i j c.world hi)
    exact ⟨lift h1, h2⟩
  | @resume i q k r hk =>
    obtain ⟨h1, h2⟩ := hc.run (hc i q k hk r c.world (Others.refl i c.world))
    exact ⟨lift h1, h2⟩
  | @pass σ hp =>
    refine ⟨.single (.inr ⟨σ, hp, rfl⟩), fun i q k hi r w' hw => hc i q k hi r w' ?_⟩
    exact hw

/-- Every reachable world is at the end of a path of moves. -/
theorem Reachable.moves (h : ∀ i j w, Fresh i w.log → Serves (E i) i j w) {σ : S.State}
    {c : S.Config} (hc : Reachable σ c) :
    ReflTransGen (Moves E) ⟨σ, []⟩ c.world := by
  suffices ReflTransGen (Moves E) ⟨σ, []⟩ c.world ∧ Waiting E c from this.1
  induction hc with
  | refl => exact ⟨.refl, nofun⟩
  | tail _ hs ih =>
    obtain ⟨h1, h2⟩ := hs.guarantee h ih.2
    exact ⟨ih.1.trans h1, h2⟩

end System

end Teamspace.Lib
