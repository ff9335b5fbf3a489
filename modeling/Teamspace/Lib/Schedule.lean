import Mathlib.Logic.Function.Basic
import Teamspace.Lib.Program

/-!
# Cooperative schedules

A `System` gives the operations of an interface a meaning on a shared state and says which program
serves each job. Its tasks run interleaved. Under a *cooperative* schedule (`Step`) a task runs
from one request to the next without interruption, as on an event loop with a single worker. The
run writes a history: each entry records the task, the shared state in which it acted, and what it
did, newest entry first. `Others` is all that a waiting task can rely on: the history grows by
entries of other tasks. `Config.play` carries out a given schedule.
-/

namespace Teamspace.Lib

/-- What a task does at one point of a history. -/
inductive Event (I : Interface) (Job Out : Type) : Type
  /-- The task was started to serve a job. -/
  | spawn (j : Job)
  /-- It performed an operation. -/
  | op (o : I.Op) (a : I.Ans o)
  /-- It sent a request. -/
  | send (q : I.Req)
  /-- It received the reply to its request. -/
  | recv (q : I.Req) (r : I.Rep)
  /-- It ended. -/
  | finish (x : Except I.Exn Out)

/-- An entry of a history: who acted, in which state, and what was done. -/
structure Entry (I : Interface) (State Job Out : Type) : Type where
  task : Nat
  state : State
  event : Event I Job Out

/-- A shared state, the programs that serve the jobs on it, and how the state changes by itself
while no task runs. -/
structure System where
  I : Interface
  State : Type
  Job : Type
  Out : Type
  exec : (o : I.Op) → State → I.Ans o × State
  program : Job → Program I Out
  passes : State → State → Prop

namespace System

variable (S : System)

/-- A history, newest entry first. -/
abbrev History := List (Entry S.I S.State S.Job S.Out)

/-- The shared state and the history that led to it. -/
structure World where
  state : S.State
  log : S.History

variable {S}

/-- Record what task `i` does. -/
def World.emit (w : S.World) (i : Nat) (e : Event S.I S.Job S.Out) : S.World :=
  { w with log := ⟨i, w.state, e⟩ :: w.log }

/-- Task `i` performs an operation. -/
def World.perform (w : S.World) (i : Nat) (o : S.I.Op) : S.World :=
  { state := (S.exec o w.state).2
    log := ⟨i, w.state, .op o (S.exec o w.state).1⟩ :: w.log }

@[simp] theorem World.emit_state (w : S.World) (i : Nat) (e : Event S.I S.Job S.Out) :
    (w.emit i e).state = w.state := rfl
@[simp] theorem World.emit_log (w : S.World) (i : Nat) (e : Event S.I S.Job S.Out) :
    (w.emit i e).log = ⟨i, w.state, e⟩ :: w.log := rfl
@[simp] theorem World.perform_state (w : S.World) (i : Nat) (o : S.I.Op) :
    (w.perform i o).state = (S.exec o w.state).2 := rfl
@[simp] theorem World.perform_log (w : S.World) (i : Nat) (o : S.I.Op) :
    (w.perform i o).log = ⟨i, w.state, .op o (S.exec o w.state).1⟩ :: w.log := rfl

/-- A live task: about to act, or waiting for the reply to its request. -/
inductive Thread (S : System) : Type
  | ready (p : Program S.I S.Out)
  | waiting (q : S.I.Req) (k : S.I.Rep → Program S.I S.Out)

/-- A world and the live tasks in it. -/
structure Config (S : System) where
  world : S.World
  task : Nat → Option S.Thread

/-- No task has acted yet. -/
def Config.start (σ : S.State) : S.Config := ⟨⟨σ, []⟩, fun _ => none⟩

/-- `i` names no task of the history. -/
def Fresh (i : Nat) (l : S.History) : Prop := ∀ e ∈ l, e.task ≠ i

instance (i : Nat) (l : S.History) : Decidable (Fresh i l) :=
  inferInstanceAs (Decidable (∀ e ∈ l, e.task ≠ i))

/-! ## The cooperative schedule -/

/-- Run `p` as task `i` up to its next request or its end. -/
def advance (i : Nat) : Program S.I S.Out → S.World → S.World × Option S.Thread
  | .ret a, w => (w.emit i (.finish (.ok a)), none)
  | .raise e, w => (w.emit i (.finish (.error e)), none)
  | .op o k, w => advance i (k (S.exec o w.state).1) (w.perform i o)
  | .await q k, w => (w.emit i (.send q), some (.waiting q k))

/-- Task `i` runs `p` up to its next request or its end, the other tasks stay where they are. -/
def Config.run (c : S.Config) (i : Nat) (p : Program S.I S.Out) (w : S.World) : S.Config :=
  ⟨(advance i p w).1, Function.update c.task i (advance i p w).2⟩

/-- One step of a cooperative schedule. -/
inductive Step : S.Config → S.Config → Prop
  /-- A job arrives and its task runs up to its first request. -/
  | spawn {c : S.Config} (i : Nat) (j : S.Job) : Fresh i c.world.log →
      Step c (c.run i (S.program j) (c.world.emit i (.spawn j)))
  /-- A reply arrives and the task that waits for it runs up to its next request. -/
  | resume {c : S.Config} {i : Nat} {q : S.I.Req} {k : S.I.Rep → Program S.I S.Out}
      (r : S.I.Rep) : c.task i = some (.waiting q k) →
      Step c (c.run i (k r) (c.world.emit i (.recv q r)))
  /-- The state changes by itself. -/
  | pass {c : S.Config} {σ : S.State} : S.passes c.world.state σ →
      Step c { c with world := { c.world with state := σ } }

/-- Reachable from a start in `σ` under a cooperative schedule. -/
def Reachable (σ : S.State) (c : S.Config) : Prop :=
  Relation.ReflTransGen Step (Config.start σ) c

/-! ## Playing a given schedule -/

/-- A scheduling decision. -/
inductive Choice (S : System) : Type
  | spawn (i : Nat) (j : S.Job)
  | reply (i : Nat) (r : S.I.Rep)

/-- Carry out a scheduling decision; one that is not possible changes nothing. -/
def Config.play (c : S.Config) : S.Choice → S.Config
  | .spawn i j =>
      if Fresh i c.world.log then
        c.run i (S.program j) (c.world.emit i (.spawn j))
      else c
  | .reply i r =>
      match c.task i with
      | some (.waiting q k) => c.run i (k r) (c.world.emit i (.recv q r))
      | _ => c

/-- Playing a schedule stays within the reachable configurations. -/
theorem Reachable.play {σ : S.State} {c : S.Config} (h : Reachable σ c) (cs : List S.Choice) :
    Reachable σ (cs.foldl Config.play c) := by
  induction cs generalizing c with
  | nil => exact h
  | cons x cs ih =>
    refine ih ?_
    cases x with
    | spawn i j =>
      unfold Config.play
      dsimp only
      split
      · next hx => exact h.tail (.spawn i j hx)
      · exact h
    | reply i r =>
      unfold Config.play
      dsimp only
      split
      · next q k hk => exact h.tail (.resume r hk)
      · exact h

/-! ## What a task adds to the history -/

/-- The history grew by entries of tasks other than `i`. -/
def Others (i : Nat) (w w' : S.World) : Prop :=
  ∃ l, w'.log = l ++ w.log ∧ ∀ e ∈ l, e.task ≠ i

/-- Others may do nothing. -/
theorem Others.refl (i : Nat) (w : S.World) : Others i w w := ⟨[], rfl, nofun⟩

/-- They may act twice. -/
theorem Others.trans {i : Nat} {w₁ w₂ w₃ : S.World} (h : Others i w₁ w₂) (h' : Others i w₂ w₃) :
    Others i w₁ w₃ := by
  obtain ⟨l, hl, hi⟩ := h
  obtain ⟨l', hl', hi'⟩ := h'
  refine ⟨l' ++ l, by rw [hl', hl, List.append_assoc], fun e he => ?_⟩
  rcases List.mem_append.1 he with he | he
  · exact hi' e he
  · exact hi e he

/-- The later history keeps the earlier one as its tail. -/
theorem Others.suffix {i : Nat} {w w' : S.World} (h : Others i w w') : w.log <:+ w'.log :=
  let ⟨l, hl, _⟩ := h
  ⟨l, hl.symm⟩

/-- A stretch of task `i` adds entries of task `i`. -/
theorem advance_log (i : Nat) : ∀ (p : Program S.I S.Out) (w : S.World),
    ∃ l, (advance i p w).1.log = l ++ w.log ∧ ∀ e ∈ l, e.task = i := by
  intro p
  induction p with
  | ret a => intro w; exact ⟨[⟨i, w.state, .finish (.ok a)⟩], rfl, by simp⟩
  | raise e => intro w; exact ⟨[⟨i, w.state, .finish (.error e)⟩], rfl, by simp⟩
  | op o k ih =>
    intro w
    obtain ⟨l, hl, hi⟩ := ih (S.exec o w.state).1 (w.perform i o)
    refine ⟨l ++ [⟨i, w.state, .op o (S.exec o w.state).1⟩], ?_, fun e he => ?_⟩
    · rw [advance, hl, World.perform_log, List.append_assoc]; rfl
    · rcases List.mem_append.1 he with he | he
      · exact hi e he
      · rw [List.mem_singleton.1 he]
  | await q k _ => intro w; exact ⟨[⟨i, w.state, .send q⟩], rfl, by simp⟩

/-- To the other tasks, a stretch of task `j` is a growth by other entries. -/
theorem advance_others {i j : Nat} (hij : i ≠ j) (p : Program S.I S.Out) (w : S.World)
    (e : Event S.I S.Job S.Out) : Others i w (advance j p (w.emit j e)).1 := by
  obtain ⟨l, hl, hj⟩ := advance_log j p (w.emit j e)
  refine ⟨l ++ [⟨j, w.state, e⟩], by rw [hl, World.emit_log, List.append_assoc]; rfl, ?_⟩
  intro x hx
  rcases List.mem_append.1 hx with hx | hx
  · rw [hj x hx]; exact hij.symm
  · rw [List.mem_singleton.1 hx]; exact hij.symm

end System

end Teamspace.Lib
