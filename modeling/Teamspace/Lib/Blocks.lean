import Teamspace.Lib.Guarantee

/-!
# Programs that write in blocks

Operations that belong together must not be seen apart. A program writes in *blocks* if it does its
operations one block after another, and neither gives up control nor ends inside a block
(`Program.Blocks`). However such programs are interleaved, an invariant of the history that every
whole block keeps holds whenever all tasks wait (`Reachable.blocks`).
-/

namespace Teamspace.Lib

open Relation (ReflTransGen)

namespace Program

variable {I : Interface} {α β : Type} {B : List I.Op → Prop} {os : List I.Op}

/-- The program goes on in blocks `B`, where `os` is what it has done of the first one. -/
def Blocks (B : List I.Op → Prop) : Program I α → List I.Op → Prop
  | .ret _, os => os = []
  | .raise _, os => os = []
  | .op o k, os => ∀ a, B (os ++ [o]) ∧ Blocks B (k a) [] ∨ Blocks B (k a) (os ++ [o])
  | .await _ k, os => os = [] ∧ ∀ r, Blocks B (k r) []

/-- The last operation of a block. -/
theorem Blocks.closes {o : I.Op} {k : I.Ans o → Program I α} (ho : B (os ++ [o]))
    (hk : ∀ a, (k a).Blocks B []) : (Program.op o k).Blocks B os := fun a => .inl ⟨ho, hk a⟩

/-- Any other one. -/
theorem Blocks.opens {o : I.Op} {k : I.Ans o → Program I α}
    (hk : ∀ a, (k a).Blocks B (os ++ [o])) : (Program.op o k).Blocks B os := fun a => .inr (hk a)

/-- A value does nothing, in blocks. -/
theorem blocks_ofExcept (x : Except I.Exn α) : (ofExcept x).Blocks B [] := by
  cases x with
  | ok a => rfl
  | error e => rfl

/-- A sequence goes on in blocks where its first part has ended. -/
theorem Blocks.bind {p : Program I α} {f : α → Program I β} (hp : p.Blocks B os)
    (hf : ∀ a, (f a).Blocks B []) : (p >>= f).Blocks B os := by
  induction p generalizing os with
  | ret a =>
    cases hp
    exact hf a
  | raise e => exact hp
  | op o k ih => exact fun a => (hp a).imp (And.imp_right (ih a)) (ih a)
  | await q k ih => exact ⟨hp.1, fun r => ih r (hp.2 r)⟩

/-- A program and the handler of its exceptions do blocks after each other. -/
theorem Blocks.tryCatch {p : Program I α} {f : I.Exn → Program I α} (hp : p.Blocks B os)
    (hf : ∀ e, (f e).Blocks B []) : (p.tryCatch f).Blocks B os := by
  induction p generalizing os with
  | ret a => exact hp
  | raise e =>
    cases hp
    exact hf e
  | op o k ih => exact fun a => (hp a).imp (And.imp_right (ih a)) (ih a)
  | await q k ih => exact ⟨hp.1, fun r => ih r (hp.2 r)⟩

/-- A footprint whose operations are blocks by themselves. -/
theorem Only.blocks {P : I.Op → Prop} {R : I.Req → Prop} (hB : ∀ o, P o → B [o]) :
    ∀ {p : Program I α}, p.Only P R → p.Blocks B [] := by
  intro p
  induction p with
  | ret a => exact fun _ => rfl
  | raise e => exact fun _ => rfl
  | op o k ih => exact fun h => .closes (hB o h.1) fun a => ih a (h.2 a)
  | await q k ih => exact fun h => ⟨rfl, fun r => ih r (h.2 r)⟩

end Program

namespace System

variable {S : System} {α : Type}

/-- Task `i` performs a block. -/
def World.performs (w : S.World) (i : Nat) (os : List S.I.Op) : S.World :=
  os.foldl (fun w o => w.perform i o) w

/-- The last operation is performed last. -/
theorem World.performs_concat (w : S.World) (i : Nat) (os : List S.I.Op) (o : S.I.Op) :
    w.performs i (os ++ [o]) = (w.performs i os).perform i o := by
  simp [performs]

/-- A program in blocks makes only moves, if its blocks are moves wherever they follow `l`, and its
requests and their replies are. -/
theorem Within.blocks {E : S.World → S.World → Prop} {B : List S.I.Op → Prop} {i : Nat}
    {l : S.History} (hB : ∀ os (w : S.World), l <:+ w.log → B os → E w (w.performs i os))
    (hs : ∀ q (w : S.World), E w (w.emit i (.send q)))
    (hr : ∀ q r (w : S.World), E w (w.emit i (.recv q r))) :
    ∀ {p : Program S.I α} (os : List S.I.Op) {s : S.World}, l <:+ s.log →
      l <:+ (s.performs i os).log → p.Blocks B os →
      Within E i (fun _ s w => ReflTransGen E s w) s p (s.performs i os) := by
  have shift : ∀ (_ : Except S.I.Exn α) (s t w : S.World), ReflTransGen E s t →
      ReflTransGen E t w → ReflTransGen E s w := fun _ _ _ _ => .trans
  intro p
  induction p with
  | ret a =>
    intro os s _ _ h
    cases h
    exact ReflTransGen.refl
  | raise e =>
    intro os s _ _ h
    cases h
    exact ReflTransGen.refl
  | op o k ih =>
    intro os s hl hos h
    have hnext : l <:+ (s.performs i (os ++ [o])).log := by
      rw [World.performs_concat]
      exact hos.trans (List.suffix_cons _ _)
    refine Within.step ?_
    rw [← World.performs_concat]
    rcases h _ with ⟨ho, hk⟩ | hk
    · exact Within.shift shift (.single (hB _ _ hl ho)) (ih _ [] hnext hnext hk)
    · exact ih _ _ hl hnext hk
  | await q k ih =>
    intro os s hl _ h
    obtain ⟨rfl, hk⟩ := h
    refine ⟨.single (hs q s), fun r w hw => Within.shift shift (.single (hr q r w)) ?_⟩
    have hnext : l <:+ (w.emit i (.recv q r)).log :=
      ((hl.trans (List.suffix_cons _ _)).trans hw.suffix).trans (List.suffix_cons _ _)
    exact ih r [] hnext hnext (hk r)

/-- An invariant of the history that the blocks of every job keep, and all that is no operation. -/
theorem Reachable.blocks {B : S.Job → List S.I.Op → Prop}
    (hp : ∀ j, (S.program j).Blocks (B j) []) {K : S.History → Prop} (h0 : K [])
    (hB : ∀ i j os (w : S.World), (∃ σ, ⟨i, σ, .spawn j⟩ ∈ w.log) → B j os → K w.log →
      K (w.performs i os).log)
    (he : ∀ (x : Entry S.I S.State S.Job S.Out) (l : S.History), (∀ o a, x.event ≠ .op o a) →
      K l → K (x :: l))
    {σ : S.State} {c : S.Config} (hc : Reachable σ c) : K c.world.log := by
  let E (_ : Nat) (w w' : S.World) : Prop := K w.log → K w'.log
  have hemit (i : Nat) (w : S.World) (e : Event S.I S.Job S.Out) (h : ∀ o a, e ≠ .op o a) :
      E i w (w.emit i e) := he ⟨i, w.state, e⟩ w.log h
  have hserves (i : Nat) (j : S.Job) (w : S.World) (_ : Fresh i w.log) : Serves (E i) i j w := by
    have hblocks : Within (E i) i (fun _ s w => ReflTransGen (E i) s w) (w.emit i (.spawn j))
        (S.program j) ((w.emit i (.spawn j)).performs i []) :=
      Within.blocks (fun os w' hl ho => hB i j os w' ⟨_, hl.subset (.head _)⟩ ho)
        (fun q w' => hemit i w' (.send q) nofun) (fun q r w' => hemit i w' (.recv q r) nofun) []
        List.suffix_rfl List.suffix_rfl (hp j)
    refine Within.shift (fun _ _ _ _ => .trans) (.single (hemit i w (.spawn j) nofun)) ?_
    exact Within.mono (fun x s w' hw => hw.tail (hemit i w' (.finish x) nofun)) hblocks
  have hmoves := hc.moves hserves
  suffices ∀ w, ReflTransGen (Moves E) ⟨σ, []⟩ w → K w.log from this _ hmoves
  intro w hw
  induction hw with
  | refl => exact h0
  | tail _ hs ih =>
    obtain ⟨i, hi⟩ | ⟨σ', -, rfl⟩ := hs
    · exact hi ih
    · exact ih

end System

end Teamspace.Lib
