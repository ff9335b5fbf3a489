import Mathlib.Data.Set.Card
import Mathlib.Logic.Function.Basic

/-!
# Slots counted under a lock

Tasks that take and give back slots, of which there are so many. A counter under a lock says how
many are taken: a task with the lock reads the counter and adds one to it, by which it takes a slot,
or leaves it because there is none; later, with the lock again, it subtracts one. `Stage.next` is
what one task has to keep to by itself, given what it has done so far. `Counted` is what then holds
of the counter, whatever the tasks are and however they are interleaved (`Counted.move`).
-/

namespace Teamspace.Lib.Slots

/-- What a task does that concerns the slots. -/
inductive Move
  | acquire
  | read (n : Int)
  | write (n : Int)
  | release
  deriving DecidableEq, Repr

/-- How far a task is. With the lock and before it writes, it knows what it has read. -/
inductive Stage
  | outside
  | entering (known : List Int)
  | entered
  | inside
  | leaving (known : List Int)
  | left
  | refused
  | closed
  deriving DecidableEq, Repr

namespace Stage

/-- What a task may do at a stage, if there are `max` slots, and how far it is then. -/
def next (max : Int) : Stage → Move → Option Stage
  | outside, .acquire => some (entering [])
  | entering l, .read n => some (entering (n :: l))
  | entering l, .write n => if (∃ m ∈ l, m < max) ∧ n - 1 ∈ l then some entered else none
  | entering l, .release => if ∃ m ∈ l, max ≤ m then some refused else none
  | entered, .release => some inside
  | inside, .acquire => some (leaving [])
  | leaving l, .read n => some (leaving (n :: l))
  | leaving l, .write n => if n + 1 ∈ l then some left else none
  | left, .release => some closed
  | _, _ => none

/-- The task has the lock. -/
def locks : Stage → Bool
  | entering _ | entered | leaving _ | left => true
  | outside | inside | refused | closed => false

/-- The task has a slot. -/
def holds : Stage → Bool
  | entered | inside | leaving _ => true
  | outside | entering _ | left | refused | closed => false

/-- What the task has read since it has the lock. -/
def known : Stage → List Int
  | entering l | leaving l => l
  | outside | entered | inside | left | refused | closed => []

variable {max : Int} {a b : Stage} {n : Int}

/-- Who knows what the counter was has the lock. -/
theorem locks_of_known (h : n ∈ a.known) : a.locks = true := by
  cases a with
  | entering | leaving => rfl
  | outside | entered | inside | left | refused | closed => cases h

/-- Who takes the lock knows nothing yet. -/
theorem next_acquire (h : a.next max .acquire = some b) : b.known = [] ∧ b.holds = a.holds := by
  cases a with
  | outside | inside => cases h; exact ⟨rfl, rfl⟩
  | entering | leaving | entered | left | refused | closed => cases h

/-- Who has the lock reads the counter and knows it. -/
theorem next_read (h : a.next max (.read n) = some b) :
    a.locks = true ∧ b.known = n :: a.known ∧ b.holds = a.holds := by
  cases a with
  | entering | leaving => cases h; exact ⟨rfl, rfl, rfl⟩
  | outside | entered | inside | left | refused | closed => cases h

/-- A task writes with the lock, what it knows, and takes or gives back a slot by it. -/
theorem next_write (h : a.next max (.write n) = some b) :
    a.locks = true ∧ b.known = [] ∧
      ((a.holds = false ∧ b.holds = true ∧ (∃ m ∈ a.known, m < max) ∧ n - 1 ∈ a.known) ∨
        (a.holds = true ∧ b.holds = false ∧ n + 1 ∈ a.known)) := by
  cases a with
  | entering l =>
    rw [next] at h
    split at h
    · next hl => cases h; exact ⟨rfl, rfl, .inl ⟨rfl, rfl, hl⟩⟩
    · cases h
  | leaving l =>
    rw [next] at h
    split at h
    · next hl => cases h; exact ⟨rfl, rfl, .inr ⟨rfl, rfl, hl⟩⟩
    · cases h
  | outside | entered | inside | left | refused | closed => cases h

/-- Who releases the lock knows nothing any more. -/
theorem next_release (h : a.next max .release = some b) :
    a.locks = true ∧ b.locks = false ∧ b.known = [] ∧ b.holds = a.holds := by
  cases a with
  | entering l =>
    rw [next] at h
    split at h
    · cases h; exact ⟨rfl, rfl, rfl, rfl⟩
    · cases h
  | entered | left => cases h; exact ⟨rfl, rfl, rfl, rfl⟩
  | outside | inside | leaving | refused | closed => cases h

/-- How often a task has written the counter. -/
def writes : Stage → Nat
  | outside | entering _ | refused => 0
  | entered | inside | leaving _ => 1
  | left | closed => 2

/-- A task has a slot after it has written the counter and before it writes it again. -/
theorem holds_iff : a.writes = 1 ↔ a.holds = true := by
  cases a with
  | entered | inside | leaving => simp [writes, holds]
  | outside | entering | left | refused | closed => simp [writes, holds]

/-- A write is one more write. -/
theorem writes_write (h : a.next max (.write n) = some b) : b.writes = a.writes + 1 := by
  cases a with
  | entering l =>
    rw [next] at h
    split at h
    · cases h; rfl
    · cases h
  | leaving l =>
    rw [next] at h
    split at h
    · cases h; rfl
    · cases h
  | outside | entered | inside | left | refused | closed => cases h

/-- Nothing else is. -/
theorem writes_same {m : Move} (hm : ∀ n, m ≠ .write n) (h : a.next max m = some b) :
    b.writes = a.writes := by
  cases m with
  | write n => exact absurd rfl (hm n)
  | acquire =>
    cases a with
    | outside | inside => cases h; rfl
    | entering | leaving | entered | left | refused | closed => cases h
  | read n =>
    cases a with
    | entering | leaving => cases h; rfl
    | outside | entered | inside | left | refused | closed => cases h
  | release =>
    cases a with
    | entering l =>
      rw [next] at h
      split at h
      · cases h; rfl
      · cases h
    | entered | left => cases h; rfl
    | outside | inside | leaving | refused | closed => cases h

end Stage

/-- What a move does to the counter and the lock. -/
inductive Move.Does : Move → Int → Bool → Int → Bool → Prop
  | acquire {n : Int} : Does .acquire n false n true
  | read {n : Int} {locked : Bool} : Does (.read n) n locked n locked
  | write {m n : Int} {locked : Bool} : Does (.write n) m locked n locked
  | release {n : Int} {locked : Bool} : Does .release n locked n false

variable {ι : Type} {max : Int}

/-- Who holds a slot. -/
def holders (stage : ι → Stage) : Set ι := {i | (stage i).holds = true}

/-- The counter is the number of slots that are held. -/
structure Counted (max count : Int) (locked : Bool) (stage : ι → Stage) : Prop where
  lock : ∀ i, (stage i).locks = true → locked = true
  alone : ∀ i j, (stage i).locks = true → (stage j).locks = true → i = j
  known : ∀ i, ∀ n ∈ (stage i).known, count = n
  finite : (holders stage).Finite
  held : count = (holders stage).ncard
  le : count ≤ max

/-- At first nobody holds any. -/
theorem Counted.start (h : 0 ≤ max) : Counted max 0 false fun _ : ι => .outside := by
  have hnone : holders (fun _ : ι => Stage.outside) = ∅ := by simp [holders, Stage.holds]
  refine ⟨nofun, nofun, fun _ _ => nofun, ?_, ?_, h⟩
  · rw [hnone]
    exact Set.finite_empty
  · rw [hnone, Set.ncard_empty]
    rfl

/-- The counter is not negative. -/
theorem Counted.nonneg {count : Int} {locked : Bool} {stage : ι → Stage}
    (h : Counted max count locked stage) : 0 ≤ count := by
  rw [h.held]
  exact Int.natCast_nonneg _

/-! ## Moves -/

section

variable {stage : ι → Stage} {i : ι} {b : Stage} {count : Int} {locked : Bool}

/-- While a task has the lock, no other has it. -/
theorem Counted.others (h : Counted max count locked stage) (hi : (stage i).locks = true) :
    ∀ j ≠ i, (stage j).locks = false := by
  intro j hj
  by_contra hl
  exact hj (h.alone j i (by simpa using hl) hi)

/-- While the lock is free, no task has it. -/
theorem Counted.unlocked (h : Counted max count false stage) (j : ι) : (stage j).locks = false := by
  by_contra hl
  exact absurd (h.lock j (by simpa using hl)) Bool.false_ne_true

variable [DecidableEq ι]

/-- Who goes on holding a slot holds it. -/
theorem holders_same (h : b.holds = (stage i).holds) :
    holders (Function.update stage i b) = holders stage := by
  ext j
  by_cases hj : j = i
  · subst hj
    simp [holders, h]
  · simp [holders, hj]

/-- Who takes a slot holds one. -/
theorem holders_take (h : b.holds = true) :
    holders (Function.update stage i b) = insert i (holders stage) := by
  ext j
  by_cases hj : j = i
  · subst hj
    simp [holders, h]
  · simp [holders, hj]

/-- Who gives his slot back holds none. -/
theorem holders_give (h : b.holds = false) :
    holders (Function.update stage i b) = holders stage \ {i} := by
  ext j
  by_cases hj : j = i
  · subst hj
    simp [holders, h]
  · simp [holders, hj]

/-- A task moves while no other has the lock. -/
theorem Counted.put {count' : Int} {locked' : Bool}
    (hothers : ∀ j ≠ i, (stage j).locks = false) (hlock : b.locks = true → locked' = true)
    (hknown : ∀ n ∈ b.known, count' = n)
    (hfinite : (holders (Function.update stage i b)).Finite)
    (hheld : count' = (holders (Function.update stage i b)).ncard) (hle : count' ≤ max) :
    Counted max count' locked' (Function.update stage i b) := by
  have honly : ∀ j, (Function.update stage i b j).locks = true → j = i := by
    intro j hj
    by_contra hne
    rw [Function.update_of_ne hne, hothers j hne] at hj
    cases hj
  refine ⟨fun j hj => ?_, fun j k hj hk => ?_, fun j n hn => ?_, hfinite, hheld, hle⟩
  · obtain rfl := honly j hj
    rw [Function.update_self] at hj
    exact hlock hj
  · rw [honly j hj, honly k hk]
  · obtain rfl := honly j (Stage.locks_of_known hn)
    rw [Function.update_self] at hn
    exact hknown n hn

/-- What a task does by itself keeps the counter right. -/
theorem Counted.move {m : Move} {count' : Int} {locked' : Bool}
    (h : Counted max count locked stage) (hm : (stage i).next max m = some b)
    (hd : m.Does count locked count' locked') :
    Counted max count' locked' (Function.update stage i b) := by
  cases hd with
  | acquire =>
    obtain ⟨hknown, hholds⟩ := Stage.next_acquire hm
    refine .put (fun j _ => h.unlocked j) (fun _ => rfl) ?_ ?_ ?_ h.le
    · rw [hknown]
      exact nofun
    · rw [holders_same hholds]
      exact h.finite
    · rw [holders_same hholds]
      exact h.held
  | read =>
    obtain ⟨hlocks, hknown, hholds⟩ := Stage.next_read hm
    refine .put (h.others hlocks) (fun _ => h.lock i hlocks) ?_ ?_ ?_ h.le
    · rw [hknown]
      intro n hn
      rcases List.mem_cons.1 hn with rfl | hn
      · rfl
      · exact h.known i n hn
    · rw [holders_same hholds]
      exact h.finite
    · rw [holders_same hholds]
      exact h.held
  | write =>
    obtain ⟨hlocks, hknown, htake | hgive⟩ := Stage.next_write hm
    · obtain ⟨ha, hb, ⟨m, hm, hlt⟩, hn⟩ := htake
      have hcount := h.known i m hm
      have hwrite := h.known i _ hn
      have hi : i ∉ holders stage := by simp [holders, ha]
      have hheld := h.held
      refine .put (h.others hlocks) (fun _ => h.lock i hlocks) ?_ ?_ ?_ (by omega)
      · rw [hknown]
        exact nofun
      · rw [holders_take hb]
        exact h.finite.insert i
      · rw [holders_take hb, Set.ncard_insert_of_notMem hi h.finite]
        omega
    · obtain ⟨ha, hb, hn⟩ := hgive
      have hwrite := h.known i _ hn
      have hle := h.le
      have hheld := h.held
      refine .put (h.others hlocks) (fun _ => h.lock i hlocks) ?_ ?_ ?_ (by omega)
      · rw [hknown]
        exact nofun
      · rw [holders_give hb]
        exact h.finite.sdiff
      · have hcard := Set.ncard_sdiff_singleton_add_one (show i ∈ holders stage from ha) h.finite
        rw [holders_give hb]
        omega
  | release =>
    obtain ⟨hlocks, hfree, hknown, hholds⟩ := Stage.next_release hm
    refine .put (h.others hlocks) (fun hl => ?_) ?_ ?_ ?_ h.le
    · rw [hfree] at hl
      cases hl
    · rw [hknown]
      exact nofun
    · rw [holders_same hholds]
      exact h.finite
    · rw [holders_same hholds]
      exact h.held

end

end Teamspace.Lib.Slots
