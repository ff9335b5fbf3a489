import Mathlib.Algebra.Order.Ring.Unbundled.Rat
import Mathlib.Logic.Function.Basic

/-!
# Maps whose entries expire

A map from keys to values in which an entry may carry an instant after which it is as if it were
not there. Reading takes the present instant. An entry read at an instant is read the same at every
earlier one (`get_of_le`), so time only ever removes values.
-/

namespace Teamspace.Lib

/-- A value and the last instant at which it may be read, if there is one. -/
structure Lease (β : Type) where
  value : β
  expiresAt : Option Rat

/-- A map from keys to values with expiry. -/
def Expiring (κ β : Type) : Type := κ → Option (Lease β)

namespace Lease

/-- The entry may still be read. -/
def live {β : Type} (e : Lease β) (now : Rat) : Bool :=
  match e.expiresAt with
  | none => true
  | some t => decide (now ≤ t)

/-- What is alive later is alive now. -/
theorem live_of_le {β : Type} {e : Lease β} {now now' : Rat} (h : now ≤ now')
    (he : e.live now' = true) : e.live now = true := by
  unfold live at he ⊢
  split at he
  · rfl
  · simp only [decide_eq_true_eq] at he ⊢
    exact h.trans he

end Lease

namespace Expiring

variable {κ β : Type}

/-- No entries. -/
def empty : Expiring κ β := fun _ => none

/-- The value under `k` at instant `now`. -/
def get (m : Expiring κ β) (now : Rat) (k : κ) : Option β :=
  match m k with
  | some e => if e.live now then some e.value else none
  | none => none

/-- What is read later is read now. -/
theorem get_of_le {m : Expiring κ β} {now now' : Rat} {k : κ} {v : β} (h : now ≤ now')
    (hv : m.get now' k = some v) : m.get now k = some v := by
  unfold get at hv ⊢
  split at hv
  · next e he =>
    split at hv
    · next hl => rw [if_pos (Lease.live_of_le h hl)]; exact hv
    · cases hv
  · cases hv

@[simp] theorem get_empty (now : Rat) (k : κ) : (empty : Expiring κ β).get now k = none := rfl

/-- Remove what is under the keys that satisfy `p`. -/
def eraseWhere (m : Expiring κ β) (p : κ → Bool) : Expiring κ β :=
  fun k => if p k then none else m k

variable [DecidableEq κ]

/-- Write `v` under `k`. -/
def put (m : Expiring κ β) (k : κ) (v : β) (expiresAt : Option Rat) : Expiring κ β :=
  Function.update m k (some ⟨v, expiresAt⟩)

/-- Remove what is under `k`. -/
def erase (m : Expiring κ β) (k : κ) : Expiring κ β := Function.update m k none

@[simp] theorem put_self (m : Expiring κ β) (k : κ) (v : β) (t : Option Rat) :
    (m.put k v t) k = some ⟨v, t⟩ := Function.update_self ..

@[simp] theorem erase_self (m : Expiring κ β) (k : κ) : (m.erase k) k = none :=
  Function.update_self ..

/-- A write leaves the other keys. -/
theorem put_of_ne (m : Expiring κ β) {k k' : κ} (h : k' ≠ k) (v : β) (t : Option Rat) :
    (m.put k v t) k' = m k' := Function.update_of_ne h ..

/-- So does a deletion. -/
theorem erase_of_ne (m : Expiring κ β) {k k' : κ} (h : k' ≠ k) : (m.erase k) k' = m k' :=
  Function.update_of_ne h ..

/-- After a write the other keys are read as before. -/
theorem get_put_of_ne (m : Expiring κ β) {k k' : κ} (h : k' ≠ k) (v : β) (t : Option Rat)
    (now : Rat) : (m.put k v t).get now k' = m.get now k' := by
  unfold get; rw [put_of_ne m h]

/-- So they are after a deletion. -/
theorem get_erase_of_ne (m : Expiring κ β) {k k' : κ} (h : k' ≠ k) (now : Rat) :
    (m.erase k).get now k' = m.get now k' := by
  unfold get; rw [erase_of_ne m h]

@[simp] theorem get_erase_self (m : Expiring κ β) (k : κ) (now : Rat) :
    (m.erase k).get now k = none := by
  unfold get; rw [erase_self]

/-- What was written is read while it is alive. -/
theorem get_put_live (m : Expiring κ β) (k : κ) {v : β} {t : Option Rat} {now : Rat}
    (h : (Lease.mk v t).live now = true) : (m.put k v t).get now k = some v := by
  unfold get; rw [put_self]; exact if_pos h

/-- What a write leaves under a key depends on what was there. -/
theorem put_congr {m m' : Expiring κ β} {x : κ} (h : m x = m' x) (k : κ) (v : β) (t : Option Rat) :
    (m.put k v t) x = (m'.put k v t) x := by
  by_cases hx : x = k
  · rw [hx, put_self, put_self]
  · rw [put_of_ne m hx, put_of_ne m' hx, h]

/-- So does what a deletion leaves. -/
theorem erase_congr {m m' : Expiring κ β} {x : κ} (h : m x = m' x) (k : κ) :
    (m.erase k) x = (m'.erase k) x := by
  by_cases hx : x = k
  · rw [hx, erase_self, erase_self]
  · rw [erase_of_ne m hx, erase_of_ne m' hx, h]

/-- What is read after a write under the same key is what was written. -/
theorem get_put_self {m : Expiring κ β} {k : κ} {v x : β} {t : Option Rat} {now : Rat}
    (h : (m.put k v t).get now k = some x) : x = v := by
  unfold get at h
  rw [put_self] at h
  dsimp only at h
  split at h
  · exact (Option.some.inj h).symm
  · cases h

end Expiring

end Teamspace.Lib
