import Mathlib.Data.List.Nodup

/-!
# Keyed tables

A table of a relational database with a primary key: rows in the order of their insertion, with
distinct keys. A *view* (`select p`) are the rows that satisfy `p`. The lemmas below say what each
write does to every view, so that two tables with equal views can be compared, and a write outside a
view be told apart.
-/

namespace Teamspace.Lib

/-- Rows with distinct keys. -/
structure Table (ρ : Type) {κ : Type} (key : ρ → κ) where
  rows : List ρ
  nodup : (rows.map key).Nodup

namespace Table

variable {ρ κ : Type} {key : ρ → κ}

/-- A table without rows. -/
def empty : Table ρ key := ⟨[], List.nodup_nil⟩

/-- The rows that satisfy `p`. -/
def select (t : Table ρ key) (p : ρ → Bool) : List ρ := t.rows.filter p

/-- The first row that satisfies `p`. -/
def first (t : Table ρ key) (p : ρ → Bool) : Option ρ := t.rows.find? p

/-- Delete the rows that satisfy `p`. -/
def deleteWhere (t : Table ρ key) (p : ρ → Bool) : Table ρ key :=
  ⟨t.rows.filter fun r => !p r, t.nodup.sublist (List.filter_sublist.map key)⟩

/-! ## Rows -/

/-- Rows with the same key are the same. -/
theorem eq_of_key {t : Table ρ key} {r r' : ρ} (hr : r ∈ t.rows) (hr' : r' ∈ t.rows)
    (h : key r = key r') : r = r' := List.inj_on_of_nodup_map t.nodup hr hr' h

/-- The first row with a property is in the table and has it. -/
theorem mem_of_first {t : Table ρ key} {p : ρ → Bool} {r : ρ} (h : t.first p = some r) :
    r ∈ t.rows ∧ p r = true := ⟨List.mem_of_find?_eq_some h, List.find?_some h⟩

/-- If there is no first row with a property, no row has it. -/
theorem of_first_none {t : Table ρ key} {p : ρ → Bool} (h : t.first p = none) {r : ρ}
    (hr : r ∈ t.rows) : p r = false := by simpa using List.find?_eq_none.1 h r hr

/-- A deletion leaves the rows without the property. -/
theorem mem_deleteWhere {t : Table ρ key} {p : ρ → Bool} {r : ρ} :
    r ∈ (t.deleteWhere p).rows ↔ r ∈ t.rows ∧ p r = false := by
  unfold deleteWhere
  rw [List.mem_filter, Bool.not_eq_true']

/-- The row with a key is found by the key. -/
theorem first_key [DecidableEq κ] {t : Table ρ key} {r : ρ} (hr : r ∈ t.rows) :
    (t.first fun x => decide (key x = key r)) = some r := by
  cases h : t.first fun x => decide (key x = key r) with
  | none => exact absurd rfl (of_decide_eq_false (of_first_none h hr))
  | some x =>
    obtain ⟨hx, hkey⟩ := mem_of_first h
    rw [eq_of_key hx hr (of_decide_eq_true hkey)]

/-! ## Views -/

/-- A search within a view. -/
theorem first_of_select (t : Table ρ key) {p q : ρ → Bool} (h : ∀ r, p r = true → q r = true) :
    t.first p = (t.select q).find? p := by
  unfold first select
  rw [List.find?_filter]
  refine congrArg (List.find? · t.rows) (funext fun r => ?_)
  cases hp : p r with
  | false => simp
  | true => simp [h r hp]

/-- The first row is the head of all that are selected. -/
theorem head?_select (t : Table ρ key) (p : ρ → Bool) : (t.select p).head? = t.first p :=
  List.head?_filter

/-- A selection can be made from a wider one. -/
theorem select_of_select (t : Table ρ key) {p q : ρ → Bool} (h : ∀ r, p r = true → q r = true) :
    t.select p = (t.select q).filter p := by
  unfold select
  rw [List.filter_filter]
  refine List.filter_congr fun r _ => ?_
  cases hp : p r with
  | false => rfl
  | true => simp [h r hp]

/-- A selection after a deletion has the rows that are left. -/
theorem select_deleteWhere (t : Table ρ key) (p q : ρ → Bool) :
    (t.deleteWhere q).select p = (t.select p).filter fun r => !q r := by
  unfold select deleteWhere
  rw [List.filter_filter, List.filter_filter]
  exact List.filter_congr fun r _ => Bool.and_comm ..

/-- A deletion out of the view leaves the view. -/
theorem select_deleteWhere_of_not {t : Table ρ key} {p q : ρ → Bool}
    (h : ∀ r ∈ t.rows, p r = true → q r = false) : (t.deleteWhere q).select p = t.select p := by
  rw [select_deleteWhere]
  refine List.filter_eq_self.2 fun r hr => ?_
  obtain ⟨hr, hp⟩ := List.mem_filter.1 hr
  rw [h r hr hp]
  rfl

/-- Rows that satisfy the search are gone after the deletion. -/
theorem first_deleteWhere {t : Table ρ key} {p q : ρ → Bool} (h : ∀ r, q r = true → p r = true) :
    (t.deleteWhere p).first q = none := by
  refine List.find?_eq_none.2 fun r hr hq => ?_
  have hkept := (mem_deleteWhere.1 hr).2
  rw [h r hq] at hkept
  cases hkept

/-! ## Insertion and update -/

variable [DecidableEq κ]

/-- Insert a row, unless its key is taken. -/
def insert (t : Table ρ key) (r : ρ) : Option (Table ρ key) :=
  if h : key r ∈ t.rows.map key then none
  else some ⟨t.rows ++ [r], by
    rw [List.map_append, List.nodup_append]
    refine ⟨t.nodup, List.nodup_singleton _, fun a ha b hb hab => h ?_⟩
    rw [← List.mem_singleton.1 hb, ← hab]
    exact ha⟩

/-- Put `r'` in the place of the row with its key. -/
def replaceBy (key : ρ → κ) (r' r : ρ) : ρ := if key r = key r' then r' else r

/-- A replacement keeps the key. -/
theorem key_replaceBy (r' r : ρ) : key (replaceBy key r' r) = key r := by
  unfold replaceBy
  split
  · next h => exact h.symm
  · rfl

/-- Update the row with the key of `r'` to `r'`. -/
def update (t : Table ρ key) (r' : ρ) : Table ρ key :=
  ⟨t.rows.map (replaceBy key r'), by
    rw [List.map_map]
    exact (congrArg List.Nodup (List.map_congr_left fun r _ => key_replaceBy r' r)).mpr t.nodup⟩

/-- A row is inserted at the end, under a new key. -/
theorem rows_of_insert {t t' : Table ρ key} {r : ρ} (h : t.insert r = some t') :
    key r ∉ t.rows.map key ∧ t'.rows = t.rows ++ [r] := by
  unfold insert at h
  split at h
  · cases h
  · next hk =>
    cases h
    exact ⟨hk, rfl⟩

/-- A fresh key is not taken. -/
theorem insert_fresh {t : Table ρ key} {r : ρ} (h : key r ∉ t.rows.map key) :
    ∃ t', t.insert r = some t' := ⟨_, dif_neg h⟩

/-- An update leaves the new row, and those with other keys. -/
theorem mem_update {t : Table ρ key} {r' x : ρ} (h : x ∈ (t.update r').rows) :
    x = r' ∨ (x ∈ t.rows ∧ key x ≠ key r') := by
  obtain ⟨y, hy, rfl⟩ := List.mem_map.1 h
  unfold replaceBy
  split
  · exact .inl rfl
  · next hk => exact .inr ⟨hy, hk⟩

/-- A row with another key is left. -/
theorem mem_update_of_ne {t : Table ρ key} {r' x : ρ} (h : x ∈ t.rows) (hk : key x ≠ key r') :
    x ∈ (t.update r').rows := List.mem_map.2 ⟨x, h, if_neg hk⟩

/-- The new row is there if there was one with its key. -/
theorem mem_update_self {t : Table ρ key} {r r' : ρ} (h : r ∈ t.rows) (hk : key r = key r') :
    r' ∈ (t.update r').rows := List.mem_map.2 ⟨r, h, if_pos hk⟩

/-- A selection after an insertion ends with the new row, if it has the property. -/
theorem select_insert {t t' : Table ρ key} {r : ρ} (h : t.insert r = some t') (p : ρ → Bool) :
    t'.select p = t.select p ++ [r].filter p := by
  rw [select, (rows_of_insert h).2, List.filter_append]
  rfl

/-- An update that keeps its row in the view, or out of it, updates the view. -/
theorem select_update {t : Table ρ key} {r r' : ρ} (hr : r ∈ t.rows) (hk : key r = key r')
    {p : ρ → Bool} (hp : p r = p r') :
    (t.update r').select p = (t.select p).map (replaceBy key r') := by
  unfold select update
  rw [List.filter_map]
  congr 1
  refine List.filter_congr fun x hx => ?_
  unfold Function.comp replaceBy
  split
  · next h =>
    rw [eq_of_key hx hr (h.trans hk.symm)]
    exact hp.symm
  · rfl

/-- An update out of the view leaves the view. -/
theorem select_update_of_not {t : Table ρ key} {r r' : ρ} (hr : r ∈ t.rows)
    (hk : key r = key r') {p : ρ → Bool} (hp : p r = false) (hp' : p r' = false) :
    (t.update r').select p = t.select p := by
  rw [select_update hr hk (hp.trans hp'.symm)]
  refine (List.map_congr_left fun x hx => ?_).trans (List.map_id _)
  have hx := List.mem_filter.1 hx
  refine if_neg fun h => ?_
  rw [eq_of_key hx.1 hr (h.trans hk.symm), hp] at hx
  exact Bool.false_ne_true hx.2

end Table

end Teamspace.Lib
