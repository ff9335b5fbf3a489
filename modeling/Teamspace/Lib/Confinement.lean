import Teamspace.Lib.Table

/-!
# Transactions confined to an owner

A store serves many owners, and `view o` is what it holds of the owner `o`. A transaction on the
store is *confined* to `o` when its result and what it leaves of `o` are functions of what the store
held of `o`, and what the store holds of others stays as it was. A transaction that fails leaves the
whole store as it was.

The rules follow the shape of a transaction: checks that read no state, then reads of the rows of
`o`, then one write of such rows. A `Part` of the store is a table of owned rows, and each access to
it has its rule. The precondition of a rule carries what earlier reads found.
-/

namespace Teamspace.Lib

/-- A program on a state that may fail. -/
abbrev Transaction (ε σ : Type) := StateT σ (Except ε)

variable {ε σ α β ω V : Type}

/-- What follows a check runs when the check succeeds. -/
theorem ok_of_bind {e : Except ε α} {f : α → Except ε β} {b : β} (h : (e >>= f) = .ok b) :
    ∃ a, e = .ok a ∧ f a = .ok b := by
  cases e with
  | error e => cases h
  | ok a => exact ⟨a, rfl, h⟩

namespace Transaction

/-- The result of a transaction and the state that it leaves: the old one if it fails. -/
def outcome (x : Transaction ε σ α) (s : σ) : Except ε α × σ :=
  match x.run s with
  | .ok (a, t) => (.ok a, t)
  | .error e => (.error e, s)

/-- Read the state. -/
def read (q : σ → α) : Transaction ε σ α := fun s => .ok (q s, s)

/-- Write the state. -/
def write (g : σ → σ) : Transaction ε σ Unit := fun s => .ok ((), g s)

/-- Fail, with the state as it was. -/
def fail (e : ε) : Transaction ε σ α := fun _ => .error e

/-- A read gives its value to what follows. -/
theorem outcome_read_bind (q : σ → β) (f : β → Transaction ε σ α) (s : σ) :
    (read q >>= f).outcome s = (f (q s)).outcome s := rfl

/-- So does a value. -/
theorem outcome_ok_bind (b : β) (f : β → Transaction ε σ α) (s : σ) :
    (liftM (.ok b : Except ε β) >>= f : Transaction ε σ α).outcome s = (f b).outcome s := rfl

/-- What holds after a check that reads no state: it failed, or what follows has run. -/
theorem of_checked {R : Except ε α × σ → Prop} {e : Except ε β} {f : β → Transaction ε σ α} {s : σ}
    (herror : ∀ err, e = .error err → R (.error err, s))
    (hok : ∀ a, e = .ok a → R ((f a).outcome s)) :
    R ((liftM e >>= f : Transaction ε σ α).outcome s) := by
  cases e with
  | error err => exact herror err rfl
  | ok a => exact hok a rfl

/-- The same where it does not matter why it failed. -/
theorem of_check {R : Except ε α × σ → Prop} {e : Except ε β} {f : β → Transaction ε σ α} {s : σ}
    (herror : ∀ err, R (.error err, s)) (hok : ∀ a, e = .ok a → R ((f a).outcome s)) :
    R ((liftM e >>= f : Transaction ε σ α).outcome s) := of_checked (fun err _ => herror err) hok

end Transaction

open Transaction

/-- From the states that satisfy `P`, the transaction depends on and changes the view of `o`
only. -/
structure Confined (view : ω → σ → V) (o : ω) (P : σ → Prop) (x : Transaction ε σ α) : Prop where
  agree : ∀ {s s' : σ}, P s → P s' → view o s = view o s' →
    (x.outcome s).1 = (x.outcome s').1 ∧ view o (x.outcome s).2 = view o (x.outcome s').2
  frame : ∀ {s : σ}, P s → ∀ {o' : ω}, o' ≠ o → view o' (x.outcome s).2 = view o' s

namespace Confined

variable {view : ω → σ → V} {o : ω} {P Q : σ → Prop}

/-- A failure is confined. -/
theorem fail (e : ε) : Confined (α := α) view o P (Transaction.fail e) :=
  ⟨fun _ _ h => ⟨rfl, h⟩, fun _ _ _ => rfl⟩

/-- So is a value. -/
theorem pure (a : α) : Confined (ε := ε) view o P (Pure.pure a) :=
  ⟨fun _ _ h => ⟨rfl, h⟩, fun _ _ _ => rfl⟩

/-- A check that reads no state. -/
theorem check {e : Except ε β} {f : β → Transaction ε σ α}
    (h : ∀ a, e = .ok a → Confined view o P (f a)) : Confined view o P (liftM e >>= f) := by
  cases e with
  | error e => exact ⟨fun _ _ h => ⟨rfl, h⟩, fun _ _ _ => rfl⟩
  | ok a => exact h a rfl

/-- A read of the view. What follows knows what was read. -/
theorem read {q : σ → β} {f : β → Transaction ε σ α}
    (hq : ∀ s s', view o s = view o s' → q s = q s')
    (h : ∀ b, Confined view o (fun s => P s ∧ q s = b) (f b)) :
    Confined view o P (Transaction.read q >>= f) where
  agree {s s'} hs hs' hv := by
    have hb := (h (q s)).agree ⟨hs, rfl⟩ ⟨hs', (hq s s' hv).symm⟩ hv
    rw [outcome_read_bind, outcome_read_bind, ← hq s s' hv]
    exact hb
  frame hs _ ho := (h _).frame ⟨hs, rfl⟩ ho

/-- What is confined from more states is confined from fewer. -/
theorem weaken {x : Transaction ε σ α} (h : Confined view o Q x) (hPQ : ∀ s, P s → Q s) :
    Confined view o P x :=
  ⟨fun hs hs' => h.agree (hPQ _ hs) (hPQ _ hs'), fun hs => h.frame (hPQ _ hs)⟩

/-- A write that derives each view from the same view before it, and changes that of `o` only. -/
theorem write {g : σ → σ} (a : α)
    (hg : ∀ s s', P s → P s' → view o s = view o s' → view o (g s) = view o (g s'))
    (hf : ∀ s, P s → ∀ o' ≠ o, view o' (g s) = view o' s) :
    Confined (ε := ε) view o P (Transaction.write g >>= fun _ => Pure.pure a) :=
  ⟨fun hs hs' hv => ⟨rfl, hg _ _ hs hs' hv⟩, fun hs _ ho => hf _ hs _ ho⟩

end Confined

/-! ## Tables of owned rows -/

/-- A table of rows with an owner, as a part of a state with views. `shown` is its part of a view:
the rows of the owner. -/
structure Part {σ V ω : Type} (view : ω → σ → V) (ρ : Type) {κ : Type} (key : ρ → κ)
    [DecidableEq ω] where
  owner : ρ → ω
  table : σ → Table ρ key
  replace : σ → Table ρ key → σ
  shown : V → List ρ
  replaceShown : V → List ρ → V
  shown_view : ∀ o s, shown (view o s) = (table s).select fun r => decide (owner r = o)
  view_replace : ∀ o s t,
    view o (replace s t) = replaceShown (view o s) (t.select fun r => decide (owner r = o))
  replaceShown_shown : ∀ v, replaceShown v (shown v) = v

namespace Part

variable {view : ω → σ → V} {ρ κ : Type} {key : ρ → κ} [DecidableEq ω] (T : Part view ρ key)

/-- `SELECT` the rows that satisfy `q`. -/
def all (q : ρ → Bool) : Transaction ε σ (List ρ) := read fun s => (T.table s).select q

/-- `SELECT` the first row that satisfies `q`. -/
def first (q : ρ → Bool) : Transaction ε σ (Option ρ) := read fun s => (T.table s).first q

/-- `DELETE` the rows that satisfy `q`. -/
def deleteWhere (q : ρ → Bool) : Transaction ε σ Unit := do
  write fun s => T.replace s ((T.table s).deleteWhere q)
  return ()

/-- Whether a row is one of `o`. -/
def owned (o : ω) (r : ρ) : Bool := decide (T.owner r = o)

variable {T} {o : ω} {P : σ → Prop}

/-- A new table with the same rows of an owner leaves the view of that owner. -/
theorem view_replace_eq {s : σ} {t : Table ρ key}
    (h : t.select (T.owned o) = (T.table s).select (T.owned o)) :
    view o (T.replace s t) = view o s := by
  rw [T.view_replace]
  change T.replaceShown (view o s) (t.select (T.owned o)) = view o s
  rw [h]
  exact (congrArg _ (T.shown_view o s).symm).trans (T.replaceShown_shown _)

/-- A write of a table is confined if, of every owner, it derives the new rows from the old ones,
and leaves those of the others. -/
theorem confined_replace (g : Table ρ key → Table ρ key) {k : List ρ → List ρ} (a : α)
    (hown : ∀ s, P s → (g (T.table s)).select (T.owned o) = k ((T.table s).select (T.owned o)))
    (hother : ∀ s, P s → ∀ o' ≠ o,
      (g (T.table s)).select (T.owned o') = (T.table s).select (T.owned o')) :
    Confined (ε := ε) view o P (write (fun s => T.replace s (g (T.table s))) >>= fun _ => pure a) := by
  refine .write a (fun s s' hs hs' hv => ?_) fun s hs o' ho => view_replace_eq (hother s hs o' ho)
  have hrows : (T.table s).select (T.owned o) = (T.table s').select (T.owned o) :=
    (T.shown_view o s).symm.trans ((congrArg T.shown hv).trans (T.shown_view o s'))
  rw [T.view_replace, T.view_replace, hv]
  refine congrArg _ ?_
  exact (hown s hs).trans ((congrArg k hrows).trans (hown s' hs').symm)

/-- Reading the rows of `o`. -/
theorem confined_all {q : ρ → Bool} (hq : ∀ r, q r = true → T.owner r = o) :
    Confined (ε := ε) view o P (T.all q) := by
  have hown (r : ρ) (hr : q r = true) : T.owned o r = true := decide_eq_true (hq r hr)
  refine ⟨fun {s s'} _ _ hv => ⟨congrArg Except.ok ?_, hv⟩, fun _ _ _ => rfl⟩
  change (T.table s).select q = (T.table s').select q
  rw [(T.table s).select_of_select hown, (T.table s').select_of_select hown]
  refine congrArg (List.filter q) ?_
  exact (T.shown_view o s).symm.trans ((congrArg T.shown hv).trans (T.shown_view o s'))

/-- Searching the rows of `o`. -/
theorem confined_first {q : ρ → Bool} {f : Option ρ → Transaction ε σ α}
    (hq : ∀ r, q r = true → T.owner r = o)
    (hnone : Confined view o (fun s => P s ∧ ∀ r ∈ (T.table s).rows, q r = false) (f none))
    (hsome : ∀ r, q r = true →
      Confined view o (fun s => P s ∧ r ∈ (T.table s).rows) (f (some r))) :
    Confined view o P (T.first q >>= f) := by
  have hown (r : ρ) (hr : q r = true) : T.owned o r = true := decide_eq_true (hq r hr)
  refine .read (fun s s' hv => ?_) fun found => ?_
  · rw [(T.table s).first_of_select hown, (T.table s').first_of_select hown]
    refine congrArg (List.find? q) ?_
    exact (T.shown_view o s).symm.trans ((congrArg T.shown hv).trans (T.shown_view o s'))
  · cases found with
    | none => exact hnone.weaken fun s hs => ⟨hs.1, fun r hr => Table.of_first_none hs.2 hr⟩
    | some r =>
      by_cases hr : q r = true
      · exact (hsome r hr).weaken fun s hs => ⟨hs.1, (Table.mem_of_first hs.2).1⟩
      · exact ⟨fun hs => absurd (Table.mem_of_first hs.2).2 hr,
          fun hs => absurd (Table.mem_of_first hs.2).2 hr⟩

/-- Deleting rows of `o`. -/
theorem confined_deleteWhere {q : ρ → Bool}
    (hq : ∀ s, P s → ∀ r ∈ (T.table s).rows, q r = true → T.owner r = o) :
    Confined (ε := ε) view o P (T.deleteWhere q) := by
  refine confined_replace (T := T) (k := List.filter fun r => !q r) (·.deleteWhere q) () (fun s _ => ?_)
    fun s hs o' ho => ?_
  · exact Table.select_deleteWhere ..
  · refine Table.select_deleteWhere_of_not fun r hr ho' => Bool.eq_false_iff.2 fun hqr => ?_
    exact ho ((of_decide_eq_true ho').symm.trans (hq s hs r hr hqr))

/-- What holds after a search. -/
theorem of_first {R : Except ε α × σ → Prop} {q : ρ → Bool} {f : Option ρ → Transaction ε σ α}
    {s : σ} (hnone : R ((f none).outcome s))
    (hsome : ∀ r ∈ (T.table s).rows, q r = true → R ((f (some r)).outcome s)) :
    R ((T.first q >>= f).outcome s) := by
  change R ((f ((T.table s).first q)).outcome s)
  cases hf : (T.table s).first q with
  | none => exact hnone
  | some r => exact hsome r (Table.mem_of_first hf).1 (Table.mem_of_first hf).2

variable [DecidableEq κ]

variable (T) in
/-- `INSERT` a row, or fail with `taken`. -/
def insert (taken : ε) (r : ρ) : Transaction ε σ ρ := fun s =>
  match (T.table s).insert r with
  | none => .error taken
  | some t => .ok (r, T.replace s t)

variable (T) in
/-- `UPDATE` the row with the key of `r`. -/
def update (r : ρ) : Transaction ε σ ρ := do
  write fun s => T.replace s ((T.table s).update r)
  return r

/-- A row with a new key is inserted. -/
theorem outcome_insert {taken : ε} {r : ρ} {s : σ} {t : Table ρ key}
    (h : (T.table s).insert r = some t) :
    (T.insert taken r).outcome s = (.ok r, T.replace s t) := by
  unfold Transaction.outcome
  change (match (match (T.table s).insert r with
    | none => Except.error taken
    | some t => Except.ok (r, T.replace s t)) with
    | .ok (a, t) => (Except.ok a, t)
    | .error e => (Except.error e, s)) = _
  rw [h]

/-- A row with a key that is taken is not. -/
theorem outcome_insert_taken {taken : ε} {r : ρ} {s : σ} (h : (T.table s).insert r = none) :
    (T.insert taken r).outcome s = (.error taken, s) := by
  unfold Transaction.outcome
  change (match (match (T.table s).insert r with
    | none => Except.error taken
    | some t => Except.ok (r, T.replace s t)) with
    | .ok (a, t) => (Except.ok a, t)
    | .error e => (Except.error e, s)) = _
  rw [h]

/-- What holds after an insertion. -/
theorem of_insert {R : Except ε ρ × σ → Prop} {taken : ε} {r : ρ} {s : σ}
    (htaken : R (.error taken, s))
    (hin : ∀ t, (T.table s).insert r = some t → R (.ok r, T.replace s t)) :
    R ((T.insert taken r).outcome s) := by
  cases h : (T.table s).insert r with
  | none => exact outcome_insert_taken h ▸ htaken
  | some t => exact outcome_insert h ▸ hin t h

/-- Inserting a row of `o` with a fresh key. -/
theorem confined_insert {taken : ε} {r : ρ} (hr : T.owner r = o)
    (hfresh : ∀ s, P s → ∀ x ∈ (T.table s).rows, key x ≠ key r) :
    Confined view o P (T.insert taken r) := by
  have hins (s : σ) (hs : P s) : ∃ t, (T.table s).insert r = some t ∧
      (T.insert taken r).outcome s = (.ok r, T.replace s t) := by
    obtain ⟨t, ht⟩ := Table.insert_fresh (t := T.table s) (r := r) fun hk => by
      obtain ⟨x, hx, hxr⟩ := List.mem_map.1 hk
      exact hfresh s hs x hx hxr
    exact ⟨t, ht, outcome_insert ht⟩
  have hsel {s : σ} {t : Table ρ key} (ht : (T.table s).insert r = some t) (o' : ω) :=
    Table.select_insert ht (T.owned o')
  refine ⟨fun {s s'} hs hs' hv => ?_, fun {s} hs o' ho => ?_⟩
  · obtain ⟨t, ht, hout⟩ := hins s hs
    obtain ⟨t', ht', hout'⟩ := hins s' hs'
    rw [hout, hout']
    refine ⟨rfl, ?_⟩
    have hrows : (T.table s).select (T.owned o) = (T.table s').select (T.owned o) :=
      (T.shown_view o s).symm.trans ((congrArg T.shown hv).trans (T.shown_view o s'))
    change view o (T.replace s t) = view o (T.replace s' t')
    rw [T.view_replace, T.view_replace, hv]
    refine congrArg _ ?_
    exact (hsel ht o).trans ((congrArg (· ++ _) hrows).trans (hsel ht' o).symm)
  · obtain ⟨t, ht, hout⟩ := hins s hs
    rw [hout]
    refine view_replace_eq ((hsel ht o').trans ?_)
    have hno : T.owned o' r = false := decide_eq_false fun h => ho (h.symm.trans hr)
    rw [List.filter_cons_of_neg (by rw [hno]; exact Bool.false_ne_true), List.filter_nil,
      List.append_nil]

/-- Updating a row of `o`. -/
theorem confined_update {r r' : ρ} (hk : key r = key r') (hr : T.owner r = o)
    (hr' : T.owner r' = o) (hin : ∀ s, P s → r ∈ (T.table s).rows) :
    Confined (ε := ε) view o P (T.update r') := by
  refine confined_replace (T := T) (k := List.map (Table.replaceBy key r')) (·.update r') r'
    (fun s hs => ?_) fun s hs o' ho => ?_
  · refine Table.select_update (hin s hs) hk ?_
    unfold owned
    rw [hr, hr']
  · have hno {x : ρ} (hx : T.owner x = o) : T.owned o' x = false :=
      decide_eq_false fun h => ho (h.symm.trans hx)
    exact Table.select_update_of_not (hin s hs) hk (hno hr) (hno hr')

end Part

end Teamspace.Lib
