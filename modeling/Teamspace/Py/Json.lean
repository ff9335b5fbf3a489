import Mathlib.Data.Rat.Defs
import Mathlib.Data.List.Forall2
import Mathlib.Data.List.Infix

/-!
# The Python values that travel as JSON

Replies of other services, tool arguments and stored entries are JSON values, read by the services
with `get`, `[]`, `in`, truth tests and arithmetic. Each reader has the outcomes of the Python
operation, the exceptions included: the handlers catch some of them and let the others escape. A
`float` is an exact rational or one of the three values that are none; arithmetic does not round.
-/

namespace Teamspace.Py

/-- The exceptions that the modelled code raises or lets through, by the classes that its
`except` clauses tell apart. `JSONDecodeError` is a `ValueError`. -/
inductive Exn
  | valueError
  | keyError
  | typeError
  | attributeError
  | indexError
  | overflowError
  /-- `httpx.HTTPError`: no response was received. -/
  | httpError
  | httpException (status_code : Nat) (detail : String)
  deriving DecidableEq, Repr

/-- A mapped result comes from a result. -/
theorem map_eq_ok {α β ε : Type} {x : Except ε α} {f : α → β} {b : β} :
    x.map f = .ok b ↔ ∃ a, x = .ok a ∧ b = f a := by
  cases x with
  | ok a =>
    constructor
    · intro h
      exact ⟨a, rfl, (Except.ok.inj h).symm⟩
    · rintro ⟨a', ha, rfl⟩
      cases ha
      rfl
  | error e => exact iff_of_false nofun fun ⟨_, h, _⟩ => nomatch h

/-- A list is mapped exactly if each of its members is. -/
theorem mapM_eq_ok {α β ε : Type} {f : α → Except ε β} {l : List α} {r : List β} :
    l.mapM f = .ok r ↔ List.Forall₂ (fun a b => f a = .ok b) l r := by
  induction l generalizing r with
  | nil =>
    rw [List.mapM_nil, List.forall₂_nil_left_iff]
    exact ⟨fun h => (Except.ok.inj h).symm, fun h => congrArg Except.ok h.symm⟩
  | cons a l ih =>
    rw [List.mapM_cons, List.forall₂_cons_left_iff]
    cases ha : f a with
    | error e => exact iff_of_false nofun fun ⟨_, _, h, _⟩ => nomatch h
    | ok b =>
      cases hl : l.mapM f with
      | error e => exact iff_of_false nofun fun ⟨_, _, _, h, _⟩ => nomatch hl.symm.trans (ih.2 h)
      | ok t =>
        constructor
        · intro h
          cases h
          exact ⟨b, t, rfl, ih.1 hl, rfl⟩
        · rintro ⟨b', t', hb, h, rfl⟩
          cases hb
          cases hl.symm.trans (ih.2 h)
          rfl

/-- A JSON number: `int`, or a `float` with the special values that `json` also reads. -/
inductive Number
  | int (n : Int)
  | float (q : Rat)
  | inf
  | negInf
  | nan
  deriving DecidableEq, Repr

/-- A JSON value. An object keeps the order of its keys, as a `dict` does. -/
inductive Json
  | null
  | bool (b : Bool)
  | num (n : Number)
  | str (s : String)
  | arr (items : List Json)
  | obj (fields : List (String × Json))
  deriving Repr

/-- A `dict` with string keys. -/
abbrev Dict := List (String × Json)

namespace Json

mutual

/-- Equality of values is decidable. -/
def decEq : (a b : Json) → Decidable (a = b)
  | .null, .null => isTrue rfl
  | .bool a, .bool b => decidable_of_iff (a = b) (by simp)
  | .num a, .num b => decidable_of_iff (a = b) (by simp)
  | .str a, .str b => decidable_of_iff (a = b) (by simp)
  | .arr a, .arr b => match decEqItems a b with
    | isTrue h => isTrue (by rw [h])
    | isFalse h => isFalse (by simpa using h)
  | .obj a, .obj b => match decEqFields a b with
    | isTrue h => isTrue (by rw [h])
    | isFalse h => isFalse (by simpa using h)
  | .null, .bool _ | .null, .num _ | .null, .str _ | .null, .arr _ | .null, .obj _
  | .bool _, .null | .bool _, .num _ | .bool _, .str _ | .bool _, .arr _ | .bool _, .obj _
  | .num _, .null | .num _, .bool _ | .num _, .str _ | .num _, .arr _ | .num _, .obj _
  | .str _, .null | .str _, .bool _ | .str _, .num _ | .str _, .arr _ | .str _, .obj _
  | .arr _, .null | .arr _, .bool _ | .arr _, .num _ | .arr _, .str _ | .arr _, .obj _
  | .obj _, .null | .obj _, .bool _ | .obj _, .num _ | .obj _, .str _ | .obj _, .arr _ =>
    isFalse nofun

/-- `decEq` over the items of a list. -/
def decEqItems : (a b : List Json) → Decidable (a = b)
  | [], [] => isTrue rfl
  | [], _ :: _ | _ :: _, [] => isFalse nofun
  | x :: a, y :: b => match decEq x y, decEqItems a b with
    | isTrue h, isTrue h' => isTrue (by rw [h, h'])
    | isFalse h, _ => isFalse fun he => h (List.cons.inj he).1
    | _, isFalse h => isFalse fun he => h (List.cons.inj he).2

/-- `decEq` over the fields of an object. -/
def decEqFields : (a b : List (String × Json)) → Decidable (a = b)
  | [], [] => isTrue rfl
  | [], _ :: _ | _ :: _, [] => isFalse nofun
  | (k, x) :: a, (l, y) :: b => match decEq x y, decEqFields a b with
    | isTrue h, isTrue h' => decidable_of_iff (k = l) (by simp [h, h'])
    | isFalse h, _ => isFalse fun he => h (Prod.mk.inj (List.cons.inj he).1).2
    | _, isFalse h => isFalse fun he => h (List.cons.inj he).2

end

instance : DecidableEq Json := decEq

/-- `bool(v)`. -/
def truthy : Json → Bool
  | .null => false
  | .bool b => b
  | .num (.int n) => n != 0
  | .num (.float q) => q != 0
  | .num _ => true
  | .str s => s != ""
  | .arr l => !l.isEmpty
  | .obj l => !l.isEmpty

end Json

namespace Dict

/-- `d.get(k)`. -/
def get (d : Dict) (k : String) : Option Json := d.lookup k

/-- `{**d, k: v}`, also `d[k] = v`: a key keeps its place. -/
def set : Dict → String → Json → Dict
  | [], k, v => [(k, v)]
  | (k', v') :: d, k, v => if k' = k then (k, v) :: d else (k', v') :: set d k v

/-- `{k': v for k', v in d.items() if k' != k}`. -/
def without (d : Dict) (k : String) : Dict := d.filter fun f => f.1 ≠ k

/-- What was set is there. -/
theorem get_set_self (d : Dict) (k : String) (v : Json) : get (set d k v) k = some v := by
  induction d with
  | nil => simp [set, get]
  | cons f d ih =>
    obtain ⟨k', v'⟩ := f
    rw [set]
    split
    · simp [get]
    · next h =>
      unfold get at ih ⊢
      have : (k == k') = false := by simpa using Ne.symm h
      rw [List.lookup_cons, this]; exact ih

/-- What was set leaves the other keys. -/
theorem get_set_of_ne (d : Dict) {k k' : String} (h : k' ≠ k) (v : Json) :
    get (set d k v) k' = get d k' := by
  induction d with
  | nil =>
    have : (k' == k) = false := by simpa using h
    simp [set, get, List.lookup_cons, this]
  | cons f d ih =>
    obtain ⟨l, w⟩ := f
    unfold get at ih ⊢
    rw [set]
    split
    · next hl =>
      have : (k' == k) = false := by simpa using h
      have : (k' == l) = false := by simpa [hl] using h
      simp [List.lookup_cons, *]
    · rw [List.lookup_cons, List.lookup_cons, ih]

/-- Without the key it does not matter what was set under it. -/
theorem without_set (d : Dict) (k : String) (v : Json) :
    without (set d k v) k = without d k := by
  induction d with
  | nil => simp [set, without]
  | cons f d ih =>
    obtain ⟨k', v'⟩ := f
    rw [set]
    unfold without at ih ⊢
    split
    · next h => simp [h]
    · next h => simpa [h] using ih

/-- Without a key the others are there. -/
theorem get_without_of_ne (d : Dict) {k k' : String} (h : k' ≠ k) :
    get (without d k) k' = get d k' := by
  induction d with
  | nil => rfl
  | cons f d ih =>
    obtain ⟨l, v⟩ := f
    unfold get without at ih ⊢
    rw [List.filter_cons, List.lookup_cons]
    split
    · rw [List.lookup_cons, ih]
    · next hl =>
      have hk : (k' == l) = false := by simpa using fun he => hl (by simpa [← he] using h)
      rw [hk, ih]

end Dict

namespace Json

/-- `v.get(k)`: only a `dict` has the method. -/
def get (v : Json) (k : String) : Except Exn (Option Json) :=
  match v with
  | .obj d => .ok (Dict.get d k)
  | _ => .error .attributeError

/-- `v[k]` for a string `k`. -/
def getItem (v : Json) (k : String) : Except Exn Json :=
  match v with
  | .obj d => match Dict.get d k with
    | some x => .ok x
    | none => .error .keyError
  | _ => .error .typeError

/-- The item of an object is its field. -/
theorem getItem_obj {fields : Dict} {k : String} {v : Json} (h : Dict.get fields k = some v) :
    getItem (.obj fields) k = .ok v := by
  simp only [getItem, h]

/-- `k in v` for a string `k`: a key of a `dict`, an item of a `list`, a part of a `str`. -/
def contains (v : Json) (k : String) : Except Exn Bool :=
  match v with
  | .obj d => .ok (Dict.get d k).isSome
  | .arr l => .ok (decide (.str k ∈ l))
  | .str s => .ok (decide (k.toList <:+: s.toList))
  | _ => .error .typeError

/-- The `int` that is the smallest too large to become a `float`, in absolute value: halfway from
the largest `float` to the next power of two. -/
@[irreducible] def floatBound : Nat := Nat.pow 2 1024 - Nat.pow 2 970

/-- `t + v` for a `float` `t`. A `bool` counts as `0` or `1`; a value that is no number has no
such sum, and neither has an `int` beyond the range of `float`. -/
def addTo (t : Rat) : Json → Except Exn Number
  | .num (.int n) => if n.natAbs < floatBound then .ok (.float (t + n)) else .error .overflowError
  | .num (.float q) => .ok (.float (t + q))
  | .num x => .ok x
  | .bool b => .ok (.float (t + if b then 1 else 0))
  | _ => .error .typeError

end Json

/-- `a or b`. -/
def pyOr (a b : Json) : Json := if a.truthy then a else b

/-- `d.get(k, default)`. -/
def getOr (v : Json) (k : String) (default' : Json) : Except Exn Json := do
  return (← v.get k).getD default'

/-- The items of `for item in v`, which are also those of `list(v)`. -/
def iterate : Json → Except Exn (List Json)
  | .arr l => .ok l
  | .obj d => .ok (d.map fun f => .str f.1)
  | .str s => .ok (s.toList.map fun c => .str (String.singleton c))
  | _ => .error .typeError

/-- `len(v)`. -/
def len : Json → Except Exn Nat
  | .str s => .ok s.length
  | .arr l => .ok l.length
  | .obj d => .ok d.length
  | _ => .error .typeError

namespace Number

/-- `x - q` for a `float`. -/
def sub (x : Number) (q : Rat) : Number :=
  match x with
  | .int n => .float (n - q)
  | .float p => .float (p - q)
  | y => y

/-- `x < q`; `nan` compares with nothing. -/
def lt (x : Number) (q : Rat) : Bool :=
  match x with
  | .int n => decide ((n : Rat) < q)
  | .float p => decide (p < q)
  | .negInf => true
  | .inf | .nan => false

end Number

end Teamspace.Py
