import Mathlib.Data.List.AList
import Mathlib.Data.NNRat.Defs
import Teamspace.Agent.Store
import Teamspace.Lib.Glob
import Teamspace.Py.JsonText
import Teamspace.Py.Str

/-!
# The backends of the store

`InMemoryStore` and `RedisStore` of `agent/store.py`, over composed string keys, and the plain map
that both stand for. The server of a `RedisStore` is a map from strings to strings with expiry
(`Redis`); a scan returns its live keys in some order, maybe more than once (`ScanOrder`). An entry
whose time is over stays in the map, where no command sees it.
-/

namespace Teamspace.Agent

open Teamspace.Lib Teamspace.Py

/-- `_compose`. -/
def composeKey (namespace' key : String) : String :=
  "teamspace:agent:" ++ namespace' ++ ":" ++ key

/-- A name without separators and special characters, such as every nonempty one of letters, digits
and underscores. -/
def PlainNamespace (n : String) : Prop :=
  n ≠ "" ∧ ∀ c ∈ n.toList, c ≠ ':' ∧ Glob.special c = false

instance (n : String) : Decidable (PlainNamespace n) :=
  have := n.toList.decidableBAll fun c => c ≠ ':' ∧ Glob.special c = false
  inferInstanceAs (Decidable (_ ∧ _))

/-! ## Operations -/

/-- `KeyValueStore`: `σ` is what a backend keeps. A read may change it. Each operation is given the
present instant. -/
structure KeyValueStore (σ : Type) where
  get (s : σ) (now : Rat) (namespace' key : String) : Option Json × σ
  set (s : σ) (now : Rat) (namespace' key : String) (value : Json) (ttl : Nat) : σ
  delete (s : σ) (namespace' key : String) : σ
  clear (s : σ) (now : Rat) (namespace' : Option String) : σ

/-- What can happen to a store: an operation, or the passage of time. -/
inductive StoreOp
  | get (namespace' key : String)
  | set (namespace' key : String) (value : Json) (ttl : Nat)
  | delete (namespace' key : String)
  | clear (namespace' : Option String)
  | pass (time : ℚ≥0)

/-- The instant after an operation. -/
def StoreOp.after (now : Rat) : StoreOp → Rat
  | .pass time => now + time
  | _ => now

/-- The instant after operations. -/
def clock (now : Rat) (ops : List StoreOp) : Rat := ops.foldl StoreOp.after now

namespace KeyValueStore

variable {σ : Type}

/-- What a backend keeps after an operation. -/
def step (K : KeyValueStore σ) (now : Rat) (s : σ) : StoreOp → σ
  | .get n k => (K.get s now n k).2
  | .set n k v ttl => K.set s now n k v ttl
  | .delete n k => K.delete s n k
  | .clear n => K.clear s now n
  | .pass _ => s

/-- What a backend keeps after operations that begin at `now`. -/
def run (K : KeyValueStore σ) (now : Rat) (s : σ) : List StoreOp → σ
  | [] => s
  | op :: ops => K.run (op.after now) (K.step now s op) ops

end KeyValueStore

/-! ## The plain map -/

/-- A map from namespaces and keys to values with expiry. -/
def plainMap : KeyValueStore (Expiring (String × String) Json) where
  get m now n k := (m.get now (n, k), m)
  set m now n k v ttl := m.put (n, k) v (if ttl = 0 then none else some (now + ttl))
  delete m n k := m.erase (n, k)
  clear m _ n :=
    match n with
    | none => .empty
    | some n => m.eraseWhere fun k => k.1 = n

/-! ## `InMemoryStore` -/

/-- `InMemoryStore._data`: values and the instants at which they expire, zero for never. -/
abbrev InMemoryStore := AList fun _ : String => Json × Rat

/-- Remove keys from a map. -/
def eraseAll {β : Type} (m : AList fun _ : String => β) (keys : List String) :
    AList fun _ : String => β :=
  keys.foldl (fun m k => m.erase k) m

/-- `InMemoryStore`. -/
def inMemoryStore : KeyValueStore InMemoryStore where
  get data now n k :=
    match data.lookup (composeKey n k) with
    | none => (none, data)
    | some (value, expiresAt) =>
      if expiresAt ≠ 0 ∧ now > expiresAt then (none, data.erase (composeKey n k))
      else (some value, data)
  set data now n k v ttl :=
    let expiresAt := if ttl ≠ 0 then now + ttl else 0
    data.insert (composeKey n k) (v, expiresAt)
  delete data n k := data.erase (composeKey n k)
  clear data _ n :=
    match n with
    | none => ∅
    | some n => eraseAll data (data.keys.filter fun k => startsWith k (composeKey n ""))

/-! ## `RedisStore` -/

/-- A text on the server, and the instant from which it is not there, if there is one. -/
structure RedisEntry where
  raw : String
  expiresAt : Option Rat
  deriving DecidableEq

/-- The entry is still there. -/
def RedisEntry.live (e : RedisEntry) (now : Rat) : Bool :=
  match e.expiresAt with
  | none => true
  | some t => decide (now < t)

/-- The content of a server. -/
abbrev Redis := AList fun _ : String => RedisEntry

/-- The order in which a scan returns keys: each of them at least once. -/
structure ScanOrder where
  list : List String → List String
  mem_list : ∀ keys k, k ∈ list keys ↔ k ∈ keys

namespace Redis

/-- `GET`. -/
def get (db : Redis) (now : Rat) (key : String) : Option String :=
  match db.lookup key with
  | none => none
  | some e => if e.live now then some e.raw else none

/-- `SET`, with the option `EX`. -/
def set (db : Redis) (now : Rat) (key raw : String) (ex : Option Nat) : Redis :=
  db.insert key ⟨raw, ex.map fun ttl => now + ttl⟩

/-- `scan_iter(match=pattern)`. -/
def scanIter (db : Redis) (scan : ScanOrder) (now : Rat) (pattern : String) : List String :=
  (scan.list (db.keys.filter fun k => (get db now k).isSome)).filter (Glob.isMatch pattern)

end Redis

/-- `_batched`, with the batch being filled. -/
def batchedFrom {α : Type} (size : Nat) (batch : List α) : List α → List (List α)
  | [] => if batch.isEmpty then [] else [batch]
  | item :: items =>
    let batch := batch ++ [item]
    if batch.length ≥ size then batch :: batchedFrom size [] items
    else batchedFrom size batch items

/-- `_batched`. -/
def batched {α : Type} (items : List α) (size : Nat) : List (List α) := batchedFrom size [] items

namespace RedisStore

/-- `RedisStore._key`. -/
def key (keyPrefix namespace' key : String) : String := keyPrefix ++ composeKey namespace' key

/-- The part of a pattern that restricts it to a namespace. -/
def scope : Option String → String
  | none => ""
  | some n => if n ≠ "" then n ++ ":" else ""

/-- What the keys begin with that are the store's own, in a namespace or altogether. -/
def owned (keyPrefix : String) (namespace' : Option String) : String :=
  keyPrefix ++ "teamspace:agent:" ++ scope namespace'

/-- `RedisStore.clear`. -/
def clear (scan : ScanOrder) (keyPrefix : String) (db : Redis) (now : Rat)
    (namespace' : Option String) : Redis :=
  let pattern := keyPrefix ++ "teamspace:agent:" ++ scope namespace' ++ "*"
  (batched (db.scanIter scan now pattern) 500).foldl
    (fun db chunk => if chunk.isEmpty then db else eraseAll db chunk) db

end RedisStore

/-- `RedisStore`. Texts that are not JSON are misses. -/
def redisStore (F : FloatText) (scan : ScanOrder) (keyPrefix : String) : KeyValueStore Redis where
  get db now n k :=
    match db.get now (RedisStore.key keyPrefix n k) with
    | none => (none, db)
    | some raw =>
      match loads F raw with
      | .ok v => (some v, db)
      | .error _ => (none, db)
  set db now n k v ttl :=
    db.set now (RedisStore.key keyPrefix n k) (dumps F v) (if ttl = 0 then none else some ttl)
  delete db n k := db.erase (RedisStore.key keyPrefix n k)
  clear db now n := RedisStore.clear scan keyPrefix db now n

/-! ## Keys -/

section
variable {n n' k k' : String}

/-- The managers' namespaces. -/
theorem Namespace.plain (n : Namespace) : PlainNamespace n.name := by
  cases n <;> decide

/-- A plain namespace has no separator. -/
theorem PlainNamespace.sep_not_mem (hn : PlainNamespace n) : ':' ∉ n.toList :=
  fun h => (hn.2 _ h).1 rfl

/-- A key: its prefix, the namespace, the separator and the rest. -/
theorem composeKey_toList (n k : String) : (composeKey n k).toList =
    "teamspace:agent:".toList ++ (n.toList ++ ':' :: k.toList) := keyText_toList n k

/-- Two distinct pairs never share a composed key. -/
theorem composeKey_inj (hn : PlainNamespace n) (hn' : PlainNamespace n') :
    composeKey n k = composeKey n' k' ↔ n = n' ∧ k = k' := by
  constructor
  · intro h
    have h := congrArg String.toList h
    rw [composeKey_toList, composeKey_toList] at h
    obtain ⟨hl, hr⟩ := append_sep_inj hn.sep_not_mem hn'.sep_not_mem (List.append_cancel_left h)
    exact ⟨String.toList_inj.1 hl, String.toList_inj.1 hr⟩
  · rintro ⟨rfl, rfl⟩
    rfl

/-- The keys of a namespace are those that begin with its composed key for the empty string. -/
theorem startsWith_composeKey (hn : PlainNamespace n) (hn' : PlainNamespace n') :
    startsWith (composeKey n k) (composeKey n' "") = true ↔ n = n' := by
  rw [startsWith, decide_eq_true_eq, composeKey_toList, composeKey_toList]
  constructor
  · rintro ⟨t, ht⟩
    rw [List.append_assoc] at ht
    have ht := List.append_cancel_left ht
    rw [List.append_assoc, List.cons_append] at ht
    exact String.toList_inj.1 (append_sep_inj hn'.sep_not_mem hn.sep_not_mem ht).1.symm
  · rintro rfl
    exact ⟨k.toList, by rw [List.append_assoc, List.append_assoc]; rfl⟩

namespace RedisStore

/-- What a store owns begins with its prefix and the scope. -/
theorem owned_toList (keyPrefix : String) (scope' : Option String) :
    (owned keyPrefix scope').toList =
      keyPrefix.toList ++ ("teamspace:agent:" ++ scope scope').toList := by
  simp only [owned, String.toList_append, List.append_assoc]

/-- A key of Redis is one of the store behind the prefix. -/
theorem key_toList (keyPrefix n k : String) :
    (key keyPrefix n k).toList = keyPrefix.toList ++ (composeKey n k).toList :=
  String.toList_append

/-- What the keys of a namespace begin with is free of special characters. -/
theorem scope_plain {scope' : Option String} (h : ∀ n ∈ scope', PlainNamespace n) :
    Glob.Plain ("teamspace:agent:" ++ scope scope').toList := by
  have hbase : Glob.Plain "teamspace:agent:".toList := by decide
  have hsep : Glob.Plain ":".toList := by decide
  intro c hc
  rw [String.toList_append, List.mem_append] at hc
  rcases hc with hc | hc
  · exact hbase c hc
  · cases scope' with
    | none => cases hc
    | some n =>
      rw [scope, if_pos (h n rfl).1, String.toList_append, List.mem_append] at hc
      exact hc.elim (fun hc => ((h n rfl).2 c hc).2) (hsep c)

/-- The keys in the scope of a namespace are those of the namespace. -/
theorem owned_some {keyPrefix : String} (hn : PlainNamespace n) (hn' : PlainNamespace n') :
    (owned keyPrefix (some n)).toList <+: (key keyPrefix n' k).toList ↔ n' = n := by
  have hscope : ("teamspace:agent:" ++ scope (some n)).toList = (composeKey n "").toList := by
    rw [composeKey_toList, scope, if_pos hn.1]
    simp only [String.toList_append]
    rfl
  rw [owned_toList, key_toList, List.prefix_append_right_inj, hscope]
  have h := startsWith_composeKey (k := k) hn' hn
  rwa [startsWith, decide_eq_true_eq] at h

/-- Every key of the store begins with what it owns. -/
theorem owned_none (keyPrefix n k : String) :
    (owned keyPrefix none).toList <+: (key keyPrefix n k).toList := by
  rw [owned_toList, key_toList, List.prefix_append_right_inj, composeKey_toList, scope,
    String.append_empty]
  exact List.prefix_append _ _

end RedisStore

end

/-! ## Removing keys -/

/-- What is erased is gone, and the rest is there. -/
theorem lookup_eraseAll {β : Type} (m : AList fun _ : String => β) (keys : List String)
    (k : String) : (eraseAll m keys).lookup k = if k ∈ keys then none else m.lookup k := by
  induction keys generalizing m with
  | nil => rfl
  | cons l keys ih =>
    change (eraseAll (m.erase l) keys).lookup k = _
    rw [ih]
    by_cases hl : k = l
    · subst hl
      rw [AList.lookup_erase, ite_self, if_pos (.head _)]
    · rw [AList.lookup_erase_ne hl]
      simp only [List.mem_cons, hl, false_or]

/-- The batches make up the items. -/
theorem flatten_batchedFrom {α : Type} {size : Nat} (batch items : List α) :
    (batchedFrom size batch items).flatten = batch ++ items := by
  induction items generalizing batch with
  | nil =>
    rw [batchedFrom]
    split
    · next h => rw [List.isEmpty_iff.1 h]; rfl
    · simp
  | cons item items ih =>
    simp only [batchedFrom]
    split
    · rw [List.flatten_cons, ih, List.append_assoc]
      rfl
    · rw [ih, List.append_assoc]
      rfl

/-- The batches are the items, in their order. -/
theorem flatten_batched {α : Type} (items : List α) (size : Nat) :
    (batched items size).flatten = items := flatten_batchedFrom [] items

/-- Erasing batch by batch erases all. -/
theorem eraseAll_batches {β : Type} (m : AList fun _ : String => β) (batches : List (List String)) :
    batches.foldl (fun m chunk => if chunk.isEmpty then m else eraseAll m chunk) m =
      eraseAll m batches.flatten := by
  induction batches generalizing m with
  | nil => rfl
  | cons chunk batches ih =>
    rw [List.foldl_cons, ih, List.flatten_cons, eraseAll, eraseAll, eraseAll, List.foldl_append]
    split
    · next h => rw [List.isEmpty_iff.1 h]; rfl
    · rfl

namespace Redis

/-- What is not in Redis is not read. -/
theorem get_of_none {db : Redis} {k : String} (h : db.lookup k = none) (now : Rat) :
    db.get now k = none := by
  rw [get, h]

/-- What is in Redis is read while it is alive. -/
theorem get_of_some {db : Redis} {k : String} {e : RedisEntry} (h : db.lookup k = some e)
    (now : Rat) : db.get now k = if e.live now then some e.raw else none := by
  rw [get, h]

/-- What is read depends on its own entry. -/
theorem get_congr {db db' : Redis} {k : String} (h : db'.lookup k = db.lookup k) {now : Rat} :
    db'.get now k = db.get now k := by
  rw [get, get, h]

/-- A scan returns the keys that are alive and match. -/
theorem mem_scanIter {db : Redis} {scan : ScanOrder} {now : Rat} {pattern k : String} :
    k ∈ db.scanIter scan now pattern ↔
      (get db now k).isSome = true ∧ Glob.isMatch pattern k = true := by
  rw [scanIter, List.mem_filter, scan.mem_list, List.mem_filter]
  constructor
  · rintro ⟨⟨-, hlive⟩, hm⟩
    exact ⟨hlive, hm⟩
  · rintro ⟨hlive, hm⟩
    refine ⟨⟨?_, hlive⟩, hm⟩
    rw [← AList.mem_keys, ← AList.lookup_isSome]
    unfold get at hlive
    split at hlive
    · cases hlive
    · next he => rw [he]; rfl

end Redis

/-- `clear` removes the live keys that match its pattern. -/
theorem RedisStore.lookup_clear (scan : ScanOrder) (keyPrefix : String) (db : Redis) (now : Rat)
    (n : Option String) (k : String) : (clear scan keyPrefix db now n).lookup k =
      if (db.get now k).isSome ∧ Glob.isMatch (owned keyPrefix n ++ "*") k = true
      then none else db.lookup k := by
  rw [clear, eraseAll_batches, flatten_batched, lookup_eraseAll]
  simp only [Redis.mem_scanIter]
  rfl

/-- After `clear` no key that matches its pattern is there, and the others are as before. -/
theorem RedisStore.get_clear (scan : ScanOrder) (keyPrefix : String) (db : Redis) (now : Rat)
    (n : Option String) (k : String) : (clear scan keyPrefix db now n).get now k =
      if Glob.isMatch (owned keyPrefix n ++ "*") k = true then none else db.get now k := by
  have h := lookup_clear scan keyPrefix db now n k
  split at h
  · next hc => rw [Redis.get_of_none h, if_pos hc.2]
  · next hc =>
    rw [Redis.get_congr h]
    split
    · next hm =>
      rw [← Option.not_isSome_iff_eq_none]
      exact fun hs => hc ⟨hs, hm⟩
    · rfl

/-- With a plain prefix, the keys that match the pattern of `clear` are those in its scope. -/
theorem RedisStore.isMatch_owned {keyPrefix : String} (hp : Glob.Plain keyPrefix.toList)
    {scope' : Option String} (h : ∀ n ∈ scope', PlainNamespace n) {k : String} :
    Glob.isMatch (owned keyPrefix scope' ++ "*") k = true ↔
      (owned keyPrefix scope').toList <+: k.toList := by
  have hstar : "*".toList = ['*'] := rfl
  have hplain : Glob.Plain (owned keyPrefix scope').toList := by
    rw [owned_toList]
    exact fun c hc => (List.mem_append.1 hc).elim (hp c) (scope_plain h c)
  rw [Glob.isMatch, String.toList_append, hstar, Glob.accept_plain_star hplain]

end Teamspace.Agent
