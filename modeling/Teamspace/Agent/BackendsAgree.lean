import Mathlib.Algebra.Order.Field.Rat
import Teamspace.Agent.Backends

/-!
# The backends agree

Each backend is related to the plain map by what it keeps under the composed key of every pair
(`InMemoryStore.Stands`, `RedisStore.Stands`). The two differ in what they do with an entry whose
time is over: `InMemoryStore` drops it when it is read, the server keeps it out of sight, so it may
be gone from the one and left in the other. Operations and the passage of time keep both relations
(`run_related`), so reads after any of them return what the plain map has (`backends_agree`).
-/

namespace Teamspace.Agent

open Teamspace.Lib Teamspace.Py

/-- The operation is about plain namespaces, and what it writes is a value. -/
def StoreOp.Allowed (F : FloatText) : StoreOp → Prop
  | .get n _ | .delete n _ => PlainNamespace n
  | .set n _ v _ => PlainNamespace n ∧ v.IsValue F
  | .clear n => ∀ m ∈ n, PlainNamespace m
  | .pass _ => True

/-- An operation ends no earlier than it begins. -/
theorem StoreOp.le_after (now : Rat) (op : StoreOp) : now ≤ op.after now := by
  cases op with
  | pass time => exact le_add_of_nonneg_right time.2
  | get | set | delete | clear => exact le_rfl

/-- A relation between what two stores keep that every operation preserves holds after all. -/
theorem KeyValueStore.run_related {σ τ : Type} {K : KeyValueStore σ} {L : KeyValueStore τ}
    {R : Rat → σ → τ → Prop} {P : StoreOp → Prop}
    (hstep : ∀ {now s t op}, P op → R now s t → R (op.after now) (K.step now s op) (L.step now t op))
    {ops : List StoreOp} (hops : ∀ op ∈ ops, P op) {now : Rat} {s : σ} {t : τ} (h : R now s t) :
    R (clock now ops) (K.run now s ops) (L.run now t ops) := by
  induction ops generalizing now s t with
  | nil => exact h
  | cons op ops ih =>
    exact ih (fun o ho => hops o (.tail _ ho)) (hstep (hops op (.head _)) h)

variable {now : Rat} {n n' k k' : String}

/-! ## `InMemoryStore` -/

/-- What `InMemoryStore` keeps of an entry. -/
def storedEntry (e : Lease Json) : Json × Rat := (e.value, e.expiresAt.getD 0)

/-- What `InMemoryStore` has for an entry of the plain map, dropped if it cannot be read. -/
def MemoryEntry (now : Rat) (stored : Option (Json × Rat)) (e : Option (Lease Json)) : Prop :=
  stored = e.map storedEntry ∨ stored = none ∧ ∀ l ∈ e, l.live now = false

/-- `InMemoryStore` stands for the plain map. No entry expires at zero, which would mean never. -/
structure InMemoryStore.Stands (now : Rat) (data : InMemoryStore)
    (m : Expiring (String × String) Json) : Prop where
  now_nonneg : 0 ≤ now
  expiresAt_pos : ∀ p, ∀ e ∈ m p, ∀ t ∈ e.expiresAt, 0 < t
  entry : ∀ n k, PlainNamespace n → MemoryEntry now (data.lookup (composeKey n k)) (m (n, k))

/-- Time does not bring an entry back. -/
theorem live_of_le {e : Lease Json} {now' : Rat} (h : now ≤ now') (he : e.live now = false) :
    e.live now' = false :=
  Bool.eq_false_iff.2 fun hl => Bool.eq_false_iff.1 he (Lease.live_of_le h hl)

/-- What is stored of an entry goes with the entry later as well. -/
theorem MemoryEntry.mono {stored : Option (Json × Rat)} {e : Option (Lease Json)} {now' : Rat}
    (h : MemoryEntry now stored e) (hle : now ≤ now') : MemoryEntry now' stored e :=
  h.imp id fun ⟨hs, hd⟩ => ⟨hs, fun l hl => live_of_le hle (hd l hl)⟩

/-- An entry of `InMemoryStore` is over exactly when it cannot be read in the plain map. -/
theorem storedEntry_over {e : Lease Json} (he : ∀ t ∈ e.expiresAt, 0 < t) :
    ((storedEntry e).2 ≠ 0 ∧ now > (storedEntry e).2) ↔ e.live now = false := by
  obtain ⟨v, expiresAt⟩ := e
  cases expiresAt with
  | none => exact ⟨fun h => absurd rfl h.1, fun h => by cases h⟩
  | some t =>
    have ht : t ≠ 0 := ne_of_gt (he t rfl)
    simp [storedEntry, Lease.live, ht]

section
variable {data : InMemoryStore} {m : Expiring (String × String) Json}

/-- A change under the composed key of one pair. -/
theorem InMemoryStore.Stands.update (h : Stands now data m) {data' : InMemoryStore}
    {m' : Expiring (String × String) Json} (hn : PlainNamespace n)
    (hpos : ∀ e ∈ m' (n, k), ∀ t ∈ e.expiresAt, 0 < t)
    (hself : MemoryEntry now (data'.lookup (composeKey n k)) (m' (n, k)))
    (hdata : ∀ l, l ≠ composeKey n k → data'.lookup l = data.lookup l)
    (hm : ∀ p, p ≠ (n, k) → m' p = m p) : Stands now data' m' where
  now_nonneg := h.now_nonneg
  expiresAt_pos p := by
    by_cases hp : p = (n, k)
    · exact hp ▸ hpos
    · exact hm p hp ▸ h.expiresAt_pos p
  entry n' k' hn' := by
    by_cases hp : (n', k') = (n, k)
    · cases hp
      exact hself
    · have hne : composeKey n' k' ≠ composeKey n k := fun he =>
        hp (Prod.ext ((composeKey_inj hn' hn).1 he).1 ((composeKey_inj hn' hn).1 he).2)
      rw [hdata _ hne, hm _ hp]
      exact h.entry n' k' hn'

/-- Where nothing is stored, nothing is read. -/
theorem inMemoryStore_get_none (h : data.lookup (composeKey n k) = none) :
    inMemoryStore.get data now n k = (none, data) := by
  unfold inMemoryStore
  simp only [h]

/-- What is stored is read until it has expired, and then removed. -/
theorem inMemoryStore_get_some {p : Json × Rat} (h : data.lookup (composeKey n k) = some p) :
    inMemoryStore.get data now n k =
      if p.2 ≠ 0 ∧ now > p.2 then (none, data.erase (composeKey n k)) else (some p.1, data) := by
  unfold inMemoryStore
  simp only [h]

/-- An entry of the map is read while it is alive. -/
theorem get_of_some {e : Lease Json} (h : m (n, k) = some e) :
    m.get now (n, k) = if e.live now then some e.value else none := by
  rw [Expiring.get, h]

/-- Where there is no entry, nothing is read. -/
theorem get_of_none (h : m (n, k) = none) : m.get now (n, k) = none := by
  rw [Expiring.get, h]

/-- A read of `InMemoryStore` returns what the plain map has, and drops at most an entry that
cannot be read. -/
theorem InMemoryStore.Stands.get (h : Stands now data m) (hn : PlainNamespace n) :
    (inMemoryStore.get data now n k).1 = m.get now (n, k) ∧
      Stands now (inMemoryStore.get data now n k).2 m := by
  rcases h.entry n k hn with hs | ⟨hs, hdead⟩
  · cases he : m (n, k) with
    | none =>
      rw [he] at hs
      rw [inMemoryStore_get_none hs, get_of_none he]
      exact ⟨rfl, h⟩
    | some e =>
      have hover : ((storedEntry e).2 ≠ 0 ∧ now > (storedEntry e).2) ↔ e.live now = false :=
        storedEntry_over (h.expiresAt_pos (n, k) e he)
      rw [he] at hs
      rw [inMemoryStore_get_some hs, get_of_some he]
      cases hlive : e.live now with
      | true =>
        rw [if_neg fun hc => Bool.false_ne_true ((hover.1 hc).symm.trans hlive), if_pos rfl]
        exact ⟨rfl, h⟩
      | false =>
        rw [if_pos (hover.2 hlive), if_neg Bool.false_ne_true]
        refine ⟨rfl, h.update hn (h.expiresAt_pos (n, k)) (.inr ⟨AList.lookup_erase .., ?_⟩)
          (fun l hl => AList.lookup_erase_ne hl) fun _ _ => rfl⟩
        rintro _ hl
        cases he.symm.trans hl
        exact hlive
  · rw [inMemoryStore_get_none hs]
    refine ⟨?_, h⟩
    cases he : m (n, k) with
    | none => rw [get_of_none he]
    | some e => rw [get_of_some he, hdead e he, if_neg Bool.false_ne_true]

/-- After a write the store in memory stands for the map. -/
theorem InMemoryStore.Stands.set (h : Stands now data m) (hn : PlainNamespace n) (v : Json)
    (ttl : Nat) :
    Stands now (inMemoryStore.set data now n k v ttl) (plainMap.set m now n k v ttl) := by
  have hexp : ∀ t ∈ (if ttl = 0 then none else some (now + ttl) : Option Rat), 0 < t := by
    intro t ht
    split at ht
    · cases ht
    · next hz =>
      cases ht
      exact add_pos_of_nonneg_of_pos h.now_nonneg (by exact_mod_cast Nat.pos_of_ne_zero hz)
  refine h.update hn ?_ (.inl ?_) (fun l hl => AList.lookup_insert_ne hl)
    fun p hp => Expiring.put_of_ne m hp ..
  · intro e he
    cases (Expiring.put_self m (n, k) v _).symm.trans he
    exact hexp
  · change (AList.insert _ _ data).lookup _ = (m.put (n, k) v _ (n, k)).map storedEntry
    rw [AList.lookup_insert, Expiring.put_self, Option.map_some, storedEntry]
    split <;> simp_all

/-- So it does after a deletion. -/
theorem InMemoryStore.Stands.delete (h : Stands now data m) (hn : PlainNamespace n) :
    Stands now (inMemoryStore.delete data n k) (plainMap.delete m n k) := by
  have hself : plainMap.delete m n k (n, k) = none := Expiring.erase_self ..
  refine h.update hn (fun e he => ?_) (.inl ?_) (fun l hl => AList.lookup_erase_ne hl)
    fun p hp => Expiring.erase_of_ne m hp
  · cases hself.symm.trans he
  · rw [hself]
    exact AList.lookup_erase ..

/-- What `InMemoryStore` keeps when a namespace is cleared. -/
theorem lookup_inMemoryStore_clear (data : InMemoryStore) (hn : PlainNamespace n)
    (hn' : PlainNamespace n') :
    (inMemoryStore.clear data now (some n)).lookup (composeKey n' k) =
      if n' = n then none else data.lookup (composeKey n' k) := by
  change (eraseAll _ _).lookup _ = _
  rw [lookup_eraseAll]
  simp only [List.mem_filter, startsWith_composeKey hn' hn]
  split
  · next h => rw [if_pos h.2]
  · next h =>
    split
    · next hnn =>
      have hmem : composeKey n' k ∉ data := fun hmem => h ⟨AList.mem_keys.1 hmem, hnn⟩
      exact AList.lookup_eq_none.2 hmem
    · rfl

/-- And after a `clear`. -/
theorem InMemoryStore.Stands.clear (h : Stands now data m) {scope : Option String}
    (hn : ∀ x ∈ scope, PlainNamespace x) :
    Stands now (inMemoryStore.clear data now scope) (plainMap.clear m now scope) := by
  cases scope with
  | none => exact ⟨h.now_nonneg, nofun, fun _ _ _ => .inl rfl⟩
  | some n =>
    have hn := hn n rfl
    have hm : ∀ p, plainMap.clear m now (some n) p = if p.1 = n then none else m p := fun p => by
      change (if decide (p.1 = n) = true then none else m p) = _
      simp only [decide_eq_true_eq]
    refine ⟨h.now_nonneg, fun p e he => ?_, fun n' k' hn' => ?_⟩
    · rw [hm] at he
      split at he
      · cases he
      · exact h.expiresAt_pos p e he
    · rw [lookup_inMemoryStore_clear data hn hn', hm]
      split
      · exact .inl rfl
      · exact h.entry n' k' hn'

/-- Every operation keeps `InMemoryStore` in the place of the plain map. -/
theorem InMemoryStore.Stands.step {F : FloatText} {op : StoreOp} (hop : op.Allowed F)
    (h : Stands now data m) :
    Stands (op.after now) (inMemoryStore.step now data op) (plainMap.step now m op) := by
  cases op with
  | get n k => exact (h.get hop).2
  | set n k v ttl => exact h.set hop.1 v ttl
  | delete n k => exact h.delete hop
  | clear scope => exact h.clear hop
  | pass time =>
    have hle := StoreOp.le_after now (.pass time)
    exact ⟨h.now_nonneg.trans hle, h.expiresAt_pos, fun n k hn => (h.entry n k hn).mono hle⟩

end

/-! ## `RedisStore` -/

/-- What the server keeps of an entry. -/
def serverEntry (F : FloatText) (e : Lease Json) : RedisEntry := ⟨dumps F e.value, e.expiresAt⟩

/-- What the server has for an entry of the plain map. It may have one that nobody sees where the
map has none. -/
def ServerEntry (F : FloatText) (now : Rat) (stored : Option RedisEntry)
    (e : Option (Lease Json)) : Prop :=
  (stored = e.map (serverEntry F) ∧ ∀ l ∈ e, l.value.IsValue F) ∨
    e = none ∧ ∀ s ∈ stored, s.live now = false

/-- The content of the server stands for the plain map. -/
def RedisStore.Stands (F : FloatText) (now : Rat) (db : Redis)
    (m : Expiring (String × String) Json) : Prop :=
  ∀ n k, PlainNamespace n → ServerEntry F now (db.lookup (RedisStore.key "" n k)) (m (n, k))

/-- With the empty prefix a key is made as in memory. -/
theorem redisKey_empty (n k : String) : RedisStore.key "" n k = composeKey n k :=
  String.empty_append

/-- What has expired stays so. -/
theorem RedisEntry.live_of_le {e : RedisEntry} {now' : Rat} (h : now ≤ now')
    (he : e.live now = false) : e.live now' = false := by
  unfold live at he ⊢
  split at he
  · cases he
  · simp only [decide_eq_false_iff_not, not_lt] at he ⊢
    exact he.trans h

/-- Away from the instant at which it expires, an entry is live on the server exactly when it can be
read in the plain map. -/
theorem serverEntry_live {F : FloatText} {e : Lease Json} (he : e.expiresAt ≠ some now) :
    (serverEntry F e).live now = e.live now := by
  obtain ⟨v, expiresAt⟩ := e
  cases expiresAt with
  | none => rfl
  | some t =>
    have hne : now ≠ t := fun h => he (congrArg some h.symm)
    change decide (now < t) = decide (now ≤ t)
    simp only [decide_eq_decide]
    exact ⟨le_of_lt, fun h => lt_of_le_of_ne h hne⟩

section
variable {F : FloatText} {scan : ScanOrder} {db : Redis} {m : Expiring (String × String) Json}

/-- A read of the Redis store parses what Redis gives. -/
theorem redisStore_get (p : String) : (redisStore F scan p).get db now n k =
    ((db.get now (RedisStore.key p n k)).bind fun raw => (loads F raw).toOption, db) := by
  unfold redisStore
  dsimp only
  cases db.get now (RedisStore.key p n k) with
  | none => rfl
  | some raw =>
    dsimp only [Option.bind_some]
    cases loads F raw <;> rfl

/-- Away from the instant at which the entry expires, a read of `RedisStore` returns what the plain
map has. -/
theorem RedisStore.Stands.get (h : Stands F now db m) (hn : PlainNamespace n)
    (hexp : ∀ e ∈ m (n, k), e.expiresAt ≠ some now) :
    ((redisStore F scan "").get db now n k).1 = m.get now (n, k) := by
  rw [redisStore_get]
  rcases h n k hn with ⟨hs, hv⟩ | ⟨he, hdead⟩
  · cases he : m (n, k) with
    | none =>
      rw [he] at hs
      rw [Redis.get_of_none hs, get_of_none he]
      rfl
    | some e =>
      rw [he] at hs
      rw [Redis.get_of_some hs, get_of_some he, ← serverEntry_live (F := F) (hexp e he)]
      cases hlive : (serverEntry F e).live now with
      | false => rfl
      | true =>
        change (loads F (dumps F e.value)).toOption = some e.value
        rw [loads_dumps (hv e he)]
        rfl
  · rw [get_of_none he]
    cases hs : db.lookup (RedisStore.key "" n k) with
    | none => rw [Redis.get_of_none hs]; rfl
    | some s => rw [Redis.get_of_some hs, hdead s hs, if_neg Bool.false_ne_true]; rfl

/-- A change under the key of one pair. -/
theorem RedisStore.Stands.update (h : Stands F now db m) {db' : Redis}
    {m' : Expiring (String × String) Json} (hn : PlainNamespace n)
    (hself : ServerEntry F now (db'.lookup (RedisStore.key "" n k)) (m' (n, k)))
    (hdb : ∀ l, l ≠ RedisStore.key "" n k → db'.lookup l = db.lookup l)
    (hm : ∀ p, p ≠ (n, k) → m' p = m p) : Stands F now db' m' := by
  intro n' k' hn'
  by_cases hp : (n', k') = (n, k)
  · cases hp
    exact hself
  · have hne : RedisStore.key "" n' k' ≠ RedisStore.key "" n k := fun he => by
      rw [redisKey_empty, redisKey_empty, composeKey_inj hn' hn] at he
      exact hp (Prod.ext he.1 he.2)
    rw [hdb _ hne, hm _ hp]
    exact h n' k' hn'

/-- After a write the Redis store stands for the map. -/
theorem RedisStore.Stands.set (h : Stands F now db m) (hn : PlainNamespace n) {v : Json}
    (hv : v.IsValue F) (ttl : Nat) :
    Stands F now ((redisStore F scan "").set db now n k v ttl) (plainMap.set m now n k v ttl) := by
  have hself := Expiring.put_self m (n, k) v (if ttl = 0 then none else some (now + ttl))
  refine h.update hn (.inl ⟨?_, fun e he => ?_⟩) (fun l hl => AList.lookup_insert_ne hl)
    fun p hp => Expiring.put_of_ne m hp ..
  · change (AList.insert _ _ db).lookup _ = (m.put (n, k) v _ (n, k)).map (serverEntry F)
    rw [AList.lookup_insert, hself]
    split <;> rfl
  · cases hself.symm.trans he
    exact hv

/-- So it does after a deletion. -/
theorem RedisStore.Stands.delete (h : Stands F now db m) (hn : PlainNamespace n) :
    Stands F now ((redisStore F scan "").delete db n k) (plainMap.delete m n k) := by
  have hself : plainMap.delete m n k (n, k) = none := Expiring.erase_self ..
  refine h.update hn (.inl ⟨?_, fun e he => ?_⟩) (fun l hl => AList.lookup_erase_ne hl)
    fun p hp => Expiring.erase_of_ne m hp
  · rw [hself]
    exact AList.lookup_erase ..
  · cases hself.symm.trans he

/-- A key that `clear` looks for is gone or out of sight. -/
theorem ServerEntry.cleared {c : Prop} [Decidable c] (hc : c) {l : String} :
    ServerEntry F now (if (db.get now l).isSome ∧ c then none else db.lookup l) none := by
  split
  · exact .inl ⟨rfl, nofun⟩
  · next h =>
    refine .inr ⟨rfl, fun s hs => Bool.eq_false_iff.2 fun hlive => h ⟨?_, hc⟩⟩
    rw [Redis.get_of_some hs, if_pos hlive]
    rfl

/-- And after a `clear`. -/
theorem RedisStore.Stands.clear (h : Stands F now db m) {scope' : Option String}
    (hn : ∀ x ∈ scope', PlainNamespace x) :
    Stands F now ((redisStore F scan "").clear db now scope') (plainMap.clear m now scope') := by
  have hplain : Glob.Plain "".toList := nofun
  intro n' k hn'
  change ServerEntry F now ((RedisStore.clear scan "" db now scope').lookup _) _
  rw [lookup_clear]
  simp only [isMatch_owned hplain hn]
  cases scope' with
  | none => exact .cleared (owned_none ..)
  | some n =>
    change ServerEntry F now _ (if decide (n' = n) = true then none else m (n', k))
    simp only [decide_eq_true_eq, owned_some (hn n rfl) hn']
    by_cases hnn : n' = n
    · rw [if_pos hnn]
      exact .cleared hnn
    · rw [if_neg hnn, if_neg fun hc => hnn hc.2]
      exact h n' k hn'

/-- Every operation keeps `RedisStore` in the place of the plain map. -/
theorem RedisStore.Stands.step {op : StoreOp} (hop : op.Allowed F) (h : Stands F now db m) :
    Stands F (op.after now) ((redisStore F scan "").step now db op) (plainMap.step now m op) := by
  cases op with
  | get n k =>
    change Stands F now ((redisStore F scan "").get db now n k).2 m
    rw [redisStore_get]
    exact h
  | set n k v ttl => exact h.set hop.1 hop.2 ttl
  | delete n k => exact h.delete hop
  | clear scope => exact h.clear hop
  | pass time =>
    have hle := StoreOp.le_after now (.pass time)
    exact fun n k hn => (h n k hn).imp id fun ⟨he, hd⟩ =>
      ⟨he, fun s hs => RedisEntry.live_of_le hle (hd s hs)⟩

end

/-! ## Agreement -/

/-- Clearing a namespace removes its entries from `InMemoryStore` and no other. -/
theorem inMemoryStore_get_clear (data : InMemoryStore) (hn : PlainNamespace n)
    (hn' : PlainNamespace n') :
    (inMemoryStore.get (inMemoryStore.clear data now (some n)) now n' k).1 =
      if n' = n then none else (inMemoryStore.get data now n' k).1 := by
  have h : (inMemoryStore.clear data now (some n)).lookup (composeKey n' k) =
      if n' = n then none else data.lookup (composeKey n' k) :=
    lookup_inMemoryStore_clear data hn hn'
  split at h
  · next hnn => rw [inMemoryStore_get_none h, if_pos hnn]
  · next hnn =>
    rw [if_neg hnn]
    cases he : data.lookup (composeKey n' k) with
    | none => rw [inMemoryStore_get_none (h.trans he), inMemoryStore_get_none he]
    | some p =>
      rw [inMemoryStore_get_some (h.trans he), inMemoryStore_get_some he]
      split <;> rfl

/-- Clearing a namespace removes its entries from `RedisStore` and no other. -/
theorem redisStore_get_clear (F : FloatText) (scan : ScanOrder) (db : Redis)
    (hn : PlainNamespace n) (hn' : PlainNamespace n') :
    ((redisStore F scan "").get ((redisStore F scan "").clear db now (some n)) now n' k).1 =
      if n' = n then none else ((redisStore F scan "").get db now n' k).1 := by
  have hplain : Glob.Plain "".toList := nofun
  have h := RedisStore.get_clear scan "" db now (some n) (RedisStore.key "" n' k)
  simp only [RedisStore.isMatch_owned hplain (fun x hx => Option.some.inj hx ▸ hn),
    RedisStore.owned_some hn hn'] at h
  rw [redisStore_get, redisStore_get]
  change ((RedisStore.clear scan "" db now (some n)).get now _).bind _ = _
  rw [h]
  split <;> rfl

/-- **Agreement.** After any operations, reads of `InMemoryStore` and of `RedisStore` return what
the plain map has, unless the entry expires at that very instant. Distinct pairs have distinct
composed keys, and clearing a namespace removes its entries and no other from either. -/
theorem backends_agree (F : FloatText) (scan : ScanOrder) (start : ℚ≥0) {ops : List StoreOp}
    (hops : ∀ op ∈ ops, op.Allowed F) :
    let now := clock start ops
    let memory := inMemoryStore.run start ∅ ops
    let redis := (redisStore F scan "").run start ∅ ops
    let map := plainMap.run start .empty ops
    (∀ n k, PlainNamespace n → (∀ e ∈ map (n, k), e.expiresAt ≠ some now) →
      (inMemoryStore.get memory now n k).1 = map.get now (n, k) ∧
        ((redisStore F scan "").get redis now n k).1 = map.get now (n, k)) ∧
    (∀ n k n' k', PlainNamespace n → PlainNamespace n' →
      composeKey n k = composeKey n' k' → n = n' ∧ k = k') ∧
    ∀ n n' k, PlainNamespace n → PlainNamespace n' →
      (inMemoryStore.get (inMemoryStore.clear memory now (some n)) now n' k).1 =
          (if n' = n then none else (inMemoryStore.get memory now n' k).1) ∧
        ((redisStore F scan "").get ((redisStore F scan "").clear redis now (some n)) now n' k).1 =
          if n' = n then none else ((redisStore F scan "").get redis now n' k).1 := by
  intro now memory redis map
  have hmemory : InMemoryStore.Stands now memory map :=
    KeyValueStore.run_related InMemoryStore.Stands.step hops
      ⟨start.2, nofun, fun _ _ _ => .inl rfl⟩
  have hredis : RedisStore.Stands F now redis map :=
    KeyValueStore.run_related RedisStore.Stands.step hops fun _ _ _ => .inl ⟨rfl, nofun⟩
  refine ⟨fun n k hn hexp => ⟨(hmemory.get hn).1, hredis.get hn hexp⟩, fun n k n' k' hn hn' =>
    (composeKey_inj hn hn').1, fun n n' k hn hn' => ⟨?_, ?_⟩⟩
  · exact inMemoryStore_get_clear memory hn hn'
  · exact redisStore_get_clear F scan redis hn hn'

/-- `repr` and `float` on multiples of one half. -/
def halves : FloatText where
  repr q := ⟨decide (q < 0), q.num.natAbs / q.den, if q.den = 2 then ['5'] else ['0'], none⟩
  float d := .float ((if d.negative then -1 else 1) *
    (d.whole + if d.fraction = ['5'] then 1 / 2 else 0))

/-- A scan that returns the keys from the last one. -/
def reversed : ScanOrder := ⟨List.reverse, fun _ _ => List.mem_reverse⟩

/-- Two entries are written, one of them expires, and another namespace is cleared. -/
def someOps : List StoreOp :=
  [.set "chat_history" "t:*" (.obj [("role", .str "user"), ("score", .num (.float (1 / 2)))]) 60,
    .set "agent_token" "t:*" (.str "tok") 5, .pass 10, .clear (some "obo_token")]

/-- Each of the operations of the example is allowed. -/
theorem someOps_allowed : ∀ op ∈ someOps, op.Allowed halves := by
  have hrepr : halves.repr (1 / 2) = ⟨false, 0, ['5'], none⟩ := by decide +kernel
  have hhalf : halves.IsFloat (1 / 2) := by
    refine ⟨?_, by decide +kernel⟩
    rw [hrepr]
    exact ⟨List.forall_mem_singleton.2 rfl, nofun, nofun⟩
  intro op hop
  simp only [someOps, List.mem_cons, List.not_mem_nil, or_false] at hop
  rcases hop with rfl | rfl | rfl | rfl
  · exact ⟨by decide, by decide, trivial, hhalf, trivial⟩
  · exact ⟨by decide, trivial⟩
  · trivial
  · rintro _ ⟨⟩
    decide

/-- In the example a value is read back from memory, and one that was cleared is gone from Redis. -/
theorem backends_agree_run :
    (inMemoryStore.get (inMemoryStore.run 0 ∅ someOps) 10 "chat_history" "t:*").1 =
        some (.obj [("role", .str "user"), ("score", .num (.float (1 / 2)))]) ∧
      ((redisStore halves reversed "").get ((redisStore halves reversed "").run 0 ∅ someOps) 10
        "agent_token" "t:*").1 = none := by
  have h := (backends_agree halves reversed 0 someOps_allowed).1
  have hclock : clock (0 : ℚ≥0) someOps = 10 := by decide +kernel
  rw [hclock] at h
  have hkept := (h "chat_history" "t:*" (by decide) fun e he => ?_).1
  · have hover := (h "agent_token" "t:*" (by decide) fun e he => ?_).2
    · exact ⟨hkept.trans (by decide +kernel), hover.trans (by decide +kernel)⟩
    · cases he
      decide +kernel
  · cases he
    decide +kernel

end Teamspace.Agent
