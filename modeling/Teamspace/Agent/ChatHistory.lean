import Mathlib.Data.List.DropRight
import Teamspace.Agent.BackendsAgree
import Teamspace.Agent.Main

/-!
# The chat history over its backends

`ChatHistoryManager` of `agent/chat_history.py`, over a backend of the store. What it relies on is
stated once for both backends (`KeyValueStore.Keeps`): an entry is there for its time to live, and
no operation under another name changes it. On every thread the history is then the end of what was
added since it was last cleared (`history_is_suffix`), whatever the calls on other threads.
-/

namespace Teamspace.Agent

open Teamspace.Lib Teamspace.Py

/-! ## The manager -/

/-- `history[-n:]`. -/
def lastOf {α : Type} (n : Nat) (xs : List α) : List α :=
  if n = 0 then xs else xs.drop (xs.length - n)

/-- `{"role": role, "content": content}`. -/
def message (role content : String) : Json := .obj [("role", .str role), ("content", .str content)]

/-- `ChatHistoryManager`: `max` is its `_max`. -/
structure ChatHistoryManager where
  max : Nat

namespace ChatHistoryManager

variable {σ : Type} (M : ChatHistoryManager) (K : KeyValueStore σ)

/-- `get_history`, with what the backend keeps after it. -/
def getHistory (s : σ) (now : Rat) (threadId : String) : Except Exn (List Json) × σ :=
  (historyOf (K.get s now Namespace.chatHistory.name threadId).1,
    (K.get s now Namespace.chatHistory.name threadId).2)

/-- The history that is written when a message comes to it. -/
def append (history : List Json) (role content : String) : List Json :=
  let history := history ++ [message role content]
  if history.length > M.max then lastOf M.max history else history

/-- `add_message`, with what the backend keeps after it. -/
def addMessage (s : σ) (now : Rat) (threadId role content : String) : Except Exn Unit × σ :=
  match getHistory K s now threadId with
  | (.error e, s) => (.error e, s)
  | (.ok history, s) => (.ok (), K.set s now Namespace.chatHistory.name threadId
      (.arr (M.append history role content)) defaultTtlSeconds)

/-- `clear`. -/
def clear (s : σ) (threadId : String) : σ := K.delete s Namespace.chatHistory.name threadId

end ChatHistoryManager

/-- A call of the manager's. -/
inductive HistoryCall
  | addMessage (threadId role content : String)
  | getHistory (threadId : String)
  | clear (threadId : String)
  deriving DecidableEq, Repr

namespace ChatHistoryManager

variable {σ : Type} (M : ChatHistoryManager) (K : KeyValueStore σ)

/-- What the backend keeps after a call. -/
def call (s : σ) (now : Rat) : HistoryCall → σ
  | .addMessage t role content => (M.addMessage K s now t role content).2
  | .getHistory t => (getHistory K s now t).2
  | .clear t => clear K s t

/-- What the backend keeps after calls, of which the newest comes first, each at its instant. -/
def run (s : σ) : List (Rat × HistoryCall) → σ
  | [] => s
  | c :: calls => M.call K (run s calls) c.1 c.2

end ChatHistoryManager

/-! ## What was added -/

/-- The messages that were added to a thread since it was last cleared: roles and contents, in the
order in which they came. -/
def messagesOf (t : String) : List (Rat × HistoryCall) → List (String × String)
  | [] => []
  | (_, .addMessage t' role content) :: calls =>
    if t' = t then messagesOf t calls ++ [(role, content)] else messagesOf t calls
  | (_, .getHistory _) :: calls => messagesOf t calls
  | (_, .clear t') :: calls => if t' = t then [] else messagesOf t calls

/-- The present instant, and that of each message on the thread, is `within` reach of the message
before, back to where the thread was last cleared. -/
def InTime (within : Rat → Prop) (t : String) : Rat → List (Rat × HistoryCall) → Prop
  | _, [] => True
  | now, (a, .addMessage t' _ _) :: calls =>
    if t' = t then within (now - a) ∧ InTime within t a calls else InTime within t now calls
  | now, (_, .getHistory _) :: calls => InTime within t now calls
  | now, (_, .clear t') :: calls => if t' = t then True else InTime within t now calls

/-- The instants of calls, up to the present one, are in order. -/
def InOrder (now : Rat) (calls : List (Rat × HistoryCall)) : Prop :=
  (now :: calls.map Prod.fst).Pairwise (· ≥ ·)

/-! ## What a backend keeps -/

/-- An entry that can be stored is there while its age is `within` its time to live, and what is
under a plain namespace is not changed by operations under another one or under another key. -/
structure KeyValueStore.Keeps {σ : Type} (K : KeyValueStore σ) (storable : Json → Prop)
    (within : Nat → Rat → Prop) : Prop where
  get_get : ∀ (s : σ) {a now : Rat} (n k n' k' : String), a ≤ now →
    (K.get (K.get s a n k).2 now n' k').1 = (K.get s now n' k').1
  get_set : ∀ (s : σ) {a now : Rat} (n k : String) {v : Json} {ttl : Nat}, storable v →
    within ttl (now - a) → (K.get (K.set s a n k v ttl) now n k).1 = some v
  get_set_of_ne : ∀ (s : σ) {a now : Rat} {n k n' k' : String} (v : Json) (ttl : Nat),
    PlainNamespace n → PlainNamespace n' → (n', k') ≠ (n, k) →
    (K.get (K.set s a n k v ttl) now n' k').1 = (K.get s now n' k').1
  get_delete : ∀ (s : σ) (now : Rat) (n k : String), (K.get (K.delete s n k) now n k).1 = none
  get_delete_of_ne : ∀ (s : σ) {now : Rat} {n k n' k' : String}, PlainNamespace n →
    PlainNamespace n' → (n', k') ≠ (n, k) →
    (K.get (K.delete s n k) now n' k').1 = (K.get s now n' k').1

/-- Different entries have different keys. -/
theorem composeKey_ne {n k n' k' : String} (hn : PlainNamespace n) (hn' : PlainNamespace n')
    (h : (n', k') ≠ (n, k)) : composeKey n' k' ≠ composeKey n k := by
  intro he
  obtain ⟨rfl, rfl⟩ := (composeKey_inj hn' hn).1 he
  exact h rfl

section
variable {now : Rat} {n k : String}

/-- What `InMemoryStore` reads depends on the entry under the composed key alone. -/
theorem inMemoryStore_get_congr {data data' : InMemoryStore}
    (h : data'.lookup (composeKey n k) = data.lookup (composeKey n k)) :
    (inMemoryStore.get data' now n k).1 = (inMemoryStore.get data now n k).1 := by
  cases he : data.lookup (composeKey n k) with
  | none => rw [inMemoryStore_get_none he, inMemoryStore_get_none (h.trans he)]
  | some p =>
    rw [inMemoryStore_get_some he, inMemoryStore_get_some (h.trans he)]
    split <;> rfl

/-- An entry that `InMemoryStore` drops on a read is over at every later instant. -/
theorem inMemoryStore_get_get (data : InMemoryStore) {a : Rat} (n k n' k' : String)
    (ha : a ≤ now) :
    (inMemoryStore.get (inMemoryStore.get data a n k).2 now n' k').1 =
      (inMemoryStore.get data now n' k').1 := by
  cases he : data.lookup (composeKey n k) with
  | none => rw [inMemoryStore_get_none he]
  | some p =>
    rw [inMemoryStore_get_some he]
    split
    · next hover =>
      by_cases hk : composeKey n' k' = composeKey n k
      · have hlater : p.2 ≠ 0 ∧ now > p.2 := ⟨hover.1, lt_of_lt_of_le hover.2 ha⟩
        have hgone : (data.erase (composeKey n k)).lookup (composeKey n' k') = none := by
          rw [hk]
          exact AList.lookup_erase ..
        rw [inMemoryStore_get_none hgone, inMemoryStore_get_some (hk ▸ he), if_pos hlater]
      · exact inMemoryStore_get_congr (AList.lookup_erase_ne hk)
    · rfl

/-- `InMemoryStore` keeps an entry up to the last instant of its time to live. -/
theorem inMemoryStore_keeps :
    inMemoryStore.Keeps (fun _ => True) fun ttl age => age ≤ ttl where
  get_get data := inMemoryStore_get_get data
  get_set data a now n k v ttl _ hage := by
    have he : (inMemoryStore.set data a n k v ttl).lookup (composeKey n k) =
      some (v, if ttl ≠ 0 then a + ttl else 0) := AList.lookup_insert ..
    rw [inMemoryStore_get_some he, if_neg]
    rintro ⟨hne, hover⟩
    split at hover
    · exact not_lt.2 (sub_le_iff_le_add'.1 hage) hover
    · next hz => exact hne (if_neg hz)
  get_set_of_ne data _ _ _ _ _ _ _ _ hn hn' hne :=
    inMemoryStore_get_congr (AList.lookup_insert_ne (composeKey_ne hn hn' hne))
  get_delete data _ _ _ := by
    rw [inMemoryStore_get_none]
    exact AList.lookup_erase ..
  get_delete_of_ne data _ _ _ _ _ hn hn' hne :=
    inMemoryStore_get_congr (AList.lookup_erase_ne (composeKey_ne hn hn' hne))

/-- So they have in Redis. -/
theorem redisKey_ne (p : String) {n' k' : String} (hn : PlainNamespace n)
    (hn' : PlainNamespace n') (h : (n', k') ≠ (n, k)) :
    RedisStore.key p n' k' ≠ RedisStore.key p n k := by
  intro he
  have he := congrArg String.toList he
  rw [RedisStore.key_toList, RedisStore.key_toList] at he
  exact composeKey_ne hn hn' h (String.toList_inj.1 (List.append_cancel_left he))

/-- What `RedisStore` reads depends on the entry under the key alone. -/
theorem redisStore_get_congr {F : FloatText} {scan : ScanOrder} {p : String} {db db' : Redis}
    (h : db'.lookup (RedisStore.key p n k) = db.lookup (RedisStore.key p n k)) :
    ((redisStore F scan p).get db' now n k).1 = ((redisStore F scan p).get db now n k).1 := by
  rw [redisStore_get, redisStore_get, Redis.get_congr h]

/-- `RedisStore` keeps a value until its time to live is over. -/
theorem redisStore_keeps (F : FloatText) (scan : ScanOrder) (p : String) :
    (redisStore F scan p).Keeps (Json.IsValue F) fun ttl age => age < ttl where
  get_get db a now n k n' k' _ := by
    rw [redisStore_get (F := F) (n := n)]
  get_set db a now n k v ttl hv hage := by
    have he : ((redisStore F scan p).set db a n k v ttl).lookup (RedisStore.key p n k) =
      some ⟨dumps F v, (if ttl = 0 then none else some ttl : Option Nat).map fun ttl => a + ttl⟩ := by
      change (AList.insert _ _ db).lookup _ = _
      rw [AList.lookup_insert]
    rw [redisStore_get, Redis.get_of_some he, if_pos]
    · change (loads F (dumps F v)).toOption = some v
      rw [loads_dumps hv]
      rfl
    · unfold RedisEntry.live
      by_cases hz : ttl = 0
      · rw [if_pos hz]
        rfl
      · rw [if_neg hz]
        exact decide_eq_true (sub_lt_iff_lt_add'.1 hage)
  get_set_of_ne db _ _ _ _ _ _ _ _ hn hn' hne :=
    redisStore_get_congr (AList.lookup_insert_ne (redisKey_ne p hn hn' hne))
  get_delete db now n k := by
    rw [redisStore_get, Redis.get_of_none]
    · rfl
    · exact AList.lookup_erase ..
  get_delete_of_ne db _ _ _ _ _ hn hn' hne :=
    redisStore_get_congr (AList.lookup_erase_ne (redisKey_ne p hn hn' hne))

end

/-! ## The end of what was added -/

/-- A stored message. -/
def asMessage (m : String × String) : Json := message m.1 m.2

/-- A history that is a list is read as the list. -/
theorem historyOf_arr (items : List Json) : historyOf (some (.arr items)) = .ok items := by
  cases items <;> rfl

/-- Messages are values that the server can be given. -/
theorem messages_storable (F : FloatText) (ms : List (String × String)) :
    (Json.arr (ms.map asMessage)).IsValue F := by
  change AreValues F (ms.map asMessage)
  induction ms with
  | nil => trivial
  | cons m ms ih =>
    have hkeys : ["role", "content"].Nodup := by decide
    exact ⟨⟨hkeys, trivial, trivial, trivial⟩, ih⟩

/-- The end of a list is mapped to the end of the list that is mapped. -/
theorem map_rtake {α β : Type} (f : α → β) (n : Nat) (xs : List α) :
    (xs.rtake n).map f = (xs.map f).rtake n := by
  simp only [List.rtake, List.map_drop, List.length_map]

/-- What was cut off before an item came does not matter to the end of the list. -/
theorem rtake_concat_rtake {α : Type} {n : Nat} (hn : 1 ≤ n) (xs : List α) (x : α) :
    (xs.rtake n ++ [x]).rtake n = (xs ++ [x]).rtake n := by
  obtain ⟨m, rfl⟩ : ∃ m, n = m + 1 := ⟨n - 1, by omega⟩
  rw [List.rtake_concat_succ, List.rtake_concat_succ]
  simp only [List.rtake_eq_reverse_take_reverse, List.reverse_reverse, List.take_take]
  rw [Nat.min_eq_left (Nat.le_succ m)]

namespace ChatHistoryManager

variable {M : ChatHistoryManager}

/-- A history is cut to its end. -/
theorem append_eq (hM : 1 ≤ M.max) (history : List Json) (role content : String) :
    M.append history role content = (history ++ [message role content]).rtake M.max := by
  have hne : M.max ≠ 0 := by omega
  simp only [append, lastOf, if_neg hne]
  split
  · rfl
  · next hle =>
    rw [List.rtake, Nat.sub_eq_zero_of_le (not_lt.1 hle)]
    rfl

section
variable {σ : Type} {K : KeyValueStore σ} {s : σ} {now a : Rat} {t : String}

/-- `add_message` stores the history with the message. -/
theorem addMessage_ok {history : List Json} {role content : String}
    (h : (getHistory K s a t).1 = .ok history) :
    (M.addMessage K s a t role content).2 = K.set (K.get s a Namespace.chatHistory.name t).2 a
      Namespace.chatHistory.name t (.arr (M.append history role content)) defaultTtlSeconds := by
  simp only [getHistory] at h
  simp only [addMessage, getHistory, h]

/-- Where there is no history to read, it stores nothing. -/
theorem addMessage_error {e : Exn} {role content : String}
    (h : (getHistory K s a t).1 = .error e) :
    (M.addMessage K s a t role content).2 = (K.get s a Namespace.chatHistory.name t).2 := by
  simp only [getHistory] at h
  simp only [addMessage, getHistory, h]

variable {storable : Json → Prop} {within : Nat → Rat → Prop}

/-- A message on another thread leaves what is read on this one. -/
theorem get_addMessage_of_ne (hK : K.Keeps storable within) {t' : String} (ht : t' ≠ t)
    (ha : a ≤ now) (role content : String) :
    (K.get (M.addMessage K s a t' role content).2 now Namespace.chatHistory.name t).1 =
      (K.get s now Namespace.chatHistory.name t).1 := by
  have hne : (Namespace.chatHistory.name, t) ≠ (Namespace.chatHistory.name, t') :=
    fun h => ht (Prod.ext_iff.1 h).2.symm
  have hplain := Namespace.plain .chatHistory
  cases h : (getHistory K s a t').1 with
  | error e => rw [addMessage_error h, hK.get_get s _ _ _ _ ha]
  | ok history =>
    rw [addMessage_ok h, hK.get_set_of_ne _ _ _ hplain hplain hne, hK.get_get s _ _ _ _ ha]

/-- **The recent suffix.** What is read is the end of what was added. -/
theorem getHistory_run (hK : K.Keeps storable within)
    (hstorable : ∀ ms : List (String × String), storable (.arr (ms.map asMessage)))
    (hM : 1 ≤ M.max) (hempty : ∀ now, (K.get s now Namespace.chatHistory.name t).1 = none)
    {calls : List (Rat × HistoryCall)} (hord : InOrder now calls)
    (htime : InTime (within defaultTtlSeconds) t now calls) :
    (getHistory K (M.run K s calls) now t).1 =
      .ok (((messagesOf t calls).rtake M.max).map asMessage) := by
  induction calls generalizing now with
  | nil =>
    change historyOf _ = _
    rw [run, hempty, messagesOf, List.rtake_nil]
    rfl
  | cons c calls ih =>
    obtain ⟨a, c⟩ := c
    obtain ⟨hle, hord'⟩ := List.pairwise_cons.1 hord
    have ha : a ≤ now := hle a (.head _)
    -- A call that does not count leaves what was there before it.
    have hskip : InOrder now calls :=
      List.pairwise_cons.2 ⟨fun x hx => hle x (.tail _ hx), (List.pairwise_cons.1 hord').2⟩
    have hplain := Namespace.plain .chatHistory
    cases c with
    | addMessage t' role content =>
      by_cases ht : t' = t
      · subst ht
        rw [InTime, if_pos rfl] at htime
        have hbefore := ih hord' htime.2
        change historyOf (K.get (M.addMessage K (M.run K s calls) a t' role content).2 now _ _).1 = _
        rw [addMessage_ok hbefore, append_eq hM, messagesOf, if_pos rfl, map_rtake, map_rtake,
          rtake_concat_rtake hM, List.map_append]
        have hs : storable (.arr ((List.map asMessage (messagesOf t' calls) ++
            [message role content]).rtake M.max)) := by
          have hs := hstorable ((messagesOf t' calls ++ [(role, content)]).rtake M.max)
          rwa [map_rtake, List.map_append] at hs
        rw [hK.get_set _ _ _ hs htime.1, historyOf_arr]
        rfl
      · rw [InTime, if_neg ht] at htime
        rw [messagesOf, if_neg ht, ← ih hskip htime]
        exact congrArg historyOf (get_addMessage_of_ne hK ht ha role content)
    | getHistory t' =>
      rw [InTime] at htime
      rw [messagesOf, ← ih hskip htime]
      exact congrArg historyOf (hK.get_get _ _ _ _ _ ha)
    | clear t' =>
      by_cases ht : t' = t
      · subst ht
        rw [messagesOf, if_pos rfl, List.rtake_nil]
        change historyOf (K.get (K.delete _ _ _) now _ _).1 = _
        rw [hK.get_delete]
        rfl
      · rw [InTime, if_neg ht] at htime
        rw [messagesOf, if_neg ht, ← ih hskip htime]
        exact congrArg historyOf (hK.get_delete_of_ne _ hplain hplain fun h =>
          ht (Prod.ext_iff.1 h).2.symm)

end

end ChatHistoryManager

/-- After any calls over any threads, the history of a thread is the last `n` of the messages that
were added to it since it was last cleared, in both backends: in memory up to the last instant of
the time to live, on the server before it. -/
theorem history_is_suffix {n : Nat} (hn : 1 ≤ n) (F : FloatText) (scan : ScanOrder) (p t : String)
    {now : Rat} {calls : List (Rat × HistoryCall)} (hord : InOrder now calls) :
    let M : ChatHistoryManager := ⟨n⟩
    let recent := .ok (((messagesOf t calls).rtake n).map asMessage)
    (InTime (fun age => age ≤ defaultTtlSeconds) t now calls →
      (ChatHistoryManager.getHistory inMemoryStore (M.run inMemoryStore ∅ calls) now t).1 =
        recent) ∧
    (InTime (fun age => age < defaultTtlSeconds) t now calls →
      (ChatHistoryManager.getHistory (redisStore F scan p) (M.run (redisStore F scan p) ∅ calls)
        now t).1 = recent) := by
  intro M recent
  refine ⟨fun htime => ?_, fun htime => ?_⟩
  · exact ChatHistoryManager.getHistory_run (M := M) inMemoryStore_keeps (fun _ => trivial) hn
      (fun _ => rfl) hord htime
  · refine ChatHistoryManager.getHistory_run (M := M) (redisStore_keeps F scan p)
      (messages_storable F) hn (fun now => ?_) hord htime
    rw [redisStore_get, Redis.get_of_none rfl]
    rfl

/-- Three messages on a thread whose history holds two, between calls on another. -/
def someCalls : List (Rat × HistoryCall) :=
  [(9, .clear "u"), (8, .addMessage "t" "user" "list"), (7, .addMessage "u" "user" "hi"),
    (3, .addMessage "t" "assistant" "Hello"), (2, .getHistory "u"), (1, .addMessage "t" "user" "hi"),
    (1, .clear "t"), (0, .addMessage "t" "user" "cleared")]

/-- With room for two messages the last two are there. -/
theorem history_is_suffix_two :
    let M : ChatHistoryManager := ⟨2⟩
    let recent := [message "assistant" "Hello", message "user" "list"]
    (ChatHistoryManager.getHistory inMemoryStore (M.run inMemoryStore ∅ someCalls) 9 "t").1 =
        .ok recent ∧
      (ChatHistoryManager.getHistory (redisStore halves reversed "")
        (M.run (redisStore halves reversed "") ∅ someCalls) 9 "t").1 = .ok recent := by
  have hord : InOrder 9 someCalls := by
    unfold InOrder
    decide +kernel
  have h := history_is_suffix (n := 2) (by decide) halves reversed "" "t" hord
  have htime : InTime (fun age => age < defaultTtlSeconds) "t" 9 someCalls := by
    simp only [someCalls, InTime, String.reduceEq, if_false, if_true]
    decide +kernel
  have htime' : InTime (fun age => age ≤ defaultTtlSeconds) "t" 9 someCalls := by
    simp only [someCalls, InTime, String.reduceEq, if_false, if_true]
    decide +kernel
  exact ⟨h.1 htime', h.2 htime⟩

end Teamspace.Agent
