import Mathlib.Algebra.Order.Ring.Unbundled.Rat
import Teamspace.Common.JwksFetch
import Teamspace.Lib.LastWrite

/-!
# The JWKS cache of the MCP server

`JWKSCache` and `get_jwks` of `agent/mcp_server.py`. A fetch that fails is answered from the cached
copy, however old it is. But the body of a successful fetch is stored before its keys are looked at,
so a body that is no key set replaces the cached copy, and the call raises (`garbled_reply_stored`).
In a run in which every successful fetch brings a key set, only key sets are cached, no failed fetch
touches the cache, and a call raises only while nothing is cached (`get_jwks_tolerant`).
-/

namespace Teamspace.Agent

open Teamspace.Common Teamspace.Lib Teamspace.Py Teamspace.Lib.System

namespace JwksCache

/-! ## The cached copy -/

/-- `_JWKS_TTL_SECONDS`. -/
def ttlSeconds : Rat := 300

/-- `JWKSCache`, with `None` for data that is not there. -/
structure Copy where
  data : Json
  time : Rat
  deriving DecidableEq

/-- The class as it is defined: nothing is cached. -/
def Copy.empty : Copy := ⟨.null, 0⟩

/-- `JWKSCache.get_fresh`. -/
def Copy.getFresh (copy : Copy) (now : Rat) : Option Json :=
  if copy.data ≠ .null ∧ now - copy.time < ttlSeconds then some copy.data else none

/-- `JWKSCache.get_stale_snapshot`. -/
def Copy.getStaleSnapshot (copy : Copy) : Option Json × Rat :=
  (if copy.data ≠ .null then some copy.data else none, copy.time)

/-- What the calls share: the cached copy and `time.time()`. -/
structure Cache where
  copy : Copy
  wall : Rat

/-- An MCP server that has just started. -/
def Cache.start (wall : Rat) : Cache := ⟨.empty, wall⟩

/-- The wall clock changes, in either direction. -/
def Cache.Passes (σ σ' : Cache) : Prop := ∃ w, σ' = { σ with wall := w }

/-! ## Calls -/

/-- The sections that the lock protects. -/
inductive Section
  | getFresh
  | getStaleSnapshot
  | set (data : Json)
  deriving DecidableEq

/-- The answer of a section. -/
def Section.Ans : Section → Type
  | .getFresh => Option Json
  | .getStaleSnapshot => Option Json × Rat
  | .set _ => Unit

/-- The sections of a call, and its request for a URL. -/
def calls : Interface := ⟨Section, Section.Ans, String, JwksReply, AuthExn⟩

/-- A section takes place. -/
def execSection : (o : Section) → Cache → o.Ans × Cache
  | .getFresh, σ => (σ.copy.getFresh σ.wall, σ)
  | .getStaleSnapshot, σ => (σ.copy.getStaleSnapshot, σ)
  | .set data, σ => ((), { σ with copy := ⟨data, σ.wall⟩ })

/-- The `except` clause of `get_jwks`: the cached copy, however old. -/
def staleOrRaise : Program calls Json := do
  let (stale, _) ← Program.perform (I := calls) .getStaleSnapshot
  match stale with
  | some data => return data
  | none => .raise .runtimeError

/-- The end of `get_jwks`: the body is stored, and its keys are counted for the log. -/
def storeJwks (data : Json) : Program calls Json := do
  Program.perform (I := calls) (.set data)
  let keys ← Program.ofExcept (liftPy (getOr data "keys" (.arr [])))
  let _ ← Program.ofExcept (liftPy (len keys))
  return data

/-- The part of `get_jwks` after the fetch. Both exceptions of the `try` are caught. -/
def afterFetch (reply : JwksReply) : Program calls Json :=
  match reply.body with
  | .error _ => staleOrRaise
  | .ok data => storeJwks data

/-- `get_jwks`, with the settings. -/
def getJwks (isBaseUrl tenantPath : String) : Program calls Json := do
  match ← Program.perform (I := calls) .getFresh with
  | some fresh => return fresh
  | none =>
    let reply ← Program.request (I := calls) (jwksUrl isBaseUrl tenantPath)
    afterFetch reply

/-- An MCP server that calls `get_jwks`. The settings do not change. -/
def server (isBaseUrl tenantPath : String) : System where
  I := calls
  State := Cache
  Job := Unit
  Out := Json
  exec := execSection
  program _ := getJwks isBaseUrl tenantPath
  passes := Cache.Passes

instance (isBaseUrl tenantPath : String) : DecidableEq (server isBaseUrl tenantPath).Out :=
  inferInstanceAs (DecidableEq Json)

/-- Entries and events of the server. -/
abbrev CallEntry := Entry calls Cache Unit Json
abbrev CallEvent := Event calls Unit Json

/-! ## What a call does -/

/-- A JSON object whose `keys` have a length, if it has any. -/
def IsKeySet (data : Json) : Prop :=
  ∃ d n, data = .obj d ∧ len ((Dict.get d "keys").getD (.arr [])) = .ok n

/-- The event stores a JWKS. -/
def Stores (e : CallEvent) : Prop := ∃ data a, e = .op (.set data) a

/-- The trace of a call that waits for the reply to its fetch. -/
def fetching (url : String) : List CallEvent := [.send url, .op .getFresh none, .spawn ()]

/-- An event that the trace of its call accounts for. -/
structure Accounts (e : CallEvent) (h : List CallEvent) : Prop where
  received : ∀ url r, e = .recv url r → h = fetching url
  /-- The body of a successful reply is stored at once. -/
  stores : ∀ data a, e = .op (.set data) a →
    ∃ url r, h = .recv url r :: fetching url ∧ JwksReply.body r = .ok data
  /-- A call raises a `RuntimeError` when nothing is cached, or what comes of a body that is no key
  set. -/
  raises : ∀ x, e = .finish (.error x) →
    (x = .runtimeError ∧ ∃ time t, h = .op .getStaleSnapshot (none, time) :: t) ∨
      ∃ url r data, .recv url r ∈ h ∧ JwksReply.body r = .ok data ∧ ¬ IsKeySet data

section
variable {isBaseUrl tenantPath : String}

/-- The judgement of a call. -/
abbrev Accounted (isBaseUrl tenantPath : String) (p : Program calls Json) (h : List CallEvent) :
    Prop :=
  Local (S := server isBaseUrl tenantPath) Accounts (fun x h => Accounts (.finish x) h) p h

/-- A key set that is returned is accounted for. -/
theorem accounts_finish_ok (data : Json) (h : List CallEvent) : Accounts (.finish (.ok data)) h :=
  ⟨nofun, nofun, nofun⟩

/-- The stale copy, or the exception, is accounted for. -/
theorem staleOrRaise_accounted (h : List CallEvent) :
    Accounted isBaseUrl tenantPath staleOrRaise h := by
  rintro ⟨stale, time⟩
  refine ⟨⟨nofun, nofun, nofun⟩, ?_⟩
  cases stale with
  | some data => exact accounts_finish_ok data _
  | none =>
    refine ⟨nofun, nofun, ?_⟩
    rintro x ⟨⟩
    exact .inl ⟨rfl, time, h, rfl⟩

/-- A body that is no key set makes `get_jwks` raise after it was stored. -/
theorem storeJwks_accounted {url : String} {r : JwksReply} {data : Json}
    (hr : JwksReply.body r = .ok data) :
    Accounted isBaseUrl tenantPath (storeJwks data) (.recv url r :: fetching url) := by
  intro a
  refine ⟨⟨nofun, ?_, nofun⟩, ?_⟩
  · rintro data' a' ⟨⟩
    exact ⟨url, r, rfl, hr⟩
  · have raised (hk : ¬ IsKeySet data) (x : AuthExn) : Accounts (.finish (.error x))
        (.op (.set data) a :: .recv url r :: fetching url) :=
      ⟨nofun, nofun, fun _ _ => .inr ⟨url, r, data, .tail _ (.head _), hr, hk⟩⟩
    change Accounted isBaseUrl tenantPath
      (Program.ofExcept (liftPy (getOr data "keys" (.arr []))) >>=
        fun keys => Program.ofExcept (liftPy (len keys)) >>= fun _ => .ret data) _
    refine Local.bind (Local.ofExcept ?_)
    cases data with
    | null | bool | num | str | arr => exact raised (by rintro ⟨d, n, ⟨⟩, -⟩) _
    | obj d =>
      change Accounted isBaseUrl tenantPath (Program.ofExcept
        (liftPy (len ((Dict.get d "keys").getD (.arr [])))) >>= fun _ => .ret (.obj d)) _
      refine Local.bind (Local.ofExcept ?_)
      cases hlen : len ((Dict.get d "keys").getD (.arr [])) with
      | ok n => exact accounts_finish_ok (.obj d) _
      | error e =>
        refine raised ?_ _
        rintro ⟨d', n, ⟨⟩, hn⟩
        rw [hlen] at hn
        cases hn

/-- Every event of a call is accounted for. -/
theorem getJwks_accounted (j : Unit) :
    Accounted isBaseUrl tenantPath ((server isBaseUrl tenantPath).program j) [.spawn j] := by
  intro fresh
  refine ⟨⟨nofun, nofun, nofun⟩, ?_⟩
  cases fresh with
  | some data => exact accounts_finish_ok data _
  | none =>
    refine ⟨⟨nofun, nofun, nofun⟩, fun r => ⟨⟨?_, nofun, nofun⟩, ?_⟩⟩
    · rintro url r' ⟨⟩
      rfl
    · change Accounted isBaseUrl tenantPath (afterFetch r) (.recv _ r :: fetching _)
      unfold afterFetch
      cases hr : JwksReply.body r with
      | error e => exact staleOrRaise_accounted _
      | ok data => exact storeJwks_accounted hr

/-! ## What is cached -/

/-- What stores nothing leaves the copy. -/
theorem copy_after {x : CallEntry} (h : ¬ Stores x.event) :
    (Event.after (S := server isBaseUrl tenantPath) x.event x.state).copy = x.state.copy := by
  obtain ⟨i, σ, e⟩ := x
  cases e with
  | op o a =>
    cases o with
    | getFresh | getStaleSnapshot => rfl
    | set data => exact absurd ⟨data, a, rfl⟩ h
  | spawn | send | recv | finish => rfl

/-- What is cached was stored last of all. -/
theorem copy_eq {w₀ : Rat} {w : (server isBaseUrl tenantPath).World}
    (hw : Consistent (S := server isBaseUrl tenantPath) (Cache.start w₀) w) :
    w.state.copy = .empty ∨ ∃ l₁ k s data l₂,
      w.log = l₁ ++ ⟨k, s, .op (.set data) ()⟩ :: l₂ ∧ w.state.copy = ⟨data, s.wall⟩ := by
  have hpass : ∀ σ σ' : Cache, (server isBaseUrl tenantPath).passes σ σ' → σ'.copy = σ.copy := by
    rintro σ σ' ⟨w', rfl⟩
    rfl
  obtain ⟨hs, -⟩ | ⟨l₁, ⟨k, s, e⟩, l₂, hlog, ⟨data, a, rfl⟩, hs, -⟩ :=
    hw.last_write (f := Cache.copy) (W := fun x => Stores x.event) (fun x => copy_after) hpass
  · exact .inl hs
  · exact .inr ⟨l₁, k, s, data, l₂, hlog, hs⟩

/-- A call receives one reply. -/
theorem recv_unique {w₀ : Rat} {c : (server isBaseUrl tenantPath).Config}
    (hc : Preempted (S := server isBaseUrl tenantPath) (Cache.start w₀) c) {i : Nat}
    {url url' : String} {r r' : JwksReply}
    (h : .recv url r ∈ trace (S := server isBaseUrl tenantPath) i c.world.log)
    (h' : .recv url' r' ∈ trace (S := server isBaseUrl tenantPath) i c.world.log) : r = r' := by
  have split : ∀ {url : String} {r : JwksReply},
      .recv url r ∈ trace (S := server isBaseUrl tenantPath) i c.world.log →
      ∃ t : List CallEvent, trace (S := server isBaseUrl tenantPath) i c.world.log =
        (t ++ .recv url r :: fetching url : List CallEvent) := by
    intro url r h
    obtain ⟨l₁, s, l₂, hl⟩ := mem_trace_split h
    have hj := (hc.justified getJwks_accounted hl).resolve_left (by rintro ⟨_, ⟨⟩, -⟩)
    refine ⟨trace (S := server isBaseUrl tenantPath) i l₁, ?_⟩
    rw [hl, trace_append, trace_cons_self, hj.received url r rfl]
    rfl
  obtain ⟨t, ht⟩ := split h
  obtain ⟨t', ht'⟩ := split h'
  have he := (List.append_inj' (ht.symm.trans ht') rfl).2
  cases he
  rfl

/-! ## Runs -/

/-- Every successful fetch of the run brings a key set. -/
structure BringsKeySets (c : (server isBaseUrl tenantPath).Config) : Prop where
  keySet : ∀ i url r data, .recv url r ∈ trace (S := server isBaseUrl tenantPath) i c.world.log →
    JwksReply.body r = .ok data → IsKeySet data

/-- What the cache is for: an outage or a garbled reply does not break what was working. -/
structure Tolerant (c : (server isBaseUrl tenantPath).Config) : Prop where
  /-- At every moment, what is cached is a JSON object that a successful fetch has brought. -/
  cached : ∀ w, Moment c w → w.state.copy.data = .null ∨ ∃ d k url r,
    w.state.copy.data = .obj d ∧ .recv url r ∈ trace (S := server isBaseUrl tenantPath) k w.log ∧
      JwksReply.body r = .ok (.obj d)
  /-- A call whose fetch brings no JSON object leaves the cached copy and its time alone. -/
  failed : ∀ i url r, .recv url r ∈ trace (S := server isBaseUrl tenantPath) i c.world.log →
    (∀ d, JwksReply.body r ≠ .ok (.obj d)) → ∀ x ∈ c.world.log, x.task = i →
      (Event.after (S := server isBaseUrl tenantPath) x.event x.state).copy = x.state.copy
  /-- A call raises nothing but a `RuntimeError`, and only when it has seen that nothing is
  cached. -/
  raises : ∀ i e, .finish (.error e) ∈ trace (S := server isBaseUrl tenantPath) i c.world.log →
    e = .runtimeError ∧ ∃ s time, ⟨i, s, .op .getStaleSnapshot (none, time)⟩ ∈ c.world.log ∧
      s.copy.data = .null

/-- What is stored is the body of the reply that the call has just received. -/
theorem stored_body {w₀ : Rat} {c : (server isBaseUrl tenantPath).Config}
    (hc : Preempted (S := server isBaseUrl tenantPath) (Cache.start w₀) c) {l₁ l₂ : List CallEntry}
    {i : Nat} {s : Cache} {data : Json} {a : Unit}
    (hl : c.world.log = l₁ ++ ⟨i, s, .op (.set data) a⟩ :: l₂) :
    ∃ url r, .recv url r ∈ trace (S := server isBaseUrl tenantPath) i l₂ ∧
      JwksReply.body r = .ok data := by
  have hj := (hc.justified getJwks_accounted hl).resolve_left (by rintro ⟨_, ⟨⟩, -⟩)
  obtain ⟨url, r, ht, hr⟩ := hj.stores data a rfl
  exact ⟨url, r, ht ▸ .head _, hr⟩

/-- In a run whose successful fetches bring key sets, whatever the schedule, the wall clock and the
failures, the cache is what it is for. -/
theorem get_jwks_tolerant {w₀ : Rat} {c : (server isBaseUrl tenantPath).Config}
    (hc : Preempted (S := server isBaseUrl tenantPath) (Cache.start w₀) c) (hk : BringsKeySets c) :
    Tolerant c where
  cached w hw := by
    obtain hs | ⟨l₁, k, s, data, l₂, hlog, hs⟩ := copy_eq (hw.consistent hc.consistent)
    · exact .inl (congrArg Copy.data hs)
    · obtain ⟨l₀, hl₀⟩ := hw.suffix
      have hl : c.world.log = (l₀ ++ l₁) ++ ⟨k, s, .op (.set data) ()⟩ :: l₂ := by
        rw [← hl₀, hlog, List.append_assoc]
      obtain ⟨url, r, hrecv, hr⟩ := stored_body hc hl
      have hin {l : List CallEntry} (hsub : l₂ ⊆ l) :
          .recv url r ∈ trace (S := server isBaseUrl tenantPath) k l := by
        obtain ⟨s', hs'⟩ := mem_trace.1 hrecv
        exact mem_trace.2 ⟨s', hsub hs'⟩
      have hlog₂ : l₂ ⊆ w.log := hlog ▸ fun x hx => List.mem_append_right _ (.tail _ hx)
      have hrecv := hin fun _ hx => hw.suffix.subset (hlog₂ hx)
      obtain ⟨d, n, rfl, -⟩ := hk.keySet k url r data hrecv hr
      exact .inr ⟨d, k, url, r, congrArg Copy.data hs, hin hlog₂, hr⟩
  failed i url r hrecv hbad := by
    rintro ⟨k, σ, e⟩ hx rfl
    refine copy_after ?_
    rintro ⟨data, a, rfl⟩
    obtain ⟨l₁, l₂, hl⟩ := List.append_of_mem hx
    obtain ⟨url', r', hrecv', hr'⟩ := stored_body hc hl
    obtain ⟨s', hs'⟩ := mem_trace.1 hrecv'
    have hin : .recv url' r' ∈ trace (S := server isBaseUrl tenantPath) k c.world.log :=
      mem_trace.2 ⟨s', hl ▸ List.mem_append_right _ (.tail _ hs')⟩
    obtain rfl := recv_unique hc hrecv hin
    obtain ⟨d, n, rfl, -⟩ := hk.keySet k url' r data hin hr'
    exact hbad d hr'
  raises i e h := by
    obtain ⟨t, ht, hend⟩ := hc.finished getJwks_accounted h
    obtain ⟨rfl, time, t', rfl⟩ | ⟨url, r, data, hrecv, hr, hnot⟩ := hend.raises e rfl
    · refine ⟨rfl, ?_⟩
      obtain ⟨l₁, s, l₂, hl⟩ := mem_trace_split (S := server isBaseUrl tenantPath) (i := i)
        (l := c.world.log) (e := .op .getStaleSnapshot (none, time)) (ht ▸ .tail _ (.head _))
      refine ⟨s, time, hl ▸ List.mem_append_right _ (.head _), ?_⟩
      have hanswer : (none, time) = s.copy.getStaleSnapshot := (hc.consistent.before hl).2
      by_contra hn
      rw [Copy.getStaleSnapshot, if_pos hn] at hanswer
      cases hanswer
    · exact absurd (hk.keySet i url r data (ht ▸ .tail _ hrecv) hr) hnot

end

/-- The wall clock shows `w`. -/
def atTime (c : (server "https://is" "").Config) (w : Rat) : (server "https://is" "").Config :=
  ⟨⟨⟨Cache.copy c.world.state, w⟩, c.world.log⟩, c.task⟩

/-- A server that has fetched this, and is called again when its copy is no longer fresh. -/
def fetchedThen (first second : JwksReply) : (server "https://is" "").Config :=
  [.spawn 1 (), .reply 1 second].foldl Config.play
    (atTime ([.spawn 0 (), .reply 0 first].foldl Config.play (Config.start (Cache.start 0))) 301)

/-- The run of the example is preemptive. -/
theorem fetchedThen_preempted (first second : JwksReply) :
    Preempted (S := server "https://is" "") (Cache.start 0) (fetchedThen first second) := by
  have h := Reachable.play (S := server "https://is" "") (σ := Cache.start 0) .refl
    [.spawn 0 (), .reply 0 first]
  exact (Reachable.play (h.tail (.pass ⟨301, rfl⟩)) [.spawn 1 (), .reply 1 second]).preempted

/-- A key set. -/
def oneKey : Json := .obj [("keys", .arr [.obj [("kid", .str "a")]])]

/-- The replies that calls of a run have received. -/
def replies (c : (server "https://is" "").Config) : List JwksReply :=
  c.world.log.filterMap fun x => match x.event with
    | .recv _ r => some r
    | _ => none

/-- Replies with key sets bring nothing else. -/
theorem bringsKeySets_of_replies {c : (server "https://is" "").Config}
    (h : ∀ r ∈ replies c, ∀ data, JwksReply.body r = .ok data → IsKeySet data) :
    BringsKeySets c where
  keySet i url r data hrecv := by
    obtain ⟨s, hs⟩ := mem_trace.1 hrecv
    exact h r (List.mem_filterMap.2 ⟨_, hs, rfl⟩) data

/-- After an outage the copy that was fetched before is still there. -/
theorem get_jwks_tolerant_outage :
    Tolerant (fetchedThen (.response 200 (some oneKey)) .httpError) := by
  refine get_jwks_tolerant (fetchedThen_preempted _ _) (bringsKeySets_of_replies ?_)
  have hreplies : replies (fetchedThen (.response 200 (some oneKey)) .httpError) =
    [.httpError, .response 200 (some oneKey)] := by decide +kernel
  rw [hreplies]
  intro r hr data hdata
  simp only [List.mem_cons, List.not_mem_nil, or_false] at hr
  rcases hr with rfl | rfl
  · cases hdata
  · cases hdata
    exact ⟨_, 1, rfl, rfl⟩

/-- A reply that is a list replaces the key set that was fetched before. -/
theorem garbled_reply_stored : ¬ ∀ c, Preempted (S := server "https://is" "") (Cache.start 0) c →
    Tolerant c := by
  intro h
  have h := (h _ (fetchedThen_preempted (.response 200 (some oneKey))
    (.response 200 (some (.arr []))))).cached _ .now
  have hcopy : (fetchedThen (.response 200 (some oneKey))
    (.response 200 (some (.arr [])))).world.state.copy.data = .arr [] := by decide +kernel
  rw [hcopy] at h
  obtain ⟨⟨⟩⟩ | ⟨d, k, url, r, ⟨⟩, -⟩ := h

end JwksCache

end Teamspace.Agent
