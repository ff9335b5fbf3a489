import Mathlib.Algebra.Order.Ring.Unbundled.Rat
import Teamspace.Common.JwksFetch
import Teamspace.Lib.LastWrite

/-!
# The JWKS cache of the Business API

`JWKSCache` and `get_jwks` of `api/auth.py`: a single slot that holds a JWKS, the pair of settings
that it was fetched for and the instant at which it was stored. The calls of `get_jwks` share the
slot and the monotonic clock, and a call is interrupted at will. What a call returns was fetched by
the call itself, or is what the last successful fetch of all stored, for the same settings, less
than 300 seconds before (`get_jwks_sound`). The slot is written last, so a call that raises has not
touched it.
-/

namespace Teamspace.Api

open Teamspace.Common Teamspace.Lib Teamspace.Py Teamspace.Lib.System

namespace JwksCache

/-! ## The slot -/

/-- `_JWKS_TTL_SECONDS`. -/
def ttlSeconds : Rat := 300

/-- The pair `(is_base_url, tenant_path)`. -/
abbrev Key := String × String

/-- `JWKSCache`, with `None` for data that is not there. -/
structure Slot where
  data : Json
  time : Rat
  key : Option Key
  deriving DecidableEq

/-- The class as it is defined: nothing is cached. -/
def Slot.empty : Slot := ⟨.null, 0, none⟩

/-- `JWKSCache.get`. -/
def Slot.get (slot : Slot) (key : Key) (now : Rat) : Option Json :=
  if slot.data ≠ .null ∧ slot.key = some key ∧ now - slot.time < ttlSeconds then some slot.data
  else none

/-- What the calls share: the slot and `time.monotonic()`. -/
structure Shared where
  slot : Slot
  monotonic : Rat

/-- A service that has just started. -/
def Shared.start (monotonic : Rat) : Shared := ⟨.empty, monotonic⟩

/-- Time passes. -/
def Shared.Passes (σ σ' : Shared) : Prop :=
  ∃ m, σ.monotonic ≤ m ∧ σ' = { σ with monotonic := m }

/-! ## Calls -/

/-- The sections that the lock protects. -/
inductive Op
  | get (key : Key)
  | set (key : Key) (data : Json)
  deriving DecidableEq

/-- The answer of a section. -/
def Op.Ans : Op → Type
  | .get _ => Option Json
  | .set .. => Unit

/-- The sections of a call, and its request for a URL. -/
def interface : Interface := ⟨Op, Op.Ans, String, JwksReply, Exn⟩

/-- A section takes place. -/
def exec : (o : Op) → Shared → o.Ans × Shared
  | .get key, σ => (σ.slot.get key σ.monotonic, σ)
  | .set key data, σ => ((), { σ with slot := ⟨data, σ.monotonic, some key⟩ })

/-- `raise HTTPException(status_code=503, detail="JWKS unavailable")`. -/
def unavailable : Exn := .httpException 503 "JWKS unavailable"

/-- The `except` clause of `get_jwks`. -/
def exceptHttpError : Exn → Exn
  | .httpError => unavailable
  | e => e

/-- The end of `get_jwks`: the keys are counted for the log, and the body is stored. -/
def storeJwks (key : Key) (data : Json) : Program interface Json := do
  let keys ← Program.ofExcept (getOr data "keys" (.arr []))
  let _ ← Program.ofExcept (len keys)
  Program.perform (I := interface) (.set key data)
  return data

/-- `get_jwks`. -/
def getJwks (isBaseUrl tenantPath : String) : Program interface Json := do
  let key := (isBaseUrl, tenantPath)
  match ← Program.perform (I := interface) (.get key) with
  | some cached => return cached
  | none =>
    let reply ← Program.request (I := interface) (jwksUrl isBaseUrl tenantPath)
    let data ← Program.ofExcept (reply.body.mapError exceptHttpError)
    storeJwks key data

/-- A service that calls `get_jwks`. -/
def system : System where
  I := interface
  State := Shared
  Job := Key
  Out := Json
  exec := exec
  program key := getJwks key.1 key.2
  passes := Shared.Passes

instance : DecidableEq system.Out := inferInstanceAs (DecidableEq Json)

/-- Entries and events of the service. -/
abbrev CallEntry := Entry interface Shared Key Json
abbrev CallEvent := Event interface Key Json

/-! ## What a call does -/

/-- In the trace `h` of a call, `data` was fetched for `key`: it is the body of a successful
reply. -/
def Fetched (h : List CallEvent) (key : Key) (data : Json) : Prop :=
  ∃ statusCode, IsSuccess statusCode ∧
    .recv (jwksUrl key.1 key.2) (.response statusCode (some data)) ∈ h

/-- The event stores a JWKS. -/
def Stores (e : CallEvent) : Prop := ∃ key data a, e = .op (.set key data) a

/-- An event that the trace of its call accounts for. -/
structure Accounts (e : CallEvent) (h : List CallEvent) : Prop where
  /-- What is stored was fetched, for the key of the call. -/
  stores : ∀ key data a, e = .op (.set key data) a → data ≠ .null ∧ Fetched h key data
  /-- What is returned was fetched, or found in the slot, for the key of the call. -/
  returns : ∀ data, e = .finish (.ok data) →
    ∃ key, .spawn key ∈ h ∧ (Fetched h key data ∨ .op (.get key) (some data) ∈ h)
  /-- A call that raises has stored nothing. -/
  raises : ∀ x, e = .finish (.error x) → ∀ e' ∈ h, ¬ Stores e'

/-- Storing what was fetched is accounted for. -/
theorem storeJwks_accounts {key : Key} {data : Json} {h : List CallEvent}
    (hspawn : .spawn key ∈ h) (hfetched : Fetched h key data) (hset : ∀ e ∈ h, ¬ Stores e) :
    Local (S := system) Accounts (fun x h => Accounts (.finish x) h) (storeJwks key data) h := by
  have raised : ∀ e : Exn, Accounts (.finish (.error e)) h :=
    fun _ => ⟨nofun, nofun, fun _ _ => hset⟩
  refine Local.bind (Local.ofExcept ?_)
  cases data with
  | null | bool | num | str | arr => exact raised .attributeError
  | obj d =>
    dsimp only [getOr, Json.get]
    refine Local.bind (Local.ofExcept ?_)
    cases len ((Dict.get d "keys").getD (.arr [])) with
    | error e => exact raised e
    | ok n =>
      intro a
      refine ⟨⟨?_, nofun, nofun⟩, ⟨nofun, ?_, nofun⟩⟩
      · rintro key' data' a' ⟨⟩
        exact ⟨by rintro ⟨⟩, hfetched⟩
      · rintro data' ⟨⟩
        obtain ⟨statusCode, hs, hrecv⟩ := hfetched
        exact ⟨key, .tail _ hspawn, .inl ⟨statusCode, hs, .tail _ hrecv⟩⟩

/-- So is every event of a call. -/
theorem getJwks_accounts (key : Key) :
    Local (S := system) Accounts (fun x h => Accounts (.finish x) h) (system.program key)
      [.spawn key] := by
  change Local (S := system) _ _ (getJwks key.1 key.2) _
  intro cached
  refine ⟨⟨nofun, nofun, nofun⟩, ?_⟩
  cases cached with
  | some data =>
    refine ⟨nofun, ?_, nofun⟩
    rintro data' ⟨⟩
    exact ⟨key, .tail _ (.head _), .inr (.head _)⟩
  | none =>
    refine ⟨⟨nofun, nofun, nofun⟩, fun r => ⟨⟨nofun, nofun, nofun⟩, ?_⟩⟩
    -- up to here the call has stored nothing
    have hset : ∀ e ∈ ([.recv (jwksUrl key.1 key.2) r, .send (jwksUrl key.1 key.2),
        .op (.get key) none, .spawn key] : List CallEvent), ¬ Stores e := by
      intro e he
      simp only [List.mem_cons, List.not_mem_nil, or_false] at he
      rcases he with rfl | rfl | rfl | rfl <;> rintro ⟨key', data, a, ⟨⟩⟩
    change Local (S := system) _ _
      (Program.ofExcept (JwksReply.body r |>.mapError exceptHttpError) >>= storeJwks key) _
    refine Local.bind (Local.ofExcept ?_)
    cases hr : JwksReply.body r with
    | error e => exact ⟨nofun, nofun, fun _ _ => hset⟩
    | ok data =>
      obtain ⟨statusCode, hs, rfl⟩ := JwksReply.eq_of_body hr
      exact storeJwks_accounts (.tail _ (.tail _ (.tail _ (.head _))))
        ⟨statusCode, hs, .head _⟩ hset

/-! ## What the slot holds -/

/-- What stores nothing leaves the slot. -/
theorem slot_after {x : CallEntry} (h : ¬ Stores x.event) :
    (Event.after (S := system) x.event x.state).slot = x.state.slot := by
  obtain ⟨i, σ, e⟩ := x
  cases e with
  | op o a =>
    cases o with
    | get key => rfl
    | set key data => exact absurd ⟨key, data, a, rfl⟩ h
  | spawn | send | recv | finish => rfl

/-- What the slot holds was stored last of all. -/
theorem slot_eq {m : Rat} {w : system.World} (hw : Consistent (S := system) (Shared.start m) w) :
    w.state.slot = .empty ∨ ∃ l₁ k s key data l₂,
      w.log = l₁ ++ ⟨k, s, .op (.set key data) ()⟩ :: l₂ ∧
        w.state.slot = ⟨data, s.monotonic, some key⟩ ∧ ∀ x ∈ l₁, ¬ Stores x.event := by
  have hpass : ∀ σ σ' : Shared, system.passes σ σ' → σ'.slot = σ.slot := by
    rintro σ σ' ⟨m', -, rfl⟩
    rfl
  obtain ⟨hs, -⟩ | ⟨l₁, ⟨k, s, e⟩, l₂, hlog, ⟨key, data, a, rfl⟩, hs, hl₁⟩ :=
    hw.last_write (f := Shared.slot) (W := fun x => Stores x.event) (fun x => slot_after) hpass
  · exact .inl hs
  · exact .inr ⟨l₁, k, s, key, data, l₂, hlog, hs, hl₁⟩

/-- Time does not go back. -/
theorem monotonic_le {m : Rat} {w : system.World}
    (hw : Consistent (S := system) (Shared.start m) w) :
    ∀ x ∈ w.log, x.state.monotonic ≤ w.state.monotonic := by
  refine hw.clock_le (f := Shared.monotonic) (fun o σ => ?_) ?_
  · cases o <;> exact le_rfl
  · rintro σ σ' ⟨m', hle, rfl⟩
    exact hle

/-- `data` was in the slot when task `i` asked for `key`: task `k` had fetched it for the same key
and stored it, at an instant less than 300 seconds before, and nothing was stored since. -/
def Cached (l : List CallEntry) (i : Nat) (key : Key) (data : Json) : Prop :=
  ∃ (now s : Shared) (k : Nat) (l₁ l₂ l₃ : List CallEntry),
    l = l₁ ++ ⟨i, now, .op (.get key) (some data)⟩ ::
      (l₂ ++ ⟨k, s, .op (.set key data) ()⟩ :: l₃) ∧
    Fetched (trace (S := system) k l₃) key data ∧
    s.monotonic ≤ now.monotonic ∧ now.monotonic < s.monotonic + 300 ∧
    ∀ x ∈ l₂, ¬ Stores x.event

/-- What a call finds in the slot was fetched for its key, and is what was stored last. -/
theorem cached_of_get {m : Rat} {c : system.Config}
    (hc : Preempted (S := system) (Shared.start m) c) {i : Nat} {key : Key} {data : Json}
    (h : .op (.get key) (some data) ∈ trace (S := system) i c.world.log) :
    Cached c.world.log i key data := by
  obtain ⟨l₁, now, l, hlog⟩ := mem_trace_split h
  obtain ⟨hbefore, hanswer⟩ := hc.consistent.before hlog
  have hget : some data = now.slot.get key now.monotonic := hanswer
  unfold Slot.get at hget
  split at hget
  · next hfresh =>
    obtain ⟨hdata, hkey, hlt⟩ := hfresh
    have hd : data = now.slot.data := Option.some.inj hget
    obtain hs | ⟨l₂, k, s, key', data', l₃, hl, hs, hl₂⟩ := slot_eq hbefore
    · have hs : now.slot = .empty := hs
      rw [hs] at hdata
      exact absurd rfl hdata
    · have hs : now.slot = ⟨data', s.monotonic, some key'⟩ := hs
      have hl : l = l₂ ++ ⟨k, s, .op (.set key' data') ()⟩ :: l₃ := hl
      rw [hs] at hd hkey hlt
      subst hd hl
      cases hkey
      have hlog' : c.world.log = (l₁ ++ ⟨i, now, .op (.get key) (some data)⟩ :: l₂) ++
          ⟨k, s, .op (.set key data) ()⟩ :: l₃ := by
        rw [hlog, List.append_assoc]
        rfl
      have hstored := (hc.justified getJwks_accounts hlog').resolve_left (by rintro ⟨_, ⟨⟩, -⟩)
      have hle := monotonic_le hbefore _ (List.mem_append_right l₂ (.head _))
      exact ⟨now, s, k, l₁, l₂, l₃, hlog, (hstored.stores _ _ _ rfl).2, hle,
        sub_lt_iff_lt_add'.1 hlt, hl₂⟩
  · cases hget

/-- Whatever the schedule and the replies, a call returns what it has just fetched for its key, or
what the last successful fetch of all stored, less than 300 seconds before and for the same key; and
nothing that a call does which raises changes the slot. -/
theorem get_jwks_sound {m : Rat} {c : system.Config}
    (hc : Preempted (S := system) (Shared.start m) c) (i : Nat) :
    (∀ data, .finish (.ok data) ∈ trace (S := system) i c.world.log →
      ∃ key, .spawn key ∈ trace (S := system) i c.world.log ∧
        (Fetched (trace (S := system) i c.world.log) key data ∨ Cached c.world.log i key data)) ∧
    ∀ e, .finish (.error e) ∈ trace (S := system) i c.world.log →
      ∀ x ∈ c.world.log, x.task = i →
        (Event.after (S := system) x.event x.state).slot = x.state.slot := by
  constructor
  · intro data h
    obtain ⟨t, ht, hend⟩ := hc.finished getJwks_accounts h
    obtain ⟨key, hspawn, hdata⟩ := hend.returns data rfl
    rw [ht]
    refine ⟨key, .tail _ hspawn, ?_⟩
    rcases hdata with ⟨statusCode, hs, hrecv⟩ | hget
    · exact .inl ⟨statusCode, hs, .tail _ hrecv⟩
    · exact .inr (cached_of_get hc (ht ▸ .tail _ hget))
  · rintro e h ⟨k, σ, e'⟩ hx rfl
    obtain ⟨t, ht, hend⟩ := hc.finished getJwks_accounts h
    refine slot_after ?_
    have hmem : e' ∈ trace (S := system) k c.world.log := mem_trace.2 ⟨σ, hx⟩
    rw [ht] at hmem
    rcases List.mem_cons.1 hmem with rfl | hmem
    · rintro ⟨key, data, a, ⟨⟩⟩
    · exact hend.raises e rfl e' hmem

/-- A key set. -/
def oneKey : Json := .obj [("keys", .arr [.obj [("kid", .str "a")]])]

/-- A JWKS is fetched, and then found in the slot. -/
def calledTwice : system.Config :=
  [.spawn 0 ("https://is", ""), .reply 0 (.response 200 (some oneKey)),
    .spawn 1 ("https://is", "")].foldl Config.play (Config.start (Shared.start 0))

/-- The key set of the example comes from the cache, and was fetched for the key. -/
theorem get_jwks_sound_cached :
    ∃ key, .spawn key ∈ trace (S := system) 1 calledTwice.world.log ∧
      (Fetched (trace (S := system) 1 calledTwice.world.log) key oneKey ∨
        Cached calledTwice.world.log 1 key oneKey) :=
  (get_jwks_sound (Reachable.play .refl _).preempted 1).1 oneKey
    (finish_of_returned (by decide +kernel))

end JwksCache

end Teamspace.Api
