import Mathlib.Algebra.Order.Field.Rat
import Mathlib.Data.Nat.Cast.Order.Ring
import Teamspace.Lib.Expiring
import Teamspace.Lib.Separator
import Teamspace.Py.Json

/-!
# The agent's store

`agent/store.py`: entries under a namespace and a key, each with a time to live. The managers own
ten namespaces. A backend composes the two into one string (`compose`); no namespace contains the
separator, so distinct pairs have distinct composed keys (`compose_injective`) and the model may
key the entries by the pairs themselves. Expired entries are never read again, so removing them
lazily on a read, as `InMemoryStore.get` does, changes nothing that can be observed.
-/

namespace Teamspace.Agent

open Teamspace.Lib Teamspace.Py

/-- The namespaces of `StateManager`, `AuthManager` and `ChatHistoryManager`. -/
inductive Namespace
  | flowState
  | pendingMeeting
  | authUrl
  | agentCredentials
  | agentName
  | orgName
  | agentToken
  | oboToken
  | pkceVerifier
  | chatHistory
  deriving DecidableEq, Repr

/-- The string constant of a namespace. -/
def Namespace.name : Namespace → String
  | .flowState => "flow_state"
  | .pendingMeeting => "pending_meeting"
  | .authUrl => "auth_url"
  | .agentCredentials => "agent_credentials"
  | .agentName => "agent_name"
  | .orgName => "org_name"
  | .agentToken => "agent_token"
  | .oboToken => "obo_token"
  | .pkceVerifier => "pkce_verifier"
  | .chatHistory => "chat_history"

/-- `_compose`. -/
def compose (namespace' : Namespace) (key : String) : String :=
  "teamspace:agent:" ++ namespace'.name ++ ":" ++ key

/-- The name of a namespace has no separator. -/
theorem Namespace.sep_not_mem (n : Namespace) : ':' ∉ n.name.toList := by
  cases n <;> decide

/-- Each namespace has its own name. -/
theorem Namespace.name_injective {m n : Namespace} (h : m.name = n.name) : m = n := by
  cases m <;> cases n <;> simp_all [Namespace.name]

/-- A key: its prefix, the name, the separator and the rest. -/
theorem keyText_toList (n k : String) : ("teamspace:agent:" ++ n ++ ":" ++ k).toList =
    "teamspace:agent:".toList ++ (n.toList ++ ':' :: k.toList) := by
  have hs : ":".toList = [':'] := rfl
  simp only [String.toList_append, List.append_assoc, hs, List.singleton_append]

/-- So is the key of a namespace. -/
theorem compose_toList (n : Namespace) (k : String) : (compose n k).toList =
    "teamspace:agent:".toList ++ (n.name.toList ++ ':' :: k.toList) := keyText_toList n.name k

/-- Distinct pairs never share a composed key. -/
theorem compose_injective {m n : Namespace} {k l : String} (h : compose m k = compose n l) :
    m = n ∧ k = l := by
  have h := congrArg String.toList h
  rw [compose_toList, compose_toList] at h
  obtain ⟨hn, hk⟩ := append_sep_inj m.sep_not_mem n.sep_not_mem (List.append_cancel_left h)
  exact ⟨Namespace.name_injective (String.toList_inj.1 hn), String.toList_inj.1 hk⟩

/-- The entries of the store. -/
abbrev Store := Expiring (Namespace × String) Json

/-- `DEFAULT_TTL_SECONDS`. -/
def defaultTtlSeconds : Nat := 24 * 60 * 60

/-- The state that the requests of the agent service share: the store, the clocks (`monotonic`
for expiry in the store, `wall` for tokens and signed states), the number of random tokens drawn
so far, and the agent-config cache of `agent_config_cache.py`. -/
structure Shared where
  store : Store
  monotonic : Rat
  wall : Rat
  draws : Nat
  configCache : String → Option (Rat × Json)

/-- A service that has just started, with an empty store. -/
def Shared.start (monotonic wall : Rat) : Shared := ⟨.empty, monotonic, wall, 0, fun _ => none⟩

/-- Time passes. The monotonic clock never goes back, the wall clock may be adjusted. -/
def Shared.Passes (σ σ' : Shared) : Prop :=
  ∃ m w, σ.monotonic ≤ m ∧ σ' = { σ with monotonic := m, wall := w }

/-- `store.get`. -/
def Shared.get (σ : Shared) (namespace' : Namespace) (key : String) : Option Json :=
  σ.store.get σ.monotonic (namespace', key)

/-- `store.set`: a `ttl` of zero means no expiry. -/
def Shared.set (σ : Shared) (namespace' : Namespace) (key : String) (value : Json) (ttl : Nat) :
    Shared :=
  let expiresAt := if ttl = 0 then none else some (σ.monotonic + ttl)
  { σ with store := σ.store.put (namespace', key) value expiresAt }

/-- `store.delete`. -/
def Shared.delete (σ : Shared) (namespace' : Namespace) (key : String) : Shared :=
  { σ with store := σ.store.erase (namespace', key) }

namespace Shared

/-- What is read after a write is what was written. -/
theorem get_set_self {σ : Shared} {n : Namespace} {k : String} {v x : Json} {ttl : Nat}
    (h : (σ.set n k v ttl).get n k = some x) : x = v := Expiring.get_put_self h

/-- What was just set is read. -/
theorem get_set_now (σ : Shared) (n : Namespace) (k : String) (v : Json) (ttl : Nat) :
    (σ.set n k v ttl).get n k = some v := by
  refine Expiring.get_put_live σ.store (n, k) ?_
  unfold Lease.live
  by_cases h : ttl = 0
  · rw [if_pos h]
  · rw [if_neg h]
    exact decide_eq_true (le_add_of_nonneg_right (Nat.cast_nonneg ttl))

/-- A write leaves the other entries. -/
theorem store_set_of_ne (σ : Shared) {n n' : Namespace} {k k' : String}
    (h : (n', k') ≠ (n, k)) (v : Json) (ttl : Nat) :
    (σ.set n k v ttl).store (n', k') = σ.store (n', k') := Expiring.put_of_ne _ h ..

/-- After a write the other entries are read as before. -/
theorem get_set_of_ne (σ : Shared) {n n' : Namespace} {k k' : String} (h : (n', k') ≠ (n, k))
    (v : Json) (ttl : Nat) : (σ.set n k v ttl).get n' k' = σ.get n' k' :=
  Expiring.get_put_of_ne _ h ..

@[simp] theorem get_delete_self (σ : Shared) (n : Namespace) (k : String) :
    (σ.delete n k).get n k = none := Expiring.get_erase_self ..

/-- So they are after a deletion. -/
theorem get_delete_of_ne (σ : Shared) {n n' : Namespace} {k k' : String} (h : (n', k') ≠ (n, k)) :
    (σ.delete n k).get n' k' = σ.get n' k' := Expiring.get_erase_of_ne _ h ..

/-- Deleting an entry brings no other one in. -/
theorem get_of_get_delete {σ : Shared} {n n' : Namespace} {k k' : String} {x : Json}
    (h : (σ.delete n k).get n' k' = some x) : σ.get n' k' = some x := by
  by_cases he : (n', k') = (n, k)
  · cases he; simp at h
  · rwa [get_delete_of_ne σ he] at h

/-- The passage of time brings no entry in. -/
theorem Passes.get {σ σ' : Shared} (h : σ.Passes σ') {n : Namespace} {k : String} {x : Json}
    (hx : σ'.get n k = some x) : σ.get n k = some x := by
  obtain ⟨m, w, hm, rfl⟩ := h
  exact Expiring.get_of_le hm hx

end Shared

end Teamspace.Agent
