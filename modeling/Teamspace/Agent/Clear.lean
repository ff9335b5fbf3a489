import Teamspace.Agent.Symbolic

/-!
# What `/clear` deletes

`clear_thread` has no `await`, so nothing comes between its deletions, and the state that it leaves
is the one before with ten entries fewer at most (`clear_state`). Three managers own the namespaces
of the store. The teardown of `AuthManager.reset` covers all three of its own; `clear_obo_tokens`,
which `/clear` calls, leaves the PKCE verifiers out. So `/clear` removes a thread exactly where no
verifier of it is stored (`clear_removes_thread`), and another thread it never touches.
-/

namespace Teamspace.Agent

open Teamspace.Lib Teamspace.Py Teamspace.Lib.System

/-! ## Deletions under one key -/

/-- Delete what is stored under `key` in each of `namespaces`. -/
def Shared.deleteAll (σ : Shared) (namespaces : List Namespace) (key : String) : Shared :=
  namespaces.foldl (fun σ n => σ.delete n key) σ

namespace Shared

/-- An entry under another key, or in another namespace, stays as it is. -/
theorem deleteAll_store_of_ne (σ : Shared) {namespaces : List Namespace} {key k : String}
    {n : Namespace} (h : k ≠ key ∨ n ∉ namespaces) :
    (σ.deleteAll namespaces key).store (n, k) = σ.store (n, k) := by
  induction namespaces generalizing σ with
  | nil => rfl
  | cons m namespaces ih =>
    have hrest : k ≠ key ∨ n ∉ namespaces := h.imp id fun hn hm => hn (.tail _ hm)
    have hne : (n, k) ≠ (m, key) := by
      rintro he
      cases he
      rcases h with h | h
      · exact h rfl
      · exact h (.head _)
    exact (ih (σ.delete m key) hrest).trans (Expiring.erase_of_ne _ hne)

/-- Nothing is left under the key in the namespaces. -/
theorem deleteAll_store_self (σ : Shared) {namespaces : List Namespace} {key : String}
    {n : Namespace} (h : n ∈ namespaces) : (σ.deleteAll namespaces key).store (n, key) = none := by
  induction namespaces generalizing σ with
  | nil => cases h
  | cons m namespaces ih =>
    by_cases hn : n ∈ namespaces
    · exact ih (σ.delete m key) hn
    · obtain rfl : n = m := (List.mem_cons.1 h).resolve_right hn
      exact (deleteAll_store_of_ne _ (.inr hn)).trans (Expiring.erase_self _ _)

@[simp] theorem deleteAll_monotonic (σ : Shared) (namespaces : List Namespace) (key : String) :
    (σ.deleteAll namespaces key).monotonic = σ.monotonic := by
  induction namespaces generalizing σ with
  | nil => rfl
  | cons m namespaces ih => exact ih (σ.delete m key)

/-- The other namespaces are left. -/
theorem deleteAll_get_of_not_mem (σ : Shared) {namespaces : List Namespace} {key : String}
    {n : Namespace} (h : n ∉ namespaces) (k : String) :
    (σ.deleteAll namespaces key).get n k = σ.get n k := by
  unfold Shared.get Expiring.get
  rw [deleteAll_store_of_ne σ (.inr h), deleteAll_monotonic]

/-- In these nothing is left. -/
theorem deleteAll_get_self (σ : Shared) {namespaces : List Namespace} {key : String}
    {n : Namespace} (h : n ∈ namespaces) : (σ.deleteAll namespaces key).get n key = none := by
  unfold Shared.get Expiring.get
  rw [deleteAll_store_self σ h]

end Shared

/-! ## `/clear` -/

variable {Tok : Type} (E : Env Tok)

/-- The namespaces in which `clear_thread` deletes, in its order. -/
def clearedNamespaces : List Namespace :=
  [.oboToken, .agentToken, .chatHistory] ++ allNamespaces

/-- Only the PKCE verifiers are left out. -/
theorem mem_clearedNamespaces {n : Namespace} : n ∈ clearedNamespaces ↔ n ≠ .pkceVerifier := by
  cases n <;> decide

/-- `/clear` of thread `t`, served by task `i` without interruption. -/
def clear (c : (agentSystem E).Config) (i : Nat) (t : String) : (agentSystem E).Config :=
  c.run i ((agentSystem E).program (.clear t)) (c.world.emit i (.spawn (.clear t)))

/-- The task of a `/clear` ends where it started, having deleted its entries. -/
theorem clear_state (c : (agentSystem E).Config) (i : Nat) (t : String) :
    (clear E c i t).world.state = c.world.state.deleteAll clearedNamespaces t ∧
      (clear E c i t).task i = none :=
  ⟨rfl, Function.update_self ..⟩

/-- `/clear` leaves nothing of its thread and the rest of the store as it was, exactly where no
PKCE verifier of the thread is stored. -/
theorem clear_removes_thread (c : (agentSystem E).Config) (i : Nat) (t : String) :
    ((∀ n, (clear E c i t).world.state.get n t = none) ∧
      ∀ n k, k ≠ t → (clear E c i t).world.state.store (n, k) = c.world.state.store (n, k)) ↔
    c.world.state.get .pkceVerifier t = none := by
  rw [(clear_state E c i t).1]
  have kept : (c.world.state.deleteAll clearedNamespaces t).get .pkceVerifier t =
      c.world.state.get .pkceVerifier t :=
    Shared.deleteAll_get_of_not_mem _ (fun h => mem_clearedNamespaces.1 h rfl) t
  constructor
  · rintro ⟨h, -⟩
    exact kept.symm.trans (h .pkceVerifier)
  · intro h
    refine ⟨fun n => ?_, fun n k hk => Shared.deleteAll_store_of_ne _ (.inl hk)⟩
    by_cases hn : n = .pkceVerifier
    · subst hn
      exact kept.trans h
    · exact Shared.deleteAll_get_self _ (mem_clearedNamespaces.2 hn)

open Symbolic in
/-- A thread on which an `/authorize` was served keeps its verifier. -/
theorem verifier_survives_clear : ∃ c : (agentSystem env).Config,
    Reachable (S := agentSystem env) (Shared.start 0 0) c ∧
      ¬ ((∀ n, (clear env c 2 "t").world.state.get n "t" = none) ∧
        ∀ n k, k ≠ "t" →
          (clear env c 2 "t").world.state.store (n, k) = c.world.state.store (n, k)) := by
  refine ⟨play (chat 0 ++ [.spawn 1 (.authorize "t" "book")]), play_reachable _, fun h => ?_⟩
  have hv := h.1 .pkceVerifier
  revert hv
  decide +kernel

end Teamspace.Agent
