import Teamspace.Agent.OauthTraces
import Teamspace.Agent.Symbolic

/-!
# Failed OAuth steps

An `/authorize` without a redirect and a `/callback` that stops before the token exchange write
nothing; a `/callback` without its success page writes nothing of an authorization. This holds of
single operations, whatever other requests do between them, so the entries of a failed request may
be left out of a history.

There is one exception. `/authorize` deletes the tokens of the thread and stores a verifier before it
encodes the URL of its redirect, and an agent id with an unpaired surrogate cannot be encoded.
-/

namespace Teamspace.Agent

open Teamspace.Lib Teamspace.Py Teamspace.Lib.System

variable {Tok : Type} (E : Env Tok)

/-- No operation of task `i` changes what the store holds in the namespaces `P`. -/
def Unchanging (l : List (AgentEntry Tok)) (i : Nat) (P : Namespace → Prop) : Prop :=
  ∀ σ o a, ⟨i, σ, .op o a⟩ ∈ l → ∀ n k, P n → (exec E o σ).2.get n k = σ.get n k

/-- Task `i` sends an OBO token request. -/
def Exchanges (l : List (AgentEntry Tok)) (i : Nat) : Prop :=
  ∃ σ q, ⟨i, σ, .send q⟩ ∈ l ∧ q.IsObo E

/-- When task `i` is an `/authorize`, the agent id that it reads can be put into its URL. -/
def UrlEncodable (l : List (AgentEntry Tok)) (i : Nat) : Prop :=
  ∀ t action, Spawned l i (.authorize t action) → ∀ σ t' stored agentId agentSecret,
    ⟨i, σ, .op (.get .agentCredentials t') stored⟩ ∈ l →
    credentialsOf stored = .ok (agentId, agentSecret) → E.Encodes agentId

/-- What task `i`, ended with `x`, has to leave as it is when it fails. -/
structure LeavesIntact (l : List (AgentEntry Tok)) (i : Nat) (x : Except Exn (Outcome Tok)) :
    Prop where
  authorize : ∀ t action, Spawned l i (.authorize t action) →
    (∀ url cookie, x ≠ .ok (.page (.redirect url cookie))) → Unchanging E l i everywhere
  beforeExchange : ∀ code state cookie, Spawned l i (.callback code state cookie) →
    ¬ Exchanges E l i → Unchanging E l i everywhere
  callback : ∀ code state cookie, Spawned l i (.callback code state cookie) →
    x ≠ .ok (.page .authorized) → Unchanging E l i ofAuthorization

/-- An operation that does not write in `P` changes nothing there. -/
theorem exec_get_of_not_writesIn {P : Namespace → Prop} {o : Op} (ho : ¬ o.WritesIn P)
    (σ : Shared) {n : Namespace} (hn : P n) (k : String) : (exec E o σ).2.get n k = σ.get n k := by
  have other : ∀ {n' : Namespace} {k' : String}, ¬ P n' → (n, k) ≠ (n', k') := by
    intro n' k' hn' he
    cases he
    exact hn' hn
  cases o with
  | set n' k' v ttl => exact Shared.get_set_of_ne σ (other ho) v ttl
  | delete n' k' => exact Shared.get_delete_of_ne σ (other ho)
  | get | time | monotonic | tokenUrlsafe | validateMcpToken | cachedConfig | cacheConfig => rfl

section
variable {E} {σ₀ : Shared} {c : (agentSystem E).Config}
  (hc : Preempted (S := agentSystem E) σ₀ c)

include hc

/-- The end of a task is justified by all that the task did. -/
theorem finish_justified {i : Nat} {σ : Shared} {x : Except Exn (Outcome Tok)}
    (hx : ⟨i, σ, .finish x⟩ ∈ c.world.log) : ∃ h : AgentTrace Tok, Justified E (.finish x) h ∧
      (∀ s e, ⟨i, s, e⟩ ∈ c.world.log → e = .finish x ∨ e ∈ h) ∧
      ∀ e ∈ h, ∃ s, ⟨i, s, e⟩ ∈ c.world.log := by
  obtain ⟨l₁, l, hl⟩ := List.append_of_mem hx
  have hj := (hc.justified justified hl).resolve_left (by rintro ⟨j, ⟨⟩, -⟩)
  refine ⟨trace (S := agentSystem E) i l, hj, fun s e he => ?_, fun e he => ?_⟩
  · rw [hl, List.mem_append, List.mem_cons] at he
    rcases he with he | he | he
    · exact absurd rfl (hc.finish_last hl _ he)
    · cases he
      exact .inl rfl
    · exact .inr (mem_trace.2 ⟨s, he⟩)
  · obtain ⟨s, hs⟩ := mem_trace.1 he
    exact ⟨s, hl ▸ List.mem_append_right _ (.tail _ hs)⟩

/-- Failed OAuth steps leave the flow intact, when the URL of an `/authorize` can be encoded. -/
theorem failed_steps_intact {i : Nat} {σ : Shared} {x : Except Exn (Outcome Tok)}
    (hx : ⟨i, σ, .finish x⟩ ∈ c.world.log) (henc : UrlEncodable E c.world.log i) :
    LeavesIntact E c.world.log i x := by
  obtain ⟨h, hj, hl, hmem⟩ := finish_justified hc hx
  have start : ∀ {j}, Spawned c.world.log i j → .spawn j ∈ h := by
    rintro j ⟨s, hs⟩
    exact (hl s _ hs).resolve_left (by rintro ⟨⟩)
  have quiet : ∀ {P}, Quiet P h → Unchanging E c.world.log i P := by
    intro P hq s o a ho n k hn
    have hm := (hl s _ ho).resolve_left (by rintro ⟨⟩)
    exact exec_get_of_not_writesIn E (hq o a hm) s hn k
  refine ⟨fun t action hs hr => ?_, fun code state cookie hs hn => ?_,
    fun code state cookie hs hr => ?_⟩
  · refine quiet (hj.refuses x t action rfl (start hs) ?_ hr)
    intro t' stored agentId agentSecret hread hcred
    obtain ⟨s, hs'⟩ := hmem _ hread
    exact henc t action hs s t' stored agentId agentSecret hs' hcred
  · refine quiet (hj.stops x code state cookie rfl (start hs) fun q hq ho => hn ?_)
    obtain ⟨s, hs⟩ := hmem _ hq
    exact ⟨s, q, hs, ho⟩
  · exact quiet (hj.fails x code state cookie rfl (start hs) hr)

end

/-- The task that an entry ends with an exception. -/
def raised (x : AgentEntry Tok) : Option Nat :=
  match x.event with
  | .finish (.error _) => some x.task
  | _ => none

/-- A task that is listed as raised has ended with an exception. -/
theorem finish_of_raised {l : List (AgentEntry Tok)} {k : Nat} (h : k ∈ l.filterMap raised) :
    ∃ σ e, ⟨k, σ, .finish (.error e)⟩ ∈ l := by
  obtain ⟨⟨k', σ, e⟩, hmem, he⟩ := List.mem_filterMap.1 h
  unfold raised at he
  split at he
  · next e' hp =>
    cases hp
    cases he
    exact ⟨σ, e', hmem⟩
  · cases he

/-- What an entry of task `i` has read of an agent's credentials. -/
def readCredentials (i : Nat) (x : AgentEntry Tok) : Option (Option Json) :=
  if x.task = i then
    match x.event with
    | .op (.get .agentCredentials _) stored => some stored
    | _ => none
  else none

/-- Credentials that were read are listed. -/
theorem mem_readCredentials {l : List (AgentEntry Tok)} {i : Nat} {σ : Shared} {t : String}
    {stored : Option Json} (h : ⟨i, σ, .op (.get .agentCredentials t) stored⟩ ∈ l) :
    stored ∈ l.filterMap (readCredentials i) :=
  List.mem_filterMap.2 ⟨_, h, by simp [readCredentials]⟩

/-- The task that an entry belongs to, when the entry changes what is stored under `n` and `k`. -/
def changes (n : Namespace) (k : String) (x : AgentEntry Tok) : Option Nat :=
  match x.event with
  | .op o _ => if (exec E o x.state).2.get n k = x.state.get n k then none else some x.task
  | _ => none

/-- A task that changes an entry of the namespaces `P` is not unchanging there. -/
theorem not_unchanging_of_changes {l : List (AgentEntry Tok)} {i : Nat} {n : Namespace}
    {k : String} {P : Namespace → Prop} (hn : P n) (h : i ∈ l.filterMap (changes E n k)) :
    ¬ Unchanging E l i P := by
  intro hu
  obtain ⟨⟨j, σ, e⟩, hmem, he⟩ := List.mem_filterMap.1 h
  unfold changes at he
  split at he
  · next o a hp =>
    cases hp
    split at he
    · cases he
    · next hne =>
      cases he
      exact hne (hu σ o a hmem n k hn)
  · cases he

/-- WSO2 IS gives a `/callback` the token of the agent, and then cannot be reached; an `/authorize`
after it names no action. -/
def Symbolic.stranded : Symbolic.Schedule :=
  Symbolic.chat 0 ++ [.spawn 1 (.authorize "t" "book"),
    .spawn 2 (.callback "code" (Symbolic.state "book" 1) (some (Symbolic.state "book" 1)))] ++
    Symbolic.agentToken 2 ++ [.reply 2 .failed, .spawn 3 (.authorize "t" "erase")]

/-- The stranded `/callback` has written nothing of an authorization, and the `/authorize` nothing at
all. -/
theorem stranded_intact :
    Unchanging Symbolic.env (Symbolic.play Symbolic.stranded).world.log 2 ofAuthorization ∧
      Unchanging Symbolic.env (Symbolic.play Symbolic.stranded).world.log 3 everywhere := by
  have hc := (Symbolic.play_reachable Symbolic.stranded).preempted
  have hs₂ : Spawned (Symbolic.play Symbolic.stranded).world.log 2
      (.callback "code" (Symbolic.state "book" 1) (some (Symbolic.state "book" 1))) :=
    spawned_of_started (by decide +kernel)
  have hs₃ : Spawned (Symbolic.play Symbolic.stranded).world.log 3 (.authorize "t" "erase") :=
    spawned_of_started (by decide +kernel)
  have hend : 2 ∈ (Symbolic.play Symbolic.stranded).world.log.filterMap raised ∧
      3 ∈ (Symbolic.play Symbolic.stranded).world.log.filterMap raised := by
    decide +kernel
  have hread : (Symbolic.play Symbolic.stranded).world.log.filterMap (readCredentials 3) =
      [some (.arr [.str "agent", .str "pw"])] := by
    decide +kernel
  constructor
  · obtain ⟨σ, e, hx⟩ := finish_of_raised hend.1
    refine (failed_steps_intact hc hx fun t action hs => ?_).callback _ _ _ hs₂ (by rintro ⟨⟩)
    cases hs.unique Symbolic.env hc hs₂
  · obtain ⟨σ, e, hx⟩ := finish_of_raised hend.2
    refine (failed_steps_intact hc hx ?_).authorize _ _ hs₃ (by rintro _ _ ⟨⟩)
    intro _ _ _ σ' t' stored agentId agentSecret hmem hcred
    have hstored := mem_readCredentials hmem
    rw [hread, List.mem_singleton] at hstored
    subst hstored
    cases hcred
    exact ⟨by decide, by decide, by decide, by decide⟩

/-- A client names an agent whose id has an unpaired surrogate, and the user goes to `/authorize`. -/
def Symbolic.unencodable : Symbolic.Schedule :=
  [.spawn 0 (.chat ⟨"t", "", "", "\uffff", "pw", ""⟩), .reply 0 .failed,
    .spawn 1 (.authorize "t" "book")]

/-- That `/authorize` ends in an exception, after it has stored a verifier. -/
theorem unencodable_not_intact : ¬ ∀ c : (agentSystem Symbolic.env).Config,
    Reachable (S := agentSystem Symbolic.env) (Shared.start 0 0) c → ∀ i σ x,
      ⟨i, σ, .finish x⟩ ∈ c.world.log → LeavesIntact Symbolic.env c.world.log i x := by
  intro hall
  have hs : Spawned (Symbolic.play Symbolic.unencodable).world.log 1 (.authorize "t" "book") :=
    spawned_of_started (by decide +kernel)
  have hend : 1 ∈ (Symbolic.play Symbolic.unencodable).world.log.filterMap raised := by
    decide +kernel
  have hchange : 1 ∈ (Symbolic.play Symbolic.unencodable).world.log.filterMap
      (changes Symbolic.env .pkceVerifier "t") := by
    decide +kernel
  obtain ⟨σ, e, hx⟩ := finish_of_raised hend
  have hintact := hall _ (Symbolic.play_reachable Symbolic.unencodable) 1 σ _ hx
  exact not_unchanging_of_changes Symbolic.env trivial hchange
    (hintact.authorize "t" "book" hs (by rintro _ _ ⟨⟩))

end Teamspace.Agent
