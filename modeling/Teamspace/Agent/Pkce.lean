import Mathlib.Data.List.Chain
import Teamspace.Agent.Failures
import Teamspace.Agent.CommitSoundness

/-!
# PKCE verifiers

`/authorize` stores the verifier of a thread, and `/callback` reads it, deletes it and sends it. The
store holds one verifier for each thread, while states are issued for each `/authorize`; so a
`/callback` sends the verifier that belongs to its state exactly when that one still stands
(`verifier_bound`), and not when another `/authorize` has stored its own meanwhile
(`crossed_verifier`). Reading and deleting are two operations, so under a shared store a verifier
is sent once only where no other task reads it in between (`verifier_sent_once`).
-/

namespace Teamspace.Agent

open Teamspace.Lib Teamspace.Py Teamspace.Lib.System

variable {Tok : Type} (E : Env Tok)

/-! ## Draws -/

/-- `secrets.token_urlsafe(32)` never gives the same token twice. -/
def DistinctDraws : Prop := ∀ m n, E.tokenUrlsafe m 32 = E.tokenUrlsafe n 32 → m = n

/-- An entry that draws a random token. -/
def draws (x : AgentEntry Tok) : Bool :=
  match x.event with
  | .op (.tokenUrlsafe _) _ => true
  | _ => false

/-- The draws are counted. -/
theorem draws_eq {m w₀ : Rat} {w : AgentWorld E}
    (hw : Consistent (S := agentSystem E) (Shared.start m w₀) w) :
    w.state.draws = w.log.countP draws := by
  induction hw with
  | start => rfl
  | @record w i e _ _ ih =>
    have other : ∀ {x : AgentEntry Tok}, draws x = false →
        w.state.draws = (x :: w.log).countP draws := by
      intro x hx
      have hn : ¬ draws x = true := by rw [hx]; exact Bool.false_ne_true
      exact ih.trans (List.countP_cons_of_neg hn).symm
    cases e with
    | op o a =>
      cases o with
      | tokenUrlsafe n =>
        exact (congrArg (· + 1) ih).trans (List.countP_cons_of_pos (p := draws) rfl).symm
      | get | set | delete | time | monotonic | validateMcpToken | cachedConfig | cacheConfig =>
        exact other rfl
    | spawn | send | recv | finish => exact other rfl
  | pass _ hp ih =>
    obtain ⟨m', w', -, rfl⟩ := hp
    exact ih

section
variable {E} {m₀ w₀ : Rat} {c : (agentSystem E).Config}
  (hc : Preempted (S := agentSystem E) (Shared.start m₀ w₀) c)

include hc

/-- What was true of the world to which an entry was added. -/
theorem Preempted.at_entry {x : AgentEntry Tok} {l : List (AgentEntry Tok)}
    (hl : x :: l <:+ c.world.log) :
    Consistent (S := agentSystem E) (Shared.start m₀ w₀) ⟨x.state, l⟩ ∧
      Event.Holds (S := agentSystem E) x.event x.state := by
  obtain ⟨l₁, hl⟩ := hl
  exact (Preempted.consistent hc).before hl.symm

/-- Two draws with the same number are one. -/
theorem draw_unique {x y : AgentEntry Tok} {l l' : List (AgentEntry Tok)}
    (hx : x :: l <:+ c.world.log) (hy : y :: l' <:+ c.world.log) (hdx : draws x = true)
    (hdy : draws y = true) (he : x.state.draws = y.state.draws) : x = y := by
  have hnx : x.state.draws = l.countP draws := draws_eq E (Preempted.at_entry hc hx).1
  have hny : y.state.draws = l'.countP draws := draws_eq E (Preempted.at_entry hc hy).1
  -- the older of two different draws has a smaller number
  have older : ∀ {x y : AgentEntry Tok} {l l' : List (AgentEntry Tok)}, x :: l <:+ y :: l' →
      draws x = true → l.countP draws = l'.countP draws → x = y := by
    intro x y l l' h hd hn
    rcases List.suffix_cons_iff.1 h with h | h
    · exact (List.cons.inj h).1
    · have := h.sublist.countP_le (p := draws)
      rw [List.countP_cons_of_pos hd] at this
      omega
  have hn : l.countP draws = l'.countP draws := by rw [← hnx, ← hny, he]
  rcases List.suffix_or_suffix_of_suffix hx hy with h | h
  · exact older h hdx hn
  · exact (older h hdy hn.symm).symm

/-! ## Stored verifiers -/

/-- A stored verifier was drawn by its task just before, and is the first that the task stores. -/
theorem stored_drawn {j : Nat} {σ : Shared} {t : String} {v : Json} {ttl : Nat}
    {l : List (AgentEntry Tok)} (hl : ⟨j, σ, .op (.set .pkceVerifier t v ttl) ()⟩ :: l <:+
      c.world.log) : ∃ verifier s l', v = .str verifier ∧ NoVerifier (trace (S := agentSystem E) j l') ∧
      ⟨j, s, .op (.tokenUrlsafe 32) verifier⟩ :: l' <:+ l ∧
      trace (S := agentSystem E) j l = .op (.tokenUrlsafe 32) verifier :: trace (S := agentSystem E) j l' ∧
      verifier = E.tokenUrlsafe s.draws 32 := by
  obtain ⟨l₁, hl₁⟩ := id hl
  have hj := (Preempted.justified justified hc hl₁.symm).resolve_left (by rintro ⟨j, ⟨⟩, -⟩)
  obtain ⟨verifier, h', ht, rfl, -, hn⟩ := hj.stores _ _ _ _ rfl
  obtain ⟨m, s, l', rfl, rfl, hm⟩ := trace_eq_cons ht
  refine ⟨verifier, s, l', rfl, hn, List.suffix_append _ _, ht, ?_⟩
  have hs : (⟨j, s, .op (.tokenUrlsafe 32) verifier⟩ : AgentEntry Tok) :: l' <:+ c.world.log :=
    (List.suffix_append _ _).trans ((List.suffix_cons _ _).trans hl)
  exact (Preempted.at_entry hc hs).2

/-- A task stores one verifier. -/
theorem stored_once {j : Nat} {σ σ' : Shared} {t t' : String} {v v' : Json} {ttl ttl' : Nat}
    {l l' : List (AgentEntry Tok)}
    (h : ⟨j, σ, .op (.set .pkceVerifier t v ttl) ()⟩ :: l <:+ c.world.log)
    (h' : ⟨j, σ', .op (.set .pkceVerifier t' v' ttl') ()⟩ :: l' <:+ c.world.log) :
    (⟨j, σ, .op (.set .pkceVerifier t v ttl) ()⟩ : AgentEntry Tok) :: l =
      ⟨j, σ', .op (.set .pkceVerifier t' v' ttl') ()⟩ :: l' := by
  -- the trace below a stored verifier stores none
  have older : ∀ {σ σ' : Shared} {t t' : String} {v v' : Json} {ttl ttl' : Nat}
      {l l' : List (AgentEntry Tok)},
      ⟨j, σ', .op (.set .pkceVerifier t' v' ttl') ()⟩ :: l' <:+ c.world.log →
      (⟨j, σ, .op (.set .pkceVerifier t v ttl) ()⟩ : AgentEntry Tok) :: l <:+
        ⟨j, σ', .op (.set .pkceVerifier t' v' ttl') ()⟩ :: l' →
      (⟨j, σ, .op (.set .pkceVerifier t v ttl) ()⟩ : AgentEntry Tok) :: l =
        ⟨j, σ', .op (.set .pkceVerifier t' v' ttl') ()⟩ :: l' := by
    intro σ σ' t t' v v' ttl ttl' l l' h' hs
    rcases List.suffix_cons_iff.1 hs with he | hs
    · exact he
    · obtain ⟨verifier, s, l'', -, hn, -, ht, -⟩ := stored_drawn hc h'
      have hm : (.op (.set .pkceVerifier t v ttl) () : AgentEvent Tok) ∈
          trace (S := agentSystem E) j l' := mem_trace.2 ⟨σ, hs.subset (.head _)⟩
      rw [ht] at hm
      rcases List.mem_cons.1 hm with he | hm
      · cases he
      · exact absurd hm (hn t v ttl ())
  rcases List.suffix_or_suffix_of_suffix h h' with hs | hs
  · exact older h' hs
  · exact (older h hs).symm

/-- With distinct draws, the tasks that store a verifier store different ones. -/
theorem storer_unique (hd : DistinctDraws E) {j k : Nat} {σ σ' : Shared} {t t' : String} {v : Json}
    {ttl ttl' : Nat} {l l' : List (AgentEntry Tok)}
    (h : ⟨j, σ, .op (.set .pkceVerifier t v ttl) ()⟩ :: l <:+ c.world.log)
    (h' : ⟨k, σ', .op (.set .pkceVerifier t' v ttl') ()⟩ :: l' <:+ c.world.log) : j = k := by
  obtain ⟨verifier, s, d, hv, -, hs, -, hdraw⟩ := stored_drawn hc h
  obtain ⟨verifier', s', d', hv', -, hs', -, hdraw'⟩ := stored_drawn hc h'
  cases hv.symm.trans hv'
  have he := draw_unique hc (hs.trans ((List.suffix_cons _ _).trans h))
    (hs'.trans ((List.suffix_cons _ _).trans h')) rfl rfl (hd _ _ (hdraw.symm.trans hdraw'))
  exact congrArg Entry.task he

/-! ## Sent verifiers -/

/-- An OBO token request sends what its task last read of a verifier, and it is the only one. -/
theorem sent_read {i : Nat} {σ : Shared} {code : String} {verifier agentToken : Json}
    {l : List (AgentEntry Tok)}
    (hl : ⟨i, σ, .send (oboTokenRequest E code verifier agentToken)⟩ :: l <:+ c.world.log) :
    ∃ t σ' l', ⟨i, σ', .op (.get .pkceVerifier t) (σ'.get .pkceVerifier t)⟩ :: l' <:+ l ∧
      verifier = codeVerifierOf (σ'.get .pkceVerifier t) ∧
      LetPass E (trace (S := agentSystem E) i l') t ∧
      ∀ q, .send q ∈ trace (S := agentSystem E) i l → ¬ q.IsObo E := by
  obtain ⟨l₁, hl₁⟩ := id hl
  have hj := (Preempted.justified justified hc hl₁.symm).resolve_left (by rintro ⟨j, ⟨⟩, -⟩)
  obtain ⟨t, stored, h', ht, rfl, hn, hp⟩ := hj.exchanges _ _ _ rfl
  obtain ⟨m, s, l₂, rfl, ht', -⟩ := trace_eq_cons ht
  obtain ⟨m', s', l', rfl, rfl, -⟩ := trace_eq_cons ht'
  have hread : (⟨i, s', .op (.get .pkceVerifier t) stored⟩ : AgentEntry Tok) :: l' <:+
      m ++ ⟨i, s, .op (.delete .pkceVerifier t) ()⟩ ::
        (m' ++ ⟨i, s', .op (.get .pkceVerifier t) stored⟩ :: l') :=
    (List.suffix_append _ _).trans ((List.suffix_cons _ _).trans (List.suffix_append _ _))
  have hans : stored = s'.get .pkceVerifier t :=
    (Preempted.at_entry hc (hread.trans ((List.suffix_cons _ _).trans hl))).2
  subst hans
  refine ⟨t, s', l', hread, rfl, hp, fun q hq => ?_⟩
  rw [ht] at hq
  rcases List.mem_cons.1 hq with he | hq
  · cases he
  · rcases List.mem_cons.1 hq with he | hq
    · cases he
    · exact hn q hq

/-- What stands for a verifier was drawn, so it is not empty. -/
theorem lastSet_verifier {t : String} {l : List (AgentEntry Tok)} (hl : l <:+ c.world.log)
    {x : Write} (hx : lastSet .pkceVerifier t l = some x) : ∃ verifier p l',
      x.value = .str verifier ∧ verifier ≠ "" ∧
      l = p ++ ⟨x.task, x.state, .op (.set .pkceVerifier t (.str verifier) x.ttl) ()⟩ :: l' ∧
      ∀ y ∈ p, ¬ Writes .pkceVerifier t y := by
  obtain ⟨p, l', rfl, hp⟩ := lastSet_split hx
  obtain ⟨verifier, s, d, hv, -, -, -, hdraw⟩ :=
    stored_drawn hc ((List.suffix_append _ _).trans hl)
  refine ⟨verifier, p, l', hv, ?_, by rw [hv], hp⟩
  rw [hdraw]
  exact E.tokenUrlsafe_ne_empty _ 32 (by decide)

end

/-- A verifier that is not empty is sent when it was read. -/
theorem codeVerifierOf_eq {stored : Option Json} {verifier : String} (hv : verifier ≠ "") :
    codeVerifierOf stored = .str verifier ↔ stored = some (.str verifier) := by
  unfold codeVerifierOf pyOr
  constructor
  · intro h
    split at h
    · next ht =>
      cases stored with
      | none => cases ht
      | some v => exact congrArg some h
    · cases h
      exact absurd rfl hv
  · rintro rfl
    simp [Json.truthy, hv]

/-! ## Binding -/

/-- Task `j` stores `verifier`. -/
def Stores (l : List (AgentEntry Tok)) (j : Nat) (verifier : String) : Prop :=
  ∃ σ t ttl, ⟨j, σ, .op (.set .pkceVerifier t (.str verifier) ttl) ()⟩ ∈ l

/-- `sent` is the verifier that task `j` stored, whose challenge it put into `url`. -/
def BoundTo (l : List (AgentEntry Tok)) (j : Nat) (url : AuthorizeUrl Tok) (sent : Json) : Prop :=
  ∃ verifier, Stores l j verifier ∧ url.codeChallenge = E.codeChallenge verifier ∧
    sent = .str verifier ∧ verifier ≠ ""

/-- In the state `σ` after history `l`, the verifier of thread `t` is the one that task `j` stored:
none was stored for the thread since, no `/callback` has deleted it, and it has not expired. -/
def Stands (l : List (AgentEntry Tok)) (σ : Shared) (t : String) (j : Nat) : Prop :=
  ∃ x, lastSet .pkceVerifier t l = some x ∧ x.task = j ∧ x.lease.live σ.monotonic = true

section
variable {E} {m₀ w₀ : Rat} {c : (agentSystem E).Config}
  (hc : Preempted (S := agentSystem E) (Shared.start m₀ w₀) c)

include hc

/-- A task that issues a state has stored the verifier of its challenge. -/
theorem issued_challenge {j : Nat} {url : AuthorizeUrl Tok} {cookie : Tok}
    (hj : Issued c.world.log j url cookie) : ∃ verifier, Stores c.world.log j verifier ∧
      url.codeChallenge = E.codeChallenge verifier := by
  obtain ⟨σ, hσ⟩ := hj
  obtain ⟨h, hjust, -, hmem⟩ := finish_justified hc hσ
  obtain ⟨t, verifier, h', rfl, hu, -⟩ := hjust.issues url cookie rfl
  obtain ⟨s, hs⟩ := hmem _ (.head _)
  exact ⟨verifier, ⟨s, t, _, hs⟩, hu⟩

/-- A task stores one verifier, as a value. -/
theorem Stores.unique {j : Nat} {v v' : String} (h : Stores c.world.log j v)
    (h' : Stores c.world.log j v') : v = v' := by
  obtain ⟨σ, t, ttl, h⟩ := h
  obtain ⟨σ', t', ttl', h'⟩ := h'
  obtain ⟨l, hl⟩ := suffix_of_mem h
  obtain ⟨l', hl'⟩ := suffix_of_mem h'
  cases stored_once hc hl hl'
  rfl

/-- An OBO token request of a `/callback` sends the verifier whose challenge went into the URL that
was issued with its state exactly when that verifier stands for the thread at the time that the
`/callback` reads it. -/
theorem verifier_bound {j : Nat} {url : AuthorizeUrl Tok} {cookie : Tok}
    (hj : Issued c.world.log j url cookie) {i : Nat} {code : String} {cookie' : Option Tok}
    (hi : Spawned c.world.log i (.callback code url.state cookie')) {σ : Shared} {code' : String}
    {verifier agentToken : Json} {l : List (AgentEntry Tok)}
    (hl : ⟨i, σ, .send (oboTokenRequest E code' verifier agentToken)⟩ :: l <:+ c.world.log) :
    ∃ t σ' l', ⟨i, σ', .op (.get .pkceVerifier t) (σ'.get .pkceVerifier t)⟩ :: l' <:+ l ∧
      (∃ secret now action, E.settings.stateJwtSigningSecret = .ok secret ∧
        callbackGate E url.state cookie' secret now = .ok (t, action)) ∧
      (Stands l' σ' t j → BoundTo E c.world.log j url verifier) ∧
      (DistinctDraws E → BoundTo E c.world.log j url verifier → Stands l' σ' t j) := by
  obtain ⟨t, σ', l', hread, rfl, hp, -⟩ := sent_read hc hl
  have hread' := hread.trans ((List.suffix_cons _ _).trans hl)
  have hl' : l' <:+ c.world.log := (List.suffix_cons _ _).trans hread'
  obtain ⟨own, hown, hu⟩ := issued_challenge hc hj
  have hget : ∀ v, σ'.get .pkceVerifier t = some v ↔ ∃ x, lastSet .pkceVerifier t l' = some x ∧
      x.value = v ∧ x.lease.live σ'.monotonic = true :=
    fun v => get_eq_some_iff E (Preempted.at_entry hc hread').1
  refine ⟨t, σ', l', hread, ?_, ?_, ?_⟩
  · obtain ⟨code₀, state, cookie₀, secret, now, action, hs, hk, hg⟩ := hp
    obtain ⟨s, hs⟩ := mem_trace.1 hs
    cases Spawned.unique E hc ⟨s, hl'.subset hs⟩ hi
    exact ⟨secret, now, action, hk, hg⟩
  · rintro ⟨x, hx, rfl, hlive⟩
    obtain ⟨v, p, l₂, hv, hne, rfl, -⟩ := lastSet_verifier hc hl' hx
    have hst : Stores c.world.log x.task v :=
      ⟨x.state, t, x.ttl, hl'.subset (List.mem_append_right _ (.head _))⟩
    refine ⟨v, hst, by rw [hu, hown.unique hc hst], ?_, hne⟩
    exact (codeVerifierOf_eq hne).2 ((hget _).2 ⟨x, hx, hv, hlive⟩)
  · rintro hd ⟨v, ⟨s, t', ttl, hst⟩, -, hsent, hne⟩
    obtain ⟨x, hx, hv, hlive⟩ := (hget _).1 ((codeVerifierOf_eq hne).1 hsent)
    refine ⟨x, hx, ?_, hlive⟩
    obtain ⟨v', p, l₂, hv', -, rfl, -⟩ := lastSet_verifier hc hl' hx
    cases hv.symm.trans hv'
    obtain ⟨l₃, hl₃⟩ := suffix_of_mem hst
    exact storer_unique hc hd ((List.suffix_append _ _).trans hl') hl₃

end

/-- The state that an entry issues, with the challenge beside it. -/
def issuedChallenge (x : AgentEntry Tok) : Option (Tok × String) :=
  match x.event with
  | .finish (.ok (.page (.redirect url _))) => some (url.state, url.codeChallenge)
  | _ => none

/-- A state that is listed with its challenge was issued with it. -/
theorem issued_of_challenge {l : List (AgentEntry Tok)} {s : Tok} {challenge : String}
    (h : (s, challenge) ∈ l.filterMap issuedChallenge) :
    ∃ j url cookie, Issued l j url cookie ∧ url.state = s ∧ url.codeChallenge = challenge := by
  obtain ⟨⟨j, σ, e⟩, hx, hs⟩ := List.mem_filterMap.1 h
  unfold issuedChallenge at hs
  split at hs
  · next url cookie he =>
    cases he
    cases hs
    exact ⟨j, url, cookie, ⟨σ, hx⟩, rfl, rfl⟩
  · cases hs

namespace Symbolic

/-- The draws of the deployment are distinct. -/
theorem distinctDraws : DistinctDraws env := fun _ _ h => randomToken_injective h

/-- An authorization link is made and completed, up to the OBO token request. -/
def oneLink : Schedule :=
  chat 0 ++ [.spawn 1 (.authorize "t" "book"),
    .spawn 2 (.callback "code" (state "book" 1) (some (state "book" 1)))] ++ agentToken 2

/-- Two authorization links are made, and the first one is completed. -/
def twoLinks : Schedule :=
  chat 0 ++ [.spawn 1 (.authorize "t" "book"), .spawn 2 (.authorize "t" "book"),
    .spawn 3 (.callback "code" (state "book" 1) (some (state "book" 1)))] ++ agentToken 3

end Symbolic

open Symbolic in
/-- The verifier of a single link is bound to it. -/
theorem oneLink_bound : ∃ j url cookie σ l, Issued (play oneLink).world.log j url cookie ∧
    url.state = state "book" 1 ∧
    (⟨2, σ, .send (oboTokenRequest env "code" (.str (randomToken 2)) (.str "agent"))⟩ ::
      l <:+ (play oneLink).world.log) ∧ ∃ t σ' l',
      (⟨2, σ', .op (.get .pkceVerifier t) (σ'.get .pkceVerifier t)⟩ : AgentEntry Symbolic.Tok) :: l'
        <:+ l ∧
      (∃ secret now action, env.settings.stateJwtSigningSecret = .ok secret ∧
        callbackGate env url.state (some (state "book" 1)) secret now = .ok (t, action)) ∧
      (Stands l' σ' t j → BoundTo env (play oneLink).world.log j url (.str (randomToken 2))) ∧
      (DistinctDraws env → BoundTo env (play oneLink).world.log j url (.str (randomToken 2)) →
        Stands l' σ' t j) := by
  obtain ⟨j, url, cookie, hj, hs⟩ := issued_of_state (l := (play oneLink).world.log)
    (s := state "book" 1) (by decide +kernel)
  obtain ⟨σ, l, hl⟩ := eq_cons_of_sent (l := (play oneLink).world.log) (i := 2)
    (q := oboTokenRequest env "code" (.str (randomToken 2)) (.str "agent")) (by decide +kernel)
  have hi : Spawned (play oneLink).world.log 2
      (.callback "code" url.state (some (state "book" 1))) := by
    rw [hs]
    exact spawned_of_started (by decide +kernel)
  have hsent : ⟨2, σ, .send (oboTokenRequest env "code" (.str (randomToken 2)) (.str "agent"))⟩ :: l
      <:+ (play oneLink).world.log := by
    rw [hl]
  exact ⟨j, url, cookie, σ, l, hj, hs, hsent,
    verifier_bound (play_reachable oneLink).preempted hj hi hsent⟩

open Symbolic in
/-- The callback of the first of two links sends the verifier of the second. -/
theorem crossed_verifier : ¬ ∀ (c : (agentSystem env).Config) j url cookie i code cookie' σ code'
    verifier agentToken l, System.Reachable (Shared.start 0 0) c → Issued c.world.log j url cookie →
    Spawned c.world.log i (.callback code url.state cookie') →
    ⟨i, σ, .send (oboTokenRequest env code' verifier agentToken)⟩ :: l <:+ c.world.log →
    BoundTo env c.world.log j url verifier := by
  intro h
  have hlink : (state "book" 1, "S256:" ++ randomToken 2) ∈
      (play twoLinks).world.log.filterMap issuedChallenge := by decide +kernel
  obtain ⟨j, url, cookie, hj, hs, hu⟩ := issued_of_challenge hlink
  obtain ⟨σ, l, hl⟩ := eq_cons_of_sent (l := (play twoLinks).world.log) (i := 3)
    (q := oboTokenRequest env "code" (.str (randomToken 4)) (.str "agent")) (by decide +kernel)
  have hi : Spawned (play twoLinks).world.log 3
      (.callback "code" url.state (some (state "book" 1))) := by
    rw [hs]
    exact spawned_of_started (by decide +kernel)
  have hsent : ⟨3, σ, .send (oboTokenRequest env "code" (.str (randomToken 4)) (.str "agent"))⟩ :: l
      <:+ (play twoLinks).world.log := by
    rw [hl]
  obtain ⟨v, -, hv, he, -⟩ := h (play twoLinks) j url cookie 3 "code" _ σ "code" _ _ l
    (play_reachable twoLinks) hj hi hsent
  cases he
  rw [hu] at hv
  exact absurd hv (by decide +kernel)

/-! ## Single use -/

/-- Between a task's read of a verifier and its delete of it, no other task reads it. -/
def Undivided (l : List (AgentEntry Tok)) : Prop :=
  ∀ i k σ σ' t v v' m l', ⟨k, σ', .op (.get .pkceVerifier t) v'⟩ ::
      (m ++ ⟨i, σ, .op (.get .pkceVerifier t) v⟩ :: l') <:+ l → k ≠ i →
    ∃ s, ⟨i, s, .op (.delete .pkceVerifier t) ()⟩ ∈ m

section
variable {E} {m₀ w₀ : Rat} {c : (agentSystem E).Config}
  (hc : Preempted (S := agentSystem E) (Shared.start m₀ w₀) c)

include hc

/-- A task sends one OBO token request. -/
theorem sent_once {i : Nat} {σ σ' : Shared} {code code' : String} {v v' tok tok' : Json}
    {l l' : List (AgentEntry Tok)}
    (h : ⟨i, σ, .send (oboTokenRequest E code v tok)⟩ :: l <:+ c.world.log)
    (h' : ⟨i, σ', .send (oboTokenRequest E code' v' tok')⟩ :: l' <:+ c.world.log) : l = l' := by
  -- below an OBO token request its task has sent none
  have older : ∀ {σ σ' : Shared} {code code' : String} {v v' tok tok' : Json}
      {l l' : List (AgentEntry Tok)},
      ⟨i, σ', .send (oboTokenRequest E code' v' tok')⟩ :: l' <:+ c.world.log →
      (⟨i, σ, .send (oboTokenRequest E code v tok)⟩ : AgentEntry Tok) :: l <:+
        ⟨i, σ', .send (oboTokenRequest E code' v' tok')⟩ :: l' → l = l' := by
    intro σ σ' code code' v v' tok tok' l l' h' hs
    rcases List.suffix_cons_iff.1 hs with he | hs
    · exact (List.cons.inj he).2
    · obtain ⟨t, σr, lr, -, -, -, hn⟩ := sent_read hc h'
      exact absurd ⟨code, v, tok, rfl⟩ (hn _ (mem_trace.2 ⟨σ, hs.subset (.head _)⟩))
  rcases List.suffix_or_suffix_of_suffix h h' with hs | hs
  · exact older h' hs
  · exact (older h hs).symm

/-- Two tasks read a verifier that stands: the later one reads another verifier, as the earlier one
has deleted what it read. -/
theorem read_once (hu : Undivided c.world.log) {i k : Nat} (hik : k ≠ i) {σ σ' : Shared}
    {t t' : String} {v v' : Option Json} {l l' : List (AgentEntry Tok)} {x x' : Write}
    (h' : ⟨k, σ', .op (.get .pkceVerifier t') v'⟩ :: l' <:+ c.world.log)
    (hr : ⟨i, σ, .op (.get .pkceVerifier t) v⟩ :: l <:+ l')
    (hx : lastSet .pkceVerifier t l = some x) (hx' : lastSet .pkceVerifier t' l' = some x')
    (htask : x.task = x'.task) : False := by
  have hl' : l' <:+ c.world.log := (List.suffix_cons _ _).trans h'
  have hl : l <:+ l' := (List.suffix_cons _ _).trans hr
  obtain ⟨u, p, w, hu₁, -, rfl, -⟩ := lastSet_verifier hc (hl.trans hl') hx
  obtain ⟨u', p', w', hu₂, -, rfl, hp'⟩ := lastSet_verifier hc hl' hx'
  rw [htask] at hr hl
  -- both read what one write left
  have hw := stored_once hc ((List.suffix_append _ _).trans (hl.trans hl'))
    ((List.suffix_append _ _).trans hl')
  have ht : t = t' := by
    have hev := (Entry.mk.inj (List.cons.inj hw).1).2.2
    exact (Op.set.inj (Event.op.inj hev).1).2.1
  subst ht
  obtain ⟨q, hq⟩ := hr
  rw [hw] at hq
  obtain ⟨s, hs⟩ := hu i k σ σ' t v v' q _ (by rw [hq]; exact h') hik
  -- so the delete of the earlier reader stands between the write and the later read
  have hp : q ++ ⟨i, σ, .op (.get .pkceVerifier t) v⟩ :: p = p' := by
    refine List.append_cancel_right (Eq.trans ?_ hq)
    rw [List.append_assoc, List.cons_append]
  have hmem : ⟨i, s, .op (.delete .pkceVerifier t) ()⟩ ∈ p' := by
    rw [← hp]
    exact List.mem_append_left _ hs
  exact hp' _ hmem (.inr ⟨(), rfl⟩)

/-- With distinct draws, a stored verifier is sent once in every run in which no task reads it
between another task's read and delete. -/
theorem verifier_sent_once (hd : DistinctDraws E) (hu : Undivided c.world.log) {j : Nat}
    {verifier : String} (hj : Stores c.world.log j verifier) {i k : Nat} {σ σ' : Shared}
    {code code' : String} {agentToken agentToken' : Json} {l l' : List (AgentEntry Tok)}
    (h : ⟨i, σ, .send (oboTokenRequest E code (.str verifier) agentToken)⟩ :: l <:+ c.world.log)
    (h' : ⟨k, σ', .send (oboTokenRequest E code' (.str verifier) agentToken')⟩ :: l' <:+
      c.world.log) : i = k ∧ l = l' := by
  obtain ⟨t, s, m, hr, hv, -, -⟩ := sent_read hc h
  obtain ⟨t', s', m', hr', hv', -, -⟩ := sent_read hc h'
  have hr := hr.trans ((List.suffix_cons _ _).trans h)
  have hr' := hr'.trans ((List.suffix_cons _ _).trans h')
  obtain ⟨σj, tj, ttl, hmem⟩ := hj
  obtain ⟨lj, hlj⟩ := suffix_of_mem hmem
  have hne : verifier ≠ "" := by
    obtain ⟨v, sd, ld, hval, -, -, -, hdraw⟩ := stored_drawn hc hlj
    cases hval
    rw [hdraw]
    exact E.tokenUrlsafe_ne_empty _ 32 (by decide)
  -- what either task read is what task `j` stored
  have source : ∀ {i : Nat} {s : Shared} {t : String} {m : List (AgentEntry Tok)},
      ⟨i, s, .op (.get .pkceVerifier t) (s.get .pkceVerifier t)⟩ :: m <:+ c.world.log →
      .str verifier = codeVerifierOf (s.get .pkceVerifier t) →
      ∃ x, lastSet .pkceVerifier t m = some x ∧ x.task = j := by
    intro i s t m hr hv
    obtain ⟨x, hx, hval, -⟩ := (get_eq_some_iff E (Preempted.at_entry hc hr).1).1
      ((codeVerifierOf_eq hne).1 hv.symm)
    have hm : m <:+ c.world.log := (List.suffix_cons _ _).trans hr
    obtain ⟨u, p, w, hu, -, rfl, -⟩ := lastSet_verifier hc hm hx
    cases hval.symm.trans hu
    exact ⟨x, hx, storer_unique hc hd ((List.suffix_append _ _).trans hm) hlj⟩
  obtain ⟨x, hx, hxj⟩ := source hr hv
  obtain ⟨x', hx', hxj'⟩ := source hr' hv'
  by_cases hik : i = k
  · subst hik
    exact ⟨rfl, sent_once hc h h'⟩
  · exfalso
    rcases List.suffix_or_suffix_of_suffix hr hr' with hs | hs
    · rcases List.suffix_cons_iff.1 hs with he | hs
      · exact hik (congrArg Entry.task (List.cons.inj he).1)
      · exact read_once hc hu (Ne.symm hik) hr' hs hx hx' (hxj.trans hxj'.symm)
    · rcases List.suffix_cons_iff.1 hs with he | hs
      · exact hik (congrArg Entry.task (List.cons.inj he).1).symm
      · exact read_once hc hu hik hr hs hx' hx (hxj'.trans hxj.symm)

end

/-- If the older entry reads a verifier, the newer one is its task's delete of it. -/
def deletesRead (newer older : AgentEntry Tok) : Bool :=
  match older.event with
  | .op (.get .pkceVerifier t) _ =>
    match newer.event with
    | .op (.delete .pkceVerifier t') _ => newer.task == older.task && t' == t
    | _ => false
  | _ => true

/-- Every read of a verifier is followed at once by its task's delete. -/
def deletesReads (l : List (AgentEntry Tok)) : Bool :=
  decide (l.IsChain fun newer older => deletesRead newer older = true)

/-- Then no other task reads between them. -/
theorem undivided_of_deletesReads {l : List (AgentEntry Tok)} (h : deletesReads l = true) :
    Undivided l := by
  intro i k σ σ' t v v' m l' hs _
  have hchain := (of_decide_eq_true h).suffix hs
  rcases List.eq_nil_or_concat m with rfl | ⟨m, x, rfl⟩
  · -- the next entry is no delete
    have hnext := (List.isChain_cons_cons.1 hchain).1
    cases hnext
  · rw [List.concat_eq_append, List.append_assoc, List.singleton_append, ← List.cons_append] at hchain
    have hdelete := (List.isChain_append_cons_cons.1 hchain).2.1
    obtain ⟨j, s, e⟩ := x
    unfold deletesRead at hdelete
    dsimp only at hdelete
    split at hdelete
    · next t' a =>
      rw [Bool.and_eq_true, beq_iff_eq, beq_iff_eq] at hdelete
      obtain ⟨rfl, rfl⟩ := hdelete
      exact ⟨s, by rw [List.concat_eq_append]; exact List.mem_append_right _ (.head _)⟩
    · cases hdelete

/-- The task and the verifier that an entry stores. -/
def storedVerifier (x : AgentEntry Tok) : Option (Nat × Json) :=
  match x.event with
  | .op (.set .pkceVerifier _ v _) _ => some (x.task, v)
  | _ => none

/-- A verifier that is listed as stored was stored. -/
theorem stores_of_storedVerifier {l : List (AgentEntry Tok)} {j : Nat} {verifier : String}
    (h : (j, .str verifier) ∈ l.filterMap storedVerifier) : Stores l j verifier := by
  obtain ⟨⟨j', σ, e⟩, hx, hs⟩ := List.mem_filterMap.1 h
  unfold storedVerifier at hs
  split at hs
  · next t v ttl a he =>
    cases he
    cases hs
    exact ⟨σ, t, ttl, hx⟩
  · cases hs

/-- The task and the request that an entry sends. -/
def sentBy (x : AgentEntry Tok) : Option (Nat × Req) :=
  match x.event with
  | .send q => some (x.task, q)
  | _ => none

/-- A request that is listed as sent was sent. -/
theorem send_of_sentBy {l : List (AgentEntry Tok)} {i : Nat} {q : Req}
    (h : (i, q) ∈ l.filterMap sentBy) : ∃ σ l', ⟨i, σ, .send q⟩ :: l' <:+ l := by
  obtain ⟨⟨i', σ, e⟩, hx, hs⟩ := List.mem_filterMap.1 h
  unfold sentBy at hs
  split at hs
  · next q' he =>
    cases he
    cases hs
    obtain ⟨l', hl'⟩ := suffix_of_mem hx
    exact ⟨σ, l', hl'⟩
  · cases hs

namespace Symbolic

/-- Two workers serve a `/callback` of one link each, and both have yet to be given the token of
the agent. -/
def twoWorkers : Schedule :=
  chat 0 ++ [.spawn 1 (.authorize "t" "book"),
    .spawn 2 (.callback "code" (state "book" 1) (some (state "book" 1)))] ++
    (agentToken 2).take 2 ++
    [.spawn 3 (.callback "code" (state "book" 1) (some (state "book" 1)))] ++
    (agentToken 3).take 2

/-- Both are given it, and read the verifier before either deletes it. -/
def interleaved : List (agentSystem env).Pick :=
  [.reply 2 (ok 200 [("access_token", .str "agent")]), .act 2, .act 2, .act 2,
    .reply 3 (ok 200 [("access_token", .str "agent")]), .act 3, .act 3, .act 3,
    .act 2, .act 2, .act 3, .act 3]

/-- The service after `twoWorkers` and then `interleaved`. -/
def raced : (agentSystem env).Config := interleaved.foldl Config.pick (play twoWorkers)

/-- The run of the race is preemptive. -/
theorem raced_preempted : Preempted (S := agentSystem env) (Shared.start 0 0) raced :=
  Preempted.picks (play_reachable twoWorkers).preempted interleaved

end Symbolic

/-- After the link is completed, its state is presented once more. -/
def Symbolic.presentedTwice : Symbolic.Schedule :=
  Symbolic.oneLink ++ .reply 2 (Symbolic.ok 200 [("access_token", .str "obo")]) ::
    .spawn 3 (.callback "code" (Symbolic.state "book" 1) (some (Symbolic.state "book" 1))) ::
    Symbolic.agentToken 3

open Symbolic in
/-- Of two callbacks that come one after the other, the first sends the verifier alone; the second
sends a request without it. -/
theorem oneLink_sent_once : (3, oboTokenRequest env "code" (.str "") (.str "agent")) ∈
      (play presentedTwice).world.log.filterMap sentBy ∧
    ∃ σ l, (⟨2, σ, .send (oboTokenRequest env "code" (.str (randomToken 2)) (.str "agent"))⟩ :: l
      <:+ (play presentedTwice).world.log) ∧
    ∀ k σ' l', ⟨k, σ', .send (oboTokenRequest env "code" (.str (randomToken 2)) (.str "agent"))⟩ ::
      l' <:+ (play presentedTwice).world.log → 2 = k ∧ l = l' := by
  have hu : Undivided (play presentedTwice).world.log := undivided_of_deletesReads (by decide +kernel)
  have hj : Stores (play presentedTwice).world.log 1 (randomToken 2) :=
    stores_of_storedVerifier (by decide +kernel)
  obtain ⟨σ, l, hl⟩ := send_of_sentBy (l := (play presentedTwice).world.log) (i := 2)
    (q := oboTokenRequest env "code" (.str (randomToken 2)) (.str "agent")) (by decide +kernel)
  exact ⟨by decide +kernel, σ, l, hl, fun k σ' l' h =>
    verifier_sent_once (play_reachable presentedTwice).preempted distinctDraws hu hj hl h⟩

open Symbolic in
/-- Two workers send one verifier. -/
theorem raced_sent_twice : ¬ ∀ (c : (agentSystem env).Config) j verifier i k σ σ' code code'
    agentToken agentToken' l l', Preempted (S := agentSystem env) (Shared.start 0 0) c →
    Stores c.world.log j verifier →
    ⟨i, σ, .send (oboTokenRequest env code (.str verifier) agentToken)⟩ :: l <:+ c.world.log →
    ⟨k, σ', .send (oboTokenRequest env code' (.str verifier) agentToken')⟩ :: l' <:+ c.world.log →
    i = k ∧ l = l' := by
  intro h
  have hj : Stores raced.world.log 1 (randomToken 2) :=
    stores_of_storedVerifier (by decide +kernel)
  obtain ⟨σ, l, hl⟩ := send_of_sentBy (l := raced.world.log) (i := 2)
    (q := oboTokenRequest env "code" (.str (randomToken 2)) (.str "agent")) (by decide +kernel)
  obtain ⟨σ', l', hl'⟩ := send_of_sentBy (l := raced.world.log) (i := 3)
    (q := oboTokenRequest env "code" (.str (randomToken 2)) (.str "agent")) (by decide +kernel)
  have := (h raced 1 _ 2 3 σ σ' "code" "code" _ _ l l' raced_preempted hj hl hl').1
  cases this

end Teamspace.Agent
