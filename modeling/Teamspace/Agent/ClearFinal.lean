import Teamspace.Agent.Clear
import Teamspace.Agent.Invariants
import Teamspace.Agent.OauthTraces

/-!
# What a `/clear` puts an end to

`/clear` deletes what is stored of a thread. It does not reach the requests that are under way: a
`/callback` that had read what it needs goes on to store its delegated token and its flow state, and
a state that was issued before stays good for as long as it was signed for (`clear_is_undone`).
Where every delegated token is granted to a state that was issued after the thread was last cleared,
a `/clear` is final (`clear_is_final`): of an authorization, the thread has only what a later
`/authorize` has led to.
-/

namespace Teamspace.Agent

open Teamspace.Lib Teamspace.Py Teamspace.Lib.System

variable {Tok : Type} (E : Env Tok)

/-! ## Where authorizations come from -/

/-- Whether a lifetime can be added to a time does not depend on the time. -/
theorem addTo_isOk {v : Json} {s t : Rat} {x : Number} (h : v.addTo s = .ok x) :
    ∃ y, v.addTo t = .ok y := by
  unfold Json.addTo at h ⊢
  split at h
  · split at h
    · next hn => exact ⟨_, if_pos hn⟩
    · cases h
  · exact ⟨_, rfl⟩
  · exact ⟨_, rfl⟩
  · exact ⟨_, rfl⟩
  · cases h

/-- A reply that carries an access token, with a lifetime that is a number. -/
def Response.Grants (resp : Response) : Prop :=
  ∃ token expiresIn x, resp.readJson >>= readToken = .ok (token, expiresIn) ∧
    expiresIn.addTo 0 = .ok x

/-- A delegated token has just been granted to a `/callback` that was let pass for thread `t`. -/
def Granted (h : AgentTrace Tok) (t : String) : Prop :=
  ∃ now code verifier agentToken resp h',
    h = .op .time now :: .recv (oboTokenRequest E code verifier agentToken) (.response resp) :: h' ∧
      resp.Grants ∧ LetPass E h' t

/-- An event that the trace before it accounts for. -/
structure Grounded (e : AgentEvent Tok) (h : AgentTrace Tok) : Prop where
  /-- A delegated token is stored directly after it is granted. -/
  stores : ∀ t v ttl a, e = .op (.set .oboToken t v ttl) a → Granted E h t
  /-- An authorized flow state is set directly after a delegated token is stored. -/
  authorizes : ∀ t v ttl a, e = .op (.set .flowState t v ttl) a →
    (flowStateOf (some v)).isAuthorized = true →
    ∃ v' ttl' h', h = .op (.set .oboToken t v' ttl') () :: h'
  /-- A `/clear` ends directly after its deletions. -/
  clears : e = .finish (.ok .cleared) → ∃ t,
    h = clearedNamespaces.reverse.map (fun n => .op (.delete n t) ()) ++ [.spawn (.clear t)]

/-- An operation that neither stores a delegated token nor sets an authorized flow state. -/
def Op.Unauthorizing : Op → Prop
  | .set n _ v _ => n ≠ .oboToken ∧
      (n = .flowState → (flowStateOf (some v)).isAuthorized = false)
  | _ => True

section
variable {E} {h : AgentTrace Tok} {t : String}

/-- An operation that authorizes nothing is accounted for. -/
theorem Grounded.op {o : Op} (ho : o.Unauthorizing) (a : o.Ans) : Grounded E (.op o a) h where
  stores t v ttl a' he := by
    cases he
    exact absurd rfl ho.1
  authorizes t v ttl a' he hv := by
    cases he
    rw [ho.2 rfl] at hv
    cases hv
  clears := nofun

/-- So is a request. -/
theorem Grounded.send {q : Req} : Grounded E (.send q) h := ⟨nofun, nofun, nofun⟩

/-- So is a reply. -/
theorem Grounded.recv {q : Req} {r : Rep} : Grounded E (.recv q r) h := ⟨nofun, nofun, nofun⟩

/-- So is the end of any job but a `/clear`. -/
theorem Grounded.finish {x : Except Exn (Outcome Tok)} (hx : x ≠ .ok .cleared) :
    Grounded E (.finish x) h := by
  refine ⟨nofun, nofun, fun he => ?_⟩
  cases he
  exact absurd rfl hx

/-- A program that authorizes nothing. -/
abbrev Unauthorizing {α : Type} (p : Coro α) : Prop :=
  Program.Only (I := interface) Op.Unauthorizing (fun _ => True) p

/-- An ordinary program authorizes nothing. -/
theorem unauthorizing_of_ordinary {α : Type} {p : Coro α} (hp : Ordinary E p) :
    Unauthorizing p := by
  refine hp.mono (fun o ho => ?_) fun q _ => trivial
  cases o with
  | set n k v ttl => exact ho.2
  | _ => trivial

/-- A program that authorizes nothing keeps an invariant of its trace that every event keeps. -/
theorem Unauthorizing.grounded {α : Type} {p : Coro α} {I : AgentTrace Tok → Prop}
    (hI : ∀ e h, I h → I (e :: h)) (hp : Unauthorizing p) (h0 : I h) :
    Local (S := agentSystem E) (Grounded E) (fun _ h => I h) p h :=
  Local.only (fun _ a h ho hi => ⟨.op ho a, hI _ h hi⟩) (fun _ h _ hi => ⟨.send, hI _ h hi⟩)
    (fun _ _ h _ hi => ⟨.recv, hI _ h hi⟩) hp h0

/-- What serves a request is grounded when the coroutine behind it is, if it is no `/clear`. -/
theorem grounded_serve {α : Type} {j : Job Tok} {p : Coro α} {f : α → Outcome Tok}
    {Q : Except Exn α → AgentTrace Tok → Prop}
    (hj : serve E j = p >>= fun a => pure (f a)) (hf : ∀ a, f a ≠ .cleared)
    (hp : Local (S := agentSystem E) (Grounded E) Q p [.spawn j]) :
    Local (S := agentSystem E) (Grounded E) (fun x h => Grounded E (.finish x) h)
      ((agentSystem E).program j) [.spawn j] := by
  change Local (S := agentSystem E) _ _ (serve E j) _
  rw [hj]
  refine Local.bind (Local.mono (fun x h _ => ?_) hp)
  cases x with
  | error e => exact .finish nofun
  | ok a => exact .finish fun he => hf a (Except.ok.inj he)

/-! ### `/authorize` -/

/-- Neither does an `/authorize`. -/
theorem initiateOauth_unauthorizing (t action : String) :
    Unauthorizing (initiateOauth E t action) := by
  refine Program.Only.bind (unauthorizing_of_ordinary
    (ordinary_of_plain E (getAgentCredentials_plain E t))) fun credentials => ?_
  dsimp only
  split
  · trivial
  · refine Program.Only.bind (α := String) ⟨trivial, fun _ => trivial⟩ fun csrfToken => ?_
    split
    · trivial
    · refine Program.Only.bind (α := Rat) ⟨trivial, fun _ => trivial⟩ fun now => ?_
      split
      · trivial
      · refine Program.Only.bind ?_ fun url => Program.only_ofExcept _
        unfold getRealWso2AuthorizationUrl
        split
        · trivial
        · refine Program.Only.bind
            (unauthorizing_of_ordinary (clearOboTokens_ordinary E t)) fun _ => ?_
          exact ⟨trivial, fun verifier => ⟨⟨nofun, nofun⟩, fun _ => Program.only_ofExcept _⟩⟩

/-! ### `/callback` -/

/-- A delegated token of thread `t` has just been stored. -/
def Stored (t : String) (h : AgentTrace Tok) : Prop :=
  ∃ v ttl h', h = .op (.set .oboToken t v ttl) () :: h'

/-- The token that is stored was granted to a callback that was let pass. -/
theorem storeOboToken_grounded {code : String} {verifier agentToken : Json} {resp : Response}
    (hp : LetPass E h t) :
    Local (S := agentSystem E) (Grounded E) (fun x h => ∀ a, x = .ok a → Stored t h)
      (storeOboToken t resp)
      (.recv (oboTokenRequest E code verifier agentToken) (.response resp) :: h) := by
  refine Local.bind (Local.ofExcept ?_)
  cases hj : resp.readJson with
  | error e => exact nofun
  | ok tokenData =>
    refine Local.bind (Local.ofExcept ?_)
    cases hr : readToken tokenData with
    | error e => exact nofun
    | ok res =>
      refine Local.bind (α := Json) (Local.bind (α := Rat) ?_)
      intro now
      refine ⟨.op (o := .time) trivial now, Local.bind (Local.ofExcept ?_)⟩
      cases ha : res.2.addTo now with
      | error e => exact nofun
      | ok expiresAt =>
        obtain ⟨x, hx⟩ := addTo_isOk (t := 0) ha
        refine fun _ => ⟨⟨fun t' v ttl a he => ?_, nofun, nofun⟩, fun _ _ => ⟨_, _, _, rfl⟩⟩
        cases he
        exact ⟨now, code, verifier, agentToken, resp, h, rfl,
          ⟨res.1, res.2, x, by rw [hj]; exact hr, hx⟩, hp⟩

/-- The exchange of the code is accounted for. -/
theorem exchangeOboCode_grounded {code : String} {agentId agentSecret : Json}
    (hp : LetPass E h t) :
    Local (S := agentSystem E) (Grounded E) (fun x h => ∀ a, x = .ok a → Stored t h)
      (exchangeOboCode E t code agentId agentSecret) h := by
  have hplain := unauthorizing_of_ordinary
    (ordinary_of_plain E (fetchAgentToken_plain E agentId agentSecret t))
  refine Local.bind (Local.mono (fun x h hp => ?_)
    (hplain.grounded (I := fun h => LetPass E h t) (fun e _ hp => hp.cons e) hp))
  cases x with
  | error e => exact nofun
  | ok agentToken =>
    refine Local.bind (α := Option Json) ?_
    intro stored
    refine ⟨.op (o := .get .pkceVerifier t) trivial stored, ?_⟩
    refine Local.bind (α := Unit) ?_
    refine fun _ => ⟨.op (o := .delete .pkceVerifier t) trivial (), ?_⟩
    refine Local.bind (α := Response) (Local.bind (α := Rep) ?_)
    refine ⟨.send, fun r => ⟨.recv, ?_⟩⟩
    cases r with
    | failed => exact nofun
    | serviceToken token => exact nofun
    | response resp =>
      have hp := (hp.cons (.op (.get .pkceVerifier t) stored)).cons (.op (.delete .pkceVerifier t) ())
      exact storeOboToken_grounded (hp.cons _)

/-- So is the rest of the authorization. -/
theorem completeOboAuthorization_grounded {code : String} (hp : LetPass E h t) :
    Local (S := agentSystem E) (Grounded E) (fun x h => x = .ok none → Stored t h)
      (completeOboAuthorization E t code) h := by
  refine Local.bind (α := Json × Json) ?_
  intro stored
  refine ⟨.op (o := .get .agentCredentials t) trivial stored, Local.ofExcept ?_⟩
  cases credentialsOf stored with
  | error e => exact nofun
  | ok credentials =>
    refine Local.tryCatch (Local.bind (Local.mono (fun x h hx => ?_)
      (exchangeOboCode_grounded (hp.cons _))))
    cases x with
    | ok token => exact fun _ => hx token rfl
    | error e => cases e <;> exact nofun

/-- So is every event of a `/callback`. -/
theorem oauthCallback_grounded (code : String) (state : Tok) (cookie : Option Tok) :
    Local (S := agentSystem E) (Grounded E) (fun _ _ => True)
      (oauthCallback E code state cookie) [.spawn (.callback code state cookie)] := by
  cases hk : E.settings.stateJwtSigningSecret with
  | error e =>
    unfold oauthCallback
    rw [hk]
    trivial
  | ok secret =>
    rw [oauthCallback_eq E hk]
    intro now
    refine ⟨.op (o := .time) trivial now, ?_⟩
    dsimp only
    cases hg : callbackGate E state cookie secret now with
    | error kind => trivial
    | ok passed =>
      have hp : LetPass E [.op .time now, .spawn (.callback code state cookie)] passed.1 :=
        ⟨code, state, cookie, secret, now, passed.2, by simp, hk, hg⟩
      refine Local.bind (p := completeOboAuthorization E passed.1 code)
        (Local.mono (S := agentSystem E) (fun x h hx => ?_) (completeOboAuthorization_grounded hp))
      cases x with
      | error e => trivial
      | ok refused =>
        cases refused with
        | some kind => trivial
        | none =>
          obtain ⟨v, ttl, h', rfl⟩ := hx rfl
          refine fun _ => ⟨⟨nofun, fun t v' ttl' a he _ => ?_, nofun⟩, trivial⟩
          cases he
          exact ⟨v, ttl, h', rfl⟩

/-! ### All requests -/

/-- The deletions of a `/clear` are all that it does. -/
theorem clear_grounded (t : String) :
    Local (S := agentSystem E) (Grounded E) (fun x h => Grounded E (.finish x) h)
      ((agentSystem E).program (.clear t)) [.spawn (.clear t)] := by
  have deletion : ∀ {n : Namespace} {a : Unit} {h : AgentTrace Tok},
      Grounded E (.op (.delete n t) a) h := .op (o := .delete _ t) trivial _
  refine fun _ => ⟨deletion, fun _ => ⟨deletion, fun _ => ⟨deletion, ?_⟩⟩⟩
  refine fun _ => ⟨deletion, fun _ => ⟨deletion, fun _ => ⟨deletion, ?_⟩⟩⟩
  refine fun _ => ⟨deletion, fun _ => ⟨deletion, fun _ => ⟨deletion, ?_⟩⟩⟩
  exact ⟨nofun, nofun, fun _ => ⟨t, rfl⟩⟩

/-- So is every event of every job. -/
theorem grounded (j : Job Tok) :
    Local (S := agentSystem E) (Grounded E) (fun x h => Grounded E (.finish x) h)
      ((agentSystem E).program j) [.spawn j] := by
  have ordinary : ∀ {α : Type} {p : Coro α}, Ordinary E p →
      Local (S := agentSystem E) (Grounded E) (fun _ _ => True) p [.spawn j] :=
    fun hp => (unauthorizing_of_ordinary hp).grounded (fun _ _ => id) trivial
  cases j with
  | chat req =>
    exact grounded_serve (f := .context) rfl nofun
      (ordinary (ordinary_of_plain E (prepareChat_plain E req)))
  | dispatch name args t =>
    exact grounded_serve (f := .result) rfl nofun (ordinary (dispatchTool_ordinary E name args t))
  | mcp token name args =>
    exact grounded_serve (f := .content) rfl nofun
      (ordinary (callTool_ordinary E (.str token) name args))
  | confirm message t language =>
    exact grounded_serve (f := .reply) rfl nofun
      (ordinary (handleAuthorizationCallback_ordinary E message t language))
  | authorize t action =>
    exact grounded_serve (f := .page) rfl nofun
      ((initiateOauth_unauthorizing t action).grounded (I := fun _ => True) (fun _ _ => id) trivial)
  | callback code state cookie =>
    exact grounded_serve (f := .page) rfl nofun (oauthCallback_grounded code state cookie)
  | clear t => exact clear_grounded t

end

/-! ## Since a `/clear` -/

/-- History `l` is that after the end of a `/clear` of thread `t`, with `p` since then. -/
def ClearedSince (l : List (AgentEntry Tok)) (t : String) (p : List (AgentEntry Tok)) : Prop :=
  ∃ i σ q, l = p ++ ⟨i, σ, .finish (.ok .cleared)⟩ :: q ∧ Spawned q i (.clear t)

/-- Task `i` serves a `/callback` whose gate has let `state` pass for thread `t`. -/
def Presents (l : List (AgentEntry Tok)) (i : Nat) (state : Tok) (t : String) : Prop :=
  ∃ code cookie secret now action, Spawned l i (.callback code state cookie) ∧
    E.settings.stateJwtSigningSecret = .ok secret ∧
    callbackGate E state cookie secret now = .ok (t, action)

/-- In the part `p` of a history an `/authorize` was served that issued `state`. -/
def IssuedIn (p : List (AgentEntry Tok)) (state : Tok) : Prop :=
  ∃ i t action σ url cookie, Spawned p i (.authorize t action) ∧
    ⟨i, σ, .finish (.ok (.page (.redirect url cookie)))⟩ ∈ p ∧ url.state = state

/-- In the part `p` of history `l` a `/callback` completed, for thread `t`, a state that was issued
in `p`. -/
def ReauthorizedIn (l p : List (AgentEntry Tok)) (t : String) : Prop :=
  ∃ i σ state, ⟨i, σ, .finish (.ok (.page .authorized))⟩ ∈ p ∧ Presents E l i state t ∧
    IssuedIn p state

/-- Every `/clear` is final: its thread has no authorized flow state and no delegated token, unless
a `/callback` has completed a state that was issued since. -/
def ClearsFinal (w : AgentWorld E) : Prop :=
  ∀ t p, ClearedSince w.log t p →
    ((flowStateOf (w.state.get .flowState t)).isAuthorized = false ∧
      w.state.get .oboToken t = none) ∨ ReauthorizedIn E w.log p t

/-- When a delegated token is granted to a `/callback` for a thread, then since each `/clear` of the
thread the state that it presents was issued, or some other one was issued and completed. -/
def GrantsRenewed (l : List (AgentEntry Tok)) : Prop :=
  ∀ i σ code verifier agentToken resp l', ⟨i, σ, .recv (oboTokenRequest E code verifier agentToken)
      (.response resp)⟩ :: l' <:+ l → resp.Grants → ∀ state t, Presents E l' i state t →
    ∀ p, ClearedSince l' t p → IssuedIn p state ∨ ReauthorizedIn E l' p t

variable {E} in
/-- A state that was presented stays so. -/
theorem Presents.mono {l l' : List (AgentEntry Tok)} {i : Nat} {state : Tok} {t : String}
    (hl : l <:+ l') (h : Presents E l i state t) : Presents E l' i state t := by
  obtain ⟨code, cookie, secret, now, action, hs, hk, hg⟩ := h
  exact ⟨code, cookie, secret, now, action, hs.mono hl, hk, hg⟩

/-- A state that was issued stays so. -/
theorem IssuedIn.mono {p p' : List (AgentEntry Tok)} {state : Tok} (hp : p <:+ p')
    (h : IssuedIn p state) : IssuedIn p' state := by
  obtain ⟨i, t, action, σ, url, cookie, hs, hm, hu⟩ := h
  exact ⟨i, t, action, σ, url, cookie, hs.mono hp, hp.subset hm, hu⟩

variable {E} in
/-- A thread that was authorized again stays so. -/
theorem ReauthorizedIn.mono {l l' p p' : List (AgentEntry Tok)} {t : String} (hl : l <:+ l')
    (hp : p <:+ p') (h : ReauthorizedIn E l p t) : ReauthorizedIn E l' p' t := by
  obtain ⟨i, σ, state, hm, hs, hi⟩ := h
  exact ⟨i, σ, state, hp.subset hm, hs.mono hl, hi.mono hp⟩

/-! ## What stands after a `/clear` -/

/-- Above a history with nothing standing, a standing write was made there. -/
theorem lastSet_append {n : Namespace} {k : String} {l : List (AgentEntry Tok)}
    (hl : lastSet n k l = none) : ∀ {p : List (AgentEntry Tok)} {x : Write},
      lastSet n k (p ++ l) = some x →
      ∃ p₁ p₂, p = p₁ ++ ⟨x.task, x.state, .op (.set n k x.value x.ttl) ()⟩ :: p₂ := by
  intro p
  induction p with
  | nil =>
    intro x hx
    rw [List.nil_append, hl] at hx
    cases hx
  | cons y p ih =>
    intro x hx
    by_cases hy : ∃ v ttl a, y.event = .op (.set n k v ttl) a
    · obtain ⟨i, σ, e⟩ := y
      obtain ⟨v, ttl, a, rfl⟩ := hy
      cases (lastSet_set_self n k i σ v ttl (p ++ l)).symm.trans hx
      exact ⟨[], p, rfl⟩
    · have hx := lastSet_of_cons hx fun v ttl a he => hy ⟨v, ttl, a, he⟩
      obtain ⟨p₁, p₂, rfl⟩ := ih hx
      exact ⟨y :: p₁, p₂, rfl⟩

/-- Nothing stands directly after deletions. -/
theorem lastSet_deletions {n : Namespace} {t : String} {l : List (AgentEntry Tok)} :
    ∀ {namespaces : List Namespace} {ys : List (AgentEntry Tok)},
      ys.map Entry.event = namespaces.map (fun n => .op (.delete n t) ()) →
      n ∈ namespaces → lastSet n t (ys ++ l) = none := by
  intro namespaces
  induction namespaces with
  | nil => exact nofun
  | cons m namespaces ih =>
    intro ys hys hn
    obtain ⟨⟨i, σ, e⟩, ys, rfl, rfl, hrest⟩ := List.map_eq_cons_iff.1 hys
    by_cases hm : m = n
    · subst hm
      exact if_pos rfl
    · have hskip : lastSet n t (⟨i, σ, .op (.delete m t) ()⟩ :: (ys ++ l)) =
          lastSet n t (ys ++ l) := lastSet_cons nofun fun a he => by cases he; exact hm rfl
      exact hskip.trans (ih hrest ((List.mem_cons.1 hn).resolve_left (Ne.symm hm)))

section
variable {E} {m₀ w₀ : Rat} {c : (agentSystem E).Config}
  (hc : System.Reachable (Shared.start m₀ w₀) c)

include hc

/-- Directly after a `/clear` nothing stands of its thread but a PKCE verifier. -/
theorem clear_leaves {i : Nat} {σ : Shared} {t : String} {q : List (AgentEntry Tok)}
    (hl : ⟨i, σ, .finish (.ok .cleared)⟩ :: q <:+ c.world.log) (hs : Spawned q i (.clear t))
    {n : Namespace} (hn : n ∈ clearedNamespaces) :
    lastSet n t (⟨i, σ, .finish (.ok .cleared)⟩ :: q) = none := by
  obtain ⟨l₁, hl₁⟩ := id hl
  have hg := (Preempted.justified grounded hc.preempted hl₁.symm).resolve_left
    (by rintro ⟨j, ⟨⟩, -⟩)
  obtain ⟨t', htr⟩ := hg.clears rfl
  obtain ⟨ys, q', rfl, hys, hq⟩ := hc.contiguous.stretch (i := i) hl rfl not_false (fun e he => by
    obtain ⟨m, -, rfl⟩ := List.mem_map.1 he
    exact not_false) htr
  have hq' : q' <:+ c.world.log := (List.suffix_append ys q').trans ((List.suffix_cons _ _).trans hl)
  have hspawn : Spawned q' i (.clear t') := by
    have hm : (.spawn (.clear t') : AgentEvent Tok) ∈ trace (S := agentSystem E) i q' := by
      rw [hq]
      exact .head _
    exact mem_trace.1 hm
  cases (hspawn.mono hq').unique E hc.preempted (hs.mono ((List.suffix_cons _ _).trans hl))
  have hskip : lastSet n t (⟨i, σ, .finish (.ok .cleared)⟩ :: (ys ++ q')) =
      lastSet n t (ys ++ q') := rfl
  exact hskip.trans (lastSet_deletions hys (List.mem_reverse.2 hn))

omit hc in
/-- What stands above the end of a `/clear`, and is not that end, came since then. -/
theorem above_clear {i : Nat} {s : Shared} {p q l : List (AgentEntry Tok)} {y : AgentEntry Tok}
    (h : p ++ ⟨i, s, .finish (.ok .cleared)⟩ :: q = y :: l)
    (hy : y.event ≠ .finish (.ok .cleared)) :
    ∃ p', p = y :: p' ∧ l = p' ++ ⟨i, s, .finish (.ok .cleared)⟩ :: q := by
  cases p with
  | nil => exact absurd (congrArg Entry.event (List.cons.inj h).1.symm) hy
  | cons z p =>
    obtain ⟨rfl, rfl⟩ := List.cons.inj h
    exact ⟨p, rfl, rfl⟩

/-- A `/callback` that stores a delegated token sets the flow state and ends at once. -/
theorem Reachable.completes {k : Nat} {σ : Shared} {t : String} {v : Json} {ttl : Nat}
    {l : List (AgentEntry Tok)}
    (hl : ⟨k, σ, .op (.set .oboToken t v ttl) ()⟩ :: l <:+ c.world.log) :
    ∃ σ' y, ⟨k, σ', .finish (.ok (.page .authorized))⟩ :: y ::
      ⟨k, σ, .op (.set .oboToken t v ttl) ()⟩ :: l <:+ c.world.log := by
  obtain ⟨i, w, w', hm, hw, hl', hlog⟩ := Reachable.moved E hc hl
  cases hm with
  | mild o ho =>
    obtain ⟨he, -⟩ := eq_of_newest hl' hw
    cases he
    exact absurd rfl ho.2.1
  | preview a t' args _ _ =>
    have hl' := suffix_of_ne hl' (by rintro ⟨⟩)
    cases (eq_of_newest hl' hw).1
  | commit a call _ => cases (eq_of_newest hl' hw).1
  | send q _ => cases (eq_of_newest hl' hw).1
  | recv q r _ => cases (eq_of_newest hl' hw).1
  | success a call r _ _ _ _ =>
    have hl' := suffix_of_ne hl' (by rintro ⟨⟩)
    have hl' := suffix_of_ne hl' (by rintro ⟨⟩)
    have hl' := suffix_of_ne hl' (by rintro ⟨⟩)
    cases (eq_of_newest hl' hw).1
  | complete t' action token expiresAt _ _ =>
    have hl' := suffix_of_ne hl' (by rintro ⟨⟩)
    have hl' := suffix_of_ne hl' (by rintro ⟨⟩)
    obtain ⟨he, rfl⟩ := eq_of_newest hl' hw
    cases he
    exact ⟨_, _, hlog⟩
  | spawn j _ => cases (eq_of_newest hl' hw).1
  | finish x _ _ => cases (eq_of_newest hl' hw).1

/-- A delegated token that was stored since a `/clear` belongs to an authorization since then. -/
theorem reauthorized_of_token (hr : GrantsRenewed E c.world.log) {t : String} {i : Nat} {s : Shared}
    {p₁ p₂ q : List (AgentEntry Tok)} (hs : Spawned q i (.clear t)) {k : Nat} {σ : Shared} {v : Json}
    {ttl : Nat} (hl : c.world.log = p₁ ++ ⟨k, σ, .op (.set .oboToken t v ttl) ()⟩ ::
      (p₂ ++ ⟨i, s, .finish (.ok .cleared)⟩ :: q)) :
    ReauthorizedIn E c.world.log (p₁ ++ ⟨k, σ, .op (.set .oboToken t v ttl) ()⟩ :: p₂) t := by
  have hset : ⟨k, σ, .op (.set .oboToken t v ttl) ()⟩ ::
      (p₂ ++ ⟨i, s, .finish (.ok .cleared)⟩ :: q) <:+ c.world.log := ⟨p₁, hl.symm⟩
  have hg := (Preempted.justified grounded hc.preempted hl).resolve_left (by rintro ⟨j, ⟨⟩, -⟩)
  obtain ⟨now, code, verifier, agentToken, resp, h', htr, hgrant, hpass⟩ := hg.stores _ _ _ _ rfl
  -- the reply was received in the same stretch, so after the `/clear`
  obtain ⟨s₁, l₁, he₁, htr₁⟩ := hc.contiguous.below hset not_false htr
  obtain ⟨p₃, rfl, rfl⟩ := above_clear he₁ nofun
  have htime := (List.suffix_cons _ _).trans hset
  obtain ⟨s₂, l₂, he₂, htr₂⟩ := hc.contiguous.below htime not_false htr₁
  obtain ⟨p₄, rfl, rfl⟩ := above_clear he₂ nofun
  have hrecv := (List.suffix_cons _ _).trans htime
  obtain ⟨state, hpres⟩ : ∃ state, Presents E (p₄ ++ ⟨i, s, .finish (.ok .cleared)⟩ :: q) k state t := by
    obtain ⟨code, state, cookie, secret, now, action, hm, hk, hg⟩ := hpass
    rw [← htr₂] at hm
    exact ⟨state, code, cookie, secret, now, action, mem_trace.1 hm, hk, hg⟩
  have hp₄ : p₄ <:+ p₁ ++ ⟨k, σ, .op (.set .oboToken t v ttl) ()⟩ :: ⟨k, s₁, .op .time now⟩ ::
      ⟨k, s₂, .recv (oboTokenRequest E code verifier agentToken) (.response resp)⟩ :: p₄ :=
    ((List.suffix_cons _ _).trans (List.suffix_cons _ _)).trans
      ((List.suffix_cons _ _).trans (List.suffix_append _ _))
  have hbelow := (List.suffix_cons _ _).trans hrecv
  rcases hr k s₂ code verifier agentToken resp _ hrecv hgrant state t hpres p₄ ⟨i, s, q, rfl, hs⟩ with
    hi | hi
  · obtain ⟨σ', y, hfin⟩ := Reachable.completes hc hset
    refine ⟨k, σ', state, ?_, hpres.mono hbelow, hi.mono hp₄⟩
    rw [hl, ← List.cons_append, ← List.cons_append, ← List.cons_append, ← List.append_assoc] at hfin
    refine mem_recent hfin ?_
    exact (List.suffix_append _ _).trans (List.suffix_cons _ _)
  · exact hi.mono hbelow hp₄

/-- So does an authorized flow state. -/
theorem reauthorized_of_flow (hr : GrantsRenewed E c.world.log) {t : String} {i : Nat} {s : Shared}
    {p₁ p₂ q : List (AgentEntry Tok)} (hs : Spawned q i (.clear t)) {k : Nat} {σ : Shared} {v : Json}
    {ttl : Nat} (hl : c.world.log = p₁ ++ ⟨k, σ, .op (.set .flowState t v ttl) ()⟩ ::
      (p₂ ++ ⟨i, s, .finish (.ok .cleared)⟩ :: q))
    (hv : (flowStateOf (some v)).isAuthorized = true) :
    ReauthorizedIn E c.world.log (p₁ ++ ⟨k, σ, .op (.set .flowState t v ttl) ()⟩ :: p₂) t := by
  have hg := (Preempted.justified grounded hc.preempted hl).resolve_left (by rintro ⟨j, ⟨⟩, -⟩)
  obtain ⟨v', ttl', h', htr⟩ := hg.authorizes _ _ _ _ rfl hv
  -- the delegated token was stored in the same stretch
  obtain ⟨s₁, l₁, he, -⟩ := hc.contiguous.below ⟨p₁, hl.symm⟩ not_false htr
  obtain ⟨p₃, rfl, rfl⟩ := above_clear he nofun
  have hsplit : ∀ l, p₁ ++ ⟨k, σ, .op (.set .flowState t v ttl) ()⟩ :: l =
      (p₁ ++ [⟨k, σ, .op (.set .flowState t v ttl) ()⟩]) ++ l := by simp
  rw [hsplit]
  exact reauthorized_of_token hc hr hs (hl.trans (hsplit _))

/-- Where every delegated token is granted to a state that was issued after the thread was last
cleared, every `/clear` is final. -/
theorem clear_is_final (hr : GrantsRenewed E c.world.log) : ClearsFinal E c.world := by
  rintro t p ⟨i, s, q, hl, hs⟩
  have hclear : ⟨i, s, .finish (.ok .cleared)⟩ :: q <:+ c.world.log := ⟨p, hl.symm⟩
  -- what stands of the thread was written since
  have since : ∀ {n : Namespace} {v : Json}, n ∈ clearedNamespaces → c.world.state.get n t = some v →
      ∃ p₁ p₂ k σ ttl, p = p₁ ++ ⟨k, σ, .op (.set n t v ttl) ()⟩ :: p₂ := by
    intro n v hn hv
    obtain ⟨y, hy, rfl, -⟩ := (get_eq_some_iff E hc.preempted.consistent).1 hv
    rw [hl] at hy
    obtain ⟨p₁, p₂, hp⟩ := lastSet_append (clear_leaves hc hclear hs hn) hy
    exact ⟨p₁, p₂, _, _, _, hp⟩
  by_contra hne
  rw [not_or] at hne
  refine hne.1 ⟨?_, ?_⟩
  · by_contra hflow
    have hflow := eq_true_of_ne_false hflow
    cases hg : c.world.state.get .flowState t with
    | none => rw [hg] at hflow; cases hflow
    | some v =>
      rw [hg] at hflow
      obtain ⟨p₁, p₂, k, σ, ttl, rfl⟩ := since (by decide) hg
      rw [List.append_assoc] at hl
      exact hne.2 (reauthorized_of_flow hc hr hs hl hflow)
  · by_contra htoken
    obtain ⟨v, hg⟩ := Option.ne_none_iff_exists'.1 htoken
    obtain ⟨p₁, p₂, k, σ, ttl, rfl⟩ := since (by decide) hg
    rw [List.append_assoc] at hl
    exact hne.2 (reauthorized_of_token hc hr hs hl)

end

/-! ## Runs -/

open Symbolic

/-- The task that an entry ends as a `/clear`. -/
def endedCleared (x : AgentEntry Tok) : Option Nat :=
  match x.event with
  | .finish (.ok .cleared) => some x.task
  | _ => none

/-- A `/clear` has ended with the end of its task. -/
theorem finish_of_endedCleared {x : AgentEntry Tok} {i : Nat} (h : endedCleared x = some i) :
    x = ⟨i, x.state, .finish (.ok .cleared)⟩ := by
  obtain ⟨k, σ, e⟩ := x
  unfold endedCleared at h
  split at h
  · next he =>
    cases he
    cases h
    rfl
  · cases h

/-- A thread is authorized and then cleared. -/
def authorizedThenCleared : Schedule :=
  chat 0 ++ [.spawn 1 (.authorize "t" "book")] ++ callback 2 (state "book" 1) "obo" ++
    [.spawn 3 (.clear "t")]

/-- What came after the `/clear` is not there. -/
theorem cleared_final : ClearsFinal env (play authorizedThenCleared).world := by
  refine clear_is_final (play_reachable _) ?_
  -- no `/clear` has ended before the delegated token is granted
  have hnone : (play authorizedThenCleared).world.log.tail.filterMap endedCleared = [] := by
    decide +kernel
  rintro i σ code verifier agentToken resp l' ⟨a, ha⟩ - state t - p ⟨j, s, q, rfl, -⟩
  have hmem : j ∈ (play authorizedThenCleared).world.log.tail.filterMap endedCleared := by
    refine List.mem_filterMap.2 ⟨⟨j, s, .finish (.ok .cleared)⟩, ?_, rfl⟩
    rw [← ha]
    cases a with
    | nil => exact List.mem_append_right p (.head _)
    | cons x a => exact List.mem_append_right a (.tail _ (List.mem_append_right p (.head _)))
  rw [hnone] at hmem
  cases hmem

/-- A thread is cleared while a `/callback` waits for its delegated token. -/
def clearedWhileAuthorizing : Schedule :=
  chat 0 ++ [.spawn 1 (.authorize "t" "book"),
    .spawn 2 (.callback "code" (state "book" 1) (some (state "book" 1)))] ++ agentToken 2 ++
    [.spawn 3 (.clear "t"), .reply 2 (ok 200 [("access_token", .str "obo")])]

/-- The `/callback` brings the authorization back. -/
theorem clear_is_undone : ¬ ∀ c : (agentSystem env).Config,
    System.Reachable (S := agentSystem env) (Shared.start 0 0) c → ClearsFinal env c.world := by
  intro h
  have hend : ((play clearedWhileAuthorizing).world.log.drop 5).head?.bind endedCleared = some 3 := by
    decide +kernel
  obtain ⟨x, hx, he⟩ := Option.bind_eq_some_iff.1 hend
  obtain ⟨q, hq⟩ := List.head?_eq_some_iff.1 hx
  have hs : Spawned q 3 (.clear "t") := by
    have hq' : q = (play clearedWhileAuthorizing).world.log.drop 6 := by
      rw [← List.tail_drop, hq, List.tail_cons]
    refine spawned_of_started ?_
    rw [hq']
    decide +kernel
  have hsince : ClearedSince (play clearedWhileAuthorizing).world.log "t"
      ((play clearedWhileAuthorizing).world.log.take 5) := by
    have hsplit := (List.take_append_drop 5 (play clearedWhileAuthorizing).world.log).symm
    rw [hq, finish_of_endedCleared he] at hsplit
    exact ⟨3, x.state, q, hsplit, hs⟩
  rcases h _ (play_reachable clearedWhileAuthorizing) "t" _ hsince with ⟨hflow, -⟩ | hre
  · revert hflow
    decide +kernel
  · -- nothing was started since the `/clear`
    obtain ⟨i, σ, state, -, -, j, t, action, -, -, -, ⟨s, hm⟩, -⟩ := hre
    have hnone : ((play clearedWhileAuthorizing).world.log.take 5).filterMap started = [] := by
      decide +kernel
    have hmem : (j, .authorize t action) ∈
        ((play clearedWhileAuthorizing).world.log.take 5).filterMap started :=
      List.mem_filterMap.2 ⟨_, hm, rfl⟩
    rw [hnone] at hmem
    cases hmem

end Teamspace.Agent
