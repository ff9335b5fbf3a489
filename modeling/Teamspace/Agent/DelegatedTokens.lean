import Teamspace.Agent.ClearFinal
import Teamspace.Agent.CommitSoundness
import Teamspace.Lib.Replay

/-!
# The delegated token that is handed out

`get_obo_token` and `get_obo_jwt_raw` hand out what an exchange has stored, until a minute before it
expires (`delegated_token_sound`). What the store holds was stored directly after the reply that
granted it, and an `/authorize` deletes it directly before it redirects (`Delegates`); so the token
is that of the last exchange for the thread, and nothing has put an end to it since.
-/

namespace Teamspace.Agent

open Teamspace.Lib Teamspace.Py Teamspace.Lib.System

variable {Tok : Type} (E : Env Tok)

/-! ## Traces -/

/-- A `/callback` that was let pass for thread `t` has just been granted the token of entry `v`. -/
def Delegated (h : AgentTrace Tok) (t : String) (v : Json) : Prop :=
  ∃ now code verifier agentToken resp token expiresIn expiresAt h',
    h = .op .time now :: .recv (oboTokenRequest E code verifier agentToken) (.response resp) :: h' ∧
    resp.readJson >>= readToken = .ok (token, expiresIn) ∧ expiresIn.addTo now = .ok expiresAt ∧
    v = oboEntry token (.num (expiresAt.sub 60)) ∧ LetPass E h' t

/-- What an `/authorize` for thread `t` does last before it redirects, newest first. -/
def redirection (t verifier : String) : AgentTrace Tok :=
  [.op (.set .pkceVerifier t (.str verifier) pkceTtlSeconds) (), .op (.tokenUrlsafe 32) verifier,
    .op (.delete .agentToken t) (), .op (.delete .oboToken t) ()]

/-- An `/authorize` for thread `t` has just made the URL that it redirects to. -/
def Redirected (h : AgentTrace Tok) (t : String) : Prop :=
  ∃ action verifier h', h = redirection t verifier ++ h' ∧ .spawn (.authorize t action) ∈ h'

/-- An event that the trace before it accounts for. -/
structure Delegates (e : AgentEvent Tok) (h : AgentTrace Tok) : Prop where
  /-- A delegated token is stored directly after it is granted. -/
  stores : ∀ t v ttl a, e = .op (.set .oboToken t v ttl) a → Delegated E h t v
  /-- An `/authorize` deletes the delegated token directly before it redirects. -/
  redirects : ∀ url cookie, e = .finish (.ok (.page (.redirect url cookie))) →
    ∃ t, Redirected h t

section
variable {E} {h : AgentTrace Tok} {t : String}

/-- An operation that stores no delegated token is accounted for. -/
theorem Delegates.op {o : Op} (ho : ∀ k v ttl, o ≠ .set .oboToken k v ttl) (a : o.Ans) :
    Delegates E (.op o a) h where
  stores t v ttl a' he := by
    cases he
    exact absurd rfl (ho t v ttl)
  redirects := nofun

/-- So is a request. -/
theorem Delegates.send {q : Req} : Delegates E (.send q) h := ⟨nofun, nofun⟩

/-- So is a reply. -/
theorem Delegates.recv {q : Req} {r : Rep} : Delegates E (.recv q r) h := ⟨nofun, nofun⟩

/-- A program that authorizes nothing keeps an invariant of its trace that every event keeps. -/
theorem Unauthorizing.delegates {α : Type} {p : Coro α} {K : AgentTrace Tok → Prop}
    (hK : ∀ e h, K h → K (e :: h)) (hp : Unauthorizing p) (h0 : K h) :
    Local (S := agentSystem E) (Delegates E) (fun _ h => K h) p h :=
  Local.only
    (fun _ a h ho hk => ⟨.op (fun _ _ _ he => by subst he; exact ho.1 rfl) a, hK _ h hk⟩)
    (fun _ h _ hk => ⟨.send, hK _ h hk⟩) (fun _ _ h _ hk => ⟨.recv, hK _ h hk⟩) hp h0

/-- What serves a request is accounted for when the coroutine behind it is, with its redirects. -/
theorem delegates_serve {α : Type} {j : Job Tok} {p : Coro α} {f : α → Outcome Tok}
    {Q : Except Exn α → AgentTrace Tok → Prop} (hj : serve E j = p >>= fun a => pure (f a))
    (hf : ∀ a h url cookie, Q (.ok a) h → f a = .page (.redirect url cookie) → ∃ t, Redirected h t)
    (hp : Local (S := agentSystem E) (Delegates E) Q p [.spawn j]) :
    Local (S := agentSystem E) (Delegates E) (fun x h => Delegates E (.finish x) h)
      ((agentSystem E).program j) [.spawn j] := by
  change Local (S := agentSystem E) _ _ (serve E j) _
  rw [hj]
  refine Local.bind (Local.mono (fun x h hx => ?_) hp)
  cases x with
  | error e => exact ⟨nofun, nofun⟩
  | ok a =>
    refine ⟨nofun, fun url cookie he => hf a h url cookie hx ?_⟩
    exact Except.ok.inj (Event.finish.inj he)

/-! ### `/authorize` -/

/-- So is every event of the making of a link. -/
theorem getRealWso2AuthorizationUrl_delegates {scopes : List String} {stateToken : Tok}
    {agentId : Json} {action : String} (hs : .spawn (.authorize t action) ∈ h) :
    Local (S := agentSystem E) (Delegates E) (fun x h => ∀ url, x = .ok url → Redirected h t)
      (getRealWso2AuthorizationUrl E t scopes stateToken agentId) h := by
  unfold getRealWso2AuthorizationUrl
  split
  · exact nofun
  · refine Local.bind (α := Unit) ?_
    refine fun _ => ⟨.op (o := .delete .oboToken t) nofun (), fun _ =>
      ⟨.op (o := .delete .agentToken t) nofun (), ?_⟩⟩
    intro verifier
    refine ⟨.op (o := .tokenUrlsafe 32) nofun verifier, fun _ =>
      ⟨.op (o := .set .pkceVerifier t _ _) nofun (), Local.ofExcept ?_⟩⟩
    exact fun url _ => ⟨action, verifier, h, rfl, hs⟩

/-- So is every event of an `/authorize`. -/
theorem initiateOauth_delegates (t action : String) :
    Local (S := agentSystem E) (Delegates E)
      (fun x h => ∀ url cookie, x = .ok (.redirect url cookie) → Redirected h t)
      (initiateOauth E t action) [.spawn (.authorize t action)] := by
  refine Local.bind (α := Json × Json) ?_
  intro stored
  refine ⟨.op (o := .get .agentCredentials t) nofun stored, Local.ofExcept ?_⟩
  cases credentialsOf stored with
  | error e => exact nofun
  | ok credentials =>
    dsimp only
    split
    · exact nofun
    · intro csrfToken
      refine ⟨.op (o := .tokenUrlsafe 16) nofun csrfToken, ?_⟩
      cases scopesOfAction action with
      | none => exact nofun
      | some scopes =>
        intro now
        refine ⟨.op (o := .time) nofun now, ?_⟩
        cases E.settings.stateJwtSigningSecret with
        | error e => exact nofun
        | ok secret =>
          have hs : (.spawn (.authorize t action) : AgentEvent Tok) ∈ ([.op .time now,
              .op (.tokenUrlsafe 16) csrfToken, .op (.get .agentCredentials t) stored,
              .spawn (.authorize t action)] : AgentTrace Tok) := .tail _ (.tail _ (.tail _ (.head _)))
          refine Local.bind (p := getRealWso2AuthorizationUrl E t scopes _ credentials.1)
            (Local.mono (S := agentSystem E) (fun x h hx => ?_)
              (getRealWso2AuthorizationUrl_delegates hs))
          cases x with
          | error e => exact nofun
          | ok url => exact Local.ofExcept fun _ _ _ => hx url rfl

/-! ### `/callback` -/

/-- So is the token that is stored, which was granted. -/
theorem storeOboToken_delegates {code : String} {verifier agentToken : Json} {resp : Response}
    (hp : LetPass E h t) :
    Local (S := agentSystem E) (Delegates E) (fun _ _ => True) (storeOboToken t resp)
      (.recv (oboTokenRequest E code verifier agentToken) (.response resp) :: h) := by
  refine Local.bind (Local.ofExcept ?_)
  cases hj : resp.readJson with
  | error e => trivial
  | ok tokenData =>
    refine Local.bind (Local.ofExcept ?_)
    cases hr : readToken tokenData with
    | error e => trivial
    | ok res =>
      refine Local.bind (α := Json) (Local.bind (α := Rat) ?_)
      intro now
      refine ⟨.op (o := .time) nofun now, Local.bind (Local.ofExcept ?_)⟩
      cases ha : res.2.addTo now with
      | error e => trivial
      | ok expiresAt =>
        refine fun _ => ⟨⟨fun t' v ttl a he => ?_, nofun⟩, trivial⟩
        cases he
        exact ⟨now, code, verifier, agentToken, resp, res.1, res.2, expiresAt, h, rfl,
          by rw [hj]; exact hr, ha, rfl, hp⟩

/-- So is the exchange of the code. -/
theorem exchangeOboCode_delegates {code : String} {agentId agentSecret : Json}
    (hp : LetPass E h t) :
    Local (S := agentSystem E) (Delegates E) (fun _ _ => True)
      (exchangeOboCode E t code agentId agentSecret) h := by
  have hplain := unauthorizing_of_ordinary
    (ordinary_of_plain E (fetchAgentToken_plain E agentId agentSecret t))
  refine Local.bind (Local.mono (fun x h hp => ?_)
    (hplain.delegates (K := fun h => LetPass E h t) (fun e _ hp => hp.cons e) hp))
  cases x with
  | error e => trivial
  | ok agentToken =>
    refine Local.bind (α := Option Json) ?_
    intro stored
    refine ⟨.op (o := .get .pkceVerifier t) nofun stored, ?_⟩
    refine Local.bind (α := Unit) ?_
    refine fun _ => ⟨.op (o := .delete .pkceVerifier t) nofun (), ?_⟩
    refine Local.bind (α := Response) (Local.bind (α := Rep) ?_)
    refine ⟨.send, fun r => ⟨.recv, ?_⟩⟩
    cases r with
    | failed => trivial
    | serviceToken token => trivial
    | response resp =>
      have hp := (hp.cons (.op (.get .pkceVerifier t) stored)).cons (.op (.delete .pkceVerifier t) ())
      exact storeOboToken_delegates (hp.cons _)

/-- So is every event of a `/callback`. -/
theorem oauthCallback_delegates (code : String) (state : Tok) (cookie : Option Tok) :
    Local (S := agentSystem E) (Delegates E) (fun x _ => ∀ url cookie, x ≠ .ok (.redirect url cookie))
      (oauthCallback E code state cookie) [.spawn (.callback code state cookie)] := by
  cases hk : E.settings.stateJwtSigningSecret with
  | error e =>
    unfold oauthCallback
    rw [hk]
    exact nofun
  | ok secret =>
    rw [oauthCallback_eq E hk]
    intro now
    refine ⟨.op (o := .time) nofun now, ?_⟩
    dsimp only
    cases hg : callbackGate E state cookie secret now with
    | error kind => exact nofun
    | ok passed =>
      have hp : LetPass E [.op .time now, .spawn (.callback code state cookie)] passed.1 :=
        ⟨code, state, cookie, secret, now, passed.2, by simp, hk, hg⟩
      refine Local.bind (S := agentSystem E) (p := completeOboAuthorization E passed.1 code) ?_
      refine Local.bind (α := Json × Json) ?_
      intro stored
      refine ⟨.op (o := .get .agentCredentials passed.1) nofun stored, Local.ofExcept ?_⟩
      cases credentialsOf stored with
      | error e => exact nofun
      | ok credentials =>
        refine Local.tryCatch (Local.bind (Local.mono (fun x h hx => ?_)
          (exchangeOboCode_delegates (hp.cons _))))
        cases x with
        | ok token => exact fun _ => ⟨.op (o := .set .flowState _ _ _) nofun (), nofun⟩
        | error e => cases e <;> exact nofun

/-! ### All requests -/

/-- So is every event of every job. -/
theorem delegates (j : Job Tok) :
    Local (S := agentSystem E) (Delegates E) (fun x h => Delegates E (.finish x) h)
      ((agentSystem E).program j) [.spawn j] := by
  have ordinary : ∀ {α : Type} {p : Coro α}, Ordinary E p →
      Local (S := agentSystem E) (Delegates E) (fun _ _ => True) p [.spawn j] :=
    fun hp => (unauthorizing_of_ordinary hp).delegates (fun _ _ => id) trivial
  cases j with
  | chat req =>
    exact delegates_serve (f := .context) rfl nofun
      (ordinary (ordinary_of_plain E (prepareChat_plain E req)))
  | dispatch name args t =>
    exact delegates_serve (f := .result) rfl nofun (ordinary (dispatchTool_ordinary E name args t))
  | mcp token name args =>
    exact delegates_serve (f := .content) rfl nofun
      (ordinary (callTool_ordinary E (.str token) name args))
  | confirm message t language =>
    exact delegates_serve (f := .reply) rfl nofun
      (ordinary (handleAuthorizationCallback_ordinary E message t language))
  | clear t =>
    exact delegates_serve (f := fun _ => .cleared) rfl nofun (ordinary (clearThread_ordinary E t))
  | authorize t action =>
    refine delegates_serve (f := .page) rfl (fun page h url cookie hx he => ?_)
      (initiateOauth_delegates t action)
    cases he
    exact ⟨t, hx url cookie rfl⟩
  | callback code state cookie =>
    refine delegates_serve (f := .page) rfl (fun page h url cookie' hx he => ?_)
      (oauthCallback_delegates code state cookie)
    cases he
    exact absurd rfl (hx url cookie')

end

/-! ## Reading a token -/

/-- Called in state `σ`, the coroutine returns `x` without giving up control. -/
def Returns {α : Type} (p : Coro α) (σ : Shared) (x : α) : Prop :=
  (Program.runOn (I := interface) (exec E) p [] σ).map (fun r => r.1) = some (.ok x)

/-- A stored token is returned when it has not expired. -/
theorem returns_liveToken {n : Namespace} {t : String} {σ : Shared} {x : Option Json} :
    Returns E (liveToken n t) σ x ↔ liveTokenOf (σ.get n t) σ.wall = .ok x := by
  change (Program.runOn (I := interface) (exec E)
    (Program.ofExcept (liveTokenOf (σ.get n t) σ.wall)) [] σ).map (fun r => r.1) = some (.ok x) ↔ _
  cases liveTokenOf (σ.get n t) σ.wall with
  | error e => exact ⟨nofun, nofun⟩
  | ok y => exact Option.some_inj

/-- What an entry says about its token when it is read. -/
theorem liveTokenOf_oboEntry_eq {token expiresAt x : Json} {now : Rat}
    (h : liveTokenOf (some (oboEntry token expiresAt)) now = .ok (some x)) :
    token = x ∧ isBefore expiresAt now = .ok false := by
  refine ⟨token_of_live h, ?_⟩
  rw [liveTokenOf_oboEntry] at h
  cases hb : isBefore expiresAt now with
  | error e =>
    rw [hb] at h
    cases h
  | ok expired =>
    rw [hb] at h
    cases expired with
    | false => rfl
    | true => cases h

/-- An entry made at `s` for `L` seconds has not expired until a minute before the end. -/
theorem le_of_not_before {s now : Rat} {L : Int} {expiresAt : Number}
    (ha : Json.addTo s (.num (.int L)) = .ok expiresAt)
    (hb : isBefore (.num (expiresAt.sub 60)) now = .ok false) : now ≤ s + L - 60 := by
  have ha : (if L.natAbs < Json.floatBound then Except.ok (Number.float (s + L))
    else .error Exn.overflowError) = .ok expiresAt := ha
  split at ha
  · cases ha
    have hlt : decide (s + (L : Rat) - 60 < now) = false := Except.ok.inj hb
    exact not_lt.1 (of_decide_eq_false hlt)
  · cases ha

/-! ## Runs -/

/-- A reply that grants a token names its lifetime in whole seconds, or names none. -/
def Response.wholeSeconds (resp : Response) : Bool :=
  match resp.readJson >>= readToken with
  | .ok (_, .num (.int _)) => true
  | .ok (_, .null) => true
  | .ok _ => false
  | .error _ => true

/-- The reply of the token endpoint that an entry receives. -/
def tokenReply (x : AgentEntry Tok) : Option Response :=
  match x.event with
  | .recv (.httpPost url _) (.response resp) =>
    if url = base E ++ "/oauth2/token" then some resp else none
  | _ => none

/-- In the run every token reply names its lifetime in whole seconds or names none, and the wall
clock does not go back. -/
structure Regular (c : (agentSystem E).Config) : Prop where
  replies : ∀ resp ∈ c.world.log.filterMap (tokenReply E), resp.wholeSeconds = true
  clock : (c.world.state.wall :: c.world.log.map fun x => x.state.wall).Pairwise (· ≥ ·)

/-- What puts an end to a delegated token that is kept for thread `t`: an exchange stores another
one, an `/authorize` redirects, or the tokens of the thread are cleared. -/
inductive PutsEnd (l : List (AgentEntry Tok)) (t : String) : AgentEntry Tok → Prop
  | exchange {i : Nat} {σ : Shared} {v : Json} {ttl : Nat} :
      PutsEnd l t ⟨i, σ, .op (.set .oboToken t v ttl) ()⟩
  | redirect {i : Nat} {σ : Shared} {action : String} {url : AuthorizeUrl Tok} {cookie : Tok} :
      Spawned l i (.authorize t action) →
      PutsEnd l t ⟨i, σ, .finish (.ok (.page (.redirect url cookie)))⟩
  | clear {i : Nat} {σ : Shared} : PutsEnd l t ⟨i, σ, .op (.delete .oboToken t) ()⟩

/-- By history `l`, at time `n`: a `/callback` that was let pass for thread `t` received `token`
with a lifetime of `L` seconds and stored it; this lifetime has a minute left or more, and nothing
has put an end to the token since. -/
def StillGranted (l : List (AgentEntry Tok)) (n : Rat) (t : String) (token : Json) : Prop :=
  ∃ (i : Nat) (σ : Shared) (L : Int) (resp : Response) (code : String) (verifier agentToken v : Json)
    (ttl : Nat) (action : Option String) (later earlier : List (AgentEntry Tok)),
    l = later ++ ⟨i, σ, .op (.set .oboToken t v ttl) ()⟩ :: ⟨i, σ, .op .time σ.wall⟩ ::
      ⟨i, σ, .recv (oboTokenRequest E code verifier agentToken) (.response resp)⟩ :: earlier ∧
    Accepted E earlier i t action ∧ resp.readJson >>= readToken = .ok (token, .num (.int L)) ∧
    σ.wall ≤ n ∧ n ≤ σ.wall + L - 60 ∧ ∀ x ∈ later, ¬ PutsEnd l t x

section
variable {E}

/-- The clock of a moment has passed what its history has seen. -/
theorem Regular.le {c : (agentSystem E).Config} (h : Regular E c) {w : AgentWorld E}
    (hw : Moment c w) {x : AgentEntry Tok} (hx : x ∈ w.log) : x.state.wall ≤ w.state.wall := by
  obtain ⟨hnow, hpast⟩ := List.pairwise_cons.1 h.clock
  cases hw with
  | now => exact hnow _ (List.mem_map_of_mem hx)
  | before hl =>
    have hsub := (hl.sublist.map fun x : AgentEntry Tok => x.state.wall)
    exact (List.pairwise_cons.1 (hpast.sublist hsub)).1 _ (List.mem_map_of_mem hx)

/-- The lifetime that a delegated token is stored with is a whole number of seconds. -/
theorem Regular.lifetime {c : (agentSystem E).Config} (h : Regular E c) {i : Nat} {σ : Shared}
    {code : String} {verifier agentToken : Json} {resp : Response}
    (hx : ⟨i, σ, .recv (oboTokenRequest E code verifier agentToken) (.response resp)⟩ ∈ c.world.log)
    {token expiresIn : Json} (hr : resp.readJson >>= readToken = .ok (token, expiresIn)) {now : Rat}
    {expiresAt : Number} (ha : expiresIn.addTo now = .ok expiresAt) :
    ∃ L : Int, expiresIn = .num (.int L) := by
  have hwhole := h.replies resp (List.mem_filterMap.2 ⟨_, hx, if_pos rfl⟩)
  unfold Response.wholeSeconds at hwhole
  rw [hr] at hwhole
  split at hwhole
  · next he =>
    cases he
    exact ⟨_, rfl⟩
  · next he =>
    cases he
    cases ha
  · cases hwhole
  · next he => cases he

/-- A redirection stores no delegated token. -/
theorem set_not_mem_redirection {t t' verifier : String} {v : Json} {ttl : Nat} :
    (.op (.set .oboToken t v ttl) () : AgentEvent Tok) ∉ redirection t' verifier := by
  intro h
  simp only [redirection, List.mem_cons, List.not_mem_nil, or_false] at h
  rcases h with h | h | h | h <;> cases h

/-- Above a standing token, nothing puts an end to it. -/
theorem not_putsEnd {m w₀ : Rat} {c : (agentSystem E).Config}
    (hc : System.Reachable (Shared.start m w₀) c) {later earlier : List (AgentEntry Tok)} {i : Nat}
    {σ : Shared} {t : String} {v : Json} {ttl : Nat}
    (hl : later ++ ⟨i, σ, .op (.set .oboToken t v ttl) ()⟩ :: earlier <:+ c.world.log)
    (hlater : ∀ y ∈ later, ¬ Writes .oboToken t y) {x : AgentEntry Tok} (hx : x ∈ later) :
    ¬ PutsEnd (later ++ ⟨i, σ, .op (.set .oboToken t v ttl) ()⟩ :: earlier) t x := by
  rintro (_ | ⟨hspawned⟩ | _)
  · exact hlater _ hx (.inl ⟨_, _, _, rfl⟩)
  · next k s action url cookie =>
    obtain ⟨l₁, l₂, rfl⟩ := List.append_of_mem hx
    have hfin : ⟨k, s, .finish (.ok (.page (.redirect url cookie)))⟩ ::
        (l₂ ++ ⟨i, σ, .op (.set .oboToken t v ttl) ()⟩ :: earlier) <:+ c.world.log := by
      refine List.IsSuffix.trans ⟨l₁, ?_⟩ hl
      rw [List.append_assoc]
      rfl
    obtain ⟨l₀, hl₀⟩ := id hfin
    have hd := (Preempted.justified delegates hc.preempted hl₀.symm).resolve_left
      (by rintro ⟨j, ⟨⟩, -⟩)
    obtain ⟨t', action', verifier, h', htr, hs⟩ := hd.redirects url cookie rfl
    have htakes : ∀ e ∈ (redirection t' verifier : AgentTrace Tok),
        ¬ Event.Takes (S := agentSystem E) e :=
      List.forall_mem_cons.2 ⟨not_false, List.forall_mem_cons.2 ⟨not_false,
        List.forall_mem_cons.2 ⟨not_false, List.forall_mem_singleton.2 not_false⟩⟩⟩
    obtain ⟨ys, l', hys, hevents, hl'⟩ := hc.contiguous.stretch (i := k) hfin rfl not_false htakes htr
    -- the deletion is the `/authorize`'s own thread's
    obtain ⟨s', hs'⟩ := mem_trace.1 (hl'.symm ▸ hs)
    have hbelow : l' <:+ c.world.log := by
      refine ((List.suffix_append ys l').trans ?_).trans ((List.suffix_cons _ _).trans hfin)
      rw [hys]
    obtain ⟨⟩ := Spawned.unique E hc.preempted (hspawned.mono hl) ⟨s', hbelow.subset hs'⟩
    -- and it stands above the stored token
    have hstored {y : AgentEntry Tok} (hy : y ∈ ys) :
        y.event ≠ .op (.set .oboToken t v ttl) () := by
      intro he
      exact set_not_mem_redirection (he ▸ hevents ▸ List.mem_map_of_mem hy)
    have hsub : ys ⊆ l₂ := by
      obtain ⟨a, rfl, ha⟩ | ⟨b, rfl, -⟩ := List.append_eq_append_iff.1 hys
      · cases a with
        | nil => exact fun y hy => (List.append_nil l₂) ▸ hy
        | cons y a =>
          obtain ⟨rfl, -⟩ := List.cons.inj ha
          exact absurd rfl (hstored (List.mem_append_right _ (.head _)))
      · exact fun y hy => List.mem_append_left _ hy
    have hdeleted : .op (.delete .oboToken t) () ∈ ys.map Entry.event :=
      hevents ▸ .tail _ (.tail _ (.tail _ (.head _)))
    obtain ⟨y, hy, he⟩ := List.mem_map.1 hdeleted
    exact hlater y (List.mem_append_right _ (.tail _ (hsub hy))) (.inr ⟨(), he⟩)
  · exact hlater _ hx (.inr ⟨_, rfl⟩)

/-- What the store holds as a delegated token is still granted, as long as it is returned. -/
theorem stillGranted {m w₀ : Rat} {c : (agentSystem E).Config}
    (hc : System.Reachable (Shared.start m w₀) c) (hregular : Regular E c) {w : AgentWorld E}
    (hw : Moment c w) {t : String} {token : Json}
    (h : liveTokenOf (w.state.get .oboToken t) w.state.wall = .ok (some token)) :
    StillGranted E w.log w.state.wall t token := by
  have hconsistent := hc.preempted.consistent
  cases hv : w.state.get .oboToken t with
  | none =>
    rw [hv] at h
    cases h
  | some v =>
    obtain ⟨x, hx, rfl, -⟩ := (get_eq_some_iff E (hw.consistent hconsistent)).1 hv
    rw [hv] at h
    obtain ⟨later, stored, hlog, hlater⟩ := lastSet_split hx
    obtain ⟨l₀, hl₀⟩ := hw.suffix
    have hset : ⟨x.task, x.state, .op (.set .oboToken t x.value x.ttl) ()⟩ :: stored <:+
        c.world.log := by
      refine List.IsSuffix.trans ⟨later, ?_⟩ hw.suffix
      rw [hlog]
    obtain ⟨l₁, hl₁⟩ := id hset
    have hd := (Preempted.justified delegates hc.preempted hl₁.symm).resolve_left
      (by rintro ⟨j, ⟨⟩, -⟩)
    obtain ⟨now, code, verifier, agentToken, resp, granted, expiresIn, expiresAt, h', htr, hr, ha,
      hentry, hpass⟩ := hd.stores _ _ _ _ rfl
    -- the entries below are those of the exchange
    obtain ⟨s₁, l₂, rfl, htr₂, hs₁⟩ := hc.seamless.below hset not_false htr
    have htime := (List.suffix_cons _ _).trans hset
    obtain ⟨s₂, earlier, rfl, htr₃, hs₂⟩ := hc.seamless.below htime not_false htr₂
    have hrecv := (List.suffix_cons _ _).trans htime
    obtain ⟨l₃, hl₃⟩ := id htime
    have hnow : now = s₁.wall := (hconsistent.before hl₃.symm).2
    have hstate₁ : x.state = s₁ := hs₁
    have hstate₂ : s₁ = s₂ := hs₂
    subst hstate₂
    subst hstate₁
    subst hnow
    rw [hentry] at h
    obtain ⟨rfl, hbefore⟩ := liveTokenOf_oboEntry_eq h
    obtain ⟨L, rfl⟩ := hregular.lifetime (hrecv.subset (.head _)) hr ha
    have hmem : ∀ y, y ∈ (⟨x.task, x.state, .op (.set .oboToken t x.value x.ttl) ()⟩ ::
        ⟨x.task, x.state, .op .time x.state.wall⟩ ::
        ⟨x.task, x.state, .recv (oboTokenRequest E code verifier agentToken) (.response resp)⟩ ::
        earlier : List (AgentEntry Tok)) → y ∈ w.log := by
      intro y hy
      rw [hlog]
      exact List.mem_append_right _ hy
    obtain ⟨code', state, cookie, secret, now, action, hspawn, hsecret, hgate⟩ := hpass
    obtain ⟨σ, hσ⟩ := mem_trace.1 (htr₃.symm ▸ hspawn)
    refine ⟨x.task, x.state, L, resp, code, verifier, agentToken, x.value, x.ttl, action, later,
      earlier, hlog, ⟨code', state, cookie, secret, now, ⟨σ, hσ⟩, hsecret, hgate⟩, hr,
      hregular.le hw (hmem _ (.head _)), le_of_not_before ha hbefore, fun y hy => ?_⟩
    have hsuffix := hw.suffix
    rw [hlog] at hsuffix ⊢
    exact not_putsEnd hc hsuffix hlater hy

/-- In a regular run, whenever `get_obo_token` or `get_obo_jwt_raw` returns a token for a thread, an
exchange for the thread was granted that token, the token has a minute left or more, and no later
exchange, no redirecting `/authorize` and no clearing of the thread's tokens came after it. -/
theorem delegated_token_sound {m w₀ : Rat} {c : (agentSystem E).Config}
    (hc : System.Reachable (Shared.start m w₀) c) (hregular : Regular E c) {w : AgentWorld E}
    (hw : Moment c w) {t : String} {token : Json}
    (h : Returns E (getOboToken t) w.state (some token) ∨
      Returns E (getOboJwtRaw t) w.state (some token)) :
    StillGranted E w.log w.state.wall t token := by
  have hlive : Returns E (liveToken .oboToken t) w.state (some token) := h.elim id id
  exact stillGranted hc hregular hw ((returns_liveToken E).1 hlive)

open Symbolic in
/-- The token of a `/callback` is handed out after it. -/
theorem delegated_token_sound_callback :
    StillGranted env (play (chat 0 ++ [.spawn 1 (.authorize "t" "book")] ++
        callback 2 (state "book" 1) "obo")).world.log
      (play (chat 0 ++ [.spawn 1 (.authorize "t" "book")] ++
        callback 2 (state "book" 1) "obo")).world.state.wall "t" (.str "obo") :=
  delegated_token_sound (play_reachable _) ⟨by decide +kernel, by decide +kernel⟩ .now
    (.inl ((returns_liveToken env).2 (by decide +kernel)))

end

end Teamspace.Agent
