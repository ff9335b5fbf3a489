import Teamspace.Agent.Moves

/-!
# The service makes only its moves

Each coroutine of the service, from the tools up to the endpoints, makes only the moves of
`Teamspace.Agent.Moves`; `Reachable.invariant` is what follows for every run.
-/

namespace Teamspace.Agent

open Teamspace.Lib Teamspace.Py Teamspace.Lib.System
open Relation (ReflTransGen)

section
variable {Tok : Type} {E : Env Tok} {i : Nat} {w : AgentWorld E}

/-! ## The entry point of the tools -/

/-- The claims of a token verify at an instant, and grant `scopes`. -/
def Grants (E : Env Tok) (now : Rat) (token : Json) (scopes : List String) : Prop :=
  ∃ t decoded, token = .str t ∧ E.validateMcpToken now t = .ok decoded ∧
    scopesOf decoded = .ok scopes

/-- The scopes of a token that verifies are those that it grants. -/
theorem verifiedScopes_spec (token : Json) : Spec (Move E i) i (verifiedScopes token) w
    fun x w' => OnlyRead w w' ∧ ∀ scopes, x = .ok (.ok scopes) →
      Grants E w.state.wall token scopes := by
  unfold verifiedScopes
  split
  · next t =>
    refine Spec.op (Move.plain_op (o := .validateMcpToken t) trivial) ?_
    generalize hd : ((agentSystem E).exec (.validateMcpToken t) w.state).1 = r
    change Except String Dict at r
    cases r with
    | error e => exact .ret ⟨⟨rfl, List.suffix_cons _ _⟩, nofun⟩
    | ok decoded =>
      exact .ret ⟨⟨rfl, List.suffix_cons _ _⟩,
        fun scopes hs => ⟨t, decoded, rfl, hd, Except.ok.inj hs⟩⟩
  · exact .ret ⟨⟨rfl, List.suffix_refl _⟩, nofun⟩

/-- `get_agent_name` only reads. -/
theorem getAgentName_spec (t : String) :
    Spec (Move E i) i (getAgentName t) w fun _ w' => OnlyRead w w' :=
  Spec.op (Move.plain_op (by decide : Namespace.agentName ≠ .pkceVerifier))
    (.ret ⟨rfl, List.suffix_cons _ _⟩)

/-- Every tool makes moves, whatever it is called with. -/
theorem handler_spec {name : String} {handler : ToolCall → Coro TextContent} {c : ToolCall}
    (hm : (name, handler) ∈ toolHandlers E) (hc : Calls w.log i name c.arguments)
    (ht : threadIdOf c.arguments = some c.threadId)
    (hv : Grants E w.state.wall (.str c.token) c.scopes) :
    Spec (Move E i) i (handler c) w fun _ _ => True := by
  have hv : ∃ decoded, E.validateMcpToken w.state.wall c.token = .ok decoded ∧
      scopesOf decoded = .ok c.scopes := by
    obtain ⟨t, decoded, ht, hd⟩ := hv
    cases ht
    exact ⟨decoded, hd⟩
  simp only [toolHandlers, List.mem_cons, Prod.mk.injEq, List.not_mem_nil, or_false] at hm
  obtain ⟨rfl, rfl⟩ | ⟨rfl, rfl⟩ | ⟨rfl, rfl⟩ | ⟨rfl, rfl⟩ | ⟨rfl, rfl⟩ | ⟨rfl, rfl⟩ | ⟨rfl, rfl⟩ := hm
  · exact spec_mild (handleListMeetings_mild c)
  · exact handlePreview_spec (p := scheduleMeetingPreview E) hc ht
  · exact handleCommit_spec (a := .book) hc ht hv
  · exact handlePreview_spec (p := deleteMeetingPreview E) hc ht
  · exact handleCommit_spec (a := .delete) hc ht hv
  · exact handlePreview_spec (p := updateMeetingPreview E) hc ht
  · exact handleCommit_spec (a := .update) hc ht hv

/-- `call_tool` makes only moves of the task that calls the tool. -/
theorem callTool_spec {token : Json} {name : String} {args : Dict}
    (hc : Calls w.log i name args) :
    Spec (Move E i) i (callTool E token name args) w fun _ _ => True := by
  unfold callTool
  split
  · exact .ret trivial
  · refine .bind ((verifiedScopes_spec token).mono fun x w₁ ⟨⟨hs₁, hl₁⟩, hx⟩ => ?_)
    cases x with
    | error e => trivial
    | ok r =>
      cases r with
      | error e => exact .ret trivial
      | ok scopes =>
        obtain ⟨t, decoded, rfl, hd⟩ := hx scopes rfl
        dsimp only
        cases hth : threadIdOf args with
        | none => exact .ret trivial
        | some threadId =>
          refine .bind ((getAgentName_spec threadId).mono fun x w₂ ⟨hs₂, hl₂⟩ => ?_)
          cases x with
          | error e => trivial
          | ok agentName =>
            dsimp only
            cases hlook : (toolHandlers E).lookup name with
            | none => exact .ret trivial
            | some handler =>
              refine handler_spec (mem_of_lookup hlook) (hc.mono (hl₁.trans hl₂)) hth ?_
              rw [hs₂, hs₁]
              exact ⟨t, decoded, rfl, hd⟩

/-- `dispatch_tool` makes only moves of the task that calls the tool. -/
theorem dispatchTool_spec {name : String} {args : Dict} {t : String}
    (hc : Calls w.log i name (Dict.set args "thread_id" (.str t))) :
    Spec (Move E i) i (dispatchTool E name args t) w fun _ _ => True := by
  refine .bind ((spec_plain (toolToken_plain E t)).mono fun x w₁ hl => ?_)
  cases x with
  | error e => trivial
  | ok token =>
    dsimp only
    split
    · exact .ret trivial
    · refine .bind ((callTool_spec (hc.mono hl)).mono fun x w₂ _ => ?_)
      cases x with
      | error e => trivial
      | ok content => exact .ret trivial

/-! ## The confirmation path -/

/-- A dispatched tool makes moves, and what the confirmation path makes of its result is mild. -/
theorem dispatch_spec {name : String} {args : Dict} {t : String} {α : Type} {f : Dict → Coro α}
    (hc : Calls w.log i name (Dict.set args "thread_id" (.str t))) (hf : ∀ res, Mild (f res)) :
    Spec (Move E i) i (dispatchTool E name args t >>= f) w fun _ _ => True := by
  refine .bind ((dispatchTool_spec hc).mono fun x w₁ _ => ?_)
  cases x with
  | error e => trivial
  | ok res => exact spec_mild (hf res)

/-- An authorized deletion makes only moves, with the meeting that was pending. -/
theorem handleDeleteAuthorized_spec {message t language : String} {pending : Json}
    (hs : Spawned w.log i (.confirm message t language))
    (hp : ∀ d, pending = .obj d → ReadPending w.log i t .delete d) :
    Spec (Move E i) i (handleDeleteAuthorized E t pending language) w fun _ _ => True := by
  refine .bind (.ofExcept ?_)
  cases hx : pending.getItem "meeting_id" with
  | error e => trivial
  | ok meetingId =>
    obtain ⟨d, rfl, hd⟩ : ∃ d, pending = .obj d ∧ Dict.get d "meeting_id" = some meetingId := by
      unfold Json.getItem at hx
      split at hx
      · next d =>
        refine ⟨d, rfl, ?_⟩
        split at hx
        · next v hv => rw [hv, Except.ok.inj hx]
        · cases hx
      · cases hx
    have hcall := Calls.confirm hs (hp d rfl)
    simp only [Action.confirmArgs, hd, Option.getD_some] at hcall
    refine dispatch_spec hcall fun res => ?_
    split
    · trivial
    · trivial

/-- So does an authorized update. -/
theorem handleUpdateAuthorized_spec {message t language : String} {pending : Json}
    (hs : Spawned w.log i (.confirm message t language))
    (hp : ∀ d, pending = .obj d → ReadPending w.log i t .update d) :
    Spec (Move E i) i (handleUpdateAuthorized E t pending language) w fun _ _ => True := by
  refine .bind (.ofExcept ?_)
  cases pending with
  | obj d =>
    refine dispatch_spec (.confirm hs (hp d rfl)) fun res => ?_
    split
    · refine Program.Only.bind (Program.only_ofExcept _) fun meeting => ?_
      exact Program.Only.bind (Program.only_ofExcept _) fun topic => trivial
    · trivial
  | null | bool | num | str | arr => trivial

/-- So does an authorized booking. -/
theorem handleBookingAuthorized_spec {message t language : String} {pending : Json}
    (hs : Spawned w.log i (.confirm message t language))
    (hp : ∀ d, pending = .obj d → ReadPending w.log i t .book d) :
    Spec (Move E i) i (handleBookingAuthorized E t pending language) w fun _ _ => True := by
  refine .bind (.ofExcept ?_)
  cases pending with
  | obj d =>
    refine dispatch_spec (.confirm hs (hp d rfl)) fun res => ?_
    split
    · refine Program.Only.bind (Program.only_ofExcept _) fun meetingId => ?_
      refine Program.Only.bind (Program.only_ofExcept _) fun topic => ?_
      split
      · trivial
      · trivial
    · trivial
  | null | bool | num | str | arr => trivial

/-- An authorized listing makes only moves. -/
theorem handleListAuthorized_spec {message t language : String} (pending : Json)
    (hs : Spawned w.log i (.confirm message t language)) :
    Spec (Move E i) i (handleListAuthorized E t pending language) w fun _ _ => True := by
  refine dispatch_spec (.confirmList hs) fun res => ?_
  split
  · dsimp only
    split
    · exact Program.Only.bind (Program.only_ofExcept _) fun items => trivial
    · trivial
  · trivial

/-- So does the first handler that fits, if those of its state do. -/
theorem dispatchAuthorizedState_spec {state : FlowState} {t : String} {pending : Json}
    {language : String} :
    ∀ {es : List (FlowState × PendingGuard × (String → Json → String → Coro Reply))},
      (∀ e ∈ es, state = e.1 →
        Spec (Move E i) i (e.2.2 t pending language) w fun _ _ => True) →
      Spec (Move E i) i (dispatchAuthorizedState state t pending language es) w fun _ _ => True
  | [], _ => .ret trivial
  | (target, guard, handler) :: rest, h => by
    have hrest := dispatchAuthorizedState_spec fun e he => h e (.tail _ he)
    unfold dispatchAuthorizedState
    split
    · next hst =>
      refine .bind (.ofExcept ?_)
      cases guard pending with
      | error e => trivial
      | ok b =>
        dsimp only
        split
        · refine .bind ((h _ (.head _) hst).mono fun x w₁ _ => ?_)
          cases x with
          | error e => trivial
          | ok reply => exact .ret trivial
        · exact hrest
    · exact hrest

/-- What is an object is what was there. -/
theorem eq_of_notNone {v : Option Json} {d : Dict} (h : (notNone v).getD .null = .obj d) :
    v = some (.obj d) := by
  rcases v with _ | v
  · cases h
  · cases v with
    | null => cases h
    | obj => exact congrArg some h
    | bool | num | str | arr => cases h

/-- The confirmation path makes only moves. -/
theorem handleAuthorizationCallback_spec {message t language : String}
    (hs : Spawned w.log i (.confirm message t language)) :
    Spec (Move E i) i (handleAuthorizationCallback E message t language) w fun _ _ => True := by
  refine .bind ((getState_spec t).mono fun x w₁ h₁ => ?_)
  obtain ⟨rfl, hst, hl⟩ := h₁
  dsimp only
  split
  · split
    · refine .bind (Spec.op (Move.plain_op (by decide : Namespace.pendingMeeting ≠ .pkceVerifier))
        (.ret ?_))
      have hs₂ : Spawned (w₁.perform i (.get .pendingMeeting t)).log i
          (.confirm message t language) := hs.mono (hl.trans (List.suffix_cons _ _))
      have hp : ∀ a, flowStateOf (w.state.get .flowState t) = .authorized a → ∀ d,
          (notNone (w₁.state.get .pendingMeeting t)).getD .null = .obj d →
          ReadPending (w₁.perform i (.get .pendingMeeting t)).log i t a d := by
        intro a ha d hd
        refine ⟨w₁.state, ?_, by rw [hst]; exact ha⟩
        have hg := eq_of_notNone hd
        rw [← hg]
        exact .head _
      refine .bind ((dispatchAuthorizedState_spec ?_).mono fun x w₂ _ => ?_)
      · intro e he hstate
        simp only [authorizedStateDispatch, List.mem_cons, List.not_mem_nil, or_false] at he
        rcases he with rfl | rfl | rfl | rfl
        · exact handleDeleteAuthorized_spec hs₂ (hp .delete hstate)
        · exact handleUpdateAuthorized_spec hs₂ (hp .update hstate)
        · exact handleBookingAuthorized_spec hs₂ (hp .book hstate)
        · exact handleListAuthorized_spec Json.null hs₂
      · cases x with
        | error e => trivial
        | ok reply =>
          cases reply with
          | none => exact .ret trivial
          | some reply => exact .ret trivial
    · exact .ret trivial
  · exact .ret trivial

/-! ## `/authorize` -/

/-- `clear_obo_tokens` makes only moves, and adds to the history. -/
theorem clearOboTokens_spec (t : String) :
    Spec (Move E i) i (clearOboTokens t) w fun _ w' => w.log <:+ w'.log :=
  Spec.mono (Spec.later (spec_mild (clearOboTokens_mild t))) fun _ _ h => h.2

/-- The link is made with moves only, and carries the state. -/
theorem getRealWso2AuthorizationUrl_spec (t : String) (scopes : List String) (stateToken : Tok)
    (agentId : Json) : Spec (Move E i) i
      (getRealWso2AuthorizationUrl E t scopes stateToken agentId) w fun x w' =>
        w.log <:+ w'.log ∧ ∀ url, x = .ok url → url.state = stateToken := by
  unfold getRealWso2AuthorizationUrl
  split
  · exact .raise ⟨List.suffix_refl _, nofun⟩
  · refine .bind ((clearOboTokens_spec t).mono fun x w₁ h₁ => ?_)
    cases x with
    | error e => exact ⟨h₁, nofun⟩
    | ok _ =>
      refine Spec.op (Move.plain_op (o := .tokenUrlsafe 32) trivial) ?_
      refine Spec.op (.mild _ ⟨by decide, by decide, nofun⟩) (.ofExcept ⟨?_, ?_⟩)
      · exact (h₁.trans (List.suffix_cons _ _)).trans (List.suffix_cons _ _)
      · intro url hu
        rw [urlencode] at hu
        split at hu
        · cases hu
          rfl
        · cases hu

/-- An exception is neither the success page of `/callback` nor a redirect, and no error page is. -/
theorem Issues.of_refused {x : Except Exn (Page Tok)} {l : List (AgentEntry Tok)}
    (hx : (∃ e, x = .error e) ∨ ∃ kind code, x = .ok (.error kind code)) :
    x ≠ .ok .authorized ∧
      ∀ url cookie, x = .ok (.redirect url cookie) → Issues E l i url cookie := by
  obtain ⟨e, rfl⟩ | ⟨kind, code, rfl⟩ := hx
  · refine ⟨fun h => ?_, fun url cookie h => ?_⟩ <;> cases h
  · refine ⟨fun h => ?_, fun url cookie h => ?_⟩ <;> cases h

/-- `/authorize` never ends in the success page of `/callback`, and what it issues is signed. -/
theorem initiateOauth_spec {t action : String} (hs : Spawned w.log i (.authorize t action)) :
    Spec (Move E i) i (initiateOauth E t action) w fun x w' => x ≠ .ok .authorized ∧
      ∀ url cookie, x = .ok (.redirect url cookie) → Issues E w'.log i url cookie := by
  refine .bind ((spec_plain (getAgentCredentials_plain E t)).mono fun x w₁ h₁ => ?_)
  cases x with
  | error e => exact Issues.of_refused (.inl ⟨_, rfl⟩)
  | ok credentials =>
    obtain ⟨agentId, agentSecret⟩ := credentials
    dsimp only
    split
    · exact .ret (Issues.of_refused (.inr ⟨_, _, rfl⟩))
    · refine Spec.op (Move.plain_op (o := .tokenUrlsafe 16) trivial) ?_
      generalize hcsrf : ((agentSystem E).exec (.tokenUrlsafe 16) w₁.state).1 = csrf
      change String at csrf
      refine .bind (.ret ?_)
      dsimp only
      cases hsc : scopesOfAction action with
      | none => exact .raise (Issues.of_refused (.inl ⟨_, rfl⟩))
      | some scopes =>
        refine Spec.op (Move.plain_op (o := .time) trivial) ?_
        refine .bind (.ret ?_)
        dsimp only
        cases hsec : E.settings.stateJwtSigningSecret with
        | error e => exact .ret (Issues.of_refused (.inr ⟨_, _, rfl⟩))
        | ok secret =>
          refine .bind ((getRealWso2AuthorizationUrl_spec ..).mono fun x w₂ h₂ => ?_)
          cases x with
          | error e => exact Issues.of_refused (.inl ⟨_, rfl⟩)
          | ok url =>
            refine .ofExcept ?_
            rw [redirectResponse]
            split
            case isFalse => exact Issues.of_refused (.inl ⟨_, rfl⟩)
            refine ⟨?_, ?_⟩
            · intro h
              cases h
            intro url' cookie hu
            cases hu
            have hl := (((h₁.trans (List.suffix_cons _ _)).trans (List.suffix_cons _ _)).trans h₂.1)
            exact ⟨t, action, csrf, _, secret, hs.mono hl, by rw [hsc]; rfl, hsec,
              h₂.2 _ rfl, (h₂.2 _ rfl).symm⟩

/-! ## `/callback` -/

/-- What the exchange leaves to the end of `/callback`: the delegated token has just been stored,
in the middle of a move, or nothing was stored and the moves are complete. -/
def AfterExchange (i : Nat) (t : String) {α : Type} (l : List (AgentEntry Tok))
    (x : Except Exn α) (s w : AgentWorld E) : Prop :=
  match x with
  | .ok _ => ∃ mid token expiresAt, ReflTransGen (Move E i) s mid ∧ l <:+ mid.log ∧
      Exchanged E mid.log i token ∧ w = mid.perform i (.set .oboToken t
        (.obj [("token", token), ("expires_at", expiresAt)]) tokenTtlSeconds)
  | .error _ => ReflTransGen (Move E i) s w

/-- What the exchange leaves it leaves after moves as well. -/
theorem AfterExchange.shift {t : String} {α : Type} {l : List (AgentEntry Tok)}
    (x : Except Exn α) (s s' w : AgentWorld E) (hs : ReflTransGen (Move E i) s s')
    (h : AfterExchange i t l x s' w) : AfterExchange i t l x s w := by
  cases x with
  | error e => exact hs.trans h
  | ok a =>
    obtain ⟨mid, token, expiresAt, hm, hl, he, hw⟩ := h
    exact ⟨mid, token, expiresAt, hs.trans hm, hl, he, hw⟩

/-- The token that is stored is one that was obtained. -/
theorem storeOboToken_within {t : String} {resp : Response} {l : List (AgentEntry Tok)}
    (hl : l <:+ w.log) (hx : ∀ token expiresIn,
      resp.readJson >>= readToken = .ok (token, expiresIn) → Exchanged E w.log i token) :
    Within (Move E i) i (AfterExchange (E := E) i t l) w (storeOboToken t resp) w := by
  refine Within.bind (Within.ofExcept ?_)
  cases hj : resp.readJson with
  | error e => exact ReflTransGen.refl
  | ok tokenData =>
    refine Within.bind (Within.ofExcept ?_)
    cases hr : readToken tokenData with
    | error e => exact ReflTransGen.refl
    | ok p =>
      obtain ⟨token, expiresIn⟩ := p
      have hex := hx token expiresIn (by rw [hj]; exact hr)
      refine Within.op AfterExchange.shift (Move.plain_op (o := .time) trivial) ?_
      refine Within.bind (Within.bind (Within.ret (Within.bind (Within.ofExcept ?_))))
      cases Json.addTo ((agentSystem E).exec .time w.state).1 expiresIn with
      | error e => exact ReflTransGen.refl
      | ok expiresAt =>
        exact ⟨_, token, _, .refl, hl.trans (List.suffix_cons _ _),
          hex.mono (List.suffix_cons _ _), rfl⟩

/-- `exchange_obo_code` stores a token that was obtained, or nothing. -/
theorem exchangeOboCode_within (t code : String) (agentId agentSecret : Json) :
    Within (Move E i) i (AfterExchange (E := E) i t w.log) w
      (exchangeOboCode E t code agentId agentSecret) w := by
  refine Within.bind (Within.mono (fun x s w₁ h₁ => ?_)
    (spec_plain (w := w) (fetchAgentToken_plain E agentId agentSecret t)))
  obtain ⟨hm, hl⟩ := h₁
  cases x with
  | error e => exact hm
  | ok agentToken =>
    refine Within.shift AfterExchange.shift hm ?_
    refine Within.op AfterExchange.shift (.mild (.get .pkceVerifier t) trivial) ?_
    refine Within.bind (Within.ret ?_)
    refine Within.op AfterExchange.shift (.mild (.delete .pkceVerifier t) trivial) ?_
    refine Within.bind (Within.ret ?_)
    refine Within.await AfterExchange.shift (.send _ rfl) (fun r w' _ => .recv _ r rfl) ?_
    intro r w' hw
    have hl' : w.log <:+ (w'.emit i (.recv (oboTokenRequest E code
        (codeVerifierOf (w₁.state.get .pkceVerifier t)) agentToken) r)).log :=
      (((hl.trans (List.suffix_cons _ _)).trans (List.suffix_cons _ _)).trans
        ((List.suffix_cons _ _).trans hw.suffix)).trans (List.suffix_cons _ _)
    cases r with
    | failed => exact ReflTransGen.refl
    | serviceToken token => exact ReflTransGen.refl
    | response resp =>
      refine Within.bind (Within.ret (storeOboToken_within hl' fun token expiresIn hr => ?_))
      exact ⟨_, _, _, _, _, _, .head _, hr⟩

/-- An error page stands for an exchange that stored nothing. -/
def exchangeResult (x : Except Exn (Option OauthError)) : Except Exn Unit :=
  match x with
  | .ok none => .ok ()
  | .ok (some _) => .error .valueError
  | .error e => .error e

/-- The end of an authorization stores a token that was obtained, or nothing. -/
theorem completeOboAuthorization_within (t code : String) :
    Within (Move E i) i (fun x => AfterExchange (E := E) i t w.log (exchangeResult x)) w
      (completeOboAuthorization E t code) w := by
  refine Within.bind (Within.mono (fun x s w₁ h₁ => ?_)
    (spec_plain (w := w) (getAgentCredentials_plain E t)))
  obtain ⟨hm, hl⟩ := h₁
  cases x with
  | error e => exact hm
  | ok credentials =>
    obtain ⟨agentId, agentSecret⟩ := credentials
    refine Within.shift (fun x => AfterExchange.shift (exchangeResult x)) hm ?_
    refine Within.tryCatch (Within.bind (Within.mono (fun x s w₂ h₂ => ?_)
      (exchangeOboCode_within t code agentId agentSecret)))
    cases x with
    | error e => cases e <;> exact h₂
    | ok token =>
      obtain ⟨mid, token, expiresAt, hm, hl', hx, hw⟩ := h₂
      exact ⟨mid, token, expiresAt, hm, hl.trans hl', hx, hw⟩

/-- The end of a task whose moves are complete, unless it is the success page of `/callback`. -/
theorem finish_moves {s : AgentWorld E} {x : Except Exn (Outcome Tok)}
    (hm : ReflTransGen (Move E i) s w) (hx : x ≠ .ok (.page .authorized))
    (hr : ∀ url cookie, x ≠ .ok (.page (.redirect url cookie))) :
    ReflTransGen (Move E i) s (w.emit i (.finish x)) :=
  hm.tail (.finish x hx fun url cookie h => absurd h (hr url cookie))

/-- The moves are complete once the task ends with a page. -/
def Ended (i : Nat) (x : Except Exn (Page Tok)) (s w : AgentWorld E) : Prop :=
  ReflTransGen (Move E i) s (w.emit i (.finish (x.map .page)))

/-- A task that ends after moves ends. -/
theorem Ended.shift (x : Except Exn (Page Tok)) (s s' w : AgentWorld E)
    (hs : ReflTransGen (Move E i) s s') (h : Ended i x s' w) : Ended i x s w := hs.trans h

/-- `/callback` makes only moves, with the token and the state stored in one of them. -/
theorem oauthCallback_within {code : String} {state : Tok} {cookie : Option Tok}
    (hs : Spawned w.log i (.callback code state cookie)) :
    Within (Move E i) i (Ended i) w (oauthCallback E code state cookie) w := by
  unfold oauthCallback
  cases hsec : E.settings.stateJwtSigningSecret with
  | error e => exact finish_moves .refl nofun nofun
  | ok secret =>
    refine Within.op Ended.shift (Move.plain_op (o := .time) trivial) ?_
    refine Within.bind (Within.ret ?_)
    dsimp only
    cases hg : callbackGate E state cookie secret ((agentSystem E).exec .time w.state).1 with
    | error kind => exact finish_moves .refl nofun nofun
    | ok p =>
      obtain ⟨t, action⟩ := p
      refine Within.bind (Within.mono (fun x s w₁ h₁ => ?_)
        (completeOboAuthorization_within t code))
      cases x with
      | error e => exact finish_moves h₁ nofun nofun
      | ok r =>
        cases r with
        | some kind => exact finish_moves h₁ nofun nofun
        | none =>
          obtain ⟨mid, token, expiresAt, hm, hl, hx, rfl⟩ := h₁
          have ha : Accepted E mid.log i t action :=
            ⟨code, state, cookie, secret, _, hs.mono ((List.suffix_cons _ _).trans hl), hsec, hg⟩
          exact hm.tail (.complete t action token expiresAt ha hx)

/-! ## All jobs -/

/-- A coroutine with a specification serves a job, when it ends in moves. -/
theorem serves_of_spec {α : Type} {j : Job Tok} {p : Coro α} {f : α → Outcome Tok}
    {Q : Except Exn α → AgentWorld E → Prop} (hj : serve E j = p >>= fun a => pure (f a))
    (hi : Fresh i w.log) (h : Spec (Move E i) i p (w.emit i (.spawn j)) Q)
    (hf : ∀ x w', Q x w' → Move E i w' (w'.emit i (.finish (x.map f)))) :
    Serves (S := agentSystem E) (Move E i) i j w := by
  refine Spec.serves (Q := fun x w' => Move E i w' (w'.emit i (.finish x))) (.spawn j hi) ?_
    fun x w' hx => hx
  change Spec (Move E i) i (serve E j) _ _
  rw [hj]
  refine .bind (h.mono fun x w' hx => ?_)
  cases x with
  | error e => exact hf _ _ hx
  | ok a => exact .ret (hf _ _ hx)

/-- An end that is no page needs no justification. -/
theorem finish_move {α : Type} {f : α → Outcome Tok} (hf : ∀ a p, f a ≠ .page p)
    (x : Except Exn α) (w : AgentWorld E) : Move E i w (w.emit i (.finish (x.map f))) := by
  cases x with
  | error e => exact .finish _ nofun nofun
  | ok a =>
    refine .finish _ (fun h => hf a _ (Except.ok.inj h)) fun url cookie h => ?_
    exact absurd (Except.ok.inj h) (hf a _)

/-- A task that has just been spawned has been. -/
theorem spawned_emit {j : Job Tok} : Spawned (w.emit i (.spawn j)).log i j := ⟨_, .head _⟩

/-- Every request to the service is served by moves. -/
theorem serves (i : Nat) (j : Job Tok) (w : AgentWorld E) (hi : Fresh i w.log) :
    Serves (S := agentSystem E) (Move E i) i j w := by
  cases j with
  | chat req =>
    exact serves_of_spec (f := .context) rfl hi (spec_plain (prepareChat_plain E req))
      fun x w' _ => finish_move nofun x w'
  | dispatch name args t =>
    exact serves_of_spec (f := .result) rfl hi (dispatchTool_spec (.dispatch spawned_emit))
      fun x w' _ => finish_move nofun x w'
  | mcp token name args =>
    exact serves_of_spec (f := .content) rfl hi (callTool_spec (.mcp spawned_emit))
      fun x w' _ => finish_move nofun x w'
  | confirm message t language =>
    exact serves_of_spec (f := .reply) rfl hi (handleAuthorizationCallback_spec spawned_emit)
      fun x w' _ => finish_move nofun x w'
  | clear t =>
    exact serves_of_spec (f := fun _ => .cleared) rfl hi (spec_mild (clearThread_mild t))
      fun x w' _ => finish_move nofun x w'
  | authorize t action =>
    refine serves_of_spec (f := .page) rfl hi (initiateOauth_spec spawned_emit)
      fun x w' hx => .finish _ ?_ ?_
    · cases x with
      | error e => exact nofun
      | ok page => rintro ⟨rfl⟩; exact hx.1 rfl
    · intro url cookie h
      cases x with
      | error e => cases h
      | ok page => cases h; exact hx.2 url cookie rfl
  | callback code state cookie =>
    have shift : ∀ (x : Except Exn (Outcome Tok)) (s s' w' : AgentWorld E),
        ReflTransGen (Move E i) s s' → ReflTransGen (Move E i) s' (w'.emit i (.finish x)) →
        ReflTransGen (Move E i) s (w'.emit i (.finish x)) := fun _ _ _ _ => .trans
    refine Within.shift shift (.single (.spawn (.callback code state cookie) hi)) ?_
    refine Within.bind (Within.mono (fun x s w' hx => ?_) (oauthCallback_within spawned_emit))
    cases x with
    | error e => exact hx
    | ok page => exact hx

end

/-! ## Invariants -/

variable {Tok : Type} (E : Env Tok)

/-- A move keeps the history and the state consistent. -/
theorem Move.consistent {σ : Shared} {i : Nat} {w w' : AgentWorld E} (h : Move E i w w')
    (hw : Consistent (S := agentSystem E) σ w) : Consistent (S := agentSystem E) σ w' := by
  cases h with
  | mild o _ => exact hw.perform i o
  | preview a t args _ _ => exact (hw.perform i _).perform i _
  | commit a c _ => exact hw.emit i nofun
  | send q _ => exact hw.emit i nofun
  | recv q r _ => exact hw.emit i nofun
  | success a c r _ _ _ _ =>
    have hr := hw.emit i (e := .recv (a.commitTool.request c) r) nofun
    exact ((hr.perform i _).perform i _).perform i _
  | complete t action token expiresAt _ _ =>
    exact ((hw.perform i _).perform i _).emit i (e := .finish _) nofun
  | spawn j _ => exact hw.emit i nofun
  | finish x _ _ => exact hw.emit i nofun

variable {E} in
/-- A move only adds to the history. -/
theorem Move.grows {i : Nat} {w w' : AgentWorld E} (h : Move E i w w') : w.log <:+ w'.log := by
  cases h with
  | preview a t args _ _ => exact (List.suffix_cons _ _).trans (List.suffix_cons _ _)
  | success a c r _ _ _ _ =>
    exact ((List.suffix_cons _ _).trans (List.suffix_cons _ _)).trans
      ((List.suffix_cons _ _).trans (List.suffix_cons _ _))
  | complete t action token expiresAt _ _ =>
    exact ((List.suffix_cons _ _).trans (List.suffix_cons _ _)).trans (List.suffix_cons _ _)
  | _ => exact List.suffix_cons _ _

/-- What holds of a start and is kept by every move and by the passage of time holds of every
world that the service reaches. -/
theorem Reachable.invariant {σ : Shared} {I : AgentWorld E → Prop} (h0 : I ⟨σ, []⟩)
    (hmove : ∀ i w w', Consistent (S := agentSystem E) σ w → Move E i w w' → I w → I w')
    (hpass : ∀ (w : AgentWorld E) σ', Consistent (S := agentSystem E) σ w →
      w.state.Passes σ' → I w → I { w with state := σ' })
    {c : (agentSystem E).Config} (hc : System.Reachable σ c) : I c.world := by
  have hp := System.Reachable.moves (fun i j w hi => serves i j w hi) hc
  suffices ∀ w, ReflTransGen (Moves (Move E)) ⟨σ, []⟩ w →
      Consistent (S := agentSystem E) σ w ∧ I w from (this _ hp).2
  intro w hw
  induction hw with
  | refl => exact ⟨.start, h0⟩
  | tail _ hs ih =>
    rcases hs with ⟨i, hm⟩ | ⟨σ', hσ, rfl⟩
    · exact ⟨hm.consistent E ih.1, hmove i _ _ ih.1 hm ih.2⟩
    · exact ⟨.pass ih.1 hσ, hpass _ σ' ih.1 hσ ih.2⟩

end Teamspace.Agent
