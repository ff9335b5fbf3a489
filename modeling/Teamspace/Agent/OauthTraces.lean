import Teamspace.Agent.Ordinary

/-!
# The traces of OAuth requests

What `/authorize` and `/callback` do in which order, whatever the store answers and WSO2 IS replies,
and under any interleaving: every event of a task is `Justified` by the earlier events of its own
trace. A PKCE verifier is stored directly after it is drawn, an OBO token request is sent directly
after the verifier of the thread is read and deleted, and what ends in an error has written nothing
that it should not have. No other request touches a verifier.
-/

namespace Teamspace.Agent

open Teamspace.Lib Teamspace.Py Teamspace.Lib.System

variable {Tok : Type} (E : Env Tok)

/-- The events of a task, newest first. -/
abbrev AgentTrace (Tok : Type) := List (AgentEvent Tok)

/-! ## What a trace writes -/

/-- An operation that sets or deletes an entry of a namespace in `P`. -/
def Op.WritesIn (P : Namespace → Prop) : Op → Prop
  | .set n _ _ _ | .delete n _ => P n
  | _ => False

/-- An operation that stores a verifier. -/
def Op.storesVerifier : Op → Bool
  | .set .pkceVerifier .. => true
  | _ => false

/-- No operation of the trace writes in `P`. -/
def Quiet (P : Namespace → Prop) (h : AgentTrace Tok) : Prop :=
  ∀ o a, .op o a ∈ h → ¬ Op.WritesIn P o

/-- Every namespace. -/
def everywhere (_ : Namespace) : Prop := True

/-- The entries that an authorization consists of. -/
def ofAuthorization (n : Namespace) : Prop :=
  n = .flowState ∨ n = .pendingMeeting ∨ n = .oboToken

/-- The trace stores no verifier. -/
def NoVerifier (h : AgentTrace Tok) : Prop :=
  ∀ t v ttl a, .op (.set .pkceVerifier t v ttl) a ∉ h

/-- The trace sends no OBO token request. -/
def NoObo (h : AgentTrace Tok) : Prop := ∀ q, .send q ∈ h → ¬ q.IsObo E

/-- The trace is one of a task that serves `j`. -/
def Serving (j : Job Tok) (h : AgentTrace Tok) : Prop := ∀ j', .spawn j' ∈ h → j' = j

/-- The agent ids that the trace reads can be put into an authorize URL. -/
def ReadsEncodable (h : AgentTrace Tok) : Prop :=
  ∀ t stored agentId agentSecret, .op (.get .agentCredentials t) stored ∈ h →
    credentialsOf stored = .ok (agentId, agentSecret) → E.Encodes agentId

/-- The gate of a `/callback` in the trace has let it pass for thread `t`. -/
def LetPass (h : AgentTrace Tok) (t : String) : Prop :=
  ∃ code state cookie secret now action, .spawn (.callback code state cookie) ∈ h ∧
    E.settings.stateJwtSigningSecret = .ok secret ∧
    callbackGate E state cookie secret now = .ok (t, action)

/-- An event that the trace before it justifies. -/
structure Justified (e : AgentEvent Tok) (h : AgentTrace Tok) : Prop where
  /-- A stored verifier has just been drawn, and is the first that the task stores. -/
  stores : ∀ t v ttl a, e = .op (.set .pkceVerifier t v ttl) a →
    ∃ verifier h', h = .op (.tokenUrlsafe 32) verifier :: h' ∧ v = .str verifier ∧
      ttl = pkceTtlSeconds ∧ NoVerifier h'
  /-- An OBO token request sends the verifier that was just read and deleted, and is the first that
  the task sends. -/
  exchanges : ∀ code verifier agentToken, e = .send (oboTokenRequest E code verifier agentToken) →
    ∃ t stored h', h = .op (.delete .pkceVerifier t) () :: .op (.get .pkceVerifier t) stored :: h' ∧
      verifier = codeVerifierOf stored ∧ NoObo E h' ∧ LetPass E h' t
  /-- A state is issued directly after a verifier is stored, with its challenge. -/
  issues : ∀ url cookie, e = .finish (.ok (.page (.redirect url cookie))) →
    ∃ t verifier h', h = .op (.set .pkceVerifier t (.str verifier) pkceTtlSeconds) () :: h' ∧
      url.codeChallenge = E.codeChallenge verifier ∧ NoVerifier h'
  /-- An `/authorize` that does not end in a redirect has written nothing, unless it could not encode
  the URL of the redirect. -/
  refuses : ∀ x t action, e = .finish x → .spawn (.authorize t action) ∈ h → ReadsEncodable E h →
    (∀ url cookie, x ≠ .ok (.page (.redirect url cookie))) → Quiet everywhere h
  /-- Neither has a `/callback` that has sent no OBO token request. -/
  stops : ∀ x code state cookie, e = .finish x → .spawn (.callback code state cookie) ∈ h →
    NoObo E h → Quiet everywhere h
  /-- A `/callback` that does not end in the success page has written nothing of an
  authorization. -/
  fails : ∀ x code state cookie, e = .finish x → .spawn (.callback code state cookie) ∈ h →
    x ≠ .ok (.page .authorized) → Quiet ofAuthorization h

section
variable {E} {h : AgentTrace Tok} {P : Namespace → Prop}

/-- An operation that writes elsewhere leaves a trace quiet. -/
theorem Quiet.op (hq : Quiet P h) {o : Op} (ho : ¬ Op.WritesIn P o) (a : o.Ans) :
    Quiet P (.op o a :: h) := by
  intro o' a' hm
  rcases List.mem_cons.1 hm with he | hm
  · cases he
    exact ho
  · exact hq o' a' hm

/-- So does an event that is no operation. -/
theorem Quiet.event (hq : Quiet P h) {e : AgentEvent Tok} (he : ∀ o a, e ≠ .op o a) :
    Quiet P (e :: h) := by
  intro o a hm
  rcases List.mem_cons.1 hm with hm | hm
  · exact absurd hm.symm (he o a)
  · exact hq o a hm

/-- A trace that is quiet for more namespaces is quiet for fewer. -/
theorem Quiet.mono {R : Namespace → Prop} (hP : ∀ n, R n → P n) (hq : Quiet P h) :
    Quiet R h := by
  intro o a hm ho
  refine hq o a hm ?_
  cases o with
  | set n | delete n => exact hP n ho
  | _ => exact ho

/-- An operation that stores no verifier leaves a trace without one. -/
theorem NoVerifier.op (hn : NoVerifier h) {o : Op} {a : o.Ans} (ho : o.storesVerifier = false) :
    NoVerifier (.op o a :: h) := by
  intro t v ttl a' hm
  rcases List.mem_cons.1 hm with he | hm
  · cases he
    cases ho
  · exact hn t v ttl a' hm

/-- A task serves the job that it was spawned with. -/
theorem Serving.start (j : Job Tok) : Serving j [.spawn j] := by
  intro j' hm
  cases List.mem_singleton.1 hm
  rfl

/-- It goes on serving it. -/
theorem Serving.event {j : Job Tok} (hs : Serving j h) {e : AgentEvent Tok}
    (he : ∀ j', e ≠ .spawn j') : Serving j (e :: h) := by
  intro j' hm
  rcases List.mem_cons.1 hm with hm | hm
  · exact absurd hm.symm (he j')
  · exact hs j' hm

/-- Also with every operation. -/
theorem Serving.op {j : Job Tok} (hs : Serving j h) {o : Op} {a : o.Ans} :
    Serving j (.op o a :: h) := hs.event nofun

/-- An event that sends no OBO token request leaves a trace without one. -/
theorem NoObo.event (hq : NoObo E h) {e : AgentEvent Tok} (he : ∀ q, e = .send q → ¬ q.IsObo E) :
    NoObo E (e :: h) := by
  intro q hm
  rcases List.mem_cons.1 hm with hm | hm
  · exact he q hm.symm
  · exact hq q hm

/-- A callback that was let pass stays so. -/
theorem LetPass.cons {t : String} (hp : LetPass E h t) (e : AgentEvent Tok) :
    LetPass E (e :: h) t := by
  obtain ⟨code, state, cookie, secret, now, action, hs, hk, hg⟩ := hp
  exact ⟨code, state, cookie, secret, now, action, .tail _ hs, hk, hg⟩

/-- An operation that stores no verifier needs no justification. -/
theorem Justified.op {o : Op} {a : o.Ans} (ho : o.storesVerifier = false) :
    Justified E (.op o a) h where
  stores t v ttl a' he := by
    cases he
    cases ho
  exchanges := nofun
  issues := nofun
  refuses := nofun
  stops := nofun
  fails := nofun

/-- A request that is no OBO token request needs none either. -/
theorem Justified.send {q : Req} (hq : ¬ q.IsObo E) : Justified E (.send q) h where
  stores := nofun
  exchanges code verifier agentToken he := by
    cases he
    exact absurd ⟨code, verifier, agentToken, rfl⟩ hq
  issues := nofun
  refuses := nofun
  stops := nofun
  fails := nofun

/-- A reply justifies itself. -/
theorem Justified.recv {q : Req} {r : Rep} : Justified E (.recv q r) h where
  stores := nofun
  exchanges := nofun
  issues := nofun
  refuses := nofun
  stops := nofun
  fails := nofun

end

/-! ## Requests that touch no verifier -/

/-- An operation on another entry than a verifier. -/
def Op.OffPkce : Op → Prop
  | .get n _ | .set n _ _ _ | .delete n _ => n ≠ .pkceVerifier
  | _ => True

/-- A program that touches no verifier and asks for no delegated token. -/
abbrev OffPkce {α : Type} (p : Coro α) : Prop :=
  Program.Only (I := interface) Op.OffPkce (fun q => ¬ q.IsObo E) p

/-- An ordinary program touches no verifier. -/
theorem offPkce_of_ordinary {α : Type} {p : Coro α} (h : Ordinary E p) : OffPkce E p := by
  refine h.mono (fun o ho => ?_) fun q hq => hq
  cases o with
  | get n k => exact ho
  | set n k v ttl => exact ho.1
  | delete n k => exact ho
  | _ => trivial

/-! ## Every request is justified -/

section
variable {E}

/-- What serves a request is justified when the coroutine behind it is, with its end. -/
theorem local_serve {α : Type} {j : Job Tok} {p : Coro α} {f : α → Outcome Tok}
    (hj : serve E j = p >>= fun a => pure (f a))
    (hp : Local (S := agentSystem E) (Justified E)
      (fun x h => Justified E (.finish (x.map f)) h) p [.spawn j]) :
    Local (S := agentSystem E) (Justified E) (fun x h => Justified E (.finish x) h)
      ((agentSystem E).program j) [.spawn j] := by
  change Local (S := agentSystem E) _ _ (serve E j) _
  rw [hj]
  refine Local.bind (Local.mono (fun x h hx => ?_) hp)
  cases x with
  | error e => exact hx
  | ok a => exact hx

/-- A request that is neither an `/authorize` nor a `/callback`, and touches no verifier. -/
theorem offPkce_justified {α : Type} {j : Job Tok} {p : Coro α} {f : α → Outcome Tok}
    (hj : serve E j = p >>= fun a => pure (f a)) (hp : OffPkce E p) (hf : ∀ a pg, f a ≠ .page pg)
    (hauth : ∀ t action, j ≠ .authorize t action)
    (hcall : ∀ code state cookie, j ≠ .callback code state cookie) :
    Local (S := agentSystem E) (Justified E) (fun x h => Justified E (.finish x) h)
      ((agentSystem E).program j) [.spawn j] := by
  refine local_serve hj (Local.mono (fun x h hI => ?_)
    (Local.only (I := Serving j) ?_ ?_ ?_ hp (Serving.start j)))
  · refine ⟨nofun, nofun, fun url cookie he => ?_, fun _ t action _ hs _ => ?_,
      fun _ code state cookie _ hs => ?_, fun _ code state cookie _ hs => ?_⟩
    · cases x with
      | error e => cases he
      | ok a => exact absurd (Except.ok.inj (Event.finish.inj he)) (hf a _)
    · exact absurd (hI _ hs).symm (hauth t action)
    · exact absurd (hI _ hs).symm (hcall code state cookie)
    · exact absurd (hI _ hs).symm (hcall code state cookie)
  · intro o a h ho hI
    refine ⟨.op ?_, hI.event nofun⟩
    cases o with
    | set n => cases n <;> first | rfl | exact absurd rfl ho
    | _ => rfl
  · exact fun q h hq hI => ⟨.send hq, hI.event nofun⟩
  · exact fun q r h hq hI => ⟨.recv, hI.event nofun⟩

/-- An `/authorize` that ends without a redirect, and has written nothing unless it could not encode
the URL of one. -/
theorem justified_refusal {h : AgentTrace Tok} {t action : String}
    (hs : Serving (.authorize t action) h) (hq : ReadsEncodable E h → Quiet everywhere h)
    {x : Except Exn (Outcome Tok)} (hx : ∀ url cookie, x ≠ .ok (.page (.redirect url cookie))) :
    Justified E (.finish x) h where
  stores := nofun
  exchanges := nofun
  issues url cookie he := by
    cases he
    exact absurd rfl (hx url cookie)
  refuses _ _ _ _ _ hr _ := hq hr
  stops _ _ _ _ _ hm _ := absurd (hs _ hm) nofun
  fails _ _ _ _ _ hm _ := absurd (hs _ hm) nofun

/-- The authorize URL carries the challenge of the verifier that was stored last, and its query
string is encoded unless the agent id or a setting cannot be. -/
theorem getRealWso2AuthorizationUrl_local {t action : String} {scopes : List String}
    {stateToken : Tok} {agentId : Json} {stored : Option Json} {h : AgentTrace Tok}
    (ha : agentId.truthy = true) (hs : Serving (.authorize t action) h) (hn : NoVerifier h)
    (hread : .op (.get .agentCredentials t) stored ∈ h) :
    Local (S := agentSystem E) (Justified E) (fun x h => Serving (.authorize t action) h ∧
        .op (.get .agentCredentials t) stored ∈ h ∧
        (∀ e, x = .error e → ¬ E.Encodes agentId) ∧
        ∀ url, x = .ok url → url.endpoint = base E ++ "/oauth2/authorize" ∧ ∃ verifier h',
          h = .op (.set .pkceVerifier t (.str verifier) pkceTtlSeconds) () :: h' ∧
          url.codeChallenge = E.codeChallenge verifier ∧ NoVerifier h')
      (getRealWso2AuthorizationUrl E t scopes stateToken agentId) h := by
  unfold getRealWso2AuthorizationUrl
  rw [ha]
  refine Local.bind (α := Unit) ?_
  refine fun _ => ⟨.op rfl, fun _ => ⟨.op rfl, ?_⟩⟩
  intro verifier
  have hn₁ : NoVerifier (.op (.delete .agentToken t) () :: .op (.delete .oboToken t) () :: h) :=
    (hn.op rfl).op rfl
  refine ⟨.op rfl, fun _ => ⟨?_, Local.ofExcept ?_⟩⟩
  · exact ⟨fun _ _ _ _ he => by cases he; exact ⟨verifier, _, rfl, rfl, rfl, hn₁⟩,
      nofun, nofun, nofun, nofun, nofun⟩
  · refine ⟨hs.op.op.op.op, .tail _ (.tail _ (.tail _ (.tail _ hread))), fun e he hi => ?_,
      fun url he => ?_⟩
    · rw [hi.urlencode rfl rfl rfl] at he
      cases he
    · rw [urlencode] at he
      split at he
      · cases he
        exact ⟨rfl, verifier, _, rfl, rfl, hn₁.op rfl⟩
      · cases he

/-- The redirect of an `/authorize`. -/
theorem justified_redirect {h : AgentTrace Tok} {t t' action : String} {verifier : String}
    {url : AuthorizeUrl Tok} {cookie : Tok}
    (hs : Serving (.authorize t action)
      (.op (.set .pkceVerifier t' (.str verifier) pkceTtlSeconds) () :: h))
    (hu : url.codeChallenge = E.codeChallenge verifier) (hn : NoVerifier h) :
    Justified E (.finish (.ok (.page (.redirect url cookie))))
      (.op (.set .pkceVerifier t' (.str verifier) pkceTtlSeconds) () :: h) where
  stores := nofun
  exchanges := nofun
  issues url' cookie' he := by
    cases he
    exact ⟨t', verifier, h, rfl, hu, hn⟩
  refuses x _ _ he _ _ hx := by
    cases he
    exact absurd rfl (hx url cookie)
  stops _ _ _ _ _ hm _ := absurd (hs _ hm) nofun
  fails _ _ _ _ _ hm _ := absurd (hs _ hm) nofun

/-- Every event of an `/authorize` is justified. -/
theorem authorize_justified (t action : String) :
    Local (S := agentSystem E) (Justified E) (fun x h => Justified E (.finish x) h)
      ((agentSystem E).program (.authorize t action)) [.spawn (.authorize t action)] := by
  refine local_serve (p := initiateOauth E t action) (f := .page) rfl ?_
  have hs := Serving.start (.authorize t action : Job Tok)
  have hq : Quiet everywhere [(.spawn (.authorize t action) : AgentEvent Tok)] := by
    intro o a hm
    cases List.mem_singleton.1 hm
  have hn : NoVerifier [(.spawn (.authorize t action) : AgentEvent Tok)] := by
    intro t v ttl a hm
    cases List.mem_singleton.1 hm
  unfold initiateOauth
  refine Local.bind (α := Json × Json) ?_
  intro stored
  refine ⟨.op rfl, Local.ofExcept ?_⟩
  have hs := hs.op (o := .get .agentCredentials t) (a := stored)
  have hq := hq.op (o := .get .agentCredentials t) id stored
  have hn := hn.op (o := .get .agentCredentials t) (a := stored) rfl
  have hread : .op (.get .agentCredentials t) stored ∈
    ((.op (.get .agentCredentials t) stored :: [.spawn (.authorize t action)] : AgentTrace Tok)) :=
    .head _
  cases hcred : credentialsOf stored with
  | error e => exact justified_refusal hs (fun _ => hq) fun _ _ h => by cases h
  | ok credentials =>
    dsimp only
    split
    · exact justified_refusal hs (fun _ => hq) fun _ _ h => by cases h
    · next hagent =>
      intro csrfToken
      refine ⟨.op rfl, ?_⟩
      have hs := hs.op (o := .tokenUrlsafe 16) (a := csrfToken)
      have hq := hq.op (o := .tokenUrlsafe 16) id csrfToken
      have hn := hn.op (o := .tokenUrlsafe 16) (a := csrfToken) rfl
      have hread := List.Mem.tail (.op (.tokenUrlsafe 16) csrfToken : AgentEvent Tok) hread
      cases scopesOfAction action with
      | none => exact justified_refusal hs (fun _ => hq) fun _ _ h => by cases h
      | some scopes =>
        intro now
        refine ⟨.op rfl, ?_⟩
        have hs := hs.op (o := .time) (a := now)
        have hq := hq.op (o := .time) id now
        have hn := hn.op (o := .time) (a := now) rfl
        have hread := List.Mem.tail (.op .time now : AgentEvent Tok) hread
        cases E.settings.stateJwtSigningSecret with
        | error e => exact justified_refusal hs (fun _ => hq) fun _ _ h => by cases h
        | ok secret =>
          have hagent : credentials.1.truthy = true := by simpa using hagent
          refine Local.bind (p := getRealWso2AuthorizationUrl E t scopes _ credentials.1)
            (Local.mono (S := agentSystem E) (fun x h hx => ?_)
              (getRealWso2AuthorizationUrl_local hagent hs hn hread))
          obtain ⟨hs', hread', herror, hok⟩ := hx
          have hread (hr : ReadsEncodable E h) : E.Encodes credentials.1 :=
            hr t stored _ _ hread' hcred
          cases x with
          | error e =>
            refine justified_refusal hs' (fun hr => ?_) fun _ _ h => by cases h
            exact absurd (hread hr) (herror e rfl)
          | ok url =>
            obtain ⟨hurl, verifier, h', rfl, hu, hn'⟩ := hok url rfl
            refine Local.ofExcept ?_
            rw [redirectResponse]
            split
            · exact justified_redirect hs' hu hn'
            · next hbase =>
              refine justified_refusal hs' (fun hr => ?_) fun _ _ h => by cases h
              exact absurd (hurl ▸ (hread hr).endpoint) hbase

/-! ## `/callback` -/

/-- A trace of task that serves `j`, whose gate has let it pass for thread `t`, that has written
nothing in `P` and has sent no OBO token request. -/
structure Calm (E : Env Tok) (j : Job Tok) (t : String) (P : Namespace → Prop)
    (h : AgentTrace Tok) : Prop where
  serving : Serving j h
  quiet : Quiet P h
  noObo : NoObo E h
  letPass : LetPass E h t

section
variable {j : Job Tok} {t : String} {P : Namespace → Prop} {h : AgentTrace Tok}

/-- An operation that writes elsewhere leaves a task calm. -/
theorem Calm.op (hc : Calm E j t P h) {o : Op} (ho : ¬ o.WritesIn P) (a : o.Ans) :
    Calm E j t P (.op o a :: h) :=
  ⟨hc.serving.op, hc.quiet.op ho a, hc.noObo.event nofun, hc.letPass.cons _⟩

/-- So does an event that is neither a spawn, nor an operation, nor an OBO token request. -/
theorem Calm.event (hc : Calm E j t P h) {e : AgentEvent Tok} (hs : ∀ j', e ≠ .spawn j')
    (ho : ∀ o a, e ≠ .op o a) (hn : ∀ q, e = .send q → ¬ q.IsObo E) : Calm E j t P (e :: h) :=
  ⟨hc.serving.event hs, hc.quiet.event ho, hc.noObo.event hn, hc.letPass.cons _⟩

/-- Asking WSO2 IS keeps a trace calm. -/
theorem Calm.asks {α : Type} {p : Coro α} (hp : Asks E p) (hc : Calm E j t P h) :
    Local (S := agentSystem E) (Justified E) (fun _ h => Calm E j t P h) p h := by
  refine Local.only (fun o _ _ ho => ho.elim) (fun q h hq hc => ⟨.send hq.2, ?_⟩)
    (fun q r h hq hc => ⟨.recv, hc.event nofun nofun nofun⟩) hp hc
  refine hc.event nofun nofun fun q' he => ?_
  cases he
  exact hq.2

/-- Fetching a token of the agent writes nothing unless it succeeds, and then only that token. -/
theorem fetchAgentToken_local {agentId agentSecret : Json} (hc : Calm E j t everywhere h) :
    Local (S := agentSystem E) (Justified E) (fun x h => match x with
      | .ok _ => Calm E j t ofAuthorization h
      | .error _ => Calm E j t everywhere h) (fetchAgentToken E agentId agentSecret t) h := by
  unfold fetchAgentToken
  split
  · exact hc
  · split
    · exact hc
    · refine Local.bind (α := String) ?_
      intro codeVerifier
      refine ⟨.op rfl, ?_⟩
      have hc := hc.op (o := .tokenUrlsafe 32) id codeVerifier
      refine Local.bind (Local.mono (fun x h hc => ?_) (hc.asks (initAgentAuthFlow_asks E _)))
      cases x with
      | error e => exact hc
      | ok flow =>
        refine Local.bind (Local.mono (fun x h hc => ?_) (hc.asks (submitAgentCredentials_asks E ..)))
        cases x with
        | error e => exact hc
        | ok code =>
          refine Local.bind (Local.mono (fun x h hc => ?_)
            (hc.asks (exchangeCodeForAgentToken_asks E ..)))
          cases x with
          | error e => exact hc
          | ok res =>
            -- the reply is stored last, and only its lifetime can still be refused
            refine Local.bind (α := Unit) (Local.bind (α := Json) (Local.bind (α := Rat) ?_))
            intro now
            refine ⟨.op rfl, Local.bind (Local.ofExcept ?_)⟩
            have hc := hc.op (o := .time) id now
            cases res.2.addTo now with
            | error e => exact hc
            | ok expiresAt =>
              refine fun _ => ⟨.op rfl, ?_⟩
              have hq := hc.quiet.mono (R := ofAuthorization) fun _ _ => trivial
              exact ⟨hc.serving.op, hq.op (o := .set .agentToken ..) nofun (),
                hc.noObo.event nofun, hc.letPass.cons _⟩

/-- What an exchange that fails has written. -/
structure Failed (E : Env Tok) (j : Job Tok) (h : AgentTrace Tok) : Prop where
  serving : Serving j h
  quiet : Quiet ofAuthorization h
  stops : NoObo E h → Quiet everywhere h

/-- An OBO token request was sent, and nothing of an authorization is written yet. -/
structure Asked (E : Env Tok) (j : Job Tok) (h : AgentTrace Tok) : Prop where
  serving : Serving j h
  quiet : Quiet ofAuthorization h
  sent : ¬ NoObo E h

/-- A callback that has asked for its token and goes no further has failed. -/
theorem Asked.failed (ha : Asked E j h) : Failed E j h :=
  ⟨ha.serving, ha.quiet, fun hn => absurd hn ha.sent⟩

/-- A trace without an OBO token request had none before. -/
theorem NoObo.of_cons {e : AgentEvent Tok} (hn : NoObo E (e :: h)) : NoObo E h :=
  fun q hq => hn q (.tail _ hq)

/-- The token that is stored was granted to the request. -/
theorem storeOboToken_local {resp : Response} (ha : Asked E j h) :
    Local (S := agentSystem E) (Justified E) (fun x h => match x with
      | .ok _ => Serving j h ∧ ¬ NoObo E h
      | .error _ => Failed E j h) (storeOboToken t resp) h := by
  refine Local.bind (Local.ofExcept ?_)
  cases resp.readJson with
  | error e => exact ha.failed
  | ok tokenData =>
    refine Local.bind (Local.ofExcept ?_)
    cases readToken tokenData with
    | error e => exact ha.failed
    | ok res =>
      refine Local.bind (α := Json) (Local.bind (α := Rat) ?_)
      intro now
      refine ⟨.op rfl, Local.bind (Local.ofExcept ?_)⟩
      have ha : Asked E j (.op .time now :: h) :=
        ⟨ha.serving.op, ha.quiet.op (o := .time) id now, fun hn => ha.sent hn.of_cons⟩
      cases res.2.addTo now with
      | error e => exact ha.failed
      | ok expiresAt =>
        exact fun _ => ⟨.op rfl, ha.serving.op, fun hn => ha.sent hn.of_cons⟩

/-- The exchange sends the verifier that it has read and deleted; unless it succeeds, it writes
nothing of an authorization. -/
theorem exchangeOboCode_local {code : String} {agentId agentSecret : Json}
    (hc : Calm E j t everywhere h) :
    Local (S := agentSystem E) (Justified E) (fun x h => match x with
      | .ok _ => Serving j h ∧ ¬ NoObo E h
      | .error _ => Failed E j h) (exchangeOboCode E t code agentId agentSecret) h := by
  refine Local.bind (Local.mono (fun x h hc => ?_) (fetchAgentToken_local hc))
  cases x with
  | error e => exact ⟨hc.serving, hc.quiet.mono fun _ _ => trivial, fun _ => hc.quiet⟩
  | ok agentToken =>
    refine Local.bind (α := Option Json) ?_
    intro stored
    refine ⟨.op rfl, ?_⟩
    refine Local.bind (α := Unit) ?_
    refine fun _ => ⟨.op rfl, ?_⟩
    refine Local.bind (α := Response) (Local.bind (α := Rep) ?_)
    have hq : Quiet ofAuthorization (.op (.delete .pkceVerifier t) () ::
        .op (.get .pkceVerifier t) stored :: h) :=
      (hc.quiet.op (o := .get .pkceVerifier t) id stored).op (o := .delete .pkceVerifier t)
        (by rintro (h | h | h) <;> cases h) ()
    refine ⟨⟨nofun, fun code' verifier agentToken' he => ?_, nofun, nofun, nofun, nofun⟩,
      fun r => ⟨.recv, ?_⟩⟩
    · -- the verifier that was read is sent
      cases he
      exact ⟨t, stored, h, rfl, rfl, hc.noObo, hc.letPass⟩
    · have ha : Asked E j (.recv (oboTokenRequest E code (codeVerifierOf stored) agentToken) r ::
          .send (oboTokenRequest E code (codeVerifierOf stored) agentToken) ::
          .op (.delete .pkceVerifier t) () :: .op (.get .pkceVerifier t) stored :: h) := by
        refine ⟨?_, ?_, fun hn => hn _ (.tail _ (.head _)) ⟨_, _, _, rfl⟩⟩
        · exact (hc.serving.op.op.event (e := .send _) nofun).event (e := .recv _ _) nofun
        · exact (hq.event (e := .send _) nofun).event (e := .recv _ _) nofun
      cases r with
      | failed => exact ha.failed
      | serviceToken token => exact ha.failed
      | response resp => exact storeOboToken_local ha

end

/-- The end of a `/callback` that does not end in the success page. -/
theorem justified_failure {h : AgentTrace Tok} {code : String} {state : Tok} {cookie : Option Tok}
    (hf : Failed E (.callback code state cookie) h) {x : Except Exn (Outcome Tok)}
    (hx : ∀ url cookie, x ≠ .ok (.page (.redirect url cookie))) : Justified E (.finish x) h where
  stores := nofun
  exchanges := nofun
  issues url cookie he := by
    cases he
    exact absurd rfl (hx url cookie)
  refuses _ _ _ _ hm _ _ := absurd (hf.serving _ hm) nofun
  stops _ _ _ _ _ _ hn := hf.stops hn
  fails _ _ _ _ _ _ _ := hf.quiet

/-- The success page of a `/callback`. -/
theorem justified_success {h : AgentTrace Tok} {code : String} {state : Tok} {cookie : Option Tok}
    (hs : Serving (.callback code state cookie) h) (hn : ¬ NoObo E h) :
    Justified E (.finish (.ok (.page .authorized))) h where
  stores := nofun
  exchanges := nofun
  issues := nofun
  refuses _ _ _ _ hm _ _ := absurd (hs _ hm) nofun
  stops _ _ _ _ _ _ hn' := absurd hn' hn
  fails x _ _ _ he _ hx := by
    cases he
    exact absurd rfl hx

/-- Only a `ValueError` of the exchange becomes an error page; both kinds of failure have written
the same. -/
theorem completeOboAuthorization_local {j : Job Tok} {t code : String} {h : AgentTrace Tok}
    (hc : Calm E j t everywhere h) :
    Local (S := agentSystem E) (Justified E) (fun x h => match x with
      | .ok none => Serving j h ∧ ¬ NoObo E h
      | _ => Failed E j h) (completeOboAuthorization E t code) h := by
  refine Local.bind (α := Json × Json) ?_
  intro stored
  refine ⟨.op rfl, Local.ofExcept ?_⟩
  have hc := hc.op (o := .get .agentCredentials t) id stored
  cases credentialsOf stored with
  | error e => exact ⟨hc.serving, hc.quiet.mono fun _ _ => trivial, fun _ => hc.quiet⟩
  | ok credentials =>
    refine Local.tryCatch (Local.bind (Local.mono (fun x h hx => ?_) (exchangeOboCode_local hc)))
    cases x with
    | ok token => exact hx
    | error e =>
      cases e with
      | valueError => exact hx
      | _ => exact hx

/-- Every event of a `/callback` is justified. -/
theorem callback_justified (code : String) (state : Tok) (cookie : Option Tok) :
    Local (S := agentSystem E) (Justified E) (fun x h => Justified E (.finish x) h)
      ((agentSystem E).program (.callback code state cookie))
      [.spawn (.callback code state cookie)] := by
  refine local_serve (p := oauthCallback E code state cookie) (f := .page) rfl ?_
  have hs := Serving.start (.callback code state cookie)
  have hq : Quiet everywhere [(.spawn (.callback code state cookie) : AgentEvent Tok)] := by
    intro o a hm
    cases List.mem_singleton.1 hm
  cases hk : E.settings.stateJwtSigningSecret with
  | error e =>
    unfold oauthCallback
    rw [hk]
    exact justified_failure ⟨hs, hq.mono fun _ _ => trivial, fun _ => hq⟩ nofun
  | ok secret =>
    rw [oauthCallback_eq E hk]
    intro now
    refine ⟨.op rfl, ?_⟩
    have hs := hs.op (o := .time) (a := now)
    have hq := hq.op (o := .time) id now
    dsimp only
    cases hg : callbackGate E state cookie secret now with
    | error kind =>
      exact justified_failure ⟨hs, hq.mono fun _ _ => trivial, fun _ => hq⟩ nofun
    | ok passed =>
      have hc : Calm E (.callback code state cookie) passed.1 everywhere
          [.op .time now, .spawn (.callback code state cookie)] := by
        refine ⟨hs, hq, ?_, ?_⟩
        · intro q hm
          simp at hm
        · exact ⟨code, state, cookie, secret, now, passed.2, by simp, hk, hg⟩
      refine Local.bind (p := completeOboAuthorization E passed.1 code)
        (Local.mono (S := agentSystem E) (fun x h hx => ?_) (completeOboAuthorization_local hc))
      cases x with
      | error e => exact justified_failure hx nofun
      | ok refused =>
        cases refused with
        | some kind => exact justified_failure hx nofun
        | none =>
          obtain ⟨hs', hn⟩ := hx
          exact fun _ => ⟨.op rfl, justified_success hs'.op fun hn' => hn hn'.of_cons⟩

/-- Every request of the service is justified in all that it does. -/
theorem justified (j : Job Tok) :
    Local (S := agentSystem E) (Justified E) (fun x h => Justified E (.finish x) h)
      ((agentSystem E).program j) [.spawn j] := by
  cases j with
  | chat req =>
    exact offPkce_justified (p := prepareChat E req) (f := .context) rfl
      (offPkce_of_ordinary E (ordinary_of_plain E (prepareChat_plain E req))) nofun nofun nofun
  | dispatch name args t =>
    exact offPkce_justified (p := dispatchTool E name args t) (f := .result) rfl
      (offPkce_of_ordinary E (dispatchTool_ordinary E name args t)) nofun nofun nofun
  | mcp token name args =>
    exact offPkce_justified (p := callTool E (.str token) name args) (f := .content) rfl
      (offPkce_of_ordinary E (callTool_ordinary E (.str token) name args)) nofun nofun nofun
  | confirm message t language =>
    exact offPkce_justified (p := handleAuthorizationCallback E message t language) (f := .reply)
      rfl (offPkce_of_ordinary E (handleAuthorizationCallback_ordinary E message t language))
      nofun nofun nofun
  | authorize t action => exact authorize_justified t action
  | callback code state cookie => exact callback_justified code state cookie
  | clear t =>
    exact offPkce_justified (p := clearThread t) (f := fun _ => .cleared) rfl
      (offPkce_of_ordinary E (clearThread_ordinary E t)) nofun nofun nofun

end

end Teamspace.Agent
