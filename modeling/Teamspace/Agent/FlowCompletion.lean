import Mathlib.Data.Rat.Floor
import Mathlib.Tactic.Linarith
import Teamspace.Agent.Gate
import Teamspace.Agent.Threads
import Teamspace.Agent.Symbolic
import Teamspace.Lib.Environment

/-!
# A flow that comes to its end

The user of an action sees the preview of a meeting, follows the link to `/authorize`, comes back to
`/callback`, and says in the chat that the agent is authorized. If WSO2 IS and the Business API
answer as they should and the flow takes less than four minutes, what was previewed is carried out,
once (`flow_completes`). Others may use other threads meanwhile.
-/

namespace Teamspace.Agent

open Teamspace.Lib Teamspace.Py

variable {Tok : Type} {E : Env Tok}

/-! ## Flows -/

/-- The agent service during a flow, with the requests that the flow has sent. -/
structure Ledger where
  shared : Shared
  sent : List Req

/-- When a flow is to be over, by either clock. -/
structure Deadline where
  monotonic : Rat
  wall : Rat

/-- The deadline is less than ten minutes away by the monotonic clock, and less than four by the
wall clock. -/
structure Shared.InTime (σ : Shared) (d : Deadline) : Prop where
  monotonic_lt : σ.monotonic < d.monotonic
  monotonic_le : d.monotonic ≤ σ.monotonic + 600
  wall_lt : σ.wall < d.wall
  wall_le : d.wall ≤ σ.wall + 240
  epoch : 0 ≤ σ.wall

/-- Others leave thread `t` alone while time passes, and nobody sets the wall clock back. -/
structure LeavesAlone (t : String) (d : Deadline) (σ σ' : Shared) : Prop where
  entries : ∀ n, σ'.store (n, t) = σ.store (n, t)
  wall : σ.wall ≤ σ'.wall
  inTime : σ'.InTime d

/-- The agent service during a flow on thread `t`, when requests are answered as `A` says. -/
def flowing (E : Env Tok) (A : Req → Rep → Prop) (t : String) (d : Deadline) :
    Environment interface Ledger where
  exec o w := ((exec E o w.shared).1, { w with shared := (exec E o w.shared).2 })
  answers q w r w' := A q r ∧ w'.sent = w.sent.concat q ∧ LeavesAlone t d w.shared w'.shared

/-- A request of the flow is answered with a result, and `Q` holds of it when the next one comes. -/
def Proceeds (E : Env Tok) (A : Req → Rep → Prop) (t : String) (d : Deadline) {α : Type}
    (p : Coro α) (w : Ledger) (Q : α → Ledger → Prop) : Prop :=
  (flowing E A t d).Ends p w (Environment.Settled fun x w' =>
    ∀ w'', w''.sent = w'.sent → LeavesAlone t d w'.shared w''.shared → Q x w'')

/-- A token that has the scope of the action as long as the flow lasts. -/
def Entitles (E : Env Tok) (a : Action) (d : Deadline) (token : String) : Prop :=
  token ≠ "" ∧ ∀ now < d.wall, ∃ decoded scopes, E.validateMcpToken now token = .ok decoded ∧
    scopesOf decoded = .ok scopes ∧ a.scope ∈ scopes

/-- The response grants a token that lives for five minutes at least. -/
def GrantsToken (E : Env Tok) (a : Action) (d : Deadline) (resp : Response) : Prop :=
  ∃ v token seconds, resp.readJson = .ok v ∧
    readToken v = .ok (.str token, .num (.int seconds)) ∧ Entitles E a d token ∧ 300 ≤ seconds ∧
      seconds.natAbs < Json.floatBound

/-- The agent can redeem the code with the verifier of the challenge. -/
def Redeems (E : Env Tok) (a : Action) (d : Deadline) (A : Req → Rep → Prop)
    (code challenge : String) : Prop :=
  ∀ verifier agentToken r, E.codeChallenge verifier = challenge →
    A (oboTokenRequest E code (.str verifier) agentToken) r →
    ∃ resp, r = .response resp ∧ GrantsToken E a d resp

/-- WSO2 IS logs the agent in, and the Business API carries out the action. -/
structure Cooperates (E : Env Tok) (a : Action) (d : Deadline) (A : Req → Rep → Prop) : Prop where
  authorize : ∀ form r, A (.httpPost (base E ++ "/oauth2/authorize") (.data form)) r →
    ∃ resp, r = .response resp ∧ ∃ v flow, resp.readJson = .ok v ∧ readAuthFlow v = .ok flow
  authn : ∀ body r, A (.httpPost (base E ++ "/oauth2/authn") (.json body)) r →
    ∃ resp, r = .response resp ∧ ∃ v code, resp.readJson = .ok v ∧ readAuthCode v = .ok code
  token : ∀ form r, Dict.get form "actor_token" = none →
    A (.httpPost (base E ++ "/oauth2/token") (.data form)) r →
    ∃ resp, r = .response resp ∧ GrantsToken E a d resp
  commit : ∀ args token r, A (a.request args token) r →
    ∃ resp, r = .response resp ∧ resp.statusCode = a.commitTool.success ∧
      (a ≠ .delete → ∃ fields topic, resp.readJson = .ok (.obj fields) ∧
        Dict.get fields "topic" = some topic)

/-- The arguments of a preview that can be confirmed later. -/
def Action.Confirmable : Action → Dict → Prop
  | .book, args => (Dict.get args "topic").isSome
  | .update, args => (Dict.get args "meeting_id").isSome
  | .delete, args => (argOf args "meeting_id").truthy

/-- The reply says that the action was carried out. -/
def Reply.Reports : Action → Reply → Prop
  | .book, .msg key _ => key = "booking_ok" ∨ key = "booking_ok_with_id"
  | .update, .msg key _ => key = "update_ok"
  | .delete, .msg key _ => key = "deleted_ok"
  | _, .meetingList _ => False

/-- The entry is there, and lives until the deadline. -/
def Shared.Holds (σ : Shared) (d : Deadline) (n : Namespace) (t : String) (v : Json) : Prop :=
  ∃ expiresAt, σ.store (n, t) = some ⟨v, expiresAt⟩ ∧ ∀ x ∈ expiresAt, d.monotonic ≤ x

/-- Thread `t` has an agent with credentials, whose id can be put into a URL, and no delegated
token. -/
structure Shared.Starts (E : Env Tok) (σ : Shared) (d : Deadline) (t : String) : Prop where
  credentials : ∃ agentId agentSecret : Json, agentId.truthy = true ∧ agentSecret.truthy = true ∧
    E.Encodes agentId ∧ σ.Holds d .agentCredentials t (.arr [agentId, agentSecret])
  undelegated : liveTokenOf (σ.get .oboToken t) σ.wall = .ok none

/-- From `w` to `w'` the action was carried out with these arguments, once, and thread `t` was
left as after a `/clear` of its tokens. -/
structure CarriedOut (a : Action) (t : String) (args : Dict) (w w' : Ledger) : Prop where
  sent : ∃ token, w'.sent.filter Req.commits = w.sent.filter Req.commits ++ [a.request args token]
  flow : flowStateOf (w'.shared.get .flowState t) = .initial
  pending : w'.shared.get .pendingMeeting t = none
  oboToken : w'.shared.get .oboToken t = none
  agentToken : w'.shared.get .agentToken t = none

/-! ## Entries and clocks -/

section

variable {d : Deadline} {t : String} {σ σ' : Shared} {n : Namespace} {v : Json}

/-- Whether there is time left depends on the clocks. -/
theorem Shared.InTime.of_clocks (h : σ.InTime d) (hm : σ'.monotonic = σ.monotonic)
    (hw : σ'.wall = σ.wall) : σ'.InTime d := by
  obtain ⟨h₁, h₂, h₃, h₄, h₅⟩ := h
  constructor
  · rwa [hm]
  · rwa [hm]
  · rwa [hw]
  · rwa [hw]
  · rwa [hw]

/-- What is held is read while there is time left. -/
theorem Shared.Holds.get (h : σ.Holds d n t v) (hσ : σ.InTime d) : σ.get n t = some v := by
  obtain ⟨expiresAt, he, hlive⟩ := h
  have hl : (Lease.mk v expiresAt).live σ.monotonic = true := by
    unfold Lease.live
    cases expiresAt with
    | none => rfl
    | some x => exact decide_eq_true (hσ.monotonic_lt.le.trans (hlive x rfl))
  unfold Shared.get Expiring.get
  rw [he]
  exact if_pos hl

/-- What is held depends on its own entry. -/
theorem Shared.Holds.of_eq (h : σ.Holds d n t v) (he : σ'.store (n, t) = σ.store (n, t)) :
    σ'.Holds d n t v := by
  unfold Shared.Holds
  rw [he]
  exact h

/-- What is stored for ten minutes is held to the deadline. -/
theorem Shared.holds_set (hσ : σ.InTime d) (n : Namespace) (t : String) (v : Json) (ttl : Nat)
    (httl : 600 ≤ ttl) : (σ.set n t v ttl).Holds d n t v := by
  refine ⟨_, Expiring.put_self .., fun x hx => ?_⟩
  rw [if_neg (by omega)] at hx
  cases hx
  have hcast : (600 : Rat) ≤ ttl := by exact_mod_cast httl
  exact hσ.monotonic_le.trans (add_le_add (le_refl _) hcast)

end

/-- From `w` to `w'` the flow committed nothing, and of thread `t` it wrote no entry but those
of `N`. -/
structure Onward (t : String) (d : Deadline) (N : List Namespace) (w w' : Ledger) : Prop where
  entries : ∀ n ∉ N, w'.shared.store (n, t) = w.shared.store (n, t)
  wall : w.shared.wall ≤ w'.shared.wall
  inTime : w'.shared.InTime d
  commits : w'.sent.filter Req.commits = w.sent.filter Req.commits

section

variable {d : Deadline} {t : String} {N N' : List Namespace} {w w₁ w₂ : Ledger}

/-- Where nothing happens, nothing is touched. -/
theorem Onward.refl (hw : w.shared.InTime d) : Onward t d N w w :=
  ⟨fun _ _ => rfl, le_refl _, hw, rfl⟩

/-- Two stages after each other touch what either of them touches. -/
theorem Onward.trans (h : Onward t d N w w₁) (h' : Onward t d N w₁ w₂) : Onward t d N w w₂ where
  entries n hn := (h'.entries n hn).trans (h.entries n hn)
  wall := h.wall.trans h'.wall
  inTime := h'.inTime
  commits := h'.commits.trans h.commits

/-- A stage that touches less may be said to touch more. -/
theorem Onward.mono (h : Onward t d N w w₁) (hN : N ⊆ N') : Onward t d N' w w₁ :=
  { h with entries := fun n hn => h.entries n fun hmem => hn (hN hmem) }

/-- A stage leaves what is held in an entry that it does not touch. -/
theorem Onward.holds {n : Namespace} {v : Json} (h : Onward t d N w w₁) (hn : n ∉ N)
    (hv : w.shared.Holds d n t v) : w₁.shared.Holds d n t v := hv.of_eq (h.entries n hn)

/-- Others that leave the thread alone touch nothing of it. -/
theorem Onward.of_leavesAlone (h : LeavesAlone t d w.shared w₁.shared) (hsent : w₁.sent = w.sent) :
    Onward t d N w w₁ where
  entries n _ := h.entries n
  wall := h.wall
  inTime := h.inTime
  commits := by rw [hsent]

/-- A request that commits nothing touches nothing while it is answered. -/
theorem LeavesAlone.onward {q : Req} (h : LeavesAlone t d w.shared w₁.shared)
    (hsent : w₁.sent = w.sent.concat q) (hq : q.commits = false) : Onward t d N w w₁ where
  entries n _ := h.entries n
  wall := h.wall
  inTime := h.inTime
  commits := by simp [hsent, hq]

/-- An operation that writes at most an entry of `N` in thread `t`. -/
def Op.WritesAt (t : String) (N : List Namespace) : Op → Prop
  | .set n k _ _ | .delete n k => k = t ∧ n ∈ N
  | _ => True

/-- An operation touches what it writes. -/
theorem Onward.exec {o : Op} (ho : o.WritesAt t N) (hw : w.shared.InTime d) :
    Onward t d N w { w with shared := (Agent.exec E o w.shared).2 } := by
  cases o with
  | set n k v ttl =>
    obtain ⟨rfl, hn⟩ := ho
    refine ⟨fun n' hn' => Expiring.put_of_ne _ (fun h => hn' ?_) .., le_refl _,
      hw.of_clocks rfl rfl, rfl⟩
    rwa [show n' = n from congrArg Prod.fst h]
  | delete n k =>
    obtain ⟨rfl, hn⟩ := ho
    refine ⟨fun n' hn' => Expiring.erase_of_ne _ fun h => hn' ?_, le_refl _,
      hw.of_clocks rfl rfl, rfl⟩
    rwa [show n' = n from congrArg Prod.fst h]
  | tokenUrlsafe | cacheConfig =>
    exact ⟨fun _ _ => rfl, le_refl _, hw.of_clocks rfl rfl, rfl⟩
  | _ => exact .refl hw

end

/-! ## Tokens of the agent -/

section

variable {A : Req → Rep → Prop} {a : Action} {t : String} {d : Deadline} {w : Ledger}

/-- A value that is no exception is passed on. -/
theorem ends_ofExcept {α β : Type} {x : Except Exn α} {y : α} {f : α → Coro β}
    {Q : Except Exn β → Ledger → Prop} (hx : x = .ok y) (h : (flowing E A t d).Ends (f y) w Q) :
    (flowing E A t d).Ends (ofExcept x >>= f) w Q := by
  subst hx
  exact h

/-- A request that is answered. -/
theorem http_ends {q : Req} {R : Response → Prop}
    (hA : ∀ r, A q r → ∃ resp, r = .response resp ∧ R resp) :
    (flowing E A t d).Ends (http q) w (Environment.Settled fun resp w' =>
      R resp ∧ w'.sent = w.sent.concat q ∧ LeavesAlone t d w.shared w'.shared) := by
  rintro r w' ⟨hr, hsent, hund⟩
  obtain ⟨resp, rfl, hresp⟩ := hA r hr
  exact ⟨hresp, hsent, hund⟩

variable (hA : Cooperates E a d A)

include hA

/-- The first request for a token of the agent touches nothing. -/
theorem initAgentAuthFlow_leads (codeChallenge : String) :
    (flowing E A t d).Ends (initAgentAuthFlow E codeChallenge) w
      (Environment.Settled fun _ w' => Onward t d [] w w') := by
  refine (http_ends (hA.authorize _)).settled fun resp w' h => ?_
  obtain ⟨⟨v, flow, hjson, hflow⟩, hsent, hund⟩ := h
  refine ends_ofExcept hjson ?_
  rw [hflow]
  exact hund.onward hsent rfl

/-- Neither does the second. -/
theorem submitAgentCredentials_leads (flowId authenticatorId agentId agentSecret : Json) :
    (flowing E A t d).Ends (submitAgentCredentials E flowId authenticatorId agentId agentSecret) w
      (Environment.Settled fun _ w' => Onward t d [] w w') := by
  refine (http_ends (hA.authn _)).settled fun resp w' h => ?_
  obtain ⟨⟨v, code, hjson, hcode⟩, hsent, hund⟩ := h
  refine ends_ofExcept hjson ?_
  rw [hcode]
  exact hund.onward hsent rfl

/-- The third one brings a token that entitles the agent. -/
theorem exchangeCodeForAgentToken_leads (code : Json) (codeVerifier : String) :
    (flowing E A t d).Ends (exchangeCodeForAgentToken E code codeVerifier) w
      (Environment.Settled fun r w' => (∃ s seconds, r = (.str s, .num (.int seconds)) ∧
        Entitles E a d s ∧ seconds.natAbs < Json.floatBound) ∧ Onward t d [] w w') := by
  refine (http_ends fun r hr => hA.token _ r rfl hr).settled fun resp w' h => ?_
  obtain ⟨⟨v, token, seconds, hjson, htoken, hgrants, -, hbound⟩, hsent, hund⟩ := h
  refine ends_ofExcept hjson ?_
  rw [htoken]
  exact ⟨⟨token, seconds, rfl, hgrants, hbound⟩, hund.onward hsent rfl⟩

omit hA in
/-- An entry for a token, whose lifetime is known. -/
theorem entry_ends {token : Json} {seconds : Int} (hs : seconds.natAbs < Json.floatBound) :
    (flowing E A t d).Ends (entry token (.num (.int seconds))) w (Environment.Settled fun v w' =>
      w' = w ∧ v = oboEntry token (.num (.float (w.shared.wall + seconds - 60)))) := by
  have hadd : Json.addTo w.shared.wall (.num (.int seconds)) =
      .ok (.float (w.shared.wall + seconds)) := if_pos hs
  refine Environment.ends_perform.2 (ends_ofExcept hadd ?_)
  exact ⟨rfl, rfl⟩

/-- The agent gets a token of its own. -/
theorem fetchAgentToken_leads (ht : t ≠ "") (hw : w.shared.InTime d) {agentId agentSecret : Json}
    (hid : agentId.truthy = true) (hsecret : agentSecret.truthy = true) :
    (flowing E A t d).Ends (fetchAgentToken E agentId agentSecret t) w
      (Environment.Settled fun token w' =>
        (∃ s, token = .str s ∧ Entitles E a d s) ∧ Onward t d [.agentToken] w w') := by
  unfold fetchAgentToken
  rw [if_neg (by simp [hid]), if_neg (by simp [hsecret])]
  refine Environment.ends_perform.2 ?_
  have h₀ : Onward t d [.agentToken] w
      { w with shared := (exec E (.tokenUrlsafe 32) w.shared).2 } := .exec trivial hw
  refine (initAgentAuthFlow_leads hA _).settled fun flow w₁ h₁ => ?_
  obtain ⟨flowId, authenticatorId⟩ := flow
  have hcode := submitAgentCredentials_leads (t := t) (w := w₁) hA flowId authenticatorId agentId
    agentSecret
  refine hcode.settled fun code w₂ h₂ => ?_
  have htoken := exchangeCodeForAgentToken_leads (t := t) (w := w₂) hA code
    ((flowing E A t d).exec (.tokenUrlsafe 32) w).1
  refine htoken.settled fun r w₃ hr => ?_
  obtain ⟨⟨s, seconds, hr, hs, hbound⟩, h₃⟩ := hr
  subst hr
  have hto : Onward t d [.agentToken] w w₃ :=
    ((h₀.trans (h₁.mono (List.nil_subset _))).trans (h₂.mono (List.nil_subset _))).trans
      (h₃.mono (List.nil_subset _))
  have hstore : (flowing E A t d).Ends (storeAgentToken (.str s) (.num (.int seconds)) t) w₃
      (Environment.Settled fun _ w' => Onward t d [.agentToken] w w') := by
    refine (entry_ends hbound).settled fun v w₄ hv => ?_
    obtain ⟨rfl, -⟩ := hv
    exact hto.trans (.exec (o := .set .agentToken (agentTokenKey t) v tokenTtlSeconds)
      ⟨agentTokenKey_of_ne ht, List.mem_singleton_self _⟩ hto.inTime)
  exact hstore.settled fun _ w₄ h₄ => ⟨⟨s, rfl, hs⟩, h₄⟩

end

/-! ## Calls of tools -/

section

variable {A : Req → Rep → Prop} {a : Action} {t : String} {d : Deadline} {w : Ledger}

/-- A program with a handler ends as the program does if that returns. -/
theorem tryCatch_ends {α : Type} {p : Coro α} {handler : Exn → Coro α} {R : α → Ledger → Prop}
    (h : (flowing E A t d).Ends p w (Environment.Settled R)) :
    (flowing E A t d).Ends (p.tryCatch handler) w (Environment.Settled R) := by
  induction p generalizing w with
  | ret x => exact h
  | raise e => exact h.elim
  | op o k ih => exact ih _ h
  | await q k ih => exact fun r w' hr => ih r (h r w' hr)

/-- The credentials that are held are given. -/
theorem getAgentCredentials_ends {α : Type} {agentId agentSecret : Json}
    {f : Json × Json → Coro α} {Q : Except Exn α → Ledger → Prop} (hw : w.shared.InTime d)
    (hcred : w.shared.Holds d .agentCredentials t (.arr [agentId, agentSecret]))
    (h : (flowing E A t d).Ends (f (agentId, agentSecret)) w Q) :
    (flowing E A t d).Ends (getAgentCredentials t >>= f) w Q := by
  refine Environment.ends_perform.2 ?_
  refine ends_ofExcept (y := (agentId, agentSecret)) ?_ h
  change credentialsOf (w.shared.get .agentCredentials t) = _
  rw [hcred.get hw]
  rfl

/-- A delegated token is read as it is. -/
theorem getOboToken_ends {α : Type} {token : Option Json} {f : Option Json → Coro α}
    {Q : Except Exn α → Ledger → Prop}
    (hobo : liveTokenOf (w.shared.get .oboToken t) w.shared.wall = .ok token)
    (h : (flowing E A t d).Ends (f token) w Q) :
    (flowing E A t d).Ends (getOboToken t >>= f) w Q :=
  Environment.ends_perform.2 (Environment.ends_perform.2 (ends_ofExcept hobo h))

/-- The credentials that are held are those that are used. -/
theorem credentialsFor_ends {agentId agentSecret : Json} (hw : w.shared.InTime d)
    (hid : agentId.truthy = true) (hsecret : agentSecret.truthy = true)
    (hcred : w.shared.Holds d .agentCredentials t (.arr [agentId, agentSecret])) :
    (flowing E A t d).Ends (credentialsFor E t) w
      (Environment.Settled fun r w' => r = (agentId, agentSecret) ∧ w' = w) := by
  refine getAgentCredentials_ends hw hcred ?_
  dsimp only
  rw [if_pos (by simp [hid, hsecret])]
  exact ⟨rfl, rfl⟩

/-- Without a delegated token a tool is called with a token of the agent. -/
theorem toolToken_leads (hA : Cooperates E a d A) (ht : t ≠ "") (hw : w.shared.InTime d)
    (hstart : w.shared.Starts E d t) :
    (flowing E A t d).Ends (toolToken E t) w (Environment.Settled fun token w' =>
      (∃ s, token = some (.str s) ∧ Entitles E a d s ∧ Onward t d [.agentToken] w w') ∧
        w'.shared.InTime d) := by
  obtain ⟨⟨agentId, agentSecret, hid, hsecret, -, hcred⟩, hobo⟩ := hstart
  refine getOboToken_ends hobo ?_
  rw [if_neg (by decide)]
  refine (credentialsFor_ends hw hid hsecret hcred).settled fun r w₁ hr => ?_
  obtain ⟨rfl, rfl⟩ := hr
  refine tryCatch_ends ?_
  refine (fetchAgentToken_leads hA ht hw hid hsecret).settled fun token w' htoken => ?_
  obtain ⟨⟨s, rfl, hs⟩, h⟩ := htoken
  exact ⟨⟨s, rfl, hs, h⟩, h.inTime⟩

/-- A tool runs with a token that entitles the agent to the action. -/
theorem callTool_leads {token name : String} {handler : ToolCall → Coro TextContent} {args : Dict}
    {Q : Except Exn TextContent → Ledger → Prop} (hw : w.shared.InTime d)
    (htoken : Entitles E a d token) (hlook : (toolHandlers E).lookup name = some handler)
    (hargs : threadIdOf args = some t)
    (h : ∀ scopes agentName, a.scope ∈ scopes →
      (flowing E A t d).Ends (handler ⟨token, args, scopes, t, agentName⟩) w Q) :
    (flowing E A t d).Ends (callTool E (.str token) name args) w Q := by
  obtain ⟨hne, hvalid⟩ := htoken
  obtain ⟨decoded, scopes, hdecoded, hscopes, hscope⟩ := hvalid _ hw.wall_lt
  have htruthy : (Json.str token).truthy = true := bne_iff_ne.2 hne
  unfold callTool
  rw [if_neg (by simp [htruthy])]
  have hverified : (flowing E A t d).Ends (verifiedScopes (.str token)) w
      (Environment.Settled fun r w' => r = .ok scopes ∧ w' = w) := by
    refine Environment.ends_perform.2 ?_
    rw [show ((flowing E A t d).exec (.validateMcpToken token) w).1 = .ok decoded from hdecoded]
    exact ⟨hscopes, rfl⟩
  refine hverified.settled fun r w' hr => ?_
  obtain ⟨rfl, rfl⟩ := hr
  rw [hargs]
  refine Environment.ends_perform.2 ?_
  rw [hlook]
  exact h _ _ hscope

/-- A tool is dispatched with the token that there is. -/
theorem dispatchTool_leads {name : String} {handler : ToolCall → Coro TextContent}
    {P : String → Ledger → Prop} {R : TextContent → Ledger → Prop}
    (htoken : (flowing E A t d).Ends (toolToken E t) w (Environment.Settled fun token w' =>
      (∃ s, token = some (.str s) ∧ Entitles E a d s ∧ P s w') ∧ w'.shared.InTime d))
    (hlook : (toolHandlers E).lookup name = some handler) (args : Dict)
    (h : ∀ token scopes agentName w', P token w' → w'.shared.InTime d → Entitles E a d token →
      a.scope ∈ scopes → (flowing E A t d).Ends
        (handler ⟨token, Dict.set args "thread_id" (.str t), scopes, t, agentName⟩) w'
        (Environment.Settled R)) :
    (flowing E A t d).Ends (dispatchTool E name args t) w
      (Environment.Settled fun res w' => ∃ content, res = parseContent content ∧ R content w') := by
  refine htoken.settled fun token w' htoken => ?_
  obtain ⟨⟨s, rfl, hs, hP⟩, hw'⟩ := htoken
  have htruthy : (Json.str s).truthy = true := bne_iff_ne.2 hs.1
  dsimp only [Option.getD_some]
  rw [if_neg (by simp [htruthy])]
  refine Environment.Ends.settled (callTool_leads hw' hs hlook (threadIdOf_set args t)
    fun scopes agentName hmem => h s scopes agentName w' hP hw' hs hmem) fun content w'' hr => ?_
  exact ⟨content, rfl, hr⟩

end

/-! ## The preview -/

section

variable {A : Req → Rep → Prop} {a : Action} {t : String} {d : Deadline} {w : Ledger}

/-- What is stored is held, and nothing else is touched. -/
theorem storeSet_ends (hw : w.shared.InTime d) (n : Namespace) (v : Json) {ttl : Nat}
    (httl : 600 ≤ ttl) : (flowing E A t d).Ends (storeSet n t v ttl) w
      (Environment.Settled fun _ w' => w'.shared.Holds d n t v ∧ Onward t d [n] w w') :=
  ⟨Shared.holds_set hw n t v ttl httl,
    .exec (o := .set n t v ttl) ⟨rfl, List.mem_singleton_self _⟩ hw⟩

/-- The tool that previews an action. -/
theorem lookup_preview (a : Action) : ∃ p : PreviewTool, p.action = a ∧
    p.baseScope ++ "_agent" = a.scope ∧
    (toolHandlers E).lookup a.previewName = some (handlePreview E p) := by
  cases a with
  | book => exact ⟨scheduleMeetingPreview E, rfl, rfl, rfl⟩
  | update => exact ⟨updateMeetingPreview E, rfl, rfl, rfl⟩
  | delete => exact ⟨deleteMeetingPreview E, rfl, rfl, rfl⟩

/-- What is previewed is kept. -/
theorem preview_leads (hA : Cooperates E a d A) (ht : t ≠ "") (hw : w.shared.InTime d)
    (hstart : w.shared.Starts E d t) (args : Dict) :
    (flowing E A t d).Ends (dispatchTool E a.previewName args t) w
      (Environment.Settled fun _ w' =>
        w'.shared.Holds d .pendingMeeting t (.obj (Dict.without args "thread_id")) ∧
          Onward t d [.agentToken, .flowState, .pendingMeeting, .authUrl] w w') := by
  obtain ⟨p, rfl, hscope, hlook⟩ := lookup_preview (E := E) a
  have hrun := dispatchTool_leads (P := fun _ w' => Onward t d [.agentToken] w w')
    (R := fun _ w' => w'.shared.Holds d .pendingMeeting t (.obj (Dict.without args "thread_id")) ∧
      Onward t d [.agentToken, .flowState, .pendingMeeting, .authUrl] w w')
    (toolToken_leads hA ht hw hstart) hlook args fun token scopes agentName w₁ h₁ hw₁ _ hmem => ?_
  · exact Environment.Ends.imp hrun fun res w' hr => let ⟨_, _, h⟩ := hr; h
  obtain ⟨⟨agentId, agentSecret, -, -, -, hcred⟩, -⟩ := hstart
  unfold handlePreview
  rw [if_neg (by simp [requireScope, hscope, hmem])]
  refine getAgentCredentials_ends hw₁ (h₁.holds (by decide) hcred) ?_
  refine (storeSet_ends (E := E) hw₁ .flowState _ (by decide)).settled fun _ w₂ h₂ => ?_
  refine (storeSet_ends h₂.2.inTime .pendingMeeting _ (by decide)).settled fun _ w₃ h₃ => ?_
  refine (storeSet_ends h₃.2.inTime .authUrl _ (by decide)).settled fun _ w₄ h₄ => ?_
  have hmeeting : w₄.shared.Holds d .pendingMeeting t _ := h₄.2.holds (by decide) h₃.1
  rw [ToolCall.meeting, Dict.without_set] at hmeeting
  exact ⟨hmeeting, ((h₁.mono (by decide)).trans (h₂.2.mono (by decide))).trans
    ((h₃.2.mono (by decide)).trans (h₄.2.mono (by decide)))⟩

end

/-! ## The authorization -/

/-- The link has a state that is live for thread `t`, and a challenge whose verifier the thread
holds. -/
structure Redeemable (E : Env Tok) (key t action : String) (d : Deadline) (url : AuthorizeUrl Tok)
    (w : Ledger) : Prop where
  state : ∃ csrf, ∃ issued : Int, csrf ≠ "" ∧ (issued : Rat) ≤ w.shared.wall ∧
    d.wall ≤ (issued + oauthStateTtlSeconds : Int) ∧
    url.state = E.jwt.encode (statePayload t action csrf issued) key
  verifier : ∃ verifier, verifier ≠ "" ∧ E.codeChallenge verifier = url.codeChallenge ∧
    w.shared.Holds d .pkceVerifier t (.str verifier)

section

variable {A : Req → Rep → Prop} {a : Action} {t key : String} {d : Deadline} {w : Ledger}

/-- A number that is not negative is truncated to its floor. -/
theorem truncate_eq_floor {x : Rat} (hx : 0 ≤ x) : truncate x = ⌊x⌋ := by
  rw [truncate, Int.tdiv_eq_ediv_of_nonneg (Rat.num_nonneg.2 hx), Rat.floor_def']

/-- `clear_obo_tokens` leaves neither token. -/
theorem clearOboTokens_ends (hw : w.shared.InTime d) (t : String) :
    (flowing E A t d).Ends (clearOboTokens t) w
      (Environment.Settled fun _ w' => w'.shared.store (.oboToken, t) = none ∧
        w'.shared.store (.agentToken, t) = none ∧ Onward t d [.oboToken, .agentToken] w w') := by
  have h₁ : Onward t d [.oboToken, .agentToken] w _ :=
    .exec (E := E) (o := .delete .oboToken t) ⟨rfl, by decide⟩ hw
  have h₂ : Onward t d [.agentToken] _ _ :=
    .exec (E := E) (o := .delete .agentToken t) ⟨rfl, by decide⟩ h₁.inTime
  refine ⟨(h₂.entries .oboToken (by decide)).trans (Expiring.erase_self ..),
    Expiring.erase_self .., h₁.trans (h₂.mono (by decide))⟩

/-- The user is sent to WSO2 IS. -/
theorem initiateOauth_leads (hkey : E.settings.stateJwtSigningSecret = .ok key)
    (hw : w.shared.InTime d) {agentId agentSecret : Json} (hid : agentId.truthy = true)
    (henc : E.Encodes agentId)
    (hcred : w.shared.Holds d .agentCredentials t (.arr [agentId, agentSecret])) (a : Action) :
    (flowing E A t d).Ends (initiateOauth E t a.name) w (Environment.Settled fun page w' =>
      (∃ url, page = .redirect url url.state ∧ Redeemable E key t a.name d url w') ∧
        Onward t d [.oboToken, .agentToken, .pkceVerifier] w w') := by
  refine getAgentCredentials_ends hw hcred ?_
  dsimp only
  rw [if_neg (by simp [hid])]
  refine Environment.ends_perform.2 ?_
  have h₁ : Onward t d [.oboToken, .agentToken, .pkceVerifier] w _ :=
    .exec (E := E) (o := .tokenUrlsafe 16) trivial hw
  obtain ⟨scopes, hscopes⟩ : ∃ scopes, scopesOfAction a.name = some scopes := by
    cases a <;> exact ⟨_, rfl⟩
  rw [hscopes]
  refine Environment.ends_perform.2 ?_
  rw [hkey]
  dsimp only
  unfold getRealWso2AuthorizationUrl
  rw [if_neg (by simp [hid])]
  simp only [bind_assoc]
  refine (clearOboTokens_ends h₁.inTime t).settled fun _ w₂ h₂ => ?_
  refine Environment.ends_perform.2 ?_
  have h₃ : Onward t d [.oboToken, .agentToken, .pkceVerifier] w₂ _ :=
    .exec (E := E) (o := .tokenUrlsafe 32) trivial h₂.2.2.inTime
  refine (storeSet_ends h₃.inTime .pkceVerifier _ (by decide)).settled fun _ w₄ h₄ => ?_
  have hto := ((h₁.trans (h₂.2.2.mono (by decide))).trans h₃).trans (h₄.2.mono (by decide))
  have hfloor := truncate_eq_floor hw.epoch
  have hcsrf := E.tokenUrlsafe_ne_empty w.shared.draws 16 (by decide)
  refine ends_ofExcept (henc.urlencode rfl rfl rfl) ?_
  rw [henc.redirectResponse rfl]
  refine ⟨⟨_, rfl, ⟨_, truncate w.shared.wall, hcsrf, ?_, ?_, rfl⟩, _,
    E.tokenUrlsafe_ne_empty _ 32 (by decide), rfl, h₄.1⟩, hto⟩
  · rw [hfloor]
    exact (Int.floor_le _).trans hto.wall
  · have hlt := Int.lt_floor_add_one w.shared.wall
    have hle := hw.wall_le
    rw [hfloor]
    push_cast [oauthStateTtlSeconds]
    linarith

end

/-! ## The callback -/

/-- Thread `t` holds a delegated token for the action until the deadline, and is to carry out
what is pending. -/
structure Authorized (E : Env Tok) (a : Action) (t : String) (d : Deadline) (w : Ledger) :
    Prop where
  flow : w.shared.Holds d .flowState t (.str (FlowState.authorized a).value)
  token : ∃ (token : String) (expiresAt : Rat), Entitles E a d token ∧ d.wall ≤ expiresAt ∧
    w.shared.Holds d .oboToken t (oboEntry (.str token) (.num (.float expiresAt)))

section

variable {A : Req → Rep → Prop} {a : Action} {t key : String} {d : Deadline} {w : Ledger}

/-- The token that is granted for a code is stored. -/
theorem exchangeOboCode_leads (hA : Cooperates E a d A) (ht : t ≠ "") (hw : w.shared.InTime d)
    {agentId agentSecret : Json} (hid : agentId.truthy = true) (hsecret : agentSecret.truthy = true)
    {code challenge verifier : String} (hcode : Redeems E a d A code challenge)
    (hne : verifier ≠ "") (hverifier : E.codeChallenge verifier = challenge)
    (hheld : w.shared.Holds d .pkceVerifier t (.str verifier)) :
    (flowing E A t d).Ends (exchangeOboCode E t code agentId agentSecret) w
      (Environment.Settled fun _ w' => (∃ (token : String) (expiresAt : Rat),
        Entitles E a d token ∧ d.wall ≤ expiresAt ∧
          w'.shared.Holds d .oboToken t (oboEntry (.str token) (.num (.float expiresAt)))) ∧
        Onward t d [.agentToken, .pkceVerifier, .oboToken] w w') := by
  refine (fetchAgentToken_leads hA ht hw hid hsecret).settled fun agentToken w₁ h₁ => ?_
  replace h₁ := h₁.2
  refine Environment.ends_perform.2 (Environment.ends_perform.2 ?_)
  have hget : w₁.shared.get .pkceVerifier t = some (.str verifier) :=
    (h₁.holds (by decide) hheld).get h₁.inTime
  have h₂ : Onward t d [.pkceVerifier] w₁ _ :=
    .exec (E := E) (o := .delete .pkceVerifier t) ⟨rfl, by decide⟩ h₁.inTime
  have hv : codeVerifierOf (w₁.shared.get .pkceVerifier t) = .str verifier := by
    rw [hget]
    exact if_pos (bne_iff_ne.2 hne)
  refine (http_ends fun r hr => hcode verifier agentToken r hverifier (hv ▸ hr)).settled
    fun resp w₃ h₃ => ?_
  obtain ⟨⟨v, token, seconds, hjson, htoken, hgrants, hlong, hbound⟩, hsent, hund⟩ := h₃
  refine ends_ofExcept hjson ?_
  rw [htoken]
  have h₄ : Onward t d [] _ w₃ := hund.onward hsent rfl
  refine (entry_ends hbound).settled fun v w₄ hv => ?_
  obtain ⟨rfl, rfl⟩ := hv
  refine (storeSet_ends h₄.inTime .oboToken _ (by decide)).settled fun _ w₅ h₅ => ?_
  refine ⟨⟨token, _, hgrants, ?_, h₅.1⟩, ((h₁.mono (by decide)).trans (h₂.mono (by decide))).trans
    ((h₄.mono (by decide)).trans (h₅.2.mono (by decide)))⟩
  have hle := h₄.inTime.wall_le
  have hcast : (300 : Rat) ≤ seconds := by exact_mod_cast hlong
  linarith

/-- The state of an action's name is the one in which the action is authorized. -/
theorem actionToFlowState_name (a : Action) : actionToFlowState a.name = .authorized a := by
  cases a <;> rfl

/-- The user comes back. -/
theorem oauthCallback_leads (hkey : E.settings.stateJwtSigningSecret = .ok key)
    (hA : Cooperates E a d A) (ht : t ≠ "") (hw : w.shared.InTime d)
    {agentId agentSecret : Json} (hid : agentId.truthy = true) (hsecret : agentSecret.truthy = true)
    (hcred : w.shared.Holds d .agentCredentials t (.arr [agentId, agentSecret]))
    {url : AuthorizeUrl Tok} (hurl : Redeemable E key t a.name d url w) {code : String}
    (hcode : Redeems E a d A code url.codeChallenge) :
    (flowing E A t d).Ends (oauthCallback E code url.state (some url.state)) w
      (Environment.Settled fun page w' => page = .authorized ∧ Authorized E a t d w' ∧
        Onward t d [.agentToken, .pkceVerifier, .oboToken, .flowState] w w') := by
  obtain ⟨⟨csrf, issued, hcsrf, hissued, hlive, hstate⟩, verifier, hne, hverifier, hheld⟩ := hurl
  have hexp : w.shared.wall < (issued + oauthStateTtlSeconds : Int) := hw.wall_lt.trans_le hlive
  rw [oauthCallback_eq E hkey, hstate]
  have hgate : callbackGate E (E.jwt.encode (statePayload t a.name csrf issued) key)
      (some (E.jwt.encode (statePayload t a.name csrf issued) key)) key w.shared.wall =
        .ok (t, some a.name) := by
    rw [callbackGate_live hissued hexp ht, verifyOauthCookie_self hissued hexp hcsrf]
  unfold Environment.Ends
  dsimp only
  rw [show ((flowing E A t d).exec .time w).1 = w.shared.wall from rfl, hgate]
  have hrun : (flowing E A t d).Ends (completeOboAuthorization E t code) w
      (Environment.Settled fun error w' => error = none ∧
        (∃ (token : String) (expiresAt : Rat), Entitles E a d token ∧ d.wall ≤ expiresAt ∧
          w'.shared.Holds d .oboToken t (oboEntry (.str token) (.num (.float expiresAt)))) ∧
        Onward t d [.agentToken, .pkceVerifier, .oboToken] w w') := by
    refine getAgentCredentials_ends hw hcred (tryCatch_ends ?_)
    exact (exchangeOboCode_leads hA ht hw hid hsecret hcode hne hverifier hheld).settled
      fun _ w' h => ⟨rfl, h⟩
  refine hrun.settled fun error w₁ h₁ => ?_
  obtain ⟨rfl, ⟨token, expiresAt, hgrants, hle, hobo⟩, h₁⟩ := h₁
  refine (storeSet_ends h₁.inTime .flowState _ (by decide)).settled fun _ w₂ h₂ => ?_
  refine ⟨rfl, ⟨?_, token, expiresAt, hgrants, hle, h₂.2.holds (by decide) hobo⟩,
    (h₁.mono (by decide)).trans (h₂.2.mono (by decide))⟩
  rw [← actionToFlowState_name a]
  exact h₂.1

end

/-! ## The confirmation -/

/-- What a committing tool returns when the action was carried out. -/
def Action.Succeeds : Action → Dict → Prop
  | .book, res => ∃ fields, res = [("status", .str "booked"), ("meeting", .obj fields)]
  | .update, res => ∃ fields topic, res = [("status", .str "updated"), ("meeting", .obj fields)] ∧
      Dict.get fields "topic" = some topic
  | .delete, res => ∃ meetingId, res = [("status", .str "deleted"), ("meeting_id", meetingId)]

/-- The handler of an authorized action. -/
def Action.authorizedHandler (E : Env Tok) : Action → String → Json → String → Coro Reply
  | .book => handleBookingAuthorized E
  | .update => handleUpdateAuthorized E
  | .delete => handleDeleteAuthorized E

section

variable {A : Req → Rep → Prop} {a : Action} {t key : String} {d : Deadline} {w : Ledger}

/-- The request does not depend on a thread id among the arguments. -/
theorem Action.request_without (a : Action) (args : Dict) (token : String) :
    a.request (Dict.without args "thread_id") token = a.request args token := by
  have hget : ∀ k, k ≠ "thread_id" → argOf (Dict.without args "thread_id") k = argOf args k :=
    fun k hk => by rw [argOf, Dict.get_without_of_ne _ hk, argOf]
  cases a with
  | book => simp [Action.request, Dict.without, List.filter_filter]
  | update => simp (disch := decide) only [Action.request, hget]
  | delete => simp (disch := decide) only [Action.request, hget]

/-- The table of tools has the commit of every action. -/
theorem lookup_commit (a : Action) :
    (toolHandlers E).lookup a.commitName = some (handleCommit a.commitTool) := by
  cases a <;> rfl

/-- What the Business API answers is what the committing tool takes for success. -/
theorem reply_succeeds (c : ToolCall) {resp : Response}
    (h : a ≠ .delete → ∃ fields topic, resp.readJson = .ok (.obj fields) ∧
      Dict.get fields "topic" = some topic) :
    ∃ res, a.commitTool.reply c resp = .ok res ∧ a.Succeeds res := by
  cases a with
  | book =>
    obtain ⟨fields, topic, hjson, -⟩ := h (by simp)
    refine ⟨_, ?_, fields, rfl⟩
    simp only [Action.commitTool, scheduleMeeting, hjson]
    rfl
  | update =>
    obtain ⟨fields, topic, hjson, htopic⟩ := h (by simp)
    refine ⟨_, ?_, fields, topic, rfl, htopic⟩
    simp only [Action.commitTool, updateMeeting, hjson]
    rfl
  | delete => exact ⟨_, rfl, _, rfl⟩

/-- The delegated token is used. -/
theorem toolToken_authorized (hw : w.shared.InTime d) (h : Authorized E a t d w) :
    ∃ s, Entitles E a d s ∧ liveTokenOf (w.shared.get .oboToken t) w.shared.wall =
      .ok (some (.str s)) := by
  obtain ⟨-, token, expiresAt, hgrants, hle, hobo⟩ := h
  refine ⟨token, hgrants, ?_⟩
  have hlive : ¬ expiresAt < w.shared.wall := not_lt.2 (hw.wall_lt.le.trans hle)
  rw [hobo.get hw, liveTokenOf_oboEntry]
  simp only [isBefore, Number.lt, hlive, decide_false]
  rfl

/-- The end of an action. -/
theorem finalizeAction_ends (t : String) :
    (flowing E A t d).Ends (finalizeAction t) w (Environment.Settled fun _ w' =>
      flowStateOf (w'.shared.get .flowState t) = .initial ∧
        w'.shared.get .pendingMeeting t = none ∧ w'.shared.get .oboToken t = none ∧
        w'.shared.get .agentToken t = none ∧ w'.sent = w.sent) := by
  have hne : ∀ {n n' : Namespace}, n' ≠ n → (n', t) ≠ (n, t) := fun h he => h (congrArg Prod.fst he)
  refine ⟨?_, ?_, ?_, Shared.get_delete_self .., rfl⟩
  · exact (congrArg flowStateOf ((Shared.get_delete_of_ne _ (hne (by decide))).trans
      ((Shared.get_delete_of_ne _ (hne (by decide))).trans
        ((Shared.get_delete_of_ne _ (hne (by decide))).trans
          (Shared.get_set_now ..))))).trans (flowStateOf_value .initial)
  · exact (Shared.get_delete_of_ne _ (hne (by decide))).trans
      ((Shared.get_delete_of_ne _ (hne (by decide))).trans (Shared.get_delete_self ..))
  · exact (Shared.get_delete_of_ne _ (hne (by decide))).trans (Shared.get_delete_self ..)

/-- An authorized action is committed. -/
theorem commit_leads (hA : Cooperates E a d A) (hw : w.shared.InTime d)
    (hauth : Authorized E a t d w) (pending : Dict) :
    (flowing E A t d).Ends (dispatchTool E a.commitName (a.confirmArgs pending) t) w
      (Environment.Settled fun res w' => a.Succeeds res ∧ CarriedOut a t pending w w') := by
  obtain ⟨s, hgrants, hlive⟩ := toolToken_authorized hw hauth
  have htruthy : (Json.str s).truthy = true := bne_iff_ne.2 hgrants.1
  have htoken : (flowing E A t d).Ends (toolToken E t) w (Environment.Settled fun token w' =>
      (∃ s', token = some (.str s') ∧ Entitles E a d s' ∧ s' = s ∧ w' = w) ∧
        w'.shared.InTime d) := by
    refine getOboToken_ends hlive ?_
    rw [Option.getD_some, if_pos htruthy]
    exact ⟨⟨s, rfl, hgrants, rfl, rfl⟩, hw⟩
  have hrun := dispatchTool_leads (P := fun s' w' => s' = s ∧ w' = w)
    (R := fun content w' => ∃ res, content = .json res ∧ a.Succeeds res ∧
      CarriedOut a t pending w w') htoken (lookup_commit a) (a.confirmArgs pending)
    fun token scopes agentName w₁ h₁ hw₁ _ hmem => ?_
  · refine Environment.Ends.imp hrun fun res w' hr => ?_
    obtain ⟨content, rfl, res, rfl, h⟩ := hr
    exact h
  obtain ⟨rfl, rfl⟩ := h₁
  unfold handleCommit
  rw [if_neg (by simp [requireAgentScope_iff, hmem])]
  refine Environment.ends_perform.2 (getOboToken_ends hlive ?_)
  have hflow : flowStateOf (w₁.shared.get .flowState t) = .authorized a := by
    rw [hauth.flow.get hw₁, flowStateOf_value]
  have haction : a.commitTool.action = a := by cases a <;> rfl
  rw [if_neg (by
    simp [flowing, Agent.exec, hflow, haction, hgrants.1])]
  let c : ToolCall := ⟨token, Dict.set (a.confirmArgs pending) "thread_id" (.str t), scopes, t,
    agentName⟩
  have hrequest : a.commitTool.request c = a.request pending token := by
    rw [Action.request_eq, Action.request_confirm]
  have hcommit := http_ends (E := E) (t := t) (d := d) (w := w₁) (q := a.commitTool.request c)
    fun r hr => hA.commit pending token r (hrequest ▸ hr)
  refine hcommit.settled fun resp w₂ h₂ => ?_
  obtain ⟨⟨hstatus, hjson⟩, hsent, -⟩ := h₂
  obtain ⟨res, hres, hsucceeds⟩ := reply_succeeds c hjson
  unfold finishCommit
  rw [if_pos hstatus]
  refine (finalizeAction_ends t).settled fun _ w₃ h₃ => ?_
  obtain ⟨hflow₃, hpending₃, hobo₃, hagent₃, hsent₃⟩ := h₃
  refine ends_ofExcept hres ⟨res, rfl, hsucceeds, ⟨⟨token, ?_⟩, hflow₃, hpending₃, hobo₃, hagent₃⟩⟩
  have hcommits : (a.request pending token).commits = true := by cases a <;> rfl
  rw [hsent₃, hsent, hrequest]
  simp [hcommits]

/-- A result that begins with its status has it. -/
theorem hasStatus_cons (status : String) (res : Dict) :
    hasStatus (("status", .str status) :: res) status = true := by
  simp [hasStatus, Dict.get]

/-- A meeting that can be confirmed passes the guard of its action. -/
theorem dispatchAuthorizedState_leads {pending : Dict} (h : a.Confirmable pending)
    {language : String} {R : Reply → Ledger → Prop}
    (hrun : (flowing E A t d).Ends (a.authorizedHandler E t (.obj pending) language) w
      (Environment.Settled R)) :
    (flowing E A t d).Ends (dispatchAuthorizedState (.authorized a) t (.obj pending) language
      (authorizedStateDispatch E)) w
      (Environment.Settled fun reply w' => ∃ r, reply = some r ∧ R r w') := by
  have htruthy : (Json.obj pending).truthy = true := by
    cases pending with
    | nil => cases a <;> simp [Action.Confirmable, Dict.get, argOf, Json.truthy] at h
    | cons f l => rfl
  cases a with
  | book =>
    refine ends_ofExcept (y := true) ?_ (hrun.settled fun r w' hr => ⟨r, rfl, hr⟩)
    exact (if_pos htruthy).trans (congrArg Except.ok h)
  | update =>
    refine ends_ofExcept (y := true) ?_ (hrun.settled fun r w' hr => ⟨r, rfl, hr⟩)
    exact (if_pos htruthy).trans (congrArg Except.ok h)
  | delete =>
    refine ends_ofExcept (y := true) ?_ (hrun.settled fun r w' hr => ⟨r, rfl, hr⟩)
    exact (if_pos htruthy).trans (congrArg Except.ok h)

/-- What the confirmation of an action does with what is pending. -/
theorem authorizedHandler_leads (hA : Cooperates E a d A) (hw : w.shared.InTime d)
    (hauth : Authorized E a t d w) {pending : Dict} (h : a.Confirmable pending)
    (language : String) :
    (flowing E A t d).Ends (a.authorizedHandler E t (.obj pending) language) w
      (Environment.Settled fun reply w' => reply.Reports a ∧ CarriedOut a t pending w w') := by
  have hcommit := commit_leads hA hw hauth pending
  cases a with
  | book =>
    refine hcommit.settled fun res w' hres => ?_
    obtain ⟨⟨fields, rfl⟩, hdone⟩ := hres
    obtain ⟨topic, htopic⟩ := Option.isSome_iff_exists.1 h
    rw [if_pos (hasStatus_cons ..)]
    refine ends_ofExcept (y := (Dict.get fields "id").getD (.str "")) rfl ?_
    refine ends_ofExcept (y := topic) (Json.getItem_obj htopic) ?_
    split
    · exact ⟨.inr rfl, hdone⟩
    · exact ⟨.inl rfl, hdone⟩
  | update =>
    refine hcommit.settled fun res w' hres => ?_
    obtain ⟨⟨fields, topic, rfl, htopic⟩, hdone⟩ := hres
    rw [if_pos (hasStatus_cons ..)]
    refine ends_ofExcept (y := .obj fields) rfl
      (ends_ofExcept (y := topic) (Json.getItem_obj htopic) ⟨rfl, hdone⟩)
  | delete =>
    obtain ⟨meetingId, hid⟩ : ∃ v, Dict.get pending "meeting_id" = some v := by
      cases hget : Dict.get pending "meeting_id" with
      | none => simp [Action.Confirmable, argOf, hget, Json.truthy] at h
      | some v => exact ⟨v, rfl⟩
    refine ends_ofExcept (y := meetingId) (Json.getItem_obj hid) ?_
    rw [Action.confirmArgs, hid] at hcommit
    refine hcommit.settled fun res w' hres => ?_
    obtain ⟨⟨_, rfl⟩, hdone⟩ := hres
    rw [if_pos (hasStatus_cons ..)]
    exact ⟨rfl, hdone⟩

/-- `get_state` gives the state that is stored. -/
theorem getState_ends {α : Type} {state : FlowState} {f : FlowState → Coro α}
    {Q : Except Exn α → Ledger → Prop} (hstate : flowStateOf (w.shared.get .flowState t) = state)
    (h : (flowing E A t d).Ends (f state) w Q) :
    (flowing E A t d).Ends (getState t >>= f) w Q := by
  subst hstate
  exact Environment.ends_perform.2 h

/-- `get_pending_meeting` gives the meeting that is stored. -/
theorem getPendingMeeting_ends {α : Type} {fields : Dict} {f : Option Json → Coro α}
    {Q : Except Exn α → Ledger → Prop}
    (hpending : w.shared.get .pendingMeeting t = some (.obj fields))
    (h : (flowing E A t d).Ends (f (some (.obj fields))) w Q) :
    (flowing E A t d).Ends (getPendingMeeting t >>= f) w Q := by
  refine Environment.ends_perform.2 ?_
  change (flowing E A t d).Ends (f (notNone (w.shared.get .pendingMeeting t))) w Q
  rw [hpending]
  exact h

/-- The user says that the agent is authorized. -/
theorem handleAuthorizationCallback_leads (hA : Cooperates E a d A) (hw : w.shared.InTime d)
    (hauth : Authorized E a t d w) {args : Dict} (hargs : a.Confirmable args)
    (hpending : w.shared.Holds d .pendingMeeting t (.obj (Dict.without args "thread_id")))
    {message : String} (hsaid : saysAuthorized E message = true) (language : String) :
    (flowing E A t d).Ends (handleAuthorizationCallback E message t language) w
      (Environment.Settled fun reply w' =>
        (∃ r, reply = some r ∧ r.Reports a) ∧ CarriedOut a t args w w') := by
  have hkept : a.Confirmable (Dict.without args "thread_id") := by
    cases a <;>
      simpa (disch := decide) [Action.Confirmable, argOf, Dict.get_without_of_ne] using hargs
  have hflow : flowStateOf (w.shared.get .flowState t) = .authorized a := by
    rw [hauth.flow.get hw, flowStateOf_value]
  refine getState_ends hflow ?_
  rw [if_pos hsaid, if_pos (show (FlowState.authorized a).isAuthorized = true from rfl)]
  refine getPendingMeeting_ends (hpending.get hw) ?_
  have hrun := dispatchAuthorizedState_leads hkept
    (authorizedHandler_leads hA hw hauth hkept language)
  refine hrun.settled fun reply w' hr => ?_
  obtain ⟨r, rfl, hreports, hdone⟩ := hr
  obtain ⟨token, hsent⟩ := hdone.sent
  rw [Action.request_without] at hsent
  exact ⟨⟨r, rfl, hreports⟩, { hdone with sent := ⟨token, hsent⟩ }⟩

end

/-! ## The whole flow -/

section

variable {A : Req → Rep → Prop} {a : Action} {t key : String} {d : Deadline} {w w₁ w₂ : Ledger}

/-- A step of the flow, and what the next step finds. -/
theorem Proceeds.of_ends {α : Type} {p : Coro α} {N : List Namespace} {R Q : α → Ledger → Prop}
    (h : (flowing E A t d).Ends p w (Environment.Settled R))
    (hR : ∀ x w₁, R x w₁ → Onward t d N w w₁)
    (hQ : ∀ x w₁ w₂, R x w₁ → Onward t d [] w₁ w₂ → Onward t d N w w₂ → Q x w₂) :
    Proceeds E A t d p w Q :=
  Environment.Ends.imp h fun x w₁ hx w₂ hsent halone =>
    have hnext : Onward t d [] w₁ w₂ := .of_leavesAlone halone hsent
    hQ x w₁ w₂ hx hnext ((hR x w₁ hx).trans (hnext.mono (List.nil_subset _)))

/-- A link stays redeemable while nothing of the thread is touched. -/
theorem Redeemable.onward {url : AuthorizeUrl Tok} {action : String}
    (h : Redeemable E key t action d url w₁) (h' : Onward t d [] w₁ w₂) :
    Redeemable E key t action d url w₂ := by
  obtain ⟨⟨csrf, issued, hcsrf, hissued, hrest⟩, verifier, hne, hverifier, hheld⟩ := h
  exact ⟨⟨csrf, issued, hcsrf, hissued.trans h'.wall, hrest⟩, verifier, hne, hverifier,
    h'.holds List.not_mem_nil hheld⟩

/-- A thread stays authorized while nothing of it is touched. -/
theorem Authorized.onward (h : Authorized E a t d w₁) (h' : Onward t d [] w₁ w₂) :
    Authorized E a t d w₂ := by
  obtain ⟨hflow, token, expiresAt, hgrants, hle, hobo⟩ := h
  exact ⟨h'.holds List.not_mem_nil hflow, token, expiresAt, hgrants, hle,
    h'.holds List.not_mem_nil hobo⟩

/-- What is carried out does not depend on requests that commit nothing. -/
theorem CarriedOut.of_commits {args : Dict} (h : CarriedOut a t args w₁ w₂)
    (hw : w₁.sent.filter Req.commits = w.sent.filter Req.commits) : CarriedOut a t args w w₂ :=
  { h with sent := let ⟨token, hsent⟩ := h.sent; ⟨token, hw ▸ hsent⟩ }

/-- The flow of an action from its preview to its confirmation, each step of which can come long
after the one before: what was previewed is carried out, once, and reported. -/
def CarriesThrough (E : Env Tok) (A : Req → Rep → Prop) (a : Action) (t : String) (d : Deadline)
    (args : Dict) (message language : String) (w : Ledger) : Prop :=
  Proceeds E A t d (dispatchTool E a.previewName args t) w fun _ w₁ =>
    Proceeds E A t d (initiateOauth E t a.name) w₁ fun page w₂ =>
      ∃ url, page = .redirect url url.state ∧ ∀ code, Redeems E a d A code url.codeChallenge →
        Proceeds E A t d (oauthCallback E code url.state (some url.state)) w₂ fun page w₃ =>
          page = .authorized ∧
            (flowing E A t d).Ends (handleAuthorizationCallback E message t language) w₃
              (Environment.Settled fun reply w₄ =>
                (∃ r, reply = some r ∧ r.Reports a) ∧ CarriedOut a t args w w₄)

/-- A flow in which WSO2 IS and the Business API cooperate, and which others leave alone, completes
before the deadline. -/
theorem flow_completes (hkey : E.settings.stateJwtSigningSecret = .ok key)
    (hA : Cooperates E a d A) (ht : t ≠ "") (hw : w.shared.InTime d) (hstart : w.shared.Starts E d t)
    {args : Dict} (hargs : a.Confirmable args) {message : String}
    (hsaid : saysAuthorized E message = true) (language : String) :
    CarriesThrough E A a t d args message language w := by
  obtain ⟨agentId, agentSecret, hid, hsecret, henc, hcred⟩ := hstart.credentials
  refine .of_ends (preview_leads hA ht hw hstart args) (fun _ _ h => h.2)
    fun _ w₀ w₁ h₀ hnext h₁ => ?_
  have hpending := hnext.holds List.not_mem_nil h₀.1
  have hcred₁ := h₁.holds (by decide) hcred
  refine .of_ends (initiateOauth_leads hkey h₁.inTime hid henc hcred₁ a) (fun _ _ h => h.2)
    fun page w₀ w₂ h₀ hnext h₂ => ?_
  obtain ⟨⟨url, hpage, hurl⟩, -⟩ := h₀
  have hcred₂ := h₂.holds (by decide) hcred₁
  refine ⟨url, hpage, fun code hcode => ?_⟩
  refine .of_ends (oauthCallback_leads hkey hA ht h₂.inTime hid hsecret hcred₂
    (hurl.onward hnext) hcode) (fun _ _ h => h.2.2) fun page w₀ w₃ h₀ hnext h₃ => ?_
  have hend := handleAuthorizationCallback_leads hA h₃.inTime (h₀.2.1.onward hnext) hargs
    (h₃.holds (by decide) (h₂.holds (by decide) hpending)) hsaid language
  exact ⟨h₀.1, hend.imp fun reply w₄ h₄ =>
    ⟨h₄.1, h₄.2.of_commits (h₃.commits.trans (h₂.commits.trans h₁.commits))⟩⟩

/-- A response that says all that WSO2 IS and the Business API are asked for. -/
def accommodating : Response := ⟨200, "", some (.obj [
  ("flowId", .str "f"),
  ("nextStep", .obj [("authenticators", .arr [.obj [("authenticatorId", .str "b")]])]),
  ("code", .str "c"),
  ("access_token", .str "token"),
  ("topic", .str "Retro")])⟩

/-- A service that gives the one response to everything cooperates. -/
theorem cooperates_accommodating (d : Deadline) :
    Cooperates Symbolic.env .update d fun _ r => r = .response accommodating := by
  have htoken : GrantsToken Symbolic.env .update d accommodating :=
    ⟨_, "token", 3600, rfl, rfl, ⟨by decide, fun now _ => ⟨_, _, rfl, rfl, by decide +kernel⟩⟩,
      by decide, by decide +kernel⟩
  exact {
    authorize := fun form r hr => ⟨accommodating, hr, _, _, rfl, rfl⟩
    authn := fun body r hr => ⟨accommodating, hr, _, _, rfl, rfl⟩
    token := fun form r _ hr => ⟨accommodating, hr, htoken⟩
    commit := fun args token r hr => ⟨accommodating, hr, rfl, fun _ => ⟨_, _, rfl, rfl⟩⟩ }

/-- An agent service whose thread `t` has an agent with credentials. -/
def introduced : Ledger :=
  ⟨(Shared.start 0 0).set .agentCredentials "t" (.arr [.str "agent", .str "pw"])
    defaultTtlSeconds, []⟩

/-- The flow of an update is carried through by such services. -/
theorem introduced_completes : CarriesThrough Symbolic.env (fun _ r => r = .response accommodating)
    .update "t" ⟨600, 240⟩ [("meeting_id", .num (.int 7))] "authorized" "en" introduced := by
  have hin : (Shared.start 0 0).InTime ⟨600, 240⟩ := by constructor <;> decide +kernel
  have hcred := Shared.holds_set hin .agentCredentials "t" (.arr [.str "agent", .str "pw"])
    defaultTtlSeconds (by decide)
  have hkey : Symbolic.env.settings.stateJwtSigningSecret = .ok "key" := rfl
  have hw : introduced.shared.InTime ⟨600, 240⟩ := hin.of_clocks rfl rfl
  have hundelegated : liveTokenOf (introduced.shared.get .oboToken "t") introduced.shared.wall =
      .ok none := rfl
  have hencodes : Symbolic.env.Encodes (.str "agent") := by constructor <;> decide
  have hargs : Action.update.Confirmable [("meeting_id", .num (.int 7))] := rfl
  exact flow_completes hkey (cooperates_accommodating _) (by decide) hw
    ⟨⟨_, _, rfl, rfl, hencodes, hcred⟩, hundelegated⟩ hargs (by decide +kernel) "en"

end

end Teamspace.Agent
