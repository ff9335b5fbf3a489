import Teamspace.Agent.Footprint
import Teamspace.Lib.Guarantee

/-!
# What the service can do to an authorization

The moves of the agent service, between two points at which its coroutines give up control: which
writes they make to the flow state, the pending meeting and the delegated token of a thread, and
which requests they send to the Business API, each with what the code has checked before it. Every
coroutine of the service makes only such moves (`serves`), so that an invariant of the service is
proved by one case analysis (`Reachable.invariant`).

Some writes are single moves because no other task can act between them: the flow state of a
preview with the pending meeting, the successful reply to a committing request with what finalizes
the action, and the delegated token with the flow state that `/callback` sets beside it.
-/

namespace Teamspace.Agent

open Teamspace.Lib Teamspace.Py Teamspace.Lib.System
open Relation (ReflTransGen)

variable {Tok : Type} (E : Env Tok)

/-! ## Requests -/

/-- A request that changes a meeting. -/
def Req.commits : Req → Bool
  | .businessApi method .. => method ≠ .get
  | _ => false

/-- The reply that a committing tool takes for success. -/
def succeeds : Req → Rep → Bool
  | .businessApi .post .., .response resp => resp.statusCode = 201
  | .businessApi .delete .., .response resp => resp.statusCode = 204
  | .businessApi .put .., .response resp => resp.statusCode = 200
  | _, _ => false

/-- A commit succeeds if it is answered with the status of its tool. -/
theorem succeeds_iff (a : Action) (c : ToolCall) (resp : Response) :
    succeeds (a.commitTool.request c) (.response resp) = true ↔
      resp.statusCode = a.commitTool.success := by
  cases a <;> simp [succeeds, CommitTool.request, Action.commitTool, scheduleMeeting,
    updateMeeting, deleteMeeting]

/-- A request that commits nothing succeeds with nothing. -/
theorem succeeds_of_not_commits {q : Req} (h : q.commits = false) (r : Rep) :
    succeeds q r = false := by
  unfold succeeds
  split
  · cases h
  · cases h
  · cases h
  · rfl

/-! ## Operations -/

/-- An operation that neither stores a pending meeting or a delegated token nor authorizes an
action. -/
def Op.Mild : Op → Prop
  | .set n _ v _ => n ≠ .pendingMeeting ∧ n ≠ .oboToken ∧
      (n = .flowState → ∀ a, flowStateOf (some v) ≠ .authorized a)
  | _ => True

/-- A plain operation is mild. -/
theorem Op.Plain.mild {o : Op} (h : o.Plain) : o.Mild := by
  cases o with
  | set n k v ttl =>
    refine ⟨?_, ?_, ?_⟩
    · rintro rfl; exact h (.inr (.inl rfl))
    · rintro rfl; exact h (.inr (.inr (.inl rfl)))
    · rintro rfl; exact absurd (.inl rfl) h
  | _ => trivial

/-- A plain request commits nothing. -/
theorem Req.Plain.not_commits {q : Req} (h : q.Plain E) : q.commits = false := by
  cases q with
  | businessApi => exact absurd rfl (h.1 _ _ _ _)
  | _ => rfl

/-! ## What the code has checked -/

/-- The delegated scope that an action needs. -/
def Action.scope : Action → String
  | .book => "create_meeting_agent"
  | .update => "update_meeting_agent"
  | .delete => "delete_meeting_agent"

/-- The check of the scope is the presence of the action's agent scope. -/
theorem requireAgentScope_iff (a : Action) (scopes : List String) :
    requireAgentScope scopes a.commitTool.baseScope = true ↔ a.scope ∈ scopes := by
  have : a.commitTool.baseScope ++ "_agent" = a.scope := by cases a <;> decide
  rw [requireAgentScope, this, decide_eq_true_eq]

/-- The world in which task `i` sends the committing request of action `a` for the call `c`. -/
structure CommitGuard (w : AgentWorld E) (i : Nat) (a : Action) (c : ToolCall) : Prop where
  calls : Calls w.log i a.commitName c.arguments
  thread : threadIdOf c.arguments = some c.threadId
  flow : flowStateOf (w.state.get .flowState c.threadId) = .authorized a
  live : liveTokenOf (w.state.get .oboToken c.threadId) w.state.wall = .ok (some (.str c.token))
  validated : ∃ decoded, E.validateMcpToken w.state.wall c.token = .ok decoded ∧
    scopesOf decoded = .ok c.scopes
  scope : a.scope ∈ c.scopes

/-- Task `i` waits for the reply to `q`. -/
def Awaits (l : List (AgentEntry Tok)) (i : Nat) (q : Req) : Prop :=
  ∃ l₁ σ l₂, l = l₁ ++ ⟨i, σ, .send q⟩ :: l₂ ∧ ∀ x ∈ l₁, x.task ≠ i

/-- Task `i` serves a `/callback` whose gate has let it pass for thread `t` and `action`. -/
def Accepted (l : List (AgentEntry Tok)) (i : Nat) (t : String)
    (action : Option String) : Prop :=
  ∃ code state cookie secret now, Spawned l i (.callback code state cookie) ∧
    E.settings.stateJwtSigningSecret = .ok secret ∧
    callbackGate E state cookie secret now = .ok (t, action)

/-- Task `i` was answered its OBO token request with `token`. -/
def Exchanged (l : List (AgentEntry Tok)) (i : Nat) (token : Json) : Prop :=
  ∃ σ code verifier agentToken resp expiresIn,
    ⟨i, σ, .recv (oboTokenRequest E code verifier agentToken) (.response resp)⟩ ∈ l ∧
    resp.readJson >>= readToken = .ok (token, expiresIn)

/-- Task `i` serves an `/authorize` and issues the state in `url`, with `cookie` beside it. -/
def Issues (l : List (AgentEntry Tok)) (i : Nat) (url : AuthorizeUrl Tok)
    (cookie : Tok) : Prop :=
  ∃ t action csrf now secret, Spawned l i (.authorize t action) ∧
    (scopesOfAction action).isSome = true ∧ E.settings.stateJwtSigningSecret = .ok secret ∧
    url.state = E.jwt.encode (statePayload t action csrf now) secret ∧ cookie = url.state

variable {E} in
/-- A callback that was accepted stays accepted. -/
theorem Accepted.mono {l l' : List (AgentEntry Tok)} {i : Nat} {t : String}
    {action : Option String} (hl : l <:+ l') (h : Accepted E l i t action) :
    Accepted E l' i t action := by
  obtain ⟨code, state, cookie, secret, now, hs, hk, hg⟩ := h
  exact ⟨code, state, cookie, secret, now, hs.mono hl, hk, hg⟩

variable {E} in
/-- A token that was obtained stays so. -/
theorem Exchanged.mono {l l' : List (AgentEntry Tok)} {i : Nat} {token : Json}
    (hl : l <:+ l') (h : Exchanged E l i token) : Exchanged E l' i token := by
  obtain ⟨σ, code, verifier, agentToken, resp, expiresIn, hm, hr⟩ := h
  exact ⟨σ, code, verifier, agentToken, resp, expiresIn, hl.subset hm, hr⟩

variable {E} in
/-- A link that was issued stays so. -/
theorem Issues.mono {l l' : List (AgentEntry Tok)} {i : Nat} {url : AuthorizeUrl Tok}
    {cookie : Tok} (hl : l <:+ l') (h : Issues E l i url cookie) : Issues E l' i url cookie := by
  obtain ⟨t, action, csrf, now, secret, hs, ha, hk, hu, hc⟩ := h
  exact ⟨t, action, csrf, now, secret, hs.mono hl, ha, hk, hu, hc⟩

/-! ## Moves -/

/-- The flow state and the pending meeting that a preview stores. -/
def previewed (w : AgentWorld E) (i : Nat) (a : Action) (t : String) (args : Dict) : AgentWorld E :=
  (w.perform i (.set .flowState t (.str (FlowState.previewInitiated a).value)
    defaultTtlSeconds)).perform i
    (.set .pendingMeeting t (.obj (Dict.without args "thread_id")) defaultTtlSeconds)

/-- What finalizes an action on thread `t`, but for the token of the agent. -/
def finalized (w : AgentWorld E) (i : Nat) (t : String) : AgentWorld E :=
  ((w.perform i (.set .flowState t (.str FlowState.initial.value) defaultTtlSeconds)).perform i
    (.delete .pendingMeeting t)).perform i (.delete .oboToken t)

/-- The moves of task `i`. -/
inductive Move (i : Nat) : AgentWorld E → AgentWorld E → Prop
  | mild {w : AgentWorld E} (o : Op) : o.Mild → Move i w (w.perform i o)
  /-- A preview tool stores the pending meeting of its thread. -/
  | preview {w : AgentWorld E} (a : Action) (t : String) (args : Dict) :
      Calls w.log i a.previewName args → threadIdOf args = some t →
      Move i w (previewed E w i a t args)
  /-- A committing tool sends its request. -/
  | commit {w : AgentWorld E} (a : Action) (c : ToolCall) : CommitGuard E w i a c →
      Move i w (w.emit i (.send (a.commitTool.request c)))
  | send {w : AgentWorld E} (q : Req) : q.commits = false → Move i w (w.emit i (.send q))
  | recv {w : AgentWorld E} (q : Req) (r : Rep) : succeeds q r = false →
      Move i w (w.emit i (.recv q r))
  /-- A committing tool is answered with success and finalizes its action. -/
  | success {w : AgentWorld E} (a : Action) (c : ToolCall) (r : Rep) :
      Calls w.log i a.commitName c.arguments → threadIdOf c.arguments = some c.threadId →
      Awaits w.log i (a.commitTool.request c) →
      succeeds (a.commitTool.request c) r = true →
      Move i w (finalized E (w.emit i (.recv (a.commitTool.request c) r)) i c.threadId)
  /-- `/callback` stores the delegated token, sets the flow state and ends. -/
  | complete {w : AgentWorld E} (t : String) (action : Option String) (token expiresAt : Json) :
      Accepted E w.log i t action → Exchanged E w.log i token →
      Move i w (((w.perform i
        (.set .oboToken t (.obj [("token", token), ("expires_at", expiresAt)])
          tokenTtlSeconds)).perform i
        (.set .flowState t (.str (actionToFlowState (action.getD "")).value)
          defaultTtlSeconds)).emit i (.finish (.ok (.page .authorized))))
  | spawn {w : AgentWorld E} (j : Job Tok) : Fresh i w.log → Move i w (w.emit i (.spawn j))
  | finish {w : AgentWorld E} (x : Except Exn (Outcome Tok)) : x ≠ .ok (.page .authorized) →
      (∀ url cookie, x = .ok (.page (.redirect url cookie)) → Issues E w.log i url cookie) →
      Move i w (w.emit i (.finish x))

variable {E} in
/-- A plain operation is a move. -/
theorem Move.plain_op {i : Nat} {w : AgentWorld E} {o : Op} (h : o.Plain) :
    Move E i w (w.perform i o) := .mild o h.mild

/-! ## The flow state -/

/-- An authorized flow state is one that is stored. -/
theorem flow_authorized {g : Option Json} {a : Action} (h : flowStateOf g = .authorized a) :
    ∃ x, g = some x ∧ flowStateOf (some x) = .authorized a := by
  cases g with
  | none => cases h
  | some x => exact ⟨x, rfl, h⟩

/-- A flow state that was set and is read as authorized is the one that was set. -/
theorem flow_set_self {σ : Shared} {t : String} {s : FlowState} {ttl : Nat} {a : Action}
    (h : flowStateOf ((σ.set .flowState t (.str s.value) ttl).get .flowState t) = .authorized a) :
    s = .authorized a := by
  obtain ⟨x, hx, hf⟩ := flow_authorized h
  have hx := Shared.get_set_self hx
  rwa [hx, flowStateOf_value] at hf

/-! ## Programs that make moves -/

section
variable {E} {i : Nat} {w : AgentWorld E}

/-- A mild program that commits nothing. -/
abbrev Mild {α : Type} (p : Coro α) : Prop :=
  Program.Only (I := interface) Op.Mild (fun q => q.commits = false) p

variable (E) in
/-- A plain program is mild. -/
theorem mild_of_plain {α : Type} {p : Coro α} (h : Plain E p) : Mild p :=
  h.mono (fun _ ho => ho.mild) fun _ hq => hq.not_commits

/-- A state that authorizes no action is stored mildly. -/
theorem setState_mild (t : String) (s : FlowState) (h : ∀ a, s ≠ .authorized a) :
    Mild (setState t s) := by
  refine ⟨⟨by decide, by decide, fun _ a => ?_⟩, fun _ => trivial⟩
  rw [flowStateOf_value]
  exact h a

/-- The link is stored mildly. -/
theorem setAuthUrl_mild (t url : String) : Mild (setAuthUrl t url) :=
  ⟨⟨by decide, by decide, nofun⟩, fun _ => trivial⟩

/-- `clear_obo_tokens` is mild. -/
theorem clearOboTokens_mild (t : String) : Mild (clearOboTokens t) :=
  ⟨trivial, fun _ => ⟨trivial, fun _ => trivial⟩⟩

/-- `_finalize_action` is mild. -/
theorem finalizeAction_mild (t : String) : Mild (finalizeAction t) :=
  Program.Only.bind (setState_mild _ _ nofun) fun _ => ⟨trivial, fun _ => clearOboTokens_mild t⟩

/-- `/clear` is mild. -/
theorem clearThread_mild (t : String) : Mild (clearThread t) :=
  Program.Only.bind (clearOboTokens_mild t) fun _ =>
    ⟨trivial, fun _ => ⟨trivial, fun _ => ⟨trivial, fun _ => ⟨trivial, fun _ => ⟨trivial, fun _ =>
      ⟨trivial, fun _ => ⟨trivial, fun _ => trivial⟩⟩⟩⟩⟩⟩⟩

/-- A mild program that commits nothing makes moves. -/
theorem spec_mild {α : Type} {p : Coro α} (h : Mild p) :
    Spec (Move E i) i p w fun _ _ => True :=
  Spec.only (fun o _ ho => .mild o ho) (fun q _ hq => .send q hq)
    (fun q r _ hq => .recv q r (succeeds_of_not_commits hq r)) h

/-- So does a plain one, and it keeps what the history says. -/
theorem spec_plain {α : Type} {p : Coro α} (h : Plain E p) :
    Spec (Move E i) i p w fun _ w' => w.log <:+ w'.log :=
  Spec.mono (Spec.later (spec_mild (mild_of_plain E h))) fun _ _ h => h.2

/-- A world in which only reads have happened since `w`. -/
def OnlyRead (w w' : AgentWorld E) : Prop := w'.state = w.state ∧ w.log <:+ w'.log

/-- `get_state` gives the stored state, and only reads. -/
theorem getState_spec (t : String) : Spec (Move E i) i (getState t) w fun x w' =>
    x = .ok (flowStateOf (w.state.get .flowState t)) ∧ OnlyRead w w' :=
  Spec.op (Move.plain_op (by decide : Namespace.flowState ≠ .pkceVerifier))
    (.ret ⟨rfl, rfl, List.suffix_cons _ _⟩)

/-- `get_obo_token` gives the token if it is alive, and only reads. -/
theorem getOboToken_spec (t : String) : Spec (Move E i) i (getOboToken t) w fun x w' =>
    x = liveTokenOf (w.state.get .oboToken t) w.state.wall ∧ OnlyRead w w' := by
  refine Spec.op (Move.plain_op (by decide : Namespace.oboToken ≠ .pkceVerifier)) ?_
  refine Spec.op (Move.plain_op (o := .time) trivial) ?_
  exact .ofExcept ⟨rfl, rfl, (List.suffix_cons _ _).trans (List.suffix_cons _ _)⟩

/-! ## The tools -/

/-- A preview for its own call makes only moves. -/
theorem handlePreview_spec {p : PreviewTool} {c : ToolCall}
    (hc : Calls w.log i p.action.previewName c.arguments)
    (ht : threadIdOf c.arguments = some c.threadId) :
    Spec (Move E i) i (handlePreview E p c) w fun _ _ => True := by
  unfold handlePreview
  split
  · exact .ret trivial
  · refine .bind ((spec_plain (getAgentCredentials_plain E _)).mono fun x w' hw => ?_)
    cases x with
    | error e => trivial
    | ok credentials =>
      -- the two writes are one move
      refine Within.step ?_
      refine Spec.afterOp (.single (.preview p.action c.threadId c.arguments (hc.mono hw) ht)) ?_
      exact spec_mild (Program.Only.bind (Program.only_ret _) fun _ =>
        Program.Only.bind (setAuthUrl_mild _ _) fun _ => trivial)

/-- A listing that asks for authorization is mild. -/
theorem requestListAuthorization_mild (c : ToolCall) (message : String) :
    Mild (requestListAuthorization E c message) := by
  refine Program.Only.bind (clearOboTokens_mild _) fun _ => ?_
  refine Program.Only.bind (mild_of_plain E (getAgentCredentials_plain E _)) fun _ => ?_
  refine Program.Only.bind (setState_mild _ _ nofun) fun _ => ?_
  exact Program.Only.bind (setAuthUrl_mild _ _) fun _ => trivial

/-- `list_meetings` is mild. -/
theorem handleListMeetings_mild (c : ToolCall) : Mild (handleListMeetings E c) := by
  unfold handleListMeetings
  split
  · trivial
  · refine Program.Only.bind (mild_of_plain E (liveToken_plain E (by decide))) fun token => ?_
    split
    · exact requestListAuthorization_mild c _
    · refine Program.Only.bind (only_http rfl) fun resp => ?_
      split
      · refine Program.Only.bind ?_ fun state => ?_
        · exact Program.Only.bind (mild_of_plain E (storeGet_plain E (by decide))) fun _ => trivial
        split
        · refine Program.Only.bind (setState_mild _ _ nofun) fun _ => ?_
          refine Program.Only.bind (clearOboTokens_mild _) fun _ => ?_
          exact Program.Only.bind (Program.only_ofExcept _) fun _ => trivial
        · exact Program.Only.bind (Program.only_ofExcept _) fun _ => trivial
      · exact requestListAuthorization_mild c _

/-- What follows the response to a commit is mild. -/
theorem finishCommit_mild (p : CommitTool) (c : ToolCall) (resp : Response) :
    Mild (finishCommit p c resp) := by
  unfold finishCommit
  split
  · refine Program.Only.bind (finalizeAction_mild _) fun _ => ?_
    exact Program.Only.bind (Program.only_ofExcept _) fun _ => trivial
  · trivial

/-- The action of a committing tool is the tool's own. -/
theorem commitTool_action (a : Action) : a.commitTool.action = a := by cases a <;> rfl

/-- The request of a committing tool and what it does with the reply. -/
theorem commit_spec {a : Action} {c : ToolCall} (h : CommitGuard E w i a c) :
    Spec (Move E i) i (do
      let resp ← callBusinessApi a.commitTool.method (a.commitTool.path c) c.token
        (a.commitTool.jsonBody c)
      finishCommit a.commitTool c resp) w fun _ _ => True := by
  refine ⟨.single (.commit a c h), fun r w' hw => ?_⟩
  have hl : w.log <:+ w'.log := (List.suffix_cons _ _).trans hw.suffix
  by_cases hs : succeeds (a.commitTool.request c) r = true
  · cases r with
    | failed => cases a <;> cases hs
    | serviceToken t => cases a <;> cases hs
    | response resp =>
      have hcode := (succeeds_iff a c resp).1 hs
      change @Within (agentSystem E) TextContent _ _ _ _ (finishCommit a.commitTool c resp) _
      unfold finishCommit
      rw [if_pos hcode]
      -- the reply and what finalizes the action are one move
      refine Within.step (Within.step ?_)
      refine Spec.afterOp (.single (.success a c _ (h.calls.mono hl) h.thread ?_ hs)) (spec_mild ?_)
      · obtain ⟨l, he, hi⟩ := hw
        exact ⟨l, _, _, he, hi⟩
      · refine ⟨trivial, fun _ => ?_⟩
        exact Program.Only.bind (Program.only_ret _) fun _ =>
          Program.Only.bind (Program.only_ofExcept _) fun _ => trivial
  · refine Spec.after (.single (.recv _ r (eq_false_of_ne_true hs))) ?_
    cases r with
    | failed => exact .raise trivial
    | serviceToken t => exact .raise trivial
    | response resp => exact spec_mild (finishCommit_mild _ _ _)

/-- A commit for its own call, with a verified token, makes only moves. -/
theorem handleCommit_spec {a : Action} {c : ToolCall}
    (hc : Calls w.log i a.commitName c.arguments) (ht : threadIdOf c.arguments = some c.threadId)
    (hv : ∃ decoded, E.validateMcpToken w.state.wall c.token = .ok decoded ∧
      scopesOf decoded = .ok c.scopes) :
    Spec (Move E i) i (handleCommit a.commitTool c) w fun _ _ => True := by
  unfold handleCommit
  split
  · exact .ret trivial
  · next hscope =>
    have hscope : a.scope ∈ c.scopes := by
      rw [← requireAgentScope_iff]
      simpa using hscope
    refine .bind ((getState_spec _).mono fun x w₁ h₁ => ?_)
    obtain ⟨rfl, hs₁, hl₁⟩ := h₁
    refine .bind ((getOboToken_spec _).mono fun x w₂ h₂ => ?_)
    obtain ⟨hx, hs₂, hl₂⟩ := h₂
    cases x with
    | error e => trivial
    | ok token =>
      dsimp only
      split
      · exact .ret trivial
      · next hguard =>
        simp only [Bool.or_eq_true, decide_eq_true_eq, not_or, not_not, ne_eq,
          commitTool_action] at hguard
        refine commit_spec ⟨hc.mono (hl₁.trans hl₂), ht, ?_, ?_, ?_, hscope⟩
        · rw [hs₂, hs₁]; exact hguard.1.1
        · rw [hs₂, ← hx, hguard.1.2]; rfl
        · rw [hs₂, hs₁]; exact hv

end

end Teamspace.Agent
