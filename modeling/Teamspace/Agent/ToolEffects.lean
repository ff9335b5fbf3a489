import Teamspace.Agent.Moves
import Teamspace.Agent.Symbolic
import Teamspace.Lib.Noninterference

/-!
# What a tool call leaves in the store

A tool that runs while no other request acts. A committing tool is all or nothing: it finalizes its
action when the Business API has answered with the status for success, and changes no entry
otherwise (`commit_atomic`). Listing is not: any other status than 200 gives up the authorization of
an update or a delete (`list_keeps_authorization`).
-/

namespace Teamspace.Agent

open Teamspace.Lib Teamspace.Py

variable {Tok : Type} (E : Env Tok)

/-- The replies that a request receives, with the time that passes until each. -/
abbrev Replies := List (Program.Arrival interface Shared)

/-- No other request acts while a reply is awaited. -/
structure Replies.Alone (l : Replies) : Prop where
  passes : ∀ r ∈ l, ∀ s : Shared, s.Passes (r.2 s)

/-- The program ends with `x` in `σ'` when it runs from `σ` on these replies. -/
abbrev Replays {α : Type} (p : Coro α) (l : Replies) (σ : Shared) (x : Except Exn α) (σ' : Shared) :
    Prop := p.replay (exec E) l σ = some (x, σ')

/-- The passing of time leaves the store. -/
theorem Shared.Passes.store {σ σ' : Shared} (h : σ.Passes σ') : σ'.store = σ.store := by
  obtain ⟨m, w, -, rfl⟩ := h
  rfl

/-- What is only computed leaves the state. -/
theorem Replays.ofExcept {E : Env Tok} {α β : Type} {v : Except Exn α} {f : α → β} {l : Replies}
    {σ σ' : Shared} {x : Except Exn β}
    (h : Replays E (ofExcept v >>= fun a => pure (f a)) l σ x σ') : σ' = σ := by
  cases v <;> cases h <;> rfl

/-! ## Committing -/

/-- The checks that a committing tool makes before it asks the Business API. -/
structure Requested (a : Action) (c : ToolCall) (σ : Shared) : Prop where
  scope : requireAgentScope c.scopes a.commitTool.baseScope = true
  flow : flowStateOf (σ.get .flowState c.threadId) = .authorized a
  live : liveTokenOf (σ.get .oboToken c.threadId) σ.wall = .ok (some (.str c.token))
  token : c.token ≠ ""

/-- The tool asks the Business API and receives the status for success. -/
structure Succeeds (a : Action) (c : ToolCall) (σ : Shared) (l : Replies) : Prop where
  requested : Requested a c σ
  received : ∃ resp pass rest, l = (.response resp, pass) :: rest ∧
    resp.statusCode = a.commitTool.success

/-- The namespaces that finalizing an action writes. -/
def writtenByFinalize : List Namespace := [.flowState, .pendingMeeting, .oboToken, .agentToken]

/-- `σ'` is `σ` with the action of thread `t` finalized. -/
structure Finalized (t : String) (σ σ' : Shared) : Prop where
  flow : flowStateOf (σ'.get .flowState t) = .initial
  pending : σ'.store (.pendingMeeting, t) = none
  obo : σ'.store (.oboToken, t) = none
  agent : σ'.store (.agentToken, t) = none
  others : ∀ n k, k ≠ t ∨ n ∉ writtenByFinalize → σ'.store (n, k) = σ.store (n, k)

/-- The state that `_finalize_action` makes. -/
def Shared.finalize (σ : Shared) (t : String) : Shared :=
  (((σ.set .flowState t (.str FlowState.initial.value) defaultTtlSeconds).delete .pendingMeeting t).delete
    .oboToken t).delete .agentToken t

/-- `_finalize_action` resets the state and deletes three entries. -/
theorem Shared.finalize_store (σ : Shared) (t : String) : ∃ e, (σ.finalize t).store =
    (((σ.store.put (.flowState, t) (.str FlowState.initial.value) e).erase (.pendingMeeting, t)).erase
      (.oboToken, t)).erase (.agentToken, t) := ⟨_, rfl⟩

/-- So it finalizes the action of the thread. -/
theorem Shared.finalize_finalized (σ : Shared) (t : String) : Finalized t σ (σ.finalize t) where
  flow := by
    have hget : (σ.finalize t).get .flowState t = some (.str FlowState.initial.value) := by
      unfold Shared.finalize
      rw [Shared.get_delete_of_ne _ (by simp), Shared.get_delete_of_ne _ (by simp),
        Shared.get_delete_of_ne _ (by simp), Shared.get_set_now]
    rw [hget, flowStateOf_value]
  pending := by
    obtain ⟨e, he⟩ := σ.finalize_store t
    rw [he, Expiring.erase_of_ne _ (by simp), Expiring.erase_of_ne _ (by simp), Expiring.erase_self]
  obo := by
    obtain ⟨e, he⟩ := σ.finalize_store t
    rw [he, Expiring.erase_of_ne _ (by simp), Expiring.erase_self]
  agent := Expiring.erase_self ..
  others n k h := by
    have hne : ∀ m ∈ writtenByFinalize, (n, k) ≠ (m, t) := by
      rintro m hm ⟨⟩
      exact h.elim (fun h => h rfl) fun h => h hm
    obtain ⟨e, he⟩ := σ.finalize_store t
    rw [he, Expiring.erase_of_ne _ (hne _ (by decide)), Expiring.erase_of_ne _ (hne _ (by decide)),
      Expiring.erase_of_ne _ (hne _ (by decide)), Expiring.put_of_ne _ (hne _ (by decide))]

/-- Whether an action is finalized depends on the stores. -/
theorem Finalized.of_store {t : String} {σ₀ σ σ' : Shared} (hσ : σ.store = σ₀.store)
    (h : Finalized t σ σ') : Finalized t σ₀ σ' :=
  { h with others := fun n k hk => (h.others n k hk).trans (congrFun hσ _) }

/-- What a committing tool does with the response, by its status. -/
theorem finishCommit_ends {p : CommitTool} {c : ToolCall} {resp : Response} {l : Replies}
    {σ σ' : Shared} {x : Except Exn TextContent} (h : Replays E (finishCommit p c resp) l σ x σ') :
    (resp.statusCode = p.success ∧ σ' = σ.finalize c.threadId) ∨
      (resp.statusCode ≠ p.success ∧ σ' = σ) := by
  unfold finishCommit at h
  by_cases hs : resp.statusCode = p.success
  · rw [if_pos hs] at h
    exact .inl ⟨hs, Replays.ofExcept (σ := σ.finalize c.threadId) h⟩
  · rw [if_neg hs] at h
    cases h
    exact .inr ⟨hs, rfl⟩

/-- A committing tool that has asked the Business API. -/
theorem commitRequest_ends {p : CommitTool} {c : ToolCall} {l : Replies} (hl : l.Alone)
    {σ σ' : Shared} {x : Except Exn TextContent}
    (h : Replays E (do
      let resp ← callBusinessApi p.method (p.path c) c.token (p.jsonBody c)
      finishCommit p c resp) l σ x σ') :
    ((∃ resp pass rest, l = (.response resp, pass) :: rest ∧ resp.statusCode = p.success) ∧
        Finalized c.threadId σ σ') ∨
      ((¬ ∃ resp pass rest, l = (.response resp, pass) :: rest ∧ resp.statusCode = p.success) ∧
        σ'.store = σ.store) := by
  cases l with
  | nil => cases h
  | cons r l =>
    obtain ⟨reply, pass⟩ := r
    have hstore := (hl.passes _ (.head _) σ).store
    cases reply with
    | response resp =>
      obtain ⟨hs, rfl⟩ | ⟨hs, rfl⟩ := finishCommit_ends E (σ := pass σ) h
      · exact .inl ⟨⟨resp, pass, l, rfl, hs⟩, .of_store hstore ((pass σ).finalize_finalized _)⟩
      · refine .inr ⟨?_, hstore⟩
        rintro ⟨_, _, _, ⟨⟩, hs'⟩
        exact hs hs'
    | failed | serviceToken =>
      cases h
      refine .inr ⟨?_, hstore⟩
      rintro ⟨_, _, _, ⟨⟩, -⟩

/-- A committing tool whose checks pass asks the Business API. -/
theorem commit_requested {a : Action} {c : ToolCall} {σ : Shared} (h : Requested a c σ) (l : Replies) :
    (handleCommit a.commitTool c).replay (exec E) l σ = (do
      let resp ← callBusinessApi a.commitTool.method (a.commitTool.path c) c.token
        (a.commitTool.jsonBody c)
      finishCommit a.commitTool c resp : Coro TextContent).replay (exec E) l σ := by
  unfold handleCommit
  rw [h.scope]
  change (ofExcept (liveTokenOf (σ.get .oboToken c.threadId) σ.wall) >>= fun oboToken =>
    if flowStateOf (σ.get .flowState c.threadId) ≠ .authorized a.commitTool.action ||
      oboToken ≠ some (.str c.token) || c.token = "" then
      return .json [("status", .str "waiting_for_authorization")]
    else _ : Coro TextContent).replay (exec E) l σ = _
  rw [h.live]
  change (if _ then _ else _ : Coro TextContent).replay (exec E) l σ = _
  rw [if_neg (by simp [commitTool_action, h.flow, h.token])]

/-- One whose checks do not pass changes nothing. -/
theorem commit_unrequested {a : Action} {c : ToolCall} {l : Replies} {σ σ' : Shared}
    {x : Except Exn TextContent} (h : Replays E (handleCommit a.commitTool c) l σ x σ')
    (hr : ¬ Requested a c σ) : σ' = σ := by
  unfold handleCommit at h
  by_cases hscope : requireAgentScope c.scopes a.commitTool.baseScope = true
  · rw [hscope] at h
    replace h : Replays E (ofExcept (liveTokenOf (σ.get .oboToken c.threadId) σ.wall) >>= fun oboToken =>
        if flowStateOf (σ.get .flowState c.threadId) ≠ .authorized a.commitTool.action ||
          oboToken ≠ some (.str c.token) || c.token = "" then
          return .json [("status", .str "waiting_for_authorization")]
        else _) l σ x σ' := h
    cases hlive : liveTokenOf (σ.get .oboToken c.threadId) σ.wall with
    | error e =>
      rw [hlive] at h
      cases h
      rfl
    | ok oboToken =>
      rw [hlive] at h
      replace h : Replays E (if _ then _ else _) l σ x σ' := h
      split at h
      · cases h
        rfl
      · next hguard =>
        simp only [ne_eq, commitTool_action, Bool.or_eq_true, decide_eq_true_eq, not_or,
          Decidable.not_not] at hguard
        exact absurd ⟨hscope, hguard.1.1, hguard.1.2 ▸ hlive, hguard.2⟩ hr
  · rw [eq_false_of_ne_true hscope] at h
    cases h
    rfl

/-- A committing tool finalizes its action when it receives the status for success, whatever the
body of the response is, and leaves every entry of the store otherwise. -/
theorem commit_atomic (a : Action) (c : ToolCall) {l : Replies} (hl : l.Alone) {σ σ' : Shared}
    {x : Except Exn TextContent} (h : Replays E (handleCommit a.commitTool c) l σ x σ') :
    (Succeeds a c σ l ∧ Finalized c.threadId σ σ') ∨
      (¬ Succeeds a c σ l ∧ σ'.store = σ.store) := by
  by_cases hr : Requested a c σ
  · rw [Replays, commit_requested E hr] at h
    obtain ⟨hs, hf⟩ | ⟨hs, hf⟩ := commitRequest_ends E hl h
    · exact .inl ⟨⟨hr, hs⟩, hf⟩
    · exact .inr ⟨fun hs' => hs hs'.received, hf⟩
  · have hσ' := commit_unrequested E h hr
    exact .inr ⟨fun hs => hr hs.requested, congrArg Shared.store hσ'⟩

/-! ## Listing -/

/-- The entries of an authorization of thread `t` are as they were. -/
structure Keeps (t : String) (σ σ' : Shared) : Prop where
  flow : σ'.store (.flowState, t) = σ.store (.flowState, t)
  pending : σ'.store (.pendingMeeting, t) = σ.store (.pendingMeeting, t)
  obo : σ'.store (.oboToken, t) = σ.store (.oboToken, t)

/-- So does whether its entries are kept. -/
theorem Keeps.of_store {t : String} {σ σ' : Shared} (h : σ'.store = σ.store) : Keeps t σ σ' :=
  ⟨congrFun h _, congrFun h _, congrFun h _⟩

/-- Thread `t` may commit an update or a deletion. -/
def Confirmed (σ : Shared) (t : String) : Prop :=
  ∃ a, (a = .update ∨ a = .delete) ∧ flowStateOf (σ.get .flowState t) = .authorized a

/-- The Business API is asked for the list and answers with another status than 200. -/
structure Declined (c : ToolCall) (l : Replies) : Prop where
  scope : requireScope c.scopes "list_meetings" = true
  received : ∃ resp pass rest, l = (.response resp, pass) :: rest ∧ resp.statusCode ≠ 200

/-- To ask the user for the list gives up the delegated token. -/
theorem requestListAuthorization_obo {c : ToolCall} {message : String} {l : Replies}
    {σ σ' : Shared} {x : Except Exn TextContent}
    (h : Replays E (requestListAuthorization E c message) l σ x σ') :
    σ'.store (.oboToken, c.threadId) = none := by
  have hcleared : ((σ.delete .oboToken c.threadId).delete .agentToken c.threadId).store
      (.oboToken, c.threadId) = none := by
    change ((σ.store.erase (.oboToken, c.threadId)).erase (.agentToken, c.threadId))
      (.oboToken, c.threadId) = none
    rw [Expiring.erase_of_ne _ (by simp), Expiring.erase_self]
  replace h : Replays E (ofExcept (credentialsOf (((σ.delete .oboToken c.threadId).delete .agentToken
      c.threadId).get .agentCredentials c.threadId)) >>= fun _ =>
        setState c.threadId .listPreviewInitiated >>= fun _ =>
          setAuthUrl c.threadId (getOboAuthorizationUrl E c.threadId "list") >>= fun _ =>
            pure (.json [
              ("status", .str "preview_ready"),
              ("authorization_url", .str (getOboAuthorizationUrl E c.threadId "list")),
              ("message", .str message)])) l ((σ.delete .oboToken c.threadId).delete .agentToken c.threadId) x σ' := h
  cases hc : credentialsOf (((σ.delete .oboToken c.threadId).delete .agentToken
      c.threadId).get .agentCredentials c.threadId) with
  | error e =>
    rw [hc] at h
    cases h
    exact hcleared
  | ok credentials =>
    rw [hc] at h
    cases h
    refine (Shared.store_set_of_ne _ (by simp) ..).trans ?_
    exact (Shared.store_set_of_ne _ (by simp) ..).trans hcleared

/-- A thread that may commit stays so while time passes, or its flow state expires. -/
theorem Confirmed.later {σ σ' : Shared} {t : String} (h : Confirmed σ t) (hp : σ.Passes σ') :
    flowStateOf (σ'.get .flowState t) ≠ .listAuthorized ∧
      flowStateOf (σ'.get .flowState t) ≠ .listPreviewInitiated := by
  cases hg : σ'.get .flowState t with
  | none => exact ⟨nofun, nofun⟩
  | some v =>
    obtain ⟨a, -, ha⟩ := h
    rw [← hp.get hg, ha]
    exact ⟨nofun, nofun⟩

/-- What `list_meetings` does with the response. -/
def finishList (c : ToolCall) (resp : Response) : Coro TextContent := do
  if resp.statusCode = 200 then
    let currentState ← getState c.threadId
    if currentState = .listAuthorized || currentState = .listPreviewInitiated then
      setState c.threadId .initial
      clearOboTokens c.threadId
      return .json [("status", .str "success"), ("meetings", ← ofExcept resp.readJson)]
    else
      return .json [("status", .str "success"), ("meetings", ← ofExcept resp.readJson)]
  else
    requestListAuthorization E c ("Session expired or unauthorized. Please re-authorize "
      ++ E.str c.agentName ++ " to view your meetings.")

/-- With the scope and the live token, `list_meetings` asks the Business API. -/
theorem list_requested {c : ToolCall} {σ : Shared}
    (hscope : requireScope c.scopes "list_meetings" = true)
    (hlive : liveTokenOf (σ.get .oboToken c.threadId) σ.wall = .ok (some (.str c.token)))
    (htoken : c.token ≠ "") (l : Replies) : (handleListMeetings E c).replay (exec E) l σ = (do
      let resp ← callBusinessApi .get .meetings c.token none
      finishList E c resp : Coro TextContent).replay (exec E) l σ := by
  unfold handleListMeetings
  rw [hscope]
  change (ofExcept (liveTokenOf (σ.get .oboToken c.threadId) σ.wall) >>= fun oboToken =>
    if oboToken ≠ some (.str c.token) || c.token = "" then
      requestListAuthorization E c
        ("Please authorize " ++ E.str c.agentName ++ " to view your meetings.")
    else _ : Coro TextContent).replay (exec E) l σ = _
  rw [hlive]
  change (if _ then _ else _ : Coro TextContent).replay (exec E) l σ = _
  rw [if_neg (by simpa using htoken)]
  rfl

/-- The list of a thread that may commit writes nothing at status 200: the flow state is that of
another tool's flow. -/
theorem finishList_ends {c : ToolCall} {resp : Response} {l : Replies} {σ σ' : Shared}
    {x : Except Exn TextContent} (h₁ : flowStateOf (σ.get .flowState c.threadId) ≠ .listAuthorized)
    (h₂ : flowStateOf (σ.get .flowState c.threadId) ≠ .listPreviewInitiated)
    (h : Replays E (finishList E c resp) l σ x σ') :
    (resp.statusCode = 200 ∧ σ' = σ) ∨
      (resp.statusCode ≠ 200 ∧ σ'.store (.oboToken, c.threadId) = none) := by
  unfold finishList at h
  by_cases hs : resp.statusCode = 200
  · rw [if_pos hs] at h
    replace h : Replays E (if _ then _ else _) l σ x σ' := h
    rw [if_neg (by simpa using ⟨h₁, h₂⟩)] at h
    exact .inl ⟨hs, Replays.ofExcept h⟩
  · rw [if_neg hs] at h
    exact .inr ⟨hs, requestListAuthorization_obo E h⟩

/-- Listing with the live token of a thread that may commit an update or a deletion keeps what it
takes to commit it exactly where the Business API does not answer with another status than 200. -/
theorem list_keeps_authorization {c : ToolCall} {l : Replies} (hl : l.Alone) {σ σ' : Shared}
    {x : Except Exn TextContent} (hconfirmed : Confirmed σ c.threadId)
    (hlive : liveTokenOf (σ.get .oboToken c.threadId) σ.wall = .ok (some (.str c.token)))
    (htoken : c.token ≠ "") (h : Replays E (handleListMeetings E c) l σ x σ') :
    Keeps c.threadId σ σ' ↔ ¬ Declined c l := by
  have hobo : σ.store (.oboToken, c.threadId) ≠ none := by
    intro hn
    have hg : σ.get .oboToken c.threadId = none := by
      unfold Shared.get Expiring.get
      rw [hn]
    rw [hg] at hlive
    cases hlive
  by_cases hscope : requireScope c.scopes "list_meetings" = true
  · rw [Replays, list_requested E hscope hlive htoken] at h
    cases l with
    | nil => cases h
    | cons r l =>
      obtain ⟨reply, pass⟩ := r
      have hpass := hl.passes _ (.head _) σ
      cases reply with
      | failed | serviceToken =>
        cases h
        refine ⟨fun _ hd => ?_, fun _ => .of_store hpass.store⟩
        obtain ⟨_, _, _, ⟨⟩, -⟩ := hd.received
      | response resp =>
        obtain ⟨h₁, h₂⟩ := hconfirmed.later hpass
        obtain ⟨hs, rfl⟩ | ⟨hs, hcleared⟩ := finishList_ends E (σ := pass σ) h₁ h₂ h
        · refine ⟨fun _ hd => ?_, fun _ => .of_store hpass.store⟩
          obtain ⟨_, _, _, ⟨⟩, hd⟩ := hd.received
          exact hd hs
        · refine ⟨fun hk => ?_, fun hd => ?_⟩
          · exact absurd (hk.obo.symm.trans hcleared) hobo
          · exact absurd ⟨hscope, resp, pass, l, rfl, hs⟩ hd
  · unfold handleListMeetings at h
    rw [eq_false_of_ne_true hscope] at h
    cases h
    exact ⟨fun _ hd => hscope hd.scope, fun _ => .of_store rfl⟩

namespace Symbolic

/-- Thread `t` may commit the action `a` with the token `obo`, for an hour. -/
def committable (a : Action) : Shared :=
  ((Shared.start 0 0).set .flowState "t" (.str (FlowState.authorized a).value) 3600).set .oboToken "t"
    (.obj [("token", .str "obo"), ("expires_at", .num (.float 3600))]) 3600

/-- A call of a tool with the token `obo` and the scopes of all tools. -/
def confirmedCall : ToolCall where
  token := "obo"
  arguments := [("meeting_id", .str "m"), ("thread_id", .str "t")]
  scopes := ["list_meetings_agent", "create_meeting_agent", "update_meeting_agent",
    "delete_meeting_agent"]
  threadId := "t"
  agentName := .str "agent"

/-- A reply before any time passes. -/
def atOnce (r : Rep) : Replies := [(r, id)]

/-- A response with this status and no JSON in its body. -/
def answer (statusCode : Nat) : Replies := atOnce (.response ⟨statusCode, "", none⟩)

/-- During replies that come at once no other request acts. -/
theorem atOnce_alone (r : Rep) : (atOnce r).Alone where
  passes r hr s := by
    cases List.mem_singleton.1 hr
    exact ⟨s.monotonic, s.wall, le_refl _, rfl⟩

/-- The token of the confirmed call is alive. -/
theorem confirmedCall_live (a : Action) : liveTokenOf ((committable a).get .oboToken "t")
    (committable a).wall = .ok (some (.str confirmedCall.token)) := by
  cases a <;> decide +kernel

/-- The action of the example is authorized. -/
theorem committable_flow (a : Action) :
    flowStateOf ((committable a).get .flowState "t") = .authorized a := by
  cases a <;> decide +kernel

end Symbolic

open Symbolic in
/-- A deletion that the Business API carries out is finalized. -/
theorem commit_atomic_deleted :
    (Succeeds .delete confirmedCall (committable .delete) (answer 204) ∧
        Finalized "t" (committable .delete) ((committable .delete).finalize "t")) ∨
      (¬ Succeeds .delete confirmedCall (committable .delete) (answer 204) ∧
        ((committable .delete).finalize "t").store = (committable .delete).store) := by
  have hr : Requested .delete confirmedCall (committable .delete) :=
    ⟨by decide, committable_flow .delete, confirmedCall_live .delete, by decide⟩
  have h : Replays env (handleCommit Action.delete.commitTool confirmedCall) (answer 204)
      (committable .delete) (.ok (.json [("status", .str "deleted"), ("meeting_id", .str "m")]))
      ((committable .delete).finalize "t") := by
    rw [Replays, commit_requested env hr]
    rfl
  exact commit_atomic env .delete confirmedCall (atOnce_alone _) h

open Symbolic in
/-- Listing before an update, while the Business API cannot be reached. -/
theorem list_keeps_authorization_failed :
    Keeps "t" (committable .update) (committable .update) ↔ ¬ Declined confirmedCall (atOnce .failed) := by
  have h : Replays env (handleListMeetings env confirmedCall) (atOnce .failed) (committable .update)
      (.error .httpError) (committable .update) := by
    rw [Replays, list_requested env (by decide) (confirmedCall_live .update) (by decide)]
    rfl
  exact list_keeps_authorization env (atOnce_alone _) ⟨.update, .inl rfl, committable_flow .update⟩
    (confirmedCall_live .update) (by decide) h

open Symbolic in
/-- At status 503 listing gives up the authorization of an update. -/
theorem list_spends_authorization : ¬ ∀ (c : ToolCall) (l : Replies) (σ σ' : Shared)
    (x : Except Exn TextContent), l.Alone → Confirmed σ c.threadId →
    liveTokenOf (σ.get .oboToken c.threadId) σ.wall = .ok (some (.str c.token)) → c.token ≠ "" →
    Replays env (handleListMeetings env c) l σ x σ' → Keeps c.threadId σ σ' := by
  intro h
  have hr := list_requested env (c := confirmedCall) (by decide) (confirmedCall_live .update)
    (by decide) (answer 503)
  have hk := h confirmedCall (answer 503) (committable .update) _ _ (atOnce_alone _)
    ⟨.update, .inl rfl, committable_flow .update⟩ (confirmedCall_live .update) (by decide) (hr.trans rfl)
  cases hk.obo

end Teamspace.Agent
