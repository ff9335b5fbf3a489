import Teamspace.Agent.Serves
import Teamspace.Agent.Symbolic
import Teamspace.Lib.Blocks

/-!
# What a preview has stored

A preview stores the flow state of its thread, the pending meeting and the link at which the user
authorizes it, one after another; what finalizes or clears a thread deletes them so. No request of
the service gives up control in between (`Composed`), so whenever all tasks wait, a thread in the
state of a preview has the link for the action of this state, and the meeting of the preview that
was made last (`preview_coherent`). A preview tool that is refused previews nothing, and the preview
before it stands (`refused_call_is_last`).
-/

namespace Teamspace.Agent

open Teamspace.Lib Teamspace.Py Teamspace.Lib.System

variable {Tok : Type} (E : Env Tok)

/-! ## Previews -/

/-- The action that the tool of this name previews. -/
def previewedBy (name : String) : Option Action :=
  [Action.book, Action.update, Action.delete].find? fun a => a.previewName = name

@[simp] theorem previewedBy_previewName (a : Action) : previewedBy a.previewName = some a := by
  cases a <;> decide

/-- The action of a preview tool that a request calls on thread `t`, and its arguments. -/
def Job.preview (t : String) : Job Tok → Option (Action × Dict)
  | .dispatch name args threadId =>
    if threadId = t then
      (previewedBy name).map fun a => (a, Dict.set args "thread_id" (.str threadId))
    else none
  | .mcp _ name args =>
    if threadIdOf args = some t then (previewedBy name).map fun a => (a, args) else none
  | _ => none

/-- A flow state in which the user is shown a link. -/
def FlowState.isPreview : FlowState → Bool
  | .previewInitiated _ | .listPreviewInitiated => true
  | _ => false

/-- The entry with which a preview of `a` begins on thread `t`. -/
def Previews (t : String) (a : Action) (x : AgentEntry Tok) : Prop :=
  ∃ ttl, x.event = .op (.set .flowState t (.str (FlowState.previewInitiated a).value) ttl) ()

/-- The preview that was made last on thread `t` is one of `a`, for a request that calls its tool
with `args`. -/
def LastPreview (l : List (AgentEntry Tok)) (t : String) (a : Action) (args : Dict) : Prop :=
  ∃ later x earlier j, l = later ++ x :: earlier ∧ Previews t a x ∧ Spawned l x.task j ∧
    Job.preview t j = some (a, args) ∧ ∀ y ∈ later, ∀ b, ¬ Previews t b y

/-- The preview tool that was called last on thread `t`, with its arguments. -/
def lastCall (l : List (AgentEntry Tok)) (t : String) : Option (Action × Dict) :=
  (l.filterMap started).findSome? fun x => x.2.preview t

/-- The last preview stays the last while no other one is called. -/
theorem LastPreview.cons {l : List (AgentEntry Tok)} {t : String} {a : Action} {args : Dict}
    (h : LastPreview l t a args) {x : AgentEntry Tok} (hx : ∀ b, ¬ Previews t b x) :
    LastPreview (x :: l) t a args := by
  obtain ⟨later, y, earlier, j, rfl, hy, hj, hargs, hlater⟩ := h
  refine ⟨x :: later, y, earlier, j, rfl, hy, hj.mono (List.suffix_cons _ _), hargs, ?_⟩
  intro z hz
  rcases List.mem_cons.1 hz with rfl | hz
  · exact hx
  · exact hlater z hz

/-! ## What is written together -/

/-- An operation that previews nothing and leaves what a preview has stored. -/
def Op.Apart : Op → Prop
  | .set n _ v _ => n ≠ .pendingMeeting ∧ n ≠ .authUrl ∧
      (n = .flowState → (flowStateOf (some v)).isPreview = false)
  | .delete n _ => n ≠ .pendingMeeting ∧ n ≠ .authUrl
  | _ => True

/-- The operations that a request does without giving up control in between. `V` are the previews
that it may make. -/
inductive Composed (V : String → Action → Dict → Prop) : List Op → Prop
  | apart {o : Op} : o.Apart → Composed V [o]
  | preview {t : String} {a : Action} {args : Dict} : V t a args → Composed V [
      .set .flowState t (.str (FlowState.previewInitiated a).value) defaultTtlSeconds,
      .set .pendingMeeting t (.obj (Dict.without args "thread_id")) defaultTtlSeconds,
      .set .authUrl t (.str (getOboAuthorizationUrl E t a.name)) defaultTtlSeconds]
  | list {t : String} : Composed V [
      .set .flowState t (.str FlowState.listPreviewInitiated.value) defaultTtlSeconds,
      .set .authUrl t (.str (getOboAuthorizationUrl E t "list")) defaultTtlSeconds]
  | final {t : String} : Composed V [
      .set .flowState t (.str FlowState.initial.value) defaultTtlSeconds, .delete .pendingMeeting t]
  | reset {t : String} : Composed V [
      .delete .flowState t, .delete .pendingMeeting t, .delete .authUrl t]

/-- A program that does its operations so. -/
abbrev InBlocks {α : Type} (V : String → Action → Dict → Prop) (p : Coro α) : Prop :=
  Program.Blocks (I := interface) (Composed E V) p []

section
variable {V : String → Action → Dict → Prop}

/-- A plain operation is apart from previews. -/
theorem Op.Plain.apart {o : Op} (ho : o.Plain) : o.Apart := by
  cases o with
  | set n k v ttl =>
    refine ⟨?_, ?_, ?_⟩
    · rintro rfl; exact ho (.inr (.inl rfl))
    · rintro rfl; exact ho (.inr (.inr (.inr (.inr rfl))))
    · rintro rfl; exact absurd (.inl rfl) ho
  | delete n k =>
    refine ⟨?_, ?_⟩
    · rintro rfl; exact ho (.inr (.inl rfl))
    · rintro rfl; exact ho (.inr (.inr (.inr (.inr rfl))))
  | _ => trivial

/-- So a plain program consists of operations apart from previews. -/
theorem plain_blocks {α : Type} {p : Coro α} (h : Plain E p) : InBlocks E V p :=
  Program.Only.blocks (fun _ ho => .apart ho.apart) h

/-- An operation apart from previews is a block of its own. -/
theorem perform_blocks {o : Op} (ho : o.Apart) :
    InBlocks E V (Program.perform (I := interface) o) := .closes (.apart ho) fun _ => rfl

/-- A request of another service is a block of its own. -/
theorem http_blocks (q : Req) : InBlocks E V (http q) := by
  refine Program.Blocks.bind (p := Program.request q) ⟨rfl, fun _ => rfl⟩ fun r => ?_
  cases r <;> rfl

/-- `get_state` is a block of its own. -/
theorem getState_blocks (t : String) : InBlocks E V (getState t) :=
  plain_blocks E (Program.Only.bind (storeGet_plain E (by decide)) fun _ => trivial)

/-- A read of an entry is a block of its own. -/
theorem fetch_blocks {n : Namespace} (t : String) (hn : n ≠ .pkceVerifier) :
    InBlocks E V (fetch n t) :=
  plain_blocks E (Program.Only.bind (storeGet_plain E hn) fun _ => trivial)

/-- `get_agent_name` is a block of its own. -/
theorem getAgentName_blocks (t : String) : InBlocks E V (getAgentName t) :=
  Program.Blocks.bind (fetch_blocks E t (by decide)) fun _ => rfl

/-- A state that is none of a preview is stored in a block of its own. -/
theorem setState_blocks (t : String) {s : FlowState} (hs : s.isPreview = false) :
    InBlocks E V (setState t s) := by
  refine .closes (.apart ⟨by decide, by decide, fun _ => ?_⟩) fun _ => rfl
  rw [flowStateOf_value]
  exact hs

/-- A deletion that spares what previews store is a block of its own. -/
theorem storeDelete_blocks {n : Namespace} (k : String) (hn : n ≠ .pendingMeeting ∧ n ≠ .authUrl) :
    InBlocks E V (storeDelete n k) := .closes (.apart hn) fun _ => rfl

/-- `clear_obo_tokens` deletes nothing that previews store. -/
theorem clearOboTokens_blocks (t : String) : InBlocks E V (clearOboTokens t) :=
  Program.Blocks.bind (storeDelete_blocks E _ (by decide)) fun _ =>
    storeDelete_blocks E _ (by decide)

/-! ### Tools -/

/-- A listing that asks for authorization stores its link with its state, in one block. -/
theorem requestListAuthorization_blocks (c : ToolCall) (message : String) :
    InBlocks E V (requestListAuthorization E c message) := by
  refine Program.Blocks.bind (clearOboTokens_blocks E _) fun _ => ?_
  refine Program.Blocks.bind (plain_blocks E (getAgentCredentials_plain E _)) fun _ => ?_
  exact .opens fun _ => .closes .list fun _ => rfl

/-- `list_meetings` does nothing else with them. -/
theorem handleListMeetings_blocks (c : ToolCall) : InBlocks E V (handleListMeetings E c) := by
  unfold handleListMeetings
  split
  · rfl
  · refine Program.Blocks.bind (plain_blocks E (liveToken_plain E (by decide))) fun token => ?_
    split
    · exact requestListAuthorization_blocks E c _
    · refine Program.Blocks.bind (http_blocks E _) fun resp => ?_
      split
      · refine Program.Blocks.bind (getState_blocks E _) fun state => ?_
        split
        · refine Program.Blocks.bind (setState_blocks E _ rfl) fun _ => ?_
          refine Program.Blocks.bind (clearOboTokens_blocks E _) fun _ => ?_
          exact Program.Blocks.bind (Program.blocks_ofExcept _) fun _ => rfl
        · exact Program.Blocks.bind (Program.blocks_ofExcept _) fun _ => rfl
      · exact requestListAuthorization_blocks E c _

/-- A preview stores the meeting, the link and the state in one block. -/
theorem handlePreview_blocks {p : PreviewTool} {c : ToolCall}
    (hV : V c.threadId p.action c.arguments) : InBlocks E V (handlePreview E p c) := by
  unfold handlePreview
  split
  · rfl
  · refine Program.Blocks.bind (plain_blocks E (getAgentCredentials_plain E _)) fun _ => ?_
    -- the flow state, the pending meeting and the link
    exact .opens fun _ => .opens fun _ => .closes (.preview hV) fun _ => rfl

/-- A commit deletes the pending meeting after it has reset the state. -/
theorem handleCommit_blocks (p : CommitTool) (c : ToolCall) : InBlocks E V (handleCommit p c) := by
  unfold handleCommit
  split
  · rfl
  · refine Program.Blocks.bind (getState_blocks E _) fun state => ?_
    refine Program.Blocks.bind (plain_blocks E (liveToken_plain E (by decide))) fun token => ?_
    split
    · rfl
    · refine Program.Blocks.bind (http_blocks E _) fun resp => ?_
      unfold finishCommit
      split
      · refine Program.Blocks.bind ?_ fun _ => ?_
        · exact .opens fun _ => .closes .final fun _ => clearOboTokens_blocks E _
        · exact Program.Blocks.bind (Program.blocks_ofExcept _) fun _ => rfl
      · rfl

/-- Every tool consists of such blocks. -/
theorem handler_blocks {name : String} {handler : ToolCall → Coro TextContent}
    (hm : (name, handler) ∈ toolHandlers E) {c : ToolCall}
    (hV : ∀ a, previewedBy name = some a → V c.threadId a c.arguments) :
    InBlocks E V (handler c) := by
  simp only [toolHandlers, List.mem_cons, Prod.mk.injEq, List.not_mem_nil, or_false] at hm
  obtain ⟨rfl, rfl⟩ | ⟨rfl, rfl⟩ | ⟨rfl, rfl⟩ | ⟨rfl, rfl⟩ | ⟨rfl, rfl⟩ | ⟨rfl, rfl⟩ | ⟨rfl, rfl⟩ := hm
  · exact handleListMeetings_blocks E c
  · exact handlePreview_blocks E (p := scheduleMeetingPreview E)
      (hV _ (previewedBy_previewName .book))
  · exact handleCommit_blocks E _ c
  · exact handlePreview_blocks E (p := deleteMeetingPreview E)
      (hV _ (previewedBy_previewName .delete))
  · exact handleCommit_blocks E _ c
  · exact handlePreview_blocks E (p := updateMeetingPreview E)
      (hV _ (previewedBy_previewName .update))
  · exact handleCommit_blocks E _ c

/-- The verification of a token stores nothing. -/
theorem verifiedScopes_blocks (token : Json) : InBlocks E V (verifiedScopes token) := by
  unfold verifiedScopes
  split
  · refine .closes (.apart trivial) fun r => ?_
    change Except String Dict at r
    cases r <;> rfl
  · rfl

/-- `call_tool` consists of such blocks. -/
theorem callTool_blocks (token : Json) {name : String} {args : Dict}
    (hV : ∀ t a, threadIdOf args = some t → previewedBy name = some a → V t a args) :
    InBlocks E V (callTool E token name args) := by
  unfold callTool
  split
  · rfl
  · refine Program.Blocks.bind (verifiedScopes_blocks E token) fun r => ?_
    split
    · rfl
    · split
      · next t _ hthread _ =>
        refine Program.Blocks.bind (getAgentName_blocks E t) fun agentName => ?_
        split
        · rfl
        · next handler hlook =>
          exact handler_blocks E (mem_of_lookup hlook) fun a ha => hV t a hthread ha
      · rfl

/-- `dispatch_tool` consists of such blocks. -/
theorem dispatchTool_blocks {name : String} {args : Dict} {t : String}
    (hV : ∀ a, previewedBy name = some a → V t a (Dict.set args "thread_id" (.str t))) :
    InBlocks E V (dispatchTool E name args t) := by
  refine Program.Blocks.bind (plain_blocks E (toolToken_plain E t)) fun token => ?_
  split
  · rfl
  · refine Program.Blocks.bind (callTool_blocks E _ fun t' a ht => ?_) fun _ => rfl
    rw [threadIdOf_set] at ht
    cases ht
    exact hV a

/-! ### The confirmation path -/

/-- The confirmation path calls no preview tool. -/
theorem authorizedHandler_blocks {state : FlowState} {guard : PendingGuard}
    {handler : String → Json → String → Coro Reply}
    (hm : (state, guard, handler) ∈ authorizedStateDispatch E) (t : String) (pending : Json)
    (language : String) : InBlocks E V (handler t pending language) := by
  have hdispatch {name : String} (args : Dict) (hname : previewedBy name = none) :
      InBlocks E V (dispatchTool E name args t) :=
    dispatchTool_blocks E fun a ha => by
      rw [hname] at ha
      cases ha
  simp only [authorizedStateDispatch, List.mem_cons, Prod.mk.injEq, List.not_mem_nil,
    or_false] at hm
  obtain ⟨rfl, rfl, rfl⟩ | ⟨rfl, rfl, rfl⟩ | ⟨rfl, rfl, rfl⟩ | ⟨rfl, rfl, rfl⟩ := hm
  · refine Program.Blocks.bind (Program.blocks_ofExcept _) fun meetingId => ?_
    refine Program.Blocks.bind (hdispatch _ (by decide)) fun res => ?_
    split <;> rfl
  · refine Program.Blocks.bind (Program.blocks_ofExcept _) fun args => ?_
    refine Program.Blocks.bind (hdispatch _ (by decide)) fun res => ?_
    split
    · refine Program.Blocks.bind (Program.blocks_ofExcept _) fun meeting => ?_
      exact Program.Blocks.bind (Program.blocks_ofExcept _) fun topic => rfl
    · rfl
  · refine Program.Blocks.bind (Program.blocks_ofExcept _) fun args => ?_
    refine Program.Blocks.bind (hdispatch _ (by decide)) fun res => ?_
    split
    · refine Program.Blocks.bind (Program.blocks_ofExcept _) fun meetingId => ?_
      refine Program.Blocks.bind (Program.blocks_ofExcept _) fun topic => ?_
      split <;> rfl
    · rfl
  · refine Program.Blocks.bind (hdispatch _ (by decide)) fun res => ?_
    split
    · dsimp only
      split
      · exact Program.Blocks.bind (Program.blocks_ofExcept _) fun items => rfl
      · rfl
    · rfl

/-- So does the first handler of a list that fits, if all of them do. -/
theorem dispatchAuthorizedState_blocks (state : FlowState) (t : String) (pending : Json)
    (language : String) :
    ∀ {es : List (FlowState × PendingGuard × (String → Json → String → Coro Reply))},
      (∀ e ∈ es, InBlocks E V (e.2.2 t pending language)) →
      InBlocks E V (dispatchAuthorizedState state t pending language es)
  | [], _ => rfl
  | (target, guard, handler) :: rest, h => by
    have hrest := dispatchAuthorizedState_blocks state t pending language
      fun e he => h e (.tail _ he)
    unfold dispatchAuthorizedState
    split
    · refine Program.Blocks.bind (Program.blocks_ofExcept _) fun b => ?_
      split
      · exact Program.Blocks.bind (h _ (.head _)) fun _ => rfl
      · exact hrest
    · exact hrest

/-- `_handle_authorization_callback` consists of such blocks. -/
theorem handleAuthorizationCallback_blocks (message t language : String) :
    InBlocks E V (handleAuthorizationCallback E message t language) := by
  refine Program.Blocks.bind (getState_blocks E t) fun state => ?_
  split
  · split
    · refine Program.Blocks.bind (fetch_blocks E t (by decide)) fun pending => ?_
      refine Program.Blocks.bind (dispatchAuthorizedState_blocks E _ _ _ _ fun e he => ?_)
        fun reply => ?_
      · obtain ⟨state, guard, handler⟩ := e
        exact authorizedHandler_blocks E he _ _ _
      · cases reply <;> rfl
    · rfl
  · rfl

/-! ### Endpoints -/

/-- `/authorize` stores nothing of a preview. -/
theorem initiateOauth_blocks (t action : String) : InBlocks E V (initiateOauth E t action) := by
  refine Program.Blocks.bind (plain_blocks E (getAgentCredentials_plain E t)) fun credentials => ?_
  dsimp only
  split
  · rfl
  · refine Program.Blocks.bind (α := String) (perform_blocks E trivial) fun csrfToken => ?_
    split
    · rfl
    · refine Program.Blocks.bind (α := Rat) (perform_blocks E trivial) fun now => ?_
      split
      · rfl
      · refine Program.Blocks.bind ?_ fun url => Program.blocks_ofExcept _
        unfold getRealWso2AuthorizationUrl
        split
        · rfl
        · refine Program.Blocks.bind (clearOboTokens_blocks E t) fun _ => ?_
          refine Program.Blocks.bind (α := String) (perform_blocks E trivial) fun verifier => ?_
          exact .closes (.apart ⟨by decide, by decide, nofun⟩) fun _ => Program.blocks_ofExcept _

/-- `exchange_obo_code` stores nothing of a preview. -/
theorem exchangeOboCode_blocks (t code : String) (agentId agentSecret : Json) :
    InBlocks E V (exchangeOboCode E t code agentId agentSecret) := by
  refine Program.Blocks.bind (plain_blocks E (fetchAgentToken_plain E ..)) fun agentToken => ?_
  refine Program.Blocks.bind (α := Option Json) (perform_blocks E trivial) fun stored => ?_
  refine Program.Blocks.bind (storeDelete_blocks E t (by decide)) fun _ => ?_
  refine Program.Blocks.bind (http_blocks E _) fun resp => ?_
  refine Program.Blocks.bind (Program.blocks_ofExcept _) fun tokenData => ?_
  refine Program.Blocks.bind (Program.blocks_ofExcept _) fun token => ?_
  refine Program.Blocks.bind (plain_blocks E (only_entry trivial)) fun entry => ?_
  exact .closes (.apart ⟨by decide, by decide, nofun⟩) fun _ => rfl

/-- The end of an authorization stores a state that is none of a preview. -/
theorem completeOboAuthorization_blocks (t code : String) :
    InBlocks E V (completeOboAuthorization E t code) := by
  refine Program.Blocks.bind (plain_blocks E (getAgentCredentials_plain E _)) fun credentials => ?_
  refine Program.Blocks.tryCatch ?_ fun e => ?_
  · exact Program.Blocks.bind (exchangeOboCode_blocks E _ _ _ _) fun _ => rfl
  · cases e <;> rfl

/-- The state that an action is authorized in is none of a preview. -/
theorem actionToFlowState_isPreview (action : String) :
    (actionToFlowState action).isPreview = false := by
  unfold actionToFlowState
  split
  · rfl
  split
  · rfl
  split
  · rfl
  · rfl

/-- `/callback` consists of such blocks. -/
theorem oauthCallback_blocks (code : String) (state : Tok) (cookie : Option Tok) :
    InBlocks E V (oauthCallback E code state cookie) := by
  cases hk : E.settings.stateJwtSigningSecret with
  | error e =>
    unfold oauthCallback
    rw [hk]
    rfl
  | ok secret =>
    rw [oauthCallback_eq E hk]
    refine .closes (.apart trivial) fun now => ?_
    split
    · rfl
    · next t action _ =>
      refine Program.Blocks.bind (completeOboAuthorization_blocks E _ _) fun refused => ?_
      cases refused with
      | some kind => rfl
      | none =>
        have hflow := actionToFlowState_isPreview (action.getD "")
        exact Program.Blocks.bind (setState_blocks E t hflow) fun _ => rfl

/-- `/clear` deletes the pending meeting and the link after the state. -/
theorem clearThread_blocks (t : String) : InBlocks E V (clearThread t) := by
  refine Program.Blocks.bind (clearOboTokens_blocks E t) fun _ => ?_
  refine Program.Blocks.bind (storeDelete_blocks E t (by decide)) fun _ => ?_
  refine .opens fun _ => .opens fun _ => .closes .reset fun _ => ?_
  have hapart {n : Namespace} (hn : n ≠ .pendingMeeting ∧ n ≠ .authUrl) :
      Composed E V ([] ++ [.delete n t]) := .apart hn
  refine .closes (hapart (by decide)) fun _ => .closes (hapart (by decide)) fun _ => ?_
  exact .closes (hapart (by decide)) fun _ => rfl

end

/-- Every request of the service writes in blocks, and previews only what it calls the tool of. -/
theorem serve_blocks (j : Job Tok) :
    InBlocks E (fun t a args => j.preview t = some (a, args)) (serve E j) := by
  cases j with
  | chat req => exact Program.Blocks.bind (plain_blocks E (prepareChat_plain E req)) fun _ => rfl
  | dispatch name args threadId =>
    refine Program.Blocks.bind (dispatchTool_blocks E fun a ha => ?_) fun _ => rfl
    simp [Job.preview, ha]
  | mcp token name args =>
    refine Program.Blocks.bind (callTool_blocks E _ fun t a ht ha => ?_) fun _ => rfl
    simp [Job.preview, ht, ha]
  | confirm message t language =>
    exact Program.Blocks.bind (handleAuthorizationCallback_blocks E _ _ _) fun _ => rfl
  | authorize t action => exact Program.Blocks.bind (initiateOauth_blocks E t action) fun _ => rfl
  | callback code state cookie =>
    exact Program.Blocks.bind (oauthCallback_blocks E code state cookie) fun _ => rfl
  | clear t => exact Program.Blocks.bind (clearThread_blocks E t) fun _ => rfl

/-! ## Coherence -/

/-- The standing write to entry `t` of namespace `n` is `v`, made together with `x`: it expires when
`x` does. -/
def WrittenWith (l : List (AgentEntry Tok)) (t : String) (x : Write) (n : Namespace) (v : Json) :
    Prop :=
  ∃ y, lastSet n t l = some y ∧ y.value = v ∧ y.ttl = x.ttl ∧ y.state.monotonic = x.state.monotonic

/-- Beside the flow state of a preview on thread `t` stands what the preview has stored. -/
structure Coherent (l : List (AgentEntry Tok)) (t : String) : Prop where
  preview : ∀ x a, lastSet .flowState t l = some x →
    flowStateOf (some x.value) = .previewInitiated a → ∃ args, LastPreview l t a args ∧
      WrittenWith l t x .pendingMeeting (.obj (Dict.without args "thread_id")) ∧
      WrittenWith l t x .authUrl (.str (getOboAuthorizationUrl E t a.name))
  list : ∀ x, lastSet .flowState t l = some x →
    flowStateOf (some x.value) = .listPreviewInitiated →
      WrittenWith l t x .authUrl (.str (getOboAuthorizationUrl E t "list"))

/-- An event that previews nothing on thread `t` and leaves what a preview has stored there. -/
structure Spares (t : String) (e : AgentEvent Tok) : Prop where
  sets : ∀ n v ttl a, e = .op (.set n t v ttl) a → n ≠ .pendingMeeting ∧ n ≠ .authUrl ∧
    (n = .flowState → (flowStateOf (some v)).isPreview = false)
  deletes : ∀ n a, e = .op (.delete n t) a → n ≠ .pendingMeeting ∧ n ≠ .authUrl

section
variable {E} {l : List (AgentEntry Tok)} {t : String}

/-- What is no operation spares what a preview has stored. -/
theorem spares_of_no_op {e : AgentEvent Tok} (he : ∀ o a, e ≠ .op o a) : Spares t e where
  sets _ _ _ _ h := absurd h (he _ _)
  deletes _ _ h := absurd h (he _ _)

/-- An operation apart from previews spares it on every thread. -/
theorem Op.Apart.spares {o : Op} (ho : o.Apart) (a : o.Ans) :
    Spares t (.op o a : AgentEvent Tok) where
  sets n v ttl a h := by
    cases h
    exact ho
  deletes n a h := by
    cases h
    exact ho

/-- A write for another thread. -/
theorem spares_set {t' : String} (ht : t' ≠ t) {n : Namespace} {v : Json} {ttl : Nat} {a : Unit} :
    Spares t (.op (.set n t' v ttl) a : AgentEvent Tok) where
  sets _ _ _ _ h := by
    cases h
    exact absurd rfl ht
  deletes _ _ h := by cases h

/-- A deletion of another thread spares it. -/
theorem spares_delete {t' : String} (ht : t' ≠ t) {n : Namespace} {a : Unit} :
    Spares t (.op (.delete n t') a : AgentEvent Tok) where
  sets _ _ _ _ h := by cases h
  deletes _ _ h := by
    cases h
    exact absurd rfl ht

/-- What spares it leaves the standing write where it was. -/
theorem Spares.writtenWith {x : AgentEntry Tok} (hx : Spares t x.event) {y : Write} {n : Namespace}
    {v : Json} (hn : n = .pendingMeeting ∨ n = .authUrl) (h : WrittenWith l t y n v) :
    WrittenWith (x :: l) t y n v := by
  obtain ⟨z, hz, hzv⟩ := h
  refine ⟨z, ?_, hzv⟩
  rw [lastSet_cons (fun v ttl a he => ?_) fun a he => ?_, hz]
  · have hsets := hx.sets n v ttl a he
    exact hn.elim hsets.1 hsets.2.1
  · have hdeletes := hx.deletes n a he
    exact hn.elim hdeletes.1 hdeletes.2

/-- The flow state of a preview that stands after an event that previews nothing stood before. -/
theorem Spares.lastSet_flow {x : AgentEntry Tok} (hx : Spares t x.event) {y : Write}
    (h : lastSet .flowState t (x :: l) = some y) (hy : (flowStateOf (some y.value)).isPreview = true) :
    lastSet .flowState t l = some y := by
  refine lastSet_of_cons h fun v ttl a he => ?_
  obtain ⟨i, σ, e⟩ := x
  cases he
  cases (lastSet_set_self .flowState t i σ v ttl l).symm.trans h
  rw [(hx.sets _ _ _ _ rfl).2.2 rfl] at hy
  cases hy

/-- What spares it is no call of a preview. -/
theorem Spares.not_previews {x : AgentEntry Tok} (hx : Spares t x.event) (a : Action) :
    ¬ Previews t a x := by
  rintro ⟨ttl, he⟩
  have hflow := (hx.sets _ _ _ _ he).2.2 rfl
  rw [flowStateOf_value] at hflow
  cases hflow

/-- Coherence is kept by what spares the stored preview. -/
theorem Coherent.cons (h : Coherent E l t) {x : AgentEntry Tok} (hx : Spares t x.event) :
    Coherent E (x :: l) t where
  preview y a hy ha := by
    obtain ⟨args, hlast, hpending, hlink⟩ := h.preview y a (hx.lastSet_flow hy (by rw [ha]; rfl)) ha
    exact ⟨args, hlast.cons hx.not_previews, hx.writtenWith (.inl rfl) hpending,
      hx.writtenWith (.inr rfl) hlink⟩
  list y hy ha :=
    hx.writtenWith (.inr rfl) (h.list y (hx.lastSet_flow hy (by rw [ha]; rfl)) ha)

/-- A thread that is in no preview has nothing to be coherent with. -/
theorem Coherent.of_no_preview
    (h : ∀ x, lastSet .flowState t l = some x → (flowStateOf (some x.value)).isPreview = false) :
    Coherent E l t where
  preview x a hx ha := by
    have hflow := h x hx
    rw [ha] at hflow
    cases hflow
  list x hx ha := by
    have hflow := h x hx
    rw [ha] at hflow
    cases hflow

/-- A write to another namespace is not the last write. -/
theorem lastSet_set_of_ne {n n' : Namespace} (h : n' ≠ n) (i : Nat) (σ : Shared) (v : Json)
    (ttl : Nat) (a : Unit) :
    lastSet n t (⟨i, σ, .op (.set n' t v ttl) a⟩ :: l) = lastSet n t l :=
  if_neg fun he => h (Prod.mk.inj he).1

/-- A deletion in another namespace leaves the last write. -/
theorem lastSet_delete_of_ne {n n' : Namespace} (h : n' ≠ n) (i : Nat) (σ : Shared) (a : Unit) :
    lastSet n t (⟨i, σ, .op (.delete n' t) a⟩ :: l) = lastSet n t l :=
  if_neg fun he => h (Prod.mk.inj he).1

/-- After a deletion no write stands. -/
theorem lastSet_delete_self (n : Namespace) (i : Nat) (σ : Shared) (a : Unit) :
    lastSet n t (⟨i, σ, .op (.delete n t) a⟩ :: l) = none := if_pos rfl

/-- What a request does without giving up control keeps every thread coherent. -/
theorem Coherent.performs {w : AgentWorld E} {i : Nat} {j : Job Tok} {os : List Op}
    (hj : Spawned w.log i j) (hos : Composed E (fun t a args => j.preview t = some (a, args)) os)
    (h : Coherent E w.log t) : Coherent E (w.performs i os).log t := by
  have hmeeting : Namespace.pendingMeeting ≠ .flowState := by decide
  have hlink : Namespace.authUrl ≠ .flowState := by decide
  have hboth : Namespace.authUrl ≠ .pendingMeeting := by decide
  cases hos with
  | apart ho => exact h.cons (ho.spares _)
  | @preview t' a args hargs =>
    rcases eq_or_ne t' t with rfl | ht
    · have hflow {x : Write} (hx : lastSet .flowState t' (w.performs i [
          .set .flowState t' (.str (FlowState.previewInitiated a).value) defaultTtlSeconds,
          .set .pendingMeeting t' (.obj (Dict.without args "thread_id")) defaultTtlSeconds,
          .set .authUrl t' (.str (getOboAuthorizationUrl E t' a.name)) defaultTtlSeconds]).log =
            some x) : x = ⟨i, w.state, .str (FlowState.previewInitiated a).value, defaultTtlSeconds⟩ :=
        Option.some.inj (hx.symm.trans (((lastSet_set_of_ne hlink ..).trans
          (lastSet_set_of_ne hmeeting ..)).trans (lastSet_set_self ..)))
      refine ⟨fun x b hx hb => ?_, fun x hx hb => ?_⟩
      · cases hflow hx
        rw [flowStateOf_value] at hb
        cases hb
        refine ⟨args, ⟨[_, _], _, _, j, rfl, ⟨_, rfl⟩, ?_, hargs, ?_⟩, ?_, ?_⟩
        · exact hj.mono (((List.suffix_cons _ _).trans (List.suffix_cons _ _)).trans
            (List.suffix_cons _ _))
        · rintro y hy b ⟨ttl, he⟩
          rcases List.mem_cons.1 hy with rfl | hy
          · cases he
          · cases List.mem_singleton.1 hy
            cases he
        · exact ⟨_, (lastSet_set_of_ne hboth ..).trans (lastSet_set_self ..), rfl, rfl, rfl⟩
        · exact ⟨_, lastSet_set_self .., rfl, rfl, rfl⟩
      · cases hflow hx
        rw [flowStateOf_value] at hb
        cases hb
    · exact ((h.cons (spares_set ht)).cons (spares_set ht)).cons (spares_set ht)
  | @list t' =>
    rcases eq_or_ne t' t with rfl | ht
    · have hflow {x : Write} (hx : lastSet .flowState t' (w.performs i [
          .set .flowState t' (.str FlowState.listPreviewInitiated.value) defaultTtlSeconds,
          .set .authUrl t' (.str (getOboAuthorizationUrl E t' "list")) defaultTtlSeconds]).log =
            some x) : x = ⟨i, w.state, .str FlowState.listPreviewInitiated.value, defaultTtlSeconds⟩ :=
        Option.some.inj (hx.symm.trans ((lastSet_set_of_ne hlink ..).trans (lastSet_set_self ..)))
      refine ⟨fun x b hx hb => ?_, fun x hx hb => ?_⟩
      · cases hflow hx
        rw [flowStateOf_value] at hb
        cases hb
      · cases hflow hx
        exact ⟨_, lastSet_set_self .., rfl, rfl, rfl⟩
    · exact (h.cons (spares_set ht)).cons (spares_set ht)
  | @final t' =>
    rcases eq_or_ne t' t with rfl | ht
    · refine .of_no_preview fun x hx => ?_
      cases hx.symm.trans ((lastSet_delete_of_ne hmeeting ..).trans (lastSet_set_self ..))
      rw [flowStateOf_value]
      rfl
    · exact (h.cons (spares_set ht)).cons (spares_delete ht)
  | @reset t' =>
    rcases eq_or_ne t' t with rfl | ht
    · refine .of_no_preview fun x hx => ?_
      cases hx.symm.trans (((lastSet_delete_of_ne hlink ..).trans
        (lastSet_delete_of_ne hmeeting ..)).trans (lastSet_delete_self ..))
    · exact ((h.cons (spares_delete ht)).cons (spares_delete ht)).cons (spares_delete ht)

/-- Whenever all tasks wait, every thread is coherent. -/
theorem coherent {σ : Shared} {c : (agentSystem E).Config} (hc : System.Reachable σ c)
    (t : String) : Coherent E c.world.log t := by
  refine Reachable.blocks (serve_blocks E) (K := fun l => Coherent E l t) ?_ ?_ ?_ hc
  · exact .of_no_preview fun x hx => by cases hx
  · exact fun i j os w hj hos h => h.performs hj hos
  · exact fun x l hx h => h.cons (spares_of_no_op hx)

/-- What was written together is read together. -/
theorem WrittenWith.get {m w₀ : Rat} {w : AgentWorld E}
    (hw : Consistent (S := agentSystem E) (Shared.start m w₀) w) {x : Write} {n : Namespace}
    {v : Json} (h : WrittenWith w.log t x n v) (hx : x.lease.live w.state.monotonic = true) :
    w.state.get n t = some v := by
  obtain ⟨y, hy, hv, httl, htime⟩ := h
  refine (get_eq_some_iff E hw).2 ⟨y, hy, hv, ?_⟩
  unfold Lease.live Write.lease at hx ⊢
  rw [httl, htime]
  exact hx

/-- The flow state of a thread, where it is not the initial one, is that of the standing write. -/
theorem flow_written {m w₀ : Rat} {w : AgentWorld E}
    (hw : Consistent (S := agentSystem E) (Shared.start m w₀) w) {s : FlowState}
    (hs : flowStateOf (w.state.get .flowState t) = s) (hne : s ≠ .initial) :
    ∃ x, lastSet .flowState t w.log = some x ∧ flowStateOf (some x.value) = s ∧
      x.lease.live w.state.monotonic = true := by
  cases hv : w.state.get .flowState t with
  | none =>
    rw [hv] at hs
    exact absurd hs.symm hne
  | some v =>
    obtain ⟨x, hx, rfl, hlive⟩ := (get_eq_some_iff E hw).1 hv
    rw [hv] at hs
    exact ⟨x, hx, hs, hlive⟩

end

/-- Whenever all tasks wait, whatever requests run interleaved and whatever has expired: a thread in
the preview of an action has the link that asks to authorize this action, and the arguments of the
preview that was made last, which was one of this action, as its pending meeting; and a thread in
the preview of the list has the link for the list. -/
theorem preview_coherent {m w₀ : Rat} {c : (agentSystem E).Config}
    (hc : System.Reachable (Shared.start m w₀) c) (t : String) :
    (∀ a, flowStateOf (c.world.state.get .flowState t) = .previewInitiated a →
      ∃ args, LastPreview c.world.log t a args ∧
        c.world.state.get .pendingMeeting t = some (.obj (Dict.without args "thread_id")) ∧
        c.world.state.get .authUrl t = some (.str (getOboAuthorizationUrl E t a.name))) ∧
    (flowStateOf (c.world.state.get .flowState t) = .listPreviewInitiated →
      c.world.state.get .authUrl t = some (.str (getOboAuthorizationUrl E t "list"))) := by
  have hw := hc.preempted.consistent
  have hcoherent := coherent hc t
  refine ⟨fun a ha => ?_, fun hlist => ?_⟩
  · obtain ⟨x, hx, hflow, hlive⟩ := flow_written hw ha nofun
    obtain ⟨args, hlast, hpending, hlink⟩ := hcoherent.preview x a hx hflow
    exact ⟨args, hlast, hpending.get hw hlive, hlink.get hw hlive⟩
  · obtain ⟨x, hx, hflow, hlive⟩ := flow_written hw hlist nofun
    exact (hcoherent.list x hx hflow).get hw hlive

/-- A booking is previewed. -/
def previewRun : (agentSystem Symbolic.env).Config :=
  Symbolic.play (Symbolic.tool 0 "tok" "schedule_meeting_preview" (Symbolic.meeting "plan"))

/-- In `previewRun` the previewed booking stands with its arguments and its link. -/
theorem preview_coherent_book : ∃ args, LastPreview previewRun.world.log "t" .book args ∧
    previewRun.world.state.get .pendingMeeting "t" = some (.obj (Dict.without args "thread_id")) ∧
    previewRun.world.state.get .authUrl "t" =
      some (.str (getOboAuthorizationUrl Symbolic.env "t" "book")) :=
  (preview_coherent Symbolic.env (Symbolic.play_reachable _) "t").1 .book (by decide +kernel)

/-- A deployment in which one token may book, and every other one may only list. -/
def oneBooker : Env Symbolic.Tok := { Symbolic.env with
  validateMcpToken _ token := .ok [("scope", .str
    (if token = "booker" then "create_meeting_agent" else "list_meetings_agent"))] }

/-- A booking is previewed; a preview of an update is refused, since its token lacks the scope. -/
def refusedRun : (agentSystem oneBooker).Config :=
  [.spawn 0 (.mcp "booker" "schedule_meeting_preview"
      (("thread_id", .str "t") :: Symbolic.meeting "plan")),
    .spawn 1 (.mcp "reader" "update_meeting_preview"
      (("thread_id", .str "t") :: ("meeting_id", .str "m") :: Symbolic.meeting "plan"))].foldl Config.play
    (Config.start (Shared.start 0 0))

/-- The preview tool that was called last need not be the one whose preview stands. -/
theorem refused_call_is_last : ¬ ∀ (E : Env Symbolic.Tok) (m w₀ : Rat)
    (c : (agentSystem E).Config), System.Reachable (Shared.start m w₀) c → ∀ t, t ≠ "" → ∀ a,
      flowStateOf (c.world.state.get .flowState t) = .previewInitiated a →
      ∃ args, lastCall c.world.log t = some (a, args) ∧
        c.world.state.get .pendingMeeting t = some (.obj (Dict.without args "thread_id")) := by
  intro h
  have hreachable : System.Reachable (Shared.start 0 0) refusedRun := Reachable.play .refl _
  obtain ⟨args, hcall, -⟩ := h oneBooker 0 0 refusedRun hreachable "t" (by decide) .book
    (by decide +kernel)
  have hlast : (lastCall refusedRun.world.log "t").map Prod.fst = some .update := by decide +kernel
  rw [hcall] at hlast
  cases hlast

end Teamspace.Agent
