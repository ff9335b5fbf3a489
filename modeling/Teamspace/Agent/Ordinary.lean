import Teamspace.Agent.Serves

/-!
# Requests that authorize nothing

Every request but `/authorize` and `/callback` is *ordinary*: it touches no PKCE verifier, stores no
delegated token, sets no authorized flow state and asks WSO2 IS for no delegated token
(`serve_ordinary`).
-/

namespace Teamspace.Agent

open Teamspace.Lib Teamspace.Py

variable {Tok : Type} (E : Env Tok)

/-- An operation that neither touches a verifier nor authorizes anything. -/
def Op.Ordinary : Op → Prop
  | .get n _ | .delete n _ => n ≠ .pkceVerifier
  | .set n _ v _ => n ≠ .pkceVerifier ∧ n ≠ .oboToken ∧
      (n = .flowState → (flowStateOf (some v)).isAuthorized = false)
  | _ => True

/-- An ordinary program. -/
abbrev Ordinary {α : Type} (p : Coro α) : Prop :=
  Program.Only (I := interface) Op.Ordinary (fun q => ¬ q.IsObo E) p

/-- A plain program is ordinary. -/
theorem ordinary_of_plain {α : Type} {p : Coro α} (h : Plain E p) : Ordinary E p := by
  refine h.mono (fun o ho => ?_) fun q hq => hq.2
  cases o with
  | get n k => exact ho
  | set n k v ttl =>
    refine ⟨?_, ?_, ?_⟩
    · rintro rfl; exact ho (.inr (.inr (.inr (.inl rfl))))
    · rintro rfl; exact ho (.inr (.inr (.inl rfl)))
    · rintro rfl; exact absurd (.inl rfl) ho
  | delete n k => exact fun hn => ho (.inr (.inr (.inr (.inl hn))))
  | _ => trivial

/-- A read of anything but a verifier is ordinary. -/
theorem storeGet_ordinary {n : Namespace} {k : String} (hn : n ≠ .pkceVerifier) :
    Ordinary E (storeGet n k) := ordinary_of_plain E (storeGet_plain E hn)

/-- A write that authorizes nothing is ordinary. -/
theorem put_ordinary {n : Namespace} {k : String} {v : Json}
    (hn : n ≠ .pkceVerifier ∧ n ≠ .oboToken ∧ n ≠ .flowState) :
    Ordinary E (put n k v) :=
  ⟨⟨hn.1, hn.2.1, fun h => absurd h hn.2.2⟩, fun _ => trivial⟩

/-- A state in which nothing is authorized is stored ordinarily. -/
theorem setState_ordinary (t : String) {s : FlowState} (hs : s.isAuthorized = false) :
    Ordinary E (setState t s) := by
  refine ⟨⟨by decide, by decide, fun _ => ?_⟩, fun _ => trivial⟩
  rw [flowStateOf_value]
  exact hs

/-- A deletion of anything but a verifier is ordinary. -/
theorem storeDelete_ordinary {n : Namespace} {k : String} (hn : n ≠ .pkceVerifier) :
    Ordinary E (storeDelete n k) := ⟨hn, fun _ => trivial⟩

/-- `get_state` is ordinary. -/
theorem getState_ordinary (t : String) : Ordinary E (getState t) :=
  Program.Only.bind (storeGet_ordinary E (by decide)) fun _ => trivial

/-- `clear_obo_tokens` is ordinary. -/
theorem clearOboTokens_ordinary (t : String) : Ordinary E (clearOboTokens t) :=
  Program.Only.bind (storeDelete_ordinary E (by decide)) fun _ => storeDelete_ordinary E (by decide)

/-- `/clear` is ordinary. -/
theorem clearThread_ordinary (t : String) : Ordinary E (clearThread t) := by
  refine Program.Only.bind (clearOboTokens_ordinary E t) fun _ => ?_
  refine Program.Only.bind (storeDelete_ordinary E (by decide)) fun _ => ?_
  suffices ∀ l : List Namespace, .pkceVerifier ∉ l →
      Ordinary E (l.forM fun n => storeDelete n t) from this allNamespaces (by decide)
  intro l
  induction l with
  | nil => exact fun _ => trivial
  | cons n l ih =>
    intro hn
    refine Program.Only.bind (storeDelete_ordinary E fun he => hn ?_) fun _ => ih fun hm => ?_
    · exact he ▸ .head _
    · exact hn (.tail _ hm)

/-- A call of the Business API is ordinary. -/
theorem businessApi_ordinary (method : Method) (path : Path) (token : String) (body : Option Json) :
    Ordinary E (callBusinessApi method path token body) := by
  refine only_http ?_
  rintro ⟨code, verifier, agentToken, h⟩
  cases h

/-- A listing that asks for authorization is ordinary. -/
theorem requestListAuthorization_ordinary (c : ToolCall) (message : String) :
    Ordinary E (requestListAuthorization E c message) := by
  refine Program.Only.bind (clearOboTokens_ordinary E _) fun _ => ?_
  refine Program.Only.bind (ordinary_of_plain E (getAgentCredentials_plain E _)) fun _ => ?_
  refine Program.Only.bind (setState_ordinary E _ rfl) fun _ => ?_
  exact Program.Only.bind (put_ordinary E (by decide)) fun _ => trivial

/-- `list_meetings` is ordinary. -/
theorem handleListMeetings_ordinary (c : ToolCall) : Ordinary E (handleListMeetings E c) := by
  unfold handleListMeetings
  split
  · trivial
  · refine Program.Only.bind (ordinary_of_plain E (liveToken_plain E (by decide))) fun token => ?_
    split
    · exact requestListAuthorization_ordinary E c _
    · refine Program.Only.bind (businessApi_ordinary E ..) fun resp => ?_
      split
      · refine Program.Only.bind (getState_ordinary E _) fun state => ?_
        split
        · refine Program.Only.bind (setState_ordinary E _ rfl) fun _ => ?_
          refine Program.Only.bind (clearOboTokens_ordinary E _) fun _ => ?_
          exact Program.Only.bind (Program.only_ofExcept _) fun _ => trivial
        · exact Program.Only.bind (Program.only_ofExcept _) fun _ => trivial
      · exact requestListAuthorization_ordinary E c _

/-- A preview is ordinary. -/
theorem handlePreview_ordinary (p : PreviewTool) (c : ToolCall) : Ordinary E (handlePreview E p c) := by
  unfold handlePreview
  split
  · trivial
  · refine Program.Only.bind (ordinary_of_plain E (getAgentCredentials_plain E _)) fun _ => ?_
    refine Program.Only.bind (setState_ordinary E _ rfl) fun _ => ?_
    refine Program.Only.bind (put_ordinary E (by decide)) fun _ => ?_
    exact Program.Only.bind (put_ordinary E (by decide)) fun _ => trivial

/-- A commit is ordinary. -/
theorem handleCommit_ordinary (p : CommitTool) (c : ToolCall) : Ordinary E (handleCommit p c) := by
  unfold handleCommit
  split
  · trivial
  · refine Program.Only.bind (getState_ordinary E _) fun state => ?_
    refine Program.Only.bind (ordinary_of_plain E (liveToken_plain E (by decide))) fun token => ?_
    split
    · trivial
    · refine Program.Only.bind (businessApi_ordinary E ..) fun resp => ?_
      unfold finishCommit
      split
      · refine Program.Only.bind ?_ fun _ => ?_
        · refine Program.Only.bind (setState_ordinary E _ rfl) fun _ => ?_
          exact Program.Only.bind (storeDelete_ordinary E (by decide)) fun _ => clearOboTokens_ordinary E _
        · exact Program.Only.bind (Program.only_ofExcept _) fun _ => trivial
      · trivial

/-- Every tool is ordinary. -/
theorem handler_ordinary {name : String} {handler : ToolCall → Coro TextContent}
    (hm : (name, handler) ∈ toolHandlers E) (c : ToolCall) : Ordinary E (handler c) := by
  refine forall_toolHandlers E (C := fun handler => Ordinary E (handler c)) ?_ ?_ ?_ hm
  · exact handleListMeetings_ordinary E c
  · exact fun p => handlePreview_ordinary E p c
  · exact fun p => handleCommit_ordinary E p c

/-- The verification of a token is ordinary. -/
theorem verifiedScopes_ordinary (token : Json) : Ordinary E (verifiedScopes token) := by
  unfold verifiedScopes
  split
  · refine ⟨trivial, fun r => ?_⟩
    change Except String Dict at r
    cases r <;> trivial
  · trivial

/-- `call_tool` is ordinary. -/
theorem callTool_ordinary (token : Json) (name : String) (args : Dict) :
    Ordinary E (callTool E token name args) := by
  unfold callTool
  split
  · trivial
  · refine Program.Only.bind (verifiedScopes_ordinary E token) fun r => ?_
    split
    · trivial
    · split
      · refine Program.Only.bind ?_ fun agentName => ?_
        · exact Program.Only.bind (Program.Only.bind (storeGet_ordinary E (by decide)) fun _ => trivial)
            fun _ => trivial
        split
        · trivial
        · next handler hlook => exact handler_ordinary E (mem_of_lookup hlook) _
      · trivial

/-- `dispatch_tool` is ordinary. -/
theorem dispatchTool_ordinary (name : String) (args : Dict) (t : String) :
    Ordinary E (dispatchTool E name args t) := by
  refine Program.Only.bind (ordinary_of_plain E (toolToken_plain E t)) fun token => ?_
  split
  · trivial
  · exact Program.Only.bind (callTool_ordinary E ..) fun _ => trivial

/-- The handlers of authorized states are ordinary. -/
theorem authorizedHandler_ordinary {state : FlowState} {guard : PendingGuard}
    {handler : String → Json → String → Coro Reply}
    (hm : (state, guard, handler) ∈ authorizedStateDispatch E) (t : String) (pending : Json)
    (language : String) : Ordinary E (handler t pending language) := by
  simp only [authorizedStateDispatch, List.mem_cons, Prod.mk.injEq, List.not_mem_nil,
    or_false] at hm
  obtain ⟨rfl, rfl, rfl⟩ | ⟨rfl, rfl, rfl⟩ | ⟨rfl, rfl, rfl⟩ | ⟨rfl, rfl, rfl⟩ := hm
  · refine Program.Only.bind (Program.only_ofExcept _) fun meetingId => ?_
    refine Program.Only.bind (dispatchTool_ordinary E ..) fun res => ?_
    split <;> trivial
  · refine Program.Only.bind (Program.only_ofExcept _) fun args => ?_
    refine Program.Only.bind (dispatchTool_ordinary E ..) fun res => ?_
    split
    · refine Program.Only.bind (Program.only_ofExcept _) fun meeting => ?_
      exact Program.Only.bind (Program.only_ofExcept _) fun topic => trivial
    · trivial
  · refine Program.Only.bind (Program.only_ofExcept _) fun args => ?_
    refine Program.Only.bind (dispatchTool_ordinary E ..) fun res => ?_
    split
    · refine Program.Only.bind (Program.only_ofExcept _) fun meetingId => ?_
      refine Program.Only.bind (Program.only_ofExcept _) fun topic => ?_
      split <;> trivial
    · trivial
  · refine Program.Only.bind (dispatchTool_ordinary E ..) fun res => ?_
    split
    · dsimp only
      split
      · exact Program.Only.bind (Program.only_ofExcept _) fun items => trivial
      · trivial
    · trivial

/-- So is the first handler of a list that fits, if all of them are. -/
theorem dispatchAuthorizedState_ordinary (state : FlowState) (t : String) (pending : Json)
    (language : String) :
    ∀ {es : List (FlowState × PendingGuard × (String → Json → String → Coro Reply))},
      (∀ e ∈ es, Ordinary E (e.2.2 t pending language)) →
      Ordinary E (dispatchAuthorizedState state t pending language es)
  | [], _ => trivial
  | (target, guard, handler) :: rest, h => by
    have hrest := dispatchAuthorizedState_ordinary state t pending language
      fun e he => h e (.tail _ he)
    unfold dispatchAuthorizedState
    split
    · refine Program.Only.bind (Program.only_ofExcept _) fun b => ?_
      split
      · exact Program.Only.bind (h _ (.head _)) fun _ => trivial
      · exact hrest
    · exact hrest

/-- `_handle_authorization_callback` is ordinary. -/
theorem handleAuthorizationCallback_ordinary (message t language : String) :
    Ordinary E (handleAuthorizationCallback E message t language) := by
  refine Program.Only.bind (getState_ordinary E t) fun state => ?_
  split
  · split
    · refine Program.Only.bind ?_ fun pending => ?_
      · exact Program.Only.bind (storeGet_ordinary E (by decide)) fun _ => trivial
      refine Program.Only.bind (dispatchAuthorizedState_ordinary E _ _ _ _ ?_) fun reply => ?_
      · rintro ⟨state, guard, handler⟩ he
        exact authorizedHandler_ordinary E he ..
      · cases reply <;> trivial
    · trivial
  · trivial

/-- Every request but `/authorize` and `/callback` is ordinary. -/
theorem serve_ordinary {j : Job Tok} (hauth : ∀ t action, j ≠ .authorize t action)
    (hcall : ∀ code state cookie, j ≠ .callback code state cookie) : Ordinary E (serve E j) := by
  cases j with
  | chat req =>
    exact Program.Only.bind (ordinary_of_plain E (prepareChat_plain E req)) fun _ => trivial
  | dispatch name args t => exact Program.Only.bind (dispatchTool_ordinary E ..) fun _ => trivial
  | mcp token name args => exact Program.Only.bind (callTool_ordinary E ..) fun _ => trivial
  | confirm message t language =>
    exact Program.Only.bind (handleAuthorizationCallback_ordinary E ..) fun _ => trivial
  | clear t => exact Program.Only.bind (clearThread_ordinary E t) fun _ => trivial
  | authorize t action => exact absurd rfl (hauth t action)
  | callback code state cookie => exact absurd rfl (hcall code state cookie)

end Teamspace.Agent
