import Teamspace.Agent.Symbolic
import Teamspace.Agent.Threads
import Teamspace.Lib.Interleaving

/-!
# The token in the context

`dispatch_tool` hands the token of a tool call over in the context variable `mcp_token_ctx`: it sets
the variable, awaits `call_tool`, which reads it, and resets it however that ends. Every task of the
event loop has a copy of the context of its own. So the token that a call is made with is the one
that its own `dispatch_tool` has selected, whatever other tasks do (`token_context_isolated`), and
the coroutine does what it does when the token is passed as an argument (`without_context`).
-/

namespace Teamspace.Agent

open Teamspace.Lib Teamspace.Py

/-! ## Coroutines in a context -/

/-- The operations of a coroutine, those on `mcp_token_ctx` among them. -/
inductive ContextOp
  | base (o : Op)
  /-- `mcp_token_ctx.get(None)`. -/
  | getToken
  /-- `mcp_token_ctx.set(token)`, which gives a handle that knows what the variable held. -/
  | setToken (token : Json)
  /-- `mcp_token_ctx.reset(handle)`. -/
  | resetToken (handle : Option Json)

/-- The answer to an operation. -/
abbrev ContextOp.Ans : ContextOp → Type
  | .base o => o.Ans
  | .getToken | .setToken _ => Option Json
  | .resetToken _ => Unit

/-- What ends a coroutine without a result. -/
inductive ContextExn
  | base (e : Exn)
  /-- `asyncio.CancelledError`, which no handler of the code catches. -/
  | cancelled

/-- The interface of the coroutines. Where one waits for a reply, its task may be cancelled
instead. -/
abbrev inContext : Interface where
  Op := ContextOp
  Ans := ContextOp.Ans
  Req := Req
  Rep := Option Rep
  Exn := ContextExn

namespace InContext

/-- A coroutine that does not look at the context. -/
def lift {α : Type} : Coro α → Program inContext α
  | .ret a => .ret a
  | .raise e => .raise (.base e)
  | .op o k => .op (.base o) fun a => lift (k a)
  | .await q k => .await q fun r => r.elim (.raise .cancelled) fun r => lift (k r)

/-- `mcp_token_ctx.get(None)`. -/
def getToken : Program inContext (Option Json) := .op .getToken .ret

/-- `mcp_token_ctx.set(token)`. -/
def setToken (token : Json) : Program inContext (Option Json) := .op (.setToken token) .ret

/-- `mcp_token_ctx.reset(handle)`. -/
def resetToken (handle : Option Json) : Program inContext Unit := .op (.resetToken handle) .ret

variable {Tok : Type} (E : Env Tok)

/-- `call_tool`, from where it reads the token. -/
def callTool (name : String) (arguments : Dict) : Program inContext TextContent := do
  let token ← getToken
  lift (Agent.callTool E (token.getD .null) name arguments)

/-- `dispatch_tool`. -/
def dispatchTool (name : String) (args : Dict) (threadId : String) : Program inContext Dict := do
  let token ← lift (toolToken E threadId)
  if !(token.getD .null).truthy then
    return [("status", .str "error"), ("message", .str "Agent authentication failed")]
  else
    let ctxToken ← setToken (token.getD .null)
    let content ← (callTool E name (Dict.set args "thread_id" (.str threadId))).finallyDo
      (resetToken ctxToken)
    return parseContent content

/-! ## Without the context -/

/-- The same coroutine in a task of its own, in whose context the variable starts as `context`: what
it does besides. -/
def without {α : Type} : Program inContext α → (context : Option Json) → Program inContext α
  | .ret a, _ => .ret a
  | .raise e, _ => .raise e
  | .op .getToken k, context => without (k context) context
  | .op (.setToken token) k, context => without (k context) (some token)
  | .op (.resetToken handle) k, _ => without (k ()) handle
  | .op (.base o) k, context => .op (.base o) fun a => without (k a) context
  | .await q k, context => .await q fun r => without (k r) context

/-- A coroutine that does not look at the context does the same in a task of its own. -/
theorem without_lift {α β : Type} (p : Coro α) (f : α → Program inContext β) (context : Option Json) :
    without (lift p >>= f) context = lift p >>= fun a => without (f a) context := by
  induction p with
  | ret a => rfl
  | raise e => rfl
  | op o k ih => exact congrArg (Program.op (I := inContext) (.base o)) (funext ih)
  | await q k ih =>
    change Program.await (I := inContext) q _ = .await q _
    congr 1
    funext r
    cases r with
    | none => rfl
    | some r => exact ih r

/-- After the variable is reset, what follows starts with what it was reset to. -/
theorem without_finally {α β : Type} (p : Coro α) (handle context : Option Json)
    (f : α → Program inContext β) :
    without ((lift p).finallyDo (resetToken handle) >>= f) context =
      lift p >>= fun a => without (f a) handle := by
  induction p with
  | ret a => rfl
  | raise e => rfl
  | op o k ih => exact congrArg (Program.op (I := inContext) (.base o)) (funext ih)
  | await q k ih =>
    change Program.await (I := inContext) q _ = .await q _
    congr 1
    funext r
    cases r with
    | none => rfl
    | some r => exact ih r

/-- Two coroutines that do not look at the context do not look at it together. -/
theorem lift_bind {α β : Type} (p : Coro α) (f : α → Coro β) :
    lift (p >>= f) = lift p >>= fun a => lift (f a) := by
  induction p with
  | ret a => rfl
  | raise e => rfl
  | op o k ih => exact congrArg (Program.op (I := inContext) (.base o)) (funext ih)
  | await q k ih =>
    change Program.await (I := inContext) q _ = .await q _
    congr 1
    funext r
    cases r with
    | none => rfl
    | some r => exact ih r

/-- In a task of its own, `dispatch_tool` does what it does when it passes the token as an
argument. -/
theorem without_context (name : String) (args : Dict) (threadId : String) (context : Option Json) :
    without (dispatchTool E name args threadId) context =
      lift (Agent.dispatchTool E name args threadId) := by
  unfold dispatchTool Agent.dispatchTool
  rw [without_lift, lift_bind]
  congr 1
  funext token
  split
  · rfl
  · rw [lift_bind]
    exact without_finally ..

end InContext

/-! ## Footprints -/

section

variable {P : Op → Prop} {Q : Req → Prop}

/-- A coroutine has the same footprint in a context. -/
theorem only_lift {α : Type} {p : Coro α} (h : Program.Only (I := interface) P Q p) :
    (InContext.lift p).Only (fun o : ContextOp => ∃ b, o = .base b ∧ P b) Q := by
  induction p with
  | ret a => trivial
  | raise e => trivial
  | op o k ih => exact ⟨⟨o, rfl, h.1⟩, fun a => ih a (h.2 a)⟩
  | await q k ih =>
    refine ⟨h.1, fun r => ?_⟩
    cases r with
    | none => trivial
    | some r => exact ih r (h.2 r)

end

/-- The request forwards no token to the Business API but this one. -/
def Req.Forwards (token : Json) (q : Req) : Prop :=
  ∀ method path t body, q = .businessApi method path t body → token = .str t

section

variable {Tok : Type} (E : Env Tok) {token : Json}

/-- What validates or forwards no token but this one. -/
abbrev Bears {α : Type} (token : Json) (p : Coro α) : Prop :=
  Program.Only (I := interface) (fun o => ∀ t, o = .validateMcpToken t → token = .str t)
    (Req.Forwards token) p

/-- A write of the store validates and forwards no token. -/
theorem bears_storeSet {n : Namespace} {k : String} {v : Json} {ttl : Nat} :
    Bears token (storeSet n k v ttl) := ⟨nofun, fun _ => trivial⟩

/-- Neither does a deletion. -/
theorem bears_storeDelete {n : Namespace} {k : String} : Bears token (storeDelete n k) :=
  ⟨nofun, fun _ => trivial⟩

/-- Neither does a read. -/
theorem bears_storeGet {n : Namespace} {k : String} : Bears token (storeGet n k) :=
  ⟨nofun, fun _ => trivial⟩

/-- Neither does `_fetch`. -/
theorem bears_fetch (n : Namespace) (t : String) : Bears token (fetch n t) :=
  .bind bears_storeGet fun _ => trivial

/-- Neither does `get_state`. -/
theorem bears_getState (t : String) : Bears token (getState t) := .bind bears_storeGet fun _ => trivial

/-- Neither does `get_agent_credentials`. -/
theorem bears_getAgentCredentials (t : String) : Bears token (getAgentCredentials t) :=
  .bind bears_storeGet fun _ => Program.only_ofExcept _

/-- Neither does `get_obo_token`. -/
theorem bears_getOboToken (t : String) : Bears token (getOboToken t) :=
  only_liveToken nofun nofun

/-- Neither does `clear_obo_tokens`. -/
theorem bears_clearOboTokens (t : String) : Bears token (clearOboTokens t) :=
  .bind bears_storeDelete fun _ => bears_storeDelete

/-- A call of the Business API forwards its own token. -/
theorem bears_callBusinessApi {method : Method} {path : Path} {t : String} {body : Option Json}
    (ht : token = .str t) : Bears token (callBusinessApi method path t body) := by
  refine only_http fun _ _ _ _ h => ?_
  cases h
  exact ht

/-- A listing that asks for authorization forwards no token. -/
theorem bears_requestListAuthorization (c : ToolCall) (message : String) :
    Bears token (requestListAuthorization E c message) := by
  refine .bind (bears_clearOboTokens _) fun _ => .bind (bears_getAgentCredentials _) fun _ => ?_
  exact .bind bears_storeSet fun _ => .bind bears_storeSet fun _ => trivial

/-- `list_meetings` forwards the token of the call. -/
theorem bears_handleListMeetings {c : ToolCall} (hc : token = .str c.token) :
    Bears token (handleListMeetings E c) := by
  unfold handleListMeetings
  split
  · trivial
  · refine .bind (bears_getOboToken _) fun oboToken => ?_
    split
    · exact bears_requestListAuthorization E c _
    · refine .bind (bears_callBusinessApi hc) fun resp => ?_
      split
      · refine .bind (bears_getState _) fun state => ?_
        split
        · refine .bind bears_storeSet fun _ => .bind (bears_clearOboTokens _) fun _ => ?_
          exact .bind (Program.only_ofExcept _) fun _ => trivial
        · exact .bind (Program.only_ofExcept _) fun _ => trivial
      · exact bears_requestListAuthorization E c _

/-- A preview forwards no token. -/
theorem bears_handlePreview (p : PreviewTool) (c : ToolCall) : Bears token (handlePreview E p c) := by
  unfold handlePreview
  split
  · trivial
  · refine .bind (bears_getAgentCredentials _) fun _ => .bind bears_storeSet fun _ => ?_
    exact .bind bears_storeSet fun _ => .bind bears_storeSet fun _ => trivial

/-- A commit forwards the token of the call. -/
theorem bears_handleCommit (p : CommitTool) {c : ToolCall} (hc : token = .str c.token) :
    Bears token (handleCommit p c) := by
  unfold handleCommit
  split
  · trivial
  · refine .bind (bears_getState _) fun state => .bind (bears_getOboToken _) fun oboToken => ?_
    split
    · trivial
    · refine .bind (bears_callBusinessApi hc) fun resp => ?_
      unfold finishCommit finalizeAction
      split
      · refine .bind ?_ fun _ => .bind (Program.only_ofExcept _) fun _ => trivial
        refine .bind bears_storeSet fun _ => .bind bears_storeDelete fun _ => ?_
        exact bears_clearOboTokens _
      · trivial

/-- Every tool forwards no token but that of the call. -/
theorem bears_handler {name : String} {handler : ToolCall → Coro TextContent}
    (hm : (name, handler) ∈ toolHandlers E) {c : ToolCall} (hc : token = .str c.token) :
    Bears token (handler c) := by
  refine forall_toolHandlers E (C := fun handler => Bears token (handler c)) ?_ ?_ ?_ hm
  · exact bears_handleListMeetings E hc
  · exact fun p => bears_handlePreview E p c
  · exact fun p => bears_handleCommit p hc

/-- The verification validates the token that it is given. -/
theorem bears_verifiedScopes (token : Json) : Bears token (verifiedScopes token) := by
  unfold verifiedScopes
  split
  · refine ⟨fun t h => ?_, fun r => ?_⟩
    · cases h
      rfl
    · change Except String Dict at r
      cases r <;> trivial
  · trivial

/-- A tool call validates and forwards the token that it is given. -/
theorem bears_callTool (token : Json) (name : String) (args : Dict) :
    Bears token (callTool E token name args) := by
  unfold callTool
  split
  · trivial
  · refine .bind (bears_verifiedScopes token) fun r => ?_
    split
    · trivial
    · split
      · refine .bind (.bind (bears_fetch _ _) fun _ => trivial) fun agentName => ?_
        split
        · trivial
        · next handler hlook => exact bears_handler E (mem_of_lookup hlook) rfl
      · trivial

end

/-! ## Tasks -/

/-- A call of `dispatch_tool` in a task of its own, with what the variable holds in the task's copy
of the context. -/
structure Dispatch where
  name : String
  args : Dict
  threadId : String
  context : Option Json

variable {Tok : Type} (E : Env Tok)

/-- What an operation does, in the context of the task that runs. -/
def execInContext : (o : ContextOp) → Option Json × Shared → o.Ans × (Option Json × Shared)
  | .base o, (context, σ) => ((exec E o σ).1, context, (exec E o σ).2)
  | .getToken, (context, σ) => (context, context, σ)
  | .setToken token, (context, σ) => (context, some token, σ)
  | .resetToken handle, (_, σ) => ((), handle, σ)

/-- Calls of `dispatch_tool`, each in its own task. While one waits, anything may happen to what the
service shares. -/
def dispatchTasks : Interleaving inContext (Option Json × Shared) (Option Json) Shared Dispatch Dict where
  env := {
    exec := execInContext E
    answers := fun _ w _ w' => w'.1 = w.1 }
  split := .refl _
  program d := InContext.dispatchTool E d.name d.args d.threadId
  starts d context := context = d.context

/-- `dispatch_tool` has selected this token for its thread, and set the variable to it. -/
def Selected (threadId : String) (acts : List (Act inContext)) (token : Json) : Prop :=
  ∃ later handle earlier, acts = later ++ .op (.setToken token) handle :: earlier ∧
    (InContext.lift (toolToken E threadId)).Performs earlier.reverse (.ok (some token))

/-- A token is only validated or forwarded if it has been selected. -/
def BearsSelected (d : Dispatch) (acts : List (Act inContext)) : ContextOp ⊕ Req → Prop
  | .inl (.base (.validateMcpToken t)) => Selected E d.threadId acts (.str t)
  | .inr (.businessApi _ _ t _) => Selected E d.threadId acts (.str t)
  | _ => True

variable {E} {d : Dispatch} {acts : List (Act inContext)}

/-- A token that was selected stays selected. -/
theorem Selected.cons {threadId : String} {token : Json} (h : Selected E threadId acts token)
    (x : Act inContext) : Selected E threadId (x :: acts) token := by
  obtain ⟨later, handle, earlier, rfl, hperforms⟩ := h
  exact ⟨x :: later, handle, earlier, rfl, hperforms⟩

/-- What does not look at the context leaves it. -/
theorem base_context {context : Option Json} {o : ContextOp} (ho : ∃ b, o = .base b) (σ : Shared) :
    (dispatchTasks E).own ((dispatchTasks E).env.exec o ((dispatchTasks E).world context σ)).2 =
      context := by
  obtain ⟨b, rfl⟩ := ho
  rfl

/-- The choice of a token validates and forwards none. -/
theorem toolToken_obeys :
    (dispatchTasks E).Obeys (BearsSelected E d) (InContext.lift (toolToken E d.threadId)) d.context []
      fun x context acts => context = d.context ∧
        (InContext.lift (toolToken E d.threadId)).Performs acts.reverse x := by
  have hallows : AllowsTools (fun o => ∀ t, o ≠ .validateMcpToken t) d.threadId := by
    constructor <;> intros <;> exact nofun
  have hconfig : AllowsConfig (fun o => ∀ t, o ≠ .validateMcpToken t) := by
    constructor <;> intros <;> exact nofun
  have hfoot := only_lift ((within_toolToken E hallows hconfig).and (toolToken_plain E d.threadId))
  refine (Interleaving.Obeys.performs (K := fun context => context = d.context) hfoot rfl ?_ ?_ ?_
    ?_).mono ?_
  · rintro h o ⟨b, rfl, hb, -⟩
    cases b with
    | validateMcpToken t => exact absurd rfl (hb t)
    | _ => trivial
  · rintro h q ⟨-, hq, -⟩
    cases q with
    | businessApi method path t body => exact absurd rfl (hq method path t body)
    | _ => trivial
  · rintro o _ σ ⟨b, ho, -⟩ rfl
    exact base_context ⟨b, ho⟩ σ
  · rintro q _ σ r w - rfl hr
    exact hr
  · rintro x context h ⟨hcontext, l, rfl, hperforms⟩
    rw [List.append_nil]
    exact ⟨hcontext, hperforms⟩

/-- With the selected token in the context, `call_tool` validates and forwards this one. -/
theorem callTool_obeys {token : Json} {name : String} {args : Dict}
    (h : Selected E d.threadId acts token) :
    (dispatchTasks E).Obeys (BearsSelected E d) (InContext.callTool E name args) (some token) acts
      fun _ _ _ => True := by
  refine ⟨trivial, fun σ => ?_⟩
  refine (Interleaving.Obeys.only (K := fun _ acts => Selected E d.threadId acts token)
    (only_lift (bears_callTool E token name args)) (h.cons _) ?_ ?_ ?_ ?_).mono fun _ _ _ _ => trivial
  · rintro _ acts o ⟨b, rfl, hb⟩ h
    cases b with
    | validateMcpToken t =>
      rw [hb t rfl] at h
      exact h
    | _ => trivial
  · intro _ acts q hq h
    cases q with
    | businessApi method path t body =>
      rw [hq method path t body rfl] at h
      exact h
    | _ => trivial
  · exact fun _ _ _ _ _ h => h.cons _
  · exact fun _ _ _ _ _ _ _ h _ => h.cons _

/-- `dispatch_tool` validates and forwards the token that it has selected, and leaves the variable
as it was. -/
theorem dispatchTool_obeys :
    (dispatchTasks E).Obeys (BearsSelected E d) (InContext.dispatchTool E d.name d.args d.threadId)
      d.context [] fun _ context _ => context = d.context := by
  refine Interleaving.Obeys.bind (toolToken_obeys.mono fun x context acts hx => ?_)
  obtain ⟨rfl, hperforms⟩ := hx
  cases x with
  | error e => rfl
  | ok token =>
    change (dispatchTasks E).Obeys _ (if _ then _ else _) _ _ _
    split
    · rfl
    · next htoken =>
      cases token with
      | none => exact absurd rfl htoken
      | some token =>
        refine ⟨trivial, fun σ => ?_⟩
        change (dispatchTasks E).Obeys _
          ((InContext.callTool E _ _).finallyDo (InContext.resetToken d.context) >>= _) (some token) _ _
        refine Interleaving.Obeys.keeping (K := fun context _ => context = d.context) ?_
          (fun _ _ _ h => h) fun _ _ _ h => h
        refine Interleaving.Obeys.finallyDo ((callTool_obeys ⟨[], _, acts, rfl, hperforms⟩).mono ?_)
        exact fun _ _ _ _ => ⟨trivial, fun _ => rfl⟩

/-- Whatever tasks run `dispatch_tool`, for whatever threads and tools and however they are
interleaved, the token that a call validates, and the one that it forwards, is the one that its own
`dispatch_tool` has selected for its thread; and when `dispatch_tool` ends, the variable holds what
it held before. -/
theorem token_context_isolated {σ : Shared}
    {c : Interleaving.Config inContext (Option Json) Shared Dispatch Dict}
    (hrun : (dispatchTasks E).Reachable σ c) :
    (∀ i d context t k, c.task i = some ⟨d, context, .op (.base (.validateMcpToken t)) k⟩ →
      Selected E d.threadId (Interleaving.actsOf i c.log) (.str t)) ∧
    (∀ i d context method path t body k,
      c.task i = some ⟨d, context, .await (.businessApi method path t body) k⟩ →
      Selected E d.threadId (Interleaving.actsOf i c.log) (.str t)) ∧
    ∀ i d x context, .ends i d x context ∈ c.log → context = d.context := by
  have hobedient : (dispatchTasks E).Obedient (BearsSelected E)
      (fun d _ context _ => context = d.context) c := by
    refine hrun.obedient fun d context hstarts => ?_
    obtain rfl : context = d.context := hstarts
    exact dispatchTool_obeys
  refine ⟨fun i d context t k hi => ?_, fun i d context method path t body k hi => ?_, ?_⟩
  · exact (hobedient.live i _ hi).1.1
  · exact (hobedient.live i _ hi).1.1
  · intro i d x context hends
    exact hobedient.ended hends

/-- The service while a delegated token for thread `t` is stored. -/
def authorizedThread : Shared :=
  (Shared.start 0 0).set .oboToken "t" (.obj [("token", .str "obo"), ("expires_at", .num (.int 60))]) 60

/-- A call on that thread, from a context in which the variable holds another token. -/
def nestedDispatch : Dispatch := ⟨"schedule_meeting_preview", [], "t", some (.str "other")⟩

/-- After the call, the variable holds the other token again. -/
theorem token_context_isolated_nested : ∃ c x context,
    (dispatchTasks Symbolic.env).Reachable authorizedThread c ∧
      .ends 0 nestedDispatch x context ∈ c.log ∧ context = some (.str "other") := by
  let unanswered (_ : Req) (w : Option Json × Shared) : Option Rep × (Option Json × Shared) := (none, w)
  have hanswers q w : (dispatchTasks Symbolic.env).env.answers q w (unanswered q w).1
      (unanswered q w).2 := rfl
  obtain ⟨l, hrun, -⟩ := Interleaving.serves (M := dispatchTasks Symbolic.env) (i := 0)
    _ ⟨authorizedThread, fun _ => none, []⟩ (List.forall_mem_nil _) (rfl : _ = nestedDispatch.context)
    rfl (fun _ _ _ _ h => h) (Environment.runs_run hanswers _ _)
  exact ⟨_, _, _, hrun, List.mem_cons_self,
    (token_context_isolated hrun).2.2 0 _ _ _ List.mem_cons_self⟩

end Teamspace.Agent
