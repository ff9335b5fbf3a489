import Teamspace.Agent.Main
import Teamspace.Lib.Trace

/-!
# The agent service as a system

The requests that the service serves, as the jobs of a system whose tasks share one store, and what
a history of it says. The tools that the model asks for during a chat are `dispatch` jobs: nothing
is assumed about which ones it asks for, or when. `lastSet` is the write that a read sees
(`get_eq_some_iff`), and `Calls` says which tool a task calls, with which arguments.
-/

namespace Teamspace.Agent

open Teamspace.Lib Teamspace.Py Teamspace.Lib.System

/-- A request to the agent service. -/
inductive Job (Tok : Type)
  /-- The preparation of `/chat` or `/chat/stream`. -/
  | chat (req : ChatRequest)
  /-- A tool call of the model. -/
  | dispatch (name : String) (args : Dict) (threadId : String)
  /-- A tool call of an external MCP client. -/
  | mcp (token name : String) (arguments : Dict)
  /-- A chat message, as far as the confirmation path handles it. -/
  | confirm (message threadId language : String)
  | authorize (threadId action : String)
  | callback (code : String) (state : Tok) (cookie : Option Tok)
  | clear (threadId : String)
  deriving DecidableEq

/-- What a request is answered. -/
inductive Outcome (Tok : Type)
  | context (c : ChatContext)
  | result (res : Dict)
  | content (c : TextContent)
  | reply (r : Option Reply)
  | page (p : Page Tok)
  | cleared

variable {Tok : Type} (E : Env Tok)

/-- The coroutine that serves a request. -/
def serve : Job Tok → Coro (Outcome Tok)
  | .chat req => return .context (← prepareChat E req)
  | .dispatch name args threadId => return .result (← dispatchTool E name args threadId)
  | .mcp token name arguments => return .content (← callTool E (.str token) name arguments)
  | .confirm message threadId language =>
    return .reply (← handleAuthorizationCallback E message threadId language)
  | .authorize threadId action => return .page (← initiateOauth E threadId action)
  | .callback code state cookie => return .page (← oauthCallback E code state cookie)
  | .clear threadId => do clearThread threadId; return .cleared

/-- The agent service. -/
def agentSystem : System where
  I := interface
  State := Shared
  Job := Job Tok
  Out := Outcome Tok
  exec := exec E
  program := serve E
  passes := Shared.Passes

/-- Worlds, entries and histories of the service. -/
abbrev AgentWorld := (agentSystem E).World
abbrev AgentEntry (Tok : Type) := Entry interface Shared (Job Tok) (Outcome Tok)
abbrev AgentEvent (Tok : Type) := Event interface (Job Tok) (Outcome Tok)

/-! ## What the store holds, by the history -/

/-- A write to the store: who made it, in which state, and what it wrote. -/
structure Write where
  task : Nat
  state : Shared
  value : Json
  ttl : Nat

/-- The entry that a write leaves. -/
def Write.lease (x : Write) : Lease Json :=
  ⟨x.value, if x.ttl = 0 then none else some (x.state.monotonic + x.ttl)⟩

/-- The write to entry `k` of namespace `n` that stands after a history, if there is one: the last
`set` there, unless a `delete` followed it. -/
def lastSet (n : Namespace) (k : String) : List (AgentEntry Tok) → Option Write
  | [] => none
  | x :: l =>
    match x.event with
    | .op (.set n' k' v ttl) _ =>
      if (n', k') = (n, k) then some ⟨x.task, x.state, v, ttl⟩ else lastSet n k l
    | .op (.delete n' k') _ => if (n', k') = (n, k) then none else lastSet n k l
    | _ => lastSet n k l

/-- The store holds what the history wrote. -/
theorem store_eq {m w₀ : Rat} {w : AgentWorld E}
    (hw : Consistent (S := agentSystem E) (Shared.start m w₀) w) (n : Namespace) (k : String) :
    w.state.store (n, k) = (lastSet n k w.log).map Write.lease := by
  induction hw with
  | start => rfl
  | @record w i e _ _ ih =>
    cases e with
    | op o a =>
      cases o with
      | set n' k' v ttl =>
        by_cases h : (n', k') = (n, k)
        · cases h
          simp [World.record, Event.after, lastSet, agentSystem, exec, Shared.set, Write.lease]
        · have := Expiring.put_of_ne w.state.store (Ne.symm h) v
            (if ttl = 0 then none else some (w.state.monotonic + ttl))
          simp only [World.record, lastSet, if_neg h, ← ih]
          exact this
      | delete n' k' =>
        by_cases h : (n', k') = (n, k)
        · cases h
          simp [World.record, Event.after, lastSet, agentSystem, exec, Shared.delete]
        · simp only [World.record, lastSet, if_neg h, ← ih]
          exact Expiring.erase_of_ne _ (Ne.symm h)
      | get | time | monotonic | tokenUrlsafe | validateMcpToken | cachedConfig | cacheConfig =>
        exact ih
    | spawn | send | recv | finish => exact ih
  | pass _ hp ih =>
    obtain ⟨m', w', -, rfl⟩ := hp
    exact ih

/-- A read sees the standing write while it has not expired. -/
theorem get_eq_some_iff {m w₀ : Rat} {w : AgentWorld E}
    (hw : Consistent (S := agentSystem E) (Shared.start m w₀) w) {n : Namespace} {k : String}
    {v : Json} : w.state.get n k = some v ↔ ∃ x, lastSet n k w.log = some x ∧ x.value = v ∧
      x.lease.live w.state.monotonic = true := by
  unfold Shared.get Expiring.get
  rw [store_eq E hw]
  cases lastSet n k w.log with
  | none => simp
  | some x => simp [Write.lease, and_comm]

/-- A write is the last one. -/
theorem lastSet_set_self (n : Namespace) (k : String) (i : Nat) (σ : Shared) (v : Json) (ttl : Nat)
    (l : List (AgentEntry Tok)) :
    lastSet n k (⟨i, σ, .op (.set n k v ttl) ()⟩ :: l) = some ⟨i, σ, v, ttl⟩ := if_pos rfl

/-- An entry that sets nothing there leaves the standing write, or removes it. -/
theorem lastSet_of_cons {n : Namespace} {k : String} {x : AgentEntry Tok}
    {l : List (AgentEntry Tok)} {y : Write} (h : lastSet n k (x :: l) = some y)
    (hx : ∀ v ttl a, x.event ≠ .op (.set n k v ttl) a) : lastSet n k l = some y := by
  unfold lastSet at h
  split at h
  · next n' k' v ttl a he =>
    split at h
    · next hk => cases hk; exact absurd he (hx v ttl a)
    · exact h
  · split at h
    · cases h
    · exact h
  · exact h

/-- What is read after an entry that set nothing there was written before it. -/
theorem lastSet_of_get {m w₀ : Rat} {w : AgentWorld E}
    (hw : Consistent (S := agentSystem E) (Shared.start m w₀) w) {x : AgentEntry Tok}
    {l : List (AgentEntry Tok)} (hl : w.log = x :: l) {n : Namespace} {k : String} {v : Json}
    (hv : w.state.get n k = some v) (hx : ∀ v ttl a, x.event ≠ .op (.set n k v ttl) a) :
    lastSet n k w.log = lastSet n k l := by
  obtain ⟨y, hy, -, -⟩ := (get_eq_some_iff E hw).1 hv
  rw [hy]
  rw [hl] at hy
  exact (lastSet_of_cons hy hx).symm

/-- An entry that does not write there leaves the standing write. -/
theorem lastSet_cons {n : Namespace} {k : String} {x : AgentEntry Tok} {l : List (AgentEntry Tok)}
    (hx : ∀ v ttl a, x.event ≠ .op (.set n k v ttl) a) (hd : ∀ a, x.event ≠ .op (.delete n k) a) :
    lastSet n k (x :: l) = lastSet n k l := by
  rw [lastSet]
  split
  · next n' k' v ttl a he =>
    split
    · next hk => cases hk; exact absurd he (hx v ttl a)
    · rfl
  · next n' k' a he =>
    split
    · next hk => cases hk; exact absurd he (hd a)
    · rfl
  · rfl

/-- An entry that writes entry `k` of namespace `n`. -/
def Writes (n : Namespace) (k : String) (x : AgentEntry Tok) : Prop :=
  (∃ v ttl a, x.event = .op (.set n k v ttl) a) ∨ ∃ a, x.event = .op (.delete n k) a

/-- The entry that made the standing write, above which nothing writes there. -/
theorem lastSet_split {n : Namespace} {k : String} {l : List (AgentEntry Tok)} {x : Write}
    (h : lastSet n k l = some x) : ∃ p l',
      l = p ++ ⟨x.task, x.state, .op (.set n k x.value x.ttl) ()⟩ :: l' ∧
        ∀ y ∈ p, ¬ Writes n k y := by
  induction l with
  | nil => cases h
  | cons y l ih =>
    by_cases hy : Writes n k y
    · obtain ⟨i, σ, e⟩ := y
      rcases hy with ⟨v, ttl, a, he⟩ | ⟨a, he⟩
      · cases he
        have h : some ⟨i, σ, v, ttl⟩ = some x := (lastSet_set_self n k i σ v ttl l).symm.trans h
        cases h
        exact ⟨[], l, rfl, fun z hz => absurd hz List.not_mem_nil⟩
      · cases he
        rw [lastSet] at h
        simp at h
    · rw [lastSet_cons (fun v ttl a he => hy (.inl ⟨v, ttl, a, he⟩))
        fun a he => hy (.inr ⟨a, he⟩)] at h
      obtain ⟨p, l', rfl, hp⟩ := ih h
      refine ⟨y :: p, l', rfl, fun z hz => ?_⟩
      rcases List.mem_cons.1 hz with rfl | hz
      · exact hy
      · exact hp z hz

/-- The entry of the history that made the standing write. -/
theorem lastSet_mem {n : Namespace} {k : String} {l : List (AgentEntry Tok)} {x : Write}
    (h : lastSet n k l = some x) :
    ⟨x.task, x.state, .op (.set n k x.value x.ttl) ()⟩ ∈ l := by
  obtain ⟨p, l', rfl, -⟩ := lastSet_split h
  exact List.mem_append_right _ (.head _)

/-! ## Who calls which tool -/

/-- Task `i` serves job `j`. -/
def Spawned (l : List (AgentEntry Tok)) (i : Nat) (j : Job Tok) : Prop :=
  ∃ σ, ⟨i, σ, .spawn j⟩ ∈ l

/-- The tool that previews an action. -/
def Action.previewName : Action → String
  | .book => "schedule_meeting_preview"
  | .update => "update_meeting_preview"
  | .delete => "delete_meeting_preview"

/-- The tool that commits an action. -/
def Action.commitName : Action → String
  | .book => "schedule_meeting"
  | .update => "update_meeting"
  | .delete => "delete_meeting"

/-- Each action has its own committing tool. -/
theorem Action.commitName_injective {a b : Action} (h : a.commitName = b.commitName) : a = b := by
  cases a <;> cases b <;> simp_all [Action.commitName]

/-- The committing tool of an action. -/
def Action.commitTool : Action → CommitTool
  | .book => scheduleMeeting
  | .update => updateMeeting
  | .delete => deleteMeeting

/-- The arguments with which the confirmation path commits a pending meeting. -/
def Action.confirmArgs (a : Action) (pending : Dict) : Dict :=
  match a with
  | .book | .update => pending
  | .delete => [("meeting_id", (Dict.get pending "meeting_id").getD .null)]

/-- The argument that a committing request takes from an argument dictionary. -/
def argOf (args : Dict) (k : String) : Json := (Dict.get args k).getD .null

/-- The committing request of an action, made of an argument dictionary. -/
def Action.request (a : Action) (args : Dict) (token : String) : Req :=
  match a with
  | .book => .businessApi .post .meetings token (some (.obj (Dict.without args "thread_id")))
  | .update => .businessApi .put (.meeting (argOf args "meeting_id")) token (some (.obj [
      ("topic", argOf args "topic"),
      ("date", argOf args "date"),
      ("start_time", argOf args "start_time"),
      ("duration", argOf args "duration"),
      ("time_zone", argOf args "time_zone")]))
  | .delete => .businessApi .delete (.meeting (argOf args "meeting_id")) token none

/-- The request of a committing tool is made of its arguments and its token. -/
theorem Action.request_eq (a : Action) (c : ToolCall) :
    a.commitTool.request c = a.request c.arguments c.token := by
  cases a <;> rfl

/-- The confirmation path asks for what is pending. -/
theorem Action.request_confirm (a : Action) (pending : Dict) (t token : String) :
    a.request (Dict.set (a.confirmArgs pending) "thread_id" (.str t)) token =
      a.request pending token := by
  have arg : ∀ (d : Dict) k, k ≠ "thread_id" →
      argOf (Dict.set d "thread_id" (.str t)) k = argOf d k := by
    intro d k hk
    rw [argOf, Dict.get_set_of_ne d hk, argOf]
  cases a with
  | book => simp only [Action.request, Action.confirmArgs, Dict.without_set]
  | update => simp (disch := decide) only [Action.request, Action.confirmArgs, arg]
  | delete =>
    simp (disch := decide) only [Action.request, Action.confirmArgs, arg]
    rfl

/-- Task `i` read the pending meeting of thread `t` while an action was authorized there. -/
def ReadPending (l : List (AgentEntry Tok)) (i : Nat) (t : String) (a : Action)
    (pending : Dict) : Prop :=
  ∃ σ, ⟨i, σ, .op (.get .pendingMeeting t) (some (.obj pending))⟩ ∈ l ∧
    flowStateOf (σ.get .flowState t) = .authorized a

/-- By history `l`, task `i` calls the tool `name` with `arguments`. -/
inductive Calls (l : List (AgentEntry Tok)) (i : Nat) : String → Dict → Prop
  | dispatch {name : String} {args : Dict} {t : String} : Spawned l i (.dispatch name args t) →
      Calls l i name (Dict.set args "thread_id" (.str t))
  | mcp {token name : String} {args : Dict} : Spawned l i (.mcp token name args) →
      Calls l i name args
  | confirm {message t language : String} {a : Action} {pending : Dict} :
      Spawned l i (.confirm message t language) → ReadPending l i t a pending →
      Calls l i a.commitName (Dict.set (a.confirmArgs pending) "thread_id" (.str t))
  | confirmList {message t language : String} : Spawned l i (.confirm message t language) →
      Calls l i "list_meetings" (Dict.set [] "thread_id" (.str t))

/-- A task that was spawned stays so. -/
theorem Spawned.mono {l l' : List (AgentEntry Tok)} {i : Nat} {j : Job Tok}
    (hl : l <:+ l') (h : Spawned l i j) : Spawned l' i j :=
  let ⟨σ, hσ⟩ := h
  ⟨σ, hl.subset hσ⟩

/-- What a task has read it has read. -/
theorem ReadPending.mono {l l' : List (AgentEntry Tok)} {i : Nat} {t : String}
    {a : Action} {d : Dict} (hl : l <:+ l') (h : ReadPending l i t a d) : ReadPending l' i t a d :=
  let ⟨σ, hσ, ha⟩ := h
  ⟨σ, hl.subset hσ, ha⟩

/-- A call stays one as the history grows. -/
theorem Calls.mono {l l' : List (AgentEntry Tok)} {i : Nat} {name : String} {args : Dict}
    (hl : l <:+ l') (h : Calls l i name args) : Calls l' i name args := by
  cases h with
  | dispatch hs => exact .dispatch (hs.mono hl)
  | mcp hs => exact .mcp (hs.mono hl)
  | confirm hs hp => exact .confirm (hs.mono hl) (hp.mono hl)
  | confirmList hs => exact .confirmList (hs.mono hl)

/-- The thread of a job, where it has one. -/
def Job.thread : Job Tok → Option String
  | .chat req => some req.threadId
  | .dispatch _ _ t | .confirm _ t _ | .authorize t _ | .clear t => some t
  | .mcp _ _ args => threadIdOf args
  | .callback .. => none

/-- The thread that was set is the thread of the arguments. -/
theorem threadIdOf_set (args : Dict) (t : String) :
    threadIdOf (Dict.set args "thread_id" (.str t)) = some t := by
  rw [threadIdOf, Dict.get_set_self]

/-- A call is made on the thread of its job. -/
theorem Calls.thread {l : List (AgentEntry Tok)} {i : Nat} {name : String} {args : Dict}
    (h : Calls l i name args) : ∃ j, Spawned l i j ∧ Job.thread j = threadIdOf args := by
  cases h with
  | dispatch hs => exact ⟨_, hs, (threadIdOf_set _ _).symm⟩
  | mcp hs => exact ⟨_, hs, rfl⟩
  | confirm hs _ => exact ⟨_, hs, (threadIdOf_set _ _).symm⟩
  | confirmList hs => exact ⟨_, hs, (threadIdOf_set _ _).symm⟩

/-- A task serves one job. -/
theorem Spawned.unique {σ : Shared} {c : (agentSystem E).Config} (hc : Preempted σ c) {i : Nat}
    {j j' : Job Tok} (h : Spawned c.world.log i j) (h' : Spawned c.world.log i j') : j = j' := by
  obtain ⟨s, hs⟩ := h
  obtain ⟨s', hs'⟩ := h'
  exact hc.spawn_unique hs hs'

/-! ## Reading a history -/

/-- An entry of a history is the newest one of a part of it. -/
theorem suffix_of_mem {α : Type} {x : α} {l : List α} (h : x ∈ l) : ∃ l', x :: l' <:+ l := by
  obtain ⟨l₁, l₂, rfl⟩ := List.append_of_mem h
  exact ⟨l₂, l₁, rfl⟩

/-- The task and the job that an entry starts. -/
def started (x : AgentEntry Tok) : Option (Nat × Job Tok) :=
  match x.event with
  | .spawn j => some (x.task, j)
  | _ => none

/-- A task that is listed as started was spawned. -/
theorem spawned_of_started {l : List (AgentEntry Tok)} {i : Nat} {j : Job Tok}
    (h : (i, j) ∈ l.filterMap started) : Spawned l i j := by
  obtain ⟨x, hx, hj⟩ := List.mem_filterMap.1 h
  obtain ⟨i', σ, e⟩ := x
  unfold started at hj
  split at hj
  · next j' he =>
    cases he
    cases hj
    exact ⟨σ, hx⟩
  · cases hj

/-- The request that an entry sends. -/
def sent (x : AgentEntry Tok) : Option Req :=
  match x.event with
  | .send q => some q
  | _ => none

/-- The state that an entry presents to `/callback`. -/
def presentedState (x : AgentEntry Tok) : Option Tok :=
  match x.event with
  | .spawn (.callback _ state _) => some state
  | _ => none

/-- The state that an entry issues. -/
def issuedState (x : AgentEntry Tok) : Option Tok :=
  match x.event with
  | .finish (.ok (.page (.redirect url _))) => some url.state
  | _ => none

/-- The task that an entry ends in the success page of `/callback`. -/
def endedAuthorized (x : AgentEntry Tok) : Option Nat :=
  match x.event with
  | .finish (.ok (.page .authorized)) => some x.task
  | _ => none

/-- A task that is listed as authorized has ended so. -/
theorem finish_of_endedAuthorized {l : List (AgentEntry Tok)} {k : Nat}
    (h : k ∈ l.filterMap endedAuthorized) : ∃ σ, ⟨k, σ, .finish (.ok (.page .authorized))⟩ ∈ l := by
  obtain ⟨⟨k', σ, e⟩, hmem, he⟩ := List.mem_filterMap.1 h
  unfold endedAuthorized at he
  split at he
  · next hp =>
    cases hp
    cases he
    exact ⟨σ, hmem⟩
  · cases he

/-- A history whose newest entry sends a request. -/
theorem eq_cons_of_sent {l : List (AgentEntry Tok)} {i : Nat} {q : Req}
    (h : (l.head?.map fun x => (x.task, sent x)) = some (i, some q)) :
    ∃ σ l', l = ⟨i, σ, .send q⟩ :: l' := by
  cases l with
  | nil => cases h
  | cons x l =>
    obtain ⟨j, σ, e⟩ := x
    simp only [List.head?_cons, Option.map_some, Option.some.injEq, Prod.mk.injEq] at h
    obtain ⟨rfl, h⟩ := h
    unfold sent at h
    split at h
    · next q' he =>
      cases he
      cases h
      exact ⟨σ, l, rfl⟩
    · cases h

end Teamspace.Agent
