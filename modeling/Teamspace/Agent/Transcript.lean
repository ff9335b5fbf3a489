import Teamspace.Agent.ChatEndpoints
import Teamspace.Agent.ChatHistory
import Teamspace.Agent.ThreadIsolation
import Teamspace.Agent.ToolEffects
import Teamspace.Agent.ToolLoops
import Teamspace.Lib.Replay

/-!
# What the chat endpoints store

Requests to `/chat`, `/chat/stream` and `/clear`, one after the other. As long as no streamed run of
the model raises, and none outlives the entry that the user's message is in, every history
alternates, begins with the user, and ends with what the model answered
(`transcript_alternates`). A streamed run that raises leaves the user's message without an answer
(`stream_leaves_user`).
-/

namespace Teamspace.Agent

open Teamspace.Lib Teamspace.Py

variable {Tok : Type} {E : Env Tok} {G : Gemini E}

/-! ## What leaves the histories -/

/-- An operation that writes no history. -/
def Op.KeepsHistory : Op → Prop
  | .set n _ _ _ | .delete n _ => n ≠ .chatHistory
  | _ => True

/-- What keeps the histories suffices for the tools of every thread. -/
theorem allowsTools_keepsHistory (t : String) : AllowsTools Op.KeepsHistory t where
  get _ := trivial
  set _ _ _ h := h
  delete _ h := h
  getToken := trivial
  setToken _ _ := show Namespace.agentToken ≠ .chatHistory by decide
  default := trivial
  time := trivial
  tokenUrlsafe _ := trivial

/-- It suffices to look up the configuration of an agent. -/
theorem allowsConfig_keepsHistory : AllowsConfig Op.KeepsHistory where
  monotonic := trivial
  cached _ := trivial
  cache _ _ := trivial

/-- A program outside the store works within any operations. -/
theorem within_outside {P : Op → Prop} {α : Type} {p : Coro α} (h : Outside p) : Within P p :=
  h.mono (fun _ ho => ho.elim) fun _ _ => trivial

section
variable {P : Op → Prop} {generate : List Content → Coro (List Part)}
  {stream : List Content → Coro (List (List Part))} {dispatch : String → Dict → Coro Dict}

/-- The iterations of tool calls do what the model and the tools do. -/
theorem within_toolIterations (hgenerate : ∀ contents, Within P (generate contents))
    (hdispatch : ∀ name args, Within P (dispatch name args)) (n : Nat) (response : List Part)
    (messages : List Content) :
    Within P (toolIterations generate dispatch n response messages) := by
  induction n generalizing response messages with
  | zero => trivial
  | succ n ih =>
    cases response with
    | nil => trivial
    | cons part rest =>
      cases part with
      | functionCall fnCall =>
        rw [toolIterations_call]
        refine Program.Only.bind (hdispatch ..) fun toolResult => ?_
        exact Program.Only.bind (hgenerate _) fun response => ih ..
      | text | functionResponse | other => trivial

/-- So do those of a stream. -/
theorem within_streamIterations (hstream : ∀ contents, Within P (stream contents))
    (hdispatch : ∀ name args, Within P (dispatch name args)) (n : Nat) (messages : List Content) :
    Within P (streamIterations stream dispatch n messages) := by
  induction n generalizing messages with
  | zero => trivial
  | succ n ih =>
    refine Program.Only.bind (hstream _) fun responseStream => ?_
    dsimp only
    cases (consumeStreamForTextAndFn responseStream).2 with
    | none => trivial
    | some fnCall =>
      refine Program.Only.bind (hdispatch ..) fun toolResult => ?_
      exact Program.Only.bind (ih _) fun more => trivial

end

section
variable {P : Op → Prop} {t : String} (hP : AllowsTools P t) (hcfg : AllowsConfig P)
  (hv : ∀ token, P (.validateMcpToken token))

include hP hcfg hv

/-- A program that only calls tools works within what they do. -/
theorem CallsTools.within {α : Type} {p : Coro α} (h : CallsTools E t p) : Within P p := by
  induction h with
  | ret | raise => trivial
  | dispatch name args _ ih =>
    exact Program.Only.bind (within_dispatchTool E hP hcfg hv name args) ih

/-- A chat that has been prepared works on its own thread. -/
theorem within_answerAsk {req : Ask} (hreq : req.threadId = t) (history : List Json) :
    Within P (answerAsk G req history) := by
  subst hreq
  refine Program.Only.bind (within_handleAuthorizationCallback E hP hcfg hv ..) fun reply => ?_
  cases reply with
  | some reply => trivial
  | none =>
    dsimp only
    split
    · exact (G.mock_tools ..).within hP hcfg hv
    · split
      · trivial
      · refine Program.Only.bind (Program.only_ofExcept _) fun systemInstruction => ?_
        refine Program.Only.bind (Program.only_ofExcept _) fun messages => ?_
        have hgenerate (contents : List Content) :
            Within P (G.generate systemInstruction contents) :=
          within_outside (G.generate_outside ..)
        refine Program.Only.bind ?_ fun _ => trivial
        refine Program.Only.bind (hgenerate _) fun response => ?_
        exact within_toolIterations hgenerate
          (fun name args => within_dispatchTool E hP hcfg hv ..) ..

/-- So does a stream that has been prepared. -/
theorem within_streamAsk {req : Ask} (hreq : req.threadId = t) (history : List Json) :
    Within P (streamAsk G req history) := by
  subst hreq
  refine Program.Only.bind (within_handleAuthorizationCallback E hP hcfg hv ..) fun reply => ?_
  cases reply with
  | some reply => trivial
  | none =>
    dsimp only
    split
    · exact Program.Only.bind ((G.mock_tools ..).within hP hcfg hv) fun _ => trivial
    · split
      · trivial
      · refine Program.Only.bind (Program.only_ofExcept _) fun systemInstruction => ?_
        refine Program.Only.bind (Program.only_ofExcept _) fun messages => ?_
        have hstream (contents : List Content) :
            Within P (G.stream systemInstruction contents) :=
          within_outside (G.stream_outside ..)
        refine Program.Only.bind ?_ fun _ => trivial
        exact within_streamIterations hstream
          (fun name args => within_dispatchTool E hP hcfg hv ..) ..

end

/-- A chat that has been prepared keeps the histories until it says its answer. -/
theorem keeps_answerAsk (req : Ask) (history : List Json) :
    Within Op.KeepsHistory (answerAsk G req history) :=
  within_answerAsk (allowsTools_keepsHistory _) allowsConfig_keepsHistory (fun _ => trivial) rfl _

/-- So does a stream that has been prepared. -/
theorem keeps_streamAsk (req : Ask) (history : List Json) :
    Within Op.KeepsHistory (streamAsk G req history) :=
  within_streamAsk (allowsTools_keepsHistory _) allowsConfig_keepsHistory (fun _ => trivial) rfl _

/-- The metadata of a response are read from the thread. -/
theorem only_collectResponseMetadata (t : String) (obo agent : Option Json) :
    Program.Only (I := interface) Op.KeepsHistory (fun _ => False)
      (collectResponseMetadata t obo agent) := by
  have htoken (n : Namespace) (k : String) :
      Program.Only (I := interface) Op.KeepsHistory (fun _ => False) (liveToken n k) :=
    only_liveToken trivial trivial
  have hjwt : Program.Only (I := interface) Op.KeepsHistory (fun _ => False) (getAgentJwtRaw t) := by
    unfold getAgentJwtRaw
    refine Program.Only.bind (htoken ..) fun token => ?_
    split
    · exact htoken ..
    · trivial
  have hread (n : Namespace) :
      Program.Only (I := interface) Op.KeepsHistory (fun _ => False) (storeGet n t) :=
    only_storeGet trivial
  refine Program.Only.bind ?_ fun state => ?_
  · exact Program.Only.bind (Program.Only.bind (hread _) fun _ => trivial) fun _ => trivial
  dsimp only
  split
  · refine Program.Only.bind (Program.Only.bind (hread _) fun _ => trivial) fun url => ?_
    refine Program.Only.bind (htoken ..) fun token => ?_
    exact Program.Only.bind hjwt fun _ => trivial
  · refine Program.Only.bind (α := Option Json) trivial fun url => ?_
    refine Program.Only.bind (htoken ..) fun token => ?_
    exact Program.Only.bind hjwt fun _ => trivial

/-! ## Stages -/

/-- `σ'` has the histories of `σ`, and is not before it. -/
structure HistoryKept (σ σ' : Shared) : Prop where
  entry : ∀ t, σ'.store (.chatHistory, t) = σ.store (.chatHistory, t)
  later : σ.monotonic ≤ σ'.monotonic

/-- Histories that are kept twice are kept. -/
theorem HistoryKept.trans {σ σ' σ'' : Shared} (h : HistoryKept σ σ') (h' : HistoryKept σ' σ'') :
    HistoryKept σ σ'' := ⟨fun t => (h'.entry t).trans (h.entry t), h.later.trans h'.later⟩

/-- The passing of time keeps the histories. -/
theorem Shared.Passes.historyKept {σ σ' : Shared} (h : σ.Passes σ') : HistoryKept σ σ' := by
  obtain ⟨m, w, hm, rfl⟩ := h
  exact ⟨fun _ => rfl, hm⟩

/-- An operation does not move the clock. -/
theorem exec_monotonic (o : Op) (σ : Shared) : (exec E o σ).2.monotonic = σ.monotonic := by
  cases o <;> rfl

/-- An operation that keeps the histories does so when it is executed. -/
theorem exec_historyKept {o : Op} (ho : o.KeepsHistory) (σ : Shared) :
    HistoryKept σ (exec E o σ).2 := by
  refine ⟨fun t => ?_, (exec_monotonic o σ).ge⟩
  cases o with
  | set n k v ttl => exact σ.store_set_of_ne (fun h => ho (Prod.ext_iff.1 h).1.symm) v ttl
  | delete n k => exact Expiring.erase_of_ne _ fun h => ho (Prod.ext_iff.1 h).1.symm
  | get | time | monotonic | tokenUrlsafe | validateMcpToken | cachedConfig | cacheConfig => rfl

section
variable {α : Type} {p : Coro α} {l l' : Replies} {σ σ' : Shared} {x : Except Exn α}

/-- A stage that writes no history keeps them all. -/
theorem historyKept_of_within (hp : Within Op.KeepsHistory p) (hl : l.Alone)
    (h : p.runOn (exec E) l σ = some (x, l', σ')) : HistoryKept σ σ' := by
  refine hp.runOn_keeps (J := HistoryKept σ) (fun o s ho hs => ?_) (fun r hr s hs => ?_) h
    ⟨fun _ => rfl, le_rfl⟩
  · exact hs.trans (exec_historyKept ho s)
  · exact hs.trans (hl.passes r hr s).historyKept

/-- In a stage without a request no time passes. -/
theorem monotonic_of_only
    (hp : Program.Only (I := interface) Op.KeepsHistory (fun _ => False) p)
    (h : p.runOn (exec E) l σ = some (x, l', σ')) : σ'.monotonic = σ.monotonic := by
  induction p generalizing l σ with
  | ret a | raise e =>
    cases h
    rfl
  | op o k ih => exact (ih _ (hp.2 _) h).trans (exec_monotonic o σ)
  | await q k ih => exact hp.1.elim

/-- On no replies no time passes. -/
theorem monotonic_of_nil (h : p.runOn (exec E) [] σ = some (x, l', σ')) :
    l' = [] ∧ σ'.monotonic = σ.monotonic := by
  induction p generalizing σ with
  | ret a | raise e =>
    cases h
    exact ⟨rfl, rfl⟩
  | op o k ih => exact ⟨(ih _ h).1, (ih _ h).2.trans (exec_monotonic o σ)⟩
  | await q k ih => cases h

/-- Where no reply is awaited, no other request acts meanwhile. -/
theorem Replies.alone_nil : Replies.Alone [] := ⟨fun _ h => by cases h⟩

/-- Nor does one act during the rest of the replies. -/
theorem Replies.Alone.suffix (hl : l.Alone) (h : l' <:+ l) : l'.Alone :=
  ⟨fun r hr => hl.passes r (h.subset hr)⟩

end

/-! ## Transcripts -/

/-- The role of the entry at an index. -/
def roleAt (i : Nat) : String := if i % 2 = 0 then "user" else "assistant"

/-- A history of complete turns: it alternates, and begins with the user. -/
structure Alternating (items : List (String × String)) : Prop where
  length_le : items.length ≤ maxMessages
  complete : items.length % 2 = 0
  roles : ∀ i m, items[i]? = some m → m.1 = roleAt i

/-- A thread has these messages. -/
def Reads (σ : Shared) (t : String) (items : List (String × String)) : Prop :=
  historyOf (σ.get .chatHistory t) = .ok (items.map asMessage)

/-- What is stored under a thread is a transcript. -/
def TranscribedAt (σ : Shared) (t : String) : Prop :=
  ∀ e ∈ σ.store (.chatHistory, t), ∃ items : List (String × String),
    e.value = .arr (items.map asMessage) ∧ Alternating items

/-- Every history that is stored is a transcript. -/
def Transcribed (σ : Shared) : Prop := ∀ t, TranscribedAt σ t

/-- An empty transcript alternates. -/
theorem alternating_nil : Alternating [] := ⟨Nat.zero_le _, rfl, nofun⟩

/-- The history after a turn. -/
def turn (items : List (String × String)) (question answer : String) : List (String × String) :=
  ((items ++ [("user", question)]).rtake maxMessages ++ [("assistant", answer)]).rtake maxMessages

/-- A turn adds the question and the answer, and keeps the newest messages. -/
theorem turn_eq (items : List (String × String)) (question answer : String) :
    turn items question answer =
      (items ++ [("user", question), ("assistant", answer)]).rtake maxMessages := by
  rw [turn, rtake_concat_rtake (by decide), List.append_assoc]
  rfl

/-- Turns make transcripts: what is cut off at the front is a turn. -/
theorem Alternating.turn {items : List (String × String)} (h : Alternating items)
    (question answer : String) : Alternating (turn items question answer) := by
  have hle := h.length_le
  have hcomplete := h.complete
  rw [turn_eq, List.rtake]
  simp only [List.length_append, List.length_cons, List.length_nil, maxMessages] at hle ⊢
  refine ⟨?_, ?_, fun i m hm => ?_⟩
  · simp only [List.length_drop, List.length_append, List.length_cons, List.length_nil, maxMessages]
    omega
  · simp only [List.length_drop, List.length_append, List.length_cons, List.length_nil]
    omega
  · rw [List.getElem?_drop] at hm
    generalize hj : items.length + (0 + 1 + 1) - 50 + i = j at hm
    have hrole : roleAt i = roleAt j := by
      unfold roleAt
      rw [show j % 2 = i % 2 by omega]
    rw [hrole]
    rcases Nat.lt_or_ge j items.length with hlt | hge
    · rw [List.getElem?_append_left hlt] at hm
      exact h.roles j m hm
    · rw [List.getElem?_append_right hge] at hm
      obtain ⟨k, rfl⟩ := Nat.exists_eq_add_of_le hge
      rw [Nat.add_sub_cancel_left] at hm
      unfold roleAt
      cases k with
      | zero =>
        cases hm
        rw [if_pos (by omega)]
      | succ k =>
        cases k with
        | zero =>
          cases hm
          rw [if_neg (by omega)]
        | succ k => cases hm

/-- A turn ends with the answer. -/
theorem getLast?_turn (items : List (String × String)) (question answer : String) :
    (turn items question answer).getLast? = some ("assistant", answer) := by
  obtain ⟨n, hn⟩ : ∃ n, maxMessages = n + 1 := ⟨49, rfl⟩
  rw [turn, hn, List.rtake_concat_succ, List.getLast?_concat]

section
variable {σ σ' : Shared} {t : String} {items : List (String × String)}

/-- What a thread's history says depends on its own entry. -/
theorem TranscribedAt.of_entry (h : TranscribedAt σ t)
    (he : σ'.store (.chatHistory, t) = σ.store (.chatHistory, t)) : TranscribedAt σ' t := by
  unfold TranscribedAt
  rw [he]
  exact h

/-- Histories that are kept stay transcripts. -/
theorem Transcribed.kept (h : Transcribed σ) (hk : HistoryKept σ σ') : Transcribed σ' :=
  fun t => (h t).of_entry (hk.entry t)

/-- A transcript that is stored is read, until it expires. -/
theorem TranscribedAt.reads (h : TranscribedAt σ t) :
    ∃ items, Reads σ t items ∧ Alternating items := by
  unfold Reads Shared.get Expiring.get
  cases he : σ.store (.chatHistory, t) with
  | none => exact ⟨[], rfl, alternating_nil⟩
  | some e =>
    obtain ⟨items, hv, hitems⟩ := h e he
    dsimp only
    by_cases hlive : e.live σ.monotonic = true
    · refine ⟨items, ?_, hitems⟩
      rw [if_pos hlive, hv, historyOf_arr]
    · refine ⟨[], ?_, alternating_nil⟩
      rw [if_neg hlive]
      rfl

/-- A history is stored. -/
theorem transcribedAt_set (h : Alternating items) (ttl : Nat) :
    TranscribedAt (σ.set .chatHistory t (.arr (items.map asMessage)) ttl) t := by
  intro e he
  cases (Expiring.put_self σ.store _ _ _).symm.trans he
  exact ⟨items, rfl, h⟩

/-- What was stored is read until its time to live is over. -/
theorem reads_of_kept (hk : HistoryKept
      (σ.set .chatHistory t (.arr (items.map asMessage)) defaultTtlSeconds) σ')
    (htime : σ'.monotonic ≤ σ.monotonic + defaultTtlSeconds) : Reads σ' t items := by
  have he := (hk.entry t).trans (Expiring.put_self σ.store _ _ _)
  have hne : defaultTtlSeconds ≠ 0 := by decide
  rw [if_neg hne] at he
  have hlive : (Lease.mk (Json.arr (items.map asMessage))
      (some (σ.monotonic + defaultTtlSeconds))).live σ'.monotonic = true := decide_eq_true htime
  unfold Reads Shared.get Expiring.get
  rw [he]
  exact (congrArg historyOf (if_pos hlive)).trans (historyOf_arr _)

end

/-! ## Requests in stages -/

section
variable {α : Type} {t : String} {l l' : Replies} {σ σ' : Shared} {history : List Json}

/-- `get_history` gives the history that is stored. -/
theorem runOn_getHistory (h : historyOf (σ.get .chatHistory t) = .ok history)
    (f : List Json → Coro α) :
    (getHistory t >>= f).runOn (exec E) l σ = (f history).runOn (exec E) l σ := by
  change (ofExcept (historyOf (σ.get .chatHistory t)) >>= f).runOn (exec E) l σ = _
  rw [h]
  rfl

/-- `add_message` stores the history with the message. -/
theorem runOn_addMessage (h : historyOf (σ.get .chatHistory t) = .ok history)
    (role content : String) (f : Coro α) :
    (addMessage t role content >>= fun _ => f).runOn (exec E) l σ =
      f.runOn (exec E) l (σ.set .chatHistory t
        (.arr (appendMessage history role content)) defaultTtlSeconds) := by
  unfold addMessage
  rw [bind_assoc, runOn_getHistory h]
  rfl

/-- Appending a message to a transcript keeps the newest messages of it. -/
theorem appendMessage_eq (items : List (String × String)) (role content : String) :
    appendMessage (items.map asMessage) role content =
      ((items ++ [(role, content)]).rtake maxMessages).map asMessage := by
  rw [map_rtake, List.map_append]
  rfl

/-- What the preparation of a chat leaves, if it does not raise. -/
structure Prepared (req : Ask) (σ σ' : Shared) (ctx : ChatContext)
    (items : List (String × String)) : Prop where
  alternating : Alternating items
  context : ctx.history = items.map asMessage
  stored : ∃ σ₀, HistoryKept σ σ₀ ∧ σ' = σ₀.set .chatHistory req.threadId
    (.arr (((items ++ [("user", req.message)]).rtake maxMessages).map asMessage)) defaultTtlSeconds

/-- `_prepare_chat` fails and keeps the histories, or adds the user's message to a history. -/
theorem prepareChat_stages {req : Ask} (hσ : Transcribed σ) (hl : l.Alone)
    {x : Except Exn ChatContext}
    (h : (prepareChat E req.toChatRequest).runOn (exec E) l σ = some (x, l', σ')) :
    (∃ e, x = .error e ∧ HistoryKept σ σ') ∨
      ∃ ctx items, x = .ok ctx ∧ Prepared req σ σ' ctx items := by
  rw [prepareChat_eq] at h
  have htokens : Within Op.KeepsHistory (chatTokens E req.toChatRequest) :=
    within_chatTokens E (allowsTools_keepsHistory req.threadId) rfl
  obtain ⟨e, he, rfl⟩ | ⟨tokens, l₀, σ₀, h₀, h⟩ := Program.runOn_bind h
  · exact .inl ⟨e, rfl, historyKept_of_within htokens hl he⟩
  · have hk : HistoryKept σ σ₀ := historyKept_of_within htokens hl h₀
    obtain ⟨items, hread, hitems⟩ := (hσ.kept hk req.threadId).reads
    rw [runOn_getHistory hread, runOn_addMessage hread, appendMessage_eq] at h
    cases h
    exact .inr ⟨_, items, rfl, hitems, rfl, σ₀, hk, rfl⟩

/-- After a model run, its text is added, and no time passes until the response is there. -/
theorem finishChat_stages {ctx : ChatContext} {text : String} {items : List (String × String)}
    (hread : Reads σ t items) (hl : l.Alone) {x : Except Exn (String × ResponseMetadata)}
    (h : (finishChat t ctx text).runOn (exec E) l σ = some (x, l', σ')) :
    HistoryKept (σ.set .chatHistory t
        (.arr (((items ++ [("assistant", text)]).rtake maxMessages).map asMessage))
        defaultTtlSeconds) σ' ∧
      σ'.monotonic = σ.monotonic ∧ ∀ r, x = .ok r → r.1 = text := by
  unfold finishChat at h
  rw [runOn_addMessage hread, appendMessage_eq] at h
  have hcollect := only_collectResponseMetadata t ctx.initialOboJwt ctx.initialAgentJwt
  have hwithin : Within Op.KeepsHistory
      (collectResponseMetadata t ctx.initialOboJwt ctx.initialAgentJwt) :=
    hcollect.mono (fun _ ho => ho) fun _ _ => trivial
  obtain ⟨e, he, rfl⟩ | ⟨metadata, l₁, σ₁, h₁, h⟩ := Program.runOn_bind h
  · exact ⟨historyKept_of_within hwithin hl he, (monotonic_of_only hcollect he).trans rfl, nofun⟩
  · cases h
    exact ⟨historyKept_of_within hwithin hl h₁, (monotonic_of_only hcollect h₁).trans rfl, by
      rintro _ ⟨⟩
      rfl⟩

/-- A whole turn: the message is stored, the model runs, and its text is stored. -/
theorem turn_stages {req : Ask} {ctx : ChatContext} {items : List (String × String)}
    {σ₁ σ₂ : Shared} {text : String} (hσ : Transcribed σ) (hl : l.Alone)
    (hprepared : Prepared req σ σ₁ ctx items) (hrun : HistoryKept σ₁ σ₂)
    (htime : σ₂.monotonic ≤ σ₁.monotonic + defaultTtlSeconds)
    {x : Except Exn (String × ResponseMetadata)}
    (h : (finishChat req.threadId ctx text).runOn (exec E) l σ₂ = some (x, l', σ')) :
    Transcribed σ' ∧ Reads σ' req.threadId (turn items req.message text) ∧
      ∀ r, x = .ok r → r.1 = text := by
  obtain ⟨σ₀, hk, rfl⟩ := hprepared.stored
  have hread : Reads σ₂ req.threadId ((items ++ [("user", req.message)]).rtake maxMessages) :=
    reads_of_kept hrun htime
  obtain ⟨hk', hmono, htext⟩ := finishChat_stages hread hl h
  have hturn := hprepared.alternating.turn req.message text
  refine ⟨fun t => ?_, reads_of_kept hk' ?_, htext⟩
  · by_cases ht : t = req.threadId
    · subst ht
      exact (transcribedAt_set hturn _).of_entry (hk'.entry _)
    · -- The entries of the other threads are those before the turn.
      have hne : (Namespace.chatHistory, t) ≠ (Namespace.chatHistory, req.threadId) :=
        fun h => ht (Prod.ext_iff.1 h).2
      refine ((hσ t).of_entry ((hk.entry t))).of_entry ((hk'.entry t).trans ?_)
      rw [Shared.store_set_of_ne _ hne, hrun.entry, Shared.store_set_of_ne _ hne]
  · rw [hmono]
    exact le_add_of_nonneg_right (Nat.cast_nonneg _)

end

/-! ## Conversations -/

/-- A request that reads or writes a history. -/
inductive ChatJob
  | chat (req : Ask)
  | chatStream (req : Ask)
  | clear (threadId : String)
  deriving DecidableEq, Repr

variable (G)

/-- What serves a request, by the text that it answers with. -/
def serveChat : ChatJob → Coro (Option String)
  | .chat req => do return some (← G.chat req).1
  | .chatStream req => do return (← G.chatStream req).map Prod.fst
  | .clear threadId => do
    clearThread threadId
    return none

/-- In a request on these replies, this run of the model ends with `x`, so long after the
preparation of the chat. -/
def ModelRun {α : Type} (req : Ask) (run : List Json → Coro α) (l : Replies) (σ : Shared)
    (x : Except Exn α) (elapsed : Rat) : Prop :=
  ∃ ctx l₁ σ₁ l₂ σ₂, (prepareChat E req.toChatRequest).runOn (exec E) l σ = some (.ok ctx, l₁, σ₁) ∧
    (run ctx.history).runOn (exec E) l₁ σ₁ = some (x, l₂, σ₂) ∧ elapsed = σ₂.monotonic - σ₁.monotonic

/-- The model runs within the time to live of the history, and a streamed run does not raise. -/
structure Completes (j : ChatJob) (l : Replies) (σ : Shared) : Prop where
  chat : ∀ req, j = .chat req → ∀ x elapsed, ModelRun (E := E) req (answerAsk G req) l σ x elapsed →
    elapsed ≤ defaultTtlSeconds
  chatStream : ∀ req, j = .chatStream req → ∀ x elapsed,
    ModelRun (E := E) req (streamAsk G req) l σ x elapsed →
      elapsed ≤ defaultTtlSeconds ∧ ∃ chunks, x = .ok chunks

/-- The states after requests that are served one after the other and complete, from an empty
store. -/
inductive Conversation : Shared → Prop
  | start (monotonic wall : Rat) : Conversation (Shared.start monotonic wall)
  | pass {σ σ' : Shared} : Conversation σ → σ.Passes σ' → Conversation σ'
  | serve {σ σ' : Shared} {j : ChatJob} {l l' : Replies} {x : Except Exn (Option String)} :
      Conversation σ → l.Alone → Completes G j l σ →
      (serveChat G j).runOn (exec E) l σ = some (x, l', σ') → Conversation σ'

variable {G}

section
variable {σ σ' : Shared} {l l' : Replies} {x : Except Exn (Option String)}

/-- What a completed turn leaves. -/
structure Answered (req : Ask) (σ' : Shared) (x : Except Exn (Option String)) : Prop where
  transcribed : Transcribed σ'
  answered : ∀ text, x = .ok text → ∃ answer items, text = some answer ∧
    Reads σ' req.threadId items ∧ Alternating items ∧ items.getLast? = some ("assistant", answer)

/-- A chat whose preparation raises leaves the histories. -/
theorem answered_of_error {req : Ask} {e : Exn} (hσ : Transcribed σ) (hk : HistoryKept σ σ') :
    Answered req σ' (.error e) := ⟨hσ.kept hk, nofun⟩

/-- A chat that is prepared, answered in time and finished. -/
theorem answered_of_run {req : Ask} {ctx : ChatContext} {items : List (String × String)}
    {σ₁ σ₂ : Shared} {text : String} (hσ : Transcribed σ) (hl : l.Alone)
    (hprepared : Prepared req σ σ₁ ctx items) (hrun : HistoryKept σ₁ σ₂)
    (htime : σ₂.monotonic - σ₁.monotonic ≤ defaultTtlSeconds)
    (h : (finishChat req.threadId ctx text >>= fun r => pure (some r.1) :
      Coro (Option String)).runOn (exec E) l σ₂ = some (x, l', σ')) : Answered req σ' x := by
  have htime := sub_le_iff_le_add'.1 htime
  obtain ⟨e, he, rfl⟩ | ⟨r, l₃, σ₃, h₃, h⟩ := Program.runOn_bind h
  · exact ⟨(turn_stages hσ hl hprepared hrun htime he).1, nofun⟩
  · obtain ⟨htranscribed, hread, htext⟩ := turn_stages hσ hl hprepared hrun htime h₃
    cases h
    refine ⟨htranscribed, ?_⟩
    rintro _ ⟨⟩
    exact ⟨r.1, _, rfl, hread, hprepared.alternating.turn .., htext r rfl ▸ getLast?_turn ..⟩

/-- A chat that is served alone leaves its question and its answer. -/
theorem chat_answered {req : Ask} (hσ : Transcribed σ) (hl : l.Alone)
    (hj : Completes G (.chat req) l σ)
    (h : (serveChat G (.chat req)).runOn (exec E) l σ = some (x, l', σ')) :
    Answered req σ' x := by
  rw [serveChat, Gemini.chat, bind_assoc] at h
  obtain ⟨e, he, rfl⟩ | ⟨ctx, l₁, σ₁, h₁, h⟩ := Program.runOn_bind h
  · obtain ⟨_, -, hk⟩ | ⟨_, _, hx, -⟩ := prepareChat_stages hσ hl he
    · exact answered_of_error hσ hk
    · cases hx
  obtain ⟨_, hx, -⟩ | ⟨_, items, hx, hprepared⟩ := prepareChat_stages hσ hl h₁
  · cases hx
  cases hx
  have hl₁ := hl.suffix (Program.runOn_suffix h₁)
  -- The model run ends with a text, or its exception is answered with one.
  have hanswer {y : Except Exn String} {l₂ : Replies} {σ₂ : Shared} {text : String}
      (hy : (answerAsk G req ctx.history).runOn (exec E) l₁ σ₁ = some (y, l₂, σ₂))
      (h : (finishChat req.threadId ctx text >>= fun r => pure (some r.1) :
        Coro (Option String)).runOn (exec E) l₂ σ₂ = some (x, l', σ')) : Answered req σ' x :=
    answered_of_run hσ (hl₁.suffix (Program.runOn_suffix hy)) hprepared
      (historyKept_of_within (keeps_answerAsk req ctx.history) hl₁ hy)
      (hj.chat req rfl y _ ⟨ctx, l₁, σ₁, l₂, σ₂, h₁, hy, rfl⟩) h
  rw [bind_assoc] at h
  obtain ⟨e, he, rfl⟩ | ⟨text, l₂, σ₂, h₂, h⟩ := Program.runOn_bind h
  · obtain ⟨_, -, hx⟩ | ⟨_, _, _, -, hx⟩ := Program.runOn_tryCatch he <;> cases hx
  · obtain ⟨_, hy, hx⟩ | ⟨e, _, _, hy, hx⟩ := Program.runOn_tryCatch h₂
    · cases hx
      exact hanswer hy h
    · cases hx
      exact hanswer hy h

/-- A stream that completes leaves its question and its answer. -/
theorem chatStream_answered {req : Ask} (hσ : Transcribed σ) (hl : l.Alone)
    (hj : Completes G (.chatStream req) l σ)
    (h : (serveChat G (.chatStream req)).runOn (exec E) l σ = some (x, l', σ')) :
    Answered req σ' x := by
  rw [serveChat, Gemini.chatStream, bind_assoc] at h
  obtain ⟨e, he, rfl⟩ | ⟨ctx, l₁, σ₁, h₁, h⟩ := Program.runOn_bind h
  · obtain ⟨_, -, hk⟩ | ⟨_, _, hx, -⟩ := prepareChat_stages hσ hl he
    · exact answered_of_error hσ hk
    · cases hx
  obtain ⟨_, hx, -⟩ | ⟨_, items, hx, hprepared⟩ := prepareChat_stages hσ hl h₁
  · cases hx
  cases hx
  have hl₁ := hl.suffix (Program.runOn_suffix h₁)
  unfold streamGenerator at h
  rw [bind_assoc] at h
  obtain ⟨e, he, rfl⟩ | ⟨chunks, l₂, σ₂, h₂, h⟩ := Program.runOn_bind h
  · obtain ⟨_, -, hx⟩ | ⟨_, _, _, -, hx⟩ := Program.runOn_tryCatch he <;> cases hx
  · obtain ⟨_, hy, hx⟩ | ⟨e, _, _, hy, hx⟩ := Program.runOn_tryCatch h₂
    · cases hx
      obtain ⟨e, he, hx⟩ | ⟨chunks, l₃, σ₃, hy, h₃⟩ := Program.runOn_bind hy
      · cases hx
      · cases h₃
        have htime := (hj.chatStream req rfl _ _ ⟨ctx, l₁, σ₁, _, _, h₁, hy, rfl⟩).1
        dsimp only at h
        rw [bind_assoc] at h
        exact answered_of_run hσ (hl₁.suffix (Program.runOn_suffix hy)) hprepared
          (historyKept_of_within (keeps_streamAsk req ctx.history) hl₁ hy) htime h
    · -- A streamed run does not raise.
      cases hx
      obtain ⟨e', he, hx⟩ | ⟨chunks, l₃, σ₃, hy, h₃⟩ := Program.runOn_bind hy
      · obtain ⟨-, chunks, hc⟩ := hj.chatStream req rfl _ _ ⟨ctx, l₁, σ₁, _, _, h₁, he, rfl⟩
        cases hc
      · cases h₃

/-- A deletion leaves the other histories transcripts. -/
theorem Transcribed.delete (hσ : Transcribed σ) (n : Namespace) (t : String) :
    Transcribed (σ.delete n t) := by
  intro t' e he
  by_cases hk : (Namespace.chatHistory, t') = (n, t)
  · cases hk
    cases (Expiring.erase_self σ.store _).symm.trans he
  · exact hσ t' e ((Expiring.erase_of_ne σ.store hk).symm.trans he)

/-- Clearing a thread removes entries. -/
theorem clear_transcribed {t : String} (hσ : Transcribed σ)
    (h : (serveChat G (.clear t)).runOn (exec E) l σ = some (x, l', σ')) : Transcribed σ' := by
  rw [serveChat] at h
  cases h
  iterate 9 refine Transcribed.delete ?_ _ _
  exact hσ

/-- Completed requests leave transcripts. -/
theorem serveChat_transcribed {j : ChatJob} (hσ : Transcribed σ) (hl : l.Alone)
    (hj : Completes G j l σ) (h : (serveChat G j).runOn (exec E) l σ = some (x, l', σ')) :
    Transcribed σ' := by
  cases j with
  | chat req => exact (chat_answered hσ hl hj h).transcribed
  | chatStream req => exact (chatStream_answered hσ hl hj h).transcribed
  | clear t => exact clear_transcribed hσ h

/-- After a conversation every history is a transcript. -/
theorem Conversation.transcribed (hσ : Conversation G σ) : Transcribed σ := by
  induction hσ with
  | start => exact fun _ => nofun
  | pass _ hp ih => exact ih.kept hp.historyKept
  | serve _ hl hj h ih => exact serveChat_transcribed ih hl hj h

/-! ## What the model is asked -/

/-- The content of a stored message. -/
def contentOf (m : String × String) : Content :=
  ⟨if m.1 = "user" then "user" else "model", [.text m.2]⟩

/-- A stored message is given to the model as one content. -/
theorem historyContent_asMessage (m : String × String) :
    historyContent (asMessage m) = .ok (contentOf m) := by
  have hrole : (asMessage m).getItem "role" = .ok (.str m.1) := rfl
  have hcontent : (asMessage m).getItem "content" = .ok (.str m.2) := rfl
  unfold historyContent contentOf
  rw [hrole, hcontent]
  change Except.ok _ = _
  simp only [Json.str.injEq]

/-- The model is given the transcript and then the question. -/
theorem historyToContents_items (items : List (String × String)) (question : String) :
    historyToContents (items.map asMessage) question =
      .ok (items.map contentOf ++ [⟨"user", [.text question]⟩]) := by
  have hmap : (items.map asMessage).mapM historyContent = .ok (items.map contentOf) := by
    induction items with
    | nil => rfl
    | cons m items ih =>
      rw [List.map_cons, List.mapM_cons, historyContent_asMessage, ih]
      rfl
  unfold historyToContents
  rw [hmap]
  rfl

/-- The contents for a transcript alternate, and the last one is the user's. -/
theorem Alternating.contents {items : List (String × String)} (h : Alternating items)
    (question : String) {i : Nat} {c : Content}
    (hc : (items.map contentOf ++ [⟨"user", [.text question]⟩])[i]? = some c) :
    c.role = if i % 2 = 0 then "user" else "model" := by
  have hcomplete := h.complete
  rcases Nat.lt_or_ge i (items.map contentOf).length with hlt | hge
  · rw [List.getElem?_append_left hlt, List.getElem?_map] at hc
    obtain ⟨m, hm, rfl⟩ := Option.map_eq_some_iff.1 hc
    have hrole := h.roles i m hm
    unfold roleAt at hrole
    unfold contentOf
    split at hrole
    · next hi => rw [if_pos hrole, if_pos hi]
    · next hi =>
      have hne : m.1 ≠ "user" := hrole ▸ by decide
      rw [if_neg hne, if_neg hi]
  · rw [List.getElem?_append_right hge] at hc
    rw [List.length_map] at hge hc
    obtain ⟨k, rfl⟩ := Nat.exists_eq_add_of_le hge
    rw [Nat.add_sub_cancel_left] at hc
    cases k with
    | zero =>
      cases hc
      exact (if_pos hcomplete).symm
    | succ k => cases hc

/-! ## Alternation -/

/-- **Transcripts.** In a conversation of completed requests, every history that is read after one
has at most `maxMessages` entries, alternates and begins with the user, that of the request's thread
ends with the text that the request was answered with, and the contents sent to the model
alternate. -/
theorem transcript_alternates (hσ : Conversation G σ) {j : ChatJob} (hl : l.Alone)
    (hj : Completes G j l σ) (h : (serveChat G j).runOn (exec E) l σ = some (x, l', σ')) :
    (∀ t, ∃ items, Reads σ' t items ∧ Alternating items) ∧
    ∀ req, (j = .chat req ∨ j = .chatStream req) →
      (∀ text, x = .ok text → ∃ answer items, text = some answer ∧ Reads σ' req.threadId items ∧
        items.getLast? = some ("assistant", answer)) ∧
      ∀ ctx l₁ σ₁, (prepareChat E req.toChatRequest).runOn (exec E) l σ = some (.ok ctx, l₁, σ₁) →
        ∃ contents, historyToContents ctx.history req.message = .ok contents ∧
          ∀ i c, contents[i]? = some c → c.role = if i % 2 = 0 then "user" else "model" := by
  have hσ := hσ.transcribed
  refine ⟨fun t => (serveChat_transcribed hσ hl hj h t).reads, fun req hreq => ⟨fun text hx => ?_,
    fun ctx l₁ σ₁ hprepare => ?_⟩⟩
  · have hanswered : Answered req σ' x := by
      rcases hreq with rfl | rfl
      · exact chat_answered hσ hl hj h
      · exact chatStream_answered hσ hl hj h
    obtain ⟨answer, items, htext, hread, -, hlast⟩ := hanswered.answered text hx
    exact ⟨answer, items, htext, hread, hlast⟩
  · obtain ⟨_, hx, -⟩ | ⟨_, items, hx, hprepared⟩ := prepareChat_stages hσ hl hprepare
    · cases hx
    · cases hx
      rw [hprepared.context]
      exact ⟨_, historyToContents_items .., fun i c hc => hprepared.alternating.contents _ hc⟩

end

section

open Symbolic

/-- A model whose calls raise, but for an answer that says nothing. -/
def losesConnection : Gemini env where
  mockResponse _ _ _ _ := raise .httpError
  mock_tools _ _ _ _ := .raise _
  hasClient _ := true
  systemInstruction _ _ _ _ := .ok ""
  generate _ _ := pure []
  generate_outside _ _ := trivial
  stream _ _ := raise .httpError
  stream_outside _ _ := trivial
  replyText _ _ := ""
  stripTags := id
  errorOf _ := .transport

/-- A message of a new chat. -/
def greeting : Ask where
  threadId := "t"
  message := "hi"
  orgName := "acme"
  agentId := ""
  agentSecret := ""
  agentName := ""
  geminiApiKey := "key"
  customPrompt := ""
  language := ""

/-- How a request to a service that has just started ends, and the history that it leaves. -/
def firstHistory (j : ChatJob) : Option (Option (Option String) × Except Exn (List Json)) :=
  ((serveChat losesConnection j).runOn (exec env) [] (Shared.start 0 0)).map fun r =>
    (r.1.toOption, historyOf (r.2.2.get .chatHistory "t"))

/-- The greeting is answered, and both are in the history. -/
theorem greeting_answered : firstHistory (.chat greeting) = some (some (some noTextReply),
    .ok [message "user" "hi", message "assistant" noTextReply]) := by decide +kernel

/-- If the stream loses the model, the greeting alone is in the history. -/
theorem greeting_lost : firstHistory (.chatStream greeting) =
    some (some none, .ok [message "user" "hi"]) := by decide +kernel

/-- A chat that waits for nothing completes. -/
theorem completes_nil (req : Ask) (σ : Shared) : Completes losesConnection (.chat req) [] σ where
  chat req' _ x elapsed h := by
    obtain ⟨ctx, l₁, σ₁, l₂, σ₂, h₁, h₂, rfl⟩ := h
    obtain ⟨rfl, -⟩ := monotonic_of_nil h₁
    rw [(monotonic_of_nil h₂).2, sub_self]
    exact Nat.cast_nonneg _
  chatStream req' h := by cases h

/-- What the first job of a fresh service leaves is left by a run. -/
theorem exists_of_firstHistory {j : ChatJob} {text : Option String} {history : List Json}
    (h : firstHistory j = some (some text, .ok history)) :
    ∃ l' σ', (serveChat losesConnection j).runOn (exec env) [] (Shared.start 0 0) =
        some (.ok text, l', σ') ∧ historyOf (σ'.get .chatHistory "t") = .ok history := by
  obtain ⟨⟨x, l', σ'⟩, hr, h⟩ := Option.map_eq_some_iff.1 h
  obtain ⟨hx, hhistory⟩ := Prod.mk.inj h
  cases x with
  | error e => cases hx
  | ok text' =>
    cases hx
    exact ⟨l', σ', hr, hhistory⟩

/-- After the greeting has been answered the transcript alternates and ends with the answer. -/
theorem transcript_alternates_greeting : ∃ l' σ',
    (serveChat losesConnection (.chat greeting)).runOn (exec env) [] (Shared.start 0 0) =
        some (.ok (some noTextReply), l', σ') ∧
      (∀ t, ∃ items, Reads σ' t items ∧ Alternating items) ∧
      ∃ answer items, some noTextReply = some answer ∧ Reads σ' "t" items ∧
        items.getLast? = some ("assistant", answer) := by
  obtain ⟨l', σ', h, -⟩ := exists_of_firstHistory greeting_answered
  have hall := transcript_alternates (.start 0 0) Replies.alone_nil (completes_nil ..) h
  exact ⟨l', σ', h, hall.1, (hall.2 greeting (.inl rfl)).1 _ rfl⟩

/-- A streamed run that raises leaves a history that ends with the user. -/
theorem stream_leaves_user : ¬ ∀ (j : ChatJob) (req : Ask) (l l' : Replies) (σ' : Shared)
    (text : Option String), l.Alone → j = .chat req ∨ j = .chatStream req →
    (serveChat losesConnection j).runOn (exec env) l (Shared.start 0 0) =
      some (.ok text, l', σ') →
    ∃ items answer, historyOf (σ'.get .chatHistory req.threadId) =
      .ok (items ++ [message "assistant" answer]) := by
  intro hall
  obtain ⟨l', σ', h, hhistory⟩ := exists_of_firstHistory greeting_lost
  obtain ⟨items, answer, hitems⟩ := hall _ greeting [] l' σ' none Replies.alone_nil (.inr rfl) h
  have hend := congrArg List.getLast? (Except.ok.inj (hhistory.symm.trans hitems))
  rw [List.getLast?_concat] at hend
  simp [message] at hend

end

end Teamspace.Agent
