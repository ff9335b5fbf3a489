import Teamspace.Agent.GeminiAgent
import Teamspace.Agent.Symbolic
import Teamspace.Lib.Noninterference

/-!
# What the tool loops do

The two ways of running the model dispatch the same tools exactly where every response that asks for
a tool asks for it first (`agents_agree`): `run_agent` looks at the first part of a response only.
The loop of `run_agent` dispatches what the model asks for, and returns the text of the last
response unless it has spent its iterations before (`tool_loop_result`).
-/

namespace Teamspace.Agent

open Teamspace.Lib Teamspace.Py

/-! ## Streams -/

/-- The function call that a part carries. -/
def Part.call? : Part → Option FunctionCall
  | .functionCall fnCall => some fnCall
  | _ => none

/-- The first function call of a response. -/
def firstCall (parts : List Part) : Option FunctionCall := parts.findSome? Part.call?

/-- A response that asks for a tool asks for it first. -/
def AsksFirst (parts : List Part) : Prop := firstCall parts = parts.head?.bind Part.call?

instance (parts : List Part) : Decidable (AsksFirst parts) :=
  inferInstanceAs (Decidable (_ = _))

/-- Parts that begin with a call are the call and the rest. -/
theorem eq_of_head_call {parts : List Part} {fnCall : FunctionCall}
    (h : parts.head?.bind Part.call? = some fnCall) :
    ∃ rest, parts = .functionCall fnCall :: rest := by
  cases parts with
  | nil => cases h
  | cons part rest =>
    cases part with
    | functionCall fnCall' =>
      obtain rfl := Option.some.inj h
      exact ⟨rest, rfl⟩
    | text | functionResponse | other => cases h

/-- The first call of a response is what is consumed of it. -/
theorem consumeParts_call (parts : List Part) : (consumeParts parts).2 = firstCall parts := by
  induction parts with
  | nil => rfl
  | cons part rest ih =>
    cases part with
    | functionCall fnCall => rfl
    | text | functionResponse | other => exact ih

/-- How a response is split into chunks makes no difference to the call that is found. -/
theorem consumeStream_call (chunks : List (List Part)) :
    (consumeStreamForTextAndFn chunks).2 = firstCall chunks.flatten := by
  induction chunks with
  | nil => rfl
  | cons chunk rest ih =>
    rw [List.flatten_cons, firstCall, List.findSome?_append, ← firstCall, ← firstCall,
      ← consumeParts_call, ← ih, consumeStreamForTextAndFn]
    cases (consumeParts chunk).2 <;> rfl

/-! ## Iterations -/

section

variable {m : Type → Type} [Monad m] [LawfulMonad m] (generate : List Content → m (List Part))
  (stream : List Content → m (List (List Part))) (dispatch : String → Dict → m Dict)

/-- An iteration at a response that asks for a tool. -/
theorem toolIterations_call (n : Nat) (fnCall : FunctionCall) (rest : List Part)
    (messages : List Content) :
    toolIterations generate dispatch (n + 1) (.functionCall fnCall :: rest) messages =
      dispatch fnCall.name fnCall.arguments >>= fun toolResult =>
        generate (appendToolCallMessages messages (.functionCall fnCall) fnCall toolResult) >>=
          fun response => toolIterations generate dispatch n response
            (appendToolCallMessages messages (.functionCall fnCall) fnCall toolResult) := by
  simp only [toolIterations, dispatchToolAndRefetch, runToolCallAndAppend, bind_assoc, pure_bind]

/-- One at any other response ends the loop. -/
theorem toolIterations_end {response : List Part} (h : response.head?.bind Part.call? = none)
    (n : Nat) (messages : List Content) :
    Prod.snd <$> toolIterations generate dispatch n response messages = pure messages := by
  cases n with
  | zero => simp only [toolIterations, map_pure]
  | succ n =>
    cases response with
    | nil => simp only [toolIterations, map_pure]
    | cons part rest =>
      cases part with
      | functionCall fnCall => cases h
      | text | functionResponse | other => simp only [toolIterations, map_pure]

end

/-! ## The same tools -/

section

variable {Tok : Type} (E : Env Tok) (t : String) (generate : List Content → List Part)

/-- In the next `n` iterations every response that can be fetched asks first. -/
def AsksFirstWithin : Nat → List Content → Prop
  | 0, _ => True
  | n + 1, messages => AsksFirst (generate messages) ∧
    ∀ fnCall, firstCall (generate messages) = some fnCall → ∀ toolResult,
      (dispatchTool E fnCall.name fnCall.arguments t).CanReturn toolResult →
      AsksFirstWithin n (appendToolCallMessages messages (.functionCall fnCall) fnCall toolResult)

/-- The messages that the loop of `run_agent` leaves, from a response that it has fetched. -/
def loopMessages (n : Nat) (messages : List Content) : Coro (List Content) :=
  Prod.snd <$> toolIterations (m := Coro) (fun contents => pure (generate contents))
    (fun name args => dispatchTool E name args t) n (generate messages) messages

/-- The messages that the loop of `run_agent_stream` leaves. -/
def streamMessages (stream : List Content → List (List Part)) (n : Nat)
    (messages : List Content) : Coro (List Content) :=
  Prod.snd <$> streamIterations (m := Coro) (fun contents => pure (stream contents))
    (fun name args => dispatchTool E name args t) n messages

/-- A response with a call goes on with its result. -/
theorem loopMessages_call {n : Nat} {messages : List Content} {fnCall : FunctionCall}
    {rest : List Part} (h : generate messages = .functionCall fnCall :: rest) :
    loopMessages E t generate (n + 1) messages =
      dispatchTool E fnCall.name fnCall.arguments t >>= fun toolResult =>
        loopMessages E t generate n
          (appendToolCallMessages messages (.functionCall fnCall) fnCall toolResult) := by
  unfold loopMessages
  rw [h, toolIterations_call]
  simp only [map_bind, pure_bind]

variable {stream : List Content → List (List Part)}

/-- A stream without a call ends the loop. -/
theorem streamMessages_done {n : Nat} {messages : List Content}
    (h : firstCall (stream messages).flatten = none) :
    streamMessages E t stream (n + 1) messages = pure messages := by
  unfold streamMessages streamIterations
  rw [← consumeStream_call] at h
  simp only [pure_bind, h, map_pure]

/-- A stream with a call goes on with its result. -/
theorem streamMessages_call {n : Nat} {messages : List Content} {fnCall : FunctionCall}
    (h : firstCall (stream messages).flatten = some fnCall) :
    streamMessages E t stream (n + 1) messages =
      dispatchTool E fnCall.name fnCall.arguments t >>= fun toolResult =>
        streamMessages E t stream n
          (appendToolCallMessages messages (.functionCall fnCall) fnCall toolResult) := by
  unfold streamMessages
  rw [streamIterations]
  rw [← consumeStream_call] at h
  simp only [pure_bind, h, map_bind, bind_pure_comp, Functor.map_map]

variable {generate}

/-- The two loops dispatch the same tools and leave the same messages exactly where every response
asks first. -/
theorem loops_agree (hstream : ∀ contents, (stream contents).flatten = generate contents) (n : Nat)
    (messages : List Content) : loopMessages E t generate n messages =
      streamMessages E t stream n messages ↔ AsksFirstWithin E t generate n messages := by
  induction n generalizing messages with
  | zero => exact ⟨fun _ => trivial, fun _ => rfl⟩
  | succ n ih =>
    rw [AsksFirstWithin]
    cases hhead : (generate messages).head?.bind Part.call? with
    | some fnCall =>
      obtain ⟨rest, hg⟩ := eq_of_head_call hhead
      have hfirst : firstCall (generate messages) = some fnCall := by rw [hg]; rfl
      rw [loopMessages_call E t generate hg,
        streamMessages_call E t ((hstream messages).symm ▸ hfirst), Program.bind_eq_bind_iff]
      constructor
      · refine fun h => ⟨hfirst.trans hhead.symm, fun fnCall' hf result hr => ?_⟩
        obtain rfl := Option.some.inj (hfirst.symm.trans hf)
        exact (ih _).1 (h result hr)
      · exact fun h result hr => (ih _).2 (h.2 _ hfirst result hr)
    | none =>
      rw [loopMessages, toolIterations_end _ _ hhead]
      cases hfirst : firstCall (generate messages) with
      | none =>
        rw [streamMessages_done E t ((hstream messages).symm ▸ hfirst)]
        exact ⟨fun _ => ⟨hfirst.trans hhead.symm, nofun⟩, fun _ => rfl⟩
      | some fnCall =>
        -- the stream goes on to a later part, which asks for a tool
        rw [streamMessages_call E t ((hstream messages).symm ▸ hfirst)]
        refine ⟨nofun, fun h => ?_⟩
        cases hfirst.symm.trans (h.1.trans hhead)

end

section

variable {Tok : Type} {E : Env Tok} {L : Llm} {message t language agentName : String}
  {history : List Json}

variable (E L message t language agentName history) in
/-- A chat message reaches the model, under this instruction and with these contents. -/
structure Prompts (systemInstruction : String) (messages : List Content) : Prop where
  passed : (handleAuthorizationCallback E message t language).CanReturn none
  real : E.settings.mockLlm = false
  client : L.hasClient = true
  instruction : L.systemInstruction agentName language = .ok systemInstruction
  contents : historyToContents history message = .ok messages

/-- `run_agent` and `run_agent_stream` act alike, whatever the store holds and the services answer,
exactly where no response that can be fetched asks for a tool after another part. -/
theorem agents_agree : Prod.snd <$> runAgent E L message t history language agentName =
    Prod.snd <$> runAgentStream E L message t history language agentName ↔
    ∀ systemInstruction messages,
      Prompts E L message t language agentName history systemInstruction messages →
      AsksFirstWithin E t (L.generate systemInstruction) maxToolIterations messages := by
  unfold runAgent runAgentStream
  rw [map_bind, map_bind, Program.bind_eq_bind_iff]
  cases hmock : E.settings.mockLlm with
  | true =>
    refine ⟨fun _ si messages h => ?_, fun _ reply _ => ?_⟩
    · cases hmock.symm.trans h.real
    · cases reply with
      | some reply => rfl
      | none => simp only [if_true, map_bind, map_pure]
  | false =>
    cases hclient : L.hasClient with
    | false =>
      refine ⟨fun _ si messages h => ?_, fun _ reply _ => ?_⟩
      · cases hclient.symm.trans h.client
      · cases reply <;> rfl
    | true =>
      cases hsi : L.systemInstruction agentName language with
      | error e =>
        refine ⟨fun _ si messages h => ?_, fun _ reply _ => ?_⟩
        · cases hsi.symm.trans h.instruction
        · cases reply <;> rfl
      | ok si =>
        cases hm : historyToContents history message with
        | error e =>
          refine ⟨fun _ si messages h => ?_, fun _ reply _ => ?_⟩
          · cases hm.symm.trans h.contents
          · cases reply <;> rfl
        | ok messages =>
          have hagree := loops_agree E t (L.stream_flatten si) maxToolIterations messages
          have hloop : (Prod.snd <$> (runGeminiToolLoop (m := Coro)
              (fun contents => pure (L.generate si contents))
              (fun name args => dispatchTool E name args t) maxToolIterations messages >>= fun r =>
                pure (AgentAnswer.text r.1, r.2)) : Coro (List Content)) =
              loopMessages E t (L.generate si) maxToolIterations messages := by
            unfold runGeminiToolLoop loopMessages
            simp only [pure_bind, bind_pure_comp, Functor.map_map]
          have hstream : (Prod.snd <$> (streamIterations (m := Coro)
              (fun contents => pure (L.stream si contents))
              (fun name args => dispatchTool E name args t) maxToolIterations messages >>= fun r =>
                pure (AgentStream.texts r.1, r.2)) : Coro (List Content)) =
              streamMessages E t (L.stream si) maxToolIterations messages := by
            unfold streamMessages
            simp only [bind_pure_comp, Functor.map_map]
          constructor
          · intro h si' messages' hp
            cases hsi.symm.trans hp.instruction
            cases hm.symm.trans hp.contents
            exact hagree.1 (hloop.symm.trans ((h none hp.passed).trans hstream))
          · intro h reply hr
            cases reply with
            | some reply => rfl
            | none =>
              have hasks := h si messages ⟨hr, hmock, hclient, hsi, hm⟩
              exact hloop.trans ((hagree.2 hasks).trans hstream.symm)

end

namespace Symbolic

/-- A response that announces the tool it asks for. -/
def announcedCall : List Part :=
  [.text "Let me see.", .functionCall ⟨"schedule_meeting_preview", some [("topic", .str "x")]⟩]

/-- A model that gives this response to the first message, and then a text. -/
def announcing (messages : List Content) : List Part :=
  if messages.length = 1 then announcedCall else [.text "Please authorize."]

/-- The model, streamed part by part. -/
def announcingLlm : Llm where
  mockResponse _ _ _ _ := pure ""
  hasClient := true
  systemInstruction _ _ := .ok ""
  generate _ := announcing
  stream _ messages := (announcing messages).map fun part => [part]
  stream_flatten _ messages := by
    unfold announcing
    split <;> rfl

end Symbolic

open Symbolic in
/-- A meeting that is previewed by the streaming endpoint is not by the other one. -/
theorem stream_previews_alone : ¬ ∀ (L : Llm) (message t language agentName : String)
    (history : List Json), Prod.snd <$> runAgent env L message t history language agentName =
      Prod.snd <$> runAgentStream env L message t history language agentName := by
  intro h
  have h := congrArg (fun p : Coro (List Content) =>
    (p.replay (exec env) [] (Shared.start 0 0)).map fun r => r.1.toOption.map List.length)
    (h announcingLlm "Book it" "t" "en" "agent" [])
  exact absurd h (by decide +kernel)

/-! ## The result of the loop -/

/-- A model and the tools, which may answer anything that they make of the world they are in, or
fail. -/
structure Surroundings (W : Type) where
  generate : List Content → W → Except Exn (List Part) × W
  dispatch : String → Dict → W → Except Exn Dict × W

/-- What a loop does: it fetches a response, or dispatches a tool. -/
inductive LoopEvent
  | fetched (response : List Part)
  | dispatched (name : String) (args : Dict)
  deriving DecidableEq, Repr

/-- A world, and what has been done in it. -/
abbrev Recorded (W : Type) := W × List LoopEvent

/-- A loop in a world that records what it does. -/
abbrev Recording (W : Type) := ExceptT Exn (StateM (Recorded W))

/-- How a loop ends, and in which world. -/
def Recording.runIn {W α : Type} (p : Recording W α) (s : Recorded W) : Except Exn α × Recorded W :=
  p.run.run s

section

variable {W α β : Type}

/-- After a result the rest runs. -/
theorem runIn_bind_ok {p : Recording W α} {f : α → Recording W β} {s s' : Recorded W} {a : α}
    (h : p.runIn s = (.ok a, s')) : (p >>= f).runIn s = (f a).runIn s' := by
  unfold Recording.runIn at h ⊢
  rw [ExceptT.run_bind, StateT.run_bind, h]
  rfl

/-- After an exception it does not. -/
theorem runIn_bind_error {p : Recording W α} {f : α → Recording W β} {s s' : Recorded W} {e : Exn}
    (h : p.runIn s = (.error e, s')) : (p >>= f).runIn s = (.error e, s') := by
  unfold Recording.runIn at h ⊢
  rw [ExceptT.run_bind, StateT.run_bind, h]
  rfl

end

section

variable {W : Type} (S : Surroundings W)

/-- What is recorded of an attempt to fetch a response. -/
def fetchedOf : Except Exn (List Part) → List LoopEvent
  | .ok response => [.fetched response]
  | .error _ => []

/-- Fetch a response. -/
def Surroundings.fetch (messages : List Content) : Recording W (List Part) :=
  ExceptT.mk fun s => ((S.generate messages s.1).1,
    ((S.generate messages s.1).2, s.2 ++ fetchedOf (S.generate messages s.1).1))

/-- Dispatch a tool. -/
def Surroundings.call (name : String) (args : Dict) : Recording W Dict :=
  ExceptT.mk fun s =>
    ((S.dispatch name args s.1).1, ((S.dispatch name args s.1).2, s.2 ++ [.dispatched name args]))

/-- A response of the model is recorded. -/
theorem fetch_runIn {messages : List Content} {w w' : W} {x : Except Exn (List Part)}
    (h : S.generate messages w = (x, w')) (log : List LoopEvent) :
    (S.fetch messages).runIn (w, log) = (x, (w', log ++ fetchedOf x)) := by
  change ((S.generate messages w).1, ((S.generate messages w).2,
    log ++ fetchedOf (S.generate messages w).1)) = _
  rw [h]

/-- So is a call of a tool. -/
theorem call_runIn {name : String} {args : Dict} {w w' : W} {x : Except Exn Dict}
    (h : S.dispatch name args w = (x, w')) (log : List LoopEvent) :
    (S.call name args).runIn (w, log) = (x, (w', log ++ [.dispatched name args])) := by
  change ((S.dispatch name args w).1, ((S.dispatch name args w).2, log ++ [.dispatched name args])) = _
  rw [h]

/-- The tools that were dispatched. -/
def dispatches : List LoopEvent → List (String × Dict)
  | [] => []
  | .dispatched name args :: rest => (name, args) :: dispatches rest
  | .fetched _ :: rest => dispatches rest

/-- Each tool that was dispatched is the one that the response before it asks for; no response is
answered twice. -/
def AsAsked : List Part → List LoopEvent → Prop
  | _, [] => True
  | _, .fetched response :: rest => AsAsked response rest
  | response, .dispatched name args :: rest =>
    (∃ fnCall, response.head? = some (.functionCall fnCall) ∧ name = fnCall.name ∧
      args = fnCall.arguments) ∧ AsAsked [] rest

/-- The last response that was fetched. -/
def lastFetched : List Part → List LoopEvent → List Part
  | response, [] => response
  | _, .fetched response :: rest => lastFetched response rest
  | response, .dispatched _ _ :: rest => lastFetched response rest

/-- The reply is the text that the last response begins with, if it does. -/
def RepliesText (response : List Part) (x : Except Exn String) : Prop :=
  ∀ text rest, response = .text text :: rest → text ≠ "" → x = .ok text

/-- The model asks for `n` tools, which are dispatched, and then answers with a text of its own. -/
def Surroundings.TextAfter : Nat → List Part → List Content → W → Prop
  | 0, response, _, _ =>
    ∃ text rest, response = .text text :: rest ∧ text ≠ "" ∧ text ≠ noTextReply
  | n + 1, response, messages, w => ∃ fnCall rest toolResult w₁ response' w₂,
    response = .functionCall fnCall :: rest ∧
    S.dispatch fnCall.name fnCall.arguments w = (.ok toolResult, w₁) ∧
    S.generate (appendToolCallMessages messages (.functionCall fnCall) fnCall toolResult) w₁ =
      (.ok response', w₂) ∧
    TextAfter n response'
      (appendToolCallMessages messages (.functionCall fnCall) fnCall toolResult) w₂

/-- What the iterations from a response come to. -/
structure Surroundings.Iterated (n : Nat) (response : List Part) (messages : List Content) (w : W)
    (events : List LoopEvent) (x : Except Exn String) : Prop where
  bounded : (dispatches events).length ≤ n
  asked : AsAsked response events
  replies : RepliesText (lastFetched response events) x ↔ ¬ S.TextAfter n response messages w

variable {S}

/-- A loop that ends without another step. -/
theorem Surroundings.Iterated.last {n : Nat} {response : List Part} {messages : List Content} {w : W}
    {x : Except Exn String} (h : RepliesText response x ↔ ¬ S.TextAfter n response messages w) :
    S.Iterated n response messages w [] x :=
  ⟨Nat.zero_le _, trivial, h⟩

/-- A response that does not begin with a text asks for no reply. -/
theorem repliesText_of_head {response : List Part} (h : ∀ text, response.head? ≠ some (.text text))
    (x : Except Exn String) : RepliesText response x := by
  rintro text rest rfl
  exact absurd rfl (h text)

/-- Without a tool call in the first place, no text comes after `n + 1` of them. -/
theorem not_textAfter_of_head {n : Nat} {response : List Part} {messages : List Content} {w : W}
    (h : response.head?.bind Part.call? = none) : ¬ S.TextAfter (n + 1) response messages w := by
  rintro ⟨fnCall, rest, -, -, -, -, rfl, -⟩
  cases h

/-- One more iteration. -/
theorem Surroundings.Iterated.call {n : Nat} {fnCall : FunctionCall} {rest : List Part}
    {messages : List Content} {w w₁ w₂ : W} {toolResult : Dict} {response' : List Part}
    {events : List LoopEvent} {x : Except Exn String}
    (hd : S.dispatch fnCall.name fnCall.arguments w = (.ok toolResult, w₁))
    (hg : S.generate (appendToolCallMessages messages (.functionCall fnCall) fnCall toolResult) w₁ =
      (.ok response', w₂))
    (h : S.Iterated n response'
      (appendToolCallMessages messages (.functionCall fnCall) fnCall toolResult) w₂ events x) :
    S.Iterated (n + 1) (.functionCall fnCall :: rest) messages w
      (.dispatched fnCall.name fnCall.arguments :: .fetched response' :: events) x where
  bounded := Nat.succ_le_succ h.bounded
  asked := ⟨⟨fnCall, rfl, rfl, rfl⟩, h.asked⟩
  replies := by
    refine h.replies.trans (not_congr ⟨fun ht => ⟨_, _, _, _, _, _, rfl, hd, hg, ht⟩, ?_⟩)
    rintro ⟨_, _, _, _, _, _, ⟨⟩, hd', hg', ht⟩
    cases hd.symm.trans hd'
    cases hg.symm.trans hg'
    exact ht

variable (S)

/-- The iterations of the loop, from a response that was fetched. -/
theorem toolIterations_iterated (n : Nat) (response : List Part) (messages : List Content) (w : W)
    (log : List LoopEvent) : ∃ events x w',
      (toolIterations S.fetch S.call n response messages).runIn (w, log) =
        (x, (w', log ++ events)) ∧ S.Iterated n response messages w events (x.map Prod.fst) := by
  induction n generalizing response messages w log with
  | zero =>
    refine ⟨[], .ok (noTextReply, messages), w, ?_, .last ?_⟩
    · rw [List.append_nil]
      rfl
    · constructor
      · rintro h ⟨text, rest, rfl, hne, hno⟩
        exact hno (Except.ok.inj (h text rest rfl hne)).symm
      · rintro h text rest rfl hne
        by_cases hno : text = noTextReply
        · rw [hno]
          rfl
        · exact absurd ⟨text, rest, rfl, hne, hno⟩ h
  | succ n ih =>
    cases hcall : response.head?.bind Part.call? with
    | none =>
      have hnot : ¬ S.TextAfter (n + 1) response messages w := not_textAfter_of_head hcall
      cases response with
      | nil =>
        refine ⟨[], .ok (noTextReply, messages), w, ?_, .last ⟨fun _ => hnot, fun _ => ?_⟩⟩
        · rw [List.append_nil]
          rfl
        · exact repliesText_of_head (fun _ h => by cases h) _
      | cons part rest =>
        cases part with
        | functionCall fnCall => cases hcall
        | functionResponse | other =>
          refine ⟨[], .ok (noTextReply, messages), w, ?_, .last ⟨fun _ => hnot, fun _ => ?_⟩⟩
          · rw [List.append_nil]
            rfl
          · exact repliesText_of_head (fun _ h => by cases h) _
        | text text =>
          refine ⟨[], .ok (if text ≠ "" then text else noTextReply, messages), w, ?_,
            .last ⟨fun _ => hnot, fun _ => ?_⟩⟩
          · rw [List.append_nil]
            rfl
          · rintro text' rest' ⟨⟩ hne
            exact congrArg Except.ok (if_pos hne)
    | some fnCall =>
      obtain ⟨rest, rfl⟩ := eq_of_head_call hcall
      rw [toolIterations_call]
      have hhead : ∀ text, (Part.functionCall fnCall :: rest).head? ≠ some (.text text) := nofun
      cases hd : S.dispatch fnCall.name fnCall.arguments w with
      | mk outcome w₁ =>
      have hcalled := call_runIn S hd log
      cases outcome with
      | error e =>
        refine ⟨[.dispatched fnCall.name fnCall.arguments], .error e, w₁, runIn_bind_error hcalled,
          Nat.succ_le_succ (Nat.zero_le n), ⟨⟨fnCall, rfl, rfl, rfl⟩, trivial⟩, fun _ => ?_,
          fun _ => repliesText_of_head hhead _⟩
        rintro ⟨_, _, _, _, _, _, ⟨⟩, hd', -⟩
        cases hd.symm.trans hd'
      | ok toolResult =>
        rw [runIn_bind_ok hcalled]
        cases hg : S.generate
          (appendToolCallMessages messages (.functionCall fnCall) fnCall toolResult) w₁ with
        | mk fetched w₂ =>
        have hfetched := fetch_runIn S hg (log ++ [.dispatched fnCall.name fnCall.arguments])
        cases fetched with
        | error e =>
          refine ⟨[.dispatched fnCall.name fnCall.arguments], .error e, w₂, ?_,
            Nat.succ_le_succ (Nat.zero_le n), ⟨⟨fnCall, rfl, rfl, rfl⟩, trivial⟩, fun _ => ?_,
            fun _ => repliesText_of_head hhead _⟩
          · rw [runIn_bind_error hfetched, fetchedOf, List.append_nil]
          · rintro ⟨_, _, _, _, _, _, ⟨⟩, hd', hg', -⟩
            cases hd.symm.trans hd'
            cases hg.symm.trans hg'
        | ok response' =>
          obtain ⟨events, x, w', hrun, hi⟩ := ih response'
            (appendToolCallMessages messages (.functionCall fnCall) fnCall toolResult) w₂
            (log ++ [.dispatched fnCall.name fnCall.arguments] ++ [.fetched response'])
          refine ⟨.dispatched fnCall.name fnCall.arguments :: .fetched response' :: events, x, w', ?_,
            hi.call hd hg⟩
          rw [runIn_bind_ok hfetched]
          simpa only [fetchedOf, List.append_assoc, List.cons_append, List.nil_append] using hrun

/-- A whole run of `_run_gemini_tool_loop`, with what it has done and how it has ended. -/
def Surroundings.run (n : Nat) (messages : List Content) (w : W) :
    Except Exn (String × List Content) × Recorded W :=
  (runGeminiToolLoop S.fetch S.call n messages).runIn (w, [])

/-- What the loop is to do. -/
structure Surroundings.LoopCorrect (n : Nat) (messages : List Content) (w : W) : Prop where
  bounded : (dispatches (S.run n messages w).2.2).length ≤ n
  asked : AsAsked [] (S.run n messages w).2.2
  replies : RepliesText (lastFetched [] (S.run n messages w).2.2)
    ((S.run n messages w).1.map Prod.fst)

/-- The model asks for exactly `n` tools from these messages on, and then answers with a text. -/
def Surroundings.SpendsAll (n : Nat) (messages : List Content) (w : W) : Prop :=
  ∃ response w₁, S.generate messages w = (.ok response, w₁) ∧ S.TextAfter n response messages w₁

/-- The loop dispatches at most `n` tools, as they are asked for, and returns the text of the last
response, exactly where the model does not answer with a text after `n` tools. -/
theorem tool_loop_result (n : Nat) (messages : List Content) (w : W) :
    S.LoopCorrect n messages w ↔ ¬ S.SpendsAll n messages w := by
  cases hg : S.generate messages w with
  | mk fetched w₁ =>
  have hfetched := fetch_runIn S hg []
  cases fetched with
  | error e =>
    have hrun : S.run n messages w = (.error e, (w₁, [])) := runIn_bind_error hfetched
    refine ⟨fun _ => ?_, fun _ => ?_⟩
    · rintro ⟨_, _, hg', -⟩
      cases hg.symm.trans hg'
    · constructor <;> rw [hrun]
      · exact Nat.zero_le n
      · trivial
      · exact repliesText_of_head (fun _ h => by cases h) _
  | ok response =>
    obtain ⟨events, x, w', hiter, hi⟩ :=
      toolIterations_iterated S n response messages w₁ [.fetched response]
    have hrun : S.run n messages w = (x, (w', .fetched response :: events)) :=
      (runIn_bind_ok hfetched).trans hiter
    have hspends : S.SpendsAll n messages w ↔ S.TextAfter n response messages w₁ := by
      refine ⟨?_, fun h => ⟨response, w₁, hg, h⟩⟩
      rintro ⟨_, _, hg', h⟩
      cases hg.symm.trans hg'
      exact h
    rw [hspends, ← hi.replies]
    refine ⟨fun h => ?_, fun h => ?_⟩
    · have hreplies := h.replies
      rw [hrun] at hreplies
      exact hreplies
    · constructor <;> rw [hrun]
      · exact hi.bounded
      · exact hi.asked
      · exact h

end

namespace Symbolic

/-- A model that asks for one tool and then answers, and tools that answer nothing. -/
def oneTool : Surroundings Unit where
  generate messages _ :=
    (.ok (if messages.length = 1 then [.functionCall ⟨"list_meetings", none⟩] else [.text "Done."]), ())
  dispatch _ _ _ := (.ok [], ())

end Symbolic

open Symbolic in
/-- With a single iteration, the text that follows the tool is not returned. -/
theorem last_text_lost : ¬ ∀ (S : Surroundings Unit) (n : Nat) (messages : List Content), 1 ≤ n →
    S.LoopCorrect n messages () := by
  intro h
  have h := (h oneTool 1 [⟨"user", [.text "List them"]⟩] (Nat.le_refl 1)).replies "Done." []
    (by decide +kernel) (by decide)
  exact absurd h (by decide +kernel)

end Teamspace.Agent
