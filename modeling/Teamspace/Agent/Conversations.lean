import Teamspace.Agent.Service
import Teamspace.Lib.LastWrite

/-!
# Conversations

What the chats of a thread leave when they are served at the same time, in any order. A message is
added by a read of the history and a write, between which nothing else runs, so none is lost and
none is added twice: what is stored is the end of what the tasks have said on the thread, in the
order in which they said it (`conversations_kept`). A task says the user's message, and then at most
the text that its response ends with.
-/

namespace Teamspace.Agent

open Teamspace.Lib Teamspace.Py Teamspace.Lib.System

variable {Tok : Type} {E : Env Tok}

abbrev ServiceEvent (Tok : Type) := Event interface (Endpoint Tok) (Answer Tok)
abbrev ServiceEntry (Tok : Type) := Entry interface Shared (Endpoint Tok) (Answer Tok)
abbrev ServiceTrace (Tok : Type) := List (ServiceEvent Tok)

/-! ## What is said -/

/-- The newest message of a stored history. -/
def newestOf : Json → Json
  | .arr items => items.getLast?.getD .null
  | _ => .null

/-- The message that an event adds to thread `t`. -/
def saidOn (t : String) (e : ServiceEvent Tok) : Option Json :=
  match e with
  | .op (.set .chatHistory k v _) _ => if k = t then some (newestOf v) else none
  | _ => none

/-- What a task has said on thread `t`, oldest message first. -/
def saidIn (t : String) (h : ServiceTrace Tok) : List Json := (h.filterMap (saidOn t)).reverse

/-- A message, who said it, and when. -/
structure Said where
  task : Nat
  instant : Rat
  message : Json

/-- All that was said on thread `t`, oldest message first. -/
def sayings (t : String) (l : List (ServiceEntry Tok)) : List Said :=
  (l.filterMap fun x => (saidOn t x.event).map fun m => ⟨x.task, x.state.monotonic, m⟩).reverse

/-- What task `i` said on thread `t`. -/
def saidBy (i : Nat) (t : String) (l : List (ServiceEntry Tok)) : List Json :=
  ((sayings t l).filter fun m => m.task = i).map Said.message

/-- What was said on thread `t` since its history was last cleared or had expired when a message
came. -/
def conversation (t : String) : List (ServiceEntry Tok) → List Said
  | [] => []
  | x :: l =>
    match x.event with
    | .op (.set .chatHistory k v _) _ =>
      if k = t then
        (if (x.state.get .chatHistory t).isSome then conversation t l else []) ++
          [⟨x.task, x.state.monotonic, newestOf v⟩]
      else conversation t l
    | .op (.delete .chatHistory k) _ => if k = t then [] else conversation t l
    | _ => conversation t l

/-- The task was asked this, on `/chat` or `/chat/stream`. -/
def AskedIn (h : ServiceTrace Tok) (req : Ask) : Prop :=
  Event.spawn (.chat req) ∈ h ∨ Event.spawn (.chatStream req) ∈ h

/-- Task `i` was asked this. -/
def AskedOf (l : List (ServiceEntry Tok)) (i : Nat) (req : Ask) : Prop :=
  ∃ σ, ⟨i, σ, .spawn (.chat req)⟩ ∈ l ∨ ⟨i, σ, .spawn (.chatStream req)⟩ ∈ l

/-! ## What a task says -/

/-- A task that was asked `req` has said `s`. -/
structure Saying (req : Ask) (s : List Json) (h : ServiceTrace Tok) : Prop where
  asked : AskedIn h req
  said : saidIn req.threadId h = s

/-- After `s`, the turn of `req` goes on with this message: the user's, and then the assistant's. -/
def Turn (req : Ask) (s : List Json) (role content : String) : Prop :=
  s = [] ∧ role = "user" ∧ content = req.message ∨
    s = [message "user" req.message] ∧ role = "assistant"

/-- A write that adds the next message of a turn to the history that has just been read. -/
structure Adds (t : String) (v : Json) (ttl : Nat) (h : ServiceTrace Tok) : Prop where
  ttl : ttl = defaultTtlSeconds
  added : ∃ (req : Ask) (s : List Json) (stored : Option Json) (history : List Json)
    (role content : String) (h' : ServiceTrace Tok),
    t = req.threadId ∧ h = .op (.get .chatHistory t) stored :: h' ∧ Saying req s h' ∧
      Turn req s role content ∧ historyOf stored = .ok history ∧
      v = .arr (appendMessage history role content)

/-- An event and what the task did before it. -/
structure Speaks (e : ServiceEvent Tok) (h : ServiceTrace Tok) : Prop where
  adds : ∀ t v ttl a, e = .op (.set .chatHistory t v ttl) a → Adds t v ttl h
  clears : ∀ t a, e = .op (.delete .chatHistory t) a → Event.spawn (.clear t) ∈ h
  answers : ∀ text metadata, e = .finish (.ok (.chat text metadata)) → ∃ req,
    Saying req [message "user" req.message, message "assistant" text] h
  loses : e = .finish (.ok .connectionLost) → ∃ req, Saying req [message "user" req.message] h

section
variable {h : ServiceTrace Tok} {e : ServiceEvent Tok} {req : Ask} {s : List Json}

/-- A task stays asked what it was asked. -/
theorem AskedIn.cons (ha : AskedIn h req) (e : ServiceEvent Tok) : AskedIn (e :: h) req :=
  ha.imp (.tail _) (.tail _)

/-- What a task has said grows by what it says now. -/
theorem saidIn_cons (t : String) (e : ServiceEvent Tok) (h : ServiceTrace Tok) :
    saidIn t (e :: h) = saidIn t h ++ (saidOn t e).toList := by
  unfold saidIn
  cases he : saidOn t e with
  | none => simp [he]
  | some m => simp [he]

/-- A task that says nothing more has said the same. -/
theorem Saying.cons (hs : Saying req s h) (he : saidOn req.threadId e = none) :
    Saying req s (e :: h) := by
  refine ⟨hs.asked.cons e, ?_⟩
  rw [saidIn_cons, he, hs.said]
  exact List.append_nil s

/-- An operation that keeps the histories says nothing. -/
theorem saidOn_op {o : Op} (ho : o.KeepsHistory) (a : o.Ans) (t : String) :
    @saidOn Tok t (.op o a) = none := by
  cases o with
  | set n k v ttl =>
    cases n with
    | chatHistory => exact absurd rfl ho
    | _ => rfl
  | _ => rfl

/-- So it speaks as it may. -/
theorem Speaks.op {o : Op} (ho : o.KeepsHistory) (a : o.Ans) : @Speaks Tok (.op o a) h where
  adds t v ttl a' he := by
    cases he
    exact absurd rfl ho
  clears t a' he := by
    cases he
    exact absurd rfl ho
  answers := nofun
  loses := nofun

/-- A request says nothing. -/
theorem Speaks.send {q : Req} : @Speaks Tok (.send q) h := ⟨nofun, nofun, nofun, nofun⟩

/-- A reply says nothing. -/
theorem Speaks.recv {q : Req} {r : Rep} : @Speaks Tok (.recv q r) h :=
  ⟨nofun, nofun, nofun, nofun⟩

/-- A task that ends with an exception says nothing by it. -/
theorem Speaks.error {x : Exn} : @Speaks Tok (.finish (.error x)) h :=
  ⟨nofun, nofun, nofun, nofun⟩

end

/-! ## Programs that speak in turn -/

section
variable {A : Service E} {h : ServiceTrace Tok} {req : Ask} {s : List Json}

/-- A program that says nothing. -/
theorem silent_local {α : Type} {p : Coro α} (hp : Within Op.KeepsHistory p)
    (hs : Saying req s h) :
    Local (S := A.system) Speaks (fun _ h => Saying req s h) p h :=
  Local.only (S := A.system) (fun _ a _ ho hs => ⟨.op ho a, hs.cons (saidOn_op ho a _)⟩)
    (fun _ _ _ hs => ⟨.send, hs.cons rfl⟩) (fun _ _ _ _ hs => ⟨.recv, hs.cons rfl⟩) hp hs

/-- The newest message is the one that was appended. -/
theorem newestOf_append (history : List Json) (role content : String) :
    newestOf (.arr (appendMessage history role content)) = message role content := by
  obtain ⟨n, hn⟩ : ∃ n, maxMessages = n + 1 := ⟨49, rfl⟩
  change (((history ++ [message role content]).rtake maxMessages).getLast?).getD .null = _
  rw [hn, List.rtake_concat_succ, List.getLast?_concat]
  rfl

/-- What a message adds to what was said. -/
theorem saidIn_adds (t : String) (stored : Option Json) (history : List Json)
    (role content : String) (ttl : Nat) (h : ServiceTrace Tok) :
    saidIn t (.op (.set .chatHistory t (.arr (appendMessage history role content)) ttl) () ::
      .op (.get .chatHistory t) stored :: h) = saidIn t h ++ [message role content] := by
  rw [saidIn_cons, saidIn_cons]
  change saidIn t h ++ [] ++ (if t = t then some (newestOf _) else none).toList = _
  rw [if_pos rfl, newestOf_append, List.append_nil]
  rfl

/-- The next message of the turn. -/
theorem addMessage_local {role content : String} (hs : Saying req s h)
    (hturn : Turn req s role content) :
    Local (S := A.system) Speaks
      (fun x h => ∀ u, x = .ok u → Saying req (s ++ [message role content]) h)
      (addMessage req.threadId role content) h := by
  refine Local.bind (α := List Json) (Local.bind (α := Option Json) ?_)
  intro stored
  refine ⟨.op (o := .get .chatHistory req.threadId) trivial stored, Local.ofExcept ?_⟩
  cases hhistory : historyOf stored with
  | error e => exact nofun
  | ok history =>
    intro u
    refine ⟨⟨fun t v ttl a he => ?_, nofun, nofun, nofun⟩, fun _ _ => ⟨?_, ?_⟩⟩
    · cases he
      exact ⟨rfl, req, s, stored, history, role, content, h, rfl, rfl, hs, hturn, hhistory, rfl⟩
    · exact (hs.asked.cons _).cons _
    · exact (saidIn_adds ..).trans (congrArg (· ++ _) hs.said)

/-- The preparation says the user's message. -/
theorem prepareChat_local (ha : Saying req [] h) :
    Local (S := A.system) Speaks
      (fun x h => ∀ ctx, x = .ok ctx → Saying req [message "user" req.message] h)
      (prepareChat E req.toChatRequest) h := by
  have hP := allowsTools_keepsHistory req.threadId
  rw [prepareChat_eq]
  refine Local.bind (S := A.system) (Local.mono (S := A.system) (fun x h hs => ?_)
    (silent_local (within_chatTokens E hP rfl) ha))
  cases x with
  | error e => exact nofun
  | ok tokens =>
    refine Local.bind (S := A.system) (Local.mono (S := A.system) (fun x h hs => ?_)
      (silent_local (within_getHistory hP) hs))
    cases x with
    | error e => exact nofun
    | ok history =>
      refine Local.bind (S := A.system) (Local.mono (S := A.system) (fun x h hs => ?_)
        (addMessage_local hs (.inl ⟨rfl, rfl, rfl⟩)))
      cases x with
      | error e => exact nofun
      | ok u => exact fun _ _ => hs u rfl

/-- The end of a chat says the assistant's. -/
theorem finishChat_local {ctx : ChatContext} {text : String}
    (hs : Saying req [message "user" req.message] h) :
    Local (S := A.system) Speaks (fun x h => ∀ r, x = .ok r →
        Saying req [message "user" req.message, message "assistant" r.1] h)
      (finishChat req.threadId ctx text) h := by
  refine Local.bind (S := A.system) (Local.mono (S := A.system) (fun x h hs => ?_)
    (addMessage_local hs (.inr ⟨rfl, rfl⟩)))
  cases x with
  | error e => exact nofun
  | ok u =>
    have hcollect : Within Op.KeepsHistory
        (collectResponseMetadata req.threadId ctx.initialOboJwt ctx.initialAgentJwt) :=
      (only_collectResponseMetadata ..).mono (fun _ ho => ho) fun _ _ => trivial
    refine Local.bind (S := A.system) (Local.mono (S := A.system) (fun x h hs => ?_)
      (silent_local hcollect (hs u rfl)))
    cases x with
    | error e => exact nofun
    | ok metadata =>
      intro r hr
      cases hr
      exact hs

/-- A chat: the user's message is said, the model runs, and what it answers is said. -/
theorem chat_local (ha : Saying req [] h) :
    Local (S := A.system) Speaks (fun x h => ∀ r, x = .ok r →
        Saying req [message "user" req.message, message "assistant" r.1] h)
      (A.gemini.chat req) h := by
  refine Local.bind (S := A.system) (Local.mono (S := A.system) (fun x h hs => ?_)
    (prepareChat_local ha))
  cases x with
  | error e => exact nofun
  | ok ctx =>
    have hs := hs ctx rfl
    refine Local.bind (S := A.system) (Local.tryCatch (S := A.system)
      (Local.mono (S := A.system) (fun x h hs => ?_)
        (silent_local (keeps_answerAsk (G := A.gemini) req ctx.history) hs)))
    have hfinish (text : String) : Local (S := A.system) Speaks (fun x h => ∀ r, x = .ok r →
        Saying req [message "user" req.message, message "assistant" r.1] h)
        (finishChat req.threadId ctx text) h := finishChat_local hs
    cases x with
    | ok text => exact hfinish text
    | error e => exact hfinish (mapExceptionToUserMessage (A.gemini.errorOf e))

/-- A streamed chat, to the end of its text or of the connection. -/
theorem chatStream_local (ha : Saying req [] h) :
    Local (S := A.system) Speaks (fun x h => (∀ r, x = .ok (some r) →
          Saying req [message "user" req.message, message "assistant" r.1] h) ∧
        (x = .ok none → Saying req [message "user" req.message] h))
      (A.chatStream req) h := by
  have hsend (chunks : List String) : Within Op.KeepsHistory (A.send chunks) :=
    within_outside (A.send_outside chunks)
  refine Local.bind (S := A.system) (Local.mono (S := A.system) (fun x h hs => ?_)
    (prepareChat_local ha))
  cases x with
  | error e => exact ⟨nofun, nofun⟩
  | ok ctx =>
    have hs := hs ctx rfl
    refine Local.bind (S := A.system) (Local.mono (S := A.system) (fun x h hs => ?_)
      (silent_local (hsend []) hs))
    cases x with
    | error e => exact ⟨nofun, nofun⟩
    | ok u =>
      have hrun : Within Op.KeepsHistory (Program.tryCatch
          (some <$> streamAsk A.gemini req ctx.history) fun _ => pure none) := by
        refine Program.Only.tryCatch ?_ fun _ => trivial
        exact Program.Only.bind (keeps_streamAsk (G := A.gemini) req ctx.history) fun _ => trivial
      refine Local.bind (S := A.system) (Local.mono (S := A.system) (fun x h hs => ?_)
        (silent_local hrun hs))
      cases x with
      | error e => exact ⟨nofun, nofun⟩
      | ok chunks =>
        cases chunks with
        | none =>
          refine Local.bind (S := A.system) (Local.mono (S := A.system) (fun x h hs => ?_)
            (silent_local (hsend [lostConnectionChunk]) hs))
          cases x with
          | error e => exact ⟨nofun, nofun⟩
          | ok u => exact ⟨nofun, fun _ => hs⟩
        | some chunks =>
          refine Local.bind (S := A.system) (Local.mono (S := A.system) (fun x h hs => ?_)
            (silent_local (hsend chunks) hs))
          cases x with
          | error e => exact ⟨nofun, nofun⟩
          | ok u =>
            refine Local.bind (S := A.system) (Local.mono (S := A.system) (fun x h hr => ?_)
              (finishChat_local hs))
            cases x with
            | error e => exact ⟨nofun, nofun⟩
            | ok r =>
              refine ⟨fun r' hr' => ?_, nofun⟩
              cases hr'
              exact hr r rfl

end

/-! ## All requests -/

section
variable {A : Service E}

/-- An answer that is none to a chat says nothing. -/
theorem Speaks.finish {x : Answer Tok} {h : ServiceTrace Tok}
    (hchat : ∀ text metadata, x ≠ .chat text metadata) (hlost : x ≠ .connectionLost) :
    Speaks (.finish (.ok x)) h := by
  refine ⟨nofun, nofun, fun text metadata he => ?_, fun he => ?_⟩
  · cases he
    exact absurd rfl (hchat text metadata)
  · cases he
    exact absurd rfl hlost

/-- A request that says nothing, and is not answered like a chat. -/
theorem silent_speaks {α : Type} {p : Coro α} {f : α → Answer Tok} {h : ServiceTrace Tok}
    (hp : Within Op.KeepsHistory p) (hchat : ∀ a text metadata, f a ≠ .chat text metadata)
    (hlost : ∀ a, f a ≠ .connectionLost) :
    Local (S := A.system) Speaks (fun x h => Speaks (.finish x) h) (p >>= fun a => pure (f a))
      h := by
  refine Local.bind (S := A.system) (Local.mono (S := A.system) (fun x h _ => ?_)
    (Local.only (S := A.system) (I := fun _ => True) (fun _ a _ ho _ => ⟨.op ho a, trivial⟩)
      (fun _ _ _ _ => ⟨.send, trivial⟩) (fun _ _ _ _ _ => ⟨.recv, trivial⟩) hp trivial))
  cases x with
  | error e => exact .error
  | ok a => exact .finish (hchat a) (hlost a)

/-- The deletions of a `/clear` are of its thread. -/
theorem clear_speaks (t : String) :
    Local (S := A.system) Speaks (fun x h => Speaks (.finish x) h) (A.serve (.clear t))
      [.spawn (.clear t)] := by
  refine Local.bind (S := A.system) (Local.mono (S := A.system) (fun x h _ => ?_)
    (Local.only (S := A.system) (I := fun h => Event.spawn (.clear t) ∈ h) ?_
      (fun _ _ hq _ => hq.elim) (fun _ _ _ hq _ => hq.elim) (clearThread_deletes t) (.head _)))
  · cases x with
    | error e => exact .error
    | ok u => exact .finish (by simp) (by simp)
  · rintro o a h ⟨n, rfl⟩ hm
    refine ⟨⟨nofun, fun t' a' he => ?_, nofun, nofun⟩, .tail _ hm⟩
    cases he
    exact hm

/-- What serves a request says what the request is for. -/
theorem serve_speaks (j : Endpoint Tok) :
    Local (S := A.system) Speaks (fun x h => Speaks (.finish x) h) (A.serve j) [.spawn j] := by
  cases j with
  | chat req =>
    have ha : Saying req [] [Event.spawn (@Endpoint.chat Tok req)] := ⟨.inl (.head _), rfl⟩
    refine Local.bind (S := A.system) (Local.mono (S := A.system) (fun x h hr => ?_)
      (chat_local ha))
    cases x with
    | error e => exact .error
    | ok r =>
      refine ⟨nofun, nofun, fun text metadata he => ?_, nofun⟩
      cases he
      exact ⟨req, hr r rfl⟩
  | chatStream req =>
    have ha : Saying req [] [Event.spawn (@Endpoint.chatStream Tok req)] := ⟨.inr (.head _), rfl⟩
    refine Local.bind (S := A.system) (Local.mono (S := A.system) (fun x h hr => ?_)
      (chatStream_local ha))
    cases x with
    | error e => exact .error
    | ok r =>
      cases r with
      | none =>
        refine ⟨nofun, nofun, fun text metadata he => ?_, fun _ => ⟨req, hr.2 rfl⟩⟩
        cases he
      | some r =>
        refine ⟨nofun, nofun, fun text metadata he => ?_, fun he => ?_⟩
        · cases he
          exact ⟨req, hr.1 r rfl⟩
        · cases he
  | authorize t action =>
    have hp := within_initiateOauth E (allowsTools_keepsHistory t) action
    exact silent_speaks hp (by simp) (by simp)
  | callback code state cookie =>
    exact silent_speaks (keeps_oauthCallback E code state cookie) (by simp) (by simp)
  | state t => exact silent_speaks (keeps_getState A t) (by simp) (by simp)
  | agentToken =>
    have hp := within_fetchAgentToken E (allowsTools_keepsHistory "") (.str "") (.str "")
    exact silent_speaks hp (by simp) (by simp)
  | callTool token name args =>
    exact silent_speaks (keeps_callTool E (.str token) name args) (by simp) (by simp)
  | clear t => exact clear_speaks t

end

/-! ## Histories of what was said -/

section
variable {t : String} {i : Nat}

/-- The sayings on a thread grow by what is said now. -/
theorem sayings_cons (t : String) (x : ServiceEntry Tok) (l : List (ServiceEntry Tok)) :
    sayings t (x :: l) = sayings t l ++
      ((saidOn t x.event).map fun m => (⟨x.task, x.state.monotonic, m⟩ : Said)).toList := by
  unfold sayings
  cases hx : saidOn t x.event with
  | none => simp [hx]
  | some m => simp [hx]

/-- An event that does not write the history of thread `t`. -/
structure Leaves (t : String) (e : ServiceEvent Tok) : Prop where
  set : ∀ v ttl a, e ≠ .op (.set .chatHistory t v ttl) a
  delete : ∀ a, e ≠ .op (.delete .chatHistory t) a

/-- An event writes the history of a thread, deletes it or leaves it. -/
theorem leaves_or (t : String) (e : ServiceEvent Tok) :
    (∃ v ttl a, e = .op (.set .chatHistory t v ttl) a) ∨
      (∃ a, e = .op (.delete .chatHistory t) a) ∨ Leaves t e := by
  by_cases hset : ∃ v ttl a, e = .op (.set .chatHistory t v ttl) a
  · exact .inl hset
  · by_cases hdelete : ∃ a, e = .op (.delete .chatHistory t) a
    · exact .inr (.inl hdelete)
    · exact .inr (.inr ⟨fun v ttl a he => hset ⟨v, ttl, a, he⟩, fun a he => hdelete ⟨a, he⟩⟩)

/-- What leaves the history says nothing. -/
theorem Leaves.saidOn {e : ServiceEvent Tok} (h : Leaves t e) : saidOn t e = none := by
  unfold Agent.saidOn
  split
  · next k v ttl a =>
    refine if_neg fun hk => ?_
    subst hk
    exact h.set v ttl a rfl
  · rfl

/-- What leaves the history leaves the conversation. -/
theorem Leaves.conversation {x : ServiceEntry Tok} (h : Leaves t x.event)
    (l : List (ServiceEntry Tok)) : conversation t (x :: l) = conversation t l := by
  rw [Agent.conversation]
  split
  · next k v ttl a he =>
    refine if_neg fun hk => ?_
    subst hk
    exact h.set v ttl a he
  · next k a he =>
    refine if_neg fun hk => ?_
    subst hk
    exact h.delete a he
  · rfl

section
variable {x : ServiceEntry Tok} (l : List (ServiceEntry Tok))

/-- A write of the history says the newest message. -/
theorem saidOn_set {e : ServiceEvent Tok} {v : Json} {ttl : Nat} {a : Unit}
    (he : e = .op (.set .chatHistory t v ttl) a) : saidOn t e = some (newestOf v) := by
  subst he
  exact if_pos rfl

/-- A deletion of the history says nothing. -/
theorem saidOn_delete {e : ServiceEvent Tok} {a : Unit} (he : e = .op (.delete .chatHistory t) a) :
    saidOn t e = none := by
  subst he
  rfl

/-- A write goes on with the conversation, or begins one if the old one has expired. -/
theorem conversation_set {v : Json} {ttl : Nat} {a : Unit}
    (hx : x.event = .op (.set .chatHistory t v ttl) a) : conversation t (x :: l) =
      (if (x.state.get .chatHistory t).isSome then conversation t l else []) ++
        [⟨x.task, x.state.monotonic, newestOf v⟩] := by
  obtain ⟨i, σ, e⟩ := x
  subst hx
  exact if_pos rfl

/-- A deletion ends the conversation. -/
theorem conversation_delete {a : Unit} (hx : x.event = .op (.delete .chatHistory t) a) :
    conversation t (x :: l) = [] := by
  obtain ⟨i, σ, e⟩ := x
  subst hx
  exact if_pos rfl

end

/-- A conversation is the end of all that was said. -/
theorem conversation_suffix (t : String) (l : List (ServiceEntry Tok)) :
    conversation t l <:+ sayings t l := by
  induction l with
  | nil => exact List.suffix_rfl
  | cons x l ih =>
    rw [sayings_cons]
    obtain ⟨v, ttl, a, he⟩ | ⟨a, he⟩ | he := leaves_or t x.event
    · rw [conversation_set l he, saidOn_set he]
      split
      · obtain ⟨p, hp⟩ := ih
        exact ⟨p, by rw [← hp, List.append_assoc]; rfl⟩
      · exact ⟨sayings t l, rfl⟩
    · rw [conversation_delete l he]
      exact List.nil_suffix
    · rw [he.conversation, he.saidOn]
      exact ih.trans (by simp)

/-- What a task has said on a thread grows by what it says there now. -/
theorem saidBy_cons (i : Nat) (t : String) (x : ServiceEntry Tok) (l : List (ServiceEntry Tok)) :
    saidBy i t (x :: l) = saidBy i t l ++ if x.task = i then (saidOn t x.event).toList else [] := by
  unfold saidBy
  rw [sayings_cons]
  by_cases hi : x.task = i
  · cases hx : saidOn t x.event <;> simp [hi]
  · cases hx : saidOn t x.event <;> simp [hi]

variable {A : Service E}

/-- What a task said is in its trace. -/
theorem saidBy_eq (i : Nat) (t : String) (l : List (ServiceEntry Tok)) :
    saidBy i t l = saidIn t (trace (S := A.system) i l) := by
  induction l with
  | nil => rfl
  | cons x l ih =>
    obtain ⟨k, σ, e⟩ := x
    rw [saidBy_cons, ih]
    by_cases hk : k = i
    · subst hk
      rw [if_pos rfl]
      exact (saidIn_cons t e _).symm.trans
        (congrArg (saidIn t) (trace_cons_self (S := A.system) k σ e l).symm)
    · rw [if_neg hk, List.append_nil]
      exact congrArg (saidIn t) (trace_cons_of_ne (S := A.system) (x := ⟨k, σ, e⟩) hk l).symm

/-- What a task was asked according to its trace it was asked in the run. -/
theorem AskedIn.of {l : List (ServiceEntry Tok)} {req : Ask}
    (h : AskedIn (trace (S := A.system) i l) req) : AskedOf l i req := by
  obtain h | h := h
  · obtain ⟨σ, hσ⟩ := (mem_trace (S := A.system)).1 h
    exact ⟨σ, .inl hσ⟩
  · obtain ⟨σ, hσ⟩ := (mem_trace (S := A.system)).1 h
    exact ⟨σ, .inr hσ⟩

/-- The last message of a trace. -/
theorem saidIn_split {h : ServiceTrace Tok} (hs : saidIn t h ≠ []) : ∃ p v ttl a h',
    h = p ++ .op (.set .chatHistory t v ttl) a :: h' ∧
      saidIn t h = saidIn t h' ++ [newestOf v] := by
  induction h with
  | nil => exact absurd rfl hs
  | cons e h ih =>
    rw [saidIn_cons] at hs ⊢
    obtain ⟨v, ttl, a, he⟩ | he := leaves_or t e
    · exact ⟨[], v, ttl, a, h, by rw [he]; rfl, by rw [saidOn_set he]; rfl⟩
    · have hnone : saidOn t e = none := by
        obtain ⟨a, he⟩ | he := he
        · exact saidOn_delete he
        · exact he.saidOn
      rw [hnone] at hs ⊢
      obtain ⟨p, v, ttl, a, h', rfl, hsaid⟩ := ih (by simpa using hs)
      exact ⟨e :: p, v, ttl, a, h', rfl, by simpa using hsaid⟩

end

/-! ## What is stored -/

section
variable {A : Service E} {m w₀ : Rat}

/-- Each write of a history adds a message to what is stored there. -/
structure Appends (x : ServiceEntry Tok) : Prop where
  appends : ∀ t v ttl a, x.event = .op (.set .chatHistory t v ttl) a → ttl = defaultTtlSeconds ∧
    ∃ history role content, historyOf (x.state.get .chatHistory t) = .ok history ∧
      v = .arr (appendMessage history role content)

/-- Nothing comes between the read of a history and the write that follows it. -/
theorem entries_append {c : A.system.Config} (hc : Reachable (S := A.system) (Shared.start m w₀) c)
    {x : ServiceEntry Tok} (hx : x ∈ c.world.log) : Appends x := by
  obtain ⟨l₁, l₂, hl⟩ := List.append_of_mem hx
  obtain ⟨i, σ, e⟩ := x
  refine ⟨fun t v ttl a he => ?_⟩
  cases he
  have hj := (hc.preempted.justified (S := A.system) serve_speaks hl).resolve_left
    (by rintro ⟨j, ⟨⟩, -⟩)
  obtain ⟨httl, req, s, stored, history, role, content, h', -, htrace, -, -, hhistory, rfl⟩ :=
    hj.adds t v ttl a rfl
  obtain ⟨σ', l₃, rfl, -, hσ⟩ := hc.seamless.below (S := A.system) ⟨l₁, hl.symm⟩ not_false htrace
  -- the answer to the read is what is still stored
  obtain rfl : σ = σ' := hσ
  obtain rfl : stored = σ.get .chatHistory t :=
    (hc.preempted.consistent.before (S := A.system) (hl.trans (List.append_cons ..))).2
  exact ⟨httl, history, role, content, hhistory, rfl⟩

/-- A history is the end of the conversation, for as long as it is kept after the last message. -/
def StoredAt (t : String) (σ : Shared) (l : List (ServiceEntry Tok)) : Prop :=
  σ.store (.chatHistory, t) = (conversation t l).getLast?.map fun last =>
    ⟨.arr (((conversation t l).map Said.message).rtake maxMessages),
      some (last.instant + defaultTtlSeconds)⟩

/-- Appending to the newest messages gives the newest messages. -/
theorem appendMessage_rtake (ms : List Json) (role content : String) :
    appendMessage (ms.rtake maxMessages) role content =
      (ms ++ [message role content]).rtake maxMessages :=
  rtake_concat_rtake (by decide) ms (message role content)

section
variable {t : String} {σ : Shared} {l : List (ServiceEntry Tok)} {history : List Json}

/-- What is read is the conversation, unless that has expired. -/
theorem StoredAt.read (hw : StoredAt t σ l)
    (hread : historyOf (σ.get .chatHistory t) = .ok history) :
    history = ((if (σ.get .chatHistory t).isSome then conversation t l else []).map
      Said.message).rtake maxMessages := by
  cases hget : σ.get .chatHistory t with
  | none =>
    rw [hget] at hread
    cases hread
    rfl
  | some v =>
    have hv : v = .arr (((conversation t l).map Said.message).rtake maxMessages) := by
      unfold Shared.get Expiring.get at hget
      rw [hw] at hget
      cases hlast : (conversation t l).getLast? with
      | none =>
        rw [hlast] at hget
        cases hget
      | some last =>
        rw [hlast] at hget
        dsimp only [Option.map_some] at hget
        split at hget
        · exact (Option.some.inj hget).symm
        · cases hget
    rw [hget, hv, historyOf_arr] at hread
    exact (Except.ok.inj hread).symm

/-- A message that is appended to what is stored is appended to the conversation. -/
theorem StoredAt.set (hw : StoredAt t σ l) {role content : String}
    (hread : historyOf (σ.get .chatHistory t) = .ok history) (i : Nat) (a : Unit) :
    StoredAt t
      (σ.set .chatHistory t (.arr (appendMessage history role content)) defaultTtlSeconds)
      (⟨i, σ, .op (.set .chatHistory t (.arr (appendMessage history role content))
        defaultTtlSeconds) a⟩ :: l) := by
  have hstore : (σ.set .chatHistory t (.arr (appendMessage history role content))
      defaultTtlSeconds).store (.chatHistory, t) = some ⟨.arr (appendMessage history role content),
        some (σ.monotonic + defaultTtlSeconds)⟩ := Expiring.put_self ..
  rw [StoredAt, hstore, conversation_set l rfl, List.getLast?_concat, List.map_append,
    newestOf_append]
  conv_lhs => rw [hw.read hread, appendMessage_rtake]
  rfl

/-- After a deletion an empty conversation is stored. -/
theorem StoredAt.delete (i : Nat) (a : Unit) :
    StoredAt t (σ.delete .chatHistory t) (⟨i, σ, .op (.delete .chatHistory t) a⟩ :: l) := by
  have hstore : (σ.delete .chatHistory t).store (.chatHistory, t) = none := Expiring.erase_self ..
  rw [StoredAt, hstore, conversation_delete l rfl]
  rfl

/-- What leaves the history leaves its entry. -/
theorem Leaves.store {e : ServiceEvent Tok} (he : Leaves t e) :
    (Event.after (S := A.system) e σ).store (.chatHistory, t) = σ.store (.chatHistory, t) := by
  cases e with
  | op o a =>
    cases o with
    | set n k v ttl =>
      refine σ.store_set_of_ne (fun hk => ?_) v ttl
      cases hk
      exact he.set v ttl a rfl
    | delete n k =>
      refine Expiring.erase_of_ne _ fun hk => ?_
      cases hk
      exact he.delete a rfl
    | get | time | monotonic | tokenUrlsafe | validateMcpToken | cachedConfig | cacheConfig => rfl
  | spawn | send | recv | finish => rfl

/-- What leaves the history keeps it the end of the conversation. -/
theorem StoredAt.leave (hw : StoredAt t σ l) {e : ServiceEvent Tok} (he : Leaves t e) (i : Nat) :
    StoredAt t (Event.after (S := A.system) e σ) (⟨i, σ, e⟩ :: l) := by
  have hconversation : conversation t (⟨i, σ, e⟩ :: l) = conversation t l := he.conversation l
  refine (he.store (A := A)).trans (hw.trans ?_)
  rw [hconversation]

end

/-- Every history is stored as the conversation says. -/
theorem storedAt (t : String) {w : A.system.World}
    (hw : Consistent (S := A.system) (Shared.start m w₀) w) (hl : ∀ x ∈ w.log, Appends x) :
    StoredAt t w.state w.log := by
  induction hw with
  | start => rfl
  | @record w i e hw he ih =>
    have ih := ih fun x hx => hl x (.tail _ hx)
    have hx := hl _ (.head _)
    obtain ⟨v, ttl, a, rfl⟩ | ⟨a, rfl⟩ | he := leaves_or t e
    · obtain ⟨rfl, history, role, content, hread, rfl⟩ := hx.appends t v ttl a rfl
      exact ih.set hread i a
    · exact .delete i a
    · exact ih.leave he i
  | pass hw hp ih =>
    obtain ⟨m', w', -, rfl⟩ := hp
    exact ih hl

end

/-! ## Conversations are kept -/

/-- What the chats of a service leave. -/
structure Conversational (σ : Shared) (l : List (ServiceEntry Tok)) : Prop where
  /-- The newest messages of a conversation are stored. -/
  stored : ∀ t, StoredAt t σ l
  /-- A conversation is the end of all that was said on the thread. -/
  spoken : ∀ t, conversation t l <:+ sayings t l
  /-- A task says nothing, or the user's message on the thread that it was asked on and then at
  most one answer. -/
  turns : ∀ i t, saidBy i t l = [] ∨ ∃ req, AskedOf l i req ∧ req.threadId = t ∧
    (saidBy i t l = [message "user" req.message] ∨
      ∃ text, saidBy i t l = [message "user" req.message, message "assistant" text])
  /-- A chat that is answered has said both, and the answer is what it said. -/
  answered : ∀ i σ' text metadata, ⟨i, σ', .finish (.ok (.chat text metadata))⟩ ∈ l → ∃ req,
    AskedOf l i req ∧
      saidBy i req.threadId l = [message "user" req.message, message "assistant" text]
  /-- A stream that lost the model has said what the user said. -/
  lost : ∀ i σ', ⟨i, σ', .finish (.ok .connectionLost)⟩ ∈ l → ∃ req, AskedOf l i req ∧
    saidBy i req.threadId l = [message "user" req.message]
  /-- Only a `/clear` of the thread deletes a history. -/
  cleared : ∀ i σ' t a, ⟨i, σ', .op (.delete .chatHistory t) a⟩ ∈ l →
    ∃ s, ⟨i, s, .spawn (.clear t)⟩ ∈ l

section
variable {A : Service E} {m w₀ : Rat} {c : A.system.Config}

/-- What a task says are the messages of its turn. -/
theorem turn_of (hc : Reachable (S := A.system) (Shared.start m w₀) c)
    {l : List (ServiceEntry Tok)} (hl : c.world.log = l) (i : Nat) (t : String) :
    saidBy i t l = [] ∨ ∃ req, AskedOf l i req ∧ req.threadId = t ∧
      (saidBy i t l = [message "user" req.message] ∨
        ∃ text, saidBy i t l = [message "user" req.message, message "assistant" text]) := by
  rw [saidBy_eq (A := A)]
  by_cases hs : saidIn t (trace (S := A.system) i l) = []
  · exact .inl hs
  · obtain ⟨p, v, ttl, a, h', htrace, hsaid⟩ := saidIn_split hs
    have hj := (hc.preempted.justified_trace (S := A.system) serve_speaks
      (hl ▸ htrace)).resolve_left (by rintro ⟨j, ⟨⟩, -⟩)
    obtain ⟨-, req, s, stored, history, role, content, h'', rfl, rfl, hsaying, hturn, -, rfl⟩ :=
      hj.adds t v ttl a rfl
    have hasked : AskedIn (trace (S := A.system) i l) req := by
      rw [htrace]
      exact hsaying.asked.imp
        (fun hm => List.mem_append_right _ (.tail _ (.tail _ hm)))
        fun hm => List.mem_append_right _ (.tail _ (.tail _ hm))
    have hbefore : saidIn req.threadId (.op (.get .chatHistory req.threadId) stored :: h'') = s :=
      (saidIn_cons ..).trans ((List.append_nil _).trans hsaying.said)
    rw [hsaid, hbefore, newestOf_append]
    refine .inr ⟨req, AskedIn.of (A := A) hasked, rfl, ?_⟩
    obtain ⟨rfl, rfl, rfl⟩ | ⟨rfl, rfl⟩ := hturn
    · exact .inl rfl
    · exact .inr ⟨content, rfl⟩

/-- The end of a task and what it has said. -/
theorem saying_of_finish (hc : Reachable (S := A.system) (Shared.start m w₀) c) {i : Nat}
    {σ : Shared} {x : Except Exn (Answer Tok)} (hx : ⟨i, σ, .finish x⟩ ∈ c.world.log) :
    ∃ h, Speaks (.finish x) h ∧ ∀ req s, Saying req s h →
      AskedOf c.world.log i req ∧ saidBy i req.threadId c.world.log = s := by
  obtain ⟨h, htrace, hj⟩ := hc.preempted.finished (S := A.system) serve_speaks
    ((mem_trace (S := A.system)).2 ⟨σ, hx⟩)
  refine ⟨h, hj, fun req s hs => ?_⟩
  have hcons : Saying req s (trace (S := A.system) i c.world.log) :=
    htrace.symm ▸ hs.cons (e := .finish x) rfl
  exact ⟨AskedIn.of (A := A) hcons.asked, (saidBy_eq (A := A) ..).trans hcons.said⟩

/-- **No message is lost.** Whatever is served at the same time, in whatever order, each history is
the end of what was said on the thread; each chat has added what it was asked, and then what it
answered. -/
theorem conversations_kept (hc : Reachable (S := A.system) (Shared.start m w₀) c) :
    Conversational c.world.state c.world.log where
  stored t := storedAt t hc.preempted.consistent fun x hx => entries_append hc hx
  spoken t := conversation_suffix t _
  turns := turn_of hc rfl
  answered i σ text metadata hx := by
    obtain ⟨h, hj, hsaid⟩ := saying_of_finish hc hx
    obtain ⟨req, hs⟩ := hj.answers text metadata rfl
    exact ⟨req, hsaid _ _ hs⟩
  lost i σ hx := by
    obtain ⟨h, hj, hsaid⟩ := saying_of_finish hc hx
    obtain ⟨req, hs⟩ := hj.loses rfl
    exact ⟨req, hsaid _ _ hs⟩
  cleared i σ t a hx := by
    obtain ⟨l₁, l₂, hl⟩ := List.append_of_mem hx
    have hj := (hc.preempted.justified (S := A.system) serve_speaks hl).resolve_left
      (by rintro ⟨j, ⟨⟩, -⟩)
    obtain ⟨s, hs⟩ := (mem_trace (S := A.system)).1 (hj.clears t a rfl)
    refine ⟨s, ?_⟩
    rw [hl]
    exact List.mem_append_right _ (.tail _ hs)

end

section

open Symbolic

/-- The text of a reply. -/
def repText : Rep → String
  | .response resp => resp.text
  | _ => ""

/-- A service whose model answers with the text of the next reply, and whose client makes it wait. -/
def waitingService : Service env where
  gemini := { losesConnection with
    generate := fun _ _ => .await (.serviceToken false) fun r => .ret [.text (repText r)]
    generate_outside := fun _ _ => ⟨trivial, fun _ => trivial⟩
    stream := fun _ _ => .await (.serviceToken false) fun r => .ret [[.text (repText r)]]
    stream_outside := fun _ _ => ⟨trivial, fun _ => trivial⟩ }
  production := true
  send _ := .await (.serviceToken true) fun _ => .ret ()
  send_outside _ := ⟨trivial, fun _ => trivial⟩

/-- The text of a reply to a task. -/
def replies (i : Nat) (text : String) : waitingService.system.Choice :=
  .reply i (.response ⟨200, text, none⟩)

/-- A chat that is answered after a stream on the same thread, which began after it. -/
def twoChats : waitingService.system.Config :=
  [.spawn 0 (.chat greeting), .spawn 1 (.chatStream { greeting with message := "bye" }),
    replies 1 "", replies 1 "B", replies 1 "", replies 0 "A"].foldl Config.play
      (Config.start (Shared.start 0 0))

/-- Two chats on one thread that are answered in the other order keep all four messages. -/
theorem conversations_kept_two : historyOf (twoChats.world.state.get .chatHistory "t") =
      .ok [message "user" "hi", message "user" "bye", message "assistant" "B",
        message "assistant" "A"] ∧
    Conversational twoChats.world.state twoChats.world.log :=
  ⟨by decide +kernel, conversations_kept (.play .refl _)⟩

end

end Teamspace.Agent
