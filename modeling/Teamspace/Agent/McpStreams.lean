import Teamspace.Lib.Interleaving
import Teamspace.Lib.Slots

/-!
# The slots of the MCP streams

`handle_mcp_sse` of `agent/main.py` keeps a stream open for as long as the client stays, and
`_mcp_sse_slot` bounds how many are open at a time: it counts them in `_mcp_sse_streams` under
`_mcp_sse_lock`. The requests are interleaved at every operation on what they share, and a stream may
be ended by an exception or a cancellation wherever it waits. `stream_slots_kept` says that the
counter is the number of slots that are held all the while.

Logging raises nothing; it is left out, with what is read for it only.
-/

namespace Teamspace.Agent.McpStreams

open Teamspace.Lib

/-! ## The code -/

/-- The exceptions. -/
inductive SseExn
  | httpException (status : Nat) (detail : String)
  /-- Another subclass of `Exception`. -/
  | exception
  /-- What `except Exception` does not catch, as `asyncio.CancelledError`. -/
  | baseException
  deriving DecidableEq, Repr

def SseExn.isException : SseExn → Bool
  | .httpException _ _ | .exception => true
  | .baseException => false

/-- The operations on `_mcp_sse_streams`, `_mcp_sse_lock` and `mcp_token_ctx`. -/
inductive SseOp
  | getStreams
  | setStreams (n : Int)
  | releaseLock
  | setToken (token : String)
  | resetToken (handle : Option String)

abbrev SseOp.Ans : SseOp → Type
  | .getStreams => Int
  | .setToken _ => Option String
  | .setStreams _ | .releaseLock | .resetToken _ => Unit

/-- What a request waits for. -/
inductive SseReq
  | acquireLock
  /-- `mcp_transport.connect_sse(...)`, to its `yield`. -/
  | enterSse
  /-- `mcp_server.run(...)`. -/
  | run
  /-- `mcp_transport.connect_sse(...)`, from its `yield`, where this exception is raised. -/
  | exitSse (e : Option SseExn)
  deriving DecidableEq

abbrev sseInterface : Interface where
  Op := SseOp
  Ans := SseOp.Ans
  Req := SseReq
  Rep := Except SseExn Unit
  Exn := SseExn

abbrev Prog (α : Type) := Program sseInterface α

def getStreams : Prog Int := .op .getStreams .ret

def setStreams (n : Int) : Prog Unit := .op (.setStreams n) .ret

/-- Wait for something that may raise. -/
def awaits (q : SseReq) : Prog Unit := do .ofExcept (← .request q)

/-- `with _mcp_sse_lock: body`. -/
def withSseLock (body : Prog Unit) : Prog Unit := do
  awaits .acquireLock
  body.finallyDo (.op .releaseLock .ret)

/-- `with _mcp_sse_slot(): body`, where `max` is `MAX_MCP_SSE_STREAMS`. -/
def mcpSseSlot (max : Int) (body : Prog Unit) : Prog Unit := do
  withSseLock do
    if max ≤ (← getStreams) then
      .raise (.httpException 503 "Too many open MCP streams")
    else
      setStreams ((← getStreams) + 1)
  body.finallyDo (withSseLock do setStreams ((← getStreams) - 1))

/-- `async with mcp_transport.connect_sse(...) as streams: body`. -/
def withConnectSse (body : Prog Unit) : Prog Unit := do
  awaits .enterSse
  let e ← (do body; return none : Prog (Option SseExn)).tryCatch fun e => return some e
  awaits (.exitSse e)

/-- What a request carries, with what the variable holds in the context of its task. -/
structure SseRequest where
  authorization : Option String
  token : Option String
  accessToken : Option String
  context : Option String

/-- The token of a request: from its header, or from its query. -/
def SseRequest.selectedToken (r : SseRequest) : String :=
  let authHeader := (r.authorization.getD "").toList
  if "Bearer ".toList.isPrefixOf authHeader then
    .ofList (authHeader.drop 7)
  else
    ((r.token.filter (· ≠ "")).or r.accessToken).getD ""

/-- `handle_mcp_sse`. -/
def handleMcpSse (max : Int) (r : SseRequest) : Prog Unit :=
  mcpSseSlot max do
    let ctxToken ← Program.op (.setToken r.selectedToken) .ret
    ((withConnectSse (awaits .run)).tryCatch fun e =>
      if e.isException then return () else .raise e).finallyDo (.op (.resetToken ctxToken) .ret)

/-- `_mcp_sse_streams`, and whether someone has `_mcp_sse_lock`. -/
structure SseGlobals where
  mcpSseStreams : Int
  mcpSseLock : Bool
  deriving DecidableEq, Repr

/-- What an operation does, in the context of the task that runs. -/
def exec : (o : SseOp) → Option String × SseGlobals → o.Ans × (Option String × SseGlobals)
  | .getStreams, (context, g) => (g.mcpSseStreams, context, g)
  | .setStreams n, (context, g) => ((), context, { g with mcpSseStreams := n })
  | .releaseLock, (context, g) => ((), context, { g with mcpSseLock := false })
  | .setToken token, (context, g) => (context, some token, g)
  | .resetToken handle, (_, g) => ((), handle, g)

/-- The lock is given to one who waits for it when it is free. Anything else may come to its end, or
raise anything, at any time. -/
def answers : SseReq → Option String × SseGlobals → Except SseExn Unit →
    Option String × SseGlobals → Prop
  | .acquireLock, w, r, w' => w.2.mcpSseLock = false ∧ r = .ok () ∧
      w' = (w.1, { w.2 with mcpSseLock := true })
  | .enterSse, w, _, w' | .run, w, _, w' | .exitSse _, w, _, w' => w' = w

/-- The requests, each in a task of its own. -/
def sseTasks (max : Int) :
    Interleaving sseInterface (Option String × SseGlobals) (Option String) SseGlobals SseRequest Unit
    where
  env := { exec, answers }
  split := .refl _
  program := handleMcpSse max
  starts r context := context = r.context

/-! ## Slots -/

/-- How often a task has changed the number of streams: once it has taken a slot, and twice when it
has given it back. -/
def changes : List (Act sseInterface) → Nat
  | [] => 0
  | .op (.setStreams _) _ :: acts => changes acts + 1
  | _ :: acts => changes acts

/-- The task has a slot. -/
def HoldsSlot (log : List (Interleaving.Event sseInterface (Option String) SseRequest Unit))
    (i : Nat) : Prop := changes (Interleaving.actsOf i log) = 1

/-- What an act of a task is to the slots. -/
def moveOf : Act sseInterface → Option Slots.Move
  | .op .getStreams n => some (.read n)
  | .op (.setStreams n) _ => some (.write n)
  | .op .releaseLock _ => some .release
  | .exchange .acquireLock _ => some .acquire
  | _ => none

/-- How far a task is after these acts, newest first. -/
def stageAfter (max : Int) : List (Act sseInterface) → Option Slots.Stage
  | [] => some .outside
  | x :: acts => (stageAfter max acts).bind fun a => (moveOf x).elim (some a) (a.next max)

/-- The task is in its stream: it waits for the client or the server. -/
def InStream : SseOp ⊕ SseReq → Prop
  | .inr q => q ≠ .acquireLock
  | .inl _ => False

/-- The acts of a task are those of one who takes and gives back a slot, and it has the slot all the
while it is in its stream. -/
def Law (max : Int) (_ : SseRequest) (acts : List (Act sseInterface)) (x : SseOp ⊕ SseReq) : Prop :=
  ∃ a, stageAfter max acts = some a ∧ (InStream x → a = .inside)

/-- A task ends after it has given the slot back, or has been refused one, with the variable as it
was. -/
structure End (max : Int) (r : SseRequest) (x : Except SseExn Unit) (context : Option String)
    (acts : List (Act sseInterface)) : Prop where
  context : context = r.context
  stage : (stageAfter max acts = some .closed ∧ ∀ e, x = .error e → e.isException = false) ∨
    stageAfter max acts = some .refused ∧
      x = .error (.httpException 503 "Too many open MCP streams")

section

variable {max : Int} {r : SseRequest} {context : Option String} {acts : List (Act sseInterface)}
  {a b : Slots.Stage}

/-- After a move a task is at the next stage. -/
theorem stageAfter_move {x : Act sseInterface} {m : Slots.Move} (ha : stageAfter max acts = some a)
    (hx : moveOf x = some m) (hm : a.next max m = some b) :
    stageAfter max (x :: acts) = some b := by
  rw [stageAfter, ha, hx]
  exact hm

/-- After anything else it is where it was. -/
theorem stageAfter_quiet {x : Act sseInterface} (ha : stageAfter max acts = some a)
    (hx : moveOf x = none) : stageAfter max (x :: acts) = some a := by
  rw [stageAfter, ha, hx]
  rfl

/-- Every operation is allowed. -/
theorem law_op {o : SseOp} (ha : stageAfter max acts = some a) : Law max r acts (.inl o) :=
  ⟨a, ha, False.elim⟩

/-- `with _mcp_sse_lock: body`. -/
theorem withSseLock_obeys {body : Prog Unit}
    {Q : Except SseExn Unit → Option String → List (Act sseInterface) → Prop}
    (ha : stageAfter max acts = some a) (hacquire : a.next max .acquire = some b)
    (hbody : ∀ acts', stageAfter max acts' = some b →
      (sseTasks max).Obeys (Law max r) body context acts' fun x context acts =>
        ∃ c d, stageAfter max acts = some c ∧ c.next max .release = some d ∧
          ∀ acts, stageAfter max acts = some d → Q x context acts) :
    (sseTasks max).Obeys (Law max r) (withSseLock body) context acts Q := by
  refine ⟨⟨a, ha, fun h => absurd rfl h⟩, fun g x w hw => ?_⟩
  obtain ⟨-, rfl, rfl⟩ := hw
  refine Interleaving.Obeys.finallyDo ((hbody _ (stageAfter_move ha rfl hacquire)).mono ?_)
  rintro x context acts ⟨c, d, hc, hd, hQ⟩
  exact ⟨law_op hc, fun g => hQ _ (stageAfter_move hc rfl hd)⟩

/-- The stream itself only waits. -/
theorem only_stream :
    Program.Only (fun _ => False) (· ≠ SseReq.acquireLock) (withConnectSse (awaits .run)) := by
  have hawaits (q : SseReq) (hq : q ≠ .acquireLock) :
      Program.Only (I := sseInterface) (fun _ => False) (· ≠ .acquireLock) (awaits q) :=
    .bind ⟨hq, fun _ => trivial⟩ fun x => Program.only_ofExcept (I := sseInterface) x
  refine .bind (hawaits _ nofun) fun _ => .bind (.tryCatch ?_ fun _ => trivial) fun e =>
    hawaits _ nofun
  exact .bind (hawaits _ nofun) fun _ => trivial

/-- What a request does with its slot: it sets the variable and resets it, and raises no
`Exception`. -/
theorem body_obeys (r : SseRequest) (ha : stageAfter max acts = some .inside) :
    (sseTasks max).Obeys (Law max r) (do
      let ctxToken ← Program.op (.setToken r.selectedToken) .ret
      ((withConnectSse (awaits .run)).tryCatch fun e =>
        if e.isException then return () else .raise e).finallyDo (.op (.resetToken ctxToken) .ret))
      context acts fun x context' acts =>
        context' = context ∧ stageAfter max acts = some .inside ∧
          ∀ e, x = .error e → e.isException = false := by
  refine ⟨law_op ha, fun g => Interleaving.Obeys.finallyDo (Interleaving.Obeys.tryCatch ?_)⟩
  have hstream : (sseTasks max).Obeys (Law max r) (withConnectSse (awaits .run))
      (some r.selectedToken) (.op (.setToken r.selectedToken) context :: acts)
      fun _ _ acts => stageAfter max acts = some .inside := by
    refine Interleaving.Obeys.only only_stream (stageAfter_quiet ha rfl) (fun _ _ _ => False.elim)
      (fun _ acts q _ ha => ⟨_, ha, fun _ => rfl⟩) (fun _ _ _ _ => False.elim) ?_
    intro q _ acts g x w hq ha _
    refine stageAfter_quiet ha ?_
    cases q with
    | acquireLock => exact absurd rfl hq
    | enterSse | run | exitSse => rfl
  refine hstream.mono fun x _ acts ha => ?_
  cases x with
  | ok u => exact ⟨law_op ha, fun g => ⟨rfl, stageAfter_quiet ha rfl, nofun⟩⟩
  | error e =>
    change (sseTasks max).Obeys _ (if _ then _ else _) _ _ _
    split
    · exact ⟨law_op ha, fun g => ⟨rfl, stageAfter_quiet ha rfl, nofun⟩⟩
    · next he =>
      refine ⟨law_op ha, fun g => ⟨rfl, stageAfter_quiet ha rfl, fun e' h => ?_⟩⟩
      cases h
      simpa using he

/-- The first of the two `with _mcp_sse_lock`: it takes a slot, or raises because there is none. -/
theorem entering_obeys (ha : stageAfter max acts = some (.entering [])) :
    (sseTasks max).Obeys (Law max r) (do
      if max ≤ (← getStreams) then
        .raise (.httpException 503 "Too many open MCP streams")
      else
        setStreams ((← getStreams) + 1))
      context acts fun x context' acts => context' = context ∧
        ((x = .ok () ∧ stageAfter max acts = some .entered) ∨
          x = .error (.httpException 503 "Too many open MCP streams") ∧
            ∃ l, stageAfter max acts = some (.entering l) ∧ ∃ m ∈ l, max ≤ m) := by
  refine ⟨law_op ha, fun g => ?_⟩
  have hread := stageAfter_move (x := .op .getStreams g.mcpSseStreams) ha rfl rfl
  change (sseTasks max).Obeys _ (if max ≤ g.mcpSseStreams then _ else _) _ _ _
  split
  · next hle => exact ⟨rfl, .inr ⟨rfl, _, hread, _, List.mem_singleton_self _, hle⟩⟩
  · next hlt =>
    refine ⟨law_op hread, fun g' => ?_⟩
    have hread' := stageAfter_move (x := .op .getStreams g'.mcpSseStreams) hread rfl rfl
    refine ⟨law_op hread', fun g'' => ⟨rfl, .inl ⟨rfl, stageAfter_move hread' rfl (if_pos ?_)⟩⟩⟩
    refine ⟨⟨_, List.mem_cons_of_mem _ (List.mem_singleton_self _), by omega⟩, ?_⟩
    exact List.mem_cons.2 (.inl (Int.add_sub_cancel _ 1))

/-- The second: it gives the slot back. -/
theorem leaving_obeys (ha : stageAfter max acts = some (.leaving [])) :
    (sseTasks max).Obeys (Law max r) (do setStreams ((← getStreams) - 1)) context acts
      fun x context' acts => context' = context ∧ x = .ok () ∧
        stageAfter max acts = some .left := by
  refine ⟨law_op ha, fun g => ?_⟩
  have hread := stageAfter_move (x := .op .getStreams g.mcpSseStreams) ha rfl rfl
  refine ⟨law_op hread, fun g' => ⟨rfl, rfl, stageAfter_move hread rfl (if_pos ?_)⟩⟩
  exact List.mem_singleton.2 (Int.sub_add_cancel _ 1)

/-- A request takes a slot and gives it back, or is refused one. -/
theorem handleMcpSse_obeys (max : Int) (r : SseRequest) :
    (sseTasks max).Obeys (Law max r) (handleMcpSse max r) r.context [] (End max r) := by
  refine Interleaving.Obeys.bind (withSseLock_obeys (a := .outside) rfl rfl fun acts ha => ?_)
  refine (entering_obeys ha).mono fun x context acts hx => ?_
  obtain ⟨rfl, ⟨rfl, hentered⟩ | ⟨rfl, l, hentering, hfull⟩⟩ := hx
  · refine ⟨_, .inside, hentered, rfl, fun acts hinside => ?_⟩
    refine Interleaving.Obeys.finallyDo ((body_obeys r hinside).mono ?_)
    rintro x context acts ⟨rfl, hinside, hx⟩
    refine withSseLock_obeys hinside rfl fun acts hleaving => ?_
    refine (leaving_obeys hleaving).mono fun y context acts hy => ?_
    obtain ⟨rfl, rfl, hleft⟩ := hy
    exact ⟨_, _, hleft, rfl, fun acts hclosed => ⟨rfl, .inl ⟨hclosed, hx⟩⟩⟩
  · refine ⟨_, .refused, hentering, if_pos hfull, fun acts hrefused => ?_⟩
    exact ⟨rfl, .inr ⟨hrefused, rfl⟩⟩

end

/-! ## Runs -/

/-- Before the first request. -/
def noStreams : SseGlobals := ⟨0, false⟩

/-- How far every task is. -/
structure Staged (max : Int)
    (c : Interleaving.Config sseInterface (Option String) SseGlobals SseRequest Unit)
    (stage : Nat → Slots.Stage) : Prop where
  stages : ∀ i, stageAfter max (Interleaving.actsOf i c.log) = some (stage i)
  counted : Slots.Counted max c.shared.mcpSseStreams c.shared.mcpSseLock stage

section

variable {max : Int}
  {c c' : Interleaving.Config sseInterface (Option String) SseGlobals SseRequest Unit}
  {stage : Nat → Slots.Stage}

/-- Whatever is left of a task, it is at some stage. -/
theorem staged_of_obeys {r : SseRequest} {p : Prog Unit} {context : Option String}
    {acts : List (Act sseInterface)}
    (h : (sseTasks max).Obeys (Law max r) p context acts (End max r)) :
    ∃ a, stageAfter max acts = some a := by
  have hend {x : Except SseExn Unit} (h : End max r x context acts) :
      ∃ a, stageAfter max acts = some a := by
    rcases h.stage with ⟨h, -⟩ | ⟨h, -⟩
    · exact ⟨_, h⟩
    · exact ⟨_, h⟩
  cases p with
  | ret u => exact hend h
  | raise e => exact hend h
  | op o k => exact ⟨_, h.1.choose_spec.1⟩
  | await q k => exact ⟨_, h.1.choose_spec.1⟩

/-- A task acts, and is at some stage thereafter. -/
theorem Staged.act {i : Nat} {job : SseRequest} {x : Act sseInterface} {b : Slots.Stage}
    {g : SseGlobals} {t : Nat → Option (Interleaving.Task sseInterface (Option String) SseRequest Unit)}
    (h : Staged max c stage) (hb : stageAfter max (x :: Interleaving.actsOf i c.log) = some b)
    (hquiet : moveOf x = none → g = c.shared)
    (hdoes : ∀ m, moveOf x = some m → m.Does c.shared.mcpSseStreams c.shared.mcpSseLock
      g.mcpSseStreams g.mcpSseLock) :
    Staged max ⟨g, t, .act i job x :: c.log⟩ (Function.update stage i b) := by
  have hnext : (moveOf x).elim (some (stage i)) ((stage i).next max) = some b := by
    rw [stageAfter, h.stages i] at hb
    exact hb
  refine ⟨fun j => ?_, ?_⟩
  · by_cases hj : j = i
    · subst hj
      rw [Function.update_self, Interleaving.actsOf, if_pos rfl, hb]
    · rw [Function.update_of_ne hj, Interleaving.actsOf, if_neg (Ne.symm hj)]
      exact h.stages j
  · cases hx : moveOf x with
    | none =>
      rw [hx] at hnext
      obtain rfl := Option.some.inj hnext
      rw [Function.update_eq_self, hquiet hx]
      exact h.counted
    | some m =>
      rw [hx] at hnext
      exact h.counted.move hnext (hdoes m hx)

/-- An event that is no act changes no stage. -/
theorem Staged.event {e : Interleaving.Event sseInterface (Option String) SseRequest Unit}
    {t : Nat → Option (Interleaving.Task sseInterface (Option String) SseRequest Unit)}
    (h : Staged max c stage)
    (he : ∀ i, Interleaving.actsOf i (e :: c.log) = Interleaving.actsOf i c.log) :
    Staged max ⟨c.shared, t, e :: c.log⟩ stage := by
  refine ⟨fun i => ?_, h.counted⟩
  rw [he]
  exact h.stages i

/-- An operation that is a move does it to the counter and the lock. -/
theorem exec_does (o : SseOp) (context : Option String) (g : SseGlobals) (m : Slots.Move)
    (hm : moveOf (.op o (exec o (context, g)).1) = some m) :
    m.Does g.mcpSseStreams g.mcpSseLock (exec o (context, g)).2.2.mcpSseStreams
      (exec o (context, g)).2.2.mcpSseLock := by
  cases o with
  | getStreams => cases hm; exact .read
  | setStreams n => cases hm; exact .write
  | releaseLock => cases hm; exact .release
  | setToken token => cases hm
  | resetToken handle => cases hm

/-- Any other operation leaves them. -/
theorem exec_quiet (o : SseOp) (context : Option String) (g : SseGlobals)
    (hm : moveOf (.op o (exec o (context, g)).1) = none) : (exec o (context, g)).2.2 = g := by
  cases o with
  | getStreams => cases hm
  | setStreams n => cases hm
  | releaseLock => cases hm
  | setToken token => rfl
  | resetToken handle => rfl

/-- Every step leaves every task at some stage, and the counter right. -/
theorem Staged.step (h : Staged max c stage) (hstep : (sseTasks max).Step c c')
    (hobedient : (sseTasks max).Obedient (Law max) (End max) c') :
    ∃ stage', Staged max c' stage' := by
  cases hstep with
  | start i job a hfresh hjob => exact ⟨stage, h.event fun _ => rfl⟩
  | @op i job a o k hi =>
    obtain ⟨b, hb⟩ := staged_of_obeys (hobedient.live i _ (Function.update_self ..)).1
    rw [Interleaving.actsOf, if_pos rfl] at hb
    exact ⟨_, h.act hb (exec_quiet o a c.shared) (exec_does o a c.shared)⟩
  | @exchange i job a q k r w hi hr =>
    obtain ⟨b, hb⟩ := staged_of_obeys (hobedient.live i _ (Function.update_self ..)).1
    rw [Interleaving.actsOf, if_pos rfl] at hb
    refine ⟨_, h.act hb (fun hm => ?_) fun m hm => ?_⟩
    · cases q with
      | acquireLock => cases hm
      | enterSse | run | exitSse => rw [show w = _ from hr]; rfl
    · cases q with
      | acquireLock =>
        cases hm
        obtain ⟨hfree, -, rfl⟩ := hr
        rw [show c.shared.mcpSseLock = false from hfree]
        exact .acquire
      | enterSse | run | exitSse => cases hm
  | finish x hi => exact ⟨stage, h.event fun _ => rfl⟩

/-- In every run, the counter is right. -/
theorem staged (hmax : 0 ≤ max) (h : (sseTasks max).Reachable noStreams c) :
    ∃ stage, Staged max c stage := by
  induction h with
  | refl => exact ⟨_, fun _ => rfl, .start hmax⟩
  | tail hrun hstep ih =>
    obtain ⟨stage, hstage⟩ := ih
    refine hstage.step hstep (Interleaving.Reachable.obedient ?_ (hrun.tail hstep))
    rintro r context rfl
    exact handleMcpSse_obeys max r

/-- The stage of a task tells how often it has changed the number of streams. -/
theorem changes_eq {a : Slots.Stage} : ∀ {acts : List (Act sseInterface)},
    stageAfter max acts = some a → changes acts = a.writes
  | [], h => by cases h; rfl
  | x :: acts, h => by
    obtain ⟨b, hb, hx⟩ := Option.bind_eq_some_iff.1 h
    have ih := changes_eq hb
    cases x with
    | op o ans =>
      cases o with
      | setStreams n => exact congrArg (· + 1) ih |>.trans (Slots.Stage.writes_write hx).symm
      | getStreams => exact ih.trans (Slots.Stage.writes_same (by simp) hx).symm
      | releaseLock => exact ih.trans (Slots.Stage.writes_same (by simp) hx).symm
      | setToken token => cases hx; exact ih
      | resetToken handle => cases hx; exact ih
    | exchange q r =>
      cases q with
      | acquireLock => exact ih.trans (Slots.Stage.writes_same (by simp) hx).symm
      | enterSse | run | exitSse => cases hx; exact ih

/-- Who has a slot according to the log holds one. -/
theorem Staged.holdsSlot_iff (h : Staged max c stage) (i : Nat) :
    HoldsSlot c.log i ↔ (stage i).holds = true := by
  rw [HoldsSlot, changes_eq (h.stages i), Slots.Stage.holds_iff]

/-- Whatever requests are served, however they are interleaved and whatever ends their streams, the
number of streams is the number of slots that are held, which is no less than none and no more than
the maximum. A request has a slot while it is in its stream and none when it has ended, and one that
is refused leaves the number as it is. -/
theorem stream_slots_kept (hmax : 0 ≤ max) (h : (sseTasks max).Reachable noStreams c) :
    {i | HoldsSlot c.log i}.Finite ∧
    c.shared.mcpSseStreams = {i | HoldsSlot c.log i}.ncard ∧
    0 ≤ c.shared.mcpSseStreams ∧ c.shared.mcpSseStreams ≤ max ∧
    (∀ i r context q k, c.task i = some ⟨r, context, .await q k⟩ → q ≠ .acquireLock →
      HoldsSlot c.log i) ∧
    (∀ i r x context, .ends i r x context ∈ c.log → ¬HoldsSlot c.log i) ∧
    ∀ i r context,
      .ends i r (.error (.httpException 503 "Too many open MCP streams")) context ∈ c.log →
        changes (Interleaving.actsOf i c.log) = 0 := by
  have hobedient : (sseTasks max).Obedient (Law max) (End max) c := by
    refine h.obedient ?_
    rintro r context rfl
    exact handleMcpSse_obeys max r
  obtain ⟨stage, hstage⟩ := staged hmax h
  have hholders : {i | HoldsSlot c.log i} = Slots.holders stage := Set.ext hstage.holdsSlot_iff
  rw [hholders]
  refine ⟨hstage.counted.finite, hstage.counted.held, hstage.counted.nonneg, hstage.counted.le,
    fun i r context q k hi hq => ?_, fun i r x context hends => ?_, fun i r context hends => ?_⟩
  · obtain ⟨a, ha, hstream⟩ := (hobedient.live i _ hi).1.1
    obtain rfl := hstream hq
    rw [HoldsSlot, changes_eq ha]
    rfl
  · rw [HoldsSlot]
    rcases (hobedient.ended hends).stage with ⟨hclosed, -⟩ | ⟨hrefused, -⟩
    · rw [changes_eq hclosed]
      exact nofun
    · rw [changes_eq hrefused]
      exact nofun
  · rcases (hobedient.ended hends).stage with ⟨-, hexn⟩ | ⟨hrefused, -⟩
    · exact absurd (hexn _ rfl) nofun
    · exact changes_eq hrefused

/-- A request whose stream is ended by an exception, the slot being the only one. -/
def crashed : SseRequest := ⟨some "Bearer t", none, none, none⟩

/-- Its slot is free again. -/
theorem stream_slots_kept_crashed : ∃ c, (sseTasks 1).Reachable noStreams c ∧
    .ends 0 crashed (.ok ()) none ∈ c.log ∧
    c.shared.mcpSseStreams = {i | HoldsSlot c.log i}.ncard ∧ ¬HoldsSlot c.log 0 := by
  obtain ⟨l, hrun, -⟩ := Interleaving.serves (M := sseTasks 1) (i := 0) (a := none) (x := .ok ())
    _ ⟨noStreams, fun _ => none, []⟩ (List.forall_mem_nil _) (rfl : _ = crashed.context)
    rfl (fun _ _ _ _ h => h)
    ⟨.ok (), _, ⟨rfl, rfl, rfl⟩, .ok (), _, rfl, .error .exception, _, rfl, .error .exception, _,
      rfl, .ok (), _, ⟨rfl, rfl, rfl⟩, rfl, rfl⟩
  have hkept := stream_slots_kept (by decide) hrun
  exact ⟨_, hrun, List.mem_cons_self, hkept.2.1, hkept.2.2.2.2.2.1 0 _ _ _ List.mem_cons_self⟩

end

end Teamspace.Agent.McpStreams
