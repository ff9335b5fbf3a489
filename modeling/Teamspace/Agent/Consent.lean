import Teamspace.Agent.Invariants
import Teamspace.Agent.Symbolic

/-!
# Consent and what is committed

The pending meeting, the flow state and the action that the user consented to are written by
different endpoints. What always holds (`PendingOrigin`): a pending meeting was stored by a preview,
and where an action is authorized, it was pending already when the `/callback` authorized it.
`ConsentBound` says more, that the preview was one of the authorized action. The service does not
keep it: an old authorization link may be completed after a newer preview (`crossed_not_bound`). It
does keep it in the runs in which every completing `/callback` matches the preview that stands
(`consent_bound`).

A committing tool sends the arguments of its own call (`commit_carries`), not the pending meeting
(`rewritten_not_previewed`); only the confirmation path takes them from there.
-/

namespace Teamspace.Agent

open Teamspace.Lib Teamspace.Py Teamspace.Lib.System

variable {Tok : Type} (E : Env Tok)

/-! ## The preview that stands -/

/-- The pending meeting `v` of thread `t` was stored by a preview of action `a`. -/
def Previewed (l : List (AgentEntry Tok)) (t : String) (a : Action) (v : Json) : Prop :=
  ∃ x args, lastSet .pendingMeeting t l = some x ∧ x.value = v ∧
    Calls l x.task a.previewName args ∧ threadIdOf args = some t ∧
    v = .obj (Dict.without args "thread_id")

/-- A `/callback` authorized action `a` on thread `t` while `v` was pending there, which a preview
had stored, and nothing else has been stored there since. -/
def Consented (l : List (AgentEntry Tok)) (t : String) (a : Action) (v : Json) : Prop :=
  ∃ i σ ttl l', ⟨i, σ, .op (.set .flowState t (.str (FlowState.authorized a).value) ttl) ()⟩ ::
      l' <:+ l ∧ σ.get .pendingMeeting t = some v ∧ (∃ b, Previewed l' t b v) ∧
    lastSet .pendingMeeting t l = lastSet .pendingMeeting t l'

/-- What is pending on thread `t` was previewed. -/
def PendingPreviewed (t : String) (w : AgentWorld E) : Prop :=
  ∀ v, w.state.get .pendingMeeting t = some v → ∃ b, Previewed w.log t b v

/-- What is pending on thread `t` beside an authorized action was pending when the action was
authorized. -/
def PendingConsented (t : String) (w : AgentWorld E) : Prop :=
  ∀ a v, flowStateOf (w.state.get .flowState t) = .authorized a →
    w.state.get .pendingMeeting t = some v → Consented w.log t a v

/-- Where the pending meetings come from. -/
def PendingOrigin (w : AgentWorld E) : Prop :=
  ∀ t, PendingPreviewed E t w ∧ PendingConsented E t w

/-- A preview still stands while the write that it made stands. -/
theorem Previewed.mono {l l' : List (AgentEntry Tok)} {t : String} {a : Action} {v : Json}
    (h : Previewed l t a v) (hl : l <:+ l')
    (he : lastSet .pendingMeeting t l' = lastSet .pendingMeeting t l) : Previewed l' t a v := by
  obtain ⟨x, args, hx, hv, hc, ht, hva⟩ := h
  exact ⟨x, args, he.trans hx, hv, hc.mono hl, ht, hva⟩

/-- What was consented to is still previewed. -/
theorem Consented.previewed {l : List (AgentEntry Tok)} {t : String} {a : Action} {v : Json}
    (h : Consented l t a v) : ∃ b, Previewed l t b v := by
  obtain ⟨i, σ, ttl, l', hl, -, ⟨b, hb⟩, he⟩ := h
  exact ⟨b, hb.mono ((List.suffix_cons _ _).trans hl) he⟩

section
variable {E} {t : String} {m w₀ : Rat} {w w' : AgentWorld E}
  (hw' : Consistent (S := agentSystem E) (Shared.start m w₀) w') {x : AgentEntry Tok}
  (hlog : w'.log = x :: w.log)
  (hx : ∀ v ttl b, x.event ≠ .op (.set .pendingMeeting t v ttl) b)
  (hp : ∀ v, w'.state.get .pendingMeeting t = some v → w.state.get .pendingMeeting t = some v)

include hw' hlog hx hp

/-- An entry that stores no pending meeting keeps the previewed ones. -/
theorem PendingPreviewed.record (hI : PendingPreviewed E t w) : PendingPreviewed E t w' := by
  intro v hv
  have he := lastSet_of_get E hw' hlog hv (fun v => hx v)
  obtain ⟨b, hb⟩ := hI v (hp v hv)
  refine ⟨b, hb.mono ?_ he⟩
  rw [hlog]
  exact List.suffix_cons _ _

/-- If it authorizes nothing either, it keeps those that were consented to. -/
theorem PendingConsented.record (hf : ∀ a, flowStateOf (w'.state.get .flowState t) =
      .authorized a → flowStateOf (w.state.get .flowState t) = .authorized a)
    (hI : PendingConsented E t w) : PendingConsented E t w' := by
  intro a v hft hv
  have he := lastSet_of_get E hw' hlog hv (fun v => hx v)
  obtain ⟨i, σ, ttl, l', hl, hg, hb, he'⟩ := hI a v (hf a hft) (hp v hv)
  refine ⟨i, σ, ttl, l', hl.trans ?_, hg, hb, he.trans he'⟩
  rw [hlog]
  exact List.suffix_cons _ _

end

variable {E} in
/-- An entry that touches neither the pending meeting nor the flow state keeps the origin. -/
theorem PendingOrigin.record {m w₀ : Rat} {w w' : AgentWorld E}
    (hw' : Consistent (S := agentSystem E) (Shared.start m w₀) w') {x : AgentEntry Tok}
    (hlog : w'.log = x :: w.log)
    (hx : ∀ t v ttl b, x.event ≠ .op (.set .pendingMeeting t v ttl) b)
    (hp : ∀ t v, w'.state.get .pendingMeeting t = some v → w.state.get .pendingMeeting t = some v)
    (hf : ∀ t a, flowStateOf (w'.state.get .flowState t) = .authorized a →
      flowStateOf (w.state.get .flowState t) = .authorized a)
    (hI : PendingOrigin E w) : PendingOrigin E w' :=
  fun t => ⟨(hI t).1.record hw' hlog (hx t) (hp t), (hI t).2.record hw' hlog (hx t) (hp t) (hf t)⟩

variable {E} in
/-- A preview stores what is pending on its thread, where nothing is authorized. -/
theorem PendingOrigin.preview {m w₀ : Rat} {i : Nat} {w : AgentWorld E}
    (hw : Consistent (S := agentSystem E) (Shared.start m w₀) w) {a : Action} {t : String}
    {args : Dict} {ttl : Nat} (hc : Calls w.log i a.previewName args)
    (ht : threadIdOf args = some t)
    (hf : ∀ b, flowStateOf (w.state.get .flowState t) ≠ .authorized b) (hI : PendingOrigin E w) :
    PendingOrigin E
      (w.perform i (.set .pendingMeeting t (.obj (Dict.without args "thread_id")) ttl)) := by
  intro t'
  by_cases htt : t' = t
  · subst htt
    refine ⟨fun v hv => ?_, fun b v hb _ => absurd (exec_flow_of_ne E hb nofun) (hf b)⟩
    have hv : v = .obj (Dict.without args "thread_id") := Shared.get_set_self hv
    subst hv
    exact ⟨a, ⟨i, w.state, _, ttl⟩, args, lastSet_set_self .., rfl,
      hc.mono (List.suffix_cons _ _), ht, rfl⟩
  · have hne : ∀ v ttl', Op.set .pendingMeeting t (.obj (Dict.without args "thread_id")) ttl ≠
        .set .pendingMeeting t' v ttl' := by
      intro v ttl' he
      cases he
      exact htt rfl
    have hx : ∀ v ttl' b, (Event.op (.set .pendingMeeting t (.obj (Dict.without args "thread_id"))
        ttl) () : AgentEvent Tok) ≠ .op (.set .pendingMeeting t' v ttl') b := by
      intro v ttl' b he
      cases he
      exact htt rfl
    have hp : ∀ v, _ → w.state.get .pendingMeeting t' = some v :=
      fun v hv => exec_get_of_ne E hv fun ttl' => hne v ttl'
    exact ⟨(hI t').1.record (hw.perform i _) rfl hx hp,
      (hI t').2.record (hw.perform i _) rfl hx hp fun b hb => exec_flow_of_ne E hb nofun⟩

variable {E} in
/-- A flow state is set: what is pending then is what the user consents to. -/
theorem PendingOrigin.authorize {m w₀ : Rat} {i : Nat} {w : AgentWorld E}
    (hw : Consistent (S := agentSystem E) (Shared.start m w₀) w) {t : String} {s : FlowState}
    {ttl : Nat} (hI : PendingOrigin E w) :
    PendingOrigin E (w.perform i (.set .flowState t (.str s.value) ttl)) := by
  intro t'
  have hp : ∀ v, (w.perform i (.set .flowState t (.str s.value) ttl)).state.get .pendingMeeting t' =
      some v → w.state.get .pendingMeeting t' = some v :=
    fun v hv => exec_get_of_ne E hv nofun
  have hx : ∀ v ttl' b, (Event.op (.set .flowState t (.str s.value) ttl) () : AgentEvent Tok) ≠
      .op (.set .pendingMeeting t' v ttl') b := fun v ttl' b he => by cases he
  refine ⟨(hI t').1.record (hw.perform i _) rfl hx hp, ?_⟩
  by_cases htt : t' = t
  · subst htt
    intro a v ha hv
    have hs := flow_set_self ha
    subst hs
    exact ⟨i, w.state, ttl, w.log, List.suffix_refl _, hp v hv, (hI t').1 v (hp v hv),
      lastSet_cons hx nofun⟩
  · refine (hI t').2.record (hw.perform i _) rfl hx hp fun a ha => ?_
    refine exec_flow_of_ne E ha fun x ttl' he => ?_
    cases he
    exact htt rfl

variable {E} in
/-- Every move keeps the origin of the pending meetings. -/
theorem PendingOrigin.move {m w₀ : Rat} {i : Nat} {w w' : AgentWorld E}
    (hw : Consistent (S := agentSystem E) (Shared.start m w₀) w) (hm : Move E i w w')
    (hI : PendingOrigin E w) : PendingOrigin E w' := by
  have emit : ∀ {w : AgentWorld E}, Consistent (S := agentSystem E) (Shared.start m w₀) w →
      PendingOrigin E w → ∀ {e : AgentEvent Tok}, (∀ o a, e ≠ .op o a) →
      PendingOrigin E (w.emit i e) :=
    fun hw hI e he => hI.record (hw.emit i he) rfl (fun t v ttl b => he _ b) (fun _ _ h => h)
      fun _ _ h => h
  have mild : ∀ {w : AgentWorld E}, Consistent (S := agentSystem E) (Shared.start m w₀) w →
      PendingOrigin E w → ∀ {o : Op}, o.Mild → PendingOrigin E (w.perform i o) := by
    intro w hw hI o ho
    refine hI.record (hw.perform i o) rfl (fun t v ttl b he => ?_)
      (fun _ _ h => ho.get E (.inl rfl) h) fun _ _ h => ho.flow E h
    cases he
    exact ho.1 rfl
  cases hm with
  | mild o ho => exact mild hw hI ho
  | preview a t args hc ht =>
    exact (hI.authorize hw).preview (hw.perform i _) (hc.mono (List.suffix_cons _ _)) ht
      fun b hb => nomatch flow_set_self hb
  | commit a c _ => exact emit hw hI nofun
  | send q _ => exact emit hw hI nofun
  | recv q r _ => exact emit hw hI nofun
  | success a c r _ _ _ _ =>
    have hw₁ := hw.emit i (e := .recv (a.commitTool.request c) r) nofun
    have hf := emit hw hI (e := .recv (a.commitTool.request c) r) nofun
    have hw₂ := hw₁.perform i (.set .flowState c.threadId (.str FlowState.initial.value)
      defaultTtlSeconds)
    have hp := mild hw₂ (hf.authorize hw₁) (o := .delete .pendingMeeting c.threadId) trivial
    exact mild (hw₂.perform i _) hp trivial
  | complete t action token expiresAt _ _ =>
    have h₁ := hI.record (hw.perform i (.set .oboToken t (.obj [("token", token),
      ("expires_at", expiresAt)]) tokenTtlSeconds)) rfl nofun
      (fun _ _ h => exec_get_of_ne E h nofun) fun _ _ h => exec_flow_of_ne E h nofun
    have hw₁ := hw.perform i (.set .oboToken t (.obj [("token", token),
      ("expires_at", expiresAt)]) tokenTtlSeconds)
    exact emit (hw₁.perform i _) (h₁.authorize hw₁) nofun
  | spawn j _ => exact emit hw hI nofun
  | finish x _ _ => exact emit hw hI nofun

variable {E} in
/-- The passage of time keeps it too. -/
theorem PendingOrigin.pass {w : AgentWorld E} {σ' : Shared} (hp : w.state.Passes σ')
    (hI : PendingOrigin E w) : PendingOrigin E { w with state := σ' } :=
  fun t => ⟨fun v hv => (hI t).1 v (hp.get hv), fun a v hf hv =>
    (hI t).2 a v (passes_flow hp hf) (hp.get hv)⟩

/-- At the start nothing is pending. -/
theorem PendingOrigin.start (m w₀ : Rat) : PendingOrigin E ⟨Shared.start m w₀, []⟩ :=
  fun _ => ⟨fun _ h => absurd h nofun, fun _ _ _ h => absurd h nofun⟩

/-- The origin of the pending meetings, in every reachable world. -/
theorem Reachable.pendingOrigin {m w₀ : Rat} {c : (agentSystem E).Config}
    (hc : System.Reachable (Shared.start m w₀) c) : PendingOrigin E c.world :=
  Reachable.invariant E (PendingOrigin.start E m w₀) (fun _ _ _ hw hm hI => hI.move hw hm)
    (fun _ _ _ hp hI => hI.pass hp) hc

/-! ## Consent -/

/-- Whenever an action is authorized on a thread and a meeting is pending there, a preview of the
same action stored it. -/
def ConsentBound (w : AgentWorld E) : Prop :=
  ∀ t a v, flowStateOf (w.state.get .flowState t) = .authorized a →
    w.state.get .pendingMeeting t = some v → Previewed w.log t a v

/-- Every `/callback` that authorizes an action on a thread where a meeting is pending, carries the
action of the preview that stored this meeting. -/
def CallbacksMatchPreviews (l : List (AgentEntry Tok)) : Prop :=
  ∀ i σ t a ttl l', ⟨i, σ, .op (.set .flowState t (.str (FlowState.authorized a).value) ttl) ()⟩ ::
      l' <:+ l → ∀ v, σ.get .pendingMeeting t = some v → Previewed l' t a v

/-- What matched in the whole run matched before. -/
theorem CallbacksMatchPreviews.mono {l l' : List (AgentEntry Tok)} (hl : l <:+ l')
    (h : CallbacksMatchPreviews l') : CallbacksMatchPreviews l :=
  fun i σ t a ttl l₀ h₀ => h i σ t a ttl l₀ (h₀.trans hl)

/-- If the callback matched the preview, what was consented to was previewed for that action. -/
theorem Consented.bound {l : List (AgentEntry Tok)} {t : String} {a : Action} {v : Json}
    (h : Consented l t a v) (hcond : CallbacksMatchPreviews l) : Previewed l t a v := by
  obtain ⟨i, σ, ttl, l', hl, hg, -, he⟩ := h
  exact (hcond i σ t a ttl l' hl v hg).mono ((List.suffix_cons _ _).trans hl) he

/-! ## The confirmation path -/

/-- A committing request of the confirmation path sends the pending meeting that it read while its
action was authorized. -/
theorem confirm_commit {σ : Shared} {c : (agentSystem E).Config} (hc : System.Reachable σ c)
    {i : Nat} {s : Shared} {q : Req} {l : List (AgentEntry Tok)}
    (hl : ⟨i, s, .send q⟩ :: l <:+ c.world.log) (hq : q.commits = true)
    {message t language : String} (hs : Spawned l i (.confirm message t language)) :
    ∃ a call pending, q = a.commitTool.request call ∧
      call.arguments = Dict.set (a.confirmArgs pending) "thread_id" (.str t) ∧
      ReadPending l i t a pending := by
  obtain ⟨a, call, rfl, hg⟩ := Reachable.commit_guard E hc hl hq
  have hll : l <:+ c.world.log := (List.suffix_cons _ _).trans hl
  have unique : ∀ {j : Job Tok}, Spawned l i j → j = .confirm message t language :=
    fun hj => (hj.mono hll).unique E hc.preempted (hs.mono hll)
  have hcalls := hg.calls
  generalize hargs : call.arguments = args at hcalls
  generalize hname : a.commitName = name at hcalls
  cases hcalls with
  | dispatch hj => cases unique hj
  | mcp hj => cases unique hj
  | @confirm _ _ _ b pending hj hr =>
    cases unique hj
    cases Action.commitName_injective hname
    exact ⟨a, call, pending, rfl, hargs, hr⟩
  | confirmList hj => cases a <;> simp [Action.commitName] at hname

/-- What the confirmation path sends was pending when it was read, beside the authorized action,
and was consented to. -/
theorem confirm_consented {m w₀ : Rat} {c : (agentSystem E).Config}
    (hc : System.Reachable (Shared.start m w₀) c) {i : Nat} {s : Shared} {q : Req}
    {l : List (AgentEntry Tok)} (hl : ⟨i, s, .send q⟩ :: l <:+ c.world.log)
    (hq : q.commits = true) {message t language : String}
    (hs : Spawned l i (.confirm message t language)) :
    ∃ a token pending σ l', q = a.request pending token ∧
      ⟨i, σ, .op (.get .pendingMeeting t) (some (.obj pending))⟩ :: l' <:+ l ∧
      Consented l' t a (.obj pending) := by
  obtain ⟨a, call, pending, hreq, hargs, σ, hmem, hflow⟩ := confirm_commit E hc hl hq hs
  obtain ⟨l', hl'⟩ := suffix_of_mem hmem
  have hll' := hl'.trans ((List.suffix_cons _ _).trans hl)
  -- what was read is what was stored when it was read, and its origin was known there
  have hI := Reachable.at_entry E (PendingOrigin.start E m w₀)
    (fun _ _ _ hw hm hI => hI.move hw hm) (fun _ _ _ hp hI => hI.pass hp) hc hll' trivial
  obtain ⟨l₀, hl₀⟩ := hll'
  have hread : some (.obj pending) = σ.get .pendingMeeting t :=
    (hc.preempted.consistent.before hl₀.symm).2
  refine ⟨a, call.token, pending, σ, l', ?_, hl', (hI t).2 a _ hflow hread.symm⟩
  rw [hreq, Action.request_eq, hargs, Action.request_confirm]

/-- In every run in which the completing callbacks match the previews, an authorized action finds a
pending meeting of its own, and the confirmation path commits a record that was previewed for the
action it applies. -/
theorem consent_bound {m w₀ : Rat} {c : (agentSystem E).Config}
    (hc : System.Reachable (Shared.start m w₀) c) (hcond : CallbacksMatchPreviews c.world.log) :
    ConsentBound E c.world ∧
      ∀ i s q l message t language, ⟨i, s, .send q⟩ :: l <:+ c.world.log → q.commits = true →
        Spawned l i (.confirm message t language) →
        ∃ a token pending σ l', q = a.request pending token ∧
          ⟨i, σ, .op (.get .pendingMeeting t) (some (.obj pending))⟩ :: l' <:+ l ∧
          Previewed l' t a (.obj pending) := by
  refine ⟨fun t a v hf hv => ((Reachable.pendingOrigin E hc t).2 a v hf hv).bound hcond, ?_⟩
  intro i s q l message t language hl hq hs
  obtain ⟨a, token, pending, σ, l', hreq, hl', hcons⟩ := confirm_consented E hc hl hq hs
  have hll' : l' <:+ c.world.log :=
    (List.suffix_cons _ _).trans (hl'.trans ((List.suffix_cons _ _).trans hl))
  exact ⟨a, token, pending, σ, l', hreq, hl', hcons.bound (hcond.mono hll')⟩

/-- Every committing request is made of the argument dictionary with which its tool was called: the
arguments of the call of a model or an MCP client, or else the pending meeting, which a preview had
stored for the thread before the `/callback` that authorized the action. -/
theorem commit_carries {m w₀ : Rat} {c : (agentSystem E).Config}
    (hc : System.Reachable (Shared.start m w₀) c) {i : Nat} {s : Shared} {q : Req}
    {l : List (AgentEntry Tok)} (hl : ⟨i, s, .send q⟩ :: l <:+ c.world.log)
    (hq : q.commits = true) :
    (∃ (a : Action) (args : Dict) (token : String), q = a.request args token ∧
        Calls l i a.commitName args) ∧
      ∀ message t language, Spawned l i (.confirm message t language) →
        ∃ a token pending σ l', q = a.request pending token ∧
          ⟨i, σ, .op (.get .pendingMeeting t) (some (.obj pending))⟩ :: l' <:+ l ∧
          Consented l' t a (.obj pending) := by
  obtain ⟨a, call, rfl, hg⟩ := Reachable.commit_guard E hc hl hq
  exact ⟨⟨a, call.arguments, call.token, a.request_eq call, hg.calls⟩,
    fun message t language hs => confirm_consented E hc hl hq hs⟩

/-! ## Checking a run -/

/-- Decides that an MCP client's preview of action `a` stored the pending meeting `v`. -/
def isPreviewed (l : List (AgentEntry Tok)) (t : String) (a : Action) (v : Json) : Bool :=
  match lastSet .pendingMeeting t l with
  | none => false
  | some x => decide (x.value = v) && (l.filterMap started).any fun p =>
      match p with
      | (i, .mcp _ name args) => decide (i = x.task ∧ name = a.previewName ∧
          threadIdOf args = some t ∧ v = .obj (Dict.without args "thread_id"))
      | _ => false

/-- The check finds a preview. -/
theorem previewed_of_check {l : List (AgentEntry Tok)} {t : String} {a : Action} {v : Json}
    (h : isPreviewed l t a v = true) : Previewed l t a v := by
  unfold isPreviewed at h
  split at h
  · cases h
  · next x hx =>
    rw [Bool.and_eq_true, decide_eq_true_eq, List.any_eq_true] at h
    obtain ⟨hv, ⟨i, j⟩, hm, hj⟩ := h
    split at hj
    · next i' token name args he =>
      cases he
      obtain ⟨rfl, rfl, ht, hd⟩ := of_decide_eq_true hj
      exact ⟨x, args, hx, hv, .mcp (spawned_of_started hm), ht, hd⟩
    · cases hj

/-- The pending meeting that an entry stores. -/
def pendingStored (x : AgentEntry Tok) : Option Json :=
  match x.event with
  | .op (.set .pendingMeeting _ v _) _ => some v
  | _ => none

/-- What was previewed was stored. -/
theorem Previewed.stored {l : List (AgentEntry Tok)} {t : String} {a : Action} {v : Json}
    (h : Previewed l t a v) : v ∈ l.filterMap pendingStored := by
  obtain ⟨x, args, hx, rfl, -⟩ := h
  exact List.mem_filterMap.2 ⟨_, lastSet_mem hx, rfl⟩

/-- Decides `CallbacksMatchPreviews` where the previews are those of MCP clients. -/
def callbacksMatch : List (AgentEntry Tok) → Bool
  | [] => true
  | x :: l =>
    (match x.event with
      | .op (.set .flowState t v _) _ => [Action.book, .update, .delete].all fun a =>
          decide (v ≠ .str (FlowState.authorized a).value) ||
            match x.state.get .pendingMeeting t with
            | none => true
            | some p => isPreviewed l t a p
      | _ => true) && callbacksMatch l

/-- The check finds that all callbacks match. -/
theorem callbacksMatchPreviews_of_check :
    ∀ {l : List (AgentEntry Tok)}, callbacksMatch l = true → CallbacksMatchPreviews l
  | [], _ => fun i σ t a ttl l' h => absurd h (by simp)
  | x :: l, h => by
    rw [callbacksMatch, Bool.and_eq_true] at h
    intro i σ t a ttl l' hl v hv
    rcases List.suffix_cons_iff.1 hl with he | hl
    · cases he
      have hall := List.all_eq_true.1 h.1 a (by cases a <;> simp)
      rw [hv] at hall
      exact previewed_of_check (by simpa using hall)
    · exact callbacksMatchPreviews_of_check h.2 i σ t a ttl l' hl v hv

namespace Symbolic

/-- A meeting is previewed and authorized, and the user says so. -/
def confirmed : Schedule :=
  chat 0 ++ tool 1 "agent" "schedule_meeting_preview" (meeting "a") ++
    [.spawn 2 (.authorize "t" "book")] ++ callback 3 (state "book" 1) "obo" ++
    [.spawn 4 (.confirm "authorized" "t" "en")]

/-- An update is previewed after the link of a booking was opened, and then the link is
completed. -/
def crossed : Schedule :=
  chat 0 ++ tool 1 "agent" "schedule_meeting_preview" (meeting "a") ++
    [.spawn 2 (.authorize "t" "book")] ++
    tool 3 "agent" "update_meeting_preview" (("meeting_id", .str "m") :: meeting "b") ++
    callback 4 (state "book" 1) "obo"

/-- A meeting is previewed and authorized, and another one is booked. -/
def rewritten : Schedule :=
  chat 0 ++ tool 1 "agent" "schedule_meeting_preview" (meeting "a") ++
    [.spawn 2 (.authorize "t" "book")] ++ callback 3 (state "book" 1) "obo" ++
    tool 4 "obo" "schedule_meeting" (meeting "b")

end Symbolic

open Symbolic in
/-- In the run `confirmed` the confirmation path books the meeting. -/
theorem confirmed_sends : ∃ s l, ⟨4, s, .send (.businessApi .post .meetings "obo"
      (some (.obj (meeting "a"))))⟩ :: l <:+ (play confirmed).world.log ∧
    Spawned l 4 (.confirm "authorized" "t" "en") := by
  have hs : Spawned (play confirmed).world.log 4 (.confirm "authorized" "t" "en") :=
    spawned_of_started (by decide +kernel)
  obtain ⟨s, l, hl⟩ := eq_cons_of_sent (l := (play confirmed).world.log) (i := 4)
    (q := .businessApi .post .meetings "obo" (some (.obj (meeting "a"))))
    (by decide +kernel)
  refine ⟨s, l, hl ▸ List.suffix_refl _, ?_⟩
  -- the newest entry is a request, so the start of the task is below it
  obtain ⟨σ, hσ⟩ := hs
  rw [hl] at hσ
  rcases List.mem_cons.1 hσ with h | h
  · cases h
  · exact ⟨σ, h⟩

open Symbolic in
/-- What the confirmation path books is what was previewed. -/
theorem confirmed_bound : ConsentBound env (play confirmed).world ∧
    ∃ s l, ⟨4, s, .send (.businessApi .post .meetings "obo"
        (some (.obj (meeting "a"))))⟩ :: l <:+ (play confirmed).world.log ∧
      ∃ a token pending σ l', Req.businessApi .post .meetings "obo"
          (some (.obj (meeting "a"))) = a.request pending token ∧
        ⟨4, σ, .op (.get .pendingMeeting "t") (some (.obj pending))⟩ :: l' <:+ l ∧
        Previewed l' "t" a (.obj pending) := by
  have hcond : CallbacksMatchPreviews (play confirmed).world.log :=
    callbacksMatchPreviews_of_check (by decide +kernel)
  obtain ⟨s, l, hlog, hs⟩ := confirmed_sends
  have h := consent_bound env (play_reachable confirmed) hcond
  exact ⟨h.1, s, l, hlog, h.2 4 s _ l _ "t" _ hlog rfl hs⟩

open Symbolic in
/-- The service does not keep the invariant: a booking is authorized while an update is pending. -/
theorem crossed_not_bound : ¬ ∀ c : (agentSystem env).Config,
    System.Reachable (Shared.start 0 0) c → ConsentBound env c.world := by
  intro h
  obtain ⟨x, args, hx, -, hc, -, -⟩ := h (play crossed) (play_reachable crossed) "t" .book
    (.obj (("meeting_id", .str "m") :: meeting "b")) (by decide +kernel) (by decide +kernel)
  -- the standing write is that of task 3, which serves a preview of an update
  have hw : (lastSet .pendingMeeting "t" (play crossed).world.log).map (·.task) = some 3 := by
    decide +kernel
  have htask : x.task = 3 := by
    rw [hx] at hw
    exact Option.some.inj hw
  have hs : Spawned (play crossed).world.log 3 (.mcp "agent" "update_meeting_preview"
      (("thread_id", .str "t") :: ("meeting_id", .str "m") :: meeting "b")) :=
    spawned_of_started (by decide +kernel)
  rw [htask] at hc
  have unique : ∀ {j}, Spawned (play crossed).world.log 3 j → j = _ :=
    fun hj => hj.unique env (play_reachable crossed).preempted hs
  generalize hname : Action.previewName .book = name at hc
  cases hc with
  | dispatch hj => cases unique hj
  | mcp hj =>
    cases unique hj
    simp [Action.previewName] at hname
  | confirm hj _ => cases unique hj
  | confirmList hj => cases unique hj

open Symbolic in
/-- What the confirmation path books was pending when the user consented. -/
theorem confirmed_carries : ∃ s l, ⟨4, s, .send (.businessApi .post .meetings "obo"
      (some (.obj (meeting "a"))))⟩ :: l <:+ (play confirmed).world.log ∧
    (∃ (a : Action) (args : Dict) (token : String), Req.businessApi .post .meetings "obo"
        (some (.obj (meeting "a"))) = a.request args token ∧ Calls l 4 a.commitName args) ∧
      ∃ a token pending σ l', Req.businessApi .post .meetings "obo"
          (some (.obj (meeting "a"))) = a.request pending token ∧
        ⟨4, σ, .op (.get .pendingMeeting "t") (some (.obj pending))⟩ :: l' <:+ l ∧
        Consented l' "t" a (.obj pending) := by
  obtain ⟨s, l, hlog, hs⟩ := confirmed_sends
  have h := commit_carries env (play_reachable confirmed) hlog rfl
  exact ⟨s, l, hlog, h.1, h.2 _ "t" _ hs⟩

open Symbolic in
/-- What is committed need not have been previewed at all. -/
theorem rewritten_not_previewed : ¬ ∀ (c : (agentSystem env).Config) i s q l,
    System.Reachable (Shared.start 0 0) c → ⟨i, s, .send q⟩ :: l <:+ c.world.log →
    q.commits = true →
    ∃ (a : Action) (token t : String) (d : Dict),
      q = a.request d token ∧ Previewed l t a (.obj d) := by
  intro h
  obtain ⟨s, l, hl⟩ := eq_cons_of_sent (l := (play rewritten).world.log) (i := 4)
    (q := .businessApi .post .meetings "obo" (some (.obj (meeting "b"))))
    (by decide +kernel)
  have hlog : ⟨4, s, .send (.businessApi .post .meetings "obo"
      (some (.obj (meeting "b"))))⟩ :: l <:+ (play rewritten).world.log := by
    rw [hl]
  obtain ⟨a, token, t, d, hq, hp⟩ := h _ 4 s _ l (play_reachable rewritten) hlog rfl
  -- the only meeting that was ever stored has the topic `a`
  have hall : ∀ v ∈ (play rewritten).world.log.filterMap pendingStored,
      v = .obj (meeting "a") := by decide +kernel
  have hd := hall _ ((((List.suffix_cons _ _).trans hlog).filterMap _).subset hp.stored)
  cases hd
  cases a <;> simp [Action.request, Dict.without, meeting] at hq

end Teamspace.Agent
