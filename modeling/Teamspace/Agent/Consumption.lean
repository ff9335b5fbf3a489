import Teamspace.Agent.CommitSoundness

/-!
# Consumption of authorizations

A committing tool checks the flow state, waits for the Business API, and then finalizes its action
whatever happened meanwhile. So one `/callback` may be spent twice, and the finalization may undo
what a later preview or `/callback` has stored (`not_consumed`). Neither happens in the runs in
which nothing sets the flow state of a thread while a committing request is under way there
(`consumption`): every success then has a `/callback` of its own, and the finalization removes only
what stood when the request was sent.
-/

namespace Teamspace.Agent

open Teamspace.Lib Teamspace.Py Teamspace.Lib.System

variable {Tok : Type} (E : Env Tok)

/-! ## Successes -/

/-- Task `i` serves a request on thread `t`. -/
def On (l : List (AgentEntry Tok)) (i : Nat) (t : String) : Prop :=
  ∃ j, Spawned l i j ∧ Job.thread j = some t

/-- Task `i` was answered a committing request on thread `t` with success: the request was sent
after history `l₀`, and the reply was received after history `l₁`. -/
def Committed (l : List (AgentEntry Tok)) (i : Nat) (t : String)
    (l₁ l₀ : List (AgentEntry Tok)) : Prop :=
  ∃ q r σ s m, ⟨i, σ, .recv q r⟩ :: l₁ <:+ l ∧ l₁ = m ++ ⟨i, s, .send q⟩ :: l₀ ∧
    (∀ x ∈ m, x.task ≠ i) ∧ succeeds q r = true ∧ On l i t

/-- The flow state of thread `t` that stands after history `l` was set by task `k`, which serves a
`/callback` and ended in the success page. -/
def AuthorizedBy (l : List (AgentEntry Tok)) (t : String) (k : Nat) : Prop :=
  ∃ x σ, lastSet .flowState t l = some x ∧ x.task = k ∧
    (∃ code state cookie, Spawned l k (.callback code state cookie)) ∧
    ⟨k, σ, .finish (.ok (.page .authorized))⟩ ∈ l

/-- No `/callback` is spent on two successes. -/
def ConsumedOnce (l : List (AgentEntry Tok)) : Prop :=
  ∀ i j t u l₁ l₁' l₀ l₀' k, Committed l i t l₁ l₀ → Committed l j u l₁' l₀' →
    AuthorizedBy l₀ t k → AuthorizedBy l₀' u k → i = j ∧ l₁ = l₁'

/-- Directly after history `l₁` task `i` received a reply and finalized its action on thread `t`. -/
def FinalizedAfter (l : List (AgentEntry Tok)) (i : Nat) (t : String)
    (l₁ : List (AgentEntry Tok)) : Prop :=
  ∃ q r σ₀ σ₁ σ₂ σ₃, ⟨i, σ₃, .op (.delete .oboToken t) ()⟩ ::
    ⟨i, σ₂, .op (.delete .pendingMeeting t) ()⟩ ::
    ⟨i, σ₁, .op (.set .flowState t (.str FlowState.initial.value) defaultTtlSeconds) ()⟩ ::
    ⟨i, σ₀, .recv q r⟩ :: l₁ <:+ l

/-- The namespaces whose entries a finalization overwrites or deletes. -/
def finalizedNamespaces : List Namespace := [.flowState, .pendingMeeting, .oboToken]

/-- What a finalization overwrites or deletes stood when the request was sent. -/
def FinalizesOwn (l : List (AgentEntry Tok)) : Prop :=
  ∀ i t l₁ l₀, Committed l i t l₁ l₀ → ∀ n ∈ finalizedNamespaces, ∀ x,
    lastSet n t l₁ = some x → lastSet n t l₀ = some x

/-- An entry that sets the flow state of thread `t`. -/
def SetsFlow (t : String) (x : AgentEntry Tok) : Prop :=
  ∃ v ttl b, x.event = .op (.set .flowState t v ttl) b

/-- While a committing request that succeeds is under way, nothing sets the flow state of its
thread. -/
def Undisturbed (l : List (AgentEntry Tok)) : Prop :=
  ∀ i t l₁ l₀, Committed l i t l₁ l₀ → ∀ x l', x :: l' <:+ l₁ → l₀ <:+ l' → ¬ SetsFlow t x

/-! ## Neighbours in a history -/

/-- If an entry stands directly above an earlier part of the history, it stands in every longer
part above which another entry stands. -/
theorem suffix_step {x y : AgentEntry Tok} {l l' L : List (AgentEntry Tok)} (hx : x :: l <:+ L)
    (hy : y :: l' <:+ L) (hl : l <:+ l') (hne : x.event ≠ y.event) : x :: l <:+ l' := by
  rcases List.suffix_or_suffix_of_suffix hx hy with h | h
  · exact suffix_of_ne h hne
  · exact absurd (congrArg Entry.event (eq_of_newest h hl).1.symm) hne

/-- Around an entry that sets something in namespace `n`: an authorized flow state is set by a
`/callback`, which ends at once; a pending meeting is stored directly after the flow state of its
thread is set, and a delegated token directly before. -/
structure Placed (L : List (AgentEntry Tok)) (k : Nat) (σ : Shared) (n : Namespace) (t : String)
    (v : Json) (ttl : Nat) (l : List (AgentEntry Tok)) : Prop where
  authorizes : n = .flowState → ∀ a, flowStateOf (some v) = .authorized a →
    ∃ action σ', Accepted E l k t action ∧ ⟨k, σ', .finish (.ok (.page .authorized))⟩ ::
      ⟨k, σ, .op (.set n t v ttl) ()⟩ :: l <:+ L
  pending : n = .pendingMeeting → ∃ y l', l = y :: l' ∧ SetsFlow t y
  token : n = .oboToken → ∃ y, y :: ⟨k, σ, .op (.set n t v ttl) ()⟩ :: l <:+ L ∧ SetsFlow t y

section
variable {E} {m₀ w₀ : Rat} {c : (agentSystem E).Config}
  (hc : System.Reachable (Shared.start m₀ w₀) c)

include hc

/-- A success is received by a committing tool, which finalizes its action at once. -/
theorem Reachable.finalizes {i : Nat} {σ : Shared} {q : Req} {r : Rep}
    {l : List (AgentEntry Tok)} (hl : ⟨i, σ, .recv q r⟩ :: l <:+ c.world.log)
    (hs : succeeds q r = true) : ∃ (a : Action) (call : ToolCall), Calls l i a.commitName call.arguments ∧
      threadIdOf call.arguments = some call.threadId ∧
      (finalized E (⟨σ, ⟨i, σ, .recv q r⟩ :: l⟩) i call.threadId).log <:+ c.world.log := by
  obtain ⟨j, w, w', hm, hw, hl', hlog⟩ := Reachable.moved E hc hl
  have hwl : w = ⟨σ, l⟩ := hm.first E hl' hw trivial
  subst hwl
  have newest : ∀ {e : AgentEvent Tok}, (⟨i, σ, .recv q r⟩ : AgentEntry Tok) :: l <:+
      ⟨j, σ, e⟩ :: l → i = j ∧ Event.recv q r = e := by
    intro e h
    obtain ⟨he, -⟩ := eq_of_newest h (List.suffix_refl _)
    cases he
    exact ⟨rfl, rfl⟩
  cases hm with
  | mild o _ => cases (newest hl').2
  | preview a t args _ _ =>
    have hl' := suffix_of_ne hl' (by rintro ⟨⟩)
    cases (newest hl').2
  | commit a c _ => cases (newest hl').2
  | send q' _ => cases (newest hl').2
  | recv q' r' hr =>
    cases (newest hl').2
    rw [hr] at hs
    cases hs
  | success a call r' hcall ht _ _ =>
    have hl' := suffix_of_ne hl' (by rintro ⟨⟩)
    have hl' := suffix_of_ne hl' (by rintro ⟨⟩)
    have hl' := suffix_of_ne hl' (by rintro ⟨⟩)
    obtain ⟨rfl, he⟩ := newest hl'
    cases he
    exact ⟨a, call, hcall, ht, hlog⟩
  | complete t action token expiresAt _ _ =>
    have hl' := suffix_of_ne hl' (by rintro ⟨⟩)
    have hl' := suffix_of_ne hl' (by rintro ⟨⟩)
    cases (newest hl').2
  | spawn j' _ => cases (newest hl').2
  | finish x _ _ => cases (newest hl').2

/-- Everything in these namespaces is set so. -/
theorem Reachable.placed {k : Nat} {σ : Shared} {n : Namespace} {t : String} {v : Json} {ttl : Nat}
    {l : List (AgentEntry Tok)} (hl : ⟨k, σ, .op (.set n t v ttl) ()⟩ :: l <:+ c.world.log) :
    Placed E c.world.log k σ n t v ttl l := by
  obtain ⟨i, w, w', hm, hw, hl', hlog⟩ := Reachable.moved E hc hl
  -- a flow state that is not authorized needs nothing around it
  have flow : ∀ {s : FlowState} {n t v ttl}, (∀ a, s ≠ .authorized a) →
      (⟨k, σ, .op (.set n t v ttl) ()⟩ : AgentEntry Tok).event = .op (.set .flowState t
        (.str s.value) ttl) () → Placed E c.world.log k σ n t v ttl l := by
    intro s n t v ttl hs he
    cases he
    refine ⟨fun _ a hv => ?_, nofun, nofun⟩
    rw [flowStateOf_value] at hv
    exact absurd hv (hs a)
  cases hm with
  | mild o ho =>
    obtain ⟨he, -⟩ := eq_of_newest hl' hw
    cases he
    exact ⟨fun hn a hv => absurd hv (ho.2.2 hn a), fun hn => absurd hn ho.1,
      fun hn => absurd hn ho.2.1⟩
  | preview b t' args _ _ =>
    rcases List.suffix_cons_iff.1 hl' with he | hl'
    · cases he
      exact ⟨nofun, fun _ => ⟨_, _, rfl, _, _, _, rfl⟩, nofun⟩
    · cases (eq_of_newest hl' hw).1
      exact flow (s := .previewInitiated b) nofun rfl
  | commit b call _ => cases (eq_of_newest hl' hw).1
  | send q _ => cases (eq_of_newest hl' hw).1
  | recv q r _ => cases (eq_of_newest hl' hw).1
  | success b call r _ _ _ _ =>
    have hl' := suffix_of_ne hl' (by rintro ⟨⟩)
    have hl' := suffix_of_ne hl' (by rintro ⟨⟩)
    rcases List.suffix_cons_iff.1 hl' with he | hl'
    · cases he
      exact flow (s := .initial) nofun rfl
    · cases (eq_of_newest hl' hw).1
  | complete t' action token expiresAt ha _ =>
    have hl' := suffix_of_ne hl' (by rintro ⟨⟩)
    rcases List.suffix_cons_iff.1 hl' with he | hl'
    · cases he
      exact ⟨fun _ a _ => ⟨action, _, ha.mono (List.suffix_cons _ _), hlog⟩, nofun, nofun⟩
    · obtain ⟨he, rfl⟩ := eq_of_newest hl' hw
      cases he
      exact ⟨nofun, nofun, fun _ => ⟨_, (List.suffix_cons _ _).trans hlog, _, _, _, rfl⟩⟩
  | spawn j _ => cases (eq_of_newest hl' hw).1
  | finish x _ _ => cases (eq_of_newest hl' hw).1

/-- Where an action is authorized, a `/callback` has set the flow state that stands. -/
theorem Reachable.authorized_by {x : AgentEntry Tok} {l : List (AgentEntry Tok)}
    (hl : x :: l <:+ c.world.log) (hx : ∀ e, x.event ≠ .finish e) {t : String} {a : Action}
    (hf : flowStateOf (x.state.get .flowState t) = .authorized a) :
    ∃ y p l' σ, lastSet .flowState t l = some y ∧ AuthorizedBy l t y.task ∧
      l = p ++ ⟨y.task, y.state, .op (.set .flowState t y.value y.ttl) ()⟩ :: l' ∧
      (∀ z ∈ p, ¬ Writes .flowState t z) ∧ ⟨y.task, σ, .finish (.ok (.page .authorized))⟩ ::
        ⟨y.task, y.state, .op (.set .flowState t y.value y.ttl) ()⟩ :: l' <:+ c.world.log := by
  obtain ⟨v, hv, hfv⟩ := flow_authorized hf
  have hw : Consistent (S := agentSystem E) (Shared.start m₀ w₀) ⟨x.state, l⟩ := by
    obtain ⟨l₀, hl₀⟩ := hl
    exact (hc.preempted.consistent.before hl₀.symm).1
  obtain ⟨y, hy, rfl, -⟩ := (get_eq_some_iff E hw).1 hv
  obtain ⟨p, l', hp, hnp⟩ := lastSet_split hy
  have hl' : ⟨y.task, y.state, .op (.set .flowState t y.value y.ttl) ()⟩ :: l' <:+ l := ⟨p, hp.symm⟩
  obtain ⟨action, σ, ⟨code, state, cookie, secret, now, hs, -⟩, hfin⟩ :=
    (Reachable.placed hc (hl'.trans ((List.suffix_cons _ _).trans hl))).authorizes rfl a hfv
  have hfin' := suffix_step hfin hl hl' (fun he => hx _ he.symm)
  refine ⟨y, p, l', σ, hy, ⟨y, σ, hy, rfl, ⟨code, state, cookie, ?_⟩, ?_⟩, hp, hnp, hfin⟩
  · exact hs.mono ((List.suffix_cons _ _).trans hl')
  · exact hfin'.subset (.head _)

/-- A success is finalized at once, and the action was authorized when the request was sent. -/
theorem Committed.guarded {i : Nat} {t : String} {l₁ l₀ : List (AgentEntry Tok)}
    (h : Committed c.world.log i t l₁ l₀) : FinalizedAfter c.world.log i t l₁ ∧
      ∃ s q a, ⟨i, s, .send q⟩ :: l₀ <:+ l₁ ∧
        flowStateOf (s.get .flowState t) = .authorized a := by
  obtain ⟨q, r, σ, s, m, hl, rfl, hm, hs, j, hj, ht⟩ := h
  have hsend : ⟨i, s, .send q⟩ :: l₀ <:+ m ++ ⟨i, s, .send q⟩ :: l₀ := List.suffix_append _ _
  have hlog := hsend.trans ((List.suffix_cons _ _).trans hl)
  have thread : ∀ {name args u l'}, Calls l' i name args → l' <:+ c.world.log →
      threadIdOf args = some u → u = t := by
    intro name args u l' hcall hl' hu
    obtain ⟨j', hj', ht'⟩ := hcall.thread
    rw [(hj'.mono hl').unique E hc.preempted hj, ht, hu] at ht'
    exact (Option.some.inj ht').symm
  obtain ⟨a, call, hcall, hthread, hfin⟩ := Reachable.finalizes hc hl hs
  rw [thread hcall ((List.suffix_cons _ _).trans hl) hthread] at hfin
  have hq : q.commits = true := by
    by_contra hq
    rw [succeeds_of_not_commits (eq_false_of_ne_true hq)] at hs
    cases hs
  obtain ⟨a', call', -, hg⟩ := Reachable.commit_guard E hc hlog hq
  have hflow := hg.flow
  rw [thread hg.calls ((List.suffix_cons _ _).trans hlog) hg.thread] at hflow
  exact ⟨⟨q, r, σ, _, _, _, hfin⟩, s, q, a', hsend, hflow⟩

/-! ## One success for one callback -/

/-- Two ends of one task are one entry. -/
theorem finish_unique {k : Nat} {σ σ' : Shared} {x x' : Except Exn (Outcome Tok)}
    {l l' : List (AgentEntry Tok)} (h : ⟨k, σ, .finish x⟩ :: l <:+ c.world.log)
    (h' : ⟨k, σ', .finish x'⟩ :: l' <:+ c.world.log) : l = l' := by
  have last : ∀ {σ σ' x x' l l'}, (⟨k, σ', .finish x'⟩ : AgentEntry Tok) :: l' <:+ c.world.log →
      ¬ (⟨k, σ, .finish x⟩ : AgentEntry Tok) :: l <:+ l' := by
    rintro σ σ' x x' l l' ⟨p, hp⟩ ⟨p', rfl⟩
    have hlog : c.world.log = (p ++ ⟨k, σ', .finish x'⟩ :: p') ++ ⟨k, σ, .finish x⟩ :: l :=
      hp.symm.trans (List.append_assoc p (_ :: p') (_ :: l)).symm
    exact hc.preempted.finish_last hlog _ (List.mem_append_right p (.head _)) rfl
  rcases List.suffix_or_suffix_of_suffix h h' with hs | hs
  · rcases List.suffix_cons_iff.1 hs with he | hs
    · exact (List.cons.inj he).2
    · exact absurd hs (last h')
  · rcases List.suffix_cons_iff.1 hs with he | hs
    · exact (List.cons.inj he).2.symm
    · exact absurd hs (last h)

/-- A request that a `/callback` authorized is not sent before another success by that `/callback`
is received, nor after it. -/
theorem Committed.not_before (hcond : Undisturbed c.world.log) {i j : Nat} {t u : String}
    {l₁ l₁' l₀ l₀' : List (AgentEntry Tok)} {k : Nat} (h : Committed c.world.log i t l₁ l₀)
    (h' : Committed c.world.log j u l₁' l₀') (ha : AuthorizedBy l₀ t k)
    (ha' : AuthorizedBy l₀' u k) : ¬ l₁.length < l₁'.length := by
  intro hlt
  obtain ⟨⟨q, r, σ₀, σ₁, σ₂, σ₃, hfin⟩, s, _, a, hx, hflow⟩ := h.guarded hc
  obtain ⟨-, s', _, a', hx', hflow'⟩ := h'.guarded hc
  have hreply : ∃ σ q r, ⟨j, σ, .recv q r⟩ :: l₁' <:+ c.world.log := by
    obtain ⟨q, r, σ, -, -, hl, -⟩ := h'
    exact ⟨σ, q, r, hl⟩
  obtain ⟨σ, q', r', hl'⟩ := hreply
  -- the flow state is reset directly after the earlier success, so before the later one
  have hset := (List.suffix_cons _ _).trans ((List.suffix_cons _ _).trans hfin)
  have hrecv := (List.suffix_cons _ _).trans hset
  have hbelow : ⟨i, σ₀, .recv q r⟩ :: l₁ <:+ l₁' :=
    List.suffix_of_suffix_length_le hrecv ((List.suffix_cons _ _).trans hl') hlt
  have hreset := suffix_step hset hl' hbelow nofun
  -- both requests were authorized by the one write of the callback
  obtain ⟨y, p, ly, σy, hy, -, hp, -, hfy⟩ := Reachable.authorized_by hc
    (hx.trans ((List.suffix_cons _ _).trans hrecv)) nofun hflow
  obtain ⟨z, p', lz, σz, hz, -, hp', hnp', hfz⟩ := Reachable.authorized_by hc
    (hx'.trans ((List.suffix_cons _ _).trans hl')) nofun hflow'
  have hyk : y.task = k := by
    obtain ⟨y', -, hy', hk, -⟩ := ha
    rw [hy] at hy'
    rw [Option.some.inj hy']
    exact hk
  have hzk : z.task = k := by
    obtain ⟨z', -, hz', hk, -⟩ := ha'
    rw [hz] at hz'
    rw [Option.some.inj hz']
    exact hk
  rw [hyk] at hfy hp
  rw [hzk] at hfz hp'
  have heq := finish_unique hc hfy hfz
  have htu : t = u := by
    injection heq with he
    injection he with _ _ he
    injection he with he
    injection he
  subst htu
  -- it lies below the earlier success
  have hwrite : ⟨k, z.state, .op (.set .flowState t z.value z.ttl) ()⟩ :: lz <:+
      ⟨i, σ₀, .recv q r⟩ :: l₁ := by
    rw [← heq]
    have : ⟨k, y.state, .op (.set .flowState t y.value y.ttl) ()⟩ :: ly <:+ l₀ := ⟨p, hp.symm⟩
    exact (this.trans ((List.suffix_cons _ _).trans hx)).trans (List.suffix_cons _ _)
  rcases List.suffix_or_suffix_of_suffix hreset hx' with hs | hs
  · -- sent after the reset, which the write of the callback does not survive
    have hs := suffix_of_ne hs nofun
    rw [hp'] at hs
    exact hnp' _ (mem_recent hs hwrite) (.inl ⟨_, _, _, rfl⟩)
  · -- sent before the reset, which the condition excludes
    have hs := suffix_of_ne hs nofun
    exact hcond j t l₁' l₀' h' _ _ hreset ((List.suffix_cons _ _).trans hs) ⟨_, _, _, rfl⟩

/-- No `/callback` is spent twice in a run that is not disturbed. -/
theorem Undisturbed.consumed_once (hcond : Undisturbed c.world.log) :
    ConsumedOnce c.world.log := by
  intro i j t u l₁ l₁' l₀ l₀' k h h' ha ha'
  have h₁ := h.not_before hc hcond h' ha ha'
  have h₂ := h'.not_before hc hcond h ha' ha
  obtain ⟨q, r, σ, -, -, hl, -⟩ := h
  obtain ⟨q', r', σ', -, -, hl', -⟩ := h'
  have hlen : (⟨i, σ, .recv q r⟩ :: l₁).length = (⟨j, σ', .recv q' r'⟩ :: l₁').length := by
    simp only [List.length_cons]
    omega
  have he := (List.suffix_of_suffix_length_le hl hl' hlen.le).eq_of_length hlen
  injection he with he hl₁
  injection he with hij
  exact ⟨hij, hl₁⟩

end

/-! ## What a finalization finds -/

/-- A write that stands after a stretch which sets nothing there stood before it. -/
theorem lastSet_between {n : Namespace} {k : String} {x : Write} {l₀ : List (AgentEntry Tok)} :
    ∀ {m : List (AgentEntry Tok)}, (∀ y l', y :: l' <:+ m ++ l₀ → l₀ <:+ l' →
      ∀ v ttl a, y.event ≠ .op (.set n k v ttl) a) →
      lastSet n k (m ++ l₀) = some x → lastSet n k l₀ = some x
  | [], _, h => h
  | y :: m, hm, h => by
    refine lastSet_between (m := m) (fun z l' hz hl => ?_) ?_
    · exact hm z l' (hz.trans (List.suffix_cons _ _)) hl
    · exact lastSet_of_cons h (hm y (m ++ l₀) (List.suffix_refl _) (List.suffix_append _ _))

/-- The finalization removes nothing newer than the request in a run that is not disturbed. -/
theorem Undisturbed.finalizes_own {m₀ w₀ : Rat} {c : (agentSystem E).Config}
    (hc : System.Reachable (Shared.start m₀ w₀) c) (hcond : Undisturbed c.world.log) :
    FinalizesOwn c.world.log := by
  intro i t l₁ l₀ h n hn x hx
  have hflow := hcond i t l₁ l₀ h
  obtain ⟨q, r, σ, s, m, hl, rfl, -⟩ := h
  have hlog : m ++ ⟨i, s, .send q⟩ :: l₀ <:+ c.world.log := (List.suffix_cons _ _).trans hl
  have hsend : lastSet n t (⟨i, s, .send q⟩ :: l₀) = lastSet n t l₀ := lastSet_cons nofun nofun
  rw [← hsend]
  refine lastSet_between (fun y l' hy hl' v ttl a he => ?_) hx
  have hl₀ : l₀ <:+ l' := (List.suffix_cons _ _).trans hl'
  obtain ⟨k, σ', e⟩ := y
  cases he
  have hplaced := Reachable.placed hc (hy.trans hlog)
  simp only [finalizedNamespaces, List.mem_cons, List.not_mem_nil, or_false] at hn
  rcases hn with rfl | rfl | rfl
  · exact hflow _ l' hy hl₀ ⟨_, _, _, rfl⟩
  · -- the flow state was set directly before, so after the request too
    obtain ⟨z, l'', rfl, hz⟩ := hplaced.pending rfl
    rcases List.suffix_cons_iff.1 hl' with he | hl''
    · cases he
      obtain ⟨_, _, _, hz⟩ := hz
      cases hz
    · exact hflow z l'' ((List.suffix_cons _ _).trans hy) ((List.suffix_cons _ _).trans hl'') hz
  · -- the flow state was set directly afterwards, so before the reply too
    obtain ⟨z, hz, hsets⟩ := hplaced.token rfl
    have hz' := suffix_step hz hl hy fun he => by
      obtain ⟨_, _, _, hs⟩ := hsets
      rw [hs] at he
      cases he
    exact hflow z _ hz' (hl₀.trans (List.suffix_cons _ _)) hsets

/-- In every run in which nothing sets the flow state of a thread while a committing request that
succeeds is under way there: every success has a `/callback` that authorized it, no `/callback`
authorized two, and a finalization, which follows its success at once, finds only what stood when
the request was sent. -/
theorem consumption {m₀ w₀ : Rat} {c : (agentSystem E).Config}
    (hc : System.Reachable (Shared.start m₀ w₀) c) (hcond : Undisturbed c.world.log) :
    (∀ i t l₁ l₀, Committed c.world.log i t l₁ l₀ →
      FinalizedAfter c.world.log i t l₁ ∧ ∃ k, AuthorizedBy l₀ t k) ∧
    ConsumedOnce c.world.log ∧ FinalizesOwn c.world.log := by
  refine ⟨fun i t l₁ l₀ h => ?_, hcond.consumed_once hc, Undisturbed.finalizes_own E hc hcond⟩
  obtain ⟨hfin, s, q, a, hx, hflow⟩ := h.guarded hc
  obtain ⟨_, _, _, _, _, hl, -⟩ := h
  obtain ⟨y, _, _, _, _, hy, -⟩ := Reachable.authorized_by hc
    (hx.trans ((List.suffix_cons _ _).trans hl)) nofun hflow
  exact ⟨hfin, y.task, hy⟩

/-! ## Checking a run -/

/-- The reply that an entry receives, with its request. -/
def received (x : AgentEntry Tok) : Option (Req × Rep) :=
  match x.event with
  | .recv q r => some (q, r)
  | _ => none

/-- Entry number `n` of a history, counted from the newest, is a success of task `i`, and its
request is the entry below the next `k` ones. -/
theorem committed_of_check {l : List (AgentEntry Tok)} {i : Nat} {t : String} {n k : Nat} {q : Req}
    {r : Rep} (h : ((l.drop n).head?.map fun x => (x.task, received x)) = some (i, some (q, r)) ∧
      (((l.drop (n + 1)).drop k).head?.map fun x => (x.task, sent x)) = some (i, some q) ∧
      ∀ x ∈ (l.drop (n + 1)).take k, x.task ≠ i) (hs : succeeds q r = true) (ht : On l i t) :
    Committed l i t (l.drop (n + 1)) ((l.drop (n + 1)).drop (k + 1)) := by
  obtain ⟨hn, hk, hm⟩ := h
  obtain ⟨s, l₀, hl₀⟩ := eq_cons_of_sent hk
  have hl₀' : (l.drop (n + 1)).drop (k + 1) = l₀ := by rw [← List.tail_drop, hl₀, List.tail_cons]
  rw [hl₀']
  cases hl : l.drop n with
  | nil => simp [hl] at hn
  | cons x l₁ =>
    obtain ⟨i', σ, e⟩ := x
    simp only [hl, List.head?_cons, Option.map_some, Option.some.injEq, Prod.mk.injEq] at hn
    obtain ⟨rfl, hr⟩ := hn
    have hl₁ : l.drop (n + 1) = l₁ := by rw [← List.tail_drop, hl, List.tail_cons]
    unfold received at hr
    split at hr
    · next he =>
      cases he
      cases hr
      refine ⟨q, r, σ, s, (l.drop (n + 1)).take k, ?_, ?_, hm, hs, ht⟩
      · rw [hl₁, ← hl]
        exact List.drop_suffix n l
      · rw [← hl₀, List.take_append_drop]
    · cases hr

/-- Task `k` serves a `/callback` that set the flow state of a thread. -/
theorem authorizedBy_of_check {l : List (AgentEntry Tok)} {t : String} {k : Nat} {j : Job Tok}
    {code : String} {state : Tok} {cookie : Option Tok}
    (h : (lastSet .flowState t l).map (fun x => x.task) = some k ∧
      (k, j) ∈ l.filterMap started ∧ k ∈ l.filterMap endedAuthorized)
    (hj : j = .callback code state cookie) : AuthorizedBy l t k := by
  subst hj
  obtain ⟨hx, hs, hend⟩ := h
  have hs := spawned_of_started hs
  obtain ⟨x, hset, hk⟩ := Option.map_eq_some_iff.1 hx
  obtain ⟨σ, hσ⟩ := finish_of_endedAuthorized hend
  exact ⟨x, σ, hset, hk, ⟨code, state, cookie, hs⟩, hσ⟩

/-- Decides that every success is received directly after its request. -/
def repliesDirect : List (AgentEntry Tok) → Bool
  | [] => true
  | x :: l =>
    (match received x with
      | some (q, r) => !succeeds q r || decide (l.head?.map (fun y => y.task) = some x.task)
      | none => true) && repliesDirect l

/-- A reply that comes directly comes after an event of its own task. -/
theorem task_of_repliesDirect {l : List (AgentEntry Tok)} (h : repliesDirect l = true) {i : Nat}
    {σ : Shared} {q : Req} {r : Rep} {x : AgentEntry Tok} {l₁ : List (AgentEntry Tok)}
    (hl : ⟨i, σ, .recv q r⟩ :: x :: l₁ <:+ l) (hs : succeeds q r = true) : x.task = i := by
  induction l with
  | nil => simp at hl
  | cons y l ih =>
    rw [repliesDirect, Bool.and_eq_true] at h
    rcases List.suffix_cons_iff.1 hl with he | hl
    · cases he
      simpa [received, hs] using h.1
    · exact ih h.2 hl

/-- So the check finds that no commit is disturbed. -/
theorem undisturbed_of_check {l : List (AgentEntry Tok)} (h : repliesDirect l = true) :
    Undisturbed l := by
  rintro i t l₁ l₀ ⟨q, r, σ, s, m, hl, rfl, hm, hs, -⟩ x l' hx hl₀
  cases m with
  | nil =>
    -- nothing but the request lies in between
    rcases List.suffix_cons_iff.1 hx with he | hx
    · cases he
      rintro ⟨_, _, _, he⟩
      cases he
    · have h₁ := hx.length_le
      have h₂ := hl₀.length_le
      rw [List.length_cons] at h₁
      omega
  | cons y m => exact absurd (task_of_repliesDirect h hl hs) (hm y (.head _))

namespace Symbolic

/-- The Business API has created the meeting. -/
def created (i : Nat) : Schedule := [.reply i (ok 201 [("id", .str "m")])]

/-- Two calls book a meeting before the first of them is answered. -/
def bookedTwice : Schedule :=
  booked ++ tool 5 "obo" "schedule_meeting" (meeting "a") ++ created 4 ++ created 5

/-- Another meeting is previewed before the first is booked. -/
def overtaken : Schedule :=
  booked ++ tool 5 "agent" "schedule_meeting_preview" (meeting "b") ++ created 4

/-- The request that books the meeting. -/
def booking : Req := .businessApi .post .meetings "obo" (some (.obj (meeting "a")))

/-- The call that books it. -/
def bookingCall : Job Symbolic.Tok :=
  .mcp "obo" "schedule_meeting" (("thread_id", .str "t") :: meeting "a")

/-- The `/callback` that authorizes it. -/
def consent : Job Symbolic.Tok := .callback "code" (state "book" 1) (some (state "book" 1))

end Symbolic

open Symbolic in
/-- Where the booking is answered before anything else happens, it consumes its authorization. -/
theorem created_consumes : (∃ l₁ l₀, Committed (play (booked ++ created 4)).world.log 4 "t" l₁ l₀ ∧
      FinalizedAfter (play (booked ++ created 4)).world.log 4 "t" l₁ ∧
      ∃ k, AuthorizedBy l₀ "t" k) ∧
    ConsumedOnce (play (booked ++ created 4)).world.log ∧
    FinalizesOwn (play (booked ++ created 4)).world.log := by
  have h := consumption env (play_reachable (booked ++ created 4))
    (undisturbed_of_check (by decide +kernel))
  have h₄ := committed_of_check (l := (play (booked ++ created 4)).world.log) (i := 4) (t := "t")
    (n := 5) (k := 0) (q := booking) (r := ok 201 [("id", .str "m")]) (by decide +kernel) rfl
    ⟨bookingCall, spawned_of_started (by decide +kernel), rfl⟩
  exact ⟨⟨_, _, h₄, h.1 4 "t" _ _ h₄⟩, h.2⟩

open Symbolic in
/-- Neither half holds in every run: one `/callback` is spent on two successes, and a finalization
deletes a pending meeting that a later preview has stored. -/
theorem not_consumed :
    (¬ ∀ c : (agentSystem env).Config, System.Reachable (Shared.start 0 0) c →
      ConsumedOnce c.world.log) ∧
    ¬ ∀ c : (agentSystem env).Config, System.Reachable (Shared.start 0 0) c →
      FinalizesOwn c.world.log := by
  constructor
  · intro h
    have on : ∀ i, (i, bookingCall) ∈ (play bookedTwice).world.log.filterMap started →
        On (play bookedTwice).world.log i "t" := fun i hi => ⟨_, spawned_of_started hi, rfl⟩
    have h₄ := committed_of_check (l := (play bookedTwice).world.log) (i := 4) (t := "t") (n := 11)
      (k := 7) (q := booking) (r := ok 201 [("id", .str "m")]) (by decide +kernel) rfl
      (on 4 (by decide +kernel))
    have h₅ := committed_of_check (l := (play bookedTwice).world.log) (i := 5) (t := "t") (n := 5)
      (k := 6) (q := booking) (r := ok 201 [("id", .str "m")]) (by decide +kernel) rfl
      (on 5 (by decide +kernel))
    have by₄ : AuthorizedBy (((play bookedTwice).world.log.drop (11 + 1)).drop (7 + 1)) "t" 3 :=
      authorizedBy_of_check (j := consent) (by decide +kernel) rfl
    have by₅ : AuthorizedBy (((play bookedTwice).world.log.drop (5 + 1)).drop (6 + 1)) "t" 3 :=
      authorizedBy_of_check (j := consent) (by decide +kernel) rfl
    exact absurd (h _ (play_reachable bookedTwice) 4 5 "t" "t" _ _ _ _ 3 h₄ h₅ by₄ by₅).1 (by decide)
  · intro h
    have h₄ := committed_of_check (l := (play overtaken).world.log) (i := 4) (t := "t") (n := 5)
      (k := 8) (q := booking) (r := ok 201 [("id", .str "m")]) (by decide +kernel) rfl
      ⟨bookingCall, spawned_of_started (by decide +kernel), rfl⟩
    -- task 5 stored what is pending at the reply, task 1 what was pending at the request
    have h₁ : (lastSet .pendingMeeting "t" ((play overtaken).world.log.drop (5 + 1))).map
        (fun x => x.task) = some 5 := by decide +kernel
    have h₀ : (lastSet .pendingMeeting "t" (((play overtaken).world.log.drop (5 + 1)).drop
        (8 + 1))).map (fun x => x.task) = some 1 := by decide +kernel
    obtain ⟨x, hx, hx₁⟩ := Option.map_eq_some_iff.1 h₁
    have hx₀ := h _ (play_reachable overtaken) 4 "t" _ _ h₄ .pendingMeeting (by decide) x hx
    have h₀ := (congrArg (Option.map fun x => x.task) hx₀).symm.trans h₀
    exact absurd (hx₁.symm.trans (Option.some.inj h₀)) (by decide)

end Teamspace.Agent
