import Teamspace.Agent.Invariants
import Teamspace.Agent.Symbolic

/-!
# Commit soundness

A POST, PUT or DELETE to the Business API is sent with the delegated token of its thread, with the
delegated scope of its action, and the token was obtained by a `/callback` for that thread whose
signed state carried that action. The invariant is `TokenOrigin`: a delegated token that stands
beside an authorized flow state was stored together with it.
-/

namespace Teamspace.Agent

open Teamspace.Lib Teamspace.Py Teamspace.Lib.System

variable {Tok : Type} (E : Env Tok)

/-- The entry that `/callback` stores for a delegated token. -/
def oboEntry (token expiresAt : Json) : Json :=
  .obj [("token", token), ("expires_at", expiresAt)]

/-- A token that was stored is alive until it expires. -/
theorem liveTokenOf_oboEntry (token expiresAt : Json) (now : Rat) :
    liveTokenOf (some (oboEntry token expiresAt)) now = (do
      let expired ← isBefore expiresAt now
      if expired then return none else return notNone (some token)) := rfl

/-- The token that is read from a stored entry is the one that was stored. -/
theorem token_of_live {token expiresAt token' : Json} {now : Rat}
    (h : liveTokenOf (some (oboEntry token expiresAt)) now = .ok (some token')) :
    token = token' := by
  rw [liveTokenOf_oboEntry] at h
  cases hb : isBefore expiresAt now with
  | error e => rw [hb] at h; cases h
  | ok expired =>
    rw [hb] at h
    cases expired with
    | true => cases h
    | false =>
      have h : notNone (some token) = some token' := Except.ok.inj h
      unfold notNone at h
      split at h
      · cases h
      · exact Option.some.inj h

/-- A delegated token that stands beside the flow state of an authorized action was obtained by a
`/callback` that set this flow state. -/
def TokenOrigin (w : AgentWorld E) : Prop :=
  ∀ t a v, flowStateOf (w.state.get .flowState t) = .authorized a →
    w.state.get .oboToken t = some v →
    ∃ i action token expiresAt, v = oboEntry token expiresAt ∧ Accepted E w.log i t action ∧
      Exchanged E w.log i token ∧ actionToFlowState (action.getD "") = .authorized a

variable {E} in
/-- The invariant is kept where no authorized flow state and no token comes in. -/
theorem TokenOrigin.mono {w w' : AgentWorld E} (hI : TokenOrigin E w) (hl : w.log <:+ w'.log)
    (hf : ∀ t a, flowStateOf (w'.state.get .flowState t) = .authorized a →
      flowStateOf (w.state.get .flowState t) = .authorized a)
    (ho : ∀ t v, w'.state.get .oboToken t = some v → w.state.get .oboToken t = some v) :
    TokenOrigin E w' := by
  intro t a v hft hvt
  obtain ⟨i, action, token, expiresAt, hv, ha, hx, hs⟩ := hI t a v (hf t a hft) (ho t v hvt)
  exact ⟨i, action, token, expiresAt, hv, ha.mono hl, hx.mono hl, hs⟩

variable {E} in
/-- A mild operation keeps where tokens come from. -/
theorem TokenOrigin.mild {w : AgentWorld E} (hI : TokenOrigin E w) (i : Nat) {o : Op}
    (ho : o.Mild) : TokenOrigin E (w.perform i o) :=
  hI.mono (List.suffix_cons _ _) (fun _ _ h => ho.flow E h) fun _ _ h => ho.get E (.inr rfl) h

variable {E} in
/-- So does an event that is no operation. -/
theorem TokenOrigin.emit {w : AgentWorld E} (hI : TokenOrigin E w) (i : Nat)
    (e : AgentEvent Tok) : TokenOrigin E (w.emit i e) :=
  hI.mono (List.suffix_cons _ _) (fun _ _ h => h) fun _ _ h => h

/-- `/callback` establishes the invariant for its thread. -/
theorem TokenOrigin.complete {w : AgentWorld E} (hI : TokenOrigin E w) {i : Nat} {t : String}
    {action : Option String} {token expiresAt : Json} (ha : Accepted E w.log i t action)
    (hx : Exchanged E w.log i token) :
    TokenOrigin E ((w.perform i (.set .oboToken t (oboEntry token expiresAt)
      tokenTtlSeconds)).perform i (.set .flowState t
        (.str (actionToFlowState (action.getD "")).value) defaultTtlSeconds)) := by
  intro t' a v hf hv
  by_cases ht : t' = t
  · subst ht
    have hs := flow_set_self hf
    have hv' : v = oboEntry token expiresAt := Shared.get_set_self (exec_get_of_ne E hv nofun)
    exact ⟨i, action, token, expiresAt, hv',
      ha.mono ((List.suffix_cons _ _).trans (List.suffix_cons _ _)),
      hx.mono ((List.suffix_cons _ _).trans (List.suffix_cons _ _)), hs⟩
  · have before : ∀ {n x}, ((w.perform i (.set .oboToken t (oboEntry token expiresAt)
        tokenTtlSeconds)).perform i (.set .flowState t
          (.str (actionToFlowState (action.getD "")).value) defaultTtlSeconds)).state.get n t' =
        some x → w.state.get n t' = some x := by
      intro n x h
      refine exec_get_of_ne E (exec_get_of_ne E h fun ttl he => ?_) fun ttl he => ?_
      · cases he; exact ht rfl
      · cases he; exact ht rfl
    obtain ⟨x, hx', hfx⟩ := flow_authorized hf
    obtain ⟨j, action', token', expiresAt', hv', ha', hx', hs⟩ :=
      hI t' a v (by rw [before hx']; exact hfx) (before hv)
    exact ⟨j, action', token', expiresAt', hv',
      ha'.mono ((List.suffix_cons _ _).trans (List.suffix_cons _ _)),
      hx'.mono ((List.suffix_cons _ _).trans (List.suffix_cons _ _)), hs⟩

/-- Every move keeps the invariant. -/
theorem TokenOrigin.move {i : Nat} {w w' : AgentWorld E} (hm : Move E i w w')
    (hI : TokenOrigin E w) : TokenOrigin E w' := by
  cases hm with
  | mild o ho => exact hI.mild i ho
  | preview a t args _ _ =>
    have hf := hI.mild i (set_flow_mild (s := .previewInitiated a) nofun t defaultTtlSeconds)
    refine hf.mono (List.suffix_cons _ _) (fun t' a h => ?_) fun t' v h => ?_
    · exact exec_flow_of_ne E h nofun
    · exact exec_get_of_ne E h nofun
  | commit a c _ => exact hI.emit i _
  | send q _ => exact hI.emit i _
  | recv q r _ => exact hI.emit i _
  | success a c r _ _ _ _ =>
    have hf := (hI.emit i (.recv (a.commitTool.request c) r)).mild i
      (set_flow_mild (s := .initial) nofun c.threadId defaultTtlSeconds)
    exact (hf.mild i (o := .delete ..) trivial).mild i (o := .delete ..) trivial
  | complete t action token expiresAt ha hx => exact (hI.complete E ha hx).emit i (.finish _)
  | spawn j _ => exact hI.emit i _
  | finish x _ _ => exact hI.emit i _

/-! ## Signed states -/

/-- Task `i` ended by issuing the state in `url`, with `cookie` beside it. -/
def Issued (l : List (AgentEntry Tok)) (i : Nat) (url : AuthorizeUrl Tok)
    (cookie : Tok) : Prop :=
  ∃ σ, ⟨i, σ, .finish (.ok (.page (.redirect url cookie)))⟩ ∈ l

/-- What was issued, an `/authorize` issued. -/
def IssueOrigin (w : AgentWorld E) : Prop :=
  ∀ i url cookie, Issued w.log i url cookie → Issues E w.log i url cookie

variable {E} in
/-- An event keeps who has issued what, if it issues nothing itself. -/
theorem IssueOrigin.emit {w : AgentWorld E} (hI : IssueOrigin E w) (i : Nat)
    {e : AgentEvent Tok}
    (he : ∀ url cookie, e = .finish (.ok (.page (.redirect url cookie))) →
      Issues E w.log i url cookie) : IssueOrigin E (w.emit i e) := by
  rintro j url cookie ⟨σ, h⟩
  rcases List.mem_cons.1 h with h | h
  · cases h
    exact (he url cookie rfl).mono (List.suffix_cons _ _)
  · exact (hI j url cookie ⟨σ, h⟩).mono (List.suffix_cons _ _)

variable {E} in
/-- So does an operation. -/
theorem IssueOrigin.perform {w : AgentWorld E} (hI : IssueOrigin E w) (i : Nat) (o : Op) :
    IssueOrigin E (w.perform i o) := by
  rintro j url cookie ⟨σ, h⟩
  rcases List.mem_cons.1 h with h | h
  · cases h
  · exact (hI j url cookie ⟨σ, h⟩).mono (List.suffix_cons _ _)

/-- So does a move. -/
theorem IssueOrigin.move {i : Nat} {w w' : AgentWorld E} (hm : Move E i w w')
    (hI : IssueOrigin E w) : IssueOrigin E w' := by
  cases hm with
  | mild o ho => exact hI.perform i o
  | preview a t args _ _ => exact (hI.perform i _).perform i _
  | commit a c _ => exact hI.emit i nofun
  | send q _ => exact hI.emit i nofun
  | recv q r _ => exact hI.emit i nofun
  | success a c r _ _ _ _ =>
    have hr := hI.emit i (e := .recv (a.commitTool.request c) r) nofun
    exact ((hr.perform i _).perform i _).perform i _
  | complete t action token expiresAt ha hx =>
    exact ((hI.perform i _).perform i _).emit i (e := .finish _) nofun
  | spawn j _ => exact hI.emit i nofun
  | finish x _ hx => exact hI.emit i fun url cookie he => hx url cookie (Event.finish.inj he)

/-- Only JWTs issued by `/authorize`, as a state or as a cookie, verify under the state key. -/
def OnlyIssued (l : List (AgentEntry Tok)) : Prop :=
  ∀ i code state cookie secret claims, Spawned l i (.callback code state cookie) →
    E.settings.stateJwtSigningSecret = .ok secret → E.jwt.verify state secret = some claims →
    ∃ j url cookie', Issued l j url cookie' ∧ (state = url.state ∨ state = cookie')

/-- A state that is listed was issued. -/
theorem issued_of_state {l : List (AgentEntry Tok)} {s : Tok} (h : s ∈ l.filterMap issuedState) :
    ∃ j url cookie, Issued l j url cookie ∧ url.state = s := by
  obtain ⟨⟨j, σ, e⟩, hx, hs⟩ := List.mem_filterMap.1 h
  unfold issuedState at hs
  split at hs
  · next url cookie he =>
    cases he
    exact ⟨j, url, cookie, ⟨σ, hx⟩, Option.some.inj hs⟩
  · cases hs

/-- Enough for `OnlyIssued`: every presented state was issued. -/
theorem onlyIssued_of_presented {l : List (AgentEntry Tok)}
    (h : ∀ s ∈ l.filterMap presentedState, s ∈ l.filterMap issuedState) : OnlyIssued E l := by
  rintro i code state cookie secret claims ⟨σ, hs⟩ - -
  obtain ⟨j, url, cookie', hj, hurl⟩ :=
    issued_of_state (h state (List.mem_filterMap.2 ⟨_, hs, rfl⟩))
  exact ⟨j, url, cookie', hj, .inl hurl.symm⟩

/-- Task `i` serves a `/callback` for thread `t` whose verified signed state carries `action`. -/
def SignedCallback (l : List (AgentEntry Tok)) (i : Nat) (t action : String) : Prop :=
  ∃ code state cookie secret claims, Spawned l i (.callback code state cookie) ∧
    E.settings.stateJwtSigningSecret = .ok secret ∧ E.jwt.verify state secret = some claims ∧
    claims.threadId = some t ∧ claims.action = some action

/-- What is decoded has been verified. -/
theorem verify_of_decode {state : Tok} {secret : String} {now : Rat} {claims : StateClaims}
    (h : E.jwt.decode state secret now = .ok claims) :
    E.jwt.verify state secret = some claims := by
  unfold JwtLib.decode at h
  split at h
  · cases h
  · next c hc =>
    split at h
    · cases h
    · split at h
      · cases h
      · rw [hc, Except.ok.inj h]

/-- A cookie that is present is not empty. -/
theorem eq_of_present {s : Option String} {t : String} (h : present s = some t) : s = some t :=
  (Option.filter_eq_some_iff.1 h).1

/-- With `MOCK_LLM` off, only a signed state passes the gate. -/
theorem callbackGate_signed (hmock : E.settings.mockLlm = false) {state : Tok}
    {cookie : Option Tok} {secret : String} {now : Rat} {t : String} {action : Option String}
    (h : callbackGate E state cookie secret now = .ok (t, action)) :
    ∃ claims, E.jwt.verify state secret = some claims ∧ claims.threadId = some t ∧
      claims.action = action := by
  unfold callbackGate at h
  split at h
  · cases h
  · next payload hd =>
    split at h
    · next t' ht =>
      split at h
      · cases h
      · cases h
        cases payload with
        | none => cases ht
        | some claims =>
          refine ⟨claims, ?_, eq_of_present ht, rfl⟩
          unfold decodeSignedState at hd
          split at hd
          · next c hc => cases hd; exact verify_of_decode E hc
          · cases hd
          · cases hd
    · rw [hmock] at h
      cases h

/-- Only the four actions have scopes. -/
theorem scopesOfAction_isSome {action : String} (h : (scopesOfAction action).isSome = true) :
    action = "list" ∨ action = "update" ∨ action = "delete" ∨ action = "book" := by
  unfold scopesOfAction at h
  split at h
  · next hl => exact .inl hl
  split at h
  · next hu => exact .inr (.inl hu)
  split at h
  · next hd => exact .inr (.inr (.inl hd))
  split at h
  · next hb => exact .inr (.inr (.inr hb))
  · cases h

/-- An action that `/authorize` knows sets the flow state of no other action. -/
theorem action_of_scopes {action : String} {a : Action}
    (h : (scopesOfAction action).isSome = true)
    (ha : actionToFlowState action = .authorized a) : action = a.name := by
  rcases scopesOfAction_isSome h with rfl | rfl | rfl | rfl
  · rw [show actionToFlowState "list" = .listAuthorized by decide] at ha
    cases ha
  · rw [show actionToFlowState "update" = .authorized .update by decide] at ha
    cases ha
    rfl
  · rw [show actionToFlowState "delete" = .authorized .delete by decide] at ha
    cases ha
    rfl
  · rw [show actionToFlowState "book" = .authorized .book by decide] at ha
    cases ha
    rfl

/-- A callback that was let pass with an issued state is signed for the action whose flow state it
sets. -/
theorem Accepted.signed (hmock : E.settings.mockLlm = false)
    {l l' : List (AgentEntry Tok)} (hll : l <:+ l') (hissued : OnlyIssued E l')
    (hissues : ∀ i url cookie, Issued l' i url cookie → Issues E l' i url cookie) {i : Nat}
    {t : String} {action : Option String} (h : Accepted E l i t action) {a : Action}
    (ha : actionToFlowState (action.getD "") = .authorized a) : SignedCallback E l i t a.name := by
  obtain ⟨code, state, cookie, secret, now, hs, hk, hg⟩ := h
  obtain ⟨claims, hv, ht, rfl⟩ := callbackGate_signed E hmock hg
  refine ⟨code, state, cookie, secret, claims, hs, hk, hv, ht, ?_⟩
  obtain ⟨j, url, cookie', hj, hst⟩ := hissued i code state cookie secret claims (hs.mono hll) hk hv
  obtain ⟨t', action, csrf, now', secret', -, hsc, hk', hu, hcookie⟩ := hissues j url cookie' hj
  have hstate : state = url.state := by
    rcases hst with h | h
    · exact h
    · rw [h, hcookie]
  cases hk.symm.trans hk'
  rw [hstate, hu, E.jwt.verify_encode] at hv
  cases hv
  exact congrArg some (action_of_scopes hsc ha)

/-! ## Soundness -/

/-- Every POST, PUT or DELETE to the Business API, in every run from an empty store, is sent for a
call of the committing tool of an action on a thread, with a token that carries the delegated scope
of the action, that is the live delegated token of the thread, and that was obtained by the token
exchange of a `/callback` for the thread whose verified signed state carried the action. -/
theorem commit_sound (hmock : E.settings.mockLlm = false) {m w₀ : Rat}
    {c : (agentSystem E).Config} (hc : System.Reachable (Shared.start m w₀) c)
    (hissued : OnlyIssued E c.world.log) {i : Nat} {σ : Shared} {method : Method} {path : Path}
    {token : String} {body : Option Json} {l : List (AgentEntry Tok)}
    (hl : ⟨i, σ, .send (.businessApi method path token body)⟩ :: l <:+ c.world.log)
    (hmethod : method ≠ .get) :
    ∃ (a : Action) (t : String) (args : Dict) (scopes : List String), method = a.commitTool.method ∧
      Calls l i a.commitName args ∧ threadIdOf args = some t ∧
      Grants E σ.wall (.str token) scopes ∧ a.scope ∈ scopes ∧
      liveTokenOf (σ.get .oboToken t) σ.wall = .ok (some (.str token)) ∧
      ∃ j, SignedCallback E l j t a.name ∧ Exchanged E l j (.str token) := by
  obtain ⟨a, call, hq, hg⟩ := Reachable.commit_guard E hc hl (by simpa [Req.commits] using hmethod)
  have horigin : TokenOrigin E ⟨σ, l⟩ := Reachable.at_entry E (I := TokenOrigin E)
    (fun t a v hf _ => by cases hf) (fun i w w' _ hm hI => TokenOrigin.move E hm hI)
    (fun w σ' _ hp hI => hI.mono (List.suffix_refl _) (fun _ _ h => passes_flow hp h)
      fun _ _ h => hp.get h) hc hl trivial
  have hissues : IssueOrigin E c.world :=
    Reachable.invariant E (I := IssueOrigin E) (fun i url cookie ⟨σ, h⟩ => absurd h List.not_mem_nil)
      (fun i w w' _ hm hI => IssueOrigin.move E hm hI) (fun w σ' _ _ hI => hI) hc
  obtain ⟨rfl, -, rfl, -⟩ : method = a.commitTool.method ∧ path = a.commitTool.path call ∧
      token = call.token ∧ body = a.commitTool.jsonBody call := by
    simpa [CommitTool.request] using hq
  obtain ⟨decoded, hv, hsc⟩ := hg.validated
  refine ⟨a, call.threadId, call.arguments, call.scopes, rfl, hg.calls, hg.thread,
    ⟨call.token, decoded, rfl, hv, hsc⟩, hg.scope, hg.live, ?_⟩
  cases hobo : σ.get .oboToken call.threadId with
  | none =>
    have hlive := hg.live
    rw [hobo] at hlive
    cases hlive
  | some v =>
    obtain ⟨j, action, token, expiresAt, rfl, hacc, hex, haction⟩ := horigin _ _ _ hg.flow hobo
    have hlive := hg.live
    rw [hobo] at hlive
    rw [token_of_live hlive] at hex
    exact ⟨j, hacc.signed E hmock ((List.suffix_cons _ _).trans hl) hissued hissues haction, hex⟩

/-- A meeting is previewed, authorized and booked. -/
def Symbolic.booked : Symbolic.Schedule :=
  Symbolic.chat 0 ++ Symbolic.tool 1 "agent" "schedule_meeting_preview" (Symbolic.meeting "a") ++
    [.spawn 2 (.authorize "t" "book")] ++ Symbolic.callback 3 (Symbolic.state "book" 1) "obo" ++
    Symbolic.tool 4 "obo" "schedule_meeting" (Symbolic.meeting "a")

open Symbolic in
/-- The request that books the meeting is sent with a token that a callback obtained. -/
theorem booked_sound : ∃ σ l, (⟨4, σ, .send (.businessApi .post .meetings "obo"
      (some (.obj (meeting "a"))))⟩ : AgentEntry Symbolic.Tok) :: l <:+
        (play booked).world.log ∧
    ∃ (a : Action) (t : String) (args : Dict) (scopes : List String),
      Method.post = a.commitTool.method ∧ Calls l 4 a.commitName args ∧ threadIdOf args = some t ∧
      Grants env σ.wall (.str "obo") scopes ∧ a.scope ∈ scopes ∧
      liveTokenOf (σ.get .oboToken t) σ.wall = .ok (some (.str "obo")) ∧
      ∃ j, SignedCallback env l j t a.name ∧ Exchanged env l j (.str "obo") := by
  obtain ⟨σ, l, hl⟩ := eq_cons_of_sent (l := (play booked).world.log) (i := 4)
    (q := .businessApi .post .meetings "obo" (some (.obj (meeting "a"))))
    (by decide +kernel)
  have hissued : OnlyIssued env (play booked).world.log :=
    onlyIssued_of_presented env (by decide +kernel)
  have hs : ⟨4, σ, .send (.businessApi .post .meetings "obo"
      (some (.obj (meeting "a"))))⟩ :: l <:+ (play booked).world.log := by
    rw [hl]
  exact ⟨σ, l, hs, commit_sound env rfl (play_reachable booked) hissued hs nofun⟩

end Teamspace.Agent
