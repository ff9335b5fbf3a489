import Teamspace.Agent.CommitSoundness
import Teamspace.Agent.Symbolic
import Teamspace.Agent.Threads
import Teamspace.Lib.Noninterference

/-!
# Isolation of threads

A request that is addressed to a thread changes no entry of another thread, and neither what it is
answered nor what it makes of the entries of its own depends on those of another, but for the token
of the agent that is kept for no thread (`thread_isolation`). Others may be served while it waits.
-/

namespace Teamspace.Agent

open Teamspace.Lib Teamspace.Py

variable {Tok : Type} (E : Env Tok) {t : String}

/-! ## Requests to a thread -/

/-- The job is addressed to thread `t` when it comes at wall-clock time `now`: a callback by a
signed state that names the thread. In mock mode a state of the future is taken for an unsigned
one. -/
def Job.Addresses (now : Rat) (t : String) : Job Tok → Prop
  | .callback _ state _ => ∀ secret, E.settings.stateJwtSigningSecret = .ok secret →
      ∃ c, E.jwt.verify state secret = some c ∧ c.threadId = some t ∧
        (E.settings.mockLlm = false ∨ (c.iat : Rat) ≤ now)
  | j => j.thread = some t

/-- A callback goes on with the thread that its signed state names. -/
theorem callbackGate_thread {state : Tok} {cookie : Option Tok} {secret : String} {now : Rat}
    {c : StateClaims} (hverify : E.jwt.verify state secret = some c) (hname : c.threadId = some t)
    (ht : t ≠ "") (hnow : E.settings.mockLlm = false ∨ (c.iat : Rat) ≤ now) {threadId : String}
    {action : Option String}
    (h : callbackGate E state cookie secret now = .ok (threadId, action)) : threadId = t := by
  obtain hmock | hiat := hnow
  · obtain ⟨claims, hclaims, hthread, -⟩ := callbackGate_signed E hmock h
    cases hverify.symm.trans hclaims
    exact Option.some.inj (hthread.symm.trans hname)
  · have hdecode : E.jwt.decode state secret now =
        if (c.exp : Rat) ≤ now then .error .expired else .ok c := by
      rw [JwtLib.decode, hverify]
      exact if_neg (not_lt.2 hiat)
    have hpresent : present ((some c).bind (·.threadId)) = some t := by
      change present c.threadId = some t
      rw [hname]
      exact if_pos (decide_eq_true ht)
    unfold callbackGate decodeSignedState at h
    rw [hdecode] at h
    by_cases hexp : (c.exp : Rat) ≤ now
    · rw [if_pos hexp] at h
      cases h
    · rw [if_neg hexp] at h
      dsimp only at h
      rw [hpresent] at h
      dsimp only at h
      split at h
      · cases h
      · cases h
        rfl

/-- What a callback does with what its checks say. -/
def proceed (code : String) : Except OauthError (String × Option String) → Coro (Page Tok)
  | .error kind => return oauthErrorResponse kind
  | .ok (threadId, action) => do
    match ← completeOboAuthorization E threadId code with
    | some kind => return oauthErrorResponse kind
    | none =>
      setState threadId (actionToFlowState (action.getD ""))
      return .authorized

/-- `/callback` reads the time, checks the state and goes on. -/
theorem oauthCallback_proceed {secret : String}
    (h : E.settings.stateJwtSigningSecret = .ok secret) (code : String) (state : Tok)
    (cookie : Option Tok) : oauthCallback E code state cookie =
      .op .time fun now => proceed E code (callbackGate E state cookie secret now) := by
  rw [oauthCallback_eq E h]
  refine congrArg (Program.op (I := interface) .time) (funext fun now => ?_)
  cases callbackGate E state cookie secret now <;> rfl

section

variable {P : Op → Prop} (hP : Allows P t) (hcfg : AllowsConfig P) (ht : t ≠ "")

include hP hcfg ht

/-- A job that has a thread works within what suffices for it. -/
theorem serve_within {j : Job Tok} (hj : j.thread = some t) : Within P (serve E j) := by
  cases j with
  | chat req =>
    refine Program.Only.bind ?_ fun _ => trivial
    exact within_prepareChat E (hP.tools ht) (hP.set _) (Option.some.inj hj)
  | dispatch name args threadId =>
    cases hj
    refine Program.Only.bind ?_ fun _ => trivial
    exact within_dispatchTool E (hP.tools ht) hcfg hP.validate name args
  | mcp token name args =>
    refine Program.Only.bind ?_ fun _ => trivial
    exact within_callTool E (hP.tools ht) (fun _ _ => hP.validate _) name hj
  | confirm message threadId language =>
    cases hj
    refine Program.Only.bind ?_ fun _ => trivial
    exact within_handleAuthorizationCallback E (hP.tools ht) hcfg hP.validate message language
  | authorize threadId action =>
    cases hj
    exact Program.Only.bind (within_initiateOauth E (hP.tools ht) action) fun _ => trivial
  | clear threadId =>
    cases hj
    exact Program.Only.bind (within_clearThread hP) fun _ => trivial
  | callback => cases hj

omit hcfg in
/-- What a callback does once it has read the clock. -/
theorem callback_within {code : String} {state : Tok} {cookie : Option Tok} {now : Rat}
    (hj : (Job.callback code state cookie).Addresses E now t) :
    ∃ p : Coro (Outcome Tok), Within P p ∧ ∀ l (σ : Shared), σ.wall = now →
      (serve E (.callback code state cookie)).replay (exec E) l σ = p.replay (exec E) l σ := by
  cases hsecret : E.settings.stateJwtSigningSecret with
  | error e =>
    refine ⟨serve E (.callback code state cookie), ?_, fun _ _ _ => rfl⟩
    change Within P (oauthCallback E code state cookie >>= _)
    unfold oauthCallback
    rw [hsecret]
    trivial
  | ok secret =>
    obtain ⟨c, hverify, hname, hnow⟩ := hj secret hsecret
    have hserve : serve E (.callback code state cookie) = .op .time fun now =>
        proceed E code (callbackGate E state cookie secret now) >>= fun page =>
          return .page page := by
      change oauthCallback E code state cookie >>= _ = _
      rw [oauthCallback_proceed E hsecret]
      rfl
    refine ⟨proceed E code (callbackGate E state cookie secret now) >>= fun page =>
      return .page page, Program.Only.bind ?_ fun _ => trivial, fun l σ hσ => ?_⟩
    · cases hgate : callbackGate E state cookie secret now with
      | error kind => trivial
      | ok r =>
        obtain ⟨threadId, action⟩ := r
        obtain rfl := callbackGate_thread E hverify hname ht hnow hgate
        refine Program.Only.bind (within_completeOboAuthorization E (hP.tools ht) code)
          fun kind => ?_
        cases kind with
        | some kind => trivial
        | none => exact Program.Only.bind (within_storeSet (hP.set ..)) fun _ => trivial
    · rw [hserve, ← hσ]
      rfl

/-- When it comes, a job to a thread works within what suffices for the thread. -/
theorem addressed_within {j : Job Tok} {now : Rat} (hj : j.Addresses E now t) :
    ∃ p : Coro (Outcome Tok), Within P p ∧ ∀ l (σ : Shared), σ.wall = now →
      (serve E j).replay (exec E) l σ = p.replay (exec E) l σ := by
  cases j with
  | callback code state cookie => exact callback_within E hP ht hj
  | chat | dispatch | mcp | confirm | authorize | clear =>
    exact ⟨_, serve_within E hP hcfg ht hj, fun _ _ _ => rfl⟩

end

/-! ## Isolation -/

/-- An operation that writes no entry of another thread than `t`. -/
def Op.Own (t : String) : Op → Prop
  | .set _ k _ _ | .delete _ k => k = t
  | _ => True

/-- What writes no other thread's entries suffices to work on a thread. -/
theorem allows_own : Allows (Op.Own t) t where
  get _ := trivial
  set _ _ _ := rfl
  delete _ := rfl
  default := trivial
  time := trivial
  tokenUrlsafe _ := trivial
  validate _ := trivial

/-- An operation that neither reads nor writes an entry of another thread than `t`, but for the
token that is kept for no thread. -/
def Op.Sees (t : String) : Op → Prop
  | .get n k => k = t ∨ (n, k) = (.agentToken, "_default")
  | .set _ k _ _ | .delete _ k => k = t
  | _ => True

/-- So does what neither reads nor writes them. -/
theorem allows_sees : Allows (Op.Sees t) t where
  get _ := .inl rfl
  set _ _ _ := rfl
  delete _ := rfl
  default := .inr rfl
  time := trivial
  tokenUrlsafe _ := trivial
  validate _ := trivial

/-- An operation that reads no entry of another thread than `t`, but for the token that is kept for
no thread. -/
def Op.Reads (t : String) : Op → Prop
  | .get n k => k = t ∨ (n, k) = (.agentToken, "_default")
  | _ => True

/-- What sees no other entries reads none. -/
theorem Op.Sees.reads {o : Op} (h : o.Sees t) : o.Reads t := by
  cases o with
  | get => exact h
  | _ => trivial

/-- Two states differ in the entries of other threads only, and not in the token that is kept for
no thread. -/
structure Shared.Agree (t : String) (σ σ' : Shared) : Prop where
  monotonic : σ.monotonic = σ'.monotonic
  wall : σ.wall = σ'.wall
  draws : σ.draws = σ'.draws
  configCache : σ.configCache = σ'.configCache
  entries : ∀ n, σ.store (n, t) = σ'.store (n, t)
  default : σ.store (.agentToken, "_default") = σ'.store (.agentToken, "_default")

/-- An operation on one's own entries leaves those of other threads. -/
theorem exec_own {o : Op} {σ : Shared} (ho : o.Own t) {n : Namespace} {k : String} (hk : k ≠ t) :
    (exec E o σ).2.store (n, k) = σ.store (n, k) := by
  cases o with
  | set n' k' v ttl =>
    obtain rfl : k' = t := ho
    exact Expiring.put_of_ne _ (fun h => hk (congrArg Prod.snd h)) ..
  | delete n' k' =>
    obtain rfl : k' = t := ho
    exact Expiring.erase_of_ne _ fun h => hk (congrArg Prod.snd h)
  | _ => rfl

/-- The entries that a thread sees are the same. -/
theorem Shared.Agree.store_eq {σ σ' : Shared} (h : σ.Agree t σ') {n : Namespace} {k : String}
    (hk : k = t ∨ (n, k) = (.agentToken, "_default")) : σ.store (n, k) = σ'.store (n, k) := by
  obtain rfl | hk := hk
  · exact h.entries n
  · rw [hk]
    exact h.default

/-- States that agree are read alike. -/
theorem Shared.Agree.get_eq {σ σ' : Shared} (h : σ.Agree t σ') {n : Namespace} {k : String}
    (hk : k = t ∨ (n, k) = (.agentToken, "_default")) : σ.get n k = σ'.get n k := by
  unfold Shared.get Expiring.get
  rw [h.store_eq hk, h.monotonic]

/-- After the same write they agree. -/
theorem Shared.Agree.set {σ σ' : Shared} (h : σ.Agree t σ') (n : Namespace) (k : String) (v : Json)
    (ttl : Nat) : (σ.set n k v ttl).Agree t (σ'.set n k v ttl) where
  monotonic := h.monotonic
  wall := h.wall
  draws := h.draws
  configCache := h.configCache
  entries n' := by
    unfold Shared.set
    rw [h.monotonic]
    exact Expiring.put_congr (h.entries n') ..
  default := by
    unfold Shared.set
    rw [h.monotonic]
    exact Expiring.put_congr h.default ..

/-- So they do after the same deletion. -/
theorem Shared.Agree.delete {σ σ' : Shared} (h : σ.Agree t σ') (n : Namespace) (k : String) :
    (σ.delete n k).Agree t (σ'.delete n k) where
  monotonic := h.monotonic
  wall := h.wall
  draws := h.draws
  configCache := h.configCache
  entries n' := Expiring.erase_congr (h.entries n') _
  default := Expiring.erase_congr h.default _

/-- States that differ in what a thread does not see are not told apart by what reads nothing
else. -/
theorem exec_agree {o : Op} {σ σ' : Shared} (ho : o.Reads t) (h : σ.Agree t σ') :
    (exec E o σ).1 = (exec E o σ').1 ∧ (exec E o σ).2.Agree t (exec E o σ').2 := by
  cases o with
  | get n k => exact ⟨h.get_eq ho, h⟩
  | set n k v ttl => exact ⟨rfl, h.set n k v ttl⟩
  | delete n k => exact ⟨rfl, h.delete n k⟩
  | time => exact ⟨h.wall, h⟩
  | monotonic => exact ⟨h.monotonic, h⟩
  | tokenUrlsafe nbytes =>
    have hdraws : σ.draws + 1 = σ'.draws + 1 := congrArg (· + 1) h.draws
    exact ⟨congrArg (E.tokenUrlsafe · nbytes) h.draws, { h with draws := hdraws }⟩
  | validateMcpToken token => exact ⟨congrArg (E.validateMcpToken · token) h.wall, h⟩
  | cachedConfig org => exact ⟨congrFun h.configCache org, h⟩
  | cacheConfig org data =>
    have hcache : (exec E (.cacheConfig org data) σ).2.configCache =
        (exec E (.cacheConfig org data) σ').2.configCache := by
      change Function.update σ.configCache org (some (σ.monotonic, data)) = _
      rw [h.configCache, h.monotonic]
      rfl
    exact ⟨rfl, { h with configCache := hcache }⟩

/-- A job to thread `t`, which others may be served beside. -/
structure Isolated (t : String) (j : Job Tok) : Prop where
  /-- What the others leave of the entries of other threads is left. -/
  frame : ∀ (replies : List (Program.Arrival interface Shared)) (σ σ' : Shared)
    (x : Except Exn (Outcome Tok)), j.Addresses E σ.wall t →
    (serve E j).replay (exec E) replies σ = some (x, σ') → ∀ n k, k ≠ t →
    (∀ r ∈ replies, ∀ s, (r.2 s).store (n, k) = s.store (n, k)) →
      σ'.store (n, k) = σ.store (n, k)
  /-- With the same replies, states that differ in the entries of other threads lead to the same
  outcome, and to states that differ in them only. -/
  independent : ∀ (replies replies' : List (Program.Arrival interface Shared)) (σ σ' : Shared),
    j.Addresses E σ.wall t → σ.Agree t σ' → Program.SameReplies (Shared.Agree t) replies replies' →
    Option.Rel (fun x y => x.1 = y.1 ∧ x.2.Agree t y.2) ((serve E j).replay (exec E) replies σ)
      ((serve E j).replay (exec E) replies' σ')

/-- Every job that is addressed to a thread is isolated from the others. -/
theorem thread_isolation (ht : t ≠ "") (j : Job Tok) : Isolated E t j where
  frame replies σ σ' x hj h n k hk hothers := by
    have hcfg : AllowsConfig (Op.Own t) := ⟨trivial, fun _ => trivial, fun _ _ => trivial⟩
    obtain ⟨p, hp, hserve⟩ := addressed_within E allows_own hcfg ht hj
    rw [hserve replies σ rfl] at h
    refine hp.replay_keeps (J := fun s : Shared => s.store (n, k) = σ.store (n, k)) ?_ ?_ h rfl
    · exact fun o s ho hs => (exec_own E ho hk).trans hs
    · exact fun r hr s hs => (hothers r hr s).trans hs
  independent replies replies' σ σ' hj hσ hreplies := by
    have hcfg : AllowsConfig (Op.Sees t) := ⟨trivial, fun _ => trivial, fun _ _ => trivial⟩
    obtain ⟨p, hp, hserve⟩ := addressed_within E allows_sees hcfg ht hj
    rw [hserve replies σ rfl, hserve replies' σ' hσ.wall.symm]
    exact hp.replay_agrees (fun o s s' ho hs => exec_agree E ho.reads hs) hreplies hσ

open Symbolic in
/-- The callback of the link that thread `t` was given is addressed to it, and isolated. -/
theorem thread_isolation_callback :
    Job.Addresses env 1 "t" (.callback "code" (state "book" 0) (some (state "book" 0))) ∧
    Isolated env "t" (.callback "code" (state "book" 0) (some (state "book" 0))) := by
  refine ⟨fun secret hsecret => ?_, thread_isolation env (by decide) _⟩
  cases hsecret
  exact ⟨_, rfl, rfl, .inl rfl⟩

end Teamspace.Agent
