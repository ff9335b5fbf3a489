import Mathlib.Algebra.Order.Ring.Unbundled.Rat
import Teamspace.Agent.Tools
import Teamspace.Common.ServiceTokenClient
import Teamspace.Lib.LastWrite

/-!
# The agent-config cache

`fetch_and_cache_agent_config` and `invalidate_agent_config_cache` of `agent/agent_config_cache.py`,
with `force_refresh`, for calls that share the cache and the monotonic clock and are interrupted at
will. The organization stands in the URL as it is, so the request is not always one for it. What a
call returns for an organization is the body of a reply to a request for that organization, its own
or that of the call that stored last, exactly if its URL leads to it (`agent_config_sound_iff`).
-/

namespace Teamspace.Agent

open Teamspace.Common Teamspace.Lib Teamspace.Py Teamspace.Lib.System

namespace AgentConfigCache

/-- `_cache` and `time.monotonic()`. -/
structure Cache where
  entries : String → Option (Rat × Json)
  monotonic : Rat

/-- An agent that has just started. -/
def Cache.start (monotonic : Rat) : Cache := ⟨fun _ => none, monotonic⟩

/-- Time passes. -/
def Cache.Passes (σ σ' : Cache) : Prop := ∃ m, σ.monotonic ≤ m ∧ σ' = { σ with monotonic := m }

/-! ## Calls -/

/-- The sections that `_CACHE_LOCK` protects, and `service_token_client.invalidate()`. -/
inductive Op
  | cached (orgId : String)
  | store (orgId : String) (data : Json)
  | invalidate (orgId : String)
  | invalidateTokens
  deriving DecidableEq

/-- The answer of an operation. -/
def Op.Ans : Op → Type
  | .cached _ => Option Json
  | .store .. | .invalidate _ | .invalidateTokens => Unit

/-- What a call waits for. -/
inductive Request
  /-- `service_token_client.aauth_headers(force_refresh)`. -/
  | headers (forceRefresh : Bool)
  /-- `client.get(url, headers)`, by the service token in the headers. -/
  | get (url token : String)
  deriving DecidableEq

inductive Reply
  /-- The token in the headers, if there are any. -/
  | token (token : Option String)
  /-- `httpx.RequestError`. -/
  | requestError
  | response (statusCode : Nat) (json : Option Json)
  /-- Any other exception. -/
  | raised (e : Exn)
  deriving DecidableEq

/-- The operations and requests of a call. -/
def calls : Interface := ⟨Op, Op.Ans, Request, Reply, Exn⟩

/-- An operation takes place. -/
def execOp : (o : Op) → Cache → o.Ans × Cache
  | .cached orgId, σ => (cachedOf (σ.entries orgId) σ.monotonic, σ)
  | .store orgId data, σ =>
    ((), { σ with entries := Function.update σ.entries orgId (some (σ.monotonic, data)) })
  | .invalidate orgId, σ => ((), { σ with entries := Function.update σ.entries orgId none })
  | .invalidateTokens, σ => ((), σ)

/-- The token in the headers that `service_token_client.aauth_headers` returns. -/
def aauthHeaders (forceRefresh : Bool) : Program calls (Option String) := do
  match ← Program.request (I := calls) (.headers forceRefresh) with
  | .token token => return token.filter (· ≠ "")
  | .raised e => .raise e
  | _ => return none

/-- `_get`. -/
def get (url token : String) : Program calls (Option (Nat × Option Json)) := do
  match ← Program.request (I := calls) (.get url token) with
  | .response statusCode json => return some (statusCode, json)
  | .raised e => .raise e
  | _ => return none

/-- The end of `fetch_and_cache_agent_config`: a usable response is cached. -/
def cacheResponse (orgId : String) (statusCode : Nat) (json : Option Json) :
    Program calls (Option Json) := do
  if statusCode ≠ 200 then return none
  else match json with
    | none => return none
    | some data =>
      Program.perform (I := calls) (.store orgId data)
      return some data

/-- The URL of the configuration of an organization. -/
def configUrl (businessApiUrl orgId : String) : String :=
  rstrip businessApiUrl '/' ++ "/agent-config/org/" ++ orgId

/-- What follows a first response. -/
def retry (businessApiUrl orgId : String) (statusCode : Nat) (json : Option Json) :
    Program calls (Option Json) := do
  if statusCode = 401 then
    Program.perform (I := calls) .invalidateTokens
    match ← aauthHeaders true with
    | none => return none
    | some token =>
      match ← get (configUrl businessApiUrl orgId) token with
      | none => return none
      | some (statusCode, json) => cacheResponse orgId statusCode json
  else cacheResponse orgId statusCode json

/-- The part of `fetch_and_cache_agent_config` after the cache. -/
def fetch (businessApiUrl orgId : String) : Program calls (Option Json) := do
  match ← aauthHeaders false with
  | none => return none
  | some token =>
    match ← get (configUrl businessApiUrl orgId) token with
    | none => return none
    | some (statusCode, json) => retry businessApiUrl orgId statusCode json

/-- `fetch_and_cache_agent_config`. -/
def fetchAndCacheAgentConfig (businessApiUrl orgId : String) (forceRefresh : Bool) :
    Program calls (Option Json) := do
  if forceRefresh then fetch businessApiUrl orgId
  else
    match ← Program.perform (I := calls) (.cached orgId) with
    | some cached => return some cached
    | none => fetch businessApiUrl orgId

/-- A call. -/
inductive Job
  | fetch (orgId : String) (forceRefresh : Bool)
  | invalidate (orgId : String)
  deriving DecidableEq

/-- The calls of an agent. The settings do not change. -/
def agent (businessApiUrl : String) : System where
  I := calls
  State := Cache
  Job := Job
  Out := Option Json
  exec := execOp
  program
    | .fetch orgId forceRefresh => fetchAndCacheAgentConfig businessApiUrl orgId forceRefresh
    | .invalidate orgId => do
      Program.perform (I := calls) (.invalidate orgId)
      return none
  passes := Cache.Passes

instance (businessApiUrl : String) : DecidableEq (agent businessApiUrl).Out :=
  inferInstanceAs (DecidableEq (Option Json))

/-- Entries and events of the agent. -/
abbrev CallEntry := Entry calls Cache Job (Option Json)
abbrev CallEvent := Event calls Job (Option Json)

/-! ## What a call does -/

section
variable {base : String}

/-- In the trace `h` of a call, `data` is the JSON body of a 200 reply to a GET of the URL that is
built from `orgId`. -/
def Replied (base : String) (h : List CallEvent) (orgId : String) (data : Json) : Prop :=
  ∃ token, .recv (.get (configUrl base orgId) token) (.response 200 (some data)) ∈ h

/-- In the trace `h` of a call, `data` is the JSON body of a 200 reply to a GET for `orgId`, where
`routed` says which organization a GET of a URL is for, if it is for one. -/
def Received (routed : String → Option String) (h : List CallEvent) (orgId : String)
    (data : Json) : Prop :=
  ∃ url token, routed url = some orgId ∧ .recv (.get url token) (.response 200 (some data)) ∈ h

/-- The event sends a GET. -/
def IsGet (e : CallEvent) : Prop := ∃ url token, e = .send (.get url token)

/-- The trace of a call whose first GET was answered with 401, and that has `token` for another one:
it was minted after the tokens were discarded. -/
def Retries (h : List CallEvent) (token : String) : Prop :=
  ∃ url rejected json h', h = .recv (.headers true) (.token (some token)) ::
    .send (.headers true) :: .op .invalidateTokens () ::
    .recv (.get url rejected) (.response 401 json) :: .send (.get url rejected) :: h' ∧
      ∀ e ∈ h', ¬ IsGet e

/-- An event that the trace of its call accounts for. -/
structure Accounts (base : String) (e : CallEvent) (h : List CallEvent) : Prop where
  /-- What is stored is for the organization of the call, and was received for it. -/
  stores : ∀ orgId data a, e = .op (.store orgId data) a →
    (∃ forceRefresh, .spawn (.fetch orgId forceRefresh) ∈ h) ∧ Replied base h orgId data
  /-- What invalidates is not a fetch. -/
  invalidates : ∀ orgId a, e = .op (.invalidate orgId) a → .spawn (.invalidate orgId) ∈ h
  /-- What is returned was received by the call, or found in the cache unless this was forced. -/
  returns : ∀ data, e = .finish (.ok (some data)) → ∃ orgId forceRefresh,
    .spawn (.fetch orgId forceRefresh) ∈ h ∧ (Replied base h orgId data ∨
      forceRefresh = false ∧ .op (.cached orgId) (some data) ∈ h)
  /-- A GET is the first one, or the first one was rejected. -/
  gets : ∀ url token, e = .send (.get url token) → (∀ e' ∈ h, ¬ IsGet e') ∨ Retries h token

/-- The judgement of a call. -/
abbrev Accounted (base : String) (p : Program calls (Option Json)) (h : List CallEvent) : Prop :=
  Local (S := agent base) (Accounts base) (fun x h => Accounts base (.finish x) h) p h

/-- A call that returns nothing is accounted for. -/
theorem accounts_none (h : List CallEvent) : Accounts base (.finish (.ok none)) h :=
  ⟨nofun, nofun, nofun, nofun⟩

/-- So is one that raises. -/
theorem accounts_raised (e : Exn) (h : List CallEvent) : Accounts base (.finish (.error e)) h :=
  ⟨nofun, nofun, nofun, nofun⟩

/-- So is every reply. -/
theorem accounts_recv (q : Request) (r : Reply) (h : List CallEvent) :
    Accounts base (.recv q r) h := ⟨nofun, nofun, nofun, nofun⟩

/-- A call without headers ends; with them it goes on. -/
theorem aauthHeaders_accounted {forceRefresh : Bool}
    {f : Option String → Program calls (Option Json)} {h : List CallEvent} (hnone : f none = .ret none)
    (hsome : ∀ token, Accounted base (f (some token))
      (.recv (.headers forceRefresh) (.token (some token)) :: .send (.headers forceRefresh) :: h)) :
    Accounted base (aauthHeaders forceRefresh >>= f) h := by
  refine ⟨⟨nofun, nofun, nofun, nofun⟩, fun r => ⟨accounts_recv _ r _, ?_⟩⟩
  have none_case (h' : List CallEvent) : Accounted base (f none) h' := by
    rw [hnone]
    exact accounts_none h'
  cases r with
  | token token =>
    cases token with
    | none => exact none_case _
    | some token =>
      change Accounted base (f (Option.filter (· ≠ "") (some token))) _
      by_cases ht : token = ""
      · rw [Option.filter_some, if_neg (by simpa using ht)]
        exact none_case _
      · rw [Option.filter_some, if_pos (by simpa using ht)]
        exact hsome token
  | requestError | response => exact none_case _
  | raised e => exact accounts_raised e _

/-- A call without a response ends; with one it goes on. -/
theorem get_accounted {url token : String}
    {f : Option (Nat × Option Json) → Program calls (Option Json)}
    {h : List CallEvent} (hfirst : (∀ e ∈ h, ¬ IsGet e) ∨ Retries h token)
    (hnone : f none = .ret none)
    (hsome : ∀ statusCode json, Accounted base (f (some (statusCode, json)))
      (.recv (.get url token) (.response statusCode json) :: .send (.get url token) :: h)) :
    Accounted base (get url token >>= f) h := by
  refine ⟨⟨nofun, nofun, nofun, ?_⟩, fun r => ⟨accounts_recv _ r _, ?_⟩⟩
  · rintro url' token' ⟨⟩
    exact hfirst
  · have none_case (h' : List CallEvent) : Accounted base (f none) h' := by
      rw [hnone]
      exact accounts_none h'
    cases r with
    | token | requestError => exact none_case _
    | response statusCode json => exact hsome statusCode json
    | raised e => exact accounts_raised e _

/-- A usable response was received for the organization of the call. -/
theorem cacheResponse_accounted {orgId token : String} {forceRefresh : Bool} {statusCode : Nat}
    {json : Option Json} {h : List CallEvent} (hspawn : .spawn (.fetch orgId forceRefresh) ∈ h)
    (hrecv : .recv (.get (configUrl base orgId) token) (.response statusCode json) ∈ h) :
    Accounted base (cacheResponse orgId statusCode json) h := by
  unfold cacheResponse
  split
  · exact accounts_none h
  · next hs =>
    obtain rfl : statusCode = 200 := not_not.1 hs
    cases json with
    | none => exact accounts_none h
    | some data =>
      intro a
      refine ⟨⟨?_, nofun, nofun, nofun⟩, ⟨nofun, nofun, ?_, nofun⟩⟩
      · rintro orgId' data' a' ⟨⟩
        exact ⟨⟨forceRefresh, hspawn⟩, token, hrecv⟩
      · rintro data' ⟨⟩
        exact ⟨orgId, forceRefresh, .tail _ hspawn, .inl ⟨token, .tail _ hrecv⟩⟩

/-- So is every event of a fetch. -/
theorem fetch_accounted {orgId : String} {forceRefresh : Bool} {h : List CallEvent}
    (hspawn : .spawn (.fetch orgId forceRefresh) ∈ h) (hget : ∀ e ∈ h, ¬ IsGet e) :
    Accounted base (fetch base orgId) h := by
  refine aauthHeaders_accounted rfl fun token => ?_
  have hget₁ : ∀ e ∈ (.recv (.headers false) (.token (some token)) :: .send (.headers false) :: h :
      List CallEvent), ¬ IsGet e := by
    refine List.forall_mem_cons.2 ⟨?_, List.forall_mem_cons.2 ⟨?_, hget⟩⟩
    · rintro ⟨url, token', ⟨⟩⟩
    · rintro ⟨url, token', ⟨⟩⟩
  refine get_accounted (.inl hget₁) rfl fun statusCode json => ?_
  have hspawn₁ := List.mem_cons_of_mem (.recv (.get (configUrl base orgId) token)
    (.response statusCode json)) (List.mem_cons_of_mem (.send (.get (configUrl base orgId) token))
      (List.mem_cons_of_mem (.recv (.headers false) (.token (some token)))
        (List.mem_cons_of_mem (.send (.headers false)) hspawn)))
  change Accounted base (retry base orgId statusCode json) _
  unfold retry
  split
  · next hs =>
    subst hs
    intro a
    refine ⟨⟨nofun, nofun, nofun, nofun⟩, aauthHeaders_accounted rfl fun token' => ?_⟩
    refine get_accounted (.inr ⟨_, token, json, _, rfl, hget₁⟩) rfl fun statusCode' json' => ?_
    exact cacheResponse_accounted (.tail _ (.tail _ (.tail _ (.tail _ (.tail _ hspawn₁)))))
      (.head _)
  · exact cacheResponse_accounted hspawn₁ (.head _)

/-- So is every event of every call. -/
theorem agent_accounted (j : Job) : Accounted base ((agent base).program j) [.spawn j] := by
  cases j with
  | invalidate orgId =>
    intro a
    refine ⟨⟨nofun, ?_, nofun, nofun⟩, accounts_none _⟩
    rintro orgId' a' ⟨⟩
    exact .head _
  | fetch orgId forceRefresh =>
    change Accounted base (fetchAndCacheAgentConfig base orgId forceRefresh) _
    cases forceRefresh with
    | true =>
      refine fetch_accounted (.head _) (List.forall_mem_singleton.2 ?_)
      rintro ⟨url, token, ⟨⟩⟩
    | false =>
      intro cached
      refine ⟨⟨nofun, nofun, nofun, nofun⟩, ?_⟩
      cases cached with
      | some data =>
        refine ⟨nofun, nofun, ?_, nofun⟩
        rintro data' ⟨⟩
        exact ⟨orgId, false, .tail _ (.head _), .inr ⟨rfl, .head _⟩⟩
      | none =>
        refine fetch_accounted (.tail _ (.head _)) (List.forall_mem_cons.2
          ⟨?_, List.forall_mem_singleton.2 ?_⟩)
        · rintro ⟨url, token, ⟨⟩⟩
        · rintro ⟨url, token, ⟨⟩⟩

/-! ## What the cache holds -/

/-- The event writes the entry of an organization. -/
def Writes (orgId : String) (e : CallEvent) : Prop :=
  (∃ data a, e = .op (.store orgId data) a) ∨ ∃ a, e = .op (.invalidate orgId) a

/-- What does not write for an organization leaves its entry. -/
theorem entry_after {orgId : String} {x : CallEntry} (h : ¬ Writes orgId x.event) :
    (Event.after (S := agent base) x.event x.state).entries orgId = x.state.entries orgId := by
  obtain ⟨i, σ, e⟩ := x
  cases e with
  | op o a =>
    cases o with
    | cached | invalidateTokens => rfl
    | store orgId' data =>
      refine Function.update_of_ne (fun he => h (.inl ?_)) ..
      subst he
      exact ⟨data, a, rfl⟩
    | invalidate orgId' =>
      refine Function.update_of_ne (fun he => h (.inr ?_)) ..
      subst he
      exact ⟨a, rfl⟩
  | spawn | send | recv | finish => rfl

/-- What the cache holds for an organization was stored, and nothing has written its entry since. -/
theorem entry_eq {m : Rat} {w : (agent base).World}
    (hw : Consistent (S := agent base) (Cache.start m) w) {orgId : String} {entry : Rat × Json}
    (he : w.state.entries orgId = some entry) :
    ∃ l₁ k s data l₂, w.log = l₁ ++ ⟨k, s, .op (.store orgId data) ()⟩ :: l₂ ∧
      entry = (s.monotonic, data) ∧ ∀ x ∈ l₁, ¬ Writes orgId x.event := by
  have hpass : ∀ σ σ' : Cache, (agent base).passes σ σ' → σ'.entries orgId = σ.entries orgId := by
    rintro σ σ' ⟨m', -, rfl⟩
    rfl
  obtain ⟨hs, -⟩ | ⟨l₁, ⟨k, s, e⟩, l₂, hlog, hwrites, hs, hl₁⟩ :=
    hw.last_write (f := fun σ : Cache => σ.entries orgId) (W := fun x => Writes orgId x.event)
      (fun x => entry_after) hpass
  · cases he.symm.trans hs
  · rcases hwrites with ⟨data, a, rfl⟩ | ⟨a, rfl⟩
    · have hs := he.symm.trans (hs.trans (Function.update_self ..))
      exact ⟨l₁, k, s, data, l₂, hlog, Option.some.inj hs, hl₁⟩
    · cases he.symm.trans (hs.trans (Function.update_self ..))

/-- Time does not go back. -/
theorem monotonic_le {m : Rat} {w : (agent base).World}
    (hw : Consistent (S := agent base) (Cache.start m) w) :
    ∀ x ∈ w.log, x.state.monotonic ≤ w.state.monotonic := by
  refine hw.clock_le (f := Cache.monotonic) (fun o σ => ?_) ?_
  · cases o <;> exact le_rfl
  · rintro σ σ' ⟨m', hle, rfl⟩
    exact hle

/-- `data` was in the cache when task `i` asked for `orgId`: task `k` had received it for the same
organization, as `R` says, and stored it, less than 300 seconds before, and since then nothing was
stored for the organization and its entry was not invalidated. -/
def Cached (base : String) (R : List CallEvent → String → Json → Prop) (l : List CallEntry)
    (i : Nat) (orgId : String) (data : Json) : Prop :=
  ∃ (now s : Cache) (k : Nat) (l₁ l₂ l₃ : List CallEntry),
    l = l₁ ++ ⟨i, now, .op (.cached orgId) (some data)⟩ ::
      (l₂ ++ ⟨k, s, .op (.store orgId data) ()⟩ :: l₃) ∧
    R (trace (S := agent base) k l₃) orgId data ∧
    s.monotonic ≤ now.monotonic ∧ now.monotonic < s.monotonic + 300 ∧
    ∀ x ∈ l₂, ¬ Writes orgId x.event

/-- What is found in the cache was stored less than 300 seconds before. -/
theorem cachedOf_eq_some {entry : Option (Rat × Json)} {now : Rat} {data : Json}
    (h : cachedOf entry now = some data) :
    ∃ time, entry = some (time, data) ∧ now - time < 300 := by
  cases entry with
  | none => cases h
  | some e =>
    obtain ⟨time, data'⟩ := e
    have h : (if isFresh (time, data') now then notNone (some data') else none) = some data := h
    split at h
    · next hf =>
      have hd : data' = data := by
        cases data' with
        | null => cases h
        | bool | num | str | arr | obj => exact Option.some.inj h
      exact ⟨time, by rw [hd], of_decide_eq_true hf⟩
    · cases h

/-- What a call finds in the cache was received for its organization, and is what was stored
last. -/
theorem cached_of_hit {m : Rat} {c : (agent base).Config}
    (hc : Preempted (S := agent base) (Cache.start m) c) {i : Nat} {orgId : String} {data : Json}
    (h : .op (.cached orgId) (some data) ∈ trace (S := agent base) i c.world.log) :
    Cached base (Replied base) c.world.log i orgId data := by
  obtain ⟨l₁, now, l, hlog⟩ := mem_trace_split h
  obtain ⟨hbefore, hanswer⟩ := hc.consistent.before hlog
  have hanswer : some data = cachedOf (now.entries orgId) now.monotonic := hanswer
  obtain ⟨time, he, hlt⟩ := cachedOf_eq_some hanswer.symm
  obtain ⟨l₂, k, s, data', l₃, hl, hentry, hl₂⟩ := entry_eq hbefore he
  cases hentry
  have hl : l = l₂ ++ ⟨k, s, .op (.store orgId data) ()⟩ :: l₃ := hl
  subst hl
  have hlog' : c.world.log = (l₁ ++ ⟨i, now, .op (.cached orgId) (some data)⟩ :: l₂) ++
      ⟨k, s, .op (.store orgId data) ()⟩ :: l₃ := by
    rw [hlog, List.append_assoc]
    rfl
  have hstored := (hc.justified agent_accounted hlog').resolve_left (by rintro ⟨_, ⟨⟩, -⟩)
  exact ⟨now, s, k, l₁, l₂, l₃, hlog, (hstored.stores _ _ _ rfl).2,
    monotonic_le hbefore _ (List.mem_append_right l₂ (.head _)), sub_lt_iff_lt_add'.1 hlt, hl₂⟩

/-! ## Soundness -/

/-- The URL of an organization is that of no other one. -/
theorem configUrl_injective {orgId orgId' : String}
    (h : configUrl base orgId = configUrl base orgId') : orgId = orgId' := by
  have h := congrArg String.toList h
  simp only [configUrl, String.toList_append] at h
  exact String.toList_inj.1 (List.append_cancel_left h)

/-- The operation does not look into the cache of tokens. -/
def Uncached (o : ClientOp) : Prop := ∀ config, o ≠ .cached config

/-- Handling a reply does not look into the cache of tokens. -/
theorem handleResponse_uncached (config : M2MConfig) (json : Option Json) :
    Program.Only (I := clientInterface) Uncached (fun _ => True) (handleResponse config json) := by
  rw [handleResponse_eq]
  cases verdict config json with
  | refuse | raise => trivial
  | keep token lifetime =>
    refine ⟨nofun, fun stored => ?_⟩
    cases stored with
    | ok _ => trivial
    | error e => cases e <;> trivial

/-- A token that is refreshed by force does not come from the cache of tokens. -/
theorem agetToken_uncached :
    Program.Only (I := clientInterface) Uncached (fun _ => True) (agetToken true) := by
  rw [agetToken, acquire_eq]
  refine ⟨nofun, fun config =>
    Program.only_ite (fun _ => trivial) fun _ => ⟨trivial, fun reply => ?_⟩⟩
  cases reply with
  | requestError => trivial
  | response statusCode json =>
    exact Program.only_ite (fun _ => trivial) fun _ => handleResponse_uncached config json

instance (e : CallEvent) : Decidable (IsGet e) :=
  match e with
  | .send (.get url token) => isTrue ⟨url, token, rfl⟩
  | .send (.headers _) | .spawn _ | .op _ _ | .recv _ _ | .finish _ =>
    isFalse (by rintro ⟨url, token, ⟨⟩⟩)

/-- A trace in which every GET is the first one or follows the only other one holds two at most. -/
theorem gets_le_two {t : List CallEvent}
    (h : ∀ l₁ e l₂, t = l₁ ++ e :: l₂ → IsGet e → l₂.countP (fun e => IsGet e) ≤ 1) :
    t.countP (fun e => IsGet e) ≤ 2 := by
  induction t with
  | nil => exact Nat.zero_le _
  | cons e t ih =>
    rw [List.countP_cons]
    split
    · next he => exact Nat.succ_le_succ (h [] e t rfl (of_decide_eq_true he))
    · exact ih fun l₁ e' l₂ hl => h (e :: l₁) e' l₂ (by rw [hl]; rfl)

/-- A call that tries again has sent one GET. -/
theorem gets_of_retries {h : List CallEvent} {token : String} (hr : Retries h token) :
    h.countP (fun e => IsGet e) = 1 := by
  obtain ⟨url, rejected, json, h', rfl, hget⟩ := hr
  have hnone : h'.countP (fun e => IsGet e) = 0 :=
    List.countP_eq_zero.2 fun e he hd => hget e he (of_decide_eq_true hd)
  simp only [List.countP_cons, hnone]
  rfl

/-- What a call did, and what came of it. -/
structure Sound (routed : String → Option String) (base : String) (l : List CallEntry) (i : Nat) :
    Prop where
  /-- What is returned for an organization is the body of a 200 reply to a GET for it, to this call
  or, unless it was forced, to the one that stored last. -/
  returned : ∀ data, .finish (.ok (some data)) ∈ trace (S := agent base) i l →
    ∃ orgId forceRefresh, .spawn (.fetch orgId forceRefresh) ∈ trace (S := agent base) i l ∧
      (Received routed (trace (S := agent base) i l) orgId data ∨
        forceRefresh = false ∧ Cached base (Received routed) l i orgId data)
  /-- A call sends two GETs at most. -/
  atMostTwo : (trace (S := agent base) i l).countP (fun e => IsGet e) ≤ 2
  /-- The second one follows a 401, with a token that was minted since. -/
  second : ∀ t₁ url token t₂, trace (S := agent base) i l = t₁ ++ .send (.get url token) :: t₂ →
    (∀ e ∈ t₂, ¬ IsGet e) ∨ Retries t₂ token
  /-- A fetch that has not received a body with a 200 leaves the cache alone. -/
  unchanged : ∀ orgId forceRefresh,
    .spawn (.fetch orgId forceRefresh) ∈ trace (S := agent base) i l →
    (∀ url token data, .recv (.get url token) (.response 200 (some data)) ∉
      trace (S := agent base) i l) → ∀ x ∈ l, x.task = i →
      (Event.after (S := agent base) x.event x.state).entries = x.state.entries

/-- A task has started once, with one job. -/
theorem spawn_inj {m : Rat} {c : (agent base).Config}
    (hc : Preempted (S := agent base) (Cache.start m) c) {i : Nat} {j j' : Job}
    (h : .spawn j ∈ trace (S := agent base) i c.world.log)
    (h' : .spawn j' ∈ trace (S := agent base) i c.world.log) : j = j' := by
  obtain ⟨s, hs⟩ := mem_trace.1 h
  obtain ⟨s', hs'⟩ := mem_trace.1 h'
  exact hc.spawn_unique hs hs'

/-- What a trace shows, a longer one shows. -/
theorem Replied.mono {h h' : List CallEvent} {orgId : String} {data : Json} (hsub : h ⊆ h')
    (hr : Replied base h orgId data) : Replied base h' orgId data := by
  obtain ⟨token, hrecv⟩ := hr
  exact ⟨token, hsub hrecv⟩

/-- A fetch that writes into the cache has received a body for its own organization. -/
theorem received_of_write {m : Rat} {c : (agent base).Config}
    (hc : Preempted (S := agent base) (Cache.start m) c) {i : Nat} {orgId : String}
    {forceRefresh : Bool}
    (hspawn : .spawn (.fetch orgId forceRefresh) ∈ trace (S := agent base) i c.world.log)
    {x : CallEntry} (hx : x ∈ c.world.log) (hi : x.task = i) {o : String} (hw : Writes o x.event) :
    ∃ data, Replied base (trace (S := agent base) i c.world.log) orgId data := by
  obtain ⟨k, s, e⟩ := x
  obtain rfl : k = i := hi
  obtain ⟨l₁, l₂, hlog⟩ := List.append_of_mem hx
  have hsub : trace (S := agent base) k l₂ ⊆ trace (S := agent base) k c.world.log := by
    intro e' he'
    obtain ⟨s', hs'⟩ := mem_trace.1 he'
    rw [hlog]
    exact mem_trace.2 ⟨s', List.mem_append_right l₁ (.tail _ hs')⟩
  have hacc : Accounts base e (trace (S := agent base) k l₂) := by
    refine (hc.justified agent_accounted hlog).resolve_left ?_
    rintro ⟨j, rfl, -⟩
    rcases hw with ⟨_, _, ⟨⟩⟩ | ⟨_, ⟨⟩⟩
  rcases hw with ⟨data, a, he⟩ | ⟨a, he⟩
  · obtain ⟨⟨forced, hown⟩, hr⟩ := hacc.stores o data a he
    cases spawn_inj hc hspawn (hsub hown)
    exact ⟨data, hr.mono hsub⟩
  · cases spawn_inj hc hspawn (hsub (hacc.invalidates o a he))

/-- A GET of the URL of an organization is one for it. -/
abbrev Leads (routed : String → Option String) (base orgId : String) : Prop :=
  routed (configUrl base orgId) = some orgId

/-- A reply to a GET of the URL of an organization is one for it, if the URL leads to it. -/
theorem Replied.received {routed : String → Option String} {h : List CallEvent} {orgId : String}
    {data : Json} (hleads : Leads routed base orgId) (hr : Replied base h orgId data) :
    Received routed h orgId data := by
  obtain ⟨token, hrecv⟩ := hr
  exact ⟨_, token, hleads, hrecv⟩

/-- The run fetches for these organizations only. -/
def Fetches (orgs : Set String) (c : (agent base).Config) : Prop :=
  ∀ i orgId forceRefresh,
    .spawn (.fetch orgId forceRefresh) ∈ trace (S := agent base) i c.world.log → orgId ∈ orgs

/-- Every call of a run that fetches for organizations whose URLs lead to them is sound. -/
theorem sound_of_leads {routed : String → Option String} {orgs : Set String} {m : Rat}
    {c : (agent base).Config} (hc : Preempted (S := agent base) (Cache.start m) c)
    (hfetches : Fetches orgs c) (hleads : ∀ orgId ∈ orgs, Leads routed base orgId) (i : Nat) :
    Sound routed base c.world.log i := by
  have hgets {t₁ t₂ : List CallEvent} {url token : String}
      (ht : trace (S := agent base) i c.world.log = t₁ ++ .send (.get url token) :: t₂) :
      (∀ e ∈ t₂, ¬ IsGet e) ∨ Retries t₂ token := by
    have hacc := (hc.justified_trace agent_accounted ht).resolve_left (by rintro ⟨_, ⟨⟩, -⟩)
    exact hacc.gets url token rfl
  refine ⟨fun data hret => ?_, gets_le_two fun t₁ e t₂ ht he => ?_, fun _ _ _ _ => hgets, ?_⟩
  · obtain ⟨t, ht, hacc⟩ := hc.finished agent_accounted hret
    have hsub : t ⊆ trace (S := agent base) i c.world.log := by
      rw [ht]
      exact List.subset_cons_self ..
    obtain ⟨orgId, forceRefresh, hspawn, hfrom⟩ := hacc.returns data rfl
    have hlead := hleads orgId (hfetches i orgId forceRefresh (hsub hspawn))
    refine ⟨orgId, forceRefresh, hsub hspawn, hfrom.imp (fun h => (h.mono hsub).received hlead) ?_⟩
    rintro ⟨hforce, hhit⟩
    obtain ⟨now, s, k, l₁, l₂, l₃, hlog, hr, hrest⟩ := cached_of_hit hc (hsub hhit)
    exact ⟨hforce, now, s, k, l₁, l₂, l₃, hlog, hr.received hlead, hrest⟩
  · obtain ⟨url, token, rfl⟩ := he
    rcases hgets ht with hfirst | hretry
    · have hnone : t₂.countP (fun e => IsGet e) = 0 :=
        List.countP_eq_zero.2 fun e he hd => hfirst e he (of_decide_eq_true hd)
      omega
    · exact (gets_of_retries hretry).le
  · intro orgId forceRefresh hspawn hnone x hx hi
    have hkeeps (o : String) :
        (Event.after (S := agent base) x.event x.state).entries o = x.state.entries o := by
      refine entry_after fun hw => ?_
      obtain ⟨data, token, hr⟩ := received_of_write hc hspawn hx hi hw
      exact hnone _ token data hr
    exact funext hkeeps

/-! ## Where the URL leads -/

/-- A run of one fetch, which is answered with a body. -/
def fetched (base : String) (m : Rat) (orgId : String) : (agent base).Config :=
  [.spawn 0 (.fetch orgId true), .reply 0 (.token (some "new")),
    .reply 0 (.response 200 (some (.obj [])))].foldl Config.play (Config.start (Cache.start m))

/-- The run of the example is preemptive. -/
theorem preempted_fetched (m : Rat) (orgId : String) :
    Preempted (S := agent base) (Cache.start m) (fetched base m orgId) :=
  (Reachable.play .refl _).preempted

/-- What the fetch has done. -/
theorem trace_fetched (m : Rat) (orgId : String) :
    trace (S := agent base) 0 (fetched base m orgId).world.log = [
      .finish (.ok (some (.obj []))), .op (.store orgId (.obj [])) (),
      .recv (.get (configUrl base orgId) "new") (.response 200 (some (.obj []))),
      .send (.get (configUrl base orgId) "new"), .recv (.headers false) (.token (some "new")),
      .send (.headers false), .spawn (.fetch orgId true)] := rfl

/-- The run fetches for this organization only. -/
theorem fetches_fetched (m : Rat) (orgId : String) : Fetches {orgId} (fetched base m orgId) := by
  intro i orgId' forceRefresh hspawn
  have hi : i = 0 := by
    obtain ⟨σ, hσ⟩ := mem_trace.1 hspawn
    have htasks : ∀ x ∈ (fetched base m orgId).world.log, x.task = 0 :=
      List.forall_mem_cons.2 ⟨rfl, List.forall_mem_cons.2 ⟨rfl, List.forall_mem_cons.2 ⟨rfl,
        List.forall_mem_cons.2 ⟨rfl, List.forall_mem_cons.2 ⟨rfl, List.forall_mem_cons.2 ⟨rfl,
          List.forall_mem_singleton.2 rfl⟩⟩⟩⟩⟩⟩
    exact htasks _ hσ
  subst hi
  rw [trace_fetched] at hspawn
  simp only [List.mem_cons, reduceCtorEq, List.not_mem_nil, false_or, or_false] at hspawn
  cases hspawn
  rfl

/-- If the fetch is sound, the URL leads to its organization. -/
theorem leads_of_sound {routed : String → Option String} {m : Rat} {orgId : String}
    (h : Sound routed base (fetched base m orgId).world.log 0) : Leads routed base orgId := by
  obtain ⟨orgId', forceRefresh, hspawn, hfrom⟩ := h.returned (.obj []) (.head _)
  rw [trace_fetched] at hspawn hfrom
  simp only [List.mem_cons, reduceCtorEq, List.not_mem_nil, false_or, or_false] at hspawn
  cases hspawn
  rcases hfrom with ⟨url, token, hrouted, hrecv⟩ | ⟨hforce, -⟩
  · rcases hrecv with _ | ⟨_, _ | ⟨_, _ | ⟨_, _ | ⟨_, _ | ⟨_, _ | ⟨_, _ | ⟨_, ⟨⟩⟩⟩⟩⟩⟩⟩⟩
    exact hrouted
  · cases hforce

/-- The calls of all runs that fetch for some organizations are sound exactly if the URL of each of
them leads to it. A service token that is refreshed by force never comes from the cache of
tokens. -/
theorem agent_config_sound_iff {routed : String → Option String} {orgs : Set String} {m : Rat} :
    ((∀ c : (agent base).Config, Preempted (S := agent base) (Cache.start m) c →
        Fetches orgs c → ∀ i, Sound routed base c.world.log i) ↔
      ∀ orgId ∈ orgs, Leads routed base orgId) ∧
    Program.Only (I := clientInterface) Uncached (fun _ => True) (agetToken true) := by
  refine ⟨⟨fun h orgId horg => ?_, fun h c hc hfetches => sound_of_leads hc hfetches h⟩,
    agetToken_uncached⟩
  refine leads_of_sound (h _ (preempted_fetched m orgId) (fun i o f ho => ?_) 0)
  cases fetches_fetched m orgId i o f ho
  exact horg

end

/-- The segment of a URL after the address of the configurations, up to a fragment or a query, if it
is a plain name. -/
def segmentRouted (url : String) : Option String :=
  let address := "https://api/agent-config/org/".toList
  let name := (url.toList.drop address.length).takeWhile fun c => c ≠ '#' && c ≠ '?'
  if address.isPrefixOf url.toList && !name.isEmpty && name.all Char.isAlphanum then
    some (String.ofList name)
  else none

/-- The fragment of a URL is not sent: the configuration that is returned and cached for `acme#1` is
that of `acme`. -/
theorem fragment_not_sent : segmentRouted (configUrl "https://api" "acme#1") = some "acme" ∧
    ¬ ∀ c : (agent "https://api").Config, Preempted (S := agent "https://api") (Cache.start 0) c →
      ∀ i, Sound segmentRouted "https://api" c.world.log i := by
  refine ⟨by decide +kernel, fun h => ?_⟩
  have hleads := leads_of_sound (h _ (preempted_fetched 0 "acme#1") 0)
  exact absurd hleads (by decide +kernel)

end AgentConfigCache

end Teamspace.Agent
