import Teamspace.Common.ServiceTokenClient

/-!
# Where a service token comes from

A token that a call returns was granted for the configuration of the call: by a reply to the call's
own request (`Grants`), or by an earlier one that was stored under the same cache key and is still
to be used (`Hit`). The cache is what the history stored (`lastStored`), whatever the schedule, and
each call justifies by its own trace what it stores and returns (`Justified`).
-/

namespace Teamspace.Common

open Teamspace.Lib Teamspace.Py Teamspace.Lib.System

/-- Worlds, entries and events of a client. -/
abbrev ClientWorld := clientSystem.World
abbrev ClientEntry := Entry clientInterface Client ClientJob (Option Json)
abbrev ClientEvent := Event clientInterface ClientJob (Option Json)

/-- `L` is `int(expires_in)`, or 300 where it does not convert. -/
def Lifetime (expiresIn : Json) (L : Int) : Prop :=
  int expiresIn = .ok L ∨
    (int expiresIn = .error .typeError ∨ int expiresIn = .error .valueError) ∧ L = 300

/-- An HTTP 200 JSON reply with a token, whose space-separated scope contains the scope of the
configuration. -/
def Grants (config : M2MConfig) (reply : TokenReply) (token : Json) (L : Int) : Prop :=
  ∃ d scope, reply = .response 200 (some (.obj d)) ∧
    Dict.get d "access_token" = some token ∧ token.truthy = true ∧
    Dict.get d "scope" = some (.str scope) ∧ config.scope ∈ split scope ∧
    Lifetime (field d "expires_in") L

/-- What is computed is the lifetime. -/
theorem lifetime_of_lifetimeOf {v : Json} {L : Int} (h : lifetimeOf v = .ok L) : Lifetime v L := by
  unfold lifetimeOf at h
  split at h
  · next n hn => exact .inl (hn.trans h)
  · next hn => exact .inr ⟨.inl hn, (Except.ok.inj h).symm⟩
  · next hn => exact .inr ⟨.inr hn, (Except.ok.inj h).symm⟩
  · cases h

/-- A field that is not null is there. -/
theorem get_of_field {d : Dict} {k : String} {v : Json} (h : field d k = v) (hv : v ≠ .null) :
    Dict.get d k = some v := by
  unfold field at h
  cases hd : Dict.get d k with
  | none => rw [hd] at h; exact absurd h.symm hv
  | some x => rw [hd] at h; exact congrArg some h

/-- Only a text has scopes. -/
theorem scope_of_split {v : Json} {granted : List String}
    (h : splitOf (pyOr v (.str "")) = .ok granted) {x : String} (hx : x ∈ granted) :
    ∃ scope, v = .str scope ∧ granted = split scope := by
  unfold pyOr at h
  split at h
  · cases v with
    | str scope => exact ⟨scope, rfl, (Except.ok.inj h).symm⟩
    | null | bool | num | arr | obj => cases h
  · cases h
    cases hx

/-- A body that a client keeps is that of a granting reply. -/
theorem grants_of_keep {config : M2MConfig} {json : Option Json} {token : Json} {L : Int}
    (h : verdict config json = .keep token L) :
    Grants config (.response 200 json) token L := by
  obtain ⟨d, rfl⟩ : ∃ d, json = some (.obj d) := by
    rcases json with _ | _ | _ | _ | _ | _ | d
    all_goals first | cases h | exact ⟨d, rfl⟩
  rw [verdict] at h
  split at h
  · cases h
  · next ht =>
    have ht : (field d "access_token").truthy = true := Bool.not_eq_false _ ▸ ht
    split at h
    · cases h
    · next granted hs =>
      split at h
      · cases h
      · next hg =>
        split at h
        · cases h
        · next L' hl =>
          obtain ⟨rfl, rfl⟩ := Verdict.keep.inj h
          obtain ⟨scope, hscope, rfl⟩ := scope_of_split hs (Decidable.not_not.1 hg)
          refine ⟨d, scope, rfl, get_of_field rfl fun he => ?_, ht, get_of_field hscope fun he => ?_,
            Decidable.not_not.1 hg, lifetime_of_lifetimeOf hl⟩
          · rw [he] at ht
            cases ht
          · cases he

/-! ## What the cache holds -/

/-- The event takes away what is in the cache under `key`. -/
def Replaces (key : String × String × String) : ClientEvent → Prop
  | .op .invalidate _ => True
  | .op (.store config _ _) (.ok _) => config.cacheKey = key
  | _ => False

/-- What the cache holds under `key` after a history. -/
def lastStored (key : String × String × String) : List ClientEntry → Option CachedToken
  | [] => none
  | x :: l =>
    match x.event with
    | .op .invalidate _ => none
    | .op (.store config token ttl) (.ok _) =>
      if config.cacheKey = key then some ⟨token, x.state.monotonic + ttl⟩ else lastStored key l
    | _ => lastStored key l

/-- The cache holds what the history stored. -/
theorem cache_eq {config : M2MConfig} {m : Rat} {w : ClientWorld}
    (hw : Consistent (S := clientSystem) (Client.start config m) w)
    (key : String × String × String) : w.state.cache key = lastStored key w.log := by
  induction hw with
  | start => rfl
  | @record w i e _ he ih =>
    cases e with
    | op o a =>
      cases o with
      | store config token ttl =>
        change (Client.store w.state config token ttl).2.cache key = _
        by_cases hlt : ttl.natAbs < Json.floatBound
        · have hs := Client.store_of_lt w.state config token hlt
          have ha : a = .ok () := he.trans (congrArg Prod.fst hs)
          subst ha
          rw [hs]
          change Function.update w.state.cache config.cacheKey _ key =
            if config.cacheKey = key then _ else lastStored key w.log
          split
          · next hk => rw [hk, Function.update_self]
          · next hk => rw [Function.update_of_ne (Ne.symm hk), ih]
        · have hs := Client.store_of_not_lt w.state config token hlt
          have ha : a = .error .overflowError := he.trans (congrArg Prod.fst hs)
          subst ha
          rw [hs]
          exact ih
      | invalidate => rfl
      | config | cached => exact ih
    | spawn | send | recv | finish => exact ih
  | pass _ hp ih =>
    obtain ⟨config', m', -, rfl⟩ := hp
    exact ih

/-- What the cache holds was stored, and nothing replaced it since. -/
theorem lastStored_eq_some {key : String × String × String} {l : List ClientEntry}
    {e : CachedToken} (h : lastStored key l = some e) :
    ∃ l₁ k s config token, ∃ ttl : Int, ∃ l₂,
      l = l₁ ++ ⟨k, s, .op (.store config token ttl) (.ok ())⟩ :: l₂ ∧
      config.cacheKey = key ∧ e = ⟨token, s.monotonic + ttl⟩ ∧
      ∀ x ∈ l₁, ¬ Replaces key x.event := by
  induction l with
  | nil => cases h
  | cons x l ih =>
    obtain ⟨k, s, event⟩ := x
    have older : ¬ Replaces key event → lastStored key l = some e →
        ∃ l₁ k' s' config token, ∃ ttl : Int, ∃ l₂, ⟨k, s, event⟩ :: l =
          l₁ ++ ⟨k', s', .op (.store config token ttl) (.ok ())⟩ :: l₂ ∧
          config.cacheKey = key ∧ e = ⟨token, s'.monotonic + ttl⟩ ∧
          ∀ x ∈ l₁, ¬ Replaces key x.event := fun hx hl => by
      obtain ⟨l₁, k', s', config, token, ttl, l₂, rfl, hkey, he, hl₁⟩ := ih hl
      refine ⟨⟨k, s, event⟩ :: l₁, k', s', config, token, ttl, l₂, rfl, hkey, he, fun y hy => ?_⟩
      rcases List.mem_cons.1 hy with rfl | hy
      · exact hx
      · exact hl₁ y hy
    cases event with
    | op o a =>
      cases o with
      | store config token ttl =>
        match a with
        | .ok () =>
          change (if config.cacheKey = key then _ else lastStored key l) = _ at h
          split at h
          · next hk =>
            exact ⟨[], k, s, config, token, ttl, l, rfl, hk, (Option.some.inj h).symm, nofun⟩
          · next hk => exact older hk h
        | .error _ => exact older id h
      | invalidate => cases h
      | config | cached => exact older id h
    | spawn | send | recv | finish => exact older id h

/-! ## What a call stores and returns -/

/-- What a call stores was granted by a reply to its own request, and so was what it returns, unless
it was in the cache. -/
def Justified : ClientEvent → List ClientEvent → Prop
  | .op (.store config token ttl) _, h => ∃ library reply L,
      .recv (tokenRequest library config) reply ∈ h ∧ Grants config reply token L ∧ ttl = ttlOf L
  | .finish (.ok (some token)), h => ∃ config : M2MConfig, .op .config config ∈ h ∧
      (.op (.cached config) (some token) ∈ h ∨ ∃ library reply L,
        .recv (tokenRequest library config) reply ∈ h ∧ Grants config reply token L)
  | _, _ => True

/-- The judgement of a call. -/
abbrev Justifies (p : Call (Option Json)) (h : List ClientEvent) : Prop :=
  Local (S := clientSystem) Justified (fun x h => Justified (.finish x) h) p h

/-- A reply to the request of a configuration justifies what comes of it. -/
theorem handleResponse_justifies {config : M2MConfig} {json : Option Json} {library : HttpLib}
    {h : List ClientEvent} (hconfig : .op .config config ∈ h)
    (hrecv : .recv (tokenRequest library config) (.response 200 json) ∈ h) :
    Justifies (handleResponse config json) h := by
  rw [handleResponse_eq]
  cases hv : verdict config json with
  | refuse => trivial
  | raise e => trivial
  | keep token L =>
    have hgrants := grants_of_keep hv
    refine fun stored => ⟨⟨library, _, L, hrecv, hgrants, rfl⟩, ?_⟩
    match stored with
    | .ok () => exact ⟨config, .tail _ hconfig, .inr ⟨library, _, L, .tail _ hrecv, hgrants⟩⟩
    | .error e => cases e <;> trivial

/-- So does a fetch with a configuration that was read. -/
theorem fetch_justifies (library : HttpLib) {config : M2MConfig} {h : List ClientEvent}
    (hconfig : .op .config config ∈ h) : Justifies (fetch library config) h := by
  refine ⟨trivial, fun reply => ⟨trivial, ?_⟩⟩
  match reply with
  | .requestError => trivial
  | .response statusCode json =>
    by_cases hs : statusCode = 200
    · subst hs
      exact handleResponse_justifies (.tail _ (.tail _ hconfig)) (.head _)
    · change Justifies (if statusCode ≠ 200 then _ else _) _
      rw [if_pos hs]
      trivial

/-- So does every call for a token. -/
theorem acquire_justifies (library : HttpLib) (forceRefresh : Bool) (h : List ClientEvent) :
    Justifies (acquire library forceRefresh) h := by
  rw [acquire_eq]
  intro config
  refine ⟨trivial, ?_⟩
  have hconfig : .op .config config ∈ .op .config config :: h := .head _
  change Justifies (if M2MConfig.isUsable config = false then _ else _) _
  split
  · trivial
  · split
    · exact fetch_justifies library hconfig
    · intro cached
      refine ⟨trivial, ?_⟩
      match cached with
      | some token => exact ⟨config, .tail _ hconfig, .inl (.head _)⟩
      | none => exact fetch_justifies library (.tail _ hconfig)

/-- So does every job. -/
theorem job_justifies (j : ClientJob) : Justifies (clientSystem.program j) [.spawn j] := by
  cases j with
  | getToken forceRefresh => exact acquire_justifies .requests forceRefresh _
  | agetToken forceRefresh => exact acquire_justifies .httpx forceRefresh _
  | invalidate => exact fun _ => ⟨trivial, trivial⟩

/-! ## Soundness -/

/-- `token` was in the cache for `config` when task `i` looked: task `k` had stored it under the
same cache key at an earlier instant `s.monotonic`, granted by a reply to its own request. Since
then the cache was not invalidated, nothing was stored under the key, and the time has not come to
leave the token aside. -/
def Hit (l : List ClientEntry) (i : Nat) (config : M2MConfig) (token : Json) : Prop :=
  ∃ (now s : Client) (L : Int) (k : Nat) (config' : M2MConfig) (l₁ l₂ l₃ stale : List ClientEntry),
    l = l₁ ++ ⟨i, now, .op (.cached config) (some token)⟩ :: l₂ ∧
    l₂ = l₃ ++ ⟨k, s, .op (.store config' token (max (L - 30) 1)) (.ok ())⟩ :: stale ∧
    config'.cacheKey = config.cacheKey ∧
    (∃ library reply, .recv (tokenRequest library config') reply ∈ trace (S := clientSystem) k stale ∧
      Grants config' reply token L) ∧
    s.monotonic ≤ now.monotonic ∧ now.monotonic < s.monotonic + ((max (L - 30) 1 : Int) : Rat) ∧
    ∀ x ∈ l₃, ¬ Replaces config.cacheKey x.event

/-- Time does not go back. -/
theorem monotonic_le {config : M2MConfig} {m : Rat} {w : ClientWorld}
    (hw : Consistent (S := clientSystem) (Client.start config m) w) :
    ∀ x ∈ w.log, x.state.monotonic ≤ w.state.monotonic := by
  induction hw with
  | start => nofun
  | @record w i e _ he ih =>
    have hsame : (w.record i e).state.monotonic = w.state.monotonic := by
      cases e with
      | op o a =>
        cases o with
        | store config token ttl =>
          exact Client.store_monotonic w.state config token ttl
        | config | cached | invalidate => rfl
      | spawn | send | recv | finish => rfl
    intro x hx
    rw [hsame]
    rcases List.mem_cons.1 hx with rfl | hx
    · exact le_rfl
    · exact ih x hx
  | @pass w σ' _ hp ih =>
    obtain ⟨config', m', hle, rfl⟩ := hp
    exact fun x hx => (ih x hx).trans hle

/-- What a call found in the cache was stored before. -/
theorem hit_of_cached {config₀ : M2MConfig} {m : Rat} {c : clientSystem.Config}
    (hc : Preempted (S := clientSystem) (Client.start config₀ m) c) {i : Nat} {config : M2MConfig}
    {token : Json} (h : .op (.cached config) (some token) ∈ trace (S := clientSystem) i c.world.log) :
    Hit c.world.log i config token := by
  obtain ⟨now, hmem⟩ := mem_trace.1 h
  obtain ⟨l₁, l₂, hlog⟩ : ∃ l₁ l₂ : List ClientEntry, c.world.log =
    l₁ ++ ⟨i, now, .op (.cached config) (some token)⟩ :: l₂ := List.append_of_mem hmem
  obtain ⟨hbefore, hanswer⟩ := hc.consistent.before hlog
  have hcached : some token = now.cached config := hanswer
  have hcache : now.cache config.cacheKey = lastStored config.cacheKey l₂ := cache_eq hbefore _
  unfold Client.cached at hcached
  rw [hcache] at hcached
  cases he : lastStored config.cacheKey l₂ with
  | none =>
    rw [he] at hcached
    cases hcached
  | some e =>
    rw [he] at hcached
    dsimp only at hcached
    split at hcached
    · next hlt =>
      obtain ⟨l₃, k, s, config', token', ttl, stale, rfl, hkey, rfl, hl₃⟩ := lastStored_eq_some he
      cases hcached
      have hlog' : c.world.log = (l₁ ++ ⟨i, now, .op (.cached config) (some token')⟩ :: l₃) ++
          ⟨k, s, .op (.store config' token' ttl) (.ok ())⟩ :: stale := by
        rw [hlog, List.append_assoc]
        rfl
      have hjust := (hc.justified job_justifies hlog').resolve_left (by rintro ⟨_, he, -⟩; cases he)
      obtain ⟨library, reply, L, hrecv, hgrants, rfl⟩ := hjust
      exact ⟨now, s, L, k, config', l₁, _, l₃, stale, hlog, rfl, hkey, ⟨library, reply, hrecv, hgrants⟩,
        monotonic_le hbefore _ (List.mem_append_right _ (.head _)), hlt, hl₃⟩
    · cases hcached

/-- **Soundness.** Whatever the schedule and the replies, a token that a call returns comes from a
granting reply to its own request, for the configuration that it read, or from the cache. -/
theorem returned_token_sound {config₀ : M2MConfig} {m : Rat} {c : clientSystem.Config}
    (hc : Preempted (S := clientSystem) (Client.start config₀ m) c) {i : Nat} {token : Json}
    (h : .finish (.ok (some token)) ∈ trace (S := clientSystem) i c.world.log) :
    ∃ config, .op .config config ∈ trace (S := clientSystem) i c.world.log ∧
      ((∃ library reply L, .recv (tokenRequest library config) reply ∈
          trace (S := clientSystem) i c.world.log ∧ Grants config reply token L) ∨
        Hit c.world.log i config token) := by
  obtain ⟨s, hmem⟩ := mem_trace.1 h
  obtain ⟨l₁, l₂, hlog⟩ : ∃ l₁ l₂ : List ClientEntry, c.world.log =
    l₁ ++ ⟨i, s, .finish (.ok (some token))⟩ :: l₂ := List.append_of_mem hmem
  have older : ∀ {e : ClientEvent}, e ∈ trace (S := clientSystem) i l₂ →
      e ∈ trace (S := clientSystem) i c.world.log := fun he => by
    obtain ⟨s', he⟩ := mem_trace.1 he
    exact mem_trace.2 ⟨s', hlog ▸ List.mem_append_right _ (.tail _ he)⟩
  have hjust := (hc.justified job_justifies hlog).resolve_left (by rintro ⟨_, he, -⟩; cases he)
  obtain ⟨config, hconfig, hcached | ⟨library, reply, L, hrecv, hgrants⟩⟩ := hjust
  · exact ⟨config, older hconfig, .inr (hit_of_cached hc (older hcached))⟩
  · exact ⟨config, older hconfig, .inl ⟨library, reply, L, older hrecv, hgrants⟩⟩

/-! ## Runs -/

/-- The task and the token of an entry that returns one. -/
def returnedToken (x : ClientEntry) : Option (Nat × Json) :=
  match x.event with
  | .finish (.ok (some token)) => some (x.task, token)
  | _ => none

/-- A token that is listed as returned was returned. -/
theorem finish_of_returnedToken {l : List ClientEntry} {i : Nat} {token : Json}
    (h : l.head?.bind returnedToken = some (i, token)) :
    .finish (.ok (some token)) ∈ trace (S := clientSystem) i l := by
  cases l with
  | nil => cases h
  | cons x l =>
    obtain ⟨k, s, e⟩ := x
    change returnedToken ⟨k, s, e⟩ = _ at h
    unfold returnedToken at h
    split at h
    · next he =>
      cases he
      cases h
      exact mem_trace.2 ⟨s, .head _⟩
    · cases h

/-- Settings of a client. -/
def settings : M2MConfig := ⟨"https://is", "", "client", "secret", true, serviceScope⟩

/-- A reply that grants the token `tok` for an hour. -/
def grant : TokenReply :=
  .response 200 (some (.obj [("access_token", .str "tok"), ("scope", .str serviceScope),
    ("expires_in", .num (.int 3600))]))

/-- A token is requested, and then found in the cache. -/
def calledTwice : clientSystem.Config :=
  [.spawn 0 (.getToken false), .reply 0 grant, .spawn 1 (.agetToken false)].foldl Config.play
    (Config.start (Client.start settings 0))

/-- In the example the token comes from the cache, and was granted before. -/
theorem cached_token_sound : ∃ config,
    .op .config config ∈ trace (S := clientSystem) 1 calledTwice.world.log ∧
      ((∃ library reply L, .recv (tokenRequest library config) reply ∈
          trace (S := clientSystem) 1 calledTwice.world.log ∧ Grants config reply (.str "tok") L) ∨
        Hit calledTwice.world.log 1 config (.str "tok")) :=
  returned_token_sound (Reachable.play .refl _).preempted
    (finish_of_returnedToken (by decide +kernel))

end Teamspace.Common
