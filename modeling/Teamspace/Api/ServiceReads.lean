import Teamspace.Api.Authenticators
import Teamspace.Api.Routers

/-!
# Reads of an agent configuration by a service

`GET /agent-config/org/{org_id}` takes two credentials: the service token decides whether the caller
may read, and the user's token says who triggered the call. FastAPI resolves `get_current_user`
before the handler runs, so a user token that it refuses answers the call, whatever the service
token says. `service_read_ignores_user` says for which `Authorization` headers the answer is that of
a call without one.
-/

namespace Teamspace.Api

open Teamspace.Py Teamspace.Common Teamspace.Lib

variable {Key Key' : Type}

/-- `GET /agent-config/org/{org_id}` with its two headers. -/
def agentConfigCall (A : UserAuth Key) (S : ServiceAuth Key') (orgId : String)
    (authorization serviceAuthorization : Option String) (fresh : Fresh) : Call where
  claims := tokenClaims A authorization
  service := serviceAuthorization.map fun header => requireServiceAuth S (some header)
  request := .getAgentConfig orgId
  fresh := fresh

/-- The token in the header, if there is one, verifies. -/
def Verifies (A : UserAuth Key) (authorization : Option String) : Prop :=
  ∀ token, A.httpBearer authorization = some token → ∃ decoded, userClaims A token = .ok decoded

/-- The driver cannot bind the organization, or the row of the organization lacks its time of
creation, which the response model demands. -/
def Unanswerable (D : Driver) (orgId : String) (db : Database) : Prop :=
  D.operand (.str orgId) = none ∨ ∃ c ∈ db.agentConfigs.rows, c.org = orgId ∧ c.createdAt = none

/-- The lookup that answers a service. -/
def serviceLookup (D : Driver) (orgId : String) : Handler AgentConfig :=
  ofOrg D AgentConfig.table orgId "No agent config found"

/-- The answer to a service whose call names no user. -/
def serviceAnswer (D : Driver) (orgId : String) (db : Database) : Response :=
  (respond 200 agentConfigBody (serviceLookup D orgId) db).1

section
variable {D : Driver} {orgId : String} {db : Database}

/-! ## The lookup -/

/-- An organization that cannot be bound is a failure of the database. -/
theorem serviceLookup_unbound (h : D.operand (.str orgId) = none) :
    (serviceLookup D orgId).outcome db = (.error .database, db) := by
  have heq : D.equals (.str orgId) = .error .database := by
    unfold Driver.equals
    rw [h]
  unfold serviceLookup ofOrg
  rw [heq]
  rfl

variable (db) in
/-- A bound organization is looked up among the rows by its name. -/
theorem serviceLookup_bound {v : Option String} (h : D.operand (.str orgId) = some v) :
    (∃ c ∈ db.agentConfigs.rows, c.org = orgId ∧ (serviceLookup D orgId).outcome db = (.ok c, db)) ∨
      ((∀ c ∈ db.agentConfigs.rows, c.org ≠ orgId) ∧ (serviceLookup D orgId).outcome db =
        (raise 404 "No agent config found", db)) := by
  obtain ⟨isOrg, hisOrg⟩ : ∃ isOrg, D.equals (.str orgId) = .ok isOrg := by
    unfold Driver.equals
    rw [h]
    exact ⟨_, rfl⟩
  cases hfirst : db.agentConfigs.first fun c => isOrg c.org with
  | some c =>
    obtain ⟨hmem, hc⟩ := Table.mem_of_first hfirst
    exact .inl ⟨c, hmem, (Driver.equals_str hisOrg).1 hc, ofOrg_found hisOrg hfirst⟩
  | none =>
    refine .inr ⟨fun c hc horg => ?_, ofOrg_missing hisOrg hfirst⟩
    have hno := Table.of_first_none hfirst hc
    rw [(Driver.equals_str hisOrg).2 horg] at hno
    cases hno

/-- The answer shows the row of the organization. -/
def ShowsRow (D : Driver) (orgId : String) (db : Database) : Prop :=
  ∃ c ∈ db.agentConfigs.rows, c.org = orgId ∧ ∃ t, c.createdAt = some t ∧
    serviceAnswer D orgId db = ⟨200, .agentConfig { c with createdAt := t }⟩

variable (D orgId db) in
/-- A service is shown the row, or told that there is none, or not answered at all. -/
theorem serviceAnswer_outcome :
    (Unanswerable D orgId db ∧
        serviceAnswer D orgId db = ⟨500, .detail "Internal Server Error"⟩) ∨
      (¬ Unanswerable D orgId db ∧ (ShowsRow D orgId db ∨
        (∀ c ∈ db.agentConfigs.rows, c.org ≠ orgId) ∧
          (serviceAnswer D orgId db).statusCode = 404)) := by
  unfold ShowsRow serviceAnswer
  cases hop : D.operand (.str orgId) with
  | none =>
    refine .inl ⟨.inl hop, ?_⟩
    rw [respond_error (serviceLookup_unbound hop)]
    rfl
  | some v =>
    rcases serviceLookup_bound db hop with ⟨c, hmem, horg, hrun⟩ | ⟨hnone, hrun⟩
    · cases hcreated : c.createdAt with
      | none =>
        refine .inl ⟨.inr ⟨c, hmem, horg, hcreated⟩, ?_⟩
        have hbody : agentConfigBody c = .error .responseValidation := by
          unfold agentConfigBody AgentConfigResponse.ofRow
          rw [hcreated]
          rfl
        rw [respond_unrendered hrun hbody]
        rfl
      | some t =>
        refine .inr ⟨?_, .inl ⟨c, hmem, horg, t, hcreated, ?_⟩⟩
        · rintro (hn | ⟨c', hmem', horg', hcreated'⟩)
          · rw [hop] at hn
            cases hn
          · cases Table.eq_of_key hmem hmem' (horg.trans horg'.symm)
            rw [hcreated] at hcreated'
            cases hcreated'
        · have hbody : agentConfigBody c = .ok (.agentConfig { c with createdAt := t }) := by
            unfold agentConfigBody AgentConfigResponse.ofRow
            rw [hcreated]
            rfl
          rw [respond_ok hrun hbody]
    · refine .inr ⟨?_, .inr ⟨hnone, ?_⟩⟩
      · rintro (hn | ⟨c, hmem, horg, -⟩)
        · rw [hop] at hn
          cases hn
        · exact hnone c hmem horg
      · rw [respond_error hrun]
        rfl

variable (D orgId db) in
/-- A service is answered with the row or with its absence, or not at all. -/
theorem serviceAnswer_cases :
    (Unanswerable D orgId db ∧
        serviceAnswer D orgId db = ⟨500, .detail "Internal Server Error"⟩) ∨
      (¬ Unanswerable D orgId db ∧ (serviceAnswer D orgId db).statusCode ∈ [200, 404]) := by
  refine (serviceAnswer_outcome D orgId db).imp_right fun ⟨hanswerable, h⟩ => ⟨hanswerable, ?_⟩
  rcases h with ⟨c, -, -, t, -, hanswer⟩ | ⟨-, hstatus⟩
  · rw [hanswer]
    exact .head _
  · rw [hstatus]
    exact .tail _ (.head _)

/-- An answer of status 200 shows the row. -/
theorem showsRow_of_status (h : (serviceAnswer D orgId db).statusCode = 200) :
    ShowsRow D orgId db := by
  rcases serviceAnswer_outcome D orgId db with ⟨-, hanswer⟩ | ⟨-, hrow | ⟨-, hstatus⟩⟩
  · rw [hanswer] at h
    cases h
  · exact hrow
  · rw [hstatus] at h
    cases h

/-- A row that can be answered is shown. -/
theorem showsRow_of_mem {c : AgentConfig} (hbound : D.operand (.str orgId) ≠ none)
    (hmem : c ∈ db.agentConfigs.rows) (horg : c.org = orgId) (hcreated : c.createdAt ≠ none) :
    ShowsRow D orgId db := by
  rcases serviceAnswer_outcome D orgId db with ⟨hun, -⟩ | ⟨-, hrow | ⟨hnone, -⟩⟩
  · rcases hun with hnone | ⟨c', hmem', horg', hnone⟩
    · exact absurd hnone hbound
    · cases Table.eq_of_key hmem hmem' (horg.trans horg'.symm)
      exact absurd hnone hcreated
  · exact hrow
  · exact absurd horg (hnone c hmem)

/-! ## The call -/

variable {user : Except AuthExn (Option UserInfo)} {service : Option (Except AuthExn Dict)}

/-- A refused user token answers the call. -/
theorem getAgentConfig_refused {e : AuthExn} (hu : user = .error e) :
    (getAgentConfig D user orgId service).outcome db = (.error (.auth e), db) := by
  subst hu
  rfl

/-- With a user who can be read, or without one, a valid service token leads to the lookup. -/
theorem getAgentConfig_service {u : Option UserInfo} {claims : Dict} (hu : user = .ok u)
    (hservice : service = some (.ok claims)) :
    getAgentConfig D user orgId service = serviceLookup D orgId := by
  subst hu hservice
  rfl

end

/-! ## The two credentials -/

section
variable {A : UserAuth Key} {authorization : Option String}

/-- Without credentials there is nothing to verify. -/
theorem verifies_none (h : A.httpBearer authorization = none) :
    Verifies A authorization ∧ ClaimsReadable A authorization := by
  refine ⟨fun token ht => ?_, fun token decoded ht => ?_⟩
  · rw [h] at ht
    cases ht
  · rw [h] at ht
    cases ht

/-- A token that does not verify is refused with a status that no service is answered with. -/
theorem getCurrentUser_unverified (hJ : RaisesTokenErrors A.jwt)
    (hjwks : JwksOutcome A.jwt jwksUnavailable A.jwks) (h : ¬ Verifies A authorization) :
    ∃ status detail, getCurrentUser A authorization = httpException status detail ∧
      status ∈ [401, 403, 503] := by
  unfold Verifies at h
  push Not at h
  obtain ⟨token, ht, hno⟩ := h
  cases hv : userClaims A token with
  | ok decoded => exact absurd hv (hno decoded)
  | error e =>
    obtain ⟨status, detail, hr, hs⟩ := userClaims_error hJ hjwks hv
    refine ⟨status, detail, ?_, hs⟩
    unfold getCurrentUser
    rw [ht]
    dsimp only
    rw [hv]
    exact congrArg Except.error hr

/-- A token that verifies names a user if its claims can be read. -/
theorem getCurrentUser_verified (h : Verifies A authorization) :
    (ClaimsReadable A authorization ∧ ∃ u, getCurrentUser A authorization = .ok u) ∨
      (¬ ClaimsReadable A authorization ∧
        getCurrentUser A authorization = .error (.py .attributeError)) := by
  cases hb : A.httpBearer authorization with
  | none =>
    refine .inl ⟨(verifies_none hb).2, none, ?_⟩
    unfold getCurrentUser
    rw [hb]
  | some token =>
    obtain ⟨decoded, hv⟩ := h token hb
    have huser : getCurrentUser A authorization =
        (liftPy (UserInfo.ofClaims decoded) >>= fun user => pure (some user)).mapError
          userRefusal := by
      unfold getCurrentUser
      rw [hb]
      dsimp only
      rw [hv]
      rfl
    rcases ofClaims_cases decoded with ⟨hs, ha, user, hu⟩ | ⟨hn, hu⟩
    · refine .inl ⟨fun token' decoded' ht hd => ?_, some user, ?_⟩
      · cases hb.symm.trans ht
        cases hv.symm.trans hd
        exact ⟨hs, ha⟩
      · rw [huser, hu]
        rfl
    · refine .inr ⟨fun hr => hn (hr token decoded hb hv), ?_⟩
      rw [huser, hu]
      rfl

variable {D : Driver} {S : ServiceAuth Key'} {orgId : String} {db : Database} {fresh : Fresh}
  {serviceAuthorization : String} {claims : Dict}

/-- The response to the call, in terms of what `get_current_user` gives. -/
theorem agentConfigCall_response :
    (handle D (agentConfigCall A S orgId authorization (some serviceAuthorization) fresh) db).1 =
      (respond 200 agentConfigBody (getAgentConfig D (getCurrentUser A authorization) orgId
        (some (requireServiceAuth S (some serviceAuthorization)))) db).1 := by
  rw [← userOf_tokenClaims]
  rfl

/-- A token of a user that fails is refused. -/
theorem agentConfigCall_refused {e : AuthExn} (hu : getCurrentUser A authorization = .error e) :
    (handle D (agentConfigCall A S orgId authorization (some serviceAuthorization) fresh) db).1 =
      refusal (.auth e) := by
  rw [agentConfigCall_response, respond_error (getAgentConfig_refused hu)]

/-- If it does not fail, the service is answered. -/
theorem agentConfigCall_answered {u : Option UserInfo}
    (hservice : requireServiceAuth S (some serviceAuthorization) = .ok claims)
    (hu : getCurrentUser A authorization = .ok u) :
    (handle D (agentConfigCall A S orgId authorization (some serviceAuthorization) fresh) db).1 =
      serviceAnswer D orgId db := by
  rw [agentConfigCall_response, getAgentConfig_service hu (congrArg some hservice)]
  rfl

/-- A service with a valid token is answered as if its call named no user exactly when the user
token in its call, if there is one, verifies and has claims that can be read, or has claims that
cannot be read and asks for a row that cannot be answered with either. -/
theorem service_read_ignores_user (hJ : RaisesTokenErrors A.jwt)
    (hjwks : JwksOutcome A.jwt jwksUnavailable A.jwks) (habsent : A.httpBearer none = none)
    (hservice : requireServiceAuth S (some serviceAuthorization) = .ok claims) :
    (handle D (agentConfigCall A S orgId authorization (some serviceAuthorization) fresh) db).1 =
        (handle D (agentConfigCall A S orgId none (some serviceAuthorization) fresh) db).1 ↔
      Verifies A authorization ∧ (ClaimsReadable A authorization ∨ Unanswerable D orgId db) := by
  have hnone : getCurrentUser A none = .ok none := by
    unfold getCurrentUser
    rw [habsent]
  rw [agentConfigCall_answered hservice hnone]
  by_cases hv : Verifies A authorization
  · rcases getCurrentUser_verified hv with ⟨hr, u, hu⟩ | ⟨hr, hu⟩
    · rw [agentConfigCall_answered hservice hu]
      exact ⟨fun _ => ⟨hv, .inl hr⟩, fun _ => rfl⟩
    · -- both calls fail inside, or this one alone
      rw [agentConfigCall_refused hu]
      rcases serviceAnswer_cases D orgId db with ⟨hun, hans⟩ | ⟨hun, hans⟩
      · rw [hans]
        exact ⟨fun _ => ⟨hv, .inr hun⟩, fun _ => rfl⟩
      · refine ⟨fun h => ?_, fun h => (h.2.elim hr hun).elim⟩
        rw [← h] at hans
        cases hans with
        | tail _ h => cases h with
          | tail _ h => cases h
  · obtain ⟨status, detail, hu, hs⟩ := getCurrentUser_unverified hJ hjwks hv
    rw [agentConfigCall_refused hu]
    refine ⟨fun h => ?_, fun h => absurd h.1 hv⟩
    have hstatus : (serviceAnswer D orgId db).statusCode = status :=
      congrArg Response.statusCode h.symm
    rcases serviceAnswer_cases D orgId db with ⟨-, hans⟩ | ⟨-, hans⟩
    · rw [hans] at hstatus
      subst hstatus
      exact absurd hs (by decide)
    · rw [hstatus] at hans
      simp only [List.mem_cons, List.not_mem_nil, or_false] at hs hans
      omega

end

/-- A PyJWT under which one token is that of a service. -/
def exampleServiceJwt : PyJwt Unit where
  getUnverifiedHeader _ := .ok ⟨some "a"⟩
  fromJwk _ := .ok ()
  truthy _ := true
  decode token _ _ :=
    if token = "service" then .ok [("sub", .str "agent"), ("scope", .str serviceScope)]
    else .error (.invalidToken "Signature verification failed")

/-- The authenticator of services with that PyJWT and one key. -/
def exampleServiceAuth : ServiceAuth Unit where
  jwt := exampleServiceJwt
  jwks := exampleAuth.jwks
  expected := exampleAuth.expected
  repr _ := ""

/-- The service of the example passes. -/
theorem exampleService_claims : requireServiceAuth exampleServiceAuth (some "Bearer service") =
    .ok [("sub", .str "agent"), ("scope", .str serviceScope)] := by decide +kernel

/-- The header of the example has the token of the user. -/
theorem exampleAuth_bearer : exampleAuth.httpBearer (some "Bearer user") = some "user" := by
  decide +kernel

/-- The call of the service, with this `Authorization` header. -/
def exampleRead (authorization : Option String) : Response :=
  (handle .sqlite (agentConfigCall exampleAuth exampleServiceAuth "o" authorization
    (some "Bearer service") ⟨"", 0, 0⟩) Database.empty).1

/-- A user token that verifies leaves the answer, and one that does not replaces it. -/
theorem service_read_user_tokens : exampleRead (some "Bearer user") = exampleRead none ∧
    exampleRead (some "Bearer stale") ≠ exampleRead none := by
  have hiff (authorization : Option String) : exampleRead authorization = exampleRead none ↔ _ :=
    service_read_ignores_user exampleJwt_raises (exampleJwks_outcome _) rfl exampleService_claims
  refine ⟨(hiff _).2 ⟨fun token ht => ?_, .inl fun token decoded ht hd => ?_⟩, fun h => ?_⟩
  · cases ht.symm.trans exampleAuth_bearer
    exact ⟨[("sub", .str "u"), ("scope", .str "list_meetings")], by decide +kernel⟩
  · cases ht.symm.trans exampleAuth_bearer
    cases hd.symm.trans (show userClaims exampleAuth "user" =
      .ok [("sub", .str "u"), ("scope", .str "list_meetings")] by decide +kernel)
    exact ⟨⟨"list_meetings", rfl⟩, [], rfl⟩
  · obtain ⟨decoded, hd⟩ := ((hiff _).1 h).1 "stale" (by decide +kernel)
    cases hd.symm.trans (show userClaims exampleAuth "stale" =
      .error (.invalidToken "Signature verification failed") by decide +kernel)

/-- A service with a valid token is refused for the user token that its call carries. -/
theorem user_token_blocks_service : ¬ ∀ (A : UserAuth Unit) (S : ServiceAuth Unit) (D : Driver)
    (orgId service : String) (claims : Dict) (fresh : Fresh) (db : Database),
    RaisesTokenErrors A.jwt → JwksOutcome A.jwt jwksUnavailable A.jwks → A.httpBearer none = none →
    requireServiceAuth S (some service) = .ok claims → ∀ authorization authorization',
      (handle D (agentConfigCall A S orgId authorization (some service) fresh) db).1 =
        (handle D (agentConfigCall A S orgId authorization' (some service) fresh) db).1 := by
  intro h
  have h := h exampleAuth exampleServiceAuth .sqlite "o" "Bearer service" _ ⟨"", 0, 0⟩ Database.empty
    exampleJwt_raises (exampleJwks_outcome _) rfl exampleService_claims (some "Bearer stale") none
  have hstatus := congrArg Response.statusCode h
  exact absurd hstatus (by decide +kernel)

end Teamspace.Api
