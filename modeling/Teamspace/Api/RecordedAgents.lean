import Teamspace.Api.Writes

/-!
# Recorded agents

What the requests for agent configurations do to the `agent_id` of an organization: a `POST` that is
answered without an error records one (`handle_createAgentConfig`), a `GET` shows what is recorded,
and a `DELETE` removes it or does nothing. A token that verifies is never refused with a status
below 400 (`Refuses`).
-/

namespace Teamspace.Api

open Teamspace.Py Teamspace.Common Teamspace.Lib

/-- The agent that is recorded for an organization. -/
def recordedAgent (db : Database) (org : String) : Option String :=
  (db.agentConfigs.first fun c => decide (c.org = org)).map fun c => c.agentId

section

variable {D : Driver} {fresh : Fresh} {data : AgentConfigCreate}

/-- A configuration is created with the id of its agent. -/
theorem AgentConfig.create_agentId {r : AgentConfig}
    (h : AgentConfig.create D fresh data = .ok r) : r.agentId = data.agentId := by
  unfold AgentConfig.create at h
  obtain ⟨_, -, h⟩ := ok_of_bind h
  obtain ⟨agentId, hagentId, h⟩ := ok_of_bind h
  repeat obtain ⟨_, -, h⟩ := ok_of_bind h
  cases h
  exact D.notNull_str hagentId

/-- A change gives it the id that was sent. -/
theorem AgentConfig.setattr_agentId {existing r : AgentConfig}
    (h : AgentConfig.setattr D fresh data existing = .ok r) : r.agentId = data.agentId := by
  unfold AgentConfig.setattr at h
  obtain ⟨agentId, hagentId, h⟩ := ok_of_bind h
  repeat obtain ⟨_, -, h⟩ := ok_of_bind h
  cases h
  split
  · next heq =>
    rw [← heq]
    exact D.assign_str hagentId
  · exact D.assign_str hagentId

end

/-! ## Refusals -/

/-- What the computation raises is answered with an error. -/
structure Refuses {α : Type} (x : Except ApiExn α) : Prop where
  le : ∀ e, x = .error e → 400 ≤ (refusal e).statusCode

section

variable {α : Type}

/-- A value refuses nothing. -/
theorem Refuses.ok (a : α) : Refuses (.ok a) := ⟨fun _ h => by cases h⟩

/-- An exception with a status from 400 on refuses. -/
theorem Refuses.error {e : ApiExn} (h : 400 ≤ (refusal e).statusCode) :
    Refuses (.error e : Except ApiExn α) := by
  constructor
  rintro _ ⟨⟩
  exact h

/-- A failure of the database refuses. -/
theorem Refuses.database : Refuses (.error .database : Except ApiExn α) := .error (by decide)

/-- A failure of the database is answered with an error. -/
theorem FailsInside.refuses {x : Except ApiExn α} (h : FailsInside x) : Refuses x := by
  constructor
  intro e he
  rw [h.eq e he]
  decide

/-- A claim that cannot be split has no such attribute. -/
theorem splitClaim_error {v : Json} {e : Exn} (h : splitClaim v = .error e) :
    e = .attributeError := by
  cases v <;> cases h <;> rfl

/-- Neither has what has no `get`. -/
theorem getOr_error {v default' : Json} {k : String} {e : Exn} (h : getOr v k default' = .error e) :
    e = .attributeError := by
  cases v <;> cases h <;> rfl

/-- Claims that are none of a user have no attribute that they should. -/
theorem ofClaims_error {decoded : Dict} {e : Exn} (h : UserInfo.ofClaims decoded = .error e) :
    e = .attributeError := by
  unfold UserInfo.ofClaims at h
  cases hscope : splitClaim (claim decoded "scope" (.str "")) with
  | error e' =>
    rw [hscope] at h
    cases h
    exact splitClaim_error hscope
  | ok scopes =>
    rw [hscope] at h
    cases hact : getOr (claim decoded "act" (.obj [])) "sub" (.str "") with
    | error e' =>
      have h : (getOr (claim decoded "act" (.obj [])) "sub" (.str "") >>= _) = Except.error e := h
      rw [hact] at h
      cases h
      exact getOr_error hact
    | ok actor =>
      have h : (getOr (claim decoded "act" (.obj [])) "sub" (.str "") >>= _) = Except.error e := h
      rw [hact] at h
      cases h

/-- A user whose token verifies is refused with an error. -/
theorem refuses_requireScope (scope : String) (claims : Option Dict) :
    Refuses (depends (requireScope scope (userOf (.ok claims)))) := by
  cases claims with
  | none => exact .error (by decide)
  | some decoded =>
    have huser : userOf (.ok (some decoded)) = (liftPy (UserInfo.ofClaims decoded)).map some := by
      change (liftPy (UserInfo.ofClaims decoded) >>= fun user => pure (some user)) = _
      cases UserInfo.ofClaims decoded <;> rfl
    rw [huser]
    cases hu : UserInfo.ofClaims decoded with
    | error e =>
      rw [ofClaims_error hu]
      exact .error (by decide)
    | ok user =>
      unfold requireScope
      change Refuses (depends (if _ then _ else _))
      split
      · exact .error (by change 400 ≤ 403; decide)
      · exact .ok _

/-- Another organization is refused. -/
theorem refuses_checkOrg (org : String) (user : UserInfo) : Refuses (checkOrg org user) := by
  unfold checkOrg
  split
  · exact .error (by change 400 ≤ 403; decide)
  · exact .ok _

end

/-- A write refuses if the change of the row and its creation do. -/
theorem upsert_refuses {D : Driver} {ρ : Type} {key : ρ → String} {T : Part Database.rowsOf ρ key}
    {org : String} {setattr : ρ → Except ApiExn ρ} {create : Except ApiExn ρ} {db : Database}
    (hset : ∀ r, Refuses (setattr r)) (hcreate : Refuses create) :
    Refuses ((upsert D T org setattr create).outcome db).1 := by
  let R (out : Except ApiExn ρ × Database) : Prop := Refuses out.1
  have failed {x : Except ApiExn ρ} (hx : Refuses x) (e : ApiExn) (he : x = .error e) :
      R (.error e, db) := .error (hx.le e he)
  change R _
  refine Transaction.of_checked (fun e he => .error ((failsInside_equals _).refuses.le e he)) fun isOrg _ => ?_
  refine Part.of_first ?_ fun old _ _ => ?_
  · refine Transaction.of_checked (failed hcreate) fun row _ => ?_
    exact Part.of_insert .database fun _ _ => .ok _
  · exact Transaction.of_checked (failed (hset old)) fun row _ => .ok _

/-! ## What is recorded -/

section

variable {D : Driver} {db : Database} {org : String}

/-- The row of an organization records its agent. -/
theorem recordedAgent_eq {c : AgentConfig} (hc : c ∈ db.agentConfigs.rows) (horg : c.org = org) :
    recordedAgent db org = some c.agentId := by
  subst horg
  unfold recordedAgent
  rw [Table.first_key hc]
  rfl

/-- An upsert that returns has bound the organization. -/
theorem operand_of_upsert {ρ : Type} {key : ρ → String} {T : Part Database.rowsOf ρ key}
    {setattr : ρ → Except ApiExn ρ} {create : Except ApiExn ρ} {row : ρ}
    (h : ((upsert D T org setattr create).outcome db).1 = .ok row) :
    D.operand (.str org) ≠ none := by
  intro hnone
  have hequals : D.equals (.str org) = .error .database := by
    unfold Driver.equals
    rw [hnone]
  unfold upsert at h
  rw [hequals] at h
  cases h

/-- The row records the agent of the data. -/
structure AgentConfig.Records (D : Driver) (db : Database) (data : AgentConfigCreate)
    (c : AgentConfig) : Prop where
  bound : D.operand (.str data.org) ≠ none
  row : c ∈ db.agentConfigs.rows
  org : c.org = data.org
  agentId : c.agentId = data.agentId

/-- `create_agent_config` records the agent, or refuses with an error. -/
theorem createAgentConfig_outcome (claims : Option Dict) (fresh : Fresh) (data : AgentConfigCreate)
    (db : Database) :
    Refuses ((createAgentConfig D (userOf (.ok claims)) fresh (.ok data)).outcome db).1 ∧
      ∀ c, ((createAgentConfig D (userOf (.ok claims)) fresh (.ok data)).outcome db).1 = .ok c →
        c.Records D ((createAgentConfig D (userOf (.ok claims)) fresh (.ok data)).outcome db).2
          data := by
  let R (out : Except ApiExn AgentConfig × Database) : Prop :=
    Refuses out.1 ∧ ∀ c, out.1 = .ok c → c.Records D out.2 data
  have failed {α : Type} {x : Except ApiExn α} (hx : Refuses x) (e : ApiExn) (he : x = .error e) :
      R (.error e, db) := ⟨.error (hx.le e he), nofun⟩
  change R ((createAgentConfig D (userOf (.ok claims)) fresh (.ok data)).outcome db)
  refine Transaction.of_checked (failed (refuses_requireScope ..)) fun user _ => ?_
  refine Transaction.of_checked (failed (.ok data)) fun d hd => ?_
  obtain rfl : data = d := Except.ok.inj (validated_ok hd)
  refine Transaction.of_checked (failed (refuses_checkOrg ..)) fun _ _ => ?_
  refine ⟨upsert_refuses (fun existing => (AgentConfig.failsInside_setattr fresh data existing).refuses)
    (AgentConfig.failsInside_create fresh data).refuses, fun c hc => ?_⟩
  have hbound := operand_of_upsert hc
  obtain ⟨e, he⟩ | ⟨old, hold, row, horg, hrow, hout⟩ | ⟨row, t, -, hrow, ht, hout⟩ :=
    upsert_outcome (D := D) (T := AgentConfig.table) data.org (AgentConfig.setattr D fresh data)
      (AgentConfig.create D fresh data) db
  · rw [he] at hc
    cases hc
  · rw [hout] at hc ⊢
    cases hc
    have hcorg : c.org = data.org := AgentConfig.setattr_org horg hrow
    exact ⟨hbound, Table.mem_update_self hold (horg.trans hcorg.symm), hcorg,
      AgentConfig.setattr_agentId hrow⟩
  · rw [hout] at hc ⊢
    cases hc
    have hmem : c ∈ (AgentConfig.table.replace db t).agentConfigs.rows := by
      change c ∈ t.rows
      rw [(Table.rows_of_insert ht).2]
      exact List.mem_append_right _ (List.mem_singleton_self _)
    exact ⟨hbound, hmem, AgentConfig.create_org hrow, AgentConfig.create_agentId hrow⟩

/-- A `POST /agent-config` that is answered without an error has recorded the agent, in a row that
it shows. -/
theorem handle_createAgentConfig_row {claims : Option Dict}
    {service : Option (Except AuthExn Dict)} {fresh : Fresh} {data : AgentConfigCreate}
    (h : (handle D ⟨.ok claims, service, .createAgentConfig (.ok data), fresh⟩ db).1.statusCode < 400) :
    ∃ c : AgentConfig, c.Records D
      (handle D ⟨.ok claims, service, .createAgentConfig (.ok data), fresh⟩ db).2 data ∧
        c.createdAt ≠ none := by
  let handler := createAgentConfig D (userOf (.ok claims)) fresh (.ok data)
  obtain ⟨hrefuses, hrecords⟩ := createAgentConfig_outcome (D := D) claims fresh data db
  change (respond 201 agentConfigBody handler db).1.statusCode < 400 at h
  cases hout : (handler.outcome db).1 with
  | ok c =>
    -- a row that cannot be shown is answered with an error
    refine ⟨c, hrecords c hout, fun hcreated => ?_⟩
    have hbody : agentConfigBody c = .error .responseValidation := by
      unfold agentConfigBody AgentConfigResponse.ofRow
      rw [hcreated]
      rfl
    rw [respond_unrendered (Prod.ext hout rfl : handler.outcome db = (.ok c, _)) hbody] at h
    change 500 < 400 at h
    omega
  | error e =>
    have hout : handler.outcome db = (.error e, (handler.outcome db).2) := Prod.ext hout rfl
    rw [respond_error hout] at h
    exact absurd (hrefuses.le e (congrArg Prod.fst hout)) (Nat.not_le.2 h)

/-- A `POST /agent-config` that is answered without an error has recorded the agent. -/
theorem handle_createAgentConfig {claims : Option Dict} {service : Option (Except AuthExn Dict)}
    {fresh : Fresh} {data : AgentConfigCreate}
    (h : (handle D ⟨.ok claims, service, .createAgentConfig (.ok data), fresh⟩ db).1.statusCode < 400) :
    recordedAgent (handle D ⟨.ok claims, service, .createAgentConfig (.ok data), fresh⟩ db).2
      data.org = some data.agentId := by
  obtain ⟨c, hc, -⟩ := handle_createAgentConfig_row h
  rw [← hc.agentId]
  exact recordedAgent_eq hc.row hc.org

/-- Once the rows of an organization are deleted, no agent of it is recorded. -/
theorem recordedAgent_deleteWhere {isOrg : String → Bool} (h : D.equals (.str org) = .ok isOrg) :
    recordedAgent { db with agentConfigs := db.agentConfigs.deleteWhere fun c => isOrg c.org } org =
      none := by
  have hnone : ((db.agentConfigs.deleteWhere fun c => isOrg c.org).first fun c =>
      decide (c.org = org)) = none := by
    refine List.find?_eq_none.2 fun c hc hdec => ?_
    have hkept := (Table.mem_deleteWhere.1 hc).2
    rw [(Driver.equals_str h).2 (of_decide_eq_true hdec)] at hkept
    cases hkept
  exact congrArg (Option.map fun c : AgentConfig => c.agentId) hnone

/-- A deletion leaves what is recorded, or leaves nothing. -/
theorem handle_deleteAgentConfig {c : Call} (hc : c.request = .deleteAgentConfig org) :
    recordedAgent (handle D c db).2 org = recordedAgent db org ∨
      recordedAgent (handle D c db).2 org = none := by
  obtain ⟨claims, service, request, fresh⟩ := c
  cases hc
  let R (out : Except ApiExn Unit × Database) : Prop :=
    recordedAgent out.2 org = recordedAgent db org ∨ recordedAgent out.2 org = none
  have failed (e : ApiExn) : R (.error e, db) := .inl rfl
  change R ((deleteAgentConfig D (userOf claims) org).outcome db)
  refine Transaction.of_check failed fun _ _ => Transaction.of_check failed fun _ _ => ?_
  exact Transaction.of_check failed fun isOrg hisOrg => .inr (recordedAgent_deleteWhere hisOrg)

/-- A refusal shows no configuration. -/
theorem refusal_agentConfig (e : ApiExn) (c : AgentConfigResponse) :
    (refusal e).body ≠ .agentConfig c := by
  intro h
  unfold refusal at h
  split at h <;> cases h

/-- What a `GET /agent-config` shows is recorded. -/
theorem handle_getAgentConfig {c : Call} (hc : c.request = .getAgentConfig org)
    {shown : AgentConfigResponse} (h : (handle D c db).1.body = .agentConfig shown) :
    recordedAgent db org = some shown.agentId := by
  obtain ⟨claims, service, request, fresh⟩ := c
  cases hc
  let handler := getAgentConfig D (userOf claims) org service
  change (respond 200 agentConfigBody handler db).1.body = .agentConfig shown at h
  have hfound : ∀ row, (handler.outcome db).1 = .ok row →
      row ∈ db.agentConfigs.rows ∧ row.org = org := by
    let R (out : Except ApiExn AgentConfig × Database) : Prop :=
      ∀ row, out.1 = .ok row → row ∈ db.agentConfigs.rows ∧ row.org = org
    have failed (e : ApiExn) : R (.error e, db) := nofun
    change R _
    refine Transaction.of_check failed fun _ _ => Transaction.of_check failed fun _ _ => ?_
    refine Transaction.of_check failed fun isOrg hisOrg => Part.of_first (failed _) fun row hrow hq => ?_
    rintro _ ⟨⟩
    exact ⟨hrow, (Driver.equals_str hisOrg).1 hq⟩
  cases hout : (handler.outcome db).1 with
  | error e =>
    have hout : handler.outcome db = (.error e, (handler.outcome db).2) := Prod.ext hout rfl
    rw [respond_error hout] at h
    exact absurd h (refusal_agentConfig e shown)
  | ok row =>
    obtain ⟨hmem, horg⟩ := hfound row hout
    have hout : handler.outcome db = (.ok row, (handler.outcome db).2) := Prod.ext hout rfl
    rw [recordedAgent_eq hmem horg]
    cases hbody : agentConfigBody row with
    | error e =>
      rw [respond_unrendered hout hbody] at h
      exact absurd h (refusal_agentConfig e shown)
    | ok body =>
      rw [respond_ok hout hbody] at h
      unfold agentConfigBody AgentConfigResponse.ofRow at hbody
      cases hcreated : row.createdAt with
      | none =>
        rw [hcreated] at hbody
        cases hbody
      | some t =>
        rw [hcreated] at hbody
        cases hbody
        cases h
        rfl

end

end Teamspace.Api
