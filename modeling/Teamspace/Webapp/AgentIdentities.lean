import Teamspace.Api.RecordedAgents
import Teamspace.Webapp.Agents
import Teamspace.Webapp.LoginFlow

/-!
# Agent identities

An agent is an identity in IS and a row of the Business API that records its id. `add_agent` creates
an identity and writes the row, over the row of an earlier agent if there is one; `delete_agent`
asks both to forget the agent and reports success whatever they answer. After a request that reports
success, the recorded agent is the only one alive exactly if none was alive before the addition, or
no other one before the deletion and IS and the Business API agree about it (`no_orphan_agents`).
-/

namespace Teamspace.Webapp

open Teamspace.Py Teamspace.Common Teamspace.Lib Teamspace.Api Handling

/-! ## IS -/

/-- A call that neither creates nor deletes an agent. -/
def IsCall.SparesAgents : IsCall → Prop
  | .createAgent _ _ _ | .deleteAgent _ => False
  | _ => True

/-- There is no response, or one with a status that is none of these. -/
def Fails (statusCodes : List Nat) (r : Option IsResponse) : Prop :=
  ∀ response, r = some response → response.statusCode ∉ statusCodes

/-- What IS makes of the agents of an organization that are alive: it may answer a call with any
status, or not at all, and may have done what it fails to acknowledge. -/
inductive AgentAnswers : IsAnswers (List String)
  | created {auth : IsAuth} {displayName description owner : String} {alive : List String}
      {statusCode : Nat} {id : String} {password : Option String} : statusCode ∈ [200, 201] →
      id ≠ "" → id ∉ alive →
      AgentAnswers auth (.createAgent displayName description owner) alive
        (some ⟨statusCode, .agent (some id) password⟩) (id :: alive)
  | createLost {auth : IsAuth} {displayName description owner : String} {alive : List String}
      {r : Option IsResponse} {id : String} : Fails [200, 201] r → id ≠ "" → id ∉ alive →
      AgentAnswers auth (.createAgent displayName description owner) alive r (id :: alive)
  | notCreated {auth : IsAuth} {displayName description owner : String} {alive : List String}
      {r : Option IsResponse} : Fails [200, 201] r →
      AgentAnswers auth (.createAgent displayName description owner) alive r alive
  | deleted {auth : IsAuth} {agentId : String} {alive : List String} {r : Option IsResponse} :
      Fails [404] r →
      AgentAnswers auth (.deleteAgent agentId) alive r (alive.filter (· ≠ agentId))
  | notFound {auth : IsAuth} {agentId : String} {alive : List String} {r : IsResponse} :
      r.statusCode = 404 → agentId ∉ alive →
      AgentAnswers auth (.deleteAgent agentId) alive (some r) alive
  | notDeleted {auth : IsAuth} {agentId : String} {alive : List String} {r : Option IsResponse} :
      Fails [204, 404] r → AgentAnswers auth (.deleteAgent agentId) alive r alive
  | other {auth : IsAuth} {call : IsCall} {alive : List String} {r : Option IsResponse} :
      call.SparesAgents → AgentAnswers auth call alive r alive

/-- The environment of the handlers. -/
abbrev agentEnv (D : Driver) : Environment portal (PortalWorld (List String)) :=
  portalEnv D AgentAnswers

/-! ## What the handlers do -/

section

variable {D : Driver} {w : PortalWorld (List String)} {α : Type}

/-- A request that changes neither the agents nor their configurations. -/
def LeavesAgents : PortalReq → Prop
  | .is _ call => call.SparesAgents
  | .api _ request => request.Unseen id
  | .token _ => True

/-- What leaves agents alone changes nothing when it is answered. -/
theorem answers_leaving {q : PortalReq} (hq : LeavesAgents q) {u : PortalWorld (List String)}
    {r : PortalRep} (h : (agentEnv D).answers q w r u) : u = w := by
  cases h with
  | token => rfl
  | is h =>
    cases h with
    | created | createLost | notCreated | deleted | notFound | notDeleted => exact hq.elim
    | other => rfl
  | isFailed h =>
    cases h with
    | createLost | notCreated | deleted | notDeleted => exact hq.elim
    | other => rfl
  | api h => rw [h.same hq]

/-- What only reads, and changes no agents, leaves everything as it is. -/
theorem ends_same {p : Handling α} (hp : p.Only (fun o => o = PortalOp.session) LeavesAgents) :
    (agentEnv D).Ends p w fun _ u => u = w := by
  refine Environment.Ends.only (J := fun u => u = w) hp rfl ?_ ?_
  · intro o u ho hu
    rw [ho, hu]
    rfl
  · intro q u r t hq hu ha
    rw [hu] at ha
    exact answers_leaving hq ha

/-- The request has flashed a success message. -/
def PortalWorld.Reported (w : PortalWorld (List String)) : Prop :=
  ∃ f ∈ w.flashes, f.type = "success"

/-- Without messages no success is reported. -/
theorem not_reported_nil (hw : w.flashes = []) : ¬w.Reported := by
  rintro ⟨f, hf, -⟩
  rw [hw] at hf
  cases hf

/-- A message that is none of success. -/
theorem not_reported_flash {f : Flash} (hw : ¬w.Reported) (hf : f.type ≠ "success") :
    ¬PortalWorld.Reported { w with flashes := f :: w.flashes } := by
  rintro ⟨g, hg, hsuccess⟩
  obtain rfl | hg := List.mem_cons.1 hg
  · exact hf hsuccess
  · exact hw ⟨g, hg, hsuccess⟩

/-- The gate leaves agents alone. -/
theorem leaves_agentsGate (orgHandle : String) :
    (agentsGate orgHandle).Only (fun o => o = PortalOp.session) LeavesAgents :=
  only_agentsGate (P := fun o => o = PortalOp.session) rfl (fun _ _ => trivial) orgHandle

/-! ### Additions -/

/-- An agent has been created in IS, and is what the Business API has recorded. -/
def Adds (org : String) (alive : List String) (u : PortalWorld (List String)) : Prop :=
  ∃ id, id ∉ alive ∧ u.is = id :: alive ∧ recordedAgent u.db org = some id

/-- What is answered without an error is recorded. -/
theorem recorded_of_saved {data : AgentConfigCreate} {db db' : Database} {result : ApiResult}
    (ha : ApiAnswers D (.createAgentConfig (.ok data)) db result db')
    (h : result.statusCode ∈ [200, 201]) : recordedAgent db' data.org = some data.agentId := by
  have hlt : result.statusCode < 400 := by
    simp only [List.mem_cons, List.not_mem_nil, or_false] at h
    omega
  cases ha with
  | answered claims fresh => exact handle_createAgentConfig hlt
  | unavailable hge => omega
  | lost _ _ hge => omega

/-- The Business API has taken the configuration of an agent of the organization, which has been
created in IS. -/
def Saves (D : Driver) (w u : PortalWorld (List String)) : Prop :=
  ∃ data result, data.org = w.session.orgId ∧
    ApiAnswers D (.createAgentConfig (.ok data)) w.db result u.db ∧
    result.statusCode ∈ [200, 201] ∧ data.agentId ∉ w.is ∧ u.is = data.agentId :: w.is

/-- A configuration that is taken is recorded. -/
theorem Saves.adds {u : PortalWorld (List String)} (h : Saves D w u) :
    Adds w.session.orgId w.is u := by
  obtain ⟨data, result, horg, ha, hstatus, hfresh, his⟩ := h
  rw [← horg]
  exact ⟨data.agentId, hfresh, his, recorded_of_saved ha hstatus⟩

/-- An addition that reports success has created an agent and saved its configuration. -/
theorem addAgentBody_saves (hw : ¬w.Reported) (adminPassword : Bool) (orgHandle : String)
    (form : Form) :
    (agentEnv D).Ends (addAgentBody adminPassword orgHandle form) w fun _ u =>
      u.Reported → Saves D w u := by
  change (agentEnv D).Ends (form.item "display_name" >>= _) w _
  unfold Form.item
  cases form.get "display_name" with
  | none => exact fun h => absurd h hw
  | some displayName =>
    refine requestToken_then fun agentToken => ?_
    split
    · exact fun h => absurd h (not_reported_flash hw (by decide))
    refine callIs_then (fun result alive h => ?_) fun alive h => fun h => absurd h hw
    split
    · exact fun h => absurd h (not_reported_flash hw (by decide))
    next hstatus =>
    cases h with
    | createLost h | notCreated h => exact absurd (h _ rfl) hstatus
    | other h => exact h.elim
    | @created _ _ _ _ _ statusCode id password _ hid hfresh =>
      refine requestToken_then fun rootToken => ?_
      refine Environment.Ends.when (J := fun u => u = { w with is := id :: w.is }) rfl
        (fun _ => ends_same (only_assignRolesToUser (fun _ _ => trivial) fun _ _ => trivial))
        (fun u hu => ?_) fun _ u hu h => ?_
      · subst hu
        refine apiRequest_then fun saveResult db hdb => ?_
        split
        · next hsaved => exact fun _ => ⟨_, saveResult, rfl, hdb, hsaved, hfresh, rfl⟩
        · exact fun h => absurd h (not_reported_flash hw (by decide))
      · subst hu
        exact absurd h hw

/-- An addition that reports success has created an agent and recorded it. -/
theorem addAgentBody_ends (hw : ¬w.Reported) (adminPassword : Bool) (orgHandle : String)
    (form : Form) :
    (agentEnv D).Ends (addAgentBody adminPassword orgHandle form) w fun _ u =>
      u.Reported → Adds w.session.orgId w.is u :=
  (addAgentBody_saves hw adminPassword orgHandle form).mono fun _ _ h hreported =>
    (h hreported).adds

/-! ### Deletions -/

/-- What the others make of a deletion: whether IS, which has handed out a token, deletes the agent,
and whether the Business API deletes its configuration. -/
structure Deletions where
  is : Bool
  api : Bool
  deriving DecidableEq, Repr

/-- The others do so. A request deletes one agent at most, and one configuration. -/
def Deletions.Follows (d : Deletions) : PortalReq → PortalWorld (List String) → PortalRep →
    PortalWorld (List String) → Prop
  | .token .agentManagement, _, r, _ => d.is = true → r ≠ .token ""
  | .is _ (.deleteAgent agentId), w, _, u => if d.is then agentId ∉ u.is else u.is = w.is
  | .api _ (.deleteAgentConfig org), w, _, u =>
    recordedAgent u.db org = if d.api then none else recordedAgent w.db org
  | _, _, _, _ => True

/-- The environment of the handlers, for what the others make of deletions. -/
abbrev deletingEnv (D : Driver) (d : Deletions) : Environment portal (PortalWorld (List String)) :=
  (agentEnv D).within d.Follows

variable {d : Deletions}

/-- IS has deleted the agent `a`, and the Business API its configuration, if they do. -/
def Deletes (d : Deletions) (org : String) (w u : PortalWorld (List String)) : Prop :=
  ∃ a, recordedAgent w.db org = some a ∧ (∀ i, i ∈ u.is ↔ i ∈ w.is ∧ (d.is = true → i ≠ a)) ∧
    recordedAgent u.db org = if d.api then none else some a

/-- What is configured is recorded. -/
theorem configuredAgentId_ends (org : String) :
    (agentEnv D).Ends (configuredAgentId org) w (Environment.Either
      (fun found u => u = w ∧ ∀ a, found = some a → recordedAgent w.db org = some a)
      fun _ u => u = w) := by
  have hreads : Request.Unseen id (.getAgentConfig org) := trivial
  refine apiRequest_then fun result db hdb => ?_
  have hrecorded : result.statusCode = 200 → ∀ shown, result.data = .agentConfig shown →
      recordedAgent w.db org = some shown.agentId := by
    intro hstatus shown hshown
    cases hdb with
    | answered claims fresh => exact handle_getAgentConfig rfl hshown
    | unavailable hge | lost _ _ hge => omega
  rw [hdb.same hreads]
  split
  · exact ⟨rfl, nofun⟩
  next hstatus =>
  split
  · next shown hshown =>
    refine ⟨rfl, ?_⟩
    rintro _ ⟨⟩
    exact hrecorded (not_not.1 hstatus) shown hshown
  · exact rfl

/-- A token is asked for, and what follows. -/
theorem getAgentManagementToken_then {f : String → Handling α}
    {Q : Except PortalExn α → PortalWorld (List String) → Prop}
    (h : ∀ token, (d.is = true → token ≠ "") → (deletingEnv D d).Ends (f token) w Q) :
    (deletingEnv D d).Ends (getAgentManagementToken >>= f) w Q := by
  rintro r u ⟨ha, hfollows⟩
  cases ha with
  | token => exact h _ fun hd heq => hfollows hd (congrArg PortalRep.token heq)

/-- IS is asked to delete an agent, and what follows a response. -/
theorem callIs_deleteAgent {auth : IsAuth} {agentId : String} {f : IsResponse → Handling α}
    {Q : Except PortalExn α → PortalWorld (List String) → Prop}
    (hok : ∀ r alive, (∀ i, i ∈ alive ↔ i ∈ w.is ∧ (d.is = true → i ≠ agentId)) →
      (deletingEnv D d).Ends (f r) { w with is := alive } Q)
    (hfailed : ∀ alive, Q (.error .request) { w with is := alive }) :
    (deletingEnv D d).Ends (callIs auth (.deleteAgent agentId) >>= f) w Q := by
  rintro r u ⟨ha, hfollows⟩
  cases ha with
  | isFailed => exact hfailed _
  | @is _ _ _ r alive h =>
    refine hok r alive fun i => ?_
    have hothers : i ≠ agentId → (i ∈ alive ↔ i ∈ w.is) := by
      intro hi
      cases h with
      | deleted => simp [hi]
      | notFound | notDeleted => rfl
      | other h => exact h.elim
    have hfollows : if d.is then agentId ∉ alive else alive = w.is := hfollows
    cases hd : d.is with
    | false =>
      rw [hd] at hfollows
      rw [show alive = w.is from hfollows]
      simp
    | true =>
      rw [hd] at hfollows
      have hgone : agentId ∉ alive := hfollows
      by_cases hi : i = agentId
      · subst hi
        simp [hgone]
      · simp [hi, hothers hi]

/-- A configuration is deleted, and what follows. -/
theorem deleteAgentConfig_then {org : String} {f : ApiResult → Handling α}
    {Q : Except PortalExn α → PortalWorld (List String) → Prop}
    (h : ∀ result db, (recordedAgent db org = if d.api then none else recordedAgent w.db org) →
      (deletingEnv D d).Ends (f result) { w with db := db } Q) :
    (deletingEnv D d).Ends (deleteAgentConfig org >>= f) w Q := by
  rintro r u ⟨ha, hfollows⟩
  cases ha with
  | api => exact h _ _ hfollows

/-- A deletion that reports success has asked both. -/
theorem deleteAgentBody_ends (hw : ¬w.Reported) (hnamed : "" ∉ w.is) (orgHandle : String) :
    (deletingEnv D d).Ends (deleteAgentBody orgHandle) w fun _ u =>
      u.Reported → Deletes d w.session.orgId w u := by
  change (deletingEnv D d).Ends (configuredAgentId w.session.orgId >>= _) w _
  refine Environment.Ends.bind ((configuredAgentId_ends w.session.orgId).within.mono ?_)
  rintro (e | found) u hfound
  · obtain rfl : u = w := hfound
    exact fun h => absurd h hw
  obtain ⟨rfl, hrecorded⟩ := hfound
  cases found with
  | none => exact fun h => absurd h (not_reported_flash hw (by decide))
  | some agentId =>
    have hrecorded := hrecorded agentId rfl
    refine getAgentManagementToken_then fun token htoken => ?_
    split
    · refine callIs_deleteAgent (fun result alive halive => ?_) fun alive h => absurd h hw
      split
      · exact deleteAgentConfig_then fun _ db hdb _ => ⟨agentId, hrecorded, halive, hrecorded ▸ hdb⟩
      · exact deleteAgentConfig_then fun _ db hdb _ => ⟨agentId, hrecorded, halive, hrecorded ▸ hdb⟩
    · next hnotAsked =>
      refine deleteAgentConfig_then fun _ db hdb _ => ⟨agentId, hrecorded, fun i => ?_, hrecorded ▸ hdb⟩
      refine (and_iff_left_of_imp fun hi hd heq => ?_).symm
      refine hnotAsked ⟨htoken hd, fun hempty => hnamed ?_⟩
      rw [← hempty, ← heq]
      exact hi

/-! ### What the others make of a deletion

They make something of it, whatever they do: every run of the handlers is one for some deletions. -/

/-- A request that deletes nothing, and is for a token only if there are `tokens`. -/
def DeletesNothing (tokens : Prop) : PortalReq → Prop
  | .token _ => tokens
  | .is _ call => ∀ agentId, call ≠ .deleteAgent agentId
  | .api _ request => ∀ org, request ≠ .deleteAgentConfig org

/-- A request that deletes nothing goes with any deletions. -/
theorem follows_deletesNothing {tokens : Prop} (d : Deletions) (hd : tokens → d.is = false)
    {q : PortalReq} (hq : DeletesNothing tokens q) (u : PortalWorld (List String)) (r : PortalRep)
    (v : PortalWorld (List String)) : d.Follows q u r v := by
  cases q with
  | token grant =>
    cases grant with
    | agentManagement => exact fun h => absurd ((hd hq).symm.trans h) Bool.false_ne_true
    | _ => trivial
  | is auth call =>
    cases call with
    | deleteAgent agentId => exact absurd rfl (hq agentId)
    | _ => trivial
  | api token request =>
    cases request with
    | deleteAgentConfig org => exact absurd rfl (hq org)
    | _ => trivial

/-- So does a run of such requests. -/
theorem runs_deletesNothing {tokens : Prop} (d : Deletions) (hd : tokens → d.is = false)
    {p : Handling α} (hp : p.Only (fun _ => True) (DeletesNothing tokens)) {x : Except PortalExn α}
    {u : PortalWorld (List String)} (hr : (agentEnv D).Runs p w x u) : (deletingEnv D d).Runs p w x u :=
  hr.within hp fun _ u r v hq _ => follows_deletesNothing d hd hq u r v

/-- Every run is one for some deletions that satisfy `P`. -/
def Covered (D : Driver) (P : Deletions → Prop) (p : Handling α) : Prop :=
  ∀ w x u, (agentEnv D).Runs p w x u → ∃ d, P d ∧ (deletingEnv D d).Runs p w x u

section

variable {P P' : Deletions → Prop}

/-- Runs that are covered are covered by more deletions. -/
theorem Covered.mono {p : Handling α} (h : Covered D P p) (hP : ∀ d, P d → P' d) :
    Covered D P' p := by
  intro w x u hr
  obtain ⟨d, hd, hr⟩ := h w x u hr
  exact ⟨d, hP d hd, hr⟩

/-- A choice is covered if both branches are. -/
theorem covered_ite {c : Prop} [Decidable c] {p q : Handling α} (hp : c → Covered D P p)
    (hq : ¬c → Covered D P q) : Covered D P (if c then p else q) := by
  split
  · next h => exact hp h
  · next h => exact hq h

/-- What deletes nothing may come before what is covered. -/
theorem covered_bind {β : Type} {p : Handling β} {f : β → Handling α}
    (hp : p.Only (fun _ => True) (DeletesNothing False)) (hf : ∀ b, Covered D (fun _ => True) (f b)) :
    Covered D (fun _ => True) (p >>= f) := by
  intro w x u hr
  obtain ⟨b, v, h, hr⟩ | ⟨e, rfl, h⟩ := Environment.runs_bind.1 hr
  · obtain ⟨d, -, hr⟩ := hf b v x u hr
    exact ⟨d, trivial, Environment.runs_bind.2 (.inl ⟨b, v, runs_deletesNothing d False.elim hp h, hr⟩)⟩
  · have h := runs_deletesNothing ⟨false, false⟩ False.elim hp h
    exact ⟨_, trivial, Environment.runs_bind.2 (.inr ⟨e, rfl, h⟩)⟩

end

/-- The Business API deletes the configuration or leaves it, whatever IS does. -/
theorem covered_deleteAgentConfig {is : Bool} {org : String} {f : ApiResult → Handling α}
    (hf : ∀ result, (f result).Only (fun _ => True) (DeletesNothing False)) :
    Covered D (fun d => d.is = is) (deleteAgentConfig org >>= f) := by
  rintro w x u ⟨r, v, ha, hr⟩
  cases ha with
  | @api _ _ _ result db ha =>
    have hrecorded : recordedAgent db org = recordedAgent w.db org ∨ recordedAgent db org = none := by
      cases ha with
      | answered | lost => exact handle_deleteAgentConfig rfl
      | unavailable => exact .inl rfl
    have hr (d : Deletions) := runs_deletesNothing d False.elim (hf result) hr
    obtain h | h := hrecorded
    · exact ⟨⟨is, false⟩, rfl, _, _, ⟨.api ha, h⟩, hr _⟩
    · exact ⟨⟨is, true⟩, rfl, _, _, ⟨.api ha, h⟩, hr _⟩

/-- However IS answers, it has deleted the agent or left all of them. -/
theorem deleteAgent_answered {auth : IsAuth} {agentId : String} {alive alive' : List String}
    {r : Option IsResponse} (h : AgentAnswers auth (.deleteAgent agentId) alive r alive') :
    ∃ is : Bool, if is then agentId ∉ alive' else alive' = alive := by
  cases h with
  | deleted => exact ⟨true, by simp⟩
  | notFound _ hgone => exact ⟨true, hgone⟩
  | notDeleted => exact ⟨false, rfl⟩
  | other h => exact h.elim

/-- IS deletes the agent or leaves it, if it is asked with a token. -/
theorem covered_deleteAgent {auth : IsAuth} {token agentId : String} {f : IsResponse → Handling α}
    (htoken : token ≠ "") (hf : ∀ result is, Covered D (fun d => d.is = is) (f result)) :
    Covered D (fun d => d.is = true → token ≠ "") (callIs auth (.deleteAgent agentId) >>= f) := by
  rintro w x u ⟨r, v, ha, hr⟩
  cases ha with
  | @isFailed _ _ _ alive ha =>
    obtain ⟨is, his⟩ := deleteAgent_answered ha
    exact ⟨⟨is, false⟩, fun _ => htoken, _, _, ⟨.isFailed ha, his⟩, hr⟩
  | @is _ _ _ result alive ha =>
    obtain ⟨is, his⟩ := deleteAgent_answered ha
    obtain ⟨d, rfl, hr⟩ := hf result is _ x u hr
    exact ⟨d, fun _ => htoken, _, _, ⟨.is ha, his⟩, hr⟩

/-- Without a token IS deletes nothing. -/
theorem covered_getAgentManagementToken {f : String → Handling α}
    (hf : ∀ token, Covered D (fun d => d.is = true → token ≠ "") (f token)) :
    Covered D (fun _ => True) (getAgentManagementToken >>= f) := by
  rintro w x u ⟨r, v, ha, hr⟩
  cases ha with
  | token _ _ token =>
    obtain ⟨d, htoken, hr⟩ := hf token w x u hr
    exact ⟨d, trivial, _, _, ⟨.token _ _ token, fun hd heq => htoken hd (PortalRep.token.inj heq)⟩, hr⟩

/-- Every run of a deletion is one for some deletions. -/
theorem deleteAgentBody_covered (orgHandle : String) :
    Covered D (fun _ => True) (deleteAgentBody orgHandle) := by
  refine covered_bind (only_session trivial) fun user => ?_
  refine covered_bind (only_configuredAgentId trivial fun _ _ => nofun) fun found => ?_
  cases found with
  | none => exact covered_bind (only_flash trivial) fun _ w x u hr => ⟨⟨false, false⟩, trivial, hr⟩
  | some agentId =>
    have deleted (is : Bool) : Covered D (fun d => d.is = is)
        (deleteAgentConfig user.orgId >>= fun _ => do
          setHasAgentConfig false
          flash "success" "Agent removed."
          return Page.redirect "agents.list_agents" (some orgHandle)) :=
      covered_deleteAgentConfig fun _ => ⟨trivial, fun _ => ⟨trivial, fun _ => trivial⟩⟩
    refine covered_getAgentManagementToken fun token => covered_ite (fun hasked => ?_) fun _ => ?_
    · refine covered_deleteAgent hasked.1 fun result is => ?_
      split
      · exact fun w x u hr => deleted is _ x u hr
      · exact deleted is
    · refine (deleted false).mono fun d hd h => ?_
      rw [hd] at h
      cases h

/-- Every run of the deletion is one for some deletions. -/
theorem deleteAgent_covered (orgHandle : String) : Covered D (fun _ => True) (deleteAgent orgHandle) := by
  refine covered_bind (only_agentsGate trivial (fun _ _ _ => nofun) orgHandle) fun page => ?_
  cases page with
  | some page => exact fun w x u hr => ⟨⟨false, false⟩, trivial, hr⟩
  | none => exact deleteAgentBody_covered orgHandle

/-- An addition deletes nothing. -/
theorem only_addAgentBody (adminPassword : Bool) (orgHandle : String) (form : Form) :
    (addAgentBody adminPassword orgHandle form).Only (fun _ => True) (DeletesNothing True) := by
  refine .bind (only_session trivial) fun user => .bind only_item fun displayName => ?_
  refine .bind (only_requestToken trivial) fun agentToken => Program.only_ite (fun _ => ?_) fun _ => ?_
  · exact .bind (only_flash trivial) fun _ => trivial
  refine .bind (only_callIs nofun) fun result => Program.only_ite (fun _ => ?_) fun _ => ?_
  · exact .bind (only_flash trivial) fun _ => trivial
  refine .bind (only_agentCredentials _) fun credentials => ?_
  refine .bind (only_requestToken trivial) fun rootToken => ?_
  refine Program.only_when (fun _ => only_assignRolesToUser (fun _ _ => nofun) fun _ _ => nofun) ?_
  refine .bind (only_apiRequest trivial fun _ => nofun) fun saveResult => ?_
  refine Program.only_ite (fun _ => ?_) fun _ => .bind (only_flash trivial) fun _ => trivial
  exact .bind (only_flash trivial) fun _ => ⟨trivial, fun _ => trivial⟩

/-- Every run of an addition is one for some deletions, as it makes none. -/
theorem addAgent_covered (adminPassword : Bool) (orgHandle : String) (form : Form) :
    Covered D (fun _ => True) (addAgent adminPassword orgHandle form) := by
  intro w x u hr
  have hgate := only_agentsGate (Q := DeletesNothing True) (P := fun _ => True) trivial
    (fun _ _ _ => nofun) orgHandle
  refine ⟨⟨false, false⟩, trivial, runs_deletesNothing _ (fun _ => rfl) (hgate.bind fun page => ?_) hr⟩
  cases page with
  | some page => trivial
  | none => exact only_addAgentBody adminPassword orgHandle form

/-- The gate leaves everything to the handler behind it. -/
theorem behindGate_ends {X : Environment portal (PortalWorld (List String))} {orgHandle : String}
    {handler : Handling Page} {P : PortalWorld (List String) → Prop}
    (hgate : X.Ends (agentsGate orgHandle) w fun _ u => u = w) (hw : ¬w.Reported)
    (h : X.Ends handler w fun _ u => u.Reported → P u) :
    X.Ends (behind (agentsGate orgHandle) handler) w fun _ u => u.Reported → P u := by
  refine hgate.keeping ?_ ?_
  · rintro page _ rfl
    cases page with
    | some page => exact fun hreported => absurd hreported hw
    | none => exact h
  · rintro _ _ rfl hreported
    exact absurd hreported hw

/-- `add_agent` that reports success has created an agent and saved its configuration. -/
theorem addAgent_saves (hw : ¬w.Reported) (adminPassword : Bool) (orgHandle : String)
    (form : Form) :
    (agentEnv D).Ends (addAgent adminPassword orgHandle form) w fun _ u =>
      u.Reported → Saves D w u :=
  behindGate_ends (ends_same (leaves_agentsGate orgHandle)) hw
    (addAgentBody_saves hw adminPassword orgHandle form)

/-- IS gives no agent the empty id. -/
theorem named_kept {auth : IsAuth} {call : IsCall} {alive alive' : List String}
    {r : Option IsResponse} (halive : "" ∉ alive) (h : AgentAnswers auth call alive r alive') :
    "" ∉ alive' := by
  cases h with
  | created _ hid | createLost _ hid =>
    exact List.not_mem_cons_of_ne_of_not_mem hid.symm halive
  | deleted => exact fun h => halive (List.mem_of_mem_filter h)
  | _ => exact halive

/-- Every agent that is alive has an id. -/
theorem ends_named {p : Handling α} (hw : "" ∉ w.is) :
    (agentEnv D).Ends p w fun _ u => "" ∉ u.is := by
  refine Environment.Ends.always (J := fun u : PortalWorld (List String) => "" ∉ u.is) hw ?_ ?_
  · intro o u hu
    cases o <;> exact hu
  · intro q u r t hu ha
    cases ha with
    | token | api => exact hu
    | isFailed h => exact named_kept hu h
    | is h => exact named_kept hu h

end

/-! ## Runs -/

/-- A request of an organization for its agent. -/
inductive AgentRequest
  | add (orgHandle : String) (form : Form)
  | delete (orgHandle : String)

/-- The handler of a request. -/
def AgentRequest.handler (adminPassword : Bool) : AgentRequest → Handling Page
  | .add orgHandle form => addAgent adminPassword orgHandle form
  | .delete orgHandle => deleteAgent orgHandle

/-- The agents of an organization that are alive, and the database of the Business API. -/
structure AgentStores where
  db : Database
  alive : List String

/-- The agents that are alive are those that are recorded. -/
def AgentStores.Aligned (org : String) (s : AgentStores) : Prop :=
  ∀ id, id ∈ s.alive ↔ recordedAgent s.db org = some id

/-- A request with what was before and is after it, and what the others make of deletions. -/
structure AgentStep where
  request : AgentRequest
  deletions : Deletions
  before : AgentStores
  after : AgentStores

/-- The request, from a session of the organization, makes of the stores what it says, and ends in
`u`. -/
structure AgentStep.Serves (adminPassword : Bool) (D : Driver) (org : String) (step : AgentStep)
    (u : PortalWorld (List String)) : Prop where
  after : step.after = ⟨u.db, u.is⟩
  runs : ∃ session x, session.orgId = org ∧
    (deletingEnv D step.deletions).Runs (step.request.handler adminPassword)
      ⟨session, [], step.before.db, step.before.alive⟩ x u

/-- The steps of a sequence of requests of an organization that starts without an agent, as far as
they report success, and what is after them. In between, others leave its configuration. -/
inductive AgentRun (adminPassword : Bool) (D : Driver) (org : String) :
    List AgentStep → AgentStores → Prop
  | start {db : Database} : recordedAgent db org = none →
      AgentRun adminPassword D org [] ⟨db, []⟩
  | others {steps : List AgentStep} {s : AgentStores} {db : Database} :
      AgentRun adminPassword D org steps s → recordedAgent db org = recordedAgent s.db org →
      AgentRun adminPassword D org steps ⟨db, s.alive⟩
  | unreported {steps : List AgentStep} {step : AgentStep} {u : PortalWorld (List String)} :
      AgentRun adminPassword D org steps step.before → step.Serves adminPassword D org u →
      ¬u.Reported → AgentRun adminPassword D org steps step.after
  | reported {steps : List AgentStep} {step : AgentStep} {u : PortalWorld (List String)} :
      AgentRun adminPassword D org steps step.before → step.Serves adminPassword D org u →
      u.Reported → AgentRun adminPassword D org (steps ++ [step]) step.after

/-- No agent is alive before an addition. Before a deletion no agent but the recorded one is, and
IS, unless it has forgotten the agent already, deletes it exactly if the Business API does. -/
def AgentStep.Alone (org : String) (step : AgentStep) : Prop :=
  match step.request with
  | .add _ _ => step.before.alive = []
  | .delete _ => ∃ a, recordedAgent step.before.db org = some a ∧
      (∀ i ∈ step.before.alive, i = a) ∧
      ((step.deletions.is = true ∨ a ∉ step.before.alive) ↔ step.deletions.api = true)

section

variable {adminPassword : Bool} {D : Driver} {org : String} {step : AgentStep}

/-- In a run no agent has the empty id. -/
theorem AgentRun.named {steps : List AgentStep} {s : AgentStores}
    (h : AgentRun adminPassword D org steps s) : "" ∉ s.alive := by
  induction h with
  | start => exact List.not_mem_nil
  | others _ _ ih => exact ih
  | unreported _ hserves _ ih | reported _ hserves _ ih =>
    obtain ⟨hafter, _, _, -, hr⟩ := hserves
    rw [hafter]
    have hnamed := (ends_named (D := D) ih).within.of_runs hr
    exact hnamed

/-- After an addition that reports success the stores are aligned if no agent was alive. -/
theorem add_aligned {before after : AgentStores} {id : String} (hfresh : id ∉ before.alive)
    (halive : after.alive = id :: before.alive) (hrecorded : recordedAgent after.db org = some id) :
    after.Aligned org ↔ before.alive = [] := by
  unfold AgentStores.Aligned
  rw [halive, hrecorded]
  constructor
  · intro h
    refine List.eq_nil_iff_forall_not_mem.2 fun i hi => ?_
    have heq : some id = some i := (h i).1 (List.mem_cons_of_mem _ hi)
    cases heq
    exact hfresh hi
  · intro h i
    rw [h]
    simp [eq_comm]

/-- After a deletion that reports success the stores are aligned if no other agent was alive, and
both or none of the others have deleted the agent. -/
theorem delete_aligned {d : Deletions} {before after : AgentStores} {a : String}
    (halive : ∀ i, i ∈ after.alive ↔ i ∈ before.alive ∧ (d.is = true → i ≠ a))
    (hrecorded : recordedAgent after.db org = if d.api then none else some a) :
    after.Aligned org ↔ (∀ i ∈ before.alive, i = a) ∧
      ((d.is = true ∨ a ∉ before.alive) ↔ d.api = true) := by
  unfold AgentStores.Aligned
  have hrecorded (i : String) : recordedAgent after.db org = some i ↔ ¬d.api = true ∧ a = i := by
    rw [hrecorded]
    split
    · next h => simp [h]
    · next h => simp [h]
  have hself : (a ∈ after.alive ↔ recordedAgent after.db org = some a) ↔
      ((d.is = true ∨ a ∉ before.alive) ↔ d.api = true) := by
    rw [halive, hrecorded]
    tauto
  have hother (i : String) (hi : i ≠ a) :
      (i ∈ after.alive ↔ recordedAgent after.db org = some i) ↔ i ∉ before.alive := by
    rw [halive, hrecorded]
    have hne : a ≠ i := hi.symm
    tauto
  constructor
  · intro h
    exact ⟨fun i hi => by_contra fun hne => (hother i hne).1 (h i) hi, hself.1 (h a)⟩
  · rintro ⟨honly, hboth⟩ i
    by_cases hi : i = a
    · subst hi
      exact hself.2 hboth
    · exact (hother i hi).2 fun hmem => hi (honly i hmem)

/-- A request that reports success ends with the agents aligned exactly if the agent is alone. -/
theorem step_aligned {u : PortalWorld (List String)} (h : step.Serves adminPassword D org u)
    (hreported : u.Reported) (hnamed : "" ∉ step.before.alive) :
    step.after.Aligned org ↔ step.Alone org := by
  obtain ⟨request, d, before, after⟩ := step
  obtain ⟨rfl, session, x, rfl, hr⟩ := h
  have hquiet : ¬PortalWorld.Reported ⟨session, [], before.db, before.alive⟩ := not_reported_nil rfl
  cases request with
  | add orgHandle form =>
    have hadds := (behindGate_ends (ends_same (leaves_agentsGate orgHandle)).within hquiet
      (addAgentBody_ends hquiet adminPassword orgHandle form).within).of_runs hr hreported
    obtain ⟨id, hfresh, halive, hrecorded⟩ := hadds
    exact add_aligned hfresh halive hrecorded
  | delete orgHandle =>
    have hdeletes := (behindGate_ends (ends_same (leaves_agentsGate orgHandle)).within hquiet
      (deleteAgentBody_ends hquiet hnamed orgHandle)).of_runs hr hreported
    obtain ⟨a, ha, halive, hrecorded⟩ := hdeletes
    rw [delete_aligned halive hrecorded]
    constructor
    · exact fun h => ⟨a, ha, h⟩
    · rintro ⟨b, hb, h⟩
      cases ha.symm.trans hb
      exact h

/-- In every run, whatever IS and the Business API answer, the agents that are alive are those that
are recorded after every request that reports success, exactly if no other agent is alive whenever
one is added or deleted, and IS and the Business API agree about every deletion. -/
theorem no_orphan_agents {steps : List AgentStep} {s : AgentStores}
    (hrun : AgentRun adminPassword D org steps s) :
    (∀ step ∈ steps, step.after.Aligned org) ↔ ∀ step ∈ steps, step.Alone org := by
  induction hrun with
  | start => exact iff_of_true (List.forall_mem_nil _) (List.forall_mem_nil _)
  | others _ _ ih => exact ih
  | unreported _ _ _ ih => exact ih
  | reported hrun hserves hreported ih =>
    rw [List.forall_mem_append, List.forall_mem_append, ih, List.forall_mem_singleton,
      List.forall_mem_singleton, step_aligned hserves hreported hrun.named]

end

/-! ## Two agents -/

/-- An id for a new agent. -/
def nextAgentId (alive : List String) : Option String := ["a", "b"].find? fun id => decide (id ∉ alive)

/-- The verified claims of an administrator of an organization. -/
def adminClaims (org : String) : Dict :=
  [("sub", .str "u"), ("user_org", .str org), ("scope", .str "view_agent_config manage_agent_config")]

/-- What the Business API makes of a request of an administrator. -/
def administer (org : String) (request : Api.Request) (db : Database) : Response × Database :=
  handle .sqlite ⟨.ok (some (adminClaims org)), none, request, ⟨"k", 0, 0⟩⟩ db

/-- An administrator's deletion leaves no agent recorded. -/
theorem administer_deleteAgentConfig (org : String) (db : Database) :
    recordedAgent (administer org (.deleteAgentConfig org) db).2 org = none := by
  have hequals : Driver.sqlite.equals (.str org) = .ok fun column => decide (some org = some column) := rfl
  have hscope : depends (requireScope "manage_agent_config"
      (userOf (.ok (some (adminClaims org))))) =
        .ok ⟨.str "u", .str org, .str "", ["view_agent_config", "manage_agent_config"], .arr [],
          .str "", .str "APPLICATION_USER"⟩ := rfl
  change recordedAgent ((Api.deleteAgentConfig .sqlite
    (userOf (.ok (some (adminClaims org)))) org).outcome db).2 org = none
  unfold Api.deleteAgentConfig checkOrg deleteOfOrg
  rw [hscope, Transaction.outcome_ok_bind, if_neg (not_not.2 rfl), hequals]
  exact recordedAgent_deleteWhere hequals

/-- IS is asked to delete an agent, and does so or not. -/
def askedToDelete (agentId : String) (w : PortalWorld (List String)) :
    Bool → PortalRep × PortalWorld (List String)
  | true => (.is ⟨204, .other⟩, { w with is := w.is.filter (· ≠ agentId) })
  | false => (.is ⟨500, .other⟩, w)

/-- The Business API is asked by an administrator to delete a configuration, and does so or is
down. -/
def askedToForget (org : String) (w : PortalWorld (List String)) :
    Bool → PortalRep × PortalWorld (List String)
  | true =>
    let answer := administer org (.deleteAgentConfig org) w.db
    (.api ⟨answer.1.statusCode, answer.1.body⟩, { w with db := answer.2 })
  | false => (.api offline, w)

/-- IS creates two agents; the Business API is up for an administrator of `o`. Both delete what `d`
says. -/
def agentsUp (d : Deletions) : PortalReq → PortalWorld (List String) →
    PortalRep × PortalWorld (List String)
  | .token _, w => (.token "t", w)
  | .is _ (.createAgent _ _ _), w =>
    match nextAgentId w.is with
    | some id => (.is ⟨201, .agent (some id) (some "s")⟩, { w with is := id :: w.is })
    | none => (.is ⟨500, .other⟩, w)
  | .is _ (.deleteAgent agentId), w => askedToDelete agentId w d.is
  | .is _ (.findRoles _ _), w => (.is ⟨200, .roles [⟨"r", none⟩]⟩, w)
  | .is _ _, w => (.is ⟨200, .other⟩, w)
  | .api _ (.deleteAgentConfig org), w => askedToForget org w d.api
  | .api _ request, w =>
    let answer := administer "o" request w.db
    (.api ⟨answer.1.statusCode, answer.1.body⟩, { w with db := answer.2 })

/-- They answer as IS and the Business API may. -/
theorem answers_agentsUp (d : Deletions) (q : PortalReq) (w : PortalWorld (List String)) :
    (deletingEnv .sqlite d).answers q w (agentsUp d q w).1 (agentsUp d q w).2 := by
  obtain ⟨is, api⟩ := d
  cases q with
  | token grant =>
    have hfollows : Deletions.Follows ⟨is, api⟩ (.token grant) w (.token "t") w := by
      cases grant with
      | agentManagement =>
        intro _ h
        exact absurd (PortalRep.token.inj h) (by decide)
      | _ => trivial
    exact ⟨.token grant w "t", hfollows⟩
  | is auth call =>
    cases call with
    | createAgent displayName description owner =>
      refine ⟨?_, trivial⟩
      unfold agentsUp
      dsimp only
      split
      · next id hid =>
        have hmem := List.mem_of_find?_eq_some hid
        have hfresh := List.find?_some hid
        exact .is (.created (by decide) (by rintro rfl; exact absurd hmem (by decide))
          (of_decide_eq_true hfresh))
      · exact .is (.notCreated (by rintro _ ⟨⟩; decide))
    | deleteAgent agentId =>
      cases is with
      | true =>
        have hgone : agentId ∉ w.is.filter (· ≠ agentId) := by simp
        exact ⟨.is (.deleted (by rintro _ ⟨⟩; decide)), hgone⟩
      | false => exact ⟨.is (.notDeleted (by rintro _ ⟨⟩; decide)), rfl⟩
    | _ => exact ⟨.is (.other trivial), trivial⟩
  | api token request =>
    cases request with
    | deleteAgentConfig org =>
      cases api with
      | true => exact ⟨.api (.answered _ _), administer_deleteAgentConfig org w.db⟩
      | false => exact ⟨.api (.unavailable _ (by decide)), rfl⟩
    | _ => exact ⟨.api (.answered _ _), trivial⟩

/-- The form of a new agent. -/
def agentForm : Form := [("display_name", "Helper")]

/-- What is after a request of an administrator. -/
def afterServing (d : Deletions) (request : AgentRequest) (s : AgentStores) :
    PortalWorld (List String) :=
  ((request.handler false).run PortalWorld.exec (agentsUp d)
    ⟨idpManagerSession, [], s.db, s.alive⟩).2

/-- A request of an administrator. -/
def servedStep (d : Deletions) (request : AgentRequest) (s : AgentStores) : AgentStep where
  request := request
  deletions := d
  before := s
  after := ⟨(afterServing d request s).db, (afterServing d request s).is⟩

/-- Such a request is a step of a run. -/
theorem serves_servedStep (d : Deletions) (request : AgentRequest) (s : AgentStores) :
    (servedStep d request s).Serves false .sqlite "o" (afterServing d request s) where
  after := rfl
  runs := ⟨idpManagerSession, _, rfl, Environment.runs_run (answers_agentsUp d)
    (request.handler false) ⟨idpManagerSession, [], s.db, s.alive⟩⟩

/-- The addition of an agent. -/
def additionTo (s : AgentStores) : AgentStep := servedStep ⟨false, false⟩ (.add "acme" agentForm) s

/-- The deletion of the agent, from IS and the Business API. -/
def deletionFrom (s : AgentStores) : AgentStep := servedStep ⟨true, true⟩ (.delete "acme") s

/-- The organization without an agent. -/
def noAgent : AgentStores := ⟨enterprisePlan, []⟩

/-- A success message is looked for among the messages. -/
theorem reported_of_any {w : PortalWorld (List String)}
    (h : w.flashes.any (fun f => f.type = "success") = true) : w.Reported := by
  obtain ⟨f, hf, htype⟩ := List.any_eq_true.1 h
  exact ⟨f, hf, of_decide_eq_true htype⟩

/-- One addition is a run. -/
theorem agentRun_one :
    AgentRun false .sqlite "o" [additionTo noAgent] (additionTo noAgent).after :=
  .reported (.start (by decide)) (serves_servedStep _ _ _) (reported_of_any (by decide +kernel))

/-- The deletion of the agent that was added. -/
def agentDeletion : AgentStep := deletionFrom (additionTo noAgent).after

/-- The addition of another agent in its place. -/
def replacement : AgentStep := additionTo agentDeletion.after

/-- So is an addition, a deletion and another addition. -/
theorem agentRun_replacement :
    AgentRun false .sqlite "o" [additionTo noAgent, agentDeletion, replacement]
      replacement.after := by
  have hdeleted :
      AgentRun false .sqlite "o" [additionTo noAgent, agentDeletion] agentDeletion.after :=
    .reported agentRun_one (serves_servedStep _ _ _) (reported_of_any (by decide +kernel))
  exact .reported hdeleted (serves_servedStep ⟨false, false⟩ (.add "acme" agentForm) _)
    (reported_of_any (by decide +kernel))

/-- While one agent replaces another, the one alive is the one recorded. -/
theorem no_orphan_agents_one :
    (additionTo noAgent).after.Aligned "o" ∧ agentDeletion.after.Aligned "o" ∧
      replacement.after.Aligned "o" := by
  have hadded : (additionTo noAgent).after.alive = ["a"] := by decide +kernel
  have hrecorded : recordedAgent (additionTo noAgent).after.db "o" = some "a" := by decide +kernel
  have hdeleted : agentDeletion.after.alive = [] := by decide +kernel
  have haligned := (no_orphan_agents agentRun_replacement).2 (by
    simp only [List.forall_mem_cons]
    refine ⟨rfl, ⟨"a", hrecorded, fun i hi => ?_, iff_of_true (.inl rfl) rfl⟩, hdeleted,
      List.forall_mem_nil _⟩
    exact List.mem_singleton.1 (hadded ▸ hi))
  simp only [List.forall_mem_cons] at haligned
  obtain ⟨hone, htwo, hthree, -⟩ := haligned
  exact ⟨hone, htwo, hthree⟩

/-- The second addition. -/
def secondAddition : AgentStep := additionTo (additionTo noAgent).after

/-- So are two additions. -/
theorem agentRun_two :
    AgentRun false .sqlite "o" [additionTo noAgent, secondAddition] secondAddition.after :=
  .reported agentRun_one (serves_servedStep _ _ _) (reported_of_any (by decide +kernel))

/-- After the second addition the first agent is alive, behind a success message, and not
recorded. -/
theorem second_agent_orphans_first :
    AgentRun false .sqlite "o" [additionTo noAgent, secondAddition] secondAddition.after ∧
      "a" ∈ secondAddition.after.alive ∧ recordedAgent secondAddition.after.db "o" = some "b" ∧
      ¬secondAddition.after.Aligned "o" := by
  have halive : "a" ∈ secondAddition.after.alive := by decide +kernel
  have hrecorded : recordedAgent secondAddition.after.db "o" = some "b" := by decide +kernel
  refine ⟨agentRun_two, halive, hrecorded, fun h => ?_⟩
  have heq := hrecorded.symm.trans ((h "a").1 halive)
  exact absurd heq (by decide)

end Teamspace.Webapp
