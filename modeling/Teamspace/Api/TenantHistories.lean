import Teamspace.Lib.Tenancy
import Teamspace.Api.Attribution
import Teamspace.Api.Isolation

/-!
# Histories of the Business API, one organization at a time

Every request concerns one organization at most: that of its user, or the one in the path where the
handler asks for no user. The Business API is thereby partitioned (`businessApi_partitioned`): over
any history of requests, whatever the other organizations send, each organization is served as by a
Business API of its own.
-/

namespace Teamspace.Api

open Teamspace.Py Teamspace.Common Teamspace.Lib

/-- The organization of the user of a call, if it has one. -/
def Call.userOrg (c : Call) : Option String :=
  match c.user with
  | .ok (some user) => (match user.org with
    | .str o => some o
    | _ => none)
  | _ => none

/-- The organization that a call concerns: a service and the reader of a plan name it in the
path. -/
def Call.tenant (c : Call) : Option String :=
  match c.request, c.service with
  | .getPlan orgId, _ => some orgId
  | .getAgentConfig orgId, some _ => some orgId
  | _, _ => c.userOrg

/-- The id that a call draws for a meeting. -/
def Call.drawnId (c : Call) : Option String :=
  match c.request with
  | .createMeeting _ => some c.fresh.id
  | _ => none

/-- The organizations of users are texts, and the ids that are drawn for meetings are new. -/
structure Ordered (calls : List Call) (db : Database) : Prop where
  org : ∀ c ∈ calls, ∀ user, c.user = .ok (some user) → ∃ o, user.org = .str o
  distinct : (calls.filterMap Call.drawnId).Nodup
  unused : ∀ id ∈ calls.filterMap Call.drawnId, db.Unused id

/-- The Business API. -/
def businessApi (D : Driver) : Tenancy String Call Response Database OrgRows where
  step := handle D
  view := Database.rowsOf
  owner := Call.tenant

section

variable {D : Driver} {o : String} {P : Database → Prop}

/-- The answer and what is left of `o` follow from the rows of `o`, and the other rows stay. -/
structure Within (D : Driver) (c : Call) (o : String) (P : Database → Prop) : Prop where
  agree : ∀ {db db'}, P db → P db' → db.rowsOf o = db'.rowsOf o →
    (handle D c db).1 = (handle D c db').1 ∧
      (handle D c db).2.rowsOf o = (handle D c db').2.rowsOf o
  frame : ∀ {db}, P db → ∀ o' ≠ o, (handle D c db).2.rowsOf o' = db.rowsOf o'

/-- A call that a confined handler answers is within the organization. -/
theorem Within.of_confined {c : Call} {α : Type} {statusCode : Nat}
    {render : α → Except ApiExn Body} {handler : Handler α}
    (hc : handle D c = respond statusCode render handler) (h : ConfinedTo o P handler) :
    Within D c o P := by
  refine ⟨fun {db db'} hdb hdb' hrows => ?_, fun {db} hdb => ?_⟩
  · rw [hc]
    exact (respond_confined h hdb hdb' hrows).imp_right fun hrest => hrest.1
  · rw [hc]
    exact (respond_confined h hdb hdb rfl).2.2

/-- A handler that runs for a user is confined if it is for each. -/
theorem confined_of_user {α : Type} {user : Except AuthExn (Option UserInfo)}
    {H : Except AuthExn (Option UserInfo) → Handler α}
    (hnone : (∀ u, user ≠ .ok (some u)) → ConfinedTo o P (H user))
    (hsome : ∀ u, user = .ok (some u) → ConfinedTo o P (H (.ok (some u)))) :
    ConfinedTo o P (H user) := by
  by_cases hu : ∃ u, user = .ok (some u)
  · obtain ⟨u, rfl⟩ := hu
    exact hsome u rfl
  · exact hnone fun u he => hu ⟨u, he⟩

/-- A handler that asks for a scope. -/
theorem scoped_confined {α : Type} {scope : String} {user : Except AuthExn (Option UserInfo)}
    {H : Except AuthExn (Option UserInfo) → Handler α} {k : UserInfo → Handler α}
    (hH : H user = liftM (depends (requireScope scope user)) >>= k)
    (h : ∀ u, user = .ok (some u) → ConfinedTo o P (H (.ok (some u)))) :
    ConfinedTo o P (H user) := by
  refine confined_of_user (fun hu => ?_) h
  rw [hH]
  exact .check fun u hu' => absurd (requireScope_ok hu').1 (hu u)

/-- A read of an agent configuration for a service is confined to the organization in the path. -/
theorem getAgentConfig_service_confined {user : Except AuthExn (Option UserInfo)}
    {claims : Except AuthExn Dict} (orgId : String) :
    ConfinedTo orgId P (getAgentConfig D user orgId (some claims)) :=
  .check fun _ _ => .check fun _ _ => ofOrg_confined orgId _ rfl

/-- What a dependency gives was given. -/
theorem depends_ok {α : Type} {e : Except AuthExn α} {a : α} (h : depends e = .ok a) :
    e = .ok a := by
  cases e with
  | error e => cases h
  | ok b =>
    cases h
    rfl

/-- The organization of the user is the text of the claim. -/
theorem Call.userOrg_eq {c : Call} {user : UserInfo} (h : c.user = .ok (some user))
    (horg : user.org = .str o) : c.userOrg = some o := by
  unfold Call.userOrg
  rw [h]
  dsimp only
  rw [horg]

/-- A call is handled within the organization that it concerns. -/
theorem Call.within {c : Call} (horg : ∀ user, c.user = .ok (some user) → ∃ o, user.org = .str o)
    (h : ∀ o', c.tenant = some o' → o' = o) :
    Within D c o fun db => ∀ id, c.drawnId = some id → db.Unused id := by
  obtain ⟨claims, service, request, fresh⟩ := c
  have own (htenant : Call.tenant ⟨claims, service, request, fresh⟩ =
      Call.userOrg ⟨claims, service, request, fresh⟩) (u : UserInfo)
      (hu : userOf claims = .ok (some u)) : u.org = .str o := by
    obtain ⟨o', ho'⟩ := horg u hu
    rw [ho', h o' (htenant.trans (Call.userOrg_eq hu ho'))]
  cases request with
  | listMeetings =>
    exact .of_confined rfl (scoped_confined (H := listMeetings D) rfl fun u hu =>
      listMeetings_confined (own rfl u hu))
  | createMeeting data =>
    exact .of_confined rfl (scoped_confined (H := fun user => createMeeting D user fresh data) rfl
      fun u hu => createMeeting_confined (own rfl u hu) fun db hdb => hdb _ rfl)
  | getMeeting meetingId =>
    exact .of_confined rfl (scoped_confined (H := fun user => getMeeting D user meetingId) rfl
      fun u hu => getMeeting_confined (own rfl u hu))
  | updateMeeting meetingId data =>
    exact .of_confined rfl (scoped_confined
      (H := fun user => updateMeeting D user fresh meetingId data) rfl
      fun u hu => updateMeeting_confined (own rfl u hu))
  | deleteMeeting meetingId =>
    exact .of_confined rfl (scoped_confined (H := fun user => deleteMeeting D user meetingId) rfl
      fun u hu => deleteMeeting_confined (own rfl u hu))
  | getPersonalization orgId =>
    refine .of_confined rfl (confined_of_user (H := fun user => getPersonalization D user orgId)
      (fun hnone => ?_) fun u hu => getPersonalization_confined (own rfl u hu))
    exact .check fun u hu => absurd (requireCurrentUser_ok hu) (hnone u)
  | upsertPersonalization data =>
    exact .of_confined rfl (scoped_confined
      (H := fun user => upsertPersonalization D user fresh data) rfl
      fun u hu => upsertPersonalization_confined (own rfl u hu))
  | deletePersonalizationByOrg orgId =>
    exact .of_confined rfl (scoped_confined
      (H := fun user => deletePersonalizationByOrg D user orgId) rfl
      fun u hu => deletePersonalizationByOrg_confined (own rfl u hu))
  | getAgentConfig orgId =>
    cases service with
    | some claims' =>
      cases h orgId rfl
      exact .of_confined rfl (getAgentConfig_service_confined o)
    | none =>
      refine .of_confined rfl (confined_of_user (H := fun user => getAgentConfig D user orgId none)
        (fun hnone => ?_) fun u hu => getAgentConfig_confined (own rfl u hu))
      refine .check fun user hu => ?_
      cases user with
      | none => exact .check fun _ hacc => by cases hacc
      | some u => exact absurd (depends_ok hu) (hnone u)
  | createAgentConfig data =>
    exact .of_confined rfl (scoped_confined (H := fun user => createAgentConfig D user fresh data)
      rfl fun u hu => createAgentConfig_confined (own rfl u hu))
  | deleteAgentConfig orgId =>
    exact .of_confined rfl (scoped_confined (H := fun user => deleteAgentConfig D user orgId) rfl
      fun u hu => deleteAgentConfig_confined (own rfl u hu))
  | getPlan orgId =>
    cases h orgId rfl
    exact .of_confined rfl (ofOrg_confined o _ rfl)
  | upsertPlan data =>
    refine .of_confined rfl (confined_of_user (H := fun user => upsertPlan D user fresh data)
      (fun hnone => ?_) fun u hu => upsertPlan_confined (own rfl u hu))
    refine .check fun _ _ => .check fun _ _ => .check fun u hu => ?_
    exact absurd (currentUser_ok hu) (hnone u)

end

/-! ## The ids of meetings -/

section

variable {D : Driver}

/-- A meeting that a call leaves has an id that was there, or the one that the call draws. -/
theorem handle_ids {c : Call} {db : Database} {m : Meeting}
    (hm : m ∈ (handle D c db).2.meetings.rows) :
    m.id ∈ db.meetings.rows.map Meeting.id ∨ c.drawnId = some m.id := by
  have kept {x : Meeting} (hx : x ∈ db.meetings.rows) : x.id ∈ db.meetings.rows.map Meeting.id :=
    List.mem_map_of_mem hx
  have hstep := meetingStep D db c
  generalize (handle D c db).2 = after at hm hstep
  cases hstep with
  | unchanged h _ =>
    rw [h] at hm
    exact .inl (kept hm)
  | created hreq _ _ hcreate hins _ =>
    change m ∈ Table.rows _ at hm
    rw [(Table.rows_of_insert hins).2, List.mem_append, List.mem_singleton] at hm
    rcases hm with hm | rfl
    · exact .inl (kept hm)
    · right
      unfold Call.drawnId
      rw [hreq, (Meeting.create_eq hcreate).1]
  | updated _ _ _ _ hin hset _ =>
    rcases Table.mem_update hm with rfl | ⟨hm, -⟩
    · have hid : m.id = _ := congrArg (·.1) (Meeting.setattr_eq hset).1
      exact .inl (hid ▸ kept hin)
    · exact .inl (kept hm)
  | deleted => exact .inl (kept (Table.mem_deleteWhere.1 hm).1)

/-- After a call the others are ordered. -/
theorem Ordered.next {c : Call} {calls : List Call} {db : Database} (h : Ordered (c :: calls) db) :
    Ordered calls (handle D c db).2 := by
  have hsub := (List.sublist_cons_self c calls).filterMap Call.drawnId
  refine ⟨fun c' hc' => h.org c' (.tail _ hc'), h.distinct.sublist hsub, fun id hid m hm he => ?_⟩
  rcases handle_ids hm with hold | hdrawn
  · obtain ⟨m', hm', hid'⟩ := List.mem_map.1 hold
    exact h.unused id (hsub.subset hid) m' hm' (hid'.trans he)
  · -- the id was drawn by `c`
    have hdistinct := h.distinct
    rw [List.filterMap_cons, hdrawn] at hdistinct
    exact (List.nodup_cons.1 hdistinct).1 (he ▸ hid)

/-- The id that a call draws is new. -/
theorem Ordered.head {c : Call} {calls : List Call} {db : Database} (h : Ordered (c :: calls) db) :
    ∀ id, c.drawnId = some id → db.Unused id := fun id hid =>
  h.unused id (List.mem_filterMap.2 ⟨c, .head _, hid⟩)

end

/-- Organizations meet nowhere in the Business API. -/
theorem businessApi_partitioned (D : Driver) : (businessApi D).Partitioned Ordered where
  agree {c calls calls' db db' o} h h' ho hrows := by
    have hin := Call.within (D := D) (h.org c (.head _)) fun o' ho' =>
      Option.some.inj (ho'.symm.trans ho)
    exact hin.agree h.head h'.head hrows
  frame {c calls db o} h ho := by
    cases htenant : c.tenant with
    | some o' =>
      have hin := Call.within (D := D) (o := o') (h.org c (.head _)) fun o'' ho'' =>
        Option.some.inj (ho''.symm.trans htenant)
      exact hin.frame h.head o fun he => ho (he ▸ htenant)
    | none =>
      -- a call that concerns nobody is confined to whomever else
      have hin := Call.within (D := D) (o := o ++ "x") (h.org c (.head _)) fun o'' ho'' => by
        cases htenant.symm.trans ho''
      exact hin.frame h.head o fun he => by simpa using congrArg String.length he
  next h := h.next

/-- Over any history of requests, each organization is answered, and left, as by a Business API that
serves nobody else, of which only the rows of the organization matter at the start. -/
theorem tenant_histories (D : Driver) {o : String} {calls : List Call} {db db' : Database}
    (h : Ordered calls db) (h' : Ordered (calls.filter ((businessApi D).isOf o)) db')
    (hrows : db.rowsOf o = db'.rowsOf o) :
    ((businessApi D).answers calls db).filter (fun x => (businessApi D).isOf o x.1) =
        (businessApi D).answers (calls.filter ((businessApi D).isOf o)) db' ∧
      ((businessApi D).after calls db).rowsOf o =
        ((businessApi D).after (calls.filter ((businessApi D).isOf o)) db').rowsOf o :=
  (businessApi_partitioned D).own_history h h' hrows

/-- The deletion of a meeting by a user of another organization. -/
def neighbourDeletion : Call where
  claims := .ok (some [("sub", .str "v"), ("org_id", .str "b"), ("scope", .str "delete_meeting")])
  service := none
  request := .deleteMeeting "n"
  fresh := ⟨"l", 0, 0⟩

/-- The calls of the example are ordered. -/
theorem ordered_examples {calls : List Call} {db : Database}
    (hcalls : ∀ c ∈ calls, c = neighbourDeletion ∨ c = exampleDeletion) : Ordered calls db := by
  have hdeletion : exampleDeletion.user = .ok (some ⟨.str "u", .str "a", .str "",
      ["delete_meeting"], .arr [], .str "", .str "APPLICATION_USER"⟩) := by decide +kernel
  have hneighbour : neighbourDeletion.user = .ok (some ⟨.str "v", .str "b", .str "",
      ["delete_meeting"], .arr [], .str "", .str "APPLICATION_USER"⟩) := by decide +kernel
  have hdrawn : calls.filterMap Call.drawnId = [] := List.filterMap_eq_nil_iff.2 fun c hc => by
    rcases hcalls c hc with rfl | rfl <;> rfl
  refine ⟨fun c hc user hu => ?_, by simp [hdrawn], by simp [hdrawn]⟩
  rcases hcalls c hc with rfl | rfl
  · cases hneighbour.symm.trans hu
    exact ⟨"b", rfl⟩
  · cases hdeletion.symm.trans hu
    exact ⟨"a", rfl⟩

/-- The deletion in `a` is answered as if the neighbour's had not been sent. -/
theorem tenant_histories_deletion :
    ((businessApi .sqlite).answers [neighbourDeletion, exampleDeletion] exampleDatabase').filter
        (fun x => (businessApi .sqlite).isOf "a" x.1) =
      (businessApi .sqlite).answers [exampleDeletion] exampleDatabase := by
  have hfilter : [neighbourDeletion, exampleDeletion].filter ((businessApi .sqlite).isOf "a") =
      [exampleDeletion] := by
    rw [List.filter_cons_of_neg (by decide +kernel), List.filter_cons_of_pos (by decide +kernel),
      List.filter_nil]
  have h := @tenant_histories .sqlite "a" [neighbourDeletion, exampleDeletion] exampleDatabase'
    exampleDatabase (ordered_examples (by simp)) (ordered_examples (by simp [hfilter])) rfl
  rw [hfilter] at h
  exact h.1

end Teamspace.Api
