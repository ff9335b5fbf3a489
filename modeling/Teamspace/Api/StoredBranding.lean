import Teamspace.Api.RecordedAgents

/-!
# Stored branding

What a request does to the personalization of an organization: only a `POST /personalization` with a
body that parses brings one (`handle_noPersonalization`), and a `DELETE` that is answered without an
error leaves none (`handle_deletePersonalization`).
-/

namespace Teamspace.Api

open Teamspace.Py Teamspace.Common Teamspace.Lib

/-- The organization has no personalization. -/
def Database.NoPersonalization (db : Database) (org : String) : Prop :=
  ∀ p ∈ db.personalizations.rows, p.org ≠ org

instance (db : Database) (org : String) : Decidable (db.NoPersonalization org) :=
  inferInstanceAs (Decidable (∀ p ∈ db.personalizations.rows, p.org ≠ org))

section

variable {D : Driver} {db : Database} {org : String}

/-- Only a body that parses brings a personalization. -/
theorem handle_noPersonalization {c : Call} (hc : ∀ data, c.request ≠ .upsertPersonalization (.ok data))
    (h : db.NoPersonalization org) : (handle D c db).2.NoPersonalization org := by
  obtain ⟨claims, service, request, fresh⟩ := c
  have kept (hq : request.Unseen Database.personalizations) :
      (handle D ⟨claims, service, request, fresh⟩ db).2.NoPersonalization org := by
    intro p hp
    rw [handle_keeps (q := Database.personalizations) ⟨claims, service, request, fresh⟩ db hq] at hp
    exact h p hp
  cases request with
  | listMeetings | getMeeting | getPersonalization | getAgentConfig | getPlan => exact kept trivial
  | createMeeting | updateMeeting | deleteMeeting | createAgentConfig | deleteAgentConfig
  | upsertPlan => exact kept fun _ _ => rfl
  | upsertPersonalization parsed =>
    cases parsed with
    | ok data => exact absurd rfl (hc data)
    | error content =>
      let R (out : Except ApiExn Personalization × Database) : Prop := out.2.NoPersonalization org
      change R ((upsertPersonalization D (userOf claims) fresh (.error content)).outcome db)
      refine Transaction.of_check (fun _ => h) fun _ _ => Transaction.of_check (fun _ => h) ?_
      exact fun data hdata => nomatch validated_ok hdata
  | deletePersonalizationByOrg orgId =>
    let R (out : Except ApiExn Unit × Database) : Prop := out.2.NoPersonalization org
    have failed (e : ApiExn) : R (.error e, db) := h
    change R ((deletePersonalizationByOrg D (userOf claims) orgId).outcome db)
    refine Transaction.of_check failed fun _ _ => Transaction.of_check failed fun _ _ => ?_
    exact Transaction.of_check failed fun _ _ p hp => h p (Table.mem_deleteWhere.1 hp).1

/-- A deletion that is answered without an error leaves no personalization. -/
theorem handle_deletePersonalization {claims : Option Dict}
    {service : Option (Except AuthExn Dict)} {fresh : Fresh}
    (h : (handle D ⟨.ok claims, service, .deletePersonalizationByOrg org, fresh⟩ db).1.statusCode < 400) :
    (handle D ⟨.ok claims, service, .deletePersonalizationByOrg org, fresh⟩ db).2.NoPersonalization org := by
  let handler := deletePersonalizationByOrg D (userOf (.ok claims)) org
  have hout : Refuses (handler.outcome db).1 ∧
      ∀ u, (handler.outcome db).1 = .ok u → (handler.outcome db).2.NoPersonalization org := by
    let R (out : Except ApiExn Unit × Database) : Prop :=
      Refuses out.1 ∧ ∀ u, out.1 = .ok u → out.2.NoPersonalization org
    have failed {α : Type} {x : Except ApiExn α} (hx : Refuses x) (e : ApiExn) (he : x = .error e) :
        R (.error e, db) := ⟨.error (hx.le e he), nofun⟩
    change R _
    refine Transaction.of_checked (failed (refuses_requireScope ..)) fun _ _ => ?_
    refine Transaction.of_checked (failed (refuses_checkOrg ..)) fun _ _ => ?_
    refine Transaction.of_checked (failed (failsInside_equals _).refuses) fun isOrg hisOrg => ?_
    refine ⟨.ok _, fun _ _ p hp horg => ?_⟩
    have hkept := (Table.mem_deleteWhere.1 hp).2
    have howner : isOrg (Personalization.table.owner p) = true := (Driver.equals_str hisOrg).2 horg
    rw [howner] at hkept
    cases hkept
  change (respond 204 noBody handler db).1.statusCode < 400 at h
  cases hok : (handler.outcome db).1 with
  | ok u => exact hout.2 u hok
  | error e =>
    have hfail : handler.outcome db = (.error e, (handler.outcome db).2) := Prod.ext hok rfl
    rw [respond_error hfail] at h
    exact absurd (hout.1.le e hok) (Nat.not_le.2 h)

end

end Teamspace.Api
