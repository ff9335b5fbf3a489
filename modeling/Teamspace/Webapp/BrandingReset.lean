import Teamspace.Api.StoredBranding
import Teamspace.Lib.Interleaving
import Teamspace.Webapp.BrandingSync
import Teamspace.Webapp.StoredPlans

/-!
# Resets of the branding

Updates and resets of the branding and loads of pages, by any users of one organization, interleaved
in any way, with IS and the Business API answering anything. A reset that has reported its deletion
has deleted the personalization (`reset_stays`), and it stays deleted until an update brings another
one, as long as IS shows no branding to a request that is under way then or comes later: what IS
shows, the hook of a page stores again (`page_restores_branding`).
-/

namespace Teamspace.Webapp

open Teamspace.Py Teamspace.Common Teamspace.Lib Teamspace.Api Handling
open Relation (ReflTransGen)

/-! ## Runs -/

/-- What belongs to a request: the session and what is flashed. -/
abbrev Browser := PortalSession × List Flash

/-- The requests of the users of an organization. -/
def branding (D : Driver) (o : String) :
    Interleaving portal (PortalWorld Unit) Browser Database Visit Page where
  env := portalEnv D anyReply
  split := {
    toFun := fun w => ((w.session, w.flashes), w.db)
    invFun := fun x => ⟨x.1.1, x.1.2, x.2, ()⟩
    left_inv := fun _ => rfl
    right_inv := fun _ => rfl }
  program := Visit.program
  starts _ b := b.1.orgId = o ∧ b.2 = []

/-- What has happened. -/
abbrev BrandingEvent := Interleaving.Event portal Browser Visit Page

/-- The flashes of a reset that has deleted the branding in the database. -/
def resetMessages : List String :=
  ["Branding reverted to defaults.",
    "Branding reverted locally, but failed to sync removal to login portal."]

/-- The request is an update. -/
def BrandingRequest.IsUpdate : BrandingRequest → Prop
  | .update _ _ => True
  | _ => False

/-- The request is a reset. -/
def BrandingRequest.IsReset : BrandingRequest → Prop
  | .reset _ => True
  | _ => False

/-- A request that may bring a personalization. -/
def Writes : PortalReq → Prop
  | .api _ (.upsertPersonalization (.ok _)) => True
  | _ => False

/-- The Business API answers that the personalization of the organization is deleted. -/
def Removes (o : String) : Act portal → Prop
  | .exchange (.api _ (.deletePersonalizationByOrg org)) (.api result) =>
    org = o ∧ result.statusCode ∈ [200, 201, 204]
  | _ => False

/-- IS shows a branding that `POST /personalization` takes. -/
def Shows : Act portal → Prop
  | .exchange (.is _ (.resolveBranding org)) (.is result) =>
    ∃ data, shownBranding org result = some (.ok data)
  | _ => False

/-- The reset `i` reports that it has deleted the branding in the database. -/
def Reported (i : Nat) (log : List BrandingEvent) : Prop :=
  ∃ v x b, .ends i v x b ∈ log ∧ v.request.IsReset ∧ ∃ f ∈ b.2, f.message ∈ resetMessages

/-- The update of the event writes a personalization. -/
def UpdateWrites : BrandingEvent → Prop
  | .act _ v (.exchange q _) => v.request.IsUpdate ∧ Writes q
  | _ => False

/-- IS shows a branding. -/
def ShowsBranding : BrandingEvent → Prop
  | .act _ _ x => Shows x
  | _ => False

/-- The request `i` has deleted the branding, after `earlier` and before `later`. -/
def RemovedBy (o : String) (i : Nat) (later earlier log : List BrandingEvent) : Prop :=
  ∃ v x, log = later ++ .act i v x :: earlier ∧ Removes o x

/-! ## What a request obeys -/

section

variable {D : Driver} {o : String} {v : Visit} {b : Browser} {h : List (Act portal)} {α : Type}

/-- What a request may send: a personalization only if it is an update or has been shown one, and
none once it has deleted it. -/
structure MaySend (o : String) (v : Visit) (h : List (Act portal)) (q : PortalReq) : Prop where
  source : Writes q → v.request.IsUpdate ∨ ∃ x ∈ h, Shows x
  before : Writes q → ∀ x ∈ h, ¬Removes o x

/-- What a request may do: anything by itself. -/
def Law (o : String) (v : Visit) (h : List (Act portal)) : PortalOp ⊕ PortalReq → Prop
  | .inl _ => True
  | .inr q => MaySend o v h q

/-- What a reset may report: only what it has done. -/
def MayReport (o : String) (v : Visit) (_ : Except PortalExn Page) (b : Browser)
    (h : List (Act portal)) : Prop :=
  v.request.IsReset → (∃ f ∈ b.2, f.message ∈ resetMessages) → ∃ x ∈ h, Removes o x

/-- A request that has reported and deleted nothing yet. -/
structure Untold (o : String) (b : Browser) (h : List (Act portal)) : Prop where
  org : b.1.orgId = o
  flashes : b.2 = []
  removed : ∀ x ∈ h, ¬Removes o x

/-- What leaves the branding does not write it. -/
theorem LeavesBranding.not_writes {q : PortalReq} (hq : LeavesBranding q) : ¬Writes q := by
  intro h
  unfold Writes at h
  split at h
  · exact hq
  · exact h

/-- Nor does it remove it. -/
theorem LeavesBranding.not_removes {q : PortalReq} {r : PortalRep} (hq : LeavesBranding q) :
    ¬Removes o (.exchange q r) := by
  intro h
  unfold Removes at h
  split at h
  · next heq =>
    cases heq
    exact hq
  · exact h

/-- Every request may send it. -/
theorem LeavesBranding.maySend {q : PortalReq} (hq : LeavesBranding q) : MaySend o v h q :=
  ⟨fun hw => absurd hw hq.not_writes, fun hw => absurd hw hq.not_writes⟩

/-- An answer leaves the session and what is flashed. -/
theorem answers_own {q : PortalReq} {w w' : PortalWorld Unit} {r : PortalRep}
    (h : (portalEnv D anyReply).answers q w r w') :
    w'.session = w.session ∧ w'.flashes = w.flashes := by
  cases h <;> exact ⟨rfl, rfl⟩

/-- The operations of a request that flashes nothing. -/
def Silent : PortalOp → Prop
  | .flash _ => False
  | _ => True

/-- An exchange that removes nothing. -/
theorem Untold.exchange {s : Database} {q : PortalReq} {r : PortalRep} {w : PortalWorld Unit}
    (hb : Untold o b h) (hr : (portalEnv D anyReply).answers q ((branding D o).world b s) r w)
    (hq : ¬Removes o (.exchange q r)) : Untold o ((branding D o).own w) (.exchange q r :: h) := by
  obtain ⟨hs, hf⟩ := answers_own hr
  refine ⟨(congrArg PortalSession.orgId hs).trans hb.org, hf.trans hb.flashes, fun x hx => ?_⟩
  rcases List.mem_cons.1 hx with rfl | hx
  · exact hq
  · exact hb.removed x hx

/-- An operation that changes nothing. -/
theorem Untold.op (hb : Untold o b h) (op : PortalOp) (a : op.Ans) :
    Untold o b (Act.op (I := portal) op a :: h) :=
  ⟨hb.org, hb.flashes, List.forall_mem_cons.2 ⟨id, hb.removed⟩⟩

/-- What flashes nothing and leaves the branding as it is. -/
theorem silent_untold {p : Handling α} (hp : p.Only Silent LeavesBranding) (hb : Untold o b h) :
    (branding D o).Obeys (Law o v) p b h fun _ => Untold o := by
  refine Interleaving.Obeys.only hp hb (fun _ _ _ _ _ => trivial) (fun _ _ _ hq _ => hq.maySend) ?_ ?_
  · intro op b h s hop hb
    cases op with
    | flash => exact hop.elim
    | _ => exact ⟨hb.org, hb.flashes, (hb.op ..).removed⟩
  · exact fun q b h s r w hq hb hr => hb.exchange hr hq.not_removes

/-- The session is read, and something follows. -/
theorem session_then {f : PortalSession → Handling α}
    {Q : Except PortalExn α → Browser → List (Act portal) → Prop}
    (hf : (branding D o).Obeys (Law o v) (f b.1) b (.op .session b.1 :: h) Q) :
    (branding D o).Obeys (Law o v) (session >>= f) b h Q := ⟨trivial, fun _ => hf⟩

/-- A request to the Business API, and what follows an answer or none. -/
theorem api_then {request : Api.Request} {f : ApiResult → Handling α}
    {Q : Except PortalExn α → Browser → List (Act portal) → Prop}
    (hsend : ∀ token, MaySend o v (.op .session b.1 :: h) (.api token request))
    (hf : ∀ token (r : PortalRep) result, r = .api result ∨ result = offline →
      (branding D o).Obeys (Law o v) (f result) b
        (.exchange (.api token request) r :: .op .session b.1 :: h) Q) :
    (branding D o).Obeys (Law o v) (apiRequest none request >>= f) b h Q := by
  refine session_then ⟨hsend _, fun s r w hr => ?_⟩
  obtain ⟨hs, hflashes⟩ := answers_own hr
  rw [show (branding D o).own w = b from Prod.ext hs hflashes]
  cases r with
  | api result => exact hf _ _ result (.inl rfl)
  | _ => exact hf _ _ offline (.inr rfl)

/-- A personalization that may be sent is sent, and something follows. -/
theorem upsert_then {data : Parsed PersonalizationUpsert} {f : ApiResult → Handling α}
    {Q : Except PortalExn α → Browser → List (Act portal) → Prop} (hb : Untold o b h)
    (hsource : ∀ d, data = .ok d → v.request.IsUpdate ∨ ∃ x ∈ h, Shows x)
    (hf : ∀ result h, Untold o b h → (branding D o).Obeys (Law o v) (f result) b h Q) :
    (branding D o).Obeys (Law o v) (apiRequest none (.upsertPersonalization data) >>= f) b h Q := by
  have hb' := hb.op .session b.1
  refine api_then (fun token => ⟨fun hw => ?_, fun _ => hb'.removed⟩) fun token r result _ => ?_
  · cases data with
    | ok d =>
      obtain hupdate | ⟨x, hx, hshows⟩ := hsource d rfl
      · exact .inl hupdate
      · exact .inr ⟨x, List.mem_cons_of_mem _ hx, hshows⟩
    | error e => exact hw.elim
  · exact hf result _ ⟨hb.org, hb.flashes, List.forall_mem_cons.2 ⟨id, hb'.removed⟩⟩

/-- The hook sends the branding that IS has shown. -/
theorem syncBranding_untold {orgId token : String} (hb : Untold o b h) :
    (branding D o).Obeys (Law o v) (syncBranding orgId token) b h fun _ => Untold o := by
  unfold syncBranding fetchBrandingFromIs
  split
  · exact hb
  · refine ⟨LeavesBranding.maySend trivial, fun s r w hr => ?_⟩
    have hb' := hb.exchange hr id
    cases r with
    | is result =>
      change (branding D o).Obeys (Law o v) (Program.bind (.ret (shownBranding orgId result)) _) _ _ _
      cases hshown : shownBranding orgId result with
      | none => exact hb'
      | some data =>
        refine upsert_then hb' (fun d hd => .inr ⟨_, List.mem_cons_self, ?_⟩) fun res h hb => ?_
        · exact ⟨d, hshown.trans (congrArg some hd)⟩
        · refine silent_untold (Program.only_ite (fun _ => ⟨trivial, fun _ => trivial⟩) fun _ => trivial) hb
    | _ => exact hb'

/-- The hook restores only what it was shown, and reports nothing. -/
theorem ensureBrandingLoaded_untold {cached : Bool} (hb : Untold o b h) :
    (branding D o).Obeys (Law o v) (Hook.ensureBrandingLoaded cached) b h fun _ => Untold o := by
  unfold Hook.ensureBrandingLoaded
  split
  · exact hb
  refine session_then ?_
  replace hb := hb.op .session b.1
  split
  · exact hb
  refine (silent_untold (only_getPersonalization trivial fun _ => trivial) hb).keeping ?_
    fun _ _ _ => id
  intro found b h hb
  have setting (branding' : Option PersonalizationUpsert) :
      (setOrgBranding branding' >>= fun _ => (pure true : Handling Bool)).Only Silent LeavesBranding :=
    ⟨trivial, fun _ => trivial⟩
  cases found with
  | some data => exact silent_untold (setting _) hb
  | none =>
    dsimp only
    split
    · exact silent_untold (setting _) hb
    · refine Interleaving.Obeys.keeping (K := Untold o) ?_ ?_ fun _ _ _ => id
      · refine Interleaving.Obeys.tryCatch ((syncBranding_untold hb).mono fun x b h hb => ?_)
        cases x <;> exact hb
      · intro synced b h hb
        exact silent_untold (Program.only_when (fun _ => ⟨trivial, fun _ => trivial⟩) trivial) hb

/-- So does the hook of every page. -/
theorem autoEnsureBranding_untold {cached : Bool} (hb : Untold o b h) :
    (branding D o).Obeys (Law o v) (Hook.autoEnsureBranding cached) b h fun _ => Untold o := by
  refine Interleaving.Obeys.tryCatch ((ensureBrandingLoaded_untold hb).mono fun x b h hb => ?_)
  cases x <;> exact hb

/-- What leaves the branding keeps what has been removed. -/
theorem leaving_keeps {p : Handling α} {K : List (Act portal) → Prop}
    (hp : p.Only (fun _ => True) LeavesBranding) (hK : K h) (hcons : ∀ x h, K h → K (x :: h)) :
    (branding D o).Obeys (Law o v) p b h fun _ _ => K :=
  Interleaving.Obeys.only hp hK (fun _ _ _ _ _ => trivial) (fun _ _ _ hq _ => hq.maySend)
    (fun _ _ _ _ _ hK => hcons _ _ hK) fun _ _ _ _ _ _ _ hK _ => hcons _ _ hK

/-- What leaves the branding may be sent. -/
theorem leaving_obeys {p : Handling α} (hp : p.Only (fun _ => True) LeavesBranding) :
    (branding D o).Obeys (Law o v) p b h fun _ _ _ => True :=
  leaving_keeps hp trivial fun _ _ => id

/-! ## The handlers -/

/-- An update sends its own branding. -/
theorem updateBranding_obeys {orgHandle : String} {form : Form} (hv : v.request.IsUpdate)
    (hb : Untold o b h) :
    (branding D o).Obeys (Law o v) (updateBranding orgHandle form) b h fun _ _ _ => True := by
  unfold updateBranding
  refine (silent_untold (only_loginRequired trivial) hb).keeping ?_ fun _ _ _ _ => trivial
  intro page b h hb
  cases page with
  | some page => trivial
  | none =>
    refine (silent_untold (only_roleRequired trivial) hb).keeping ?_ fun _ _ _ _ => trivial
    intro _ b h hb
    refine session_then ?_
    replace hb := hb.op .session b.1
    cases brandingData b.1.orgId form with
    | error message => exact leaving_obeys ⟨trivial, fun _ => trivial⟩
    | ok data =>
      refine Interleaving.Obeys.keeping (K := fun _ _ => True) ?_ ?_ fun _ _ _ => id
      · refine upsert_then hb (fun _ _ => .inl hv) fun dbResult h hb => leaving_obeys ?_
        refine Program.only_ite (fun _ => trivial) fun _ => Program.only_ite (fun _ => trivial) fun _ => ?_
        refine .bind (only_callIs trivial) fun result => Program.only_ite (fun _ => trivial) fun _ => ?_
        refine Program.only_ite (fun _ => trivial) fun _ => .bind (only_callIs trivial) fun result => ?_
        exact Program.only_ite (fun _ => trivial) fun _ => trivial
      · intro res b h _
        refine leaving_obeys ?_
        refine Program.only_ite (fun _ => ?_) fun _ => .bind (only_flash trivial) fun _ => trivial
        refine .bind ⟨trivial, fun _ => trivial⟩ fun _ => Program.only_ite (fun _ => ?_) fun _ => ?_
        · exact .bind (only_flash trivial) fun _ => trivial
        · exact .bind (only_flash trivial) fun _ => trivial

/-- A deletion is successful if the Business API says so. -/
theorem deleteBranding_obeys {token : String} (hb : Untold o b h) :
    (branding D o).Obeys (Law o v) (IsOps.deleteBranding o token) b h fun x b h =>
      b.2 = [] ∧ ∀ res, x = .ok res → res.dbSuccess = true → ∃ y ∈ h, Removes o y := by
  refine api_then (fun _ => ⟨False.elim, False.elim⟩) fun token' r dbResult hr => ?_
  have hdb : dbResult.statusCode ∈ [200, 201, 204] →
      Removes o (.exchange (.api token' (.deletePersonalizationByOrg o)) r) := by
    intro hstatus
    obtain rfl | rfl := hr
    · exact ⟨rfl, hstatus⟩
    · exact absurd hstatus (by decide)
  split
  · exact ⟨hb.flashes, fun res hres hsuccess => by
      cases hres; exact ⟨_, List.mem_cons_self, hdb (of_decide_eq_true hsuccess)⟩⟩
  · refine ⟨LeavesBranding.maySend trivial, fun s r' w hr' => ?_⟩
    have hflashes : ((branding D o).own w).2 = [] := (answers_own hr').2.trans hb.flashes
    cases r' with
    | is result =>
      exact ⟨hflashes, fun res hres hsuccess => by
        cases hres
        exact ⟨_, List.mem_cons_of_mem _ List.mem_cons_self, hdb (of_decide_eq_true hsuccess)⟩⟩
    | _ => exact ⟨hflashes, nofun⟩

/-- A reset reports what it has done. -/
theorem resetBranding_obeys {orgHandle : String} (hb : Untold o b h) :
    (branding D o).Obeys (Law o v) (resetBranding orgHandle) b h (MayReport o v) := by
  have untold {x : Except PortalExn Page} {b : Browser} {h : List (Act portal)} (hb : b.2 = []) :
      MayReport o v x b h := by
    rintro - ⟨f, hf, -⟩
    rw [hb] at hf
    cases hf
  refine (silent_untold (only_loginRequired trivial) hb).keeping ?_ fun _ _ _ hb => untold hb.flashes
  intro page b h hb
  cases page with
  | some page => exact untold hb.flashes
  | none =>
    refine (silent_untold (only_roleRequired trivial) hb).keeping ?_ fun _ _ _ hb => untold hb.flashes
    intro _ b h hb
    refine session_then ?_
    replace hb := hb.op .session b.1
    rw [hb.org]
    refine Interleaving.Obeys.bind ((deleteBranding_obeys hb).mono fun x b h hx => ?_)
    cases x with
    | error e => exact untold (x := .error e) hx.1
    | ok res =>
      change (branding D o).Obeys (Law o v) (if res.dbSuccess = true then _ else _) b h _
      split
      · next hsuccess =>
        refine (leaving_keeps (K := fun h => ∃ y ∈ h, Removes o y) ?_ (hx.2 res rfl hsuccess)
          fun x h ⟨y, hy, hr⟩ => ⟨y, List.mem_cons_of_mem _ hy, hr⟩).mono fun _ _ _ hr _ _ => hr
        refine .bind ⟨trivial, fun _ => trivial⟩ fun _ => Program.only_ite (fun _ => ?_) fun _ => ?_
        · exact .bind (only_flash trivial) fun _ => trivial
        · exact .bind (only_flash trivial) fun _ => trivial
      · refine ⟨trivial, fun _ => ?_⟩
        rintro - ⟨f, hf, hmessage⟩
        have hf : f ∈ (⟨"error", "Failed to revert branding."⟩ : Flash) :: b.2 := hf
        rw [hx.1] at hf
        rw [List.mem_singleton.1 hf] at hmessage
        exact absurd hmessage (by decide)

/-- Every request sends and reports what it may. -/
theorem visit_obeys (hb : Untold o b h) :
    (branding D o).Obeys (Law o v) v.program b h (MayReport o v) := by
  refine (autoEnsureBranding_untold hb).keeping ?_ ?_
  · intro cached b h hb
    cases hv : v.request with
    | update orgHandle form =>
      have hupdate : v.request.IsUpdate := by rw [hv]; trivial
      refine (updateBranding_obeys hupdate hb).mono fun _ _ _ _ hreset => ?_
      rw [hv] at hreset
      exact hreset.elim
    | reset orgHandle => exact resetBranding_obeys hb
    | home orgHandle =>
      have hreset : ¬v.request.IsReset := by rw [hv]; exact id
      refine Interleaving.Obeys.mono (Q := fun _ _ _ => True) ?_ fun _ _ _ _ h => absurd h hreset
      refine (silent_untold (only_loginRequired trivial) hb).keeping ?_ fun _ _ _ _ => trivial
      intro page b h hb
      cases page with
      | some page => trivial
      | none =>
        exact (ensureBrandingLoaded_untold hb).keeping (fun _ _ _ _ => trivial) fun _ _ _ _ => trivial
    | page view =>
      have hreset : ¬v.request.IsReset := by rw [hv]; exact id
      exact (leaving_obeys view.leaves).mono fun _ _ _ _ h => absurd h hreset
  · rintro e b h hb - ⟨f, hf, -⟩
    rw [hb.flashes] at hf
    cases hf

/-! ## The database -/

/-- Where there is no personalization, only a write brings one. -/
theorem exchange_noPersonalization {q : PortalReq} {w w' : PortalWorld Unit} {r : PortalRep}
    (hq : ¬Writes q) (hw : w.db.NoPersonalization o)
    (hr : (portalEnv D anyReply).answers q w r w') : w'.db.NoPersonalization o := by
  cases hr with
  | token | is | isFailed => exact hw
  | @api token request _ result db h =>
    have hrequest : ∀ data, request ≠ .upsertPersonalization (.ok data) := by
      rintro data rfl
      exact hq trivial
    cases h with
    | answered | lost => exact handle_noPersonalization hrequest hw
    | unavailable => exact hw

/-- After a removal there is none. -/
theorem removes_noPersonalization {q : PortalReq} {w w' : PortalWorld Unit} {r : PortalRep}
    (hremoves : Removes o (.exchange q r)) (hr : (portalEnv D anyReply).answers q w r w') :
    w'.db.NoPersonalization o := by
  cases hr with
  | token | is | isFailed => exact hremoves.elim
  | @api token request _ result db h =>
    cases request with
    | deletePersonalizationByOrg org =>
      obtain ⟨rfl, hstatus⟩ := hremoves
      have hsuccess : result.statusCode < 400 := by
        revert hstatus
        simp
        omega
      cases h with
      | answered => exact handle_deletePersonalization hsuccess
      | unavailable _ hle | lost _ _ _ hle => exact absurd hsuccess (Nat.not_lt.2 hle)
    | _ => exact hremoves.elim

variable {db : Database} {c : Interleaving.Config portal Browser Database Visit Page}

/-- In every run all requests obey. -/
theorem branding_obedient (hrun : (branding D o).Reachable db c) :
    (branding D o).Obedient (Law o) (MayReport o) c :=
  hrun.obedient fun _ _ hstarts =>
    visit_obeys ⟨hstarts.1, hstarts.2, fun _ hx => absurd hx List.not_mem_nil⟩

/-- Whatever follows a removal, the personalization is gone until an update brings another one. -/
theorem removed_until_update {i : Nat} {earlier : List BrandingEvent}
    (hrun : (branding D o).Reachable db c)
    (hshown : ∀ e ∈ c.log, ShowsBranding e → e.task = i ∨ Interleaving.Ended e.task earlier) :
    ∀ {later : List BrandingEvent}, RemovedBy o i later earlier c.log →
      (∀ e ∈ later, ¬UpdateWrites e) → c.shared.NoPersonalization o := by
  induction hrun with
  | refl =>
    rintro later ⟨v, x, hlog, -⟩
    cases later <;> cases hlog
  | @tail c _ hrun hstep ih =>
    rintro later ⟨v, x, hlog, hremoves⟩ hupdates
    -- A new event is the removal, or the personalization was gone before it.
    have before {e : BrandingEvent} (hlog : e :: c.log = later ++ .act i v x :: earlier)
        (hshown : ∀ e' ∈ e :: c.log, ShowsBranding e' →
          e'.task = i ∨ Interleaving.Ended e'.task earlier) :
        e = .act i v x ∨ e ∈ later ∧ .act i v x :: earlier <:+ c.log ∧
          c.shared.NoPersonalization o := by
      cases later with
      | nil => exact .inl (List.cons.inj hlog).1
      | cons e' later =>
        obtain ⟨rfl, htail⟩ := List.cons.inj hlog
        refine .inr ⟨List.mem_cons_self, ⟨later, htail.symm⟩, ?_⟩
        exact ih (fun e he => hshown e (List.mem_cons_of_mem _ he)) ⟨v, x, htail, hremoves⟩
          fun e he => hupdates e (List.mem_cons_of_mem _ he)
    cases hstep with
    | start =>
      obtain h | ⟨-, -, h⟩ := before hlog hshown
      · cases h
      · exact h
    | finish =>
      obtain h | ⟨-, -, h⟩ := before hlog hshown
      · cases h
      · exact h
    | op hi =>
      change (PortalWorld.exec _ _).2.db.NoPersonalization o
      rw [exec_db]
      obtain h | ⟨-, -, h⟩ := before hlog hshown
      · cases h
        exact hremoves.elim
      · exact h
    | @exchange j v' b q k r w hj hr =>
      obtain h | ⟨hmem, hsuffix, h⟩ := before hlog hshown
      · cases h
        exact removes_noPersonalization hremoves hr
      refine exchange_noPersonalization (fun hwrites => ?_) h hr
      obtain ⟨hobeys, hended⟩ := (branding_obedient hrun).live j _ hj
      obtain hupdate | ⟨y, hy, hshows⟩ := hobeys.1.source hwrites
      · exact hupdates _ hmem ⟨hupdate, hwrites⟩
      obtain ⟨v'', hy⟩ := Interleaving.mem_actsOf.1 hy
      obtain hji | ⟨v'', x', b', hends⟩ := hshown _ (List.mem_cons_of_mem _ hy) hshows
      · cases hji
        have hremoved := Interleaving.mem_actsOf.2 ⟨v, hsuffix.mem List.mem_cons_self⟩
        exact hobeys.1.before hwrites _ hremoved hremoves
      · exact hended ⟨v'', x', b', hsuffix.mem (List.mem_cons_of_mem _ hends)⟩

/-- A reset that has reported its deletion has deleted the personalization. From then on there is
none until an update brings one, if IS shows no branding to a request that was under way at the
deletion or came later. -/
theorem reset_stays {i : Nat} (hrun : (branding D o).Reachable db c) (hreport : Reported i c.log) :
    ∃ later earlier, RemovedBy o i later earlier c.log ∧
      ((∀ e ∈ c.log, ShowsBranding e → e.task = i ∨ Interleaving.Ended e.task earlier) →
        (∀ e ∈ later, ¬UpdateWrites e) → c.shared.NoPersonalization o) := by
  obtain ⟨v, x, b, hends, hreset, hflash⟩ := hreport
  obtain ⟨after, before, hlog⟩ := List.append_of_mem hends
  have hlawful := (branding_obedient hrun).past _ before ⟨after, hlog.symm⟩
  obtain ⟨y, hy, hremoves⟩ := hlawful hreset hflash
  obtain ⟨v', hy⟩ := Interleaving.mem_actsOf.1 hy
  have hmem : .act i v' y ∈ c.log := by
    rw [hlog]
    exact List.mem_append_right _ (List.mem_cons_of_mem _ hy)
  obtain ⟨later, earlier, hlog⟩ := List.append_of_mem hmem
  have hremoved : RemovedBy o i later earlier c.log := ⟨v', y, hlog, hremoves⟩
  exact ⟨later, earlier, hremoved, fun hshown => removed_until_update hrun hshown hremoved⟩

end

/-! ## A reset that does not stay -/

/-- An administrator of `o` who may edit the branding. -/
def editor : PortalSession :=
  ⟨some ⟨"u", "o", "Acme", "acme"⟩, some "t", [basicBrandingEditor], true, none, none, none⟩

/-- The administrator's request on a database. -/
def editing (db : Database) : PortalWorld Unit := ⟨editor, [], db, ()⟩

/-- The database after an update of the branding. -/
def brandedDatabase : Database :=
  ((updateBranding "acme" []).run PortalWorld.exec allUp (editing .empty)).2.db

/-- IS does not delete the branding, and goes on showing it if `shows`. -/
def keepsBranding (shows : Bool) : PortalReq → PortalWorld Unit → PortalRep × PortalWorld Unit
  | .is _ (.deleteBranding _), w => (.is ⟨500, .other⟩, w)
  | .is _ (.resolveBranding _), w =>
    (.is (match shows with
      | true => ⟨200, .preference (.obj [("preference", .obj [("theme", .obj [])])])⟩
      | false => ⟨404, .other⟩), w)
  | q, w => allUp q w

/-- The portal's environment, in which a branding is shown only if `shows`. -/
abbrev showingEnv (shows : Bool) : Environment portal (PortalWorld Unit) :=
  (portalEnv .sqlite anyReply).within fun q _ r _ => Shows (.exchange q r) → shows = true

/-- They answer as IS and the Business API may. -/
theorem answers_keepsBranding (shows : Bool) (q : PortalReq) (w : PortalWorld Unit) :
    (showingEnv shows).answers q w (keepsBranding shows q w).1 (keepsBranding shows q w).2 := by
  cases q with
  | token grant => exact ⟨answers_allUp (.token grant) w, False.elim⟩
  | api token request => exact ⟨answers_allUp (.api token request) w, False.elim⟩
  | is auth call =>
    cases call with
    | deleteBranding => exact ⟨.is trivial, False.elim⟩
    | resolveBranding =>
      refine ⟨.is trivial, fun hshows => ?_⟩
      cases shows with
      | true => rfl
      | false =>
        obtain ⟨data, hdata⟩ := hshows
        cases hdata
    | _ => exact ⟨answers_allUp (.is auth _) w, False.elim⟩

/-- The reset of the branding. -/
def resetVisit : Visit := ⟨.reset "acme", true⟩

/-- The page that the reset redirects to. -/
def nextVisit : Visit := ⟨.page (brandingView "acme"), false⟩

/-- What a request ends with, on a database. -/
def served (shows : Bool) (v : Visit) (db : Database) : Except PortalExn Page × PortalWorld Unit :=
  v.program.run PortalWorld.exec (keepsBranding shows) (editing db)

/-- The request `i` has been served alone between two configurations. -/
structure Served (shows : Bool) (i : Nat) (v : Visit)
    (c c' : Interleaving.Config portal Browser Database Visit Page) : Prop where
  steps : ReflTransGen (branding .sqlite "o").Step c c'
  db : c'.shared = (served shows v c.shared).2.db
  ends : .ends i v (served shows v c.shared).1
    ((served shows v c.shared).2.session, (served shows v c.shared).2.flashes) ∈ c'.log
  older : ∀ e ∈ c.log, e ∈ c'.log
  newer : ∀ e ∈ c'.log, e ∈ c.log ∨
    e.task = i ∧ (UpdateWrites e → v.request.IsUpdate) ∧ (ShowsBranding e → shows = true)

/-- A request can be served alone. -/
theorem serve {c : Interleaving.Config portal Browser Database Visit Page} (shows : Bool) (i : Nat)
    (v : Visit) (hfresh : ∀ e ∈ c.log, e.task ≠ i) : ∃ c', Served shows i v c c' := by
  have hruns := Environment.runs_run (answers_keepsBranding shows) v.program (editing c.shared)
  obtain ⟨l, hsteps, hl⟩ := Interleaving.serves (M := branding .sqlite "o") (a := (editor, []))
    (showingEnv shows) c hfresh ⟨rfl, rfl⟩ rfl (fun _ _ _ _ h => h.1) hruns
  refine ⟨_, hsteps, rfl, List.mem_cons_self, fun e he => ?_, fun e he => ?_⟩
  · exact List.mem_cons_of_mem _ (List.mem_append_right _ (List.mem_cons_of_mem _ he))
  · obtain rfl | he := List.mem_cons.1 he
    · exact .inr ⟨rfl, False.elim, False.elim⟩
    obtain he | he := List.mem_append.1 he
    · obtain ⟨y, rfl, hanswered⟩ := hl e he
      refine .inr ⟨rfl, fun hwrites => ?_, fun hshows => ?_⟩
      · cases y with
        | op => exact hwrites.elim
        | exchange => exact hwrites.1
      · cases y with
        | op => exact hshows.elim
        | exchange =>
          obtain ⟨w, u, -, honly⟩ := hanswered
          exact honly hshows
    obtain rfl | he := List.mem_cons.1 he
    · exact .inr ⟨rfl, False.elim, False.elim⟩
    · exact .inl he

/-- Nobody has done anything yet. -/
def beforeReset : Interleaving.Config portal Browser Database Visit Page :=
  ⟨brandedDatabase, fun _ => none, []⟩

/-- The reset reports that the branding is removed. -/
theorem resetVisit_reports (shows : Bool) :
    ∃ f ∈ (served shows resetVisit brandedDatabase).2.flashes, f.message ∈ resetMessages := by
  cases shows <;> decide +kernel

/-- What is left of a reset and the page load after it. -/
structure ResetThenPage (shows : Bool)
    (c : Interleaving.Config portal Browser Database Visit Page) : Prop where
  reachable : (branding .sqlite "o").Reachable brandedDatabase c
  reported : Reported 0 c.log
  quiet : ∀ e ∈ c.log, ¬UpdateWrites e
  shown : ∀ e ∈ c.log, ShowsBranding e → shows = true
  db : c.shared = (served shows nextVisit (served shows resetVisit brandedDatabase).2.db).2.db

/-- The reset and the page can be served one after the other. -/
theorem exists_resetThenPage (shows : Bool) : ∃ c, ResetThenPage shows c := by
  obtain ⟨c, hreset⟩ := serve (c := beforeReset) shows 0 resetVisit (List.forall_mem_nil _)
  have hevents (e) (he : e ∈ c.log) := (hreset.newer e he).resolve_left List.not_mem_nil
  have hfresh : ∀ e ∈ c.log, e.task ≠ 1 := by
    intro e he htask
    cases htask.symm.trans (hevents e he).1
  obtain ⟨c', hpage⟩ := serve shows 1 nextVisit hfresh
  refine ⟨c', hreset.steps.trans hpage.steps, ?_, fun e he => ?_, fun e he => ?_, ?_⟩
  · exact ⟨resetVisit, _, _, hpage.older _ hreset.ends, trivial, resetVisit_reports shows⟩
  · obtain he | ⟨-, hupdate, -⟩ := hpage.newer e he
    · exact (hevents e he).2.1
    · exact hupdate
  · obtain he | ⟨-, -, hshows⟩ := hpage.newer e he
    · exact (hevents e he).2.2
    · exact hshows
  · rw [hpage.db, hreset.db]
    rfl

/-- A page load to which IS shows nothing leaves no personalization after a reset. -/
theorem reset_stays_alone : ∃ c, (branding .sqlite "o").Reachable brandedDatabase c ∧
    Reported 0 c.log ∧ c.shared = (served false nextVisit
      (served false resetVisit brandedDatabase).2.db).2.db ∧ c.shared.NoPersonalization "o" := by
  obtain ⟨c, hc⟩ := exists_resetThenPage false
  obtain ⟨later, earlier, ⟨v, y, hlog, -⟩, hstays⟩ := reset_stays hc.reachable hc.reported
  refine ⟨c, hc.reachable, hc.reported, hc.db, hstays (fun e he hshows => ?_) fun e he => ?_⟩
  · cases hc.shown e he hshows
  · refine hc.quiet e ?_
    rw [hlog]
    exact List.mem_append_left _ he

/-- The page that a reset redirects to brings the branding back, if IS still shows it. No update has
been made. -/
theorem page_restores_branding : ∃ c, (branding .sqlite "o").Reachable brandedDatabase c ∧
    Reported 0 c.log ∧ (∀ e ∈ c.log, ¬UpdateWrites e) ∧ ¬c.shared.NoPersonalization "o" := by
  obtain ⟨c, hc⟩ := exists_resetThenPage true
  refine ⟨c, hc.reachable, hc.reported, hc.quiet, ?_⟩
  rw [hc.db]
  decide +kernel

end Teamspace.Webapp
