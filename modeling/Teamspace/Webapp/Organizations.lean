import Teamspace.Webapp.Portal

/-!
# The organization of a handle

`resolve_org_id` reads one page of the organizations that IS lists. It finds the organization of a
handle, or finds that there is none, exactly if no organization after that page has the handle
(`resolve_org_id_exact`).
-/

namespace Teamspace.Webapp

open Teamspace.Lib Handling

/-- The loop of `resolve_org_id`. -/
def orgIdIn (handle : String) : List Organization → Handling (Option String)
  | [] => return none
  | org :: orgs =>
    if org.orgHandle = some handle then
      match org.id with
      | some id => return some id
      | none => .raise .keyError
    else orgIdIn handle orgs

/-- `resolve_org_id`. What is no object is taken to be a text. -/
def resolveOrgId (handle : String) : Handling (Option String) := do
  let rootToken ← getClientCredentialsToken
  if rootToken = "" then return none
  let result ← callIs (.bearer rootToken) (.listOrganizations 100)
  if result.statusCode = 200 then
    match result.data with
    | .organizations orgs => orgIdIn handle orgs
    | .other => .raise .attributeError
    | _ => return none
  else return none

/-! ## What IS lists -/

/-- An organization that IS keeps. -/
structure Tenant where
  orgHandle : String
  id : String
  deriving DecidableEq, Repr

/-- How an organization is listed. -/
def Tenant.listed (t : Tenant) : Organization := ⟨some t.orgHandle, some t.id⟩

/-- The id of the organization that has a handle. -/
def tenantId (tenants : List Tenant) (handle : String) : Option String :=
  (tenants.find? fun t => t.orgHandle = handle).map Tenant.id

/-- How many organizations IS lists at once, at most as many as it is asked for. -/
structure Paging where
  size : Nat → Nat
  size_le : ∀ limit, size limit ≤ limit

/-- IS gives tokens and answers every call with success; it lists the first organizations. -/
inductive ListingAnswers (P : Paging) :
    PortalReq → PortalWorld (List Tenant) → PortalRep → PortalWorld (List Tenant) → Prop
  | token (grant : Grant) (w : PortalWorld (List Tenant)) (token : String) : token ≠ "" →
      ListingAnswers P (.token grant) w (.token token) w
  | page (auth : IsAuth) (limit : Nat) (w : PortalWorld (List Tenant)) :
      ListingAnswers P (.is auth (.listOrganizations limit)) w
        (.is ⟨200, .organizations ((w.is.take (P.size limit)).map Tenant.listed)⟩) w

/-- The environment of a lookup. -/
def listingEnv (P : Paging) : Environment portal (PortalWorld (List Tenant)) where
  exec := PortalWorld.exec
  answers := ListingAnswers P

/-! ## Lookups -/

section

variable {P : Paging} {handle : String} {tenants rest : List Tenant}
  {w u : PortalWorld (List Tenant)} {x : Except PortalExn (Option String)}

/-- The first tenant with the handle is found. -/
theorem tenantId_cons (t : Tenant) (tenants : List Tenant) (handle : String) :
    tenantId (t :: tenants) handle =
      if t.orgHandle = handle then some t.id else tenantId tenants handle := by
  unfold tenantId
  rw [List.find?_cons]
  split <;> simp_all

/-- A handle that some organization has is found. -/
theorem tenantId_eq_none : tenantId tenants handle = none ↔
    ∀ t ∈ tenants, t.orgHandle ≠ handle := by
  simp [tenantId]

/-- Or else one of the others. -/
theorem tenantId_append : tenantId (tenants ++ rest) handle =
    (tenantId tenants handle).or (tenantId rest handle) := by
  unfold tenantId
  rw [List.find?_append, Option.map_or]

/-- What the loop finds among listed organizations. -/
theorem orgIdIn_listed (handle : String) (tenants : List Tenant) :
    orgIdIn handle (tenants.map Tenant.listed) = return tenantId tenants handle := by
  induction tenants with
  | nil => rfl
  | cons t tenants ih =>
    rw [tenantId_cons, List.map_cons, orgIdIn]
    by_cases h : t.orgHandle = handle
    · have hlisted : t.listed.orgHandle = some handle := congrArg some h
      rw [if_pos h, if_pos hlisted]
      rfl
    · have hlisted : t.listed.orgHandle ≠ some handle := fun hs => h (Option.some.inj hs)
      rw [if_neg h, if_neg hlisted]
      exact ih

/-- `resolve_org_id` looks at the first page. -/
theorem resolveOrgId_ends : (listingEnv P).Ends (resolveOrgId handle) w
    fun x _ => x = .ok (tenantId (w.is.take (P.size 100)) handle) := by
  rintro _ _ ⟨_, _, _, htoken⟩
  dsimp only [Program.bind]
  rw [if_neg htoken]
  rintro _ _ ⟨_, _, _⟩
  dsimp only [pure, Program.bind]
  rw [if_pos rfl, orgIdIn_listed]
  rfl

/-- The id found is that of the organization that has the handle, and none is found where there is
no such organization, if and only if the handle is on the first page or nowhere. -/
theorem resolve_org_id_exact (hnodup : (w.is.map Tenant.orgHandle).Nodup)
    (hrun : (listingEnv P).Runs (resolveOrgId handle) w x u) :
    x = .ok (tenantId w.is handle) ↔ ∀ t ∈ w.is.drop (P.size 100), t.orgHandle ≠ handle := by
  have hx := resolveOrgId_ends.of_runs hrun
  have hsplit : tenantId w.is handle = (tenantId (w.is.take (P.size 100)) handle).or
      (tenantId (w.is.drop (P.size 100)) handle) := by
    rw [← tenantId_append, List.take_append_drop]
  rw [← tenantId_eq_none, hx, Except.ok.injEq, hsplit]
  constructor
  · intro h
    cases hfound : tenantId (w.is.take (P.size 100)) handle with
    | none =>
      rw [hfound, Option.none_or] at h
      exact h.symm
    | some id =>
      -- the handle is on the page, so it is on no other
      rw [tenantId_eq_none]
      intro t ht hhandle
      obtain ⟨t', ht', -⟩ := Option.map_eq_some_iff.1 hfound
      have hdisjoint := List.disjoint_take_drop hnodup (Nat.le_refl (P.size 100))
      rw [← List.map_take, ← List.map_drop] at hdisjoint
      refine hdisjoint (List.mem_map_of_mem (List.mem_of_find?_eq_some ht')) ?_
      have hhandle' : t'.orgHandle = handle := by simpa using List.find?_some ht'
      rw [hhandle', ← hhandle]
      exact List.mem_map_of_mem ht
  · intro h
    rw [h, Option.or_none]

end

/-! ## A lookup beyond the first page -/

/-- Pages as long as they are asked for. -/
def fullPages : Paging := ⟨id, fun _ => Nat.le_refl _⟩

/-- `n` organizations, with the handles `""`, `"a"`, `"aa"` and so on. -/
def manyTenants (n : Nat) : List Tenant :=
  (List.range n).map fun k => ⟨String.ofList (List.replicate k 'a'), "id"⟩

/-- The tenants of the example have distinct handles. -/
theorem manyTenants_nodup (n : Nat) : ((manyTenants n).map Tenant.orgHandle).Nodup := by
  rw [manyTenants, List.map_map]
  refine List.nodup_range.map fun k l h => ?_
  have hlength := congrArg String.length h
  simpa using hlength

/-- The portal with so many organizations. -/
def tenantsWorld (n : Nat) : PortalWorld (List Tenant) where
  session := ⟨none, none, [], false, none, none, none⟩
  flashes := []
  db := .empty
  is := manyTenants n

/-- The run of a lookup finds what the first page has. -/
theorem resolveOrgId_runs (handle : String) (w : PortalWorld (List Tenant)) :
    (listingEnv fullPages).Runs (resolveOrgId handle) w
      (.ok (tenantId (w.is.take 100) handle)) w := by
  refine ⟨_, _, .token _ _ "t" (by decide), ?_⟩
  dsimp only [Program.bind]
  rw [if_neg (by decide)]
  refine ⟨_, _, .page _ _ _, ?_⟩
  dsimp only [pure, Program.bind]
  rw [if_pos rfl, orgIdIn_listed]
  exact ⟨rfl, rfl⟩

/-- Three tenants are on the first page. -/
theorem resolve_org_id_exact_three :
    tenantId (manyTenants 3) "aa" = tenantId ((manyTenants 3).take 100) "aa" := by
  have hrun := resolveOrgId_runs "aa" (tenantsWorld 3)
  have h := (resolve_org_id_exact (manyTenants_nodup 3) hrun).2 (by decide)
  exact (Except.ok.inj h).symm

/-- The last of 101 organizations is not found. -/
theorem hundred_first_not_found : ¬ ∀ (P : Paging) (handle : String)
    (w u : PortalWorld (List Tenant)) (x : Except PortalExn (Option String)),
    (w.is.map Tenant.orgHandle).Nodup → (listingEnv P).Runs (resolveOrgId handle) w x u →
      x = .ok (tenantId w.is handle) := by
  intro h
  have hrun := resolveOrgId_runs (String.ofList (List.replicate 100 'a')) (tenantsWorld 101)
  have hx := Except.ok.inj (h _ _ _ _ _ (manyTenants_nodup 101) hrun)
  exact absurd hx (by decide +kernel)

end Teamspace.Webapp
