import Mathlib.Data.List.Nodup
import Teamspace.Webapp.IdentityProviders

/-!
# The groups of an IdP and the roles that they grant

`_apply_idp_role_group_mappings` gives an IdP a new list of groups and then writes the groups of
every role (`webapp/blueprints/admin.py`). To tell which groups of a role come from elsewhere, it
asks which are not among the new groups of the IdP; the groups that the IdP has lost count as coming
from elsewhere. The list that is written is the right one exactly if the role had none of these
(`role_groups_exact`).
-/

namespace Teamspace.Webapp

open Teamspace.Py Teamspace.Common Teamspace.Lib Teamspace.Api Handling

/-! ## IS -/

/-- A group, as IS keeps it. -/
structure GroupRow where
  name : String
  id : String
  deriving DecidableEq, Repr

/-- A group, as IS shows it. -/
def GroupRow.shown (g : GroupRow) : IdpGroup := ⟨some g.name, some g.id⟩

/-- A write to the groups of a role, with the groups that the role had. -/
structure RolePatch where
  roleId : String
  before : List String
  written : List String
  deriving DecidableEq, Repr

/-- What IS keeps of an IdP and of the roles, and the writes to the roles, newest first. -/
structure GroupsIs where
  idpGroups : List GroupRow
  roleGroups : String → List String
  patches : List RolePatch

/-- The new groups have the names that are asked for, once each. A group whose name is kept is kept
with its id, and every other one gets an id of its own. -/
structure Renews (before : List GroupRow) (names : List String) (after : List GroupRow) : Prop where
  asked : ∀ n, n ∈ after.map GroupRow.name ↔ n ∈ names
  names_nodup : (after.map GroupRow.name).Nodup
  ids_nodup : (after.map GroupRow.id).Nodup
  ids_ne : ∀ g ∈ after, g.id ≠ ""
  kept : ∀ g ∈ before, g.name ∈ names → g ∈ after
  fresh : ∀ g ∈ after, g.name ∉ before.map GroupRow.name → g.id ∉ before.map GroupRow.id

/-- How IS answers. The `PUT` of the groups succeeds; every other call may fail, and a `PATCH` that
fails may have been carried out or not. -/
inductive GroupAnswers : IsAnswers GroupsIs
  | putIdpGroups {auth : IsAuth} {idpId : String} {names : List String} {s : GroupsIs}
      {after : List GroupRow} {statusCode : Nat} : statusCode ∈ [200, 201] →
      Renews s.idpGroups names after →
      GroupAnswers auth (.putIdpGroups idpId names) s
        (some ⟨statusCode, .idpGroups (after.map GroupRow.shown)⟩) { s with idpGroups := after }
  | listRoles {auth : IsAuth} {s : GroupsIs} {response : Option IsResponse} :
      GroupAnswers auth .listRoles s response s
  | getRole {auth : IsAuth} {roleId : String} {s : GroupsIs} :
      GroupAnswers auth (.getRole roleId) s (some ⟨200, .role (s.roleGroups roleId)⟩) s
  | getRoleFailed {auth : IsAuth} {roleId : String} {s : GroupsIs} {response : Option IsResponse} :
      (∀ r ∈ response, r.statusCode ≠ 200) → GroupAnswers auth (.getRole roleId) s response s
  | replaceRoleGroups {auth : IsAuth} {roleId : String} {groups : List String} {s : GroupsIs}
      {response : Option IsResponse} (carriedOut : Bool) :
      GroupAnswers auth (.replaceRoleGroups roleId groups) s response
        { s with
          roleGroups :=
            if carriedOut then Function.update s.roleGroups roleId groups else s.roleGroups
          patches := ⟨roleId, s.roleGroups roleId, groups⟩ :: s.patches }

/-- The environment in which IS answers so. -/
abbrev groupsEnv (D : Driver) : Environment portal (PortalWorld GroupsIs) := portalEnv D GroupAnswers

/-! ## What is written -/

section

variable {D : Driver} {w : PortalWorld GroupsIs}

/-- Since `w` the groups of the IdP are the same, and each write to a role combines the groups that
it had with those that the form selects. -/
structure CombinesSince (form : Form) (resolved : List IdpGroup) (w u : PortalWorld GroupsIs) :
    Prop where
  idpGroups : u.is.idpGroups = w.is.idpGroups
  patches : ∃ patches, u.is.patches = patches ++ w.is.patches ∧
    ∀ p ∈ patches, p.written = combinedGroups form resolved p.roleId p.before

/-- Where no role was written, all of them were written so. -/
theorem CombinesSince.refl {form : Form} {resolved : List IdpGroup} :
    CombinesSince form resolved w w := ⟨rfl, [], rfl, nofun⟩

/-- One more write. -/
theorem CombinesSince.cons {form : Form} {resolved : List IdpGroup} {u v : PortalWorld GroupsIs}
    (p : RolePatch) (hp : p.written = combinedGroups form resolved p.roleId p.before)
    (hidp : u.is.idpGroups = w.is.idpGroups) (hu : u.is.patches = p :: w.is.patches)
    (h : CombinesSince form resolved u v) : CombinesSince form resolved w v := by
  obtain ⟨hv, patches, hpatches, hall⟩ := h
  refine ⟨hv.trans hidp, patches ++ [p], ?_, fun q hq => ?_⟩
  · rw [hpatches, hu, List.append_assoc]
    rfl
  · obtain hq | hq := List.mem_append.1 hq
    · exact hall q hq
    · cases List.mem_singleton.1 hq
      exact hp

/-- Every role that is written has its groups combined. -/
theorem mapRoles_combines (token : String) (form : Form) (resolved : List IdpGroup)
    (roles : List ScimRole) :
    (groupsEnv D).Ends (mapRoles token form resolved roles) w fun _ u =>
      CombinesSince form resolved w u := by
  induction roles generalizing w with
  | nil => exact .refl
  | cons role roles ih =>
    refine callIs_then (fun roleDetail s h => ?_) fun s h => ?_
    · cases h with
      | getRoleFailed hfailed =>
        rw [if_neg (hfailed roleDetail rfl)]
        exact ih
      | getRole =>
        rw [if_pos rfl]
        let p : RolePatch := ⟨role.id, w.is.roleGroups role.id,
          combinedGroups form resolved role.id (w.is.roleGroups role.id)⟩
        refine callIs_then (fun _ s h => ?_) fun s h => ?_
        · cases h with
          | replaceRoleGroups carriedOut =>
            refine ih.mono fun _ u hu => ?_
            refine .cons p ?_ ?_ ?_ hu <;> rfl
        · cases h with
          | replaceRoleGroups carriedOut =>
            refine .cons p ?_ ?_ ?_ .refl <;> rfl
    · cases h with
      | getRoleFailed => exact .refl

/-- The IdP gets new groups, and the writes to the roles combine with them. -/
structure Applied (form : Form) (w u : PortalWorld GroupsIs) : Prop where
  renews : Renews w.is.idpGroups (externalGroupNames form) u.is.idpGroups
  patches : ∃ patches, u.is.patches = patches ++ w.is.patches ∧ ∀ p ∈ patches,
    p.written = combinedGroups form (u.is.idpGroups.map GroupRow.shown) p.roleId p.before

/-- The groups of the IdP are those that it has got by the `PUT`. -/
theorem resolvedGroups_renews (token idpId : String) (names : List String) :
    (groupsEnv D).Ends (resolvedGroups token idpId names) w
      (Environment.Settled fun resolved u => Renews w.is.idpGroups names u.is.idpGroups ∧
        u.is.patches = w.is.patches ∧ resolved = u.is.idpGroups.map GroupRow.shown) := by
  refine callIs_then (fun groupsRes s h => ?_) fun s h => by cases h
  cases h with
  | putIdpGroups hstatus hrenews =>
    dsimp only
    rw [if_pos hstatus]
    exact ⟨hrenews, rfl, rfl⟩

/-- What is made of the form is applied to the groups that the IdP has then. -/
theorem applyIdpRoleGroupMappings_applied (token idpId : String) (form : Form) :
    (groupsEnv D).Ends (applyIdpRoleGroupMappings token idpId form) w fun _ u =>
      Applied form w u := by
  refine (resolvedGroups_renews token idpId _).settled fun resolved u hu => ?_
  obtain ⟨hrenews, hpatches, rfl⟩ := hu
  have applied (v : PortalWorld GroupsIs)
      (hv : CombinesSince form (u.is.idpGroups.map GroupRow.shown) u v) : Applied form w v := by
    obtain ⟨hidp, hsince⟩ := hv
    rw [hpatches, ← hidp] at hsince
    exact ⟨hidp ▸ hrenews, hsince⟩
  refine callIs_then (fun rolesRes s h => ?_) fun s h => ?_
  · cases h with
    | listRoles => exact (mapRoles_combines token form _ _).mono fun _ v hv => applied v hv
  · cases h with
    | listRoles => exact applied u .refl

end

/-! ## What should be written -/

/-- The ids of groups. -/
abbrev ids (groups : List GroupRow) : List String := groups.map GroupRow.id

/-- The new groups that the form selects for a role. -/
def selectedGroups (form : Form) (after : List GroupRow) (roleId : String) : List String :=
  ids (after.filter fun g => g.name ∈ form.getlist ("role_groups[" ++ roleId ++ "]"))

/-- The write leaves the role the groups that come from elsewhere, and the new groups that are
selected for it, each once. -/
structure RolePatch.Exact (form : Form) (before after : List GroupRow) (p : RolePatch) : Prop where
  written : p.written = p.before.filter (fun g => g ∉ ids before ∧ g ∉ ids after) ++
    selectedGroups form after p.roleId
  nodup : p.written.Nodup

/-- The role has no group that the IdP has lost, and has the groups that come from elsewhere once
each. -/
structure RolePatch.Clean (before after : List GroupRow) (p : RolePatch) : Prop where
  lost : ∀ g ∈ p.before, g ∈ ids before → g ∈ ids after
  once : (p.before.filter fun g => g ∉ ids after).Nodup

section

variable {form : Form} {before after : List GroupRow} {names : List String}

/-- The ids of the groups that are shown are the ids of the groups. -/
theorem filterMap_realId (h : ∀ g ∈ after, g.id ≠ "") :
    (after.map GroupRow.shown).filterMap IdpGroup.realId = ids after := by
  rw [List.filterMap_map, ids, ← List.filterMap_eq_map]
  refine List.filterMap_congr fun g hg => ?_
  simp [GroupRow.shown, IdpGroup.realId, h g hg]

/-- What the handler combines of the groups that IS shows. -/
theorem combinedGroups_shown (hids : ∀ g ∈ after, g.id ≠ "") (roleId : String)
    (current : List String) :
    combinedGroups form (after.map GroupRow.shown) roleId current =
      current.filter (fun g => g ∉ ids after) ++ selectedGroups form after roleId := by
  unfold combinedGroups
  dsimp only
  rw [filterMap_realId hids, List.filter_map,
    filterMap_realId fun g hg => hids g (List.mem_filter.1 hg).1]
  simp [selectedGroups, GroupRow.shown, Function.comp_def]

/-- The selected groups are new groups, each once. -/
theorem selectedGroups_sublist (roleId : String) :
    (selectedGroups form after roleId).Sublist (ids after) :=
  List.filter_sublist.map GroupRow.id

/-- A role that is written so is exact just if it is clean. -/
theorem exact_iff_clean (hrenews : Renews before names after) {p : RolePatch}
    (hp : p.written = combinedGroups form (after.map GroupRow.shown) p.roleId p.before) :
    p.Exact form before after ↔ p.Clean before after := by
  rw [combinedGroups_shown hrenews.ids_ne] at hp
  constructor
  · rintro ⟨hwritten, hnodup⟩
    rw [hp] at hwritten hnodup
    refine ⟨fun g hg hbefore => ?_, (List.nodup_append.1 hnodup).1⟩
    by_contra hafter
    have hmem : g ∈ p.before.filter fun g => g ∉ ids after :=
      List.mem_filter.2 ⟨hg, decide_eq_true hafter⟩
    rw [List.append_cancel_right hwritten] at hmem
    exact (of_decide_eq_true (List.mem_filter.1 hmem).2).1 hbefore
  · rintro ⟨hlost, honce⟩
    constructor
    · rw [hp]
      congr 1
      refine List.filter_congr fun g hg => ?_
      have := hlost g hg
      simp only [decide_eq_decide]
      tauto
    · rw [hp, List.nodup_append]
      refine ⟨honce, hrenews.ids_nodup.sublist (selectedGroups_sublist _), fun g hg x hx => ?_⟩
      rintro rfl
      have hafter := (selectedGroups_sublist p.roleId).subset hx
      exact of_decide_eq_true (List.mem_filter.1 hg).2 hafter

/-- A group that the IdP has lost is in no exact write. -/
theorem RolePatch.Exact.lost {p : RolePatch} (h : p.Exact form before after) {g : String}
    (hbefore : g ∈ ids before) (hafter : g ∉ ids after) : g ∉ p.written := by
  rw [h.written, List.mem_append, not_or]
  refine ⟨fun hg => ?_, fun hg => hafter ((selectedGroups_sublist _).subset hg)⟩
  exact (of_decide_eq_true (List.mem_filter.1 hg).2).1 hbefore

end

/-! ## The law -/

/-- Every list of groups that an edit writes to a role is exact if and only if the role had no group
that the IdP has lost, and had no group from elsewhere twice. -/
theorem role_groups_exact {D : Driver} {token idpId : String} {form : Form}
    {w u : PortalWorld GroupsIs} {x : Except PortalExn Unit}
    (hrun : (groupsEnv D).Runs (applyIdpRoleGroupMappings token idpId form) w x u) :
    ∃ patches, u.is.patches = patches ++ w.is.patches ∧ ∀ p ∈ patches,
      (p.Exact form w.is.idpGroups u.is.idpGroups ↔ p.Clean w.is.idpGroups u.is.idpGroups) := by
  obtain ⟨hrenews, patches, hpatches, hall⟩ :=
    (applyIdpRoleGroupMappings_applied token idpId form).of_runs hrun
  exact ⟨patches, hpatches, fun p hp => exact_iff_clean hrenews (hall p hp)⟩

/-! ## An edit -/

/-- The groups of an IdP. -/
def oldGroups : List GroupRow := [⟨"staff", "1"⟩, ⟨"sales", "2"⟩]

/-- Its groups after the edit. -/
def newGroups : List GroupRow := [⟨"staff", "1"⟩, ⟨"support", "3"⟩]

/-- The form of the edit, which selects a new group for a role. -/
def groupsForm : Form := [("groups", "staff, support"), ("role_groups[r]", "support")]

/-- The groups of the example are renewed. -/
theorem newGroups_renews : Renews oldGroups (externalGroupNames groupsForm) newGroups := by
  have hnames : externalGroupNames groupsForm = newGroups.map GroupRow.name := by decide +kernel
  rw [hnames]
  exact ⟨fun _ => Iff.rfl, by decide, by decide, by decide, by decide, by decide⟩

/-- The portal and IS, with the groups that the role has. -/
def groupsWorld (current : List String) : PortalWorld GroupsIs where
  session := ⟨none, some "t", [], true, none, none, none⟩
  flashes := []
  db := .empty
  is := ⟨oldGroups, fun _ => current, []⟩

/-- What the edit writes to the role. -/
def groupsPatch (current : List String) : RolePatch :=
  ⟨"r", current, combinedGroups groupsForm (newGroups.map GroupRow.shown) "r" current⟩

/-- What is left after the edit. -/
def groupsAfter (current : List String) : PortalWorld GroupsIs :=
  { groupsWorld current with is := ⟨newGroups,
    Function.update (fun _ => current) "r" (groupsPatch current).written, [groupsPatch current]⟩ }

/-- The mapping of the example is a run. -/
theorem groups_run (current : List String) :
    (groupsEnv .sqlite).Runs (applyIdpRoleGroupMappings "t" "i" groupsForm) (groupsWorld current)
      (.ok ()) (groupsAfter current) := by
  refine ⟨_, _, .is (@GroupAnswers.putIdpGroups _ _ _ _ newGroups 200 (by decide) newGroups_renews),
    ?_⟩
  refine ⟨_, _, .is (@GroupAnswers.listRoles _ _ (some ⟨200, .roles [⟨"r", none⟩]⟩)), ?_⟩
  refine ⟨_, _, .is .getRole, ?_⟩
  refine ⟨_, _, .is (@GroupAnswers.replaceRoleGroups _ _ _ _ (some ⟨200, .other⟩) true), ?_⟩
  exact ⟨rfl, rfl⟩

/-- A role that keeps a group of the IdP, and one from elsewhere, is written exactly. -/
theorem role_groups_exact_staff :
    (groupsPatch ["1", "9"]).Exact groupsForm oldGroups newGroups := by
  obtain ⟨patches, hpatches, hall⟩ := role_groups_exact (groups_run ["1", "9"])
  have hpatches : [groupsPatch ["1", "9"]] = patches := hpatches.trans (List.append_nil patches)
  subst hpatches
  exact (hall _ (List.mem_singleton_self _)).2 ⟨by decide, by decide⟩

/-- A role keeps a group that the IdP has lost. -/
theorem lost_group_kept :
    ¬ ∀ (D : Driver) (token idpId : String) (form : Form) (w u : PortalWorld GroupsIs)
      (x : Except PortalExn Unit),
      (groupsEnv D).Runs (applyIdpRoleGroupMappings token idpId form) w x u →
      ∀ p ∈ u.is.patches, p ∉ w.is.patches → p.Exact form w.is.idpGroups u.is.idpGroups := by
  intro h
  have hexact := h _ _ _ _ _ _ _ (groups_run ["2", "9"]) _ (List.mem_singleton_self _)
    List.not_mem_nil
  exact absurd hexact.written (by decide)

end Teamspace.Webapp
