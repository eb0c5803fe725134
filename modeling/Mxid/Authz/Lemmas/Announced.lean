import Mxid.Authz.Lemmas.Invalidation

namespace Mxid.Authz

open List ProviderQuery Access Table Mxid.Group

variable {db db' : Tables} {o : Outcome} {tenantID userID : Int}

theorem owned_delete (howned : db.access.Owned) (p : Access.RoleBinding → Bool) :
    Access.DB.Owned { db.access with roleBindings := db.access.roleBindings.delete p } :=
  howned.of_subset (fun r hr => ⟨r, hr, rfl, rfl, rfl⟩) (fun _ hb => mem_of_mem_filter hb)

section Heard

variable {reading : Org.SubstringFrom} {serviceTenantID : Int} {op : Op}

theorem Handled.createRequest {dir : Access.Directory} {tenantID' requesterID id : Int}
    {req : Access.CreateAccessRequest} (howned : db.access.Owned) (hop : op.announced tenantID = true) :
    Handled op tenantID userID db ((createRequest db dir tenantID' requesterID id req).getD (.failed db)) := by
  unfold Authz.createRequest
  split
  . exact .failed howned
  next row hrow =>
  split
  . exact .failed howned
  next requests hinsert =>
  rcases createRequest_eq_ok hrow with ⟨_, _, _, _, _, _, _, _, _, hfiled⟩
  refine .heard ?_ (Or.inr (.of_roleBindings rfl)) hop
  intro r hr b hb hnames
  rcases (mem_of_insert? hinsert).mp hr with rfl | hold
  . have hid := hnames.2
    rw [← hfiled] at hid
    contradiction
  . exact howned r hold b hb hnames

theorem run_handled (howned : db.access.Owned) : Handled op tenantID userID db (run db reading serviceTenantID op) := by
  have haccess : ∀ {now bindingID : Int} {result : Except Access.AccessError Access.Call},
      (∀ call access, result = .ok call → call.write db.access now bindingID = some access →
        Handled op tenantID userID db ⟨{ db with access }, accessEvents call, accessInvalidations call⟩) →
      Handled op tenantID userID db ((accessOutcome db now bindingID result).getD (.failed db)) := by
    intro now bindingID result hresult
    unfold accessOutcome
    split
    . exact .failed howned
    next call =>
    split
    . exact .failed howned
    . next access hwrite => exact hresult call access rfl hwrite
  have hok : ∀ {ε : Type} {result : Except ε Outcome}, (∀ o, result = .ok o → Handled op tenantID userID db o) →
      Handled op tenantID userID db (.ofExcept db result) := by
    intro ε result hresult
    cases result with
    | error => exact .failed howned
    | ok o => exact hresult o rfl
  cases op with
  | createRole tenantID' =>
    unfold run createRole
    dsimp only
    generalize (if tenantID' = 0 then serviceTenantID else tenantID') = roleTenantID
    split
    . exact .failed howned
    split
    . exact .failed howned
    . exact .heard howned (Or.inl rfl) rfl
  | updateRole =>
    unfold run updateRole
    dsimp only
    split
    . exact .failed howned
    . exact .heard howned (Or.inl rfl) rfl
  | deleteRole =>
    unfold run deleteRole
    dsimp only
    split
    . exact .failed howned
    split
    . exact .failed howned
    . exact .heard (owned_delete howned _) (Or.inl rfl) rfl
  | setRolePermissions =>
    unfold run setPermissions
    dsimp only
    split
    . exact .failed howned
    . exact .heard howned (Or.inl rfl) rfl
  | addRoleMember =>
    exact hok (fun _ ho => .addRoleMember howned
      (fun hfresh r hr => of_decide_eq_true (all_eq_true.mp hfresh r hr)) rfl ho)
  | removeRoleMember =>
    unfold run removeRoleMember
    dsimp only
    split
    . exact .failed howned
    split
    . split
      . exact .failed howned
      . next hset => exact .superAdmin howned rfl hset
    split
    . exact .heard (owned_delete howned _) (Or.inl rfl) rfl
    . exact .failed howned
  | setSuperAdmin => exact hok (fun _ ho => .superAdmin howned rfl ho)
  | deleteUser =>
    unfold run deleteUser
    dsimp only
    split
    . exact .failed howned
    next u hu =>
    rcases getByID_eq_some hu with ⟨hmem, hid, _⟩
    exact .user (owned_delete howned _) (Or.inl rfl) rfl rfl ⟨u, hmem, hid⟩ rfl sameFor_deleteUser
  | restoreUser =>
    unfold run restoreUser
    dsimp only
    split
    . exact .failed howned
    next users husers =>
    rcases restore_eq_some husers with ⟨hid, hothers⟩
    refine .user howned (Or.inr rfl) rfl rfl hid rfl ?_
    intro hne
    refine ⟨rfl, ?_, fun _ => Iff.rfl, fun _ => Iff.rfl, fun _ _ _ => Iff.rfl⟩
    exact isSuperAdmin_congr rfl (fun u hu => hothers u (hu.trans_ne hne))
  | addGroupMember => exact .groupMembers howned (Or.inl rfl) rfl (fun _ _ => addMember_announced)
  | addGroupMembers => exact .groupMembers howned (Or.inl rfl) rfl (fun _ _ => addMembers_announced)
  | removeGroupMember => exact .groupMembers howned (Or.inr rfl) rfl (fun _ _ => removeMember_announced)
  | removeGroupMembers => exact .groupMembers howned (Or.inr rfl) rfl (fun _ _ => removeMembers_announced)
  | deleteGroup =>
    unfold run Group.delete
    dsimp only
    split
    . exact .unheard howned rfl rfl
    split
    . exact .failed howned
    . exact .unheard howned rfl rfl
  | upsertRule =>
    unfold run upsertRule
    dsimp only
    split
    . exact .unheard howned rfl rfl
    split
    . exact .unheard howned rfl rfl
    . exact .unheard howned rfl rfl
  | syncRule =>
    unfold run syncRuleAndPublish
    dsimp only
    split
    . exact .unheard howned rfl rfl
    split
    . exact .unheard howned rfl rfl
    . exact .unheard howned rfl rfl
  | deleteRule =>
    unfold run deleteRule
    dsimp only
    split
    . exact .failed howned
    . exact .unheard howned rfl rfl
  | resyncTenantDynamicGroups => exact .unheard howned rfl rfl
  | addOrgMember =>
    refine .orgMember howned (Or.inl rfl) ?_ ?_
    . intro org hadd
      rcases Org.addMember_eq_ok hadd with ⟨_, _, _, _, hinsert, horgs, husers⟩
      refine ⟨horgs, husers, fun uo hne => ?_⟩
      rw [mem_of_insert? hinsert]
      apply or_iff_right
      rintro rfl
      exact hne rfl
    . intro org hadd
      rcases Org.addMember_eq_ok hadd with ⟨_, u, _, hu, _⟩
      rcases getByID_eq_some hu with ⟨hmem, hid, _⟩
      have hpos := db.org.users.id_pos u hmem
      simp only [Op.announced, decide_eq_true_eq]
      omega
  | removeOrgMember =>
    refine .orgMember howned (Or.inr rfl) ?_ (fun _ _ => by simp [Op.announced])
    intro org hremove
    rcases Org.removeMember_eq_ok hremove with ⟨hmem, horgs, husers⟩
    refine ⟨horgs, husers, fun uo hne => ?_⟩
    rw [hmem]
    exact and_iff_left (fun h => hne h.1)
  | moveOrg =>
    unfold run orgOutcome
    dsimp only
    split
    . exact .failed howned
    . exact .unheard howned rfl rfl
  | deleteOrg =>
    unfold run orgOutcome
    dsimp only
    split
    . exact .failed howned
    . exact .heard howned (Or.inl rfl) rfl
  | createRequest => exact .createRequest howned rfl
  | approve =>
    apply haccess
    intro call access hcall hwrite
    rcases approve_eq_ok hcall with ⟨req, _, hreq, _, _, _, _, rfl⟩
    obtain rfl := (Access.DB.getRequest_eq_some hreq).2.2
    refine .access howned (mem_of_getRequest hreq) hwrite rfl ?_ rfl
    intro hfresh _ _ _ _ r hr
    exact of_decide_eq_true (all_eq_true.mp hfresh r hr)
  | reject =>
    apply haccess
    intro call access hcall hwrite
    rcases reject_eq_ok hcall with ⟨req, hreq, _, rfl⟩
    have howned' := Access.Call.write_owned howned (mem_of_getRequest hreq) (by simp) hwrite
    cases hwrite
    exact .heard howned' (Or.inr (.of_roleBindings rfl)) rfl
  | cancel =>
    apply haccess
    intro call access hcall hwrite
    rcases cancel_eq_ok hcall with ⟨req, hreq, _, rfl⟩
    have howned' := Access.Call.write_owned howned (mem_of_getRequest hreq) (by simp) hwrite
    cases hwrite
    exact .heard howned' (Or.inr (.of_roleBindings rfl)) rfl
  | revoke =>
    apply haccess
    intro call access hcall hwrite
    rcases revoke_eq_ok hcall with ⟨req, hreq, _, rfl⟩
    obtain rfl := (Access.DB.getRequest_eq_some hreq).2.2
    exact .access howned (mem_of_getRequest hreq) hwrite rfl (fun _ _ _ _ h => nomatch h) rfl
  | expire =>
    unfold run
    dsimp only
    split
    . next hdue =>
      apply haccess
      intro call access hcall hwrite
      cases hcall
      exact .access howned (mem_of_mem_filter hdue) hwrite rfl (fun _ _ _ _ h => nomatch h) rfl
    . exact .failed howned

theorem step_owned {a : Action} (howned : db.access.Owned)
    (h : step reading serviceTenantID db a = some db') : db'.access.Owned := by
  cases a with
  | op op =>
    unfold step at h
    dsimp only at h
    split at h
    . next hfresh =>
      cases h
      have hhandled : Handled op 0 0 db (run db reading serviceTenantID op) := run_handled howned
      exact hhandled.owned hfresh
    . contradiction
  | other =>
    cases h
    exact howned

theorem invalidates_iff_announced {db₀ : Tables} {acts : List Action} (hinit : db₀.access.requests.rows = [])
    (hrun : Run (step reading serviceTenantID) (fun _ _ => True) db₀ acts db) (op : Op) (now : Int)
    (haltered : (run db reading serviceTenantID op).db.effectiveBindingsForUser now tenantID userID
      ≠ db.effectiveBindingsForUser now tenantID userID) :
    (run db reading serviceTenantID op).invalidates tenantID userID = true ↔ op.announced tenantID = true := by
  have hhandled : Handled op tenantID userID db (run db reading serviceTenantID op) := by
    apply run_handled
    apply hrun.invariant (I := fun db => db.access.Owned)
    . intro r hr
      rw [hinit] at hr
      contradiction
    . intro _ _ _ howned _ hstep
      exact step_owned howned hstep
  constructor
  . exact hhandled.announced
  intro hannounced
  rcases hhandled.covers hannounced with hheard | hsame
  . exact hheard
  . exact absurd (hsame.effectiveBindingsForUser now) haltered

end Heard

namespace Tables

variable {failing : ProviderQuery → Bool} {now : Int}

theorem resolveBindings_eq (db : Tables) (failing : ProviderQuery → Bool) (now tenantID userID : Int) :
    db.resolveBindings failing now tenantID userID
      =
    if failing .superAdmin then
      none
    else if db.isSuperAdmin tenantID userID then
      some {superAdminBinding userID}
    else if failing .bindings then
      none
    else
      some ((db.access.roleBindings.rows.filter (fun b => db.joins now tenantID b
          && isSubjectOf (groups.orNil failing (db.groupIDs tenantID userID))
            (orgs.orNil failing (db.org.ancestorIDsForUser tenantID userID)) userID b)).map
        (resolve (fun roleID => permissions.orNil failing (db.catalog.codesByRole roleID)))).toFinset := by
  unfold resolveBindings ask
  cases failing .superAdmin <;> cases db.isSuperAdmin tenantID userID <;> cases failing .bindings <;> rfl

/--
The groups and the organizations are read if the binding is found through them.
-/
def Found (failing : ProviderQuery → Bool) (b : Access.RoleBinding) : Prop :=
  (b.subjectType = .group → failing .groups = false) ∧ (b.subjectType = .org → failing .orgs = false)

theorem isSubjectOf_orNil {groupIDs orgIDs : List Int} {b : Access.RoleBinding} :
    isSubjectOf (groups.orNil failing groupIDs) (orgs.orNil failing orgIDs) userID b = true
      ↔
    isSubjectOf groupIDs orgIDs userID b = true ∧ Found failing b := by
  unfold isSubjectOf Found orNil
  cases b.subjectType <;> cases failing .groups <;> cases failing .orgs <;> simp

theorem Found.of_source {b b' : Access.RoleBinding} (h : source b'.subjectType = source b.subjectType)
    (hfound : Found failing b') : Found failing b := by
  unfold Found at *
  cases htype : b.subjectType <;> cases htype' : b'.subjectType <;> simp_all [source]

theorem permissions_orNil_eq_self_iff {codes : List Code} :
    permissions.orNil failing codes = codes ↔ codes ≠ [] → failing .permissions = false := by
  unfold orNil
  cases failing .permissions <;> simp [eq_comm]

theorem resolveBindings_whole_iff :
    (db.resolveBindings failing now tenantID userID = none
        ∨ db.resolveBindings failing now tenantID userID = some (db.effectiveBindingsForUser now tenantID userID))
      ↔
    (failing .superAdmin = false → db.isSuperAdmin tenantID userID = false → failing .bindings = false →
      ∀ b ∈ db.access.roleBindings.rows, db.selects now tenantID userID b = true →
        Found failing b ∧ (db.catalog.codesByRole b.roleID ≠ [] → failing .permissions = false)) := by
  rw [resolveBindings_eq, effectiveBindingsForUser_eq]
  cases hflag : failing .superAdmin with
  | true => simp
  | false =>
  cases hsuper : db.isSuperAdmin tenantID userID with
  | true => simp
  | false =>
  cases hrows : failing .bindings with
  | true => simp
  | false =>
  simp only [Bool.false_eq_true, if_false, reduceCtorEq, false_or, Option.some.injEq, forall_const]
  constructor
  . intro hsame b hb hselects
    have hmem : resolve db.catalog.codesByRole b ∈ ((db.access.roleBindings.rows.filter
        (db.selects now tenantID userID)).map (resolve db.catalog.codesByRole)).toFinset :=
      mem_toFinset.mpr (mem_map.mpr ⟨b, mem_filter.mpr ⟨hb, hselects⟩, rfl⟩)
    rw [← hsame, mem_toFinset, mem_map] at hmem
    rcases hmem with ⟨b', hb', heq⟩
    rw [mem_filter, Bool.and_eq_true, isSubjectOf_orNil] at hb'
    have hrole : b'.roleID = b.roleID := congrArg ResolvedBinding.roleID heq
    have hcodes := congrArg ResolvedBinding.permissions heq
    simp only [resolve, hrole] at hcodes
    exact ⟨hb'.2.2.2.of_source (congrArg ResolvedBinding.source heq), permissions_orNil_eq_self_iff.mp hcodes⟩
  . intro hfound
    have hselects : ∀ b ∈ db.access.roleBindings.rows, (db.joins now tenantID b
        && isSubjectOf (groups.orNil failing (db.groupIDs tenantID userID))
          (orgs.orNil failing (db.org.ancestorIDsForUser tenantID userID)) userID b)
        = db.selects now tenantID userID b := by
      intro b hb
      rw [Bool.eq_iff_iff, Bool.and_eq_true, isSubjectOf_orNil, ← and_assoc, ← Bool.and_eq_true]
      exact and_iff_left_of_imp (fun h => (hfound b hb h).1)
    rw [filter_congr hselects]
    congr 1
    apply map_congr_left
    intro b hb
    have hb' := hfound b (mem_filter.mp hb).1 (mem_filter.mp hb).2
    rw [resolve, permissions_orNil_eq_self_iff.mpr hb'.2, resolve]

end Tables

variable (db tenantID userID) in
/--
Either the call fails, or the user is a super admin, or the queries whose errors are dropped have nothing to say about
the bindings of the user when they fail.
-/
theorem bindings_closed_and_whole (failing : ProviderQuery → Bool) (now : Int) :
    let whole := some (db.effectiveBindingsForUser now tenantID userID)
    let inner := db.resolveBindings failing now tenantID userID
    ((inner = none ∨ inner = whole)
        ∧ ∀ l1 l2, (∀ v, l1 = some v ∨ l2 = some v → some v = whole) →
          ∀ v, (cachedBindings l1 l2 inner).2 = some v → some v = whole)
      ↔
    (failing .superAdmin = false → db.isSuperAdmin tenantID userID = false → failing .bindings = false →
      ∀ b ∈ db.access.roleBindings.rows, db.selects now tenantID userID b = true →
        Tables.Found failing b ∧ (db.catalog.codesByRole b.roleID ≠ [] → failing .permissions = false)) := by
  intro whole inner
  rw [← Tables.resolveBindings_whole_iff]
  refine and_iff_left_of_imp ?_
  intro hinner l1 l2 hcached v hstored
  cases l1 with
  | some => cases hstored
  | none =>
    cases l2 with
    | some v' =>
      cases hstored
      exact hcached v (.inr rfl)
    | none =>
      cases hv : inner with
      | none =>
        rw [hv] at hstored
        cases hstored
      | some v' =>
        rw [hv] at hstored
        cases hstored
        exact hv.symm.trans (hinner.resolve_left (by rw [hv]; exact nofun))

/-!
In tenant 1 the users 8 and 9 are super admins, 9 of them deleted, and user 7 is nobody. A role is bound to the
groups 20 and 21 and to the organization 30. User 7 is in group 20 and in the organization 31, and meets the rule of
group 21.
-/

namespace Cached

def users : Table User.id :=
  empty.insertIgnore
    [⟨7, 1, "ann", none, none, none, "", User.statusActive, false⟩,
     ⟨8, 1, "bob", none, none, none, "", User.statusActive, false⟩,
     ⟨9, 1, "eve", none, none, none, "", User.statusActive, true⟩]

def orgs : Table Mxid.Organization.id :=
  empty.insertIgnore
    [⟨30, 1, "A", ['a'], none, ⟨['a'], by decide⟩, 0, 1, false⟩,
      ⟨31, 1, "B", ['b'], none, ⟨['b'], by decide⟩, 0, 1, false⟩]

def userOrgs : Table Org.UserOrg.id := empty.insertIgnore [⟨1, 7, 31, true, 0⟩]

def groups : Table Group.UserGroup.id :=
  empty.insertIgnore
    [⟨20, 1, "staff", "staff", .static, false⟩, ⟨21, 1, "annes", "annes", .dynamic, false⟩]

def members : Table Group.UserGroupMember.key := empty.insertIgnore [⟨20, 7⟩]

def rules : Table Group.UserGroupRule.groupID :=
  empty.insertIgnore [⟨21, some [.text .username .eq "ann"], .enabled⟩]

def roles : Table Role.id := empty.insertIgnore [⟨40, 1, "auditor", false⟩]

def roleBindings : Table Access.RoleBinding.id :=
  empty.insertIgnore
    [⟨1, 40, .group, 20, none, none, none, none, 1⟩, ⟨2, 40, .group, 21, none, none, none, none, 1⟩,
     ⟨3, 40, .org, 30, none, none, none, none, 1⟩]

def tables : Tables where
  org := ⟨orgs, userOrgs, ⟨users, by decide⟩⟩
  superAdmins := [8, 9]
  group := ⟨groups, members, rules, .empty⟩
  catalog := ⟨roles, .empty, [], fun _ h => absurd h not_mem_nil⟩
  systemRoles := []
  access := ⟨.empty, .empty, roleBindings, .empty⟩

abbrev run (op : Op) : Outcome := Authz.run tables .position 1 op

def Unheard (op : Op) (userID : Int) : Prop :=
  (run op).db.effectiveBindingsForUser 0 1 userID ≠ tables.effectiveBindingsForUser 0 1 userID
    ∧ (run op).invalidates 1 userID = false

instance (op : Op) (userID : Int) : Decidable (Unheard op userID) := inferInstanceAs (Decidable (_ ∧ _))

/--
Deleting a group, synchronizing a group with its rule, moving an organization, and deleting and restoring a super
admin all go by unheard.
-/
theorem operations_unheard :
    Unheard (.deleteGroup 1 20 true) 7 ∧ Unheard (.syncRule .none 1 21) 7
      ∧ Unheard (.resyncTenantDynamicGroups (fun _ => .none) 1) 7 ∧ Unheard (.moveOrg 1 31 (some 30)) 7
      ∧ Unheard (.deleteUser 1 8 ⟨true, true, true⟩) 8 ∧ Unheard (.restoreUser 1 9) 9 := by
  decide

theorem removeGroupMember_heard : (run (.removeGroupMember 1 20 7)).invalidates 1 7 = true :=
  (invalidates_iff_announced rfl .nil (.removeGroupMember 1 20 7) 0 (by decide)).mpr rfl

theorem groups_failing_unnoticed :
    tables.resolveBindings (· = .groups) 0 1 7 = some ∅ ∧ tables.effectiveBindingsForUser 0 1 7 ≠ ∅
      ∧ (cachedBindings none none (tables.resolveBindings (· = .groups) 0 1 7)).2 = some ∅ := by
  decide

theorem bindings_failing_closed :
    tables.resolveBindings (· = .bindings) 0 1 7 = none
      ∨ tables.resolveBindings (· = .bindings) 0 1 7 = some (tables.effectiveBindingsForUser 0 1 7) :=
  ((bindings_closed_and_whole tables 1 7 (· = .bindings) 0).mpr (fun _ _ => nofun)).1

end Cached

end Mxid.Authz
