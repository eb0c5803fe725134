import Mxid.Authz.Impl.Edit
import Mxid.Authz.Lemmas.Assign

namespace Mxid.Authz

open List Catalog EffectiveBinding Service

section Engine

variable {d : Directory} {enforcer : Bool} {tenantID : Int} {perm : Code}

theorem Directory.mem_policies_iff {roleID : Int} {code : Code} :
    ({ subject := .role roleID, tenantID := tenantID, permission := code } : RolePolicy) ∈ d.policies.policies
      ↔
    code ≠ "" ∧ code ∈ d.catalog.codesByRole roleID
      ∧ ∃ role ∈ d.catalog.roles.rows, role.id = roleID ∧ role.tenantID = tenantID ∧ role.deleted = false := by
  unfold policies replacePolicies grants
  rw [mem_append, mem_filter, mem_codesByRole]
  simp only [mem_flatMap, mem_filter, mem_map, decide_eq_true_eq, RolePolicy.mk.injEq,
    RoleSubject.role.injEq, reduceCtorEq, false_and, and_false, exists_false, or_false]
  constructor
  . rintro ⟨⟨rp, hrp, role, ⟨hrole, hid, hlive⟩, p, ⟨hp, hpid⟩, hroleID, htenant, hcode⟩, hne⟩
    exact ⟨hne, ⟨rp, hrp, hroleID, p, hp, hpid, hcode⟩, role, hrole, hid.trans hroleID, htenant, hlive⟩
  . rintro ⟨hne, ⟨rp, hrp, hroleID, p, hp, hpid, hcode⟩, role, hrole, hid, htenant, hlive⟩
    exact ⟨⟨rp, hrp, role, ⟨hrole, hid.trans hroleID.symm, hlive⟩, p, ⟨hp, hpid⟩, hroleID, htenant, hcode⟩, hne⟩

variable {row : BindingRow}

theorem Catalog.joins_eq_true_iff {cat : Catalog} :
    cat.joins tenantID row = true
      ↔
    ∃ role ∈ cat.roles.rows, role.id = row.roleID ∧ role.tenantID = tenantID ∧ role.deleted = false := by
  unfold joins
  rw [Option.any_eq_true]
  simp only [cat.roles.find?_eq_some_iff, decide_eq_true_eq, and_assoc]

theorem hasPermission_eq_true_iff {set : List Code} : hasPermission set perm = true ↔ wildcard ∈ set ∨ perm ∈ set := by
  simp [hasPermission]

theorem Directory.roleHasPermission_eq (hjoins : d.catalog.joins tenantID row = true) (hperm : perm ≠ "") :
    d.policies.roleHasPermission tenantID (.role row.roleID) perm
      =
    hasPermission (d.catalog.codesByRole row.roleID) perm := by
  have hrole := joins_eq_true_iff.mp hjoins
  rw [Bool.eq_iff_iff, hasPermission_eq_true_iff]
  unfold CasbinEngine.roleHasPermission
  rw [any_eq_true]
  constructor
  . rintro ⟨⟨subject, t, code⟩, hmem, hmatch⟩
    rw [decide_eq_true_eq] at hmatch
    rcases hmatch with ⟨rfl, rfl, rfl | rfl⟩
    . exact .inr (mem_policies_iff.mp hmem).2.1
    . exact .inl (mem_policies_iff.mp hmem).2.1
  . rintro (hcode | hcode)
    . exact ⟨_, mem_policies_iff.mpr ⟨by decide, hcode, hrole⟩, by simp⟩
    . exact ⟨_, mem_policies_iff.mpr ⟨hperm, hcode, hrole⟩, by simp⟩

theorem Directory.effectiveBindings_service {userID : Int} :
    (d.service enforcer).effectiveBindings tenantID userID
      =
    (d.holdings tenantID userID).map (Holding.effectiveBindings d.catalog tenantID) := by
  rfl

end Engine

section Stored

variable {cat cat' : Catalog} {tenantID roleID : Int} {permIDs : List Int}

def Catalog.requested (cat : Catalog) (permIDs : List Int) : List Code :=
  (cat.permissions.rows.filter (fun p => p.id ∈ permIDs)).map Permission.code

theorem Catalog.mem_requested {code : Code} :
    code ∈ cat.requested permIDs ↔ ∃ p ∈ cat.permissions.rows, p.id ∈ permIDs ∧ p.code = code := by
  simp [requested, and_assoc]

section

variable (h : setRolePermissions cat tenantID roleID permIDs = .ok cat')

include h

theorem setRolePermissions_eq_ok :
    cat'.roles = cat.roles ∧ cat'.permissions = cat.permissions
      ∧ cat'.rolePermissions = cat.replaced roleID permIDs
      ∧ (∃ role, cat.getRoleByID tenantID roleID = some role)
      ∧ ∃ perms, cat.getPermissionsByIDs tenantID permIDs = some perms ∧ perms.length = permIDs.length := by
  unfold setRolePermissions at h
  split at h
  . contradiction
  next role hrole =>
  split at h
  . contradiction
  next perms hperms =>
  split at h
  . next hlength =>
    cases h
    exact ⟨rfl, rfl, rfl, ⟨role, hrole⟩, perms, hperms, hlength⟩
  . contradiction

theorem mem_codesByRole_stored {code : Code} : code ∈ cat'.codesByRole roleID ↔ code ∈ cat.requested permIDs := by
  rcases setRolePermissions_eq_ok h with ⟨_, hpermissions, hreplaced, _⟩
  rw [mem_codesByRole, mem_requested, hpermissions, hreplaced]
  unfold replaced
  constructor
  . rintro ⟨rp, hrp, hroleID, p, hp, hpid, hcode⟩
    rcases mem_append.mp hrp with hrp | hrp
    . rw [mem_filter, decide_eq_true_eq] at hrp
      exact absurd hroleID hrp.2
    . rcases mem_map.mp hrp with ⟨id, hid, rfl⟩
      exact ⟨p, hp, by rw [hpid]; exact hid, hcode⟩
  . rintro ⟨p, hp, hpid, hcode⟩
    refine ⟨⟨roleID, p.id⟩, mem_append_right _ (mem_map.mpr ⟨p.id, hpid, rfl⟩), rfl, p, hp, rfl, hcode⟩

theorem codesByRole_stored_of_ne {roleID' : Int}
    (hne : roleID' ≠ roleID) : cat'.codesByRole roleID' = cat.codesByRole roleID' := by
  rcases setRolePermissions_eq_ok h with ⟨_, hpermissions, hreplaced, _⟩
  have hkept : ∀ rp : RolePermission, (rp.roleID = roleID' ∧ rp.roleID ≠ roleID) ↔ rp.roleID = roleID' := by
    intro rp
    constructor
    . intro h
      exact h.1
    . rintro rfl
      exact ⟨rfl, hne⟩
  have hnew : (permIDs.map (fun id => (⟨roleID, id⟩ : RolePermission))).filter
      (fun rp => rp.roleID = roleID') = [] := by
    rw [filter_eq_nil_iff]
    intro rp hrp
    rcases mem_map.mp hrp with ⟨id, _, rfl⟩
    simpa using hne.symm
  unfold codesByRole
  rw [hpermissions, hreplaced, replaced, filter_append, hnew, append_nil, filter_filter]
  simp only [← Bool.decide_and, hkept]

end

end Stored

section Guard

variable {cat cat' : Catalog} {s : Service} {tenantID callerID roleID : Int} {permIDs : List Int}

theorem checkSetPermissionsAllowed_eq_ok_iff :
    checkSetPermissionsAllowed cat (some s) tenantID callerID roleID permIDs = .ok ()
      ↔
    callerID ≠ 0 ∧ ∃ callerPerms, s.permissionsForUser tenantID callerID = some callerPerms
      ∧ (wildcard ∈ callerPerms
        ∨ ¬cat.IsSuperAdmin tenantID roleID
          ∧ ∃ perms, cat.getPermissionsByIDs tenantID permIDs = some perms
            ∧ ∀ p ∈ perms, p.code ∈ callerPerms) := by
  unfold checkSetPermissionsAllowed
  rw [checkCaller_eq_ok_iff]
  cases cat.getPermissionsByIDs tenantID permIDs with
  | none => simp
  | some => simp [checkSubset_eq_ok_iff]

theorem forall_perms_iff (h : setRolePermissions cat tenantID roleID permIDs = .ok cat') {P : Code → Prop} :
    (∃ perms, cat.getPermissionsByIDs tenantID permIDs = some perms ∧ ∀ p ∈ perms, P p.code)
      ↔
    ∀ code ∈ cat.requested permIDs, P code := by
  rcases setRolePermissions_eq_ok h with ⟨_, _, _, _, perms, hperms, hlength⟩
  have hfound := cat.forall_found hperms hlength
  have hmem : ∀ p, p ∈ perms ↔ p ∈ cat.permissions.rows ∧ p.id ∈ permIDs := by
    intro p
    unfold getPermissionsByIDs at hperms
    split at hperms
    . next hnil =>
      cases hperms
      simp [hnil]
    split at hperms
    . contradiction
    cases hperms
    rw [mem_filter, decide_eq_true_eq]
    constructor
    . rintro ⟨hp, hid, _⟩
      exact ⟨hp, hid⟩
    . rintro ⟨hp, hid⟩
      rcases hfound p.id hid with ⟨p', hp', hid', htenant⟩
      rw [cat.permissions.eq_of_key_eq hp' hp hid'] at htenant
      exact ⟨hp, hid, htenant⟩
  rw [hperms]
  simp only [Option.some.injEq, exists_eq_left', hmem, mem_requested]
  constructor
  . rintro hall code ⟨p, hp, hid, rfl⟩
    exact hall p ⟨hp, hid⟩
  . rintro hall p ⟨hp, hid⟩
    exact hall p.code ⟨p, hp, hid, rfl⟩

end Guard

section Escalation

variable {d : Directory} {enforcer : Bool} {now tenantID callerID userID roleID : Int} {permIDs : List Int}
variable {cat' : Catalog} {perm : Code} {target : Option ScopeTarget}

def Directory.withCatalog (d : Directory) (cat' : Catalog) (h : cat'.roles = d.catalog.roles) : Directory where
  catalog := cat'
  role_id_pos := by
    rw [h]
    exact d.role_id_pos
  holdings := d.holdings
  orgTree := d.orgTree
  superTenants := d.superTenants
  super_mem := d.super_mem

def BindingRow.expired (row : BindingRow) (now : Int) : Bool :=
  match row.expiresAt with
  | some expiresAt => expiresAt < now
  | none => false

def Directory.RowBacked (d : Directory) (enforcer : Bool) (now tenantID : Int) (caller holder : Holding)
    (row : BindingRow) (perm : Code) : Prop :=
  ∃ b ∈ holder.effectiveBindings d.catalog tenantID ++ caller.effectiveBindings d.catalog tenantID,
    (d.service enforcer).Grants now tenantID perm b ∧ b.scope.contains d.orgTree row.scope = true

/--
When editing is safe for a caller. Either the guard refuses, as the caller has no wildcard and the role is
for super admins or a code is requested that the caller does not have at all; or for every live binding of
the role to somebody who is not a super admin all that the requested codes grant is backed.
-/
def Directory.EditSafe (d : Directory) (enforcer : Bool) (now tenantID roleID : Int) (permIDs : List Int)
    (caller : Holding) : Prop :=
  (wildcard ∉ (caller.effectiveBindings d.catalog tenantID).flatMap permissions
      ∧ (d.catalog.IsSuperAdmin tenantID roleID
        ∨ ∃ code ∈ d.catalog.requested permIDs,
            code ∉ (caller.effectiveBindings d.catalog tenantID).flatMap permissions))
    ∨ ∀ perm, perm ≠ "" → hasPermission (d.catalog.requested permIDs) perm = true →
        ∀ userID holder, d.holdings tenantID userID = some holder → holder.superAdmin = false →
          ∀ row ∈ holder.rows, row.roleID = roleID → row.expired now = false →
            d.RowBacked enforcer now tenantID caller holder row perm

theorem Directory.check_service_iff {h : Holding} (hholding : d.holdings tenantID userID = some h) :
    (d.service enforcer).check now tenantID userID perm target = .ok true
      ↔
    perm ≠ "" ∧ ∃ b ∈ h.effectiveBindings d.catalog tenantID,
      (d.service enforcer).Grants now tenantID perm b ∧ b.scope.covers d.orgTree target = true := by
  apply check_eq_ok_true_iff
  rw [effectiveBindings_service, hholding]
  rfl

theorem Directory.grants_row_iff {row : BindingRow} (hjoins : d.catalog.joins tenantID row = true) (hperm : perm ≠ "") :
    (d.service enforcer).Grants now tenantID perm (row.effective d.catalog)
      ↔
    row.expired now = false ∧ hasPermission (d.catalog.codesByRole row.roleID) perm = true := by
  unfold Service.Grants
  cases enforcer with
  | false => rfl
  | true =>
    rcases joins_eq_true_iff.mp hjoins with ⟨role, hrole, hid, _⟩
    have hpos : row.roleID ≠ 0 := by
      have := d.role_id_pos role hrole
      omega
    have hsubject : bindingRoleSubject (row.effective d.catalog) = .role row.roleID := by
      unfold bindingRoleSubject
      rw [if_neg (fun h => hpos h.1)]
      rfl
    unfold service bindingGrantsPerm
    simp only [if_true, hsubject]
    rw [roleHasPermission_eq hjoins hperm]
    rfl

theorem Directory.check_rows_iff {h : Holding} (hholding : d.holdings tenantID userID = some h)
    (hsuper : h.superAdmin = false) :
    (d.service enforcer).check now tenantID userID perm target = .ok true
      ↔
    perm ≠ "" ∧ ∃ row ∈ h.rows, d.catalog.joins tenantID row = true ∧ row.expired now = false
      ∧ hasPermission (d.catalog.codesByRole row.roleID) perm = true
      ∧ row.scope.covers d.orgTree target = true := by
  rw [check_service_iff hholding]
  apply and_congr_right
  intro hperm
  unfold Holding.effectiveBindings
  rw [if_neg (by simp [hsuper])]
  constructor
  . rintro ⟨b, hb, hgrants, hcovers⟩
    rcases mem_map.mp hb with ⟨row, hrow, rfl⟩
    rw [mem_filter] at hrow
    rw [grants_row_iff hrow.2 hperm] at hgrants
    exact ⟨row, hrow.1, hrow.2, hgrants.1, hgrants.2, hcovers⟩
  . rintro ⟨row, hrow, hjoins, hlive, hcode, hcovers⟩
    refine ⟨row.effective d.catalog, mem_map.mpr ⟨row, mem_filter.mpr ⟨hrow, hjoins⟩, rfl⟩, ?_, hcovers⟩
    rw [grants_row_iff hjoins hperm]
    exact ⟨hlive, hcode⟩

theorem Directory.check_super {h : Holding} (hholding : d.holdings tenantID userID = some h)
    (hsuper : h.superAdmin = true) (hperm : perm ≠ "") :
    (d.service enforcer).check now tenantID userID perm target = .ok true := by
  rw [check_service_iff hholding]
  refine ⟨hperm, ⟨0, [wildcard], .global, none⟩, ?_, ⟨rfl, ?_⟩, rfl⟩
  . unfold Holding.effectiveBindings
    rw [if_pos hsuper]
    apply mem_singleton_self
  cases enforcer with
  | false => rfl
  | true =>
    have hpolicy : (⟨.superAdmin, tenantID, wildcard⟩ : RolePolicy) ∈ d.policies.policies := by
      apply mem_append_right
      exact mem_map.mpr ⟨tenantID, d.super_mem tenantID userID h hholding hsuper, rfl⟩
    apply any_eq_true.mpr ⟨_, hpolicy, ?_⟩
    simp [bindingRoleSubject]

theorem Directory.guard_eq_ok_iff (hstored : setRolePermissions d.catalog tenantID roleID permIDs = .ok cat')
    (hcaller : callerID ≠ 0) {caller : Holding} (hholding : d.holdings tenantID callerID = some caller) :
    checkSetPermissionsAllowed d.catalog (some (d.service enforcer)) tenantID callerID roleID permIDs = .ok ()
      ↔
    wildcard ∈ (caller.effectiveBindings d.catalog tenantID).flatMap permissions
      ∨ ¬d.catalog.IsSuperAdmin tenantID roleID
        ∧ ∀ code ∈ d.catalog.requested permIDs,
            code ∈ (caller.effectiveBindings d.catalog tenantID).flatMap permissions := by
  have hperms : (d.service enforcer).permissionsForUser tenantID callerID
      = some ((caller.effectiveBindings d.catalog tenantID).flatMap permissions) := by
    apply permissionsForUser_eq
    rw [effectiveBindings_service, hholding]
    rfl
  rw [checkSetPermissionsAllowed_eq_ok_iff, hperms, ← forall_perms_iff hstored]
  simp [hcaller]

theorem Directory.no_gain_iff (hstored : setRolePermissions d.catalog tenantID roleID permIDs = .ok cat')
    (hroles : cat'.roles = d.catalog.roles) {caller : Holding} (hholding : d.holdings tenantID callerID = some caller) :
    (∀ userID perm target,
        ((d.withCatalog cat' hroles).service enforcer).check now tenantID userID perm target = .ok true →
        (d.service enforcer).check now tenantID userID perm target ≠ .ok true →
        (d.service enforcer).check now tenantID callerID perm target = .ok true)
      ↔
    ∀ perm, perm ≠ "" → hasPermission (d.catalog.requested permIDs) perm = true →
      ∀ userID holder, d.holdings tenantID userID = some holder → holder.superAdmin = false →
        ∀ row ∈ holder.rows, row.roleID = roleID → row.expired now = false →
          d.RowBacked enforcer now tenantID caller holder row perm := by
  rcases setRolePermissions_eq_ok hstored with ⟨_, _, _, ⟨role, hrole⟩, _⟩
  rw [getRoleByID_eq_some_iff, d.catalog.roles.find?_eq_some_iff] at hrole
  rcases hrole with ⟨_, ⟨hrole, hid⟩, htenant, hdeleted⟩
  constructor
  . intro h perm hperm hrequested userID holder hholder hsuper row hrow hroleID hlive
    unfold RowBacked
    rw [← exists_contains_iff]
    intro target hcovers
    have hafter : ((d.withCatalog cat' hroles).service enforcer).check now tenantID userID perm target
        = .ok true := by
      rw [check_rows_iff (d := d.withCatalog cat' hroles) hholder hsuper]
      refine ⟨hperm, row, hrow, ?_, hlive, ?_, hcovers⟩
      . rw [joins_eq_true_iff]
        dsimp only [withCatalog]
        rw [hroles]
        exact ⟨role, hrole, hid.trans hroleID.symm, htenant, hdeleted⟩
      . rw [hasPermission_eq_true_iff] at *
        dsimp only [withCatalog]
        rw [hroleID, mem_codesByRole_stored hstored, mem_codesByRole_stored hstored]
        exact hrequested
    by_cases hbefore : (d.service enforcer).check now tenantID userID perm target = .ok true
    . rcases (check_service_iff hholder).mp hbefore with ⟨_, b, hb, hreach⟩
      exact ⟨b, mem_append_left _ hb, hreach⟩
    . rcases (check_service_iff hholding).mp (h userID perm target hafter hbefore) with ⟨_, b, hb, hreach⟩
      exact ⟨b, mem_append_right _ hb, hreach⟩
  . intro h userID perm target hafter hbefore
    cases hholder : d.holdings tenantID userID with
    | none =>
      have herror : ((d.withCatalog cat' hroles).service enforcer).check now tenantID userID perm target
          ≠ .ok true := by
        simp only [check, service, withCatalog, hholder]
        split <;> simp
      contradiction
    | some holder =>
      have hperm : perm ≠ "" := by
        rintro rfl
        simp [check] at hafter
      cases hsuper : holder.superAdmin with
      | true => exact absurd (check_super hholder hsuper hperm) hbefore
      | false =>
        rw [check_rows_iff (d := d.withCatalog cat' hroles) hholder hsuper] at hafter
        rcases hafter with ⟨_, row, hrow, hjoins, hlive, hcodes, hcovers⟩
        by_cases hroleID : row.roleID = roleID
        . have hrequested : hasPermission (d.catalog.requested permIDs) perm = true := by
            rw [hasPermission_eq_true_iff] at *
            dsimp only [withCatalog] at hcodes
            rw [hroleID, mem_codesByRole_stored hstored, mem_codesByRole_stored hstored] at hcodes
            exact hcodes
          rcases h perm hperm hrequested userID holder hholder hsuper row hrow hroleID hlive
            with ⟨b, hb, hgrants, hcontains⟩
          have hreach := Scope.covers_of_contains hcontains hcovers
          rcases mem_append.mp hb with hb | hb
          . exact absurd ((check_service_iff hholder).mpr ⟨hperm, b, hb, hgrants, hreach⟩) hbefore
          . exact (check_service_iff hholding).mpr ⟨hperm, b, hb, hgrants, hreach⟩
        . -- The other roles hold what they held before.
          apply absurd _ hbefore
          rw [check_rows_iff hholder hsuper]
          refine ⟨hperm, row, hrow, ?_, hlive, ?_, hcovers⟩
          . rw [joins_eq_true_iff] at *
            dsimp only [withCatalog] at hjoins
            rw [hroles] at hjoins
            exact hjoins
          . rw [← codesByRole_stored_of_ne hstored hroleID]
            exact hcodes

theorem checkSetPermissionsAllowed_sound_iff (d : Directory) (enforcer : Bool)
    (now tenantID callerID roleID : Int) (permIDs : List Int) (cat' : Catalog)
    (hstored : setRolePermissions d.catalog tenantID roleID permIDs = .ok cat') :
    (checkSetPermissionsAllowed d.catalog (some (d.service enforcer)) tenantID callerID roleID permIDs = .ok () →
        ∀ userID perm target,
          ((d.withCatalog cat' (setRolePermissions_eq_ok hstored).1).service enforcer).check
            now tenantID userID perm target = .ok true →
          (d.service enforcer).check now tenantID userID perm target ≠ .ok true →
          (d.service enforcer).check now tenantID callerID perm target = .ok true)
      ↔
    (callerID ≠ 0 → ∀ caller, d.holdings tenantID callerID = some caller →
        d.EditSafe enforcer now tenantID roleID permIDs caller) := by
  have hroles := (setRolePermissions_eq_ok hstored).1
  constructor
  . intro hsound hcaller caller hholding
    rw [Directory.guard_eq_ok_iff hstored hcaller hholding, Directory.no_gain_iff hstored hroles hholding] at hsound
    unfold Directory.EditSafe
    by_contra hunsafe
    push Not at hunsafe
    rcases hunsafe with ⟨hrefused, perm, hperm, hrequested, userID, holder, hholder, hsuper, row, hrow, hroleID,
      hlive, hnot⟩
    apply hnot
    apply hsound _ perm hperm hrequested userID holder hholder hsuper row hrow hroleID hlive
    by_cases hwild : wildcard ∈ (caller.effectiveBindings d.catalog tenantID).flatMap permissions
    . exact .inl hwild
    . exact .inr (hrefused hwild)
  . intro hsafe haccept
    have hcaller := (checkSetPermissionsAllowed_eq_ok_iff.mp haccept).1
    have hsome : ∃ caller, d.holdings tenantID callerID = some caller := by
      rcases checkSetPermissionsAllowed_eq_ok_iff.mp haccept with ⟨_, callerPerms, hperms, _⟩
      unfold permissionsForUser at hperms
      rcases Option.map_eq_some_iff.mp hperms with ⟨_, hbinds, _⟩
      rcases Option.map_eq_some_iff.mp hbinds with ⟨caller, hholding, _⟩
      exact ⟨caller, hholding⟩
    rcases hsome with ⟨caller, hholding⟩
    rw [Directory.no_gain_iff hstored hroles hholding]
    rcases hsafe hcaller caller hholding with ⟨hwild, hrefused⟩ | hbacked
    . rw [Directory.guard_eq_ok_iff hstored hcaller hholding] at haccept
      rcases haccept.resolve_left hwild with ⟨hsuper, hall⟩
      rcases hrefused with hsuper' | ⟨code, hcode, hmissing⟩
      . contradiction
      . exact absurd (hall code hcode) hmissing
    . exact hbacked

end Escalation

/-!
The admin of one department, user 7, edits two roles. User 8 has the first one everywhere, user 9 has the
second one in the same department.
-/

namespace DeptEditor

def catalog : Catalog where
  roles := ⟨[{ id := 2, tenantID := 1, code := "dept_admin", deleted := false },
    { id := 3, tenantID := 1, code := "auditor", deleted := false },
    { id := 4, tenantID := 1, code := "dept_auditor", deleted := false }], by decide⟩
  permissions := ⟨[{ id := 101, tenantID := 1, code := "user.read" },
    { id := 152, tenantID := 1, code := "role.permission.manage" }], by decide⟩
  rolePermissions := [{ roleID := 2, permissionID := 101 }, { roleID := 2, permissionID := 152 }]
  sameTenant := by decide

def holding (userID : Int) : Holding where
  superAdmin := false
  rows :=
    if userID = 7 then [⟨2, .org 10, none⟩]
    else if userID = 8 then [⟨3, .global, none⟩]
    else if userID = 9 then [⟨4, .org 10, none⟩]
    else []

def directory : Directory where
  catalog := catalog
  role_id_pos := by decide
  holdings tenantID userID := if tenantID = 1 then some (holding userID) else none
  orgTree := some .flat
  superTenants := []
  super_mem := by
    intro tenantID userID h hholding hsuper
    split at hholding
    . cases hholding
      contradiction
    . contradiction

def edited (roleID : Int) (permIDs : List Int) : Catalog :=
  match setRolePermissions catalog 1 roleID permIDs with
  | .ok cat' => cat'
  | .error _ => catalog

theorem added_permission_escalates :
    setRolePermissions directory.catalog 1 3 [101] = .ok (edited 3 [101])
      ∧ checkSetPermissionsAllowed catalog (some (directory.service true)) 1 7 3 [101] = .ok ()
      ∧ ((directory.withCatalog (edited 3 [101]) rfl).service true).check 0 1 8 "user.read" (some (.org 20))
          = .ok true
      ∧ (directory.service true).check 0 1 8 "user.read" (some (.org 20)) = .ok false
      ∧ (directory.service true).check 0 1 7 "user.read" (some (.org 20)) = .ok false :=
  ⟨rfl, by decide⟩

theorem added_permission_in_scope :
    checkSetPermissionsAllowed catalog (some (directory.service true)) 1 7 4 [101] = .ok ()
      ∧ ∀ userID perm target,
          ((directory.withCatalog (edited 4 [101]) rfl).service true).check 0 1 userID perm target = .ok true →
          (directory.service true).check 0 1 userID perm target ≠ .ok true →
          (directory.service true).check 0 1 7 perm target = .ok true := by
  have haccept : checkSetPermissionsAllowed catalog (some (directory.service true)) 1 7 4 [101] = .ok () := by
    decide
  refine ⟨haccept, (checkSetPermissionsAllowed_sound_iff directory true 0 1 7 4 [101] (edited 4 [101])
    rfl).mpr ?_ haccept⟩
  intro _ caller hcaller
  cases hcaller
  right
  intro perm hperm hrequested userID holder hholder _ row hrow hroleID _
  have hcode : perm = "user.read" := by
    have hcodes : catalog.requested [101] = ["user.read"] := by decide
    rw [hasPermission_eq_true_iff] at hrequested
    simpa [directory, hcodes, wildcard] using hrequested
  cases hholder
  have hrow' : row = ⟨4, .org 10, none⟩ := by
    simp only [holding] at hrow
    split at hrow
    . rw [mem_singleton.mp hrow] at hroleID
      contradiction
    split at hrow
    . rw [mem_singleton.mp hrow] at hroleID
      contradiction
    . split at hrow
      . exact mem_singleton.mp hrow
      . contradiction
  subst hcode hrow'
  refine ⟨(⟨2, .org 10, none⟩ : BindingRow).effective catalog, mem_append_right _ ?_, ?_, ?_⟩
  . decide
  . decide
  . decide

end DeptEditor

end Mxid.Authz
