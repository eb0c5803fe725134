import Mxid.Authz.Impl.Assign

namespace Mxid.Authz

open List

structure BindingRow where
  roleID : Int
  scope : Scope
  expiresAt : Option Int

structure Holding where
  superAdmin : Bool
  rows : List BindingRow

structure Directory where
  catalog : Catalog
  role_id_pos : ∀ role ∈ catalog.roles.rows, 0 < role.id
  holdings : (tenantID userID : Int) → Option Holding
  orgTree : Option OrgTree
  superTenants : List Int
  super_mem : ∀ tenantID userID h, holdings tenantID userID = some h → h.superAdmin = true →
    tenantID ∈ superTenants

variable (cat : Catalog)

def BindingRow.effective (row : BindingRow) : EffectiveBinding where
  roleID := row.roleID
  permissions := cat.codesByRole row.roleID
  scope := row.scope
  expiresAt := row.expiresAt

def Catalog.joins (tenantID : Int) (row : BindingRow) : Bool :=
  (cat.roles.find? row.roleID).any (fun role => role.tenantID = tenantID ∧ role.deleted = false)

def Holding.effectiveBindings (tenantID : Int) (h : Holding) : List EffectiveBinding :=
  if h.superAdmin then
    [{ roleID := 0, permissions := [wildcard], scope := .global, expiresAt := none }]
  else
    (h.rows.filter (cat.joins tenantID)).map (BindingRow.effective cat)

def Catalog.grants : List RolePolicy :=
  cat.rolePermissions.flatMap (fun rp =>
    (cat.roles.rows.filter (fun role => role.id = rp.roleID ∧ role.deleted = false)).flatMap (fun role =>
      (cat.permissions.rows.filter (fun p => p.id = rp.permissionID)).map (fun p =>
        { subject := .role rp.roleID, tenantID := role.tenantID, permission := p.code })))

def replacePolicies (grants : List RolePolicy) (superTenants : List Int) : CasbinEngine where
  policies := grants.filter (fun p => p.permission ≠ "")
    ++ superTenants.map (fun tenantID => { subject := .superAdmin, tenantID, permission := wildcard })

def Directory.policies (d : Directory) : CasbinEngine := replacePolicies d.catalog.grants d.superTenants

def Directory.service (d : Directory) (enforcer : Bool) : Service where
  bindings := some (fun tenantID userID =>
    (d.holdings tenantID userID).map (Holding.effectiveBindings d.catalog tenantID))
  orgTree := d.orgTree
  casbin := if enforcer then some d.policies else none

def Catalog.getPermissionsByIDs (tenantID : Int) (ids : List Int) : Option (List Permission) :=
  if ids = [] then
    some []
  else if tenantID ≤ 0 then
    none
  else
    some (cat.permissions.rows.filter (fun p => p.id ∈ ids ∧ p.tenantID = tenantID))

def checkSetPermissionsAllowed (engine : Option Service) (tenantID callerID roleID : Int)
    (permIDs : List Int) : Except String Unit :=
  checkCaller cat engine tenantID callerID roleID "only a super admin can edit super_admin permissions"
    (fun _ callerPerms =>
      match cat.getPermissionsByIDs tenantID permIDs with
      | none => .error (errAssignBlocked "permission lookup failed")
      | some perms => checkSubset callerPerms perms)

inductive SetPermissionsError where
  | roleNotFound
  | verifyPermissions
  | permissionNotFound

def Catalog.replaced (roleID : Int) (permissionIDs : List Int) : List RolePermission :=
  cat.rolePermissions.filter (fun rp => rp.roleID ≠ roleID) ++
    permissionIDs.map (fun id => { roleID := roleID, permissionID := id })

theorem Catalog.forall_found {cat : Catalog} {tenantID : Int} {ids : List Int} {perms : List Permission}
    (h : cat.getPermissionsByIDs tenantID ids = some perms) (hlength : perms.length = ids.length) :
    ∀ id ∈ ids, ∃ p ∈ cat.permissions.rows, p.id = id ∧ p.tenantID = tenantID := by
  have hmem : ∀ p ∈ perms, p ∈ cat.permissions.rows ∧ p.id ∈ ids ∧ p.tenantID = tenantID := by
    unfold getPermissionsByIDs at h
    split at h
    . cases h
      simp
    . split at h
      . contradiction
      . cases h
        simp
  have hnodup : (perms.map Permission.id).Nodup := by
    unfold getPermissionsByIDs at h
    split at h
    . cases h
      exact nodup_nil
    . split at h
      . contradiction
      . cases h
        exact cat.permissions.nodup.sublist (filter_sublist.map _)
  have hsubset : perms.map Permission.id ⊆ ids := by
    intro id hid
    rcases mem_map.mp hid with ⟨p, hp, rfl⟩
    exact (hmem p hp).2.1
  have hperm : (perms.map Permission.id).Perm ids := by
    apply (subperm_of_subset hnodup hsubset).perm_of_length_le
    simp [hlength]
  intro id hid
  rcases mem_map.mp (hperm.mem_iff.mpr hid) with ⟨p, hp, rfl⟩
  rcases hmem p hp with ⟨hrow, _, htenant⟩
  exact ⟨p, hrow, rfl, htenant⟩

theorem Catalog.replaced_sameTenant {cat : Catalog} {tenantID roleID : Int} {ids : List Int} {role : Role}
    (hrole : cat.roles.find? roleID = some role) (htenant : role.tenantID = tenantID)
    (hfound : ∀ id ∈ ids, ∃ p ∈ cat.permissions.rows, p.id = id ∧ p.tenantID = tenantID) :
    ∀ rp ∈ cat.replaced roleID ids, ∀ role ∈ cat.roles.rows, ∀ perm ∈ cat.permissions.rows,
      rp.roleID = role.id → rp.permissionID = perm.id → perm.tenantID = role.tenantID := by
  intro rp hrp role' hrole' perm hperm hroleID hpermID
  rcases mem_append.mp hrp with hrp | hrp
  . apply cat.sameTenant rp (mem_filter.mp hrp).1 role' hrole' perm hperm hroleID hpermID
  rcases mem_map.mp hrp with ⟨id, hid, rfl⟩
  rcases hfound id hid with ⟨p, hp, hpid, hptenant⟩
  rcases cat.roles.find?_eq_some_iff.mp hrole with ⟨hmem, hrid⟩
  have hsame : role' = role := cat.roles.eq_of_key_eq hrole' hmem (hroleID.symm.trans hrid.symm)
  have hsame' : perm = p := cat.permissions.eq_of_key_eq hperm hp (hpermID.symm.trans hpid.symm)
  rw [hsame, hsame', htenant, hptenant]

theorem Catalog.getRoleByID_eq_some_iff {cat : Catalog} {tenantID roleID : Int} {role : Role} :
    cat.getRoleByID tenantID roleID = some role
      ↔
    0 < tenantID ∧ cat.roles.find? roleID = some role ∧ role.tenantID = tenantID ∧ role.deleted = false := by
  unfold getRoleByID
  split
  . next h =>
    constructor
    . intro h
      contradiction
    . intro h
      omega
  . next h =>
    rw [Option.filter_eq_some_iff, decide_eq_true_eq, not_le] at *
    simp [h]

def setRolePermissions (tenantID roleID : Int) (permissionIDs : List Int) : Except SetPermissionsError Catalog :=
  match hrole : cat.getRoleByID tenantID roleID with
  | none => .error .roleNotFound
  | some _ =>
    match hperms : cat.getPermissionsByIDs tenantID permissionIDs with
    | none => .error .verifyPermissions
    | some perms =>
      if hlength : perms.length = permissionIDs.length then
        have hrole := Catalog.getRoleByID_eq_some_iff.mp hrole
        .ok { cat with
          rolePermissions := cat.replaced roleID permissionIDs
          sameTenant := cat.replaced_sameTenant hrole.2.1 hrole.2.2.1 (cat.forall_found hperms hlength) }
      else
        .error .permissionNotFound

end Mxid.Authz
