import Mxid.Authz.Impl.Engine

namespace Mxid.Authz

structure Role where
  id : Int
  tenantID : Int
  code : String
  deleted : Bool

structure Permission where
  id : Int
  tenantID : Int
  code : Code

structure RolePermission where
  roleID : Int
  permissionID : Int

/--
The role tables. A role only holds permissions of its own tenant: `SetRolePermissions` looks them up
within the tenant, and the seeds keep to one tenant.
-/
structure Catalog where
  roles : Table Role.id
  permissions : Table Permission.id
  rolePermissions : List RolePermission
  sameTenant : ∀ rp ∈ rolePermissions, ∀ role ∈ roles.rows, ∀ perm ∈ permissions.rows,
    rp.roleID = role.id → rp.permissionID = perm.id → perm.tenantID = role.tenantID

def superAdminRoleCode : String := "super_admin"

namespace Catalog

variable (cat : Catalog)

def getRoleByID (tenantID id : Int) : Option Role :=
  if tenantID ≤ 0 then
    none
  else
    (cat.roles.find? id).filter (fun role => role.tenantID = tenantID ∧ role.deleted = false)

def getRolePermissions (tenantID roleID : Int) : Option (List Permission) :=
  match cat.getRoleByID tenantID roleID with
  | none => none
  | some _ =>
    let ids := (cat.rolePermissions.filter (fun rp => rp.roleID = roleID)).map RolePermission.permissionID
    some (cat.permissions.rows.filter (fun p => p.id ∈ ids ∧ p.tenantID = tenantID))

def codesByRole (roleID : Int) : List Code :=
  (cat.rolePermissions.filter (fun rp => rp.roleID = roleID)).flatMap (fun rp =>
    (cat.permissions.rows.filter (fun p => p.id = rp.permissionID)).map Permission.code)

end Catalog

inductive RefType where
  | user
  | group
  | org
  deriving DecidableEq

inductive ScopeType where
  | org
  | group
  deriving DecidableEq

def ScopeType.refType : ScopeType → RefType
  | .org => .org
  | .group => .group

structure AddMemberRequest where
  subjectType : RefType
  subjectID : Int
  scopeType : Option ScopeType
  scopeID : Option Int

/--
What a request to add a member becomes. Its row is `MemberBinding.row`.
-/
structure MemberBinding where
  id : Int
  roleID : Int
  subjectType : RefType
  subjectID : Int
  scopeType : Option ScopeType
  scopeID : Option Int
  deriving DecidableEq

inductive AddMemberError where
  | roleNotFound
  | scopeIncomplete
  | superAdminUserOnly
  | superAdminUnavailable
  | subjectNotInTenant
  | scopeNotInTenant
  | validatorNotConfigured
  | validate
  | setSuperAdmin
  | addMember
  deriving DecidableEq

structure MemberStore where
  validators : RefType → Option (Int → Option Bool)
  setSuperAdmin : Option (Int → Bool)
  insert : MemberBinding → Bool
  nextID : Int

def MemberStore.validateRef (m : MemberStore) (refType : RefType) (id : Int) (notFound : AddMemberError) :
    Except AddMemberError Unit :=
  match m.validators refType with
  | none => .error .validatorNotConfigured
  | some v =>
    match v id with
    | none => .error .validate
    | some false => .error notFound
    | some true => .ok ()

def MemberStore.validateScope (m : MemberStore) (req : AddMemberRequest) : Except AddMemberError Unit :=
  match req.scopeType, req.scopeID with
  | some scopeType, some scopeID => m.validateRef scopeType.refType scopeID .scopeNotInTenant
  | _, _ => .ok ()

inductive Membership where
  | binding (b : MemberBinding)
  | superAdmin (userID : Int)
  deriving DecidableEq

def grantSuperAdmin (m : MemberStore) (req : AddMemberRequest) : Except AddMemberError Membership :=
  if req.subjectType ≠ .user then
    .error .superAdminUserOnly
  else
    match m.setSuperAdmin with
    | none => .error .superAdminUnavailable
    | some set => do
      m.validateRef .user req.subjectID .subjectNotInTenant
      if set req.subjectID then
        return .superAdmin req.subjectID
      else
        .error .setSuperAdmin

def addMember (cat : Catalog) (m : MemberStore) (tenantID roleID : Int) (req : AddMemberRequest) :
    Except AddMemberError Membership :=
  match cat.getRoleByID tenantID roleID with
  | none => .error .roleNotFound
  | some role =>
    if role.code = superAdminRoleCode then
      grantSuperAdmin m req
    else if req.scopeType.isSome ≠ req.scopeID.isSome then
      .error .scopeIncomplete
    else do
      m.validateRef req.subjectType req.subjectID .subjectNotInTenant
      m.validateScope req
      let b : MemberBinding :=
        { id := m.nextID, roleID := roleID, subjectType := req.subjectType, subjectID := req.subjectID,
          scopeType := req.scopeType, scopeID := req.scopeID }
      if m.insert b then
        return .binding b
      else
        .error .addMember

def MemberBinding.scope (b : MemberBinding) : Scope :=
  match b.scopeType with
  | none => .global
  | some .org => .org (b.scopeID.getD 0)
  | some .group => .group (b.scopeID.getD 0)

def Membership.effective (cat : Catalog) : Membership → EffectiveBinding
  | .binding b =>
    { roleID := b.roleID, permissions := cat.codesByRole b.roleID, scope := b.scope, expiresAt := none }
  | .superAdmin _ => { roleID := 0, permissions := [wildcard], scope := .global, expiresAt := none }

def Membership.resync (tenantID : Int) : Membership → CasbinEngine → CasbinEngine
  | .binding _, e => e
  | .superAdmin _, e =>
    { policies := { subject := .superAdmin, tenantID := tenantID, permission := wildcard } :: e.policies }

def Service.after (s : Service) (tenantID : Int) (m : Membership) : Service :=
  { s with casbin := s.casbin.map (m.resync tenantID) }

def Membership.allows (cat : Catalog) (s : Service) (now tenantID : Int) (m : Membership) (perm : Code)
    (target : Option ScopeTarget) : Bool :=
  perm ≠ "" ∧ (s.after tenantID m).checkBindings now tenantID perm target [m.effective cat]

def errAssignBlocked (msg : String) : String :=
  "privilege escalation blocked: " ++ msg

def scopeToTarget : ScopeType → Int → Option ScopeTarget
  | .org, id => some (.org id)
  | .group, id => some (.group id)

def AddMemberRequest.target (req : AddMemberRequest) : Option ScopeTarget :=
  match req.scopeType, req.scopeID with
  | some scopeType, some scopeID => scopeToTarget scopeType scopeID
  | _, _ => none

def checkSubset (callerPerms : List Code) : List Permission → Except String Unit
  | [] => .ok ()
  | p :: perms =>
    if p.code ∈ callerPerms then
      checkSubset callerPerms perms
    else
      .error (errAssignBlocked ("cannot grant permission you do not hold: " ++ p.code))

def checkScope (s : Service) (now tenantID callerID : Int) (target : Option ScopeTarget) :
    List Permission → Except String Unit
  | [] => .ok ()
  | p :: perms =>
    match s.check now tenantID callerID p.code target with
    | .ok true => checkScope s now tenantID callerID target perms
    | _ => .error (errAssignBlocked ("scope of grant exceeds your own: " ++ p.code))

/--
What both guards begin with. A caller with the wildcard skips the rest.
-/
def checkCaller (cat : Catalog) (engine : Option Service) (tenantID callerID roleID : Int) (superAdmin : String)
    (rest : Service → List Code → Except String Unit) : Except String Unit :=
  match engine with
  | none => .error (errAssignBlocked "authz engine unavailable")
  | some s =>
    if callerID = 0 then
      .error (errAssignBlocked "caller not authenticated")
    else
      match s.permissionsForUser tenantID callerID with
      | none => .error (errAssignBlocked "caller permission lookup failed")
      | some callerPerms =>
        if wildcard ∈ callerPerms then
          .ok ()
        else if (cat.getRoleByID tenantID roleID).any (fun role => role.code = superAdminRoleCode) then
          .error (errAssignBlocked superAdmin)
        else
          rest s callerPerms

def checkAssignAllowed (cat : Catalog) (engine : Option Service) (now tenantID callerID roleID : Int)
    (req : AddMemberRequest) : Except String Unit :=
  checkCaller cat engine tenantID callerID roleID "only a super admin can grant super_admin" (fun s callerPerms =>
    match cat.getRolePermissions tenantID roleID with
    | none => .error (errAssignBlocked "role permission lookup failed")
    | some rolePerms => do
      checkSubset callerPerms rolePerms
      checkScope s now tenantID callerID req.target rolePerms)

end Mxid.Authz
