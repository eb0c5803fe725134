import Mxid.Authz.Impl.Provider

/-!
This module contains the operations that change what the provider reads. Each of them returns what it has published.
-/

namespace Mxid.Authz

open Mxid.Group

inductive Invalidation where
  | all
  | user (tenantID userID : Int)

structure Outcome where
  db : Tables
  events : List Event
  direct : List Invalidation

namespace Catalog

variable (cat : Catalog)

theorem createRole_sameTenant {cat : Catalog} {role : Role} {roles : Table Role.id}
    (hrefs : ∀ rp ∈ cat.rolePermissions, rp.roleID ≠ role.id) (hinsert : cat.roles.insert? role = some roles) :
    ∀ rp ∈ cat.rolePermissions, ∀ role ∈ roles.rows, ∀ perm ∈ cat.permissions.rows,
      rp.roleID = role.id → rp.permissionID = perm.id → perm.tenantID = role.tenantID := by
  intro rp hrp role' hrole' perm hperm hroleID hpermID
  rcases (Table.mem_of_insert? hinsert).mp hrole' with rfl | hold
  . exact absurd hroleID (hrefs rp hrp)
  . exact cat.sameTenant rp hrp role' hold perm hperm hroleID hpermID

def createRole (role : Role) : Option Catalog :=
  if hrefs : ∀ rp ∈ cat.rolePermissions, rp.roleID ≠ role.id then
    match hinsert : cat.roles.insert? role with
    | none => none
    | some roles => some { cat with roles := roles, sameTenant := createRole_sameTenant hrefs hinsert }
  else
    none

theorem deleteRole_sameTenant (id : Int) :
    ∀ rp ∈ cat.rolePermissions.filter (fun rp => rp.roleID ≠ id),
      ∀ role ∈ (cat.roles.delete (fun role => role.id = id)).rows, ∀ perm ∈ cat.permissions.rows,
        rp.roleID = role.id → rp.permissionID = perm.id → perm.tenantID = role.tenantID := by
  intro rp hrp role hrole
  exact cat.sameTenant rp (List.mem_of_mem_filter hrp) role (List.mem_of_mem_filter hrole)

def deleteRole (id : Int) : Catalog where
  roles := cat.roles.delete (fun role => role.id = id)
  permissions := cat.permissions
  rolePermissions := cat.rolePermissions.filter (fun rp => rp.roleID ≠ id)
  sameTenant := cat.deleteRole_sameTenant id

end Catalog

inductive RoleError where
  | roleNotFound
  | roleCodeExists
  | systemRoleDelete
  | memberNotFound
  | setPermissions (e : SetPermissionsError)
  | addMember (e : AddMemberError)
  | failed

structure CreateRoleRequest where
  code : String
  system : Bool

variable (db : Tables)

def createRole (serviceTenantID tenantID id : Int) (req : CreateRoleRequest) : Except RoleError Outcome :=
  let tenantID := if tenantID = 0 then serviceTenantID else tenantID
  if db.catalog.roles.rows.any (fun role => role.tenantID = tenantID && role.code = req.code && !role.deleted) then
    .error .roleCodeExists
  else
    match db.catalog.createRole ⟨id, tenantID, req.code, false⟩ with
    | none => .error .failed
    | some catalog =>
      .ok ⟨{ db with catalog, systemRoles := if req.system then id :: db.systemRoles else db.systemRoles },
        [⟨.roleCreated, .map [("role_id", .int64 id), ("code", .string req.code)]⟩], []⟩

def updateRole (tenantID id : Int) : Except RoleError Outcome :=
  match db.catalog.getRoleByID tenantID id with
  | none => .error .roleNotFound
  | some _ => .ok ⟨db, [⟨.roleUpdated, .map [("role_id", .int64 id)]⟩], []⟩

def deleteRole (tenantID id : Int) : Except RoleError Outcome :=
  match db.catalog.getRoleByID tenantID id with
  | none => .error .roleNotFound
  | some _ =>
    if id ∈ db.systemRoles then
      .error .systemRoleDelete
    else
      .ok ⟨{ db with
          catalog := db.catalog.deleteRole id
          access.roleBindings := db.access.roleBindings.delete (fun b => b.roleID = id) },
        [⟨.roleDeleted, .map [("role_id", .int64 id)]⟩], []⟩

def setPermissions (tenantID roleID : Int) (permissionIDs : List Int) : Except RoleError Outcome :=
  match setRolePermissions db.catalog tenantID roleID permissionIDs with
  | .error e => .error (.setPermissions e)
  | .ok catalog =>
    .ok ⟨{ db with catalog }, [⟨.rolePermissionsSet, .map [("role_id", .int64 roleID),
      ("permission_ids", .int64s permissionIDs)]⟩], []⟩

inductive UserError where
  | userNotFound
  | lastSuperAdmin

def countSuperAdmins (tenantID : Int) : Nat :=
  (db.org.users.table.rows.filter (fun u => u.tenantID = tenantID && !u.deleted && u.id ∈ db.superAdmins)).length

def superAdminEvent (actorID tenantID : Int) (target : User) (makeSuper : Bool) : Event where
  type := if makeSuper then .userSuperAdminGrant else .userSuperAdminRevoke
  payload := .map [("user_id", .int64 actorID), ("target_id", .int64 target.id), ("tenant_id", .int64 tenantID),
    ("username", .string target.username)]

def setSuperAdmin (actorID tenantID targetID : Int) (makeSuper : Bool) : Except UserError Outcome :=
  match db.org.users.getByID tenantID targetID with
  | none => .error .userNotFound
  | some target =>
    if decide (targetID ∈ db.superAdmins) = makeSuper then
      .ok ⟨db, [], []⟩
    else if !makeSuper && countSuperAdmins db tenantID ≤ 1 then
      .error .lastSuperAdmin
    else
      .ok ⟨{ db with
          superAdmins := if makeSuper then targetID :: db.superAdmins
            else db.superAdmins.filter (· ≠ targetID) },
        [superAdminEvent actorID tenantID target makeSuper], []⟩

def RefType.subjectType : RefType → Access.SubjectType
  | .user => .user
  | .group => .group
  | .org => .org

def RefType.name : RefType → String
  | .user => "user"
  | .group => "group"
  | .org => "org"

def MemberBinding.row (b : MemberBinding) : Access.RoleBinding where
  id := b.id
  roleID := b.roleID
  subjectType := b.subjectType.subjectType
  subjectID := b.subjectID
  scopeType := b.scopeType.map (fun s => s.refType.name)
  scopeID := b.scopeID
  grantID := none
  expiresAt := none
  status := Access.bindingActive

def sameBinding (b b' : Access.RoleBinding) : Bool :=
  b.roleID = b'.roleID ∧ b.subjectType = b'.subjectType ∧ b.subjectID = b'.subjectID
    ∧ b.scopeType.getD "" = b'.scopeType.getD "" ∧ b.scopeID.getD 0 = b'.scopeID.getD 0

def insertBinding (b : MemberBinding) : Option Tables :=
  if db.access.roleBindings.rows.any (sameBinding b.row) then
    none
  else
    match db.access.roleBindings.insert? b.row with
    | none => none
    | some roleBindings => some { db with access.roleBindings := roleBindings }

def memberStore (actorID tenantID nextID : Int) : MemberStore where
  validators
    | .user => some (fun id => some (db.org.users.getByID tenantID id).isSome)
    | .group => some (fun id => some (db.group.getByID tenantID id).isSome)
    | .org => some (fun id => some (db.org.getByID tenantID id).isSome)
  setSuperAdmin := some (fun id => (setSuperAdmin db actorID tenantID id true).isOk)
  insert b := (insertBinding db b).isSome
  nextID := nextID

def memberAddedEvent (tenantID roleID : Int) (req : AddMemberRequest) : Event where
  type := .roleMemberAdded
  payload := .map ([("role_id", .int64 roleID), ("subject_type", .string req.subjectType.name),
    ("subject_id", .int64 req.subjectID), ("tenant_id", .int64 tenantID)]
      ++ (if req.subjectType = .user then [("user_id", .int64 req.subjectID)] else [])
      ++ match req.scopeType, req.scopeID with
        | some scopeType, some scopeID =>
          [("scope_type", .string scopeType.refType.name), ("scope_id", .int64 scopeID)]
        | _, _ => [])

def addRoleMember (actorID tenantID roleID nextID : Int) (req : AddMemberRequest) : Except RoleError Outcome :=
  match addMember db.catalog (memberStore db actorID tenantID nextID) tenantID roleID req with
  | .error e => .error (.addMember e)
  | .ok (.superAdmin userID) =>
    match setSuperAdmin db actorID tenantID userID true with
    | .error _ => .error (.addMember .setSuperAdmin)
    | .ok outcome => .ok outcome
  | .ok (.binding b) =>
    match insertBinding db b with
    | none => .error (.addMember .addMember)
    | some db => .ok ⟨db, [memberAddedEvent tenantID roleID req], []⟩

def removeRoleMember (actorID tenantID roleID memberID : Int) : Except RoleError Outcome :=
  match db.catalog.getRoleByID tenantID roleID with
  | none => .error .roleNotFound
  | some role =>
    if role.code = superAdminRoleCode then
      match setSuperAdmin db actorID tenantID memberID false with
      | .error _ => .error .failed
      | .ok outcome => .ok outcome
    else if db.access.roleBindings.rows.any (fun b => b.id = memberID) then
      .ok ⟨{ db with access.roleBindings := db.access.roleBindings.delete (fun b => b.id = memberID) },
        [⟨.roleMemberRemoved, .map [("role_id", .int64 roleID), ("member_id", .int64 memberID)]⟩], []⟩
    else
      .error .memberNotFound

structure Purge where
  groups : Bool
  orgs : Bool
  bindings : Bool

def purge (done : Purge) (userID : Int) : Tables :=
  { db with
    group.members := db.group.members.delete (fun m => done.groups && m.userID = userID)
    org.userOrgs := db.org.userOrgs.delete (fun uo => done.orgs && uo.userID = userID)
    access.roleBindings := db.access.roleBindings.delete (fun b =>
      done.bindings && b.subjectType = .user && b.subjectID = userID) }

def deleteUser (tenantID id : Int) (done : Purge) : Except UserError Outcome :=
  match db.org.users.getByID tenantID id with
  | none => .error .userNotFound
  | some _ =>
    .ok ⟨purge { db with org.users := db.org.users.delete tenantID id } done id,
      [⟨.userDeleted, .map [("user_id", .int64 id)]⟩], []⟩

def restoreUser (tenantID id : Int) : Except UserError Outcome :=
  match db.org.users.restore tenantID id with
  | none => .error .userNotFound
  | some users =>
    .ok ⟨{ db with org.users := users },
      [⟨.userUpdated, .map [("user_id", .int64 id), ("action", .string "user_restored")]⟩], []⟩

def orgMemberEvent (type : EventType) (tenantID userID orgID : Int) : Event where
  type := type
  payload := .map [("tenant_id", .int64 tenantID), ("user_id", .int64 userID), ("org_id", .int64 orgID)]

def orgOutcome (result : Except Org.OrgError Org.DB) (event : Event) : Except Org.OrgError Outcome :=
  match result with
  | .error e => .error e
  | .ok org => .ok ⟨{ db with org }, [event], []⟩

def groupOutcome (result : Except Group.GroupError (Group.DB × List Event)) : Except Group.GroupError Outcome :=
  match result with
  | .error e => .error e
  | .ok (group, events) => .ok ⟨{ db with group }, events, []⟩

def ruleOutcome (result : Group.DB × Except Group.GroupError (List Event)) : Outcome :=
  match result with
  | (group, .error _) => ⟨{ db with group }, [], []⟩
  | (group, .ok events) => ⟨{ db with group }, events, []⟩

def accessInvalidations : Access.Call → List Invalidation
  | .approve req _ _ | .revoke req | .expire req => [.user req.tenantID req.requesterID]
  | .reject .. | .cancel _ => []

def requestEvent (type : EventType) (req : Access.Request) : Event where
  type := type
  payload := .map [("resource_type", .string "access_request"), ("resource_id", .int64 req.id),
    ("tenant_id", .int64 req.tenantID), ("request_id", .int64 req.id), ("requester_id", .int64 req.requesterID),
    ("role_id", .int64 req.roleID)]

def accessEvents : Access.Call → List Event
  | .approve req _ _ => [requestEvent .requestApproved req, requestEvent .grantActivated req]
  | .reject req _ _ => [requestEvent .requestRejected req]
  | .cancel req => [requestEvent .requestCancelled req]
  | .revoke req => [requestEvent .grantRevoked req]
  | .expire req => [requestEvent .grantExpired req]

def accessOutcome (now bindingID : Int) (result : Except Access.AccessError Access.Call) : Option Outcome :=
  match result with
  | .error _ => none
  | .ok call =>
    match call.write db.access now bindingID with
    | none => none
    | some access => some ⟨{ db with access }, accessEvents call, accessInvalidations call⟩

def createRequest (dir : Access.Directory) (tenantID requesterID id : Int) (req : Access.CreateAccessRequest) :
    Option Outcome :=
  match Access.createRequest dir db.access tenantID requesterID id req with
  | .error _ => none
  | .ok row =>
    match db.access.requests.insert? row with
    | none => none
    | some requests =>
      some ⟨{ db with access.requests := requests }, [requestEvent .requestCreated row], []⟩

inductive Op where
  | createRole (tenantID id : Int) (req : CreateRoleRequest)
  | updateRole (tenantID id : Int)
  | deleteRole (tenantID id : Int)
  | setRolePermissions (tenantID roleID : Int) (permissionIDs : List Int)
  | addRoleMember (actorID tenantID roleID nextID : Int) (req : AddMemberRequest)
  | removeRoleMember (actorID tenantID roleID memberID : Int)
  | setSuperAdmin (actorID tenantID targetID : Int) (makeSuper : Bool)
  | deleteUser (tenantID id : Int) (done : Purge)
  | restoreUser (tenantID id : Int)
  | addGroupMember (tenantID groupID userID : Int)
  | addGroupMembers (tenantID groupID : Int) (userIDs : List Int)
  | removeGroupMember (tenantID groupID userID : Int)
  | removeGroupMembers (tenantID groupID : Int) (userIDs : List Int)
  | deleteGroup (tenantID id : Int) (force : Bool)
  | upsertRule (fault : Group.SyncFault) (tenantID groupID : Int) (conditions : Option (List Group.RuleCondition))
  | syncRule (fault : Group.SyncFault) (tenantID groupID : Int)
  | deleteRule (tenantID groupID : Int)
  | resyncTenantDynamicGroups (faults : Int → Group.SyncFault) (tenantID : Int)
  | addOrgMember (tenantID orgID relID createdAt : Int) (req : Org.AddMemberRequest)
  | removeOrgMember (tenantID userID orgID : Int)
  | moveOrg (tenantID id : Int) (parentID : Option Int)
  | deleteOrg (tenantID id : Int)
  | createRequest (dir : Access.Directory) (tenantID requesterID id : Int) (req : Access.CreateAccessRequest)
  | approve (dir : Access.Directory) (tenantID requestID approverID now bindingID : Int)
  | reject (tenantID requestID approverID : Int) (reason : String) (now : Int)
  | cancel (tenantID requestID requesterID now : Int)
  | revoke (tenantID requestID now : Int)
  | expire (req : Access.Request) (now : Int)

def Outcome.failed : Outcome := ⟨db, [], []⟩

def Outcome.ofExcept {ε : Type} : Except ε Outcome → Outcome
  | .error _ => .failed db
  | .ok outcome => outcome

def run (reading : Org.SubstringFrom) (serviceTenantID : Int) : Op → Outcome
  | .createRole tenantID id req => .ofExcept db (createRole db serviceTenantID tenantID id req)
  | .updateRole tenantID id => .ofExcept db (updateRole db tenantID id)
  | .deleteRole tenantID id => .ofExcept db (deleteRole db tenantID id)
  | .setRolePermissions tenantID roleID ids => .ofExcept db (setPermissions db tenantID roleID ids)
  | .addRoleMember actorID tenantID roleID nextID req =>
    .ofExcept db (addRoleMember db actorID tenantID roleID nextID req)
  | .removeRoleMember actorID tenantID roleID memberID =>
    .ofExcept db (removeRoleMember db actorID tenantID roleID memberID)
  | .setSuperAdmin actorID tenantID targetID makeSuper =>
    .ofExcept db (setSuperAdmin db actorID tenantID targetID makeSuper)
  | .deleteUser tenantID id done => .ofExcept db (deleteUser db tenantID id done)
  | .restoreUser tenantID id => .ofExcept db (restoreUser db tenantID id)
  | .addGroupMember tenantID groupID userID =>
    .ofExcept db (groupOutcome db (Group.addMember db.org db.group tenantID groupID userID))
  | .addGroupMembers tenantID groupID userIDs =>
    .ofExcept db (groupOutcome db (addMembers db.org db.group tenantID groupID userIDs))
  | .removeGroupMember tenantID groupID userID =>
    .ofExcept db (groupOutcome db (removeMember db.group tenantID groupID userID))
  | .removeGroupMembers tenantID groupID userIDs =>
    .ofExcept db (groupOutcome db (removeMembers db.group tenantID groupID userIDs))
  | .deleteGroup tenantID id force => .ofExcept db (groupOutcome db (delete db.org db.group tenantID id force))
  | .upsertRule fault tenantID groupID conditions =>
    ruleOutcome db (upsertRule db.org db.group fault tenantID groupID conditions)
  | .syncRule fault tenantID groupID =>
    ruleOutcome db (syncRuleAndPublish db.org db.group fault tenantID groupID)
  | .deleteRule tenantID groupID => .ofExcept db (groupOutcome db (deleteRule db.group tenantID groupID))
  | .resyncTenantDynamicGroups faults tenantID =>
    ⟨{ db with group := resyncTenantDynamicGroups db.org db.group faults tenantID }, [], []⟩
  | .addOrgMember tenantID orgID relID createdAt req =>
    .ofExcept db (orgOutcome db (Org.addMember db.org tenantID orgID relID createdAt req)
      (orgMemberEvent .orgMemberAdded tenantID req.userID orgID))
  | .removeOrgMember tenantID userID orgID =>
    .ofExcept db (orgOutcome db (Org.removeMember db.org tenantID userID orgID)
      (orgMemberEvent .orgMemberRemoved tenantID userID orgID))
  | .moveOrg tenantID id parentID =>
    .ofExcept db (orgOutcome db (Org.move db.org reading tenantID id parentID)
      ⟨.orgMoved, .map [("tenant_id", .int64 tenantID), ("org_id", .int64 id)]⟩)
  | .deleteOrg tenantID id =>
    .ofExcept db (orgOutcome db (Org.delete db.org tenantID id) ⟨.orgDeleted, .other⟩)
  | .createRequest dir tenantID requesterID id req =>
    (createRequest db dir tenantID requesterID id req).getD (.failed db)
  | .approve dir tenantID requestID approverID now bindingID =>
    (accessOutcome db now bindingID (Access.approve dir db.access tenantID requestID approverID now)).getD (.failed db)
  | .reject tenantID requestID approverID reason now =>
    (accessOutcome db now 0 (Access.reject db.access tenantID requestID approverID reason)).getD (.failed db)
  | .cancel tenantID requestID requesterID now =>
    (accessOutcome db now 0 (Access.cancel db.access tenantID requestID requesterID)).getD (.failed db)
  | .revoke tenantID requestID now =>
    (accessOutcome db now 0 (Access.revoke db.access tenantID requestID)).getD (.failed db)
  | .expire req now =>
    if req ∈ db.access.listDueGrants now then
      (accessOutcome db now 0 (.ok (.expire req))).getD (.failed db)
    else
      .failed db

end Mxid.Authz
