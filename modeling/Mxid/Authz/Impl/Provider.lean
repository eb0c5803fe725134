import Mathlib.Data.Finset.Dedup
import Mathlib.Data.Finset.Insert
import Mxid.Access.Impl.System
import Mxid.Authz.Impl.Edit
import Mxid.Group.Impl.Service
import Mxid.Org.Impl.Service

namespace Mxid.Authz

/--
The tables of the services. The columns `is_super_admin` of the users and `type` of the roles are kept as the ids of
the rows in which they are set.
-/
structure Tables where
  org : Org.DB
  superAdmins : List Int
  group : Group.DB
  catalog : Catalog
  systemRoles : List Int
  access : Access.DB

inductive BindingSource where
  | superAdmin
  | direct
  | group
  | org
  deriving DecidableEq

structure ResolvedBinding where
  roleID : Int
  permissions : List Code
  source : BindingSource
  sourceID : Int
  scopeType : String
  scopeID : Int
  expiresAt : Option Int
  deriving DecidableEq

def superAdminBinding (userID : Int) : ResolvedBinding where
  roleID := 0
  permissions := [wildcard]
  source := .superAdmin
  sourceID := userID
  scopeType := ""
  scopeID := 0
  expiresAt := none

inductive ProviderQuery where
  | superAdmin
  | groups
  | orgs
  | bindings
  | permissions
  deriving DecidableEq

variable {α : Type} (failing : ProviderQuery → Bool) (q : ProviderQuery)

def ProviderQuery.ask (answer : α) : Option α :=
  if failing q then none else some answer

def ProviderQuery.orNil (answer : List α) : List α :=
  if failing q then [] else answer

namespace Tables

variable (db : Tables)

def isSuperAdmin (tenantID userID : Int) : Bool :=
  userID ∈ db.superAdmins
    && db.org.users.table.rows.any (fun u => u.id = userID && u.tenantID = tenantID && !u.deleted)

def groupIDs (tenantID userID : Int) : List Int :=
  (db.group.listByUserID tenantID userID).map Group.UserGroup.id

def isSubjectOf (groupIDs orgIDs : List Int) (userID : Int) (b : Access.RoleBinding) : Bool :=
  match b.subjectType with
  | .user => b.subjectID = userID
  | .group => b.subjectID ∈ groupIDs
  | .org => b.subjectID ∈ orgIDs
  | .role => false

def isSubject (tenantID userID : Int) (b : Access.RoleBinding) : Bool :=
  isSubjectOf (db.groupIDs tenantID userID) (db.org.ancestorIDsForUser tenantID userID) userID b

def joinsRole (tenantID roleID : Int) : Bool :=
  db.catalog.roles.rows.any (fun role => role.id = roleID && role.tenantID = tenantID && !role.deleted)

def joins (now tenantID : Int) (b : Access.RoleBinding) : Bool :=
  db.joinsRole tenantID b.roleID && (b.status = Access.bindingActive && b.expiresAt.all (fun t => now < t))

def selects (now tenantID userID : Int) (b : Access.RoleBinding) : Bool :=
  db.joins now tenantID b && db.isSubject tenantID userID b

def source : Access.SubjectType → BindingSource
  | .user => .direct
  | .group => .group
  | .org => .org
  | .role => .direct

def resolve (codesByRole : Int → List Code) (b : Access.RoleBinding) : ResolvedBinding where
  roleID := b.roleID
  permissions := codesByRole b.roleID
  source := source b.subjectType
  sourceID := b.subjectID
  scopeType := b.scopeType.getD ""
  scopeID := b.scopeID.getD 0
  expiresAt := b.expiresAt

/--
The provider when queries may fail. The errors of three of them are dropped.
-/
def resolveBindings (failing : ProviderQuery → Bool) (now tenantID userID : Int) : Option (Finset ResolvedBinding) := do
  if ← ProviderQuery.superAdmin.ask failing (db.isSuperAdmin tenantID userID) then
    return {superAdminBinding userID}
  let groupIDs := ProviderQuery.groups.orNil failing (db.groupIDs tenantID userID)
  let orgIDs := ProviderQuery.orgs.orNil failing (db.org.ancestorIDsForUser tenantID userID)
  let rows ← ProviderQuery.bindings.ask failing (db.access.roleBindings.rows.filter (fun b =>
    db.joins now tenantID b && isSubjectOf groupIDs orgIDs userID b))
  let codesByRole := fun roleID => ProviderQuery.permissions.orNil failing (db.catalog.codesByRole roleID)
  return (rows.map (resolve codesByRole)).toFinset

def effectiveBindingsForUser (now tenantID userID : Int) : Finset ResolvedBinding :=
  (db.resolveBindings (fun _ => false) now tenantID userID).getD ∅

theorem effectiveBindingsForUser_eq (now tenantID userID : Int) :
    db.effectiveBindingsForUser now tenantID userID
      =
    if db.isSuperAdmin tenantID userID then
      {superAdminBinding userID}
    else
      ((db.access.roleBindings.rows.filter (db.selects now tenantID userID)).map
        (resolve db.catalog.codesByRole)).toFinset := by
  unfold effectiveBindingsForUser resolveBindings
  cases db.isSuperAdmin tenantID userID <;> rfl

end Tables

/--
The cache in front of the provider: what it answers, and what it stores.
-/
def cachedBindings {α : Type} (l1 l2 inner : Option α) : Option α × Option α :=
  match l1, l2, inner with
  | some v, _, _ => (some v, none)
  | none, some v, _ | none, none, some v => (some v, some v)
  | none, none, none => (none, none)

end Mxid.Authz
