import Mxid.Sso.Impl.Access
import Mxid.Access.Impl.Basic
import Mxid.Org.Impl.Repository

namespace Mxid.Sso

structure UserGroup where
  id : Int
  deleted : Bool

structure GroupMember where
  groupID : Int
  userID : Int

structure Directory where
  org : Org.DB
  groups : Table UserGroup.id
  members : List GroupMember
  roleBindings : Table Access.RoleBinding.id

namespace Directory

variable (dir : Directory)

def userInGroup (userID groupID : Int) : Bool :=
  dir.members.any (fun m => m.userID = userID && m.groupID = groupID)

def userInOrg (userID orgID : Int) : Bool :=
  dir.org.userOrgs.rows.any (fun uo => uo.userID = userID
    && dir.org.orgs.rows.any (fun o => o.id = uo.orgID && !o.deleted
      && (o.id = orgID
        || dir.org.orgs.rows.any (fun root => root.id = orgID && o.path.isDescendant root.path))))

def userHasRole (now userID roleID : Int) : Bool :=
  dir.roleBindings.rows.any (fun b => b.roleID = roleID && b.subjectType = .user && b.subjectID = userID
    && b.status = 1 && b.expiresAt.all (fun t => now < t))

def accessMatcher (now : Int) : SubjectMatcher where
  userInGroup userID groupID := .ok (dir.userInGroup userID groupID)
  userInOrg userID orgID := .ok (dir.userInOrg userID orgID)
  userHasRole userID roleID := .ok (dir.userHasRole now userID roleID)

def subjectMatch (p : Policy) (userID : Int) : Bool :=
  match p.subjectType with
  | .subjectPublic => true
  | .subjectUser => p.subjectID = userID
  | .subjectGroup =>
    dir.groups.rows.any (fun g => g.id = p.subjectID && !g.deleted
      && dir.members.any (fun m => m.groupID = g.id && m.userID = userID))
  | .subjectOrg =>
    dir.org.userOrgs.rows.any (fun uo => uo.userID = userID
      && dir.org.orgs.rows.any (fun o => o.id = uo.orgID && !o.deleted
        && (o.id = p.subjectID
          || dir.org.orgs.rows.any (fun root => root.id = p.subjectID && o.path.isDescendant root.path))))
  | .subjectRole =>
    dir.roleBindings.rows.any (fun b => b.roleID = p.subjectID && b.subjectType = .user
      && b.subjectID = userID)

end Directory

namespace PolicyDB

variable (db : PolicyDB) (dir : Directory)

def appsWith (effect : Effect) (userID tenantID : Int) : List Int :=
  let rules := db.policies.rows.filter (fun p => (p.tenantID = tenantID || p.tenantID = 0)
    && p.effect = effect && dir.subjectMatch p userID)
  let own := rules.filterMap Policy.appID
  let inherited := rules.flatMap (fun p =>
    (db.appGroupRel.filter (fun rel => p.appGroupID = some rel.groupID)).map AppGroupRel.appID)
  (own ++ inherited).dedup

def appsForUser (userID tenantID : Int) : List Int :=
  let allowed := db.appsWith dir .effectAllow userID tenantID
  let denied := db.appsWith dir .effectDeny userID tenantID
  allowed.filter (fun id => !denied.contains id)

end PolicyDB

end Mxid.Sso
