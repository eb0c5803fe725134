import Mxid.Org.Impl.Repository

namespace Mxid.Group

def joined (db : Org.DB) (u : User) : List (Option Org.UserOrg) :=
  match db.userOrgs.rows.filter (fun uo => uo.userID = u.id) with
  | [] => [none]
  | rows => rows.map some

def evaluateRule (db : Org.DB) (tenantID : Int) (cond : User → Option Org.UserOrg → Bool) : List Int :=
  (db.users.table.rows.filter (fun u => u.tenantID = tenantID && !u.deleted
    && (joined db u).any (cond u))).map User.id

def inSubtree (db : Org.DB) (rootID : Int) (u : User) (uo : Option Org.UserOrg) : Bool :=
  uo.any (fun uo => db.orgs.rows.any (fun child => child.id = uo.orgID && !child.deleted
    && child.tenantID = u.tenantID
    && db.orgs.rows.any (fun root => root.id = rootID && !root.deleted && root.tenantID = u.tenantID
      && child.path.isDescendant root.path)))

end Mxid.Group
