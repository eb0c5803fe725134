import Mxid.Data.Like
import Mxid.Data.Ltree
import Mxid.User.Impl.Repository

namespace Mxid

structure Organization where
  id : Int
  tenantID : Int
  name : String
  code : List Char
  parentID : Option Int
  path : Ltree
  sortOrder : Int
  status : Int
  deleted : Bool
  deriving DecidableEq

namespace Org

structure UserOrg where
  id : Int
  userID : Int
  orgID : Int
  isPrimary : Bool
  createdAt : Int

structure DB where
  orgs : Table Organization.id
  userOrgs : Table UserOrg.id
  users : User.Repository

/--
How the server reads `SUBSTRING(path::text FROM ?)`. The parameter is bound as a text: the number of the
first character to keep, in decimal. A server may take it for that number. PostgreSQL resolves a
parameter without a type to a text, and a text in this place is a regular expression to look for.
-/
inductive SubstringFrom where
  | position
  | pattern
  deriving DecidableEq

def SubstringFrom.eval (text : List Char) (n : Nat) : SubstringFrom → Option (List Char)
  | .position => some (text.drop (n - 1))
  | .pattern =>
    let digits := (toString n).toList
    if text.tails.any (fun t => digits.isPrefixOf t) then some digits else none

namespace DB

variable (db : DB)

/-!
Statements of the model are confined to the tenant, and fail without one.
-/

def inTenant (tenantID : Int) (o : Organization) : Bool :=
  o.tenantID = tenantID && !o.deleted

def getByID (tenantID id : Int) : Option Organization :=
  if 0 < tenantID then (db.orgs.find? id).filter (inTenant tenantID) else none

def getChildren (tenantID parentID : Int) : List Organization :=
  Table.orderBy Organization.sortOrder
    (db.orgs.rows.filter (fun o => inTenant tenantID o && o.parentID = some parentID))

def parentExists (parentID : Option Int) : Bool :=
  parentID.all (fun p => db.orgs.rows.any (fun o => o.id = p))

def codeTaken (tenantID : Int) (code : List Char) : Bool :=
  db.orgs.rows.any (fun o => o.tenantID = tenantID ∧ o.code = code)

def create (org : Organization) : Option DB :=
  if db.codeTaken org.tenantID org.code || !db.parentExists org.parentID then
    none
  else
    match db.orgs.insert? org with
    | none => none
    | some orgs => some { db with orgs }

def save (org o : Organization) : Organization :=
  { org with id := o.id }

@[simp]
theorem id_save (org o : Organization) : (save org o).id = o.id := rfl

def update (tenantID : Int) (org : Organization) : DB :=
  { db with
    orgs := db.orgs.update (fun o => o.id = org.id && inTenant tenantID o) (save org) (id_save org) }

def delete (tenantID id : Int) : Option DB :=
  let doomed (o : Organization) : Bool := o.id = id && o.tenantID = tenantID
  if !db.orgs.rows.any doomed then
    some db
  else if db.orgs.rows.any (fun o => o.parentID = some id) then
    none
  else
    some { db with
      orgs := db.orgs.delete doomed
      userOrgs := db.userOrgs.delete (fun uo => uo.orgID = id) }

def selects (org : Organization) (r : Organization) : Bool :=
  like (org.path.text ++ ['.'] ++ ['%']) r.path.text && r.id ≠ org.id && !r.deleted

def rewrite (reading : SubstringFrom) (oldPath newPath path : Ltree) : Option Ltree :=
  match reading.eval path.text (oldPath.text.length + 1) with
  | none => none
  | some rest => Ltree.ofText (newPath.text ++ rest)

def setParent (parentID : Option Int) (path : Ltree) (o : Organization) : Organization :=
  { o with parentID := parentID, path := path }

@[simp]
theorem id_setParent (parentID : Option Int) (path : Ltree) (o : Organization) :
    (setParent parentID path o).id = o.id := rfl

def setPath (reading : SubstringFrom) (oldPath newPath : Ltree) (o : Organization) : Organization :=
  { o with path := (rewrite reading oldPath newPath o.path).getD o.path }

@[simp]
theorem id_setPath (reading : SubstringFrom) (oldPath newPath : Ltree) (o : Organization) :
    (setPath reading oldPath newPath o).id = o.id := rfl

def move (reading : SubstringFrom) (tenantID id : Int) (newParentID : Option Int) (newPath : List Char) : Option DB :=
  match db.getByID tenantID id, Ltree.ofText newPath with
  | some org, some newPath =>
    let rewritable (r : Organization) : Bool :=
      selects org r → (rewrite reading org.path newPath r.path).isSome
    if db.parentExists newParentID && db.orgs.rows.all rewritable then
      let orgs := db.orgs.update (fun o => o.id = id && inTenant tenantID o)
        (setParent newParentID newPath) (id_setParent newParentID newPath)
      some { db with
        orgs := orgs.update (selects org) (setPath reading org.path newPath)
          (id_setPath reading org.path newPath) }
    else
      none
  | _, _ => none

def addMember (rel : UserOrg) : Option DB :=
  if db.userOrgs.rows.any (fun uo => uo.userID = rel.userID ∧ uo.orgID = rel.orgID) then
    none
  else
    match db.userOrgs.insert? rel with
    | none => none
    | some userOrgs => some { db with userOrgs }

def removeMember (userID orgID : Int) : Option DB :=
  let doomed (uo : UserOrg) : Bool := uo.userID = userID ∧ uo.orgID = orgID
  if db.userOrgs.rows.any doomed then
    some { db with userOrgs := db.userOrgs.delete doomed }
  else
    none

/-!
Queries along the hierarchy. None of them knows the tenant of the caller by itself.
-/

def isAncestorOrSelf (ancestor descendant : Int) : Bool :=
  ancestor = descendant
    || db.orgs.rows.any (fun d => d.id = descendant && !d.deleted
      && db.orgs.rows.any (fun a => a.id = ancestor && !a.deleted && d.path.isDescendant a.path))

def ancestorIDsForUser (tenantID userID : Int) : List Int :=
  (db.orgs.rows.filter (fun o₂ => !o₂.deleted && o₂.tenantID = tenantID
    && db.userOrgs.rows.any (fun uo => uo.userID = userID
      && db.orgs.rows.any (fun o₁ => o₁.id = uo.orgID && !o₁.deleted && o₁.path.isDescendant o₂.path)))).map
    Organization.id

def subtree (orgID : Int) : List Int :=
  match (db.orgs.find? orgID).filter (fun o => !o.deleted) with
  | none => []
  | some root =>
    (db.orgs.rows.filter (fun o => !o.deleted
      && (o.path = root.path || like (root.path.text ++ ['.'] ++ ['%']) o.path.text))).map Organization.id

def memberships (orgID : Int) : List UserOrg :=
  db.userOrgs.rows.filter (fun uo => (db.subtree orgID).contains uo.orgID
    && db.users.table.rows.any (fun u => u.id = uo.userID && !u.deleted))

def firstAssignment (rows : List UserOrg) (userID : Int) : Int :=
  ((rows.filter (fun uo => uo.userID = userID)).map UserOrg.createdAt).min?.getD 0

def getMembers (orgID : Int) (page pageSize : Nat) : List Int × Nat :=
  let rows := db.memberships orgID
  let userIDs := (rows.map UserOrg.userID).dedup
  (((Table.orderBy (firstAssignment rows) userIDs).drop ((page - 1) * pageSize)).take pageSize,
    userIDs.length)

end DB

end Org
end Mxid
