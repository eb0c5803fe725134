import Mxid.Org.Impl.Repository

/-!
This module contains the service for organizations, and the two systems it makes up.
-/

namespace Mxid.Org

inductive OrgError where
  | invalidOrgCode
  | parentOrgNotFound
  | orgNotFound
  | orgCodeExists
  | rootOrgDelete
  | orgHasChildren
  | orgCycle
  | userNotInTenant
  | failed

def rootOrgID : Int := 1

def orgCodeRe (code : List Char) : Bool :=
  !code.isEmpty && code.all (fun c => c.isAlphanum || c = '_')

structure CreateOrgRequest where
  name : String
  code : List Char
  parentID : Option Int
  sortOrder : Int

structure UpdateOrgRequest where
  name : String
  sortOrder : Int
  status : Int

structure AddMemberRequest where
  userID : Int
  isPrimary : Bool

variable (db : DB)

def fetchOrg (tenantID id : Int) : Except OrgError Organization :=
  match db.getByID tenantID id with
  | none => .error .orgNotFound
  | some org => .ok org

def fetchParentOrg (tenantID id : Int) : Except OrgError Organization :=
  match db.getByID tenantID id with
  | none => .error .parentOrgNotFound
  | some org => .ok org

def pathBelow (parent : Option Organization) (code : List Char) : List Char :=
  match parent with
  | none => code
  | some parent => parent.path.text ++ '.' :: code

def fetchParent (tenantID : Int) (parentID : Option Int) : Except OrgError (Option Organization) :=
  match parentID with
  | none => .ok none
  | some p =>
    match fetchParentOrg db tenantID p with
    | .error e => .error e
    | .ok parent => .ok (some parent)

def CreateOrgRequest.organization (req : CreateOrgRequest) (tenantID id : Int) (path : Ltree) : Organization where
  id := id
  tenantID := tenantID
  name := req.name
  code := req.code
  parentID := req.parentID
  path := path
  sortOrder := req.sortOrder
  status := 1
  deleted := false

def create (tenantID id : Int) (req : CreateOrgRequest) : Except OrgError DB :=
  if !orgCodeRe req.code then
    .error .invalidOrgCode
  else
    match fetchParent db tenantID req.parentID with
    | .error e => .error e
    | .ok parent =>
      match Ltree.ofText (pathBelow parent req.code) with
      | none => .error .failed
      | some path =>
        match db.create (req.organization tenantID id path) with
        | none => .error (if db.codeTaken tenantID req.code then .orgCodeExists else .failed)
        | some db => .ok db

def update (tenantID id : Int) (req : UpdateOrgRequest) : Except OrgError DB :=
  match fetchOrg db tenantID id with
  | .error e => .error e
  | .ok org =>
    .ok (db.update tenantID { org with name := req.name, sortOrder := req.sortOrder, status := req.status })

def delete (tenantID id : Int) : Except OrgError DB :=
  if id = rootOrgID then
    .error .rootOrgDelete
  else if tenantID ≤ 0 then
    .error .failed
  else if !(db.getChildren tenantID id).isEmpty then
    .error .orgHasChildren
  else
    match db.delete tenantID id with
    | none => .error .failed
    | some db => .ok db

structure MoveCall where
  tenantID : Int
  org : Organization
  parent : Option Organization

def MoveCall.newPath (call : MoveCall) : List Char :=
  pathBelow call.parent call.org.code

def cyclic (org parent : Organization) : Bool :=
  parent.id = org.id || parent.path.text = org.path.text
    || (org.path.text ++ ['.']).isPrefixOf parent.path.text

def checkMove (tenantID id : Int) (parentID : Option Int) : Except OrgError MoveCall :=
  match fetchOrg db tenantID id with
  | .error e => .error e
  | .ok org =>
    match fetchParent db tenantID parentID with
    | .error e => .error e
    | .ok parent =>
      if parent.any (cyclic org) then
        .error .orgCycle
      else
        .ok ⟨tenantID, org, parent⟩

def MoveCall.write (reading : SubstringFrom) (call : MoveCall) : Option DB :=
  db.move reading call.tenantID call.org.id (call.parent.map Organization.id) call.newPath

def move (reading : SubstringFrom) (tenantID id : Int) (parentID : Option Int) : Except OrgError DB :=
  match checkMove db tenantID id parentID with
  | .error e => .error e
  | .ok call =>
    match call.write db reading with
    | none => .error .failed
    | some db => .ok db

def addMember (tenantID orgID relID createdAt : Int) (req : AddMemberRequest) : Except OrgError DB :=
  match fetchOrg db tenantID orgID with
  | .error e => .error e
  | .ok _ =>
    match db.users.getByID tenantID req.userID with
    | none => .error .userNotInTenant
    | some _ =>
      match db.addMember ⟨relID, req.userID, orgID, req.isPrimary, createdAt⟩ with
      | none => .error .failed
      | some db => .ok db

def removeMember (tenantID userID orgID : Int) : Except OrgError DB :=
  match fetchOrg db tenantID orgID with
  | .error e => .error e
  | .ok _ =>
    match db.removeMember userID orgID with
    | none => .error .failed
    | some db => .ok db

inductive Action where
  | create (tenantID id : Int) (req : CreateOrgRequest)
  | update (tenantID id : Int) (req : UpdateOrgRequest)
  | delete (tenantID id : Int)
  | move (tenantID id : Int) (parentID : Option Int)
  | addMember (tenantID orgID relID createdAt : Int) (req : AddMemberRequest)
  | removeMember (tenantID userID orgID : Int)
  | changeUsers (users : User.Repository)

def call (reading : SubstringFrom) (db : DB) : Action → Except OrgError DB
  | .create tenantID id req => create db tenantID id req
  | .update tenantID id req => update db tenantID id req
  | .delete tenantID id => delete db tenantID id
  | .move tenantID id parentID => move db reading tenantID id parentID
  | .addMember tenantID orgID relID createdAt req => addMember db tenantID orgID relID createdAt req
  | .removeMember tenantID userID orgID => removeMember db tenantID userID orgID
  | .changeUsers users =>
    if db.users.table.rows.all (fun u => users.table.rows.any (fun u' => u'.id = u.id ∧ u'.tenantID = u.tenantID)) then
      .ok { db with users }
    else
      .error .failed

def step (reading : SubstringFrom) (db : DB) (a : Action) : Option DB :=
  match call reading db a with
  | .ok db | .error _ => some db

structure State where
  db : DB
  calls : List MoveCall

inductive MoveAction where
  | check (tenantID id : Int) (parentID : Option Int)
  | write (i : Nat)
  | fail (i : Nat)

def moveStep (reading : SubstringFrom) (s : State) : MoveAction → Option State
  | .check tenantID id parentID =>
    match checkMove s.db tenantID id parentID with
    | .error _ => some s
    | .ok call => some { s with calls := s.calls ++ [call] }
  | .write i =>
    match s.calls[i]? with
    | none => none
    | some call =>
      match call.write s.db reading with
      | none => some { s with calls := s.calls.eraseIdx i }
      | some db => some { db, calls := s.calls.eraseIdx i }
  | .fail i => some { s with calls := s.calls.eraseIdx i }

def parentIn (orgs : List Organization) (org : Organization) : Option Int :=
  match org.parentID with
  | none => none
  | some parentID => if parentID ∈ orgs.map Organization.id then some parentID else none

/--
The responses are named by the ids of their organizations. The entries of `none` are the roots.
-/
def buildTree (orgs : List Organization) : Option Int → List Int :=
  orgs.foldl (fun children org =>
      let parent := parentIn orgs org
      Function.update children parent (children parent ++ [org.id]))
    (fun _ => [])

end Mxid.Org
