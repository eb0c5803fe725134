import Mxid.Data.Table

namespace Mxid.Access

inductive TargetKind where
  | console
  | app
  deriving DecidableEq

inductive Status where
  | pending
  | approved
  | rejected
  | cancelled
  | expired
  | revoked
  deriving DecidableEq

inductive RequesterSubject where
  | any
  | user (id : Int)
  | group (id : Int)
  | org (id : Int)

inductive ApproverSubject where
  | role (id : Int)
  | group (id : Int)
  | user (id : Int)
  | auto

inductive SubjectType where
  | user
  | group
  | org
  | role
  deriving DecidableEq

structure Eligibility where
  id : Int
  tenantID : Int
  targetKind : TargetKind
  roleID : Int
  scopeType : Option String
  scopeID : Option Int
  appID : Option Int
  requester : RequesterSubject
  allowedDurations : List Int
  maxDurationSeconds : Int
  approver : ApproverSubject
  requireJustification : Bool
  enabled : Bool

def Eligibility.durationAllowed (e : Eligibility) (seconds : Int) : Bool :=
  seconds ∈ e.allowedDurations

def Eligibility.clampDuration (e : Eligibility) (seconds : Int) : Int :=
  if 0 < e.maxDurationSeconds ∧ e.maxDurationSeconds < seconds then e.maxDurationSeconds else seconds

structure Request where
  id : Int
  tenantID : Int
  requesterID : Int
  eligibilityID : Int
  targetKind : TargetKind
  roleID : Int
  scopeType : Option String
  scopeID : Option Int
  appID : Option Int
  requestedSeconds : Int
  justification : String
  status : Status
  approverID : Option Int
  decidedAt : Option Int
  decisionReason : String
  activatedAt : Option Int
  expiresAt : Option Int
  bindingID : Option Int
  deriving DecidableEq

structure RoleBinding where
  id : Int
  roleID : Int
  subjectType : SubjectType
  subjectID : Int
  scopeType : Option String
  scopeID : Option Int
  grantID : Option Int
  expiresAt : Option Int
  status : Int
  deriving DecidableEq

def bindingActive : Int := 1

structure AppRoleBinding where
  id : Int
  appID : Option Int
  appGroupID : Option Int
  tenantID : Int
  appRoleID : Int
  subjectType : SubjectType
  subjectID : Int
  grantID : Option Int
  expiresAt : Option Int
  deriving DecidableEq

structure DB where
  eligibilities : Table Eligibility.id
  requests : Table Request.id
  roleBindings : Table RoleBinding.id
  appRoleBindings : Table AppRoleBinding.id

def DB.getEligibility (db : DB) (id tenantID : Int) : Option Eligibility :=
  (db.eligibilities.find? id).filter (fun e => e.tenantID = tenantID)

def DB.getRequest (db : DB) (id tenantID : Int) : Option Request :=
  (db.requests.find? id).filter (fun r => r.tenantID = tenantID)

def DB.listDueGrants (db : DB) (now : Int) : List Request :=
  db.requests.rows.filter (fun r => r.status = .approved ∧ r.expiresAt.any (fun t => t ≤ now))

variable (req : Request)

def Request.replacesRole (b : RoleBinding) : Bool :=
  b.roleID = req.roleID ∧ b.subjectType = .user ∧ b.subjectID = req.requesterID
    ∧ b.scopeType.getD "" = req.scopeType.getD "" ∧ b.scopeID.getD 0 = req.scopeID.getD 0

def Request.roleBinding (bindingID expiresAt : Int) : RoleBinding :=
  { id := bindingID, roleID := req.roleID, subjectType := .user, subjectID := req.requesterID,
    scopeType := req.scopeType, scopeID := req.scopeID, grantID := some req.id,
    expiresAt := some expiresAt, status := bindingActive }

def Request.replacesApp (b : AppRoleBinding) : Bool :=
  b.appID = req.appID ∧ b.tenantID = req.tenantID ∧ b.appRoleID = req.roleID
    ∧ b.subjectType = .user ∧ b.subjectID = req.requesterID ∧ b.appGroupID = none

def Request.appRoleBinding (bindingID expiresAt : Int) : AppRoleBinding :=
  { id := bindingID, appID := req.appID, appGroupID := none, tenantID := req.tenantID,
    appRoleID := req.roleID, subjectType := .user, subjectID := req.requesterID,
    grantID := some req.id, expiresAt := some expiresAt }

def DB.insertRoleBinding (db : DB) (bindingID expiresAt : Int) : Option DB :=
  match (db.roleBindings.delete req.replacesRole).insert? (req.roleBinding bindingID expiresAt) with
  | none => none
  | some roleBindings => some { db with roleBindings }

def DB.insertAppRoleBinding (db : DB) (bindingID expiresAt : Int) : Option DB :=
  match req.appID with
  | none => none
  | some _ =>
    match (db.appRoleBindings.delete req.replacesApp).insert? (req.appRoleBinding bindingID expiresAt) with
    | none => none
    | some appRoleBindings => some { db with appRoleBindings }

def DB.insertBinding (db : DB) (req : Request) (bindingID expiresAt : Int) : Option DB :=
  match req.targetKind with
  | .console => db.insertRoleBinding req bindingID expiresAt
  | .app => db.insertAppRoleBinding req bindingID expiresAt

def isRequest (id tenantID : Int) (r : Request) : Bool :=
  r.id = id ∧ r.tenantID = tenantID

def Request.approve (approverID now expiresAt bindingID : Int) (r : Request) : Request :=
  { r with
    status := .approved
    approverID := some approverID
    decidedAt := some now
    activatedAt := some now
    expiresAt := some expiresAt
    bindingID := some bindingID }

@[simp]
theorem Request.id_approve (approverID now expiresAt bindingID : Int) (r : Request) :
    (Request.approve approverID now expiresAt bindingID r).id = r.id := rfl

def DB.approveAndGrant (db : DB) (req : Request) (approverID now expiresAt bindingID : Int) : Option DB :=
  match db.insertBinding req bindingID expiresAt with
  | none => none
  | some db =>
    let pending (r : Request) : Bool := isRequest req.id req.tenantID r && r.status = .pending
    if db.requests.rows.any pending then
      some { db with
        requests := db.requests.update pending (Request.approve approverID now expiresAt bindingID)
          (Request.id_approve approverID now expiresAt bindingID) }
    else
      none

variable (status : Status) (reason : String) (approverID : Option Int) (now : Int) (r : Request)

def Request.decide : Request :=
  { r with
    status := status
    decisionReason := reason
    approverID := approverID.or r.approverID
    decidedAt := some now }

@[simp]
theorem Request.id_decide : (Request.decide status reason approverID now r).id = r.id := rfl

def DB.updateRequestStatus (db : DB) (id tenantID : Int) (status : Status) (reason : String)
    (approverID : Option Int) (now : Int) : DB :=
  { db with
    requests := db.requests.update (isRequest id tenantID) (Request.decide status reason approverID now)
      (Request.id_decide status reason approverID now) }

def DB.deleteBinding (db : DB) (req : Request) : DB :=
  match req.bindingID with
  | none => db
  | some id =>
    match req.targetKind with
    | .console => { db with roleBindings := db.roleBindings.delete (fun b => b.id = id) }
    | .app => { db with appRoleBindings := db.appRoleBindings.delete (fun b => b.id = id) }

def Request.finish (finalStatus : Status) (r : Request) : Request :=
  { r with status := finalStatus }

@[simp]
theorem Request.id_finish (finalStatus : Status) (r : Request) : (Request.finish finalStatus r).id = r.id := rfl

def DB.endGrant (db : DB) (req : Request) (finalStatus : Status) : DB :=
  let db := db.deleteBinding req
  { db with
    requests := db.requests.update (isRequest req.id req.tenantID) (Request.finish finalStatus)
      (Request.id_finish finalStatus) }

end Mxid.Access
