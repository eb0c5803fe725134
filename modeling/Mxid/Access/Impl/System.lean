import Mxid.Access.Impl.Basic

namespace Mxid.Access

inductive AccessError where
  | invalidEligibility
  | requestNotAllowed
  | requestNotFound
  | eligibilityNotFound
  | requestNotPending (status : Status)
  | selfApproval
  | approverNotEligible
  | notTheCaller
  | requestNotCancellable (status : Status)
  | grantNotRevocable (status : Status)
  deriving DecidableEq

structure Directory where
  userInGroup : (tenantID userID groupID : Int) → Bool
  userInOrg : (tenantID userID orgID : Int) → Bool
  userHasRole : (tenantID userID roleID : Int) → Bool
  superAdmin : Option (Int → Bool)

def maxEligibilityTTL : Int := 604800

def validateEligibilityRequest (e : Eligibility) : Except AccessError Unit :=
  if e.targetKind = .app ∧ e.appID = none then
    .error .invalidEligibility
  else if e.allowedDurations = [] then
    .error .invalidEligibility
  else if e.maxDurationSeconds ≤ 0 ∨ maxEligibilityTTL < e.maxDurationSeconds then
    .error .invalidEligibility
  else if e.allowedDurations.any (fun d => d ≤ 0 ∨ e.maxDurationSeconds < d) then
    .error .invalidEligibility
  else
    .ok ()

def requesterEligible (dir : Directory) (tenantID userID : Int) (e : Eligibility) : Bool :=
  match e.requester with
  | .any => true
  | .user id => id = userID
  | .group id => dir.userInGroup tenantID userID id
  | .org id => dir.userInOrg tenantID userID id

def approverAllowed (dir : Directory) (tenantID approverID : Int) (e : Eligibility) : Bool :=
  if dir.superAdmin.any (fun superAdmin => superAdmin approverID) then
    true
  else
    match e.approver with
    | .auto => true
    | .user id => id = approverID
    | .role id => dir.userHasRole tenantID approverID id
    | .group id => dir.userInGroup tenantID approverID id

structure CreateAccessRequest where
  eligibilityID : Int
  requestedSeconds : Int
  justification : String

def createRequest (dir : Directory) (db : DB) (tenantID requesterID id : Int) (req : CreateAccessRequest) :
    Except AccessError Request :=
  match db.getEligibility req.eligibilityID tenantID with
  | none => .error .eligibilityNotFound
  | some elig =>
    if !elig.enabled then
      .error .requestNotAllowed
    else if !requesterEligible dir tenantID requesterID elig then
      .error .requestNotAllowed
    else if !elig.durationAllowed req.requestedSeconds then
      .error .requestNotAllowed
    else if elig.requireJustification ∧ req.justification = "" then
      .error .requestNotAllowed
    else
      .ok
        { id := id, tenantID := tenantID, requesterID := requesterID, eligibilityID := elig.id,
          targetKind := elig.targetKind, roleID := elig.roleID, scopeType := elig.scopeType,
          scopeID := elig.scopeID, appID := elig.appID,
          requestedSeconds := elig.clampDuration req.requestedSeconds,
          justification := req.justification, status := .pending, approverID := none,
          decidedAt := none, decisionReason := "", activatedAt := none, expiresAt := none,
          bindingID := none }

inductive Call where
  | approve (req : Request) (approverID expiresAt : Int)
  | reject (req : Request) (approverID : Int) (reason : String)
  | cancel (req : Request)
  | revoke (req : Request)
  | expire (req : Request)
  deriving DecidableEq

def Call.req : Call → Request
  | .approve req _ _ | .reject req _ _ | .cancel req | .revoke req | .expire req => req

def approve (dir : Directory) (db : DB) (tenantID requestID approverID now : Int) : Except AccessError Call :=
  match db.getRequest requestID tenantID with
  | none => .error .requestNotFound
  | some req =>
    if req.status ≠ .pending then
      .error (.requestNotPending req.status)
    else if approverID = req.requesterID then
      .error .selfApproval
    else
      match db.getEligibility req.eligibilityID tenantID with
      | none => .error .eligibilityNotFound
      | some elig =>
        if approverAllowed dir tenantID approverID elig then
          .ok (.approve req approverID (now + req.requestedSeconds * 1000000000))
        else
          .error .approverNotEligible

def reject (db : DB) (tenantID requestID approverID : Int) (reason : String) : Except AccessError Call :=
  match db.getRequest requestID tenantID with
  | none => .error .requestNotFound
  | some req =>
    if req.status ≠ .pending then
      .error (.requestNotPending req.status)
    else
      .ok (.reject req approverID reason)

def cancel (db : DB) (tenantID requestID requesterID : Int) : Except AccessError Call :=
  match db.getRequest requestID tenantID with
  | none => .error .requestNotFound
  | some req =>
    if req.requesterID ≠ requesterID then
      .error .notTheCaller
    else if req.status ≠ .pending then
      .error (.requestNotCancellable req.status)
    else
      .ok (.cancel req)

def revoke (db : DB) (tenantID requestID : Int) : Except AccessError Call :=
  match db.getRequest requestID tenantID with
  | none => .error .requestNotFound
  | some req =>
    if req.status ≠ .approved then
      .error (.grantNotRevocable req.status)
    else
      .ok (.revoke req)

def Call.write (db : DB) (now bindingID : Int) : Call → Option DB
  | .approve req approverID expiresAt => db.approveAndGrant req approverID now expiresAt bindingID
  | .reject req approverID reason =>
    some (db.updateRequestStatus req.id req.tenantID .rejected reason (some approverID) now)
  | .cancel req => some (db.updateRequestStatus req.id req.tenantID .cancelled "" none now)
  | .revoke req => some (db.endGrant req .revoked)
  | .expire req => some (db.endGrant req .expired)

structure State where
  db : DB
  directory : Directory
  calls : List Call

inductive Action where
  | createEligibility (e : Eligibility)
  | updateEligibility (e : Eligibility)
  | deleteEligibility (id tenantID : Int)
  | changeDirectory (directory : Directory)
  | createRequest (tenantID requesterID id : Int) (req : CreateAccessRequest)
  | approve (tenantID requestID approverID now : Int)
  | reject (tenantID requestID approverID : Int) (reason : String)
  | cancel (tenantID requestID requesterID : Int)
  | revoke (tenantID requestID : Int)
  | sweep (now : Int)
  | write (i : Nat) (now bindingID : Int)
  | fail (i : Nat)

variable (s : State)

def State.begin : Except AccessError Call → Option State
  | .ok call => some { s with calls := s.calls ++ [call] }
  | .error _ => some s

def State.withEligibilities (t : Table Eligibility.id) : State :=
  { s with db := { s.db with eligibilities := t } }

def stepEligibility (e : Eligibility) (t : Option (Table Eligibility.id)) : Option State :=
  match validateEligibilityRequest e, t with
  | .ok _, some t => some (s.withEligibilities t)
  | _, _ => some s

def stepCreateRequest (tenantID requesterID id : Int) (req : CreateAccessRequest) : Option State :=
  match createRequest s.directory s.db tenantID requesterID id req with
  | .error _ => some s
  | .ok row =>
    match s.db.requests.insert? row with
    | none => some s
    | some requests => some { s with db := { s.db with requests } }

def stepWrite (i : Nat) (now bindingID : Int) : Option State :=
  match s.calls[i]? with
  | none => none
  | some call =>
    match call.write s.db now bindingID with
    | none => some { s with calls := s.calls.eraseIdx i }
    | some db => some { s with db, calls := s.calls.eraseIdx i }

def step : Action → Option State
  | .createEligibility e => stepEligibility s e (s.db.eligibilities.insert? { e with enabled := true })
  | .updateEligibility e =>
    stepEligibility s e ((s.db.getEligibility e.id e.tenantID).map (fun existing =>
      s.db.eligibilities.upsert { e with enabled := existing.enabled }))
  | .deleteEligibility id tenantID =>
    some (s.withEligibilities (s.db.eligibilities.delete (fun e => e.id = id ∧ e.tenantID = tenantID)))
  | .changeDirectory directory => some { s with directory }
  | .createRequest tenantID requesterID id req => stepCreateRequest s tenantID requesterID id req
  | .approve tenantID requestID approverID now =>
    s.begin (approve s.directory s.db tenantID requestID approverID now)
  | .reject tenantID requestID approverID reason => s.begin (reject s.db tenantID requestID approverID reason)
  | .cancel tenantID requestID requesterID => s.begin (cancel s.db tenantID requestID requesterID)
  | .revoke tenantID requestID => s.begin (revoke s.db tenantID requestID)
  | .sweep now => some { s with calls := s.calls ++ (s.db.listDueGrants now).map Call.expire }
  | .write i now bindingID => stepWrite s i now bindingID
  | .fail i => some { s with calls := s.calls.eraseIdx i }

end Mxid.Access
