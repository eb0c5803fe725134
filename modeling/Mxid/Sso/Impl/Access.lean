import Mxid.Data.Table

namespace Mxid.Sso

inductive SubjectType where
  | subjectPublic
  | subjectUser
  | subjectGroup
  | subjectOrg
  | subjectRole
  deriving DecidableEq

def SubjectType.name : SubjectType → String
  | .subjectPublic => "public"
  | .subjectUser => "user"
  | .subjectGroup => "group"
  | .subjectOrg => "org"
  | .subjectRole => "role"

inductive Effect where
  | effectAllow
  | effectDeny
  deriving DecidableEq

structure Policy where
  id : Int
  appID : Option Int
  appGroupID : Option Int
  tenantID : Int
  subjectType : SubjectType
  subjectID : Int
  effect : Effect
  createdAt : Int
  deriving DecidableEq

structure AccessDecision where
  allowed : Bool
  matchedRule : Option Policy
  reason : String
  deriving DecidableEq

structure AppGroupRel where
  appID : Int
  groupID : Int

structure PolicyDB where
  policies : Table Policy.id
  appGroupRel : List AppGroupRel

def PolicyDB.listByApp (db : PolicyDB) (appID tenantID : Int) : List Policy :=
  let groups := (db.appGroupRel.filter (fun rel => rel.appID = appID)).map AppGroupRel.groupID
  Table.orderByDesc Policy.createdAt
    (db.policies.rows.filter (fun p =>
      p.tenantID = tenantID && (p.appID = some appID || p.appGroupID.any (fun g => g ∈ groups))))

structure SubjectMatcher where
  userInGroup : (userID groupID : Int) → Except String Bool
  userInOrg : (userID orgID : Int) → Except String Bool
  userHasRole : (userID roleID : Int) → Except String Bool

structure AccessService where
  listByApp : (appID tenantID : Int) → Except String (List Policy)
  matcher : Option SubjectMatcher

def PolicyDB.service (db : PolicyDB) (matcher : SubjectMatcher) : AccessService where
  listByApp appID tenantID := .ok (db.listByApp appID tenantID)
  matcher := some matcher

namespace AccessService

variable (svc : AccessService)

def subjectMatches (r : Policy) (userID : Int) : Except String Bool :=
  match r.subjectType with
  | .subjectPublic => .ok true
  | .subjectUser => .ok (r.subjectID = userID)
  | .subjectGroup =>
    match svc.matcher with
    | none => .ok false
    | some m => m.userInGroup userID r.subjectID
  | .subjectOrg =>
    match svc.matcher with
    | none => .ok false
    | some m => m.userInOrg userID r.subjectID
  | .subjectRole =>
    match svc.matcher with
    | none => .ok false
    | some m => m.userHasRole userID r.subjectID

def firstMatch (effect : Effect) (userID : Int) : List Policy → Except String (Option Policy)
  | [] => .ok none
  | r :: rows =>
    if r.effect ≠ effect then
      firstMatch effect userID rows
    else
      match svc.subjectMatches r userID with
      | .error msg => .error msg
      | .ok true => .ok (some r)
      | .ok false => firstMatch effect userID rows

def effectiveRows (appID tenantID : Int) : Except String (List Policy) :=
  match svc.listByApp appID tenantID with
  | .error msg => .error msg
  | .ok rows =>
    if tenantID ≠ 0 then
      match svc.listByApp appID 0 with
      | .error _ => .ok rows
      | .ok global => .ok (rows ++ global)
    else
      .ok rows

def canAccess (userID appID tenantID : Int) : Except String AccessDecision :=
  match svc.effectiveRows appID tenantID with
  | .error msg => .error msg
  | .ok rows =>
    if rows = [] then
      .ok ⟨false, none, "no-rule-defined"⟩
    else
      match svc.firstMatch .effectDeny userID rows with
      | .error msg => .error msg
      | .ok (some r) => .ok ⟨false, some r, "deny:" ++ r.subjectType.name ++ ":" ++ toString r.subjectID⟩
      | .ok none =>
        match svc.firstMatch .effectAllow userID rows with
        | .error msg => .error msg
        | .ok (some r) => .ok ⟨true, some r, r.subjectType.name ++ ":" ++ toString r.subjectID⟩
        | .ok none => .ok ⟨false, none, "no-rule-matched"⟩

def checkAppAccess (userID appID tenantID : Int) : Except String (Bool × String) :=
  match svc.canAccess userID appID tenantID with
  | .error msg => .error msg
  | .ok dec => .ok (dec.allowed, dec.reason)

def allows (userID appID tenantID : Int) : Bool :=
  match svc.canAccess userID appID tenantID with
  | .error _ => false
  | .ok dec => dec.allowed

end AccessService

end Mxid.Sso
