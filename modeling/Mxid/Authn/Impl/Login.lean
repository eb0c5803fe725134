import Mxid.Authn.Impl.Limiter

namespace Mxid.Authn

open RateLimit

inductive AuthStatus where
  | success
  | mfaRequired
  | locked
  | failed
  | disabled
  deriving DecidableEq

structure AuthRequest where
  tenantID : Int
  authType : String
  username : String
  password : String
  clientIP : String
  userAgent : String

structure AuthResult where
  userID : Int
  username : String
  displayName : String
  status : AuthStatus

structure UserAuth where
  id : Int
  username : String
  displayName : String
  passwordHash : String
  status : Int

def statusActive : Int := 1
def statusLocked : Int := 2
def statusDisabled : Int := 3

structure UserAuthQuerier where
  getByUsername : (tenantID : Int) → (username : String) → Option UserAuth
  getByEmail : (tenantID : Int) → (email : String) → Option UserAuth
  username_id_pos : ∀ tenantID username u, getByUsername tenantID username = some u → 0 < u.id
  email_id_pos : ∀ tenantID email u, getByEmail tenantID email = some u → 0 < u.id

def localProviderType : String := "local"

def UserAuthQuerier.resolveUser (users : UserAuthQuerier) (tenantID : Int) (identifier : String) : Option UserAuth :=
  match users.getByUsername tenantID identifier with
  | some u => some u
  | none => if '@' ∈ identifier.toList then users.getByEmail tenantID identifier else none

def noUser : AuthResult := ⟨0, "", "", .failed⟩

def UserAuth.result (u : UserAuth) (status : AuthStatus) : AuthResult :=
  ⟨u.id, u.username, if status = .success then u.displayName else "", status⟩

variable (checkPassword : (password hash : String) → Bool) (users : UserAuthQuerier) (req : AuthRequest)

def authenticate : AuthResult :=
  if req.username = "" ∨ req.password = "" then
    noUser
  else
    match users.resolveUser req.tenantID req.username with
    | none => noUser
    | some u =>
      if u.status = statusLocked then
        u.result .locked
      else if u.status ≠ statusActive ∧ u.status ≠ statusDisabled then
        u.result .failed
      else if !checkPassword req.password u.passwordHash then
        u.result .failed
      else if u.status = statusDisabled then
        u.result .disabled
      else
        u.result .success

def comparesWrong : Bool :=
  if req.username = "" ∨ req.password = "" then
    false
  else
    match users.resolveUser req.tenantID req.username with
    | none => false
    | some u =>
      (u.status = statusActive ∨ u.status = statusDisabled) && !checkPassword req.password u.passwordHash

inductive Identifier where
  | user (id : Int)
  | ip (addr : String)
  deriving DecidableEq

def loginIdentifiers (userID : Int) (clientIP : String) : List Identifier :=
  (if 0 < userID then [.user userID] else []) ++ (if clientIP ≠ "" then [.ip clientIP] else [])

structure LoginConfig where
  maxFailedAttempts : Int
  lockoutDuration : Int

def newLoginLimiter (cfg : LoginConfig) : Except String Limiter :=
  let maxAttempts := if cfg.maxFailedAttempts ≤ 0 then 5 else cfg.maxFailedAttempts
  let lockout := if cfg.lockoutDuration ≤ 0 then 900000 else cfg.lockoutDuration
  Limiter.new { purpose := "login", maxAttempts := maxAttempts, window := lockout, lockout := lockout }

inductive LoginError where
  | unknownProvider
  | accountLocked (cause : Option (RateLimitError Identifier))
  | authFailed
  | accountDisabled
  | mfaRequired
  | checkMFA (msg : String)
  | issueMFAChallenge (msg : String)
  | createSession (msg : String)

structure LoginResponse where
  userID : Int
  tenantID : Int
  username : String
  displayName : String
  sessionID : String
  mfaRequired : Bool
  mfaMethods : List String
  challenge : String

structure UserLocked where
  userID : Int
  reason : String
  ip : String

structure Engine where
  checkPassword : (password hash : String) → Bool
  loginLimiter : Limiter

structure Backend where
  hasVerifiedTOTP : Option (Int → Except String Bool)
  issueMFAChallenge : (namespaceName : String) → AuthRequest → AuthResult → Except String String
  createSession : (namespaceName : String) → AuthRequest → AuthResult → Except String String

namespace Engine

variable (e : Engine)

def checkLoginLock (rdb : Keyspace Identifier) (now userID : Int) (clientIP : String) : Option LoginError :=
  match e.loginLimiter.checkMany rdb now (loginIdentifiers userID clientIP) with
  | some err => some (.accountLocked (some err))
  | none => none

def trackFailure (rdb : Keyspace Identifier) (now userID : Int) (req : AuthRequest) :
    List UserLocked × Keyspace Identifier :=
  let ids := loginIdentifiers userID req.clientIP
  let alreadyLocked := (e.loginLimiter.checkMany rdb now ids).isSome
  let (tripped, rdb) := e.loginLimiter.recordFailureMany rdb now ids
  if tripped.isSome ∧ !alreadyLocked ∧ 0 < userID then
    ([⟨userID, "max_failed_attempts", req.clientIP⟩], rdb)
  else
    ([], rdb)

def clearFailureCountIP (rdb : Keyspace Identifier) (userID : Int) (clientIP : String) : Keyspace Identifier :=
  e.loginLimiter.resetMany rdb (loginIdentifiers userID clientIP)

section

variable (backend : Backend) (namespaceName : String) (req : AuthRequest) (result : AuthResult)

def completeLogin : Except LoginError LoginResponse :=
  match backend.createSession namespaceName req result with
  | .error msg => .error (.createSession msg)
  | .ok sessionID =>
    .ok ⟨result.userID, req.tenantID, result.username, result.displayName, sessionID, false, [], ""⟩

def issueChallenge : Except LoginError LoginResponse :=
  match backend.issueMFAChallenge namespaceName req result with
  | .error msg => .error (.issueMFAChallenge msg)
  | .ok challenge =>
    .ok ⟨result.userID, req.tenantID, result.username, result.displayName, "", true, ["totp"], challenge⟩

def secondFactor : Except LoginError LoginResponse :=
  match backend.hasVerifiedTOTP with
  | none => completeLogin backend namespaceName req result
  | some hasVerifiedTOTP =>
    match hasVerifiedTOTP result.userID with
    | .error msg => .error (.checkMFA msg)
    | .ok true => issueChallenge backend namespaceName req result
    | .ok false => completeLogin backend namespaceName req result

end

structure LoginOutcome where
  response : Except LoginError LoginResponse
  events : List UserLocked
  rdb : Keyspace Identifier

def login (users : UserAuthQuerier) (backend : Backend) (rdb : Keyspace Identifier) (now : Int)
    (req : AuthRequest) (namespaceName : String) : LoginOutcome :=
  if req.authType ≠ localProviderType then
    ⟨.error .unknownProvider, [], rdb⟩
  else
    match e.checkLoginLock rdb now 0 req.clientIP with
    | some err => ⟨.error err, [], rdb⟩
    | none =>
      let result := authenticate e.checkPassword users req
      match result.status with
      | .failed =>
        let (events, rdb) := e.trackFailure rdb now result.userID req
        ⟨.error .authFailed, events, rdb⟩
      | .locked => ⟨.error (.accountLocked none), [], rdb⟩
      | .disabled => ⟨.error .accountDisabled, [], rdb⟩
      | .mfaRequired => ⟨.error .mfaRequired, [], rdb⟩
      | .success =>
        let rdb := if 0 < result.userID then e.clearFailureCountIP rdb result.userID req.clientIP else rdb
        ⟨secondFactor backend namespaceName req result, [], rdb⟩

end Engine

end Mxid.Authn
