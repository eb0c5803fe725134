import Mxid.Data.Redis

namespace Mxid.Sso

structure CASConfig where
  serviceURLs : List String
  attributeMapping : List (String × String)
  roleAttribute : String
  groupAttribute : String
  ticketTTL : Int
  proxyEnabled : Bool
  pgTicketTTL : Int
  deriving DecidableEq

structure SAMLConfig where
  nameIDFormat : String
  spEntityID : String
  attributeMapping : List (String × String)
  roleAttribute : String
  groupAttribute : String
  sessionTTL : Int
  deriving DecidableEq

structure AppConfig where
  id : Int
  code : String
  clientID : String
  subjectStrategy : String
  status : Int
  casConfig : CASConfig
  samlConfig : SAMLConfig
  deriving DecidableEq

structure IdentityInfo where
  id : Int
  tenantID : Int
  username : String
  email : String
  phone : String
  displayName : String
  avatar : String
  groups : List String

def IdentityInfo.attribute (user : IdentityInfo) (name : String) : Option String :=
  if name = "username" then some user.username
  else if name = "email" then some user.email
  else if name = "display_name" then some user.displayName
  else if name = "phone" then some user.phone
  else none

structure SSOSession where
  id : String
  userID : Int
  tenantID : Int
  authType : String
  expiresAt : Int

structure SessionStore where
  protocol : Redis.Store String SSOSession
  portal : Redis.Store String SSOSession

namespace SessionStore

def getProtocolSSOSession (s : SessionStore) (now : Int) (sid : String) : Option SSOSession × SessionStore :=
  match s.protocol.get now sid with
  | none => (none, s)
  | some sess =>
    if sess.expiresAt < now then
      (none, { s with protocol := s.protocol.del sid })
    else
      (some sess, s)

def getSSOSession (s : SessionStore) (now : Int) (sid : String) : Option SSOSession × SessionStore :=
  match s.protocol.get now sid with
  | some _ => s.getProtocolSSOSession now sid
  | none =>
    match s.portal.get now sid with
    | none => (none, s)
    | some sess => if sess.expiresAt < now then (none, s) else (some sess, s)

def cookieSession (s : SessionStore) (now : Int) (protoSID portalSID : String) : Option SSOSession × SessionStore :=
  let (sess, s) := if protoSID ≠ "" then s.getSSOSession now protoSID else (none, s)
  match sess with
  | some sess => (some sess, s)
  | none => if portalSID ≠ "" then s.getSSOSession now portalSID else (none, s)

end SessionStore

structure SubjectInput where
  userID : Int
  username : String
  email : String
  tenantID : Int
  tenantCode : String
  clientID : String

structure SubjectOutput where
  subject : String
  displayUsername : String
  tenantCode : String

def resolveSubject (pairwiseSubject : (clientID : String) → (userID : Int) → String) (strategy : String)
    (input : SubjectInput) : Except String SubjectOutput :=
  let out (subject : String) : SubjectOutput := ⟨subject, input.username, input.tenantCode⟩
  if strategy = "username" ∨ strategy = "" then
    .ok (out input.username)
  else if strategy = "username_suffixed" then
    if input.tenantCode ≠ "" then
      .ok { out (input.username ++ "@" ++ input.tenantCode) with
        displayUsername := input.username ++ "@" ++ input.tenantCode }
    else
      .ok (out input.username)
  else if strategy = "email" then
    if input.email = "" then
      .error "subject_strategy=email but user has no email"
    else
      .ok (out input.email)
  else if strategy = "persistent_id" then
    .ok (out (toString input.userID))
  else if strategy = "pairwise" then
    if input.clientID = "" then
      .error "subject_strategy=pairwise requires client_id"
    else
      .ok (out (pairwiseSubject input.clientID input.userID))
  else
    .error ("unknown subject_strategy: " ++ strategy)

structure ConfirmStore where
  tokens : Redis.Store String (Int × Int)

def ConfirmStore.consume (s : ConfirmStore) (now : Int) (token : String) (userID appID : Int) : Bool × ConfirmStore :=
  if token = "" then
    (false, s)
  else
    match s.tokens.getDel now token with
    | (none, _) => (false, s)
    | (some val, tokens) => (val = (userID, appID), ⟨tokens⟩)

structure URL where
  scheme : String
  host : String
  path : String
  userinfo : Bool
  fragment : String

structure Env where
  getApp : (code : String) → Option AppConfig
  getAppByClientID : (clientID : String) → Option AppConfig
  resolveUser : (userID : Int) → Except String IdentityInfo
  getTenantCode : Option ((tenantID : Int) → String)
  resolveAppRoles : Option ((userID appID tenantID : Int) → Except String (List String))
  pairwiseSubject : (clientID : String) → (userID : Int) → String
  parseURL : String → Option URL

namespace Env

variable (env : Env)

def tenantCode (user : IdentityInfo) : String :=
  match env.getTenantCode with
  | none => ""
  | some getTenantCode => if 0 < user.tenantID then getTenantCode user.tenantID else ""

def subject (app : AppConfig) (user : IdentityInfo) : Except String SubjectOutput :=
  resolveSubject env.pairwiseSubject app.subjectStrategy
    ⟨user.id, user.username, user.email, user.tenantID, env.tenantCode user, app.clientID⟩

end Env

end Mxid.Sso
