import Mxid.Authn.Impl.Mfa
import Mxid.Data.Prog
import Mxid.Data.Text
import Mxid.User.Impl.Repository

namespace Mxid.Portal

open RateLimit

inductive LoginMethod where
  | smsOTP
  | emailMagicLink

structure Client where
  ip : String
  userAgent : String

structure SmsSendRequest where
  phone : String
  tenant : String

structure SmsLoginRequest where
  phone : String
  code : String
  tenant : String

structure MagicSendRequest where
  email : String
  tenant : String

inductive Response where
  | error (http code : Nat) (message : String)
  | internalError (message : String)
  | rateLimited (retryAfter : Int)
  | sent (ttlSeconds : Nat) (devSecret : Option String)
  | signedIn (userID : Int) (username displayName cookie : String)
  | redirect (location : String) (cookie : Option String)

def badRequest (code : Nat) (message : String) : Response := .error 400 code message

def numBadRequest : Nat := 40001
def numInvalidInput : Nat := 40002
def numForbiddenScope : Nat := 40301
def numTooManyAttempts : Nat := 42901

structure Config where
  smsLimiter : Limiter
  linkLimiter : Limiter
  defaultTID : Int
  publicURL : String
  devFallback : Bool
  isEmail : String → Bool
  toLower : String → String

def smsOTPTTL : Nat := 300
def smsOTPCooldown : Nat := 60
def magicLinkTTL : Nat := 300

structure Session where
  id : String
  namespaceName : String
  userID : Int
  tenantID : Int
  ip : String
  userAgent : String
  authType : String

/--
The fields `challenges`, `mfa` and `login` are those of the password login. The sessions are listed in
the order in which they were created. The list `faults` says which of the next commands fail.
-/
structure State where
  now : Int
  users : User.Repository
  tenants : (code : String) → Int
  enabled : LoginMethod → Bool
  codes : Redis.Store String (Int × String)
  cooldowns : Redis.Store String Unit
  links : Redis.Store String (Int × Int)
  limits : Keyspace String
  login : Keyspace Authn.Identifier
  challenges : Redis.Store String Authn.MFAChallengePayload
  mfa : Authn.MFAKeyspace
  sessions : List Session
  faults : List Bool

def State.start (now : Int) (users : User.Repository) (tenants : String → Int) (enabled : LoginMethod → Bool) :
    State where
  now := now
  users := users
  tenants := tenants
  enabled := enabled
  codes := .empty
  cooldowns := .empty
  links := .empty
  limits := .empty
  login := .empty
  challenges := .empty
  mfa := .empty
  sessions := []
  faults := []

inductive Cmd : Type → Type where
  | enabled (method : LoginMethod) : Cmd Bool
  | tenantByCode (code : String) : Cmd Int
  | lookupByPhone (tenantID : Int) (phone : String) : Cmd (Option Int)
  | lookupByEmail (tenantID : Int) (email : String) : Cmd (Option Int)
  | getUser (tenantID id : Int) : Cmd (Option User)
  | cooldownExists (phone : String) : Cmd Bool
  | setCooldown (phone : String) : Cmd Bool
  | setCode (phone : String) (userID : Int) (code : String) : Cmd Bool
  | getCode (phone : String) : Cmd (Except Unit (Option (Int × String)))
  | delCode (phone : String) : Cmd Unit
  | sendSMS (tenantID : Int) (phone code : String) : Cmd Bool
  | setLink (token : String) (userID tenantID : Int) : Cmd Bool
  | getDelLink (token : String) : Cmd (Option (Int × Int))
  | sendMail (tenantID : Int) (email link : String) : Cmd Bool
  | check (limiter : Limiter) (identifier : String) : Cmd (Option (RateLimitError String))
  | recordFailure (limiter : Limiter) (identifier : String) : Cmd (Option (RateLimitError String))
  | reset (limiter : Limiter) (identifier : String) : Cmd Unit
  | createSession (session : Session) : Cmd Bool

def Cmd.failure {β : Type} : Cmd β → β
  | .enabled _ => false
  | .tenantByCode _ => 0
  | .lookupByPhone .. | .lookupByEmail .. | .getUser .. => none
  | .cooldownExists _ | .setCooldown _ | .setCode .. => false
  | .getCode _ => .error ()
  | .delCode _ => ()
  | .sendSMS .. | .setLink .. => false
  | .getDelLink _ => none
  | .sendMail _ _ _ => false
  | .check limiter identifier | .recordFailure limiter identifier =>
    some ⟨limiter.cfg.purpose, identifier, limiter.cfg.lockout⟩
  | .reset _ _ => ()
  | .createSession _ => false

def idOrZero (u : Option User) : Int :=
  match u with
  | some u => u.id
  | none => 0

namespace State

variable (s : State)

def expireAt (seconds : Nat) : Option Int := some (s.now + seconds * 1000)

def perform {β : Type} (c : Cmd β) : β × State :=
  match c with
  | .enabled method => (s.enabled method, s)
  | .tenantByCode code => (s.tenants code, s)
  | .lookupByPhone tenantID phone => (some (idOrZero (s.users.getByPhone tenantID phone)), s)
  | .lookupByEmail tenantID email => (some (idOrZero (s.users.getByEmail tenantID email)), s)
  | .getUser tenantID id => (s.users.getByID tenantID id, s)
  | .cooldownExists phone => ((s.cooldowns.lookup s.now phone).isSome, s)
  | .setCooldown phone =>
    (true, { s with cooldowns := s.cooldowns.set phone () (s.expireAt smsOTPCooldown) })
  | .setCode phone userID code =>
    (true, { s with codes := s.codes.set phone (userID, code) (s.expireAt smsOTPTTL) })
  | .getCode phone => (.ok (s.codes.get s.now phone), s)
  | .delCode phone => ((), { s with codes := s.codes.del phone })
  | .sendSMS _ _ _ => (true, s)
  | .setLink token userID tenantID =>
    (true, { s with links := s.links.set token (userID, tenantID) (s.expireAt magicLinkTTL) })
  | .getDelLink token =>
    let (link, links) := s.links.getDel s.now token
    (link, { s with links })
  | .sendMail _ _ _ => (true, s)
  | .check limiter identifier => (limiter.check s.limits s.now identifier, s)
  | .recordFailure limiter identifier =>
    let (blocked, limits) := limiter.recordFailure s.limits s.now identifier
    (blocked, { s with limits })
  | .reset limiter identifier => ((), { s with limits := limiter.reset s.limits identifier })
  | .createSession session => (true, { s with sessions := s.sessions ++ [session] })

def tick : State := { s with faults := s.faults.tail }

def step {β : Type} (c : Cmd β) (s : State) : β × State :=
  if s.faults.headD false then
    (c.failure, s.tick)
  else
    s.tick.perform c

end State

def atOnce : Prog.Semantics Cmd State := ⟨State.step, fun _ s => s⟩

/-!
The handlers. The random values and the session's id come from outside.
-/

open Prog

variable (cfg : Config)

def resolveTenant (code : String) : Prog Cmd Int := do
  if code = "" then
    return cfg.defaultTID
  let tid ← call (.tenantByCode code)
  if 0 < tid then
    return tid
  return cfg.defaultTID

def respondRateLimited (err : RateLimitError String) : Response := .rateLimited err.retryAfter

def smsSend (code : Option String) (req : SmsSendRequest) : Prog Cmd Response := do
  if !(← call (.enabled .smsOTP)) then
    return .error 403 numForbiddenScope "sms otp login disabled"
  if req.phone.length < 4 ∨ 32 < req.phone.length then
    return badRequest numBadRequest "invalid request body"
  let phone := Text.trimSpace req.phone
  if ← call (.cooldownExists phone) then
    return .error 429 numTooManyAttempts "please wait before requesting another code"
  let tenantID ← resolveTenant cfg req.tenant
  match ← call (.lookupByPhone tenantID phone) with
  | none => return .sent smsOTPTTL none
  | some userID =>
    if userID = 0 then
      return .sent smsOTPTTL none
    match code with
    | none => return .internalError "failed to generate code"
    | some code =>
      if !(← call (.setCode phone userID code)) then
        return .internalError "failed to persist code"
      if !(← call (.setCooldown phone)) then
        return .internalError "failed to set cooldown"
      let providerOK ← call (.sendSMS tenantID phone code)
      return .sent smsOTPTTL (if !providerOK && cfg.devFallback then some code else none)

inductive ConsumeError where
  | codeInvalid
  | readCode

def consumeCode (phone code : String) : Prog Cmd (Except ConsumeError Int) := do
  match ← call (.getCode phone) with
  | .error () => return .error .readCode
  | .ok none => return .error .codeInvalid
  | .ok (some (userID, expected)) =>
    if expected ≠ code then
      return .error .codeInvalid
    call (.delCode phone)
    return .ok userID

def namespacePortal : String := "mxid:session:portal"

def newSession (sessionID : String) (userID tenantID : Int) (client : Client) (authType : String) : Session :=
  ⟨sessionID, namespacePortal, userID, tenantID, client.ip, client.userAgent, authType⟩

def smsLogin (sessionID : String) (req : SmsLoginRequest) (client : Client) : Prog Cmd Response := do
  if !(← call (.enabled .smsOTP)) then
    return .error 403 numForbiddenScope "sms otp login disabled"
  if req.phone = "" ∨ req.code.length ≠ 6 then
    return badRequest numBadRequest "invalid request body"
  let phone := Text.trimSpace req.phone
  let tenantID ← resolveTenant cfg req.tenant
  match ← call (.check cfg.smsLimiter ("phone:" ++ phone)) with
  | some err => return respondRateLimited err
  | none =>
    match ← consumeCode phone req.code with
    | .error .readCode => return .internalError "failed to verify code"
    | .error .codeInvalid =>
      match ← call (.recordFailure cfg.smsLimiter ("phone:" ++ phone)) with
      | some err => return respondRateLimited err
      | none => return badRequest numInvalidInput "code invalid or expired"
    | .ok userID =>
      call (.reset cfg.smsLimiter ("phone:" ++ phone))
      match ← call (.getUser tenantID userID) with
      | none => return .internalError "failed to read user"
      | some user =>
        if !(← call (.createSession (newSession sessionID userID tenantID client "sms_otp"))) then
          return .internalError "failed to create session"
        return .signedIn user.id user.username (user.displayName.getD "") sessionID

def magicLinkURL (token tenant : String) : String :=
  String.ofList (cfg.publicURL.toList.reverse.dropWhile (fun c => c = '/')).reverse
    ++ "/api/v1/portal-public/auth/magic-link/callback?token=" ++ token
    ++ (if tenant ≠ "" then "&tenant=" ++ tenant else "")

def magicSend (token : Option String) (req : MagicSendRequest) : Prog Cmd Response := do
  if !(← call (.enabled .emailMagicLink)) then
    return .error 403 numForbiddenScope "magic link login disabled"
  if req.email = "" ∨ !cfg.isEmail req.email then
    return badRequest numBadRequest "invalid request body"
  let email := Text.trimSpace (cfg.toLower req.email)
  match ← call (.check cfg.linkLimiter ("mlink:" ++ email)) with
  | some err => return respondRateLimited err
  | none =>
    match ← call (.recordFailure cfg.linkLimiter ("mlink:" ++ email)) with
    | some err => return respondRateLimited err
    | none =>
      let tenantID ← resolveTenant cfg req.tenant
      match ← call (.lookupByEmail tenantID email) with
      | none => return .sent magicLinkTTL none
      | some userID =>
        if userID = 0 then
          return .sent magicLinkTTL none
        match token with
        | none => return .internalError "failed to generate token"
        | some token =>
          if !(← call (.setLink token userID tenantID)) then
            return .internalError "failed to persist token"
          let link := magicLinkURL cfg token req.tenant
          let smtpOK ← call (.sendMail tenantID email link)
          return .sent magicLinkTTL (if !smtpOK && cfg.devFallback then some link else none)

def magicCallback (sessionID token : String) (client : Client) : Prog Cmd Response := do
  if token = "" then
    return badRequest numBadRequest "token required"
  match ← call (.getDelLink token) with
  | none => return .redirect (cfg.publicURL ++ "/login?err=magic_expired") none
  | some (userID, tenantID) =>
    if !(← call (.createSession (newSession sessionID userID tenantID client "magic_link"))) then
      return .internalError "failed to create session"
    return .redirect (cfg.publicURL ++ "/apps") (some sessionID)

end Mxid.Portal
