import Mxid.Sso.Impl.Saml

namespace Mxid.Sso.Oidc

structure AuthRequest where
  id : String
  clientID : String
  redirectURI : String
  scopes : List String
  idpInitiated : Bool
  userID : String
  isDone : Bool
  authAt : Int
  amr : List String
  sessionID : String

structure Request where
  authRequestID : String
  id : String
  protoSID : String
  portalSID : String
  ssoDeny : String
  ssoConfirm : String

def Request.authReqID (req : Request) : String :=
  if req.authRequestID = "" then req.id else req.authRequestID

inductive Reply where
  | badRequest (msg : String)
  | internalError (msg : String)
  | redirectToLogin (authReqID : String)
  | noAccess (appCode reason : String)
  | accessDenied (authReqID : String)
  | redirectToPortal
  | redirectToConsent (appID : Int) (scope authReqID : String)
  | callback (authReqID : String) (app : AppConfig) (sess : SSOSession)

structure LoginBridge where
  access : Option Saml.AccessChecker
  confirmEnabled : Bool
  hasAuthorizer : Bool
  authRequestLifetime : Int

structure State where
  now : Int
  sessions : SessionStore
  confirms : ConfirmStore
  authRequests : Redis.Store String AuthRequest

def resolveSession (s : State) (req : Request) : Option (SSOSession × String) × State :=
  let (sess, sessions) :=
    if req.protoSID ≠ "" then s.sessions.getProtocolSSOSession s.now req.protoSID else (none, s.sessions)
  match sess with
  | some sess => (some (sess, req.protoSID), { s with sessions := sessions })
  | none =>
    let (sess, sessions) :=
      if req.portalSID ≠ "" then sessions.getSSOSession s.now req.portalSID else (none, sessions)
    (sess.map (fun sess => (sess, "")), { s with sessions := sessions })

def AuthRequest.done (ar : AuthRequest) (userID : String) (authTime : Int) (amr : List String)
    (sessionID : String) : AuthRequest :=
  { ar with
    userID := userID
    isDone := true
    authAt := authTime
    amr := if amr = [] then ar.amr else amr
    sessionID := if sessionID = "" then ar.sessionID else sessionID }

def authRequestDone (b : LoginBridge) (s : State) (id userID : String) (amr : List String)
    (sessionID : String) : Option State :=
  match s.authRequests.get s.now id with
  | none => none
  | some ar =>
    some { s with
      authRequests := s.authRequests.set id (ar.done userID s.now amr sessionID)
        (some (s.now + b.authRequestLifetime)) }

def denyAuthRequest (b : LoginBridge) (s : State) (authReqID : String) (ar : AuthRequest) : Reply × State :=
  let s := { s with authRequests := s.authRequests.del authReqID }
  if !b.hasAuthorizer ∨ ar.redirectURI = "" then
    (.redirectToPortal, s)
  else
    (.accessDenied authReqID, s)

def joinScopes (scopes : List String) : String := " ".intercalate scopes

variable (b : LoginBridge)

def checkAccess (app : AppConfig) (sess : SSOSession) : Except Reply Unit :=
  match b.access with
  | none => .ok ()
  | some access =>
    match access sess.userID app.id sess.tenantID with
    | .error _ => .error (.internalError "access policy check failed")
    | .ok (false, reason) => .error (.noAccess app.code reason)
    | .ok (true, _) => .ok ()

def complete (s : State) (authReqID protoSID : String) (app : AppConfig) (sess : SSOSession) : Reply × State :=
  let amr := if sess.authType = "mfa" then ["pwd", "mfa"] else ["pwd"]
  match authRequestDone b s authReqID (toString sess.userID) amr protoSID with
  | none => (.badRequest "unknown or expired auth request", s)
  | some s => (.callback authReqID app sess, s)

def confirmAndComplete (s : State) (req : Request) (authReqID protoSID : String)
    (ar : AuthRequest) (app : AppConfig) (sess : SSOSession) : Reply × State :=
  if !ar.idpInitiated ∧ b.confirmEnabled then
    if req.ssoDeny = "1" then
      denyAuthRequest b s authReqID ar
    else
      match s.confirms.consume s.now req.ssoConfirm sess.userID app.id with
      | (false, confirms) =>
        (.redirectToConsent app.id (joinScopes ar.scopes) authReqID, { s with confirms := confirms })
      | (true, confirms) => complete b { s with confirms := confirms } authReqID protoSID app sess
  else
    complete b s authReqID protoSID app sess

def handle (env : Env) (s : State) (req : Request) : Reply × State :=
  if req.authReqID = "" then
    (.badRequest "missing authRequestID", s)
  else
    match s.authRequests.get s.now req.authReqID with
    | none => (.badRequest "unknown or expired auth request", s)
    | some ar =>
      match resolveSession s req with
      | (none, s) => (.redirectToLogin req.authReqID, s)
      | (some (sess, protoSID), s) =>
        match env.getAppByClientID ar.clientID with
        | none => (.badRequest "unknown client", s)
        | some app =>
          match checkAccess b app sess with
          | .error reply => (reply, s)
          | .ok () => confirmAndComplete b s req req.authReqID protoSID ar app sess

end Mxid.Sso.Oidc
