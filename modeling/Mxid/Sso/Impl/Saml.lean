import Mxid.Sso.Impl.Basic

namespace Mxid.Sso.Saml

abbrev AccessChecker := (userID appID tenantID : Int) → Except String (Bool × String)

structure Query where
  protoSID : String
  portalSID : String
  ssoDeny : String
  ssoConfirm : String

inductive Request where
  | ssoRedirect (appCode samlRequest relayState : String) (query : Query)
  | ssoPost (appCode samlRequest relayState : String) (query : Query)
  | ssoResume (appCode requestID relayState : String) (query : Query)

structure Assertion where
  appCode : String
  app : AppConfig
  userID : Int
  tenantID : Int
  requestID : String
  relayState : String
  nameID : String
  attrs : List (String × String)
  roleCodes : List String
  groupCodes : List String

inductive Reply where
  | badRequest (msg : String)
  | notFound (msg : String)
  | forbidden (msg reason : String)
  | redirectToLogin (appCode requestID relayState : String)
  | redirectToConsent (appID : Int) (appCode requestID relayState : String)
  | samlError (appCode requestID relayState : String)
  | internalError (msg : String)
  | minted (assertion : Assertion)

structure Handler where
  access : Option AccessChecker
  confirmEnabled : Bool
  extractRequestID : String → Except String String
  makeAssertion : Assertion → Except String Unit

structure State where
  now : Int
  sessions : SessionStore
  confirms : ConfirmStore

def nameIDEmail : String := "urn:oasis:names:tc:SAML:1.1:nameid-format:emailAddress"
def nameIDPersistent : String := "urn:oasis:names:tc:SAML:2.0:nameid-format:persistent"

def resolveNameID (format : String) (user : IdentityInfo) : String :=
  if format = nameIDEmail then user.email
  else if format = nameIDPersistent then toString user.id
  else user.username

def nameID (env : Env) (app : AppConfig) (user : IdentityInfo) : String :=
  match env.subject app user with
  | .error _ => resolveNameID app.samlConfig.nameIDFormat user
  | .ok subj => if subj.subject ≠ "" then subj.subject else resolveNameID app.samlConfig.nameIDFormat user

def buildAttributes (cfg : SAMLConfig) (user : IdentityInfo) : List (String × String) :=
  cfg.attributeMapping.filterMap (fun (userAttr, samlAttr) =>
    match if userAttr = "avatar" then some user.avatar else user.attribute userAttr with
    | none => none
    | some val => if val ≠ "" then some (samlAttr, val) else none)

def setAttribute (attrs : List (String × String)) (name value : String) : List (String × String) :=
  attrs.filter (fun a => a.1 ≠ name) ++ [(name, value)]

def buildAssertion (env : Env) (appCode requestID relayState : String) (app : AppConfig)
    (sess : SSOSession) (user : IdentityInfo) : Assertion :=
  let tenantCode := env.tenantCode user
  let attrs := buildAttributes app.samlConfig user
  let attrs := if tenantCode ≠ "" then setAttribute attrs "tenant_code" tenantCode else attrs
  let displayUsername :=
    match env.subject app user with
    | .error _ => ""
    | .ok subj => subj.displayUsername
  { appCode := appCode
    app := app
    userID := sess.userID
    tenantID := sess.tenantID
    requestID := requestID
    relayState := relayState
    nameID := nameID env app user
    attrs := if displayUsername ≠ "" then setAttribute attrs "username" displayUsername else attrs
    roleCodes :=
      match env.resolveAppRoles with
      | none => []
      | some resolveAppRoles =>
        match resolveAppRoles sess.userID app.id sess.tenantID with
        | .error _ => []
        | .ok roles => roles
    groupCodes := if app.samlConfig.groupAttribute ≠ "" then user.groups else [] }

variable (h : Handler)

def mint (env : Env) (appCode requestID relayState : String) (app : AppConfig) (sess : SSOSession) : Reply :=
  match env.resolveUser sess.userID with
  | .error _ => .internalError "failed to resolve user identity"
  | .ok user =>
    let assertion := buildAssertion env appCode requestID relayState app sess user
    match h.makeAssertion assertion with
    | .error msg => .internalError msg
    | .ok () => .minted assertion

def checkAccess (userID appID tenantID : Int) : Except Reply Unit :=
  match h.access with
  | none => .ok ()
  | some access =>
    match access userID appID tenantID with
    | .error _ => .error (.forbidden "access denied" "")
    | .ok (false, reason) => .error (.forbidden "access denied" reason)
    | .ok (true, _) => .ok ()

def confirming (requestID : String) : Bool := requestID ≠ "" && h.confirmEnabled

def confirmLogin (s : State) (requestID : String) (query : Query) (userID appID : Int) : Bool × State :=
  if confirming h requestID then
    let (confirmed, confirms) := s.confirms.consume s.now query.ssoConfirm userID appID
    (confirmed, { s with confirms := confirms })
  else
    (true, s)

variable (env : Env) (s : State)

def processSSO (appCode requestID relayState : String) (query : Query) : Reply × State :=
  match env.getApp appCode with
  | none => (.notFound "application not found", s)
  | some app =>
    if app.status ≠ 1 then
      (.forbidden "application is disabled" "", s)
    else
      let (sess, sessions) := s.sessions.cookieSession s.now query.protoSID query.portalSID
      let s := { s with sessions := sessions }
      match sess with
      | none => (.redirectToLogin appCode requestID relayState, s)
      | some sess =>
        if confirming h requestID ∧ query.ssoDeny = "1" then
          (.samlError appCode requestID relayState, s)
        else
          match confirmLogin h s requestID query sess.userID app.id with
          | (false, s) => (.redirectToConsent app.id appCode requestID relayState, s)
          | (true, s) =>
            match checkAccess h sess.userID app.id sess.tenantID with
            | .error reply => (reply, s)
            | .ok () => (mint h env appCode requestID relayState app sess, s)

def idpInitiatedSSO (appCode relayState : String) (query : Query) : Reply × State :=
  processSSO h env s appCode "" relayState query

def ssoBinding (appCode samlRequest relayState : String) (query : Query) : Reply × State :=
  if samlRequest = "" then
    idpInitiatedSSO h env s appCode relayState query
  else
    match h.extractRequestID samlRequest with
    | .error _ => (.badRequest "invalid SAMLRequest", s)
    | .ok requestID => processSSO h env s appCode requestID relayState query

def handle : Request → Reply × State
  | .ssoRedirect appCode samlRequest relayState query =>
    ssoBinding h env s appCode samlRequest relayState query
  | .ssoPost appCode samlRequest relayState query =>
    ssoBinding h env s appCode samlRequest relayState query
  | .ssoResume appCode requestID relayState query =>
    if requestID = "" then
      idpInitiatedSSO h env s appCode relayState query
    else
      processSSO h env s appCode requestID relayState query

end Mxid.Sso.Saml
