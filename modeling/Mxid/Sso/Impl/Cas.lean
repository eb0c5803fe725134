import Mxid.Data.Text
import Mxid.Sso.Impl.Basic

namespace Mxid.Sso.Cas

variable (env : Env)

def parseAbsoluteHTTP (raw : String) : Option URL :=
  match env.parseURL raw with
  | none => none
  | some u =>
    if u.scheme = "" then
      none
    else if u.userinfo then
      none
    else if u.scheme ≠ "https" ∧ u.scheme ≠ "http" then
      none
    else if u.fragment ≠ "" then
      none
    else
      some u

def trimRightSlashes (path : String) : String :=
  String.ofList ((path.toList.reverse.dropWhile (fun c => c = '/')).reverse)

def isValidService (cfg : CASConfig) (service : String) : Bool :=
  if cfg.serviceURLs = [] then
    false
  else
    match parseAbsoluteHTTP env service with
    | none => false
    | some requested =>
      cfg.serviceURLs.any (fun allowed =>
        match parseAbsoluteHTTP env allowed with
        | none => false
        | some reg =>
          Text.equalFold requested.scheme reg.scheme && Text.equalFold requested.host reg.host &&
            (requested.path = reg.path || requested.path.startsWith (trimRightSlashes reg.path ++ "/")))

structure ServiceTicket where
  ticket : String
  userID : Int
  tenantID : Int
  service : String
  username : String
  createdAt : Int
  isProxy : Bool
  proxies : List String

structure ProxyGrantingTicket where
  pgt : String
  userID : Int
  tenantID : Int
  appID : Int
  username : String
  pgtURL : String
  proxies : List String
  createdAt : Int
  deriving DecidableEq

def defaultTicketTTL : Int := 30000
def defaultPGTicketTTL : Int := 7200000
def proxyTicketTTL : Int := 30000

structure TicketStore where
  tickets : Redis.Store String ServiceTicket
  pgts : Redis.Store String ProxyGrantingTicket

def TicketStore.empty : TicketStore := ⟨.empty, .empty⟩

namespace TicketStore

variable (s : TicketStore)

def duration (ttl default : Int) : Int := if 0 < ttl then ttl * 1000 else default

def createTicket (now : Int) (random : String) (userID tenantID : Int) (service username : String)
    (ttl : Int) : ServiceTicket × TicketStore :=
  let st : ServiceTicket := ⟨"ST-" ++ random, userID, tenantID, service, username, now, false, []⟩
  (st, { s with tickets := s.tickets.set st.ticket st (some (now + duration ttl defaultTicketTTL)) })

def consumeTicket (now : Int) (ticket : String) : Option ServiceTicket × TicketStore :=
  let (st, tickets) := s.tickets.getDel now ticket
  (st, { s with tickets := tickets })

def createPGT (now : Int) (random : String) (userID tenantID appID : Int) (username pgtURL : String)
    (proxies : List String) (ttl : Int) : ProxyGrantingTicket × TicketStore :=
  let pgt : ProxyGrantingTicket := ⟨"PGT-" ++ random, userID, tenantID, appID, username, pgtURL, proxies, now⟩
  (pgt, { s with pgts := s.pgts.set pgt.pgt pgt (some (now + duration ttl defaultPGTicketTTL)) })

def getPGT (now : Int) (pgtID : String) : Option ProxyGrantingTicket :=
  s.pgts.get now pgtID

def deletePGT (pgtID : String) : TicketStore :=
  { s with pgts := s.pgts.del pgtID }

def createProxyTicket (now : Int) (random : String) (pgt : ProxyGrantingTicket) (targetService : String) :
    ServiceTicket × TicketStore :=
  let pt : ServiceTicket :=
    ⟨"PT-" ++ random, pgt.userID, pgt.tenantID, targetService, pgt.username, now, true,
      pgt.pgtURL :: pgt.proxies⟩
  (pt, { s with tickets := s.tickets.set pt.ticket pt (some (now + proxyTicketTTL)) })

end TicketStore

structure LoginRequest where
  appCode : String
  service : String
  protoSID : String
  portalSID : String
  ssoDeny : String
  idpInitiated : String
  ssoConfirm : String

inductive LoginReply where
  | badRequest (msg : String)
  | notFound (msg : String)
  | forbidden (msg : String)
  | redirectToLogin (appCode service : String)
  | redirectToService (service : String)
  | redirectToConsent (appID : Int) (appCode service : String)
  | internalError (msg : String)
  | redirectWithTicket (app : AppConfig) (st : ServiceTicket) (location : String)

structure State where
  now : Int
  sessions : SessionStore
  confirms : ConfirmStore
  confirmEnabled : Bool
  store : TicketStore

def withTicket (service ticket : String) : String :=
  service ++ (if '?' ∈ service.toList then "&" else "?") ++ "ticket=" ++ ticket

def principal (app : AppConfig) (user : IdentityInfo) : String :=
  match env.subject app user with
  | .error _ => user.username
  | .ok subj => if subj.subject ≠ "" then subj.subject else user.username

variable (s : State) (req : LoginRequest)

def confirmLogin (userID appID : Int) : Bool × State :=
  if req.idpInitiated ≠ "1" ∧ s.confirmEnabled then
    let (confirmed, confirms) := s.confirms.consume s.now req.ssoConfirm userID appID
    (confirmed, { s with confirms := confirms })
  else
    (true, s)

def issueTicket (random : Except String String) (app : AppConfig) (sess : SSOSession) : LoginReply × State :=
  match env.resolveUser sess.userID with
  | .error _ => (.internalError "failed to resolve user", s)
  | .ok user =>
    match random with
    | .error _ => (.internalError "failed to create service ticket", s)
    | .ok random =>
      let (st, store) :=
        s.store.createTicket s.now random sess.userID sess.tenantID req.service (principal env app user)
          app.casConfig.ticketTTL
      (.redirectWithTicket app st (withTicket req.service st.ticket), { s with store := store })

def login (random : Except String String) : LoginReply × State :=
  if req.service = "" then
    (.badRequest "missing service parameter", s)
  else
    match env.getApp req.appCode with
    | none => (.notFound "application not found", s)
    | some app =>
      if app.status ≠ 1 then
        (.forbidden "application is disabled", s)
      else if !isValidService env app.casConfig req.service then
        (.badRequest "invalid service URL", s)
      else
        let (sess, sessions) := s.sessions.cookieSession s.now req.protoSID req.portalSID
        let s := { s with sessions := sessions }
        match sess with
        | none => (.redirectToLogin req.appCode req.service, s)
        | some sess =>
          if req.ssoDeny = "1" then
            (.redirectToService req.service, s)
          else
            match confirmLogin s req sess.userID app.id with
            | (false, s) => (.redirectToConsent app.id req.appCode req.service, s)
            | (true, s) => issueTicket env s req random app sess

inductive Endpoint where
  | validate
  | serviceValidate
  | p3ServiceValidate
  | proxyValidate
  | p3ProxyValidate
  deriving DecidableEq

def Endpoint.includeAttributes : Endpoint → Bool
  | .validate | .serviceValidate => false
  | .p3ServiceValidate => true
  | .proxyValidate => false
  | .p3ProxyValidate => true

def Endpoint.allowProxy : Endpoint → Bool
  | .validate => true
  | .serviceValidate | .p3ServiceValidate => false
  | .proxyValidate | .p3ProxyValidate => true

structure ValidateRequest where
  endpoint : Endpoint
  appCode : String
  ticket : String
  service : String
  pgtURL : String
  deriving DecidableEq

structure AuthenticationSuccess where
  user : String
  attributes : List (String × String)
  proxyGrantingTicket : String
  proxies : List String
  deriving DecidableEq

inductive ValidateReply where
  | failure (code message : String)
  | success (success : AuthenticationSuccess)
  | no
  | yes (username : String)
  deriving DecidableEq

def ValidateReply.accepted : ValidateReply → Bool
  | .failure _ _ => false
  | .success _ => true
  | .no => false
  | .yes _ => true

structure Failure where
  code : String
  message : String

def Endpoint.answer : Endpoint → Except Failure AuthenticationSuccess → ValidateReply
  | .validate, .error _ => .no
  | .validate, .ok success => .yes success.user
  | _, .error failure => .failure failure.code failure.message
  | _, .ok success => .success success

def buildAttributes (cfg : CASConfig) (user : IdentityInfo) : List (String × String) :=
  cfg.attributeMapping.filterMap (fun (userAttr, casAttr) =>
    match user.attribute userAttr with
    | none => none
    | some val => if val ≠ "" then some (casAttr, val) else none)

def roleAttributes (app : AppConfig) (st : ServiceTicket) : List (String × String) :=
  match env.resolveAppRoles with
  | none => []
  | some resolveAppRoles =>
    match resolveAppRoles st.userID app.id st.tenantID with
    | .error _ => []
    | .ok roles =>
      let roleAttr := if app.casConfig.roleAttribute = "" then "roles" else app.casConfig.roleAttribute
      roles.map (fun rc => (roleAttr, rc))

def attributes (app : AppConfig) (st : ServiceTicket) : List (String × String) :=
  match env.resolveUser st.userID with
  | .error _ => []
  | .ok user =>
    buildAttributes app.casConfig user ++
      (if env.tenantCode user ≠ "" then [("tenant_code", env.tenantCode user)] else []) ++
      roleAttributes env app st ++
      (if app.casConfig.groupAttribute ≠ "" then
        user.groups.map (fun gc => (app.casConfig.groupAttribute, gc))
      else
        [])

def successOf (endpoint : Endpoint) (app : Option AppConfig) (st : ServiceTicket) : AuthenticationSuccess where
  user := st.username
  attributes :=
    match app with
    | none => []
    | some app => if endpoint.includeAttributes then attributes env app st else []
  proxyGrantingTicket := ""
  proxies := if endpoint ≠ .validate ∧ st.isProxy then st.proxies else []

def acceptTicket (s : State) (req : ValidateRequest) : Except Failure ServiceTicket × State :=
  if req.ticket = "" ∨ req.service = "" then
    (.error ⟨"INVALID_REQUEST", "missing ticket or service parameter"⟩, s)
  else
    let (st, store) := s.store.consumeTicket s.now req.ticket
    let s := { s with store := store }
    match st with
    | none => (.error ⟨"INVALID_TICKET", "ticket not recognized or expired"⟩, s)
    | some st =>
      if st.isProxy ∧ !req.endpoint.allowProxy then
        (.error ⟨"INVALID_TICKET", "proxy ticket presented to serviceValidate"⟩, s)
      else if st.service ≠ req.service then
        (.error ⟨"INVALID_SERVICE", "service mismatch"⟩, s)
      else
        (.ok st, s)

def wantsPGT (req : ValidateRequest) (app : AppConfig) : Bool :=
  req.endpoint ≠ .validate && req.pgtURL ≠ "" && app.casConfig.proxyEnabled &&
    isValidService env app.casConfig req.pgtURL

structure Pending where
  req : ValidateRequest
  app : AppConfig
  st : ServiceTicket
  pgt : ProxyGrantingTicket
  pgtIOU : String

def validate (s : State) (req : ValidateRequest) (iou pgt : Except String String) : (ValidateReply ⊕ Pending) × State :=
  match acceptTicket s req with
  | (.error failure, s) => (.inl (req.endpoint.answer (.error failure)), s)
  | (.ok st, s) =>
    match env.getApp req.appCode with
    | none => (.inl (req.endpoint.answer (.ok (successOf env req.endpoint none st))), s)
    | some app =>
      match wantsPGT env req app, iou, pgt with
      | true, .ok iou, .ok random =>
        let (pgt, store) :=
          s.store.createPGT s.now random st.userID st.tenantID app.id st.username req.pgtURL st.proxies
            app.casConfig.pgTicketTTL
        (.inr ⟨req, app, st, pgt, "PGTIOU-" ++ iou⟩, { s with store := store })
      | _, _, _ => (.inl (req.endpoint.answer (.ok (successOf env req.endpoint (some app) st))), s)

def finish (s : State) (p : Pending) (acknowledged : Bool) : ValidateReply × State :=
  let success := successOf env p.req.endpoint (some p.app) p.st
  if acknowledged then
    (p.req.endpoint.answer (.ok { success with proxyGrantingTicket := p.pgtIOU }), s)
  else
    (p.req.endpoint.answer (.ok success), { s with store := s.store.deletePGT p.pgt.pgt })

structure ProxyRequest where
  appCode : String
  pgt : String
  targetService : String

inductive ProxyReply where
  | proxyFailure (code message : String)
  | proxySuccess (app : AppConfig) (pt : ServiceTicket)

def proxy (env : Env) (s : State) (req : ProxyRequest) (random : Except String String) : ProxyReply × State :=
  if req.pgt = "" ∨ req.targetService = "" then
    (.proxyFailure "INVALID_REQUEST" "missing pgt or targetService parameter", s)
  else
    match env.getApp req.appCode with
    | none => (.proxyFailure "INVALID_REQUEST" "application not found", s)
    | some app =>
      if app.status ≠ 1 then
        (.proxyFailure "INVALID_REQUEST" "application is disabled", s)
      else if !app.casConfig.proxyEnabled then
        (.proxyFailure "UNAUTHORIZED_SERVICE" "proxy authentication is not enabled for this service", s)
      else if !isValidService env app.casConfig req.targetService then
        (.proxyFailure "UNAUTHORIZED_SERVICE" "targetService is not a registered service URL", s)
      else
        match s.store.getPGT s.now req.pgt with
        | none => (.proxyFailure "BAD_PGT" "proxy-granting ticket not recognized or expired", s)
        | some pgt =>
          if pgt.appID ≠ app.id then
            (.proxyFailure "BAD_PGT" "proxy-granting ticket does not belong to this service", s)
          else
            match random with
            | .error _ => (.proxyFailure "INTERNAL_ERROR" "failed to create proxy ticket", s)
            | .ok random =>
              let (pt, store) := s.store.createProxyTicket s.now random pgt req.targetService
              (.proxySuccess app pt, { s with store := store })

end Mxid.Sso.Cas
