import Mxid.Data.Run
import Mxid.Portal.Impl.Passwordless

namespace Mxid.Portal

open Authn (AuthRequest Backend MFAVerifier UserAuth UserAuthQuerier)

def toUserAuth (u : User) : UserAuth :=
  ⟨u.id, u.username, u.displayName.getD "", u.passwordHash, u.status⟩

def querier (r : User.Repository) : UserAuthQuerier where
  getByUsername tenantID username := (r.getByUsername tenantID username).map toUserAuth
  getByEmail tenantID email := (r.getByEmail tenantID email).map toUserAuth
  username_id_pos tenantID username ua h := by
    rw [Option.map_eq_some_iff] at h
    rcases h with ⟨u, hu, rfl⟩
    apply r.id_pos u (User.Repository.first_eq_some hu).1
  email_id_pos tenantID email ua h := by
    rw [Option.map_eq_some_iff] at h
    rcases h with ⟨u, hu, rfl⟩
    apply r.id_pos u (User.Repository.first_eq_some hu).1

inductive Request where
  | login (req : AuthRequest) (namespaceName : String)
  | verifyMFA (challenge code : String)
  | smsSend (req : SmsSendRequest)
  | smsLogin (req : SmsLoginRequest) (client : Client)
  | magicSend (req : MagicSendRequest)
  | magicCallback (token : String) (client : Client)

structure Draw where
  code : Option String
  token : Option String
  challenge : String
  sessionID : String
  verifier : MFAVerifier
  faults : List Bool

def Draw.backend (d : Draw) : Backend where
  hasVerifiedTOTP := some d.verifier.hasVerifiedTOTP
  issueMFAChallenge _ _ _ :=
    if d.faults.headD false then .error "store challenge" else .ok d.challenge
  createSession _ _ _ :=
    if d.faults.headD false then .error "create session" else .ok d.sessionID

def engineSession (namespaceName : String) (req : AuthRequest) (resp : Authn.LoginResponse) : Session :=
  ⟨resp.sessionID, namespaceName, resp.userID, resp.tenantID, req.clientIP, req.userAgent, req.authType⟩

namespace State

variable (s : State)

def afterLogin (req : AuthRequest) (namespaceName : String) (outcome : Authn.Engine.LoginOutcome) : State :=
  let s := { s with login := outcome.rdb }
  match outcome.response with
  | .error _ => s
  | .ok resp =>
    if resp.mfaRequired then
      let payload := Authn.challengePayload namespaceName req ⟨resp.userID, resp.username, resp.displayName, .success⟩
      { s with challenges := s.challenges.set resp.challenge payload (some (s.now + Authn.mfaChallengeTTL)) }
    else
      { s with sessions := s.sessions ++ [engineSession namespaceName req resp] }

def afterMFA (outcome : Authn.MFAOutcome) : State :=
  let s := { s with challenges := outcome.challenges, mfa := outcome.mfa }
  match outcome.response, outcome.payload with
  | .ok resp, some payload =>
    { s with sessions := s.sessions ++ [engineSession payload.namespaceName payload.authRequest resp] }
  | _, _ => s

def serve (handler : Prog Cmd Response) (d : Draw) : State :=
  { (handler.exec atOnce [] { s with faults := d.faults }).2 with faults := [] }

end State

structure Deployment where
  engine : Authn.Engine
  portal : Config

def handle (cfg : Deployment) (s : State) (d : Draw) : Request → State
  | .login req namespaceName =>
    s.afterLogin req namespaceName
      (cfg.engine.login (querier s.users) d.backend s.login s.now req namespaceName)
  | .verifyMFA challenge code =>
    s.afterMFA (Authn.verifyMFAChallenge d.backend d.verifier s.challenges s.mfa s.now challenge code)
  | .smsSend req => s.serve (smsSend cfg.portal d.code req) d
  | .smsLogin req client => s.serve (smsLogin cfg.portal d.sessionID req client) d
  | .magicSend req => s.serve (magicSend cfg.portal d.token req) d
  | .magicCallback token client => s.serve (magicCallback cfg.portal d.sessionID token client) d

inductive Action where
  | request (req : Request) (d : Draw)
  | elapse (ms : Nat)
  | edit (users : User.Repository)
  | configure (tenants : String → Int) (enabled : LoginMethod → Bool)

def step (cfg : Deployment) (s : State) : Action → Option State
  | .request req d => some (handle cfg s d req)
  | .elapse ms => some { s with now := s.now + ms }
  | .edit users => some { s with users }
  | .configure tenants enabled => some { s with tenants, enabled }

def Barred (u : User) : Prop := u.status ≠ User.statusActive ∨ u.deleted = true

instance Barred.instDecidable (u : User) : Decidable (Barred u) :=
  inferInstanceAs (Decidable (_ ∨ _))

def created (s s' : State) : List Session := s'.sessions.drop s.sessions.length

def StandsFor (cfg : Config) (s : State) (code : String) (tenantID : Int) : Prop :=
  tenantID = cfg.defaultTID ∨ (code ≠ "" ∧ 0 < tenantID ∧ tenantID = s.tenants code)

def admitsSms (cfg : Config) (s : State) (req : SmsLoginRequest) : Prop :=
  s.enabled .smsOTP = true ∧ req.phone ≠ "" ∧ req.code.length = 6
    ∧ cfg.smsLimiter.check s.limits s.now ("phone:" ++ Text.trimSpace req.phone) = none

/--
The account that the presented code, link or challenge was stored for is not barred. A code counts if
the account is found in a tenant that the request may be for.
-/
def Vouched (cfg : Config) (s : State) : Request → Prop
  | .smsLogin req _ =>
    admitsSms cfg s req → ∀ userID, s.codes.get s.now (Text.trimSpace req.phone) = some (userID, req.code) →
      ∀ tenantID u, StandsFor cfg s req.tenant tenantID → s.users.getByID tenantID userID = some u → ¬Barred u
  | .magicCallback token _ =>
    token ≠ "" → ∀ userID tenantID, s.links.get s.now token = some (userID, tenantID) →
      ∀ u ∈ s.users.table.rows, u.id = userID → ¬Barred u
  | .verifyMFA challenge _ =>
    challenge ≠ "" → ∀ payload, s.challenges.get s.now challenge = some payload →
      s.mfa.check s.now payload.userID payload.clientIP = none →
        ∀ u ∈ s.users.table.rows, u.id = payload.userID → ¬Barred u
  | _ => True

end Mxid.Portal
