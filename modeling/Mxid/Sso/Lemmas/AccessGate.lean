import Mxid.Sso.Impl.Access
import Mxid.Sso.Impl.Cas
import Mxid.Sso.Impl.Oidc

namespace Mxid.Sso

theorem AccessService.checkAppAccess_eq_ok_true {svc : AccessService} {userID appID tenantID : Int}
    {reason : String} (h : svc.checkAppAccess userID appID tenantID = .ok (true, reason)) :
    svc.allows userID appID tenantID = true := by
  unfold checkAppAccess at h
  unfold allows
  split at h
  . contradiction
  . simp only [Except.ok.injEq, Prod.mk.injEq] at h
    apply h.1

namespace Oidc

variable {b : LoginBridge} {env : Env} {s : State} {req : Request}
variable {authReqID protoSID : String} {ar : AuthRequest} {app app' : AppConfig} {sess sess' : SSOSession}
variable {id : String} {e : Redis.Entry AuthRequest}

theorem complete_callback (h : (complete b s authReqID protoSID app sess).1 = .callback id app' sess') :
    app' = app ∧ sess' = sess := by
  unfold complete at h
  dsimp only at h
  split at h
  . contradiction
  . cases h
    exact ⟨rfl, rfl⟩

theorem confirmAndComplete_callback
    (h : (confirmAndComplete b s req authReqID protoSID ar app sess).1 = .callback id app' sess') :
    app' = app ∧ sess' = sess := by
  unfold confirmAndComplete denyAuthRequest at h
  split at h
  . split at h
    . split at h
      all_goals contradiction
    . split at h
      . contradiction
      . apply complete_callback h
  . apply complete_callback h

theorem handle_callback_allows {svc : AccessService} (hb : b.access = some svc.checkAppAccess)
    (h : (handle b env s req).1 = .callback id app sess) : svc.allows sess.userID app.id sess.tenantID = true := by
  unfold handle at h
  split at h
  . contradiction
  split at h
  . contradiction
  split at h
  . contradiction
  split at h
  . contradiction
  next app' _ =>
  split at h
  . next reply hreply =>
    unfold checkAccess at hreply
    simp only [hb] at hreply
    subst h
    split at hreply
    all_goals simp at hreply
  . next hok =>
    rcases confirmAndComplete_callback h with ⟨rfl, rfl⟩
    unfold checkAccess at hok
    simp only [hb] at hok
    split at hok
    . contradiction
    . contradiction
    . next hallowed => apply AccessService.checkAppAccess_eq_ok_true hallowed

end Oidc

namespace Saml

variable {h : Handler} {env : Env} {s : State} {req : Request} {query : Query}
variable {appCode requestID relayState : String} {app : AppConfig} {sess : SSOSession} {a : Assertion}
variable {userID appID tenantID : Int}

variable {svc : AccessService}

theorem processSSO_minted_allows (hh : h.access = some svc.checkAppAccess)
    (hminted : (processSSO h env s appCode requestID relayState query).1 = .minted a) :
    svc.allows a.userID a.app.id a.tenantID = true := by
  unfold processSSO at hminted
  split at hminted
  . contradiction
  split at hminted
  . contradiction
  dsimp only at hminted
  split at hminted
  . contradiction
  next app _ _ _ sess _ =>
  split at hminted
  . contradiction
  split at hminted
  . contradiction
  split at hminted
  . next reply hreply =>
    subst hminted
    unfold checkAccess at hreply
    split at hreply
    . contradiction
    . split at hreply
      all_goals cases hreply
  . next hok =>
    unfold mint at hminted
    split at hminted
    . contradiction
    dsimp only at hminted
    split at hminted
    . contradiction
    cases hminted
    unfold checkAccess at hok
    simp only [hh] at hok
    split at hok
    . contradiction
    . contradiction
    . next hallowed => apply AccessService.checkAppAccess_eq_ok_true hallowed

theorem handle_minted_allows (hh : h.access = some svc.checkAppAccess)
    (hminted : (handle h env s req).1 = .minted a) : svc.allows a.userID a.app.id a.tenantID = true := by
  cases req with
  | ssoRedirect | ssoPost =>
    simp only [handle, ssoBinding, idpInitiatedSSO] at hminted
    split at hminted
    . apply processSSO_minted_allows hh hminted
    split at hminted
    . contradiction
    . apply processSSO_minted_allows hh hminted
  | ssoResume =>
    simp only [handle, idpInitiatedSSO] at hminted
    split at hminted
    all_goals apply processSSO_minted_allows hh hminted

end Saml

namespace Cas

variable {env : Env} {s : State} {req : LoginRequest} {random : Except String String}
variable {app : AppConfig} {sess : SSOSession} {st : ServiceTicket} {location : String}

structure Admits (env : Env) (s : State) (req : LoginRequest) (random : Except String String)
    (app : AppConfig) (sess : SSOSession) : Prop where
  service : req.service ≠ ""
  getApp : env.getApp req.appCode = some app
  enabled : app.status = 1
  validService : isValidService env app.casConfig req.service = true
  session : (s.sessions.cookieSession s.now req.protoSID req.portalSID).1 = some sess
  notDenied : req.ssoDeny ≠ "1"
  confirmed : (confirmLogin s req sess.userID app.id).1 = true
  user : ∃ user, env.resolveUser sess.userID = .ok user
  random : ∃ r, random = .ok r

theorem confirmLogin_sessions (sessions : SessionStore) {userID appID : Int} :
    (confirmLogin { s with sessions := sessions } req userID appID).1
      =
    (confirmLogin s req userID appID).1 := by
  unfold confirmLogin
  split <;> rfl

theorem login_ticket (h : (login env s req random).1 = .redirectWithTicket app st location) :
    ∃ sess, Admits env s req random app sess ∧ st.userID = sess.userID ∧ st.tenantID = sess.tenantID := by
  unfold login at h
  split at h
  . contradiction
  next hservice =>
  split at h
  . contradiction
  next app' happ =>
  split at h
  . contradiction
  next hstatus =>
  split at h
  . contradiction
  next hvalid =>
  dsimp only at h
  split at h
  . contradiction
  next sess hsess =>
  split at h
  . contradiction
  next hdeny =>
  split at h
  . contradiction
  next s' hconfirm =>
  unfold issueTicket at h
  split at h
  . contradiction
  next user huser =>
  split at h
  . contradiction
  next r =>
  cases h
  have hconfirmed : (confirmLogin s req sess.userID app.id).1 = true := by
    rw [← confirmLogin_sessions, hconfirm]
  refine ⟨sess, ?_, rfl, rfl⟩
  exact
    { service := hservice, getApp := happ, enabled := not_not.mp hstatus,
      validService := by simpa using hvalid, session := hsess, notDenied := hdeny,
      confirmed := hconfirmed, user := ⟨user, huser⟩, random := ⟨r, rfl⟩ }

theorem login_of_admits (h : Admits env s req random app sess) :
    ∃ st location, (login env s req random).1 = .redirectWithTicket app st location
      ∧ st.userID = sess.userID ∧ st.tenantID = sess.tenantID := by
  rcases h with ⟨hservice, happ, henabled, hvalid, hsess, hdeny, hconfirmed, ⟨user, huser⟩, ⟨r, rfl⟩⟩
  unfold login
  rw [if_neg hservice, happ]
  dsimp only
  rw [if_neg (not_not.mpr henabled), if_neg (by simp [hvalid]), hsess]
  dsimp only
  rw [if_neg hdeny]
  rw [← confirmLogin_sessions (s.sessions.cookieSession s.now req.protoSID req.portalSID).2] at hconfirmed
  split
  . next hfalse => simp [hfalse] at hconfirmed
  . simp only [issueTicket, huser]
    exact ⟨_, _, rfl, rfl, rfl⟩

end Cas

structure Deployment where
  env : Env
  svc : AccessService
  bridge : Oidc.LoginBridge
  saml : Saml.Handler
  bridge_access : bridge.access = some svc.checkAppAccess
  saml_access : saml.access = some svc.checkAppAccess

inductive Attempt where
  | oidc (s : Oidc.State) (req : Oidc.Request)
  | saml (s : Saml.State) (req : Saml.Request)
  | cas (s : Cas.State) (req : Cas.LoginRequest) (random : Except String String)

structure Grant where
  userID : Int
  appID : Int
  tenantID : Int
  deriving DecidableEq

def Deployment.granted (d : Deployment) : Attempt → Option Grant
  | .oidc s req =>
    match (Oidc.handle d.bridge d.env s req).1 with
    | .callback _ app sess => some ⟨sess.userID, app.id, sess.tenantID⟩
    | _ => none
  | .saml s req =>
    match (Saml.handle d.saml d.env s req).1 with
    | .minted a => some ⟨a.userID, a.app.id, a.tenantID⟩
    | _ => none
  | .cas s req random =>
    match (Cas.login d.env s req random).1 with
    | .redirectWithTicket app st _ => some ⟨st.userID, app.id, st.tenantID⟩
    | _ => none

def Deployment.allows (d : Deployment) (g : Grant) : Bool :=
  d.svc.allows g.userID g.appID g.tenantID

variable {d : Deployment} {g : Grant}

theorem granted_cas_iff {s : Cas.State} {req : Cas.LoginRequest} {random : Except String String} :
    d.granted (.cas s req random) = some g
      ↔
    ∃ app sess, Cas.Admits d.env s req random app sess ∧ g = ⟨sess.userID, app.id, sess.tenantID⟩ := by
  constructor
  . intro h
    simp only [Deployment.granted] at h
    split at h
    . next app st location hticket =>
      cases h
      rcases Cas.login_ticket hticket with ⟨sess, hadmits, huser, htenant⟩
      exact ⟨app, sess, hadmits, by rw [huser, htenant]⟩
    . contradiction
  . rintro ⟨app, sess, hadmits, rfl⟩
    rcases Cas.login_of_admits hadmits with ⟨st, location, hticket, huser, htenant⟩
    simp only [Deployment.granted, hticket, huser, htenant]

theorem access_gated_iff (d : Deployment) (a : Attempt) :
    (∀ g, d.granted a = some g → d.allows g = true)
      ↔
    ∀ s req random, a = .cas s req random →
      ∀ app sess, Cas.Admits d.env s req random app sess →
        d.svc.allows sess.userID app.id sess.tenantID = true := by
  cases a with
  | oidc s req =>
    constructor
    . intro _ s req random h
      contradiction
    . intro _ g hg
      simp only [Deployment.granted] at hg
      split at hg
      . next hcallback =>
        cases hg
        apply Oidc.handle_callback_allows d.bridge_access hcallback
      . contradiction
  | saml s req =>
    constructor
    . intro _ s req random h
      contradiction
    . intro _ g hg
      simp only [Deployment.granted] at hg
      split at hg
      . next hminted =>
        cases hg
        apply Saml.handle_minted_allows d.saml_access hminted
      . contradiction
  | cas s req random =>
    constructor
    . intro hgated s' req' random' h app sess hadmits
      cases h
      apply hgated ⟨sess.userID, app.id, sess.tenantID⟩
      apply granted_cas_iff.mpr ⟨app, sess, hadmits, rfl⟩
    . intro hpolicy g hg
      rcases granted_cas_iff.mp hg with ⟨app, sess, hadmits, rfl⟩
      apply hpolicy s req random rfl app sess hadmits

namespace DeniedUser

def wiki : AppConfig where
  id := 10
  code := "wiki"
  clientID := "wiki-client"
  subjectStrategy := "username"
  status := 1
  casConfig := ⟨["https://wiki.example/cas"], [], "roles", "", 30, false, 7200⟩
  samlConfig := ⟨"", "", [], "roles", "", 28800⟩

def mallory : IdentityInfo := ⟨8, 1, "mallory", "", "", "", "", []⟩

def env : Env where
  getApp code := if code = "wiki" then some wiki else none
  getAppByClientID clientID := if clientID = "wiki-client" then some wiki else none
  resolveUser userID := if userID = 8 then .ok mallory else .error "not found"
  getTenantCode := none
  resolveAppRoles := none
  pairwiseSubject _ _ := ""
  parseURL raw :=
    if raw = "https://wiki.example/cas" then some ⟨"https", "wiki.example", "/cas", false, ""⟩ else none

def policies : PolicyDB where
  policies :=
    { rows :=
        [⟨1, some 10, none, 1, .subjectPublic, 0, .effectAllow, 100⟩,
          ⟨2, some 10, none, 1, .subjectUser, 8, .effectDeny, 200⟩]
      nodup := by decide }
  appGroupRel := []

def svc : AccessService :=
  policies.service ⟨fun _ _ => .ok false, fun _ _ => .ok false, fun _ _ => .ok false⟩

def deployment : Deployment where
  env := env
  svc := svc
  bridge := ⟨some svc.checkAppAccess, true, true, 600000⟩
  saml := ⟨some svc.checkAppAccess, true, fun _ => .error "", fun _ => .ok ()⟩
  bridge_access := rfl
  saml_access := rfl

def sessions : SessionStore where
  protocol := Redis.Store.empty
  portal := Redis.Store.empty.set "sid" ⟨"sid", 8, 1, "pwd", 3600000⟩ (some 3600000)

def state : Cas.State := ⟨0, sessions, ⟨Redis.Store.empty⟩, true, Cas.TicketStore.empty⟩

def launch : Cas.LoginRequest := ⟨"wiki", "https://wiki.example/cas", "", "sid", "", "1", ""⟩

theorem ticket_in_spite_of_policy :
    deployment.granted (.cas state launch (.ok "r1")) = some ⟨8, 10, 1⟩
      ∧ svc.canAccess 8 10 1 = .ok ⟨false, some ⟨2, some 10, none, 1, .subjectUser, 8, .effectDeny, 200⟩, "deny:user:8"⟩
      ∧ deployment.allows ⟨8, 10, 1⟩ = false := by
  decide +kernel

end DeniedUser

end Mxid.Sso
