import Mxid.Sso.Impl.Cas
import Mxid.Sso.Impl.Saml
import Mxid.User.Impl.Store

namespace Mxid.Sso

open User (Account)

structure Tenant where
  id : Int
  code : String
  deleted : Bool
  deriving DecidableEq

structure AppRow extends AppConfig where
  tenantID : Option Int
  backchannelLogoutURI : String
  backchannelLogoutSessionRequired : Bool
  deriving DecidableEq

def AppRow.key (a : AppRow) : Int := a.id

/--
What is stored, and what the endpoints are given besides. A name is unique among the live users of a tenant, and so are
the codes of tenants and the client ids of applications.
-/
structure Database where
  users : User.Store
  groups : (userID : Int) → List String
  tenants : Table Tenant.id
  apps : Table AppRow.key
  resolveAppRoles : Option ((userID appID tenantID : Int) → Except String (List String))
  pairwiseSubject : (clientID : String) → (userID : Int) → String
  parseURL : String → Option URL
  pairwiseSubject_ne_empty : ∀ clientID userID, pairwiseSubject clientID userID ≠ ""
  username_unique : ∀ u ∈ users.users.rows, ∀ u' ∈ users.users.rows, u.deleted = false → u'.deleted = false →
    u.tenantID = u'.tenantID → u.username = u'.username → u = u'
  code_unique : ∀ t ∈ tenants.rows, ∀ t' ∈ tenants.rows, t.code = t'.code → t = t'
  clientID_unique : ∀ a ∈ apps.rows, ∀ a' ∈ apps.rows, a.clientID ≠ "" → a.clientID = a'.clientID → a = a'

namespace Database

variable (d : Database)

def identityInfo (u : Account) : IdentityInfo where
  id := u.id
  tenantID := u.tenantID
  username := u.username
  email := u.email.getD ""
  phone := u.phone.getD ""
  displayName := u.displayName.getD ""
  avatar := u.avatar.getD ""
  groups := d.groups u.id

def resolveUser (scope : Scope) (userID : Int) : Except String IdentityInfo :=
  match (User.Store.exec (.getByID scope userID) d.users).1 with
  | some (some u) => .ok (d.identityInfo u)
  | _ => .error "resolve user"

def getTenantCode (tenantID : Int) : String :=
  (((d.tenants.find? tenantID).filter (fun t => !t.deleted)).map Tenant.code).getD ""

/-!
Applications are looked up across the tenants, whatever the scope is.
-/

def getApp (code : String) : Option AppRow :=
  (Table.orderBy AppRow.key d.apps.rows).find? (fun a => a.tenantID = some 1 && a.code = code)

def getAppByID (appID : Int) : Option AppRow := d.apps.find? appID

def getAppByClientID (clientID : String) : Option AppRow :=
  (Table.orderBy AppRow.key d.apps.rows).find? (fun a => a.clientID ≠ "" && a.clientID = clientID)

def env (scope : Scope) : Env where
  getApp code := (d.getApp code).map AppRow.toAppConfig
  getAppByClientID clientID := (d.getAppByClientID clientID).map AppRow.toAppConfig
  resolveUser := d.resolveUser scope
  getTenantCode := some d.getTenantCode
  resolveAppRoles := d.resolveAppRoles
  pairwiseSubject := d.pairwiseSubject
  parseURL := d.parseURL

end Database

def clientSubject (env : Env) (app : AppConfig) (user : IdentityInfo) : SubjectOutput :=
  match env.subject app user with
  | .error _ => ⟨toString user.id, user.username, env.tenantCode user⟩
  | .ok out => out

def applySubject (env : Env) (subject : String) (app : Option AppConfig) (identity : Option IdentityInfo) : String :=
  match app, identity with
  | some app, some user =>
    let subj := clientSubject env app user
    if subj.subject ≠ "" then subj.subject else subject
  | _, _ => subject

def setUserinfo (env : Env) (userID : Int) (clientID : String) : Except String String :=
  match env.resolveUser userID with
  | .error _ => .error "resolve claims"
  | .ok user => .ok (applySubject env (toString user.id) (env.getAppByClientID clientID) (some user))

inductive FrontEnd where
  | oidc
  | saml
  | cas

def released (front : FrontEnd) (env : Env) (app : AppConfig) (user : IdentityInfo) : String :=
  match front with
  | .oidc => applySubject env (toString user.id) (some app) (some user)
  | .saml => Saml.nameID env app user
  | .cas => Cas.principal env app user

end Mxid.Sso
