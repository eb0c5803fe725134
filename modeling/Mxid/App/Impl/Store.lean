import Mxid.Data.Statements
import Mxid.Data.Table
import Mxid.Data.Text
import Mxid.Tenant.Impl.Scope

namespace Mxid

namespace App

inductive Protocol where
  | oidc
  | saml
  | cas
  | form
  deriving DecidableEq

inductive ClientType where
  | webApp
  | spa
  | native
  | m2m
  deriving DecidableEq

def statusEnabled : Int := 1

def scopeTenant : Int := 1
def scopeShared : Int := 2

def accessPolicyAll : Int := 1

def subjectStrategyUsername : String := "username"
def subjectStrategyUsernameSuffixed : String := "username_suffixed"
def subjectStrategyPairwise : String := "pairwise"

end App

structure App where
  id : Int
  tenantID : Option Int
  scope : Int
  subjectStrategy : String
  name : String
  code : String
  protocol : App.Protocol
  status : Int
  icon : Option String
  env : Option String
  description : Option String
  clientID : Option String
  clientSecret : Option String
  clientType : App.ClientType
  homeURL : Option String
  isFirstParty : Bool
  requireConsent : Bool
  protocolConfig : String
  loginURL : Option String
  redirectURIs : String
  logoutURL : Option String
  accessPolicy : Int
  deriving DecidableEq

namespace App

def needsClientSecret (protocol : Protocol) (clientType : ClientType) : Bool :=
  protocol = .oidc && (clientType = .webApp || clientType = .m2m)

def secretPresence (a : App) : Bool :=
  a.protocol ≠ .oidc || a.clientSecret.isSome = needsClientSecret a.protocol a.clientType

/-!
What the edits of a row change. The row that was read is saved with all of its columns afterwards.
-/

def normalizeEnv (env : Option String) : Option String :=
  (env.map (fun v => (Text.trimSpace v).toLower)).filter (· ≠ "")

structure UpdateAppRequest where
  name : Option String
  subjectStrategy : Option String
  icon : Option String
  env : Option String
  description : Option String
  homeURL : Option String
  loginURL : Option String
  redirectURIs : Option String
  logoutURL : Option String
  accessPolicy : Option Int
  isFirstParty : Option Bool
  requireConsent : Option Bool
  protocolConfig : Option String

inductive Edit where
  | update (req : UpdateAppRequest)
  | rotate (hash : String)

namespace Edit

def apply (a : App) : Edit → App
  | .update req => { a with
      name := req.name.getD a.name
      subjectStrategy := (req.subjectStrategy.filter (· ≠ "")).getD a.subjectStrategy
      icon := req.icon.or a.icon
      description := req.description.or a.description
      homeURL := req.homeURL.or a.homeURL
      loginURL := req.loginURL.or a.loginURL
      logoutURL := req.logoutURL.or a.logoutURL
      accessPolicy := req.accessPolicy.getD a.accessPolicy
      isFirstParty := req.isFirstParty.getD a.isFirstParty
      requireConsent := req.requireConsent.getD a.requireConsent
      env := if req.env.isSome then normalizeEnv req.env else a.env
      redirectURIs := req.redirectURIs.getD a.redirectURIs
      protocolConfig := req.protocolConfig.getD a.protocolConfig }
  | .rotate hash => { a with clientSecret := some hash }

variable (a : App) (e : Edit)

@[simp]
theorem id_apply : (e.apply a).id = a.id := by
  cases e <;> rfl

end Edit

/--
The last two fields are not stored anywhere. They keep track of the hashes that were ever written, and of those that a
rotation has replaced, with the client they were for.
-/
structure Store where
  apps : Table App.id
  issued : List String
  retired : List (String × String)

namespace Store

variable (s : Store) (scope : Scope)

def visible (a : App) : Bool := a.tenantID.all scope.sees

def first (p : App → Bool) : Option App :=
  (Table.orderBy App.id s.apps.rows).find? (fun a => visible scope a && p a)

def getByID (id : Int) : Option App :=
  s.first scope (fun a => a.id = id)

def getByCode (tenantID : Int) (code : String) : Option App :=
  s.first scope (fun a => a.tenantID = some tenantID && a.code = code)

def getByClientID (clientID : String) : Option App :=
  s.first scope (fun a => a.clientID = some clientID)

def taken (a : App) : Bool :=
  s.apps.rows.any (fun a' => a'.id ≠ a.id && ((a.clientID.isSome && a'.clientID = a.clientID)
    || (a'.tenantID.getD 0 = a.tenantID.getD 0 && a'.code = a.code)))

def illegal (a : App) : Bool := s.taken a || !a.secretPresence

def create (a : App) : Option Store :=
  if s.illegal a then
    none
  else
    match s.apps.insert? a with
    | none => none
    | some apps => some { s with apps, issued := a.clientSecret.toList ++ s.issued }

def credentials (a : App) : Option (String × String) :=
  match a.clientID, a.clientSecret with
  | some clientID, some hash => some (clientID, hash)
  | _, _ => none

def save (base : App) (edit : Edit) : Option Store :=
  let a := edit.apply base
  if s.illegal a then
    none
  else
    some (match edit with
      | .update _ => { s with apps := s.apps.upsert a }
      | .rotate hash => {
        apps := s.apps.upsert a
        issued := hash :: s.issued
        retired := ((s.apps.find? base.id).bind credentials).toList ++ s.retired })

def concerns (id : Int) (a : App) : Bool := a.id = id && visible scope a

def affects (id : Int) : Bool := s.apps.rows.any (concerns scope id)

def setStatus (status : Int) (a : App) : App := { a with status }

def setProtocolConfig (protocolConfig : String) (a : App) : App := { a with protocolConfig }

@[simp]
theorem id_setStatus (status : Int) (a : App) : (setStatus status a).id = a.id := rfl

@[simp]
theorem id_setProtocolConfig (config : String) (a : App) : (setProtocolConfig config a).id = a.id := rfl

def updateStatus (id status : Int) : Store :=
  { s with apps := s.apps.update (concerns scope id) (setStatus status) (id_setStatus status) }

def updateProtocolConfig (id : Int) (config : String) : Store :=
  { s with apps := s.apps.update (concerns scope id) (setProtocolConfig config) (id_setProtocolConfig config) }

def delete (id : Int) : Store :=
  { s with apps := s.apps.delete (concerns scope id) }

def authorizeSecret (check : String → String → Bool) (scope : Scope) (clientID secret : String) : Bool :=
  if scope.usable then
    match (s.getByClientID scope clientID).bind App.clientSecret with
    | none => false
    | some hash => hash ≠ "" && check secret hash
  else
    false

end Store

/--
The outer option is `none` if the statement has failed. The keys of an application and the tokens of a client are kept
elsewhere.
-/
inductive Cmd : Type → Type where
  | getByID (scope : Scope) (id : Int) : Cmd (Option (Option App))
  | getByCode (scope : Scope) (tenantID : Int) (code : String) : Cmd (Option (Option App))
  | create (a : App) : Cmd (Option Unit)
  | save (scope : Scope) (base : App) (edit : Edit) : Cmd (Option Unit)
  | updateStatus (scope : Scope) (id status : Int) : Cmd (Option Bool)
  | updateProtocolConfig (scope : Scope) (id : Int) (config : String) : Cmd (Option Bool)
  | delete (scope : Scope) (id : Int) : Cmd (Option Unit)
  | generateKey (id : Int) : Cmd (Option Unit)
  | revokeTokens (clientID : String) : Cmd (Option Unit)

def Store.exec {β : Type} (c : Cmd β) (s : Store) : β × Store :=
  match c with
  | .getByID scope id => scope.ask s (s.getByID scope id)
  | .getByCode scope tenantID code => scope.ask s (s.getByCode scope tenantID code)
  | .create a => attempt s (some ()) none (s.create a)
  | .save scope base edit => if scope.usable then attempt s (some ()) none (s.save base edit) else (none, s)
  | .updateStatus scope id status => scope.tell s (s.affects scope id) (s.updateStatus scope id status)
  | .updateProtocolConfig scope id config =>
    scope.tell s (s.affects scope id) (s.updateProtocolConfig scope id config)
  | .delete scope id => scope.tell s () (s.delete scope id)
  | .generateKey _ | .revokeTokens _ => (some (), s)

def Cmd.failed {β : Type} : Cmd β → β
  | .getByID .. | .getByCode .. | .create _ | .save .. | .updateStatus .. | .updateProtocolConfig ..
  | .delete .. | .generateKey _ | .revokeTokens _ => none

def semantics : Prog.Semantics Cmd (Faulty Store) := .faulty Store.exec Cmd.failed

abbrev Op (α : Type) := Prog Cmd α

end App
end Mxid
