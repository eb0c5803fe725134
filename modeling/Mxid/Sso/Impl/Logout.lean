import Mxid.Sessions.Impl.Manager
import Mxid.Sso.Impl.Database

namespace Mxid.Sso

abbrev Index := (sid : String) → List Int

namespace Index

variable (index : Index)

def peek (sid : String) : List Int :=
  if sid = "" then [] else (index sid).filter (fun id => id ≠ 0)

def list (sid : String) : List Int × Index :=
  (index.peek sid, if sid = "" then index else fun sid' => if sid' = sid then [] else index sid')

end Index

structure LogoutTokenClaims where
  issuer : String
  audience : String
  subject : String
  sid : String
  deriving DecidableEq

structure LogoutPost where
  uri : String
  claims : LogoutTokenClaims
  deriving DecidableEq

structure LogoutService where
  issuer : String
  resolveIssuer : Option (Scope → String)

namespace LogoutService

variable (svc : LogoutService) (d : Database)

def issuerFor (scope : Scope) : String :=
  match svc.resolveIssuer with
  | none => svc.issuer
  | some resolveIssuer => if resolveIssuer scope ≠ "" then resolveIssuer scope else svc.issuer

def resolveSubject (env : Env) (app : AppConfig) (userID : Int) : String :=
  match env.resolveUser userID with
  | .error _ => toString userID
  | .ok user =>
    match env.subject app user with
    | .error _ => toString userID
    | .ok out => if out.subject = "" then toString userID else out.subject

def sendLogout (scope : Scope) (appID userID : Int) (sid : String) : Option LogoutPost :=
  match d.getAppByID appID with
  | none => none
  | some app =>
    if app.clientID = "" ∨ app.backchannelLogoutURI = "" then
      none
    else
      some {
        uri := app.backchannelLogoutURI
        claims :=
          { issuer := svc.issuerFor scope
            audience := app.clientID
            subject := resolveSubject (d.env scope) app.toAppConfig userID
            sid := if app.backchannelLogoutSessionRequired then sid else "" } }

def targets : List Sessions.Session → Index → List (String × List Int) × Index
  | [], index => ([], index)
  | sess :: protoSessions, index =>
    let (appIDs, index) := index.list sess.id
    let (ts, index) := targets protoSessions index
    (if appIDs = [] then ts else (sess.id, appIDs) :: ts, index)

variable (protoSessions : Except String (List Sessions.Session)) (index : Index)

def logoutUser (userID : Int) : List LogoutPost × Index :=
  match protoSessions with
  | .error _ => ([], index)
  | .ok protoSessions =>
    let (ts, index) := targets protoSessions index
    (ts.flatMap (fun t => t.2.filterMap (fun appID => svc.sendLogout d .none appID userID t.1)), index)

def logoutUserApp (userID appID : Int) : List LogoutPost :=
  match protoSessions with
  | .error _ => []
  | .ok protoSessions =>
    let sids := (protoSessions.filter (fun sess => appID ∈ index.peek sess.id)).map Sessions.Session.id
    sids.filterMap (fun sid => svc.sendLogout d .none appID userID sid)

end LogoutService

end Mxid.Sso
