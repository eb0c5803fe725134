import Mxid.Data.Prog
import Mxid.Sso.Impl.SessionIndex

namespace Mxid.Sso.Cas

structure SloTarget where
  url : String
  body : String
  deriving DecidableEq

def casLogoutXML (id issueInstant ticket : String) : String :=
  "<samlp:LogoutRequest xmlns:samlp=\"urn:oasis:names:tc:SAML:2.0:protocol\" ID=\"" ++ id
    ++ "\" Version=\"2.0\" IssueInstant=\"" ++ issueInstant
    ++ "\"><saml:NameID xmlns:saml=\"urn:oasis:names:tc:SAML:2.0:assertion\">@NOT_USED@</saml:NameID>"
    ++ "<samlp:SessionIndex>" ++ ticket ++ "</samlp:SessionIndex></samlp:LogoutRequest>"

structure SloHandler where
  logoutURLOverride : (appID : Int) → String
  rfc3339 : (now : Int) → String

namespace SloHandler

variable (h : SloHandler)

def target (appID : Int) (svc : CASServiceRef) : String :=
  if h.logoutURLOverride appID ≠ "" then h.logoutURLOverride appID else svc.serviceURL

def logoutID (userID appID now : Int) (i : Nat) : String :=
  "LR-" ++ userID.repr ++ "-" ++ appID.repr ++ "-" ++ (1000000 * now).repr ++ "-" ++ i.repr

def targets (userID appID now : Int) (services : List CASServiceRef) : List SloTarget :=
  services.mapIdx (fun i svc =>
    { url := h.target appID svc, body := casLogoutXML (logoutID userID appID now i) (h.rfc3339 now) svc.ticket })

end SloHandler

structure Recorded where
  userID : Int
  appID : Int
  ref : CASServiceRef
  time : Int
  deriving DecidableEq

structure World where
  registry : ServiceRegistry
  outbox : List SloTarget
  faults : List Bool
  /-- The services that were ever recorded. No program reads it. -/
  recorded : List Recorded

inductive Cmd : Type → Type
  | recordService (userID appID : Int) (serviceURL ticket : String) : Cmd (Option Unit)
  | listServices (userID appID : Int) : Cmd (Option (List CASServiceRef))
  | dispatch (userID appID : Int) (services : List CASServiceRef) : Cmd Unit
  | clear (userID appID : Int) : Cmd (Option Unit)

namespace World

def next (w : World) : World := { w with faults := w.faults.tail }

def recordService (w : World) (userID appID : Int) (serviceURL ticket : String) : World :=
  { w with
    registry := w.registry.recordService userID appID serviceURL ticket casSLORegistryTTL
    recorded := w.recorded ++ [⟨userID, appID, ⟨serviceURL, ticket⟩, w.registry.now⟩] }

def dispatch (h : SloHandler) (w : World) (userID appID : Int) (services : List CASServiceRef) : World :=
  { w with outbox := w.outbox ++ h.targets userID appID w.registry.now services }

def clear (w : World) (userID appID : Int) : World := { w with registry := w.registry.clear userID appID }

def exec (h : SloHandler) {β : Type} : Cmd β → World → β × World
  | .recordService userID appID serviceURL ticket, w =>
    if w.faults.headD false then (none, w.next) else (some (), w.next.recordService userID appID serviceURL ticket)
  | .listServices userID appID, w =>
    if w.faults.headD false then (none, w.next) else (some (w.registry.listServices userID appID), w.next)
  | .dispatch userID appID services, w => ((), w.dispatch h userID appID services)
  | .clear userID appID, w =>
    if w.faults.headD false then (none, w.next) else (some (), w.next.clear userID appID)

def semantics (h : SloHandler) : Prog.Semantics Cmd World where
  step := exec h
  advance n w := { w with registry := w.registry.wait n }

end World

open Prog (call)

def recordService (userID appID : Int) (serviceURL ticket : String) : Prog Cmd Unit := do
  let _ ← call (.recordService userID appID serviceURL ticket)

def clearServices (userID appID : Int) : Prog Cmd Unit := do
  let _ ← call (.clear userID appID)

def dispatchServices (userID appID : Int) (services : List CASServiceRef) : Prog Cmd Unit := do
  call (.dispatch userID appID services)
  clearServices userID appID

def singleLogout (userID appID : Int) : Prog Cmd Unit := do
  match ← call (.listServices userID appID) with
  | none => pure ()
  | some services => if services = [] then pure () else dispatchServices userID appID services

inductive Call where
  | recordService (userID appID : Int) (serviceURL ticket : String)
  | singleLogout (userID appID : Int)

namespace Call

def prog : Call → Prog Cmd Unit
  | .recordService userID appID serviceURL ticket => Cas.recordService userID appID serviceURL ticket
  | .singleLogout userID appID => Cas.singleLogout userID appID

def start (calls : List Call) (now : Int) (faults : List Bool) : Pool Cmd Unit World where
  shared := { registry := .empty now, outbox := [], faults := faults, recorded := [] }
  threads := calls.map prog

end Call

namespace World

def Dispatched (h : SloHandler) (w : World) (r : Recorded) : Prop :=
  ∃ id issueInstant, { url := h.target r.appID r.ref, body := casLogoutXML id issueInstant r.ref.ticket } ∈ w.outbox

def Outdated (w : World) (r : Recorded) : Prop := r.time + 1000 * formatSec casSLORegistryTTL < w.registry.now

def Listed (w : World) (r : Recorded) : Prop :=
  r.ref ∈ w.registry.listServices r.userID r.appID
    ∧ (r.appID ≠ 0 → r.appID ∈ w.registry.appsForUser r.userID)

end World

def Cmd.logoutOf {β : Type} : Cmd β → Option (Int × Int)
  | .dispatch userID appID _ | .clear userID appID => some (userID, appID)
  | _ => none

def Cmd.recordOf {β : Type} : Cmd β → Option (Int × Int)
  | .recordService userID appID _ _ => some (userID, appID)
  | _ => none

def nextOf (f : {β : Type} → Cmd β → Option (Int × Int)) : Prog Cmd Unit → Option (Int × Int)
  | .ret _ => none
  | .cmd _ c _ => f c

/--
No service is recorded for a user and an application while a logout of the two is between its listing and its clearing.
-/
def undisturbed (p : Pool Cmd Unit World) (turn : Nat × Nat) : Bool :=
  ((p.threads[turn.1]?).bind (nextOf Cmd.recordOf)).all (fun key =>
    p.threads.all (fun t => nextOf Cmd.logoutOf t ≠ some key))

end Mxid.Sso.Cas
