import Mxid.Audit.Impl.Chain

namespace Mxid.Audit

def actorSystem : Bytes := Bytes.ascii "system"

def eventStatusSuccess : Int := 1

structure AuditLog where
  id : Int64
  tenantID : Int64
  actorID : Option Int64
  actorName : Option Bytes
  actorType : Bytes
  eventType : Bytes
  eventStatus : Int
  resourceType : Option Bytes
  resourceID : Option Int64
  resourceName : Option Bytes
  detail : Bytes
  ip : Option Bytes
  userAgent : Option Bytes
  geoCity : Option Bytes
  geoCountry : Option Bytes
  sessionID : Option Bytes
  createdAt : Int
  deriving DecidableEq

abbrev LogKey := Int64 × Int

def AuditLog.key (r : AuditLog) : LogKey := (r.id, r.createdAt)

structure Actor where
  actorID : Int64
  actorType : Bytes
  actorName : Bytes
  tenantID : Int64
  sessionID : Bytes
  ip : Bytes
  userAgent : Bytes

structure Service where
  nameResolver : Option (Int64 → Bytes)
  geoLookup : (ip : Bytes) → Option (Bytes × Bytes)
  bridgeDetail : (status : Int) → (detail : Bytes) → Option Bytes

def nonEmpty (s : Bytes) : Option Bytes :=
  if s = [] then none else some s

namespace Service

variable (svc : Service)

def enrichActor (a : Actor) (log : AuditLog) : AuditLog :=
  { log with
    actorID := log.actorID <|> if a.actorID ≠ 0 then some a.actorID else none
    actorType := if log.actorType = [] then a.actorType else log.actorType
    ip := log.ip <|> nonEmpty a.ip
    userAgent := log.userAgent <|> nonEmpty a.userAgent
    sessionID := log.sessionID <|> nonEmpty a.sessionID
    tenantID := if log.tenantID = 0 then a.tenantID else log.tenantID }

def resolveName (log : AuditLog) : AuditLog :=
  match log.actorName, log.actorID, svc.nameResolver with
  | none, some actorID, some resolve => { log with actorName := nonEmpty (resolve actorID) }
  | _, _, _ => log

def enrich (caller : Option Actor) (log : AuditLog) : AuditLog :=
  let log :=
    match caller with
    | some a => enrichActor a log
    | none => log
  let log := svc.resolveName log
  if log.actorType = [] then { log with actorType := actorSystem } else log

def fillGeo (log : AuditLog) : AuditLog :=
  match log.ip with
  | none => log
  | some ip =>
    if ip = [] then
      log
    else
      match svc.geoLookup ip with
      | none => log
      | some (country, city) =>
        { log with
          geoCountry := nonEmpty country <|> log.geoCountry
          geoCity := nonEmpty city <|> log.geoCity }

end Service

def ChainClass.auth : ChainClass := ⟨Bytes.ascii "auth", by decide⟩
def ChainClass.sensitiveRead : ChainClass := ⟨Bytes.ascii "sensitive_read", by decide⟩

def authEvents : List Bytes :=
  ["login.success", "login.failed", "login.risk", "logout", "session.kicked", "mfa.enabled", "mfa.disabled",
    "oidc.token.issued", "oidc.token.refreshed", "oidc.token.revoked", "oidc.token.reuse_detected",
    "oidc.consent.granted", "oidc.consent.revoked", "oidc.backchannel_logout"].map Bytes.ascii

def chainClassForEvent (eventType : Bytes) : Option ChainClass :=
  if eventType ∈ authEvents then
    some .auth
  else if eventType = Bytes.ascii "user.pii_view" then
    some .sensitiveRead
  else
    none

def Service.bridgeToChain (svc : Service) (log : AuditLog) (id : Int64) (now : Int) : Option AuditPending := do
  let chainClass ← chainClassForEvent log.eventType
  let detail ← svc.bridgeDetail log.eventStatus log.detail
  return {
    id
    tenantID := log.tenantID
    chainClass
    actorID := log.actorID.getD 0
    actorType := log.actorType
    eventType := log.eventType
    resourceType := deref log.resourceType
    resourceID := log.resourceID.getD 0
    before := []
    after := []
    ip := deref log.ip
    userAgent := deref log.userAgent
    sessionID := deref log.sessionID
    detail
    occurredAt := now
    actorName := nonEmpty (deref log.actorName)
    resourceName := nonEmpty (deref log.resourceName)
    geoCity := nonEmpty (deref log.geoCity)
    geoCountry := nonEmpty (deref log.geoCountry) }

def purgeOlderThan (log : Table AuditLog.key) (cutoff : Int) : Table AuditLog.key :=
  log.delete (fun r => r.createdAt < cutoff)

end Mxid.Audit
