import Mxid.Audit.Impl.Chain

namespace Mxid.Audit

variable {J : Type} (E : Encoding J) (C : Crypto)

structure Chainer where
  key : Bytes
  keyID : KeyID

def loadHead (db : DB) (p : AuditPending) : ChainHead :=
  match db.heads.find? p.chain with
  | some head => if head.lastSeq = 0 then init else head
  | none => init
where
  init : ChainHead :=
    { tenantID := p.tenantID, chainClass := p.chainClass, lastSeq := 0, lastEntryHash := genesisPrevHash }

def chainPayload (p : AuditPending) : ChainPayload J where
  version := payloadV2
  tenantID := p.tenantID
  chainClass := p.chainClass
  actorID := p.actorID
  actorType := p.actorType
  eventType := p.eventType
  resourceType := p.resourceType
  resourceID := p.resourceID
  before := jsonToMap E p.before
  after := jsonToMap E p.after
  ip := p.ip
  userAgent := p.userAgent
  sessionID := p.sessionID
  detail := jsonToMap E p.detail
  occurredAt := E.formatRFC3339 p.occurredAt
  actorName := deref p.actorName
  resourceName := deref p.resourceName
  geoCity := deref p.geoCity
  geoCountry := deref p.geoCountry

def nextEntry (c : Chainer) (head : ChainHead) (p : AuditPending) (canonical : Bytes) : AuditEntry :=
  let seq := head.lastSeq + 1
  { tenantID := p.tenantID
    chainClass := p.chainClass
    seq := seq
    prevHash := head.lastEntryHash
    entryHash := computeEntryHash C c.key seq head.lastEntryHash canonical
    keyID := c.keyID
    payload := canonical }

def chainOne (c : Chainer) (db : DB) (p : AuditPending) : Option DB := do
  let head := loadHead db p
  let canonical ← canonicalJSON E (chainPayload E p)
  let entry := nextEntry C c head p canonical
  let entries ← db.entries.insert? entry
  let heads := db.heads.upsert { head with lastSeq := entry.seq, lastEntryHash := entry.entryHash }
  return { db with entries, heads }

def chainAndDelete (c : Chainer) (db : DB) (p : AuditPending) : Option DB := do
  let db ← chainOne E C c db p
  return { db with pending := db.pending.delete (fun q => q.id = p.id) }

def limitRows {ρ : Type} (limit : Int) (rows : List ρ) : List ρ :=
  if limit < 0 then rows else rows.take limit.toNat

def processBatch (c : Chainer) (db : DB) (limit : Int) : Option (DB × Nat) := do
  let pend := limitRows limit (Table.orderBy AuditPending.id db.pending.rows)
  let db ← pend.foldlM (chainAndDelete E C c) db
  return (db, pend.length)

end Mxid.Audit
