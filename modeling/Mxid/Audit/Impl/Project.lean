import Mxid.Audit.Impl.Service
import Mxid.Audit.Impl.System
import Mxid.Audit.Impl.Verify

namespace Mxid.Audit

open Bytes

structure Decoding (J : Type) where
  unmarshalPayload : (raw : Bytes) → Option (ChainPayload J)
  parseRFC3339 : (text : Bytes) → Option Int
  len : J → Nat
  marshalMap : J → Option Bytes
  eventStatus? : J → Option (Option Int)

variable (C : Crypto) (tenantID : Int64) (chainClass : Bytes) (seq : Int64)

def projectedValue : Nat :=
  let sum := C.sha256 (be8 tenantID ++ chainClass ++ be8 seq)
  let v := toNat (sum.take 8) &&& 0x3FFFFFFFFFFFFFFF
  if v = 0 then 1 else v

def projectedID : Int64 :=
  -Int64.ofNat (projectedValue C tenantID chainClass seq)

inductive RebuildError where
  | decodePayload (tenantID : Int64) (chainClass : ChainClass) (seq : Int64)
  deriving DecidableEq

variable {J : Type} (D : Decoding J) (C : Crypto)

def eventStatusFromDetail (detail : Option J) : Int :=
  match detail.bind D.eventStatus? with
  | none => eventStatusSuccess
  | some (some n) => n
  | some none => eventStatusSuccess

def projectDetail (detail : Option J) : Bytes :=
  match detail with
  | none => ascii "\x7b\x7d"
  | some m => if 0 < D.len m then (D.marshalMap m).getD (ascii "\x7b\x7d") else ascii "\x7b\x7d"

def projectPayload (e : AuditEntry) (p : ChainPayload J) (occurred : Int) : AuditLog where
  id := projectedID C e.tenantID e.chainClass.bytes e.seq
  tenantID := p.tenantID
  actorID := if p.actorID ≠ 0 then some p.actorID else none
  actorName := nonEmpty p.actorName
  actorType := p.actorType
  eventType := p.eventType
  eventStatus := eventStatusFromDetail D p.detail
  resourceType := nonEmpty p.resourceType
  resourceID := if p.resourceID ≠ 0 then some p.resourceID else none
  resourceName := nonEmpty p.resourceName
  detail := projectDetail D p.detail
  ip := nonEmpty p.ip
  userAgent := nonEmpty p.userAgent
  geoCity := nonEmpty p.geoCity
  geoCountry := nonEmpty p.geoCountry
  sessionID := nonEmpty p.sessionID
  createdAt := occurred

def projectEntry (e : AuditEntry) : Except RebuildError (Option AuditLog) :=
  match D.unmarshalPayload e.payload with
  | none => .error (.decodePayload e.tenantID e.chainClass e.seq)
  | some p =>
    if p.eventType = [] then
      .ok none
    else
      match D.parseRFC3339 p.occurredAt with
      | none => .ok none
      | some occurred => .ok (some (projectPayload D C e p occurred))

def projectBatch : List AuditEntry → Except RebuildError (List AuditLog)
  | [] => .ok []
  | e :: es => do
    let row ← projectEntry D C e
    let rows ← projectBatch es
    return row.toList ++ rows

structure RebuildResult where
  entriesRead : Nat
  rowsWritten : Nat
  throughSeq : Int64

inductive RebuildOutcome where
  | done
  | failed (err : RebuildError)
  | stopped
  deriving DecidableEq

def rebuildLoop (db : DB) (c : Chain) : (batches : Nat) → (cursor : Int64) → Table AuditLog.key → RebuildResult →
    Table AuditLog.key × RebuildResult × RebuildOutcome
  | 0, _, log, res => (log, res, .stopped)
  | batches + 1, cursor, log, res =>
    match (entriesAfter db c cursor).take verifyBatchSize with
    | [] => (log, res, .done)
    | e :: es =>
      match projectBatch D C (e :: es) with
      | .error err => (log, res, .failed err)
      | .ok rows =>
        let log' := log.insertIgnore rows
        let through := ((e :: es).getLast (List.cons_ne_nil e es)).seq
        rebuildLoop db c batches through log'
          { entriesRead := res.entriesRead + (e :: es).length
            rowsWritten := res.rowsWritten + (log'.rows.length - log.rows.length)
            throughSeq := through }

def rebuildFromLedger (db : DB) (log : Table AuditLog.key) (c : Chain) (afterSeq : Int64) (batches : Nat) :
    Table AuditLog.key × RebuildResult × RebuildOutcome :=
  rebuildLoop D C db c batches afterSeq log { entriesRead := 0, rowsWritten := 0, throughSeq := 0 }

/--
The ledger together with the log. The last two fields are not stored anywhere, they keep track of which
row and which entry record the same event.
-/
structure LogState where
  ledger : State
  log : Table AuditLog.key
  logIDs : List Int64
  told : List (Int64 × Int64)
  chained : List (Int64 × (Chain × Int64))

/--
An event about changed data comes with the pending rows in which the change has been captured when it was made.
-/
inductive LogAction where
  | ledger (a : Action)
  | createLog (caller : Option Actor) (log : AuditLog) (stored : Bool) (bridge : Option (Int64 × Int))
      (captured : List Int64)
  | purge (cutoff : Int)
  | lose (lost : List LogKey)
  | rebuild (c : Chain) (afterSeq : Int64) (batches : Nat)

namespace LogState

variable (cfg : Config J) (svc : Service)

def init (withSink : Bool) : LogState where
  ledger := .init withSink
  log := .empty
  logIDs := []
  told := []
  chained := []

def newlyChained (s s' : State) : Action → List (Int64 × (Chain × Int64))
  | .processBatch limit _ =>
    let pend := limitRows limit (Table.orderBy AuditPending.id s.db.pending.rows)
    (pend.map AuditPending.id).zip ((s'.db.entries.rows.drop s.db.entries.rows.length).map AuditEntry.key)
  | _ => []

def stepLedger (s : LogState) (a : Action) : Option LogState :=
  match Audit.step cfg s.ledger a with
  | none => none
  | some ledger => some { s with ledger, chained := s.chained ++ newlyChained s.ledger ledger a }

def stepBridge (s : LogState) (log : AuditLog) (bridge : Option (Int64 × Int)) : Option LogState :=
  match bridge with
  | none => some s
  | some (id, now) =>
    match svc.bridgeToChain log id now with
    | none => some s
    | some p =>
      match Audit.step cfg s.ledger (.capture p) with
      | none => none
      | some ledger => some { s with ledger, told := s.told ++ [(log.id, p.id)] }

def stepCreateLog (s : LogState) (caller : Option Actor) (log : AuditLog) (stored : Bool)
    (bridge : Option (Int64 × Int)) (captured : List Int64) : Option LogState :=
  let log := svc.fillGeo (svc.enrich caller log)
  if minEventID ≤ log.id ∧ log.id ∉ s.logIDs ∧ captured ⊆ s.ledger.issued then
    let s := { s with logIDs := log.id :: s.logIDs, told := s.told ++ captured.map (log.id, ·) }
    if stored then
      match s.log.insert? log with
      | none => some s
      | some rows => stepBridge cfg svc { s with log := rows } log bridge
    else
      some s
  else
    none

def rebuilt (C : Crypto) (s : LogState) (c : Chain) (afterSeq : Int64) (batches : Nat) : LogState :=
  { s with log := (rebuildFromLedger D C s.ledger.db s.log c afterSeq batches).1 }

def step (s : LogState) : LogAction → Option LogState
  | .ledger a => stepLedger cfg s a
  | .createLog caller log stored bridge captured => stepCreateLog cfg svc s caller log stored bridge captured
  | .purge cutoff => some { s with log := purgeOlderThan s.log cutoff }
  | .lose lost => some { s with log := s.log.delete (fun r => r.key ∈ lost) }
  | .rebuild c afterSeq batches => some (s.rebuilt D cfg.crypto c afterSeq batches)

def Native (s : LogState) (e : AuditEntry) (r : AuditLog) : Prop :=
  r ∈ s.log.rows ∧ ∃ id, (r.id, id) ∈ s.told ∧ (id, e.key) ∈ s.chained

def Represents (s : LogState) (e : AuditEntry) (r : AuditLog) : Prop :=
  (r ∈ s.log.rows ∧ projectEntry D C e = .ok (some r)) ∨ s.Native e r

end LogState

end Mxid.Audit
