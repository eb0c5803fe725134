import Mxid.Audit.Impl.Chainer
import Mxid.Audit.Impl.Checkpoint

namespace Mxid.Audit

structure Config (J : Type) where
  crypto : Crypto
  encoding : Encoding J
  chainer : Chainer
  signers : List PrivateKey

structure State where
  db : DB
  sink : Option (List AnchorRecord)
  issued : List Int64
  job : Option AnchorJob
  signed : List Bytes

def minEventID : Int64 := 4194304

def State.init (withSink : Bool) : State where
  db := .empty
  sink := if withSink then some [] else none
  issued := []
  job := none
  signed := []

inductive Action where
  | capture (p : AuditPending)
  | processBatch (limit : Int) (commit : Bool)
  | anchorReadLast (c : Chain)
  | anchorReadEntries
  | anchorSign (priv : PrivateKey)
  | anchorPut (uri : Option Bytes) (now : Int)
  | anchorCreate (commit : Bool) (now : Int)
  | anchorAbort
  | prune (priv : PrivateKey) (cutoff : Int) (done : Nat)

def Action.appends : Action → Bool
  | .prune _ _ _ => false
  | _ => true

def captured (acts : List Action) : List AuditPending :=
  acts.filterMap (fun a =>
    match a with
    | .capture p => some p
    | _ => none)

variable {J : Type} (cfg : Config J)

def stepAnchorSign (s : State) (priv : PrivateKey) : Option State :=
  match s.job with
  | some (.readEntries c first rest) =>
    if priv ∈ cfg.signers then
      let a := signedAnchor cfg.crypto priv c first rest (prevAnchorHash cfg.crypto s.db c)
      let msg := anchorSigMessageV2 a.tenantID a.chainClass.bytes a.fromSeq a.toSeq a.prevAnchorHash a.merkleRoot
      some { s with job := some (.signed a), signed := s.signed ++ [msg] }
    else
      none
  | _ => none

def stepAnchorPut (s : State) (uri : Option Bytes) (now : Int) : Option State :=
  match s.job with
  | some (.signed a) =>
    match s.sink with
    | none => some { s with job := some (.put a) }
    | some records =>
      match uri with
      | none => some { s with job := none }
      | some uri =>
        some { s with
          sink := some (records ++ [a.record now])
          job := some (.put { a with externalURI := uri }) }
  | _ => none

def stepAnchorCreate (s : State) (commit : Bool) (now : Int) : Option State :=
  match s.job with
  | some (.put a) =>
    if commit then
      match s.db.anchors.insert? { a with createdAt := now } with
      | none => some { s with job := none }
      | some anchors => some { s with db := { s.db with anchors }, job := none }
    else
      some { s with job := none }
  | _ => none

def step (s : State) : Action → Option State
  | .capture p =>
    if minEventID ≤ p.id ∧ p.id ∉ s.issued then
      match s.db.pending.insert? p with
      | none => none
      | some pending => some { s with db := { s.db with pending }, issued := p.id :: s.issued }
    else
      none
  | .processBatch limit commit =>
    match processBatch cfg.encoding cfg.crypto cfg.chainer s.db limit with
    | some (db, _) => if commit then some { s with db } else some s
    | none => some s
  | .anchorReadLast c =>
    match s.job with
    | none => some { s with job := some (.readLast c (lastAnchoredTo s.db c)) }
    | some _ => none
  | .anchorReadEntries =>
    match s.job with
    | some (.readLast c lastTo) =>
      match entriesAfter s.db c lastTo with
      | [] => some { s with job := none }
      | first :: rest => some { s with job := some (.readEntries c first rest) }
    | _ => none
  | .anchorSign priv => stepAnchorSign cfg s priv
  | .anchorPut uri now => stepAnchorPut s uri now
  | .anchorCreate commit now => stepAnchorCreate s commit now
  | .anchorAbort => some { s with job := none }
  | .prune priv cutoff done =>
    if priv ∈ cfg.signers then
      let (db, _) := pruneChainsBefore cfg.crypto priv s.db cutoff done
      some { s with db }
    else
      none

structure Shared (ι : Type) where
  ledger : State
  jobs : ι → Option AnchorJob

namespace Shared

variable {ι : Type}

def init (withSink : Bool) : Shared ι where
  ledger := .init withSink
  jobs _ := none

def step [DecidableEq ι] (s : Shared ι) (act : ι × Action) : Option (Shared ι) :=
  match Audit.step cfg { s.ledger with job := s.jobs act.1 } act.2 with
  | none => none
  | some ledger =>
    some { ledger := { ledger with job := none }, jobs := Function.update s.jobs act.1 ledger.job }

end Shared

end Mxid.Audit
