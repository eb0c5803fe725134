import Mxid.Audit.Impl.Chain

/-!
This module contains the anchorer. `AnchorChain` is not a transaction, so it is cut at each of its statements.
-/

namespace Mxid.Audit

variable (C : Crypto) (db : DB) (c : Chain)

def DB.chainAnchors : List AuditAnchor :=
  db.anchors.rows.filter (fun a => a.chain = c)

def DB.chainEntries : List AuditEntry :=
  db.entries.rows.filter (fun e => e.chain = c)

def lastAnchoredTo : Int64 :=
  ((db.chainAnchors c).map AuditAnchor.toSeq).max?.getD 0

def entriesAfter (seq : Int64) : List AuditEntry :=
  Table.orderBy AuditEntry.seq ((db.chainEntries c).filter (fun e => seq < e.seq))

def lastAnchor? : Option AuditAnchor :=
  (Table.orderByDesc AuditAnchor.toSeq (db.chainAnchors c)).head?

def prevAnchorHash : Bytes :=
  match lastAnchor? db c with
  | some a => anchorHash C a
  | none => []

def signedAnchor (priv : PrivateKey) (c : Chain) (first : AuditEntry) (rest : List AuditEntry)
    (prev : Bytes) : AuditAnchor :=
  let root := merkleRoot C ((first :: rest).map AuditEntry.entryHash)
  let toSeq := ((first :: rest).getLast (List.cons_ne_nil first rest)).seq
  { tenantID := c.1
    chainClass := c.2
    fromSeq := first.seq
    toSeq := toSeq
    merkleRoot := root
    signature := signAnchorV2 C priv c.1 c.2.bytes first.seq toSeq prev root
    keyID := keyIDForPublic C (C.ed25519Public priv)
    version := anchorV2
    prevAnchorHash := prev
    externalURI := []
    createdAt := 0 }

def AuditAnchor.record (a : AuditAnchor) (now : Int) : AnchorRecord where
  tenantID := a.tenantID
  chainClass := a.chainClass
  fromSeq := a.fromSeq
  toSeq := a.toSeq
  merkleRoot := a.merkleRoot
  signature := a.signature
  keyID := a.keyID
  createdAt := now

inductive AnchorJob where
  | readLast (c : Chain) (lastTo : Int64)
  | readEntries (c : Chain) (first : AuditEntry) (rest : List AuditEntry)
  | signed (a : AuditAnchor)
  | put (a : AuditAnchor)

end Mxid.Audit
