import Mxid.Audit.Impl.Verify

namespace Mxid.Audit

structure Base64 where
  encodeToString : Bytes → Bytes
  decodeString : Bytes → Option Bytes

structure ExportEntry where
  seq : Int64
  prevHash : Bytes
  entryHash : Bytes
  payload : Bytes

structure ExportAnchor where
  tenantID : Int64
  chainClass : Bytes
  fromSeq : Int64
  toSeq : Int64
  merkleRoot : Bytes
  signature : Bytes
  keyID : KeyID
  version : Int16
  prevAnchorHash : Bytes

structure ExportBundle where
  tenantID : Int64
  chainClass : Bytes
  fromSeq : Int64
  toSeq : Int64
  entries : List ExportEntry
  anchors : List ExportAnchor
  pubKeys : List (KeyID × Bytes)

def AuditEntry.exported (e : AuditEntry) : ExportEntry where
  seq := e.seq
  prevHash := e.prevHash
  entryHash := e.entryHash
  payload := e.payload

def AuditAnchor.exported (a : AuditAnchor) : ExportAnchor where
  tenantID := a.tenantID
  chainClass := a.chainClass.bytes
  fromSeq := a.fromSeq
  toSeq := a.toSeq
  merkleRoot := a.merkleRoot
  signature := a.signature
  keyID := a.keyID
  version := a.version
  prevAnchorHash := a.prevAnchorHash

variable (B : Base64)

def buildExport (db : DB) (keys : KeyRegistry) (c : Chain) (fromSeq toSeq : Int64) : ExportBundle :=
  let entries := Table.orderBy AuditEntry.seq
    ((db.chainEntries c).filter (fun e => fromSeq ≤ e.seq ∧ e.seq ≤ toSeq))
  let anchors := Table.orderBy AuditAnchor.fromSeq
    ((db.chainAnchors c).filter (fun a => fromSeq ≤ a.toSeq ∧ a.fromSeq ≤ toSeq))
  { tenantID := c.1
    chainClass := c.2.bytes
    fromSeq
    toSeq
    entries := entries.map AuditEntry.exported
    anchors := anchors.map AuditAnchor.exported
    pubKeys := anchors.filterMap (fun a =>
      (keys.keyFor a.keyID).map (fun pub => (a.keyID, B.encodeToString pub))) }

def ExportAnchor.signedMessage? (a : ExportAnchor) : Option Bytes :=
  if a.version = anchorV2 then
    some (anchorSigMessageV2 a.tenantID a.chainClass a.fromSeq a.toSeq a.prevAnchorHash a.merkleRoot)
  else if a.version = anchorV1 ∨ a.version = 0 then
    some (anchorSigMessage a.tenantID a.chainClass a.fromSeq a.toSeq a.merkleRoot)
  else
    none

namespace ExportBundle

variable (C : Crypto) (b : ExportBundle) (trusted : KeyRegistry)

def bySeq (seq : Int64) : Option ExportEntry :=
  b.entries.reverse.find? (fun e => e.seq = seq)

def collectLeaves (toSeq : Int64) : (fuel : Nat) → (seq : Int64) → (leaves : List Bytes) →
    Option (Option (List Bytes))
  | 0, seq, leaves => if seq ≤ toSeq then none else some (some leaves)
  | fuel + 1, seq, leaves =>
    if seq ≤ toSeq then
      match b.bySeq seq with
      | none => some none
      | some e => collectLeaves toSeq fuel (seq + 1) (leaves ++ [e.entryHash])
    else
      some (some leaves)

def leaves (a : ExportAnchor) : Option (Option (List Bytes)) :=
  b.collectLeaves a.toSeq (b.entries.length + 1) a.fromSeq []

structure Walk where
  through : Int64
  expectedFrom : Int64

/--
Check one anchor. The outer `Option` is the panic of allocating a slice of negative capacity, or a loop that
does not end.
-/
def verifyAnchor (w : Walk) (a : ExportAnchor) : Option (Except AnchorVerifyResult Walk) :=
  match b.pubKeys.lookup a.keyID with
  | none => some (.error (.fail w.through a.fromSeq .unknownKey))
  | some text =>
    match B.decodeString text with
    | none => some (.error (.fail w.through a.fromSeq .unknownKey))
    | some pub =>
      if trusted.keyFor a.keyID ≠ some pub then
        some (.error (.fail w.through a.fromSeq .untrustedKey))
      else if a.fromSeq ≠ w.expectedFrom then
        some (.error (.fail w.through a.fromSeq .anchorGap))
      else
        match a.signedMessage? with
        | none => some (.error (.fail w.through a.fromSeq .badSignature))
        | some msg =>
          if !C.ed25519Verify pub msg a.signature then
            some (.error (.fail w.through a.fromSeq .badSignature))
          else if a.toSeq - a.fromSeq + 1 < 0 then
            none
          else
            match b.leaves a with
            | none => none
            | some none => some (.error (.fail w.through a.fromSeq .missingEntries))
            | some (some leaves) =>
              if merkleRoot C leaves ≠ a.merkleRoot then
                some (.error (.fail w.through a.fromSeq .rootMismatch))
              else
                some (.ok ⟨a.toSeq, a.toSeq + 1⟩)

def walk : Walk → List ExportAnchor → Option (Except AnchorVerifyResult Walk)
  | w, [] => some (.ok w)
  | w, a :: as =>
    match b.verifyAnchor B C trusted w a with
    | none => none
    | some (.error res) => some (.error res)
    | some (.ok w) => walk w as

def verifyExport : Option AnchorVerifyResult :=
  match b.walk B C trusted ⟨0, b.fromSeq⟩ b.anchors with
  | none => none
  | some (.error res) => some res
  | some (.ok w) =>
    if b.anchors.length = 0 then
      some (.fail 0 b.fromSeq .noAnchors)
    else if w.through < b.toSeq then
      some (.fail w.through (w.through + 1) .incompleteCoverage)
    else
      some (.success w.through)

end ExportBundle

end Mxid.Audit
