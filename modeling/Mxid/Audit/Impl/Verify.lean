import Mxid.Audit.Impl.Checkpoint
import Mxid.Data.Keyset

/-!
This module contains the verification of a chain and of its anchors. The reads are assumed to succeed, so the only way
not to return a result is a Go panic, modelled as `none`.
-/

namespace Mxid.Audit

variable (C : Crypto)

inductive VerifyReason where
  | none
  | seqGap
  | prevHashMismatch
  | hashMismatch
  deriving DecidableEq

structure VerifyResult where
  ok : Bool
  verifiedThrough : Int64
  failSeq : Int64
  reason : VerifyReason
  deriving DecidableEq

def verifyBatchSize : Nat := 1000

def verifyEntry (key : Bytes) (st : Bytes × Int64) (e : AuditEntry) : Except VerifyResult (Bytes × Int64) :=
  let (prev, expectedSeq) := st
  if e.seq ≠ expectedSeq then
    .error { ok := false, verifiedThrough := expectedSeq - 1, failSeq := expectedSeq, reason := .seqGap }
  else if e.prevHash ≠ prev then
    .error { ok := false, verifiedThrough := e.seq - 1, failSeq := e.seq, reason := .prevHashMismatch }
  else if computeEntryHash C key e.seq prev e.payload ≠ e.entryHash then
    .error { ok := false, verifiedThrough := e.seq - 1, failSeq := e.seq, reason := .hashMismatch }
  else
    .ok (e.entryHash, expectedSeq + 1)

def verifiedAll (st : Bytes × Int64) : VerifyResult where
  ok := true
  verifiedThrough := st.2 - 1
  failSeq := 0
  reason := .none

def verifyChainFromBatched (batchSize : Nat) (db : DB) (key : Bytes) (c : Chain) (cp : Checkpoint) :
    Option VerifyResult :=
  let expectedSeq := if cp.seq < 1 then 1 else cp.seq
  let batch := fun cursor => (entriesAfter db c cursor).take batchSize
  -- Every batch but the last one consumes a row.
  let fuel := db.entries.rows.length + 1
  match Keyset.foldPages batch AuditEntry.seq (verifyEntry C key) fuel (expectedSeq - 1)
      (cp.prevHash, expectedSeq) with
  | none => none
  | some (.error res) => some res
  | some (.ok st) => some (verifiedAll st)

def verifyChainFrom (db : DB) (key : Bytes) (c : Chain) (cp : Checkpoint) : Option VerifyResult :=
  verifyChainFromBatched C verifyBatchSize db key c cp

def verifyChain (db : DB) (key : Bytes) (c : Chain) : Option VerifyResult :=
  verifyChainFrom C db key c genesisCheckpoint

inductive AnchorVerifyReason where
  | none
  | anchorGap
  | unknownKey
  | badSignature
  | anchorLinkMismatch
  | missingEntries
  | rootMismatch
  | sinkMismatch
  | untrustedKey
  | noAnchors
  | incompleteCoverage
  deriving DecidableEq

structure AnchorVerifyResult where
  ok : Bool
  anchoredThrough : Int64
  failFromSeq : Int64
  reason : AnchorVerifyReason
  deriving DecidableEq

def AnchorVerifyResult.fail (through fromSeq : Int64) (reason : AnchorVerifyReason) : AnchorVerifyResult where
  ok := false
  anchoredThrough := through
  failFromSeq := fromSeq
  reason := reason

def AnchorVerifyResult.success (through : Int64) : AnchorVerifyResult where
  ok := true
  anchoredThrough := through
  failFromSeq := 0
  reason := .none

def entriesBetween (db : DB) (c : Chain) (cursor toSeq : Int64) : List AuditEntry :=
  Table.orderBy AuditEntry.seq
    ((db.chainEntries c).filter (fun e => cursor < e.seq ∧ e.seq ≤ toSeq))

def rangeLeaves (db : DB) (c : Chain) (fromSeq toSeq : Int64) : Option (List Bytes) :=
  let batch := fun cursor =>
    if cursor < toSeq then (entriesBetween db c cursor toSeq).take verifyBatchSize else []
  let append := fun (leaves : List Bytes) (e : AuditEntry) => (.ok (leaves ++ [e.entryHash]) : Except Empty _)
  match Keyset.foldPages batch AuditEntry.seq append (db.entries.rows.length + 1) (fromSeq - 1) [] with
  | some (.ok leaves) => some leaves
  | none => none

structure AnchorWalk where
  through : Int64
  expectedFrom : Int64
  expectPrev : Option Bytes

def AnchorWalk.start (fromSeq : Int64) : AnchorWalk where
  through := fromSeq - 1
  expectedFrom := fromSeq
  expectPrev := none

def linkMismatch (w : AnchorWalk) (a : AuditAnchor) : Bool :=
  match w.expectPrev with
  | none => false
  | some expectPrev => a.version ≥ anchorV2 ∧ a.prevAnchorHash ≠ expectPrev

def verifyAnchor (db : DB) (keys : KeyRegistry) (c : Chain) (w : AnchorWalk) (a : AuditAnchor) :
    Option (Except AnchorVerifyResult AnchorWalk) :=
  if a.fromSeq ≠ w.expectedFrom then
    some (.error (.fail (w.expectedFrom - 1) a.fromSeq .anchorGap))
  else
    match keys.keyFor a.keyID with
    | none => some (.error (.fail w.through a.fromSeq .unknownKey))
    | some pub =>
      if !verifyAnchorSig C pub a then
        some (.error (.fail w.through a.fromSeq .badSignature))
      else if linkMismatch w a then
        some (.error (.fail w.through a.fromSeq .anchorLinkMismatch))
      else if a.toSeq - a.fromSeq + 1 < 0 then
        none
      else
        match rangeLeaves db c a.fromSeq a.toSeq with
        | none => none
        | some leaves =>
          if Int64.ofNat leaves.length ≠ a.toSeq - a.fromSeq + 1 then
            some (.error (.fail w.through a.fromSeq .missingEntries))
          else if merkleRoot C leaves ≠ a.merkleRoot then
            some (.error (.fail w.through a.fromSeq .rootMismatch))
          else
            some (.ok
              { through := a.toSeq
                expectedFrom := a.toSeq + 1
                expectPrev := some (anchorHash C a) })

def walkAnchors (db : DB) (keys : KeyRegistry) (c : Chain) :
    AnchorWalk → List AuditAnchor → Option AnchorVerifyResult
  | w, [] => some (.success w.through)
  | w, a :: as =>
    match verifyAnchor C db keys c w a with
    | none => none
    | some (.error res) => some res
    | some (.ok w) => walkAnchors db keys c w as

def anchorsFrom (db : DB) (c : Chain) (fromSeq : Int64) : List AuditAnchor :=
  Table.orderBy AuditAnchor.fromSeq ((db.chainAnchors c).filter (fun a => fromSeq ≤ a.toSeq))

def clampSeq (fromSeq : Int64) : Int64 :=
  if fromSeq < 1 then 1 else fromSeq

def verifyAnchorsFrom (db : DB) (keys : KeyRegistry) (c : Chain) (fromSeq : Int64) : Option AnchorVerifyResult :=
  let fromSeq := clampSeq fromSeq
  walkAnchors C db keys c (.start fromSeq) (anchorsFrom db c fromSeq)

def verifyAnchors (db : DB) (keys : KeyRegistry) (c : Chain) : Option AnchorVerifyResult :=
  verifyAnchorsFrom C db keys c 1

def sinkIndex (sink : List AnchorRecord) (c : Chain) : List AnchorRecord :=
  (sink.filter (fun r => r.chain = c)).foldl
    (fun idx r => idx.filter (fun r' => r'.span ≠ r.span) ++ [r]) []

def maxDBToSeqAt (anchors : List AuditAnchor) (fromSeq : Int64) : Option Int64 :=
  ((anchors.filter (fun a => a.fromSeq = fromSeq ∧ 0 < a.toSeq)).map AuditAnchor.toSeq).max?

def sinkMatches (idx : List AnchorRecord) (a : AuditAnchor) : Bool :=
  match idx.find? (fun r => r.span = a.span) with
  | none => false
  | some r => r.merkleRoot = a.merkleRoot ∧ r.signature = a.signature

def sinkCovered (anchors : List AuditAnchor) (r : AnchorRecord) : Bool :=
  anchors.any (fun a => a.span = r.span) ||
    match maxDBToSeqAt anchors r.fromSeq with
    | none => false
    | some maxTo => r.toSeq ≤ maxTo

def compareSink (db : DB) (sink : List AnchorRecord) (c : Chain) (res : AnchorVerifyResult) : AnchorVerifyResult :=
  let dbAnchors := Table.orderBy AuditAnchor.fromSeq (db.chainAnchors c)
  let idx := sinkIndex sink c
  match dbAnchors.find? (fun a => !sinkMatches idx a) with
  | some a => .fail res.anchoredThrough a.fromSeq .sinkMismatch
  | none =>
    match idx.find? (fun r => !sinkCovered dbAnchors r) with
    | some r => .fail res.anchoredThrough r.fromSeq .sinkMismatch
    | none => res

def verifyAnchorsWithSinkFrom (db : DB) (sink : Option (List AnchorRecord)) (keys : KeyRegistry)
    (c : Chain) (fromSeq : Int64) : Option AnchorVerifyResult :=
  match verifyAnchorsFrom C db keys c fromSeq with
  | none => none
  | some res =>
    if !res.ok then
      some res
    else
      match sink with
      | none => some res
      | some sink => some (compareSink db sink c res)

end Mxid.Audit
