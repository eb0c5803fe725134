import Mxid.Audit.Impl.Anchorer

namespace Mxid.Audit

variable (C : Crypto)

structure Checkpoint where
  seq : Int64
  prevHash : Bytes
  deriving DecidableEq

def genesisCheckpoint : Checkpoint where
  seq := 1
  prevHash := genesisPrevHash

inductive CheckpointError where
  | unknownKey (c : Chain) (keyID : KeyID)
  | invalidSignature (c : Chain)
  deriving DecidableEq

def loadCheckpoint (db : DB) (keys : KeyRegistry) (c : Chain) : Except CheckpointError Checkpoint :=
  match db.checkpoints.find? c with
  | none => .ok genesisCheckpoint
  | some cp =>
    match keys.keyFor cp.keyID with
    | none => .error (.unknownKey c cp.keyID)
    | some pub =>
      if verifyCheckpointSig C pub cp then
        .ok { seq := cp.prunedThroughSeq + 1, prevHash := cp.prevHash }
      else
        .error (.invalidSignature c)

structure PruneResult where
  chain : Chain
  prunedThroughSeq : Int64
  entriesDeleted : Nat

def signedCheckpoint (priv : PrivateKey) (c : Chain) (through : Int64) (boundary : AuditEntry) : AuditCheckpoint where
  tenantID := c.1
  chainClass := c.2
  prunedThroughSeq := through
  prevHash := boundary.entryHash
  signature := C.ed25519Sign priv (checkpointSigMessage c.1 c.2.bytes through boundary.entryHash)
  keyID := keyIDForPublic C (C.ed25519Public priv)

def pruneChain (priv : PrivateKey) (db : DB) (c : Chain) (cutoffSeq : Int64) : DB × PruneResult :=
  let unchanged := (db, { chain := c, prunedThroughSeq := 0, entriesDeleted := 0 })
  match lastAnchor? db c with
  | none => unchanged
  | some lastAnchor =>
    let through := if cutoffSeq < lastAnchor.toSeq then cutoffSeq else lastAnchor.toSeq
    if through < 1 then
      unchanged
    else
      match db.entries.find? (c, through) with
      | none => unchanged
      | some boundary =>
        let pruned := fun e : AuditEntry => e.chain = c ∧ e.seq ≤ through
        ({ db with
            checkpoints := db.checkpoints.upsert (signedCheckpoint C priv c through boundary)
            entries := db.entries.delete (fun e => pruned e) },
          { chain := c
            prunedThroughSeq := through
            entriesDeleted := (db.entries.rows.filter (fun e => pruned e)).length })

def boundaryAnchor? (db : DB) (c : Chain) (cutoff : Int) : Option AuditAnchor :=
  (Table.orderByDesc AuditAnchor.toSeq
    ((db.chainAnchors c).filter (fun a => a.createdAt < cutoff))).head?

def pruneHeadBefore (priv : PrivateKey) (cutoff : Int) (acc : DB × List PruneResult) (h : ChainHead) :
    DB × List PruneResult :=
  match boundaryAnchor? acc.1 h.chain cutoff with
  | none => acc
  | some anchor =>
    let (db, res) := pruneChain C priv acc.1 h.chain anchor.toSeq
    (db, if res.entriesDeleted > 0 then acc.2 ++ [res] else acc.2)

def pruneChainsBefore (priv : PrivateKey) (db : DB) (cutoff : Int) (done : Nat) : DB × List PruneResult :=
  (db.heads.rows.take done).foldl (pruneHeadBefore C priv cutoff) (db, [])

end Mxid.Audit
