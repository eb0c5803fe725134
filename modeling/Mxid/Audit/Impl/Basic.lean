import Mxid.Data.Bytes
import Mxid.Data.Int64
import Mxid.Data.Table

namespace Mxid.Audit

abbrev PrivateKey := Bytes
abbrev PublicKey := Bytes
abbrev KeyID := Bytes

structure Crypto where
  hmacSHA256 : (key msg : Bytes) → Bytes
  sha256 : (msg : Bytes) → Bytes
  ed25519Public : PrivateKey → PublicKey
  ed25519Sign : PrivateKey → (msg : Bytes) → Bytes
  ed25519Verify : PublicKey → (msg sig : Bytes) → Bool

structure ChainClass where
  bytes : Bytes
  length_le : bytes.length ≤ 64
  deriving DecidableEq

def ChainClass.data : ChainClass := ⟨Bytes.ascii "data", by decide⟩

instance ChainClass.instInhabited : Inhabited ChainClass := ⟨.data⟩

structure AuditPending where
  id : Int64
  tenantID : Int64
  chainClass : ChainClass
  actorID : Int64
  actorType : Bytes
  eventType : Bytes
  resourceType : Bytes
  resourceID : Int64
  before : Bytes
  after : Bytes
  ip : Bytes
  userAgent : Bytes
  sessionID : Bytes
  detail : Bytes
  occurredAt : Int
  actorName : Option Bytes
  resourceName : Option Bytes
  geoCity : Option Bytes
  geoCountry : Option Bytes
  deriving DecidableEq, Inhabited

structure AuditEntry where
  tenantID : Int64
  chainClass : ChainClass
  seq : Int64
  prevHash : Bytes
  entryHash : Bytes
  keyID : KeyID
  payload : Bytes
  deriving DecidableEq

structure ChainHead where
  tenantID : Int64
  chainClass : ChainClass
  lastSeq : Int64
  lastEntryHash : Bytes

structure AuditAnchor where
  tenantID : Int64
  chainClass : ChainClass
  fromSeq : Int64
  toSeq : Int64
  merkleRoot : Bytes
  signature : Bytes
  keyID : KeyID
  version : Int16
  prevAnchorHash : Bytes
  externalURI : Bytes
  createdAt : Int
  deriving DecidableEq

structure AuditCheckpoint where
  tenantID : Int64
  chainClass : ChainClass
  prunedThroughSeq : Int64
  prevHash : Bytes
  signature : Bytes
  keyID : KeyID

structure AnchorRecord where
  tenantID : Int64
  chainClass : ChainClass
  fromSeq : Int64
  toSeq : Int64
  merkleRoot : Bytes
  signature : Bytes
  keyID : KeyID
  createdAt : Int
  deriving DecidableEq

abbrev Chain := Int64 × ChainClass

def AuditPending.chain (p : AuditPending) : Chain := (p.tenantID, p.chainClass)
def AuditEntry.chain (e : AuditEntry) : Chain := (e.tenantID, e.chainClass)
def ChainHead.chain (h : ChainHead) : Chain := (h.tenantID, h.chainClass)
def AuditAnchor.chain (a : AuditAnchor) : Chain := (a.tenantID, a.chainClass)
def AuditCheckpoint.chain (cp : AuditCheckpoint) : Chain := (cp.tenantID, cp.chainClass)
def AnchorRecord.chain (r : AnchorRecord) : Chain := (r.tenantID, r.chainClass)

def AuditEntry.key (e : AuditEntry) : Chain × Int64 := (e.chain, e.seq)
def AuditAnchor.span (a : AuditAnchor) : Chain × Int64 × Int64 := (a.chain, a.fromSeq, a.toSeq)
def AnchorRecord.span (r : AnchorRecord) : Chain × Int64 × Int64 := (r.chain, r.fromSeq, r.toSeq)

structure DB where
  pending : Table AuditPending.id
  entries : Table AuditEntry.key
  heads : Table ChainHead.chain
  anchors : Table AuditAnchor.span
  checkpoints : Table AuditCheckpoint.chain

def DB.empty : DB where
  pending := .empty
  entries := .empty
  heads := .empty
  anchors := .empty
  checkpoints := .empty

end Mxid.Audit
