import Mxid.Audit.Impl.Basic
import Mxid.Data.Merkle

namespace Mxid.Audit

open Bytes

def genesisPrevHash : Bytes :=
  List.replicate 32 0

def payloadV2 : Int := 2

structure ChainPayload (J : Type) where
  version : Int
  tenantID : Int64
  chainClass : ChainClass
  actorID : Int64
  actorType : Bytes
  eventType : Bytes
  resourceType : Bytes
  resourceID : Int64
  before : Option J
  after : Option J
  ip : Bytes
  userAgent : Bytes
  sessionID : Bytes
  detail : Option J
  occurredAt : Bytes
  actorName : Bytes
  resourceName : Bytes
  geoCity : Bytes
  geoCountry : Bytes

structure Encoding (J : Type) where
  unmarshalMap : (raw : Bytes) → Option J
  marshalPayload : ChainPayload J → Option Bytes
  formatRFC3339 : (time : Int) → Bytes

variable {J : Type} (E : Encoding J) (C : Crypto)

def canonicalJSON (p : ChainPayload J) : Option Bytes :=
  E.marshalPayload p

def jsonToMap (raw : Bytes) : Option J :=
  if raw.length = 0 then
    none
  else
    E.unmarshalMap raw

def deref (s : Option Bytes) : Bytes :=
  s.getD []

def entryPreimage (seq : Int64) (prevHash canonical : Bytes) : Bytes :=
  be8 seq ++ prevHash ++ canonical

def computeEntryHash (key : Bytes) (seq : Int64) (prevHash canonical : Bytes) : Bytes :=
  C.hmacSHA256 key (entryPreimage seq prevHash canonical)

def merkleNode (left right : Bytes) : Bytes :=
  C.sha256 (left ++ right)

def merkleRoot (leaves : List Bytes) : Bytes :=
  (Merkle.root (merkleNode C) leaves).getD []

def anchorSigDomain : Bytes :=
  ascii "mxid-audit-anchor-v1"

def anchorSigDomainV2 : Bytes :=
  ascii "mxid-audit-anchor-v2"

def checkpointSigDomain : Bytes :=
  ascii "mxid-audit-checkpoint-v1"

def anchorV1 : Int16 := 1
def anchorV2 : Int16 := 2

variable (tenantID : Int64) (chainClass : Bytes)

def anchorSigMessage (fromSeq toSeq : Int64) (root : Bytes) : Bytes :=
  anchorSigDomain ++ be8 tenantID ++ be2 chainClass.length ++ chainClass
    ++ be8 fromSeq ++ be8 toSeq ++ root

def anchorSigMessageV2 (fromSeq toSeq : Int64) (prevAnchorHash root : Bytes) : Bytes :=
  anchorSigDomainV2 ++ be8 tenantID ++ be2 chainClass.length ++ chainClass
    ++ be8 fromSeq ++ be8 toSeq ++ be2 prevAnchorHash.length ++ prevAnchorHash ++ root

def checkpointSigMessage (seq : Int64) (prevHash : Bytes) : Bytes :=
  checkpointSigDomain ++ be8 tenantID ++ be2 chainClass.length ++ chainClass ++ be8 seq ++ prevHash

def hexDigit (n : Nat) : UInt8 :=
  if n < 10 then UInt8.ofNat (48 + n) else UInt8.ofNat (87 + n)

def hexEncode (bytes : Bytes) : Bytes :=
  bytes.flatMap (fun b => [hexDigit (b.toNat / 16), hexDigit (b.toNat % 16)])

def keyIDForPublic (pub : PublicKey) : KeyID :=
  (hexEncode (C.sha256 pub)).take 16

abbrev KeyRegistry := List (KeyID × PublicKey)

def newKeyRegistry (pubs : List PublicKey) : KeyRegistry :=
  pubs.foldl (fun r p => if p.length = 0 then r else (keyIDForPublic C p, p) :: r) []

def KeyRegistry.keyFor (keys : KeyRegistry) (keyID : KeyID) : Option PublicKey :=
  keys.lookup keyID

def anchorHashMessage (a : AuditAnchor) : Bytes :=
  if a.version ≥ anchorV2 then
    anchorSigMessageV2 a.tenantID a.chainClass.bytes a.fromSeq a.toSeq a.prevAnchorHash a.merkleRoot
  else
    anchorSigMessage a.tenantID a.chainClass.bytes a.fromSeq a.toSeq a.merkleRoot

def anchorHash (a : AuditAnchor) : Bytes :=
  C.sha256 (anchorHashMessage a)

def signAnchorV2 (priv : PrivateKey) (tenantID : Int64) (chainClass : Bytes) (fromSeq toSeq : Int64)
    (prevAnchorHash root : Bytes) : Bytes :=
  C.ed25519Sign priv (anchorSigMessageV2 tenantID chainClass fromSeq toSeq prevAnchorHash root)

def anchorSignedMessage? (a : AuditAnchor) : Option Bytes :=
  if a.version = anchorV2 then
    some (anchorSigMessageV2 a.tenantID a.chainClass.bytes a.fromSeq a.toSeq a.prevAnchorHash a.merkleRoot)
  else if a.version = anchorV1 ∨ a.version = 0 then
    some (anchorSigMessage a.tenantID a.chainClass.bytes a.fromSeq a.toSeq a.merkleRoot)
  else
    none

def verifyAnchorSig (pub : PublicKey) (a : AuditAnchor) : Bool :=
  match anchorSignedMessage? a with
  | none => false
  | some msg => C.ed25519Verify pub msg a.signature

def verifyCheckpointSig (pub : PublicKey) (cp : AuditCheckpoint) : Bool :=
  C.ed25519Verify pub
    (checkpointSigMessage cp.tenantID cp.chainClass.bytes cp.prunedThroughSeq cp.prevHash) cp.signature

end Mxid.Audit
