import Mxid.Audit.Impl.Chain

/-!
This module contains what makes the byte level formats unambiguous.
-/

namespace Mxid.Audit

open Bytes List

theorem ChainClass.length_lt (cc : ChainClass) : cc.bytes.length < 65536 := by
  have := cc.length_le
  omega

theorem ChainClass.bytes_inj {cc cc' : ChainClass} (h : cc.bytes = cc'.bytes) : cc = cc' := by
  cases cc
  cases cc'
  simp_all

theorem anchorSigMessageV2_inj {t t' f f' o o' : Int64} {cls cls' prev prev' root root' : Bytes}
    (hcls : cls.length < 65536) (hcls' : cls'.length < 65536)
    (hprev : prev.length < 65536) (hprev' : prev'.length < 65536)
    (h : anchorSigMessageV2 t cls f o prev root = anchorSigMessageV2 t' cls' f' o' prev' root') :
    t = t' ∧ cls = cls' ∧ f = f' ∧ o = o' ∧ prev = prev' ∧ root = root' := by
  simp only [anchorSigMessageV2, append_assoc, append_cancel_left_eq, be8_append_inj] at h
  rw [be2_prefixed_append_inj hcls hcls'] at h
  simp only [be8_append_inj] at h
  rw [be2_prefixed_append_inj hprev hprev'] at h
  exact h

inductive Signed where
  | anchor (tenantID : Int64) (chainClass : Bytes) (fromSeq toSeq : Int64) (root : Bytes)
  | anchorV2 (tenantID : Int64) (chainClass : Bytes) (fromSeq toSeq : Int64) (prevAnchorHash root : Bytes)
  | checkpoint (tenantID : Int64) (chainClass : Bytes) (seq : Int64) (prevHash : Bytes)

namespace Signed

def message : Signed → Bytes
  | anchor tenantID chainClass fromSeq toSeq root => anchorSigMessage tenantID chainClass fromSeq toSeq root
  | anchorV2 tenantID chainClass fromSeq toSeq prevAnchorHash root =>
    anchorSigMessageV2 tenantID chainClass fromSeq toSeq prevAnchorHash root
  | checkpoint tenantID chainClass seq prevHash => checkpointSigMessage tenantID chainClass seq prevHash

def Short : Signed → Prop
  | anchor _ chainClass _ _ _ => chainClass.length < 65536
  | anchorV2 _ chainClass _ _ prevAnchorHash _ => chainClass.length < 65536 ∧ prevAnchorHash.length < 65536
  | checkpoint _ chainClass _ _ => chainClass.length < 65536

def domain : Signed → Bytes
  | anchor .. => anchorSigDomain
  | anchorV2 .. => anchorSigDomainV2
  | checkpoint .. => checkpointSigDomain

theorem take_message (m : Signed) : m.message.take 20 = m.domain.take 20 := by
  cases m <;> simp only [message, anchorSigMessage, anchorSigMessageV2, checkpointSigMessage, append_assoc]
    <;> exact take_append_of_le_length (by decide)

theorem message_inj (m m' : Signed) (hm : m.Short) (hm' : m'.Short) : m.message = m'.message ↔ m = m' := by
  refine ⟨?_, congrArg message⟩
  intro h
  -- no domain is the start of another one, so messages of different kinds differ there
  have hdomain : m.domain.take 20 = m'.domain.take 20 := by rw [← take_message, ← take_message, h]
  cases m with
  | anchor =>
    cases m' with
    | anchor =>
      simp only [message, anchorSigMessage, append_assoc, append_cancel_left_eq, be8_append_inj] at h
      rw [be2_prefixed_append_inj hm hm'] at h
      simp only [be8_append_inj] at h
      simp only [h]
    | _ => exact absurd hdomain (by simp only [domain]; decide)
  | anchorV2 =>
    cases m' with
    | anchorV2 =>
      simp only [anchorSigMessageV2_inj hm.1 hm'.1 hm.2 hm'.2 h]
    | _ => exact absurd hdomain (by simp only [domain]; decide)
  | checkpoint =>
    cases m' with
    | checkpoint =>
      simp only [message, checkpointSigMessage, append_assoc, append_cancel_left_eq, be8_append_inj] at h
      rw [be2_prefixed_append_inj hm hm'] at h
      simp only [be8_append_inj] at h
      simp only [h]
    | _ => exact absurd hdomain (by simp only [domain]; decide)

theorem message_of_other_class_inj :
    (checkpoint 1 [100] 5 [7]).message = (checkpoint 1 [] 5 [7]).message
      ↔
    checkpoint 1 [100] 5 [7] = checkpoint 1 [] 5 [7] :=
  message_inj _ _ (by decide : [(100 : UInt8)].length < 65536) (by decide : ([] : Bytes).length < 65536)

end Signed

def digest (msg : Bytes) : Bytes :=
  bigEndian 32 (msg.foldl (fun h b => h * 257 + b.toNat + 1) 0)

@[simp]
theorem length_digest (msg : Bytes) : (digest msg).length = 32 := by
  simp [digest]

def digestCrypto (issued : Bytes → Bool) : Crypto where
  hmacSHA256 key msg := digest (key ++ msg)
  sha256 := digest
  ed25519Public := digest
  ed25519Sign priv msg := digest (digest priv ++ msg)
  ed25519Verify pub msg sig := issued msg && sig == digest (pub ++ msg)

end Mxid.Audit
