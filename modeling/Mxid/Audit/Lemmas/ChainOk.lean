import Mxid.Audit.Lemmas.History
import Mxid.Audit.Lemmas.SinkComplete

/-!
This module contains what the tables hold for a chain with a given history, and that such a chain verifies.
-/

namespace Mxid.Audit

open List Int64

variable {J : Type}

def headOf (c : Chain) (w : List AuditEntry) : Option ChainHead :=
  w.getLast?.map (fun e =>
    { tenantID := c.1, chainClass := c.2, lastSeq := ofNat w.length, lastEntryHash := e.entryHash })

def CheckpointOk (cfg : Config J) (c : Chain) (w : List AuditEntry) (floor : Nat) :
    Option AuditCheckpoint → Prop
  | none => floor = 0
  | some cp =>
    cp.prunedThroughSeq = ofNat floor ∧ cp.prevHash = lastHash genesisPrevHash (w.take floor)
      ∧ cp.chain = c
      ∧ ∃ priv ∈ cfg.signers, cp.keyID = keyIDForPublic cfg.crypto (cfg.crypto.ed25519Public priv)
          ∧ cp.signature = cfg.crypto.ed25519Sign priv
              (checkpointSigMessage cp.tenantID cp.chainClass.bytes cp.prunedThroughSeq cp.prevHash)

theorem CheckpointOk.append {cfg : Config J} {c : Chain} {w : List AuditEntry} {floor : Nat}
    {cp : Option AuditCheckpoint} (h : CheckpointOk cfg c w floor cp) (hfloor : floor ≤ w.length)
    (w' : List AuditEntry) : CheckpointOk cfg c (w ++ w') floor cp := by
  cases cp with
  | none => exact h
  | some =>
    unfold CheckpointOk
    rw [take_append_of_le_length hfloor]
    exact h

structure ChainOk (cfg : Config J) (db : DB) (c : Chain) (w : List AuditEntry)
    (cut kept : List AuditAnchor) : Prop where
  mem_chain : ∀ e ∈ w, e.chain = c
  linked : Linked cfg.crypto cfg.chainer.key genesisPrevHash 1 w
  length_lt : w.length + 1 < 2 ^ 63
  head : db.heads.find? c = headOf c w
  anchors : (db.chainAnchors c).Perm (cut ++ kept)
  tiled : Tiled cfg c w 0 [] (cut ++ kept)
  entries : (db.chainEntries c).Perm (w.drop (stopOf 0 cut))
  checkpoint : CheckpointOk cfg c w (stopOf 0 cut) (db.checkpoints.find? c)

structure Registered (cfg : Config J) (keys : KeyRegistry) : Prop where
  keyFor : ∀ priv ∈ cfg.signers,
    keys.keyFor (keyIDForPublic cfg.crypto (cfg.crypto.ed25519Public priv))
      = some (cfg.crypto.ed25519Public priv)
  verify : ∀ priv ∈ cfg.signers, ∀ msg,
    cfg.crypto.ed25519Verify (cfg.crypto.ed25519Public priv) msg (cfg.crypto.ed25519Sign priv msg) = true

section Verify

variable {cfg : Config J} {db : DB} {c : Chain} {w : List AuditEntry} {cut kept : List AuditAnchor} {keys : KeyRegistry}

theorem ChainOk.floor_le (h : ChainOk cfg db c w cut kept) : stopOf 0 cut ≤ w.length :=
  (tiled_append.mp h.tiled).1.stopOf_le (by omega)

theorem clampSeq_ofNat_add_one {n : Nat} (h : n + 1 < 2 ^ 63) : clampSeq (ofNat (n + 1)) = ofNat (n + 1) := by
  unfold clampSeq
  rw [if_neg]
  have : ¬ofNat (n + 1) < ofNat 1 := by
    rw [ofNat_lt_ofNat_iff h (by omega)]
    omega
  exact this

section

variable (h : ChainOk cfg db c w cut kept)

include h

theorem ChainOk.loadCheckpoint (hkeys : Registered cfg keys) :
    loadCheckpoint cfg.crypto db keys c
      =
    .ok { seq := ofNat (stopOf 0 cut + 1)
          prevHash := lastHash genesisPrevHash (w.take (stopOf 0 cut)) } := by
  have hcp := h.checkpoint
  unfold Audit.loadCheckpoint
  cases hfind : db.checkpoints.find? c with
  | none =>
    rw [hfind] at hcp
    have hfloor : stopOf 0 cut = 0 := hcp
    rw [hfloor]
    rfl
  | some cp =>
    rw [hfind] at hcp
    rcases hcp with ⟨hseq, hprev, hchain, priv, hpriv, hkeyID, hsig⟩
    dsimp only
    rw [hkeyID, hkeys.keyFor priv hpriv]
    have hverify : verifyCheckpointSig cfg.crypto (cfg.crypto.ed25519Public priv) cp = true := by
      unfold verifyCheckpointSig
      rw [hsig]
      exact hkeys.verify priv hpriv _
    dsimp only
    rw [if_pos hverify, hseq, hprev, ofNat_add_one]

theorem ChainOk.verifyChainFrom :
    ∃ res, verifyChainFrom cfg.crypto db cfg.chainer.key c
        { seq := ofNat (stopOf 0 cut + 1)
          prevHash := lastHash genesisPrevHash (w.take (stopOf 0 cut)) } = some res
      ∧ res.ok = true ∧ res.verifiedThrough = ofNat w.length := by
  have hfloor := h.floor_le
  have hlt := h.length_lt
  have hclamp := clampSeq_ofNat_add_one (show stopOf 0 cut + 1 < 2 ^ 63 by omega)
  have hentries := entriesAfter_eq_drop h.linked (by omega) h.entries (le_refl _) h.floor_le
  have hlinked := h.linked
  rw [← take_append_drop (stopOf 0 cut) w, linked_append, length_take_of_le hfloor,
    Int64.add_comm, Int64.ofNat_add_one] at hlinked
  have hiff := @verifyChainFrom_eq_ok_iff cfg.crypto cfg.chainer.key db c
    { seq := ofNat (stopOf 0 cut + 1)
      prevHash := lastHash genesisPrevHash (w.take (stopOf 0 cut)) }
  dsimp only at hiff
  rw [hclamp, ofNat_add_one_sub_one, hentries] at hiff
  have hok := hiff.mpr ⟨hlinked.2, rfl⟩
  refine ⟨_, hok.1, hok.2, ?_⟩
  rw [verifiedAll, length_drop, ← ofNat_add]
  have hlen : stopOf 0 cut + 1 + (w.length - stopOf 0 cut) = w.length + 1 := by omega
  rw [hlen, ofNat_add_one_sub_one]

theorem ChainOk.anchorsFrom_floor : anchorsFrom db c (ofNat (stopOf 0 cut + 1)) = kept := by
  have hlt := h.length_lt
  have htiled := tiled_append.mp h.tiled
  apply Table.orderBy_eq_of_perm
  . have hfilter : (cut ++ kept).filter (fun a => ofNat (stopOf 0 cut + 1) ≤ a.toSeq) = kept := by
      rw [filter_append, filter_eq_nil_iff.mpr, filter_eq_self.mpr, nil_append]
      . intro a ha
        rcases htiled.2.bounds ha with ⟨_, hto, hstop, hle, _⟩
        have := htiled.2.stopOf_le h.floor_le
        rw [hto, decide_eq_true_eq, ofNat_le_ofNat_iff (by omega) (by omega)]
        omega
      . intro a ha
        rcases htiled.1.bounds ha with ⟨_, hto, hstop, hle, _⟩
        have := h.floor_le
        rw [hto, decide_eq_true_eq, ofNat_le_ofNat_iff (by omega) (by omega)]
        omega
    rw [← hfilter]
    exact h.anchors.filter _
  . exact (htiled.2.pairwise h.floor_le (by omega)).imp (fun hab => hab.2.1)

end

theorem Tiled.walkOk {as : List AuditAnchor} {n : Nat} {prev : Bytes} {walk : AnchorWalk}
    (htiled : Tiled cfg c w n prev as) (h : ChainOk cfg db c w cut kept) (hkeys : Registered cfg keys)
    (hn : stopOf 0 cut ≤ n) (hfrom : walk.expectedFrom = ofNat (n + 1))
    (hprev : walk.expectPrev = none ∨ walk.expectPrev = some prev) : WalkOk cfg.crypto db keys c walk as := by
  induction as generalizing n prev walk with
  | nil => trivial
  | cons a as ih =>
    rcases htiled with ⟨ha, htail⟩
    have hlt := h.length_lt
    have hstop := ha.lt_stop
    have hle := ha.stop_le
    have hleaves : leavesBetween db c a.fromSeq a.toSeq
        = ((w.take a.stop).drop n).map AuditEntry.entryHash := by
      unfold leavesBetween
      rw [ha.fromSeq_eq, ha.toSeq_eq, ofNat_add_one_sub_one]
      rw [entriesBetween_eq_take_drop h.linked (by omega) h.entries hn hle (by omega)]
    have hlength : a.toSeq - a.fromSeq + 1 = ofNat (a.stop - n) := by
      have hsub : (a.toSeq - a.fromSeq).toInt = (a.stop : Int) - (n + 1) := by
        rw [toInt_sub_of_bounds] <;> rw [ha.fromSeq_eq, ha.toSeq_eq,
          toInt_ofNat_of_lt (by omega), toInt_ofNat_of_lt (by omega)] <;> omega
      apply toInt_inj.mp
      rw [toInt_ofNat_of_lt (by omega), toInt_add_of_bounds] <;>
        rw [hsub, toInt_one] <;> omega
    refine ⟨⟨ha.fromSeq_eq.trans hfrom.symm, ?_, ?_, ?_, ?_, ?_⟩, ?_⟩
    . rcases ha.signed with ⟨priv, hpriv, hkeyID, hsig⟩
      refine ⟨_, by rw [hkeyID]; exact hkeys.keyFor priv hpriv, ?_⟩
      unfold verifyAnchorSig anchorSignedMessage?
      rw [if_pos ha.version_eq, hsig]
      exact hkeys.verify priv hpriv _
    . unfold linkMismatch
      rcases hprev with hprev | hprev
      . rw [hprev]
      . rw [hprev]
        simp [ha.prev_eq]
    . rw [hlength]
      have : ¬ofNat (a.stop - n) < ofNat 0 := by
        rw [ofNat_lt_ofNat_iff (by omega) (by omega)]
        omega
      exact this
    . rw [hleaves, hlength, length_map, length_drop, length_take_of_le hle]
    . rw [hleaves, ha.root_eq]
    apply ih htail (by omega)
    . rw [AnchorWalk.behind, ha.toSeq_eq, ofNat_add_one]
    . exact Or.inr rfl

theorem Tiled.walkEnd_through {as : List AuditAnchor} {n : Nat} {prev : Bytes} {walk : AnchorWalk}
    (htiled : Tiled cfg c w n prev as) (hthrough : walk.through = ofNat n) :
    (walkEnd cfg.crypto walk as).through = ofNat (stopOf n as) := by
  induction as generalizing n prev walk with
  | nil => exact hthrough
  | cons a as ih =>
    rw [walkEnd_cons, stopOf_cons]
    exact ih htiled.2 htiled.1.toSeq_eq

theorem ChainOk.walkOk (h : ChainOk cfg db c w cut kept) (hkeys : Registered cfg keys) :
    WalkOk cfg.crypto db keys c (.start (clampSeq (ofNat (stopOf 0 cut + 1))))
      (anchorsFrom db c (clampSeq (ofNat (stopOf 0 cut + 1)))) := by
  have hlt := h.length_lt
  have hfloor := h.floor_le
  rw [clampSeq_ofNat_add_one (by omega), h.anchorsFrom_floor]
  exact (tiled_append.mp h.tiled).2.walkOk h hkeys (le_refl _) rfl (Or.inl rfl)

theorem ChainOk.verifyAnchorsFrom (h : ChainOk cfg db c w cut kept) (hkeys : Registered cfg keys) :
    ∃ res, verifyAnchorsFrom cfg.crypto db keys c (ofNat (stopOf 0 cut + 1)) = some res ∧ res.ok = true :=
  ⟨_, (verifyAnchorsFrom_eq_ok_iff cfg.crypto db keys c).mpr ⟨h.walkOk hkeys, rfl⟩⟩

end Verify

end Mxid.Audit
