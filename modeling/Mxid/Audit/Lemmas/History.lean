import Mxid.Audit.Lemmas.Anchors
import Mxid.Audit.Impl.System

/-!
This module contains the abstract ledger: the list of all entries that were ever appended to a chain, tiled by its
anchors.
-/

namespace Mxid.Audit

open List Int64

section Numbering

variable {C : Crypto} {key prev : Bytes} {seq : Int64} {w : List AuditEntry}

theorem Linked.seq_getElem (h : Linked C key prev seq w) (i : Nat) (hi : i < w.length) : w[i].seq = seq + ofNat i := by
  induction w generalizing prev seq i with
  | nil => contradiction
  | cons e w ih =>
    cases i with
    | zero =>
      rw [getElem_cons_zero, h.1]
      simp
    | succ i =>
      rw [getElem_cons_succ, ih h.2.2.2 i (by simpa using hi), add_one_add_ofNat]

theorem Linked.toInt_seq_getElem (h : Linked C key genesisPrevHash 1 w)
    (hlt : w.length < 2 ^ 63) (i : Nat) (hi : i < w.length) : w[i].seq.toInt = i + 1 := by
  have hofNat : (1 : Int64) + ofNat i = ofNat (i + 1) := by
    rw [Int64.ofNat_add, Int64.add_comm]
    rfl
  rw [h.seq_getElem i hi, hofNat, toInt_ofNat_of_lt (by omega)]
  simp

theorem Linked.prevHash_getElem (h : Linked C key prev seq w) (i : Nat) (hi : i < w.length) :
    w[i].prevHash = lastHash prev (w.take i) := by
  induction w generalizing prev seq i with
  | nil => contradiction
  | cons e w ih =>
    cases i with
    | zero => exact h.2.1
    | succ i =>
      rw [getElem_cons_succ, ih h.2.2.2 i (by simpa using hi), take_succ_cons, lastHash_cons]

theorem Linked.prevHash_length (h : Linked C key prev seq w) (hprev : prev.length = 32)
    (hmac : ∀ msg, (C.hmacSHA256 key msg).length = 32) :
    ∀ e ∈ w, e.prevHash.length = 32 ∧ e.entryHash.length = 32
      ∧ e.entryHash = C.hmacSHA256 key (entryPreimage e.seq e.prevHash e.payload) := by
  induction w generalizing prev seq with
  | nil => simp
  | cons e w ih =>
    rcases h with ⟨hseq, hprevHash, hhash, htail⟩
    have hlen : e.entryHash.length = 32 := by
      rw [hhash]
      exact hmac _
    intro e' he'
    rcases mem_cons.mp he' with rfl | he'
    . refine ⟨by rw [hprevHash]; exact hprev, hlen, ?_⟩
      rw [hseq, hprevHash]
      exact hhash
    . exact ih htail hlen e' he'

theorem Linked.pairwise_seq (h : Linked C key genesisPrevHash 1 w)
    (hlt : w.length < 2 ^ 63) : w.Pairwise (fun a b => a.seq < b.seq) := by
  rw [pairwise_iff_getElem]
  intro i j hi hj hij
  rw [lt_iff_toInt_lt, h.toInt_seq_getElem hlt i hi, h.toInt_seq_getElem hlt j hj]
  omega

end Numbering

section Queries

variable {C : Crypto} {key : Bytes} {db : DB} {c : Chain} {w : List AuditEntry} {floor : Nat}

section

variable (hlinked : Linked C key genesisPrevHash 1 w) (hlt : w.length < 2 ^ 63)
  (hperm : (db.chainEntries c).Perm (w.drop floor))

include hlinked hlt hperm

theorem entriesBetween_eq_take_drop {n m : Nat} (hn : floor ≤ n) (hm : m ≤ w.length) (hnm : n ≤ m) :
    entriesBetween db c (ofNat n) (ofNat m) = (w.take m).drop n := by
  apply Table.orderBy_eq_of_perm
  . have hfilter : (w.drop floor).filter (fun e => ofNat n < e.seq ∧ e.seq ≤ ofNat m)
        = ((w.drop floor).take (m - floor)).drop (n - floor) := by
      apply filter_eq_drop_take
      intro i hi
      rw [getElem_drop]
      apply decide_eq_decide.mpr
      rw [lt_iff_toInt_lt, le_iff_toInt_le, hlinked.toInt_seq_getElem hlt,
        toInt_ofNat_of_lt (by omega), toInt_ofNat_of_lt (by omega)]
      omega
    have hdrop : ((w.drop floor).take (m - floor)).drop (n - floor) = (w.take m).drop n := by
      rw [take_drop, drop_drop]
      congr 2 <;> omega
    rw [← hdrop, ← hfilter]
    exact hperm.filter _
  . exact ((hlinked.pairwise_seq hlt).take).drop

theorem entriesAfter_eq_drop {n : Nat} (hn : floor ≤ n) (hle : n ≤ w.length) :
    entriesAfter db c (ofNat n) = w.drop n := by
  apply Table.orderBy_eq_of_perm
  . have hfilter : (w.drop floor).filter (fun e => ofNat n < e.seq)
        = ((w.drop floor).take w.length).drop (n - floor) := by
      apply filter_eq_drop_take
      intro i hi
      rw [length_drop] at hi
      rw [getElem_drop]
      apply decide_eq_decide.mpr
      rw [lt_iff_toInt_lt, hlinked.toInt_seq_getElem hlt, toInt_ofNat_of_lt (by omega)]
      omega
    have hdrop : ((w.drop floor).take w.length).drop (n - floor) = w.drop n := by
      rw [take_of_length_le (by simp), drop_drop]
      congr 1
      omega
    rw [← hdrop, ← hfilter]
    exact hperm.filter _
  . exact (hlinked.pairwise_seq hlt).drop

end

end Queries

section Tiling

variable {J : Type} (cfg : Config J) (c : Chain) (w : List AuditEntry)

def AuditAnchor.stop (a : AuditAnchor) : Nat :=
  a.toSeq.toInt.toNat

def stopOf (n : Nat) (as : List AuditAnchor) : Nat :=
  (as.getLast?.map AuditAnchor.stop).getD n

def linkOf (C : Crypto) (prev : Bytes) (as : List AuditAnchor) : Bytes :=
  (as.getLast?.map (anchorHash C)).getD prev

structure Anchors (n : Nat) (prev : Bytes) (a : AuditAnchor) : Prop where
  chain_eq : a.chain = c
  fromSeq_eq : a.fromSeq = ofNat (n + 1)
  toSeq_eq : a.toSeq = ofNat a.stop
  lt_stop : n < a.stop
  stop_le : a.stop ≤ w.length
  root_eq : a.merkleRoot = merkleRoot cfg.crypto (((w.take a.stop).drop n).map AuditEntry.entryHash)
  version_eq : a.version = anchorV2
  prev_eq : a.prevAnchorHash = prev
  signed : ∃ priv ∈ cfg.signers, a.keyID = keyIDForPublic cfg.crypto (cfg.crypto.ed25519Public priv)
    ∧ a.signature = signAnchorV2 cfg.crypto priv a.tenantID a.chainClass.bytes a.fromSeq a.toSeq
        a.prevAnchorHash a.merkleRoot

def Tiled : (n : Nat) → (prev : Bytes) → List AuditAnchor → Prop
  | _, _, [] => True
  | n, prev, a :: as => Anchors cfg c w n prev a ∧ Tiled a.stop (anchorHash cfg.crypto a) as

@[simp]
theorem stopOf_nil (n : Nat) : stopOf n [] = n := rfl

@[simp]
theorem stopOf_cons (n : Nat) (a : AuditAnchor) (as : List AuditAnchor) : stopOf n (a :: as) = stopOf a.stop as := by
  cases h : as.getLast? <;> simp [stopOf, List.getLast?_cons, h]

theorem stopOf_append (n : Nat) (as bs : List AuditAnchor) : stopOf n (as ++ bs) = stopOf (stopOf n as) bs := by
  induction as generalizing n with
  | nil => rfl
  | cons a as ih => simp [ih]

@[simp]
theorem linkOf_nil (C : Crypto) (prev : Bytes) : linkOf C prev [] = prev := rfl

@[simp]
theorem linkOf_cons (C : Crypto) (prev : Bytes) (a : AuditAnchor) (as : List AuditAnchor) :
    linkOf C prev (a :: as) = linkOf C (anchorHash C a) as := by
  cases h : as.getLast? <;> simp [linkOf, List.getLast?_cons, h]

variable {cfg c w} {n : Nat} {prev : Bytes} {as : List AuditAnchor}

theorem tiled_append {bs : List AuditAnchor} :
    Tiled cfg c w n prev (as ++ bs)
      ↔
    Tiled cfg c w n prev as ∧ Tiled cfg c w (stopOf n as) (linkOf cfg.crypto prev as) bs := by
  induction as generalizing n prev with
  | nil => simp [Tiled]
  | cons a as ih => simp [Tiled, ih, and_assoc]

theorem Anchors.mono {w' : List AuditEntry} (hw : w <+: w')
    {a : AuditAnchor} (h : Anchors cfg c w n prev a) : Anchors cfg c w' n prev a := by
  rcases hw with ⟨t, rfl⟩
  have htake : (w ++ t).take a.stop = w.take a.stop := take_append_of_le_length h.stop_le
  exact { h with
    stop_le := by
      rw [length_append]
      exact le_trans h.stop_le (by omega)
    root_eq := by
      rw [htake]
      exact h.root_eq }

theorem Tiled.mono {w' : List AuditEntry} (hw : w <+: w') (h : Tiled cfg c w n prev as) : Tiled cfg c w' n prev as := by
  induction as generalizing n prev with
  | nil => trivial
  | cons a as ih => exact ⟨h.1.mono hw, ih h.2⟩

section

variable (h : Tiled cfg c w n prev as)

include h

theorem Tiled.le_stopOf : n ≤ stopOf n as := by
  induction as generalizing n prev with
  | nil => exact le_refl _
  | cons a as ih =>
    rw [stopOf_cons]
    exact le_trans (le_of_lt h.1.lt_stop) (ih h.2)

theorem Tiled.stopOf_le (hn : n ≤ w.length) : stopOf n as ≤ w.length := by
  induction as generalizing n prev with
  | nil => exact hn
  | cons a as ih =>
    rw [stopOf_cons]
    exact ih h.2 h.1.stop_le

theorem Tiled.bounds {a : AuditAnchor} (ha : a ∈ as) :
    a.chain = c ∧ a.toSeq = ofNat a.stop ∧ n < a.stop ∧ a.stop ≤ stopOf n as
      ∧ ∃ k, n ≤ k ∧ k < a.stop ∧ a.fromSeq = ofNat (k + 1) := by
  induction as generalizing n prev with
  | nil => contradiction
  | cons b as ih =>
    rw [stopOf_cons]
    have hlt := h.1.lt_stop
    rcases mem_cons.mp ha with rfl | ha
    . exact ⟨h.1.chain_eq, h.1.toSeq_eq, hlt, h.2.le_stopOf, n, le_refl _, hlt, h.1.fromSeq_eq⟩
    . rcases ih h.2 ha with ⟨hchain, hto, hstop, hle, k, hk, hk', hfrom⟩
      exact ⟨hchain, hto, by omega, hle, k, by omega, hk', hfrom⟩

theorem Tiled.exists_across {m : Nat} (hn : n < m) (hm : m < stopOf n as) (hstops : ∀ a ∈ as, a.stop ≠ m) :
    ∃ a ∈ as, m < a.stop ∧ ∃ k < m, a.fromSeq = ofNat (k + 1) := by
  induction as generalizing n prev with
  | nil =>
    rw [stopOf_nil] at hm
    omega
  | cons a as ih =>
    by_cases hstop : m < a.stop
    . exact ⟨a, mem_cons_self, hstop, n, hn, h.1.fromSeq_eq⟩
    . have hne := hstops a mem_cons_self
      rw [stopOf_cons] at hm
      rcases ih h.2 (by omega) hm (fun b hb => hstops b (mem_cons_of_mem a hb)) with ⟨b, hb, hacross⟩
      exact ⟨b, mem_cons_of_mem a hb, hacross⟩

theorem Tiled.pairwise (hn : n ≤ w.length) (hlt : w.length < 2 ^ 63) :
    as.Pairwise (fun a b => a.toSeq < b.fromSeq ∧ a.fromSeq < b.fromSeq ∧ a.toSeq < b.toSeq) := by
  induction as generalizing n prev with
  | nil => exact .nil
  | cons a as ih =>
    refine pairwise_cons.mpr ⟨?_, ih h.2 h.1.stop_le⟩
    intro b hb
    rcases h.2.bounds hb with ⟨_, hto, hstop, hle, k, hk, hk', hfrom⟩
    have hend := h.2.stopOf_le h.1.stop_le
    have hlt' := h.1.lt_stop
    rw [hfrom, hto, h.1.fromSeq_eq, h.1.toSeq_eq]
    rw [ofNat_lt_ofNat_iff (by omega) (by omega), ofNat_lt_ofNat_iff (by omega) (by omega),
      ofNat_lt_ofNat_iff (by omega) (by omega)]
    omega

end

end Tiling

end Mxid.Audit
