import Mxid.Audit.Lemmas.Message
import Mxid.Audit.Lemmas.Sink

namespace Mxid.Audit

open List Int64

theorem mem_chainAnchors {db : DB} {c : Chain} {a : AuditAnchor} :
    a ∈ db.chainAnchors c ↔ a ∈ db.anchors.rows ∧ a.chain = c := by
  simp [DB.chainAnchors]

theorem mem_anchorsFrom {db : DB} {c : Chain} {fromSeq : Int64} {a : AuditAnchor} :
    a ∈ anchorsFrom db c fromSeq ↔ a ∈ db.chainAnchors c ∧ fromSeq ≤ a.toSeq := by
  simp [anchorsFrom]

theorem span_eq {c : Chain} {a b : AuditAnchor} (ha : a.chain = c) (hb : b.chain = c)
    (hfrom : a.fromSeq = b.fromSeq) (hto : a.toSeq = b.toSeq) : a.span = b.span := by
  rw [AuditAnchor.span, AuditAnchor.span, ha, hb, hfrom, hto]

theorem one_le_clampSeq (fromSeq : Int64) : 1 ≤ clampSeq fromSeq := by
  unfold clampSeq
  split
  . exact le_refl _
  . next h => exact not_lt.mp h

variable {C : Crypto} {keys : KeyRegistry} {c : Chain} {fromSeq : Int64}

structure SinkOk (C : Crypto) (db : DB) (sink : List AnchorRecord) (keys : KeyRegistry) (c : Chain)
    (fromSeq : Int64) : Prop where
  walk : WalkOk C db keys c (.start (clampSeq fromSeq)) (anchorsFrom db c (clampSeq fromSeq))
  matched : ∀ a ∈ db.chainAnchors c, sinkMatches (sinkIndex sink c) a = true
  covered : ∀ r ∈ sinkIndex sink c, sinkCovered (db.chainAnchors c) r = true

theorem verifyAnchorsWithSinkFrom_eq_ok_iff {db : DB} {sink : List AnchorRecord} {res : AnchorVerifyResult} :
    verifyAnchorsWithSinkFrom C db (some sink) keys c fromSeq = some res ∧ res.ok = true
      ↔
    SinkOk C db sink keys c fromSeq
      ∧ res = .success
          (walkEnd C (.start (clampSeq fromSeq)) (anchorsFrom db c (clampSeq fromSeq))).through := by
  have hwalk := @verifyAnchorsFrom_eq_ok_iff C db keys c fromSeq
  have hcovered : ∀ r, sinkCovered (Table.orderBy AuditAnchor.fromSeq (db.chainAnchors c)) r
      = sinkCovered (db.chainAnchors c) r := by
    intro r
    rw [Bool.eq_iff_iff, sinkCovered_iff, sinkCovered_iff]
    simp
  unfold verifyAnchorsWithSinkFrom
  constructor
  . intro h
    cases hverify : verifyAnchorsFrom C db keys c fromSeq with
    | none => simp [hverify] at h
    | some walked =>
      simp only [hverify] at h
      by_cases hok : walked.ok = true
      . have hres := hwalk.mp ⟨hverify, hok⟩
        simp only [hok, Bool.not_true, Bool.false_eq_true, if_false, Option.some.injEq] at h
        unfold compareSink at h
        dsimp only at h
        split at h
        . rcases h with ⟨rfl, h⟩
          contradiction
        . next hmatch =>
          split at h
          . rcases h with ⟨rfl, h⟩
            contradiction
          . next hcov =>
            refine ⟨⟨hres.1, ?_, ?_⟩, by rw [← h.1, hres.2]⟩
            . intro a ha
              simpa using List.find?_eq_none.mp hmatch a (by simpa using ha)
            . intro r hr
              rw [← hcovered]
              simpa using List.find?_eq_none.mp hcov r hr
      . simp only [hok, Bool.not_false, if_true, Option.some.injEq] at h
        rw [← h.1] at h
        exact absurd h.2 hok
  . rintro ⟨⟨hw, hmatch, hcov⟩, rfl⟩
    have hverify := hwalk.mpr ⟨hw, rfl⟩
    simp only [hverify.1, hverify.2, Bool.not_true, Bool.false_eq_true, if_false, and_true, Option.some.injEq]
    unfold compareSink
    dsimp only
    rw [List.find?_eq_none.mpr, List.find?_eq_none.mpr]
    . intro r hr
      rw [hcovered]
      simp [hcov r hr]
    . intro a ha
      simp [hmatch a (by simpa using ha)]

section Accepted

variable {db : DB} {sink : List AnchorRecord} (h : SinkOk C db sink keys c fromSeq)
include h

theorem SinkOk.ordered :
    (anchorsFrom db c (clampSeq fromSeq)).Pairwise (fun a b => a.toSeq < b.fromSeq)
      ∧ (∀ a ∈ anchorsFrom db c (clampSeq fromSeq), a.fromSeq.toInt ≤ a.toSeq.toInt + 1
          ∧ a.toSeq ≤
            (walkEnd C (.start (clampSeq fromSeq)) (anchorsFrom db c (clampSeq fromSeq))).through)
      ∧ clampSeq fromSeq - 1 ≤
          (walkEnd C (.start (clampSeq fromSeq)) (anchorsFrom db c (clampSeq fromSeq))).through := by
  have h1 := one_le_clampSeq fromSeq
  have hlt : clampSeq fromSeq - 1 < clampSeq fromSeq := by
    rw [lt_iff_toInt_lt, toInt_sub_one (lt_of_lt_of_le (by decide : (0 : Int64) < 1) h1)]
    omega
  have hsorted := Table.pairwise_orderBy AuditAnchor.fromSeq
    ((db.chainAnchors c).filter (fun a => clampSeq fromSeq ≤ a.toSeq))
  have hordered := h.walk.ordered hsorted
    (fun a ha => le_trans h1 (mem_anchorsFrom.mp ha).2) h1 hlt
  exact ⟨hordered.1, fun a ha => (hordered.2.1 a ha).2, hordered.2.2⟩

theorem SinkOk.exists_record {a : AuditAnchor} (ha : a ∈ db.chainAnchors c) :
    ∃ r ∈ sinkIndex sink c, r.span = a.span ∧ r.merkleRoot = a.merkleRoot ∧ r.signature = a.signature := by
  rcases sinkMatches_iff.mp (h.matched a ha) with ⟨r, hlast, hroot, hsig⟩
  have hspan := (of_lastRecord?_eq_some hlast).2
  refine ⟨r, ?_, hspan, hroot, hsig⟩
  rw [mem_sinkIndex_iff, hspan]
  exact hlast

theorem SinkOk.eq_of_wider {a d : AuditAnchor} (ha : a ∈ anchorsFrom db c (clampSeq fromSeq))
    (hrange : a.fromSeq ≤ a.toSeq) (hd : d ∈ db.chainAnchors c) (hfrom : d.fromSeq = a.fromSeq)
    (hto : a.toSeq ≤ d.toSeq) : d = a := by
  have hd' : d ∈ anchorsFrom db c (clampSeq fromSeq) :=
    mem_anchorsFrom.mpr ⟨hd, le_trans (mem_anchorsFrom.mp ha).2 hto⟩
  by_contra hne
  have hpair : a.toSeq < d.fromSeq ∨ d.toSeq < a.fromSeq := by
    have hpairwise : (anchorsFrom db c (clampSeq fromSeq)).Pairwise
        (fun x y => x.toSeq < y.fromSeq ∨ y.toSeq < x.fromSeq) := h.ordered.1.imp Or.inl
    have : Std.Symm (fun x y : AuditAnchor => x.toSeq < y.fromSeq ∨ y.toSeq < x.fromSeq) :=
      ⟨fun _ _ => Or.symm⟩
    exact hpairwise.forall ha hd' (fun heq => hne heq.symm)
  rcases hpair with hlt | hlt
  . rw [hfrom] at hlt
    exact absurd hrange (not_le.mpr hlt)
  . exact absurd (le_trans hrange hto) (not_le.mpr hlt)

theorem SinkOk.toSeq_le {r : AnchorRecord} (hr : r ∈ sink) (hchain : r.chain = c) :
    r.toSeq ≤ (walkEnd C (.start (clampSeq fromSeq)) (anchorsFrom db c (clampSeq fromSeq))).through := by
  have hordered := h.ordered
  -- A stored anchor is verified, unless it ends before the walk starts.
  have hstored : ∀ a ∈ db.chainAnchors c, a.toSeq ≤
      (walkEnd C (.start (clampSeq fromSeq)) (anchorsFrom db c (clampSeq fromSeq))).through := by
    intro a ha
    by_cases hto : clampSeq fromSeq ≤ a.toSeq
    . exact (hordered.2.1 a (mem_anchorsFrom.mpr ⟨ha, hto⟩)).2
    apply le_trans _ hordered.2.2
    have h1 := one_le_clampSeq fromSeq
    have hlt := lt_iff_toInt_lt.mp (not_le.mp hto)
    rw [le_iff_toInt_le, toInt_sub_one (lt_of_lt_of_le (by decide : (0 : Int64) < 1) h1)]
    omega
  have hmem : r ∈ sink.filter (fun r => r.chain = c) := by simp [hr, hchain]
  rcases lastRecord?_isSome_of_mem hmem with ⟨r', hlast⟩
  have hspan := (of_lastRecord?_eq_some hlast).2
  have hidx : r' ∈ sinkIndex sink c := by
    rw [mem_sinkIndex_iff, hspan]
    exact hlast
  have hto : r'.toSeq = r.toSeq := by
    simp only [AnchorRecord.span, Prod.mk.injEq] at hspan
    exact hspan.2.2
  rw [← hto]
  rcases sinkCovered_iff.mp (h.covered r' hidx) with ⟨a, ha, heq⟩ | ⟨a, ha, _, _, hle⟩
  . simp only [AuditAnchor.span, AnchorRecord.span, Prod.mk.injEq] at heq
    rw [← heq.2.2]
    exact hstored a ha
  . exact le_trans hle (hstored a ha)

end Accepted

def Reported (C : Crypto) (db' : DB) (sink : List AnchorRecord) (keys : KeyRegistry) (c : Chain)
    (fromSeq : Int64) : Prop :=
  ∀ res, verifyAnchorsWithSinkFrom C db' (some sink) keys c fromSeq = some res → res.ok = false

theorem reported_of_not_sinkOk {db' : DB} {sink : List AnchorRecord}
    (h : ¬SinkOk C db' sink keys c fromSeq) : Reported C db' sink keys c fromSeq := by
  intro res hres
  by_contra hok
  rw [Bool.not_eq_false] at hok
  exact h (verifyAnchorsWithSinkFrom_eq_ok_iff.mp ⟨hres, hok⟩).1

section Tampered

variable {db db' : DB} {sink : List AnchorRecord} (h : SinkOk C db sink keys c fromSeq)
include h

theorem SinkOk.exists_wider {a : AuditAnchor} (ha : a ∈ db.chainAnchors c) (h' : SinkOk C db' sink keys c fromSeq) :
    ∃ b ∈ db'.chainAnchors c, b.fromSeq = a.fromSeq ∧ a.toSeq ≤ b.toSeq := by
  rcases h.exists_record ha with ⟨r, hr, hspan, _⟩
  simp only [AnchorRecord.span, AuditAnchor.span, Prod.mk.injEq] at hspan
  rcases sinkCovered_iff.mp (h'.covered r hr) with ⟨b, hb, heq⟩ | ⟨b, hb, hfrom, _, hle⟩
  . simp only [AnchorRecord.span, AuditAnchor.span, Prod.mk.injEq] at heq
    exact ⟨b, hb, heq.2.1.trans hspan.2.1, by rw [heq.2.2, hspan.2.2]⟩
  . exact ⟨b, hb, hfrom.trans hspan.2.1, by rw [← hspan.2.2]; exact hle⟩

theorem SinkOk.exists_result_of_reported (hdb' : ∀ a ∈ db'.chainAnchors c, a ∈ db.chainAnchors c)
    (hreported : Reported C db' sink keys c fromSeq) :
    ∃ res, verifyAnchorsWithSinkFrom C db' (some sink) keys c fromSeq = some res ∧ res.ok = false := by
  have hsome : (verifyAnchorsFrom C db' keys c fromSeq).isSome := by
    apply walkAnchors_isSome
    intro a ha
    rw [mem_anchorsFrom] at ha
    exact h.walk.not_negative _ _ _ _ a (mem_anchorsFrom.mpr ⟨hdb' a ha.1, ha.2⟩)
  rcases Option.isSome_iff_exists.mp hsome with ⟨walked, hwalked⟩
  cases hres : verifyAnchorsWithSinkFrom C db' (some sink) keys c fromSeq with
  | some res => exact ⟨res, rfl, hreported res hres⟩
  | none =>
    unfold verifyAnchorsWithSinkFrom at hres
    rw [hwalked] at hres
    dsimp only at hres
    split at hres <;> contradiction

theorem SinkOk.reported_of_deleted_suffix {kept removed : List AuditAnchor}
    (hsplit : anchorsFrom db c (clampSeq fromSeq) = kept ++ removed) (hne : removed ≠ [])
    (hdb' : ∀ a ∈ db'.chainAnchors c, a ∈ db.chainAnchors c ∧ a ∉ removed) : Reported C db' sink keys c fromSeq := by
  apply reported_of_not_sinkOk
  intro h'
  rcases exists_mem_of_ne_nil removed hne with ⟨a, haremoved⟩
  have ha : a ∈ anchorsFrom db c (clampSeq fromSeq) := by
    rw [hsplit]
    exact mem_append_right _ haremoved
  rcases h.exists_wider (mem_anchorsFrom.mp ha).1 h' with ⟨b, hb, hfrom, hle⟩
  rcases hdb' b hb with ⟨hbdb, hbremoved⟩
  have hbkept : b ∈ kept := by
    have : b ∈ anchorsFrom db c (clampSeq fromSeq) :=
      mem_anchorsFrom.mpr ⟨hbdb, le_trans (mem_anchorsFrom.mp ha).2 hle⟩
    rw [hsplit] at this
    exact (mem_append.mp this).resolve_right hbremoved
  -- `b` comes before `a`, so it ends before `a` starts, and both have the same (empty) span.
  have hordered := h.ordered
  have hlt : b.toSeq < a.fromSeq := by
    have hpair := hordered.1
    rw [hsplit] at hpair
    exact (pairwise_append.mp hpair).2.2 b hbkept a haremoved
  have hrange := (hordered.2.1 a ha).1
  have hto : b.toSeq = a.toSeq := by
    have hlt' := lt_iff_toInt_lt.mp hlt
    have hle' := le_iff_toInt_le.mp hle
    apply toInt_inj.mp
    omega
  rcases mem_chainAnchors.mp hbdb with ⟨hbrow, hbchain⟩
  rcases mem_chainAnchors.mp (mem_anchorsFrom.mp ha).1 with ⟨harow, hachain⟩
  have heq : b = a := db.anchors.eq_of_key_eq hbrow harow (span_eq hbchain hachain hfrom hto)
  exact hbremoved (by rw [heq]; exact haremoved)

theorem SinkOk.reported_of_rewritten {a a' : AuditAnchor} (ha : a ∈ db.chainAnchors c) (ha' : a' ∈ db'.chainAnchors c)
    (hspan : a'.span = a.span) (hdiff : a'.merkleRoot ≠ a.merkleRoot ∨ a'.signature ≠ a.signature) :
    Reported C db' sink keys c fromSeq := by
  apply reported_of_not_sinkOk
  intro h'
  rcases sinkMatches_iff.mp (h.matched a ha) with ⟨r, hlast, hroot, hsig⟩
  rcases sinkMatches_iff.mp (h'.matched a' ha') with ⟨r', hlast', hroot', hsig'⟩
  rw [hspan, hlast] at hlast'
  cases hlast'
  rcases hdiff with hdiff | hdiff
  . exact hdiff (hroot'.symm.trans hroot)
  . exact hdiff (hsig'.symm.trans hsig)

theorem SinkOk.reported_of_moved {a a' : AuditAnchor} (ha : a ∈ anchorsFrom db c (clampSeq fromSeq))
    (hrange : a.fromSeq ≤ a.toSeq) (hspan : a'.span ≠ a.span)
    (hdb' : ∀ b ∈ db'.chainAnchors c, b = a' ∨ b ∈ db.chainAnchors c ∧ b ≠ a) :
    Reported C db' sink keys c fromSeq := by
  apply reported_of_not_sinkOk
  intro h'
  have hamem := (mem_anchorsFrom.mp ha).1
  rcases h.exists_wider hamem h' with ⟨b, hb, hfrom, hle⟩
  rcases hdb' b hb with rfl | ⟨hbdb, hba⟩
  . -- The new row agrees with a record, which the old rows had to cover as well.
    rcases h'.exists_record hb with ⟨r, hr, hrspan, _⟩
    simp only [AnchorRecord.span, AuditAnchor.span, Prod.mk.injEq] at hrspan
    have hwide : ∃ d ∈ db.chainAnchors c, d.fromSeq = a.fromSeq ∧ b.toSeq ≤ d.toSeq := by
      rcases sinkCovered_iff.mp (h.covered r hr) with ⟨d, hd, heq⟩ | ⟨d, hd, hdfrom, _, hdle⟩
      . simp only [AnchorRecord.span, AuditAnchor.span, Prod.mk.injEq] at heq
        exact ⟨d, hd, (heq.2.1.trans hrspan.2.1).trans hfrom, by rw [heq.2.2, hrspan.2.2]⟩
      . exact ⟨d, hd, (hdfrom.trans hrspan.2.1).trans hfrom, by rw [← hrspan.2.2]; exact hdle⟩
    rcases hwide with ⟨d, hd, hdfrom, hdle⟩
    have hda : d = a := h.eq_of_wider ha hrange hd hdfrom (le_trans hle hdle)
    rw [hda] at hdle
    exact hspan (span_eq (mem_chainAnchors.mp hb).2 (mem_chainAnchors.mp hamem).2 hfrom
      (le_antisymm hdle hle))
  . exact hba (h.eq_of_wider ha hrange hbdb hfrom hle)

end Tampered

theorem verifyAnchorsWithSinkFrom_complete (C : Crypto) (keys : KeyRegistry) (c : Chain)
    (fromSeq : Int64) (db : DB) (sink : List AnchorRecord) (res : AnchorVerifyResult)
    (hres : verifyAnchorsWithSinkFrom C db (some sink) keys c fromSeq = some res)
    (hok : res.ok = true) :
    (∀ a ∈ db.chainAnchors c,
        ∃ r ∈ sink, r.span = a.span ∧ r.merkleRoot = a.merkleRoot ∧ r.signature = a.signature)
      ∧ (∀ r ∈ sink, r.chain = c → r.toSeq ≤ res.anchoredThrough)
      ∧ (∀ (db' : DB) (kept removed : List AuditAnchor),
          anchorsFrom db c (clampSeq fromSeq) = kept ++ removed → removed ≠ [] →
          (∀ a ∈ db'.chainAnchors c, a ∈ db.chainAnchors c ∧ a ∉ removed) →
          ∃ res', verifyAnchorsWithSinkFrom C db' (some sink) keys c fromSeq = some res'
            ∧ res'.ok = false)
      ∧ (∀ db' : DB, db.chainAnchors c ≠ [] → db'.chainAnchors c = [] →
          ∃ res', verifyAnchorsWithSinkFrom C db' (some sink) keys c fromSeq = some res'
            ∧ res'.ok = false)
      ∧ (∀ (db' : DB), ∀ a ∈ db.chainAnchors c, ∀ a' ∈ db'.chainAnchors c, a'.span = a.span →
          a'.merkleRoot ≠ a.merkleRoot ∨ a'.signature ≠ a.signature →
          Reported C db' sink keys c fromSeq)
      ∧ (∀ (db' : DB), ∀ a ∈ anchorsFrom db c (clampSeq fromSeq), a.fromSeq ≤ a.toSeq →
          ∀ a' : AuditAnchor, a'.span ≠ a.span →
          (∀ b ∈ db'.chainAnchors c, b = a' ∨ b ∈ db.chainAnchors c ∧ b ≠ a) →
          Reported C db' sink keys c fromSeq) := by
  rcases verifyAnchorsWithSinkFrom_eq_ok_iff.mp ⟨hres, hok⟩ with ⟨h, rfl⟩
  refine ⟨?_, ?_, ?_, ?_, ?_, ?_⟩
  . intro a ha
    rcases h.exists_record ha with ⟨r, hr, hagree⟩
    have hmem := (of_lastRecord?_eq_some (mem_sinkIndex_iff.mp hr)).1
    exact ⟨r, (mem_filter.mp hmem).1, hagree⟩
  . intro r hr hchain
    exact h.toSeq_le hr hchain
  . intro db' kept removed hsplit hne hdb'
    exact h.exists_result_of_reported (fun a ha => (hdb' a ha).1)
      (h.reported_of_deleted_suffix hsplit hne hdb')
  . intro db' hne hdb'
    apply h.exists_result_of_reported (by simp [hdb'])
    apply reported_of_not_sinkOk
    intro h'
    rcases exists_mem_of_ne_nil _ hne with ⟨a, ha⟩
    rcases h.exists_wider ha h' with ⟨b, hb, _⟩
    rw [hdb'] at hb
    contradiction
  . intro db' a ha a' ha' hspan hdiff
    exact h.reported_of_rewritten ha ha' hspan hdiff
  . intro db' a ha hrange a' hspan hdb'
    exact h.reported_of_moved ha hrange hspan hdb'

/-!
A ledger of two entries whose anchors were signed in the old format, with an anchor over no entry
between the other two.
-/

namespace EmptyRange

set_option maxRecDepth 4000

def crypto : Crypto := digestCrypto (fun _ => true)

def signer : PrivateKey := [7]

def registry : KeyRegistry := newKeyRegistry crypto [crypto.ed25519Public signer]

def chain : Chain := (1, .data)

def entry (seq : Int64) : AuditEntry where
  tenantID := chain.1
  chainClass := chain.2
  seq := seq
  prevHash := genesisPrevHash
  entryHash := digest (Bytes.be8 seq)
  keyID := []
  payload := []

def anchor (fromSeq toSeq : Int64) (root : Bytes) : AuditAnchor where
  tenantID := chain.1
  chainClass := chain.2
  fromSeq := fromSeq
  toSeq := toSeq
  merkleRoot := root
  signature := crypto.ed25519Sign signer (anchorSigMessage chain.1 chain.2.bytes fromSeq toSeq root)
  keyID := keyIDForPublic crypto (crypto.ed25519Public signer)
  version := anchorV1
  prevAnchorHash := []
  externalURI := []
  createdAt := 0

def first : AuditAnchor := anchor 1 1 (entry 1).entryHash
def second : AuditAnchor := anchor 2 2 (entry 2).entryHash
def empty : AuditAnchor := anchor 2 1 []
def moved : AuditAnchor := anchor 2 0 []

def sink : List AnchorRecord :=
  [first, moved, empty, second].map (fun a => a.record 0)

def db (a : AuditAnchor) (h : ([first, a, second].map AuditAnchor.span).Nodup) : DB :=
  { DB.empty with
    entries := ⟨[entry 1, entry 2], by decide⟩
    anchors := ⟨[first, a, second], h⟩ }

def before : DB := db empty (by decide)
def after : DB := db moved (by decide)

theorem rewrite_unnoticed :
    (verifyAnchorsWithSinkFrom crypto before (some sink) registry chain 1).map (fun res => res.ok) = some true
      ∧ (verifyAnchorsWithSinkFrom crypto after (some sink) registry chain 1).map (fun res => res.ok) = some true
      ∧ empty ∈ anchorsFrom before chain 1
      ∧ (∃ r ∈ sink, r.span = empty.span ∧ r.merkleRoot = empty.merkleRoot ∧ r.signature = empty.signature)
      ∧ moved.span ≠ empty.span
      ∧ after.chainAnchors chain
          = (before.chainAnchors chain).map (fun b => if b = empty then moved else b) := by
  decide

theorem deletion_reported :
    ∃ res, verifyAnchorsWithSinkFrom crypto
        { before with anchors := ⟨[first, empty], by decide⟩ } (some sink) registry chain 1 = some res
      ∧ res.ok = false := by
  apply (verifyAnchorsWithSinkFrom_complete crypto registry chain 1 before sink (.success 2)
    (by decide) rfl).2.2.1 _ [first, empty] [second]
  . decide
  . simp
  . decide

end EmptyRange

end Mxid.Audit
