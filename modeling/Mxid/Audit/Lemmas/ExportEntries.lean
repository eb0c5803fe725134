import Mxid.Audit.Lemmas.Export

namespace Mxid.Audit

open List Int64 AuditEntry

section Kept

variable {J : Type} (cfg : Config J) (withSink : Bool) (acts : List Action)

def Kept (e : AuditEntry) : Prop :=
  ∃ s₀, Run.Visits (step cfg) (fun _ _ => True) (.init withSink) acts s₀ ∧ e ∈ s₀.db.entries.rows

def keptNodes : Set Bytes :=
  { x | ∃ (c : Chain) (fromSeq toSeq : Int64) (es : List AuditEntry), es.Pairwise (fun e e' => e.seq < e'.seq)
      ∧ (∀ e, e ∈ es ↔ Kept cfg withSink acts e ∧ e.chain = c ∧ fromSeq ≤ e.seq ∧ e.seq ≤ toSeq)
      ∧ ∃ p ∈ Merkle.hashed (merkleNode cfg.crypto) es.length (es.map entryHash), x = p.1 ++ p.2 }

variable {cfg withSink acts} {s : State}

theorem kept_snoc {a : Action} (run : Run (step cfg) (fun _ _ => True) (.init withSink) (acts ++ [a]) s)
    {e : AuditEntry} : Kept cfg withSink (acts ++ [a]) e ↔ Kept cfg withSink acts e ∨ e ∈ s.db.entries.rows := by
  unfold Kept
  simp only [Run.visits_snoc]
  constructor
  . rintro ⟨s0, hvisits | run0, he⟩
    . exact .inl ⟨s0, hvisits, he⟩
    . rw [run0.unique run] at he
      exact .inr he
  . rintro (⟨s0, hvisits, he⟩ | he)
    . exact ⟨s0, .inl hvisits, he⟩
    . exact ⟨s, .inr run, he⟩

theorem exists_honest_kept (run : Run (step cfg) (fun _ _ => True) (.init withSink) acts s) :
    ∃ g, Honest cfg s g ∧ ∀ e, Kept cfg withSink acts e ↔ e ∈ g.entries e.chain := by
  induction run with
  | nil =>
    refine ⟨.init, honest_init cfg withSink, ?_⟩
    intro e
    simp [Kept, Run.visits_nil, State.init, DB.empty, Histories.init]
  | @snoc acts s s' a run hallowed hstep ih =>
    rcases ih with ⟨g, h, hkept⟩
    rcases h.step hstep with ⟨g', h', hgrows⟩
    refine ⟨g', h', ?_⟩
    intro e
    have hrows : e ∈ s'.db.entries.rows ↔ e ∈ (g'.entries e.chain).drop (stopOf 0 (g'.cut e.chain)) := by
      rw [← (h'.chains e.chain).entries.mem_iff, mem_chainEntries]
      simp
    rw [kept_snoc (run.snoc hallowed hstep), hkept, hrows]
    rcases hgrows.entries e.chain with ⟨added, hadded⟩
    rw [← hadded, drop_append_of_le_length (hgrows.floor_le e.chain), mem_append, mem_append]
    constructor
    . rintro (he | he | he)
      . exact .inl he
      . exact .inl (mem_of_mem_drop he)
      . exact .inr he
    . rintro (he | he)
      . exact .inl he
      . exact .inr (.inr he)

end Kept

section Leaves

variable {b : ExportBundle}

theorem ExportBundle.bySeq_eq_some {seq : Int64} {e : ExportEntry} (h : b.bySeq seq = some e) :
    e ∈ b.entries ∧ e.seq = seq := by
  unfold bySeq at h
  exact ⟨mem_reverse.mp (mem_of_find?_eq_some h), by simpa using List.find?_some h⟩

theorem ExportBundle.collectLeaves_eq_some {m : Nat} (hm : m + 1 < 2 ^ 63) {fuel k : Nat} (hk : k ≤ m)
    {acc leaves : List Bytes} (h : b.collectLeaves (ofNat m) fuel (ofNat (k + 1)) acc = some (some leaves)) :
    ∃ es : List ExportEntry, leaves = acc ++ es.map ExportEntry.entryHash
      ∧ es.map (fun e => some e) = (List.range' (k + 1) (m - k)).map (fun i => b.bySeq (ofNat i)) := by
  induction fuel generalizing k acc with
  | zero =>
    unfold collectLeaves at h
    split at h
    . cases h
    next hle =>
    cases h
    rw [ofNat_le_ofNat_iff (by omega) (by omega)] at hle
    refine ⟨[], by simp, ?_⟩
    rw [show m - k = 0 by omega]
    rfl
  | succ fuel ih =>
    unfold collectLeaves at h
    split at h
    . next hle =>
      rw [ofNat_le_ofNat_iff (by omega) (by omega)] at hle
      split at h
      . cases h
      next e he =>
      rw [ofNat_add_one] at h
      rcases ih (by omega) h with ⟨es, hleaves, hes⟩
      refine ⟨e :: es, by rw [hleaves]; simp, ?_⟩
      rw [show m - k = (m - (k + 1)) + 1 by omega, List.range'_succ, map_cons, map_cons, hes, he]
    . next hle =>
      cases h
      rw [ofNat_le_ofNat_iff (by omega) (by omega)] at hle
      refine ⟨[], by simp, ?_⟩
      rw [show m - k = 0 by omega]
      rfl

theorem ExportBundle.Accepted.exists_covering {C : Crypto} {trusted : KeyRegistry} {as : List ExportAnchor}
    {fromSeq : Int64} (h : Accepted C b trusted fromSeq as) {last : ExportAnchor} (hlast : as.getLast? = some last)
    {seq : Int64} (hfrom : fromSeq ≤ seq) (hto : seq ≤ last.toSeq) : ∃ a ∈ as, a.fromSeq ≤ seq ∧ seq ≤ a.toSeq := by
  induction as generalizing fromSeq with
  | nil => cases hlast
  | cons a as ih =>
    by_cases hseq : seq ≤ a.toSeq
    . refine ⟨a, mem_cons_self, ?_, hseq⟩
      rw [h.1.fromSeq_eq]
      exact hfrom
    have hlt : a.toSeq < seq := not_le.mp hseq
    have hnext : a.toSeq + 1 ≤ seq := by
      rw [le_iff_toInt_le, toInt_add_one hlt]
      rw [lt_iff_toInt_lt] at hlt
      omega
    cases as with
    | nil =>
      cases hlast
      contradiction
    | cons =>
      rcases ih h.2 hlast hnext with ⟨a'', ha'', hcovers⟩
      exact ⟨a'', mem_cons_of_mem _ ha'', hcovers⟩

def ExportBundle.nodes (C : Crypto) (b : ExportBundle) : Set Bytes :=
  { x | ∃ a ∈ b.anchors, ∃ leaves, b.leaves a = some (some leaves)
      ∧ ∃ p ∈ Merkle.hashed (merkleNode C) leaves.length leaves, x = p.1 ++ p.2 }

/--
Every entry of the bundle is in the range of its anchors and has a hash of 32 bytes, and entries with the
same number have the same hash.
-/
structure ExportBundle.Tidy (b : ExportBundle) : Prop where
  fromSeq_le : ∀ e ∈ b.entries, b.fromSeq ≤ e.seq
  le_toSeq : ∀ e ∈ b.entries, ∀ a, b.anchors.getLast? = some a → e.seq ≤ a.toSeq
  length_eq : ∀ e ∈ b.entries, e.entryHash.length = 32
  hash_eq : ∀ e ∈ b.entries, ∀ e' ∈ b.entries, e.seq = e'.seq → e.entryHash = e'.entryHash

end Leaves

section Evidence

variable {J : Type}

structure ExportEvidence (cfg : Config J) (trusted : KeyRegistry) (withSink : Bool) (acts : List Action)
    (s : State) (g : Histories) (b : ExportBundle) : Prop where
  honest : Honest cfg s g
  kept : ∀ e, Kept cfg withSink acts e ↔ e ∈ g.entries e.chain
  hmac_length : ∀ msg, (cfg.crypto.hmacSHA256 cfg.chainer.key msg).length = 32
  sha_length : ∀ msg, (cfg.crypto.sha256 msg).length = 32
  sha_inj : Set.InjOn cfg.crypto.sha256 (keptNodes cfg withSink acts ∪ b.nodes cfg.crypto)
  unforgeable : ∀ keyID pub msg sig, trusted.keyFor keyID = some pub →
    cfg.crypto.ed25519Verify pub msg sig = true → msg ∈ s.signed

variable {cfg : Config J} {trusted : KeyRegistry} {withSink : Bool} {acts : List Action} {s : State}
  {g : Histories} {b : ExportBundle}

section

variable (h : ExportEvidence cfg trusted withSink acts s g b)

include h

theorem ExportEvidence.mem_entries_iff {c : Chain}
    {e : AuditEntry} : e ∈ g.entries c ↔ Kept cfg withSink acts e ∧ e.chain = c := by
  rw [h.kept]
  constructor
  . intro he
    have hchain := (h.honest.chains c).mem_chain e he
    rw [hchain]
    exact ⟨he, rfl⟩
  . rintro ⟨he, rfl⟩
    exact he

theorem ExportEvidence.range_subset {c : Chain} (n m : Nat) (hm : m ≤ (g.entries c).length) (hnm : n < m) :
    ∀ p ∈ Merkle.hashed (merkleNode cfg.crypto)
        ((((g.entries c).take m).drop n).map entryHash).length
        ((((g.entries c).take m).drop n).map entryHash),
      p.1 ++ p.2 ∈ keptNodes cfg withSink acts := by
  intro p hp
  have hok := h.honest.chains c
  have hlt := hok.length_lt
  rw [length_map] at hp
  refine ⟨c, ofNat (n + 1), ofNat m, _, ?_, ?_, p, hp, rfl⟩
  . exact ((hok.linked.pairwise_seq (by omega)).take).drop
  have hrange : (g.entries c).filter (fun e => ofNat (n + 1) ≤ e.seq ∧ e.seq ≤ ofNat m)
      = ((g.entries c).take m).drop n := by
    apply filter_eq_drop_take
    intro i hi
    apply decide_eq_decide.mpr
    rw [le_iff_toInt_le, le_iff_toInt_le, hok.linked.toInt_seq_getElem (by omega) i hi,
      toInt_ofNat_of_lt (by omega), toInt_ofNat_of_lt (by omega)]
    omega
  intro e
  rw [← hrange, mem_filter, h.mem_entries_iff, decide_eq_true_eq, and_assoc]

theorem ExportEvidence.leaves_eq (hlength : ∀ e ∈ b.entries, e.entryHash.length = 32) {a : ExportAnchor}
    (ha : a ∈ b.anchors) {fromSeq : Int64} (haccepted : ExportBundle.AnchorAccepted cfg.crypto b trusted fromSeq a) :
    ∃ (c : Chain) (n m : Nat) (es : List ExportEntry), n < m ∧ m ≤ (g.entries c).length
      ∧ a.tenantID = c.1 ∧ a.chainClass = c.2.bytes
      ∧ a.fromSeq = ofNat (n + 1) ∧ a.toSeq = ofNat m
      ∧ es.map (fun e => some e) = (List.range' (n + 1) (m - n)).map (fun i => b.bySeq (ofNat i))
      ∧ es.map ExportEntry.entryHash = (((g.entries c).take m).drop n).map entryHash := by
  rcases haccepted.signed with ⟨pub, msg, hpub, hmsg, hverify⟩
  have hsigned := h.unforgeable _ _ _ _ hpub hverify
  rw [h.honest.signedMessage?_eq hmsg hsigned] at hsigned
  rcases h.honest.signed_fields h.hmac_length h.sha_length (h.honest.signed _ hsigned)
    with ⟨c, n, m, hnm, hm, ht, hcls, hfrom, hto, hroot⟩
  have hlt := (h.honest.chains c).length_lt
  rcases haccepted.root with ⟨leaves, hleaves, hroot'⟩
  have hcollect := hleaves
  unfold ExportBundle.leaves at hcollect
  rw [hfrom, hto] at hcollect
  rcases ExportBundle.collectLeaves_eq_some (by omega) (by omega) hcollect with ⟨es, heq, hes⟩
  rw [nil_append] at heq
  refine ⟨c, n, m, es, hnm, hm, ht, hcls, hfrom, hto, hes, ?_⟩
  have hlen : es.length = m - n := by
    have := congrArg List.length hes
    simpa using this
  rw [← heq]
  apply merkleRoot_inj h.sha_length h.sha_inj
  . intro l hl
    rw [heq] at hl
    rcases mem_map.mp hl with ⟨e, he, rfl⟩
    have hsome : some e ∈ es.map (fun e => some e) := mem_map.mpr ⟨e, he, rfl⟩
    rw [hes] at hsome
    rcases mem_map.mp hsome with ⟨i, _, hi⟩
    exact hlength e (ExportBundle.bySeq_eq_some hi).1
  . exact h.honest.leaves_length h.hmac_length c n m
  . intro p hp
    exact .inr ⟨a, ha, leaves, hleaves, p, hp, rfl⟩
  . intro p hp
    exact .inl (h.range_subset n m hm hnm p hp)
  . rw [heq, length_map, length_map, length_drop, length_take_of_le hm, hlen]
  . rw [hroot', hroot]

end

def ExportBundle.Proves (cfg : Config J) (withSink : Bool) (acts : List Action) (b : ExportBundle)
    (e : ExportEntry) : Prop :=
  ∃ e₀, Kept cfg withSink acts e₀ ∧ e₀.tenantID = b.tenantID ∧ e₀.chainClass.bytes = b.chainClass
    ∧ e₀.seq = e.seq ∧ e₀.entryHash = e.entryHash

theorem ExportEvidence.proves (h : ExportEvidence cfg trusted withSink acts s g b) (htidy : b.Tidy) {a : ExportAnchor}
    (ha : a ∈ b.anchors) (hnamed : a.tenantID = b.tenantID ∧ a.chainClass = b.chainClass) {fromSeq : Int64}
    (haccepted : ExportBundle.AnchorAccepted cfg.crypto b trusted fromSeq a) {e : ExportEntry} (he : e ∈ b.entries)
    (hfrom : a.fromSeq ≤ e.seq) (hto : e.seq ≤ a.toSeq) : b.Proves cfg withSink acts e := by
  rcases h.leaves_eq htidy.length_eq ha haccepted
    with ⟨c, n, m, es, hnm, hm, ht, hcls, hfrom', hto', hes, hhashes⟩
  have hok := h.honest.chains c
  have hlt := hok.length_lt
  rw [hfrom', le_iff_toInt_le, toInt_ofNat_of_lt (by omega)] at hfrom
  rw [hto', le_iff_toInt_le, toInt_ofNat_of_lt (by omega)] at hto
  -- The entry is the one at position n + i of the history.
  obtain ⟨i, hi, hseq⟩ : ∃ i, n + i < m ∧ e.seq = ofNat (n + 1 + i) := by
    refine ⟨e.seq.toInt.toNat - (n + 1), by omega, ?_⟩
    apply toInt_inj.mp
    rw [toInt_ofNat_of_lt (by omega)]
    omega
  have hlen : es.length = m - n := by
    have := congrArg List.length hes
    simpa using this
  have hlookup : b.bySeq (ofNat (n + 1 + i)) = some es[i] := by
    have hget := congrArg (fun l => l[i]?) hes
    simp only [List.getElem?_map, List.getElem?_range' (by omega : i < m - n),
      List.getElem?_eq_getElem (by omega : i < es.length), Option.map_some, Option.some.injEq] at hget
    rw [Nat.one_mul] at hget
    exact hget.symm
  have hhash : es[i].entryHash = (g.entries c)[n + i].entryHash := by
    have hget := congrArg (fun l => l[i]?) hhashes
    simp only [List.getElem?_map, List.getElem?_drop, List.getElem?_take, hi, if_true,
      List.getElem?_eq_getElem (by omega : i < es.length),
      List.getElem?_eq_getElem (by omega : n + i < (g.entries c).length), Option.map_some,
      Option.some.injEq] at hget
    exact hget
  rcases ExportBundle.bySeq_eq_some hlookup with ⟨hmem, hseq'⟩
  have hkept := h.mem_entries_iff.mp (getElem_mem (by omega : n + i < (g.entries c).length))
  refine ⟨_, hkept.1, ?_, ?_, ?_, ?_⟩
  . rw [← hnamed.1, ht]
    exact congrArg Prod.fst hkept.2
  . rw [← hnamed.2, hcls]
    exact congrArg (fun c : Chain => c.2.bytes) hkept.2
  . rw [hseq]
    apply toInt_inj.mp
    rw [hok.linked.toInt_seq_getElem (by omega) _ (by omega), toInt_ofNat_of_lt (by omega)]
    omega
  . rw [← hhash]
    exact htidy.hash_eq _ hmem _ he (hseq'.trans hseq.symm)

end Evidence

/--
The entries of a bundle that verifies are in the range that is proven, with the hashes of the ledger, if and only if
the bundle is tidy.
-/
theorem export_entries_proven_iff {J : Type} (cfg : Config J) (B : Base64) (trusted : KeyRegistry)
    (withSink : Bool) (acts : List Action) (s : State)
    (run : Run (step cfg) (fun _ _ => True) (.init withSink) acts s)
    (b : ExportBundle) (res : AnchorVerifyResult)
    (hmac_length : ∀ msg, (cfg.crypto.hmacSHA256 cfg.chainer.key msg).length = 32)
    (sha_length : ∀ msg, (cfg.crypto.sha256 msg).length = 32)
    (sha_inj : Set.InjOn cfg.crypto.sha256 (keptNodes cfg withSink acts ∪ b.nodes cfg.crypto))
    (unforgeable : ∀ keyID pub msg sig, trusted.keyFor keyID = some pub →
      cfg.crypto.ed25519Verify pub msg sig = true → msg ∈ s.signed)
    (hres : b.verifyExport B cfg.crypto trusted = some res) (hok : res.ok = true)
    (hnamed : ∀ a ∈ b.anchors, a.tenantID = b.tenantID ∧ a.chainClass = b.chainClass) :
    (∀ e ∈ b.entries, b.fromSeq ≤ e.seq ∧ e.seq ≤ res.anchoredThrough ∧ b.Proves cfg withSink acts e)
      ↔
    b.Tidy := by
  rcases exists_honest_kept run with ⟨g, hhonest, hkept⟩
  have h : ExportEvidence cfg trusted withSink acts s g b :=
    { honest := hhonest, kept := hkept, hmac_length, sha_length, sha_inj, unforgeable }
  rcases ExportBundle.verifyExport_ok hres hok with ⟨haccepted, last, hlast, hthrough⟩
  constructor
  . intro hproven
    constructor
    . intro e he
      exact (hproven e he).1
    . intro e he a ha
      rw [hlast] at ha
      cases ha
      rw [← hthrough]
      exact (hproven e he).2.1
    . intro e he
      rcases (hproven e he).2.2 with ⟨e0, hkept0, _, _, _, hhash⟩
      rw [h.kept] at hkept0
      rw [← hhash]
      exact ((hhonest.chains e0.chain).linked.prevHash_length length_genesisPrevHash hmac_length e0 hkept0).2.1
    . intro e he e' he' hseq
      rcases (hproven e he).2.2 with ⟨e0, hkept0, ht, hcls, hseq0, hhash⟩
      rcases (hproven e' he').2.2 with ⟨e1, hkept1, ht', hcls', hseq1, hhash'⟩
      have hchain : e0.chain = e1.chain :=
        Prod.ext (ht.trans ht'.symm) (ChainClass.bytes_inj (hcls.trans hcls'.symm))
      rw [h.kept] at hkept0 hkept1
      rw [← hchain] at hkept1
      have hok := h.honest.chains e0.chain
      have hnodup : ((g.entries e0.chain).map seq).Nodup :=
        pairwise_map.mpr ((hok.linked.pairwise_seq (by have := hok.length_lt; omega)).imp ne_of_lt)
      rw [← hhash, ← hhash', inj_on_of_nodup_map hnodup hkept0 hkept1 (hseq0.trans (hseq.trans hseq1.symm))]
  . intro htidy e he
    have hfrom := htidy.fromSeq_le e he
    have hto := htidy.le_toSeq e he last hlast
    refine ⟨hfrom, by rw [hthrough]; exact hto, ?_⟩
    rcases haccepted.exists_covering hlast hfrom hto with ⟨a, ha, hcovers⟩
    rcases haccepted.exists_of_mem ha with ⟨_, hanchor⟩
    exact h.proves htidy ha (hnamed a ha) hanchor he hcovers.1 hcovers.2

/-!
The bundle with an entry more behind its range, with a forged entry that the right one replaces, and with
the last byte of one hash moved to the next.
-/

namespace Exported

open Truncated (config registry final)

set_option maxRecDepth 4000

def forged (seq : Int64) : ExportEntry :=
  ⟨seq, [], [], Bytes.ascii "forged"⟩

def outside : ExportBundle :=
  { bundle with entries := bundle.entries ++ [forged 9] }

def replaced : ExportBundle :=
  { bundle with entries := forged 1 :: bundle.entries }

def shifted : ExportBundle :=
  let hashes := bundle.entries.flatMap ExportEntry.entryHash
  { bundle with
    entries := [{ forged 1 with entryHash := hashes.take 31 }, { forged 2 with entryHash := hashes.drop 31 }] }

theorem kept_iff {e : AuditEntry} : Kept config true Truncated.acts e ↔ e ∈ final.db.entries.rows := by
  rcases exists_honest_kept (Truncated.run.free) with ⟨g, h, hkept⟩
  rw [hkept, ← drop_zero (l := g.entries e.chain), ← floor_eq_zero Truncated.run h e.chain,
    ← (h.chains e.chain).entries.mem_iff, mem_chainEntries]
  simp

theorem keptNodes_subset : keptNodes config true Truncated.acts ⊆ { x | x ∈ Truncated.nodes final.db } := by
  rintro x ⟨c, fromSeq, toSeq, es, hsorted, hes, p, hp, rfl⟩
  have hchain : ∀ e ∈ final.db.entries.rows, e.chain = LostCreate.chain := by
    decide
  have hmem : ∀ e ∈ es, e ∈ sortedEntries final.db LostCreate.chain := by
    intro e he
    have hrow := kept_iff.mp ((hes e).mp he).1
    unfold sortedEntries
    rw [Table.mem_orderBy, mem_chainEntries]
    exact ⟨hrow, hchain e hrow⟩
  have hnodup : es.Nodup := hsorted.imp (fun hlt heq => absurd (heq ▸ hlt) (lt_irrefl _))
  have : Std.Antisymm (fun e e' : AuditEntry => e.seq < e'.seq) :=
    ⟨fun _ _ hlt hgt => absurd hlt (lt_asymm hgt)⟩
  have hsublist : es.Sublist (sortedEntries final.db LostCreate.chain) :=
    sublist_of_subperm_of_pairwise (subperm_of_subset hnodup hmem) hsorted
      (pairwise_sortedEntries final.db LostCreate.chain)
  exact mem_flatMap.mpr ⟨es.map entryHash, mem_sublists.mpr (hsublist.map _),
    mem_map.mpr ⟨p, by rw [length_map]; exact hp, rfl⟩⟩

def nodeList (b : ExportBundle) : List Bytes :=
  b.anchors.flatMap (fun a =>
    match b.leaves a with
    | some (some leaves) =>
      (Merkle.hashed (merkleNode config.crypto) leaves.length leaves).map (fun p => p.1 ++ p.2)
    | _ => [])

theorem nodes_subset (b : ExportBundle) : b.nodes config.crypto ⊆ { x | x ∈ nodeList b } := by
  rintro x ⟨a, ha, leaves, hleaves, p, hp, rfl⟩
  refine mem_flatMap.mpr ⟨a, ha, ?_⟩
  rw [hleaves]
  exact mem_map.mpr ⟨p, hp, rfl⟩

theorem sha_inj {b : ExportBundle}
    (hall : ∀ x ∈ Truncated.nodes final.db ++ nodeList b, ∀ x' ∈ Truncated.nodes final.db ++ nodeList b,
      config.crypto.sha256 x = config.crypto.sha256 x' → x = x') :
    Set.InjOn config.crypto.sha256 (keptNodes config true Truncated.acts ∪ b.nodes config.crypto) := by
  have hsub : keptNodes config true Truncated.acts ∪ b.nodes config.crypto
      ⊆ { x | x ∈ Truncated.nodes final.db ++ nodeList b } := by
    rintro x (hx | hx)
    . exact mem_append_left _ (keptNodes_subset hx)
    . exact mem_append_right _ (nodes_subset b hx)
  intro x hx x' hx' heq
  exact hall x (hsub hx) x' (hsub hx') heq

theorem bundle_proven :
    bundle.verifyExport base64 config.crypto registry = some (.success 2) ∧ bundle.entries.length = 2
      ∧ ∀ e ∈ bundle.entries, bundle.fromSeq ≤ e.seq ∧ e.seq ≤ 2 ∧ bundle.Proves config true Truncated.acts e := by
  have hres : bundle.verifyExport base64 config.crypto registry = some (.success 2) := by
    decide
  refine ⟨hres, by decide, ?_⟩
  refine (export_entries_proven_iff config base64 registry true Truncated.acts final run bundle _
    (fun _ => length_digest _) (fun _ => length_digest _) (sha_inj (by decide)) Truncated.unforgeable hres
    rfl (by decide)).mpr ?_
  refine ⟨by decide, ?_, by decide, by decide⟩
  have hlast : ∀ e ∈ bundle.entries, ∀ a ∈ bundle.anchors, e.seq ≤ a.toSeq := by
    decide
  intro e he a ha
  exact hlast e he a (mem_of_getLast? ha)

theorem unproven_accepted :
    Run (step config) (fun _ _ => True) (.init true) Truncated.acts final
      ∧ (∀ keyID pub msg sig, registry.keyFor keyID = some pub →
          config.crypto.ed25519Verify pub msg sig = true → msg ∈ final.signed)
      ∧ ∀ b ∈ [outside, replaced, shifted],
          Set.InjOn config.crypto.sha256 (keptNodes config true Truncated.acts ∪ b.nodes config.crypto)
            ∧ b.verifyExport base64 config.crypto registry = some (.success 2)
            ∧ (∀ a ∈ b.anchors, a.tenantID = b.tenantID ∧ a.chainClass = b.chainClass)
            ∧ ∃ e ∈ b.entries, ¬b.Proves config true Truncated.acts e := by
  refine ⟨run, Truncated.unforgeable, ?_⟩
  have hunproven : ∀ b ∈ [outside, replaced, shifted],
      ∃ e ∈ b.entries, ∀ e0 ∈ final.db.entries.rows, ¬(e0.seq = e.seq ∧ e0.entryHash = e.entryHash) := by
    decide
  have haccepted : ∀ b ∈ [outside, replaced, shifted],
      (b.verifyExport base64 config.crypto registry = some (.success 2)
        ∧ ∀ a ∈ b.anchors, a.tenantID = b.tenantID ∧ a.chainClass = b.chainClass) := by
    decide
  have hinj : ∀ b ∈ [outside, replaced, shifted],
      ∀ x ∈ Truncated.nodes final.db ++ nodeList b, ∀ x' ∈ Truncated.nodes final.db ++ nodeList b,
        config.crypto.sha256 x = config.crypto.sha256 x' → x = x' := by
    decide
  intro b hb
  refine ⟨sha_inj (hinj b hb), (haccepted b hb).1, (haccepted b hb).2, ?_⟩
  rcases hunproven b hb with ⟨e, he, hnone⟩
  refine ⟨e, he, ?_⟩
  rintro ⟨e0, hkept, _, _, hseq, hhash⟩
  exact hnone e0 (kept_iff.mp hkept) ⟨hseq, hhash⟩

end Exported

end Mxid.Audit
