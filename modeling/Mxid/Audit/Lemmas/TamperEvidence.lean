import Mathlib.Data.List.Sublists
import Mxid.Audit.Lemmas.NoFalseAlarm

namespace Mxid.Audit

open List Int64 AuditEntry LostCreate Merkle

def entryPreimages (db : DB) : Set Bytes :=
  { m | ∃ e ∈ db.entries.rows, m = entryPreimage e.seq e.prevHash e.payload }

def nodePreimages (C : Crypto) (db : DB) : Set Bytes :=
  { m | ∃ c fromSeq toSeq,
      ∃ p ∈ hashed (merkleNode C) (leavesBetween db c fromSeq toSeq).length
          (leavesBetween db c fromSeq toSeq), m = p.1 ++ p.2 }

section Merkle

variable {C : Crypto}

theorem merkleRoot_length (hsha : ∀ msg, (C.sha256 msg).length = 32) {leaves : List Bytes}
    (hne : leaves ≠ []) (hleaves : ∀ l ∈ leaves, l.length = 32) : (merkleRoot C leaves).length = 32 := by
  rcases Option.isSome_iff_exists.mp (root_isSome (merkleNode C) hne) with ⟨r, hr⟩
  rw [merkleRoot, hr]
  exact climb_property (merkleNode C) (fun _ _ => hsha _) hleaves hr

theorem merkleRoot_inj (hsha : ∀ msg, (C.sha256 msg).length = 32) {S : Set Bytes} (hinj : Set.InjOn C.sha256 S)
    {l l' : List Bytes} (hl : ∀ x ∈ l, x.length = 32) (hl' : ∀ x ∈ l', x.length = 32)
    (hS : ∀ p ∈ hashed (merkleNode C) l.length l, p.1 ++ p.2 ∈ S)
    (hS' : ∀ p ∈ hashed (merkleNode C) l'.length l', p.1 ++ p.2 ∈ S) (hlen : l.length = l'.length)
    (h : merkleRoot C l = merkleRoot C l') : l = l' := by
  by_cases hne : l = []
  . rw [hne] at hlen ⊢
    exact (length_eq_zero_iff.mp hlen.symm).symm
  have hne' : l' ≠ [] := by
    rintro rfl
    exact hne (length_eq_zero_iff.mp hlen)
  apply root_inj (merkleNode C) hlen
  . intro p hp q hq hpq
    have hp32 := forall_mem_hashed (merkleNode C) (P := fun x => x.length = 32)
      (fun _ _ => hsha _) hl p hp
    have hq32 := forall_mem_hashed (merkleNode C) (P := fun x => x.length = 32)
      (fun _ _ => hsha _) hl' q hq
    have := hinj (hS p hp) (hS' q hq) hpq
    exact Prod.ext_iff.mpr (append_inj this (hp32.1.trans hq32.1.symm))
  . rcases Option.isSome_iff_exists.mp (root_isSome (merkleNode C) hne) with ⟨r, hr⟩
    rcases Option.isSome_iff_exists.mp (root_isSome (merkleNode C) hne') with ⟨r', hr'⟩
    rw [merkleRoot, merkleRoot, hr, hr'] at h
    rw [hr, hr']
    exact congrArg some h

end Merkle

section Chain

variable {C : Crypto} {key : Bytes} {db : DB} {c : Chain}

theorem length_entriesAfter_lt (db : DB) (c : Chain) : (entriesAfter db c 0).length + 1 ≤ 2 ^ 63 := by
  have hnodup : ((entriesAfter db c 0).map seq).Nodup :=
    pairwise_map.mpr ((pairwise_entriesAfter db c 0).imp ne_of_lt)
  have hge : ∀ x ∈ (entriesAfter db c 0).map seq, ((1 : Nat) : Int) ≤ x.toInt := by
    intro x hx
    rcases mem_map.mp hx with ⟨e, he, rfl⟩
    have := lt_iff_toInt_lt.mp (mem_entriesAfter.mp he).2.2
    rw [toInt_zero] at this
    omega
  have := length_add_le_of_nodup hnodup (by decide) hge
  simpa using this

theorem entriesBetween_of_linked (hlinked : Linked C key genesisPrevHash 1 (entriesAfter db c 0))
    {n m : Nat} (hn : n < 2 ^ 63) (hm : m < 2 ^ 63) :
    entriesBetween db c (ofNat n) (ofNat m) = ((entriesAfter db c 0).take m).drop n := by
  have hlen := length_entriesAfter_lt db c
  have hfilter : entriesBetween db c (ofNat n) (ofNat m)
      = (entriesAfter db c 0).filter (fun e => ofNat n < e.seq ∧ e.seq ≤ ofNat m) := by
    rw [entriesBetween_eq, entriesAfter_eq]
    unfold Keyset.after
    rw [filter_filter, filter_filter]
    apply filter_congr
    intro e _
    have h0 : ofNat n < e.seq → 0 < e.seq := by
      intro hlt
      have hnonneg : ofNat 0 ≤ ofNat n := by
        rw [ofNat_le_ofNat_iff (by omega) hn]
        omega
      exact lt_of_le_of_lt hnonneg hlt
    rw [Bool.eq_iff_iff]
    simp only [Bool.and_eq_true, decide_eq_true_eq]
    tauto
  rw [hfilter]
  apply filter_eq_drop_take
  intro i hi
  apply decide_eq_decide.mpr
  rw [lt_iff_toInt_lt, le_iff_toInt_le, hlinked.toInt_seq_getElem (by omega) i hi,
    toInt_ofNat_of_lt hn, toInt_ofNat_of_lt hm]
  omega

end Chain

section Signed

variable {J : Type} {cfg : Config J} {s : State} {g : Histories}

theorem length_genesisPrevHash : genesisPrevHash.length = 32 := by
  decide

theorem Honest.leaves_length (h : Honest cfg s g)
    (hmac_length : ∀ msg, (cfg.crypto.hmacSHA256 cfg.chainer.key msg).length = 32) (c : Chain) (n m : Nat) :
    ∀ l ∈ (((g.entries c).take m).drop n).map entryHash, l.length = 32 := by
  intro l hl
  rcases mem_map.mp hl with ⟨e, he, rfl⟩
  exact ((h.chains c).linked.prevHash_length length_genesisPrevHash hmac_length e
    (mem_of_mem_take (mem_of_mem_drop he))).2.1

theorem not_signedOk_v1 {t f o : Int64} {cls root : Bytes} : ¬SignedOk cfg g (anchorSigMessage t cls f o root) := by
  rintro ⟨c, n, m, prev, _, _, _, heq⟩
  simp only [anchorSigMessage, anchorSigMessageV2, append_assoc] at heq
  rw [Bytes.append_eq_append_iff_of_length (by decide)] at heq
  exact absurd heq.1 (by decide)

theorem Honest.signed_fields (h : Honest cfg s g)
    (hmac_length : ∀ msg, (cfg.crypto.hmacSHA256 cfg.chainer.key msg).length = 32)
    (sha_length : ∀ msg, (cfg.crypto.sha256 msg).length = 32) {t f o : Int64} {cls prev root : Bytes}
    (hsigned : SignedOk cfg g (anchorSigMessageV2 t cls f o prev root)) :
    ∃ c n m, n < m ∧ m ≤ (g.entries c).length ∧ t = c.1 ∧ cls = c.2.bytes ∧ f = ofNat (n + 1)
      ∧ o = ofNat m
      ∧ root = merkleRoot cfg.crypto ((((g.entries c).take m).drop n).map entryHash) := by
  rcases hsigned with ⟨c, n, m, prev', hnm, hm, hprev, heq⟩
  have hprev' : prev'.length ≤ 32 := by
    rcases hprev with rfl | ⟨x, rfl⟩
    . simp
    . rw [sha_length]
  have hroot : (merkleRoot cfg.crypto
      ((((g.entries c).take m).drop n).map entryHash)).length = 32 := by
    apply merkleRoot_length sha_length _ (h.leaves_length hmac_length c n m)
    intro hnil
    have := congrArg List.length hnil
    rw [length_map, length_drop, length_take_of_le hm, length_nil] at this
    omega
  have hclass := c.2.length_le
  -- Both messages are equally long, so no length field has wrapped.
  have hlength := congrArg List.length heq
  simp only [anchorSigMessageV2, length_append, Bytes.length_be8, Bytes.length_be2, hroot] at hlength
  rcases anchorSigMessageV2_inj (by omega) c.2.length_lt (by omega) (by omega) heq
    with ⟨ht, hcls, hfrom, hto, _, hroot'⟩
  exact ⟨c, n, m, hnm, hm, ht, hcls, hfrom, hto, hroot'⟩

end Signed

section Evidence

variable {J : Type}

/--
What is assumed of the primitives: no collisions among the messages that occur, 32-byte hashes, and
signatures only on what the anchorer has signed; and of `db`: it holds an intact chain.
-/
structure Evidence (cfg : Config J) (keys : KeyRegistry) (s : State) (g : Histories) (db : DB) (c : Chain) : Prop where
  honest : Honest cfg s g
  floor : stopOf 0 (g.cut c) = 0
  hmac_length : ∀ msg, (cfg.crypto.hmacSHA256 cfg.chainer.key msg).length = 32
  sha_length : ∀ msg, (cfg.crypto.sha256 msg).length = 32
  hmac_inj : Set.InjOn (cfg.crypto.hmacSHA256 cfg.chainer.key) (entryPreimages s.db ∪ entryPreimages db)
  sha_inj : Set.InjOn cfg.crypto.sha256 (nodePreimages cfg.crypto s.db ∪ nodePreimages cfg.crypto db)
  unforgeable : ∀ keyID pub msg sig, keys.keyFor keyID = some pub →
    cfg.crypto.ed25519Verify pub msg sig = true → msg ∈ s.signed
  linked : Linked cfg.crypto cfg.chainer.key genesisPrevHash 1 (entriesAfter db c 0)

variable {cfg : Config J} {keys : KeyRegistry} {s : State} {g : Histories} {db : DB} {c : Chain}

def Agree (g : Histories) (db : DB) (c : Chain) (n : Nat) : Prop :=
  n ≤ (entriesAfter db c 0).length ∧ n ≤ (g.entries c).length
    ∧ ((entriesAfter db c 0).take n).map entryHash
        = ((g.entries c).take n).map entryHash

section

variable (h : Evidence cfg keys s g db c)

include h

theorem Evidence.leaves_length (n m : Nat) :
    ∀ l ∈ (((entriesAfter db c 0).take m).drop n).map entryHash, l.length = 32 := by
  intro l hl
  rcases mem_map.mp hl with ⟨e, he, rfl⟩
  exact (h.linked.prevHash_length length_genesisPrevHash h.hmac_length e
    (mem_of_mem_take (mem_of_mem_drop he))).2.1

theorem Evidence.signed_range {a : AuditAnchor} (hchain : a.chain = c)
    {pub : PublicKey} (hpub : keys.keyFor a.keyID = some pub) (hsig : verifyAnchorSig cfg.crypto pub a = true) :
    ∃ n m, n < m ∧ m ≤ (g.entries c).length ∧ a.fromSeq = ofNat (n + 1)
      ∧ a.toSeq = ofNat m
      ∧ a.merkleRoot
          = merkleRoot cfg.crypto ((((g.entries c).take m).drop n).map entryHash) := by
  unfold verifyAnchorSig at hsig
  split at hsig
  . contradiction
  next msg hmsg =>
  have hsigned := h.honest.signed msg (h.unforgeable _ _ _ _ hpub hsig)
  unfold anchorSignedMessage? at hmsg
  split at hmsg
  . cases hmsg
    rcases h.honest.signed_fields h.hmac_length h.sha_length hsigned
      with ⟨c', n, m, hnm, hm, ht, hcls, hfrom, hto, hroot⟩
    have hc : c' = c := by
      rw [← hchain]
      exact (Prod.ext ht (ChainClass.bytes_inj hcls)).symm
    subst hc
    exact ⟨n, m, hnm, hm, hfrom, hto, hroot⟩
  . split at hmsg
    . cases hmsg
      exact absurd hsigned not_signedOk_v1
    . contradiction

theorem Evidence.agree_anchor {walk : AnchorWalk} {a : AuditAnchor}
    (hchain : a.chain = c) (ha : AnchorOk cfg.crypto db keys c walk a) {n : Nat}
    (hfrom : walk.expectedFrom = ofNat (n + 1)) (hagree : Agree g db c n) :
    ∃ m, a.toSeq = ofNat m ∧ Agree g db c m := by
  rcases ha.signed with ⟨pub, hpub, hsig⟩
  rcases h.signed_range hchain hpub hsig with ⟨n', m, hnm, hm, hfrom', hto, hroot⟩
  have hok := h.honest.chains c
  have hlt := hok.length_lt
  have hlen := length_entriesAfter_lt db c
  rcases hagree with ⟨hn, hn', hhashes⟩
  have hnn' : n' = n := by
    rw [ha.fromSeq_eq, hfrom] at hfrom'
    have := ofNat_inj_of_lt (by omega) (by omega) hfrom'
    omega
  subst hnn'
  have hleaves : leavesBetween db c a.fromSeq a.toSeq
      = (((entriesAfter db c 0).take m).drop n').map entryHash := by
    unfold leavesBetween
    rw [hfrom', hto, ofNat_add_one_sub_one, entriesBetween_of_linked h.linked (by omega) (by omega)]
  have hhonest : leavesBetween s.db c a.fromSeq a.toSeq
      = (((g.entries c).take m).drop n').map entryHash := by
    unfold leavesBetween
    rw [hfrom', hto, ofNat_add_one_sub_one,
      entriesBetween_eq_take_drop hok.linked (by omega) hok.entries (by rw [h.floor]; omega) hm (by omega)]
  -- The number of leaves is the one the range promises, so no entry is missing.
  have hcomplete : m ≤ (entriesAfter db c 0).length := by
    have hcount := ha.complete
    have hsub : (a.toSeq - a.fromSeq).toInt = (m : Int) - (n' + 1) := by
      rw [toInt_sub_of_bounds] <;> rw [hfrom', hto, toInt_ofNat_of_lt (by omega),
        toInt_ofNat_of_lt (by omega)] <;> omega
    have hadd : (a.toSeq - a.fromSeq + 1).toInt = (m : Int) - n' := by
      rw [toInt_add_of_bounds] <;> rw [hsub, toInt_one] <;> omega
    rw [hleaves, length_map, length_drop, length_take] at hcount
    have hcount' := congrArg toInt hcount
    rw [hadd, toInt_ofNat_of_lt (by omega)] at hcount'
    omega
  have heq : (((entriesAfter db c 0).take m).drop n').map entryHash
      = (((g.entries c).take m).drop n').map entryHash := by
    apply merkleRoot_inj h.sha_length h.sha_inj (h.leaves_length n' m) (h.honest.leaves_length h.hmac_length c n' m)
    . intro p hp
      rw [← hleaves] at hp
      exact Or.inr ⟨c, a.fromSeq, a.toSeq, p, hp, rfl⟩
    . intro p hp
      rw [← hhonest] at hp
      exact Or.inl ⟨c, a.fromSeq, a.toSeq, p, hp, rfl⟩
    . rw [length_map, length_map, length_drop, length_drop, length_take_of_le hcomplete, length_take_of_le hm]
    . rw [← hroot, ← ha.root_eq, hleaves]
  have hsplit : ∀ l : List AuditEntry, (l.take m).map entryHash
      = (l.take n').map entryHash ++ ((l.take m).drop n').map entryHash := by
    intro l
    rw [← map_append]
    have htake : l.take n' = (l.take m).take n' := by
      rw [take_take]
      congr 1
      omega
    rw [htake, take_append_drop]
  refine ⟨m, hto, hcomplete, hm, ?_⟩
  rw [hsplit, hsplit, hhashes, heq]

theorem Evidence.agree_walk {walk : AnchorWalk} {as : List AuditAnchor}
    (hchain : ∀ a ∈ as, a.chain = c) (hwalk : WalkOk cfg.crypto db keys c walk as) {n : Nat}
    (hfrom : walk.expectedFrom = ofNat (n + 1)) (hthrough : walk.through = ofNat n)
    (hagree : Agree g db c n) : ∃ m, (walkEnd cfg.crypto walk as).through = ofNat m ∧ Agree g db c m := by
  induction as generalizing walk n with
  | nil => exact ⟨n, hthrough, hagree⟩
  | cons a as ih =>
    rcases h.agree_anchor (hchain a (by simp)) hwalk.1 hfrom hagree with ⟨m, hto, hagree'⟩
    apply ih (fun b hb => hchain b (by simp [hb])) hwalk.2 _ hto hagree'
    rw [AnchorWalk.behind, hto, ofNat_add_one]

theorem Evidence.eq_of_agree {m i : Nat} (hagree : Agree g db c m) (hi : i < m) :
    ∃ e e0, db.entries.find? (c, ofNat (i + 1)) = some e
      ∧ s.db.entries.find? (c, ofNat (i + 1)) = some e0
      ∧ e.prevHash = e0.prevHash ∧ e.entryHash = e0.entryHash ∧ e.payload = e0.payload := by
  rcases hagree with ⟨hm, hm', hhashes⟩
  have hok := h.honest.chains c
  have hlt := hok.length_lt
  have hlen := length_entriesAfter_lt db c
  have hmem : (entriesAfter db c 0)[i] ∈ entriesAfter db c 0 := getElem_mem _
  have hmem0 : (g.entries c)[i] ∈ g.entries c := getElem_mem _
  have hdb := mem_entriesAfter.mp hmem
  have hdb0 : (g.entries c)[i] ∈ s.db.entries.rows := by
    have hperm := hok.entries
    rw [h.floor, drop_zero] at hperm
    exact (mem_chainEntries.mp (hperm.mem_iff.mpr hmem0)).1
  have hseq : ((entriesAfter db c 0)[i]).seq = ofNat (i + 1) := by
    apply toInt_inj.mp
    rw [h.linked.toInt_seq_getElem (by omega) i (by omega), toInt_ofNat_of_lt (by omega)]
    rfl
  have hseq0 : ((g.entries c)[i]).seq = ofNat (i + 1) := by
    apply toInt_inj.mp
    rw [hok.linked.toInt_seq_getElem (by omega) i (by omega), toInt_ofNat_of_lt (by omega)]
    rfl
  have hhash : (entriesAfter db c 0)[i].entryHash = (g.entries c)[i].entryHash := by
    have hget := congrArg (fun l => l[i]?) hhashes
    simp only [List.getElem?_map, List.getElem?_take, hi, if_true] at hget
    rw [List.getElem?_eq_getElem (by omega), List.getElem?_eq_getElem (by omega)] at hget
    simpa using hget
  have hshape := h.linked.prevHash_length length_genesisPrevHash h.hmac_length _ hmem
  have hshape0 := hok.linked.prevHash_length length_genesisPrevHash h.hmac_length _ hmem0
  have hpre := h.hmac_inj (Or.inr ⟨_, hdb.1, rfl⟩) (Or.inl ⟨_, hdb0, rfl⟩)
    (hshape.2.2.symm.trans (hhash.trans hshape0.2.2))
  simp only [entryPreimage, List.append_assoc, Bytes.be8_append_inj] at hpre
  rcases List.append_inj hpre.2 (hshape.1.trans hshape0.1.symm) with ⟨hprev, hpayload⟩
  refine ⟨_, _, ?_, ?_, hprev, hhash, hpayload⟩
  . rw [Table.find?_eq_some_iff]
    refine ⟨hdb.1, ?_⟩
    rw [key, hdb.2.1, hseq]
  . rw [Table.find?_eq_some_iff]
    refine ⟨hdb0, ?_⟩
    rw [key, hok.mem_chain _ hmem0, hseq0]

end

end Evidence

theorem verified_entries_eq {J : Type} (cfg : Config J) (keys : KeyRegistry) (withSink : Bool)
    (acts : List Action) (s : State)
    (run : Run (step cfg) (fun _ a => a.appends = true) (.init withSink) acts s)
    (db : DB) (c : Chain)
    (hmac_length : ∀ msg, (cfg.crypto.hmacSHA256 cfg.chainer.key msg).length = 32)
    (sha_length : ∀ msg, (cfg.crypto.sha256 msg).length = 32)
    (hmac_inj : Set.InjOn (cfg.crypto.hmacSHA256 cfg.chainer.key)
      (entryPreimages s.db ∪ entryPreimages db))
    (sha_inj : Set.InjOn cfg.crypto.sha256 (nodePreimages cfg.crypto s.db ∪ nodePreimages cfg.crypto db))
    (unforgeable : ∀ keyID pub msg sig, keys.keyFor keyID = some pub →
      cfg.crypto.ed25519Verify pub msg sig = true → msg ∈ s.signed)
    (chainRes : VerifyResult) (hchain : verifyChain cfg.crypto db cfg.chainer.key c = some chainRes)
    (hchainOk : chainRes.ok = true)
    (anchorRes : AnchorVerifyResult) (hanchors : verifyAnchors cfg.crypto db keys c = some anchorRes)
    (hanchorsOk : anchorRes.ok = true)
    (seq : Int64) (hseq : 1 ≤ seq) (hthrough : seq ≤ anchorRes.anchoredThrough) :
    ∃ e e₀, db.entries.find? (c, seq) = some e ∧ s.db.entries.find? (c, seq) = some e₀
      ∧ e.prevHash = e₀.prevHash ∧ e.entryHash = e₀.entryHash ∧ e.payload = e₀.payload := by
  rcases exists_honest (run.free) with ⟨g, hhonest⟩
  have hlinked := ((verifyChainFrom_eq_ok_iff _ _).mp ⟨hchain, hchainOk⟩).1
  have hwalk := (verifyAnchorsFrom_eq_ok_iff _ _ _ _).mp ⟨hanchors, hanchorsOk⟩
  have h : Evidence cfg keys s g db c :=
    { honest := hhonest, floor := floor_eq_zero run hhonest c, hmac_length, sha_length, hmac_inj,
      sha_inj, unforgeable, linked := hlinked }
  have hstart : Agree g db c 0 := ⟨Nat.zero_le _, Nat.zero_le _, rfl⟩
  rcases h.agree_walk (fun a ha => (mem_chainAnchors.mp (mem_anchorsFrom.mp ha).1).2) hwalk.1 rfl rfl hstart
    with ⟨m, hm, hagree⟩
  have hm63 : m < 2 ^ 63 := by
    have := hagree.1
    have := length_entriesAfter_lt db c
    omega
  rw [hwalk.2] at hthrough
  have hle : seq ≤ ofNat m := hm ▸ hthrough
  rw [le_iff_toInt_le, toInt_ofNat_of_lt hm63] at hle
  rw [le_iff_toInt_le, toInt_one] at hseq
  have heq : seq = ofNat ((seq.toInt - 1).toNat + 1) := by
    apply toInt_inj.mp
    rw [toInt_ofNat_of_lt (by omega)]
    omega
  rw [heq]
  exact h.eq_of_agree hagree (by omega)

/-!
A ledger of three entries, the first two of them anchored, whose last entry is deleted.
-/

namespace Truncated

set_option maxRecDepth 4000

def event (n : Nat) : AuditPending :=
  { LostCreate.event with id := 4194304 + ofNat n }

def acts : List Action :=
  [.capture (event 0), .capture (event 1), .processBatch 100 true] ++ anchorUpTo true
    ++ [.capture (event 2), .processBatch 100 true]

abbrev exec (cfg : Config Unit) : Option State :=
  Run.exec (step cfg) (fun _ a => a.appends = true) (.init true) acts

def issued : List Bytes :=
  ((exec config).map State.signed).getD []

def config : Config Unit :=
  { LostCreate.config with crypto := digestCrypto (fun msg => issued.contains msg) }

def registry : KeyRegistry :=
  newKeyRegistry config.crypto (config.signers.map config.crypto.ed25519Public)

theorem exec_isSome : (exec config).isSome = true := by
  decide

def final : State :=
  (exec config).get exec_isSome

theorem run : Run (step config) (fun _ a => a.appends = true) (.init true) acts final :=
  Run.of_isSome _

def truncated : DB :=
  { final.db with entries := final.db.entries.delete (fun e => e.seq = 3) }

theorem leavesBetween_sublist (db : DB) (c : Chain) (fromSeq toSeq : Int64) :
    (leavesBetween db c fromSeq toSeq).Sublist ((sortedEntries db c).map entryHash) := by
  unfold leavesBetween
  rw [entriesBetween_eq]
  exact ((filter_sublist).trans filter_sublist).map _

def nodes (db : DB) : List Bytes :=
  ((sortedEntries db chain).map entryHash).sublists.flatMap (fun leaves =>
    (hashed (merkleNode config.crypto) leaves.length leaves).map (fun p => p.1 ++ p.2))

theorem nodePreimages_subset {db : DB} (hdb : ∀ e ∈ db.entries.rows, e.chain = LostCreate.chain) :
    nodePreimages config.crypto db ⊆ { m | m ∈ nodes db } := by
  rintro m ⟨c, fromSeq, toSeq, p, hp, rfl⟩
  by_cases hc : c = LostCreate.chain
  . subst hc
    exact mem_flatMap.mpr ⟨_, mem_sublists.mpr (leavesBetween_sublist db _ fromSeq toSeq),
      mem_map.mpr ⟨p, hp, rfl⟩⟩
  have hnil : leavesBetween db c fromSeq toSeq = [] := by
    unfold leavesBetween
    rw [map_eq_nil_iff, eq_nil_iff_forall_not_mem]
    intro e he
    have := (mem_entriesBetween.mp he).1
    exact hc ((mem_entriesBetween.mp he).2.1.symm.trans (hdb e this))
  rw [hnil] at hp
  contradiction

theorem hmac_inj : Set.InjOn (config.crypto.hmacSHA256 config.chainer.key)
    (entryPreimages final.db ∪ entryPreimages truncated) := by
  have hall : ∀ e ∈ final.db.entries.rows, ∀ e' ∈ final.db.entries.rows,
      config.crypto.hmacSHA256 config.chainer.key (entryPreimage e.seq e.prevHash e.payload)
        = config.crypto.hmacSHA256 config.chainer.key (entryPreimage e'.seq e'.prevHash e'.payload) →
      entryPreimage e.seq e.prevHash e.payload = entryPreimage e'.seq e'.prevHash e'.payload := by
    decide
  have hsub : entryPreimages final.db ∪ entryPreimages truncated ⊆ entryPreimages final.db := by
    rintro m (hm | ⟨e, he, rfl⟩)
    . exact hm
    . rw [truncated, Table.rows_delete] at he
      exact ⟨e, mem_of_mem_filter he, rfl⟩
  intro m hm m' hm' heq
  rcases hsub hm with ⟨e, he, rfl⟩
  rcases hsub hm' with ⟨e', he', rfl⟩
  exact hall e he e' he' heq

theorem sha_inj : Set.InjOn config.crypto.sha256
    (nodePreimages config.crypto final.db ∪ nodePreimages config.crypto truncated) := by
  have hall : ∀ m ∈ nodes final.db ++ nodes truncated, ∀ m' ∈ nodes final.db ++ nodes truncated,
      config.crypto.sha256 m = config.crypto.sha256 m' → m = m' := by
    decide
  have hsub : nodePreimages config.crypto final.db ∪ nodePreimages config.crypto truncated
      ⊆ { m | m ∈ nodes final.db ++ nodes truncated } := by
    rintro m (hm | hm)
    . exact mem_append_left _ (nodePreimages_subset (by decide) hm)
    . exact mem_append_right _ (nodePreimages_subset (by decide) hm)
  intro m hm m' hm' heq
  exact hall m (hsub hm) m' (hsub hm') heq

theorem unforgeable : ∀ keyID pub msg sig, registry.keyFor keyID = some pub →
    config.crypto.ed25519Verify pub msg sig = true → msg ∈ final.signed := by
  intro keyID pub msg sig _ hverify
  have hissued : final.signed = issued := by
    decide
  simp only [config, digestCrypto, Bool.and_eq_true, contains_iff_mem] at hverify
  exact hverify.1

theorem second_entry_eq :
    verifyChain config.crypto truncated config.chainer.key LostCreate.chain
        = some { ok := true, verifiedThrough := 2, failSeq := 0, reason := .none }
      ∧ verifyAnchors config.crypto truncated registry LostCreate.chain = some (.success 2)
      ∧ ∃ e e₀, truncated.entries.find? (LostCreate.chain, 2) = some e
          ∧ final.db.entries.find? (LostCreate.chain, 2) = some e₀
          ∧ e.prevHash = e₀.prevHash ∧ e.entryHash = e₀.entryHash ∧ e.payload = e₀.payload := by
  have hchain : verifyChain config.crypto truncated config.chainer.key LostCreate.chain
      = some { ok := true, verifiedThrough := 2, failSeq := 0, reason := .none } := by
    decide
  have hanchors : verifyAnchors config.crypto truncated registry LostCreate.chain
      = some (.success 2) := by
    decide
  exact ⟨hchain, hanchors, verified_entries_eq config registry true acts final run truncated
    LostCreate.chain (fun _ => length_digest _) (fun _ => length_digest _) hmac_inj sha_inj unforgeable
    _ hchain rfl _ hanchors rfl 2 (by decide) (by decide)⟩

end Truncated

end Mxid.Audit
