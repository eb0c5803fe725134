import Mxid.Audit.Lemmas.ChainOk

namespace Mxid.Audit

open List Table Int64

variable {J : Type} {cfg : Config J} {db db' : DB} {c : Chain} {w : List AuditEntry} {cut kept : List AuditAnchor}

theorem ChainOk.congr (h : ChainOk cfg db c w cut kept) (hentries : db'.chainEntries c = db.chainEntries c)
    (hheads : db'.heads.find? c = db.heads.find? c) (hanchors : db'.chainAnchors c = db.chainAnchors c)
    (hcheckpoints : db'.checkpoints.find? c = db.checkpoints.find? c) : ChainOk cfg db' c w cut kept :=
  { h with
    head := hheads.trans h.head
    anchors := by
      rw [hanchors]
      exact h.anchors
    entries := by
      rw [hentries]
      exact h.entries
    checkpoint := by
      rw [hcheckpoints]
      exact h.checkpoint }

section Chainer

variable {p : AuditPending}

theorem chainOne_eq_some (h : chainOne cfg.encoding cfg.crypto cfg.chainer db p = some db') :
    ∃ e, ∃ canonical, e = nextEntry cfg.crypto cfg.chainer (loadHead db p) p canonical
      ∧ db'.entries.rows = db.entries.rows ++ [e]
      ∧ db'.heads = db.heads.upsert
          { loadHead db p with lastSeq := e.seq, lastEntryHash := e.entryHash }
      ∧ db'.pending = db.pending ∧ db'.anchors = db.anchors ∧ db'.checkpoints = db.checkpoints
      ∧ canonicalJSON cfg.encoding (chainPayload cfg.encoding p) = some canonical
      ∧ e ∉ db.entries.rows := by
  unfold chainOne at h
  simp only [Option.bind_eq_bind, Option.bind_eq_some_iff, Option.pure_def, Option.some.injEq] at h
  rcases h with ⟨canonical, hcanonical, entries, hinsert, rfl⟩
  exact ⟨_, canonical, rfl, rows_of_insert? hinsert, rfl, rfl, rfl, rfl, hcanonical,
    notMem_of_insert? hinsert⟩

theorem ChainOk.loadHead_eq (h : ChainOk cfg db p.chain w cut kept) :
    loadHead db p =
      { tenantID := p.tenantID, chainClass := p.chainClass, lastSeq := ofNat w.length
        lastEntryHash := lastHash genesisPrevHash w } := by
  have hlt := h.length_lt
  unfold loadHead
  rw [h.head]
  cases hlast : w.getLast? with
  | none =>
    have hw : w = [] := List.getLast?_eq_none_iff.mp hlast
    subst hw
    rfl
  | some =>
    have hne : w ≠ [] := by
      rintro rfl
      simp at hlast
    have hpos : 0 < w.length := length_pos_iff.mpr hne
    have hseq : ofNat w.length ≠ 0 := by
      intro heq
      have : w.length = 0 := ofNat_inj_of_lt (by omega) (by omega) heq
      omega
    simp only [headOf, hlast, Option.map_some]
    rw [if_neg hseq]
    simp [lastHash, hlast, AuditPending.chain]

theorem ChainOk.chainOne_self (h : ChainOk cfg db p.chain w cut kept) (hlt : w.length + 2 < 2 ^ 63)
    (hstep : chainOne cfg.encoding cfg.crypto cfg.chainer db p = some db') :
    ∃ e, ChainOk cfg db' p.chain (w ++ [e]) cut kept := by
  rcases chainOne_eq_some hstep with ⟨e, canonical, he, hrows, hheads, _, hanchors, hcheckpoints, _⟩
  rw [h.loadHead_eq] at he hheads
  have hchain : e.chain = p.chain := by
    rw [he]
    rfl
  have hseq : e.seq = ofNat (w.length + 1) := by
    rw [he, nextEntry, ofNat_add_one]
  have htiled := tiled_append.mp h.tiled
  have hfloor := h.floor_le
  refine ⟨e, ?_, ?_, by simpa using hlt, ?_, ?_, ?_, ?_, ?_⟩
  . intro e' he'
    rcases mem_append.mp he' with he' | he'
    . exact h.mem_chain e' he'
    . rw [mem_singleton.mp he']
      exact hchain
  . rw [linked_append]
    refine ⟨h.linked, ?_, ?_, ?_, trivial⟩
    . rw [hseq, Int64.add_comm, Int64.ofNat_add_one]
    . rw [he]
      rfl
    . rw [he, nextEntry, Int64.add_comm 1]
  . rw [hheads]
    have hkey : p.chain = ChainHead.chain
        { tenantID := p.tenantID, chainClass := p.chainClass, lastSeq := e.seq
          lastEntryHash := e.entryHash } := rfl
    rw [hkey, find?_upsert_self]
    simp [headOf, hseq, ChainHead.chain]
  . unfold DB.chainAnchors
    rw [hanchors]
    exact h.anchors
  . exact h.tiled.mono (prefix_append w [e])
  . unfold DB.chainEntries
    rw [hrows, filter_append, drop_append_of_le_length hfloor]
    apply List.Perm.append h.entries
    simp [hchain]
  . rw [hcheckpoints]
    exact h.checkpoint.append hfloor [e]

theorem ChainOk.chainOne_of_ne (h : ChainOk cfg db c w cut kept) (hne : p.chain ≠ c)
    (hstep : chainOne cfg.encoding cfg.crypto cfg.chainer db p = some db') : ChainOk cfg db' c w cut kept := by
  rcases chainOne_eq_some hstep with ⟨e, canonical, he, hrows, hheads, _, hanchors, hcheckpoints, _⟩
  have hchain : e.chain = p.chain := by
    rw [he]
    rfl
  have hload : (loadHead db p).chain = p.chain := by
    unfold loadHead
    split
    . next head hfind =>
      split
      . rfl
      . exact ((find?_eq_some_iff _).mp hfind).2
    . rfl
  apply h.congr
  . unfold DB.chainEntries
    rw [hrows, filter_append]
    simp [hchain, hne]
  . rw [hheads]
    apply find?_upsert_of_ne
    have : ChainHead.chain { loadHead db p with lastSeq := e.seq, lastEntryHash := e.entryHash }
        = (loadHead db p).chain := rfl
    rw [this, hload]
    exact hne
  . unfold DB.chainAnchors
    rw [hanchors]
  . rw [hcheckpoints]

theorem chainAndDelete_eq_some (h : chainAndDelete cfg.encoding cfg.crypto cfg.chainer db p = some db') :
    ∃ db1, chainOne cfg.encoding cfg.crypto cfg.chainer db p = some db1
      ∧ db' = { db1 with pending := db1.pending.delete (fun q => q.id = p.id) }
      ∧ db'.pending.rows = db.pending.rows.filter (fun q => q.id ≠ p.id) := by
  unfold chainAndDelete at h
  simp only [Option.bind_eq_bind, Option.bind_eq_some_iff, Option.pure_def, Option.some.injEq] at h
  rcases h with ⟨db1, hchain, rfl⟩
  refine ⟨db1, hchain, rfl, ?_⟩
  rcases chainOne_eq_some hchain with ⟨_, _, _, _, _, hpending, _⟩
  rw [rows_delete, hpending]
  simp

theorem batch_invariant {I : DB → Prop} {pend : List AuditPending} (hI : I db)
    (hpend : ∀ p ∈ pend, p ∈ db.pending.rows) (hnodup : (pend.map AuditPending.id).Nodup)
    (hstep : ∀ db p db', I db → p ∈ db.pending.rows →
      chainAndDelete cfg.encoding cfg.crypto cfg.chainer db p = some db' → I db')
    (hfold : pend.foldlM (chainAndDelete cfg.encoding cfg.crypto cfg.chainer) db = some db') : I db' := by
  induction pend generalizing db with
  | nil =>
    cases hfold
    exact hI
  | cons p pend ih =>
    rw [foldlM_cons, Option.bind_eq_bind, Option.bind_eq_some_iff] at hfold
    rcases hfold with ⟨db1, hchain, hrest⟩
    rcases chainAndDelete_eq_some hchain with ⟨_, _, _, hrows⟩
    rw [map_cons, nodup_cons] at hnodup
    apply ih (hstep db p db1 hI (hpend p mem_cons_self) hchain) _ hnodup.2 hrest
    intro q hq
    rw [hrows, mem_filter]
    refine ⟨hpend q (mem_cons_of_mem _ hq), ?_⟩
    rw [decide_eq_true_eq]
    intro heq
    apply hnodup.1
    rw [← heq]
    apply mem_map_of_mem hq

theorem processBatch_invariant {I : DB → Prop} {limit : Int} {n : Nat} (hI : I db)
    (hstep : ∀ db p db', I db → p ∈ db.pending.rows →
      chainAndDelete cfg.encoding cfg.crypto cfg.chainer db p = some db' → I db')
    (h : processBatch cfg.encoding cfg.crypto cfg.chainer db limit = some (db', n)) : I db' := by
  unfold processBatch at h
  simp only [Option.bind_eq_bind, Option.bind_eq_some_iff, Option.pure_def, Option.some.injEq, Prod.mk.injEq] at h
  rcases h with ⟨db1, hfold, rfl, _⟩
  have hsub : (limitRows limit (orderBy AuditPending.id db.pending.rows)).Sublist
      (orderBy AuditPending.id db.pending.rows) := by
    unfold limitRows
    split
    . exact List.Sublist.refl _
    . exact take_sublist _ _
  have hperm := perm_orderBy AuditPending.id db.pending.rows
  apply batch_invariant hI _ _ hstep hfold
  . intro p hp
    apply hperm.mem_iff.mp (hsub.mem hp)
  . apply ((hperm.map _).nodup_iff.mpr db.pending.nodup).sublist (hsub.map _)

end Chainer

section Anchorer

section

variable (h : ChainOk cfg db c w cut kept)

include h

theorem ChainOk.mem_anchors {a : AuditAnchor} : a ∈ db.chainAnchors c ↔ a ∈ cut ++ kept :=
  h.anchors.mem_iff

theorem ChainOk.toSeq_le {a b : AuditAnchor}
    (ha : a ∈ cut ++ kept) (hb : (cut ++ kept).getLast? = some b) : a.toSeq ≤ b.toSeq := by
  have hlt := h.length_lt
  rw [List.getLast?_eq_some_iff] at hb
  rcases hb with ⟨as, has⟩
  have hpair := h.tiled.pairwise (by omega) (by omega)
  rw [has] at ha hpair
  rcases mem_append.mp ha with ha | ha
  . exact le_of_lt ((pairwise_append.mp hpair).2.2 a ha b (by simp)).2.2
  . rw [mem_singleton.mp ha]

theorem ChainOk.lastAnchor?_eq : lastAnchor? db c = (cut ++ kept).getLast? := by
  have hlt := h.length_lt
  unfold lastAnchor?
  cases hlast : (cut ++ kept).getLast? with
  | none =>
    have hnil := List.getLast?_eq_none_iff.mp hlast
    rw [head?_orderByDesc_eq_none_iff]
    have := h.anchors
    rw [hnil] at this
    exact this.eq_nil
  | some b =>
    have hb : b ∈ cut ++ kept := mem_of_getLast? hlast
    cases hhead : (orderByDesc AuditAnchor.toSeq (db.chainAnchors c)).head? with
    | none =>
      rw [head?_orderByDesc_eq_none_iff] at hhead
      have := h.mem_anchors.mpr hb
      rw [hhead] at this
      contradiction
    | some a =>
      have ha : a ∈ cut ++ kept := h.mem_anchors.mp (mem_of_head?_orderByDesc _ hhead)
      have hle := le_of_head?_orderByDesc _ hhead (h.mem_anchors.mpr hb)
      have heq := le_antisymm (h.toSeq_le ha hlast) hle
      have hpair : (cut ++ kept).Pairwise (fun a b => a.toSeq < b.toSeq) :=
        (h.tiled.pairwise (by omega) (by omega)).imp (fun hab => hab.2.2)
      rw [eq_of_pairwise_lt AuditAnchor.toSeq hpair ha hb heq]

theorem ChainOk.prevAnchorHash_eq : prevAnchorHash cfg.crypto db c = linkOf cfg.crypto [] (cut ++ kept) := by
  unfold prevAnchorHash linkOf
  rw [h.lastAnchor?_eq]
  cases (cut ++ kept).getLast? <;> rfl

theorem ChainOk.lastAnchoredTo_eq : lastAnchoredTo db c = ofNat (stopOf 0 (cut ++ kept)) := by
  unfold lastAnchoredTo
  cases hlast : (cut ++ kept).getLast? with
  | none =>
    have hnil := List.getLast?_eq_none_iff.mp hlast
    have hanchors := h.anchors
    rw [hnil] at hanchors ⊢
    rw [hanchors.eq_nil]
    rfl
  | some b =>
    have hb : b ∈ cut ++ kept := mem_of_getLast? hlast
    have hmax : ((db.chainAnchors c).map AuditAnchor.toSeq).max? = some b.toSeq := by
      rw [List.max?_eq_some_iff]
      constructor
      . exact mem_map_of_mem (h.mem_anchors.mpr hb)
      intro seq hseq
      rcases mem_map.mp hseq with ⟨a, ha, rfl⟩
      exact h.toSeq_le (h.mem_anchors.mp ha) hlast
    rw [hmax, Option.getD_some, stopOf, hlast, Option.map_some, Option.getD_some]
    exact (h.tiled.bounds hb).2.1

theorem ChainOk.anchored_le : stopOf 0 (cut ++ kept) ≤ w.length :=
  h.tiled.stopOf_le (by omega)

theorem ChainOk.entriesAfter_anchored :
    entriesAfter db c (ofNat (stopOf 0 (cut ++ kept))) = w.drop (stopOf 0 (cut ++ kept)) := by
  have hlt := h.length_lt
  apply entriesAfter_eq_drop h.linked (by omega) h.entries _ h.anchored_le
  rw [stopOf_append]
  exact (tiled_append.mp h.tiled).2.le_stopOf

end

end Anchorer

section Pruner

variable (priv : PrivateKey)

def prunedDB (C : Crypto) (db : DB) (c : Chain) (through : Int64) (boundary : AuditEntry) : DB :=
  { db with
    checkpoints := db.checkpoints.upsert (signedCheckpoint C priv c through boundary)
    entries := db.entries.delete (fun e => decide (e.chain = c ∧ e.seq ≤ through)) }

theorem pruneChain_cases (C : Crypto) (db : DB) (c : Chain) (cutoffSeq : Int64) :
    (pruneChain C priv db c cutoffSeq).1 = db
      ∨ ∃ through boundary, (pruneChain C priv db c cutoffSeq).1 = prunedDB priv C db c through boundary := by
  unfold pruneChain
  dsimp only
  split
  . exact Or.inl rfl
  next last _ =>
  generalize (if cutoffSeq < last.toSeq then cutoffSeq else last.toSeq) = through
  split
  . exact Or.inl rfl
  split
  . exact Or.inl rfl
  . next boundary _ => exact Or.inr ⟨through, boundary, rfl⟩

variable (h : ChainOk cfg db c w cut kept)

include h

theorem ChainOk.pruneChain_of_ne {c' : Chain} (hne : c' ≠ c) (cutoffSeq : Int64) :
    ChainOk cfg (pruneChain cfg.crypto priv db c' cutoffSeq).1 c w cut kept := by
  rcases pruneChain_cases priv cfg.crypto db c' cutoffSeq with hdb | ⟨through, boundary, hdb⟩
  . rw [hdb]
    exact h
  rw [hdb]
  apply h.congr
  . unfold DB.chainEntries prunedDB
    rw [rows_delete, filter_filter]
    apply filter_congr
    intro e _
    by_cases hchain : e.chain = c
    . simp [hchain, hne.symm]
    . simp [hchain]
  . rfl
  . rfl
  . exact find?_upsert_of_ne _ hne

theorem ChainOk.filter_entries {n : Nat} (hn : stopOf 0 cut ≤ n) (hle : n ≤ w.length) :
    ((db.chainEntries c).filter (fun e => !decide (e.seq ≤ ofNat n))).Perm (w.drop n) := by
  have hlt := h.length_lt
  have hfilter : (w.drop (stopOf 0 cut)).filter (fun e => !decide (e.seq ≤ ofNat n))
      = ((w.drop (stopOf 0 cut)).take w.length).drop (n - stopOf 0 cut) := by
    apply filter_eq_drop_take
    intro i hi
    rw [length_drop] at hi
    rw [getElem_drop, ← decide_not]
    apply decide_eq_decide.mpr
    rw [le_iff_toInt_le, h.linked.toInt_seq_getElem (by omega), toInt_ofNat_of_lt (by omega)]
    omega
  have hdrop : ((w.drop (stopOf 0 cut)).take w.length).drop (n - stopOf 0 cut) = w.drop n := by
    rw [take_of_length_le (by simp), drop_drop]
    congr 1
    omega
  rw [← hdrop, ← hfilter]
  exact h.entries.filter _

theorem ChainOk.prunedDB_self (hpriv : priv ∈ cfg.signers) {a : AuditAnchor}
    (ha : a ∈ cut ++ kept) {boundary : AuditEntry} (hfind : db.entries.find? (c, a.toSeq) = some boundary) :
    ∃ cut' kept', cut' ++ kept' = cut ++ kept
      ∧ ChainOk cfg (prunedDB priv cfg.crypto db c a.toSeq boundary) c w cut' kept' := by
  have hlt := h.length_lt
  have hanchored := h.anchored_le
  rcases h.tiled.bounds ha with ⟨_, hto, hpos, hstop, _⟩
  rcases append_of_mem ha with ⟨pre, post, hsplit⟩
  have hsplit' : (pre ++ [a]) ++ post = cut ++ kept := by
    rw [hsplit]
    simp
  have hstop' : stopOf 0 (pre ++ [a]) = a.stop := by simp [stopOf]
  rcases (db.entries.find?_eq_some_iff).mp hfind with ⟨hmem, hkey⟩
  simp only [AuditEntry.key, Prod.mk.injEq] at hkey
  have hboundary : boundary ∈ w.drop (stopOf 0 cut) :=
    h.entries.mem_iff.mp (mem_chainEntries.mpr ⟨hmem, hkey.1⟩)
  have hfloor : stopOf 0 cut ≤ a.stop := by
    rcases getElem_of_mem hboundary with ⟨i, hi, rfl⟩
    rw [length_drop] at hi
    have hseq := h.linked.toInt_seq_getElem (by omega) (stopOf 0 cut + i) (by omega)
    rw [getElem_drop, hto] at hkey
    rw [hkey.2, toInt_ofNat_of_lt (by omega)] at hseq
    omega
  refine ⟨pre ++ [a], post, hsplit', h.mem_chain, h.linked, h.length_lt, h.head, ?_, ?_, ?_, ?_⟩
  . rw [hsplit']
    exact h.anchors
  . rw [hsplit']
    exact h.tiled
  . have hpruned : (prunedDB priv cfg.crypto db c a.toSeq boundary).chainEntries c
        = (db.chainEntries c).filter (fun e => !decide (e.seq ≤ a.toSeq)) := by
      unfold DB.chainEntries prunedDB
      rw [rows_delete, filter_filter, filter_filter]
      apply filter_congr
      intro e _
      by_cases hchain : e.chain = c <;> simp [hchain]
    rw [hstop', hpruned, hto]
    exact h.filter_entries hfloor (by omega)
  rw [hstop']
  have hself := find?_upsert_self db.checkpoints
    (signedCheckpoint cfg.crypto priv c a.toSeq boundary)
  have hchain : (signedCheckpoint cfg.crypto priv c a.toSeq boundary).chain = c := rfl
  rw [hchain] at hself
  unfold prunedDB
  rw [hself]
  refine ⟨hto, ?_, rfl, priv, hpriv, rfl, rfl⟩
  rcases getElem_of_mem (mem_of_mem_drop hboundary) with ⟨i, hi, rfl⟩
  have hi' := h.linked.toInt_seq_getElem (by omega) i hi
  rw [hkey.2, hto, toInt_ofNat_of_lt (by omega)] at hi'
  rw [show a.stop = i + 1 by omega, take_succ_eq_append_getElem hi, lastHash_append_singleton]
  rfl

theorem ChainOk.pruneChain_self (hpriv : priv ∈ cfg.signers) {a : AuditAnchor} (ha : a ∈ cut ++ kept) :
    ∃ cut' kept', cut' ++ kept' = cut ++ kept
      ∧ ChainOk cfg (pruneChain cfg.crypto priv db c a.toSeq).1 c w cut' kept' := by
  cases hlast : (cut ++ kept).getLast? with
  | none =>
    rw [List.getLast?_eq_none_iff.mp hlast] at ha
    contradiction
  | some last =>
    have hthrough : (if a.toSeq < last.toSeq then a.toSeq else last.toSeq) = a.toSeq := by
      split
      . rfl
      . next hge => exact le_antisymm (not_lt.mp hge) (h.toSeq_le ha hlast)
    unfold pruneChain
    rw [h.lastAnchor?_eq, hlast]
    dsimp only
    rw [hthrough]
    split
    . exact ⟨cut, kept, rfl, h⟩
    cases hfind : db.entries.find? (c, a.toSeq) with
    | none => exact ⟨cut, kept, rfl, h⟩
    | some => exact h.prunedDB_self priv hpriv ha hfind

end Pruner

end Mxid.Audit
