import Mxid.Audit.Lemmas.Honest

namespace Mxid.Audit

open List Histories Int64 AuditAnchor

variable {J : Type} {cfg : Config J} {s s' : State} {g : Histories}

section Anchorer

variable {c : Chain} {a : AuditAnchor} {priv : PrivateKey} {records : List AnchorRecord} {now : Int}

theorem Honest.fromSeq_ne (h : Honest cfg s g) (ha : a ∈ g.anchors c) : a.fromSeq ≠ ofNat (g.anchored c + 1) := by
  have hchain := h.chains c
  have hlt := hchain.length_lt
  have hle : g.anchored c ≤ (g.entries c).length := hchain.anchored_le
  rcases hchain.tiled.bounds ha with ⟨_, _, _, hstop, k, _, hk, hfrom⟩
  have hstop' : a.stop ≤ g.anchored c := hstop
  intro heq
  rw [hfrom] at heq
  have := ofNat_inj_of_lt (by omega) (by omega) heq
  omega

theorem Honest.dropJob (h : Honest cfg s g) : Honest cfg { s with job := none } g :=
  { h with job := fun _ hjob => by contradiction }

theorem Honest.anchorReadLast (h : Honest cfg s g)
    (hstep : step cfg s (.anchorReadLast c) = some s') : Honest cfg s' g := by
  simp only [step] at hstep
  split at hstep
  . cases hstep
    refine { h with job := ?_ }
    intro job hjob
    cases hjob
    exact (h.chains c).lastAnchoredTo_eq
  . contradiction

theorem Honest.anchorReadEntries (h : Honest cfg s g)
    (hstep : step cfg s .anchorReadEntries = some s') : Honest cfg s' g := by
  simp only [step] at hstep
  split at hstep
  . next c lastTo hjob =>
    have hlast : lastTo = ofNat (g.anchored c) := h.job _ hjob
    have hchain := h.chains c
    rw [hlast] at hstep
    have hentries : entriesAfter s.db c (ofNat (g.anchored c)) = (g.entries c).drop (g.anchored c) :=
      hchain.entriesAfter_anchored
    rw [hentries] at hstep
    split at hstep
    . cases hstep
      exact h.dropJob
    . next first rest hcons =>
      cases hstep
      refine { h with job := ?_ }
      intro job hjob
      cases hjob
      refine ⟨(g.entries c).length, ?_, le_refl _, by rw [take_length, hcons], ?_⟩
      . by_contra hge
        rw [drop_eq_nil_of_le (by omega)] at hcons
        contradiction
      . -- Every outstanding record was written when the history was no longer than now.
        intro records hsink r hr hrchain hfrom
        have hlt := hchain.length_lt
        rcases (h.sink records hsink c).explained r hr hrchain with ⟨a, ha, hafrom, _⟩ | ⟨_, m, _, hm, hto⟩
        . exact absurd (hafrom.trans hfrom) (h.fromSeq_ne ha)
        . rw [hto, ofNat_le_ofNat_iff (by omega) (by omega)]
          exact hm
  . contradiction

variable {cut kept : List AuditAnchor}

theorem ChainOk.signedAnchor_range {db : DB} {w : List AuditEntry}
    (h : ChainOk cfg db c w cut kept) {first : AuditEntry} {rest : List AuditEntry} {n m : Nat} (hnm : n < m)
    (hle : m ≤ w.length) (heq : first :: rest = (w.take m).drop n) (hpriv : priv ∈ cfg.signers) (prev : Bytes) :
    Anchors cfg c w n prev (signedAnchor cfg.crypto priv c first rest prev)
      ∧ (signedAnchor cfg.crypto priv c first rest prev).stop = m := by
  have hlt := h.length_lt
  have hlength : (first :: rest).length = m - n := by
    rw [heq, length_drop, length_take_of_le hle]
  have hget : ∀ (i : Nat) (hi : i < (first :: rest).length), (first :: rest)[i].seq.toInt = n + i + 1 := by
    intro i hi
    have hi' : n + i < w.length := by omega
    have helem : (first :: rest)[i] = w[n + i] := by
      simp only [heq, getElem_drop, getElem_take]
    rw [helem, h.linked.toInt_seq_getElem (by omega) _ hi']
    omega
  have hfirst : first.seq = ofNat (n + 1) := by
    have := hget 0 (by simp)
    rw [getElem_cons_zero] at this
    apply toInt_inj.mp
    rw [this, toInt_ofNat_of_lt (by omega)]
    omega
  have hlast : ((first :: rest).getLast (by simp)).seq = ofNat m := by
    rw [getLast_eq_getElem]
    have := hget ((first :: rest).length - 1) (by simp)
    apply toInt_inj.mp
    rw [this, toInt_ofNat_of_lt (by omega)]
    omega
  have hstop : (signedAnchor cfg.crypto priv c first rest prev).stop = m := by
    unfold stop signedAnchor
    rw [hlast, toInt_ofNat_of_lt (by omega), Int.toNat_natCast]
  refine ⟨⟨rfl, hfirst, ?_, by rw [hstop]; exact hnm, by rw [hstop]; exact hle, ?_, rfl, rfl,
    priv, hpriv, rfl, rfl⟩, hstop⟩
  . rw [hstop]
    exact hlast
  . rw [hstop, ← heq]
    rfl

theorem Honest.signed_append (h : Honest cfg s g) {first : AuditEntry} {rest : List AuditEntry}
    {n m : Nat} (hnm : n < m) (hle : m ≤ (g.entries c).length)
    (heq : first :: rest = ((g.entries c).take m).drop n) (hpriv : priv ∈ cfg.signers) :
    let a := signedAnchor cfg.crypto priv c first rest (prevAnchorHash cfg.crypto s.db c)
    ∀ msg ∈ s.signed ++ [anchorSigMessageV2 a.tenantID a.chainClass.bytes a.fromSeq a.toSeq a.prevAnchorHash
        a.merkleRoot], SignedOk cfg g msg := by
  intro a msg hmsg
  rcases (h.chains c).signedAnchor_range hnm hle heq hpriv (prevAnchorHash cfg.crypto s.db c) with ⟨ha, hstop⟩
  rcases mem_append.mp hmsg with hmsg | hmsg
  . exact h.signed msg hmsg
  refine ⟨c, n, m, prevAnchorHash cfg.crypto s.db c, hnm, hle, ?_, ?_⟩
  . unfold prevAnchorHash
    split
    . exact Or.inr ⟨_, rfl⟩
    . exact Or.inl rfl
  rw [mem_singleton.mp hmsg, ha.fromSeq_eq, ha.toSeq_eq, ha.root_eq, hstop]
  rfl

theorem Honest.anchorSign (h : Honest cfg s g) (hstep : step cfg s (.anchorSign priv) = some s') : Honest cfg s' g := by
  simp only [step, stepAnchorSign] at hstep
  split at hstep
  . next c first rest hjob =>
    split at hstep
    . next hpriv =>
      rcases h.job _ hjob with ⟨m, hm, hle, heq, hwidest⟩
      have hsigned := h.signed_append hm hle heq hpriv
      have hprev : prevAnchorHash cfg.crypto s.db c = linkOf cfg.crypto [] (g.anchors c) :=
        (h.chains c).prevAnchorHash_eq
      rcases (h.chains c).signedAnchor_range hm hle heq hpriv (prevAnchorHash cfg.crypto s.db c)
        with ⟨hanchors, hstop⟩
      cases hstep
      refine { h with job := ?_, signed := hsigned }
      intro job hjob'
      cases hjob'
      have hto := hanchors.toSeq_eq
      rw [hprev] at hanchors hstop hto ⊢
      refine ⟨hanchors, ?_⟩
      rw [hto, hstop]
      exact hwidest
    . contradiction
  . contradiction

theorem span_record (a : AuditAnchor) (now : Int) : (a.record now).span = a.span := rfl

theorem recorded_append_self (records : List AnchorRecord) (a : AuditAnchor) (now : Int) :
    Recorded (records ++ [a.record now]) a := by
  refine ⟨a.record now, ?_, rfl, rfl⟩
  rw [filter_append]
  have : [a.record now].filter (fun r => r.chain = a.chain) = [a.record now] := by
    simp [AnchorRecord.chain, record, chain]
  rw [this, ← span_record a now]
  exact lastRecord?_append_self _ _

theorem Recorded.append_of_ne {b : AuditAnchor} (now : Int)
    (h : Recorded records a) (hne : b.span ≠ a.span) : Recorded (records ++ [b.record now]) a := by
  rcases h with ⟨r, hlast, hagree⟩
  refine ⟨r, ?_, hagree⟩
  rw [filter_append, filter_cons, filter_nil]
  split
  . rw [lastRecord?_append_of_ne _ (by rw [span_record]; exact hne)]
    exact hlast
  . rw [append_nil]
    exact hlast

theorem Honest.sinkInv_append (h : Honest cfg s g) (now : Int)
    (ha : Anchors cfg a.chain (g.entries a.chain) (g.anchored a.chain) (linkOf cfg.crypto [] (g.anchors a.chain)) a)
    (hinv : SinkInv g records c) : SinkInv g (records ++ [a.record now]) c := by
  constructor
  . intro b hb
    apply (hinv.stored b hb).append_of_ne
    intro hspan
    simp only [AuditAnchor.span, Prod.mk.injEq] at hspan
    have hbc := ((h.chains c).tiled.bounds hb).1
    rw [ha.fromSeq_eq, hspan.1, hbc] at hspan
    exact h.fromSeq_ne hb hspan.2.1.symm
  . intro r hr hchain
    rcases mem_append.mp hr with hr | hr
    . exact hinv.explained r hr hchain
    rw [mem_singleton.mp hr] at hchain ⊢
    have hac : a.chain = c := hchain
    rw [hac] at ha
    exact Or.inr ⟨ha.fromSeq_eq, a.stop, ha.lt_stop, ha.stop_le, ha.toSeq_eq⟩

theorem Honest.anchorPut {uri : Option Bytes} (h : Honest cfg s g)
    (hstep : step cfg s (.anchorPut uri now) = some s') : Honest cfg s' g := by
  simp only [step, stepAnchorPut] at hstep
  split at hstep
  . next a hjob =>
    have hnext : NextAnchor cfg g s.sink a := h.job _ hjob
    split at hstep
    . next hsink =>
      cases hstep
      refine { h with job := ?_ }
      intro job hjob'
      cases hjob'
      refine ⟨hnext, ?_⟩
      intro records hrecords
      rw [hsink] at hrecords
      contradiction
    . next records hsink =>
      split at hstep
      . cases hstep
        exact h.dropJob
      . next location =>
        cases hstep
        have hanchors := hnext.anchors
        refine { h with sink := ?_, job := ?_ }
        . intro records' hrecords' c
          cases hrecords'
          exact h.sinkInv_append now hanchors (h.sink records hsink c)
        . intro job hjob'
          cases hjob'
          refine ⟨⟨⟨rfl, hanchors.fromSeq_eq, hanchors.toSeq_eq, hanchors.lt_stop, hanchors.stop_le,
            hanchors.root_eq, hanchors.version_eq, hanchors.prev_eq, hanchors.signed⟩, ?_⟩, ?_⟩
          . intro records' hrecords' r hr hchain hfrom
            cases hrecords'
            rcases mem_append.mp hr with hr | hr
            . exact hnext.widest records hsink r hr hchain hfrom
            . rw [mem_singleton.mp hr]
              exact le_refl a.toSeq
          . intro records' hrecords'
            cases hrecords'
            exact recorded_append_self records a now
  . contradiction

def Histories.push (g : Histories) (a : AuditAnchor) : Histories :=
  { g with kept := Function.update g.kept a.chain (g.kept a.chain ++ [a]) }

theorem Histories.anchors_push_self (g : Histories) (a : AuditAnchor) :
    (g.push a).anchors a.chain = g.anchors a.chain ++ [a] := by
  simp [anchors, push]

theorem Histories.anchors_push_of_ne (g : Histories) (hne : c ≠ a.chain) : (g.push a).anchors c = g.anchors c := by
  simp [anchors, push, hne]

theorem Histories.anchored_push_of_ne (g : Histories) (hne : c ≠ a.chain) : (g.push a).anchored c = g.anchored c := by
  rw [anchored, anchored, g.anchors_push_of_ne hne]

theorem ChainOk.push {db db' : DB} {w : List AuditEntry} (h : ChainOk cfg db a.chain w cut kept)
    (ha : Anchors cfg a.chain w (stopOf 0 (cut ++ kept)) (linkOf cfg.crypto [] (cut ++ kept)) a)
    (hanchors : db'.anchors.rows = db.anchors.rows ++ [a]) (hentries : db'.entries = db.entries)
    (hheads : db'.heads = db.heads) (hcheckpoints : db'.checkpoints = db.checkpoints) :
    ChainOk cfg db' a.chain w cut (kept ++ [a]) where
  __ := h
  head := by
    rw [hheads]
    exact h.head
  anchors := by
    unfold DB.chainAnchors
    rw [hanchors, filter_append, ← append_assoc]
    apply List.Perm.append h.anchors
    simp
  tiled := by
    rw [← append_assoc, tiled_append]
    exact ⟨h.tiled, ha, trivial⟩
  entries := by
    unfold DB.chainEntries
    rw [hentries]
    exact h.entries
  checkpoint := by
    rw [hcheckpoints]
    exact h.checkpoint

theorem SinkInv.push (h : SinkInv g records c) (hrecorded : Recorded records a)
    (hwidest : ∀ r ∈ records, r.chain = a.chain →
      r.fromSeq = ofNat (g.anchored a.chain + 1) → r.toSeq ≤ a.toSeq)
    (hfrom : a.fromSeq = ofNat (g.anchored a.chain + 1)) : SinkInv (g.push a) records c := by
  by_cases hc : c = a.chain
  . subst hc
    constructor
    . rw [g.anchors_push_self]
      intro b hb
      rcases mem_append.mp hb with hb | hb
      . exact h.stored b hb
      . rw [mem_singleton.mp hb]
        exact hrecorded
    . intro r hr hchain
      rw [g.anchors_push_self]
      rcases h.explained r hr hchain with ⟨b, hb, hagree⟩ | ⟨hrfrom, _⟩
      . exact Or.inl ⟨b, mem_append_left _ hb, hagree⟩
      . exact Or.inl ⟨a, by simp, hfrom.trans hrfrom.symm, hwidest r hr hchain hrfrom⟩
  . constructor
    . rw [g.anchors_push_of_ne hc]
      exact h.stored
    . rw [g.anchors_push_of_ne hc, g.anchored_push_of_ne hc]
      exact h.explained

theorem Honest.push (h : Honest cfg s g) (ha : Anchors cfg a.chain (g.entries a.chain) (g.anchored a.chain)
      (linkOf cfg.crypto [] (g.anchors a.chain)) a)
    (hrecorded : ∀ records, s.sink = some records → Recorded records a) (hwidest : Widest g s.sink a.chain a.toSeq)
    {anchors : Table AuditAnchor.span} (hinsert : s.db.anchors.insert? { a with createdAt := now } = some anchors) :
    Honest cfg { s with db := { s.db with anchors }, job := none } (g.push { a with createdAt := now }) := by
  -- Only the time stamp of the row is new.
  have hstored : Anchors cfg a.chain (g.entries a.chain) (g.anchored a.chain)
      (linkOf cfg.crypto [] (g.anchors a.chain)) { a with createdAt := now } :=
    ⟨rfl, ha.fromSeq_eq, ha.toSeq_eq, ha.lt_stop, ha.stop_le, ha.root_eq, ha.version_eq, ha.prev_eq, ha.signed⟩
  have hrows := Table.rows_of_insert? hinsert
  refine { h with
    chains := ?_
    sink := ?_
    job := fun _ hjob' => by contradiction
    bounded := ⟨h.bounded.chained⟩ }
  . intro c
    by_cases hc : c = a.chain
    . subst hc
      have hkept : (g.push { a with createdAt := now }).kept a.chain
          = g.kept a.chain ++ [{ a with createdAt := now }] := by
        simp [Histories.push, AuditAnchor.chain]
      rw [hkept]
      exact ChainOk.push (a := { a with createdAt := now }) (h.chains a.chain) hstored hrows
        rfl rfl rfl
    . have hkept : (g.push { a with createdAt := now }).kept c = g.kept c := by
        exact Function.update_of_ne hc _ _
      rw [hkept]
      refine (h.chains c).congr rfl rfl ?_ rfl
      unfold DB.chainAnchors
      rw [hrows, filter_append]
      have : ¬AuditAnchor.chain { a with createdAt := now } = c := fun heq => hc heq.symm
      simp [this]
  . intro records hsink c
    exact (h.sink records hsink c).push (hrecorded records hsink) (hwidest records hsink) ha.fromSeq_eq

end Anchorer

section Pruner

structure Refloors (g g' : Histories) : Prop where
  entries : g'.entries = g.entries
  anchors : ∀ c, g'.anchors c = g.anchors c

theorem Refloors.anchored {g' : Histories} (h : Refloors g g') (c : Chain) : g'.anchored c = g.anchored c := by
  rw [Histories.anchored, Histories.anchored, h.anchors]

variable {priv : PrivateKey}

theorem pruneHeadBefore_ok {acc : DB × List PruneResult} (cutoff : Int) (head : ChainHead)
    (hpriv : priv ∈ cfg.signers) (h : ∀ c, ChainOk cfg acc.1 c (g.entries c) (g.cut c) (g.kept c)) :
    (pruneHeadBefore cfg.crypto priv cutoff acc head).1.pending = acc.1.pending
      ∧ ∃ g', Refloors g g' ∧ ∀ c, ChainOk cfg (pruneHeadBefore cfg.crypto priv cutoff acc head).1 c
          (g'.entries c) (g'.cut c) (g'.kept c) := by
  unfold pruneHeadBefore
  cases hboundary : boundaryAnchor? acc.1 head.chain cutoff with
  | none => exact ⟨rfl, g, ⟨rfl, fun _ => rfl⟩, h⟩
  | some anchor =>
    have hmem := Table.mem_of_head?_orderByDesc _ hboundary
    rw [mem_filter] at hmem
    have hanchor := (h head.chain).mem_anchors.mp hmem.1
    rcases (h head.chain).pruneChain_self priv hpriv hanchor with ⟨cut', kept', happend, hself⟩
    constructor
    . rcases pruneChain_cases priv cfg.crypto acc.1 head.chain anchor.toSeq with hdb | ⟨_, _, hdb⟩
      . exact congrArg DB.pending hdb
      . exact (congrArg DB.pending hdb).trans rfl
    . refine ⟨{ g with
        cut := Function.update g.cut head.chain cut'
        kept := Function.update g.kept head.chain kept' }, ⟨rfl, ?_⟩, ?_⟩
      . intro c
        by_cases hc : c = head.chain
        . subst hc
          simpa [anchors] using happend
        . simp [anchors, hc]
      . intro c
        by_cases hc : c = head.chain
        . subst hc
          simpa using hself
        . simp only [Function.update_of_ne hc]
          exact (h c).pruneChain_of_ne priv (fun heq => hc heq.symm) _

theorem foldl_pruneHeadBefore_ok (cutoff : Int) (heads : List ChainHead) (acc : DB × List PruneResult)
    (hpriv : priv ∈ cfg.signers) (h : ∀ c, ChainOk cfg acc.1 c (g.entries c) (g.cut c) (g.kept c)) :
    (heads.foldl (pruneHeadBefore cfg.crypto priv cutoff) acc).1.pending = acc.1.pending
      ∧ ∃ g', Refloors g g' ∧ ∀ c, ChainOk cfg (heads.foldl (pruneHeadBefore cfg.crypto priv cutoff) acc).1 c
          (g'.entries c) (g'.cut c) (g'.kept c) := by
  induction heads generalizing acc g with
  | nil => exact ⟨rfl, g, ⟨rfl, fun _ => rfl⟩, h⟩
  | cons head heads ih =>
    rcases pruneHeadBefore_ok cutoff head hpriv h with ⟨hpending, g1, hre, h1⟩
    rcases ih _ h1 with ⟨hpending', g', hre', h'⟩
    exact ⟨hpending'.trans hpending, g', ⟨hre'.entries.trans hre.entries,
      fun c => (hre'.anchors c).trans (hre.anchors c)⟩, h'⟩

theorem JobOk.refloor {g' : Histories} (hre : Refloors g g') {sink : Option (List AnchorRecord)}
    {job : AnchorJob} (h : JobOk cfg g sink job) : JobOk cfg g' sink job := by
  have hnext : ∀ a, NextAnchor cfg g sink a → NextAnchor cfg g' sink a := by
    intro a ha
    constructor
    . rw [hre.entries, hre.anchored, hre.anchors]
      exact ha.anchors
    . unfold Widest
      rw [hre.anchored]
      exact ha.widest
  cases job with
  | readLast =>
    simp only [JobOk, hre.anchored]
    exact h
  | readEntries =>
    simp only [JobOk, Widest, hre.anchored, hre.entries]
    exact h
  | signed a => exact hnext a h
  | put a => exact ⟨hnext a h.1, h.2⟩

theorem Honest.prune {cutoff : Int} {done : Nat} (h : Honest cfg s g)
    (hstep : step cfg s (.prune priv cutoff done) = some s') : ∃ g', Honest cfg s' g' ∧ Refloors g g' := by
  simp only [step] at hstep
  split at hstep
  . next hpriv =>
    cases hstep
    rcases foldl_pruneHeadBefore_ok cutoff (s.db.heads.rows.take done) (s.db, []) hpriv h.chains with ⟨hpending, g',
        hre, hchains⟩
    refine ⟨g', { h with chains := hchains, sink := ?_, job := ?_, signed := ?_, bounded := ?_ }, hre⟩
    . intro records hsink c
      have hinv := h.sink records hsink c
      constructor
      . rw [hre.anchors]
        exact hinv.stored
      . rw [hre.anchors, hre.anchored, hre.entries]
        exact hinv.explained
    . intro job hjob
      exact (h.job job hjob).refloor hre
    . intro msg hmsg
      have := h.signed msg hmsg
      unfold SignedOk at this ⊢
      rw [hre.entries]
      exact this
    . rcases h.bounded.chained with ⟨n, hn, hle⟩
      refine ⟨n, ?_, ?_⟩
      . rw [hre.entries]
        exact hn
      . unfold pruneChainsBefore
        rw [hpending]
        exact hle
  . contradiction

end Pruner

structure Grows (g g' : Histories) : Prop where
  entries : ∀ c, g.entries c <+: g'.entries c
  floor_le : ∀ c, stopOf 0 (g'.cut c) ≤ (g.entries c).length

theorem Honest.grows_of_cut_eq (h : Honest cfg s g) {g' : Histories} (hentries : ∀ c, g.entries c <+: g'.entries c)
    (hcut : g'.cut = g.cut) : Grows g g' := by
  refine ⟨hentries, ?_⟩
  intro c
  rw [hcut]
  exact (h.chains c).floor_le

theorem Honest.step {a : Action} (h : Honest cfg s g) (hstep : step cfg s a = some s') :
    ∃ g', Honest cfg s' g' ∧ Grows g g' := by
  have hrefl : Grows g g := h.grows_of_cut_eq (fun _ => prefix_refl _) rfl
  cases a with
  | capture => exact ⟨g, h.capture hstep, hrefl⟩
  | processBatch =>
    rcases h.processBatch hstep with ⟨g', h', hext⟩
    exact ⟨g', h', h.grows_of_cut_eq hext.entries hext.cut⟩
  | anchorReadLast => exact ⟨g, h.anchorReadLast hstep, hrefl⟩
  | anchorReadEntries => exact ⟨g, h.anchorReadEntries hstep, hrefl⟩
  | anchorSign => exact ⟨g, h.anchorSign hstep, hrefl⟩
  | anchorPut => exact ⟨g, h.anchorPut hstep, hrefl⟩
  | anchorCreate =>
    simp only [Audit.step, stepAnchorCreate] at hstep
    split at hstep
    . next a hjob =>
      rcases h.job _ hjob with ⟨⟨hanchors, hwidest⟩, hrecorded⟩
      split at hstep
      . split at hstep
        . cases hstep
          exact ⟨g, h.dropJob, hrefl⟩
        . next anchors hinsert =>
          cases hstep
          exact ⟨_, h.push hanchors hrecorded hwidest hinsert, h.grows_of_cut_eq (fun _ => prefix_refl _) rfl⟩
      . cases hstep
        exact ⟨g, h.dropJob, hrefl⟩
    . contradiction
  | anchorAbort =>
    cases hstep
    exact ⟨g, h.dropJob, hrefl⟩
  | prune =>
    rcases h.prune hstep with ⟨g', h', hre⟩
    refine ⟨g', h', fun c => by rw [hre.entries], ?_⟩
    intro c
    rw [← hre.entries]
    exact (h'.chains c).floor_le

theorem exists_honest {allowed : State → Action → Prop} {withSink : Bool} {acts : List Action}
    (run : Run (Audit.step cfg) allowed (.init withSink) acts s) : ∃ g, Honest cfg s g := by
  apply run.invariant (I := fun s => ∃ g, Honest cfg s g)
  . exact ⟨.init, honest_init cfg withSink⟩
  rintro s a s' ⟨g, h⟩ _ hstep
  rcases h.step hstep with ⟨g', h', _⟩
  exact ⟨g', h'⟩

theorem step_checkpoints {a : Action} (ha : a.appends = true) (h : Audit.step cfg s a = some s') :
    s'.db.checkpoints = s.db.checkpoints := by
  cases a with
  | prune => contradiction
  | processBatch =>
    simp only [Audit.step] at h
    split at h
    . next db n hbatch =>
      split at h
      . cases h
        apply processBatch_invariant (I := fun db => db.checkpoints = s.db.checkpoints) rfl _ hbatch
        intro db1 p db2 hdb1 _ hchain
        rcases chainAndDelete_eq_some hchain with ⟨db3, hone, rfl, _⟩
        rcases chainOne_eq_some hone with ⟨_, _, _, _, _, _, _, hcheckpoints, _⟩
        exact hcheckpoints.trans hdb1
      . cases h
        rfl
    . cases h
      rfl
  | _ =>
    simp only [Audit.step, stepAnchorSign, stepAnchorPut, stepAnchorCreate] at h
    repeat' split at h
    all_goals first | contradiction | (cases h; rfl)

theorem floor_eq_zero {withSink : Bool} {acts : List Action}
    (run : Run (Audit.step cfg) (fun _ a => a.appends = true) (.init withSink) acts s) {g : Histories}
    (h : Honest cfg s g) (c : Chain) : stopOf 0 (g.cut c) = 0 := by
  have hcheckpoints : s.db.checkpoints = DB.empty.checkpoints :=
    run.invariant (I := fun s => s.db.checkpoints = DB.empty.checkpoints) rfl
      (fun _ _ _ hs ha hstep => (step_checkpoints ha hstep).trans hs)
  have hnone : s.db.checkpoints.find? c = none := by
    rw [hcheckpoints]
    rfl
  have := (h.chains c).checkpoint
  rw [hnone] at this
  exact this

end Mxid.Audit
