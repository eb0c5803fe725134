import Mxid.Audit.Lemmas.HonestRun

namespace Mxid.Audit

open Int64

variable {J : Type} {cfg : Config J} {s : State} {g : Histories} {keys : KeyRegistry} {c : Chain}

theorem lastSeq_headOf (c : Chain) (w : List AuditEntry) :
    ((headOf c w).map ChainHead.lastSeq).getD 0 = ofNat w.length := by
  unfold headOf
  cases hlast : w.getLast? with
  | none =>
    rw [List.getLast?_eq_none_iff.mp hlast]
    rfl
  | some => rfl

theorem Honest.sinkOk_iff (h : Honest cfg s g) (hkeys : Registered cfg keys)
    {records : List AnchorRecord} (hsink : s.sink = some records) :
    SinkOk cfg.crypto s.db records keys c (ofNat (stopOf 0 (g.cut c) + 1))
      ↔
    ∀ r ∈ records, r.chain = c → r.toSeq ≤ lastAnchoredTo s.db c := by
  have hchain := h.chains c
  have hlt := hchain.length_lt
  have hfloor := hchain.floor_le
  have hanchored : g.anchored c ≤ (g.entries c).length := hchain.anchored_le
  have hlast : lastAnchoredTo s.db c = ofNat (g.anchored c) := hchain.lastAnchoredTo_eq
  rw [hlast]
  constructor
  . intro hok r hr hrchain
    have hle := hok.toSeq_le hr hrchain
    rw [clampSeq_ofNat_add_one (by omega), hchain.anchorsFrom_floor,
      (tiled_append.mp hchain.tiled).2.walkEnd_through, ← stopOf_append] at hle
    . exact hle
    . exact ofNat_add_one_sub_one _
  . intro hcond
    have hinv := h.sink records hsink c
    refine ⟨hchain.walkOk hkeys, ?_, ?_⟩
    . intro a ha
      have hrecorded := hinv.stored a (hchain.mem_anchors.mp ha)
      rw [sinkMatches_iff]
      unfold Recorded at hrecorded
      rw [(mem_chainAnchors.mp ha).2] at hrecorded
      exact hrecorded
    . intro r hr
      have hmem := (of_lastRecord?_eq_some (mem_sinkIndex_iff.mp hr)).1
      simp only [List.mem_filter, decide_eq_true_eq] at hmem
      rw [sinkCovered_iff]
      rcases hinv.explained r hmem.1 hmem.2 with ⟨a, ha, hfrom, hle⟩ | ⟨_, m, hm, hle, hto⟩
      . rcases hchain.tiled.bounds ha with ⟨_, hato, hpos, hstop, _⟩
        have hstop' : a.stop ≤ g.anchored c := hstop
        refine Or.inr ⟨a, hchain.mem_anchors.mpr ha, hfrom, ?_, hle⟩
        have : ofNat 0 < a.toSeq := by
          rw [hato, ofNat_lt_ofNat_iff (by omega) (by omega)]
          exact hpos
        exact this
      . have := hcond r hmem.1 hmem.2
        rw [hto, ofNat_le_ofNat_iff (by omega) (by omega)] at this
        omega

theorem Honest.verifyAnchorsWithSinkFrom (h : Honest cfg s g) (hkeys : Registered cfg keys) :
    (∃ res, verifyAnchorsWithSinkFrom cfg.crypto s.db s.sink keys c (ofNat (stopOf 0 (g.cut c) + 1)) = some res
        ∧ res.ok = true)
      ↔
    ∀ records, s.sink = some records → ∀ r ∈ records, r.chain = c → r.toSeq ≤ lastAnchoredTo s.db c := by
  cases hsink : s.sink with
  | none =>
    rcases (h.chains c).verifyAnchorsFrom hkeys with ⟨res, hres, hok⟩
    constructor
    . intro _ records hrecords
      contradiction
    . intro _
      refine ⟨res, ?_, hok⟩
      unfold Audit.verifyAnchorsWithSinkFrom
      rw [hres]
      simp [hok]
  | some records =>
    have hiff := h.sinkOk_iff (c := c) hkeys hsink
    constructor
    . rintro ⟨res, hres⟩ records' hrecords'
      cases hrecords'
      exact hiff.mp (verifyAnchorsWithSinkFrom_eq_ok_iff.mp hres).1
    . intro hcond
      exact ⟨_, verifyAnchorsWithSinkFrom_eq_ok_iff.mpr ⟨hiff.mpr (hcond records rfl), rfl⟩⟩

/--
In every state that an honest ledger reaches, the chains and their anchors verify. The comparison with the sink accepts
exactly if no record is outstanding, i.e. ends behind the last stored anchor.
-/
theorem run_verifies {J : Type} (cfg : Config J) (keys : KeyRegistry) (withSink : Bool)
    (acts : List Action) (s : State)
    (run : Run (step cfg) (fun _ _ => True) (.init withSink) acts s)
    (registered : ∀ priv ∈ cfg.signers,
      keys.keyFor (keyIDForPublic cfg.crypto (cfg.crypto.ed25519Public priv))
        = some (cfg.crypto.ed25519Public priv))
    (verify_sign : ∀ priv ∈ cfg.signers, ∀ msg,
      cfg.crypto.ed25519Verify (cfg.crypto.ed25519Public priv) msg
        (cfg.crypto.ed25519Sign priv msg) = true)
    (c : Chain) :
    ∃ cp, loadCheckpoint cfg.crypto s.db keys c = .ok cp
      ∧ (∃ res, verifyChainFrom cfg.crypto s.db cfg.chainer.key c cp = some res ∧ res.ok = true
          ∧ res.verifiedThrough = ((s.db.heads.find? c).map ChainHead.lastSeq).getD 0)
      ∧ (∃ res, verifyAnchorsFrom cfg.crypto s.db keys c cp.seq = some res ∧ res.ok = true)
      ∧ ((∃ res, verifyAnchorsWithSinkFrom cfg.crypto s.db s.sink keys c cp.seq = some res
            ∧ res.ok = true)
          ↔
        ∀ records, s.sink = some records → ∀ r ∈ records, r.chain = c →
          r.toSeq ≤ lastAnchoredTo s.db c) := by
  rcases exists_honest run with ⟨g, h⟩
  have hchain := h.chains c
  have hkeys : Registered cfg keys := ⟨registered, verify_sign⟩
  refine ⟨_, hchain.loadCheckpoint hkeys, ?_, hchain.verifyAnchorsFrom hkeys, h.verifyAnchorsWithSinkFrom hkeys⟩
  rw [hchain.head, lastSeq_headOf]
  exact hchain.verifyChainFrom

/--
A cut in the middle of the range of an anchor, where the entry still is, is what an anchor does not survive.
-/
def DB.alignedCut (db : DB) (c : Chain) (cutoffSeq : Int64) : Prop :=
  cutoffSeq < 1 ∨ lastAnchoredTo db c ≤ cutoffSeq ∨ db.entries.find? (c, cutoffSeq) = none
    ∨ ∃ a ∈ db.chainAnchors c, a.toSeq = cutoffSeq

section Prune

variable {db : DB} {w : List AuditEntry} {cut kept : List AuditAnchor} {priv : PrivateKey} {cutoffSeq : Int64}

theorem seq_of_loadCheckpoint_prunedDB {C : Crypto} {through : Int64} {boundary : AuditEntry} {cp : Checkpoint}
    (h : loadCheckpoint C (prunedDB priv C db c through boundary) keys c = .ok cp) : cp.seq = through + 1 := by
  have hself := Table.find?_upsert_self db.checkpoints (signedCheckpoint C priv c through boundary)
  have hchain : (signedCheckpoint C priv c through boundary).chain = c := rfl
  rw [hchain] at hself
  simp only [loadCheckpoint, prunedDB, hself] at h
  split at h
  . cases h
  split at h
  . cases h
    rfl
  . cases h

section

variable (h : ChainOk cfg db c w cut kept)

include h

theorem ChainOk.lastAnchoredTo_eq_toSeq {b : AuditAnchor} (hlast : (cut ++ kept).getLast? = some b) :
    lastAnchoredTo db c = b.toSeq := by
  rw [h.lastAnchoredTo_eq, stopOf, hlast, (h.tiled.bounds (List.mem_of_getLast? hlast)).2.1]
  rfl

theorem ChainOk.pruneChain_aligned (hpriv : priv ∈ cfg.signers) (hcut : db.alignedCut c cutoffSeq) :
    ∃ cut' kept', ChainOk cfg (pruneChain cfg.crypto priv db c cutoffSeq).1 c w cut' kept' := by
  cases hlast : (cut ++ kept).getLast? with
  | none =>
    unfold pruneChain
    rw [h.lastAnchor?_eq, hlast]
    exact ⟨cut, kept, h⟩
  | some b =>
    have hb := List.mem_of_getLast? hlast
    rw [DB.alignedCut, h.lastAnchoredTo_eq_toSeq hlast] at hcut
    by_cases hle : b.toSeq ≤ cutoffSeq
    . -- the same as cutting at the last anchor
      rcases h.pruneChain_self priv hpriv hb with ⟨cut', kept', _, hself⟩
      refine ⟨cut', kept', ?_⟩
      unfold pruneChain at hself ⊢
      rw [h.lastAnchor?_eq, hlast] at hself ⊢
      dsimp only at hself ⊢
      rw [ite_self] at hself
      rw [if_neg (not_lt.mpr hle)]
      exact hself
    by_cases hanchor : ∃ a ∈ db.chainAnchors c, a.toSeq = cutoffSeq
    . rcases hanchor with ⟨a, ha, rfl⟩
      rcases h.pruneChain_self priv hpriv (h.mem_anchors.mp ha) with ⟨cut', kept', _, hself⟩
      exact ⟨cut', kept', hself⟩
    unfold pruneChain
    rw [h.lastAnchor?_eq, hlast]
    dsimp only
    rw [if_pos (not_le.mp hle)]
    rcases hcut with hlow | hhigh | hgone | haligned
    . rw [if_pos hlow]
      exact ⟨cut, kept, h⟩
    . contradiction
    . rw [hgone]
      split
      . exact ⟨cut, kept, h⟩
      . exact ⟨cut, kept, h⟩
    . contradiction

theorem ChainOk.pruneChain_inside {boundary : AuditEntry} (hlow : ¬cutoffSeq < 1)
    (hlast : cutoffSeq < lastAnchoredTo db c) (hstored : db.entries.find? (c, cutoffSeq) = some boundary) :
    (pruneChain cfg.crypto priv db c cutoffSeq).1 = prunedDB priv cfg.crypto db c cutoffSeq boundary := by
  unfold pruneChain
  rw [h.lastAnchor?_eq]
  cases hb : (cut ++ kept).getLast? with
  | none =>
    rw [h.lastAnchoredTo_eq, stopOf, hb] at hlast
    exact absurd (hlast.trans (by decide)) hlow
  | some b =>
    rw [h.lastAnchoredTo_eq_toSeq hb] at hlast
    dsimp only
    rw [if_pos hlast, if_neg hlow, hstored]
    rfl

/--
An anchor across the cut is selected by its end and starts before the new floor.
-/
theorem ChainOk.alignedCut_of_verifies {cp : Checkpoint} {res : AnchorVerifyResult}
    (hcp : Audit.loadCheckpoint cfg.crypto (pruneChain cfg.crypto priv db c cutoffSeq).1 keys c = .ok cp)
    (hres : Audit.verifyAnchorsFrom cfg.crypto (pruneChain cfg.crypto priv db c cutoffSeq).1 keys c cp.seq = some res
      ∧ res.ok = true) : db.alignedCut c cutoffSeq := by
  by_contra hcut
  simp only [DB.alignedCut, not_or, not_le, not_exists, not_and] at hcut
  rcases hcut with ⟨hlow, hlast, hstored, hstops⟩
  rcases Option.ne_none_iff_exists'.mp hstored with ⟨boundary, hboundary⟩
  rw [h.pruneChain_inside hlow hlast hboundary] at hcp hres
  have hlt := h.length_lt
  rcases db.entries.find?_eq_some_iff.mp hboundary with ⟨hmem, hkey⟩
  rw [Prod.mk.injEq] at hkey
  rcases List.getElem_of_mem (List.mem_of_mem_drop (h.entries.mem_iff.mp (mem_chainEntries.mpr ⟨hmem, hkey.1⟩)))
    with ⟨i, hi, hget⟩
  have hcutoff : cutoffSeq = ofNat (i + 1) := by
    have hseq : boundary.seq = cutoffSeq := hkey.2
    rw [← hseq, ← hget, h.linked.seq_getElem i hi, Int64.add_comm, Int64.ofNat_add_one]
  subst hcutoff
  have hfloor := seq_of_loadCheckpoint_prunedDB hcp
  rw [ofNat_add_one] at hfloor
  have hanchored := h.tiled.stopOf_le (Nat.zero_le _)
  rw [h.lastAnchoredTo_eq, ofNat_lt_ofNat_iff (by omega) (by omega)] at hlast
  rcases h.tiled.exists_across (Nat.succ_pos i) hlast
    (fun a ha hstop => hstops a (h.mem_anchors.mpr ha) (by rw [(h.tiled.bounds ha).2.1, hstop]))
    with ⟨a, ha, hacross, k, hk, hfrom⟩
  have hok := ((verifyAnchorsFrom_eq_ok_iff _ _ _ _).mp hres).1
  rw [hfloor, clampSeq_ofNat_add_one (by omega)] at hok
  have hselected : a ∈ anchorsFrom (prunedDB priv cfg.crypto db c (ofNat (i + 1)) boundary) c
      (ofNat (i + 1 + 1)) := by
    rcases h.tiled.bounds ha with ⟨_, hto, _, hstop, _⟩
    refine (Table.mem_orderBy _).mpr (List.mem_filter.mpr ⟨h.mem_anchors.mpr ha, ?_⟩)
    rw [hto, decide_eq_true_eq, ofNat_le_ofNat_iff (by omega) (by omega)]
    omega
  have hle := WalkOk.start_le _ _ _ _ hok hselected
  rw [hfrom, ofNat_le_ofNat_iff (by omega) (by omega)] at hle
  omega

end

theorem pruneChain_verifies {withSink : Bool} {acts : List Action}
    (run : Run (step cfg) (fun _ _ => True) (.init withSink) acts s) (hkeys : Registered cfg keys)
    (hpriv : priv ∈ cfg.signers) :
    let db := (pruneChain cfg.crypto priv s.db c cutoffSeq).1
    (∃ cp, loadCheckpoint cfg.crypto db keys c = .ok cp
      ∧ (∃ res, verifyChainFrom cfg.crypto db cfg.chainer.key c cp = some res ∧ res.ok = true
          ∧ res.verifiedThrough = ((db.heads.find? c).map ChainHead.lastSeq).getD 0)
      ∧ ∃ res, verifyAnchorsFrom cfg.crypto db keys c cp.seq = some res ∧ res.ok = true)
      ↔
    s.db.alignedCut c cutoffSeq := by
  intro db
  rcases exists_honest run with ⟨g, h⟩
  constructor
  . rintro ⟨cp, hcp, _, res, hres⟩
    exact (h.chains c).alignedCut_of_verifies hcp hres
  . intro hcut
    rcases (h.chains c).pruneChain_aligned hpriv hcut with ⟨cut', kept', hchain⟩
    refine ⟨_, hchain.loadCheckpoint hkeys, ?_, hchain.verifyAnchorsFrom hkeys⟩
    rw [hchain.head, lastSeq_headOf]
    exact hchain.verifyChainFrom

end Prune

namespace LostCreate

set_option maxRecDepth 4000

def config : Config Unit where
  crypto := digestCrypto (fun _ => true)
  encoding :=
    { unmarshalMap := fun _ => some ()
      marshalPayload := fun p => some (Bytes.ascii "\x7b\"event_type\":\"" ++ p.eventType ++ Bytes.ascii "\"\x7d")
      formatRFC3339 := fun _ => Bytes.ascii "2026-01-01T00:00:00Z" }
  chainer := { key := [1, 2, 3], keyID := Bytes.ascii "default" }
  signers := [[7]]

def registry : KeyRegistry :=
  newKeyRegistry config.crypto (config.signers.map config.crypto.ed25519Public)

def chain : Chain := (1, .data)

def event : AuditPending where
  id := 4194304
  tenantID := chain.1
  chainClass := chain.2
  actorID := 5
  actorType := Bytes.ascii "user"
  eventType := Bytes.ascii "user.create"
  resourceType := []
  resourceID := 0
  before := []
  after := []
  ip := []
  userAgent := []
  sessionID := []
  detail := Bytes.ascii "\x7b\x7d"
  occurredAt := 0
  actorName := none
  resourceName := none
  geoCity := none
  geoCountry := none

def chained : List Action :=
  [.capture event, .processBatch 100 true]

def anchorUpTo (commit : Bool) : List Action :=
  [.anchorReadLast chain, .anchorReadEntries, .anchorSign [7], .anchorPut (some []) 10,
    .anchorCreate commit 11]

abbrev exec (acts : List Action) : Option State :=
  Run.exec (step config) (fun _ _ => True) (.init true) acts

theorem exec_isSome (commit : Bool) : (exec (chained ++ anchorUpTo commit)).isSome = true := by
  cases commit <;> decide

def final (commit : Bool) : State :=
  (exec (chained ++ anchorUpTo commit)).get (exec_isSome commit)

theorem run (commit : Bool) :
    Run (step config) (fun _ _ => True) (.init true) (chained ++ anchorUpTo commit) (final commit) :=
  Run.of_isSome _

theorem registered : ∀ priv ∈ config.signers,
    registry.keyFor (keyIDForPublic config.crypto (config.crypto.ed25519Public priv))
      = some (config.crypto.ed25519Public priv) := by
  decide

theorem verify_sign : ∀ priv ∈ config.signers, ∀ msg,
    config.crypto.ed25519Verify (config.crypto.ed25519Public priv) msg
      (config.crypto.ed25519Sign priv msg) = true := by
  intro priv _ msg
  simp [config, digestCrypto]

theorem sink_mismatch :
    Run (step config) (fun _ _ => True) (.init true) (chained ++ anchorUpTo false) (final false)
      ∧ (∀ priv ∈ config.signers,
          registry.keyFor (keyIDForPublic config.crypto (config.crypto.ed25519Public priv))
            = some (config.crypto.ed25519Public priv))
      ∧ (∀ priv ∈ config.signers, ∀ msg,
          config.crypto.ed25519Verify (config.crypto.ed25519Public priv) msg
            (config.crypto.ed25519Sign priv msg) = true)
      ∧ loadCheckpoint config.crypto (final false).db registry chain = .ok genesisCheckpoint
      ∧ verifyAnchorsWithSinkFrom config.crypto (final false).db (final false).sink registry chain
          genesisCheckpoint.seq = some (.fail 0 1 .sinkMismatch) :=
  ⟨run false, registered, verify_sign, by decide, by decide⟩

theorem sink_accepts :
    ∃ cp, loadCheckpoint config.crypto (final true).db registry chain = .ok cp
      ∧ ∃ res, verifyAnchorsWithSinkFrom config.crypto (final true).db (final true).sink registry chain
          cp.seq = some res ∧ res.ok = true := by
  rcases run_verifies config registry true _ _ (run true) registered verify_sign chain
    with ⟨cp, hcp, _, _, hiff⟩
  refine ⟨cp, hcp, hiff.mpr ?_⟩
  intro records hrecords
  have hsink : (final true).sink = some (((final true).sink).getD []) := by decide
  cases hrecords
  decide

def twoEvents : List Action :=
  .capture { event with id := 4194305 } :: chained ++ anchorUpTo true

theorem twoEvents_isSome : (exec twoEvents).isSome = true := by
  decide

def anchoredTwo : DB := ((exec twoEvents).get twoEvents_isSome).db

theorem pruned_inside_anchor :
    Run (step config) (fun _ _ => True) (.init true) twoEvents ((exec twoEvents).get twoEvents_isSome)
      ∧ Registered config registry ∧ [7] ∈ config.signers
      ∧ ∃ cp, loadCheckpoint config.crypto (pruneChain config.crypto [7] anchoredTwo chain 1).1 registry chain = .ok cp
      ∧ verifyAnchorsFrom config.crypto (pruneChain config.crypto [7] anchoredTwo chain 1).1 registry chain cp.seq
          = some (.fail 1 1 .anchorGap) :=
  ⟨Run.of_isSome _, ⟨registered, verify_sign⟩, by decide, _, rfl, by decide⟩

theorem pruned_at_anchor :
    ∃ cp, loadCheckpoint config.crypto (pruneChain config.crypto [7] anchoredTwo chain 2).1 registry chain = .ok cp
      ∧ ∃ res,
        verifyAnchorsFrom config.crypto (pruneChain config.crypto [7] anchoredTwo chain 2).1 registry chain cp.seq
          = some res ∧ res.ok = true := by
  have haligned : anchoredTwo.alignedCut chain 2 := .inr (.inl (by decide))
  rcases (pruneChain_verifies (Run.of_isSome twoEvents_isSome) ⟨registered, verify_sign⟩
    (show [7] ∈ config.signers by decide)).mpr haligned with ⟨cp, hcp, _, hanchors⟩
  exact ⟨cp, hcp, hanchors⟩

end LostCreate

open List

/-- What is pruned was anchored, what is anchored was chained, and no entry is missing. -/
theorem entries_reach_head {withSink : Bool} {acts : List Action}
    (run : Run (step cfg) (fun _ _ => True) (.init withSink) acts s) (c : Chain) :
    ∃ floor anchored last, floor ≤ anchored ∧ anchored ≤ last ∧ last < 2 ^ 63
      ∧ ((s.db.checkpoints.find? c).map AuditCheckpoint.prunedThroughSeq).getD 0 = ofNat floor
      ∧ lastAnchoredTo s.db c = ofNat anchored
      ∧ ((s.db.heads.find? c).map ChainHead.lastSeq).getD 0 = ofNat last
      ∧ (sortedEntries s.db c).map AuditEntry.seq = (range' (floor + 1) (last - floor)).map ofNat := by
  rcases exists_honest run with ⟨g, h⟩
  have hchain := h.chains c
  have hlt := hchain.length_lt
  refine ⟨stopOf 0 (g.cut c), _, (g.entries c).length, ?_, hchain.tiled.stopOf_le (Nat.zero_le _), by omega, ?_,
    hchain.lastAnchoredTo_eq, ?_, ?_⟩
  . rw [stopOf_append]
    exact (tiled_append.mp hchain.tiled).2.le_stopOf
  . have hcheckpoint := hchain.checkpoint
    cases hfind : s.db.checkpoints.find? c with
    | none =>
      rw [hfind] at hcheckpoint
      exact congrArg ofNat hcheckpoint.symm
    | some =>
      rw [hfind] at hcheckpoint
      exact hcheckpoint.1
  . rw [hchain.head, lastSeq_headOf]
  have hsorted : sortedEntries s.db c = (g.entries c).drop (stopOf 0 (g.cut c)) :=
    Table.orderBy_eq_of_perm _ hchain.entries (hchain.linked.pairwise_seq (by omega)).drop
  rw [hsorted]
  apply ext_getElem
  . simp
  . intro i hi _
    rw [length_map, length_drop] at hi
    rw [getElem_map, getElem_drop, hchain.linked.seq_getElem _ (by omega), getElem_map, getElem_range',
      Int64.add_comm, Int64.ofNat_add_one]
    congr 1
    omega

theorem LostCreate.entries_numbered :
    ∃ first n, (sortedEntries (final true).db chain).map AuditEntry.seq = (range' first n).map ofNat := by
  rcases entries_reach_head (run true) chain with ⟨_, _, _, _, _, _, _, _, _, hseqs⟩
  exact ⟨_, _, hseqs⟩

end Mxid.Audit
