import Mxid.Audit.Impl.Verify

/-!
This module contains the shape of an intact chain, which is what `verifyChainFrom` accepts.
-/

namespace Mxid.Audit

open List AuditEntry Keyset

variable (C : Crypto) (key : Bytes)

def Linked : (prev : Bytes) → (seq : Int64) → List AuditEntry → Prop
  | _, _, [] => True
  | prev, seq, e :: es =>
    e.seq = seq ∧ e.prevHash = prev ∧ e.entryHash = computeEntryHash C key seq prev e.payload
      ∧ Linked e.entryHash (seq + 1) es

def lastHash (prev : Bytes) (es : List AuditEntry) : Bytes :=
  (es.getLast?.map entryHash).getD prev

@[simp]
theorem lastHash_nil (prev : Bytes) : lastHash prev [] = prev := rfl

@[simp]
theorem lastHash_cons (prev : Bytes) (e : AuditEntry) (es : List AuditEntry) :
    lastHash prev (e :: es) = lastHash e.entryHash es := by
  cases h : es.getLast? <;> simp [lastHash, List.getLast?_cons, h]

@[simp]
theorem lastHash_append_singleton (prev : Bytes) (es : List AuditEntry) (e : AuditEntry) :
    lastHash prev (es ++ [e]) = e.entryHash := by
  simp [lastHash]

variable {prev : Bytes} {seq : Int64} {es : List AuditEntry} {e : AuditEntry} {st : Bytes × Int64}
variable {res : VerifyResult} {db : DB} {c : Chain}

theorem linked_append {es' : List AuditEntry} :
    Linked C key prev seq (es ++ es')
      ↔
    Linked C key prev seq es ∧ Linked C key (lastHash prev es) (seq + Int64.ofNat es.length) es' := by
  induction es generalizing prev seq with
  | nil => simp [Linked]
  | cons e es ih =>
    simp only [cons_append, Linked, ih, lastHash_cons, length_cons, Int64.add_one_add_ofNat]
    tauto

theorem verifyEntry_eq_ok_iff :
    verifyEntry C key (prev, seq) e = .ok st
      ↔
    (e.seq = seq ∧ e.prevHash = prev ∧ e.entryHash = computeEntryHash C key seq prev e.payload)
      ∧ st = (e.entryHash, seq + 1) := by
  unfold verifyEntry
  dsimp only
  split
  . simp_all
  split
  . simp_all
  split
  . next hseq _ hhash =>
    simp only [ne_eq, not_not] at hseq
    subst hseq
    simp only [reduceCtorEq, false_iff, not_and]
    rintro ⟨_, _, h⟩
    exact absurd h.symm hhash
  . simp_all [eq_comm]

theorem ok_of_verifyEntry_eq_error (h : verifyEntry C key st e = .error res) : res.ok = false := by
  unfold verifyEntry at h
  dsimp only at h
  split at h
  . cases h
    rfl
  split at h
  . cases h
    rfl
  . split at h
    . cases h
      rfl
    . cases h

theorem foldlM_verifyEntry_eq_ok_iff :
    es.foldlM (verifyEntry C key) (prev, seq) = .ok st
      ↔
    Linked C key prev seq es ∧ st = (lastHash prev es, seq + Int64.ofNat es.length) := by
  induction es generalizing prev seq with
  | nil => simp [Linked, pure, Except.pure, eq_comm]
  | cons e es ih =>
    rw [foldlM_cons]
    cases hstep : verifyEntry C key (prev, seq) e with
    | error =>
      have : ¬(e.seq = seq ∧ e.prevHash = prev ∧ e.entryHash = computeEntryHash C key seq prev e.payload) := by
        intro h
        have hok : verifyEntry C key (prev, seq) e = .ok (e.entryHash, seq + 1) :=
          (verifyEntry_eq_ok_iff C key).mpr ⟨h, rfl⟩
        rw [hstep] at hok
        cases hok
      simp only [Linked]
      constructor
      . intro h
        cases h
      . tauto
    | ok =>
      have h := (verifyEntry_eq_ok_iff C key).mp hstep
      rw [h.2]
      simp only [Linked, lastHash_cons, length_cons, ← Int64.add_one_add_ofNat]
      change es.foldlM (verifyEntry C key) (e.entryHash, seq + 1) = _ ↔ _
      rw [ih]
      tauto

theorem ok_of_foldlM_verifyEntry_eq_error (h : es.foldlM (verifyEntry C key) st = .error res) : res.ok = false := by
  induction es generalizing st with
  | nil => cases h
  | cons e es ih =>
    rw [foldlM_cons] at h
    cases hstep : verifyEntry C key st e with
    | error =>
      rw [hstep] at h
      cases h
      exact ok_of_verifyEntry_eq_error C key hstep
    | ok =>
      rw [hstep] at h
      exact ih h

def sortedEntries (db : DB) (c : Chain) : List AuditEntry :=
  Table.orderBy AuditEntry.seq (db.chainEntries c)

theorem mem_chainEntries : e ∈ db.chainEntries c ↔ e ∈ db.entries.rows ∧ e.chain = c := by
  simp [DB.chainEntries]

theorem mem_entriesAfter {cursor : Int64} :
    e ∈ entriesAfter db c cursor ↔ e ∈ db.entries.rows ∧ e.chain = c ∧ cursor < e.seq := by
  simp [entriesAfter, mem_chainEntries, and_assoc]

theorem mem_entriesBetween {cursor toSeq : Int64} :
    e ∈ entriesBetween db c cursor toSeq
      ↔
    e ∈ db.entries.rows ∧ e.chain = c ∧ cursor < e.seq ∧ e.seq ≤ toSeq := by
  simp [entriesBetween, mem_chainEntries, and_assoc]

variable (db c)

theorem nodup_chainEntries : (db.chainEntries c).Nodup :=
  db.entries.nodup_rows.filter _

theorem seq_inj_chainEntries : ∀ a ∈ db.chainEntries c, ∀ b ∈ db.chainEntries c, a.seq = b.seq → a = b := by
  intro a ha b hb h
  rw [mem_chainEntries] at ha hb
  apply db.entries.eq_of_key_eq ha.1 hb.1
  rw [key, key, ha.2, hb.2, h]

theorem pairwise_sortedEntries : (sortedEntries db c).Pairwise (fun a b => a.seq < b.seq) :=
  Table.pairwise_lt_orderBy _ (nodup_chainEntries db c) (seq_inj_chainEntries db c)

theorem entriesAfter_eq (cursor : Int64) :
    entriesAfter db c cursor = after AuditEntry.seq cursor (sortedEntries db c) :=
  Table.orderBy_filter _ (nodup_chainEntries db c) (seq_inj_chainEntries db c) _

theorem pairwise_entriesAfter (cursor : Int64) : (entriesAfter db c cursor).Pairwise (fun a b => a.seq < b.seq) := by
  rw [entriesAfter_eq]
  exact pairwise_after _ (pairwise_sortedEntries db c) cursor

theorem entriesBetween_eq (cursor toSeq : Int64) :
    entriesBetween db c cursor toSeq
      =
    after AuditEntry.seq cursor ((sortedEntries db c).filter (fun e => e.seq ≤ toSeq)) := by
  unfold entriesBetween Keyset.after
  rw [Table.orderBy_filter _ (nodup_chainEntries db c) (seq_inj_chainEntries db c), filter_filter]
  apply filter_congr
  simp

theorem length_after_le (cursor : Int64) (p : AuditEntry → Bool) :
    (after AuditEntry.seq cursor ((sortedEntries db c).filter p)).length ≤ db.entries.rows.length := by
  apply le_trans (length_filter_le _ _)
  apply le_trans (length_filter_le _ _)
  unfold sortedEntries
  rw [(Table.perm_orderBy _ _).length_eq]
  exact length_filter_le _ _

def leavesBetween (fromSeq toSeq : Int64) : List Bytes :=
  (entriesBetween db c (fromSeq - 1) toSeq).map entryHash

theorem rangeLeaves_eq (fromSeq toSeq : Int64) :
    rangeLeaves db c fromSeq toSeq = some (leavesBetween db c fromSeq toSeq) := by
  have hfold : ∀ (es : List AuditEntry) (acc : List Bytes),
      es.foldlM (fun leaves e => (.ok (leaves ++ [e.entryHash]) : Except Empty _)) acc
        = .ok (acc ++ es.map AuditEntry.entryHash) := by
    intro es
    induction es with
    | nil => simp [pure, Except.pure]
    | cons e es ih =>
      intro acc
      change es.foldlM _ (acc ++ [e.entryHash]) = _
      rw [ih]
      simp
  unfold rangeLeaves
  dsimp only
  rw [foldPages_eq_foldlM AuditEntry.seq
    ((pairwise_sortedEntries db c).filter (fun e => e.seq ≤ toSeq))
    (show 0 < verifyBatchSize by decide)]
  . rw [← entriesBetween_eq, hfold]
    rfl
  . intro cursor
    rw [entriesBetween_eq]
    split
    . rfl
    next h =>
    unfold Keyset.after
    rw [filter_filter, filter_eq_nil_iff.mpr]
    . simp
    . grind
  . have := length_after_le db c (fromSeq - 1) (fun e => e.seq ≤ toSeq)
    omega

variable {db c}

theorem verifyChainFromBatched_eq {batchSize : Nat} (hsize : 0 < batchSize) (db : DB) (c : Chain) (cp : Checkpoint) :
    verifyChainFromBatched C batchSize db key c cp
      =
    match (entriesAfter db c (clampSeq cp.seq - 1)).foldlM (verifyEntry C key)
        (cp.prevHash, clampSeq cp.seq) with
    | .error res => some res
    | .ok st => some (verifiedAll st) := by
  unfold verifyChainFromBatched
  dsimp only
  rw [foldPages_eq_foldlM AuditEntry.seq (pairwise_sortedEntries db c) hsize]
  . rw [← entriesAfter_eq]
    unfold clampSeq
    generalize List.foldlM (verifyEntry C key) _ _ = walk
    cases walk <;> rfl
  . intro cursor
    rw [entriesAfter_eq]
  . have := length_after_le db c ((if cp.seq < 1 then 1 else cp.seq) - 1) (fun _ => true)
    rw [filter_true] at this
    omega

theorem verifyChainFrom_eq_ok_iff {db : DB} {c : Chain} {cp : Checkpoint} {res : VerifyResult} :
    verifyChainFrom C db key c cp = some res ∧ res.ok = true
      ↔
    Linked C key cp.prevHash (clampSeq cp.seq) (entriesAfter db c (clampSeq cp.seq - 1))
      ∧ res = verifiedAll (lastHash cp.prevHash (entriesAfter db c (clampSeq cp.seq - 1)),
          clampSeq cp.seq + Int64.ofNat (entriesAfter db c (clampSeq cp.seq - 1)).length) := by
  unfold verifyChainFrom
  rw [verifyChainFromBatched_eq C key (by decide)]
  cases hfold : (entriesAfter db c (clampSeq cp.seq - 1)).foldlM (verifyEntry C key)
      (cp.prevHash, clampSeq cp.seq) with
  | error =>
    have hok := ok_of_foldlM_verifyEntry_eq_error C key hfold
    have hnot : ¬Linked C key cp.prevHash (clampSeq cp.seq) (entriesAfter db c (clampSeq cp.seq - 1)) := by
      intro h
      have := (foldlM_verifyEntry_eq_ok_iff C key).mpr ⟨h, rfl⟩
      rw [hfold] at this
      cases this
    simp only [Option.some.injEq]
    constructor
    . rintro ⟨rfl, h⟩
      rw [hok] at h
      contradiction
    . intro h
      exact absurd h.1 hnot
  | ok =>
    have h := (foldlM_verifyEntry_eq_ok_iff C key).mp hfold
    rw [h.2]
    simp only [Option.some.injEq, h.1, true_and]
    constructor
    . rintro ⟨rfl, _⟩
      rfl
    . rintro rfl
      exact ⟨rfl, rfl⟩

theorem entriesAfter_split {cursor : Int64} (he : e ∈ db.chainEntries c) (hcursor : cursor < e.seq) :
    ∃ es, entriesBetween db c cursor e.seq = es ++ [e]
      ∧ entriesAfter db c cursor = es ++ e :: entriesAfter db c e.seq := by
  rw [mem_chainEntries] at he
  obtain ⟨es, es', hsplit⟩ := append_of_mem (mem_entriesAfter.mpr ⟨he.1, he.2, hcursor⟩)
  have hsorted := pairwise_entriesAfter db c cursor
  rw [hsplit, pairwise_append, pairwise_cons] at hsorted
  have hbefore : ∀ a ∈ es, a.seq < e.seq := fun a ha => hsorted.2.2 a ha e (by simp)
  refine ⟨es, ?_, ?_⟩
  . rw [entriesBetween_eq, Keyset.after, filter_comm, ← Keyset.after, ← entriesAfter_eq, hsplit, filter_append,
      filter_cons_of_pos (by simp), filter_eq_self.mpr, filter_eq_nil_iff.mpr]
    . intro a ha
      simpa using hsorted.2.1.1 a ha
    . intro a ha
      simpa using le_of_lt (hbefore a ha)
  . rw [hsplit, entriesAfter_eq db c e.seq, ← after_after _ hcursor, ← entriesAfter_eq, hsplit]
    unfold Keyset.after
    rw [filter_append, filter_cons_of_neg (by simp), filter_eq_nil_iff.mpr, filter_eq_self.mpr, nil_append]
    . intro a ha
      simpa using hsorted.2.1.1 a ha
    . intro a ha
      simpa using le_of_lt (hbefore a ha)

theorem verifyChainFromBatched_ok_iff {batchSize : Nat} (hsize : 0 < batchSize) (cp : Checkpoint) :
    (∃ res, verifyChainFromBatched C batchSize db key c cp = some res ∧ res.ok = true)
      ↔
    ∃ st, (entriesAfter db c (clampSeq cp.seq - 1)).foldlM (verifyEntry C key) (cp.prevHash, clampSeq cp.seq)
      = .ok st := by
  rw [verifyChainFromBatched_eq C key hsize]
  cases hfold : (entriesAfter db c (clampSeq cp.seq - 1)).foldlM (verifyEntry C key) (cp.prevHash, clampSeq cp.seq) with
  | error => simp [ok_of_foldlM_verifyEntry_eq_error C key hfold]
  | ok => simp [verifiedAll]

theorem verifyChainFrom_streams_and_composes {batchSize : Nat} (hsize : 0 < batchSize) (db : DB) (c : Chain)
    (cp : Checkpoint) :
    (verifyChainFromBatched C batchSize db key c cp
        =
      match (entriesAfter db c (clampSeq cp.seq - 1)).foldlM (verifyEntry C key) (cp.prevHash, clampSeq cp.seq) with
      | .error res => some res
      | .ok st => some (verifiedAll st))
    ∧ ∀ e ∈ db.chainEntries c, clampSeq cp.seq ≤ e.seq → e.seq < Int64.maxValue →
      ((∃ res, verifyChainFromBatched C batchSize db key c cp = some res ∧ res.ok = true)
        ↔
      (∃ st, (entriesBetween db c (clampSeq cp.seq - 1) e.seq).foldlM (verifyEntry C key)
          (cp.prevHash, clampSeq cp.seq) = .ok st)
        ∧ ∃ res, verifyChainFromBatched C batchSize db key c { seq := e.seq + 1, prevHash := e.entryHash } = some res
            ∧ res.ok = true) := by
  refine ⟨verifyChainFromBatched_eq C key hsize db c cp, ?_⟩
  intro e he hle hmax
  rw [verifyChainFromBatched_ok_iff C key hsize, verifyChainFromBatched_ok_iff C key hsize]
  have hpos : 1 ≤ clampSeq cp.seq := by
    unfold clampSeq
    grind
  have hnext : clampSeq (e.seq + 1) = e.seq + 1 ∧ e.seq + 1 - 1 = e.seq := by
    unfold clampSeq
    grind
  obtain ⟨es, hbetween, hafter⟩ := entriesAfter_split he (show clampSeq cp.seq - 1 < e.seq by grind)
  -- the walk up to the entry ends with its hash, whatever the start was
  have hend : ∀ st, (es ++ [e]).foldlM (verifyEntry C key) (cp.prevHash, clampSeq cp.seq) = .ok st →
      st = (e.entryHash, e.seq + 1) := by
    intro st h
    simp only [foldlM_append, foldlM_cons, foldlM_nil, bind_pure] at h
    cases hes : es.foldlM (verifyEntry C key) (cp.prevHash, clampSeq cp.seq) with
    | error =>
      rw [hes] at h
      cases h
    | ok st' =>
      rw [hes] at h
      have hlast : verifyEntry C key (st'.1, st'.2) e = .ok st := h
      rw [verifyEntry_eq_ok_iff] at hlast
      rw [hlast.2, hlast.1.1]
  rw [hnext.1, hnext.2, hbetween, hafter, ← singleton_append, ← append_assoc, foldlM_append]
  cases hwalk : (es ++ [e]).foldlM (verifyEntry C key) (cp.prevHash, clampSeq cp.seq) with
  | error => simp [bind, Except.bind]
  | ok st =>
    rw [hend st hwalk]
    simp [bind, Except.bind]

namespace Composition

def crypto : Crypto where
  hmacSHA256 _ _ := []
  sha256 _ := []
  ed25519Public priv := priv
  ed25519Sign _ _ := []
  ed25519Verify _ _ _ := true

def entry (seq : Int64) : AuditEntry where
  tenantID := 1
  chainClass := .data
  seq := seq
  prevHash := []
  entryHash := []
  keyID := []
  payload := []

def twoEntries : DB :=
  { DB.empty with entries := ⟨[entry 2, entry 1], by decide⟩ }

theorem verified_after_first :
    ∃ res, verifyChainFromBatched crypto 1 twoEntries [] (entry 1).chain { seq := 2, prevHash := [] } = some res
      ∧ res.ok = true :=
  (((verifyChainFrom_streams_and_composes crypto [] (by decide) twoEntries (entry 1).chain
    { seq := 1, prevHash := [] }).2 (entry 1) (by decide) (by decide) (by decide)).mp ⟨_, rfl, rfl⟩).2

end Composition

end Mxid.Audit
