import Mxid.Audit.Impl.Project
import Mxid.Audit.Lemmas.Linked
import Mxid.Audit.Lemmas.Message
import Mxid.Data.Run

namespace Mxid.Audit

open Table List LogState Bytes AuditLog

section Project

variable {J : Type} (D : Decoding J) (C : Crypto)

theorem projectedValue_bounds (tenantID : Int64) (chainClass : Bytes) (seq : Int64) :
    0 < projectedValue C tenantID chainClass seq ∧ projectedValue C tenantID chainClass seq < 2 ^ 62 := by
  unfold projectedValue
  dsimp only
  generalize toNat _ = n
  have hand : n &&& 0x3FFFFFFFFFFFFFFF ≤ 0x3FFFFFFFFFFFFFFF := Nat.and_le_right
  split <;> omega

theorem projectedID_neg (tenantID : Int64) (chainClass : Bytes) (seq : Int64) :
    projectedID C tenantID chainClass seq < 0 := by
  have hbounds := projectedValue_bounds C tenantID chainClass seq
  rw [Int64.lt_iff_toInt_lt, projectedID, Int64.toInt_neg, Int64.toInt_ofNat_of_lt (by omega), Int64.toInt_zero,
    Int.bmod_eq_of_le (by omega) (by omega)]
  omega

def projectedRow? (e : AuditEntry) : Option AuditLog :=
  match projectEntry D C e with
  | .ok row => row
  | .error _ => none

def projectedRows (db : DB) (c : Chain) (afterSeq : Int64) : List AuditLog :=
  (entriesAfter db c afterSeq).filterMap (projectedRow? D C)

variable {e : AuditEntry} {r : AuditLog} {cursor : Int64} {batches : Nat}

theorem projectedRow?_eq_some_iff : projectedRow? D C e = some r ↔ projectEntry D C e = .ok (some r) := by
  unfold projectedRow?
  split <;> simp_all

theorem projectEntry_id_neg (h : projectEntry D C e = .ok (some r)) : r.id < 0 := by
  unfold projectEntry at h
  repeat' split at h
  all_goals cases h
  apply projectedID_neg

theorem projectBatch_eq_ok {es : List AuditEntry} {rows : List AuditLog} (h : projectBatch D C es = .ok rows) :
    rows = es.filterMap (projectedRow? D C) := by
  induction es generalizing rows with
  | nil =>
    cases h
    rfl
  | cons e es ih =>
    rw [projectBatch] at h
    rw [filterMap_cons, projectedRow?]
    cases hrow : projectEntry D C e with
    | error =>
      rw [hrow] at h
      cases h
    | ok row =>
      rw [hrow] at h
      cases hrows : projectBatch D C es with
      | error =>
        rw [hrows] at h
        cases h
      | ok =>
        rw [hrows] at h
        cases h
        rw [ih hrows]
        cases row <;> rfl

variable (db : DB) (c : Chain)

theorem entriesAfter_page {es : List AuditEntry} (hpage : (entriesAfter db c cursor).take verifyBatchSize = e :: es) :
    entriesAfter db c ((e :: es).getLast (cons_ne_nil e es)).seq = (entriesAfter db c cursor).drop verifyBatchSize := by
  rw [entriesAfter_eq] at hpage
  have hlast := Keyset.after_getLast_take AuditEntry.seq (pairwise_sortedEntries db c) (hpage ▸ cons_ne_nil e es)
  simp only [hpage] at hlast
  rw [entriesAfter_eq, hlast, entriesAfter_eq]

theorem rebuildLoop_ne_stopped {log : Table key} {res : RebuildResult}
    (h : (entriesAfter db c cursor).length < batches) :
    (rebuildLoop D C db c batches cursor log res).2.2 ≠ .stopped := by
  induction batches generalizing cursor log res with
  | zero => contradiction
  | succ batches ih =>
    rw [rebuildLoop]
    split
    . exact nofun
    . next e es hpage =>
      split
      . exact nofun
      . -- the page is not empty, so fewer entries are left
        have hpos : 0 < ((entriesAfter db c cursor).take verifyBatchSize).length := by
          rw [hpage]
          exact Nat.succ_pos _
        apply ih
        rw [entriesAfter_page db c hpage, length_drop]
        rw [length_take] at hpos
        omega

theorem rebuildLoop_eq {log log' : Table key} {res res' : RebuildResult}
    {outcome : RebuildOutcome} (h : rebuildLoop D C db c batches cursor log res = (log', res', outcome)) :
    ∃ es, es <+: entriesAfter db c cursor ∧ log' = log.insertIgnore (es.filterMap (projectedRow? D C))
      ∧ (outcome = .done → es = entriesAfter db c cursor) := by
  induction batches generalizing cursor log res with
  | zero =>
    cases h
    exact ⟨[], nil_prefix, rfl, fun h => by contradiction⟩
  | succ batches ih =>
    rw [rebuildLoop] at h
    split at h
    . next hpage =>
      cases h
      refine ⟨[], nil_prefix, rfl, fun _ => ?_⟩
      rcases take_eq_nil_iff.mp hpage with hsize | hnil
      . contradiction
      . exact hnil.symm
    . next e es hpage =>
      split at h
      . cases h
        exact ⟨[], nil_prefix, rfl, fun h => by contradiction⟩
      . next rows hrows =>
        rcases ih h with ⟨es', hes', hlog, hdone⟩
        rw [entriesAfter_page db c hpage] at hes' hdone
        have hsplit := take_append_drop verifyBatchSize (entriesAfter db c cursor)
        rw [hpage] at hsplit
        refine ⟨(e :: es) ++ es', ?_, ?_, ?_⟩
        . rw [← hsplit]
          exact (prefix_append_right_inj _).mpr hes'
        . rw [filterMap_append, insertIgnore_append, ← projectBatch_eq_ok D C hrows]
          exact hlog
        . intro hout
          rw [hdone hout, hsplit]

variable (log : Table key) (afterSeq : Int64) {D C db c log afterSeq}

theorem rebuildFromLedger_eq (db : DB) (log : Table key) (c : Chain) (afterSeq : Int64) (batches : Nat) :
    ∃ es, es <+: entriesAfter db c afterSeq
      ∧ (rebuildFromLedger D C db log c afterSeq batches).1 = log.insertIgnore (es.filterMap (projectedRow? D C))
      ∧ ((rebuildFromLedger D C db log c afterSeq batches).2.2 = .done → es = entriesAfter db c afterSeq) := by
  apply rebuildLoop_eq D C db c
  rfl

theorem rebuildFromLedger_ne_stopped (h : db.entries.rows.length < batches) :
    (rebuildFromLedger D C db log c afterSeq batches).2.2 ≠ .stopped := by
  apply rebuildLoop_ne_stopped
  refine Nat.lt_of_le_of_lt ?_ h
  rw [entriesAfter, Table.orderBy, length_insertionSort]
  exact Nat.le_trans (length_filter_le _ _) (length_filter_le _ _)

theorem rebuildFromLedger_eq_done_of_lt (h : db.entries.rows.length < batches)
    (hok : ∀ err, (rebuildFromLedger D C db log c afterSeq batches).2.2 ≠ .failed err) :
    (rebuildFromLedger D C db log c afterSeq batches).2.2 = .done := by
  cases hout : (rebuildFromLedger D C db log c afterSeq batches).2.2 with
  | done => rfl
  | failed err => exact absurd hout (hok err)
  | stopped => exact absurd hout (rebuildFromLedger_ne_stopped h)

theorem rebuildFromLedger_eq_done (h : (rebuildFromLedger D C db log c afterSeq batches).2.2 = .done) :
    (rebuildFromLedger D C db log c afterSeq batches).1 = log.insertIgnore (projectedRows D C db c afterSeq) := by
  rcases rebuildFromLedger_eq (D := D) (C := C) db log c afterSeq batches with ⟨es, _, hlog, hdone⟩
  rw [hlog, hdone h]
  rfl

theorem rebuildFromLedger_rows
    (h : r ∈ (rebuildFromLedger D C db log c afterSeq batches).1.rows) : r ∈ log.rows ∨ r.id < 0 := by
  rcases rebuildFromLedger_eq (D := D) (C := C) db log c afterSeq batches with ⟨es, _, hlog, _⟩
  rw [hlog] at h
  rcases mem_or_mem_of_mem_insertIgnore h with h | h
  . exact Or.inl h
  . rcases mem_filterMap.mp h with ⟨e, _, he⟩
    exact Or.inr (projectEntry_id_neg D C ((projectedRow?_eq_some_iff D C).mp he))

end Project

section Told

variable {J : Type} {D : Decoding J} {cfg : Config J} {svc : Service} {s s' : LogState} {p : Int64 × Int64}

theorem LogState.stepBridge_told {log : AuditLog} {bridge : Option (Int64 × Int)}
    (hstep : stepBridge cfg svc s log bridge = some s') (hp : p ∈ s'.told) : p ∈ s.told ∨ p.1 = log.id := by
  unfold stepBridge at hstep
  split at hstep
  . cases hstep
    exact Or.inl hp
  split at hstep
  . cases hstep
    exact Or.inl hp
  split at hstep
  . contradiction
  cases hstep
  rcases mem_append.mp hp with hp | hp
  . exact Or.inl hp
  . rw [mem_singleton.mp hp]
    exact Or.inr rfl

theorem LogState.stepCreateLog_told {caller : Option Actor} {log : AuditLog} {stored : Bool}
    {bridge : Option (Int64 × Int)} {captured : List Int64}
    (hstep : stepCreateLog cfg svc s caller log stored bridge captured = some s') (hp : p ∈ s'.told) :
    p ∈ s.told ∨ minEventID ≤ p.1 := by
  unfold stepCreateLog at hstep
  dsimp only at hstep
  split at hstep
  . next hguard =>
    generalize svc.fillGeo (svc.enrich caller log) = log at hstep hguard
    have hcaptured : p ∈ s.told ++ captured.map (log.id, ·) → p ∈ s.told ∨ minEventID ≤ p.1 := by
      intro hp
      rcases mem_append.mp hp with hp | hp
      . exact Or.inl hp
      . rcases mem_map.mp hp with ⟨id, _, rfl⟩
        exact Or.inr hguard.1
    split at hstep
    . split at hstep
      . cases hstep
        exact hcaptured hp
      . rcases stepBridge_told hstep hp with hp | hid
        . exact hcaptured hp
        . rw [hid]
          exact Or.inr hguard.1
    . cases hstep
      exact hcaptured hp
  . contradiction

theorem LogState.step_told {a : LogAction} (hstep : step D cfg svc s a = some s') (hp : p ∈ s'.told) :
    p ∈ s.told ∨ minEventID ≤ p.1 := by
  cases a with
  | ledger =>
    simp only [step, stepLedger] at hstep
    split at hstep
    . contradiction
    . cases hstep
      exact Or.inl hp
  | createLog => exact stepCreateLog_told hstep hp
  | purge | lose | rebuild =>
    cases hstep
    exact Or.inl hp

abbrev LogState.NativeIDs (s : LogState) : Prop := ∀ p ∈ s.told, minEventID ≤ p.1

theorem LogState.nativeIDs_run {withSink : Bool} {acts : List LogAction}
    (run : Run (step D cfg svc) (fun _ _ => True) (.init withSink) acts s) : s.NativeIDs := by
  apply run.invariant (I := LogState.NativeIDs)
  . simp [LogState.NativeIDs, init]
  . intro s a s' h _ hstep p hp
    rcases step_told hstep hp with hold | hnew
    . exact h p hold
    . exact hnew

theorem LogState.NativeIDs.native_pos (h : s.NativeIDs) {e : AuditEntry} {r : AuditLog} (hr : s.Native e r) :
    0 < r.id := by
  rcases hr with ⟨_, id, htold, _⟩
  exact Int64.lt_of_lt_of_le (by decide) (h _ htold)

end Told

section Once

variable {J : Type} (D : Decoding J) (C : Crypto)

def Prevails (db : DB) (log : Table key) (c : Chain) (afterSeq : Int64) (row : AuditLog) : Prop :=
  (log.rows ++ projectedRows D C db c afterSeq).find? (fun r => r.key = row.key) = some row

instance (db : DB) (log : Table key) (c : Chain) (afterSeq : Int64) (row : AuditLog) :
    Decidable (Prevails D C db log c afterSeq row) :=
  inferInstanceAs (Decidable (_ = _))

variable {D C} {s : LogState} {c : Chain} {afterSeq : Int64} {batches : Nat} {e : AuditEntry} {row : AuditLog}

section

variable (h : s.NativeIDs) (hdone : (rebuildFromLedger D C s.ledger.db s.log c afterSeq batches).2.2 = .done)

include h hdone

theorem LogState.NativeIDs.native_rebuilt_iff {r : AuditLog} :
    (s.rebuilt D C c afterSeq batches).Native e r ↔ s.Native e r := by
  constructor
  . intro hr
    have hpos : 0 < r.id := native_pos (s := s.rebuilt D C c afterSeq batches) h hr
    refine ⟨?_, hr.2⟩
    rcases rebuildFromLedger_rows hr.1 with hmem | hneg
    . exact hmem
    . exact absurd hneg (Int64.lt_asymm hpos)
  . intro hr
    refine ⟨?_, hr.2⟩
    rw [rebuilt, rebuildFromLedger_eq_done hdone]
    apply mem_insertIgnore_of_mem _ hr.1

theorem LogState.NativeIDs.represents_rebuilt_iff (hrow : projectEntry D C e = .ok (some row)) {r : AuditLog} :
    (s.rebuilt D C c afterSeq batches).Represents D C e r
      ↔
    (r = row ∧ Prevails D C s.ledger.db s.log c afterSeq row) ∨ s.Native e r := by
  unfold LogState.Represents
  rw [h.native_rebuilt_iff hdone, rebuilt, rebuildFromLedger_eq_done hdone, mem_insertIgnore, hrow]
  constructor
  . rintro (⟨hmem, heq⟩ | hr)
    . cases heq
      exact Or.inl ⟨rfl, hmem⟩
    . exact Or.inr hr
  . rintro (⟨rfl, hmem⟩ | hr)
    . exact Or.inl ⟨hmem, rfl⟩
    . exact Or.inr hr

theorem LogState.NativeIDs.represented_once_iff (hrow : projectEntry D C e = .ok (some row)) :
    (∃! r, (s.rebuilt D C c afterSeq batches).Represents D C e r)
      ↔
    if Prevails D C s.ledger.db s.log c afterSeq row then ∀ r, ¬s.Native e r else ∃! r, s.Native e r := by
  have hdistinct : ¬s.Native e row := by
    intro hr
    exact Int64.lt_asymm (h.native_pos hr) (projectEntry_id_neg D C hrow)
  simp only [ExistsUnique, h.represents_rebuilt_iff hdone hrow]
  split
  . next hprevails =>
    simp only [hprevails, and_true]
    constructor
    . rintro ⟨r, _, huniq⟩ r' hr'
      have hsame : row = r' := (huniq row (Or.inl rfl)).trans (huniq r' (Or.inr hr')).symm
      exact hdistinct (hsame ▸ hr')
    . intro hnone
      refine ⟨row, Or.inl rfl, ?_⟩
      rintro r (rfl | hr)
      . rfl
      . exact absurd hr (hnone r)
  . next hprevails => simp only [hprevails, and_false, false_or]

end

end Once

namespace SignIn

set_option maxRecDepth 4000

def config : Config Unit where
  crypto := digestCrypto (fun _ => true)
  encoding :=
    { unmarshalMap := fun _ => some ()
      marshalPayload := fun p => some p.eventType
      formatRFC3339 := fun _ => ascii "2026-01-01T00:00:00Z" }
  chainer := { key := [1, 2, 3], keyID := ascii "default" }
  signers := []

def service : Service where
  nameResolver := none
  geoLookup _ := none
  bridgeDetail _ _ := some (ascii "\x7b\"event_status\":1\x7d")

def payload (eventType : Bytes) : ChainPayload Unit where
  version := payloadV2
  tenantID := 1
  chainClass := .auth
  actorID := 5
  actorType := ascii "user"
  eventType := eventType
  resourceType := ascii "session"
  resourceID := 0
  before := none
  after := none
  ip := []
  userAgent := []
  sessionID := []
  detail := some ()
  occurredAt := ascii "2026-01-01T00:00:00Z"
  actorName := ascii "alice"
  resourceName := []
  geoCity := []
  geoCountry := []

def decoding : Decoding Unit where
  unmarshalPayload raw := some (payload raw)
  parseRFC3339 _ := some 1767225600
  len _ := 1
  marshalMap _ := some (ascii "\x7b\"event_status\":1\x7d")
  eventStatus? _ := some (some 1)

def login : AuditLog where
  id := 4194304
  tenantID := 1
  actorID := some 5
  actorName := some (ascii "alice")
  actorType := ascii "user"
  eventType := ascii "login.success"
  eventStatus := 1
  resourceType := some (ascii "session")
  resourceID := none
  resourceName := none
  detail := ascii "\x7b\x7d"
  ip := none
  userAgent := none
  geoCity := none
  geoCountry := none
  sessionID := none
  createdAt := 1767225600

def chain : Chain := (1, .auth)

def logged : List LogAction :=
  [.createLog none login true (some (4194305, 1767225600)) [], .ledger (.processBatch 100 true)]

def dropped : List LogAction :=
  logged ++ [.lose [login.key]]

abbrev exec (acts : List LogAction) : Option LogState :=
  Run.exec (LogState.step decoding config service) (fun _ _ => True) (.init false) acts

theorem exec_logged_isSome : (exec logged).isSome = true := by
  decide

theorem exec_dropped_isSome : (exec dropped).isSome = true := by
  decide

def afterLogin : LogState := (exec logged).get exec_logged_isSome
def afterDrop : LogState := (exec dropped).get exec_dropped_isSome

def entry : AuditEntry := afterLogin.ledger.db.entries.rows.get ⟨0, by decide⟩

def projected : AuditLog := projectPayload decoding config.crypto entry (payload entry.payload) 1767225600

end SignIn

end Mxid.Audit
