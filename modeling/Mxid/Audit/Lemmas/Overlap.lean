import Mxid.Audit.Lemmas.NoFalseAlarm

namespace Mxid.Audit

open List Int64 AuditAnchor

variable {J : Type} {cfg : Config J} {s s' : State} {g : Histories}

section Jobs

variable (cfg g) in
def Upcoming (a : AuditAnchor) : Prop :=
  ∃ n, n ≤ g.anchored a.chain ∧ a.fromSeq = ofNat (n + 1)
    ∧ (n = g.anchored a.chain →
        Anchors cfg a.chain (g.entries a.chain) n (linkOf cfg.crypto [] (g.anchors a.chain)) a)

variable (cfg g) in
def JobAt : AnchorJob → Prop
  | .readLast c lastTo => ∃ n, n ≤ g.anchored c ∧ lastTo = ofNat n
  | .readEntries c first rest =>
    ∃ n m, n ≤ g.anchored c ∧ n < m ∧ m ≤ (g.entries c).length
      ∧ first :: rest = ((g.entries c).take m).drop n
  | .signed a | .put a => Upcoming cfg g a

variable {g' : Histories} {a : AuditAnchor} {job : AnchorJob}

theorem Upcoming.extend (hext : Extends g g') (h : Upcoming cfg g a) : Upcoming cfg g' a := by
  rcases h with ⟨n, hn, hfrom, hnext⟩
  refine ⟨n, by rw [hext.anchored]; exact hn, hfrom, ?_⟩
  rw [hext.anchored, hext.anchors]
  intro heq
  exact (hnext heq).mono (hext.entries _)

theorem JobAt.extend (hext : Extends g g') (h : JobAt cfg g job) : JobAt cfg g' job := by
  cases job with
  | readLast =>
    simp only [JobAt, hext.anchored]
    exact h
  | readEntries c =>
    rcases h with ⟨n, m, hn, hnm, hm, heq⟩
    refine ⟨n, m, by rw [hext.anchored]; exact hn, hnm, le_trans hm (hext.length_le c), ?_⟩
    rw [hext.take_eq hm]
    exact heq
  | signed | put => exact Upcoming.extend hext h

theorem JobAt.refloor (hre : Refloors g g') (h : JobAt cfg g job) : JobAt cfg g' job := by
  cases job with
  | readLast =>
    simp only [JobAt, hre.anchored]
    exact h
  | readEntries =>
    simp only [JobAt, hre.anchored, hre.entries]
    exact h
  | signed | put =>
    simp only [JobAt, Upcoming, hre.anchored, hre.entries, hre.anchors]
    exact h

theorem Histories.anchored_push_self (g : Histories) (a : AuditAnchor) : (g.push a).anchored a.chain = a.stop := by
  rw [Histories.anchored, g.anchors_push_self, stopOf_append]
  simp

theorem Histories.anchored_le_push (g : Histories) (hlt : g.anchored a.chain < a.stop)
    (c : Chain) : g.anchored c ≤ (g.push a).anchored c := by
  by_cases hc : c = a.chain
  . subst hc
    rw [g.anchored_push_self]
    omega
  . rw [g.anchored_push_of_ne hc]

theorem Upcoming.push {b : AuditAnchor} (hlt : g.anchored a.chain < a.stop) (h : Upcoming cfg g b) :
    Upcoming cfg (g.push a) b := by
  rcases h with ⟨n, hn, hfrom, hnext⟩
  refine ⟨n, le_trans hn (g.anchored_le_push hlt _), hfrom, ?_⟩
  intro heq
  by_cases hc : b.chain = a.chain
  . rw [hc, g.anchored_push_self] at heq
    rw [hc] at hn
    omega
  . rw [g.anchored_push_of_ne hc] at heq
    rw [g.anchors_push_of_ne hc]
    exact hnext heq

theorem JobAt.push (hlt : g.anchored a.chain < a.stop) (h : JobAt cfg g job) : JobAt cfg (g.push a) job := by
  cases job with
  | readLast c =>
    rcases h with ⟨n, hn, hlast⟩
    exact ⟨n, le_trans hn (g.anchored_le_push hlt c), hlast⟩
  | readEntries c =>
    rcases h with ⟨n, m, hn, hrange⟩
    exact ⟨n, m, le_trans hn (g.anchored_le_push hlt c), hrange⟩
  | signed | put => exact Upcoming.push hlt h

end Jobs

section Reads

theorem Honest.entriesAfter_eq (h : Honest cfg s g) {c : Chain} {n : Nat} (hn : n ≤ g.anchored c) :
    ∃ k, k ≤ g.anchored c ∧ entriesAfter s.db c (ofNat n) = (g.entries c).drop k := by
  have hok := h.chains c
  have hlt := hok.length_lt
  have hanchored : g.anchored c ≤ (g.entries c).length := hok.anchored_le
  have hfloor : stopOf 0 (g.cut c) ≤ g.anchored c := by
    unfold Histories.anchored Histories.anchors
    rw [stopOf_append]
    exact (tiled_append.mp hok.tiled).2.le_stopOf
  by_cases hle : stopOf 0 (g.cut c) ≤ n
  . exact ⟨n, hn, entriesAfter_eq_drop hok.linked (by omega) hok.entries hle (by omega)⟩
  refine ⟨stopOf 0 (g.cut c), hfloor, ?_⟩
  rw [← entriesAfter_eq_drop hok.linked (by omega) hok.entries (le_refl _) (by omega)]
  unfold entriesAfter
  congr 1
  apply filter_congr
  intro e he
  rw [hok.entries.mem_iff, mem_drop_iff_getElem] at he
  rcases he with ⟨i, hi, rfl⟩
  apply decide_eq_decide.mpr
  rw [lt_iff_toInt_lt, lt_iff_toInt_lt, hok.linked.toInt_seq_getElem (by omega) _ (by omega),
    toInt_ofNat_of_lt (by omega), toInt_ofNat_of_lt (by omega)]
  omega

end Reads

section Sink

variable {records : List AnchorRecord}

theorem Recorded.congr {a b : AuditAnchor} (h : Recorded records a)
    (hspan : a.span = b.span) (hroot : a.merkleRoot = b.merkleRoot) (hsig : a.signature = b.signature) :
    Recorded records b := by
  have hchain : a.chain = b.chain := congrArg Prod.fst hspan
  unfold Recorded at h ⊢
  rw [← hchain, ← hspan, ← hroot, ← hsig]
  exact h

theorem Honest.sinkInv_append_covered (h : Honest cfg s g) {a b : AuditAnchor}
    (now : Int) (hb : b ∈ g.anchors a.chain) (hfrom : b.fromSeq = a.fromSeq) (hto : a.toSeq ≤ b.toSeq)
    (hagree : a.toSeq = b.toSeq → a.merkleRoot = b.merkleRoot ∧ a.signature = b.signature) {c : Chain}
    (hinv : SinkInv g records c) : SinkInv g (records ++ [a.record now]) c := by
  constructor
  . intro d hd
    by_cases hspan : a.span = d.span
    . -- Only one stored anchor starts at this position.
      have hchain : a.chain = d.chain := congrArg Prod.fst hspan
      have hdc := ((h.chains c).tiled.bounds hd).1
      rw [hchain, hdc] at hb
      have hok := h.chains c
      have hpair := hok.tiled.pairwise (Nat.zero_le _) (by have := hok.length_lt; omega)
      have hbd : b = d := by
        have hnodup : ((g.anchors c).map fromSeq).Nodup :=
          pairwise_map.mpr (hpair.imp (fun hab => ne_of_lt hab.2.1))
        apply inj_on_of_nodup_map hnodup hb hd
        rw [hfrom]
        exact congrArg (fun p => p.2.1) hspan
      subst hbd
      have hsame := hagree (congrArg (fun p => p.2.2) hspan)
      exact (recorded_append_self records a now).congr hspan hsame.1 hsame.2
    . exact (hinv.stored d hd).append_of_ne now hspan
  . intro r hr hchain
    rcases mem_append.mp hr with hr | hr
    . exact hinv.explained r hr hchain
    rw [mem_singleton.mp hr] at hchain ⊢
    have hac : a.chain = c := hchain
    rw [hac] at hb
    exact Or.inl ⟨b, hb, hfrom, hto⟩

end Sink

section Shared

variable {ι : Type}

def AuditAnchor.isNext (db : DB) (a : AuditAnchor) : Bool :=
  a.fromSeq = lastAnchoredTo db a.chain + 1

/--
No anchor that others have overtaken is put or stored, unless it is over a range that is anchored already;
and none is stored that is narrower than a record from the same start or not the last one recorded.
-/
def Shared.orderly (s : Shared ι) : ι × Action → Bool
  | (i, .anchorPut _ _) =>
    match s.jobs i with
    | some (.signed a) =>
      a.isNext s.ledger.db
        || (s.ledger.db.chainAnchors a.chain).any (fun b => b.fromSeq = a.fromSeq && a.toSeq ≤ b.toSeq
          && (a.toSeq ≠ b.toSeq || (a.merkleRoot = b.merkleRoot && a.signature = b.signature)))
    | _ => true
  | (i, .anchorCreate true _) =>
    match s.jobs i with
    | some (.put a) =>
      s.ledger.db.anchors.rows.any (fun b => b.span = a.span)
        || (a.isNext s.ledger.db && s.ledger.sink.all (fun records =>
          sinkMatches (sinkIndex records a.chain) a
            && records.all (fun r => r.chain ≠ a.chain || r.fromSeq ≠ a.fromSeq || r.toSeq ≤ a.toSeq)))
    | _ => true
  | _ => true

variable (cfg) in
structure Overlap (s : Shared ι) (g : Histories) : Prop where
  honest : Honest cfg s.ledger g
  idle : s.ledger.job = none
  jobs : ∀ i job, s.jobs i = some job → JobAt cfg g job

theorem overlap_init (withSink : Bool) : Overlap cfg (Shared.init withSink : Shared ι) .init :=
  ⟨honest_init cfg withSink, rfl, fun _ _ hjob => by contradiction⟩

theorem step_withJob {a : Action} {job : Option AnchorJob} (h : step cfg { s with job } a = some s') :
    (∃ p, a = .capture p) ∨ (∃ limit commit, a = .processBatch limit commit)
        ∨ (∃ priv cutoff done, a = .prune priv cutoff done) →
      s'.job = job ∧ step cfg { s with job := none } a = some { s' with job := none } := by
  rintro (⟨p, rfl⟩ | ⟨limit, commit, rfl⟩ | ⟨priv, cutoff, done, rfl⟩)
  . simp only [step] at h ⊢
    split at h
    . next hid =>
      rw [if_pos hid]
      split at h
      . contradiction
      . cases h
        exact ⟨rfl, rfl⟩
    . contradiction
  . simp only [step] at h ⊢
    split at h
    . cases commit <;> cases h <;> exact ⟨rfl, rfl⟩
    . cases h
      exact ⟨rfl, rfl⟩
  . simp only [step] at h ⊢
    split at h
    . next hpriv =>
      cases h
      rw [if_pos hpriv]
      exact ⟨rfl, rfl⟩
    . contradiction

variable {sh sh' : Shared ι}

theorem Overlap.honest_drop (h : Overlap cfg sh g) : Honest cfg { sh.ledger with job := none } g :=
  h.honest.dropJob

theorem Overlap.lastAnchoredTo_eq (h : Overlap cfg sh g) (c : Chain) :
    lastAnchoredTo sh.ledger.db c = ofNat (g.anchored c) :=
  (h.honest.chains c).lastAnchoredTo_eq

theorem Overlap.anchors_of_isNext (h : Overlap cfg sh g) {a : AuditAnchor} (ha : Upcoming cfg g a)
    (hnext : a.isNext sh.ledger.db = true) :
    Anchors cfg a.chain (g.entries a.chain) (g.anchored a.chain) (linkOf cfg.crypto [] (g.anchors a.chain)) a := by
  rcases ha with ⟨n, hn, hfrom, hanchors⟩
  have hok := h.honest.chains a.chain
  have hlt := hok.length_lt
  have hle : g.anchored a.chain ≤ (g.entries a.chain).length := hok.anchored_le
  unfold isNext at hnext
  rw [decide_eq_true_eq, hfrom, h.lastAnchoredTo_eq, ofNat_add_one] at hnext
  have heq : n = g.anchored a.chain := by
    have := ofNat_inj_of_lt (by omega) (by omega) hnext
    omega
  rw [← heq]
  exact hanchors heq

variable [DecidableEq ι] {i : ι}

theorem JobAt.update {g' : Histories} (hjobs : ∀ i job, sh.jobs i = some job → JobAt cfg g' job)
    {new : Option AnchorJob} (hnew : ∀ job, new = some job → JobAt cfg g' job) :
    ∀ j job, Function.update sh.jobs i new j = some job → JobAt cfg g' job := by
  intro j job hjob
  by_cases hj : j = i
  . subst hj
    rw [Function.update_self] at hjob
    exact hnew job hjob
  . rw [Function.update_of_ne hj] at hjob
    exact hjobs j job hjob

section

variable (h : Overlap cfg sh g)

include h

theorem Overlap.anchorReadLast {c : Chain}
    (hstep : Shared.step cfg sh (i, .anchorReadLast c) = some sh') : Overlap cfg sh' g := by
  simp only [Shared.step, step] at hstep
  split at hstep
  . contradiction
  next ledger hledger =>
  split at hledger
  . cases hledger
    cases hstep
    refine ⟨h.honest_drop, rfl, JobAt.update h.jobs ?_⟩
    intro job hjob
    cases hjob
    exact ⟨g.anchored c, le_refl _, h.lastAnchoredTo_eq c⟩
  . contradiction

theorem Overlap.anchorReadEntries
    (hstep : Shared.step cfg sh (i, .anchorReadEntries) = some sh') : Overlap cfg sh' g := by
  simp only [Shared.step, step] at hstep
  split at hstep
  . contradiction
  next ledger hledger =>
  split at hledger
  . next c lastTo hjob =>
    rcases h.jobs i _ hjob with ⟨n, hn, rfl⟩
    rcases h.honest.entriesAfter_eq hn with ⟨k, hk, hentries⟩
    rw [hentries] at hledger
    split at hledger
    . cases hledger
      cases hstep
      exact ⟨h.honest_drop, rfl, JobAt.update h.jobs (fun _ hjob => by contradiction)⟩
    . next first rest hcons =>
      cases hledger
      cases hstep
      refine ⟨h.honest_drop, rfl, JobAt.update h.jobs ?_⟩
      intro job hjob'
      cases hjob'
      refine ⟨k, (g.entries c).length, hk, ?_, le_refl _, by rw [take_length, hcons]⟩
      by_contra hge
      rw [drop_eq_nil_of_le (by omega)] at hcons
      contradiction
  . contradiction

theorem Overlap.anchorSign {priv : PrivateKey}
    (hstep : Shared.step cfg sh (i, .anchorSign priv) = some sh') : Overlap cfg sh' g := by
  simp only [Shared.step, step, stepAnchorSign] at hstep
  split at hstep
  . contradiction
  next ledger hledger =>
  split at hledger
  . next c first rest hjob =>
    split at hledger
    . next hpriv =>
      rcases h.jobs i _ hjob with ⟨n, m, hn, hnm, hm, heq⟩
      have hprev : prevAnchorHash cfg.crypto sh.ledger.db c = linkOf cfg.crypto [] (g.anchors c) :=
        (h.honest.chains c).prevAnchorHash_eq
      rcases (h.honest.chains c).signedAnchor_range hnm hm heq hpriv (prevAnchorHash cfg.crypto sh.ledger.db c)
        with ⟨hanchors, _⟩
      have hsigned := h.honest.signed_append hnm hm heq hpriv
      cases hledger
      cases hstep
      refine ⟨{ h.honest_drop with signed := hsigned }, rfl, JobAt.update h.jobs ?_⟩
      intro job hjob'
      cases hjob'
      refine ⟨n, hn, hanchors.fromSeq_eq, ?_⟩
      intro _
      rw [hprev] at hanchors ⊢
      exact hanchors
    . contradiction
  . contradiction

theorem Overlap.anchorPut {uri : Option Bytes} {now : Int} (horderly : sh.orderly (i, .anchorPut uri now) = true)
    (hstep : Shared.step cfg sh (i, .anchorPut uri now) = some sh') : Overlap cfg sh' g := by
  simp only [Shared.step, step, stepAnchorPut] at hstep
  split at hstep
  . contradiction
  next ledger hledger =>
  split at hledger
  . next a hjob =>
    have ha : Upcoming cfg g a := h.jobs i _ hjob
    split at hledger
    . cases hledger
      cases hstep
      refine ⟨h.honest_drop, rfl, JobAt.update h.jobs ?_⟩
      intro job hjob'
      cases hjob'
      exact ha
    . next records hsink =>
      split at hledger
      . cases hledger
        cases hstep
        exact ⟨h.honest_drop, rfl, JobAt.update h.jobs (fun _ hjob => by contradiction)⟩
      . cases hledger
        cases hstep
        refine ⟨{ h.honest_drop with sink := ?_, job := fun _ hjob => by contradiction }, rfl, JobAt.update h.jobs ?_⟩
        . intro records' hrecords' c
          cases hrecords'
          have hinv := h.honest.sink records hsink c
          simp only [Shared.orderly, hjob, Bool.or_eq_true, any_eq_true, Bool.and_eq_true,
            decide_eq_true_eq] at horderly
          rcases horderly with hnext | ⟨b, hb, ⟨hfrom, hto⟩, hagree⟩
          . exact h.honest.sinkInv_append now (h.anchors_of_isNext ha hnext) hinv
          apply h.honest.sinkInv_append_covered now ((h.honest.chains a.chain).mem_anchors.mp hb) hfrom hto _ hinv
          intro heq
          exact hagree.resolve_left (not_not.mpr heq)
        . intro job hjob'
          cases hjob'
          rcases ha with ⟨n, hn, hfrom, hnext⟩
          refine ⟨n, hn, hfrom, ?_⟩
          intro heq
          have := hnext heq
          exact ⟨rfl, this.fromSeq_eq, this.toSeq_eq, this.lt_stop, this.stop_le, this.root_eq,
            this.version_eq, this.prev_eq, this.signed⟩
  . contradiction

theorem Overlap.anchorCreate {commit : Bool} {now : Int} (horderly : sh.orderly (i, .anchorCreate commit now) = true)
    (hstep : Shared.step cfg sh (i, .anchorCreate commit now) = some sh') : ∃ g', Overlap cfg sh' g' := by
  simp only [Shared.step, step, stepAnchorCreate] at hstep
  split at hstep
  . contradiction
  next ledger hledger =>
  split at hledger
  . next a hjob =>
    have ha : Upcoming cfg g a := h.jobs i _ hjob
    cases commit with
    | false =>
      cases hledger
      cases hstep
      exact ⟨g, h.honest_drop, rfl, JobAt.update h.jobs (fun _ hjob => by contradiction)⟩
    | true =>
      rw [if_pos rfl] at hledger
      split at hledger
      . cases hledger
        cases hstep
        exact ⟨g, h.honest_drop, rfl, JobAt.update h.jobs (fun _ hjob => by contradiction)⟩
      . next anchors hinsert =>
        cases hledger
        cases hstep
        simp only [Shared.orderly, hjob, Bool.or_eq_true, any_eq_true, Bool.and_eq_true,
          decide_eq_true_eq, Option.all_eq_true, all_eq_true] at horderly
        rcases horderly with ⟨b, hb, hspan⟩ | ⟨hnext, hsink⟩
        . -- The index does not let the row in.
          have hne := Table.key_ne_of_insert? hinsert hb
          exact absurd hspan hne
        . have hanchors := h.anchors_of_isNext ha hnext
          refine ⟨_, h.honest.push hanchors ?_ ?_ hinsert, rfl, JobAt.update ?_ (fun _ hjob => by contradiction)⟩
          . intro records hrecords
            exact sinkMatches_iff.mp (hsink records hrecords).1
          . intro records hrecords r hr hchain hfrom
            have := (hsink records hrecords).2 r hr
            rw [hanchors.fromSeq_eq] at this
            rcases this with (hne | hne) | hle
            . exact absurd hchain hne
            . exact absurd hfrom hne
            . exact hle
          . intro j job hjob'
            exact (h.jobs j job hjob').push (a := { a with createdAt := now }) hanchors.lt_stop
  . contradiction

theorem Overlap.step {act : ι × Action} (horderly : sh.orderly act = true)
    (hstep : Shared.step cfg sh act = some sh') : ∃ g', Overlap cfg sh' g' := by
  have hidle : ({ sh.ledger with job := none } : State) = sh.ledger := by
    rw [← h.idle]
  rcases act with ⟨i, a⟩
  cases a with
  | capture p =>
    simp only [Shared.step] at hstep
    split at hstep
    . contradiction
    next ledger hledger =>
    cases hstep
    rcases step_withJob hledger (.inl ⟨p, rfl⟩) with ⟨hjob, hfree⟩
    rw [hidle] at hfree
    refine ⟨g, h.honest.capture hfree, rfl, JobAt.update h.jobs ?_⟩
    rw [hjob]
    exact h.jobs i
  | processBatch limit commit =>
    simp only [Shared.step] at hstep
    split at hstep
    . contradiction
    next ledger hledger =>
    cases hstep
    rcases step_withJob hledger (.inr (.inl ⟨limit, commit, rfl⟩)) with ⟨hjob, hfree⟩
    rw [hidle] at hfree
    rcases h.honest.processBatch hfree with ⟨g', hhonest, hext⟩
    have hjobs : ∀ j job, sh.jobs j = some job → JobAt cfg g' job :=
      fun j job hj => (h.jobs j job hj).extend hext
    refine ⟨g', hhonest, rfl, JobAt.update hjobs ?_⟩
    rw [hjob]
    exact hjobs i
  | prune priv cutoff done =>
    simp only [Shared.step] at hstep
    split at hstep
    . contradiction
    next ledger hledger =>
    cases hstep
    rcases step_withJob hledger (.inr (.inr ⟨priv, cutoff, done, rfl⟩)) with ⟨hjob, hfree⟩
    rw [hidle] at hfree
    rcases h.honest.prune hfree with ⟨g', hhonest, hre⟩
    have hjobs : ∀ j job, sh.jobs j = some job → JobAt cfg g' job :=
      fun j job hj => (h.jobs j job hj).refloor hre
    refine ⟨g', hhonest, rfl, JobAt.update hjobs ?_⟩
    rw [hjob]
    exact hjobs i
  | anchorReadLast => exact ⟨g, h.anchorReadLast hstep⟩
  | anchorReadEntries => exact ⟨g, h.anchorReadEntries hstep⟩
  | anchorSign => exact ⟨g, h.anchorSign hstep⟩
  | anchorPut => exact ⟨g, h.anchorPut horderly hstep⟩
  | anchorCreate => exact h.anchorCreate horderly hstep
  | anchorAbort =>
    cases hstep
    exact ⟨g, h.honest_drop, rfl, JobAt.update h.jobs (fun _ hjob => by contradiction)⟩

end

end Shared

section Tiling

def SideBySide : (next : Int64) → List AuditAnchor → Prop
  | _, [] => True
  | next, a :: as => a.fromSeq = next ∧ a.fromSeq ≤ a.toSeq ∧ SideBySide (a.toSeq + 1) as

instance SideBySide.instDecidable : (next : Int64) → (as : List AuditAnchor) → Decidable (SideBySide next as)
  | _, [] => .isTrue trivial
  | next, a :: as =>
    have := instDecidable (a.toSeq + 1) as
    inferInstanceAs (Decidable (a.fromSeq = next ∧ a.fromSeq ≤ a.toSeq ∧ SideBySide (a.toSeq + 1) as))

theorem Tiled.sideBySide {c : Chain} {w : List AuditEntry} (hlt : w.length + 1 < 2 ^ 63) {as : List AuditAnchor}
    {n : Nat} {prev : Bytes} (h : Tiled cfg c w n prev as) : SideBySide (ofNat (n + 1)) as := by
  induction as generalizing n prev with
  | nil => trivial
  | cons a as ih =>
    have hstop := h.1.lt_stop
    have hle := h.1.stop_le
    refine ⟨h.1.fromSeq_eq, ?_, ?_⟩
    . rw [h.1.fromSeq_eq, h.1.toSeq_eq, ofNat_le_ofNat_iff (by omega) (by omega)]
      omega
    . rw [h.1.toSeq_eq, ofNat_add_one]
      exact ih h.2

end Tiling

/--
Let any number of anchorers work on one ledger, in an orderly way. Then the anchors lie side by side from the first
entry on, and they verify.
-/
theorem overlapping_anchorers_verify {J ι : Type} [DecidableEq ι] (cfg : Config J) (keys : KeyRegistry)
    (withSink : Bool) (acts : List (ι × Action)) (s : Shared ι)
    (run : Run (Shared.step cfg) (fun s act => s.orderly act = true) (.init withSink) acts s)
    (registered : ∀ priv ∈ cfg.signers,
      keys.keyFor (keyIDForPublic cfg.crypto (cfg.crypto.ed25519Public priv))
        = some (cfg.crypto.ed25519Public priv))
    (verify_sign : ∀ priv ∈ cfg.signers, ∀ msg,
      cfg.crypto.ed25519Verify (cfg.crypto.ed25519Public priv) msg
        (cfg.crypto.ed25519Sign priv msg) = true)
    (c : Chain) :
    SideBySide 1 (Table.orderBy fromSeq (s.ledger.db.chainAnchors c))
      ∧ ∃ cp, loadCheckpoint cfg.crypto s.ledger.db keys c = .ok cp
        ∧ (∃ res, verifyAnchorsFrom cfg.crypto s.ledger.db keys c cp.seq = some res ∧ res.ok = true)
        ∧ ((∃ res, verifyAnchorsWithSinkFrom cfg.crypto s.ledger.db s.ledger.sink keys c cp.seq = some res
              ∧ res.ok = true)
            ↔
          ∀ records, s.ledger.sink = some records → ∀ r ∈ records, r.chain = c →
            r.toSeq ≤ lastAnchoredTo s.ledger.db c) := by
  have hinv : ∃ g, Overlap cfg s g := by
    apply run.invariant (I := fun s => ∃ g, Overlap cfg s g)
    . exact ⟨.init, overlap_init withSink⟩
    . rintro s act s' ⟨g, h⟩ horderly hstep
      exact h.step horderly hstep
  rcases hinv with ⟨g, h⟩
  have hchain := h.honest.chains c
  have hkeys : Registered cfg keys := ⟨registered, verify_sign⟩
  refine ⟨?_, _, hchain.loadCheckpoint hkeys, hchain.verifyAnchorsFrom hkeys,
    h.honest.verifyAnchorsWithSinkFrom hkeys⟩
  have hlt := hchain.length_lt
  have hpairwise := hchain.tiled.pairwise (Nat.zero_le _) (by omega)
  rw [Table.orderBy_eq_of_perm _ hchain.anchors (hpairwise.imp (fun hab => hab.2.1))]
  exact hchain.tiled.sideBySide hlt

/-!
Two anchorers, told apart by a Boolean, read the last anchored position before either of them stores an anchor.
-/

namespace HandOver

open LostCreate (config registry chain)

set_option maxRecDepth 4000

def event (n : Nat) : AuditPending :=
  { LostCreate.event with id := 4194304 + ofNat n }

def chained (n : Nat) : List (Bool × Action) :=
  [(false, .capture (event n)), (false, .processBatch 100 true)]

def reads (who : Bool) : List (Bool × Action) :=
  [(who, .anchorReadLast chain), (who, .anchorReadEntries), (who, .anchorSign [7])]

def writes (who : Bool) : List (Bool × Action) :=
  [(who, .anchorPut (some []) 10), (who, .anchorCreate true 11)]

def sameRange : List (Bool × Action) :=
  chained 0 ++ reads false ++ reads true ++ writes false ++ writes true

def otherRange : List (Bool × Action) :=
  chained 0 ++ reads false ++ chained 1 ++ reads true ++ writes false ++ writes true

def betweenWrites : List (Bool × Action) :=
  chained 0 ++ reads false ++ [(false, .anchorPut (some []) 10)]

abbrev exec (allowed : Shared Bool → Bool × Action → Bool) (acts : List (Bool × Action)) : Option (Shared Bool) :=
  Run.exec (Shared.step config) (fun s act => allowed s act = true) (.init true) acts

theorem sameRange_isSome : (exec Shared.orderly sameRange).isSome = true := by
  decide

theorem otherRange_isSome : (exec (fun _ _ => true) otherRange).isSome = true := by
  decide

theorem betweenWrites_isSome : (exec (fun _ _ => true) betweenWrites).isSome = true := by
  decide

def afterSame : Shared Bool :=
  (exec Shared.orderly sameRange).get sameRange_isSome

def afterOther : Shared Bool :=
  (exec (fun _ _ => true) otherRange).get otherRange_isSome

def between : Shared Bool :=
  (exec (fun _ _ => true) betweenWrites).get betweenWrites_isSome

theorem same_range_verifies :
    afterSame.ledger.db.anchors.rows.length = 1
      ∧ SideBySide 1 (Table.orderBy fromSeq (afterSame.ledger.db.chainAnchors chain))
      ∧ ∃ cp, loadCheckpoint config.crypto afterSame.ledger.db registry chain = .ok cp
        ∧ ∃ res, verifyAnchorsWithSinkFrom config.crypto afterSame.ledger.db afterSame.ledger.sink registry chain
            cp.seq = some res ∧ res.ok = true := by
  refine ⟨by decide, ?_⟩
  rcases overlapping_anchorers_verify config registry true sameRange afterSame
    (Run.of_isSome sameRange_isSome) LostCreate.registered LostCreate.verify_sign chain
    with ⟨htiling, cp, hcp, _, hsink⟩
  refine ⟨htiling, cp, hcp, hsink.mpr ?_⟩
  intro records hrecords
  have hsome : afterSame.ledger.sink = some (afterSame.ledger.sink.getD []) := by
    decide
  cases hrecords
  decide

theorem other_range_overlaps :
    (Run (Shared.step config) (fun _ _ => True) (.init true) otherRange afterOther
        ∧ ¬SideBySide 1 (Table.orderBy fromSeq (afterOther.ledger.db.chainAnchors chain))
        ∧ loadCheckpoint config.crypto afterOther.ledger.db registry chain = .ok genesisCheckpoint
        ∧ verifyAnchorsWithSinkFrom config.crypto afterOther.ledger.db afterOther.ledger.sink registry chain
            genesisCheckpoint.seq = some (.fail 1 1 .anchorGap))
      ∧ Run (Shared.step config) (fun _ _ => True) (.init true) betweenWrites between
      ∧ loadCheckpoint config.crypto between.ledger.db registry chain = .ok genesisCheckpoint
      ∧ verifyAnchorsWithSinkFrom config.crypto between.ledger.db between.ledger.sink registry chain
          genesisCheckpoint.seq = some (.fail 0 1 .sinkMismatch) := by
  refine ⟨⟨?_, by decide, by decide, by decide⟩, ?_, by decide, by decide⟩
  . exact (Run.of_isSome otherRange_isSome).free
  . exact (Run.of_isSome betweenWrites_isSome).free

end HandOver

end Mxid.Audit
