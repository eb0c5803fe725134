import Mxid.Audit.Lemmas.Parties
import Mxid.Data.Run

/-!
This module contains the invariant of the whole ledger: everything fits to a history of each chain.
-/

namespace Mxid.Audit

open List Int64

structure Histories where
  entries : Chain → List AuditEntry
  cut : Chain → List AuditAnchor
  kept : Chain → List AuditAnchor

def Histories.anchors (g : Histories) (c : Chain) : List AuditAnchor :=
  g.cut c ++ g.kept c

def Histories.anchored (g : Histories) (c : Chain) : Nat :=
  stopOf 0 (g.anchors c)

def Recorded (records : List AnchorRecord) (a : AuditAnchor) : Prop :=
  ∃ r, lastRecord? (records.filter (fun r => r.chain = a.chain)) a.span = some r
    ∧ r.merkleRoot = a.merkleRoot ∧ r.signature = a.signature

def Covered (as : List AuditAnchor) (r : AnchorRecord) : Prop :=
  ∃ a ∈ as, a.fromSeq = r.fromSeq ∧ r.toSeq ≤ a.toSeq

def Outstanding (w : List AuditEntry) (anchored : Nat) (r : AnchorRecord) : Prop :=
  r.fromSeq = ofNat (anchored + 1)
    ∧ ∃ m, anchored < m ∧ m ≤ w.length ∧ r.toSeq = ofNat m

variable {J : Type} (cfg : Config J) (g : Histories)

structure SinkInv (records : List AnchorRecord) (c : Chain) : Prop where
  stored : ∀ a ∈ g.anchors c, Recorded records a
  explained : ∀ r ∈ records, r.chain = c →
    Covered (g.anchors c) r ∨ Outstanding (g.entries c) (g.anchored c) r

def Widest (sink : Option (List AnchorRecord)) (c : Chain) (toSeq : Int64) : Prop :=
  ∀ records, sink = some records → ∀ r ∈ records, r.chain = c →
    r.fromSeq = ofNat (g.anchored c + 1) → r.toSeq ≤ toSeq

structure NextAnchor (sink : Option (List AnchorRecord)) (a : AuditAnchor) : Prop where
  anchors : Anchors cfg a.chain (g.entries a.chain) (g.anchored a.chain)
    (linkOf cfg.crypto [] (g.anchors a.chain)) a
  widest : Widest g sink a.chain a.toSeq

def JobOk (sink : Option (List AnchorRecord)) : AnchorJob → Prop
  | .readLast c lastTo => lastTo = ofNat (g.anchored c)
  | .readEntries c first rest =>
    ∃ m, g.anchored c < m ∧ m ≤ (g.entries c).length
      ∧ first :: rest = ((g.entries c).take m).drop (g.anchored c)
      ∧ Widest g sink c (ofNat m)
  | .signed a => NextAnchor cfg g sink a
  | .put a => NextAnchor cfg g sink a ∧ ∀ records, sink = some records → Recorded records a

def SignedOk (msg : Bytes) : Prop :=
  ∃ c n m prev, n < m ∧ m ≤ (g.entries c).length
    ∧ (prev = [] ∨ ∃ x, prev = cfg.crypto.sha256 x)
    ∧ msg = anchorSigMessageV2 c.1 c.2.bytes (ofNat (n + 1)) (ofNat m) prev
        (merkleRoot cfg.crypto ((((g.entries c).take m).drop n).map AuditEntry.entryHash))

structure Bounded (db : DB) (limit : Nat) : Prop where
  chained : ∃ n, (∀ c, (g.entries c).length ≤ n) ∧ n + db.pending.rows.length ≤ limit

structure Honest (s : State) (g : Histories) : Prop where
  chains : ∀ c, ChainOk cfg s.db c (g.entries c) (g.cut c) (g.kept c)
  sink : ∀ records, s.sink = some records → ∀ c, SinkInv g records c
  job : ∀ job, s.job = some job → JobOk cfg g s.sink job
  signed : ∀ msg ∈ s.signed, SignedOk cfg g msg
  issued_nodup : s.issued.Nodup
  issued_ge : ∀ id ∈ s.issued, minEventID ≤ id
  bounded : Bounded g s.db s.issued.length

section Init

def Histories.init : Histories where
  entries _ := []
  cut _ := []
  kept _ := []

theorem honest_init (withSink : Bool) : Honest cfg (.init withSink) .init where
  chains c := by
    refine ⟨by simp [Histories.init], trivial, by simp [Histories.init], rfl, .nil, trivial, .nil, rfl⟩
  sink records hsink c := by
    have hrecords : records = [] := by
      cases withSink <;> simp_all [State.init]
    subst hrecords
    exact ⟨by simp [Histories.anchors, Histories.init], by simp⟩
  job job hjob := by simp [State.init] at hjob
  signed msg hmsg := by simp [State.init] at hmsg
  issued_nodup := nodup_nil
  issued_ge id hid := by simp [State.init] at hid
  bounded := ⟨0, by simp [Histories.init], by simp [State.init, DB.empty]⟩

end Init

variable {cfg} {s s' : State} {g : Histories}

theorem Honest.length_issued_lt (h : Honest cfg s g) : s.issued.length + 1 < 2 ^ 63 := by
  have hge : ∀ id ∈ s.issued, ((4194304 : Nat) : Int) ≤ id.toInt := by
    intro id hid
    have := le_iff_toInt_le.mp (h.issued_ge id hid)
    simpa [minEventID] using this
  have := length_add_le_of_nodup h.issued_nodup (by decide) hge
  omega

section Capture

theorem Honest.capture {p : AuditPending} (h : Honest cfg s g)
    (hstep : step cfg s (.capture p) = some s') : Honest cfg s' g := by
  simp only [step] at hstep
  split at hstep
  . next hid =>
    split at hstep
    . contradiction
    next pending hinsert =>
    cases hstep
    refine { h with
      chains := fun c => (h.chains c).congr rfl rfl rfl rfl
      issued_nodup := nodup_cons.mpr ⟨hid.2, h.issued_nodup⟩
      issued_ge := ?_
      bounded := ?_ }
    . intro id hmem
      rcases mem_cons.mp hmem with rfl | hmem
      . exact hid.1
      . exact h.issued_ge id hmem
    . rcases h.bounded.chained with ⟨n, hn, hle⟩
      refine ⟨n, hn, ?_⟩
      simp only [Table.rows_of_insert? hinsert, length_append, length_cons, length_nil]
      omega
  . contradiction

end Capture

section Chainer

structure Extends (g g' : Histories) : Prop where
  entries : ∀ c, g.entries c <+: g'.entries c
  cut : g'.cut = g.cut
  kept : g'.kept = g.kept

theorem Extends.refl (g : Histories) : Extends g g :=
  ⟨fun _ => prefix_refl _, rfl, rfl⟩

variable {g' : Histories} {c : Chain} {sink : Option (List AnchorRecord)}

theorem Extends.trans {g g'' : Histories} (h : Extends g g') (h' : Extends g' g'') : Extends g g'' :=
  ⟨fun c => (h.entries c).trans (h'.entries c), h'.cut.trans h.cut, h'.kept.trans h.kept⟩

theorem Extends.anchors (h : Extends g g') (c : Chain) : g'.anchors c = g.anchors c := by
  rw [Histories.anchors, Histories.anchors, h.cut, h.kept]

theorem Extends.anchored (h : Extends g g') (c : Chain) : g'.anchored c = g.anchored c := by
  rw [Histories.anchored, Histories.anchored, h.anchors]

theorem Extends.take_eq (h : Extends g g') {m : Nat}
    (hm : m ≤ (g.entries c).length) : (g'.entries c).take m = (g.entries c).take m := by
  rcases h.entries c with ⟨t, ht⟩
  rw [← ht, take_append_of_le_length hm]

theorem Extends.length_le (h : Extends g g') (c : Chain) : (g.entries c).length ≤ (g'.entries c).length :=
  (h.entries c).length_le

section

variable (hext : Extends g g')

include hext

theorem SinkInv.extend {records : List AnchorRecord} (h : SinkInv g records c) : SinkInv g' records c where
  stored := by
    rw [hext.anchors]
    exact h.stored
  explained r hr hchain := by
    rw [hext.anchors, hext.anchored]
    rcases h.explained r hr hchain with hcov | ⟨hfrom, m, hm, hle, hto⟩
    . exact Or.inl hcov
    . exact Or.inr ⟨hfrom, m, hm, le_trans hle (hext.length_le c), hto⟩

theorem Widest.extend {toSeq : Int64} (h : Widest g sink c toSeq) : Widest g' sink c toSeq := by
  unfold Widest
  rw [hext.anchored]
  exact h

theorem NextAnchor.extend {a : AuditAnchor} (h : NextAnchor cfg g sink a) : NextAnchor cfg g' sink a where
  anchors := by
    rw [hext.anchored, hext.anchors]
    exact h.anchors.mono (hext.entries _)
  widest := h.widest.extend hext

theorem JobOk.extend {job : AnchorJob} (h : JobOk cfg g sink job) : JobOk cfg g' sink job := by
  cases job with
  | readLast =>
    simp only [JobOk, hext.anchored]
    exact h
  | readEntries c =>
    rcases h with ⟨m, hm, hle, heq, hwidest⟩
    refine ⟨m, ?_, le_trans hle (hext.length_le c), ?_, hwidest.extend hext⟩
    . rw [hext.anchored]
      exact hm
    . rw [hext.anchored, hext.take_eq hle]
      exact heq
  | signed => exact NextAnchor.extend hext h
  | put => exact ⟨h.1.extend hext, h.2⟩

theorem SignedOk.extend {msg : Bytes} (h : SignedOk cfg g msg) : SignedOk cfg g' msg := by
  rcases h with ⟨c, n, m, prev, hnm, hm, hprev, hmsg⟩
  refine ⟨c, n, m, prev, hnm, le_trans hm (hext.length_le c), hprev, ?_⟩
  rw [hext.take_eq hm]
  exact hmsg

end

structure Chainable (cfg : Config J) (db : DB) (g : Histories) (limit : Nat) : Prop where
  chains : ∀ c, ChainOk cfg db c (g.entries c) (g.cut c) (g.kept c)
  bounded : Bounded g db limit

theorem Chainable.step {db db' : DB} {limit : Nat} {p : AuditPending}
    (h : Chainable cfg db g limit) (hlimit : limit + 1 < 2 ^ 63) (hp : p ∈ db.pending.rows)
    (hstep : chainAndDelete cfg.encoding cfg.crypto cfg.chainer db p = some db') :
    ∃ g', Extends g g' ∧ Chainable cfg db' g' limit := by
  rcases chainAndDelete_eq_some hstep with ⟨db1, hchain, rfl, hrows⟩
  rcases h.bounded.chained with ⟨n, hn, hle⟩
  have hshorter : (db.pending.rows.filter (fun q => q.id ≠ p.id)).length < db.pending.rows.length := by
    rw [length_filter_lt_length_iff_exists]
    exact ⟨p, hp, by simp⟩
  have hlen := hn p.chain
  rcases (h.chains p.chain).chainOne_self (by omega) hchain with ⟨e, hself⟩
  refine ⟨{ g with entries := Function.update g.entries p.chain (g.entries p.chain ++ [e]) }, ?_, ?_⟩
  . refine ⟨?_, rfl, rfl⟩
    intro c
    by_cases hc : c = p.chain
    . subst hc
      simp
    . simp [hc]
  . constructor
    . intro c
      by_cases hc : c = p.chain
      . subst hc
        simp only [Function.update_self]
        exact hself.congr rfl rfl rfl rfl
      . simp only [Function.update_of_ne hc]
        exact ((h.chains c).chainOne_of_ne (fun heq => hc heq.symm) hchain).congr rfl rfl rfl rfl
    . refine ⟨n + 1, ?_, ?_⟩
      . intro c
        by_cases hc : c = p.chain
        . subst hc
          simpa using hlen
        . simp only [Function.update_of_ne hc]
          exact le_trans (hn c) (by omega)
      . rw [hrows]
        omega

theorem Honest.processBatch {limit : Int} {commit : Bool} (h : Honest cfg s g)
    (hstep : step cfg s (.processBatch limit commit) = some s') : ∃ g', Honest cfg s' g' ∧ Extends g g' := by
  simp only [step] at hstep
  split at hstep
  . next db n hbatch =>
    cases commit with
    | false =>
      cases hstep
      exact ⟨g, h, .refl g⟩
    | true =>
      cases hstep
      have hbatch' : ∃ g', Extends g g' ∧ Chainable cfg db g' s.issued.length := by
        apply processBatch_invariant _ _ hbatch
        . exact ⟨g, .refl g, h.chains, h.bounded⟩
        rintro db p db' ⟨g1, hext, h1⟩ hp hchain
        rcases h1.step h.length_issued_lt hp hchain with ⟨g2, hext', h2⟩
        exact ⟨g2, hext.trans hext', h2⟩
      rcases hbatch' with ⟨g', hext, h'⟩
      refine ⟨g', ?_, hext⟩
      exact {
        chains := h'.chains
        sink := fun records hsink c => (h.sink records hsink c).extend hext
        job := fun job hjob => (h.job job hjob).extend hext
        signed := fun msg hmsg => (h.signed msg hmsg).extend hext
        issued_nodup := h.issued_nodup
        issued_ge := h.issued_ge
        bounded := h'.bounded }
  . cases hstep
    exact ⟨g, h, .refl g⟩

end Chainer

end Mxid.Audit
