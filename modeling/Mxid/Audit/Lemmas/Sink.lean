import Mxid.Audit.Lemmas.Anchors

namespace Mxid.Audit

open List Int64

section Walk

variable {C : Crypto} {db : DB} {keys : KeyRegistry} {c : Chain}

theorem AnchorOk.fromSeq_le {w : AnchorWalk} {a : AuditAnchor} (h : AnchorOk C db keys c w a)
    (hfrom : 1 ≤ a.fromSeq) (hto : 1 ≤ a.toSeq) : a.fromSeq.toInt ≤ a.toSeq.toInt + 1 := by
  have hneg := h.not_negative
  have hfrom' := le_iff_toInt_le.mp hfrom
  have hto' := le_iff_toInt_le.mp hto
  have hf := a.fromSeq.toInt_lt
  have ht := a.toSeq.toInt_lt
  rw [toInt_one] at hfrom' hto'
  have hsub : (a.toSeq - a.fromSeq).toInt = a.toSeq.toInt - a.fromSeq.toInt := by
    apply toInt_sub_of_bounds <;> omega
  have hadd : (a.toSeq - a.fromSeq + 1).toInt = a.toSeq.toInt - a.fromSeq.toInt + 1 := by
    rw [toInt_add_of_bounds] <;> rw [hsub, toInt_one] <;> omega
  rw [lt_iff_toInt_lt, hadd, toInt_zero] at hneg
  omega

theorem WalkOk.ordered {w : AnchorWalk} {as : List AuditAnchor} (h : WalkOk C db keys c w as)
    (hsorted : as.Pairwise (fun a b => a.fromSeq ≤ b.fromSeq)) (hto : ∀ a ∈ as, 1 ≤ a.toSeq)
    (hw : 1 ≤ w.expectedFrom) (hthrough : w.through < w.expectedFrom) :
    as.Pairwise (fun a b => a.toSeq < b.fromSeq)
      ∧ (∀ a ∈ as, w.through < a.fromSeq ∧ a.fromSeq.toInt ≤ a.toSeq.toInt + 1
          ∧ a.toSeq ≤ (walkEnd C w as).through)
      ∧ w.through ≤ (walkEnd C w as).through := by
  induction as generalizing w with
  | nil => simp
  | cons a as ih =>
    have hfrom : a.fromSeq = w.expectedFrom := h.1.fromSeq_eq
    have hrange := h.1.fromSeq_le (by rw [hfrom]; exact hw) (hto a (by simp))
    have hle : w.through ≤ a.toSeq := by
      rw [← hfrom] at hthrough
      have := lt_iff_toInt_lt.mp hthrough
      rw [le_iff_toInt_le]
      omega
    cases as with
    | nil =>
      simp only [pairwise_cons, not_mem_nil, false_implies, implies_true, true_and,
        List.Pairwise.nil, mem_singleton, forall_eq, walkEnd_cons, walkEnd_nil]
      exact ⟨⟨by rw [hfrom]; exact hthrough, hrange, le_refl _⟩, hle⟩
    | cons b =>
      -- The next anchor starts at `toSeq + 1` and not before this one, so `toSeq + 1` did not wrap.
      have hb : b.fromSeq = a.toSeq + 1 := h.2.1.fromSeq_eq
      have hab : a.fromSeq ≤ b.fromSeq := (pairwise_cons.mp hsorted).1 b (by simp)
      have hb1 : 1 ≤ b.fromSeq := le_trans (by rw [hfrom]; exact hw) hab
      have hlt : a.toSeq < a.toSeq + 1 := by
        by_cases hmax : a.toSeq < maxValue
        . rw [lt_iff_toInt_lt, toInt_add_one hmax]
          omega
        have hto' : a.toSeq = maxValue := le_antisymm (by
          rw [le_iff_toInt_le]
          exact toInt_le _) (not_lt.mp hmax)
        rw [hb, hto'] at hb1
        exact absurd hb1 (by decide)
      have hbehind : (AnchorWalk.behind C a).expectedFrom = b.fromSeq := hb.symm
      have hnext := ih h.2 (pairwise_cons.mp hsorted).2 (fun x hx => hto x (by simp [hx]))
        (by rw [hbehind]; exact hb1) hlt
      rcases hnext with ⟨hpair, hall, hend⟩
      refine ⟨?_, ?_, le_trans hle hend⟩
      . exact pairwise_cons.mpr ⟨fun x hx => (hall x hx).1, hpair⟩
      intro x hx
      rcases mem_cons.mp hx with rfl | hx
      . exact ⟨by rw [hfrom]; exact hthrough, hrange, hend⟩
      . exact ⟨lt_of_le_of_lt hle (hall x hx).1, (hall x hx).2⟩

end Walk

section Index

def lastRecord? (records : List AnchorRecord) (span : Chain × Int64 × Int64) : Option AnchorRecord :=
  records.reverse.find? (fun r => r.span = span)

theorem lastRecord?_append_self (records : List AnchorRecord) (r : AnchorRecord) :
    lastRecord? (records ++ [r]) r.span = some r := by
  simp [lastRecord?]

variable {r : AnchorRecord} {span : Chain × Int64 × Int64}

theorem lastRecord?_append_of_ne (records : List AnchorRecord) (h : r.span ≠ span) :
    lastRecord? (records ++ [r]) span = lastRecord? records span := by
  simp [lastRecord?, h]

variable {records : List AnchorRecord}

theorem lastRecord?_isSome_of_mem (h : r ∈ records) : ∃ r', lastRecord? records r.span = some r' := by
  have hsome : (lastRecord? records r.span).isSome := by
    rw [lastRecord?, List.find?_isSome]
    exact ⟨r, mem_reverse.mpr h, by simp⟩
  exact Option.isSome_iff_exists.mp hsome

theorem of_lastRecord?_eq_some (h : lastRecord? records span = some r) : r ∈ records ∧ r.span = span :=
  ⟨mem_reverse.mp (mem_of_find?_eq_some h), by simpa using List.find?_some h⟩

theorem mem_sinkIndex_iff {sink : List AnchorRecord} {c : Chain} :
    r ∈ sinkIndex sink c
      ↔
    lastRecord? (sink.filter (fun r => r.chain = c)) r.span = some r := by
  unfold sinkIndex
  generalize sink.filter (fun r => r.chain = c) = records
  induction records using List.reverseRecOn with
  | nil => simp [lastRecord?]
  | append_singleton records r' ih =>
    rw [foldl_append, foldl_cons, foldl_nil, mem_append, mem_filter, ih]
    by_cases hspan : r'.span = r.span
    . rw [← hspan, lastRecord?_append_self]
      simp [hspan, eq_comm]
    . rw [lastRecord?_append_of_ne records hspan]
      have hne : r.span ≠ r'.span := fun h => hspan h.symm
      have hne' : r ≠ r' := fun h => hspan (by rw [h])
      simp [hne, hne']

theorem find?_sinkIndex (sink : List AnchorRecord) (c : Chain) (span : Chain × Int64 × Int64) :
    (sinkIndex sink c).find? (fun r => r.span = span)
      =
    lastRecord? (sink.filter (fun r => r.chain = c)) span := by
  cases hfind : (sinkIndex sink c).find? (fun r => r.span = span) with
  | some r =>
    have hspan : r.span = span := by simpa using List.find?_some hfind
    have hmem := mem_sinkIndex_iff.mp (mem_of_find?_eq_some hfind)
    rw [hspan] at hmem
    exact hmem.symm
  | none =>
    cases hlast : lastRecord? (sink.filter (fun r => r.chain = c)) span with
    | none => rfl
    | some r =>
      have hspan := (of_lastRecord?_eq_some hlast).2
      have hmem : r ∈ sinkIndex sink c := by
        rw [mem_sinkIndex_iff, hspan]
        exact hlast
      have := List.find?_eq_none.mp hfind r hmem
      simp [hspan] at this

theorem sinkMatches_iff {sink : List AnchorRecord} {c : Chain} {a : AuditAnchor} :
    sinkMatches (sinkIndex sink c) a = true
      ↔
    ∃ r, lastRecord? (sink.filter (fun r => r.chain = c)) a.span = some r
      ∧ r.merkleRoot = a.merkleRoot ∧ r.signature = a.signature := by
  unfold sinkMatches
  rw [find?_sinkIndex]
  cases lastRecord? (sink.filter (fun r => r.chain = c)) a.span with
  | none | some => simp

variable {anchors : List AuditAnchor}

theorem sinkCovered_iff :
    sinkCovered anchors r = true
      ↔
    (∃ a ∈ anchors, a.span = r.span)
      ∨ ∃ a ∈ anchors, a.fromSeq = r.fromSeq ∧ 0 < a.toSeq ∧ r.toSeq ≤ a.toSeq := by
  unfold sinkCovered
  rw [Bool.or_eq_true]
  apply or_congr
  . simp
  cases hmax : maxDBToSeqAt anchors r.fromSeq with
  | none =>
    simp only [Bool.false_eq_true, false_iff, not_exists, not_and]
    intro a ha hfrom hpos
    unfold maxDBToSeqAt at hmax
    rw [List.max?_eq_none_iff, map_eq_nil_iff, filter_eq_nil_iff] at hmax
    have := hmax a ha
    simp [hfrom, hpos] at this
  | some =>
    unfold maxDBToSeqAt at hmax
    rw [List.max?_eq_some_iff] at hmax
    simp only [mem_map, mem_filter, decide_eq_true_eq, forall_exists_index, and_imp] at hmax
    rcases hmax with ⟨⟨a, ⟨ha, hfrom, hpos⟩, rfl⟩, hle⟩
    simp only [decide_eq_true_eq]
    constructor
    . intro h
      exact ⟨a, ha, hfrom, hpos, h⟩
    . rintro ⟨b, hb, hbf, hbp, hr⟩
      exact le_trans hr (hle b.toSeq b hb hbf hbp rfl)

end Index

end Mxid.Audit
