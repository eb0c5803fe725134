import Mxid.Audit.Lemmas.Linked

namespace Mxid.Audit

variable (C : Crypto) (db : DB) (keys : KeyRegistry) (c : Chain)

structure AnchorOk (w : AnchorWalk) (a : AuditAnchor) : Prop where
  fromSeq_eq : a.fromSeq = w.expectedFrom
  signed : ∃ pub, keys.keyFor a.keyID = some pub ∧ verifyAnchorSig C pub a = true
  linked : linkMismatch w a = false
  not_negative : ¬(a.toSeq - a.fromSeq + 1 < 0)
  complete : Int64.ofNat (leavesBetween db c a.fromSeq a.toSeq).length = a.toSeq - a.fromSeq + 1
  root_eq : merkleRoot C (leavesBetween db c a.fromSeq a.toSeq) = a.merkleRoot

def AnchorWalk.behind (a : AuditAnchor) : AnchorWalk where
  through := a.toSeq
  expectedFrom := a.toSeq + 1
  expectPrev := some (anchorHash C a)

variable {w : AnchorWalk} {res : AnchorVerifyResult} {as : List AuditAnchor}

theorem verifyAnchor_eq_ok_iff {w' : AnchorWalk} {a : AuditAnchor} :
    verifyAnchor C db keys c w a = some (.ok w')
      ↔
    AnchorOk C db keys c w a ∧ w' = .behind C a := by
  constructor
  . intro h
    unfold verifyAnchor at h
    rw [rangeLeaves_eq] at h
    split at h
    . simp at h
    next hfrom =>
    split at h
    . simp at h
    next pub hpub =>
    split at h
    . simp at h
    next hsig =>
    split at h
    . simp at h
    next hlink =>
    split at h
    . simp at h
    next hneg =>
    dsimp only at h
    split at h
    . simp at h
    next hlen =>
    split at h
    . simp at h
    next hroot =>
    simp only [Option.some.injEq, Except.ok.injEq] at h
    exact ⟨⟨by simpa using hfrom, ⟨pub, hpub, by simpa using hsig⟩, by simpa using hlink,
      hneg, by simpa using hlen, by simpa using hroot⟩, h.symm⟩
  . rintro ⟨⟨hfrom, ⟨pub, hpub, hsig⟩, hlink, hneg, hlen, hroot⟩, rfl⟩
    unfold verifyAnchor
    rw [rangeLeaves_eq]
    simp [hfrom.symm, hpub, hsig, hlink, hneg, hlen, hroot, AnchorWalk.behind]

theorem ok_of_verifyAnchor_eq_error {a : AuditAnchor}
    (h : verifyAnchor C db keys c w a = some (.error res)) : res.ok = false := by
  unfold verifyAnchor at h
  repeat' split at h
  all_goals
    first
    | (simp only [Option.some.injEq, Except.error.injEq] at h
       subst h
       rfl)
    | simp at h

def WalkOk : AnchorWalk → List AuditAnchor → Prop
  | _, [] => True
  | w, a :: as => AnchorOk C db keys c w a ∧ WalkOk (.behind C a) as

def walkEnd (w : AnchorWalk) (as : List AuditAnchor) : AnchorWalk :=
  as.foldl (fun _ a => .behind C a) w

@[simp]
theorem walkEnd_nil (w : AnchorWalk) : walkEnd C w [] = w := rfl

@[simp]
theorem walkEnd_cons (w : AnchorWalk) (a : AuditAnchor) (as : List AuditAnchor) :
    walkEnd C w (a :: as) = walkEnd C (.behind C a) as := rfl

theorem walkAnchors_eq_ok_iff :
    walkAnchors C db keys c w as = some res ∧ res.ok = true
      ↔
    WalkOk C db keys c w as ∧ res = .success (walkEnd C w as).through := by
  induction as generalizing w with
  | nil =>
    simp only [walkAnchors, Option.some.injEq, WalkOk, true_and]
    constructor
    . rintro ⟨rfl, _⟩
      rfl
    . rintro rfl
      exact ⟨rfl, rfl⟩
  | cons a as ih =>
    unfold walkAnchors WalkOk
    cases hstep : verifyAnchor C db keys c w a with
    | none =>
      simp only [reduceCtorEq, false_and, false_iff]
      rintro ⟨⟨h, _⟩, _⟩
      have := (verifyAnchor_eq_ok_iff C db keys c).mpr ⟨h, rfl⟩
      rw [hstep] at this
      cases this
    | some r =>
      cases r with
      | error =>
        have hok := ok_of_verifyAnchor_eq_error C db keys c hstep
        constructor
        . simp only [Option.some.injEq]
          rintro ⟨rfl, h⟩
          rw [hok] at h
          contradiction
        . rintro ⟨⟨h, _⟩, _⟩
          have := (verifyAnchor_eq_ok_iff C db keys c).mpr ⟨h, rfl⟩
          rw [hstep] at this
          cases this
      | ok =>
        rcases (verifyAnchor_eq_ok_iff C db keys c).mp hstep with ⟨hok, rfl⟩
        simp only [ih, walkEnd_cons, hok, true_and]

theorem walkAnchors_isSome (h : ∀ a ∈ as, ¬(a.toSeq - a.fromSeq + 1 < 0)) : (walkAnchors C db keys c w as).isSome := by
  induction as generalizing w with
  | nil => rfl
  | cons a as ih =>
    unfold walkAnchors
    cases hstep : verifyAnchor C db keys c w a with
    | none =>
      have hneg := h a (by simp)
      unfold verifyAnchor at hstep
      rw [rangeLeaves_eq] at hstep
      repeat' split at hstep
      all_goals contradiction
    | some r =>
      cases r with
      | error => rfl
      | ok => exact ih (fun b hb => h b (by simp [hb]))

theorem WalkOk.not_negative (h : WalkOk C db keys c w as) : ∀ a ∈ as, ¬(a.toSeq - a.fromSeq + 1 < 0) := by
  induction as generalizing w with
  | nil => simp
  | cons a as ih =>
    intro b hb
    rcases List.mem_cons.mp hb with rfl | hb
    . exact h.1.not_negative
    . exact ih h.2 b hb

theorem verifyAnchorsFrom_eq_ok_iff {fromSeq : Int64} {res : AnchorVerifyResult} :
    verifyAnchorsFrom C db keys c fromSeq = some res ∧ res.ok = true
      ↔
    WalkOk C db keys c (.start (clampSeq fromSeq)) (anchorsFrom db c (clampSeq fromSeq))
      ∧ res = .success
          (walkEnd C (.start (clampSeq fromSeq)) (anchorsFrom db c (clampSeq fromSeq))).through := by
  unfold verifyAnchorsFrom
  exact walkAnchors_eq_ok_iff C db keys c

theorem WalkOk.start_le {fromSeq : Int64} {a : AuditAnchor}
    (h : WalkOk C db keys c (.start fromSeq) (anchorsFrom db c fromSeq)) (ha : a ∈ anchorsFrom db c fromSeq) :
    fromSeq ≤ a.fromSeq := by
  have hsorted : (anchorsFrom db c fromSeq).Pairwise (fun a b => a.fromSeq ≤ b.fromSeq) :=
    Table.pairwise_orderBy AuditAnchor.fromSeq _
  cases hfrom : anchorsFrom db c fromSeq with
  | nil =>
    rw [hfrom] at ha
    contradiction
  | cons b as =>
    rw [hfrom] at h hsorted ha
    have hb : b.fromSeq = fromSeq := h.1.fromSeq_eq
    rcases List.mem_cons.mp ha with rfl | ha
    . exact le_of_eq hb.symm
    . rw [← hb]
      exact (List.pairwise_cons.mp hsorted).1 a ha

end Mxid.Audit
