import Mxid.Audit.Lemmas.NoFalseAlarm

namespace Mxid.Audit

open List Function

variable {J : Type} {cfg : Config J}

def Holds (cfg : Config J) (e : AuditEntry) (p : AuditPending) : Prop :=
  e.chain = p.chain ∧ canonicalJSON cfg.encoding (chainPayload cfg.encoding p) = some e.payload

structure Placed (cfg : Config J) (events pending : List AuditPending) (entries : List AuditEntry)
    (origin : AuditEntry → AuditPending) : Prop where
  pending_mem : ∀ p ∈ pending, p ∈ events
  holds : ∀ e ∈ entries, Holds cfg e (origin e)
  origin_mem : ∀ e ∈ entries, origin e ∈ events
  not_pending : ∀ e ∈ entries, origin e ∉ pending
  injective : ∀ e ∈ entries, ∀ e' ∈ entries, origin e = origin e' → e = e'
  covered : ∀ p ∈ events, p ∈ pending ∨ ∃ e ∈ entries, origin e = p

section Chainer

variable {events pending : List AuditPending} {entries : List AuditEntry} {origin : AuditEntry → AuditPending}
variable {db db' : DB} {p : AuditPending}

theorem Placed.capture (h : Placed cfg events pending entries origin) (hp : p ∉ events) :
    Placed cfg (events ++ [p]) (pending ++ [p]) entries origin where
  __ := h
  pending_mem q hq := by
    rcases mem_append.mp hq with hq | hq
    . apply mem_append_left _ (h.pending_mem q hq)
    . apply mem_append_right _ hq
  origin_mem e he := mem_append_left _ (h.origin_mem e he)
  not_pending e he hmem := by
    rcases mem_append.mp hmem with hmem | hmem
    . apply h.not_pending e he hmem
    rw [mem_singleton] at hmem
    apply hp
    rw [← hmem]
    apply h.origin_mem e he
  covered q hq := by
    rcases mem_append.mp hq with hq | hq
    . rcases h.covered q hq with hq | hq
      . left
        apply mem_append_left _ hq
      . right
        exact hq
    . left
      apply mem_append_right _ hq

theorem Placed.move (h : Placed cfg events pending entries origin) {e : AuditEntry}
    (hp : p ∈ pending) (he : e ∉ entries) (hholds : Holds cfg e p) (hkey : ∀ q ∈ pending, q.id = p.id → q = p) :
    Placed cfg events (pending.filter (fun q => q.id ≠ p.id)) (entries ++ [e]) (update origin e p) := by
  have hold : ∀ e' ∈ entries, update origin e p e' = origin e' := by
    intro e' he'
    apply update_of_ne
    rintro rfl
    contradiction
  have hne : ∀ e' ∈ entries, origin e' ≠ p := by
    intro e' he' heq
    apply h.not_pending e' he'
    rw [heq]
    exact hp
  have hcases : ∀ e' ∈ entries ++ [e], (e' ∈ entries ∧ update origin e p e' = origin e')
      ∨ (e' = e ∧ update origin e p e' = p) := by
    intro e' he'
    rcases mem_append.mp he' with he' | he'
    . exact .inl ⟨he', hold e' he'⟩
    rw [mem_singleton] at he'
    subst he'
    exact .inr ⟨rfl, update_self ..⟩
  constructor
  . intro q hq
    apply h.pending_mem q (mem_of_mem_filter hq)
  . intro e' he'
    rcases hcases e' he' with ⟨he', heq⟩ | ⟨rfl, heq⟩
    . rw [heq]
      apply h.holds e' he'
    . rw [heq]
      exact hholds
  . intro e' he'
    rcases hcases e' he' with ⟨he', heq⟩ | ⟨rfl, heq⟩
    . rw [heq]
      apply h.origin_mem e' he'
    . rw [heq]
      apply h.pending_mem p hp
  . intro e' he' hmem
    rcases hcases e' he' with ⟨he', heq⟩ | ⟨rfl, heq⟩
    . rw [heq] at hmem
      apply h.not_pending e' he' (mem_of_mem_filter hmem)
    . simp at hmem
  . intro e1 he1 e2 he2 heq
    rcases hcases e1 he1 with ⟨hmem1, heq1⟩ | ⟨rfl, heq1⟩
    . rcases hcases e2 he2 with ⟨hmem2, heq2⟩ | ⟨rfl, heq2⟩
      . rw [heq1, heq2] at heq
        apply h.injective e1 hmem1 e2 hmem2 heq
      . rw [heq1, heq2] at heq
        exact absurd heq (hne e1 hmem1)
    . rcases hcases e2 he2 with ⟨hmem2, heq2⟩ | ⟨rfl, heq2⟩
      . rw [heq1, heq2] at heq
        exact absurd heq.symm (hne e2 hmem2)
      . rfl
  . intro q hq
    by_cases hqp : q = p
    . subst hqp
      right
      exact ⟨e, by simp, update_self ..⟩
    . rcases h.covered q hq with hq | ⟨e', he', heq⟩
      . left
        rw [mem_filter]
        refine ⟨hq, ?_⟩
        rw [decide_eq_true_eq]
        intro hid
        exact hqp (hkey q hq hid)
      . right
        refine ⟨e', mem_append_left _ he', ?_⟩
        rw [hold e' he', heq]

end Chainer

section Run

variable {s s' : State} {acts : List Action} {a : Action}

structure Accounted (cfg : Config J) (acts : List Action) (s : State) : Prop where
  issued : ∀ p ∈ captured acts, p.id ∈ s.issued
  placed : ∃ origin, Placed cfg (captured acts) s.db.pending.rows s.db.entries.rows origin

theorem captured_append (acts : List Action) (a : Action) : captured (acts ++ [a]) = captured acts ++ captured [a] := by
  apply filterMap_append

theorem Accounted.capture {p : AuditPending} (h : Accounted cfg acts s)
    (hstep : step cfg s (.capture p) = some s') : Accounted cfg (acts ++ [.capture p]) s' := by
  simp only [step] at hstep
  split at hstep
  . next hguard =>
    split at hstep
    . contradiction
    next pending hinsert =>
    cases hstep
    have hcaptured : captured (acts ++ [.capture p]) = captured acts ++ [p] := captured_append _ _
    have hnew : p ∉ captured acts := by
      intro hp
      exact hguard.2 (h.issued p hp)
    rcases h.placed with ⟨origin, hplaced⟩
    constructor
    . intro q hq
      rw [hcaptured] at hq
      rcases mem_append.mp hq with hq | hq
      . apply mem_cons_of_mem _ (h.issued q hq)
      . rw [mem_singleton.mp hq]
        apply mem_cons_self
    . refine ⟨origin, ?_⟩
      dsimp only
      rw [hcaptured, Table.rows_of_insert? hinsert]
      apply hplaced.capture hnew
  . contradiction

theorem Accounted.processBatch {limit : Int} {commit : Bool} (h : Accounted cfg acts s)
    (hstep : step cfg s (.processBatch limit commit) = some s') :
    Accounted cfg (acts ++ [.processBatch limit commit]) s' := by
  have hcaptured : captured (acts ++ [.processBatch limit commit]) = captured acts := by
    rw [captured_append]
    apply append_nil
  simp only [step] at hstep
  split at hstep
  . next db n hbatch =>
    split at hstep
    . cases hstep
      constructor
      . rw [hcaptured]
        exact h.issued
      . rw [hcaptured]
        apply processBatch_invariant h.placed _ hbatch
        rintro db1 p db2 ⟨origin, hplaced⟩ hp hchain
        rcases chainAndDelete_eq_some hchain with ⟨db3, hone, rfl, hrows⟩
        rcases chainOne_eq_some hone with ⟨e, canonical, he, hentries, _, _, _, _, hcanonical, hnew⟩
        refine ⟨update origin e p, ?_⟩
        rw [hrows, hentries]
        apply hplaced.move hp hnew
        . rw [he]
          exact ⟨rfl, hcanonical⟩
        . intro q hq hid
          apply db1.pending.eq_of_key_eq hq hp hid
    . cases hstep
      exact ⟨hcaptured ▸ h.issued, hcaptured ▸ h.placed⟩
  . cases hstep
    exact ⟨hcaptured ▸ h.issued, hcaptured ▸ h.placed⟩

theorem Accounted.congr (h : Accounted cfg acts s) (hcaptured : captured [a] = [])
    (hissued : s'.issued = s.issued) (hpending : s'.db.pending = s.db.pending)
    (hentries : s'.db.entries = s.db.entries) : Accounted cfg (acts ++ [a]) s' := by
  have hevents : captured (acts ++ [a]) = captured acts := by
    rw [captured_append, hcaptured, append_nil]
  constructor
  . rw [hevents, hissued]
    exact h.issued
  . rw [hevents, hpending, hentries]
    exact h.placed

theorem Accounted.step (h : Accounted cfg acts s) (ha : a.appends = true) (hstep : step cfg s a = some s') :
    Accounted cfg (acts ++ [a]) s' := by
  cases a with
  | capture => apply h.capture hstep
  | processBatch => apply h.processBatch hstep
  | prune => contradiction
  | _ =>
    simp only [Audit.step, stepAnchorSign, stepAnchorPut, stepAnchorCreate] at hstep
    repeat' split at hstep
    all_goals first | contradiction | (cases hstep; exact h.congr rfl rfl rfl rfl)

structure Contiguous (db : DB) (c : Chain) (w : List AuditEntry) : Prop where
  entries : (db.chainEntries c).Perm w
  seq : ∀ i (hi : i < w.length), w[i].seq.toInt = i + 1
  genesis : ∀ hi : 0 < w.length, w[0].prevHash = genesisPrevHash
  prevHash : ∀ i (hi : i + 1 < w.length), w[i + 1].prevHash = w[i].entryHash
  head : db.heads.find? c = headOf c w

end Run

/-!
Three events of two tenants. One call of the chainer cannot commit, the next one takes two events.
-/

namespace TwoTenants

open LostCreate (config event)

def acts : List Action :=
  [.capture event, .capture { event with id := 4194305, tenantID := 2 }, .processBatch 100 false,
    .capture { event with id := 4194306 }, .processBatch 2 true]

abbrev exec : Option State :=
  Run.exec (step config) (fun _ a => a.appends = true) (.init false) acts

theorem exec_isSome : exec.isSome = true := by
  decide

def final : State := exec.get exec_isSome

end TwoTenants

end Mxid.Audit
