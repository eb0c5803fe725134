import Mxid.User.Lemmas.Programs
import Mxid.User.Lemmas.Statements

namespace Mxid.User

open List Account

variable {s : Store} {scope : Scope} {tenantID : Int} {β : Type}

theorem Account.administers_iff {u : Account} :
    u.administers tenantID = true
      ↔
    u.deleted = false ∧ u.tenantID = tenantID ∧ u.isSuperAdmin = true ∧ u.status = statusActive := by
  simp [administers, and_assoc]

namespace Store

theorem administered_iff : s.administered tenantID = true ↔ ∃ u ∈ s.users.rows, u.administers tenantID = true :=
  any_eq_true

theorem exists_not_concerned {id : Int} (h : 2 ≤ (s.users.rows.filter (administers tenantID)).length) :
    ∃ u ∈ s.users.rows, u.administers tenantID = true ∧ concerns scope id u = false := by
  have hnodup := s.users.nodup_rows.filter (administers tenantID)
  have hmem : ∀ u ∈ s.users.rows.filter (administers tenantID),
      u ∈ s.users.rows ∧ u.administers tenantID = true := fun u hu => mem_filter.mp hu
  match hrows : s.users.rows.filter (administers tenantID) with
  | [] | [_] => simp [hrows] at h
  | a :: b :: rest =>
    rw [hrows] at hnodup hmem
    have ha := hmem a (by simp)
    have hb := hmem b (by simp)
    cases hca : concerns scope id a with
    | false => exact ⟨a, ha.1, ha.2, hca⟩
    | true =>
      refine ⟨b, hb.1, hb.2, ?_⟩
      -- both would have the same id
      by_contra hcb
      rw [Bool.not_eq_false] at hcb
      have heq : a = b := s.users.eq_of_key_eq ha.1 hb.1 ((id_of_concerns hca).trans (id_of_concerns hcb).symm)
      rw [heq] at hnodup
      simp at hnodup

theorem exists_other {u : Account} (hadmin : u.administers tenantID = true) (h : s.onlyAdmin u = false) :
    ∃ u' ∈ s.users.rows, u'.administers tenantID = true ∧ u'.id ≠ u.id := by
  have htenant := (administers_iff.mp hadmin).2.1
  rw [onlyAdmin, htenant, hadmin, Bool.true_and, all_eq_false] at h
  rcases h with ⟨u', hu', hother⟩
  rw [Bool.or_eq_true, not_or, decide_eq_true_eq, Bool.not_eq_true', Bool.not_eq_false] at hother
  exact ⟨u', hu', hother.2, hother.1⟩

theorem exists_spared {u : Account} {id : Int} (hadmin : u.administers tenantID = true)
    (hconcerns : concerns scope id u = true) (h : (!(concerns scope id u && s.onlyAdmin u)) = true) :
    ∃ u' ∈ s.users.rows, u'.administers tenantID = true ∧ concerns scope id u' = false := by
  rw [hconcerns, Bool.true_and, Bool.not_eq_true'] at h
  rcases exists_other hadmin h with ⟨u', hu', hadmin', hne⟩
  refine ⟨u', hu', hadmin', ?_⟩
  rw [← Bool.not_eq_true]
  intro hconcerns'
  exact hne ((id_of_concerns hconcerns').trans (id_of_concerns hconcerns).symm)

theorem administered_rewrite {c : Cmd β} {u : Account} (hproper : c.proper true) (hc : c.sparesAdmins s = true)
    (hu : u ∈ s.users.rows) (hadmin : u.administers tenantID = true) (hhits : c.hits u = true) :
    (c.rewrite u).administers tenantID = true
      ∨ ∃ u' ∈ s.users.rows, u'.administers tenantID = true ∧ c.hits u' = false := by
  cases c with
  | setSuperAdmin _ _ makeSuper =>
    cases makeSuper with
    | true =>
      left
      rw [administers_iff] at hadmin ⊢
      exact ⟨hadmin.1, hadmin.2.1, rfl, hadmin.2.2.2⟩
    | false =>
      right
      have hspares := all_eq_true.mp hc u hu
      rw [Bool.or_eq_true, decide_eq_true_eq, (administers_iff.mp hadmin).2.1] at hspares
      rcases hspares with hspares | hcount
      . exact exists_spared hadmin hhits hspares
      . -- as many as were counted are active, and these were at least two
        apply exists_not_concerned
        rw [hcount]
        exact hproper rfl
  | updateStatus =>
    unfold Cmd.sparesAdmins at hc
    rw [Bool.or_eq_true, decide_eq_true_eq] at hc
    rcases hc with rfl | hc
    . left
      rw [administers_iff] at hadmin ⊢
      exact ⟨hadmin.1, hadmin.2.1, hadmin.2.2.1, rfl⟩
    . exact Or.inr (exists_spared hadmin hhits (all_eq_true.mp hc u hu))
  | updatePassword => exact Or.inl hadmin
  | delete => exact Or.inr (exists_spared hadmin hhits (all_eq_true.mp hc u hu))
  | restoreUser =>
    left
    rw [administers_iff] at hadmin ⊢
    exact ⟨rfl, hadmin.2⟩
  | _ => contradiction

theorem administered_exec {c : Cmd β} (h : s.administered tenantID = true) (hproper : c.proper true)
    (hc : c.sparesAdmins s = true) : (exec c s).2.administered tenantID = true := by
  cases hsaves : c.saves with
  | true =>
    cases c with
    | save scope base edit =>
      apply exec_keeps (P := fun s => s.administered tenantID = true) h
      intro s' hsave
      rcases administered_iff.mp h with ⟨u, hu, hadmin⟩
      have htenant := (administers_iff.mp hadmin).2.1
      apply administered_iff.mpr
      by_cases hid : u.id = base.id
      . simp only [Cmd.sparesAdmins] at hc
        rw [s.users.find?_eq_some_iff.mpr ⟨hu, hid⟩, Option.all_some, htenant, Bool.or_eq_true, Bool.not_eq_true'] at hc
        rcases hc with honly | hsaved
        . rcases exists_other hadmin honly with ⟨u', hu', hadmin', hne⟩
          exact ⟨u', (mem_save hsave).mpr (Or.inr ⟨hu', hid ▸ hne⟩), hadmin'⟩
        . exact ⟨edit.apply base, (mem_save hsave).mpr (Or.inl rfl), hsaved⟩
      . exact ⟨u, (mem_save hsave).mpr (Or.inr ⟨hu, hid⟩), hadmin⟩
    | _ => contradiction
  | false =>
    have hrows := rewrites_exec (s := s) hsaves
    rcases administered_iff.mp h with ⟨u, hu, hadmin⟩
    apply administered_iff.mpr
    rcases hrows.stay u hu with hstays | ⟨hhits, hrewritten⟩
    . exact ⟨u, hstays, hadmin⟩
    rcases administered_rewrite hproper hc hu hadmin hhits with hadmin' | ⟨u', hu', hadmin', hmissed⟩
    . exact ⟨_, hrewritten, hadmin'⟩
    rcases hrows.stay u' hu' with hstays | ⟨hhits', _⟩
    . exact ⟨u', hstays, hadmin'⟩
    . rw [hmissed] at hhits'
      contradiction

end Store

theorem superAdmin_remains {s₀ : Store} {calls : List Call} {turns : List (Nat × Nat)} {p : Clients} {tenantID : Int}
    (hinit : s₀.administered tenantID = true)
    (hrun : Run Clients.step (fun p turn => p.executes Cmd.sparesAdmins turn = true) (.start s₀ calls) turns p) :
    p.shared.data.administered tenantID = true := by
  have hstart : Run Clients.step (fun _ _ => True) (.start s₀ calls) [] (.start s₀ calls) := .nil
  apply Clients.invariant_of_run hstart (I := fun s => s.administered tenantID = true) _ hinit hrun
  intro β c s h hproper hc
  exact Store.administered_exec h hproper hc

namespace LastAdmin

def bob (isSuperAdmin : Bool) (status : Int) : Account := { User.bob with isSuperAdmin, status }

def store (bob : Account) : Store := .holding [{ ann with isSuperAdmin := true }, bob] []

def outcome (allowed : Clients → Nat × Nat → Bool) (bob : Account) (calls : List Call) (turns : List Nat) :
    Option Clients :=
  Clients.exec allowed (.start (store bob) calls) (turns.map (·, 0))

def revoke (actorID targetID : Int) : Call := .setSuperAdmin (.tenant 1) actorID 1 targetID false

def lost (p : Clients) : Bool := p.finished && !p.shared.data.administered 1

theorem lastAdmin_lost :
    (store (bob false statusActive)).administered 1 = true
      ∧ (outcome (fun _ _ => true) (bob false statusActive) [.delete (.tenant 1) 7 100] [0, 0, 0]).any lost = true
      ∧ (outcome (fun _ _ => true) (bob false statusActive) [.updateStatus (.tenant 1) 7 statusDisabled] [0, 0]).any
          lost = true
      ∧ (outcome (fun _ _ => true) (bob false statusActive)
          [.update (.tenant 1) 7 1 ⟨none, none, none, none, some statusDisabled⟩] [0, 0]).any lost = true
      ∧ (outcome (fun _ _ => true) (bob true statusActive) [revoke 7 8, revoke 8 7] [0, 0, 1, 1, 0, 1]).any lost = true
      ∧ (outcome (fun _ _ => true) (bob true statusDisabled) [revoke 8 7] [0, 0, 0]).any lost = true := by
  decide

theorem kept_isSome :
    (outcome (Pool.executes Cmd.sparesAdmins) (bob true statusActive) [revoke 7 8, revoke 8 7] [0, 0, 0, 1, 1]).isSome
      = true := by
  decide

def kept : Clients :=
  (outcome (Pool.executes Cmd.sparesAdmins) (bob true statusActive) [revoke 7 8, revoke 8 7] [0, 0, 0, 1, 1]).get
    kept_isSome

theorem superAdmin_remains_inOrder : kept.finished = true ∧ kept.shared.data.administered 1 = true :=
  ⟨by decide, superAdmin_remains (by decide) (Run.of_isSome kept_isSome)⟩

end LastAdmin

end Mxid.User
