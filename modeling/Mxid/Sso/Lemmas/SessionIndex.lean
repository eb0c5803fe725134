import Mxid.Sso.Impl.SessionIndex

namespace Mxid.Sso

open Redis.Store List
namespace LogoutIndex

variable {ρ : Type}

structure Lasting (index : LogoutIndex ρ) : Prop where
  dated : ∀ k e, index.refs k = some e → e.value ≠ [] ∧ ∃ t, e.expireAt = some t
  listed : ∀ now userID appID, index.now ≤ now → index.refs.smembers now (userID, appID) ≠ [] →
    appID ≠ 0 ∧ appID ∈ index.apps.smembers now userID

variable {index : LogoutIndex ρ}

theorem lasting_empty (now : Int) : (empty now : LogoutIndex ρ).Lasting where
  dated := by
    intro k e h
    contradiction
  listed := by
    intro _ userID appID _ h
    exact absurd rfl h

theorem Lasting.wait (h : index.Lasting) (n : Nat) : (index.wait n).Lasting where
  dated := h.dated
  listed := by
    intro now userID appID hnow
    apply h.listed now userID appID
    have : (index.wait n).now = index.now + n := rfl
    omega

theorem Lasting.delete (h : index.Lasting) (userID appID : Int) : (index.delete userID appID).Lasting where
  dated := by
    intro k e he
    exact h.dated k e (eq_of_del_eq_some he)
  listed := by
    intro now u a hnow hrefs
    have hne : (u, a) ≠ (userID, appID) := by
      intro heq
      rw [heq] at hrefs
      exact hrefs (smembers_del_self _ _ _)
    have hrefs : index.refs.smembers now (u, a) ≠ [] := by
      rw [← smembers_congr (del_of_ne hne)]
      exact hrefs
    rcases h.listed now u a hnow hrefs with ⟨ha, hmem⟩
    refine ⟨ha, ?_⟩
    by_cases hu : u = userID
    . subst hu
      apply mem_smembers_srem index.now u hmem
      rintro rfl
      exact hne rfl
    . rw [← smembers_congr (srem_of_ne hu)] at hmem
      exact hmem

variable [DecidableEq ρ]

section Record

variable (userID appID : Int) (ref : ρ) (ttl : Int)

theorem record_refs :
    (index.record userID appID ref ttl).refs
      =
    if formatSec ttl ≤ 0 then index.refs.del (userID, appID)
    else index.refs.set (userID, appID) ((index.get userID appID).insert ref)
      (some (index.now + 1000 * formatSec ttl)) := by
  apply sadd_expire

theorem record_apps :
    (index.record userID appID ref ttl).apps
      =
    if formatSec ttl ≤ 0 then index.apps.del userID
    else index.apps.set userID ((index.apps.smembers index.now userID).insert appID)
      (some (index.now + 1000 * formatSec ttl)) := by
  apply sadd_expire

variable {userID appID ref ttl}

theorem record_refs_of_ne {k : Int × Int} (hk : k ≠ (userID, appID)) :
    (index.record userID appID ref ttl).refs k = index.refs k := by
  rw [record_refs]
  split
  . exact del_of_ne hk
  . exact set_of_ne hk

theorem record_apps_of_ne {u : Int} (hu : u ≠ userID) : (index.record userID appID ref ttl).apps u = index.apps u := by
  rw [record_apps]
  split
  . exact del_of_ne hu
  . exact set_of_ne hu

theorem mem_record_apps {now a : Int} :
    a ∈ (index.record userID appID ref ttl).apps.smembers now userID
      ↔
    0 < formatSec ttl ∧ now ≤ index.now + 1000 * formatSec ttl
      ∧ (a = appID ∨ a ∈ index.apps.smembers index.now userID) := by
  rw [record_apps]
  split
  . next hsec =>
    rw [smembers_del_self]
    apply iff_of_false not_mem_nil
    omega
  . next hsec =>
    rw [mem_smembers_set_self, mem_insert_iff]
    have : 0 < formatSec ttl := by omega
    simp [this]

theorem mem_record_refs {now : Int} {m : ρ} :
    m ∈ (index.record userID appID ref ttl).refs.smembers now (userID, appID)
      ↔
    0 < formatSec ttl ∧ now ≤ index.now + 1000 * formatSec ttl ∧ (m = ref ∨ m ∈ index.get userID appID) := by
  rw [record_refs]
  split
  . next hsec =>
    rw [smembers_del_self]
    apply iff_of_false not_mem_nil
    omega
  . next hsec =>
    rw [mem_smembers_set_self, mem_insert_iff]
    have : 0 < formatSec ttl := by omega
    simp [this]

theorem record_refs_self {now : Int} :
    (index.record userID appID ref ttl).refs.smembers now (userID, appID) ≠ []
      ↔
    0 < formatSec ttl ∧ now ≤ index.now + 1000 * formatSec ttl := by
  constructor
  . intro h
    rcases exists_mem_of_ne_nil _ h with ⟨m, hm⟩
    rw [mem_record_refs] at hm
    exact ⟨hm.1, hm.2.1⟩
  . rintro ⟨hpos, hnow⟩
    apply ne_nil_of_mem (a := ref)
    rw [mem_record_refs]
    exact ⟨hpos, hnow, .inl rfl⟩

end Record

omit [DecidableEq ρ] in
theorem outlasts_iff {userID appID ttl : Int} :
    index.outlasts userID appID ttl = true
      ↔
    ∀ id ∈ index.appsForUser userID, id ≠ appID → ∀ e, index.refs.lookup index.now (userID, id) = some e →
      0 < formatSec ttl ∧ ∃ t, e.expireAt = some t ∧ t ≤ index.now + 1000 * formatSec ttl := by
  unfold outlasts
  rw [all_eq_true]
  apply forall₂_congr
  intro id _
  rw [Bool.or_eq_true, decide_eq_true_iff, ← or_iff_not_imp_left]
  apply or_congr_right
  cases index.refs.lookup index.now (userID, id) with
  | none => simp
  | some => simp [Option.any_eq_true]

theorem Lasting.record_iff (h : index.Lasting) {userID appID ttl : Int} {ref : ρ} :
    (index.record userID appID ref ttl).Lasting ↔ index.Orderly (.record userID appID ref ttl) := by
  show _ ↔ _ ∧ index.outlasts userID appID ttl = true
  rw [outlasts_iff]
  constructor
  . intro hrecord
    constructor
    . by_cases hsec : formatSec ttl ≤ 0
      . exact .inr hsec
      left
      have hrefs : (index.record userID appID ref ttl).refs.smembers index.now (userID, appID) ≠ [] := by
        rw [record_refs_self]
        omega
      exact (hrecord.listed index.now userID appID (Int.le_refl _) hrefs).1
    . intro id hid hne e he
      have hkey : (userID, id) ≠ (userID, appID) := by
        intro heq
        exact hne (Prod.mk.inj heq).2
      rw [lookup_eq_some_iff] at he
      rcases h.dated _ _ he.1 with ⟨hvalue, t, ht⟩
      rcases exists_mem_of_ne_nil _ hvalue with ⟨m, hm⟩
      have hlive : index.now ≤ t := by
        have := he.2
        rw [Redis.Entry.live, ht] at this
        exact of_decide_eq_true this
      -- the other session at the moment of its end
      have hrefs : (index.record userID appID ref ttl).refs.smembers t (userID, id) ≠ [] := by
        rw [smembers_congr (record_refs_of_ne hkey)]
        apply ne_nil_of_mem (a := m)
        apply mem_smembers he.1 _ hm
        rw [Redis.Entry.live, ht]
        exact decide_eq_true (Int.le_refl t)
      have hmem := (hrecord.listed t userID id hlive hrefs).2
      rw [mem_record_apps] at hmem
      exact ⟨hmem.1, t, ht, hmem.2.1⟩
  . rintro ⟨hzero, houtlasts⟩
    constructor
    . intro k e he
      by_cases hk : k = (userID, appID)
      . rw [record_refs] at he
        split at he
        . exact h.dated k e (eq_of_del_eq_some he)
        rcases eq_of_set_eq_some he with ⟨_, rfl⟩ | he
        . exact ⟨ne_nil_of_mem mem_insert_self, _, rfl⟩
        . exact h.dated k e he
      . rw [record_refs_of_ne hk] at he
        exact h.dated k e he
    . intro now u a hnow hrefs
      have hnow : index.now ≤ now := hnow
      by_cases hk : (u, a) = (userID, appID)
      . cases hk
        rw [record_refs_self] at hrefs
        rw [mem_record_apps]
        refine ⟨?_, hrefs.1, hrefs.2, .inl rfl⟩
        rcases hzero with hzero | hzero
        . exact hzero
        . omega
      . rw [smembers_congr (record_refs_of_ne hk)] at hrefs
        rcases h.listed now u a hnow hrefs with ⟨ha, hmem⟩
        refine ⟨ha, ?_⟩
        by_cases hu : u = userID
        . subst hu
          have hbefore := mem_smembers_mono hnow hmem
          have hid : a ∈ index.appsForUser u := by
            unfold appsForUser
            rw [mem_filter]
            exact ⟨hbefore, decide_eq_true ha⟩
          have hne : a ≠ appID := by
            rintro rfl
            exact hk rfl
          rcases exists_mem_of_ne_nil _ hrefs with ⟨m, hm⟩
          rcases lookup_of_mem_smembers hm with ⟨e, he, _⟩
          rcases houtlasts a hid hne e (lookup_mono hnow he) with ⟨hpos, t, ht, hle⟩
          rw [lookup_eq_some_iff, Redis.Entry.live, ht] at he
          have hend : now ≤ t := of_decide_eq_true he.2
          rw [mem_record_apps]
          refine ⟨hpos, ?_, .inr hbefore⟩
          omega
        . rw [smembers_congr (record_apps_of_ne hu)]
          exact hmem

theorem Lasting.step (h : index.Lasting) {a : Act ρ} {index' : LogoutIndex ρ} (horderly : index.Orderly a)
    (hstep : index.step a = some index') : index'.Lasting := by
  cases a with
  | record =>
    cases hstep
    exact h.record_iff.mpr horderly
  | delete userID appID =>
    cases hstep
    exact h.delete userID appID
  | wait n =>
    cases hstep
    exact h.wait n

end LogoutIndex

namespace Saml

open LogoutIndex (Act Orderly)

theorem sessions_within_reach {now : Int} {acts : List (Act SAMLSessionRef)} {s : SessionIndexStore}
    (run : Run LogoutIndex.step Orderly (LogoutIndex.empty now) acts s) (userID appID : Int)
    (hget : s.get userID appID ≠ []) : appID ∈ s.appsForUser userID := by
  have hlasting : s.Lasting := by
    apply run.invariant (LogoutIndex.lasting_empty now)
    intro index a index' h horderly hstep
    exact h.step horderly hstep
  rcases hlasting.listed s.now userID appID (Int.le_refl _) hget with ⟨hne, hmem⟩
  exact mem_filter.mpr ⟨hmem, decide_eq_true hne⟩

namespace TwoApps

def wiki : SAMLSessionRef := ⟨"_1", "ann", "https://wiki", "persistent"⟩

def mail : SAMLSessionRef := ⟨"_2", "ann", "https://mail", "persistent"⟩

def second : Int := 1000000000

abbrev ordered : List (Act SAMLSessionRef) :=
  [.record 1 10 wiki (60 * second), .wait 1000, .record 1 20 mail (3600 * second), .wait 61000]

abbrev orderedExec : Option SessionIndexStore := Run.exec LogoutIndex.step Orderly (LogoutIndex.empty 0) ordered

theorem orderedExec_isSome : orderedExec.isSome = true := by
  decide +kernel

def orderedStore : SessionIndexStore := orderedExec.get orderedExec_isSome

theorem mail_within_reach : orderedStore.get 1 20 = [mail] ∧ 20 ∈ orderedStore.appsForUser 1 := by
  have run : Run LogoutIndex.step Orderly (LogoutIndex.empty 0) ordered orderedStore :=
    Run.of_isSome _
  have hget : orderedStore.get 1 20 = [mail] := by decide +kernel
  refine ⟨hget, ?_⟩
  apply sessions_within_reach run
  exact cons_ne_nil _ _

abbrev unordered : List (Act SAMLSessionRef) :=
  [.record 1 20 mail (3600 * second), .wait 1000, .record 1 10 wiki (60 * second), .wait 61000]

abbrev unorderedExec : Option SessionIndexStore :=
  Run.exec LogoutIndex.step (fun _ _ => True) (LogoutIndex.empty 0) unordered

theorem unorderedExec_isSome : unorderedExec.isSome = true := by
  decide +kernel

def unorderedStore : SessionIndexStore := unorderedExec.get unorderedExec_isSome

theorem mail_out_of_reach :
    Run LogoutIndex.step (fun _ _ => True) (LogoutIndex.empty 0) unordered unorderedStore
      ∧ unorderedStore.get 1 20 = [mail]
      ∧ unorderedStore.appsForUser 1 = [] := by
  refine ⟨Run.of_isSome _, ?_⟩
  decide +kernel

end TwoApps

end Saml

end Mxid.Sso
