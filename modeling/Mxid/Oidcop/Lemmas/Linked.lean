import Mxid.Oidcop.Impl.System

/-!
This module contains the invariant that ties the token storage to the history of the operations.
-/

namespace Mxid.Oidcop

open Redis.Store

namespace Keys

structure Shrinks (s s' : Keys) : Prop where
  now_le : s.now ≤ s'.now
  refresh : ∀ t e, s'.refresh t = some e → s.refresh t = some e
  tokens : ∀ a e, s'.tokens a = some e → s.tokens a = some e
  consumed : s'.consumed = s.consumed
  families : s'.families = s.families

theorem Shrinks.refl (s : Keys) : s.Shrinks s :=
  ⟨Int.le_refl _, fun _ _ => id, fun _ _ => id, rfl, rfl⟩

theorem Shrinks.trans {s s' s'' : Keys} (h : s.Shrinks s') (h' : s'.Shrinks s'') : s.Shrinks s'' where
  now_le := Int.le_trans h.now_le h'.now_le
  refresh t e he := h.refresh t e (h'.refresh t e he)
  tokens a e he := h.tokens a e (h'.tokens a e he)
  consumed := h'.consumed.trans h.consumed
  families := h'.families.trans h.families

theorem shrinks_advance (s : Keys) (delay : Nat) : s.Shrinks (s.advance delay) where
  now_le := by
    dsimp only [advance]
    omega
  refresh _ _ := id
  tokens _ _ := id
  consumed := rfl
  families := rfl

theorem shrinks_delKey (s : Keys) (key : TokenKey) : s.Shrinks (s.delKey key) := by
  cases key with
  | token => exact ⟨Int.le_refl _, fun _ _ => id, fun _ _ => eq_of_del_eq_some, rfl, rfl⟩
  | refresh => exact ⟨Int.le_refl _, fun _ _ => eq_of_del_eq_some, fun _ _ => id, rfl, rfl⟩

theorem shrinks_del (s : Keys) (keys : List TokenKey) : s.Shrinks (s.del keys) := by
  induction keys generalizing s with
  | nil => apply Shrinks.refl
  | cons key keys ih => exact (shrinks_delKey s key).trans (ih _)

def Bounded (cfg : Config) (id : String) (s : Keys) : Prop :=
  ∀ a, s.tokens id = some a → ∃ y, a.expireAt = some y ∧ y ≤ s.now + cfg.refreshTokenLifetime

theorem Bounded.shrinks {cfg : Config} {id : String} {s s' : Keys} (hb : s.Bounded cfg id) (hs : s.Shrinks s') :
    s'.Bounded cfg id := by
  intro a ha
  rcases hb a (hs.tokens id a ha) with ⟨y, hy, hle⟩
  have := hs.now_le
  exact ⟨y, hy, by omega⟩

end Keys

structure Linked (cfg : Config) (h : History) (pending : Option String) (s : Keys) : Prop where
  family : ∀ t e, s.refresh t = some e → h.family t = some e.value.familyID ∧ e.value.familyID ≠ ""
  paired : ∀ t e, s.refresh t = some e →
    h.pairedWith e.value.accessTokenID = some t ∧ e.value.accessTokenID ≠ ""
  expires : ∀ t e, s.refresh t = some e →
    ∃ x, e.expireAt = some x ∧ x ≤ s.now + cfg.refreshTokenLifetime
  access : ∀ t e x a, s.refresh t = some e → e.expireAt = some x → s.tokens e.value.accessTokenID = some a →
    ∃ y, a.expireAt = some y ∧ y ≤ x
  indexed : ∀ t e x, pending ≠ some t → s.refresh t = some e → e.expireAt = some x → s.now ≤ x →
    ∃ members y, s.families e.value.familyID = some ⟨members, some y⟩ ∧ t ∈ members ∧ x ≤ y
  members : ∀ f e t, s.families f = some e → t ∈ e.value → h.family t = some f
  spent : ∀ t exp, h.spent t = some exp → s.refresh t = none ∧ ∃ marker x,
    s.consumed t = some ⟨marker, some x⟩ ∧ exp ≤ x ∧ h.family t = some marker.familyID ∧ marker.familyID ≠ ""

namespace Linked

variable {cfg : Config} {h h' : History} {pending : Option String} {s s' : Keys}

theorem empty (now : Int) : Linked cfg .empty none (.empty now) := by
  constructor
  all_goals
    intros
    contradiction

section

variable (hl : Linked cfg h pending s)

include hl

theorem shrinks (hs : s.Shrinks s') : Linked cfg h pending s' where
  family t e he := hl.family t e (hs.refresh t e he)
  paired t e he := hl.paired t e (hs.refresh t e he)
  expires t e he := by
    rcases hl.expires t e (hs.refresh t e he) with ⟨x, hx, hle⟩
    have := hs.now_le
    exact ⟨x, hx, by omega⟩
  access t e x a he hx ha := hl.access t e x a (hs.refresh t e he) hx (hs.tokens _ a ha)
  indexed t e x ht he hx hle := by
    rw [hs.families]
    apply hl.indexed t e x ht (hs.refresh t e he) hx
    have := hs.now_le
    omega
  members f e t he ht := by
    rw [hs.families] at he
    apply hl.members f e t he ht
  spent t exp ht := by
    rcases hl.spent t exp ht with ⟨hnone, hmarker⟩
    rw [hs.consumed]
    refine ⟨?_, hmarker⟩
    apply Option.eq_none_iff_forall_ne_some.mpr
    intro e he
    rw [hs.refresh t e he] at hnone
    contradiction

theorem extend (hfamily : ∀ t f, h.family t = some f → h'.family t = some f)
    (hpaired : ∀ a t, h.pairedWith a = some t → h'.pairedWith a = some t) (hspent : h'.spent = h.spent) :
    Linked cfg h' pending s where
  __ := hl
  family t e he := ⟨hfamily _ _ (hl.family t e he).1, (hl.family t e he).2⟩
  paired t e he := ⟨hpaired _ _ (hl.paired t e he).1, (hl.paired t e he).2⟩
  members f e t he ht := hfamily _ _ (hl.members f e t he ht)
  spent t exp ht := by
    rw [hspent] at ht
    rcases hl.spent t exp ht with ⟨hnone, marker, x, hmarker, hle, hf, hne⟩
    exact ⟨hnone, marker, x, hmarker, hle, hfamily _ _ hf, hne⟩

theorem recordFamily {tok : String} (htok : h.family tok = none)
    (familyID : Option String) : Linked cfg (h.recordFamily tok familyID) pending s := by
  apply hl.extend
  . intro t f ht
    have hne : t ≠ tok := by
      intro heq
      rw [heq, htok] at ht
      contradiction
    simpa [History.recordFamily, hne] using ht
  . intro a t ha
    exact ha
  . rfl

theorem recordPair {id : String} (hid : h.pairedWith id = none) (tok : String) :
    Linked cfg (h.recordPair id tok) pending s := by
  apply hl.extend
  . intro t f ht
    exact ht
  . intro a t ha
    have hne : a ≠ id := by
      intro heq
      rw [heq, hid] at ha
      contradiction
    simpa [History.recordPair, hne] using ha
  . rfl

theorem spent_eq_none {tok : String} (htok : h.family tok = none) : h.spent tok = none := by
  apply Option.eq_none_iff_forall_ne_some.mpr
  intro exp hexp
  rcases (hl.spent tok exp hexp).2 with ⟨marker, x, _, _, hfamily, _⟩
  rw [htok] at hfamily
  contradiction

theorem setToken {id : String} (hid : h.pairedWith id = none) (token : AccessToken) (expireAt : Option Int) :
    Linked cfg h pending { s with tokens := s.tokens.set id token expireAt } where
  __ := hl
  access t e x a he hx ha := by
    have hne : e.value.accessTokenID ≠ id := by
      intro heq
      have := (hl.paired t e he).1
      rw [heq, hid] at this
      contradiction
    dsimp only at ha
    rw [set_of_ne hne] at ha
    apply hl.access t e x a he hx ha

end

variable {tok : String}

theorem setRefresh (hl : Linked cfg h none s) {rt : RefreshToken} (hfamily : h.family tok = some rt.familyID)
    (hne : rt.familyID ≠ "") (hpaired : h.pairedWith rt.accessTokenID = some tok) (haccess : rt.accessTokenID ≠ "")
    (hspent : h.spent tok = none) (hb : s.Bounded cfg rt.accessTokenID) :
    Linked cfg h (some tok)
      { s with refresh := s.refresh.set tok rt (some (s.now + cfg.refreshTokenLifetime)) } where
  family t e he := by
    rcases eq_of_set_eq_some he with ⟨rfl, rfl⟩ | he
    . exact ⟨hfamily, hne⟩
    . apply hl.family t e he
  paired t e he := by
    rcases eq_of_set_eq_some he with ⟨rfl, rfl⟩ | he
    . exact ⟨hpaired, haccess⟩
    . apply hl.paired t e he
  expires t e he := by
    rcases eq_of_set_eq_some he with ⟨rfl, rfl⟩ | he
    . exact ⟨_, rfl, Int.le_refl _⟩
    . apply hl.expires t e he
  access t e x a he hx ha := by
    rcases eq_of_set_eq_some he with ⟨rfl, rfl⟩ | he
    . cases hx
      apply hb a ha
    . apply hl.access t e x a he hx ha
  indexed t e x ht he hx hle := by
    rcases eq_of_set_eq_some he with ⟨rfl, rfl⟩ | he
    . contradiction
    . apply hl.indexed t e x (by simp) he hx hle
  members := hl.members
  spent t exp ht := by
    rcases hl.spent t exp ht with ⟨hnone, hmarker⟩
    refine ⟨?_, hmarker⟩
    have htok : t ≠ tok := by
      intro heq
      rw [heq, hspent] at ht
      contradiction
    dsimp only
    rw [set_of_ne htok]
    exact hnone

theorem consume (hl : Linked cfg h pending s) {marker : ConsumedMarker} {exp x : Int} (hgone : s.refresh tok = none)
    (hfamily : h.family tok = some marker.familyID) (hne : marker.familyID ≠ "") (hle : exp ≤ x) :
    Linked cfg (h.recordSpent tok (some exp)) pending
      { s with consumed := s.consumed.set tok marker (some x) } where
  __ := hl
  spent t exp' ht := by
    by_cases heq : t = tok
    . subst heq
      simp only [History.recordSpent, if_pos, Option.some.injEq] at ht
      subst ht
      exact ⟨hgone, marker, x, by simp [Redis.Store.set], hle, hfamily, hne⟩
    . simp only [History.recordSpent, if_neg heq] at ht
      dsimp only
      rw [set_of_ne heq]
      apply hl.spent t exp' ht

theorem familySRem (hl : Linked cfg h pending s) (hgone : s.refresh tok = none) (f : String) :
    Linked cfg h pending { s with families := s.families.srem s.now f tok } where
  __ := hl
  indexed t e x ht he hx hle := by
    rcases hl.indexed t e x ht he hx hle with ⟨members, y, hmembers, hmem, hy⟩
    have hne : t ≠ tok := by
      intro heq
      rw [heq, hgone] at he
      contradiction
    rcases srem_of_mem s.now f hmembers hmem hne with ⟨ms, hms, hmem⟩
    exact ⟨ms, y, hms, hmem, hy⟩
  members f' e t he ht := by
    rcases srem_eq_some he with ⟨e', he', hsub⟩
    apply hl.members f' e' t he' (hsub t ht)

theorem familyJoin {tok f : String} (hl : Linked cfg h (some tok) s) (hf : h.family tok = some f) :
    Linked cfg h none
      { s with families := (s.families.sadd s.now f tok).pexpire s.now f cfg.refreshTokenLifetime } where
  __ := hl
  indexed t e x _ he hx hle := by
    dsimp only at hle ⊢
    rw [sadd_pexpire]
    by_cases hef : e.value.familyID = f
    . refine ⟨(s.families.smembers s.now f).insert tok, s.now + cfg.refreshTokenLifetime, ?_, ?_, ?_⟩
      . simp [Redis.Store.set, hef]
      . by_cases htok : t = tok
        . simp [htok]
        have hpending : (some tok : Option String) ≠ some t := by
          simpa using Ne.symm htok
        rcases hl.indexed t e x hpending he hx hle with ⟨members, y, hmembers, hmem, hy⟩
        rw [hef] at hmembers
        have : t ∈ s.families.smembers s.now f := by
          apply mem_smembers hmembers _ hmem
          simp only [Redis.Entry.live, decide_eq_true_eq]
          omega
        simp [this]
      . rcases hl.expires t e he with ⟨x', hx', hle'⟩
        rw [hx] at hx'
        cases hx'
        exact hle'
    . have hpending : (some tok : Option String) ≠ some t := by
        intro heq
        cases heq
        have := (hl.family tok e he).1
        rw [hf] at this
        exact hef (Option.some.inj this).symm
      rw [set_of_ne hef]
      apply hl.indexed t e x hpending he hx hle
  members f' e t he ht := by
    rw [sadd_pexpire] at he
    rcases eq_of_set_eq_some he with ⟨rfl, rfl⟩ | he
    . rcases List.mem_insert_iff.mp ht with rfl | ht
      . exact hf
      . rcases eq_some_of_mem_smembers ht with ⟨e, he, ht⟩
        apply hl.members f' e t he ht
    . apply hl.members f' e t he ht

theorem familyDel (hl : Linked cfg h pending s) {f : String}
    (hgone : ∀ t e, s.refresh.lookup s.now t = some e → e.value.familyID ≠ f) :
    Linked cfg h pending { s with families := s.families.del f } where
  __ := hl
  indexed t e x ht he hx hle := by
    have hne : e.value.familyID ≠ f := by
      apply hgone t
      rw [lookup_eq_some_iff]
      refine ⟨he, ?_⟩
      simpa [Redis.Entry.live, hx] using hle
    rcases hl.indexed t e x ht he hx hle with ⟨members, y, hmembers, hmem, hy⟩
    exact ⟨members, y, by simpa [Redis.Store.del, hne] using hmembers, hmem, hy⟩
  members f' e t he ht := hl.members f' e t (eq_of_del_eq_some he) ht

end Linked

end Mxid.Oidcop
