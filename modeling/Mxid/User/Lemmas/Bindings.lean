import Mxid.User.Lemmas.Programs
import Mxid.User.Lemmas.Statements

/-!
This module contains the invariant of the identities, and the statements that keep it.
-/

namespace Mxid.User

open List Table

variable {s : Store} {scope : Scope} {β : Type}

namespace Store

/--
Every identity has an owner, in its own tenant, who is live if it is. An external account has one live identity at most.
Identities that are not live were released.
-/
structure Consistent (s : Store) : Prop where
  owned : ∀ i ∈ s.identities.rows, ∃ u ∈ s.users.rows, u.id = i.userID ∧ u.tenantID = i.tenantID
    ∧ (i.live = true → u.deleted = false)
  distinct : ∀ i ∈ s.identities.rows, ∀ i' ∈ s.identities.rows, i.live = true → i'.live = true →
    i.sameAccount i' = true → i = i'
  severed : ∀ i ∈ s.identities.rows, i.live = false → i.id ∈ s.released
  named : ∀ i ∈ s.identities.rows, i.externalID ≠ ""

structure Next (s s' : Store) : Prop where
  consistent : s'.Consistent
  owners : ∀ i ∈ s.identities.rows, ∀ i' ∈ s'.identities.rows, i'.id = i.id → i'.userID ≠ i.userID → i.id ∈ s.released

theorem Next.refl (h : s.Consistent) : Next s s where
  consistent := h
  owners i hi i' hi' hid howner := by
    rw [s.identities.eq_of_key_eq hi' hi hid] at howner
    contradiction

def Users (s s' : Store) : Prop :=
  ∀ u ∈ s.users.rows, ∃ u' ∈ s'.users.rows, u'.id = u.id ∧ u'.tenantID = u.tenantID
    ∧ (u.deleted = false → u'.deleted = false)

variable {s' : Store} {i : UserIdentity} {userID id : Int} {u : Account}

theorem Users.of_eq (h : s'.users = s.users) : Users s s' := by
  intro u hu
  rw [← h] at hu
  exact ⟨u, hu, rfl, rfl, fun hdeleted => hdeleted⟩

theorem Consistent.put {j : UserIdentity} (h : s.Consistent)
    (hrows : ∀ i ∈ s'.identities.rows, i = j ∨ (i ∈ s.identities.rows ∧ i.id ≠ j.id)) (husers : Users s s')
    (howned : ∃ u ∈ s'.users.rows, u.id = j.userID ∧ u.tenantID = j.tenantID ∧ (j.live = true → u.deleted = false))
    (hfree : j.live = true → s.occupied j = false) (hreleased : ∀ id ∈ s.released, id ≠ j.id → id ∈ s'.released)
    (hsevered : j.live = false → j.id ∈ s'.released) (hnamed : j.externalID ≠ "")
    (howner : ∀ i ∈ s.identities.rows, i.id = j.id → j.userID = i.userID ∨ i.id ∈ s.released) : Next s s' := by
  -- the index has looked at the other rows
  have hother : ∀ i ∈ s.identities.rows, i.id ≠ j.id → i.live = true → j.live = true → i.sameAccount j = false := by
    intro i hi hne hlive hjlive
    have hnot := any_eq_false.mp (hfree hjlive) i hi
    simpa [hne, hlive] using hnot
  have hcomm : ∀ i, j.sameAccount i = i.sameAccount j := by
    intro i
    simp only [UserIdentity.sameAccount, eq_comm]
  constructor
  . constructor
    . intro i hi
      rcases hrows i hi with rfl | ⟨hold, _⟩
      . exact howned
      rcases h.owned i hold with ⟨u, hu, hid, htenant, hlive⟩
      rcases husers u hu with ⟨u', hu', hid', htenant', hlive'⟩
      exact ⟨u', hu', hid'.trans hid, htenant'.trans htenant, fun hi => hlive' (hlive hi)⟩
    . intro i hi i' hi' hlive hlive' hsame
      rcases hrows i hi with rfl | ⟨hold, hne⟩
      . rcases hrows i' hi' with rfl | ⟨hold', hne'⟩
        . rfl
        . rw [hcomm, hother i' hold' hne' hlive' hlive] at hsame
          contradiction
      . rcases hrows i' hi' with rfl | ⟨hold', hne'⟩
        . rw [hother i hold hne hlive hlive'] at hsame
          contradiction
        . exact h.distinct i hold i' hold' hlive hlive' hsame
    . intro i hi hdead
      rcases hrows i hi with rfl | ⟨hold, hne⟩
      . exact hsevered hdead
      . exact hreleased i.id (h.severed i hold hdead) hne
    . intro i hi
      rcases hrows i hi with rfl | ⟨hold, _⟩
      . exact hnamed
      . exact h.named i hold
  . intro i hi i' hi' hid howner'
    rcases hrows i' hi' with rfl | ⟨hold, _⟩
    . rcases howner i hi hid.symm with hsame | hreleased
      . exact absurd hsame howner'
      . exact hreleased
    . rw [s.identities.eq_of_key_eq hold hi hid] at howner'
      contradiction

theorem getAnyIdentityByExternal_eq_some {key : ExternalKey} (h : s.getAnyIdentityByExternal scope key = some i) :
    i ∈ s.identities.rows ∧ scope.sees i.tenantID = true ∧ i.external = key := by
  unfold getAnyIdentityByExternal at h
  have hmem := (mem_orderBy _).mp (mem_of_find?_eq_some h)
  have hcond := List.find?_some h
  simp only [Bool.and_eq_true, decide_eq_true_eq] at hcond
  exact ⟨hmem, hcond.1, hcond.2⟩

theorem mem_update_one {p : UserIdentity → Bool} {f : UserIdentity → UserIdentity} (hf : ∀ i, (f i).id = i.id)
    {i0 : UserIdentity} (hi0 : i0 ∈ s.identities.rows) (hp0 : p i0 = true)
    (hp : ∀ i ∈ s.identities.rows, p i = true → i.id = i0.id) :
    ∀ i ∈ (s.identities.update p f hf).rows, i = f i0 ∨ (i ∈ s.identities.rows ∧ i.id ≠ (f i0).id) := by
  intro i hi
  rw [rows_update, mem_map] at hi
  rcases hi with ⟨i1, hi1, rfl⟩
  split
  . next hp1 =>
    left
    rw [s.identities.eq_of_key_eq hi1 hi0 (hp i1 hi1 hp1)]
  next hp1 =>
  right
  refine ⟨hi1, ?_⟩
  intro heq
  apply hp1
  rw [s.identities.eq_of_key_eq hi1 hi0 (heq.trans (hf i0))]
  exact hp0

section

variable (h : s.Consistent)

include h

theorem Next.reviving {p : UserIdentity → Bool} {f : UserIdentity → UserIdentity} {hf : ∀ i, (f i).id = i.id}
    {i0 : UserIdentity} (hi0 : i0 ∈ s.identities.rows) (hp0 : p i0 = true)
    (hp : ∀ i ∈ s.identities.rows, p i = true → i.id = i0.id) (hlive : (f i0).live = true)
    (hsame : s.occupied (f i0) = s.occupied i0) (hnamed : (f i0).externalID = i0.externalID)
    (howned : ∃ u ∈ s.users.rows, u.id = (f i0).userID ∧ u.tenantID = (f i0).tenantID ∧ u.deleted = false)
    (howner : (f i0).userID = i0.userID ∨ i0.id ∈ s.released) (hrevive : s.reviving p f hf = some s') : Next s s' := by
  rcases reviving_eq_some hrevive with ⟨hfree, rfl⟩
  refine h.put (mem_update_one hf hi0 hp0 hp) (Users.of_eq rfl) ?_ ?_ ?_ ?_ ?_ ?_
  . rcases howned with ⟨u, hu, hid, htenant, hdeleted⟩
    exact ⟨u, hu, hid, htenant, fun _ => hdeleted⟩
  . intro _
    rw [hsame]
    exact hfree i0 hi0 hp0
  . intro id hid hne
    rw [mem_filter]
    refine ⟨hid, ?_⟩
    rw [Bool.not_eq_true', any_eq_false]
    intro i hi
    simp only [Bool.and_eq_true, decide_eq_true_eq, not_and]
    intro hi_id hpi
    apply hne
    rw [← hi_id, hp i hi hpi, hf]
  . intro hdead
    rw [hlive] at hdead
    contradiction
  . rw [hnamed]
    exact h.named i0 hi0
  . intro i hi hid
    have hi_eq := s.identities.eq_of_key_eq hi hi0 (hid.trans (hf i0))
    rw [hi_eq]
    exact howner

variable {name extra : Option String}

theorem Next.restoreIdentityTo {base : UserIdentity} (hbase : base ∈ s.identities.rows)
    (hsees : scope.sees base.tenantID = true) (hu : u ∈ s.users.rows) (hdeleted : u.deleted = false)
    (htenant : u.tenantID = base.tenantID) (howner : u.id = base.userID ∨ base.id ∈ s.released)
    (hrestore : s.restoreIdentityTo scope base u.id name extra = some s') : Next s s' := by
  apply Next.reviving h hbase _ _ rfl rfl rfl ⟨u, hu, rfl, htenant, hdeleted⟩ howner hrestore
  . simp [hsees]
  intro i _ hp
  simp only [Bool.and_eq_true, decide_eq_true_eq] at hp
  exact hp.1

theorem Next.restoreIdentity {target : UserIdentity} (htarget : s.getAnyIdentity scope userID id = some target)
    (hu : s.getByID scope userID = some u) (hrestore : s.restoreIdentity scope userID id = some s') : Next s s' := by
  unfold getAnyIdentity at htarget
  rcases Option.filter_eq_some_iff.mp htarget with ⟨hfind, hcond⟩
  rcases s.identities.find?_eq_some_iff.mp hfind with ⟨hmem, hid⟩
  simp only [Bool.and_eq_true, decide_eq_true_eq] at hcond
  rcases hcond with ⟨howner, hsees⟩
  rcases getByID_eq_some hu with ⟨hu_mem, hdeleted, _, hu_id⟩
  rcases h.owned target hmem with ⟨u', hu', hu'_id, htenant, _⟩
  have hsame : u' = u := s.users.eq_of_key_eq hu' hu_mem (hu'_id.trans (howner.trans hu_id.symm))
  rw [hsame] at hu'_id htenant
  refine Next.reviving h hmem ?_ ?_ rfl rfl rfl ⟨u, hu_mem, hu'_id, htenant, hdeleted⟩ (Or.inl rfl) hrestore
  . simp [isIdentity, hid, howner, hsees]
  intro i _ hp
  simp only [isIdentity, Bool.and_eq_true, decide_eq_true_eq] at hp
  exact hp.1.2.trans hid.symm

theorem Next.saveIdentity {base : UserIdentity}
    (hbase : base ∈ s.identities.rows) (hlive : base.live = true) (hsave : s.saveIdentity base name extra = some s') :
    Next s s' := by
  rcases saveIdentity_eq_some hsave with ⟨hfree, rfl⟩
  refine h.put (j := refreshed base name extra) ?_ (Users.of_eq rfl) (h.owned base hbase) ?_ ?_ ?_ ?_ ?_
  . intro i hi
    exact s.identities.mem_upsert.mp hi
  . intro _
    exact hfree
  . intro id hid hne
    rw [mem_filter]
    exact ⟨hid, decide_eq_true hne⟩
  . intro hdead
    have hsame : (refreshed base name extra).live = base.live := rfl
    rw [hsame, hlive] at hdead
    contradiction
  . exact h.named base hbase
  intro i hi hid
  rw [s.identities.eq_of_key_eq hi hbase hid]
  exact Or.inl rfl

theorem Next.createIdentity {s1 : Store}
    (hidentities : s1.identities = s.identities) (hreleased : s1.released = s.released) (husers : Users s s1)
    (hu : u ∈ s1.users.rows) (hid : u.id = i.userID) (htenant : u.tenantID = i.tenantID) (hdeleted : u.deleted = false)
    (hlive : i.live = true) (hnamed : i.externalID ≠ "") (hcreate : s1.createIdentity i = some s') : Next s s' := by
  rcases createIdentity_eq_some hcreate with ⟨hfree, hinsert, hreleased', _⟩
  have hsame := sameUsers_createIdentity hcreate
  have husers' : Users s s' := by
    unfold Users
    rw [hsame.users]
    exact husers
  apply h.put (j := i) _ husers'
  . rw [hsame.users]
    exact ⟨u, hu, hid, htenant, fun _ => hdeleted⟩
  . intro _
    unfold occupied at hfree ⊢
    rw [← hidentities]
    exact hfree
  . intro id hid _
    rw [hreleased', hreleased]
    exact hid
  . intro hdead
    rw [hlive] at hdead
    contradiction
  . exact hnamed
  . intro i' hi' hid'
    rw [← hidentities] at hi'
    exact absurd hid' (key_ne_of_insert? hinsert hi')
  . intro i' hi'
    rcases (mem_of_insert? hinsert).mp hi' with rfl | hold
    . exact Or.inl rfl
    right
    refine ⟨?_, key_ne_of_insert? hinsert hold⟩
    rw [← hidentities]
    exact hold

theorem Next.deleteIdentity {now : Int} : Next s (s.deleteIdentity scope userID id now) := by
  by_cases hbound : s.identities.rows.any (isBound scope userID id) = true
  . rcases any_eq_true.mp hbound with ⟨i0, hi0, hp0⟩
    have hid0 : i0.id = id := by
      simp only [isBound, Bool.and_eq_true, decide_eq_true_eq] at hp0
      exact hp0.1.1.2
    have hone : ∀ i ∈ s.identities.rows, isBound scope userID id i = true → i.id = i0.id := by
      intro i _ hp
      simp only [isBound, Bool.and_eq_true, decide_eq_true_eq] at hp
      exact hp.1.1.2.trans hid0.symm
    refine h.put (mem_update_one (id_bury now) hi0 hp0 hone) (Users.of_eq rfl) ?_ ?_ ?_ ?_ ?_ ?_
    . rcases h.owned i0 hi0 with ⟨u, hu, hu_id, htenant, _⟩
      exact ⟨u, hu, hu_id, htenant, fun hlive => absurd hlive (by simp [bury, UserIdentity.live])⟩
    . intro hlive
      simp [bury, UserIdentity.live] at hlive
    . intro id' hid' _
      simp only [Store.deleteIdentity, hbound, if_true]
      exact mem_cons_of_mem _ hid'
    . intro _
      simp only [Store.deleteIdentity, hbound, if_true]
      rw [id_bury, hid0]
      exact mem_cons_self
    . exact h.named i0 hi0
    intro i hi hid
    rw [s.identities.eq_of_key_eq hi hi0 hid]
    exact Or.inl rfl
  . have hsame : s.deleteIdentity scope userID id now = s := by
      unfold Store.deleteIdentity
      rw [if_neg hbound, s.identities.update_eq_self]
      intro i hi
      exact Bool.eq_false_iff.mpr (fun hp => hbound (any_eq_true.mpr ⟨i, hi, hp⟩))
    rw [hsame]
    exact Next.refl h

theorem Next.delete {now : Int} (hu : s.getByID scope id = some u) :
    Next s ((s.softDeleteIdentitiesByUser scope id now).delete scope id) := by
  have haffects : (s.softDeleteIdentitiesByUser scope id now).affects scope id = true := affects_of_getByID hu
  have hrows : ∀ i ∈ ((s.softDeleteIdentitiesByUser scope id now).delete scope id).identities.rows,
      ∃ i0 ∈ s.identities.rows,
        (i.id = i0.id ∧ i.userID = i0.userID ∧ i.tenantID = i0.tenantID ∧ i.externalID = i0.externalID)
          ∧ (i.live = true → i = i0 ∧ ¬(i0.userID = id ∧ scope.sees i0.tenantID = true))
          ∧ (i.live = false → i0.userID = id ∨ i = i0) := by
    intro i hi
    have hi : i ∈ (s.identities.update (fun i => i.userID = id && i.live && scope.sees i.tenantID) (bury now)
      (id_bury now)).rows := hi
    rw [rows_update, mem_map] at hi
    rcases hi with ⟨i0, hi0, rfl⟩
    refine ⟨i0, hi0, ?_⟩
    split
    . next hp =>
      simp only [Bool.and_eq_true, decide_eq_true_eq] at hp
      exact ⟨⟨rfl, rfl, rfl, rfl⟩, nofun, fun _ => Or.inl hp.1.1⟩
    . next hp =>
      refine ⟨⟨rfl, rfl, rfl, rfl⟩, fun hlive => ⟨rfl, ?_⟩, fun _ => Or.inr rfl⟩
      rintro ⟨howner, hsees⟩
      exact hp (by simp [hlive, howner, hsees])
  constructor
  . constructor
    . intro i hi
      rcases hrows i hi with ⟨i0, hi0, ⟨_, howner, htenant, _⟩, hlive, _⟩
      rcases h.owned i0 hi0 with ⟨u0, hu0, hu₀_id, hu₀_tenant, hu₀_live⟩
      refine ⟨_, mem_map_of_mem hu0, ?_⟩
      rw [howner, htenant]
      split
      . next hconcerns =>
        -- their identities are all swept
        simp only [concerns, visible, Bool.and_eq_true, decide_eq_true_eq] at hconcerns
        refine ⟨hu₀_id, hu₀_tenant, ?_⟩
        intro hi_live
        exact absurd ⟨hu₀_id.symm.trans hconcerns.1, hu₀_tenant ▸ hconcerns.2.2⟩ (hlive hi_live).2
      . exact ⟨hu₀_id, hu₀_tenant, fun hi_live => hu₀_live ((hlive hi_live).1 ▸ hi_live)⟩
    . intro i hi i' hi' hlive hlive' hsame
      rcases hrows i hi with ⟨i0, hi0, _, hlive0, _⟩
      rcases hrows i' hi' with ⟨i1, hi1, _, hlive1, _⟩
      rw [← (hlive0 hlive).1] at hi0
      rw [← (hlive1 hlive').1] at hi1
      exact h.distinct i hi0 i' hi1 hlive hlive' hsame
    . intro i hi hdead
      simp only [Store.delete, haffects, if_true]
      rcases hrows i hi with ⟨i0, hi0, ⟨_, howner, _⟩, _, hdead0⟩
      rcases hdead0 hdead with hid | rfl
      . apply mem_append_left
        exact mem_map_of_mem (mem_filter.mpr ⟨hi, decide_eq_true (howner.trans hid)⟩)
      . exact mem_append_right _ (h.severed i hi0 hdead)
    . intro i hi
      rcases hrows i hi with ⟨i0, hi0, ⟨_, _, _, hname⟩, _⟩
      rw [hname]
      exact h.named i0 hi0
  . intro i hi i' hi' hid howner
    rcases hrows i' hi' with ⟨i0, hi0, ⟨hid0, howner0, _⟩, _⟩
    rw [howner0, s.identities.eq_of_key_eq hi0 hi (hid0.symm.trans hid)] at howner
    contradiction

theorem Next.restoreUser (hrestore : s.restoreUser scope id = some s') : Next s s' := by
  rw [restoreUser_eq_some hrestore]
  refine ⟨⟨?_, h.distinct, h.severed, h.named⟩, (Next.refl h).owners⟩
  intro i hi
  rcases h.owned i hi with ⟨u, hu, hid, htenant, hlive⟩
  refine ⟨_, mem_map_of_mem hu, ?_⟩
  split
  . exact ⟨hid, htenant, fun _ => rfl⟩
  . exact ⟨hid, htenant, hlive⟩

end

end Store

end Mxid.User
