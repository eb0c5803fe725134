import Mxid.User.Lemmas.Programs
import Mxid.User.Lemmas.Statements

namespace Mxid.User

open Option Clients Bool

variable {s : Store} {scope : Scope} {β : Type} {id userID : Int}

namespace Store

def Live (userID : Int) (s : Store) : Prop := ∃ u ∈ s.users.rows, u.id = userID ∧ u.deleted = false

def Bound (id userID : Int) (s : Store) : Prop :=
  ∃ i ∈ s.identities.rows, i.id = id ∧ i.userID = userID ∧ i.live = true

theorem isLive_eq_true_iff : s.isLive userID = true ↔ s.Live userID := by
  simp [isLive, Live]

variable {s' : Store}

theorem Live.of_sameUsers (h : s.Live userID) (hsame : SameUsers s s') : s'.Live userID := by
  unfold Live
  rw [hsame.users]
  exact h

theorem Live.update {p : Account → Bool} {f : Account → Account} (h : s.Live userID) (hf : ∀ u, (f u).key = u.key)
    (hp : ∀ u, u.id = userID → u.deleted = false → p u = true → (f u).deleted = false) :
    ∃ u ∈ (s.users.update p f hf).rows, u.id = userID ∧ u.deleted = false := by
  rcases h with ⟨u, hu, hid, hdeleted⟩
  refine ⟨_, List.mem_map_of_mem hu, ?_⟩
  split
  . next hpu =>
    have hkey : (f u).id = u.id := hf u
    exact ⟨hkey.trans hid, hp u hid hdeleted hpu⟩
  . exact ⟨hid, hdeleted⟩

theorem Live.create {u : Account} (h : s.Live userID) (hcreate : s.create u = some s') : s'.Live userID := by
  rcases h with ⟨u0, hu0, hrest⟩
  exact ⟨u0, (Table.mem_of_insert? (create_eq_some hcreate).1).mpr (Or.inr hu0), hrest⟩

theorem Live.save {base : Account} {edit : Edit} (h : s.Live userID) (hbase : base.deleted = false)
    (hsave : s.save base edit = some s') : s'.Live userID := by
  rcases h with ⟨u, hu, hid, hdeleted⟩
  by_cases hkey : u.id = base.id
  . refine ⟨edit.apply base, (mem_save hsave).mpr (Or.inl rfl), ?_, ?_⟩
    . rw [Edit.id_apply, ← hkey, hid]
    . rw [Edit.deleted_apply, hbase]
  . exact ⟨u, (mem_save hsave).mpr (Or.inr ⟨hu, hkey⟩), hid, hdeleted⟩

theorem Live.exec {c : Cmd β} (h : s.Live userID) (hc : c.proper true) (hsevers : c.severs id userID = false) :
    (Store.exec c s).2.Live userID := by
  apply exec_keeps h
  intro s' hs'
  cases c with
  | create => exact h.create hs'
  | createWithIdentity =>
    rcases createWithIdentity_eq_some hs' with ⟨s1, hs1, hidentity⟩
    exact (h.create hs1).of_sameUsers (sameUsers_createIdentity hidentity)
  | save => exact h.save hc.1 hs'
  | setSuperAdmin _ _ makeSuper =>
    cases hs'
    exact h.update (key_setFlag makeSuper) (fun _ _ hdeleted _ => hdeleted)
  | updateStatus _ _ status =>
    cases hs'
    exact h.update (key_setStatus status) (fun _ _ hdeleted _ => hdeleted)
  | updatePassword _ _ hash mustChange =>
    cases hs'
    exact h.update (key_setPassword hash mustChange) (fun _ _ hdeleted _ => hdeleted)
  | delete _ id' =>
    cases hs'
    apply h.update (key_setDeleted true)
    intro u hid _ hconcerns
    -- the user is not the one who is deleted
    have hne : id' ≠ userID := of_decide_eq_false hsevers
    exact absurd ((id_of_concerns hconcerns).symm.trans hid) hne
  | restoreUser =>
    rw [restoreUser_eq_some hs']
    exact h.update (key_setDeleted false) (fun _ _ _ _ => rfl)
  | _ => exact h.of_sameUsers (sameUsers_effect rfl hs')

section

variable (h : s.Bound id userID)

include h

theorem Bound.of_identities_eq (hsame : s'.identities = s.identities) : s'.Bound id userID := by
  unfold Bound
  rw [hsame]
  exact h

theorem Bound.update {p : UserIdentity → Bool} {f : UserIdentity → UserIdentity}
    (hf : ∀ i, (f i).id = i.id)
    (hp : ∀ i ∈ s.identities.rows, i.id = id → i.userID = userID → i.live = true → p i = true →
      (f i).userID = userID ∧ (f i).live = true) :
    ∃ i ∈ (s.identities.update p f hf).rows, i.id = id ∧ i.userID = userID ∧ i.live = true := by
  rcases h with ⟨i, hi, hid, howner, hlive⟩
  refine ⟨_, List.mem_map_of_mem hi, ?_⟩
  split
  . next hpi => exact ⟨(hf i).trans hid, hp i hi hid howner hlive hpi⟩
  . exact ⟨hid, howner, hlive⟩

theorem Bound.createIdentity {i : UserIdentity} (hcreate : s.createIdentity i = some s') : s'.Bound id userID := by
  rcases h with ⟨i0, hi0, hrest⟩
  exact ⟨i0, (Table.mem_of_insert? (createIdentity_eq_some hcreate).2.1).mpr (Or.inr hi0), hrest⟩

variable {name extra : Option String}

theorem Bound.saveIdentity {base : UserIdentity}
    (hbase : base.live = true) (hfresh : (Cmd.saveIdentity scope base name extra).rereads s = true)
    (hsave : s.saveIdentity base name extra = some s') : s'.Bound id userID := by
  rw [(saveIdentity_eq_some hsave).2]
  by_cases hid : base.id = id
  . refine ⟨refreshed base name extra, s.identities.mem_upsert.mpr (Or.inl rfl), hid, ?_, hbase⟩
    rcases h with ⟨i, hi, hi_id, howner, _⟩
    have hfound := s.identities.find?_eq_some_iff.mpr ⟨hi, hi_id⟩
    simp only [Cmd.rereads, hid, hfound, any_some, decide_eq_true_eq] at hfresh
    exact hfresh.symm.trans howner
  . rcases h with ⟨i, hi, hi_id, hrest⟩
    refine ⟨i, s.identities.mem_upsert.mpr (Or.inr ⟨hi, ?_⟩), hi_id, hrest⟩
    intro heq
    exact hid (heq.symm.trans hi_id)

theorem Bound.exec {c : Cmd β} (hlive : s.Live userID) (hc : c.proper true)
    (hfresh : c.rereads s = true) (hsevers : c.severs id userID = false) : (Store.exec c s).2.Bound id userID := by
  apply exec_keeps h
  intro s' hs'
  cases c with
  | createIdentity => exact h.createIdentity hs'
  | createWithIdentity =>
    rcases createWithIdentity_eq_some hs' with ⟨s1, hs1, hidentity⟩
    exact (h.of_identities_eq (create_eq_some hs1).2.2.1).createIdentity hidentity
  | saveIdentity => exact h.saveIdentity hc hfresh hs'
  | restoreIdentity =>
    rw [(reviving_eq_some hs').2]
    exact h.update id_revive (fun _ _ _ howner _ _ => ⟨howner, rfl⟩)
  | restoreIdentityTo _ base taker name extra =>
    rw [(reviving_eq_some hs').2]
    apply h.update (id_reassign base taker name extra)
    intro i hi hid howner hi_live hp
    refine ⟨?_, rfl⟩
    simp only [and_eq_true, decide_eq_true_eq] at hp
    have hfind : s.identities.find? base.id = some i := s.identities.find?_eq_some_iff.mpr ⟨hi, hp.1⟩
    simp only [Cmd.rereads, hfind, any_some, and_eq_true, decide_eq_true_eq, or_eq_true, not_eq_true', howner] at hfresh
    rcases hfresh with ⟨⟨hbase_owner, hbase_deleted⟩, (hdead | htaker) | hgone⟩
    . unfold UserIdentity.live at hdead hi_live
      rw [← hbase_deleted, hi_live] at hdead
      contradiction
    . exact (hbase_owner.trans htaker).symm
    . rw [← hbase_owner, isLive_eq_true_iff.mpr hlive] at hgone
      contradiction
  | deleteIdentity _ owner id' now =>
    cases hs'
    apply h.update (id_bury now)
    intro i _ hid howner _ hbound
    simp only [isBound, and_eq_true, decide_eq_true_eq] at hbound
    simp only [Cmd.severs, and_eq_false_iff, decide_eq_false_iff_not] at hsevers
    rcases hsevers with hne | hne
    . exact absurd (hbound.1.1.1.symm.trans howner) hne
    . exact absurd (hbound.1.1.2.symm.trans hid) hne
  | softDeleteIdentitiesByUser _ owner now =>
    cases hs'
    apply h.update (id_bury now)
    intro i _ _ howner _ hswept
    have hne : owner ≠ userID := of_decide_eq_false hsevers
    simp only [and_eq_true, decide_eq_true_eq] at hswept
    exact absurd (hswept.1.1.symm.trans howner) hne
  | _ => exact h.of_identities_eq (identities_effect rfl hs')

end

end Store

theorem bound_until_severed {s₀ : Store} {calls : List Call} {turns later : List (Nat × Nat)} {p p' : Clients}
    (hrun : Run step (fun _ _ => True) (.start s₀ calls) turns p) {i : UserIdentity}
    (hi : i ∈ p.shared.data.identities.rows) (hlive : i.live = true) (howner : p.shared.data.isLive i.userID = true)
    (hlater : Run step
      (fun p turn => p.executes (fun c s => c.rereads s && !c.severs i.id i.userID) turn = true) p later p') :
    ∃ i' ∈ p'.shared.data.identities.rows, i'.id = i.id ∧ i'.userID = i.userID ∧ i'.live = true := by
  have hinv := invariant_of_run (I := fun s => s.Live i.userID ∧ s.Bound i.id i.userID) hrun ?_
    ⟨Store.isLive_eq_true_iff.mp howner, i, hi, rfl, rfl, hlive⟩ hlater
  . exact hinv.2
  rintro β c s ⟨hlive, hbound⟩ hc hg
  rw [and_eq_true, not_eq_true'] at hg
  exact ⟨hlive.exec hc hg.2, hbound.exec hlive hc hg.1 hg.2⟩

namespace TakenOver

def store (deletedAt : Option Int) : Store :=
  .holding [ann, bob] [⟨1, 7, 1, "lark", "5", "ou_1", none, none, deletedAt⟩]

def bind : Call := .bindExternalIdentity (.tenant 1) ⟨1, 8, "lark", "5", "ou_1", "", none, false⟩ 2

def login : Call :=
  .resolveExternalLogin (.tenant 1) ⟨1, "lark", "5", "ou_1", "", "Ann", "", "", "", none, true⟩ ⟨9, by decide, 3, ""⟩

def restored : Clients := .start (store (some 100)) [bind, .restoreIdentity (.tenant 1) 7 1]

def rebound : Clients := .start (store none) [bind, .unbindIdentity (.tenant 1) 7 1 100, login]

def turns (i n : Nat) : List (Nat × Nat) := List.replicate n (i, 0)

abbrev owner (p : Clients) : Option (Int × Bool) :=
  (p.shared.data.identities.find? 1).map (fun i => (i.userID, i.live))

theorem restored_isSome : (exec (fun _ _ => true) restored (turns 0 2 ++ turns 1 4)).isSome = true := by
  decide

def annHasIt : Clients := (exec (fun _ _ => true) restored (turns 0 2 ++ turns 1 4)).get restored_isSome

theorem takenOver_isSome : (exec (Pool.executes (fun c _ => !c.severs 1 7)) annHasIt (turns 0 1)).isSome = true := by
  decide

def takenOver : Clients :=
  (exec (Pool.executes (fun c _ => !c.severs 1 7)) annHasIt (turns 0 1)).get takenOver_isSome

theorem rebound_isSome : (exec (fun _ _ => true) rebound (turns 2 1 ++ turns 1 1 ++ turns 0 3)).isSome = true := by
  decide

def bobHasIt : Clients :=
  (exec (fun _ _ => true) rebound (turns 2 1 ++ turns 1 1 ++ turns 0 3)).get rebound_isSome

theorem writtenBack_isSome : (exec (Pool.executes (fun c _ => !c.severs 1 8)) bobHasIt (turns 2 2)).isSome = true := by
  decide

def writtenBack : Clients :=
  (exec (Pool.executes (fun c _ => !c.severs 1 8)) bobHasIt (turns 2 2)).get writtenBack_isSome

theorem bound_identity_changes_owner :
    Run step (fun _ _ => True) restored (turns 0 2 ++ turns 1 4) annHasIt ∧ owner annHasIt = some (7, true)
      ∧ annHasIt.shared.data.isLive 7 = true
      ∧ Run step (fun p turn => p.executes (fun c _ => !c.severs 1 7) turn = true) annHasIt
          (turns 0 1) takenOver
      ∧ owner takenOver = some (8, true)
      ∧ Run step (fun _ _ => True) rebound (turns 2 1 ++ turns 1 1 ++ turns 0 3) bobHasIt
      ∧ owner bobHasIt = some (8, true) ∧ bobHasIt.shared.data.isLive 8 = true
      ∧ Run step (fun p turn => p.executes (fun c _ => !c.severs 1 8) turn = true) bobHasIt (turns 2 2)
        writtenBack
      ∧ owner writtenBack = some (7, true) :=
  ⟨(Run.of_isSome restored_isSome).free, by decide, by decide,
    Run.of_isSome takenOver_isSome, by decide,
    (Run.of_isSome rebound_isSome).free, by decide, by decide,
    Run.of_isSome writtenBack_isSome, by decide⟩

theorem inOrder_isSome : (exec (fun _ _ => true) restored (turns 1 4)).isSome = true := by
  decide

def inOrder : Clients := (exec (fun _ _ => true) restored (turns 1 4)).get inOrder_isSome

theorem refused_isSome :
    (exec (Pool.executes (fun c s => c.rereads s && !c.severs 1 7)) inOrder (turns 0 3)).isSome = true := by
  decide

def refused : Clients :=
  (exec (Pool.executes (fun c s => c.rereads s && !c.severs 1 7)) inOrder (turns 0 3)).get refused_isSome

theorem bound_identity_kept : ∃ i ∈ refused.shared.data.identities.rows, i.id = 1 ∧ i.userID = 7 ∧ i.live = true :=
  bound_until_severed (i := ⟨1, 7, 1, "lark", "5", "ou_1", none, none, none⟩)
    ((Run.of_isSome inOrder_isSome).free) (by decide) rfl (by decide)
    (Run.of_isSome refused_isSome)

end TakenOver

end Mxid.User
