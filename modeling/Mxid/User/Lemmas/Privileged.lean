import Mxid.User.Lemmas.Statements

namespace Mxid.User

open Clients

variable {s : Store} {scope : Scope} {β : Type}

namespace Store

def Kept (s : Store) : Prop := ∀ u ∈ s.users.rows, u.privileged = s.written u.id

theorem Kept.of_sameUsers {s' : Store} (h : s.Kept) (hsame : SameUsers s s') : s'.Kept := by
  unfold Kept
  rw [hsame.users, hsame.written]
  exact h

theorem Kept.update {f : Account → Account} {g : Privileged → Privileged} {id : Int} (h : s.Kept)
    (hf : ∀ u, (f u).key = u.key) (hfg : ∀ u, (f u).privileged = g u.privileged) :
    ∀ u ∈ (s.users.update (concerns scope id) f hf).rows, u.privileged = s.write scope id g u.id := by
  intro u hu
  rcases mem_update hf hu with ⟨u0, hu0, hid, ⟨hc, rfl⟩ | ⟨hc, rfl⟩⟩
  . have haffects : s.affects scope id = true := List.any_eq_true.mpr ⟨u0, hu0, hc⟩
    have hid0 := id_of_concerns hc
    unfold write
    rw [if_pos haffects, hid, hid0, Function.update_self, hfg, h u0 hu0, hid0]
  . unfold write
    split
    . next haffects =>
      -- the row that is concerned is another one
      rcases List.any_eq_true.mp haffects with ⟨u1, hu1, hc1⟩
      rw [Function.update_of_ne]
      . exact h u hu0
      intro heq
      have hsame : u1 = u := s.users.eq_of_key_eq hu1 hu0 ((id_of_concerns hc1).trans heq.symm)
      rw [hsame, hc] at hc1
      contradiction
    . exact h u hu0

theorem Kept.create {u : Account} {s' : Store} (h : s.Kept) (hcreate : s.create u = some s') : s'.Kept := by
  rcases create_eq_some hcreate with ⟨hinsert, hwritten, _⟩
  intro u' hu'
  rw [hwritten]
  rcases (Table.mem_of_insert? hinsert).mp hu' with rfl | hold
  . rw [Function.update_self]
  rw [Function.update_of_ne]
  . exact h u' hold
  . have hne : u'.key ≠ u.key := Table.key_ne_of_insert? hinsert hold
    exact hne

theorem Kept.save {base : Account} {edit : Edit} {s' : Store} (h : s.Kept)
    (hfresh : (Cmd.save scope base edit).savesPrivileged s = true) (hsave : s.save base edit = some s') : s'.Kept := by
  intro u hu
  rw [(save_eq_some hsave).2.1]
  rcases (mem_save hsave).mp hu with rfl | ⟨hold, hid⟩
  . unfold Cmd.savesPrivileged at hfresh
    rcases (Option.any_eq_true _ _).mp hfresh with ⟨u0, hu0, hcols⟩
    rcases s.users.find?_eq_some_iff.mp hu0 with ⟨hmem, hid⟩
    have hkept := h u0 hmem
    rw [show u0.id = base.id from hid] at hkept
    simp only [Bool.and_eq_true, Bool.or_eq_true, decide_eq_true_eq] at hcols
    rcases hcols with ⟨⟨hflag, hhash⟩, hstatus⟩
    rw [Edit.id_apply]
    unfold Account.privileged at hkept ⊢
    rw [Edit.isSuperAdmin_apply, Edit.passwordHash_apply]
    split
    . rw [Function.update_self, ← hkept, ← hflag, ← hhash]
    next hsets =>
    rw [Edit.status_apply _ _ (Bool.eq_false_iff.mpr hsets), ← hkept, ← hflag, ← hhash, ← hstatus.resolve_left hsets]
  . split
    . rw [Function.update_of_ne hid]
      exact h u hold
    . exact h u hold

theorem Kept.exec {c : Cmd β} (h : s.Kept) (hc : c.savesPrivileged s = true) : (Store.exec c s).2.Kept := by
  apply exec_keeps h
  intro s' hs'
  cases c with
  | create => exact h.create hs'
  | createWithIdentity =>
    rcases createWithIdentity_eq_some hs' with ⟨s1, hs1, hidentity⟩
    exact (h.create hs1).of_sameUsers (sameUsers_createIdentity hidentity)
  | save => exact h.save hc hs'
  | setSuperAdmin _ _ makeSuper =>
    cases hs'
    exact h.update (g := fun w => { w with isSuperAdmin := makeSuper }) (key_setFlag makeSuper) (fun _ => rfl)
  | updateStatus _ _ status =>
    cases hs'
    exact h.update (g := fun w => { w with status }) (key_setStatus status) (fun _ => rfl)
  | updatePassword _ _ hash mustChange =>
    cases hs'
    exact h.update (g := fun w => { w with passwordHash := hash }) (key_setPassword hash mustChange) (fun _ => rfl)
  | delete =>
    cases hs'
    intro u hu
    rcases mem_update (key_setDeleted true) hu with ⟨u0, hu0, _, ⟨_, rfl⟩ | ⟨_, rfl⟩⟩
    . exact h u0 hu0
    . exact h u hu0
  | restoreUser =>
    rw [restoreUser_eq_some hs']
    intro u hu
    rw [Table.rows_update, List.mem_map] at hu
    rcases hu with ⟨u0, hu0, rfl⟩
    split
    . exact h u0 hu0
    . exact h u0 hu0
  | _ => exact h.of_sameUsers (sameUsers_effect rfl hs')

end Store

theorem privileged_kept {s₀ : Store} {calls : List Call} {turns : List (Nat × Nat)} {p : Clients} (hinit : s₀.Kept)
    (hrun : Run step (fun p turn => p.executes Cmd.savesPrivileged turn = true) (.start s₀ calls) turns p) :
    p.shared.data.Kept :=
  Pool.invariant_executed (fun _ _ h hc => h.exec hc) hinit hrun

/-!
User 7 is a super admin whose flag is revoked, who is disabled and whose password is reset, while an edit of their name
is under way.
-/

namespace Resurrected

def store : Store :=
  .holding [{ ann with passwordHash := "leaked", isSuperAdmin := true },
    { bob with passwordHash := "hash", isSuperAdmin := true }] []

def rename : Call := .update (.tenant 1) 7 1 ⟨none, none, some "Ann", none, none⟩

def editProfile : Call := .updateProfile (.tenant 1) 7 "Ann" "" ""

def start (edit : Call) : Clients :=
  .start store [edit, .setSuperAdmin (.tenant 1) 8 1 7 false, .updateStatus (.tenant 1) 7 statusDisabled,
    .resetPassword (.tenant 1) 7 ⟨"fresh", true⟩ none]

def dedicated : List (Nat × Nat) := [(1, 0), (1, 0), (1, 0), (2, 0), (2, 0), (3, 0), (3, 0)]

def around : List (Nat × Nat) := (0, 0) :: dedicated ++ [(0, 0)]

def after : List (Nat × Nat) := dedicated ++ [(0, 0), (0, 0)]

theorem renamed_isSome : (exec (fun _ _ => true) (start rename) around).isSome = true := by
  decide

def renamed : Clients := (exec (fun _ _ => true) (start rename) around).get renamed_isSome

theorem edited_isSome : (exec (fun _ _ => true) (start editProfile) around).isSome = true := by
  decide

def edited : Clients := (exec (fun _ _ => true) (start editProfile) around).get edited_isSome

theorem privileged_resurrected :
    Run step (fun _ _ => True) (start rename) around renamed ∧ renamed.finished = true
      ∧ renamed.shared.data.written 7 = ⟨false, statusDisabled, "fresh"⟩
      ∧ (renamed.shared.data.users.find? 7).map Account.privileged = some ⟨true, statusActive, "leaked"⟩
      ∧ Run step (fun _ _ => True) (start editProfile) around edited ∧ edited.finished = true
      ∧ edited.shared.data.written 7 = ⟨false, statusDisabled, "fresh"⟩
      ∧ (edited.shared.data.users.find? 7).map Account.privileged = some ⟨true, statusActive, "leaked"⟩ :=
  ⟨(Run.of_isSome renamed_isSome).free, by decide, by decide, by decide,
    (Run.of_isSome edited_isSome).free, by decide, by decide, by decide⟩

theorem inOrder_isSome : (exec (Pool.executes Cmd.savesPrivileged) (start rename) after).isSome = true := by
  decide

def inOrder : Clients := (exec (Pool.executes Cmd.savesPrivileged) (start rename) after).get inOrder_isSome

theorem store_kept : store.Kept := by
  unfold Store.Kept
  decide

theorem privileged_kept_inOrder :
    inOrder.shared.data.Kept
      ∧ (inOrder.shared.data.users.find? 7).map Account.privileged = some ⟨false, statusDisabled, "fresh"⟩ :=
  ⟨privileged_kept store_kept (Run.of_isSome inOrder_isSome), by decide⟩

end Resurrected

end Mxid.User
