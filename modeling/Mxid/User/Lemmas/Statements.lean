import Mxid.User.Impl.System

namespace Mxid.User

open List Table

variable {s : Store} {scope : Scope} {β : Type}

def Cmd.writesUsers : Cmd β → Bool
  | .create _ | .save .. | .setSuperAdmin .. | .updateStatus .. | .updatePassword .. | .delete ..
  | .restoreUser .. | .createWithIdentity .. => true
  | _ => false

def Cmd.writesIdentities : Cmd β → Bool
  | .createIdentity _ | .createWithIdentity .. | .saveIdentity .. | .restoreIdentity ..
  | .restoreIdentityTo .. | .deleteIdentity .. | .softDeleteIdentitiesByUser .. => true
  | _ => false

def Cmd.saves : Cmd β → Bool
  | .save _ _ _ => true
  | _ => false

def Cmd.created : Cmd β → Option Account
  | .create u | .createWithIdentity u _ => some u
  | _ => none

def Cmd.hits : Cmd β → Account → Bool
  | .setSuperAdmin scope id _ _ | .updateStatus scope id _ | .updatePassword scope id _ _ | .delete scope id =>
    Store.concerns scope id
  | .restoreUser scope id => Store.restores scope id
  | _ => fun _ => false

def Cmd.rewrite : Cmd β → Account → Account
  | .setSuperAdmin _ _ makeSuper _ => Store.setFlag makeSuper
  | .updateStatus _ _ status => Store.setStatus status
  | .updatePassword _ _ hash mustChange => Store.setPassword hash mustChange
  | .delete _ _ => Store.setDeleted true
  | .restoreUser _ _ => Store.setDeleted false
  | _ => fun u => u

def Cmd.effect (c : Cmd β) (s : Store) : Option Store :=
  match c with
  | .create u => s.create u
  | .save _ base edit => s.save base edit
  | .setSuperAdmin scope id makeSuper _ => some (s.setSuperAdmin scope id makeSuper)
  | .updateStatus scope id status => some (s.updateStatus scope id status)
  | .updatePassword scope id hash mustChange => some (s.updatePassword scope id hash mustChange)
  | .delete scope id => some (s.delete scope id)
  | .restoreUser scope id => s.restoreUser scope id
  | .createIdentity i => s.createIdentity i
  | .createWithIdentity u i => s.createWithIdentity u i
  | .saveIdentity _ base name extra => s.saveIdentity base name extra
  | .restoreIdentity scope userID id => s.restoreIdentity scope userID id
  | .restoreIdentityTo scope base userID name extra => s.restoreIdentityTo scope base userID name extra
  | .deleteIdentity scope userID id now => some (s.deleteIdentity scope userID id now)
  | .softDeleteIdentitiesByUser scope userID now => some (s.softDeleteIdentitiesByUser scope userID now)
  | .setToken token userID email => some (s.setToken token userID email)
  | .dropToken token => some (s.dropToken token)
  | .getDelToken token => some (s.getDelToken token).2
  | _ => some s

namespace Store

theorem attempt_cases {done refused : β} {result : Option Store} :
    (attempt s done refused result).2 = s ∨ result = some (attempt s done refused result).2 := by
  cases result with
  | none => exact Or.inl rfl
  | some => exact Or.inr rfl

theorem scoped_cases {done refused : Option β} {result : Option Store} {s' : Store}
    (hs' : (if scope.usable then attempt s done refused result else (none, s)).2 = s') :
    s' = s ∨ result = some s' := by
  split at hs'
  . exact hs' ▸ attempt_cases
  . exact Or.inl hs'.symm

theorem tell_cases {reply : β} {s' : Store} :
    (scope.tell s reply s').2 = s ∨ some s' = some (scope.tell s reply s').2 := by
  unfold Scope.tell
  split
  . exact Or.inr rfl
  . exact Or.inl rfl

theorem exec_cases (c : Cmd β) (s : Store) : (exec c s).2 = s ∨ c.effect s = some (exec c s).2 := by
  cases c with
  | create | createIdentity | createWithIdentity => exact attempt_cases
  | save | restoreUser | saveIdentity | restoreIdentity | restoreIdentityTo => exact scoped_cases rfl
  | setSuperAdmin | updateStatus | updatePassword | delete | deleteIdentity | softDeleteIdentitiesByUser =>
      exact tell_cases
  | setToken | dropToken | getDelToken => exact Or.inr rfl
  | _ => exact Or.inl rfl

theorem exec_keeps {c : Cmd β} {P : Store → Prop} (h : P s) (hc : ∀ s', c.effect s = some s' → P s') :
    P (exec c s).2 := by
  rcases exec_cases c s with heq | heq
  . rw [heq]
    exact h
  . exact hc _ heq

structure SameUsers (s s' : Store) : Prop where
  users : s'.users = s.users
  written : s'.written = s.written
  emailChanges : s'.emailChanges = s.emailChanges
  consumed : ∀ c ∈ s.consumed, c ∈ s'.consumed

theorem SameUsers.refl (s : Store) : SameUsers s s := ⟨rfl, rfl, rfl, fun _ h => h⟩

variable {i : UserIdentity} {s' : Store} {c : Cmd β} {u : Account}

theorem sameUsers_createIdentity (h : s.createIdentity i = some s') : SameUsers s s' := by
  unfold createIdentity at h
  split at h
  . contradiction
  split at h
  . contradiction
  . cases h
    exact ⟨rfl, rfl, rfl, fun _ h => h⟩

variable {f : UserIdentity → UserIdentity}

theorem saveIdentity_eq_some {base : UserIdentity} {name extra : Option String}
    (h : s.saveIdentity base name extra = some s') :
    s.occupied base = false ∧ s' = { s with
      identities := s.identities.upsert (refreshed base name extra)
      released := s.released.filter (· ≠ base.id) } := by
  unfold saveIdentity at h
  split at h
  . contradiction
  . next hfree => exact ⟨Bool.eq_false_iff.mpr hfree, (Option.some.inj h).symm⟩

theorem reviving_eq_some {p : UserIdentity → Bool} {hf : ∀ i, (f i).id = i.id} (h : s.reviving p f hf = some s') :
    (∀ i ∈ s.identities.rows, p i = true → s.occupied i = false) ∧ s' = { s with
      identities := s.identities.update p f hf
      released := s.released.filter (fun id => !s.identities.rows.any (fun i => i.id = id && p i)) } := by
  unfold reviving at h
  split at h
  . contradiction
  next hfree =>
  refine ⟨?_, (Option.some.inj h).symm⟩
  intro i hi hp
  have hnot := any_eq_false.mp (Bool.eq_false_iff.mpr hfree) i hi
  simpa [hp] using hnot

variable {name extra : Option String}

theorem sameUsers_effect (hc : c.writesUsers = false) (hs' : c.effect s = some s') : SameUsers s s' := by
  cases c with
  | createIdentity => exact sameUsers_createIdentity hs'
  | saveIdentity =>
    rw [(saveIdentity_eq_some hs').2]
    exact ⟨rfl, rfl, rfl, fun _ h => h⟩
  | restoreIdentity | restoreIdentityTo =>
    rw [(reviving_eq_some hs').2]
    exact ⟨rfl, rfl, rfl, fun _ h => h⟩
  | getDelToken token =>
    cases hs'
    unfold getDelToken
    split
    . exact .refl s
    . exact ⟨rfl, rfl, rfl, fun _ h => mem_cons_of_mem _ h⟩
  | create | save | setSuperAdmin | updateStatus | updatePassword | delete | restoreUser | createWithIdentity =>
      contradiction
  | _ =>
    cases hs'
    exact ⟨rfl, rfl, rfl, fun _ h => h⟩

theorem sameUsers_exec (hc : c.writesUsers = false) : SameUsers s (exec c s).2 :=
  exec_keeps (.refl s) (fun _ => sameUsers_effect hc)

theorem createIdentity_eq_some (h : s.createIdentity i = some s') :
    s.occupied i = false ∧ s.identities.insert? i = some s'.identities ∧ s'.released = s.released
      ∧ s'.consumed = s.consumed := by
  unfold createIdentity at h
  split at h
  . contradiction
  next hfree =>
  split at h
  . contradiction
  next identities hinsert =>
  cases h
  exact ⟨Bool.eq_false_iff.mpr hfree, hinsert, rfl, rfl⟩

theorem create_eq_some (h : s.create u = some s') :
    s.users.insert? u = some s'.users ∧ s'.written = Function.update s.written u.id u.privileged
      ∧ s'.identities = s.identities ∧ s'.emailChanges = s.emailChanges ∧ s'.consumed = s.consumed
      ∧ s'.released = s.released := by
  unfold create at h
  split at h
  . contradiction
  split at h
  . contradiction
  next users hinsert =>
  cases h
  exact ⟨hinsert, rfl, rfl, rfl, rfl, rfl⟩

theorem restoreUser_eq_some {id : Int} (h : s.restoreUser scope id = some s') :
    s' = { s with users := s.users.update (restores scope id) (setDeleted false) (key_setDeleted false) } := by
  unfold restoreUser at h
  split at h
  . contradiction
  . exact (Option.some.inj h).symm

theorem createWithIdentity_eq_some (h : s.createWithIdentity u i = some s') :
    ∃ s1, s.create u = some s1 ∧ s1.createIdentity i = some s' := by
  unfold createWithIdentity at h
  exact Option.bind_eq_some_iff.mp h

structure Rewrites (c : Cmd β) (s s' : Store) : Prop where
  emailChanges : s'.emailChanges = s.emailChanges
  consumed : ∀ c ∈ s.consumed, c ∈ s'.consumed
  stay : ∀ u ∈ s.users.rows, u ∈ s'.users.rows ∨ (c.hits u = true ∧ c.rewrite u ∈ s'.users.rows)
  origin : ∀ u' ∈ s'.users.rows, (c.created = some u' ∧ ∀ u ∈ s.users.rows, u.id ≠ u'.id)
    ∨ ∃ u ∈ s.users.rows, u' = u ∨ (c.hits u = true ∧ u' = c.rewrite u)

theorem Rewrites.of_sameUsers (h : SameUsers s s') : Rewrites c s s' where
  __ := h
  stay _ hu := Or.inl (h.users ▸ hu)
  origin u hu := Or.inr ⟨u, h.users ▸ hu, Or.inl rfl⟩

theorem Rewrites.refl : Rewrites c s s := .of_sameUsers (.refl s)

theorem Rewrites.update (hf : ∀ u, (c.rewrite u).key = u.key) (h : s'.users = s.users.update c.hits c.rewrite hf)
    (hchanges : s'.emailChanges = s.emailChanges) (hconsumed : s'.consumed = s.consumed) :
    Rewrites c s s' where
  emailChanges := hchanges
  consumed _ h := hconsumed ▸ h
  stay u hu := by
    cases hhits : c.hits u with
    | true =>
      right
      rw [h, rows_update, mem_map]
      exact ⟨rfl, u, hu, if_pos hhits⟩
    | false =>
      left
      rw [h, rows_update, mem_map]
      exact ⟨u, hu, if_neg (ne_true_of_eq_false hhits)⟩
  origin u' hu' := by
    rw [h, rows_update, mem_map] at hu'
    rcases hu' with ⟨u, hu, rfl⟩
    refine Or.inr ⟨u, hu, ?_⟩
    split
    . next hhits => exact Or.inr ⟨hhits, rfl⟩
    . exact Or.inl rfl

theorem Rewrites.insert (hc : c.created = some u) (hinsert : s.users.insert? u = some s'.users)
    (hchanges : s'.emailChanges = s.emailChanges) (hconsumed : s'.consumed = s.consumed) :
    Rewrites c s s' where
  emailChanges := hchanges
  consumed _ h := hconsumed ▸ h
  stay u' hu' := Or.inl ((mem_of_insert? hinsert).mpr (Or.inr hu'))
  origin u' hu' := by
    rcases (mem_of_insert? hinsert).mp hu' with rfl | hold
    . refine Or.inl ⟨hc, ?_⟩
      intro u hu
      have hne : u.key ≠ u'.key := key_ne_of_insert? hinsert hu
      exact hne
    . exact Or.inr ⟨u', hold, Or.inl rfl⟩

theorem rewrites_exec (hc : c.saves = false) : Rewrites c s (exec c s).2 := by
  apply exec_keeps .refl
  intro s' hs'
  cases c with
  | save => contradiction
  | create =>
    rcases create_eq_some hs' with ⟨hinsert, _, _, hchanges, hconsumed, _⟩
    exact .insert rfl hinsert hchanges hconsumed
  | createWithIdentity =>
    rcases createWithIdentity_eq_some hs' with ⟨s1, hs1, hidentity⟩
    rcases create_eq_some hs1 with ⟨hinsert, _, _, hchanges, hconsumed, _⟩
    rcases createIdentity_eq_some hidentity with ⟨_, _, _, hconsumed'⟩
    have hsame := sameUsers_createIdentity hidentity
    apply Rewrites.insert rfl
    . rw [hsame.users]
      exact hinsert
    . rw [hsame.emailChanges, hchanges]
    . rw [hconsumed', hconsumed]
  | restoreUser =>
    rw [restoreUser_eq_some hs']
    exact .update (key_setDeleted false) rfl rfl rfl
  | setSuperAdmin _ _ makeSuper =>
    cases hs'
    exact .update (key_setFlag makeSuper) rfl rfl rfl
  | updateStatus _ _ status =>
    cases hs'
    exact .update (key_setStatus status) rfl rfl rfl
  | updatePassword _ _ hash mustChange =>
    cases hs'
    exact .update (key_setPassword hash mustChange) rfl rfl rfl
  | delete =>
    cases hs'
    exact .update (key_setDeleted true) rfl rfl rfl
  | _ => exact .of_sameUsers (sameUsers_effect rfl hs')

theorem id_of_concerns {id : Int} (h : concerns scope id u = true) : u.id = id := by
  unfold concerns at h
  rw [Bool.and_eq_true] at h
  exact of_decide_eq_true h.1

theorem mem_update {f : Account → Account} (hf : ∀ u, (f u).key = u.key) {id : Int}
    (h : u ∈ (s.users.update (concerns scope id) f hf).rows) :
    ∃ u0 ∈ s.users.rows, u.id = u0.id
      ∧ ((concerns scope id u0 = true ∧ u = f u0) ∨ (concerns scope id u0 = false ∧ u = u0)) := by
  rw [rows_update, mem_map] at h
  rcases h with ⟨u0, hu0, rfl⟩
  refine ⟨u0, hu0, ?_⟩
  split
  . next hc => exact ⟨hf u0, Or.inl ⟨hc, rfl⟩⟩
  . next hc => exact ⟨rfl, Or.inr ⟨Bool.eq_false_iff.mpr hc, rfl⟩⟩

theorem save_eq_some {base : Account} {edit : Edit} (h : s.save base edit = some s') :
    s'.users = s.users.upsert (edit.apply base)
      ∧ s'.written = (if edit.setsStatus then
          Function.update s.written base.id { s.written base.id with status := (edit.apply base).status }
        else
          s.written)
      ∧ s'.emailChanges = (if (s.users.find? base.id).any (fun u => u.email ≠ (edit.apply base).email) then
          Function.update s.emailChanges base.id (s.emailChanges base.id + 1)
        else
          s.emailChanges)
      ∧ s'.identities = s.identities ∧ s'.consumed = s.consumed ∧ s'.released = s.released := by
  unfold save at h
  dsimp only at h
  split at h
  . contradiction
  cases h
  simp only [Edit.id_apply]
  exact ⟨trivial, trivial, trivial, trivial, trivial, trivial⟩

theorem mem_save {base : Account} {edit : Edit} (h : s.save base edit = some s') :
    u ∈ s'.users.rows ↔ u = edit.apply base ∨ u ∈ s.users.rows ∧ u.id ≠ base.id := by
  rw [(save_eq_some h).1, ← Edit.id_apply base edit]
  exact s.users.mem_upsert

theorem identities_effect (hc : c.writesIdentities = false) (hs' : c.effect s = some s') :
    s'.identities = s.identities := by
  cases c with
  | create => exact (create_eq_some hs').2.2.1
  | save => exact (save_eq_some hs').2.2.2.1
  | restoreUser => rw [restoreUser_eq_some hs']
  | getDelToken =>
    cases hs'
    unfold getDelToken
    split <;> rfl
  | createIdentity | createWithIdentity | saveIdentity | restoreIdentity | restoreIdentityTo | deleteIdentity |
      softDeleteIdentitiesByUser => contradiction
  | _ =>
    cases hs'
    rfl

end Store

/-!
Two users of tenant 1, and a store with users and identities only. The examples of the modules on the service use them.
-/

theorem ann_pos : (0 : Int) < 7 := by decide

theorem bob_pos : (0 : Int) < 8 := by decide

def ann : Account := ⟨⟨7, 1, "ann", none, none, none, "", statusActive, false⟩, false, none, false, false, ann_pos⟩

def bob : Account := ⟨⟨8, 1, "bob", none, none, none, "", statusActive, false⟩, false, none, false, false, bob_pos⟩

def Store.holding (users : List Account) (identities : List UserIdentity) : Store where
  users := Table.empty.insertIgnore users
  identities := Table.empty.insertIgnore identities
  tokens := []
  written id := ((users.find? (fun u => u.id = id)).getD ann).privileged
  emailChanges _ := 0
  consumed := []
  released := []

end Mxid.User
