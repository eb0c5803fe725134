import Mxid.User.Lemmas.Programs
import Mxid.User.Lemmas.Statements

namespace Mxid.User

open Option

variable {s s' s'' : Store} {scope : Scope} {β : Type}

namespace Store

/--
The user has consumed a link that was issued for them and for the address that they have, since it last changed.
-/
def Proven (s : Store) (u : Account) : Prop :=
  ∃ c ∈ s.consumed, c.userID = u.id ∧ c.emailChanges = s.emailChanges u.id
    ∧ ∃ email, u.email = some email ∧ Text.equalFold email c.email = true

def Verified (s : Store) : Prop := ∀ u ∈ s.users.rows, u.emailVerified = true → s.Proven u

variable {base : Account} {edit : Edit}

theorem emailChanges_save_of_eq (hsave : s.save base edit = some s')
    (hsame : (s.users.find? base.id).all (fun u => u.email = (edit.apply base).email) = true) :
    s'.emailChanges = s.emailChanges := by
  rw [(save_eq_some hsave).2.2.1, if_neg]
  cases hfind : s.users.find? base.id with
  | none => simp
  | some =>
    rw [hfind, all_some] at hsame
    simpa using hsame

structure Onward (s s' : Store) : Prop where
  consumed : ∀ c ∈ s.consumed, c ∈ s'.consumed
  changes : ∀ id, s.emailChanges id ≤ s'.emailChanges id
  emails : ∀ u ∈ s.users.rows, ∃ u' ∈ s'.users.rows, u'.id = u.id
    ∧ (s'.emailChanges u.id = s.emailChanges u.id → u'.email = u.email)

theorem Onward.refl (s : Store) : Onward s s where
  consumed _ h := h
  changes _ := le_rfl
  emails u hu := ⟨u, hu, rfl, fun _ => rfl⟩

theorem Onward.trans (h : Onward s s') (h' : Onward s' s'') : Onward s s'' where
  consumed c hc := h'.consumed c (h.consumed c hc)
  changes id := (h.changes id).trans (h'.changes id)
  emails u hu := by
    rcases h.emails u hu with ⟨u', hu', hid, hemail⟩
    rcases h'.emails u' hu' with ⟨u'', hu'', hid', hemail'⟩
    refine ⟨u'', hu'', hid'.trans hid, ?_⟩
    intro heq
    have h1 := h.changes u.id
    have h2 := h'.changes u.id
    rw [hid] at hemail'
    rw [hemail' (by omega), hemail (by omega)]

theorem onward_save (hsave : s.save base edit = some s') : Onward s s' where
  consumed c hc := by
    rw [(save_eq_some hsave).2.2.2.2.1]
    exact hc
  changes id := by
    rw [(save_eq_some hsave).2.2.1]
    split
    . by_cases hid : id = base.id
      . rw [hid, Function.update_self]
        omega
      . rw [Function.update_of_ne hid]
    . exact le_rfl
  emails u hu := by
    by_cases hid : u.id = base.id
    . refine ⟨edit.apply base, (mem_save hsave).mpr (Or.inl rfl), by rw [Edit.id_apply, hid], ?_⟩
      intro heq
      by_contra hne
      have hfind := s.users.find?_eq_some_iff.mpr ⟨hu, hid⟩
      rw [hid, (save_eq_some hsave).2.2.1, if_pos] at heq
      . rw [Function.update_self] at heq
        omega
      . rw [hfind]
        simpa using Ne.symm hne
    . exact ⟨u, (mem_save hsave).mpr (Or.inr ⟨hu, hid⟩), rfl, fun _ => rfl⟩

theorem rewrite_email (c : Cmd β) (u : Account) :
    (c.rewrite u).id = u.id ∧ (c.rewrite u).email = u.email ∧ (c.rewrite u).emailVerified = u.emailVerified := by
  cases c <;> exact ⟨rfl, rfl, rfl⟩

theorem onward_exec (c : Cmd β) (s : Store) : Onward s (exec c s).2 := by
  cases hc : c.saves with
  | false =>
    have hrows := rewrites_exec (s := s) hc
    constructor
    . exact hrows.consumed
    . intro id
      rw [hrows.emailChanges]
    . intro u hu
      rcases hrows.stay u hu with hu' | ⟨_, hu'⟩
      . exact ⟨u, hu', rfl, fun _ => rfl⟩
      . rcases rewrite_email c u with ⟨hid, hemail, _⟩
        exact ⟨c.rewrite u, hu', hid, fun _ => hemail⟩
  | true =>
    cases c with
    | save => exact exec_keeps (.refl s) (fun _ => onward_save)
    | _ => contradiction

def Minded (c : Cmd β) (s : Store) : Prop :=
  match c with
  | .create u | .createWithIdentity u _ => u.emailVerified = false
  | .save _ base (.verified token) =>
    ∃ c ∈ s.consumed, c.token = token ∧ c.userID = base.id
      ∧ (c.emailChanges = s.emailChanges base.id →
        ∃ email, base.email = some email ∧ Text.equalFold email c.email = true)
  | _ => True

theorem Proven.later {u u' : Account} (h : s.Proven u) (hconsumed : ∀ c ∈ s.consumed, c ∈ s'.consumed)
    (hchanges : s'.emailChanges u.id = s.emailChanges u.id) (hid : u.id = u'.id) (hemail : u.email = u'.email) :
    s'.Proven u' := by
  rcases h with ⟨c, hc, hcid, hcount, email, haddress, hfold⟩
  refine ⟨c, hconsumed c hc, hcid.trans hid, ?_, email, hemail ▸ haddress, hfold⟩
  rw [hcount, ← hid, hchanges]

section

variable (h : s.Verified) (hminded : Minded (.save scope base edit) s)
  (hkeeps : (Cmd.save scope base edit).keepsVerified s = true) (hsave : s.save base edit = some s')

include h hminded hkeeps hsave

theorem proven_save (hflag : (edit.apply base).emailVerified = true) : s'.Proven (edit.apply base) := by
  have hconsumed := (onward_save hsave).consumed
  -- the link that leads to a mark is told from the mark that a row has had before
  by_cases hmarks : ∃ token, edit = .verified token
  . rcases hmarks with ⟨token, rfl⟩
    rcases hminded with ⟨c, hc, htoken, hcid, hfold⟩
    simp only [Cmd.keepsVerified, Bool.and_eq_true] at hkeeps
    have hcount : c.emailChanges = s.emailChanges base.id := by
      have hall := List.all_eq_true.mp hkeeps.2 c hc
      simpa [htoken, hcid] using hall
    have hchanges := emailChanges_save_of_eq hsave hkeeps.1
    exact ⟨c, hconsumed c hc, hcid, by rw [hchanges]; exact hcount, hfold hcount⟩
  . have hany : (s.users.find? base.id).any
        (fun u => u.emailVerified && u.email = (edit.apply base).email) = true := by
      cases edit with
      | verified token => exact absurd ⟨token, rfl⟩ hmarks
      | _ => simpa only [Cmd.keepsVerified, hflag, Bool.not_true, Bool.false_or] using hkeeps
    rcases (any_eq_true _ _).mp hany with ⟨u, hu, hcols⟩
    rw [Bool.and_eq_true, decide_eq_true_eq] at hcols
    rcases s.users.find?_eq_some_iff.mp hu with ⟨hmem, hid⟩
    apply (h u hmem hcols.1).later hconsumed _ _ hcols.2
    . rw [emailChanges_save_of_eq hsave]
      rw [hu, all_some]
      exact decide_eq_true hcols.2
    . rw [Edit.id_apply]
      exact hid

theorem Verified.save : s'.Verified := by
  intro u hu hflag
  rcases (mem_save hsave).mp hu with rfl | ⟨hold, hne⟩
  . exact proven_save h hminded hkeeps hsave hflag
  . refine (h u hold hflag).later (onward_save hsave).consumed ?_ rfl rfl
    rw [(save_eq_some hsave).2.2.1]
    split
    . rw [Function.update_of_ne hne]
    . rfl

end

theorem Verified.exec {c : Cmd β} (h : s.Verified) (hminded : Minded c s) (hkeeps : c.keepsVerified s = true) :
    (Store.exec c s).2.Verified := by
  cases hc : c.saves with
  | false =>
    have hrows := rewrites_exec (s := s) hc
    intro u' hu' hflag
    rcases hrows.origin u' hu' with ⟨hnew, _⟩ | ⟨u, hu, hold⟩
    . -- a row that was just created is not verified
      cases c with
      | create | createWithIdentity =>
        cases hnew
        rw [show u'.emailVerified = false from hminded] at hflag
        contradiction
      | _ => cases hnew
    . have hcols : u.id = u'.id ∧ u.email = u'.email ∧ u.emailVerified = u'.emailVerified := by
        rcases hold with rfl | ⟨_, rfl⟩
        . exact ⟨rfl, rfl, rfl⟩
        . rcases rewrite_email c u with ⟨hid, hemail, hverified⟩
          exact ⟨hid.symm, hemail.symm, hverified.symm⟩
      rcases hcols with ⟨hid, hemail, hverified⟩
      apply (h u hu (hverified.trans hflag)).later hrows.consumed _ hid hemail
      rw [hrows.emailChanges]
  | true =>
    cases c with
    | save => exact exec_keeps h (fun _ => h.save hminded hkeeps)
    | _ => contradiction

end Store

open Store (Onward Minded)

structure Careful (p : Op Answer) (s : Store) : Prop where
  minds : ∀ fails, p.Minds Store.exec Cmd.failed Onward Minded ⟨s, fails⟩

theorem careful_pure {a : Answer} : Careful (pure a) s := ⟨fun _ => Prog.minds_pure⟩

theorem careful_refuse {e : UserError} : Careful (refuse e) s := careful_pure

theorem careful_call {c : Cmd β} {f : β → Op Answer} (hminded : ∀ s', Onward s s' → Minded c s')
    (hfailed : ∀ s', Careful (f c.failed) s')
    (hexec : ∀ s' b, Onward s s' → (Store.exec c s').1 = b → Careful (f b) (Store.exec c s').2) :
    Careful (Prog.call c >>= f) s := by
  constructor
  intro fails
  apply Prog.rely_call
  intro s' honward _
  refine ⟨hminded s'.data honward, ?_⟩
  intro delay
  rw [Prog.Semantics.faulty_advance, Prog.Semantics.faulty_step]
  split
  . apply (hfailed _).minds
  . apply (hexec _ _ honward rfl).minds

theorem Proper.careful {names : Bool} {p : Op Answer} (h : Proper false names p) (s : Store) : Careful p s := by
  constructor
  intro fails
  apply h.sends.minds (fun c s => c.replies_exec s) Cmd.replies_failed
  intro β c s hc
  cases c with
  | create => exact hc.2.2
  | createWithIdentity => exact hc.2.2.1
  | save scope base edit =>
    cases edit with
    | verified => exact absurd (hc.2 rfl) (by decide)
    | _ => trivial
  | _ => trivial

def Checked (token : String) (userID : Int) (s : Store) : Prop :=
  ∃ c ∈ s.consumed, c.token = token ∧ c.userID = userID ∧ c.emailChanges ≤ s.emailChanges userID
    ∧ ∃ u ∈ s.users.rows, u.id = userID
      ∧ (c.emailChanges = s.emailChanges userID → ∃ email, u.email = some email ∧ Text.equalFold email c.email = true)

variable {token : String} {userID : Int}

theorem Checked.later (h : Checked token userID s) (honward : Onward s s') : Checked token userID s' := by
  rcases h with ⟨c, hc, htoken, hcid, hle, u, hu, hid, hfold⟩
  have hmono := honward.changes userID
  rcases honward.emails u hu with ⟨u', hu', hid', hemail⟩
  rw [hid] at hemail
  refine ⟨c, honward.consumed c hc, htoken, hcid, by omega, u', hu', hid'.trans hid, ?_⟩
  intro heq
  rw [hemail (by omega)]
  exact hfold (by omega)

theorem careful_withUser {id : Int} {f : Account → Op Answer}
    (hf : ∀ s' u, Onward s s' → u ∈ s'.users.rows → u.id = id → Careful (f u) s') :
    Careful (withUser scope id f) s := by
  unfold withUser found
  refine careful_call (fun _ _ => trivial) (fun _ => careful_refuse) ?_
  intro s' reply honward hreply
  split
  . exact careful_refuse
  . exact careful_refuse
  next u =>
  rcases Store.getByID_eq_some (Scope.eq_of_ask hreply) with ⟨hmem, _, _, hid⟩
  exact hf s' u honward hmem hid

theorem careful_markEmailVerified (h : Checked token userID s) : Careful (markEmailVerified scope userID token) s := by
  unfold markEmailVerified
  apply careful_withUser
  intro s' u honward hu hid
  split
  . exact careful_pure
  unfold saveEdit stored
  refine careful_call ?_ (fun _ => careful_refuse) ?_
  . intro s'' honward'
    rcases h.later honward with ⟨c, hc, htoken, hcid, hle, u', hu', hid', hfold⟩
    have hmono := honward'.changes userID
    have heq : u' = u := s'.users.eq_of_key_eq hu' hu (hid'.trans hid.symm)
    subst heq
    refine ⟨c, honward'.consumed c hc, htoken, hcid.trans hid.symm, ?_⟩
    intro hcount
    rw [hid] at hcount
    exact hfold (by omega)
  intro _ reply _ _
  split
  . exact careful_refuse
  . exact careful_pure

theorem careful_verify : Careful (verify scope token) s := by
  unfold verify found
  refine careful_call (fun _ _ => trivial) (fun _ => careful_refuse) ?_
  intro s1 reply _ hreply
  split
  . exact careful_refuse
  . exact careful_refuse
  next found =>
  rcases found with ⟨userID, tokenEmail⟩
  -- the link is consumed with as many changes of the address as there are now
  have hconsumed : ⟨token, userID, tokenEmail, s1.emailChanges userID⟩
      ∈ (Store.exec (.getDelToken token) s1).2.consumed := by
    simp only [Store.exec, Store.getDelToken] at hreply ⊢
    split at hreply
    . cases hreply
    . cases hreply
      exact List.mem_cons_self
  have hchanges : (Store.exec (.getDelToken token) s1).2.emailChanges = s1.emailChanges :=
    (Store.sameUsers_exec rfl).emailChanges
  apply careful_withUser
  intro s2 u honward hu hid
  split
  . exact careful_refuse
  next email hemail =>
  split
  . next hfold =>
    apply careful_markEmailVerified
    have hmono := honward.changes userID
    rw [hchanges] at hmono
    refine ⟨_, honward.consumed _ hconsumed, rfl, rfl, hmono, u, hu, hid, ?_⟩
    intro _
    exact ⟨email, (filter_eq_some_iff.mp hemail).1, hfold⟩
  . exact careful_refuse

theorem Call.careful_prog (call : Call) (s : Store) : Careful call.prog s := by
  cases hmarks : call.marksVerified with
  | true =>
    cases call with
    | verify => exact careful_verify
    | _ => contradiction
  | false =>
    have hproper := call.proper_prog
    rw [hmarks] at hproper
    exact hproper.careful s

theorem verified_of_run {s₀ : Store} {calls : List Call} {turns : List (Nat × Nat)} {p : Clients}
    (hinit : s₀.Verified)
    (hrun : Run Clients.step (fun p turn => p.executes Cmd.keepsVerified turn = true) (.start s₀ calls) turns p) :
    p.shared.data.Verified := by
  refine Pool.invariant_minds (G := Minded) Onward.refl Onward.trans Store.onward_exec ?_ hinit ?_ hrun
  . intro β c s h hminded hkeeps
    exact h.exec hminded hkeeps
  . intro i t ht
    simp only [Clients.start, List.getElem?_map, map_eq_some_iff] at ht
    rcases ht with ⟨call, _, rfl⟩
    exact (call.careful_prog s₀).minds false

namespace Changed

def ann : Account := { User.ann with email := some "a@x" }

def store : Store := .holding [ann] []

def send : Call := .sendVerification (.tenant 1) 7 "t"

def click : Call := .verify (.tenant 1) "t"

def byUser : Call := .updateProfile (.tenant 1) 7 "" "" "b@x"

def byAdmin : Call := .update (.tenant 1) 7 1 ⟨some "b@x", none, none, none, none⟩

abbrev exec (allowed : Clients → Nat × Nat → Bool) (change : Call) (turns : List Nat) : Option Clients :=
  Clients.exec allowed (.start store [send, click, change]) (turns.map (·, 0))

theorem edited_isSome : (exec (fun _ _ => true) byAdmin [0, 0, 1, 1, 1, 1, 2, 2, 2]).isSome = true := by
  decide

def edited : Clients := (exec (fun _ _ => true) byAdmin [0, 0, 1, 1, 1, 1, 2, 2, 2]).get edited_isSome

theorem raced_isSome : (exec (fun _ _ => true) byUser [0, 0, 1, 1, 2, 2, 2, 1, 1]).isSome = true := by
  decide

def raced : Clients := (exec (fun _ _ => true) byUser [0, 0, 1, 1, 2, 2, 2, 1, 1]).get raced_isSome

theorem not_verified {s : Store} {u : Account} (hu : u ∈ s.users.rows) (hflag : u.emailVerified = true)
    (hemail : u.email = some "b@x") (hconsumed : s.consumed = [⟨"t", 7, "a@x", 0⟩]) : ¬s.Verified := by
  intro h
  rcases h u hu hflag with ⟨c, hc, _, _, email, haddress, hfold⟩
  rw [hconsumed, List.mem_singleton] at hc
  rw [hemail] at haddress
  cases haddress
  rw [hc] at hfold
  exact absurd hfold (by decide)

theorem unproven_address_verified :
    Run Clients.step (fun _ _ => True) (.start store [send, click, byAdmin])
      (List.map (·, 0) [0, 0, 1, 1, 1, 1, 2, 2, 2])
        edited
      ∧ edited.finished = true ∧ ¬edited.shared.data.Verified
      ∧ Run Clients.step (fun _ _ => True) (.start store [send, click, byUser])
          (List.map (·, 0) [0, 0, 1, 1, 2, 2, 2, 1, 1]) raced
      ∧ raced.finished = true ∧ ¬raced.shared.data.Verified :=
  ⟨(Run.of_isSome edited_isSome).free, by decide,
    not_verified (u := { ann with email := some "b@x", emailVerified := true }) (by decide) rfl rfl (by decide),
    (Run.of_isSome raced_isSome).free, by decide,
    not_verified (u := { ann with email := some "b@x", emailVerified := true }) (by decide) rfl rfl (by decide)⟩

theorem inOrder_isSome : (exec (Pool.executes Cmd.keepsVerified) byUser [0, 0, 1, 1, 1, 1, 2, 2, 2]).isSome = true := by
  decide

def inOrder : Clients :=
  (exec (Pool.executes Cmd.keepsVerified) byUser [0, 0, 1, 1, 1, 1, 2, 2, 2]).get inOrder_isSome

theorem store_verified : store.Verified := by
  intro u hu hflag
  have hrows : store.users.rows = [ann] := rfl
  rw [hrows, List.mem_singleton] at hu
  rw [hu] at hflag
  contradiction

theorem verified_inOrder :
    inOrder.shared.data.Verified ∧ (inOrder.shared.data.users.find? 7).map Account.emailVerified = some false :=
  ⟨verified_of_run store_verified (Run.of_isSome inOrder_isSome), by decide⟩

end Changed

end Mxid.User
