import Mxid.User.Lemmas.Bindings

namespace Mxid.User

open Prog List User.Action
open Store (Next Consistent)

variable {s : Store} {scope : Scope} {α β : Type}
variable {c : Cmd β} {f : β → Op Answer} {id userID identityID : Int} {req : ExternalLoginInput}
variable {new : Provision} {i : UserIdentity}

structure Ends (Q : Answer → Store → Prop) (s : Store) (p : Op Answer) : Prop where
  wp : ∀ fails, p.wp semantics (fun a s' => Q a s'.data) ⟨s, fails⟩

section Ends

variable {Q : Answer → Store → Prop}

theorem ends_pure {a : Answer} (h : Q a s) : Ends Q s (pure a) := ⟨fun _ => h⟩

theorem ends_call (hfailed : Ends Q s (f c.failed))
    (hreply : ∀ b, (Store.exec c s).1 = b → Ends Q (Store.exec c s).2 (f b)) : Ends Q s (Prog.call c >>= f) := by
  constructor
  intro fails
  rw [wp_bind, wp_call]
  intro delay
  unfold semantics
  rw [Semantics.faulty_advance, Semantics.faulty_step]
  split
  . apply hfailed.wp
  . apply (hreply _ rfl).wp

theorem ends_query (hc : c.isQuery = true) (hfailed : Ends Q s (f c.failed))
    (hreply : ∀ b, (Store.exec c s).1 = b → Ends Q s (f b)) : Ends Q s (Prog.call c >>= f) := by
  refine ends_call hfailed ?_
  rw [c.exec_of_isQuery s hc]
  exact hreply

theorem ends_bind {p : Op β} (hp : Queries p) (hf : ∀ b, Ends Q s (f b)) : Ends Q s (p >>= f) := by
  constructor
  intro fails
  rw [wp_bind]
  apply hp.always.wp_of_query Cmd.exec_of_isQuery
  intro b fails
  exact (hf b).wp fails

theorem Queries.ends {p : Op Answer} (hp : Queries p) (h : ∀ a, Q a s) : Ends Q s p := by
  constructor
  intro fails
  apply hp.always.wp_of_query Cmd.exec_of_isQuery
  intro a _
  exact h a

theorem ends_checked {p : Op (Except UserError α)} {f : α → Op Answer} (hp : Queries p)
    (hrefuse : ∀ e, Q ⟨.error e, []⟩ s) (hf : ∀ a, Ends Q s (f a)) : Ends Q s (checked p f) := by
  unfold checked
  refine ends_bind hp ?_
  intro result
  split
  . exact ends_pure (hrefuse _)
  . apply hf

theorem ends_found {lookup : Cmd (Option (Option α))} {missing : UserError} {f : α → Op Answer}
    (hc : lookup.isQuery = true) (hfailed : lookup.failed = none) (hrefuse : ∀ e, Q ⟨.error e, []⟩ s)
    (hf : ∀ a, (Store.exec lookup s).1 = some (some a) → Ends Q s (f a)) : Ends Q s (found lookup missing f) := by
  unfold found
  refine ends_query hc ?_ ?_
  . rw [hfailed]
    exact ends_pure (hrefuse _)
  intro reply hreply
  split
  . exact ends_pure (hrefuse _)
  . exact ends_pure (hrefuse _)
  . exact hf _ hreply

theorem ends_withUser {f : Account → Op Answer} (hrefuse : ∀ e, Q ⟨.error e, []⟩ s)
    (hf : ∀ u, s.getByID scope id = some u → Ends Q s (f u)) : Ends Q s (withUser scope id f) :=
  ends_found rfl rfl hrefuse (fun u hreply => hf u (Scope.eq_of_ask hreply))

end Ends

abbrev Advances (s : Store) (p : Op Answer) : Prop := Ends (fun _ => Next s) s p

theorem advances_refuse {e : UserError} (h : s.Consistent) : Advances s (refuse e) := ends_pure (Next.refl h)

theorem advances_write (h : s.Consistent) (hf : ∀ b, Queries (f b))
    (hnext : Next s (Store.exec c s).2) : Advances s (Prog.call c >>= f) :=
  ends_call ((hf _).ends (fun _ => Next.refl h)) (fun b _ => (hf b).ends (fun _ => hnext))

theorem Store.Next.getD {result : Option Store} (h : s.Consistent) (hresult : ∀ s', result = some s' → Next s s') :
    Next s (result.getD s) := by
  cases result with
  | none => exact .refl h
  | some s' => exact hresult s' rfl

theorem advances_provision (h : s.Consistent) (hnamed : req.externalID ≠ "") :
    Advances s (provision scope req new) := by
  unfold provision allocUsername
  refine ends_checked (queries_allocUsernameLoop _ _ _) (fun _ => Next.refl h) (fun _ => ?_)
  refine ends_bind (queries_ifFree rfl) (fun _ => ?_)
  refine ends_bind (queries_ifFree rfl) (fun _ => ?_)
  refine advances_write h ?_ ?_
  . intro reply
    split <;> exact queries_pure
  . simp only [Store.exec, attempt_snd]
    apply Next.getD h
    intro s' hcreate
    rcases Store.createWithIdentity_eq_some hcreate with ⟨s1, hs1, hidentity⟩
    rcases Store.create_eq_some hs1 with ⟨hinsert, _, hidentities, _, _, hreleased⟩
    have husers : Store.Users s s1 := by
      intro u' hu'
      exact ⟨u', (Table.mem_of_insert? hinsert).mpr (Or.inr hu'), rfl, rfl, fun hdeleted => hdeleted⟩
    have hu := (Table.mem_of_insert? hinsert).mpr (Or.inl rfl)
    exact Next.createIdentity h hidentities hreleased husers hu rfl rfl rfl rfl hnamed hidentity

section

variable (h : s.Consistent)

include h

theorem advances_resolveExternalLogin : Advances s (resolveExternalLogin scope req new) := by
  unfold resolveExternalLogin
  split
  . exact advances_refuse h
  next hnamed =>
  refine ends_query rfl (advances_refuse h) ?_
  intro reply hreply
  split
  . exact advances_refuse h
  . rcases Store.getIdentityByExternal_eq_some (Scope.eq_of_ask hreply) with ⟨hmem, hlive, _⟩
    unfold loginBound
    split
    . refine advances_write h (fun _ => queries_linkedUser) ?_
      simp only [Store.exec]
      split
      . rw [attempt_snd]
        exact Next.getD h (fun _ => Next.saveIdentity h hmem hlive)
      . exact Next.refl h
    . exact queries_linkedUser.ends (fun _ => Next.refl h)
  refine ends_query rfl (advances_refuse h) ?_
  intro reply _
  split
  . exact advances_refuse h
  . exact queries_refusePrior.ends (fun _ => Next.refl h)
  refine ends_checked queries_findLinkCandidate (fun _ => Next.refl h) (fun _ => ?_)
  split
  . exact advances_provision h hnamed
  . exact advances_refuse h

theorem advances_written {write : Cmd (Option Bool)} {missing : UserError} {event : Event}
    (hnext : Next s (Store.exec write s).2) : Advances s (written write missing event) := by
  unfold written
  refine advances_write h ?_ hnext
  intro reply
  split <;> exact queries_pure

theorem advances_bindExternalIdentity {req : BindIdentityInput} :
    Advances s (bindExternalIdentity scope req identityID) := by
  unfold bindExternalIdentity
  split
  . exact advances_refuse h
  next hnamed =>
  have hnamed : req.externalID ≠ "" := by
    simp only [Bool.or_eq_true, decide_eq_true_eq, not_or] at hnamed
    exact hnamed.1
  apply ends_withUser (fun _ => Next.refl h)
  intro caller hcaller
  rcases Store.getByID_eq_some hcaller with ⟨hmem, hdeleted, _, hid⟩
  split
  . exact advances_refuse h
  next htenant =>
  have htenant : caller.tenantID = req.tenantID := not_not.mp htenant
  refine ends_query rfl (advances_refuse h) ?_
  intro reply hreply
  split
  . exact advances_refuse h
  . apply advances_written h
    simp only [Store.exec, attempt_snd]
    exact Next.getD h (fun _ => Next.createIdentity h rfl rfl (.of_eq rfl) hmem hid htenant hdeleted rfl hnamed)
  next existing =>
  rcases Store.getAnyIdentityByExternal_eq_some (Scope.eq_of_ask hreply) with ⟨hexisting, hsees, hkey⟩
  have htenant' : caller.tenantID = existing.tenantID := by
    have hkey : existing.tenantID = req.tenantID := congrArg ExternalKey.tenantID hkey
    exact htenant.trans hkey.symm
  -- whether the call reclaims the identity or takes it over, the same is written
  have hclaim : ∀ event, caller.id = existing.userID ∨ existing.id ∈ s.released →
      Advances s (claim (.restoreIdentityTo scope existing req.userID (nonempty req.displayName) req.raw) event) := by
    intro event howner
    rw [← hid]
    apply advances_written h
    simp only [Store.exec]
    split
    . rw [attempt_snd]
      exact Next.getD h (fun _ => Next.restoreIdentityTo h hexisting hsees hmem hdeleted htenant' howner)
    . exact Next.refl h
  split
  . next howner =>
    split
    . exact ends_pure (Next.refl h)
    . exact hclaim _ (Or.inl (hid.trans howner.symm))
  split
  . next hlive =>
    refine ends_query rfl (advances_refuse h) ?_
    intro reply hreply
    split
    . exact advances_refuse h
    . exact advances_refuse h
    -- the owner would have been found
    rcases h.owned existing hexisting with ⟨u, hu, hu_id, hu_tenant, hu_live⟩
    have hfound := Store.getByID_of_mem hu (hu_live hlive) (hu_tenant ▸ hsees)
    rw [hu_id, Scope.eq_of_ask hreply] at hfound
    contradiction
  . next hdead => exact hclaim _ (Or.inr (h.severed existing hexisting (Bool.eq_false_iff.mpr hdead)))

theorem advances_unbindIdentity {now : Int} : Advances s (unbindIdentity scope userID identityID now) := by
  apply advances_written h
  simp only [Store.exec, Scope.tell_snd]
  split
  . exact Next.deleteIdentity h
  . exact Next.refl h

theorem advances_restoreIdentity : Advances s (restoreIdentity scope userID identityID) := by
  unfold restoreIdentity
  refine ends_found rfl rfl (fun _ => Next.refl h) (fun u hreply => ?_)
  have hu := Scope.eq_of_ask hreply
  refine ends_found rfl rfl (fun _ => Next.refl h) (fun target hreply => ?_)
  have htarget := Scope.eq_of_ask hreply
  split
  . exact advances_refuse h
  refine ends_query rfl (advances_refuse h) ?_
  intro reply _
  split
  . exact advances_refuse h
  split
  . exact advances_refuse h
  apply advances_written h
  simp only [Store.exec]
  split
  . rw [attempt_snd]
    exact Next.getD h (fun _ => Next.restoreIdentity h htarget hu)
  . exact Next.refl h

theorem advances_restoreUser : Advances s (restoreUser scope id) := by
  apply advances_written h
  simp only [Store.exec]
  split
  . rw [attempt_snd]
    exact Next.getD h (fun _ => Next.restoreUser h)
  . exact Next.refl h

theorem next_delete {now : Int} {failures : List Nat} (hlast : failures.tail.tail.headD 0 = 0) :
    Next s ((delete scope id now).exec semantics failures ⟨s, false⟩).2.data := by
  unfold delete withUser found stored semantics
  by_cases hfirst : failures.headD 0 = 0
  . rw [exec_call_of_eq_zero hfirst]
    generalize hreply : (Store.exec (.getByID scope id) s).1 = reply
    split
    . exact Next.refl h
    . exact Next.refl h
    next u =>
    have hu := Scope.eq_of_ask hreply
    have husable : scope.usable = true := by
      simp only [Store.exec, Scope.ask] at hreply
      split at hreply
      . assumption
      . contradiction
    by_cases hsecond : failures.tail.headD 0 = 0
    . rw [exec_call_of_eq_zero hsecond]
      simp only [Store.exec, Scope.tell, husable, if_true]
      rw [exec_call_of_eq_zero hlast]
      simp only [Store.exec, Scope.tell, husable, if_true]
      exact Next.delete h hu
    . rw [exec_call_of_ne_zero hsecond]
      exact Next.refl h
  . rw [exec_call_of_ne_zero hfirst]
    exact Next.refl h

theorem Action.next_run {a : Action} (ha : a.onIdentities = true) (hcompletes : a.completes = true) :
    Next s (a.run s).2.data := by
  have hends : Advances s a.call.prog → Next s (a.run s).2.data := by
    intro hends
    exact exec_of_wp (hends.wp false) a.failures
  rcases a with ⟨call, failures⟩
  cases call with
  | resolveExternalLogin => exact hends (advances_resolveExternalLogin h)
  | bindExternalIdentity => exact hends (advances_bindExternalIdentity h)
  | unbindIdentity => exact hends (advances_unbindIdentity h)
  | restoreIdentity => exact hends (advances_restoreIdentity h)
  | restoreUser => exact hends (advances_restoreUser h)
  | delete => exact next_delete h (of_decide_eq_true hcompletes)
  | _ => contradiction

theorem Store.Consistent.getIdentityByExternal_eq_some {key : ExternalKey}
    (hi : i ∈ s.identities.rows) (hlive : i.live = true) (hkey : i.external = key)
    (hsees : scope.sees key.tenantID = true) : s.getIdentityByExternal scope key = some i := by
  have htenant : i.tenantID = key.tenantID := congrArg ExternalKey.tenantID hkey
  cases hfind : s.getIdentityByExternal scope key with
  | none =>
    have hnot := List.find?_eq_none.mp hfind i ((Table.mem_orderBy _).mpr hi)
    simp [hlive, hkey, htenant, hsees] at hnot
  | some i' =>
    rcases Store.getIdentityByExternal_eq_some hfind with ⟨hi', hlive', _, hkey'⟩
    rw [h.distinct i hi i' hi' hlive hlive']
    have hcols := hkey.trans hkey'.symm
    simp only [UserIdentity.external, ExternalKey.mk.injEq] at hcols
    simp [UserIdentity.sameAccount, hcols]

end

theorem users_resolveExternalLogin (hfound : s.getIdentityByExternal scope req.key = some i) (failures : List Nat) :
    ((resolveExternalLogin scope req new).exec semantics failures ⟨s, false⟩).2.data.users = s.users := by
  refine exec_of_wp ((?_ : Ends (fun _ s' => s'.users = s.users) s _).wp false) failures
  unfold resolveExternalLogin
  split
  . exact ends_pure rfl
  refine ends_query rfl (ends_pure rfl) ?_
  intro reply hreply
  split
  . exact ends_pure rfl
  . unfold loginBound
    split
    . exact ends_call (queries_linkedUser.ends (fun _ => rfl))
        (fun _ _ => queries_linkedUser.ends (fun _ => (Store.sameUsers_exec rfl).users))
    . exact queries_linkedUser.ends (fun _ => rfl)
  . have hnone := hfound.symm.trans (Scope.eq_of_ask hreply)
    contradiction

theorem result_resolveExternalLogin {u : Account} {failures : List Nat} (hnamed : req.externalID ≠ "")
    (husable : scope.usable = true) (hfound : s.getIdentityByExternal scope req.key = some i)
    (howner : ∀ s' : Store, s'.users = s.users → s'.getByID scope i.userID = some u)
    (hfailures : ∀ n ∈ failures, n = 0) :
    ((resolveExternalLogin scope req new).exec semantics failures ⟨s, false⟩).1.result = .ok (some u.id) := by
  have hhead : ∀ l : List Nat, (∀ n ∈ l, n = 0) → l.headD 0 = 0 := by
    intro l hl
    cases l with
    | nil => rfl
    | cons n => exact hl n mem_cons_self
  have htail : ∀ l : List Nat, (∀ n ∈ l, n = 0) → ∀ n ∈ l.tail, n = 0 :=
    fun l hl n hn => hl n (mem_of_mem_tail hn)
  have hlast : ∀ (l : List Nat) (s' : Store), (∀ n ∈ l, n = 0) → s'.users = s.users →
      ((linkedUser scope i.userID).exec (.faulty Store.exec Cmd.failed) l ⟨s', false⟩).1.result = .ok (some u.id) := by
    intro l s' hl hs'
    unfold linkedUser found
    rw [exec_call_of_eq_zero (hhead l hl)]
    simp only [Store.exec, Scope.ask, husable, if_true, howner s' hs']
    rfl
  unfold resolveExternalLogin semantics
  rw [if_neg hnamed, exec_call_of_eq_zero (hhead _ hfailures)]
  simp only [Store.exec, Scope.ask, husable, if_true, hfound]
  unfold loginBound
  split
  . rw [exec_call_of_eq_zero (hhead _ (htail _ hfailures))]
    exact hlast _ _ (htail _ (htail _ hfailures)) (Store.sameUsers_exec rfl).users
  . exact hlast _ _ (htail _ hfailures) rfl

/--
A live identity has a live owner; a login through it is answered with its owner and never creates a user; and no
operation gives it to somebody else, unless its owner has unbound it or was deleted since it was last live.
-/
theorem identities_survive {s₀ s : Store} {acts : List Action} (hinit : s₀.Consistent)
    (hrun : Run Action.step (fun _ a => a.onIdentities = true ∧ a.completes = true) s₀ acts s) :
    (∀ i ∈ s.identities.rows, i.live = true → s.isLive i.userID = true)
      ∧ (∀ i ∈ s.identities.rows, i.live = true → ∀ (scope : Scope) (req : ExternalLoginInput) (new : Provision)
          (failures : List Nat), i.external = req.key → scope.usable = true → scope.sees req.tenantID = true →
          ((Action.mk (.resolveExternalLogin scope req new) failures).run s).2.data.users = s.users
            ∧ ((∀ n ∈ failures, n = 0) →
              ((Action.mk (.resolveExternalLogin scope req new) failures).run s).1.result = .ok (some i.userID)))
      ∧ ∀ (a : Action) (s' : Store), a.onIdentities = true → a.completes = true → Action.step s a = some s' →
          ∀ i ∈ s.identities.rows, ∀ i' ∈ s'.identities.rows, i'.id = i.id → i'.userID ≠ i.userID →
            i.id ∈ s.released := by
  have hs : s.Consistent := by
    apply hrun.invariant hinit
    rintro s a s' hs ⟨ha, hcompletes⟩ hstep
    cases hstep
    exact (Action.next_run hs ha hcompletes).consistent
  refine ⟨?_, ?_, ?_⟩
  . intro i hi hlive
    rcases hs.owned i hi with ⟨u, hu, hid, _, hdeleted⟩
    apply any_eq_true.mpr
    exact ⟨u, hu, by simp [hid, hdeleted hlive]⟩
  . intro i hi hlive scope req new failures hkey husable hsees
    have hfound := hs.getIdentityByExternal_eq_some hi hlive hkey hsees
    refine ⟨users_resolveExternalLogin hfound failures, ?_⟩
    intro hfailures
    rcases hs.owned i hi with ⟨u, hu, hid, htenant, hdeleted⟩
    rw [← hid]
    have hnamed : req.externalID ≠ "" := by
      have hcol : i.externalID = req.externalID := congrArg ExternalKey.externalID hkey
      rw [← hcol]
      exact hs.named i hi
    apply result_resolveExternalLogin hnamed husable hfound _ hfailures
    intro s' hs'
    have hcol : i.tenantID = req.tenantID := congrArg ExternalKey.tenantID hkey
    rw [← hs'] at hu
    rw [← hid]
    apply Store.getByID_of_mem hu (hdeleted hlive)
    rw [htenant, hcol]
    exact hsees
  . intro a s' ha hcompletes hstep
    cases hstep
    exact (Action.next_run hs ha hcompletes).owners

/-!
User 7 has an identity. Their deletion fails after it has swept the identity, and user 8 binds it.
-/

namespace HalfDeleted

def identity : UserIdentity := ⟨1, 7, 1, "lark", "5", "ou_1", none, none, none⟩

def store : Store := .holding [ann, bob] [identity]

theorem store_consistent : store.Consistent := by
  have hrows : store.identities.rows = [identity] := rfl
  have husers : store.users.rows = [ann, bob] := rfl
  constructor
  . intro i hi
    rw [hrows, mem_singleton] at hi
    subst hi
    exact ⟨ann, by simp [husers], rfl, rfl, fun _ => rfl⟩
  . intro i hi i' hi' _ _ _
    rw [hrows, mem_singleton] at hi hi'
    rw [hi, hi']
  . intro i hi hdead
    rw [hrows, mem_singleton] at hi
    subst hi
    contradiction
  . intro i hi
    rw [hrows, mem_singleton] at hi
    subst hi
    decide

def deleteAnn (failures : List Nat) : Action := ⟨.delete (.tenant 1) 7 100, failures⟩

def bindBob : Action := ⟨.bindExternalIdentity (.tenant 1) ⟨1, 8, "lark", "5", "ou_1", "", none, false⟩ 2, []⟩

abbrev exec (allowed : Action → Bool) (s : Store) (acts : List Action) : Option Store :=
  Run.exec step (fun _ a => allowed a = true) s acts

theorem swept_isSome : (exec onIdentities store [deleteAnn [0, 0, 1]]).isSome = true := by
  decide

def swept : Store := (exec onIdentities store [deleteAnn [0, 0, 1]]).get swept_isSome

theorem bound_isSome : (step swept bindBob).isSome = true := by
  decide

def bound : Store := (step swept bindBob).get bound_isSome

abbrev owner (s : Store) : Option Int := (s.identities.find? 1).map UserIdentity.userID

theorem swept_identity_changes_owner :
    Run step (fun _ a => a.onIdentities = true) store [deleteAnn [0, 0, 1]] swept
      ∧ swept.isLive 7 = true ∧ owner swept = some 7 ∧ 1 ∉ swept.released
      ∧ step swept bindBob = some bound ∧ owner bound = some 8 :=
  ⟨Run.of_isSome swept_isSome, by decide, by decide, by decide,
    (Option.some_get bound_isSome).symm, by decide⟩

theorem deleted_isSome :
    (exec (fun a => a.onIdentities && a.completes) store [deleteAnn [0, 0, 0], bindBob]).isSome = true := by
  decide

def deleted : Store :=
  (exec (fun a => a.onIdentities && a.completes) store [deleteAnn [0, 0, 0], bindBob]).get deleted_isSome

theorem deleted_identity_taken_over : deleted.isLive 8 = true ∧ owner deleted = some 8 :=
  have hrun := (Run.of_isSome deleted_isSome).mono
    (fun _ _ h => (Bool.and_eq_true _ _).mp h)
  ⟨(identities_survive store_consistent hrun).1 { identity with userID := 8 } (by decide) rfl, by decide⟩

end HalfDeleted

end Mxid.User
