import Mxid.User.Impl.System

/-!
This module contains what is known of the statements that the operations on users send.
-/

namespace Mxid.User

open Store

namespace Cmd

variable {β : Type}

def replies : Cmd β → β → Prop
  | .getByID _ id, reply => ∀ u, reply = some (some u) → u.deleted = false ∧ u.id = id
  | .getIdentityByExternal _ _, reply => ∀ i, reply = some (some i) → i.live = true
  | _, _ => True

/--
The statements that are sent. Only rows that are not deleted are saved, new users have no privileges, new identities are
live, and no flag is revoked unless more than one super admin was counted. The argument says whether an address may be
marked as verified.
-/
def proper (marks : Bool) : Cmd β → Prop
  | .create u => u.deleted = false ∧ u.isSuperAdmin = false ∧ u.emailVerified = false
  | .createWithIdentity u i =>
    u.deleted = false ∧ u.isSuperAdmin = false ∧ u.emailVerified = false ∧ i.userID = u.id ∧ i.live = true
  | .createIdentity i => i.live = true
  | .save _ base edit => base.deleted = false ∧ (edit.marksVerified = true → marks = true)
  | .saveIdentity _ base _ _ => base.live = true
  | .setSuperAdmin _ _ makeSuper seen => makeSuper = false → 2 ≤ seen
  | _ => True

def isQuery : Cmd β → Bool
  | .getByID .. | .getAnyByID .. | .getByUsername .. | .getByEmail .. | .getByPhone ..
  | .findByUsernameFold .. | .listIdentities .. | .getIdentityByExternal .. | .getAnyIdentityByExternal ..
  | .getAnyIdentity .. | .countClash .. => true
  | _ => false

theorem exec_of_isQuery (c : Cmd β) (s : Store) (h : c.isQuery = true) : (Store.exec c s).2 = s := by
  cases c <;> first | rfl | contradiction

theorem replies_failed (c : Cmd β) : c.replies c.failed := by
  cases c with
  | getByID | getIdentityByExternal => simp [replies, failed]
  | _ => trivial

end Cmd

variable {s : Store} {scope : Scope} {id tenantID actorID userID identityID : Int} {u : Account}
variable {new : NewPassword} {token : String} {req : ExternalLoginInput}

theorem Store.getByID_eq_some (h : s.getByID scope id = some u) :
    u ∈ s.users.rows ∧ u.deleted = false ∧ scope.sees u.tenantID = true ∧ u.id = id := by
  unfold getByID first at h
  have hmem := (Table.mem_orderBy _).mp (List.mem_of_find?_eq_some h)
  have hcond := List.find?_some h
  simp only [visible, Bool.and_eq_true, Bool.not_eq_true', decide_eq_true_eq] at hcond
  exact ⟨hmem, hcond.1.1, hcond.1.2, hcond.2⟩

theorem Store.concerns_of_getByID (h : s.getByID scope id = some u) : concerns scope id u = true := by
  rcases getByID_eq_some h with ⟨_, hdeleted, hsees, hid⟩
  simp [concerns, visible, hdeleted, hsees, hid]

theorem Store.affects_of_getByID (h : s.getByID scope id = some u) : s.affects scope id = true :=
  List.any_eq_true.mpr ⟨u, (getByID_eq_some h).1, concerns_of_getByID h⟩

theorem Store.getByID_of_mem (hu : u ∈ s.users.rows)
    (hdeleted : u.deleted = false) (hsees : scope.sees u.tenantID = true) : s.getByID scope u.id = some u := by
  apply Table.find?_orderBy_of_unique _ hu
  . simp [visible, hdeleted, hsees]
  intro u' hu' hcond
  simp only [Bool.and_eq_true, decide_eq_true_eq] at hcond
  exact s.users.eq_of_key_eq hu' hu hcond.2

theorem Store.getIdentityByExternal_eq_some {key : ExternalKey} {i : UserIdentity}
    (h : s.getIdentityByExternal scope key = some i) :
    i ∈ s.identities.rows ∧ i.live = true ∧ scope.sees i.tenantID = true ∧ i.external = key := by
  unfold getIdentityByExternal at h
  have hmem := (Table.mem_orderBy _).mp (List.mem_of_find?_eq_some h)
  have hcond := List.find?_some h
  simp only [Bool.and_eq_true, decide_eq_true_eq] at hcond
  exact ⟨hmem, hcond.1.1, hcond.1.2, hcond.2⟩

theorem Scope.eq_of_ask {σ α : Type} {s : σ} {reply reply' : α}
    (h : (scope.ask s reply).1 = some reply') : reply = reply' := by
  unfold Scope.ask at h
  split at h
  . exact Option.some.inj h
  . contradiction

theorem Cmd.replies_exec {β : Type} (c : Cmd β) (s : Store) : c.replies (Store.exec c s).1 := by
  cases c with
  | getByID =>
    intro u hu
    rcases getByID_eq_some (Scope.eq_of_ask hu) with ⟨_, hdeleted, _, hid⟩
    exact ⟨hdeleted, hid⟩
  | getIdentityByExternal =>
    intro i hi
    exact (getIdentityByExternal_eq_some (Scope.eq_of_ask hi)).2.1
  | _ => trivial

structure Queries {α : Type} (p : Op α) : Prop where
  always : p.Always (fun c => c.isQuery = true) (fun _ => True)

theorem queries_pure {α : Type} {a : α} : Queries (pure a) := ⟨trivial⟩

theorem queries_call {f : β → Op α} (hc : c.isQuery = true) (hf : ∀ b, Queries (f b)) : Queries (Prog.call c >>= f) :=
  ⟨Prog.always_call_bind hc (fun b => (hf b).always)⟩

theorem queries_requireFree {lookup : Cmd (Option (Option Account))} {taken : UserError}
    (h : lookup.isQuery = true) : Queries (requireFree lookup taken) := by
  unfold requireFree
  refine queries_call h ?_
  intro reply
  split <;> exact queries_pure

theorem queries_requireFreeIfNew {lookup : String → Cmd (Option (Option Account))} {taken : UserError}
    {old new : Option String} (h : ∀ value, (lookup value).isQuery = true) :
    Queries (requireFreeIfNew lookup taken old new) := by
  unfold requireFreeIfNew
  split
  . exact queries_pure
  split
  . exact queries_pure
  . exact queries_requireFree (h _)

theorem queries_findLinkCandidate : Queries (findLinkCandidate scope req) := by
  unfold findLinkCandidate
  split
  . exact queries_pure
  refine queries_call rfl ?_
  intro reply
  split
  . exact queries_pure
  . exact queries_pure
  . refine queries_call rfl ?_
    intro reply
    split
    . exact queries_pure
    . split <;> exact queries_pure
  . exact queries_pure

theorem queries_allocUsernameLoop {tenantID : Int} {base : String} (fuel i : Nat) (candidate : String) :
    Queries (allocUsernameLoop scope tenantID base fuel i candidate) := by
  induction fuel generalizing i candidate with
  | zero => exact queries_pure
  | succ fuel ih =>
    unfold allocUsernameLoop
    refine queries_call rfl ?_
    intro reply
    split
    . exact queries_pure
    . exact queries_pure
    . apply ih

theorem queries_ifFree {lookup : String → Cmd (Option (Option Account))} {value : String}
    (h : (lookup value).isQuery = true) : Queries (ifFree lookup value) := by
  unfold ifFree
  split
  . exact queries_pure
  refine queries_call h ?_
  intro reply
  split <;> exact queries_pure

theorem queries_found {lookup : Cmd (Option (Option α))} {missing : UserError} {f : α → Op Answer}
    (h : lookup.isQuery = true) (hf : ∀ a, Queries (f a)) : Queries (found lookup missing f) := by
  unfold found
  refine queries_call h ?_
  intro reply
  split
  . exact queries_pure
  . exact queries_pure
  . apply hf

theorem queries_refusePrior {prior : UserIdentity} : Queries (refusePrior scope prior) :=
  queries_found rfl (fun _ => queries_pure)

theorem queries_linkedUser : Queries (linkedUser scope userID) := queries_found rfl (fun _ => queries_pure)

/--
No handler of the dynamic groups learns a tenant from the event.
-/
def untenanted (evt : Event) : Bool :=
  match evt.type, evt.payload with
  | .userUpdated, .map p => (p.lookup "tenant_id").isNone
  | .orgMoved, _ | .orgMemberAdded, _ | .orgMemberRemoved, _ => false
  | _, _ => true

/--
The second argument says whether events may name the tenant.
-/
structure Proper (marks names : Bool) (p : Op Answer) : Prop where
  sends : p.Sends Cmd.replies (fun c => c.proper marks) (fun a => names = false → a.events.all untenanted = true)

variable {marks names : Bool}

section

variable {α β : Type}

theorem proper_pure {a : Answer} (h : names = false → a.events.all untenanted = true) : Proper marks names (pure a) :=
  ⟨Prog.sends_pure h⟩

theorem proper_refuse {e : UserError} : Proper marks names (refuse e) := proper_pure (fun _ => rfl)

theorem proper_call {c : Cmd β} {f : β → Op Answer} (hc : c.proper marks)
    (hf : ∀ b, c.replies b → Proper marks names (f b)) : Proper marks names (Prog.call c >>= f) :=
  ⟨Prog.sends_call hc (fun b hb => (hf b hb).sends)⟩

theorem proper_bind {p : Op β} {f : β → Op Answer} (hp : Queries p) (hf : ∀ b, Proper marks names (f b)) :
    Proper marks names (p >>= f) := by
  constructor
  refine Prog.Sends.bind (hp.always.sends ?_) (fun b => (hf b).sends)
  intro β c hc
  cases c <;> trivial

theorem Proper.mono {p : Op Answer} (hp : Proper marks names p) : Proper true true p := by
  constructor
  refine hp.sends.mono ?_ (fun _ _ => nofun)
  intro β c hc
  cases c with
  | save => exact ⟨hc.1, fun _ => rfl⟩
  | _ => exact hc

end

theorem proper_checked {p : Op (Except UserError α)} {f : α → Op Answer} (hp : Queries p)
    (hf : ∀ a, Proper marks names (f a)) : Proper marks names (checked p f) := by
  unfold checked
  refine proper_bind hp ?_
  intro result
  split
  . exact proper_refuse
  . apply hf

theorem proper_found {lookup : Cmd (Option (Option α))} {missing : UserError} {f : α → Op Answer}
    (hc : lookup.proper marks) (hf : ∀ a, lookup.replies (some (some a)) → Proper marks names (f a)) :
    Proper marks names (found lookup missing f) := by
  unfold found
  refine proper_call hc ?_
  intro reply hreply
  split
  . exact proper_refuse
  . exact proper_refuse
  . exact hf _ hreply

theorem proper_written {write : Cmd (Option Bool)} {missing : UserError} {event : Event} (hc : write.proper marks)
    (hevent : untenanted event = true) : Proper marks names (written write missing event) := by
  unfold written
  refine proper_call hc ?_
  intro reply _
  split
  . exact proper_refuse
  . exact proper_refuse
  . exact proper_pure (fun _ => by simp [hevent])

theorem proper_stored {write : Cmd (Option Unit)} {next : Op Answer} (hc : write.proper marks)
    (hnext : Proper marks names next) : Proper marks names (stored write next) := by
  unfold stored
  refine proper_call hc ?_
  intro reply _
  split
  . exact proper_refuse
  . exact hnext

theorem proper_withUser {f : Account → Op Answer}
    (h : ∀ u, u.deleted = false → u.id = id → Proper marks names (f u)) : Proper marks names (withUser scope id f) :=
  proper_found trivial (fun u hreply => h u (hreply u rfl).1 (hreply u rfl).2)

theorem proper_create {req : CreateUserRequest} {new : NewUser} :
    Proper marks names (create scope tenantID req new) := by
  unfold create
  refine proper_checked (queries_requireFree rfl) (fun _ => ?_)
  refine proper_checked (queries_requireFreeIfNew (fun _ => rfl)) (fun _ => ?_)
  refine proper_checked (queries_requireFreeIfNew (fun _ => rfl)) (fun _ => ?_)
  split
  . exact proper_refuse
  . exact proper_stored ⟨rfl, rfl, rfl⟩ (proper_pure (fun _ => rfl))

theorem proper_saveEdit {edit : Edit} (h : u.deleted = false)
    (hmarks : edit.marksVerified = true → marks = true) : Proper marks names (saveEdit scope u edit) :=
  proper_stored ⟨h, hmarks⟩ (proper_pure (fun _ => rfl))

theorem proper_update {req : UpdateUserRequest} : Proper marks true (update scope id tenantID req) := by
  unfold update
  apply proper_withUser
  intro u hu _
  refine proper_checked (queries_requireFreeIfNew (fun _ => rfl)) (fun _ => ?_)
  refine proper_checked (queries_requireFreeIfNew (fun _ => rfl)) (fun _ => ?_)
  exact proper_stored ⟨hu, fun h => nomatch h⟩ (proper_pure nofun)

theorem proper_setSuperAdmin_write {targetID : Int} {makeSuper : Bool}
    {target : Account} {seen : Nat} (h : makeSuper = false → 2 ≤ seen) :
    Proper marks names (setSuperAdmin.write scope actorID tenantID targetID makeSuper target seen) :=
  proper_written h (by cases makeSuper <;> rfl)

theorem proper_setSuperAdmin {targetID : Int} {makeSuper : Bool} :
    Proper marks names (setSuperAdmin scope actorID tenantID targetID makeSuper) := by
  unfold setSuperAdmin
  refine proper_call trivial ?_
  intro reply _
  split
  . exact proper_refuse
  . exact proper_refuse
  split
  . exact proper_refuse
  split
  . exact proper_pure (fun _ => rfl)
  split
  . next hmake => exact proper_setSuperAdmin_write (fun h => absurd (hmake.symm.trans h) (by decide))
  refine proper_call trivial ?_
  intro reply _
  split
  . exact proper_refuse
  split
  . exact proper_refuse
  . exact proper_setSuperAdmin_write (fun _ => by omega)

theorem proper_delete {now : Int} : Proper marks names (delete scope id now) :=
  proper_withUser (fun _ _ _ => proper_stored trivial (proper_stored trivial (proper_pure (fun _ => rfl))))

theorem proper_restoreUser : Proper marks names (restoreUser scope id) := proper_written trivial rfl

theorem proper_updateStatus {status : Int} : Proper marks true (updateStatus scope id status) := by
  unfold updateStatus
  refine proper_call trivial ?_
  intro reply _
  split
  . exact proper_refuse
  . exact proper_refuse
  refine proper_call trivial ?_
  intro reply _
  exact proper_pure nofun

theorem proper_lockUser {reason : String} : Proper marks names (lockUser scope id actorID reason) :=
  proper_written trivial rfl

theorem proper_unlockUser : Proper marks names (unlockUser scope id actorID) := proper_written trivial rfl

theorem proper_writePassword {mustChange : Bool}
    {payload : List (String × Value)} : Proper marks names (writePassword scope id new mustChange payload) := by
  unfold writePassword
  split
  . exact proper_refuse
  . exact proper_written trivial rfl

theorem proper_changePassword {check : String → String → Bool} {old : String}
    : Proper marks names (changePassword check scope id old new) := by
  unfold changePassword
  apply proper_withUser
  intro u _ _
  split
  . exact proper_refuse
  . exact proper_writePassword

theorem proper_setInitialPassword : Proper marks names (setInitialPassword scope id new) := by
  unfold setInitialPassword
  apply proper_withUser
  intro u _ _
  split
  . exact proper_refuse
  . exact proper_writePassword

theorem proper_resetPassword {mustChange : Option Bool} :
    Proper marks names (resetPassword scope id new mustChange) := by
  unfold resetPassword
  apply proper_withUser
  intro u _ _
  exact proper_writePassword

theorem proper_updateProfile {displayName phone email : String} :
    Proper marks names (updateProfile scope userID displayName phone email) := by
  unfold updateProfile
  apply proper_withUser
  intro u hu _
  refine proper_checked (queries_requireFreeIfNew (fun _ => rfl)) (fun _ => ?_)
  refine proper_checked (queries_requireFreeIfNew (fun _ => rfl)) (fun _ => ?_)
  exact proper_saveEdit hu (fun h => nomatch h)

theorem proper_updateAvatar {avatar : String} : Proper marks names (updateAvatar scope userID avatar) := by
  unfold updateAvatar
  apply proper_withUser
  intro u hu _
  exact proper_saveEdit hu (fun h => nomatch h)

theorem proper_markEmailVerified : Proper true names (markEmailVerified scope userID token) := by
  unfold markEmailVerified
  apply proper_withUser
  intro u hu _
  split
  . exact proper_pure (fun _ => rfl)
  . exact proper_saveEdit hu (fun _ => rfl)

theorem proper_sendVerification : Proper marks names (sendVerification scope userID token) := by
  unfold sendVerification
  apply proper_withUser
  intro u _ _
  split
  . exact proper_refuse
  . exact proper_stored trivial (proper_pure (fun _ => rfl))

theorem proper_verify : Proper true names (verify scope token) := by
  unfold verify
  refine proper_found trivial (fun _ _ => ?_)
  apply proper_withUser
  intro u _ _
  split
  . exact proper_refuse
  split
  . exact proper_markEmailVerified
  . exact proper_refuse

theorem proper_expireToken : Proper marks names (expireToken token) := by
  unfold expireToken
  refine proper_call trivial ?_
  intro reply _
  exact proper_pure (fun _ => rfl)

theorem proper_provision {new : Provision} : Proper marks names (provision scope req new) := by
  unfold provision allocUsername
  refine proper_checked (queries_allocUsernameLoop _ _ _) (fun _ => ?_)
  refine proper_bind (queries_ifFree rfl) (fun _ => ?_)
  refine proper_bind (queries_ifFree rfl) (fun _ => ?_)
  exact proper_stored ⟨rfl, rfl, rfl, rfl, rfl⟩ (proper_pure (fun _ => rfl))

theorem proper_linkedUser : Proper marks names (linkedUser scope userID) :=
  proper_found trivial (fun _ _ => proper_pure (fun _ => rfl))

theorem proper_resolveExternalLogin {new : Provision} : Proper marks names (resolveExternalLogin scope req new) := by
  unfold resolveExternalLogin
  split
  . exact proper_refuse
  refine proper_call trivial ?_
  intro reply hreply
  split
  . exact proper_refuse
  . unfold loginBound
    split
    . exact proper_call (hreply _ rfl) (fun _ _ => proper_linkedUser)
    . exact proper_linkedUser
  refine proper_call trivial ?_
  intro reply _
  split
  . exact proper_refuse
  . exact proper_found trivial (fun _ _ => proper_refuse)
  refine proper_checked queries_findLinkCandidate (fun _ => ?_)
  split
  . exact proper_provision
  . exact proper_refuse

theorem proper_claim {write : Cmd (Option Bool)} {event : Event} (h : write.proper marks)
    (hevent : untenanted event = true) : Proper marks names (claim write event) :=
  proper_written h hevent

theorem proper_bindExternalIdentity {req : BindIdentityInput} :
    Proper marks names (bindExternalIdentity scope req identityID) := by
  unfold bindExternalIdentity
  split
  . exact proper_refuse
  apply proper_withUser
  intro caller _ _
  split
  . exact proper_refuse
  refine proper_call trivial ?_
  intro reply _
  split
  . exact proper_refuse
  . exact proper_claim rfl rfl
  split
  . split
    . exact proper_pure (fun _ => rfl)
    . exact proper_claim trivial rfl
  split
  . refine proper_call trivial ?_
    intro reply _
    split
    . exact proper_refuse
    . exact proper_refuse
    . exact proper_claim trivial rfl
  . exact proper_claim trivial rfl

theorem proper_unbindIdentity {now : Int} : Proper marks names (unbindIdentity scope userID identityID now) :=
  proper_written trivial rfl

theorem proper_restoreIdentity : Proper marks names (restoreIdentity scope userID identityID) := by
  unfold restoreIdentity
  refine proper_found trivial (fun _ _ => ?_)
  refine proper_found trivial (fun _ _ => ?_)
  split
  . exact proper_refuse
  refine proper_call trivial ?_
  intro reply _
  split
  . exact proper_refuse
  split
  . exact proper_refuse
  . exact proper_claim trivial rfl

def Call.marksVerified : Call → Bool
  | .verify _ _ => true
  | _ => false

def Call.namesTenant : Call → Bool
  | .update .. | .updateStatus .. => true
  | _ => false

theorem Call.proper_prog (call : Call) : Proper call.marksVerified call.namesTenant call.prog := by
  cases call with
  | create => exact proper_create
  | update => exact proper_update
  | setSuperAdmin => exact proper_setSuperAdmin
  | delete => exact proper_delete
  | restoreUser => exact proper_restoreUser
  | updateStatus => exact proper_updateStatus
  | lockUser => exact proper_lockUser
  | unlockUser => exact proper_unlockUser
  | changePassword => exact proper_changePassword
  | setInitialPassword => exact proper_setInitialPassword
  | resetPassword => exact proper_resetPassword
  | updateProfile => exact proper_updateProfile
  | updateAvatar => exact proper_updateAvatar
  | sendVerification => exact proper_sendVerification
  | verify => exact proper_verify
  | expireToken => exact proper_expireToken
  | resolveExternalLogin => exact proper_resolveExternalLogin
  | bindExternalIdentity => exact proper_bindExternalIdentity
  | unbindIdentity => exact proper_unbindIdentity
  | restoreIdentity => exact proper_restoreIdentity

namespace Clients

variable {s : Store} {calls : List Call} {turns : List (Nat × Nat)} {p p' : Clients}

theorem proper_start (i : Nat) (t : Op Answer) (h : (start s calls).threads[i]? = some t) : Proper true true t := by
  simp only [start, List.getElem?_map, Option.map_eq_some_iff] at h
  rcases h with ⟨call, _, rfl⟩
  exact call.proper_prog.mono

variable {allowed : Clients → Nat × Nat → Prop}

theorem invariant_of_run {later : List (Nat × Nat)} {I : Store → Prop}
    {g : {β : Type} → Cmd β → Store → Bool} (hrun : Run step allowed (start s calls) turns p)
    (hexec : ∀ {β : Type} (c : Cmd β) (s : Store), I s → c.proper true → g c s = true → I (Store.exec c s).2)
    (hI : I p.shared.data) (hlater : Run step (fun p turn => p.executes g turn = true) p later p') : I p'.shared.data :=
  Pool.invariant_sends (fun c s => c.replies_exec s) Cmd.replies_failed hexec hI
    (Pool.sends_run (fun c s => c.replies_exec s) Cmd.replies_failed (fun i t h => (proper_start i t h).sends)
      hrun) hlater

end Clients

end Mxid.User
