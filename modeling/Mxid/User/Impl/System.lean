import Mxid.User.Impl.ExternalLogin

namespace Mxid.User

inductive Call where
  | create (scope : Scope) (tenantID : Int) (req : CreateUserRequest) (new : NewUser)
  | update (scope : Scope) (id tenantID : Int) (req : UpdateUserRequest)
  | setSuperAdmin (scope : Scope) (actorID tenantID targetID : Int) (makeSuper : Bool)
  | delete (scope : Scope) (id now : Int)
  | restoreUser (scope : Scope) (id : Int)
  | updateStatus (scope : Scope) (id status : Int)
  | lockUser (scope : Scope) (id actorID : Int) (reason : String)
  | unlockUser (scope : Scope) (id actorID : Int)
  | changePassword (check : String → String → Bool) (scope : Scope) (id : Int) (old : String) (new : NewPassword)
  | setInitialPassword (scope : Scope) (id : Int) (new : NewPassword)
  | resetPassword (scope : Scope) (id : Int) (new : NewPassword) (mustChange : Option Bool)
  | updateProfile (scope : Scope) (userID : Int) (displayName phone email : String)
  | updateAvatar (scope : Scope) (userID : Int) (avatar : String)
  | sendVerification (scope : Scope) (userID : Int) (token : String)
  | verify (scope : Scope) (token : String)
  | expireToken (token : String)
  | resolveExternalLogin (scope : Scope) (req : ExternalLoginInput) (new : Provision)
  | bindExternalIdentity (scope : Scope) (req : BindIdentityInput) (identityID : Int)
  | unbindIdentity (scope : Scope) (userID identityID now : Int)
  | restoreIdentity (scope : Scope) (userID identityID : Int)

def Call.prog : Call → Op Answer
  | .create scope tenantID req new => User.create scope tenantID req new
  | .update scope id tenantID req => User.update scope id tenantID req
  | .setSuperAdmin scope actorID tenantID targetID makeSuper =>
    User.setSuperAdmin scope actorID tenantID targetID makeSuper
  | .delete scope id now => User.delete scope id now
  | .restoreUser scope id => User.restoreUser scope id
  | .updateStatus scope id status => User.updateStatus scope id status
  | .lockUser scope id actorID reason => User.lockUser scope id actorID reason
  | .unlockUser scope id actorID => User.unlockUser scope id actorID
  | .changePassword check scope id old new => User.changePassword check scope id old new
  | .setInitialPassword scope id new => User.setInitialPassword scope id new
  | .resetPassword scope id new mustChange => User.resetPassword scope id new mustChange
  | .updateProfile scope userID displayName phone email => User.updateProfile scope userID displayName phone email
  | .updateAvatar scope userID avatar => User.updateAvatar scope userID avatar
  | .sendVerification scope userID token => User.sendVerification scope userID token
  | .verify scope token => User.verify scope token
  | .expireToken token => User.expireToken token
  | .resolveExternalLogin scope req new => User.resolveExternalLogin scope req new
  | .bindExternalIdentity scope req identityID => User.bindExternalIdentity scope req identityID
  | .unbindIdentity scope userID identityID now => User.unbindIdentity scope userID identityID now
  | .restoreIdentity scope userID identityID => User.restoreIdentity scope userID identityID

abbrev Clients := Pool Cmd Answer (Faulty Store)

namespace Clients

def start (s : Store) (calls : List Call) : Clients := ⟨⟨s, false⟩, calls.map Call.prog⟩

def step : Clients → Nat × Nat → Option Clients := Pool.step semantics

def finished (p : Clients) : Bool := (List.range p.threads.length).all (fun i => (p.result i).isSome)

abbrev exec (allowed : Clients → Nat × Nat → Bool) (p : Clients) (turns : List (Nat × Nat)) : Option Clients :=
  Run.exec step (fun p turn => allowed p turn = true) p turns

end Clients

structure Action where
  call : Call
  failures : List Nat

namespace Action

def run (a : Action) (s : Store) : Answer × Faulty Store := a.call.prog.exec semantics a.failures ⟨s, false⟩

def step (s : Store) (a : Action) : Option Store := some (a.run s).2.data

def onIdentities (a : Action) : Bool :=
  match a.call with
  | .resolveExternalLogin .. | .bindExternalIdentity .. | .unbindIdentity .. | .restoreIdentity ..
  | .delete .. | .restoreUser .. => true
  | _ => false

def completes (a : Action) : Bool :=
  match a.call with
  | .delete _ _ _ => a.failures.tail.tail.headD 0 = 0
  | _ => true

end Action

def Store.isLive (s : Store) (userID : Int) : Bool := s.users.rows.any (fun u => u.id = userID && !u.deleted)

def Account.administers (tenantID : Int) (u : Account) : Bool :=
  !u.deleted && u.tenantID = tenantID && u.isSuperAdmin && u.status = statusActive

def Store.administered (s : Store) (tenantID : Int) : Bool := s.users.rows.any (Account.administers tenantID)

def Store.onlyAdmin (s : Store) (u : Account) : Bool :=
  u.administers u.tenantID && s.users.rows.all (fun u' => u'.id = u.id || !u'.administers u.tenantID)

namespace Cmd

variable {β : Type} (c : Cmd β) (s : Store)

def savesPrivileged : Bool :=
  match c with
  | .save _ base edit =>
    (s.users.find? base.id).any (fun u => u.isSuperAdmin = base.isSuperAdmin && u.passwordHash = base.passwordHash
      && (edit.setsStatus || u.status = base.status))
  | _ => true

/--
An identity that is written has the same owner as when it was read. One that is given to a user is also deleted if it
was then, and otherwise its owner still is, unless they are that user.
-/
def rereads : Bool :=
  match c with
  | .saveIdentity _ base _ _ => (s.identities.find? base.id).any (fun i => i.userID = base.userID)
  | .restoreIdentityTo _ base userID _ _ =>
    (s.identities.find? base.id).any (fun i => i.userID = base.userID && i.deletedAt = base.deletedAt)
      && (!base.live || base.userID = userID || !s.isLive base.userID)
  | _ => true

/--
The last active super admin of a tenant is not deleted, locked or disabled, or overwritten with a row that is not one,
and if they have the flag revoked, then as many as were counted are active.
-/
def sparesAdmins : Bool :=
  match c with
  | .delete scope id => s.users.rows.all (fun u => !(Store.concerns scope id u && s.onlyAdmin u))
  | .updateStatus scope id status =>
    status = statusActive || s.users.rows.all (fun u => !(Store.concerns scope id u && s.onlyAdmin u))
  | .save _ base edit =>
    (s.users.find? base.id).all (fun u => !s.onlyAdmin u || (edit.apply base).administers u.tenantID)
  | .setSuperAdmin scope id makeSuper seen =>
    makeSuper || s.users.rows.all (fun u => !(Store.concerns scope id u && s.onlyAdmin u)
      || (s.users.rows.filter (Account.administers u.tenantID)).length = seen)
  | _ => true

/--
A row that is saved with its address verified has it verified already, and the address is the same. If the verification
of a link saves it, then the address is only the one that was read, and has not changed since the link was consumed.
-/
def keepsVerified : Bool :=
  match c with
  | .save _ base (.verified token) =>
    (s.users.find? base.id).all (fun u => u.email = base.email)
      && s.consumed.all (fun c => !(c.token = token && c.userID = base.id)
        || c.emailChanges = s.emailChanges base.id)
  | .save _ base edit =>
    !(edit.apply base).emailVerified
      || (s.users.find? base.id).any (fun u => u.emailVerified && u.email = (edit.apply base).email)
  | _ => true

def severs (id userID : Int) : Bool :=
  match c with
  | .deleteIdentity _ owner id' _ => owner = userID && id' = id
  | .softDeleteIdentitiesByUser _ owner _ => owner = userID
  | .delete _ id' => id' = userID
  | _ => false

end Cmd

end Mxid.User
