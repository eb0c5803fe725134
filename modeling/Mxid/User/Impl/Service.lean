import Mxid.Event.Impl.Bus
import Mxid.User.Impl.Store

namespace Mxid.User

inductive UserError where
  | userNotFound
  | usernameExists
  | emailExists
  | phoneExists
  | lastSuperAdmin
  | invalidPassword
  | passwordAlreadySet
  | passwordRejected
  | externalIDRequired
  | externalIDTaken
  | externalUserDeleted
  | externalUserNotLinked
  | externalLinkAmbiguous
  | externalLinkRequired (userID : Int)
  | identityNotFound
  | identityAlreadyBound
  | identityOwnerDeleted
  | usernameNotAllocated
  | emailNotSet
  | tokenInvalid
  | linkMismatch
  | failed
  deriving DecidableEq

structure Answer where
  result : Except UserError (Option Int)
  events : List Event

def refuse (e : UserError) : Op Answer := pure ⟨.error e, []⟩

def succeed (events : List Event) : Op Answer := pure ⟨.ok none, events⟩

open Prog (call)

/-!
The ways in which an operation goes on after a statement or a check.
-/

def checked {α : Type} (p : Op (Except UserError α)) (f : α → Op Answer) : Op Answer := do
  match ← p with
  | .error e => refuse e
  | .ok a => f a

def found {α : Type} (lookup : Cmd (Option (Option α))) (missing : UserError) (f : α → Op Answer) : Op Answer := do
  match ← call lookup with
  | none => refuse .failed
  | some none => refuse missing
  | some (some a) => f a

def written (write : Cmd (Option Bool)) (missing : UserError) (event : Event) : Op Answer := do
  match ← call write with
  | none => refuse .failed
  | some false => refuse missing
  | some true => succeed [event]

def stored (write : Cmd (Option Unit)) (next : Op Answer) : Op Answer := do
  match ← call write with
  | none => refuse .failed
  | some () => next

def requireFree (lookup : Cmd (Option (Option Account))) (taken : UserError) : Op (Except UserError Unit) := do
  match ← call lookup with
  | none => pure (.error .failed)
  | some (some _) => pure (.error taken)
  | some none => pure (.ok ())

def requireFreeIfNew (lookup : String → Cmd (Option (Option Account))) (taken : UserError) (old new : Option String) :
    Op (Except UserError Unit) :=
  match new with
  | none => pure (.ok ())
  | some value => if old = some value then pure (.ok ()) else requireFree (lookup value) taken

structure CreateUserRequest where
  username : String
  email : Option String
  phone : Option String
  displayName : Option String
  status : Option Int

structure NewUser where
  id : Int
  id_pos : 0 < id
  hash : String
  accepted : Bool

def newAccount (tenantID : Int) (req : CreateUserRequest) (new : NewUser) : Account where
  id := new.id
  tenantID := tenantID
  username := req.username
  email := req.email
  phone := req.phone
  displayName := req.displayName
  passwordHash := new.hash
  status := req.status.getD statusActive
  deleted := false
  emailVerified := false
  avatar := none
  mustChangePwd := false
  isSuperAdmin := false
  id_pos := new.id_pos

variable (scope : Scope)

def create (tenantID : Int) (req : CreateUserRequest) (new : NewUser) : Op Answer :=
  checked (requireFree (.getByUsername scope tenantID req.username) .usernameExists) (fun _ =>
    checked (requireFreeIfNew (.getByEmail scope tenantID) .emailExists none (req.email.filter (· ≠ ""))) (fun _ =>
      checked (requireFreeIfNew (.getByPhone scope tenantID) .phoneExists none (req.phone.filter (· ≠ ""))) (fun _ =>
        if !new.accepted then
          refuse .passwordRejected
        else
          stored (.create (newAccount tenantID req new))
            (pure ⟨.ok (some new.id), [⟨.userCreated, .map [("user_id", .int64 new.id), ("tenant_id", .int64 tenantID),
              ("username", .string req.username), ("email", .string (req.email.getD "")),
              ("display_name", .string (req.displayName.getD ""))]⟩]⟩))))

def withUser (id : Int) (f : Account → Op Answer) : Op Answer :=
  found (.getByID scope id) .userNotFound f

def update (id tenantID : Int) (req : UpdateUserRequest) : Op Answer :=
  withUser scope id (fun u =>
    checked (requireFreeIfNew (.getByEmail scope tenantID) .emailExists u.email (req.email.filter (· ≠ ""))) (fun _ =>
      checked (requireFreeIfNew (.getByPhone scope tenantID) .phoneExists u.phone (req.phone.filter (· ≠ ""))) (fun _ =>
        stored (.save scope u (.update req))
          (succeed [⟨.userUpdated, .map [("user_id", .int64 u.id), ("tenant_id", .int64 u.tenantID)]⟩]))))

def setSuperAdmin (actorID tenantID targetID : Int) (makeSuper : Bool) : Op Answer := do
  match ← call (.getByID scope targetID) with
  | none | some none => refuse .userNotFound
  | some (some target) =>
    if target.tenantID ≠ tenantID then
      refuse .userNotFound
    else if target.isSuperAdmin = makeSuper then
      succeed []
    else if makeSuper then
      write target 0
    else
      match ← call (.countSuperAdmins scope tenantID) with
      | none => refuse .failed
      | some remaining => if remaining ≤ 1 then refuse .lastSuperAdmin else write target remaining
where
  write (target : Account) (seen : Nat) : Op Answer :=
    written (.setSuperAdmin scope targetID makeSuper seen) .userNotFound
      ⟨if makeSuper then .userSuperAdminGrant else .userSuperAdminRevoke,
        .map [("user_id", .int64 actorID), ("target_id", .int64 targetID), ("tenant_id", .int64 tenantID),
          ("username", .string target.username)]⟩

def delete (id now : Int) : Op Answer :=
  withUser scope id (fun _ =>
    stored (.softDeleteIdentitiesByUser scope id now)
      (stored (.delete scope id) (succeed [⟨.userDeleted, .map [("user_id", .int64 id)]⟩])))

def restoreUser (id : Int) : Op Answer :=
  written (.restoreUser scope id) .userNotFound
    ⟨.userUpdated, .map [("user_id", .int64 id), ("action", .string "user_restored")]⟩

def updateStatus (id status : Int) : Op Answer := do
  match ← call (.updateStatus scope id status) with
  | none => refuse .failed
  | some false => refuse .userNotFound
  | some true =>
    let u ← call (.getByID scope id)
    succeed [⟨if status = statusLocked then .userLocked else if status = statusActive then .userUnlocked
      else .userUpdated,
      .map [("user_id", .int64 id), ("status", .int status), ("tenant_id", .int64 (u.join.elim 0 (·.tenantID)))]⟩]

def lockUser (id actorID : Int) (reason : String) : Op Answer :=
  written (.updateStatus scope id statusLocked) .userNotFound
    ⟨.userLocked, .map [("user_id", .int64 id), ("status", .int statusLocked), ("reason", .string reason),
      ("source", .string "admin"), ("actor_id", .int64 actorID)]⟩

def unlockUser (id actorID : Int) : Op Answer :=
  written (.updateStatus scope id statusActive) .userNotFound
    ⟨.userUnlocked, .map [("user_id", .int64 id), ("source", .string "admin"), ("actor_id", .int64 actorID)]⟩

def noLocalPasswordPrefix : String := "$2a$10$NO_LOCAL_PASSWORD_"

def hasUsablePassword (hash : String) : Bool :=
  hash ≠ "" && !noLocalPasswordPrefix.toList.isPrefixOf hash.toList

structure NewPassword where
  hash : String
  accepted : Bool

def writePassword (id : Int) (new : NewPassword) (mustChange : Bool) (payload : List (String × Value)) : Op Answer :=
  if !new.accepted then
    refuse .passwordRejected
  else
    written (.updatePassword scope id new.hash mustChange) .userNotFound
      ⟨.userPasswordChanged, .map (("user_id", .int64 id) :: payload)⟩

def changePassword (check : String → String → Bool) (scope : Scope) (id : Int) (old : String) (new : NewPassword) :
    Op Answer :=
  withUser scope id (fun u =>
    if !check old u.passwordHash then refuse .invalidPassword else writePassword scope id new false [])

def setInitialPassword (id : Int) (new : NewPassword) : Op Answer :=
  withUser scope id (fun u =>
    if hasUsablePassword u.passwordHash then refuse .passwordAlreadySet else writePassword scope id new false [])

def resetPassword (id : Int) (new : NewPassword) (mustChange : Option Bool) : Op Answer :=
  withUser scope id (fun _ => writePassword scope id new (mustChange.getD true) [("admin_reset", .bool true)])

def saveEdit (u : Account) (edit : Edit) : Op Answer :=
  stored (.save scope u edit) (succeed [])

def updateProfile (userID : Int) (displayName phone email : String) : Op Answer :=
  withUser scope userID (fun u =>
    checked (requireFreeIfNew (.getByPhone scope u.tenantID) .phoneExists u.phone (nonempty phone)) (fun _ =>
      checked (requireFreeIfNew (.getByEmail scope u.tenantID) .emailExists u.email (nonempty email)) (fun _ =>
        saveEdit scope u (.profile displayName phone email))))

def updateAvatar (userID : Int) (avatar : String) : Op Answer :=
  withUser scope userID (fun u => saveEdit scope u (.avatar avatar))

def markEmailVerified (userID : Int) (token : String) : Op Answer :=
  withUser scope userID (fun u => if u.emailVerified then succeed [] else saveEdit scope u (.verified token))

def sendVerification (userID : Int) (token : String) : Op Answer :=
  withUser scope userID (fun u =>
    match u.email.filter (· ≠ "") with
    | none => refuse .emailNotSet
    | some email => stored (.setToken token userID email) (succeed []))

def verify (token : String) : Op Answer :=
  found (.getDelToken token) .tokenInvalid (fun (userID, tokenEmail) =>
    withUser scope userID (fun u =>
      match u.email.filter (· ≠ "") with
      | none => refuse .linkMismatch
      | some email =>
        if Text.equalFold email tokenEmail then markEmailVerified scope userID token else refuse .linkMismatch))

def expireToken (token : String) : Op Answer := do
  let _ ← call (.dropToken token)
  succeed []

end Mxid.User
