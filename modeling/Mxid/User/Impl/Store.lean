import Mathlib.Data.Prod.Lex
import Mathlib.Logic.Function.Basic
import Mxid.Data.Statements
import Mxid.Data.Text
import Mxid.Tenant.Impl.Scope
import Mxid.User.Impl.Repository

namespace Mxid.User

structure Account extends User where
  emailVerified : Bool
  avatar : Option String
  mustChangePwd : Bool
  isSuperAdmin : Bool
  id_pos : 0 < id
  deriving DecidableEq

def Account.key (u : Account) : Int := u.id

structure Privileged where
  isSuperAdmin : Bool
  status : Int
  passwordHash : String
  deriving DecidableEq

def Account.privileged (u : Account) : Privileged := ⟨u.isSuperAdmin, u.status, u.passwordHash⟩

def lower (s : String) : List Char := s.toList.map Char.toLower

def nonempty (s : String) : Option String := if s = "" then none else some s

/-!
What the edits of a row change. The row that was read is saved with all of its columns afterwards.
-/

structure UpdateUserRequest where
  email : Option String
  phone : Option String
  displayName : Option String
  avatar : Option String
  status : Option Int

inductive Edit where
  | update (req : UpdateUserRequest)
  | profile (displayName phone email : String)
  | avatar (url : String)
  /-- The token of the link is not part of the row. -/
  | verified (token : String)

namespace Edit

def apply (u : Account) : Edit → Account
  | .update req => { u with
      email := (req.email.filter (· ≠ "")).or u.email
      phone := (req.phone.filter (· ≠ "")).or u.phone
      displayName := req.displayName.or u.displayName
      avatar := req.avatar.or u.avatar
      status := req.status.getD u.status }
  | .profile displayName phone email => { u with
      displayName := (nonempty displayName).or u.displayName
      phone := nonempty phone
      email := nonempty email
      emailVerified := u.emailVerified && u.email = nonempty email }
  | .avatar url => { u with avatar := some url }
  | .verified _ => { u with emailVerified := true }

def setsStatus : Edit → Bool
  | .update req => req.status.isSome
  | _ => false

def marksVerified : Edit → Bool
  | .verified _ => true
  | _ => false

variable (u : Account) (e : Edit)

@[simp]
theorem id_apply : (e.apply u).id = u.id := by
  cases e <;> rfl

@[simp]
theorem isSuperAdmin_apply : (e.apply u).isSuperAdmin = u.isSuperAdmin := by
  cases e <;> rfl

@[simp]
theorem passwordHash_apply : (e.apply u).passwordHash = u.passwordHash := by
  cases e <;> rfl

@[simp]
theorem deleted_apply : (e.apply u).deleted = u.deleted := by
  cases e <;> rfl

theorem status_apply (h : e.setsStatus = false) : (e.apply u).status = u.status := by
  cases e with
  | update req =>
    have hnone : req.status = none := Option.not_isSome_iff_eq_none.mp (ne_true_of_eq_false h)
    simp [apply, hnone]
  | profile | avatar | verified => rfl

end Edit

structure UserIdentity where
  id : Int
  userID : Int
  tenantID : Int
  providerType : String
  providerID : String
  externalID : String
  externalName : Option String
  extra : Option String
  deletedAt : Option Int
  deriving DecidableEq

structure ExternalKey where
  tenantID : Int
  providerType : String
  providerID : String
  externalID : String
  deriving DecidableEq

namespace UserIdentity

def live (i : UserIdentity) : Bool := i.deletedAt.isNone

def external (i : UserIdentity) : ExternalKey := ⟨i.tenantID, i.providerType, i.providerID, i.externalID⟩

def sameAccount (i i' : UserIdentity) : Bool :=
  i.tenantID = i'.tenantID && i.providerType = i'.providerType && i.externalID = i'.externalID

def rank (i : UserIdentity) : Bool ×ₗ Int ×ₗ Int :=
  toLex (i.deletedAt.isSome, toLex (-i.deletedAt.getD 0, i.id))

end UserIdentity

/--
A token that was consumed: for whom and for which address it was issued, and how often the address of the user had
changed by then.
-/
structure Consumed where
  token : String
  userID : Int
  email : String
  emailChanges : Nat
  deriving DecidableEq

/--
The last four fields are not stored anywhere. They keep track of what dedicated operations have written to a user,
of how often the address of a user has changed, of the tokens that were consumed, and of the identities whose owner
has unbound them or was deleted since they were last live.
-/
structure Store where
  users : Table Account.key
  identities : Table UserIdentity.id
  tokens : List (String × Int × String)
  written : Int → Privileged
  emailChanges : Int → Nat
  consumed : List Consumed
  released : List Int

namespace Store

variable (s : Store) (scope : Scope)

def visible (u : Account) : Bool := !u.deleted && scope.sees u.tenantID

def first (p : Account → Bool) : Option Account :=
  (Table.orderBy Account.key s.users.rows).find? (fun u => visible scope u && p u)

variable (id : Int)

def getByID : Option Account :=
  s.first scope (fun u => u.id = id)

def getAnyByID : Option Account :=
  (s.users.find? id).filter (fun u => scope.sees u.tenantID)

variable (tenantID : Int)

def getByUsername (username : String) : Option Account :=
  s.first scope (fun u => u.tenantID = tenantID && lower u.username = lower username)

def getByEmail (email : String) : Option Account :=
  s.first scope (fun u => u.tenantID = tenantID && u.email = some email)

def getByPhone (phone : String) : Option Account :=
  s.first scope (fun u => u.tenantID = tenantID && u.phone = some phone)

def findByUsernameFold (username : String) (limit : Nat) : List Account :=
  (s.users.rows.filter (fun u => visible scope u && u.tenantID = tenantID && lower u.username = lower username)).take
    limit

def superAdmins : List Account :=
  s.users.rows.filter (fun u => !u.deleted && u.tenantID = tenantID && u.isSuperAdmin)

def countSuperAdmins : Nat :=
  ((s.superAdmins tenantID).filter (fun u => scope.sees u.tenantID)).length

def taken (u : Account) : Bool :=
  s.users.rows.any (fun u' => u'.id ≠ u.id && !u'.deleted && u'.tenantID = u.tenantID
    && (lower u'.username = lower u.username || (u.email.isSome && u'.email = u.email)
      || (u.phone.isSome && u'.phone = u.phone)))

def concerns (u : Account) : Bool := u.id = id && visible scope u

def affects : Bool := s.users.rows.any (concerns scope id)

def setFlag (makeSuper : Bool) (u : Account) : Account := { u with isSuperAdmin := makeSuper }

def setStatus (status : Int) (u : Account) : Account := { u with status }

def setPassword (hash : String) (mustChange : Bool) (u : Account) : Account :=
  { u with passwordHash := hash, mustChangePwd := mustChange }

def setDeleted (deleted : Bool) (u : Account) : Account := { u with deleted }

@[simp]
theorem key_setFlag (makeSuper : Bool) (u : Account) : (setFlag makeSuper u).key = u.key := rfl

@[simp]
theorem key_setStatus (status : Int) (u : Account) : (setStatus status u).key = u.key := rfl

@[simp]
theorem key_setPassword (hash : String) (mustChange : Bool) (u : Account) :
    (setPassword hash mustChange u).key = u.key := rfl

@[simp]
theorem key_setDeleted (deleted : Bool) (u : Account) : (setDeleted deleted u).key = u.key := rfl

def write (f : Privileged → Privileged) : Int → Privileged :=
  if s.affects scope id then Function.update s.written id (f (s.written id)) else s.written

def setSuperAdmin (makeSuper : Bool) : Store :=
  { s with
    users := s.users.update (concerns scope id) (setFlag makeSuper) (key_setFlag makeSuper)
    written := s.write scope id (fun w => { w with isSuperAdmin := makeSuper }) }

def updateStatus (status : Int) : Store :=
  { s with
    users := s.users.update (concerns scope id) (setStatus status) (key_setStatus status)
    written := s.write scope id (fun w => { w with status }) }

def updatePassword (hash : String) (mustChange : Bool) : Store :=
  { s with
    users := s.users.update (concerns scope id) (setPassword hash mustChange) (key_setPassword hash mustChange)
    written := s.write scope id (fun w => { w with passwordHash := hash }) }

def ownedBy (userID : Int) : List Int :=
  (s.identities.rows.filter (fun i => i.userID = userID)).map UserIdentity.id

def delete : Store :=
  { s with
    users := s.users.update (concerns scope id) (setDeleted true) (key_setDeleted true)
    released := if s.affects scope id then s.ownedBy id ++ s.released else s.released }

def restores (u : Account) : Bool := u.id = id && u.deleted && scope.sees u.tenantID

def restoreUser : Option Store :=
  if s.users.rows.any (fun u => restores scope id u && s.taken u) then
    none
  else
    some { s with users := s.users.update (restores scope id) (setDeleted false) (key_setDeleted false) }

def create (u : Account) : Option Store :=
  if s.taken u then
    none
  else
    match s.users.insert? u with
    | none => none
    | some users => some { s with users, written := Function.update s.written u.id u.privileged }

def save (base : Account) (edit : Edit) : Option Store :=
  let u := edit.apply base
  if s.taken u then
    none
  else
    some { s with
      users := s.users.upsert u
      written := if edit.setsStatus then
          Function.update s.written u.id { s.written u.id with status := u.status }
        else
          s.written
      emailChanges := if (s.users.find? u.id).any (fun u' => u'.email ≠ u.email) then
          Function.update s.emailChanges u.id (s.emailChanges u.id + 1)
        else
          s.emailChanges }

def listIdentities (userID : Int) : List UserIdentity :=
  s.identities.rows.filter (fun i => i.live && scope.sees i.tenantID && i.userID = userID)

def getAnyIdentityByExternal (key : ExternalKey) : Option UserIdentity :=
  (Table.orderBy UserIdentity.rank s.identities.rows).find? (fun i => scope.sees i.tenantID && i.external = key)

def getIdentityByExternal (key : ExternalKey) : Option UserIdentity :=
  (Table.orderBy UserIdentity.id s.identities.rows).find? (fun i =>
    i.live && scope.sees i.tenantID && i.external = key)

def getAnyIdentity (userID id : Int) : Option UserIdentity :=
  (s.identities.find? id).filter (fun i => i.userID = userID && scope.sees i.tenantID)

def countClash (i : UserIdentity) : Nat :=
  (s.identities.rows.filter (fun i' => i'.live && scope.sees i'.tenantID && i'.sameAccount i && i'.id ≠ i.id)).length

def occupied (i : UserIdentity) : Bool :=
  s.identities.rows.any (fun i' => i'.id ≠ i.id && i'.live && i'.sameAccount i)

def createIdentity (i : UserIdentity) : Option Store :=
  if s.occupied i then
    none
  else
    match s.identities.insert? i with
    | none => none
    | some identities => some { s with identities }

def createWithIdentity (u : Account) (i : UserIdentity) : Option Store :=
  (s.create u).bind (fun s => s.createIdentity i)

def refreshed (i : UserIdentity) (name extra : Option String) : UserIdentity :=
  { i with externalName := name.or i.externalName, extra := extra.or i.extra }

def saveIdentity (base : UserIdentity) (name extra : Option String) : Option Store :=
  if s.occupied base then
    none
  else
    some { s with
      identities := s.identities.upsert (refreshed base name extra)
      released := s.released.filter (· ≠ base.id) }

def revive (i : UserIdentity) : UserIdentity := { i with deletedAt := none }

def reassign (base : UserIdentity) (userID : Int) (name extra : Option String) (i : UserIdentity) : UserIdentity :=
  { i with
    userID
    externalName := name.or base.externalName
    extra := extra.or base.extra
    deletedAt := none }

def bury (now : Int) (i : UserIdentity) : UserIdentity := { i with deletedAt := some now }

@[simp]
theorem id_revive (i : UserIdentity) : (revive i).id = i.id := rfl

@[simp]
theorem id_reassign (base : UserIdentity) (userID : Int) (name extra : Option String) (i : UserIdentity) :
    (reassign base userID name extra i).id = i.id := rfl

@[simp]
theorem id_bury (now : Int) (i : UserIdentity) : (bury now i).id = i.id := rfl

def isIdentity (userID id : Int) (i : UserIdentity) : Bool :=
  i.userID = userID && i.id = id && scope.sees i.tenantID

def reviving (p : UserIdentity → Bool) (f : UserIdentity → UserIdentity) (hf : ∀ i, (f i).id = i.id) : Option Store :=
  if s.identities.rows.any (fun i => p i && s.occupied i) then
    none
  else
    some { s with
      identities := s.identities.update p f hf
      released := s.released.filter (fun id => !s.identities.rows.any (fun i => i.id = id && p i)) }

def restoreIdentity (userID id : Int) : Option Store :=
  s.reviving (isIdentity scope userID id) revive id_revive

def restoreIdentityTo (base : UserIdentity) (userID : Int) (name extra : Option String) : Option Store :=
  s.reviving (fun i => i.id = base.id && scope.sees i.tenantID) (reassign base userID name extra)
    (id_reassign base userID name extra)

def isBound (userID id : Int) (i : UserIdentity) : Bool :=
  i.userID = userID && i.id = id && i.live && scope.sees i.tenantID

def deleteIdentity (userID id now : Int) : Store :=
  { s with
    identities := s.identities.update (isBound scope userID id) (bury now) (id_bury now)
    released := if s.identities.rows.any (isBound scope userID id) then id :: s.released else s.released }

def softDeleteIdentitiesByUser (userID now : Int) : Store :=
  { s with
    identities := s.identities.update (fun i => i.userID = userID && i.live && scope.sees i.tenantID)
      (bury now) (id_bury now) }

def setToken (token : String) (userID : Int) (email : String) : Store :=
  { s with tokens := (token, userID, email) :: s.tokens.filter (fun t => t.1 ≠ token) }

def dropToken (token : String) : Store :=
  { s with tokens := s.tokens.filter (fun t => t.1 ≠ token) }

def getDelToken (token : String) : Option (Int × String) × Store :=
  match s.tokens.lookup token with
  | none => (none, s)
  | some (userID, email) =>
    (some (userID, email), { s.dropToken token with
      consumed := ⟨token, userID, email, s.emailChanges userID⟩ :: s.consumed })

end Store

/--
The outer option is `none` if the statement has failed. The argument `seen` is not part of the statement, it is the
number of super admins that the caller has counted.
-/
inductive Cmd : Type → Type where
  | getByID (scope : Scope) (id : Int) : Cmd (Option (Option Account))
  | getAnyByID (scope : Scope) (id : Int) : Cmd (Option (Option Account))
  | getByUsername (scope : Scope) (tenantID : Int) (username : String) : Cmd (Option (Option Account))
  | getByEmail (scope : Scope) (tenantID : Int) (email : String) : Cmd (Option (Option Account))
  | getByPhone (scope : Scope) (tenantID : Int) (phone : String) : Cmd (Option (Option Account))
  | findByUsernameFold (scope : Scope) (tenantID : Int) (username : String) (limit : Nat) : Cmd (Option (List Account))
  | countSuperAdmins (scope : Scope) (tenantID : Int) : Cmd (Option Nat)
  | create (u : Account) : Cmd (Option Unit)
  | save (scope : Scope) (base : Account) (edit : Edit) : Cmd (Option Unit)
  | setSuperAdmin (scope : Scope) (id : Int) (makeSuper : Bool) (seen : Nat) : Cmd (Option Bool)
  | updateStatus (scope : Scope) (id status : Int) : Cmd (Option Bool)
  | updatePassword (scope : Scope) (id : Int) (hash : String) (mustChange : Bool) : Cmd (Option Bool)
  | delete (scope : Scope) (id : Int) : Cmd (Option Unit)
  | restoreUser (scope : Scope) (id : Int) : Cmd (Option Bool)
  | listIdentities (scope : Scope) (userID : Int) : Cmd (Option (List UserIdentity))
  | getIdentityByExternal (scope : Scope) (key : ExternalKey) : Cmd (Option (Option UserIdentity))
  | getAnyIdentityByExternal (scope : Scope) (key : ExternalKey) : Cmd (Option (Option UserIdentity))
  | getAnyIdentity (scope : Scope) (userID id : Int) : Cmd (Option (Option UserIdentity))
  | countClash (scope : Scope) (i : UserIdentity) : Cmd (Option Nat)
  | createIdentity (i : UserIdentity) : Cmd (Option Bool)
  | createWithIdentity (u : Account) (i : UserIdentity) : Cmd (Option Unit)
  | saveIdentity (scope : Scope) (base : UserIdentity) (name extra : Option String) : Cmd (Option Unit)
  | restoreIdentity (scope : Scope) (userID id : Int) : Cmd (Option Bool)
  | restoreIdentityTo (scope : Scope) (base : UserIdentity) (userID : Int) (name extra : Option String) :
    Cmd (Option Bool)
  | deleteIdentity (scope : Scope) (userID id now : Int) : Cmd (Option Bool)
  | softDeleteIdentitiesByUser (scope : Scope) (userID now : Int) : Cmd (Option Unit)
  | setToken (token : String) (userID : Int) (email : String) : Cmd (Option Unit)
  | dropToken (token : String) : Cmd (Option Unit)
  | getDelToken (token : String) : Cmd (Option (Option (Int × String)))

namespace Store

def exec {β : Type} (c : Cmd β) (s : Store) : β × Store :=
  match c with
  | .getByID scope id => scope.ask s (s.getByID scope id)
  | .getAnyByID scope id => scope.ask s (s.getAnyByID scope id)
  | .getByUsername scope tenantID username => scope.ask s (s.getByUsername scope tenantID username)
  | .getByEmail scope tenantID email => scope.ask s (s.getByEmail scope tenantID email)
  | .getByPhone scope tenantID phone => scope.ask s (s.getByPhone scope tenantID phone)
  | .findByUsernameFold scope tenantID username limit =>
    scope.ask s (s.findByUsernameFold scope tenantID username limit)
  | .countSuperAdmins scope tenantID => scope.ask s (s.countSuperAdmins scope tenantID)
  | .create u => attempt s (some ()) none (s.create u)
  | .save scope base edit => if scope.usable then attempt s (some ()) none (s.save base edit) else (none, s)
  | .setSuperAdmin scope id makeSuper _ => scope.tell s (s.affects scope id) (s.setSuperAdmin scope id makeSuper)
  | .updateStatus scope id status => scope.tell s (s.affects scope id) (s.updateStatus scope id status)
  | .updatePassword scope id hash mustChange =>
    scope.tell s (s.affects scope id) (s.updatePassword scope id hash mustChange)
  | .delete scope id => scope.tell s () (s.delete scope id)
  | .restoreUser scope id =>
    if scope.usable then
      attempt s (some (s.users.rows.any (restores scope id))) none (s.restoreUser scope id)
    else
      (none, s)
  | .listIdentities scope userID => scope.ask s (s.listIdentities scope userID)
  | .getIdentityByExternal scope key => scope.ask s (s.getIdentityByExternal scope key)
  | .getAnyIdentityByExternal scope key => scope.ask s (s.getAnyIdentityByExternal scope key)
  | .getAnyIdentity scope userID id => scope.ask s (s.getAnyIdentity scope userID id)
  | .countClash scope i => scope.ask s (s.countClash scope i)
  | .createIdentity i => attempt s (some true) (some false) (s.createIdentity i)
  | .createWithIdentity u i => attempt s (some ()) none (s.createWithIdentity u i)
  | .saveIdentity scope base name extra =>
    if scope.usable then attempt s (some ()) none (s.saveIdentity base name extra) else (none, s)
  | .restoreIdentity scope userID id =>
    if scope.usable then attempt s (some true) (some false) (s.restoreIdentity scope userID id) else (none, s)
  | .restoreIdentityTo scope base userID name extra =>
    if scope.usable then
      attempt s (some true) (some false) (s.restoreIdentityTo scope base userID name extra)
    else
      (none, s)
  | .deleteIdentity scope userID id now =>
    scope.tell s (s.identities.rows.any (isBound scope userID id)) (s.deleteIdentity scope userID id now)
  | .softDeleteIdentitiesByUser scope userID now => scope.tell s () (s.softDeleteIdentitiesByUser scope userID now)
  | .setToken token userID email => (some (), s.setToken token userID email)
  | .dropToken token => (some (), s.dropToken token)
  | .getDelToken token => let (reply, s) := s.getDelToken token; (some reply, s)

end Store

def Cmd.failed {β : Type} : Cmd β → β
  | .getByID .. | .getAnyByID .. | .getByUsername .. | .getByEmail .. | .getByPhone ..
  | .findByUsernameFold .. | .countSuperAdmins .. | .create _ | .save .. | .setSuperAdmin ..
  | .updateStatus .. | .updatePassword .. | .delete .. | .restoreUser .. | .listIdentities ..
  | .getIdentityByExternal .. | .getAnyIdentityByExternal .. | .getAnyIdentity .. | .countClash ..
  | .createIdentity _ | .createWithIdentity .. | .saveIdentity .. | .restoreIdentity ..
  | .restoreIdentityTo .. | .deleteIdentity .. | .softDeleteIdentitiesByUser .. | .setToken .. | .dropToken _
  | .getDelToken _ => none

def semantics : Prog.Semantics Cmd (Faulty Store) := .faulty Store.exec Cmd.failed

abbrev Op (α : Type) := Prog Cmd α

end Mxid.User
