import Mxid.User.Impl.Service

namespace Mxid.User

open Prog (call)

structure ExternalLoginInput where
  tenantID : Int
  providerType : String
  providerID : String
  externalID : String
  username : String
  displayName : String
  email : String
  phone : String
  avatar : String
  raw : Option String
  autoCreate : Bool

def ExternalLoginInput.key (req : ExternalLoginInput) : ExternalKey :=
  ⟨req.tenantID, req.providerType, req.providerID, req.externalID⟩

def linkMatchName (raw : String) : String :=
  let name := (Text.trimSpace raw).toList
  let domain := name.reverse.takeWhile (· ≠ '@')
  let local_ := name.take (name.length - domain.length - 1)
  Text.trimSpace (String.ofList (if local_ = [] then name else local_))

def findLinkCandidate (scope : Scope) (req : ExternalLoginInput) : Op (Except UserError Unit) :=
  if linkMatchName req.username = "" then
    pure (.ok ())
  else do
    match ← call (.findByUsernameFold scope req.tenantID (linkMatchName req.username) 2) with
    | none => pure (.error .failed)
    | some [] => pure (.ok ())
    | some [candidate] =>
      match ← call (.listIdentities scope candidate.id) with
      | none => pure (.error .failed)
      | some existing =>
        if existing.any (fun i => i.providerType = req.providerType) then
          pure (.error .externalLinkAmbiguous)
        else
          pure (.error (.externalLinkRequired candidate.id))
    | some (_ :: _ :: _) => pure (.error .externalLinkAmbiguous)

def isUsernameChar (c : Char) : Bool :=
  ('a' ≤ c && c ≤ 'z') || ('A' ≤ c && c ≤ 'Z') || ('0' ≤ c && c ≤ '9') || c = '.' || c = '-' || c = '_'

def pickUsername (req : ExternalLoginInput) : String :=
  let u := linkMatchName req.username
  let u := if u = "" then String.ofList (req.email.toList.takeWhile (· ≠ '@')) else u
  let u := if u = "" then req.providerType ++ "_" ++ req.externalID else u
  let out := (u.toList.map (fun c => if isUsernameChar c then c else '_')).take 64
  if out = [] then "user" else String.ofList out

def allocUsernameLoop (scope : Scope) (tenantID : Int) (base : String) :
    (fuel i : Nat) → (candidate : String) → Op (Except UserError String)
  | 0, _, _ => pure (.error .usernameNotAllocated)
  | fuel + 1, i, candidate => do
    match ← call (.getByUsername scope tenantID candidate) with
    | none => pure (.error .failed)
    | some none => pure (.ok candidate)
    | some (some _) => allocUsernameLoop scope tenantID base fuel (i + 1) (base ++ "-" ++ toString (i + 1))

def allocUsername (scope : Scope) (tenantID : Int) (base : String) : Op (Except UserError String) :=
  allocUsernameLoop scope tenantID base 1000 0 base

def ifFree (lookup : String → Cmd (Option (Option Account))) (value : String) : Op (Option String) :=
  if value = "" then
    pure none
  else do
    match ← call (lookup value) with
    | some none => pure (some value)
    | _ => pure none

structure Provision where
  userID : Int
  userID_pos : 0 < userID
  identityID : Int
  hash : String

def provisioned (new : Provision) (req : ExternalLoginInput) (username : String) (email phone : Option String) :
    Account where
  id := new.userID
  tenantID := req.tenantID
  username := username
  email := email
  phone := phone
  displayName := nonempty req.displayName
  passwordHash := new.hash
  status := statusActive
  deleted := false
  emailVerified := false
  avatar := nonempty req.avatar
  mustChangePwd := false
  isSuperAdmin := false
  id_pos := new.userID_pos

def newIdentity (id userID : Int) (key : ExternalKey) (displayName : String) (raw : Option String) : UserIdentity where
  id := id
  userID := userID
  tenantID := key.tenantID
  providerType := key.providerType
  providerID := key.providerID
  externalID := key.externalID
  externalName := nonempty displayName
  extra := raw
  deletedAt := none

def linkedUser (scope : Scope) (userID : Int) : Op Answer :=
  found (.getByID scope userID) .externalUserDeleted (fun u => pure ⟨.ok (some u.id), []⟩)

def loginBound (scope : Scope) (req : ExternalLoginInput) (binding : UserIdentity) : Op Answer := do
  if (req.displayName ≠ "" && binding.externalName ≠ some req.displayName) || req.raw.isSome then
    let _ ← call (.saveIdentity scope binding (nonempty req.displayName) req.raw)
  linkedUser scope binding.userID

def refusePrior (scope : Scope) (prior : UserIdentity) : Op Answer :=
  found (.getAnyByID scope prior.userID) .externalUserDeleted (fun u =>
    refuse (if u.deleted then .externalUserDeleted else .externalUserNotLinked))

def provision (scope : Scope) (req : ExternalLoginInput) (new : Provision) : Op Answer :=
  checked (allocUsername scope req.tenantID (pickUsername req)) (fun username => do
    let email ← ifFree (.getByEmail scope req.tenantID) req.email
    let phone ← ifFree (.getByPhone scope req.tenantID) req.phone
    let u := provisioned new req username email phone
    stored (.createWithIdentity u (newIdentity new.identityID u.id req.key req.displayName req.raw))
      (pure ⟨.ok (some u.id), []⟩))

def resolveExternalLogin (scope : Scope) (req : ExternalLoginInput) (new : Provision) : Op Answer :=
  if req.externalID = "" then
    refuse .externalIDRequired
  else do
    match ← call (.getIdentityByExternal scope req.key) with
    | none => refuse .failed
    | some (some binding) => loginBound scope req binding
    | some none =>
      match ← call (.getAnyIdentityByExternal scope req.key) with
      | none => refuse .failed
      | some (some prior) => refusePrior scope prior
      | some none =>
        checked (findLinkCandidate scope req) (fun _ =>
          if req.autoCreate then provision scope req new else refuse .externalUserNotLinked)

structure BindIdentityInput where
  tenantID : Int
  userID : Int
  providerType : String
  providerID : String
  externalID : String
  displayName : String
  raw : Option String
  linkedAtLogin : Bool

def BindIdentityInput.key (req : BindIdentityInput) : ExternalKey :=
  ⟨req.tenantID, req.providerType, req.providerID, req.externalID⟩

def bindAuditAction (req : BindIdentityInput) : String :=
  if req.linkedAtLogin then "identity_linked_at_login" else "identity_bound"

def boundEvent (req : BindIdentityInput) (action : String) (more : List (String × Value)) : Event :=
  ⟨.userUpdated, .map ([("user_id", .int64 req.userID), ("action", .string action),
    ("provider", .string req.providerType)] ++ more)⟩

def claim (write : Cmd (Option Bool)) (event : Event) : Op Answer :=
  written write .externalIDTaken event

variable (scope : Scope)

def reclaimIdentity (existing : UserIdentity) (req : BindIdentityInput) : Op Answer :=
  claim (.restoreIdentityTo scope existing req.userID (nonempty req.displayName) req.raw)
    (boundEvent req (bindAuditAction req) [])

def takeOverIdentity (existing : UserIdentity) (req : BindIdentityInput) : Op Answer :=
  claim (.restoreIdentityTo scope existing req.userID (nonempty req.displayName) req.raw)
    (boundEvent req "identity_taken_over" [("previous_user_id", .int64 existing.userID)])

def bindExternalIdentity (req : BindIdentityInput) (identityID : Int) : Op Answer :=
  if req.externalID = "" || req.userID = 0 then
    refuse .externalIDRequired
  else
    withUser scope req.userID (fun caller => do
      if caller.tenantID ≠ req.tenantID then
        refuse .userNotFound
      else
        match ← call (.getAnyIdentityByExternal scope req.key) with
        | none => refuse .failed
        | some none =>
          claim (.createIdentity (newIdentity identityID req.userID req.key req.displayName req.raw))
            (boundEvent req (bindAuditAction req) [])
        | some (some existing) =>
          if existing.userID = req.userID then
            if existing.live then succeed [] else reclaimIdentity scope existing req
          else if existing.live then
            match ← call (.getByID scope existing.userID) with
            | none => refuse .failed
            | some (some _) => refuse .externalIDTaken
            | some none => takeOverIdentity scope existing req
          else
            takeOverIdentity scope existing req)

def unbindIdentity (userID identityID now : Int) : Op Answer :=
  written (.deleteIdentity scope userID identityID now) .identityNotFound
    ⟨.userUpdated, .map [("user_id", .int64 userID), ("action", .string "identity_unbound"),
      ("identity_id", .int64 identityID)]⟩

def restoreIdentity (userID identityID : Int) : Op Answer :=
  found (.getByID scope userID) .identityOwnerDeleted (fun _ =>
    found (.getAnyIdentity scope userID identityID) .identityNotFound (fun target => do
      if target.live then
        refuse .identityAlreadyBound
      else
        match ← call (.countClash scope target) with
        | none => refuse .failed
        | some clash =>
          if 0 < clash then
            refuse .externalIDTaken
          else
            claim (.restoreIdentity scope userID identityID)
              ⟨.userUpdated, .map [("user_id", .int64 userID), ("action", .string "identity_restored"),
                ("identity_id", .int64 identityID)]⟩))

end Mxid.User
