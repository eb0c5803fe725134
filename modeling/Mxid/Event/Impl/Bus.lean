import Mathlib.Data.List.Basic

namespace Mxid

inductive EventType where
  | userCreated
  | userUpdated
  | userLocked
  | userUnlocked
  | userDeleted
  | userPasswordChanged
  | userSuperAdminGrant
  | userSuperAdminRevoke
  | orgUpdated
  | orgDeleted
  | orgMoved
  | orgMemberAdded
  | orgMemberRemoved
  | groupDeleted
  | groupMemberAdded
  | groupMemberRemoved
  | groupRuleUpdated
  | groupRuleSynced
  | groupRuleDeleted
  | roleCreated
  | roleUpdated
  | roleDeleted
  | rolePermissionsSet
  | roleMemberAdded
  | roleMemberRemoved
  | requestCreated
  | requestApproved
  | requestRejected
  | requestCancelled
  | grantActivated
  | grantRevoked
  | grantExpired
  deriving DecidableEq

inductive Value where
  | int64 (n : Int)
  | int (n : Int)
  | string (s : String)
  | bool (b : Bool)
  | int64s (ns : List Int)
  deriving DecidableEq

inductive Payload where
  | map (entries : List (String × Value))
  | other

structure Event where
  type : EventType
  payload : Payload

def Payload.int64 (entries : List (String × Value)) (key : String) : Int :=
  match entries.lookup key with
  | some (.int64 n) => n
  | _ => 0

abbrev Bus (α : Type) := List (EventType × (Event → α))

def Bus.publish {α : Type} (bus : Bus α) (evt : Event) : List α :=
  (bus.filter (fun s => s.1 = evt.type)).map (fun s => s.2 evt)

end Mxid
