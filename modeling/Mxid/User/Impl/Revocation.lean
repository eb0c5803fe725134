import Mxid.Authn.Impl.Login
import Mxid.Sessions.Impl.Manager
import Mxid.User.Impl.System

namespace Mxid

def Authn.UserLocked.event (l : Authn.UserLocked) : Event :=
  ⟨.userLocked, .map [("user_id", .int64 l.userID), ("reason", .string l.reason), ("ip", .string l.ip)]⟩

namespace User

def adminStatusRevocation : Payload → Option (Int × Int)
  | .other => none
  | .map p =>
    match p.lookup "status" with
    | some (.int status) =>
      if status ≠ statusLocked ∧ status ≠ statusDisabled then
        none
      else if Payload.int64 p "user_id" = 0 then
        none
      else
        some (Payload.int64 p "user_id", status)
    | _ => none

def revokeUserSessions (userID : Int) : List Sessions.Call :=
  [.portal, .console, .protocol].map (fun ns => .deleteAllByUser ns (Int64.ofInt userID))

def revokeOnAdminStatusChange (evt : Event) : List Sessions.Call :=
  match adminStatusRevocation evt.payload with
  | none => []
  | some (userID, _) => revokeUserSessions userID

def revokeOnPasswordReset (evt : Event) : List Sessions.Call :=
  match evt.payload with
  | .other => []
  | .map p =>
    if p.lookup "admin_reset" ≠ some (.bool true) then
      []
    else if Payload.int64 p "user_id" = 0 then
      []
    else
      revokeUserSessions (Payload.int64 p "user_id")

def revokeOnDelete (evt : Event) : List Sessions.Call :=
  match evt.payload with
  | .other => []
  | .map p => if Payload.int64 p "user_id" = 0 then [] else revokeUserSessions (Payload.int64 p "user_id")

def sessionRevocation : Bus (List Sessions.Call) :=
  [(.userPasswordChanged, revokeOnPasswordReset), (.userLocked, revokeOnAdminStatusChange),
   (.userUpdated, revokeOnAdminStatusChange), (.userDeleted, revokeOnDelete)]

def Revoked (events : List Event) (userID : Int) : Prop :=
  ∃ evt ∈ events, (adminStatusRevocation evt.payload).map Prod.fst = some userID
    ∧ revokeUserSessions userID ∈ sessionRevocation.publish evt

def Call.setsStatus : Call → Bool
  | .updateStatus .. | .lockUser .. => true
  | .update _ _ _ req => req.status.isSome
  | _ => false

def Call.isUpdate : Call → Bool
  | .update _ _ _ _ => true
  | _ => false

end User
end Mxid
