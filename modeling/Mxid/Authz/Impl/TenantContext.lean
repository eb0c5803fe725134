import Mxid.Authz.Impl.Engine

namespace Mxid.Authz

structure TenantRequest where
  tenantID : Option Int
  userID : Option Int
  header : String

structure TenantPin where
  tenantID : Option Int
  sessionTenantID : Option Int
  deriving DecidableEq

structure Refusal where
  http : Nat
  code : Nat
  message : String
  deriving DecidableEq

def digitsValue (digits : List Char) : Option Int :=
  if digits ≠ [] ∧ digits.all Char.isDigit then
    some (digits.foldl (fun n c => n * 10 + (c.toNat - '0'.toNat : Nat)) 0)
  else
    none

def parseInt64 (s : String) : Option Int :=
  let value :=
    match s.toList with
    | '+' :: digits => digitsValue digits
    | '-' :: digits => (digitsValue digits).map (fun n => -n)
    | digits => digitsValue digits
  value.filter (fun n => -9223372036854775808 ≤ n ∧ n ≤ 9223372036854775807)

def tenantContext (engine : Option Service) (now : Int) (req : TenantRequest) : Except Refusal TenantPin :=
  if req.header = "" then
    .ok ⟨req.tenantID, req.tenantID⟩
  else
    match parseInt64 req.header with
    | none => .error ⟨400, 40001, "invalid X-Tenant-ID"⟩
    | some tid =>
      if tid ≤ 0 then
        .error ⟨400, 40001, "invalid X-Tenant-ID"⟩
      else
        match engine with
        | none => .error ⟨500, 50000, "authz not installed"⟩
        | some s =>
          match s.check now (req.tenantID.getD 0) (req.userID.getD 0) wildcard none with
          | .ok true => .ok ⟨some tid, req.tenantID⟩
          | _ => .error ⟨403, 40300, "tenant override requires super_admin"⟩

def TenantRequest.overrides (req : TenantRequest) : Bool :=
  (parseInt64 req.header).any (fun tid => 0 < tid)

end Mxid.Authz
