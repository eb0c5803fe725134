import Mxid.Data.Table

namespace Mxid.Authz

abbrev Code := String

def wildcard : Code := "*"

inductive ScopeTarget where
  | org (id : Int)
  | group (id : Int)
  | other

inductive Scope where
  | global
  | org (id : Int)
  | group (id : Int)
  | other
  deriving DecidableEq

structure EffectiveBinding where
  roleID : Int
  permissions : List Code
  scope : Scope
  expiresAt : Option Int
  deriving DecidableEq

def EffectiveBinding.expired (b : EffectiveBinding) (now : Int) : Bool :=
  match b.expiresAt with
  | some expiresAt => expiresAt < now
  | none => false

inductive RoleSubject where
  | role (id : Int)
  | superAdmin
  deriving DecidableEq

structure RolePolicy where
  subject : RoleSubject
  tenantID : Int
  permission : Code
  deriving DecidableEq

structure CasbinEngine where
  policies : List RolePolicy

def CasbinEngine.roleHasPermission (e : CasbinEngine) (tenantID : Int) (sub : RoleSubject) (perm : Code) : Bool :=
  e.policies.any (fun p =>
    p.subject = sub ∧ p.tenantID = tenantID ∧ (p.permission = perm ∨ p.permission = wildcard))

def bindingRoleSubject (b : EffectiveBinding) : RoleSubject :=
  if b.roleID = 0 ∧ wildcard ∈ b.permissions then .superAdmin else .role b.roleID

def hasPermission (set : List Code) (perm : Code) : Bool :=
  wildcard ∈ set ∨ perm ∈ set

/--
The query for ancestors. That of the organizations is `Org.DB.tree`.
-/
structure OrgTree where
  isAncestorOrSelf : (ancestor descendant : Int) → Bool
  self : ∀ id, isAncestorOrSelf id id = true
  trans : ∀ {a b c}, isAncestorOrSelf a b = true → isAncestorOrSelf b c = true → isAncestorOrSelf a c = true

structure Service where
  bindings : Option (Int → Int → Option (List EffectiveBinding))
  orgTree : Option OrgTree
  casbin : Option CasbinEngine

namespace Service

variable (s : Service)

def bindingGrantsPerm (tenantID : Int) (b : EffectiveBinding) (perm : Code) : Bool :=
  match s.casbin with
  | none => hasPermission b.permissions perm
  | some e => e.roleHasPermission tenantID (bindingRoleSubject b) perm

def scopeCovers (b : EffectiveBinding) (target : Option ScopeTarget) : Option Bool :=
  match b.scope, target with
  | .global, _ | _, none => some true
  | .org scopeID, some (.org id) => s.orgTree.map (fun t => t.isAncestorOrSelf scopeID id)
  | .group scopeID, some (.group id) => some (scopeID = id)
  | _, _ => some false

def checkBindings (now tenantID : Int) (perm : Code) (target : Option ScopeTarget) :
    List EffectiveBinding → Bool
  | [] => false
  | b :: binds =>
    if b.expired now then
      checkBindings now tenantID perm target binds
    else if !s.bindingGrantsPerm tenantID b perm then
      checkBindings now tenantID perm target binds
    else
      match s.scopeCovers b target with
      | some true => true
      -- A failed lookup denies, and so does a scope that does not cover the target.
      | some false | none => checkBindings now tenantID perm target binds

def effectiveBindings (tenantID userID : Int) : Option (List EffectiveBinding) :=
  match s.bindings with
  | none => none
  | some provider => provider tenantID userID

inductive CheckError where
  | emptyPermission
  | notConfigured
  | loadEffectiveBindings
  deriving DecidableEq

def check (now tenantID userID : Int) (perm : Code) (target : Option ScopeTarget) : Except CheckError Bool :=
  if perm = "" then
    .error .emptyPermission
  else
    match s.bindings with
    | none => .error .notConfigured
    | some provider =>
      match provider tenantID userID with
      | none => .error .loadEffectiveBindings
      | some binds => .ok (s.checkBindings now tenantID perm target binds)

def permissionsForUser (tenantID userID : Int) : Option (List Code) :=
  (s.effectiveBindings tenantID userID).map (fun binds => binds.flatMap EffectiveBinding.permissions)

end Service

end Mxid.Authz
