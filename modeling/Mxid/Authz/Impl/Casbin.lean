import Mxid.Authz.Impl.Provider
import Mxid.Data.Run

namespace Mxid.Authz

def Tables.superTenants (db : Tables) : List Int :=
  ((db.org.users.table.rows.filter (fun u => u.id ∈ db.superAdmins && !u.deleted)).map User.tenantID).dedup

def Tables.loadPolicies (db : Tables) : CasbinEngine := replacePolicies db.catalog.grants db.superTenants

structure Target where
  kind : String
  id : Int

def Target.scope (t : Target) : ScopeTarget :=
  if t.kind = "org" then .org t.id else if t.kind = "group" then .group t.id else .other

def scopeOf (scopeType : String) (scopeID : Int) : Scope :=
  if scopeType = "" then .global
  else if scopeType = "org" then .org scopeID
  else if scopeType = "group" then .group scopeID
  else .other

def ResolvedBinding.effective (b : ResolvedBinding) : EffectiveBinding where
  roleID := b.roleID
  permissions := b.permissions
  scope := scopeOf b.scopeType b.scopeID
  expiresAt := b.expiresAt

def tree (db : Org.DB) : OrgTree where
  isAncestorOrSelf := db.isAncestorOrSelf
  self id := by simp [Org.DB.isAncestorOrSelf]
  trans := by
    intro a b c hab hbc
    simp only [Org.DB.isAncestorOrSelf, Bool.or_eq_true, decide_eq_true_eq, List.any_eq_true, Bool.and_eq_true,
      Bool.not_eq_true'] at hab hbc ⊢
    rcases hab with rfl | ⟨rowB, hrowB, ⟨rfl, hliveB⟩, rowA, hrowA, hA, hpath⟩
    . exact hbc
    rcases hbc with rfl | ⟨rowC, hrowC, hC, rowB', hrowB', ⟨hid, _⟩, hpath'⟩
    . exact .inr ⟨rowB, hrowB, ⟨rfl, hliveB⟩, rowA, hrowA, hA, hpath⟩
    rw [db.orgs.eq_of_key_eq hrowB' hrowB hid] at hpath'
    have hpath'' : rowC.path.isDescendant rowA.path = true :=
      List.isPrefixOf_iff_prefix.mpr ((List.isPrefixOf_iff_prefix.mp hpath).trans
        (List.isPrefixOf_iff_prefix.mp hpath'))
    exact .inr ⟨rowC, hrowC, hC, rowA, hrowA, hA, hpath''⟩

/--
The ids of roles are handed out by a generator of positive numbers. The id zero is that of the binding of a super
admin.
-/
structure Records extends Tables where
  role_id_pos : ∀ role ∈ catalog.roles.rows, 0 < role.id

def Records.check (db : Records) (engine : Option CasbinEngine) (orgTree : Option Org.DB)
    (loaded now tenantID userID : Int) (perm : Code) (target : Option Target) : Except Service.CheckError Bool :=
  let s : Service := ⟨none, orgTree.map tree, engine⟩
  if perm = "" then
    .error .emptyPermission
  else
    .ok (decide (∃ b ∈ db.effectiveBindingsForUser loaded tenantID userID,
      s.checkBindings now tenantID perm (target.map Target.scope) [b.effective] = true))

/--
A reload between its two queries and the replacement. The number `since` counts the changes before the first query. It
is not stored anywhere.
-/
inductive Sync where
  | started
  | granted (grants : List RolePolicy) (since : Nat)
  | loaded (policies : CasbinEngine) (since : Nat)
  | finished

/--
The last two fields are not stored anywhere: the changes so far, and those before the first query of the reload that
was installed last.
-/
structure Replica where
  db : Tables
  engine : CasbinEngine
  syncs : List Sync
  changes : Nat
  installed : Nat

inductive ReplicaAction where
  | mutate (db : Tables)
  | receive
  | sync (i : Nat)

namespace Replica

variable (r : Replica)

def start (db : Tables) : Replica := ⟨db, db.loadPolicies, [], 0, 0⟩

def step : ReplicaAction → Option Replica
  | .mutate db => some { r with db, syncs := r.syncs ++ [.started], changes := r.changes + 1 }
  | .receive => some { r with syncs := r.syncs ++ [.started] }
  | .sync i =>
    match r.syncs[i]? with
    | some .started => some { r with syncs := r.syncs.set i (.granted r.db.catalog.grants r.changes) }
    | some (.granted grants since) =>
      some { r with syncs := r.syncs.set i (.loaded (replacePolicies grants r.db.superTenants) since) }
    | some (.loaded policies since) =>
      some { r with engine := policies, syncs := r.syncs.set i .finished, installed := since }
    | some .finished | none => none

def inOrder : ReplicaAction → Bool
  | .sync i =>
    match r.syncs[i]? with
    | some (.loaded _ since) => r.installed ≤ since
    | _ => true
  | _ => true

end Replica

end Mxid.Authz
