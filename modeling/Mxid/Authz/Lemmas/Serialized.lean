import Mxid.Authz.Impl.Cache
import Mxid.Authz.Lemmas.Engine

namespace Mxid.Authz.Wire

open SourcedBinding

/--
The order in which the permissions of a set happen to be visited.
-/
abbrev Order := (perms : List Code) → { visited : List Code // ∀ p, p ∈ visited ↔ p ∈ perms }

variable (order : Order) (b : SourcedBinding)

/--
The binding that `l2Get` returns for one that was given to `l2Set`. Instants are in nanoseconds.
-/
def copy : SourcedBinding :=
  deserialize 1000000000 (serialize 1000000000 { b with permissions := (order b.permissions).1 })

def cachedCopy (binds : List SourcedBinding) : List SourcedBinding := binds.map (copy order)

variable {now tenantID userID : Int} {perm : Code} {target : Option ScopeTarget}

theorem scope_copy : (copy order b).scope = b.scope :=
  scope_serialize _ _

theorem expiresAt_copy : (copy order b).expiresAt = b.expiresAt.map (fun t => t / 1000000000 * 1000000000) :=
  Option.map_map _ _ _

theorem bindingGrantsPerm_copy (s : Service) :
    s.bindingGrantsPerm tenantID (copy order b).toEffectiveBinding perm
      = s.bindingGrantsPerm tenantID b.toEffectiveBinding perm := by
  unfold Service.bindingGrantsPerm bindingRoleSubject hasPermission
  simp [copy, deserialize, serialize, (order b.permissions).2]

theorem grants_copy (s : Service) :
    s.Grants now tenantID perm (copy order b).toEffectiveBinding ∧ (copy order b).scope.covers s.orgTree target = true
      ↔
    (∀ e, b.expiresAt = some e → now ≤ e / 1000000000 * 1000000000)
      ∧ s.bindingGrantsPerm tenantID b.toEffectiveBinding perm = true ∧ b.scope.covers s.orgTree target = true := by
  rw [Service.Grants, EffectiveBinding.expired_eq_false_iff, expiresAt_copy, bindingGrantsPerm_copy, scope_copy,
    and_assoc]
  simp

def given (s : Service) (binds : List SourcedBinding) : Service :=
  { s with bindings := some (fun _ _ => some (binds.map toEffectiveBinding)) }

variable {order} {s : Service} {binds : List SourcedBinding}

theorem checkBindings_eq_true_iff :
    s.checkBindings now tenantID perm target (binds.map toEffectiveBinding) = true
      ↔
    ∃ b ∈ binds, s.Grants now tenantID perm b.toEffectiveBinding ∧ b.scope.covers s.orgTree target = true := by
  rw [Service.checkBindings_eq_true_iff]
  simp only [List.mem_map, exists_exists_and_eq_and]

theorem check_given :
    (given s binds).check now tenantID userID perm target = if perm = "" then .error .emptyPermission else
      .ok (s.checkBindings now tenantID perm target (binds.map toEffectiveBinding)) := by
  have hsame : (given s binds).checkBindings now tenantID perm target (binds.map toEffectiveBinding)
      = s.checkBindings now tenantID perm target (binds.map toEffectiveBinding) := by
    rw [Bool.eq_iff_iff, checkBindings_eq_true_iff, checkBindings_eq_true_iff]
    rfl
  rw [← hsame]
  rfl

theorem checkBindings_cachedCopy :
    s.checkBindings now tenantID perm target ((cachedCopy order binds).map toEffectiveBinding) = true
      ↔
    ∃ b ∈ binds, (∀ e, b.expiresAt = some e → now ≤ e / 1000000000 * 1000000000)
      ∧ s.bindingGrantsPerm tenantID b.toEffectiveBinding perm = true ∧ b.scope.covers s.orgTree target = true := by
  rw [checkBindings_eq_true_iff]
  simp only [cachedCopy, List.mem_map, exists_exists_and_eq_and, grants_copy]

theorem checkBindings_of_cachedCopy
    (h : s.checkBindings now tenantID perm target ((cachedCopy order binds).map toEffectiveBinding)
      = true) :
    s.checkBindings now tenantID perm target (binds.map toEffectiveBinding) = true := by
  rcases checkBindings_cachedCopy.mp h with ⟨b, hb, hlive, hgrants, hcovers⟩
  refine checkBindings_eq_true_iff.mpr ⟨b, hb, ⟨?_, hgrants⟩, hcovers⟩
  rw [EffectiveBinding.expired_eq_false_iff]
  intro e he
  have := hlive e he
  omega

theorem cachedCopy_no_wider (order : Order) (s : Service) (binds : List SourcedBinding)
    (now tenantID userID : Int) (perm : Code) (target : Option ScopeTarget) :
    let check := fun binds => (given s binds).check now tenantID userID perm target
    (check (cachedCopy order binds) = .ok true → check binds = .ok true)
      ∧ (check (cachedCopy order binds) ≠ check binds →
        ∃ b ∈ binds, ∃ e, b.expiresAt = some e ∧ e - 1000000000 < now ∧ now ≤ e) := by
  intro check
  simp only [check, check_given]
  split
  . exact ⟨nofun, fun h => absurd rfl h⟩
  constructor
  . intro h
    exact congrArg Except.ok (checkBindings_of_cachedCopy (Except.ok.inj h))
  . intro hne
    by_contra hnone
    refine hne (congrArg Except.ok (Bool.eq_iff_iff.mpr ⟨checkBindings_of_cachedCopy, fun h => ?_⟩))
    rcases checkBindings_eq_true_iff.mp h with ⟨b, hb, ⟨hlive, hgrants⟩, hcovers⟩
    refine checkBindings_cachedCopy.mpr ⟨b, hb, ?_, hgrants, hcovers⟩
    intro e he
    -- in the last second before it expires, the copy of a binding may have expired already
    have hnow := EffectiveBinding.expired_eq_false_iff.mp hlive e he
    by_contra hcopy
    exact hnone ⟨b, hb, e, he, by omega, hnow⟩

end Mxid.Authz.Wire
