import Mxid.Authz.Impl.Assign
import Mxid.Authz.Lemmas.Engine

namespace Mxid.Authz

open List Service EffectiveBinding Option

section Catalog

variable {cat : Catalog} {tenantID roleID : Int}

theorem Catalog.mem_codesByRole {code : Code} :
    code ∈ cat.codesByRole roleID
      ↔
    ∃ rp ∈ cat.rolePermissions, rp.roleID = roleID
      ∧ ∃ p ∈ cat.permissions.rows, p.id = rp.permissionID ∧ p.code = code := by
  simp [codesByRole, and_assoc]

theorem Catalog.mem_getRolePermissions {perms : List Permission}
    (h : cat.getRolePermissions tenantID roleID = some perms) {code : Code} :
    (∃ p ∈ perms, p.code = code) ↔ code ∈ cat.codesByRole roleID := by
  unfold getRolePermissions at h
  cases hrole : cat.getRoleByID tenantID roleID with
  | none => simp [hrole] at h
  | some role =>
    simp only [hrole, some.injEq] at h
    subst h
    unfold getRoleByID at hrole
    split at hrole
    . contradiction
    rw [filter_eq_some_iff, decide_eq_true_eq] at hrole
    rcases hrole with ⟨hfind, htenant, _⟩
    rcases cat.roles.find?_eq_some_iff.mp hfind with ⟨hmem, hid⟩
    rw [mem_codesByRole]
    constructor
    . rintro ⟨p, hp, rfl⟩
      rw [mem_filter, decide_eq_true_eq] at hp
      rcases mem_map.mp hp.2.1 with ⟨rp, hrp, hperm⟩
      rw [mem_filter, decide_eq_true_eq] at hrp
      exact ⟨rp, hrp.1, hrp.2, p, hp.1, hperm.symm, rfl⟩
    . rintro ⟨rp, hrp, hroleID, p, hp, hperm, rfl⟩
      refine ⟨p, ?_, rfl⟩
      rw [mem_filter, decide_eq_true_eq]
      refine ⟨hp, mem_map.mpr ⟨rp, ?_, hperm.symm⟩, ?_⟩
      . rw [mem_filter, decide_eq_true_eq]
        exact ⟨hrp, hroleID⟩
      . rw [cat.sameTenant rp hrp role hmem p hp (hroleID.trans hid.symm) hperm.symm]
        exact htenant

end Catalog

section Guard

variable {cat : Catalog} {s : Service} {now tenantID callerID roleID : Int} {req : AddMemberRequest}

theorem checkSubset_eq_ok_iff {callerPerms : List Code} {perms : List Permission} :
    checkSubset callerPerms perms = .ok () ↔ ∀ p ∈ perms, p.code ∈ callerPerms := by
  induction perms with
  | nil => simp [checkSubset]
  | cons p perms ih =>
    rw [checkSubset, forall_mem_cons, ← ih]
    split
    . next h => simp [h]
    . next h => simp [h]

theorem checkScope_eq_ok_iff {target : Option ScopeTarget} {perms : List Permission} :
    checkScope s now tenantID callerID target perms = .ok ()
      ↔
    ∀ p ∈ perms, s.check now tenantID callerID p.code target = .ok true := by
  induction perms with
  | nil => simp [checkScope]
  | cons p perms ih =>
    rw [checkScope, forall_mem_cons, ← ih]
    split
    . next h => simp [h]
    next h =>
    simp only [reduceCtorEq, false_iff, not_and]
    exact fun hcheck => absurd hcheck h

def Catalog.IsSuperAdmin (cat : Catalog) (tenantID roleID : Int) : Prop :=
  ∃ role, cat.getRoleByID tenantID roleID = some role ∧ role.code = superAdminRoleCode

theorem any_getRoleByID_iff :
    (cat.getRoleByID tenantID roleID).any (fun role => role.code = superAdminRoleCode) = true
      ↔
    cat.IsSuperAdmin tenantID roleID := by
  unfold Catalog.IsSuperAdmin
  cases cat.getRoleByID tenantID roleID with
  | none | some => simp

theorem checkCaller_eq_ok_iff {superAdmin : String} {rest : Service → List Code → Except String Unit} :
    checkCaller cat (some s) tenantID callerID roleID superAdmin rest = .ok ()
      ↔
    callerID ≠ 0 ∧ ∃ callerPerms, s.permissionsForUser tenantID callerID = some callerPerms
      ∧ (wildcard ∈ callerPerms ∨ ¬cat.IsSuperAdmin tenantID roleID ∧ rest s callerPerms = .ok ()) := by
  unfold checkCaller
  dsimp only
  split
  . next h => simp [h]
  next h =>
  cases hperms : s.permissionsForUser tenantID callerID with
  | none => simp
  | some callerPerms =>
    simp only [some.injEq, exists_eq_left', ne_eq, h, not_false_eq_true, true_and]
    split
    . next hwild => simp [hwild]
    next hwild =>
    split
    . next hsuper =>
      rw [any_getRoleByID_iff] at hsuper
      simp [hwild, hsuper]
    next hsuper =>
    rw [any_getRoleByID_iff] at hsuper
    simp [hwild, hsuper]

theorem checkAssignAllowed_eq_ok_iff :
    checkAssignAllowed cat (some s) now tenantID callerID roleID req = .ok ()
      ↔
    callerID ≠ 0 ∧ ∃ callerPerms, s.permissionsForUser tenantID callerID = some callerPerms
      ∧ (wildcard ∈ callerPerms
        ∨ ¬cat.IsSuperAdmin tenantID roleID
          ∧ ∃ perms, cat.getRolePermissions tenantID roleID = some perms
            ∧ (∀ p ∈ perms, p.code ∈ callerPerms)
            ∧ ∀ p ∈ perms, s.check now tenantID callerID p.code req.target = .ok true) := by
  unfold checkAssignAllowed
  rw [checkCaller_eq_ok_iff]
  cases cat.getRolePermissions tenantID roleID with
  | none => simp
  | some perms =>
    simp only [some.injEq, exists_eq_left', ← checkScope_eq_ok_iff, ← checkSubset_eq_ok_iff]
    refine and_congr_right (fun _ => exists_congr (fun callerPerms => and_congr_right (fun _ => ?_)))
    refine or_congr_right (and_congr_right (fun _ => ?_))
    cases checkSubset callerPerms perms with
    | error =>
      simp only [reduceCtorEq, false_and, iff_false]
      exact fun hbind => nomatch hbind
    | ok => exact ⟨fun hbind => ⟨rfl, hbind⟩, fun hscope => hscope.2⟩

theorem addMember_eq_ok {store : MemberStore} {m : Membership} (h : addMember cat store tenantID roleID req = .ok m) :
    (cat.IsSuperAdmin tenantID roleID ∧ ∃ userID, m = .superAdmin userID)
      ∨ (¬cat.IsSuperAdmin tenantID roleID ∧ (∃ role, cat.getRoleByID tenantID roleID = some role)
          ∧ (req.scopeType.isSome = req.scopeID.isSome)
          ∧ ∃ b : MemberBinding, m = .binding b ∧ b.roleID = roleID ∧ b.scopeType = req.scopeType
              ∧ b.scopeID = req.scopeID ∧ b.id = store.nextID ∧ b.subjectType = req.subjectType
              ∧ b.subjectID = req.subjectID) := by
  unfold addMember at h
  cases hrole : cat.getRoleByID tenantID roleID with
  | none => simp [hrole] at h
  | some role =>
    simp only [hrole] at h
    split at h
    . next hcode =>
      left
      refine ⟨⟨role, hrole, hcode⟩, ?_⟩
      unfold grantSuperAdmin at h
      split at h
      . contradiction
      split at h
      . contradiction
      cases hvalid : store.validateRef .user req.subjectID .subjectNotInTenant with
      | error =>
        rw [hvalid] at h
        contradiction
      | ok =>
        rw [hvalid] at h
        split at h
        . cases h
          exact ⟨_, rfl⟩
        . contradiction
    . next hcode =>
      right
      refine ⟨?_, ⟨role, rfl⟩, ?_⟩
      . rintro ⟨role', hrole', hcode'⟩
        rw [hrole] at hrole'
        cases hrole'
        exact hcode hcode'
      . split at h
        . contradiction
        next hscope =>
        refine ⟨not_not.mp hscope, ?_⟩
        cases hvalid : store.validateRef req.subjectType req.subjectID .subjectNotInTenant with
        | error =>
          rw [hvalid] at h
          contradiction
        | ok =>
          rw [hvalid] at h
          cases hvalid' : store.validateScope req with
          | error =>
            rw [hvalid'] at h
            contradiction
          | ok =>
            rw [hvalid'] at h
            split at h
            . cases h
              exact ⟨_, rfl, rfl, rfl, rfl, rfl, rfl, rfl⟩
            . contradiction

end Guard

section Escalation

variable {cat : Catalog} {s : Service} {now tenantID callerID roleID : Int} {req : AddMemberRequest}
variable {m : Membership} {binds : List EffectiveBinding}

def Catalog.RoleHolds (cat : Catalog) (tenantID roleID : Int) (perm : Code) : Prop :=
  cat.IsSuperAdmin tenantID roleID ∨ perm ∈ cat.codesByRole roleID

def Backed (cat : Catalog) (s : Service) (now tenantID : Int) (binds : List EffectiveBinding)
    (m : Membership) (perm : Code) : Prop :=
  ∃ b ∈ binds, s.Grants now tenantID perm b
    ∧ b.scope.contains s.orgTree (m.effective cat).scope = true

/--
When assigning is safe for a caller with the bindings `binds`. Either all permissions that are handed
out are backed; or the caller has no wildcard, and the assignment is scoped, or is for super admins,
or contains a permission that no live binding of the caller grants.
-/
def AssignSafe (cat : Catalog) (s : Service) (now tenantID roleID : Int) (req : AddMemberRequest)
    (m : Membership) (binds : List EffectiveBinding) : Prop :=
  (∀ perm, perm ≠ "" → cat.RoleHolds tenantID roleID perm →
      (s.after tenantID m).bindingGrantsPerm tenantID (m.effective cat) perm = true →
      Backed cat s now tenantID binds m perm)
    ∨ (wildcard ∉ binds.flatMap permissions
        ∧ (req.scopeType.isSome = true
          ∨ cat.IsSuperAdmin tenantID roleID
          ∨ ∃ perm ∈ cat.codesByRole roleID, perm = ""
              ∨ perm ∉ binds.flatMap permissions
              ∨ ∀ b ∈ binds, ¬s.Grants now tenantID perm b))

theorem Membership.allows_eq_true_iff {perm : Code} {target : Option ScopeTarget} :
    m.allows cat s now tenantID perm target = true
      ↔
    perm ≠ "" ∧ (s.after tenantID m).bindingGrantsPerm tenantID (m.effective cat) perm = true
      ∧ (m.effective cat).scope.covers s.orgTree target = true := by
  have hexpired : (m.effective cat).expired now = false := by
    cases m <;> rfl
  unfold allows
  rw [decide_eq_true_eq, Service.checkBindings_eq_true_iff]
  simp [Service.Grants, hexpired, Service.after]

theorem allows_imp_check_iff (hbinds : s.effectiveBindings tenantID callerID = some binds) {perm : Code} :
    (∀ target, m.allows cat s now tenantID perm target = true →
        s.check now tenantID callerID perm target = .ok true)
      ↔
    (perm ≠ "" → (s.after tenantID m).bindingGrantsPerm tenantID (m.effective cat) perm = true →
        Backed cat s now tenantID binds m perm) := by
  simp only [check_eq_ok_true_iff hbinds, Membership.allows_eq_true_iff]
  unfold Backed
  rw [← exists_contains_iff]
  constructor
  . intro h hne hgrants target hcovers
    exact (h target ⟨hne, hgrants, hcovers⟩).2
  . rintro h target ⟨hne, hgrants, hcovers⟩
    exact ⟨hne, h hne hgrants target hcovers⟩

theorem contains_of_covers_target (hscope : req.scopeType.isSome = req.scopeID.isSome)
    (hscoped : req.scopeType.isSome = true) {b : MemberBinding} (htype : b.scopeType = req.scopeType)
    (hid : b.scopeID = req.scopeID) {tree : Option OrgTree} {σ : Scope}
    (hcovers : σ.covers tree req.target = true) : σ.contains tree b.scope = true := by
  rcases isSome_iff_exists.mp hscoped with ⟨scopeType, hscopeType⟩
  rcases isSome_iff_exists.mp (hscope ▸ hscoped) with ⟨scopeID, hscopeID⟩
  unfold AddMemberRequest.target at hcovers
  unfold MemberBinding.scope
  rw [hscopeType, hscopeID] at hcovers
  rw [htype, hid, hscopeType, hscopeID]
  cases scopeType with
  | org =>
    cases σ with
    | global => rfl
    | org =>
      cases tree with
      | none => contradiction
      | some => exact hcovers
    | group | other => contradiction
  | group =>
    cases σ with
    | global => rfl
    | org | other => contradiction
    | group => exact hcovers

theorem checkAssignAllowed_of_unscoped (hcaller : callerID ≠ 0)
    (hbinds : s.effectiveBindings tenantID callerID = some binds)
    (hrole : ∃ role, cat.getRoleByID tenantID roleID = some role) (hunscoped : req.scopeType.isSome = false)
    (hsuper : ¬cat.IsSuperAdmin tenantID roleID) (hheld : ∀ perm ∈ cat.codesByRole roleID, perm ≠ ""
      ∧ perm ∈ binds.flatMap permissions ∧ ∃ b ∈ binds, s.Grants now tenantID perm b) :
    checkAssignAllowed cat (some s) now tenantID callerID roleID req = .ok () := by
  rw [checkAssignAllowed_eq_ok_iff]
  rcases hrole with ⟨role, hrole⟩
  have hsome : ∃ perms, cat.getRolePermissions tenantID roleID = some perms := by
    unfold Catalog.getRolePermissions
    rw [hrole]
    exact ⟨_, rfl⟩
  rcases hsome with ⟨perms, hperms⟩
  have hcode : ∀ p ∈ perms, p.code ∈ cat.codesByRole roleID :=
    fun p hp => (Catalog.mem_getRolePermissions hperms).mp ⟨p, hp, rfl⟩
  refine ⟨hcaller, _, permissionsForUser_eq hbinds, Or.inr ⟨hsuper, perms, hperms,
    fun p hp => (hheld _ (hcode p hp)).2.1, ?_⟩⟩
  intro p hp
  rcases hheld _ (hcode p hp) with ⟨hne, _, b, hb, hgrants⟩
  rw [check_eq_ok_true_iff hbinds]
  refine ⟨hne, b, hb, hgrants, ?_⟩
  -- The missing target is covered by every scope.
  have htarget : req.target = none := by
    unfold AddMemberRequest.target
    rw [isSome_eq_false_iff, isNone_iff_eq_none] at hunscoped
    rw [hunscoped]
  rw [htarget]
  cases b.scope <;> rfl

theorem checkAssignAllowed_sound_iff (cat : Catalog) (store : MemberStore) (engine : Option Service)
    (now tenantID callerID roleID : Int) (req : AddMemberRequest) (m : Membership)
    (hm : addMember cat store tenantID roleID req = .ok m) :
    (checkAssignAllowed cat engine now tenantID callerID roleID req = .ok () →
        ∀ s, engine = some s → ∀ perm, cat.RoleHolds tenantID roleID perm → ∀ target,
          m.allows cat s now tenantID perm target = true →
          s.check now tenantID callerID perm target = .ok true)
      ↔
    (∀ s, engine = some s → callerID ≠ 0 → ∀ binds, s.effectiveBindings tenantID callerID = some binds →
        AssignSafe cat s now tenantID roleID req m binds) := by
  constructor
  . rintro hsound s rfl hcaller binds hbinds
    unfold AssignSafe
    by_contra hunsafe
    push Not at hunsafe
    rcases hunsafe with ⟨⟨perm, hne, hholds, hgrants, hnot⟩, hpass⟩
    have haccept : checkAssignAllowed cat (some s) now tenantID callerID roleID req = .ok () := by
      by_cases hwild : wildcard ∈ binds.flatMap permissions
      . rw [checkAssignAllowed_eq_ok_iff]
        exact ⟨hcaller, _, permissionsForUser_eq hbinds, Or.inl hwild⟩
      . rcases hpass hwild with ⟨hunscoped, hsuper, hheld⟩
        rcases addMember_eq_ok hm with ⟨hsuper', _⟩ | ⟨_, hrole, _⟩
        . contradiction
        . exact checkAssignAllowed_of_unscoped hcaller hbinds hrole (by simpa using hunscoped) hsuper hheld
    exact hnot ((allows_imp_check_iff hbinds).mp (hsound haccept s rfl perm hholds) hne hgrants)
  . rintro hsafe haccept s rfl perm hholds
    rcases checkAssignAllowed_eq_ok_iff.mp haccept with ⟨hcaller, callerPerms, hperms, hguard⟩
    unfold permissionsForUser at hperms
    rcases map_eq_some_iff.mp hperms with ⟨binds, hbinds, rfl⟩
    rw [allows_imp_check_iff hbinds]
    intro hne hgrants
    rcases hsafe s rfl hcaller binds hbinds with hbacked | ⟨hwild, hpass⟩
    . exact hbacked perm hne hholds hgrants
    rcases hguard.resolve_left hwild with ⟨hsuper, perms, hrolePerms, hsubset, hcheck⟩
    rcases hpass with hscoped | hsuper' | ⟨perm', hperm', hbad⟩
    . rcases addMember_eq_ok hm with ⟨hsuper', _⟩ | ⟨_, _, hscope, b, rfl, _, htype, hid, _⟩
      . contradiction
      rcases (Catalog.mem_getRolePermissions hrolePerms).mpr (hholds.resolve_left hsuper) with ⟨p, hp, rfl⟩
      rcases (check_eq_ok_true_iff hbinds).mp (hcheck p hp) with ⟨_, b', hb', hgrants', hcovers⟩
      exact ⟨b', hb', hgrants', contains_of_covers_target hscope hscoped htype hid hcovers⟩
    . contradiction
    -- The guard has refused because of `perm'`.
    rcases (Catalog.mem_getRolePermissions hrolePerms).mpr hperm' with ⟨p, hp, rfl⟩
    rcases (check_eq_ok_true_iff hbinds).mp (hcheck p hp) with ⟨hne', b, hb, hlive, _⟩
    rcases hbad with hempty | hmissing | hnone
    . contradiction
    . exact absurd (hsubset p hp) hmissing
    . exact absurd hlive (hnone b hb)

end Escalation

/-!
The admin of one department assigns the role that they have themselves.
-/

namespace DeptAdmin

def catalog : Catalog where
  roles := ⟨[{ id := 2, tenantID := 1, code := "dept_admin", deleted := false }], by decide⟩
  permissions := ⟨[{ id := 101, tenantID := 1, code := "user.read" },
    { id := 151, tenantID := 1, code := "role.assign" }], by decide⟩
  rolePermissions := [{ roleID := 2, permissionID := 101 }, { roleID := 2, permissionID := 151 }]
  sameTenant := by decide

def binding : EffectiveBinding where
  roleID := 2
  permissions := ["user.read", "role.assign"]
  scope := .org 10
  expiresAt := none

def engine : Service where
  bindings := some (fun tenantID userID => if tenantID = 1 ∧ userID = 7 then some [binding] else some [])
  orgTree := some .flat
  casbin := some { policies := [{ subject := .role 2, tenantID := 1, permission := "user.read" },
    { subject := .role 2, tenantID := 1, permission := "role.assign" }] }

def store : MemberStore where
  validators _ := some (fun _ => some true)
  setSuperAdmin := some (fun _ => true)
  insert _ := true
  nextID := 1000

def request (scope : Option (ScopeType × Int)) : AddMemberRequest where
  subjectType := .user
  subjectID := 8
  scopeType := scope.map Prod.fst
  scopeID := scope.map Prod.snd

def membership (scope : Option (ScopeType × Int)) : Membership :=
  .binding
    { id := 1000, roleID := 2, subjectType := .user, subjectID := 8,
      scopeType := scope.map Prod.fst, scopeID := scope.map Prod.snd }

theorem unscoped_escalates :
    addMember catalog store 1 2 (request none) = .ok (membership none)
      ∧ checkAssignAllowed catalog (some engine) 0 1 7 2 (request none) = .ok ()
      ∧ "user.read" ∈ catalog.codesByRole 2
      ∧ (membership none).allows catalog engine 0 1 "user.read" (some (.org 20)) = true
      ∧ engine.check 0 1 7 "user.read" (some (.org 20)) = .ok false := by
  decide

theorem scoped_does_not_escalate :
    checkAssignAllowed catalog (some engine) 0 1 7 2 (request (some (.org, 10))) = .ok ()
      ∧ ∀ perm, catalog.RoleHolds 1 2 perm → ∀ target,
          (membership (some (.org, 10))).allows catalog engine 0 1 perm target = true →
          engine.check 0 1 7 perm target = .ok true := by
  have haccept : checkAssignAllowed catalog (some engine) 0 1 7 2 (request (some (.org, 10))) = .ok () := by
    decide
  have hstored : addMember catalog store 1 2 (request (some (.org, 10)))
      = .ok (membership (some (.org, 10))) := by
    decide
  refine ⟨haccept, (checkAssignAllowed_sound_iff catalog store (some engine) 0 1 7 2 _ _ hstored).mpr ?_
    haccept engine rfl⟩
  rintro s hs _ binds hbinds
  cases hs
  cases hbinds
  exact Or.inr ⟨by decide, Or.inl rfl⟩

end DeptAdmin

end Mxid.Authz
