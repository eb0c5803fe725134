import Mxid.Authz.Impl.Engine

namespace Mxid.Authz

/--
Organizations none of which is below another.
-/
def OrgTree.flat : OrgTree where
  isAncestorOrSelf a d := a = d
  self _ := decide_eq_true rfl
  trans hab hbc := decide_eq_true ((of_decide_eq_true hab).trans (of_decide_eq_true hbc))

section Scope

def Scope.covers (tree : Option OrgTree) : Scope → Option ScopeTarget → Bool
  | .global, _ | _, none => true
  | .org a, some (.org b) => tree.any (fun t => t.isAncestorOrSelf a b)
  | .group a, some (.group b) => a = b
  | _, _ => false

def Scope.contains (tree : Option OrgTree) : Scope → Scope → Bool
  | .global, _ | _, .other => true
  | .org a, .org b => tree.all (fun t => t.isAncestorOrSelf a b)
  | .group _, .org _ | .other, .org _ => tree.isNone
  | .group a, .group b => a = b
  | _, _ => false

theorem Service.scopeCovers_eq_some_true_iff {s : Service} {b : EffectiveBinding} {target : Option ScopeTarget} :
    s.scopeCovers b target = some true ↔ b.scope.covers s.orgTree target = true := by
  unfold scopeCovers Scope.covers
  cases b.scope with
  | global | other => cases target <;> simp
  | org | group =>
    cases target with
    | none => simp
    | some target => cases target <;> cases s.orgTree <;> simp

variable {tree : Option OrgTree}

theorem Scope.covers_none (tree : Option OrgTree) (σ : Scope) : σ.covers tree none = true := by
  cases σ <;> rfl

theorem Scope.covers_of_contains {σ σ' : Scope} {target : Option ScopeTarget} (h : σ.contains tree σ' = true)
    (hcovers : σ'.covers tree target = true) : σ.covers tree target = true := by
  cases target with
  | none => exact covers_none tree σ
  | some target =>
    cases σ with
    | global => rfl
    | org =>
      cases σ' with
      | global | group | other => contradiction
      | org =>
        cases target with
        | group | other => contradiction
        | org =>
          cases tree with
          | none => contradiction
          | some t => exact t.trans h hcovers
    | group a =>
      cases σ' with
      | global | other => contradiction
      | group b =>
        have hab : a = b := of_decide_eq_true h
        rw [hab]
        exact hcovers
      | org => cases target <;> cases tree <;> contradiction
    | other =>
      cases σ' with
      | global | group | other => contradiction
      | org => cases target <;> cases tree <;> contradiction

theorem Scope.exists_group_bound (scopes : List Scope) : ∃ m : Int, ∀ id, .group id ∈ scopes → id < m := by
  induction scopes with
  | nil => exact ⟨0, by simp⟩
  | cons σ scopes ih =>
    rcases ih with ⟨m, hm⟩
    cases σ with
    | group id =>
      refine ⟨max m (id + 1), ?_⟩
      intro id' hid'
      rcases List.mem_cons.mp hid' with heq | hmem
      . cases heq
        omega
      . have := hm id' hmem
        omega
    | global | org | other => exact ⟨m, fun id hid => hm id (by simpa using hid)⟩

theorem Scope.exists_contains_iff (tree : Option OrgTree) (scopes : List Scope) (σ : Scope) :
    (∀ target, σ.covers tree target = true → ∃ σ' ∈ scopes, σ'.covers tree target = true)
      ↔
    ∃ σ' ∈ scopes, σ'.contains tree σ = true := by
  constructor
  . intro h
    cases σ with
    | global =>
      rcases exists_group_bound scopes with ⟨m, hm⟩
      rcases h (some (.group m)) rfl with ⟨σ', hσ', hcovers⟩
      refine ⟨σ', hσ', ?_⟩
      cases σ' with
      | global => rfl
      | org | other => contradiction
      | group id =>
        have heq : id = m := of_decide_eq_true hcovers
        have := hm id hσ'
        omega
    | group id =>
      rcases h (some (.group id)) (decide_eq_true rfl) with ⟨σ', hσ', hcovers⟩
      refine ⟨σ', hσ', ?_⟩
      cases σ' with
      | global => rfl
      | org | other => contradiction
      | group => exact hcovers
    | other =>
      rcases h none rfl with ⟨σ', hσ', _⟩
      refine ⟨σ', hσ', ?_⟩
      cases σ' <;> rfl
    | org id =>
      cases tree with
      | none =>
        rcases h none rfl with ⟨σ', hσ', _⟩
        refine ⟨σ', hσ', ?_⟩
        cases σ' <;> rfl
      | some t =>
        rcases h (some (.org id)) (t.self id) with ⟨σ', hσ', hcovers⟩
        refine ⟨σ', hσ', ?_⟩
        cases σ' with
        | global => rfl
        | org => exact hcovers
        | group | other => contradiction
  . rintro ⟨σ', hσ', hcontains⟩ target hcovers
    exact ⟨σ', hσ', covers_of_contains hcontains hcovers⟩

end Scope

section Check

variable {s : Service} {now tenantID userID : Int} {perm : Code} {target : Option ScopeTarget}

def Service.Grants (s : Service) (now tenantID : Int) (perm : Code) (b : EffectiveBinding) : Prop :=
  b.expired now = false ∧ s.bindingGrantsPerm tenantID b perm = true

instance (b : EffectiveBinding) : Decidable (s.Grants now tenantID perm b) :=
  inferInstanceAs (Decidable (_ ∧ _))

variable {binds : List EffectiveBinding}

theorem Service.checkBindings_eq_true_iff :
    s.checkBindings now tenantID perm target binds = true
      ↔
    ∃ b ∈ binds, s.Grants now tenantID perm b ∧ b.scope.covers s.orgTree target = true := by
  induction binds with
  | nil => simp [checkBindings]
  | cons b binds ih =>
    simp only [List.exists_mem_cons_iff]
    rw [← ih, ← scopeCovers_eq_some_true_iff]
    rw [checkBindings]
    unfold Grants
    split
    . next hexpired => simp [hexpired]
    next hexpired =>
    split
    . next hgrants =>
      rw [Bool.not_eq_true'] at hgrants
      simp [hgrants]
    next hgrants =>
    rw [Bool.not_eq_true', Bool.not_eq_false] at hgrants
    split
    . next hcovers => simp [hexpired, hgrants, hcovers]
    . next hcovers => simp [hcovers]
    . next hcovers => simp [hcovers]

theorem Service.check_eq_ok_true_iff (hbinds : s.effectiveBindings tenantID userID = some binds) :
    s.check now tenantID userID perm target = .ok true
      ↔
    perm ≠ "" ∧ ∃ b ∈ binds, s.Grants now tenantID perm b ∧ b.scope.covers s.orgTree target = true := by
  rw [← checkBindings_eq_true_iff]
  unfold effectiveBindings at hbinds
  unfold check
  split
  . next h => simp [h]
  next h =>
  cases hprovider : s.bindings with
  | none => simp [hprovider] at hbinds
  | some =>
    simp only [hprovider] at hbinds
    simp [h, hbinds]

theorem Service.exists_contains_iff {tree : Option OrgTree} {σ : Scope} :
    (∀ target, σ.covers tree target = true →
        ∃ b ∈ binds, s.Grants now tenantID perm b ∧ b.scope.covers tree target = true)
      ↔
    ∃ b ∈ binds, s.Grants now tenantID perm b ∧ b.scope.contains tree σ = true := by
  have hmem : ∀ P : Scope → Prop,
      (∃ σ ∈ (binds.filter (fun b => s.Grants now tenantID perm b)).map EffectiveBinding.scope, P σ)
        ↔ ∃ b ∈ binds, s.Grants now tenantID perm b ∧ P b.scope := by
    intro P
    simp [and_assoc]
  have hcover := Scope.exists_contains_iff tree
    ((binds.filter (fun b => s.Grants now tenantID perm b)).map EffectiveBinding.scope) σ
  simp only [hmem] at hcover
  exact hcover

theorem Service.permissionsForUser_eq (hbinds : s.effectiveBindings tenantID userID = some binds) :
    s.permissionsForUser tenantID userID = some (binds.flatMap EffectiveBinding.permissions) := by
  unfold permissionsForUser
  rw [hbinds]
  rfl

/--
The engine, if there is one, is in sync with the bindings.
-/
def Service.Synced (s : Service) (tenantID : Int) (binds : List EffectiveBinding) : Prop :=
  ∀ b ∈ binds, ∀ perm, s.bindingGrantsPerm tenantID b perm = hasPermission b.permissions perm

def EffectiveBinding.Lists (b : EffectiveBinding) (perm : Code) : Prop :=
  perm ∈ b.permissions ∨ wildcard ∈ b.permissions

theorem EffectiveBinding.expired_eq_false_iff {b : EffectiveBinding} :
    b.expired now = false ↔ ∀ t, b.expiresAt = some t → now ≤ t := by
  unfold expired
  cases b.expiresAt with
  | none | some => simp

/--
What is listed for the user is what the user can use, if and only if whenever a binding lists the permission, it is not
the empty one and a binding that has not expired lists it too.
-/
theorem Service.permissionsForUser_usable_iff (hbinds : s.effectiveBindings tenantID userID = some binds)
    (hsync : s.Synced tenantID binds) :
    ((∃ perms, s.permissionsForUser tenantID userID = some perms ∧ (perm ∈ perms ∨ wildcard ∈ perms))
        ↔ s.check now tenantID userID perm none = .ok true)
      ↔
    ((∃ b ∈ binds, b.Lists perm) →
      perm ≠ "" ∧ ∃ b ∈ binds, b.Lists perm ∧ ∀ t, b.expiresAt = some t → now ≤ t) := by
  have hgrants : ∀ b ∈ binds,
      (s.Grants now tenantID perm b ↔ b.Lists perm ∧ ∀ t, b.expiresAt = some t → now ≤ t) := by
    intro b hb
    rw [Grants, hsync b hb, EffectiveBinding.expired_eq_false_iff, and_comm, hasPermission, decide_eq_true_eq,
      or_comm, EffectiveBinding.Lists]
  have hcheck : s.check now tenantID userID perm none = .ok true
      ↔ perm ≠ "" ∧ ∃ b ∈ binds, b.Lists perm ∧ ∀ t, b.expiresAt = some t → now ≤ t := by
    rw [check_eq_ok_true_iff hbinds]
    simp only [Scope.covers_none, and_true]
    exact and_congr_right (fun _ => exists_congr (fun b => and_congr_right (hgrants b)))
  have hlisted : (∃ perms, s.permissionsForUser tenantID userID = some perms ∧ (perm ∈ perms ∨ wildcard ∈ perms))
      ↔ ∃ b ∈ binds, b.Lists perm := by
    rw [permissionsForUser_eq hbinds]
    simp only [Option.some.injEq, exists_eq_left', List.mem_flatMap, EffectiveBinding.Lists, and_or_left, exists_or]
  rw [hcheck, hlisted]
  refine ⟨Iff.mp, fun h => ⟨h, ?_⟩⟩
  rintro ⟨_, b, hb, hlists, _⟩
  exact ⟨b, hb, hlists⟩

end Check

namespace Advertised

def binding : EffectiveBinding := ⟨40, ["user.read"], .global, some 100⟩

def service : Service := ⟨some (fun _ _ => some [binding]), none, none⟩

theorem synced : service.Synced 1 [binding] := fun _ _ _ => rfl

theorem expired_permission_advertised :
    service.Synced 1 [binding] ∧ service.permissionsForUser 1 7 = some ["user.read"]
      ∧ service.check 101 1 7 "user.read" none = .ok false :=
  ⟨synced, by decide, by decide⟩

theorem live_permission_usable : service.check 100 1 7 "user.read" none = .ok true :=
  ((Service.permissionsForUser_usable_iff rfl synced).mpr
    (fun _ => ⟨by decide, binding, by decide, .inl (by decide), by decide⟩)).mp ⟨_, rfl, by decide⟩

end Advertised

end Mxid.Authz
