import Mxid.Authz.Impl.TenantContext
import Mxid.Authz.Lemmas.Engine

namespace Mxid.Authz

open List

section Wildcard

variable {s : Service} {now tenantID userID : Int} {perm : Code} {b : EffectiveBinding}

theorem Service.Grants.of_wildcard (h : s.Grants now tenantID wildcard b) : s.Grants now tenantID perm b := by
  refine ⟨h.1, ?_⟩
  have hgrants := h.2
  unfold bindingGrantsPerm at *
  cases hcasbin : s.casbin with
  | none =>
    rw [hcasbin] at hgrants
    simp only [hasPermission, decide_eq_true_eq, or_self] at hgrants
    simp [hasPermission, hgrants]
  | some =>
    rw [hcasbin] at hgrants
    unfold CasbinEngine.roleHasPermission at *
    rw [any_eq_true] at *
    rcases hgrants with ⟨p, hp, hmatch⟩
    simp only [decide_eq_true_eq, or_self] at hmatch
    exact ⟨p, hp, by simp [hmatch]⟩

def Service.mentioned (s : Service) (binds : List EffectiveBinding) : List Code :=
  binds.flatMap EffectiveBinding.permissions ++ (s.casbin.elim [] (fun e => e.policies.map RolePolicy.permission))

variable {binds : List EffectiveBinding}

theorem Service.Grants.wildcard_of_notMem (hb : b ∈ binds)
    (hperm : perm ∉ s.mentioned binds) (h : s.Grants now tenantID perm b) : s.Grants now tenantID wildcard b := by
  refine ⟨h.1, ?_⟩
  have hgrants := h.2
  unfold mentioned at hperm
  rw [mem_append, not_or] at hperm
  unfold bindingGrantsPerm at *
  cases hcasbin : s.casbin with
  | none =>
    rw [hcasbin] at hgrants
    simp only [hasPermission, decide_eq_true_eq, or_self] at *
    rcases hgrants with hwild | hmem
    . exact hwild
    . exact absurd (mem_flatMap.mpr ⟨b, hb, hmem⟩) hperm.1
  | some =>
    rw [hcasbin] at hgrants hperm
    unfold CasbinEngine.roleHasPermission at *
    rw [any_eq_true] at *
    rcases hgrants with ⟨p, hp, hmatch⟩
    simp only [decide_eq_true_eq, or_self] at *
    rcases hmatch with ⟨hsubject, htenant, hcode | hcode⟩
    . exact absurd (mem_map.mpr ⟨p, hp, hcode⟩) hperm.2
    . exact ⟨p, hp, hsubject, htenant, hcode⟩

theorem exists_unmentioned (codes : List Code) : ∃ perm : Code, perm ≠ "" ∧ perm ∉ codes := by
  have hlong : ∃ n : Nat, ∀ code ∈ codes, code.length ≤ n := by
    induction codes with
    | nil => exact ⟨0, by simp⟩
    | cons code codes ih =>
      rcases ih with ⟨n, hn⟩
      refine ⟨max n code.length, ?_⟩
      intro code' hcode'
      rcases mem_cons.mp hcode' with rfl | hcode'
      . omega
      . have := hn code' hcode'
        omega
  rcases hlong with ⟨n, hn⟩
  have hlength : (String.ofList (List.replicate (n + 1) 'x')).length = n + 1 := by simp
  refine ⟨String.ofList (List.replicate (n + 1) 'x'), ?_, ?_⟩
  . intro hempty
    rw [hempty] at hlength
    contradiction
  . intro hmem
    have := hn _ hmem
    omega

theorem Service.check_all_iff (hbinds : s.effectiveBindings tenantID userID = some binds) :
    (∀ perm, perm ≠ "" → ∀ target, s.check now tenantID userID perm target = .ok true)
      ↔
    ∃ b ∈ binds, s.Grants now tenantID wildcard b ∧ b.scope = .global := by
  constructor
  . intro h
    rcases exists_unmentioned (s.mentioned binds) with ⟨perm, hperm, hnew⟩
    have hcover : ∀ target, Scope.global.covers s.orgTree target = true →
        ∃ b ∈ binds, s.Grants now tenantID perm b ∧ b.scope.covers s.orgTree target = true := by
      intro target _
      exact ((check_eq_ok_true_iff hbinds).mp (h perm hperm target)).2
    rw [exists_contains_iff] at hcover
    rcases hcover with ⟨b, hb, hgrants, hcontains⟩
    refine ⟨b, hb, hgrants.wildcard_of_notMem hb hnew, ?_⟩
    cases hscope : b.scope with
    | global => rfl
    | org | group | other => rw [hscope] at hcontains; contradiction
  . rintro ⟨b, hb, hgrants, hscope⟩ perm hperm target
    rw [check_eq_ok_true_iff hbinds]
    refine ⟨hperm, b, hb, hgrants.of_wildcard, ?_⟩
    rw [hscope]
    rfl

end Wildcard

section Middleware

variable {engine : Option Service} {now : Int} {req : TenantRequest}

def TenantRequest.home (req : TenantRequest) : Int := req.tenantID.getD 0
def TenantRequest.caller (req : TenantRequest) : Int := req.userID.getD 0

theorem tenantContext_accepts_iff :
    (req.header ≠ "" ∧ ∃ pin, tenantContext engine now req = .ok pin)
      ↔
    req.overrides = true ∧ ∃ s, engine = some s ∧ s.check now req.home req.caller wildcard none = .ok true := by
  unfold tenantContext TenantRequest.overrides
  by_cases hheader : req.header = ""
  . rw [hheader]
    simp [show parseInt64 "" = none by rfl]
  rw [if_neg hheader]
  cases parseInt64 req.header with
  | none => simp
  | some tid =>
    dsimp only
    split
    . next hneg =>
      have : ¬0 < tid := by omega
      simp [this]
    next hpos =>
    have : 0 < tid := by omega
    cases engine with
    | none => simp
    | some s =>
      dsimp only
      split
      . next hcheck =>
        have hallowed : s.check now req.home req.caller wildcard none = .ok true := hcheck
        simp [hheader, this, hallowed]
      next hcheck =>
      simp only [reduceCtorEq, exists_false, and_false, Option.some.injEq, exists_eq_left', false_iff, not_and]
      intro _
      exact hcheck

theorem tenantContext_sound_iff (engine : Option Service) (now : Int) (req : TenantRequest) :
    ((req.header ≠ "" ∧ ∃ pin, tenantContext engine now req = .ok pin) →
        ∀ s, engine = some s → ∀ perm, perm ≠ "" → ∀ target,
          s.check now req.home req.caller perm target = .ok true)
      ↔
    (req.overrides = true → ∀ s, engine = some s → ∀ binds, s.effectiveBindings req.home req.caller = some binds →
        (∃ b ∈ binds, s.Grants now req.home wildcard b) →
        ∃ b ∈ binds, s.Grants now req.home wildcard b ∧ b.scope = .global) := by
  rw [tenantContext_accepts_iff]
  constructor
  . rintro h hoverrides s rfl binds hbinds ⟨b, hb, hgrants⟩
    rw [← Service.check_all_iff hbinds]
    apply h ⟨hoverrides, s, rfl, ?_⟩ s rfl
    rw [Service.check_eq_ok_true_iff hbinds]
    refine ⟨by decide, b, hb, hgrants, ?_⟩
    -- Every scope covers the missing target.
    cases b.scope <;> rfl
  . rintro h ⟨hoverrides, s, rfl, hcheck⟩ s' hs'
    cases hs'
    cases hbinds : s.effectiveBindings req.home req.caller with
    | none =>
      have hfails : s.check now req.home req.caller wildcard none ≠ .ok true := by
        unfold Service.effectiveBindings at hbinds
        unfold Service.check
        split
        . simp
        cases hprovider : s.bindings with
        | none => simp
        | some =>
          rw [hprovider] at hbinds
          simp [hbinds]
      contradiction
    | some binds =>
      rw [Service.check_all_iff hbinds]
      apply h hoverrides s rfl binds hbinds
      rcases (Service.check_eq_ok_true_iff hbinds).mp hcheck with ⟨_, b, hb, hgrants, _⟩
      exact ⟨b, hb, hgrants⟩

end Middleware

/-!
User 7 has a role with the wildcard, but in organization 10 only.
-/

namespace DeptOwner

def engine : Service where
  bindings := some (fun tenantID userID =>
    if tenantID = 1 ∧ userID = 7 then
      some [{ roleID := 5, permissions := [wildcard], scope := .org 10, expiresAt := none }]
    else
      some [])
  orgTree := some .flat
  casbin := some { policies := [{ subject := .role 5, tenantID := 1, permission := wildcard }] }

def request : TenantRequest := ⟨some 1, some 7, "2"⟩

theorem scoped_wildcard_overrides :
    tenantContext (some engine) 0 request = .ok ⟨some 2, some 1⟩
      ∧ engine.check 0 1 7 "user.read" (some (.org 20)) = .ok false := by
  decide

end DeptOwner

end Mxid.Authz
