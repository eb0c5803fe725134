import Mxid.Sso.Impl.AppList
import Mathlib.Data.List.Dedup

namespace Mxid.Sso

open List AccessService

section Decision

variable {svc : AccessService} {effect : Effect} {userID appID tenantID : Int} {rows : List Policy}

theorem AccessService.firstMatch_eq_none_iff :
    svc.firstMatch effect userID rows = .ok none
      ↔
    ∀ r ∈ rows, r.effect = effect → svc.subjectMatches r userID = .ok false := by
  induction rows with
  | nil => simp [firstMatch]
  | cons r rows ih =>
    rw [forall_mem_cons, ← ih, firstMatch]
    by_cases heffect : r.effect = effect
    . rcases svc.subjectMatches r userID with _ | _ | _ <;> simp [heffect]
    . simp [heffect]

theorem AccessService.firstMatch_eq_some_iff
    (hok : ∀ r ∈ rows, r.effect = effect → ∃ b, svc.subjectMatches r userID = .ok b) :
    (∃ r, svc.firstMatch effect userID rows = .ok (some r))
      ↔
    ∃ r ∈ rows, r.effect = effect ∧ svc.subjectMatches r userID = .ok true := by
  induction rows with
  | nil => simp [firstMatch]
  | cons r rows ih =>
    rw [forall_mem_cons] at hok
    rw [exists_mem_cons_iff, ← ih hok.2, firstMatch]
    by_cases heffect : r.effect = effect
    . rcases hok.1 heffect with ⟨_ | _, hmatch⟩ <;> simp [heffect, hmatch]
    . simp [heffect]

theorem AccessService.firstMatch_eq_some {r : Policy} (h : svc.firstMatch effect userID rows = .ok (some r)) :
    ∃ before after, rows = before ++ r :: after ∧ r.effect = effect ∧ svc.subjectMatches r userID = .ok true
      ∧ ∀ r' ∈ before, r'.effect = effect → svc.subjectMatches r' userID = .ok false := by
  induction rows with
  | nil => cases h
  | cons r0 rows ih =>
    unfold firstMatch at h
    split at h
    . next hne =>
      rcases ih h with ⟨before, after, rfl, heffect, hr, hbefore⟩
      exact ⟨r0 :: before, after, rfl, heffect, hr, forall_mem_cons.mpr ⟨fun heq => absurd heq hne, hbefore⟩⟩
    . next heffect =>
      split at h
      . contradiction
      . next hmatch =>
        cases h
        exact ⟨[], rows, rfl, not_not.mp heffect, hmatch, forall_mem_nil _⟩
      . next hmatch =>
        rcases ih h with ⟨before, after, rfl, heffect, hr, hbefore⟩
        exact ⟨r0 :: before, after, rfl, heffect, hr, forall_mem_cons.mpr ⟨fun _ => hmatch, hbefore⟩⟩

theorem AccessService.firstMatch_append {before after : List Policy} {r : Policy} (heffect : r.effect = effect)
    (hmatch : svc.subjectMatches r userID = .ok true)
    (hbefore : ∀ r' ∈ before, r'.effect = effect → svc.subjectMatches r' userID = .ok false) :
    svc.firstMatch effect userID (before ++ r :: after) = .ok (some r) := by
  induction before with
  | nil => simp [firstMatch, heffect, hmatch]
  | cons r0 before ih =>
    rw [forall_mem_cons] at hbefore
    rw [cons_append, firstMatch]
    split
    . exact ih hbefore.2
    . next h0 =>
      rw [hbefore.1 (not_not.mp h0)]
      exact ih hbefore.2

theorem AccessService.exists_firstMatch_iff :
    (∃ r, svc.firstMatch effect userID rows = .ok (some r))
      ↔
    ∃ before r after, rows = before ++ r :: after ∧ r.effect = effect ∧ svc.subjectMatches r userID = .ok true
      ∧ ∀ r' ∈ before, r'.effect = effect → svc.subjectMatches r' userID = .ok false := by
  constructor
  . rintro ⟨r, h⟩
    rcases firstMatch_eq_some h with ⟨before, after, hr⟩
    exact ⟨before, r, after, hr⟩
  . rintro ⟨before, r, after, rfl, heffect, hmatch, hbefore⟩
    exact ⟨r, firstMatch_append heffect hmatch hbefore⟩

/--
No deny rule matches the user, an allow rule does, and no lookup fails until it is found.
-/
def AccessService.Permits (svc : AccessService) (userID : Int) (rows : List Policy) : Prop :=
  (∀ r ∈ rows, r.effect = .effectDeny → svc.subjectMatches r userID = .ok false)
    ∧ ∃ before r after, rows = before ++ r :: after ∧ r.effect = .effectAllow ∧ svc.subjectMatches r userID = .ok true
      ∧ ∀ r' ∈ before, r'.effect = .effectAllow → svc.subjectMatches r' userID = .ok false

theorem AccessService.allows_iff (hrows : svc.effectiveRows appID tenantID = .ok rows) :
    svc.allows userID appID tenantID = true ↔ svc.Permits userID rows := by
  rw [Permits, ← firstMatch_eq_none_iff, ← exists_firstMatch_iff]
  unfold allows canAccess
  by_cases hempty : rows = []
  . simp [hrows, hempty, firstMatch]
  . rcases hdeny : svc.firstMatch .effectDeny userID rows with _ | _ | _ <;>
      rcases hallow : svc.firstMatch .effectAllow userID rows with _ | _ | _ <;> simp [hrows, hempty, hdeny, hallow]

theorem AccessService.permits_iff
    (hok : ∀ r ∈ rows, r.effect = .effectAllow → ∃ b, svc.subjectMatches r userID = .ok b) :
    svc.Permits userID rows
      ↔
    (∀ r ∈ rows, r.effect = .effectDeny → svc.subjectMatches r userID = .ok false)
      ∧ ∃ r ∈ rows, r.effect = .effectAllow ∧ svc.subjectMatches r userID = .ok true := by
  rw [Permits, ← exists_firstMatch_iff, firstMatch_eq_some_iff hok]

theorem AccessService.permits_perm {rows' : List Policy} (hperm : rows'.Perm rows)
    (h : (∃ r ∈ rows, r.effect = .effectDeny ∧ svc.subjectMatches r userID ≠ .ok false)
      ∨ (∀ r ∈ rows, r.effect = .effectAllow → ∃ b, svc.subjectMatches r userID = .ok b)
      ∨ ∀ r ∈ rows, r.effect = .effectAllow → svc.subjectMatches r userID ≠ .ok true) :
    svc.Permits userID rows' ↔ svc.Permits userID rows := by
  rcases h with ⟨r, hr, hdeny, hmatch⟩ | hok | hnone
  . constructor
    . intro hpermits
      exact absurd (hpermits.1 r (hperm.mem_iff.mpr hr) hdeny) hmatch
    . intro hpermits
      exact absurd (hpermits.1 r hr hdeny) hmatch
  . rw [permits_iff hok, permits_iff (fun r hr => hok r (hperm.mem_iff.mp hr))]
    simp only [hperm.mem_iff]
  . constructor
    . rintro ⟨_, before, r, after, rfl, hallow, hmatch, _⟩
      exact absurd hmatch (hnone r (hperm.mem_iff.mp (by simp)) hallow)
    . rintro ⟨_, before, r, after, rfl, hallow, hmatch, _⟩
      exact absurd hmatch (hnone r (by simp) hallow)

theorem AccessService.effectiveRows_eq_ok (h : svc.effectiveRows appID tenantID = .ok rows) :
    ∃ own, svc.listByApp appID tenantID = .ok own
      ∧ (rows = own ∧ (tenantID = 0 ∨ ∃ msg, svc.listByApp appID 0 = .error msg)
        ∨ ∃ global, svc.listByApp appID 0 = .ok global ∧ rows = own ++ global) := by
  unfold effectiveRows at h
  split at h
  . contradiction
  next own hown =>
  refine ⟨own, hown, ?_⟩
  split at h
  . split at h
    . next hglobal =>
      cases h
      exact .inl ⟨rfl, .inr ⟨_, hglobal⟩⟩
    . next hglobal =>
      cases h
      exact .inr ⟨_, hglobal, rfl⟩
  . next hzero =>
    cases h
    exact .inl ⟨rfl, .inl (not_not.mp hzero)⟩

theorem AccessService.allows_eq_true (h : svc.allows userID appID tenantID = true) :
    ∃ rows, svc.effectiveRows appID tenantID = .ok rows ∧ svc.Permits userID rows := by
  cases hrows : svc.effectiveRows appID tenantID with
  | error => simp [allows, canAccess, hrows] at h
  | ok rows => exact ⟨rows, rfl, (allows_iff hrows).mp h⟩

def AccessService.listing (svc : AccessService) (tenantID : Int) (rows : List Policy) : AccessService :=
  { svc with listByApp := fun _ level => .ok (if level = tenantID then rows else []) }

theorem AccessService.effectiveRows_listing : (svc.listing tenantID rows).effectiveRows appID tenantID = .ok rows := by
  unfold effectiveRows listing
  by_cases hzero : tenantID = 0
  . simp [hzero]
  . simp [hzero, Ne.symm hzero]

/--
If the decision does not depend on the order of the rows, then a failing lookup of an allow rule never stands beside an
allow rule that matches, unless a deny rule decides.
-/
theorem AccessService.lookups_of_perm (allowed : Bool)
    (h : ∀ rows', rows'.Perm rows → (svc.Permits userID rows' ↔ allowed = true)) :
    (∃ r ∈ rows, r.effect = .effectDeny ∧ svc.subjectMatches r userID ≠ .ok false)
      ∨ (∀ r ∈ rows, r.effect = .effectAllow → ∃ b, svc.subjectMatches r userID = .ok b)
      ∨ ∀ r ∈ rows, r.effect = .effectAllow → svc.subjectMatches r userID ≠ .ok true := by
  by_contra hnot
  push Not at hnot
  rcases hnot with ⟨hdeny, ⟨f, hf, hfallow, hfails⟩, m, hm, hmallow, hmatch⟩
  have hfirst : svc.Permits userID (m :: rows.erase m) := by
    refine ⟨?_, [], m, _, rfl, hmallow, hmatch, forall_mem_nil _⟩
    intro r hr
    exact hdeny r ((perm_cons_erase hm).mem_iff.mpr hr)
  have hallowed := (h _ (perm_cons_erase hm).symm).mp hfirst
  rcases (h _ (perm_cons_erase hf).symm).mpr hallowed with ⟨_, before, r, after, heq, _, hr, hbefore⟩
  cases before with
  | nil =>
    cases heq
    exact hfails true hr
  | cons f' before =>
    rw [cons_append, cons.injEq] at heq
    rw [← heq.1] at hbefore
    exact hfails false (hbefore f mem_cons_self hfallow)

/--
Where the service gives an answer, it is the stored rows and the actual memberships.
-/
structure AccessService.Answers (svc : AccessService) (userID appID : Int) (stored : Int → List Policy)
    (isMatch : Policy → Bool) : Prop where
  rows : ∀ level rows, svc.listByApp appID level = .ok rows → rows = stored level
  lookups : ∀ r b, svc.subjectMatches r userID = .ok b → b = isMatch r

/--
A deny rule that matches keeps the user out, only succeeding queries let the user in, and the order of the rows does not
matter, if and only if the rows of the tenant do not let the user in by themselves when those of tenant 0 cannot be
read, and no lookup of an allow rule fails beside an allow rule that matches unless a deny rule decides.
-/
theorem deny_wins (svc : AccessService) (userID appID tenantID : Int) (stored : Int → List Policy)
    (isMatch : Policy → Bool) (h : svc.Answers userID appID stored isMatch) :
    (((∃ r ∈ stored tenantID ++ stored 0, r.effect = .effectDeny ∧ isMatch r = true) →
          svc.allows userID appID tenantID = false)
        ∧ (svc.allows userID appID tenantID = true →
          (∃ rows, svc.listByApp appID tenantID = .ok rows) ∧ (tenantID ≠ 0 → ∃ rows, svc.listByApp appID 0 = .ok rows)
            ∧ ∃ rows, svc.effectiveRows appID tenantID = .ok rows ∧ svc.Permits userID rows)
        ∧ ∀ (svc' : AccessService) (rows rows' : List Policy), svc'.matcher = svc.matcher →
          svc.effectiveRows appID tenantID = .ok rows → svc'.effectiveRows appID tenantID = .ok rows' →
          rows'.Perm rows → svc'.allows userID appID tenantID = svc.allows userID appID tenantID)
      ↔
    (tenantID ≠ 0 → (∃ msg, svc.listByApp appID 0 = .error msg) →
        ∀ own, svc.listByApp appID tenantID = .ok own → ¬svc.Permits userID own)
      ∧ ∀ rows, svc.effectiveRows appID tenantID = .ok rows →
        (∃ r ∈ rows, r.effect = .effectDeny ∧ svc.subjectMatches r userID ≠ .ok false)
          ∨ (∀ r ∈ rows, r.effect = .effectAllow → ∃ b, svc.subjectMatches r userID = .ok b)
          ∨ ∀ r ∈ rows, r.effect = .effectAllow → svc.subjectMatches r userID ≠ .ok true := by
  have hsame : ∀ svc' : AccessService, svc'.matcher = svc.matcher →
      ∀ rows, svc'.Permits userID rows ↔ svc.Permits userID rows := by
    intro svc' hmatcher rows
    simp only [Permits, subjectMatches, hmatcher]
  constructor
  . rintro ⟨_, hqueries, horder⟩
    constructor
    . rintro hne ⟨msg, hglobal⟩ own hown hpermits
      have hrows : svc.effectiveRows appID tenantID = .ok own := by simp [effectiveRows, hown, hne, hglobal]
      rcases (hqueries ((allows_iff hrows).mpr hpermits)).2.1 hne with ⟨global, hread⟩
      rw [hglobal] at hread
      contradiction
    . intro rows hrows
      apply lookups_of_perm (svc.allows userID appID tenantID)
      intro rows' hperm
      rw [← horder (svc.listing tenantID rows') rows rows' rfl hrows effectiveRows_listing hperm,
        allows_iff effectiveRows_listing, hsame (svc.listing tenantID rows') rfl]
  . rintro ⟨hglobal, hlookups⟩
    have hread : svc.allows userID appID tenantID = true → tenantID ≠ 0 →
        ∃ global, svc.listByApp appID 0 = .ok global := by
      intro hallows hne
      rcases allows_eq_true hallows with ⟨rows, hrows, hpermits⟩
      rcases effectiveRows_eq_ok hrows with ⟨own, hown, ⟨rfl, hzero | hmsg⟩ | ⟨global, hread, _⟩⟩
      . exact absurd hzero hne
      . exact absurd hpermits (hglobal hne hmsg _ hown)
      . exact ⟨global, hread⟩
    refine ⟨?_, ?_, ?_⟩
    . rintro ⟨r, hr, hdeny, hmatch⟩
      rw [← Bool.not_eq_true]
      intro hallows
      rcases allows_eq_true hallows with ⟨rows, hrows, hpermits⟩
      have hmem : r ∈ rows := by
        rcases effectiveRows_eq_ok hrows with ⟨own, hown, ⟨rfl, hzero | ⟨msg, hmsg⟩⟩ | ⟨global, hread, rfl⟩⟩
        . rw [h.rows _ _ hown]
          subst hzero
          simpa using hr
        . by_cases hzero : tenantID = 0
          . rw [← hzero, hown] at hmsg
            contradiction
          . rcases hread hallows hzero with ⟨global, hread⟩
            rw [hmsg] at hread
            contradiction
        . rw [h.rows _ _ hown, h.rows _ _ hread]
          exact hr
      rw [← h.lookups r false (hpermits.1 r hmem hdeny)] at hmatch
      contradiction
    . intro hallows
      rcases allows_eq_true hallows with ⟨rows, hrows, hpermits⟩
      rcases effectiveRows_eq_ok hrows with ⟨own, hown, _⟩
      exact ⟨⟨own, hown⟩, hread hallows, rows, hrows, hpermits⟩
    . intro svc' rows rows' hmatcher hrows hrows' hperm
      rw [Bool.eq_iff_iff, allows_iff hrows, allows_iff hrows', hsame svc' hmatcher]
      exact permits_perm hperm (hlookups rows hrows)

end Decision

namespace Overruled

def rule (effect : Effect) : Policy := ⟨1, some 20, none, 1, .subjectPublic, 0, effect, 0⟩

def service (global : Except String (List Policy)) : AccessService where
  listByApp _ tenantID := if tenantID = 0 then global else .ok [rule .effectAllow]
  matcher := none

theorem allowed_without_global :
    (service (.ok [rule .effectDeny])).allows 7 20 1 = false ∧ (service (.error "timeout")).allows 7 20 1 = true := by
  decide

theorem refused_with_global : (service (.ok [rule .effectDeny])).allows 7 20 1 = false := by
  have hanswers : (service (.ok [rule .effectDeny])).Answers 7 20
      (fun level => if level = 0 then [rule .effectDeny] else [rule .effectAllow])
      (fun r => (service (.ok [])).subjectMatches r 7 = .ok true) := by
    constructor
    . intro level rows hrows
      dsimp only [service] at hrows ⊢
      split at hrows <;> cases hrows <;> simp [*]
    . intro r b hb
      cases b <;> simp_all [subjectMatches, service]
  refine ((deny_wins _ 7 20 1 _ _ hanswers).mpr ⟨?_, ?_⟩).1 ⟨rule .effectDeny, by simp, rfl, rfl⟩
  . rintro _ ⟨_, hglobal⟩
    cases hglobal
  . rintro rows ⟨⟩
    exact .inr (.inl (by decide))

end Overruled

namespace PolicyDB

variable {db : PolicyDB} {appID tenantID : Int}

def BearsOn (db : PolicyDB) (appID tenantID : Int) (p : Policy) : Prop :=
  p ∈ db.policies.rows ∧ (p.tenantID = tenantID ∨ p.tenantID = 0)
    ∧ (p.appID = some appID ∨ ∃ rel ∈ db.appGroupRel, rel.appID = appID ∧ p.appGroupID = some rel.groupID)

theorem mem_listByApp {p : Policy} :
    p ∈ db.listByApp appID tenantID
      ↔
    p ∈ db.policies.rows ∧ p.tenantID = tenantID
      ∧ (p.appID = some appID ∨ ∃ rel ∈ db.appGroupRel, rel.appID = appID ∧ p.appGroupID = some rel.groupID) := by
  unfold listByApp Table.orderByDesc
  rw [mem_insertionSort, mem_filter, Bool.and_eq_true, decide_eq_true_eq, Bool.or_eq_true,
    decide_eq_true_eq, Option.any_eq_true]
  simp only [decide_eq_true_eq, mem_map, mem_filter]
  constructor
  . rintro ⟨hp, ht, happ | ⟨_, hg, rel, ⟨hrel, hid⟩, rfl⟩⟩
    . exact ⟨hp, ht, .inl happ⟩
    . exact ⟨hp, ht, .inr ⟨rel, hrel, hid, hg⟩⟩
  . rintro ⟨hp, ht, happ | ⟨rel, hrel, hid, hg⟩⟩
    . exact ⟨hp, ht, .inl happ⟩
    . exact ⟨hp, ht, .inr ⟨rel.groupID, hg, rel, ⟨hrel, hid⟩, rfl⟩⟩

theorem mem_appsWith {dir : Directory} {effect : Effect} {userID : Int} :
    appID ∈ db.appsWith dir effect userID tenantID
      ↔
    ∃ p, db.BearsOn appID tenantID p ∧ p.effect = effect ∧ dir.subjectMatch p userID = true := by
  unfold appsWith BearsOn
  simp only [mem_dedup, mem_append, mem_filterMap, mem_flatMap, mem_map,
    mem_filter, Bool.and_eq_true, Bool.or_eq_true, decide_eq_true_eq]
  constructor
  . rintro (⟨p, ⟨hp, ⟨ht, he⟩, hm⟩, happ⟩ | ⟨p, ⟨hp, ⟨ht, he⟩, hm⟩, rel, ⟨hrel, hg⟩, hid⟩)
    . exact ⟨p, ⟨hp, ht, .inl happ⟩, he, hm⟩
    . exact ⟨p, ⟨hp, ht, .inr ⟨rel, hrel, hid, hg⟩⟩, he, hm⟩
  . rintro ⟨p, ⟨hp, ht, happ | ⟨rel, hrel, hid, hg⟩⟩, he, hm⟩
    . exact .inl ⟨p, ⟨hp, ⟨ht, he⟩, hm⟩, happ⟩
    . exact .inr ⟨p, ⟨hp, ⟨ht, he⟩, hm⟩, rel, ⟨hrel, hg⟩, hid⟩

end PolicyDB

namespace Directory

def gateMatch (dir : Directory) (now : Int) (p : Policy) (userID : Int) : Bool :=
  match p.subjectType with
  | .subjectPublic => true
  | .subjectUser => p.subjectID = userID
  | .subjectGroup => dir.userInGroup userID p.subjectID
  | .subjectOrg => dir.userInOrg userID p.subjectID
  | .subjectRole => dir.userHasRole now userID p.subjectID

end Directory

section Gate

variable (db : PolicyDB) (dir : Directory) (now userID appID tenantID : Int)

theorem subjectMatches_accessMatcher (p : Policy) :
    (db.service (dir.accessMatcher now)).subjectMatches p userID = .ok (dir.gateMatch now p userID) := by
  unfold subjectMatches Directory.gateMatch
  cases p.subjectType with
  | subjectPublic | subjectUser | subjectGroup | subjectOrg | subjectRole => rfl

theorem effectiveRows_accessMatcher :
    ∃ rows, (db.service (dir.accessMatcher now)).effectiveRows appID tenantID = .ok rows
      ∧ ∀ p, p ∈ rows ↔ db.BearsOn appID tenantID p := by
  unfold effectiveRows PolicyDB.service PolicyDB.BearsOn
  dsimp only
  split
  . refine ⟨_, rfl, ?_⟩
    intro p
    rw [mem_append, PolicyDB.mem_listByApp, PolicyDB.mem_listByApp, ← and_or_left, ← or_and_right]
  . next hzero =>
    refine ⟨_, rfl, ?_⟩
    intro p
    rw [PolicyDB.mem_listByApp, not_not.mp hzero, or_self]

end Gate

namespace Directory

variable (dir : Directory) (now : Int) (p : Policy) (userID : Int)

def Firm : Prop :=
  match p.subjectType with
  | .subjectPublic => True
  | .subjectUser => p.subjectID = userID
  | .subjectGroup =>
    (∃ g ∈ dir.groups.rows, g.id = p.subjectID ∧ g.deleted = false)
      ∧ ∃ m ∈ dir.members, m.userID = userID ∧ m.groupID = p.subjectID
  | .subjectOrg => dir.userInOrg userID p.subjectID = true
  | .subjectRole => dir.userHasRole now userID p.subjectID = true

def Lapsed : Prop :=
  p.subjectType = .subjectRole
    ∧ (∃ b ∈ dir.roleBindings.rows, b.roleID = p.subjectID ∧ b.subjectType = .user ∧ b.subjectID = userID)
    ∧ ∀ b ∈ dir.roleBindings.rows, b.roleID = p.subjectID → b.subjectType = .user → b.subjectID = userID →
        b.status = 1 → ∃ t, b.expiresAt = some t ∧ t ≤ now

def Stale : Prop :=
  p.subjectType = .subjectGroup
    ∧ (∃ m ∈ dir.members, m.userID = userID ∧ m.groupID = p.subjectID)
    ∧ ∀ g ∈ dir.groups.rows, g.id = p.subjectID → g.deleted = true

variable {dir now p userID}

theorem subjectMatch_iff : dir.subjectMatch p userID = true ↔ dir.Firm now p userID ∨ dir.Lapsed now p userID := by
  unfold subjectMatch Firm Lapsed
  cases p.subjectType with
  | subjectPublic | subjectUser => simp
  | subjectGroup => simp; grind
  | subjectOrg => simp [userInOrg]
  | subjectRole =>
    simp only [userHasRole, any_eq_true, Bool.and_eq_true, decide_eq_true_eq, Option.all_eq_true, and_assoc]
    grind

theorem gateMatch_iff : dir.gateMatch now p userID = true ↔ dir.Firm now p userID ∨ dir.Stale p userID := by
  unfold gateMatch Firm Stale
  cases p.subjectType with
  | subjectPublic | subjectUser | subjectOrg | subjectRole => simp
  | subjectGroup => simp [userInGroup]; grind

end Directory

namespace PolicyDB

variable (db : PolicyDB) (dir : Directory) (now userID appID tenantID : Int)

def Rule (effect : Effect) (kind : Policy → Prop) : Prop :=
  ∃ p, db.BearsOn appID tenantID p ∧ p.effect = effect ∧ kind p

variable {db appID tenantID} in
theorem rule_or {effect : Effect} {k k' : Policy → Prop} :
    db.Rule appID tenantID effect (fun p => k p ∨ k' p)
      ↔
    db.Rule appID tenantID effect k ∨ db.Rule appID tenantID effect k' := by
  unfold Rule
  simp only [and_or_left, exists_or]

/--
The rules with lapsed and with stale subjects do not tip the list and the gate apart. Unless a firm rule
denies, those that deny have to deny at both, or at one that allows nothing, and those that allow have to
allow at both, or where a firm rule does so too.
-/
def Level : Prop :=
  let allow := db.Rule appID tenantID .effectAllow
  let deny := db.Rule appID tenantID .effectDeny
  let firm p := dir.Firm now p userID
  let lapsed p := dir.Lapsed now p userID
  let stale p := dir.Stale p userID
  deny firm
    ∨ (deny lapsed ∧ deny stale)
    ∨ (deny lapsed ∧ ¬allow firm ∧ ¬allow stale)
    ∨ (deny stale ∧ ¬allow firm ∧ ¬allow lapsed)
    ∨ (¬deny lapsed ∧ ¬deny stale ∧ (allow firm ∨ (allow lapsed ↔ allow stale)))

theorem mem_appsForUser_iff_rule :
    appID ∈ db.appsForUser dir userID tenantID
      ↔
    (db.Rule appID tenantID .effectAllow (fun p => dir.Firm now p userID)
        ∨ db.Rule appID tenantID .effectAllow (fun p => dir.Lapsed now p userID))
      ∧ ¬(db.Rule appID tenantID .effectDeny (fun p => dir.Firm now p userID)
        ∨ db.Rule appID tenantID .effectDeny (fun p => dir.Lapsed now p userID)) := by
  unfold appsForUser
  rw [mem_filter, mem_appsWith, Bool.not_eq_true', ← Bool.not_eq_true, contains_iff_mem, mem_appsWith, ← rule_or,
    ← rule_or]
  unfold Rule
  simp only [← Directory.subjectMatch_iff]

theorem allows_iff_rule :
    (db.service (dir.accessMatcher now)).allows userID appID tenantID = true
      ↔
    (db.Rule appID tenantID .effectAllow (fun p => dir.Firm now p userID)
        ∨ db.Rule appID tenantID .effectAllow (fun p => dir.Stale p userID))
      ∧ ¬(db.Rule appID tenantID .effectDeny (fun p => dir.Firm now p userID)
        ∨ db.Rule appID tenantID .effectDeny (fun p => dir.Stale p userID)) := by
  rcases effectiveRows_accessMatcher db dir now appID tenantID with ⟨rows, hrows, hmem⟩
  rw [allows_iff hrows, permits_iff (fun p _ _ => ⟨_, subjectMatches_accessMatcher db dir now userID p⟩), ← rule_or,
    ← rule_or]
  unfold Rule
  simp only [← Directory.gateMatch_iff, subjectMatches_accessMatcher, hmem, Except.ok.injEq, not_exists, not_and,
    Bool.not_eq_true]
  exact and_comm

theorem appsForUser_iff_allows_iff_level :
    (appID ∈ db.appsForUser dir userID tenantID
        ↔
      (db.service (dir.accessMatcher now)).allows userID appID tenantID = true)
      ↔
    db.Level dir now userID appID tenantID := by
  rw [db.mem_appsForUser_iff_rule dir now, db.allows_iff_rule dir now]
  unfold Level
  dsimp only
  generalize db.Rule appID tenantID .effectAllow (fun p => dir.Firm now p userID) = allowFirm
  generalize db.Rule appID tenantID .effectAllow (fun p => dir.Lapsed now p userID) = allowLapsed
  generalize db.Rule appID tenantID .effectAllow (fun p => dir.Stale p userID) = allowStale
  generalize db.Rule appID tenantID .effectDeny (fun p => dir.Firm now p userID) = denyFirm
  generalize db.Rule appID tenantID .effectDeny (fun p => dir.Lapsed now p userID) = denyLapsed
  generalize db.Rule appID tenantID .effectDeny (fun p => dir.Stale p userID) = denyStale
  by_cases hfirm : denyFirm
  . simp [hfirm]
  by_cases hlapsed : denyLapsed <;> by_cases hstale : denyStale
  . simp [hlapsed, hstale]
  . grind
  . grind
  . grind

end PolicyDB

namespace OneRule

def directory : Directory where
  org := ⟨.empty, .empty, ⟨.empty, User.no_users⟩⟩
  groups := ⟨[⟨30, true⟩], nodup_singleton _⟩
  members := [⟨30, 7⟩]
  roleBindings := ⟨[⟨50, 40, .user, 7, none, none, none, some 1000, 1⟩], nodup_singleton _⟩

def policies (subjectType : SubjectType) (subjectID : Int) : PolicyDB where
  policies := ⟨[⟨60, some 20, none, 1, subjectType, subjectID, .effectAllow, 0⟩], nodup_singleton _⟩
  appGroupRel := []

theorem list_differs_from_gate :
    ((20 ∉ (policies .subjectGroup 30).appsForUser directory 7 1)
        ∧ ((policies .subjectGroup 30).service (directory.accessMatcher 2000)).allows 7 20 1 = true)
      ∧ (20 ∈ (policies .subjectRole 40).appsForUser directory 7 1)
      ∧ ((policies .subjectRole 40).service (directory.accessMatcher 2000)).allows 7 20 1 = false := by
  decide

end OneRule

end Mxid.Sso
