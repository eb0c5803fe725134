import Mathlib.Data.Finset.Card
import Mathlib.Data.Finset.SDiff
import Mxid.Group.Lemmas.Members

namespace Mxid.Group

open Like List DB MemberAction

variable {org : Org.DB} {db db' : DB} {groupID : Int} {g : UserGroup} {a : MemberAction}

def MemberAction.Removes (g : UserGroup) : MemberAction → Prop
  | .removeMembers tenantID _ => 0 < tenantID ∧ g.tenantID = tenantID ∧ g.deleted = false
  | _ => False

theorem requireGroup_eq (hg : db.groups.find? groupID = some g) (tenantID : Int) :
    requireGroup db tenantID groupID
      =
    if 0 < tenantID ∧ g.tenantID = tenantID ∧ g.deleted = false then .ok g else .error .groupNotFound := by
  unfold requireGroup DB.getByID
  rw [hg, Option.filter_some]
  by_cases hpos : 0 < tenantID
  . cases hdel : g.deleted <;> by_cases hten : g.tenantID = tenantID <;> simp [hpos, hten]
  . simp [hpos]

theorem MemberAction.perform_eq_error (hg : db.groups.find? groupID = some g) (htype : g.type = .dynamic)
    (hman : a.manual = true) (hno : ¬a.Removes g) : ∃ e, a.perform org db groupID = .error e := by
  cases a with
  | syncRule => contradiction
  | removeMembers tenantID =>
    have hno : ¬(0 < tenantID ∧ g.tenantID = tenantID ∧ g.deleted = false) := hno
    rw [perform, Group.removeMembers, requireGroup_eq hg, if_neg hno]
    exact ⟨_, rfl⟩
  | _ =>
    simp only [perform, Group.addMember, Group.addMembers, Group.removeMember, requireGroup_eq hg]
    split
    . refine ⟨.groupIsDynamic, ?_⟩
      simp only [bind, Except.bind, htype, if_true]
      rfl
    . exact ⟨_, rfl⟩

theorem MemberAction.Removes.perform_ne_error (h : a.Removes g) (hg : db.groups.find? groupID = some g)
    (e : GroupError) : a.perform org db groupID ≠ .error e := by
  cases a with
  | removeMembers tenantID =>
    have h : 0 < tenantID ∧ g.tenantID = tenantID ∧ g.deleted = false := h
    rw [perform, Group.removeMembers, requireGroup_eq hg, if_pos h]
    nofun
  | _ => exact h.elim

theorem MemberAction.groups_perform (h : a.perform org db groupID = .ok db') : db'.groups = db.groups := by
  have hmap : ∀ {type : EventType} {tenantID : Int} {r : Except GroupError (DB × List Event)},
      (∀ db' events, r = .ok (db', events) → Announced type db tenantID groupID db' events) →
        Prod.fst <$> r = .ok db' → db'.groups = db.groups := by
    intro type tenantID r hann hr
    cases r with
    | error => contradiction
    | ok out =>
      cases hr
      exact (hann _ _ rfl).groups
  cases a with
  | addMember => exact hmap (fun _ _ => addMember_announced) h
  | addMembers => exact hmap (fun _ _ => addMembers_announced) h
  | removeMember => exact hmap (fun _ _ => removeMember_announced) h
  | removeMembers => exact hmap (fun _ _ => removeMembers_announced) h
  | syncRule fault tenantID =>
    cases h
    unfold Group.syncRule
    split
    . rfl
    . rfl
    split
    . rfl
    split
    . rfl
    . dsimp only
      split <;> [rfl; split <;> [rfl; split <;> rfl]]

theorem MemberAction.groups_after (acts : List (Org.DB × MemberAction)) :
    (after db groupID acts).groups = db.groups := by
  induction acts generalizing db with
  | nil => rfl
  | cons a acts ih =>
    refine Eq.trans ih ?_
    dsimp only
    cases h : a.2.perform a.1 db groupID with
    | error => rfl
    | ok db' => exact groups_perform h

theorem MemberAction.after_filter_manual {acts : List (Org.DB × MemberAction)}
    (hg : db.groups.find? groupID = some g) (htype : g.type = .dynamic) (hno : ∀ a ∈ acts, ¬a.2.Removes g) :
    after db groupID acts = after db groupID (acts.filter (fun a => !a.2.manual)) := by
  induction acts generalizing db with
  | nil => rfl
  | cons a acts ih =>
    have hrest : ∀ b ∈ acts, ¬b.2.Removes g := fun b hb => hno b (mem_cons_of_mem a hb)
    cases hman : a.2.manual with
    | true =>
      -- a call by hand leaves the tables as they are, so it can be left out
      rcases perform_eq_error hg htype hman (hno a mem_cons_self) with ⟨e, he⟩
      simp only [filter_cons, hman]
      unfold after
      rw [foldl_cons, he]
      exact ih hg hrest
    | false =>
      simp only [filter_cons, hman]
      apply ih _ hrest
      exact (congrArg (·.find? groupID) (groups_after [a])).trans hg

theorem dynamic_members_by_rule_iff (db : DB) (groupID : Int) (g : UserGroup)
    (acts : List (Org.DB × MemberAction)) (hg : db.groups.find? groupID = some g) (htype : g.type = .dynamic) :
    (∀ before org a rest, acts = before ++ (org, a) :: rest → a.manual = true →
        ∃ e, a.perform org (after db groupID before) groupID = .error e)
      ∧ (after db groupID acts).allMemberIDs groupID
        = (after db groupID (acts.filter (fun a => !a.2.manual))).allMemberIDs groupID
      ↔
    ∀ a ∈ acts, ¬a.2.Removes g := by
  have hfind : ∀ before, (after db groupID before).groups.find? groupID = some g := by
    intro before
    rw [groups_after, hg]
  constructor
  . rintro ⟨hrefused, -⟩ ⟨org, a⟩ hmem hrem
    rcases append_of_mem hmem with ⟨before, rest, heq⟩
    have hman : a.manual = true := by
      cases a <;> first | rfl | exact hrem.elim
    rcases hrefused before org a rest heq hman with ⟨e, he⟩
    exact hrem.perform_ne_error (hfind before) e he
  . intro hno
    refine ⟨?_, ?_⟩
    . intro before org a rest heq hman
      apply perform_eq_error (hfind before) htype hman
      exact hno (org, a) (by simp [heq])
    . rw [after_filter_manual hg htype hno]

def dynamicGroup : DB where
  groups := ⟨[⟨5, 1, "staff", "staff", .dynamic, false⟩], by decide⟩
  members := ⟨[⟨5, 7⟩], by decide⟩
  rules := .empty
  details := .empty

def noUsers : Org.DB := ⟨.empty, .empty, .empty, by simp⟩

theorem dynamicGroup_without_member :
    ((removeMembers dynamicGroup 1 5 [7]).toOption.map (fun out => out.1.allMemberIDs 5)) = some []
      ∧ dynamicGroup.allMemberIDs 5 = [7] := by
  decide

theorem dynamicGroup_refuses :
    let acts := [(noUsers, .removeMember 1 7), (noUsers, .syncRule .none 1), (noUsers, .addMembers 1 [8])]
    (∀ before org a rest, acts = before ++ (org, a) :: rest → a.manual = true →
        ∃ e, a.perform org (after dynamicGroup 5 before) 5 = .error e)
      ∧ (after dynamicGroup 5 acts).allMemberIDs 5
        = (after dynamicGroup 5 (acts.filter (fun a => !a.2.manual))).allMemberIDs 5 := by
  intro acts
  apply (dynamic_members_by_rule_iff dynamicGroup 5 ⟨5, 1, "staff", "staff", .dynamic, false⟩ acts rfl rfl).mpr
  simp [acts, MemberAction.Removes]

section Sync

variable {tenantID userID : Int} {rule : UserGroupRule} {conditions : List RuleCondition} {matched current : List Int}

theorem DB.mem_allMemberIDs : userID ∈ db.allMemberIDs groupID ↔ db.isMember groupID userID = true := by
  unfold allMemberIDs isMember
  simp [any_eq_true, and_assoc]

theorem DB.nodup_allMemberIDs : (db.allMemberIDs groupID).Nodup := by
  apply List.Nodup.map_on _ (db.members.nodup_rows.filter _)
  intro m hm m' hm' h
  simp only [mem_filter, decide_eq_true_eq] at hm hm'
  apply UserGroupMember.eq_of_key_eq
  rw [UserGroupMember.key, UserGroupMember.key, hm.2, hm'.2, h]

theorem DB.nodup_evaluateRule : (db.evaluateRule org tenantID conditions).Nodup :=
  org.users.table.nodup.sublist (filter_sublist.map _)

theorem length_filter_notMem (h : matched.Nodup) :
    (matched.filter (· ∉ current)).length = (matched.toFinset \ current.toFinset).card := by
  rw [← toFinset_card_of_nodup (h.filter _)]
  congr 1
  ext
  simp

def DB.insertMatched (db : DB) (groupID : Int) (matched : List Int) : DB :=
  db.insertMembers groupID (diffMembers matched (db.allMemberIDs groupID)).1

def DB.syncMembers (db : DB) (groupID : Int) (matched : List Int) : DB :=
  (db.insertMatched groupID matched).deleteMembers groupID (diffMembers matched (db.allMemberIDs groupID)).2

theorem DB.mem_allMemberIDs_syncMembers :
    userID ∈ (db.syncMembers groupID matched).allMemberIDs groupID ↔ userID ∈ matched := by
  unfold syncMembers insertMatched diffMembers
  simp only [mem_allMemberIDs, isMember_deleteMembers, isMember_insertMembers, mem_filter]
  grind

inductive SyncStep (db : DB) (groupID : Int) (matched : List Int) : DB × Except GroupError SyncReport → Prop
  | unchanged {e} : SyncStep db groupID matched (db, .error e)
  | added {e} : SyncStep db groupID matched (db.insertMatched groupID matched, .error e)
  | removed {e} : SyncStep db groupID matched (db.syncMembers groupID matched, .error e)
  | marked : SyncStep db groupID matched (db.syncMembers groupID matched,
    .ok ⟨(diffMembers matched (db.allMemberIDs groupID)).1.length,
      (diffMembers matched (db.allMemberIDs groupID)).2.length⟩)

theorem syncRule_syncStep (hg : db.getByID tenantID groupID = some g) (hrule : db.rules.find? groupID = some rule)
    (henabled : rule.status = .enabled) (hexpr : rule.expr = some conditions) (fault : SyncFault) :
    SyncStep db groupID (db.evaluateRule org g.tenantID conditions) (syncRule org db fault tenantID groupID) := by
  unfold syncRule
  simp only [hg, hrule, henabled, hexpr, ne_eq, not_true_eq_false, if_false]
  split
  . exact .unchanged
  split
  . exact .unchanged
  split
  . exact .added
  split
  . exact .removed
  . exact .marked

theorem syncRule_of_mem_iff (db : DB) (hg : db.getByID tenantID groupID = some g)
    (hrule : db.rules.find? groupID = some rule) (henabled : rule.status = .enabled)
    (hexpr : rule.expr = some conditions)
    (h : ∀ userID, userID ∈ db.allMemberIDs groupID ↔ userID ∈ db.evaluateRule org g.tenantID conditions) :
    (syncRule org db .none tenantID groupID).2 = .ok ⟨0, 0⟩ := by
  simp [syncRule, hg, hrule, henabled, hexpr, diffMembers, h]

variable (org db groupID) in
/--
On success the members are the users the rule matches, and a second synchronisation has nothing to do; wherever a
synchronisation stops, it has removed nobody whom the rule matches.
-/
theorem syncRule_computes_rule (fault : SyncFault) (hg : db.getByID tenantID groupID = some g)
    (hrule : db.rules.find? groupID = some rule) (henabled : rule.status = .enabled) :
    (∀ db' report, syncRule org db fault tenantID groupID = (db', .ok report) →
        ∃ conditions, rule.expr = some conditions
          ∧ let matched := (db.evaluateRule org g.tenantID conditions).toFinset
            let current := (db.allMemberIDs groupID).toFinset
            (db'.allMemberIDs groupID).toFinset = matched
              ∧ report.added = (matched \ current).card ∧ report.removed = (current \ matched).card
              ∧ (syncRule org db' .none tenantID groupID).2 = .ok ⟨0, 0⟩)
      ∧ ∀ db' e, syncRule org db fault tenantID groupID = (db', .error e) →
        ∀ conditions, rule.expr = some conditions → ∀ userID ∈ db.evaluateRule org g.tenantID conditions,
          db.isMember groupID userID = true → db'.isMember groupID userID = true := by
  refine ⟨?_, ?_⟩
  . intro db' report h
    cases hexpr : rule.expr with
    | none => simp [syncRule, hg, hrule, henabled, hexpr] at h
    | some conditions =>
      have hstep := h ▸ syncRule_syncStep hg hrule henabled hexpr fault
      cases hstep
      refine ⟨conditions, rfl, ?_, length_filter_notMem nodup_evaluateRule,
        length_filter_notMem nodup_allMemberIDs, ?_⟩
      . ext userID
        rw [mem_toFinset, mem_toFinset, mem_allMemberIDs_syncMembers]
      . exact syncRule_of_mem_iff (db.syncMembers groupID _) hg hrule henabled hexpr
          (fun _ => mem_allMemberIDs_syncMembers)
  . intro db' e h conditions hexpr userID hmatch hmember
    have hstep := h ▸ syncRule_syncStep hg hrule henabled hexpr fault
    cases hstep with
    | unchanged => exact hmember
    | added => exact isMember_insertMembers.mpr (Or.inl hmember)
    | removed =>
      rw [← mem_allMemberIDs] at hmember ⊢
      exact mem_allMemberIDs_syncMembers.mpr hmatch

def ruledGroup : DB := { dynamicGroup with rules := ⟨[⟨5, some [.statusEq 1], .enabled⟩], by decide⟩ }

def activeUser : Org.DB :=
  ⟨.empty, .empty, ⟨[⟨8, 1, "bo", none, none, none, "", 1, false⟩], by decide⟩, by decide⟩

theorem ruledGroup_synced :
    ∃ db', syncRule activeUser ruledGroup .none 1 5 = (db', .ok ⟨1, 1⟩) ∧ (db'.allMemberIDs 5).toFinset = {8}
      ∧ (syncRule activeUser db' .none 1 5).2 = .ok ⟨0, 0⟩ := by
  have hsync := (syncRule_computes_rule activeUser ruledGroup 5 .none
    (rfl : ruledGroup.getByID 1 5 = some ⟨5, 1, "staff", "staff", .dynamic, false⟩) rfl rfl).1 _ ⟨1, 1⟩ rfl
  rcases hsync with ⟨conditions, hexpr, hmembers, _, _, hagain⟩
  cases hexpr
  exact ⟨_, rfl, hmembers, hagain⟩

end Sync

def RuleCondition.readsOrg : RuleCondition → Bool
  | .orgEq _ | .orgIn _ | .orgInSubtree _ => true
  | _ => false

def OwnHolds (org : Org.DB) (d : Option UserDetail) (u : User) (conditions : List RuleCondition) : Prop :=
  ∀ c ∈ conditions, c.readsOrg = false → c.holds org d u none = true

def OrgHolds (org : Org.DB) (u : User) (uo : Option Org.UserOrg) (conditions : List RuleCondition) : Prop :=
  ∀ c ∈ conditions, c.readsOrg = true → c.holds org none u uo = true

theorem RuleCondition.holds_iff {d : Option UserDetail} {u : User} {uo : Option Org.UserOrg} (c : RuleCondition) :
    c.holds org d u uo = true
      ↔
    (c.readsOrg = false → c.holds org d u none = true) ∧ (c.readsOrg = true → c.holds org none u uo = true) := by
  cases c <;> simp [readsOrg, holds]

theorem all_holds_iff {conditions : List RuleCondition} {d : Option UserDetail} {u : User} {uo : Option Org.UserOrg} :
    conditions.all (RuleCondition.holds org d u uo) = true
      ↔
    OwnHolds org d u conditions ∧ OrgHolds org u uo conditions := by
  unfold OwnHolds OrgHolds
  rw [all_eq_true, ← forall₂_and]
  exact forall₂_congr (fun c _ => c.holds_iff)

theorem some_mem_joined_iff {u : User} {m : Org.UserOrg} :
    some m ∈ joined org u ↔ m ∈ org.userOrgs.rows ∧ m.userID = u.id := by
  unfold joined
  split
  . next hnil =>
    have hnone := filter_eq_nil_iff.mp hnil
    simpa using hnone m
  . simp

theorem joined_eq_singleton {u : User} (h : none ∈ joined org u) : joined org u = [none] := by
  unfold joined at h ⊢
  split at h
  . rfl
  . simp at h

theorem mem_evaluateRule {tenantID userID : Int} {conditions : List RuleCondition} :
    userID ∈ db.evaluateRule org tenantID conditions
      ↔
    ∃ u ∈ org.users.table.rows, u.id = userID ∧ u.tenantID = tenantID ∧ u.deleted = false
      ∧ OwnHolds org (db.details.find? u.id) u conditions ∧ ∃ uo ∈ joined org u, OrgHolds org u uo conditions := by
  unfold DB.evaluateRule evaluateRule
  simp only [mem_map, mem_filter, Bool.and_eq_true, decide_eq_true_eq, Bool.not_eq_true', any_eq_true, all_holds_iff]
  constructor
  . rintro ⟨u, ⟨hu, ⟨htenant, hlive⟩, uo, huo, hown, horg⟩, hid⟩
    exact ⟨u, hu, hid, htenant, hlive, hown, uo, huo, horg⟩
  . rintro ⟨u, hu, hid, htenant, hlive, hown, uo, huo, horg⟩
    exact ⟨u, ⟨hu, ⟨htenant, hlive⟩, uo, huo, hown, horg⟩, hid⟩

/--
All conditions of a rule are checked on one row of the join with the memberships.
-/
theorem mem_evaluateRule_append (org : Org.DB) (db : DB) (tenantID : Int) (c₁ c₂ : List RuleCondition) :
    (∀ userID, userID ∈ db.evaluateRule org tenantID (c₁ ++ c₂)
        ↔ userID ∈ db.evaluateRule org tenantID c₁ ∧ userID ∈ db.evaluateRule org tenantID c₂)
      ↔
    ∀ u ∈ org.users.table.rows, u.tenantID = tenantID → u.deleted = false →
      OwnHolds org (db.details.find? u.id) u (c₁ ++ c₂) →
      ∀ m₁ ∈ org.userOrgs.rows, m₁.userID = u.id → OrgHolds org u (some m₁) c₁ →
      ∀ m₂ ∈ org.userOrgs.rows, m₂.userID = u.id → OrgHolds org u (some m₂) c₂ →
        ∃ m ∈ org.userOrgs.rows, m.userID = u.id ∧ OrgHolds org u (some m) (c₁ ++ c₂) := by
  simp only [mem_evaluateRule]
  constructor
  . intro h u hu htenant hlive hown m₁ hm₁ huser₁ horg₁ m₂ hm₂ huser₂ horg₂
    have hown := forall_mem_append.mp hown
    have hmeets := (h u.id).mpr ⟨⟨u, hu, rfl, htenant, hlive, hown.1, _, some_mem_joined_iff.mpr ⟨hm₁, huser₁⟩, horg₁⟩,
      u, hu, rfl, htenant, hlive, hown.2, _, some_mem_joined_iff.mpr ⟨hm₂, huser₂⟩, horg₂⟩
    rcases hmeets with ⟨u', hu', hid, _, _, _, uo, huo, horg⟩
    cases org.users.table.eq_of_key_eq hu' hu hid
    cases uo with
    | none =>
      have hnone := some_mem_joined_iff.mpr ⟨hm₁, huser₁⟩
      rw [joined_eq_singleton huo] at hnone
      simp at hnone
    | some m =>
      rcases some_mem_joined_iff.mp huo with ⟨hm, huser⟩
      exact ⟨m, hm, huser, horg⟩
  . intro h userID
    constructor
    . rintro ⟨u, hu, hid, htenant, hlive, hown, uo, huo, horg⟩
      have hown := forall_mem_append.mp hown
      have horg := forall_mem_append.mp horg
      exact ⟨⟨u, hu, hid, htenant, hlive, hown.1, uo, huo, horg.1⟩, u, hu, hid, htenant, hlive, hown.2, uo, huo, horg.2⟩
    . rintro ⟨⟨u, hu, hid, htenant, hlive, hown₁, uo₁, huo₁, horg₁⟩, u', hu', hid', _, _, hown₂, uo₂, huo₂, horg₂⟩
      cases org.users.table.eq_of_key_eq hu' hu (hid'.trans hid.symm)
      have hown := forall_mem_append.mpr ⟨hown₁, hown₂⟩
      refine ⟨u, hu, hid, htenant, hlive, hown, ?_⟩
      -- a user without memberships has a single row, in which the membership is null
      cases uo₁ with
      | none =>
        rw [joined_eq_singleton huo₁, mem_singleton] at huo₂
        subst huo₂
        exact ⟨none, huo₁, forall_mem_append.mpr ⟨horg₁, horg₂⟩⟩
      | some m₁ =>
        cases uo₂ with
        | none =>
          rw [joined_eq_singleton huo₂] at huo₁
          simp at huo₁
        | some m₂ =>
          rcases some_mem_joined_iff.mp huo₁ with ⟨hm₁, huser₁⟩
          rcases some_mem_joined_iff.mp huo₂ with ⟨hm₂, huser₂⟩
          rcases h u hu htenant hlive hown m₁ hm₁ huser₁ horg₁ m₂ hm₂ huser₂ horg₂ with ⟨m, hm, huser, horg⟩
          exact ⟨some m, some_mem_joined_iff.mpr ⟨hm, huser⟩, horg⟩

def memberOfTwoOrgs : Org.DB :=
  { activeUser with userOrgs := ⟨[⟨1, 8, 10, true, 0⟩, ⟨2, 8, 11, false, 0⟩], by decide⟩ }

theorem member_of_both_orgs_not_selected :
    8 ∈ ruledGroup.evaluateRule memberOfTwoOrgs 1 [.orgEq 10]
      ∧ 8 ∈ ruledGroup.evaluateRule memberOfTwoOrgs 1 [.orgEq 11]
      ∧ 8 ∉ ruledGroup.evaluateRule memberOfTwoOrgs 1 ([.orgEq 10] ++ [.orgEq 11]) := by
  decide

theorem active_member_selected : 8 ∈ ruledGroup.evaluateRule memberOfTwoOrgs 1 ([.orgEq 11] ++ [.statusEq 1]) :=
  ((mem_evaluateRule_append memberOfTwoOrgs ruledGroup 1 [.orgEq 11] [.statusEq 1]).mpr
    (by unfold OwnHolds OrgHolds; decide) 8).mpr (by decide)

section Literal

variable {fold : Char → Char} (hfold : ∀ w ∈ ['%', '_', '\\'], ∀ c, fold c = w ↔ c = w)
include hfold

theorem tokens_escapeLike (s rest : List Char) :
    tokens ((escapeLike s ++ rest).map fold) = (s.map fold).map .char ++ tokens (rest.map fold) := by
  have hback : ∀ c, fold c = '\\' ↔ c = '\\' := hfold _ (by simp)
  induction s with
  | nil => rfl
  | cons c s ih =>
    have hcons : escapeLike (c :: s) = (if c = '\\' ∨ c = '%' ∨ c = '_' then ['\\', c] else [c]) ++ escapeLike s :=
      flatMap_cons
    rw [hcons]
    split
    . simp only [cons_append, nil_append, map_cons, (hback _).mpr rfl, tokens, if_true, ih]
    . next hplain =>
      rw [not_or, not_or] at hplain
      have hmany := (hfold '%' (by simp) c).not.mpr hplain.2.1
      have hone := (hfold '_' (by simp) c).not.mpr hplain.2.2
      simp only [cons_append, nil_append, map_cons]
      rw [tokens_cons ((hback c).not.mpr hplain.1), token_eq_char hmany hone, ih]

theorem like_escapeLike (s t : List Char) :
    (like (('%' :: escapeLike s ++ ['%']).map fold) (t.map fold) = true ↔ s.map fold <:+: t.map fold)
      ∧ (like ((escapeLike s ++ ['%']).map fold) (t.map fold) = true ↔ s.map fold <+: t.map fold)
      ∧ (like (('%' :: escapeLike s).map fold) (t.map fold) = true ↔ s.map fold <:+ t.map fold) := by
  have hmany : fold '%' = '%' := (hfold '%' (by simp) '%').mpr rfl
  have hstarts := tokens_escapeLike hfold s ['%']
  have hexact := tokens_escapeLike hfold s []
  rw [append_nil, map_nil] at hexact
  rw [map_singleton, hmany] at hstarts
  have hcons : ∀ p, tokens ('%' :: p) = .many :: tokens p := fun p => tokens_cons (by decide)
  unfold like
  rw [cons_append, map_cons, map_cons, hmany, hcons, hcons, hstarts, hexact]
  refine ⟨?_, accepts_char_many_iff, ?_⟩
  . rw [accepts_many_cons_iff, infix_iff_prefix_suffix]
    exact exists_congr (fun t' => (and_congr_right (fun _ => accepts_char_many_iff)).trans and_comm)
  . simp only [accepts_many_cons_iff, tokens, append_nil, accepts_char_iff, exists_eq_right]

end Literal

theorem toLower_eq_iff : ∀ w ∈ ['%', '_', '\\'], ∀ c, Char.toLower c = w ↔ c = w := by
  intro w hw c
  have hcode : w.val.toNat = 37 ∨ w.val.toNat = 95 ∨ w.val.toNat = 92 := by
    simp only [mem_cons, not_mem_nil, or_false] at hw
    rcases hw with rfl | rfl | rfl <;> decide
  unfold Char.toLower
  split
  . next h =>
    have hlow : 65 ≤ c.val.toNat := UInt32.le_iff_toNat_le.mp h.1
    have hhigh : c.val.toNat ≤ 90 := UInt32.le_iff_toNat_le.mp h.2
    apply iff_of_false
    . intro heq
      have hval : (c.val.toNat + 32) % 2 ^ 32 = w.val.toNat := congrArg (fun c => c.val.toNat) heq
      omega
    . rintro rfl
      omega
  . rfl

/--
Escaped text is matched literally, whatever way `ILIKE` folds the case.
-/
theorem escaped_matches_literally (fold : Char → Char) (hfold : ∀ w ∈ ['%', '_', '\\'], ∀ c, fold c = w ↔ c = w) :
    (∀ s t : List Char,
        (like (('%' :: escapeLike s ++ ['%']).map fold) (t.map fold) = true ↔ s.map fold <:+: t.map fold)
          ∧ (like ((escapeLike s ++ ['%']).map fold) (t.map fold) = true ↔ s.map fold <+: t.map fold)
          ∧ (like (('%' :: escapeLike s).map fold) (t.map fold) = true ↔ s.map fold <:+ t.map fold))
      ∧ ∀ value column : String,
        (TextCmp.contains.holds value column = true
            ↔ value.toList.map Char.toLower <:+: column.toList.map Char.toLower)
          ∧ (TextCmp.startswith.holds value column = true
            ↔ value.toList.map Char.toLower <+: column.toList.map Char.toLower)
          ∧ (TextCmp.endswith.holds value column = true
            ↔ value.toList.map Char.toLower <:+ column.toList.map Char.toLower) :=
  ⟨like_escapeLike hfold, fun value column => like_escapeLike toLower_eq_iff value.toList column.toList⟩

theorem percent_matched_literally :
    like ('%' :: escapeLike ['5', '%'] ++ ['%']) ['5', '%', '!'] = true
      ∧ like ('%' :: escapeLike ['5', '%'] ++ ['%']) ['5', '0', '%'] = false := by
  have h := fun t => ((escaped_matches_literally id (fun _ _ _ => Iff.rfl)).1 ['5', '%'] t).1
  simp only [map_id] at h
  rw [← Bool.not_eq_true, h, h]
  decide

end Mxid.Group
