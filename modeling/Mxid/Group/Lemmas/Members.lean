import Mxid.Group.Impl.Service

/-!
This module contains what the operations on the members of a group do, and which of them they make known.
-/

namespace Mxid.Group

open List DB

section Tables

variable {db : DB} {groupID groupID' userID : Int} {userIDs : List Int}

theorem DB.isMember_iff : db.isMember groupID userID = true ↔ ⟨groupID, userID⟩ ∈ db.members.rows := by
  unfold isMember
  rw [any_eq_true]
  constructor
  . rintro ⟨⟨g, u⟩, hm, h⟩
    simp only [Bool.and_eq_true, decide_eq_true_eq] at h
    rw [← h.1, ← h.2]
    exact hm
  . intro hm
    exact ⟨_, hm, by simp⟩

theorem UserGroupMember.eq_of_key_eq {m m' : UserGroupMember} (h : m.key = m'.key) : m = m' := by
  cases m
  cases m'
  cases h
  rfl

theorem DB.isMember_insertMembers :
    (db.insertMembers groupID userIDs).isMember groupID' userID = true
      ↔
    db.isMember groupID' userID = true ∨ groupID' = groupID ∧ userID ∈ userIDs := by
  rw [isMember_iff, isMember_iff]
  constructor
  . intro hm
    rcases Table.mem_or_mem_of_mem_insertIgnore hm with hold | hnew
    . exact Or.inl hold
    rcases mem_map.mp hnew with ⟨u, hu, heq⟩
    cases heq
    exact Or.inr ⟨rfl, hu⟩
  . rintro (hold | ⟨rfl, hu⟩)
    . exact Table.mem_insertIgnore_of_mem _ hold
    have hmem : (⟨groupID', userID⟩ : UserGroupMember) ∈ userIDs.map (fun userID => ⟨groupID', userID⟩) :=
      mem_map.mpr ⟨userID, hu, rfl⟩
    rcases mem_map.mp (db.members.key_mem_insertIgnore hmem) with ⟨m, hm, hkey⟩
    rw [← UserGroupMember.eq_of_key_eq hkey]
    exact hm

theorem DB.isMember_deleteMembers :
    (db.deleteMembers groupID userIDs).isMember groupID' userID = true
      ↔
    db.isMember groupID' userID = true ∧ ¬(groupID' = groupID ∧ userID ∈ userIDs) := by
  rw [isMember_iff, isMember_iff]
  unfold deleteMembers
  simp [imp_iff_not_or]

theorem DB.getByID_eq_some {tenantID : Int} {g : UserGroup} (h : db.getByID tenantID groupID = some g) :
    g ∈ db.groups.rows ∧ g.id = groupID ∧ g.tenantID = tenantID := by
  unfold getByID at h
  split at h
  . rw [Option.filter_eq_some_iff, db.groups.find?_eq_some_iff, Bool.and_eq_true, decide_eq_true_eq] at h
    exact ⟨h.1.1, h.1.2, h.2.1⟩
  . contradiction

end Tables

structure Announced (type : EventType) (db : DB) (tenantID groupID : Int) (db' : DB) (events : List Event) : Prop where
  groups : db'.groups = db.groups
  announced : ∃ (g : UserGroup) (userIDs : List Int), db.getByID tenantID groupID = some g
    ∧ events = userIDs.map (memberEvent type g)
    ∧ ∀ groupID' userID, ¬(groupID' = groupID ∧ userID ∈ userIDs) →
      db'.isMember groupID' userID = db.isMember groupID' userID

section Service

variable {org : Org.DB} {db db' : DB} {tenantID groupID userID : Int} {userIDs : List Int} {events : List Event}
  {g : UserGroup} {type : EventType}

theorem requireGroup_bind_eq_ok {β : Type} {f : UserGroup → Except GroupError β} {b : β}
    (h : (requireGroup db tenantID groupID >>= f) = .ok b) :
    ∃ g, db.getByID tenantID groupID = some g ∧ f g = .ok b := by
  unfold requireGroup at h
  split at h
  . cases h
  . next g hg => exact ⟨g, hg, h⟩

theorem requireUsersInTenant_bind_eq_ok {β : Type} {f : Unit → Except GroupError β} {b : β}
    (h : (requireUsersInTenant org tenantID userIDs >>= f) = .ok b) : f () = .ok b := by
  unfold requireUsersInTenant at h
  split at h
  . exact h
  . cases h

theorem announced_insertMembers (hg : db.getByID tenantID groupID = some g) (userIDs : List Int) :
    Announced type db tenantID groupID (db.insertMembers groupID userIDs) (userIDs.map (memberEvent type g)) := by
  refine ⟨rfl, g, userIDs, hg, rfl, ?_⟩
  intro groupID' userID hne
  rw [Bool.eq_iff_iff, isMember_insertMembers, or_iff_left hne]

theorem announced_deleteMembers (hg : db.getByID tenantID groupID = some g) (userIDs : List Int) :
    Announced type db tenantID groupID (db.deleteMembers groupID userIDs) (userIDs.map (memberEvent type g)) := by
  refine ⟨rfl, g, userIDs, hg, rfl, ?_⟩
  intro groupID' userID hne
  rw [Bool.eq_iff_iff, isMember_deleteMembers, and_iff_left hne]

theorem filter_skipped (p : Int → Bool) :
    userIDs.filter (· ∉ userIDs.filter p) = userIDs.filter (fun userID => !p userID) := by
  apply filter_congr
  intro userID hmem
  cases hp : p userID <;> simp [hmem, hp]

theorem addMember_announced (h : addMember org db tenantID groupID userID = .ok (db', events)) :
    Announced .groupMemberAdded db tenantID groupID db' events := by
  rcases requireGroup_bind_eq_ok h with ⟨g, hg, h⟩
  split at h
  . cases h
  . cases requireUsersInTenant_bind_eq_ok h
    exact announced_insertMembers hg [userID]

theorem addMembers_announced (h : addMembers org db tenantID groupID userIDs = .ok (db', events)) :
    Announced .groupMemberAdded db tenantID groupID db' events := by
  rcases requireGroup_bind_eq_ok h with ⟨g, hg, h⟩
  split at h
  . cases h
  cases requireUsersInTenant_bind_eq_ok h
  rw [filter_skipped]
  exact announced_insertMembers hg _

theorem removeMember_announced (h : removeMember db tenantID groupID userID = .ok (db', events)) :
    Announced .groupMemberRemoved db tenantID groupID db' events := by
  rcases requireGroup_bind_eq_ok h with ⟨g, hg, h⟩
  split at h
  . cases h
  . cases h
    exact announced_deleteMembers hg [userID]

theorem removeMembers_announced (h : removeMembers db tenantID groupID userIDs = .ok (db', events)) :
    Announced .groupMemberRemoved db tenantID groupID db' events := by
  rcases requireGroup_bind_eq_ok h with ⟨g, hg, h⟩
  cases h
  rw [filter_skipped]
  simp only [Bool.not_not]
  exact announced_deleteMembers hg _

end Service

end Mxid.Group
