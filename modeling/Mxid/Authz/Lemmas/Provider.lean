import Mxid.Access.Lemmas.Step
import Mxid.Authz.Impl.Mutation
import Mxid.Group.Lemmas.Members

namespace Mxid

open List

namespace Org

variable {db db' : DB} {tenantID userID id : Int}

theorem DB.ancestorIDsForUser_congr (horgs : db'.orgs = db.orgs)
    (huserOrgs : ∀ uo, uo.userID = userID → (uo ∈ db'.userOrgs.rows ↔ uo ∈ db.userOrgs.rows)) :
    id ∈ db'.ancestorIDsForUser tenantID userID ↔ id ∈ db.ancestorIDsForUser tenantID userID := by
  have hany : ∀ p : UserOrg → Prop,
      (∃ uo ∈ db'.userOrgs.rows, uo.userID = userID ∧ p uo) ↔ ∃ uo ∈ db.userOrgs.rows, uo.userID = userID ∧ p uo := by
    intro p
    constructor
    . rintro ⟨uo, huo, huser, hp⟩
      exact ⟨uo, (huserOrgs uo huser).mp huo, huser, hp⟩
    . rintro ⟨uo, huo, huser, hp⟩
      exact ⟨uo, (huserOrgs uo huser).mpr huo, huser, hp⟩
  simp only [ancestorIDsForUser, mem_map, mem_filter, any_eq_true, Bool.and_eq_true, Bool.not_eq_true',
    decide_eq_true_eq, and_assoc, horgs, hany]

end Org

namespace Authz

variable {db db' db'' : Tables} {tenantID userID : Int}

structure SameFor (tenantID userID : Int) (db db' : Tables) : Prop where
  catalog : db'.catalog = db.catalog
  superAdmin : db'.isSuperAdmin tenantID userID = db.isSuperAdmin tenantID userID
  groups : ∀ id, id ∈ db'.groupIDs tenantID userID ↔ id ∈ db.groupIDs tenantID userID
  orgs : ∀ id, id ∈ db'.org.ancestorIDsForUser tenantID userID ↔ id ∈ db.org.ancestorIDsForUser tenantID userID
  bindings : ∀ b, db.isSubject tenantID userID b = true → db.joinsRole tenantID b.roleID = true →
    (b ∈ db'.access.roleBindings.rows ↔ b ∈ db.access.roleBindings.rows)

namespace SameFor

theorem refl (db : Tables) : SameFor tenantID userID db db :=
  ⟨rfl, rfl, fun _ => Iff.rfl, fun _ => Iff.rfl, fun _ _ _ => Iff.rfl⟩

theorem of_roleBindings {access : Access.DB} (h : access.roleBindings = db.access.roleBindings) :
    SameFor tenantID userID db { db with access } :=
  ⟨rfl, rfl, fun _ => Iff.rfl, fun _ => Iff.rfl, fun _ _ _ => by rw [h]⟩

theorem isSubject (h : SameFor tenantID userID db db') (b : Access.RoleBinding) :
    db'.isSubject tenantID userID b = db.isSubject tenantID userID b := by
  unfold Tables.isSubject Tables.isSubjectOf
  split
  . rfl
  . rw [decide_eq_decide]
    exact h.groups _
  . rw [decide_eq_decide]
    exact h.orgs _
  . rfl

theorem selects (h : SameFor tenantID userID db db') (now : Int) (b : Access.RoleBinding) :
    db'.selects now tenantID userID b = db.selects now tenantID userID b := by
  unfold Tables.selects Tables.joins Tables.joinsRole
  rw [h.isSubject, h.catalog]

theorem effectiveBindingsForUser (h : SameFor tenantID userID db db') (now : Int) :
    db'.effectiveBindingsForUser now tenantID userID = db.effectiveBindingsForUser now tenantID userID := by
  rw [Tables.effectiveBindingsForUser_eq, Tables.effectiveBindingsForUser_eq, h.superAdmin, h.catalog]
  split
  . rfl
  ext b
  simp only [mem_toFinset, mem_map, mem_filter, h.selects]
  apply exists_congr
  intro row
  apply and_congr_left'
  apply and_congr_left
  intro hselects
  simp only [Tables.selects, Tables.joins, Bool.and_eq_true] at hselects
  exact h.bindings row hselects.2 hselects.1.1

end SameFor

theorem Tables.mem_groupIDs {id : Int} :
    id ∈ db.groupIDs tenantID userID
      ↔
    0 < tenantID ∧ ∃ g ∈ db.group.groups.rows, g.id = id ∧ g.tenantID = tenantID ∧ g.deleted = false
      ∧ db.group.isMember g.id userID = true := by
  unfold groupIDs Group.DB.listByUserID
  split
  . next hpos =>
    simp only [mem_map, mem_filter, Bool.and_eq_true, decide_eq_true_eq, Bool.not_eq_true', hpos, true_and]
    constructor
    . rintro ⟨g, ⟨hg, ⟨htenant, hdeleted⟩, hmember⟩, rfl⟩
      exact ⟨g, hg, rfl, htenant, hdeleted, hmember⟩
    . rintro ⟨g, hg, rfl, htenant, hdeleted, hmember⟩
      exact ⟨g, ⟨hg, ⟨htenant, hdeleted⟩, hmember⟩, rfl⟩
  . next hpos => simp [hpos]

theorem Tables.groupIDs_congr (hgroups : db'.group.groups = db.group.groups)
    (hmembers : ∀ g ∈ db.group.groups.rows, g.tenantID = tenantID →
      db'.group.isMember g.id userID = db.group.isMember g.id userID) (id : Int) :
    id ∈ db'.groupIDs tenantID userID ↔ id ∈ db.groupIDs tenantID userID := by
  rw [mem_groupIDs, mem_groupIDs, hgroups]
  apply and_congr_right'
  apply exists_congr
  intro g
  apply and_congr_right
  intro hg
  apply and_congr_right'
  apply and_congr_right
  intro htenant
  rw [hmembers g hg htenant]

end Authz
end Mxid
