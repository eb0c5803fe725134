import Mxid.Authz.Lemmas.Announced
import Mxid.Authz.Lemmas.Edit

namespace Mxid.Authz

open List

def Op.onRole : Op → Option (Int × Int)
  | .setRolePermissions tenantID roleID _ | .addRoleMember _ tenantID roleID _ _
  | .removeRoleMember _ tenantID roleID _ => some (tenantID, roleID)
  | _ => none

def Tables.foreign (db : Tables) (tenantID roleID id : Int) : Bool :=
  id ≠ roleID || db.catalog.roles.rows.any (fun role => role.id = id && role.tenantID ≠ tenantID)

structure Framed (p : Int → Bool) (db db' : Tables) : Prop where
  bindings : db'.access.roleBindings.rows.filter (fun b => p b.roleID)
    = db.access.roleBindings.rows.filter (fun b => p b.roleID)
  permissions : db'.catalog.rolePermissions.filter (fun rp => p rp.roleID)
    = db.catalog.rolePermissions.filter (fun rp => p rp.roleID)

variable {db : Tables} {o : Outcome} {p : Int → Bool} {tenantID roleID id : Int} {role : Role}

theorem foreign_eq (h : db.catalog.getRoleByID tenantID roleID = some role) :
    db.foreign tenantID roleID id = decide (id ≠ roleID) := by
  rcases Catalog.getRoleByID_eq_some_iff.mp h with ⟨_, hfind, rfl, _⟩
  rcases db.catalog.roles.find?_eq_some_iff.mp hfind with ⟨hmem, rfl⟩
  unfold Tables.foreign
  by_cases hid : id = role.id
  . simp only [hid, ne_eq, not_true_eq_false, decide_false, Bool.false_or]
    rw [any_eq_false]
    intro role' hmem'
    simp only [Bool.and_eq_true, decide_eq_true_eq, not_and_not_right]
    intro heq
    rw [db.catalog.roles.eq_of_key_eq hmem' hmem heq]
  . simp [hid]

theorem Framed.of_setSuperAdmin {actorID targetID : Int} {makeSuper : Bool}
    (h : setSuperAdmin db actorID tenantID targetID makeSuper = .ok o) : Framed p db o.db := by
  rcases setSuperAdmin_eq_ok h with rfl | ⟨_, _, _, _, _, rfl⟩ <;> exact ⟨rfl, rfl⟩

theorem Framed.of_ofExcept {ε : Type} {r : Except ε Outcome} (h : ∀ o, r = .ok o → Framed p db o.db) :
    Framed p db (Outcome.ofExcept db r).db := by
  cases r with
  | error => exact ⟨rfl, rfl⟩
  | ok o => exact h o rfl

def Op.Strays (db : Tables) (tenantID roleID : Int) (op : Op) : Prop :=
  ∃ actorID, ∃ b ∈ db.access.roleBindings.rows, op = .removeRoleMember actorID tenantID roleID b.id
    ∧ b.roleID ≠ roleID
    ∧ ∃ role, db.catalog.getRoleByID tenantID roleID = some role ∧ role.code ≠ superAdminRoleCode

theorem framed_removeRoleMember_iff {actorID memberID : Int} :
    Framed (db.foreign tenantID roleID) db
        (Outcome.ofExcept db (removeRoleMember db actorID tenantID roleID memberID)).db
      ↔
    ¬(Op.removeRoleMember actorID tenantID roleID memberID).Strays db tenantID roleID := by
  constructor
  . rintro ⟨hbindings, _⟩ ⟨_, b, hb, hop, hne, role, hrole, hcode⟩
    cases hop
    have hmem : b ∈ db.access.roleBindings.rows.filter (fun b => db.foreign tenantID roleID b.roleID) := by
      simp [hb, foreign_eq hrole, hne]
    have hany : db.access.roleBindings.rows.any (fun b' => b'.id = b.id) = true :=
      any_eq_true.mpr ⟨b, hb, by simp⟩
    unfold removeRoleMember at hbindings
    simp only [hrole, hcode, if_false, hany, if_true, Outcome.ofExcept] at hbindings
    rw [← hbindings] at hmem
    simp [Table.rows_delete] at hmem
  . intro hno
    apply Framed.of_ofExcept
    intro o h
    unfold removeRoleMember at h
    split at h
    . contradiction
    next role hrole =>
    split at h
    . split at h
      . contradiction
      next hset =>
      cases h
      exact .of_setSuperAdmin hset
    . next hcode =>
      split at h
      . cases h
        refine ⟨?_, rfl⟩
        simp only [Table.rows_delete, filter_filter, foreign_eq hrole]
        apply filter_congr
        intro b hb
        by_cases hid : b.id = memberID
        . have : b.roleID = roleID := by
            by_contra hne
            exact hno ⟨actorID, b, hb, by rw [hid], hne, role, hrole, hcode⟩
          simp [this]
        . simp [hid]
      . contradiction

theorem role_operation_framed_iff (reading : Org.SubstringFrom) (serviceTenantID : Int) (db : Tables) (op : Op)
    (tenantID roleID : Int) (hop : op.onRole = some (tenantID, roleID)) :
    Framed (db.foreign tenantID roleID) db (run db reading serviceTenantID op).db
      ↔
    ¬op.Strays db tenantID roleID := by
  have hno : ∀ {op' : Op}, (∀ actorID memberID, op' ≠ .removeRoleMember actorID tenantID roleID memberID) →
      ¬op'.Strays db tenantID roleID := by
    rintro op' hne ⟨actorID, b, _, heq, _⟩
    exact hne actorID b.id heq
  cases op with
  | setRolePermissions =>
    cases hop
    refine iff_of_true (.of_ofExcept ?_) (hno (by rintro _ _ ⟨⟩))
    intro o h
    unfold setPermissions at h
    split at h
    . contradiction
    next catalog hset =>
    cases h
    refine ⟨rfl, ?_⟩
    rcases setRolePermissions_eq_ok hset with ⟨_, _, hreplaced, ⟨role, hrole⟩, _⟩
    simp only [foreign_eq hrole, hreplaced, Catalog.replaced, filter_append, filter_filter, Bool.and_self]
    simp
  | addRoleMember =>
    cases hop
    refine iff_of_true (.of_ofExcept ?_) (hno (by rintro _ _ ⟨⟩))
    intro o h
    rcases addRoleMember_eq_ok h with ⟨_, hset⟩ | ⟨row, roleBindings, ⟨role, hrole⟩, _, rfl, _, _, hinsert, rfl⟩
    . exact .of_setSuperAdmin hset
    refine ⟨?_, rfl⟩
    unfold Table.insert? at hinsert
    split at hinsert
    . contradiction
    cases hinsert
    rw [filter_append, filter_singleton, foreign_eq hrole]
    simp
  | removeRoleMember =>
    cases hop
    exact framed_removeRoleMember_iff
  | _ => contradiction

def twoTenants : Tables where
  org := ⟨.empty, .empty, .empty, User.no_users⟩
  superAdmins := []
  group := ⟨.empty, .empty, .empty, .empty⟩
  catalog := ⟨Table.empty.insertIgnore [⟨40, 1, "auditor", false⟩, ⟨50, 2, "editor", false⟩], .empty, [], by decide⟩
  systemRoles := []
  access := ⟨.empty, .empty, Table.empty.insertIgnore [⟨1, 50, .user, 7, none, none, none, none, 1⟩], .empty⟩

theorem member_of_other_tenant_removed :
    ¬Framed (twoTenants.foreign 1 40) twoTenants (run twoTenants .position 1 (.removeRoleMember 9 1 40 1)).db := by
  intro h
  exact absurd h.bindings (by decide)

theorem own_member_framed :
    Framed (twoTenants.foreign 2 50) twoTenants (run twoTenants .position 1 (.removeRoleMember 9 2 50 1)).db := by
  apply (role_operation_framed_iff .position 1 twoTenants (.removeRoleMember 9 2 50 1) 2 50 rfl).mpr
  rintro ⟨_, b, hb, _, hne, _⟩
  have hall : ∀ b ∈ twoTenants.access.roleBindings.rows, b.roleID = 50 := by decide
  exact hne (hall b hb)

end Mxid.Authz
