import Mxid.Access.Lemmas.Owner
import Mxid.Authz.Impl.Invalidation
import Mxid.Authz.Lemmas.Assign
import Mxid.Authz.Lemmas.Provider
import Mxid.Org.Lemmas.Path

namespace Mxid.Authz

open List Table Tables Payload Outcome

variable {db db' : Tables} {o : Outcome} {tenantID userID : Int} {entries : List (String × Value)}

theorem covers_publish_iff {type : EventType} (key : String)
    (hkey : wireAuthzCacheInvalidation.publish ⟨type, .map entries⟩
      = [invalidateFromPayload key ⟨type, .map entries⟩]) :
    (wireAuthzCacheInvalidation.publish ⟨type, .map entries⟩).any (Invalidation.covers tenantID userID) = true
      ↔
    int64 entries key = 0
      ∨ int64 entries "tenant_id" = tenantID ∧ int64 entries key = userID := by
  rw [hkey, any_cons, any_nil, Bool.or_false]
  unfold invalidateFromPayload
  dsimp only
  split
  . next hzero => simp [Invalidation.covers, hzero]
  . next hne => simp [Invalidation.covers, hne]

def Covers (tenantID userID : Int) (db : Tables) (o : Outcome) : Prop :=
  o.invalidates tenantID userID = true ∨ SameFor tenantID userID db o.db

theorem covers_failed : Covers tenantID userID db (.failed db) :=
  Or.inr (SameFor.refl db)

structure Handled (op : Op) (tenantID userID : Int) (db : Tables) (o : Outcome) : Prop where
  owned : op.fresh db = true → o.db.access.Owned
  covers : op.announced tenantID = true → Covers tenantID userID db o
  announced : o.invalidates tenantID userID = true → op.announced tenantID = true

variable {op : Op}

namespace Handled

theorem failed (howned : db.access.Owned) : Handled op tenantID userID db (.failed db) where
  owned _ := howned
  covers _ := covers_failed
  announced h := by contradiction

theorem heard (howned : o.db.access.Owned) (hcovers : Covers tenantID userID db o)
    (h : op.announced tenantID = true) : Handled op tenantID userID db o :=
  ⟨fun _ => howned, fun _ => hcovers, fun _ => h⟩

theorem unheard (howned : o.db.access.Owned) (hunheard : o.invalidates tenantID userID = false)
    (h : op.announced tenantID = false) : Handled op tenantID userID db o where
  owned _ := howned
  covers hannounced := by
    rw [h] at hannounced
    contradiction
  announced hheard := by
    rw [hunheard] at hheard
    contradiction

/--
An operation that publishes one event, which names a user.
-/
theorem event {type : EventType} {t u : Int} (key : String)
    (howned : op.fresh db = true → db'.access.Owned)
    (hkey : wireAuthzCacheInvalidation.publish ⟨type, .map entries⟩
      = [invalidateFromPayload key ⟨type, .map entries⟩])
    (htenant : int64 entries "tenant_id" = t) (huser : int64 entries key = u)
    (hsame : op.announced tenantID = true → u ≠ 0 → ¬(tenantID = t ∧ userID = u) →
      SameFor tenantID userID db db')
    (hannounced : u = 0 ∨ tenantID = t → op.announced tenantID = true) :
    Handled op tenantID userID db ⟨db', [⟨type, .map entries⟩], []⟩ := by
  have hiff : invalidates ⟨db', [⟨type, .map entries⟩], []⟩ tenantID userID = true
      ↔ u = 0 ∨ tenantID = t ∧ userID = u := by
    unfold invalidates invalidations
    dsimp only
    rw [flatMap_singleton, nil_append, covers_publish_iff key hkey, htenant, huser, eq_comm (b := tenantID),
      eq_comm (b := userID)]
  refine ⟨howned, fun hop => ?_, fun h => hannounced ((hiff.mp h).imp_right And.left)⟩
  by_cases h : u = 0 ∨ tenantID = t ∧ userID = u
  . exact Or.inl (hiff.mpr h)
  . rw [not_or] at h
    exact Or.inr (hsame hop h.1 h.2)

end Handled

section SuperAdmins

variable {actorID tenantID' targetID : Int} {makeSuper : Bool}

theorem getByID_eq_some {u : User} (h : db.org.users.getByID tenantID' targetID = some u) :
    u ∈ db.org.users.table.rows ∧ u.id = targetID ∧ u.tenantID = tenantID' := by
  rcases User.Repository.first_eq_some h with ⟨hmem, _, htenant, hid⟩
  exact ⟨hmem, of_decide_eq_true hid, htenant⟩

theorem setSuperAdmin_eq_ok (h : setSuperAdmin db actorID tenantID' targetID makeSuper = .ok o) :
    o = .failed db
      ∨ ∃ target ∈ db.org.users.table.rows, target.tenantID = tenantID'
        ∧ ∃ superAdmins, (∀ id, id ≠ target.id → (id ∈ superAdmins ↔ id ∈ db.superAdmins))
          ∧ o = ⟨{ db with superAdmins }, [superAdminEvent actorID tenantID' target makeSuper], []⟩ := by
  unfold setSuperAdmin at h
  split at h
  . contradiction
  next target htarget =>
  rcases getByID_eq_some htarget with ⟨hmem, hid, htenant⟩
  split at h
  . cases h
    exact Or.inl rfl
  split at h
  . contradiction
  cases h
  refine Or.inr ⟨target, hmem, htenant, _, ?_, rfl⟩
  intro id hne
  rw [hid] at hne
  cases makeSuper <;> simp [hne]

theorem Handled.superAdmin (howned : db.access.Owned) (hop : op.announced tenantID = true)
    (h : setSuperAdmin db actorID tenantID' targetID makeSuper = .ok o) : Handled op tenantID userID db o := by
  rcases setSuperAdmin_eq_ok h with rfl | ⟨target, hmem, rfl, superAdmins, hflags, rfl⟩
  . exact .failed howned
  refine .event "target_id" (fun _ => howned) (by cases makeSuper <;> rfl) rfl rfl ?_ (fun _ => hop)
  intro _ _ hne
  refine ⟨rfl, ?_, fun _ => Iff.rfl, fun _ => Iff.rfl, fun _ _ _ => Iff.rfl⟩
  unfold isSuperAdmin
  by_cases huser : userID = target.id
  . -- the only row with the id is in another tenant
    have hnone : db.org.users.table.rows.any
        (fun u => u.id = userID && u.tenantID = tenantID && !u.deleted) = false := by
      rw [any_eq_false]
      intro u' hu' h
      simp only [Bool.and_eq_true, decide_eq_true_eq] at h
      have hsame : u' = target := db.org.users.table.eq_of_key_eq hu' hmem (h.1.1.trans huser)
      rw [hsame] at h
      exact hne ⟨h.1.2.symm, huser⟩
    rw [hnone, Bool.and_false, Bool.and_false]
  . rw [decide_eq_decide.mpr (hflags userID huser)]

end SuperAdmins

section RoleMembers

variable {actorID tenantID' roleID nextID memberID : Int} {req : AddMemberRequest}

theorem addRoleMember_eq_ok (h : addRoleMember db actorID tenantID' roleID nextID req = .ok o) :
    (∃ userID, setSuperAdmin db actorID tenantID' userID true = .ok o)
      ∨ ∃ (row : Access.RoleBinding) (roleBindings : Table Access.RoleBinding.id),
        (∃ role, db.catalog.getRoleByID tenantID' roleID = some role)
        ∧ row.id = nextID ∧ row.roleID = roleID ∧ row.subjectType = req.subjectType.subjectType
        ∧ row.subjectID = req.subjectID ∧ db.access.roleBindings.insert? row = some roleBindings
        ∧ o = ⟨{ db with access.roleBindings := roleBindings }, [memberAddedEvent tenantID' roleID req], []⟩ := by
  unfold addRoleMember at h
  split at h
  . contradiction
  . split at h
    . contradiction
    next hset =>
    cases h
    exact Or.inl ⟨_, hset⟩
  . next b hadd =>
    split at h
    . contradiction
    next db' hinsert =>
    cases h
    rcases addMember_eq_ok hadd with ⟨_, _, hsuper⟩ | ⟨_, hrole, _, b', hb', hroleID, _, _, hid, htype, hsubject⟩
    . contradiction
    cases hb'
    unfold insertBinding at hinsert
    split at hinsert
    . contradiction
    split at hinsert
    . contradiction
    next hrow =>
    cases hinsert
    exact Or.inr ⟨b.row, _, hrole, hid, hroleID, congrArg RefType.subjectType htype, hsubject, hrow, rfl⟩

theorem Handled.addRoleMember (howned : db.access.Owned)
    (hfresh : op.fresh db = true → ∀ r ∈ db.access.requests.rows, r.bindingID ≠ some nextID)
    (hop : op.announced tenantID = true) (h : addRoleMember db actorID tenantID' roleID nextID req = .ok o) :
    Handled op tenantID userID db o := by
  rcases addRoleMember_eq_ok h with ⟨_, hset⟩ | ⟨row, roleBindings, hrole, rfl, hroleID, htype, hsubject, hinsert, rfl⟩
  . exact .superAdmin howned hop hset
  -- a payload without a user has everything invalidated
  refine .event (t := tenantID') (u := if req.subjectType = .user then req.subjectID else 0) "user_id" ?_ rfl rfl ?_ ?_
    (fun _ => hop)
  . intro hop r hr b' hb' hnames
    rcases (mem_of_insert? hinsert).mp hb' with rfl | hold
    . exact absurd hnames.2 (hfresh hop r hr)
    . exact howned r hr b' hold hnames
  . split <;> split <;> simp [int64, lookup_cons, *]
  intro _ hne hother
  split at hne
  . next huser =>
    rw [if_pos huser] at hother
    refine ⟨rfl, rfl, fun _ => Iff.rfl, fun _ => Iff.rfl, ?_⟩
    intro b hb hjoins
    rw [mem_of_insert? hinsert]
    apply or_iff_right
    -- the new row is selected for the subject only, and in the tenant of the role only
    rintro rfl
    apply hother
    unfold isSubject isSubjectOf at hb
    rw [htype, huser] at hb
    refine ⟨?_, (of_decide_eq_true hb).symm.trans hsubject⟩
    rcases hrole with ⟨role, hrole⟩
    rcases Catalog.getRoleByID_eq_some_iff.mp hrole with ⟨_, hfind, htenant, _⟩
    rcases db.catalog.roles.find?_eq_some_iff.mp hfind with ⟨hmem, hid⟩
    unfold joinsRole at hjoins
    rw [hroleID, any_eq_true] at hjoins
    rcases hjoins with ⟨role', hmem', hjoins⟩
    simp only [Bool.and_eq_true, decide_eq_true_eq] at hjoins
    have hsame : role' = role := db.catalog.roles.eq_of_key_eq hmem' hmem (hjoins.1.1.trans hid.symm)
    rw [← hjoins.1.2, hsame, htenant]
  . contradiction

end RoleMembers

theorem Handled.groupMembers {type : EventType} {tenantID' groupID : Int}
    {result : Except Group.GroupError (Group.DB × List Event)} (howned : db.access.Owned)
    (htype : type = .groupMemberAdded ∨ type = .groupMemberRemoved) (hop : op.announced tenantID = true)
    (hresult : ∀ group events, result = .ok (group, events) →
      Group.Announced type db.group tenantID' groupID group events) :
    Handled op tenantID userID db (.ofExcept db (groupOutcome db result)) := by
  unfold groupOutcome
  split
  . exact .failed howned
  next group events =>
  have hannounced := hresult group events rfl
  rcases hannounced.announced with ⟨g, userIDs, hg, rfl, hmembers⟩
  rcases Group.DB.getByID_eq_some hg with ⟨hmem, hid, rfl⟩
  refine .heard howned ?_ hop
  by_cases heq : tenantID = g.tenantID ∧ userID ∈ userIDs
  . left
    unfold invalidates invalidations
    rw [any_append, any_flatMap, Bool.or_eq_true]
    apply Or.inr
    rw [any_eq_true]
    refine ⟨_, mem_map_of_mem heq.2, ?_⟩
    apply (covers_publish_iff "user_id" (by rcases htype with rfl | rfl <;> rfl)).mpr
    simp [int64, lookup_cons, heq.1]
  . right
    refine ⟨rfl, rfl, ?_, fun _ => Iff.rfl, fun _ _ _ => Iff.rfl⟩
    apply groupIDs_congr hannounced.groups
    intro g' hg' htenant
    apply hmembers
    rintro ⟨hid', huser⟩
    have hsame : g' = g := db.group.groups.eq_of_key_eq hg' hmem (hid'.trans hid.symm)
    rw [hsame] at htenant
    exact heq ⟨htenant.symm, huser⟩

theorem Handled.orgMember {type : EventType} {tenantID' userID' orgID : Int} {result : Except Org.OrgError Org.DB}
    (howned : db.access.Owned) (htype : type = .orgMemberAdded ∨ type = .orgMemberRemoved)
    (hresult : ∀ org, result = .ok org → org.orgs = db.org.orgs ∧ org.users = db.org.users
      ∧ ∀ uo : Org.UserOrg, uo.userID ≠ userID' → (uo ∈ org.userOrgs.rows ↔ uo ∈ db.org.userOrgs.rows))
    (hop : ∀ org, result = .ok org → (op.announced tenantID = true ↔ tenantID = tenantID' ∨ userID' = 0)) :
    Handled op tenantID userID db
      (.ofExcept db (orgOutcome db result (orgMemberEvent type tenantID' userID' orgID))) := by
  unfold orgOutcome
  split
  . exact .failed howned
  next org =>
  rcases hresult org rfl with ⟨horgs, husers, huserOrgs⟩
  refine .event "user_id" (fun _ => howned) (by rcases htype with rfl | rfl <;> rfl) rfl rfl ?_
    (fun h => (hop org rfl).mpr h.symm)
  intro hannounced hne hother
  refine ⟨rfl, by unfold isSuperAdmin; rw [husers], fun _ => Iff.rfl, fun _ => ?_, fun _ _ _ => Iff.rfl⟩
  apply Org.DB.ancestorIDsForUser_congr horgs
  intro uo huser
  apply huserOrgs
  rintro rfl
  exact hother ⟨((hop org rfl).mp hannounced).resolve_right hne, huser.symm⟩

section Users

variable {tenantID' id : Int} {done : Purge}

theorem isSuperAdmin_congr (hflags : db'.superAdmins = db.superAdmins)
    (hrows : ∀ u : User, u.id = userID → (u ∈ db'.org.users.table.rows ↔ u ∈ db.org.users.table.rows)) :
    db'.isSuperAdmin tenantID userID = db.isSuperAdmin tenantID userID := by
  unfold isSuperAdmin
  rw [hflags]
  congr 1
  rw [Bool.eq_iff_iff, any_eq_true, any_eq_true]
  apply exists_congr
  intro u
  apply and_congr_left
  intro h
  simp only [Bool.and_eq_true, decide_eq_true_eq] at h
  exact hrows u h.1.1

theorem restore_eq_some {users : User.Repository} (h : db.org.users.restore tenantID' id = some users) :
    (∃ u ∈ db.org.users.table.rows, u.id = id)
      ∧ ∀ u : User, u.id ≠ id → (u ∈ users.table.rows ↔ u ∈ db.org.users.table.rows) := by
  unfold User.Repository.restore at h
  split at h
  . next hfound =>
    cases h
    rw [any_eq_true] at hfound
    rcases hfound.2 with ⟨u, hu, hid⟩
    simp only [Bool.and_eq_true, decide_eq_true_eq] at hid
    refine ⟨⟨u, hu, hid.1.1⟩, ?_⟩
    intro u hne
    refine mem_update_of_key_ne _ (User.Repository.id_setDeleted false) ?_ hne
    intro u h
    simp only [Bool.and_eq_true, decide_eq_true_eq] at h
    exact h.1.1
  . contradiction

theorem sameFor_deleteUser (hne : userID ≠ id) :
    SameFor tenantID userID db (purge { db with org.users := db.org.users.delete tenantID' id } done id) where
  catalog := rfl
  superAdmin := by
    refine isSuperAdmin_congr rfl ?_
    intro u hu
    unfold User.Repository.delete
    refine mem_update_of_key_ne _ (User.Repository.id_setDeleted true) ?_ (hu.trans_ne hne)
    intro u h
    simp only [Bool.and_eq_true, decide_eq_true_eq] at h
    exact h.1.1
  groups := by
    refine groupIDs_congr rfl ?_
    intro g _ _
    rw [Bool.eq_iff_iff, Group.DB.isMember_iff, Group.DB.isMember_iff]
    unfold purge
    simp [hne]
  orgs _ := by
    refine Org.DB.ancestorIDsForUser_congr rfl ?_
    intro uo huser
    unfold purge
    simp [huser, hne]
  bindings b hsubject _ := by
    unfold purge
    rw [rows_delete, mem_filter]
    apply and_iff_left
    cases htype : b.subjectType with
    | user =>
      unfold isSubject isSubjectOf at hsubject
      rw [htype] at hsubject
      simp [of_decide_eq_true hsubject, hne]
    | _ => simp

theorem Handled.user {type : EventType} {entries : List (String × Value)} (howned : db'.access.Owned)
    (htype : type = .userDeleted ∨ type = .userUpdated) (htenant : int64 entries "tenant_id" = 0)
    (huser : int64 entries "user_id" = id) (hid : ∃ u ∈ db.org.users.table.rows, u.id = id)
    (hop : op.announced tenantID = decide (tenantID = 0)) (hsame : userID ≠ id → SameFor tenantID userID db db') :
    Handled op tenantID userID db ⟨db', [⟨type, .map entries⟩], []⟩ := by
  rcases hid with ⟨u, hmem, rfl⟩
  have hpos := db.org.users.id_pos u hmem
  refine .event "user_id" (fun _ => howned) (by rcases htype with rfl | rfl <;> rfl) htenant huser ?_ ?_
  . intro hannounced _ hother
    rw [hop] at hannounced
    exact hsame (fun heq => hother ⟨of_decide_eq_true hannounced, heq⟩)
  . intro h
    rw [hop, h.resolve_left (by omega)]
    rfl

end Users

theorem Handled.access {now bindingID : Int} {call : Access.Call} {access : Access.DB} (howned : db.access.Owned)
    (hreq : call.req ∈ db.access.requests.rows) (hwrite : call.write db.access now bindingID = some access)
    (hdirect : accessInvalidations call = [.user call.req.tenantID call.req.requesterID])
    (hfresh : op.fresh db = true → ∀ req approverID expiresAt, call = .approve req approverID expiresAt →
      ∀ r ∈ db.access.requests.rows, r.bindingID ≠ some bindingID)
    (h : op.announced tenantID = decide (tenantID = call.req.tenantID)) :
    Handled op tenantID userID db ⟨{ db with access }, accessEvents call, accessInvalidations call⟩ := by
  have hiff : invalidates ⟨{ db with access }, accessEvents call, accessInvalidations call⟩ tenantID userID
        = true
      ↔ call.req.tenantID = tenantID ∧ call.req.requesterID = userID := by
    have hevents : (accessEvents call).flatMap wireAuthzCacheInvalidation.publish = [] := by
      cases call <;> rfl
    simp [invalidates, invalidations, hevents, hdirect, Invalidation.covers]
  refine ⟨fun hop => Access.Call.write_owned howned hreq (hfresh hop) hwrite, fun hannounced => ?_, fun hheard => ?_⟩
  . rw [h] at hannounced
    by_cases heq : userID = call.req.requesterID
    . exact Or.inl (hiff.mpr ⟨(of_decide_eq_true hannounced).symm, heq.symm⟩)
    . refine Or.inr ⟨rfl, rfl, fun _ => Iff.rfl, fun _ => Iff.rfl, ?_⟩
      intro b hsubject _
      apply Access.Call.write_bindings howned hreq hwrite
      rintro ⟨htype, hid⟩
      unfold isSubject isSubjectOf at hsubject
      rw [htype] at hsubject
      exact heq ((of_decide_eq_true hsubject).symm.trans hid)
  . rw [h]
    exact decide_eq_true (hiff.mp hheard).1.symm

end Mxid.Authz
