import Mxid.Group.Impl.OrgSync
import Mxid.User.Lemmas.History

namespace Mxid

open List

namespace User

variable {s : Store} {scope : Scope} {id tenantID status : Int} {u : Account} {evt : Event}

theorem ends_update {req : UpdateUserRequest} :
    Ends (fun a s' => s' = s ∨ ∃ u, s.getByID scope id = some u
        ∧ a.events = [⟨.userUpdated, .map [("user_id", .int64 u.id), ("tenant_id", .int64 u.tenantID)]⟩]) s
      (update scope id tenantID req) := by
  apply ends_withUser (fun _ => .inl rfl)
  intro u hu
  refine ends_bind (queries_requireFreeIfNew (fun _ => rfl)) ?_
  intro reply
  split
  . exact ends_pure (.inl rfl)
  refine ends_bind (queries_requireFreeIfNew (fun _ => rfl)) ?_
  intro reply
  split
  . exact ends_pure (.inl rfl)
  refine ends_call (ends_pure (.inl rfl)) ?_
  rintro reply rfl
  simp only [Store.exec]
  split
  . cases s.save u (.update req) with
    | none => exact ends_pure (.inl rfl)
    | some => exact ends_pure (.inr ⟨u, hu, rfl⟩)
  . exact ends_pure (.inl rfl)

theorem Store.getByID_updateStatus (hu : s.getByID scope id = some u) :
    (s.updateStatus scope id status).getByID scope id = some (setStatus status u) := by
  rcases getByID_eq_some hu with ⟨hmem, hdeleted, hsees, rfl⟩
  refine getByID_of_mem (u := setStatus status u) ?_ hdeleted hsees
  exact mem_map.mpr ⟨u, hmem, if_pos (concerns_of_getByID hu)⟩

theorem Store.getByID_of_affects (h : s.affects scope id = true) : ∃ u, s.getByID scope id = some u := by
  rcases any_eq_true.mp h with ⟨u, hmem, hconcerns⟩
  simp only [concerns, visible, Bool.and_eq_true, decide_eq_true_eq, Bool.not_eq_true'] at hconcerns
  rcases hconcerns with ⟨rfl, hdeleted, hsees⟩
  exact ⟨u, getByID_of_mem hmem hdeleted hsees⟩

theorem Store.updateStatus_eq_self (h : s.affects scope id = false) : s.updateStatus scope id status = s := by
  unfold updateStatus write
  rw [h, s.users.update_eq_self]
  . rfl
  . simpa [affects] using h

/--
The second statement of `UpdateStatus` looks up the tenant.
-/
theorem exec_updateStatus (failures : List Nat) :
    ((updateStatus scope id status).exec semantics failures ⟨s, false⟩).2.data = s
      ∨ ∃ u, s.getByID scope id = some u
        ∧ ((updateStatus scope id status).exec semantics failures ⟨s, false⟩).1.events
          = [⟨if status = statusLocked then .userLocked else if status = statusActive then .userUnlocked
              else .userUpdated, .map [("user_id", .int64 id), ("status", .int status),
                ("tenant_id", .int64 (if failures.tail.headD 0 = 0 then u.tenantID else 0))]⟩] := by
  unfold updateStatus semantics
  by_cases hfirst : failures.headD 0 = 0
  . rw [Prog.exec_call_of_eq_zero hfirst]
    simp only [Store.exec, Scope.tell]
    cases husable : scope.usable with
    | false => exact .inl rfl
    | true =>
      cases haffects : s.affects scope id with
      | false =>
        left
        rw [Store.updateStatus_eq_self haffects]
        rfl
      | true =>
        rcases Store.getByID_of_affects haffects with ⟨u, hu⟩
        refine .inr ⟨u, hu, ?_⟩
        simp only [if_true]
        by_cases hsecond : failures.tail.headD 0 = 0
        . rw [Prog.exec_call_of_eq_zero hsecond]
          simp only [Store.exec, Scope.ask, husable, if_true, Store.getByID_updateStatus hu, if_pos hsecond]
          rfl
        . rw [Prog.exec_call_of_ne_zero hsecond, if_neg hsecond]
          rfl
  . rw [Prog.exec_call_of_ne_zero hfirst]
    exact .inl rfl

end User

namespace Group

variable {r : Roster} {tenantID : Int} {events : List Event}

theorem mem_scheduled :
    tenantID ∈ scheduled events
      ↔
    ∃ evt ∈ events, evt.type ∈ [.orgMemberAdded, .orgMemberRemoved, .orgMoved, .userUpdated]
      ∧ handleOrgMemberChange evt = some tenantID := by
  simp only [scheduled, mem_filterMap, mem_flatMap, id, exists_eq_right]
  refine exists_congr (fun evt => and_congr_right (fun _ => ?_))
  simp [Bus.publish, subscribeEvents, or_and_right, exists_or, eq_comm]

theorem handleOrgMemberChange_eq_some {type : EventType} {fields : List (String × Value)} :
    handleOrgMemberChange ⟨type, .map fields⟩ = some tenantID
      ↔
    tenantID ≠ 0 ∧ toInt64Any (fields.lookup "tenant_id") = tenantID := by
  unfold handleOrgMemberChange
  grind

theorem not_mem_scheduled (h : events.all User.untenanted = true) : tenantID ∉ scheduled events := by
  rw [mem_scheduled]
  rintro ⟨⟨type, payload⟩, hmem, htype, hhandler⟩
  have hevt := all_eq_true.mp h _ hmem
  cases payload with
  | other => cases hhandler
  | map fields =>
    rcases handleOrgMemberChange_eq_some.mp hhandler with ⟨hne, htenant⟩
    simp only [mem_cons, not_mem_nil, or_false] at htype
    rcases htype with rfl | rfl | rfl | rfl
    . cases hevt
    . cases hevt
    . cases hevt
    . rw [Option.isNone_iff_eq_none.mp hevt] at htenant
      exact hne htenant.symm

theorem Roster.events_user {a : User.Action} {scope : Scope} {id : Int} {evt : User.Account → Event}
    {conditions : List RuleCondition}
    (hchange : ((RosterOp.user a).run r).1.evaluateRule tenantID conditions ≠ r.evaluateRule tenantID conditions)
    (htells : (a.run r.store).2.data = r.store
      ∨ ∃ u, r.store.getByID scope id = some u ∧ (a.run r.store).1.events = [evt u]) :
    ∃ u, r.store.getByID scope id = some u ∧ ((RosterOp.user a).run r).2 = [evt u] := by
  rcases htells with hsame | htells
  . rw [RosterOp.run, hsame] at hchange
    exact absurd rfl hchange
  . exact htells

theorem Roster.scheduled_orgOutcome {result : Except Org.OrgError Org.DB} {evt : Event}
    {conditions : List RuleCondition}
    (hchange : (r.orgOutcome result evt).1.evaluateRule tenantID conditions ≠ r.evaluateRule tenantID conditions) :
    tenantID ∈ scheduled (r.orgOutcome result evt).2 ↔ tenantID ∈ scheduled [evt] := by
  cases result with
  | error => exact absurd rfl hchange
  | ok => rfl

/--
If an operation changes what some rule finds in a tenant, then `scheduleResync` is called with the tenant if and only if
its event is subscribed to and names the tenant.
-/
theorem scheduled_iff_heard (r : Roster) (op : RosterOp) (tenantID : Int) (conditions : List RuleCondition)
    (hchange : (op.run r).1.evaluateRule tenantID conditions ≠ r.evaluateRule tenantID conditions) :
    tenantID ∈ scheduled (op.run r).2 ↔ tenantID ≠ 0 ∧ op.heard r tenantID = true := by
  cases op with
  | user a =>
    rcases a with ⟨call, failures⟩
    cases hnames : call.namesTenant with
    | false =>
      have hproper := call.proper_prog
      rw [hnames] at hproper
      have hevents := hproper.sends.outcome (fun c s => c.replies_exec s) User.Cmd.replies_failed failures
        ⟨r.store, false⟩ rfl
      refine iff_of_false (not_mem_scheduled hevents) ?_
      cases call <;> first | contradiction | simp [RosterOp.heard]
    | true =>
      cases call with
      | update scope id tenant req =>
        rcases Roster.events_user hchange (Prog.exec_of_wp (User.ends_update.wp false) failures) with ⟨u, hu, hevents⟩
        rw [hevents, mem_scheduled]
        simp [handleOrgMemberChange_eq_some, toInt64Any, RosterOp.heard, Roster.userOf, hu, List.lookup_cons]
      | updateStatus scope id status =>
        rcases Roster.events_user hchange (User.exec_updateStatus failures) with ⟨u, hu, hevents⟩
        rw [hevents, mem_scheduled]
        simp only [RosterOp.heard, Roster.userOf, hu]
        generalize failures.tail.headD 0 = lookup
        by_cases hlocked : status = User.statusLocked
        . simp [hlocked]
        by_cases hactive : status = User.statusActive
        . simp [hactive, User.statusActive, User.statusLocked]
        by_cases hlookup : lookup = 0
        . simp [hlocked, hactive, hlookup, handleOrgMemberChange_eq_some, toInt64Any, List.lookup_cons]
        . simp [hlocked, hactive, hlookup, handleOrgMemberChange, toInt64Any, List.lookup_cons]
      | _ => contradiction
  | upsertDetail scope id req =>
    cases hu : r.store.getByID scope id with
    | none =>
      rw [RosterOp.run, hu] at hchange
      exact absurd rfl hchange
    | some u =>
      simp [RosterOp.run, hu, mem_scheduled, handleOrgMemberChange_eq_some, toInt64Any, RosterOp.heard, Roster.userOf,
        List.lookup_cons]
  | addMember | removeMember | move =>
    rw [RosterOp.run, Roster.scheduled_orgOutcome hchange, mem_scheduled]
    simp [Authz.orgMemberEvent, handleOrgMemberChange_eq_some, toInt64Any, RosterOp.heard]
  | deleteOrg =>
    rw [RosterOp.run, Roster.scheduled_orgOutcome hchange, mem_scheduled]
    simp [handleOrgMemberChange, RosterOp.heard]

def roster : Roster := ⟨User.HalfDeleted.store, Table.empty, Table.empty, Table.empty⟩

theorem disabled_user_resynced :
    1 ∈ scheduled ((RosterOp.user ⟨.updateStatus .all 7 User.statusDisabled, []⟩).run roster).2 :=
  (scheduled_iff_heard roster (.user ⟨.updateStatus .all 7 User.statusDisabled, []⟩) 1 [.statusEq User.statusActive]
    (by decide)).mpr (by decide)

theorem locked_user_not_resynced :
    ((RosterOp.user ⟨.lockUser .all 7 9 "", []⟩).run roster).1.evaluateRule 1 [.statusEq User.statusActive]
        ≠ roster.evaluateRule 1 [.statusEq User.statusActive]
      ∧ scheduled ((RosterOp.user ⟨.lockUser .all 7 9 "", []⟩).run roster).2 = [] := by
  decide

end Group
end Mxid
