import Mxid.Authz.Impl.Mutation
import Mxid.User.Impl.System

namespace Mxid

theorem User.Store.nodup_toUser (s : User.Store) : ((s.users.rows.map User.Account.toUser).map User.id).Nodup := by
  rw [List.map_map]
  exact s.users.nodup

theorem User.Store.toUser_pos (s : User.Store) : ∀ u ∈ s.users.rows.map User.Account.toUser, 0 < u.id := by
  intro u hu
  rcases List.mem_map.mp hu with ⟨account, _, rfl⟩
  exact account.id_pos

def User.Store.repository (s : User.Store) : User.Repository := ⟨⟨_, s.nodup_toUser⟩, s.toUser_pos⟩

namespace Group

def toInt64Any : Option Value → Int
  | some (.int64 n) | some (.int n) => n
  | _ => 0

def handleOrgMemberChange (evt : Event) : Option Int :=
  match evt.payload with
  | .other => none
  | .map p => if toInt64Any (p.lookup "tenant_id") = 0 then none else some (toInt64Any (p.lookup "tenant_id"))

def subscribeEvents : Bus (Option Int) :=
  [(.orgMemberAdded, handleOrgMemberChange), (.orgMemberRemoved, handleOrgMemberChange),
   (.orgMoved, handleOrgMemberChange), (.userUpdated, handleOrgMemberChange)]

inductive Phase where
  | fired
  | unlocked
  | running
  | returned
  deriving DecidableEq

/--
Timers and callbacks are listed with their tenants, timers with whether they are pending. The last field is not stored
anywhere, it lists the tenants in the order in which `ResyncTenantDynamicGroups` was started for them.
-/
structure Resyncs where
  resyncTimers : Int → Option Nat
  timers : List (Int × Bool)
  callbacks : List (Int × Phase)
  started : List Int

inductive ResyncAction where
  | scheduleResync (tenantID : Int)
  | expire (timer : Nat)
  | proceed (callback : Nat)

namespace Resyncs

variable (s : Resyncs)

def empty : Resyncs := ⟨fun _ => none, [], [], []⟩

def step : ResyncAction → Option Resyncs
  | .scheduleResync tenantID =>
    match s.resyncTimers tenantID with
    | some i => some { s with timers := s.timers.modify i (fun timer => (timer.1, true)) }
    | none =>
      some { s with
        resyncTimers := Function.update s.resyncTimers tenantID (some s.timers.length)
        timers := s.timers ++ [(tenantID, true)] }
  | .expire i =>
    match s.timers[i]? with
    | some (tenantID, true) =>
      some { s with timers := s.timers.set i (tenantID, false), callbacks := s.callbacks ++ [(tenantID, .fired)] }
    | _ => none
  | .proceed i =>
    match s.callbacks[i]? with
    | some (tenantID, .fired) =>
      some { s with
        resyncTimers := Function.update s.resyncTimers tenantID none
        callbacks := s.callbacks.set i (tenantID, .unlocked) }
    | some (tenantID, .unlocked) =>
      some { s with callbacks := s.callbacks.set i (tenantID, .running), started := s.started ++ [tenantID] }
    | some (tenantID, .running) => some { s with callbacks := s.callbacks.set i (tenantID, .returned) }
    | _ => none

end Resyncs

structure Roster where
  store : User.Store
  details : Table UserDetail.userID
  orgs : Table Organization.id
  userOrgs : Table Org.UserOrg.id

namespace Roster

variable (r : Roster)

def org : Org.DB := ⟨r.orgs, r.userOrgs, r.store.repository⟩

def evaluateRule : (tenantID : Int) → (conditions : List RuleCondition) → List Int :=
  DB.evaluateRule ⟨.empty, .empty, .empty, r.details⟩ r.org

def userOf (tenantID : Int) (scope : Scope) (id : Int) : Bool :=
  (r.store.getByID scope id).any (fun u => u.tenantID = tenantID)

end Roster

def patch (new old : Option String) : Option String := new.elim old User.nonempty

structure UpdateDetailRequest where
  department : Option String
  jobTitle : Option String
  employeeNo : Option String

def UpdateDetailRequest.apply (req : UpdateDetailRequest) (d : UserDetail) : UserDetail :=
  { d with
    department := patch req.department d.department
    jobTitle := patch req.jobTitle d.jobTitle
    employeeNo := patch req.employeeNo d.employeeNo }

inductive RosterOp where
  | user (a : User.Action)
  | upsertDetail (scope : Scope) (userID : Int) (req : UpdateDetailRequest)
  | addMember (tenantID orgID relID createdAt : Int) (req : Org.AddMemberRequest)
  | removeMember (tenantID userID orgID : Int)
  | move (reading : Org.SubstringFrom) (tenantID id : Int) (parentID : Option Int)
  | deleteOrg (tenantID id : Int)

def Roster.orgOutcome (r : Roster) (result : Except Org.OrgError Org.DB) (evt : Event) : Roster × List Event :=
  match result with
  | .error _ => (r, [])
  | .ok db => ({ r with orgs := db.orgs, userOrgs := db.userOrgs }, [evt])

def RosterOp.run (r : Roster) : RosterOp → Roster × List Event
  | .user a => ({ r with store := (a.run r.store).2.data }, (a.run r.store).1.events)
  | .upsertDetail scope userID req =>
    match r.store.getByID scope userID with
    | none => (r, [])
    | some u =>
      ({ r with
          details := r.details.upsert (req.apply ((r.details.find? userID).getD ⟨userID, none, none, none⟩)) },
        [⟨.userUpdated, .map [("user_id", .int64 userID), ("tenant_id", .int64 u.tenantID)]⟩])
  | .addMember tenantID orgID relID createdAt req =>
    r.orgOutcome (Org.addMember r.org tenantID orgID relID createdAt req)
      (Authz.orgMemberEvent .orgMemberAdded tenantID req.userID orgID)
  | .removeMember tenantID userID orgID =>
    r.orgOutcome (Org.removeMember r.org tenantID userID orgID)
      (Authz.orgMemberEvent .orgMemberRemoved tenantID userID orgID)
  | .move reading tenantID id parentID =>
    r.orgOutcome (Org.move r.org reading tenantID id parentID)
      ⟨.orgMoved, .map [("tenant_id", .int64 tenantID), ("org_id", .int64 id)]⟩
  | .deleteOrg tenantID id => r.orgOutcome (Org.delete r.org tenantID id) ⟨.orgDeleted, .other⟩

/--
The operations whose event is subscribed to and names the tenant, with the tenant of the user or organization that
they are about. The lookup of the tenant is the second statement of `UpdateStatus`.
-/
def RosterOp.heard (r : Roster) (tenantID : Int) : RosterOp → Bool
  | .user ⟨.update scope id _ _, _⟩ => r.userOf tenantID scope id
  | .user ⟨.updateStatus scope id status, failures⟩ =>
    status ≠ User.statusLocked && status ≠ User.statusActive && failures.tail.headD 0 = 0
      && r.userOf tenantID scope id
  | .upsertDetail scope id _ => r.userOf tenantID scope id
  | .addMember tenantID' _ _ _ _ | .removeMember tenantID' _ _ | .move _ tenantID' _ _ => tenantID' = tenantID
  | _ => false

def scheduled (events : List Event) : List Int := (events.flatMap subscribeEvents.publish).filterMap id

end Group
end Mxid
