import Mxid.Authz.Impl.Mutation
import Mxid.Data.Run

namespace Mxid.Authz

def invalidateAll (_ : Event) : Invalidation := .all

def invalidateFromPayload (key : String) (evt : Event) : Invalidation :=
  match evt.payload with
  | .other => .all
  | .map entries =>
    if Payload.int64 entries key = 0 then
      .all
    else
      .user (Payload.int64 entries "tenant_id") (Payload.int64 entries key)

def invalidateUserFromPayload : Event → Invalidation := invalidateFromPayload "user_id"

def invalidateTargetFromPayload : Event → Invalidation := invalidateFromPayload "target_id"

def wireAuthzCacheInvalidation : Bus Invalidation :=
  [(.roleCreated, invalidateAll), (.roleUpdated, invalidateAll), (.roleDeleted, invalidateAll),
   (.rolePermissionsSet, invalidateAll),
   (.roleMemberAdded, invalidateUserFromPayload), (.roleMemberRemoved, invalidateUserFromPayload),
   (.groupMemberAdded, invalidateUserFromPayload), (.groupMemberRemoved, invalidateUserFromPayload),
   (.orgMemberAdded, invalidateUserFromPayload), (.orgMemberRemoved, invalidateUserFromPayload),
   (.userSuperAdminGrant, invalidateTargetFromPayload), (.userSuperAdminRevoke, invalidateTargetFromPayload),
   (.userUpdated, invalidateUserFromPayload), (.userLocked, invalidateUserFromPayload),
   (.userUnlocked, invalidateUserFromPayload), (.userDeleted, invalidateUserFromPayload),
   (.orgUpdated, invalidateAll), (.orgDeleted, invalidateAll)]

def Outcome.invalidations (o : Outcome) : List Invalidation :=
  o.direct ++ o.events.flatMap wireAuthzCacheInvalidation.publish

def Invalidation.covers (tenantID userID : Int) : Invalidation → Bool
  | .all => true
  | .user tenantID' userID' => tenantID' = tenantID && userID' = userID

def Outcome.invalidates (o : Outcome) (tenantID userID : Int) : Bool :=
  o.invalidations.any (Invalidation.covers tenantID userID)

/--
The operations whose effects on a tenant the cache hears about. Deleting groups, synchronizing them with their rules
and moving organizations publish events that nobody listens to. The events of a deletion or restoration of a user are
taken for the tenant zero. A membership in an organization and a grant are only made known for the tenant of the call.
-/
def Op.announced (tenantID : Int) : Op → Bool
  | .deleteGroup .. | .upsertRule .. | .syncRule .. | .deleteRule .. | .resyncTenantDynamicGroups ..
  | .moveOrg .. => false
  | .deleteUser .. | .restoreUser .. => tenantID = 0
  | .addOrgMember tenantID' _ _ _ _ => tenantID = tenantID'
  | .removeOrgMember tenantID' userID _ => tenantID = tenantID' || userID = 0
  | .approve _ tenantID' _ _ _ _ | .revoke tenantID' _ _ => tenantID = tenantID'
  | .expire req _ => tenantID = req.tenantID
  | _ => true

inductive Action where
  | op (op : Op)
  /-- Whatever else happens to the tables. Requests and bindings are left to the operations. -/
  | other (db : Tables)

/--
The generator does not hand out the id of a binding again that some request refers to.
-/
def Op.fresh (db : Tables) : Op → Bool
  | .addRoleMember _ _ _ nextID _ => db.access.requests.rows.all (fun r => r.bindingID ≠ some nextID)
  | .approve _ _ _ _ _ bindingID => db.access.requests.rows.all (fun r => r.bindingID ≠ some bindingID)
  | _ => true

def step (reading : Org.SubstringFrom) (serviceTenantID : Int) (db : Tables) : Action → Option Tables
  | .op op => if op.fresh db then some (run db reading serviceTenantID op).db else none
  | .other db' =>
    some { db' with access := { db.access with
      eligibilities := db'.access.eligibilities
      appRoleBindings := db'.access.appRoleBindings } }

end Mxid.Authz
