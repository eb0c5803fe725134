import Mxid.Event.Impl.Bus
import Mxid.Group.Impl.Rule

namespace Mxid.Group

inductive GroupType where
  | static
  | dynamic
  deriving DecidableEq

structure UserGroup where
  id : Int
  tenantID : Int
  name : String
  code : String
  type : GroupType
  deleted : Bool

structure UserGroupMember where
  groupID : Int
  userID : Int

def UserGroupMember.key (m : UserGroupMember) : Int × Int := (m.groupID, m.userID)

structure UserDetail where
  userID : Int
  department : Option String
  jobTitle : Option String
  employeeNo : Option String

inductive TextField where
  | username
  | email
  | displayName
  | department
  | jobTitle
  | employeeNo

inductive TextCmp where
  | eq
  | ne
  | contains
  | startswith
  | endswith

inductive RuleCondition where
  | text (field : TextField) (cmp : TextCmp) (value : String)
  | statusEq (status : Int)
  | statusNe (status : Int)
  | statusIn (statuses : List Int)
  | orgEq (orgID : Int)
  | orgIn (orgIDs : List Int)
  | orgInSubtree (rootID : Int)

inductive RuleStatus where
  | enabled
  | paused
  deriving DecidableEq

structure UserGroupRule where
  groupID : Int
  expr : Option (List RuleCondition)
  status : RuleStatus

def TextField.column (u : User) (d : Option UserDetail) : TextField → Option String
  | .username => some u.username
  | .email => u.email
  | .displayName => u.displayName
  | .department => d.bind UserDetail.department
  | .jobTitle => d.bind UserDetail.jobTitle
  | .employeeNo => d.bind UserDetail.employeeNo

def escapeLike (text : List Char) : List Char :=
  text.flatMap (fun c => if c = '\\' ∨ c = '%' ∨ c = '_' then ['\\', c] else [c])

def ilike (pattern text : List Char) : Bool :=
  like (pattern.map Char.toLower) (text.map Char.toLower)

def TextCmp.holds (value column : String) : TextCmp → Bool
  | .eq => column = value
  | .ne => column ≠ value
  | .contains => ilike ('%' :: escapeLike value.toList ++ ['%']) column.toList
  | .startswith => ilike (escapeLike value.toList ++ ['%']) column.toList
  | .endswith => ilike ('%' :: escapeLike value.toList) column.toList

def RuleCondition.holds (org : Org.DB) (d : Option UserDetail) (u : User) (uo : Option Org.UserOrg) :
    RuleCondition → Bool
  | .text field cmp value => (field.column u d).any (fun column => cmp.holds value column)
  | .statusEq status => u.status = status
  | .statusNe status => u.status ≠ status
  | .statusIn statuses => u.status ∈ statuses
  | .orgEq orgID => uo.any (fun uo => uo.orgID = orgID)
  | .orgIn orgIDs => uo.any (fun uo => uo.orgID ∈ orgIDs)
  | .orgInSubtree rootID => inSubtree org rootID u uo

structure DB where
  groups : Table UserGroup.id
  members : Table UserGroupMember.key
  rules : Table UserGroupRule.groupID
  details : Table UserDetail.userID

namespace DB

variable (db : DB)

def getByID (tenantID id : Int) : Option UserGroup :=
  if 0 < tenantID then
    (db.groups.find? id).filter (fun g => g.tenantID = tenantID && !g.deleted)
  else
    none

def isMember (groupID userID : Int) : Bool :=
  db.members.rows.any (fun m => m.groupID = groupID && m.userID = userID)

def listByUserID (tenantID userID : Int) : List UserGroup :=
  if 0 < tenantID then
    db.groups.rows.filter (fun g => g.tenantID = tenantID && !g.deleted && db.isMember g.id userID)
  else
    []

variable (groupID : Int)

def allMemberIDs : List Int :=
  (db.members.rows.filter (fun m => m.groupID = groupID)).map UserGroupMember.userID

def countMembers (org : Org.DB) (groupID : Int) : Nat :=
  ((db.allMemberIDs groupID).filter (fun userID =>
    org.users.table.rows.any (fun u => u.id = userID && !u.deleted))).length

def listDynamicGroupIDs (tenantID : Int) : List Int :=
  (db.groups.rows.filter (fun g => g.tenantID = tenantID && !g.deleted && g.type = .dynamic)).map UserGroup.id

def delete (tenantID id : Int) : DB :=
  { db with
    groups := db.groups.delete (fun g => g.id = id && g.tenantID = tenantID)
    members := db.members.delete (fun m => m.groupID = id)
    rules := db.rules.delete (fun r => r.groupID = id) }

def insertMembers (userIDs : List Int) : DB :=
  { db with members := db.members.insertIgnore (userIDs.map (fun userID => ⟨groupID, userID⟩)) }

def deleteMembers (userIDs : List Int) : DB :=
  { db with members := db.members.delete (fun m => m.groupID = groupID && m.userID ∈ userIDs) }

def addMembers (userIDs : List Int) : DB × List Int :=
  let toInsert := userIDs.filter (fun userID => !db.isMember groupID userID)
  (db.insertMembers groupID toInsert, userIDs.filter (db.isMember groupID))

def removeMembers (userIDs : List Int) : DB × List Int :=
  let toDelete := userIDs.filter (db.isMember groupID)
  (db.deleteMembers groupID toDelete, userIDs.filter (fun userID => !db.isMember groupID userID))

def setType (type : GroupType) (g : UserGroup) : UserGroup := { g with type }

@[simp]
theorem id_setType (type : GroupType) (g : UserGroup) : (setType type g).id = g.id := rfl

def updateType (type : GroupType) : DB :=
  { db with groups := db.groups.update (fun g => g.id = groupID) (setType type) (id_setType type) }

def upsertRule (rule : UserGroupRule) : DB :=
  { db with rules := db.rules.upsert rule }

def deleteRule : DB :=
  { db with rules := db.rules.delete (fun r => r.groupID = groupID) }

def evaluateRule (org : Org.DB) (tenantID : Int) (conditions : List RuleCondition) : List Int :=
  Group.evaluateRule org tenantID (fun u uo =>
    conditions.all (RuleCondition.holds org (db.details.find? u.id) u uo))

end DB

inductive GroupError where
  | groupNotFound
  | groupIsDynamic
  | groupHasMembers
  | userNotInTenant
  | ruleNotFound
  | failed

variable (org : Org.DB) (db : DB)

def requireGroup (tenantID groupID : Int) : Except GroupError UserGroup :=
  match db.getByID tenantID groupID with
  | none => .error .groupNotFound
  | some g => .ok g

def requireUsersInTenant (tenantID : Int) (userIDs : List Int) : Except GroupError Unit :=
  if userIDs.all (fun userID => (org.users.getByID tenantID userID).isSome) then .ok () else .error .userNotInTenant

def memberEvent (type : EventType) (g : UserGroup) (userID : Int) : Event where
  type := type
  payload := .map [("tenant_id", .int64 g.tenantID), ("group_id", .int64 g.id), ("user_id", .int64 userID),
    ("name", .string g.name)]

def delete (tenantID id : Int) (force : Bool) : Except GroupError (DB × List Event) :=
  match db.getByID tenantID id with
  | none => .ok (db, [])
  | some g =>
    if 0 < db.countMembers org id && !force then
      .error .groupHasMembers
    else
      .ok (db.delete tenantID id, [⟨.groupDeleted, .map [("id", .int64 g.id), ("tenant_id", .int64 g.tenantID),
        ("name", .string g.name), ("code", .string g.code)]⟩])

def addMember (tenantID groupID userID : Int) : Except GroupError (DB × List Event) := do
  let g ← requireGroup db tenantID groupID
  if g.type = .dynamic then
    .error .groupIsDynamic
  else
    requireUsersInTenant org tenantID [userID]
    return (db.insertMembers groupID [userID], [memberEvent .groupMemberAdded g userID])

def addMembers (tenantID groupID : Int) (userIDs : List Int) : Except GroupError (DB × List Event) := do
  let g ← requireGroup db tenantID groupID
  if g.type = .dynamic then
    .error .groupIsDynamic
  else
    requireUsersInTenant org tenantID userIDs
    let (db, skipped) := db.addMembers groupID userIDs
    return (db, (userIDs.filter (· ∉ skipped)).map (memberEvent .groupMemberAdded g))

def removeMember (tenantID groupID userID : Int) : Except GroupError (DB × List Event) := do
  let g ← requireGroup db tenantID groupID
  if g.type = .dynamic then
    .error .groupIsDynamic
  else
    return (db.deleteMembers groupID [userID], [memberEvent .groupMemberRemoved g userID])

def removeMembers (tenantID groupID : Int) (userIDs : List Int) : Except GroupError (DB × List Event) := do
  let g ← requireGroup db tenantID groupID
  let (db, skipped) := db.removeMembers groupID userIDs
  return (db, (userIDs.filter (· ∉ skipped)).map (memberEvent .groupMemberRemoved g))

structure SyncReport where
  added : Nat
  removed : Nat

def diffMembers (matched current : List Int) : List Int × List Int :=
  (matched.filter (· ∉ current), current.filter (· ∉ matched))

inductive SyncFault where
  | none
  | evaluate
  | add
  | remove
  | mark
  deriving DecidableEq

def syncRule (fault : SyncFault) (tenantID groupID : Int) : DB × Except GroupError SyncReport :=
  match db.getByID tenantID groupID, db.rules.find? groupID with
  | none, _ => (db, .error .groupNotFound)
  | some _, none => (db, .error .ruleNotFound)
  | some g, some rule =>
    if rule.status ≠ .enabled then
      (db, .ok ⟨0, 0⟩)
    else
      match rule.expr with
      | none => (db, .error .failed)
      | some conditions =>
        if fault = .evaluate then
          (db, .error .failed)
        else
          let (toAdd, toRemove) := diffMembers (db.evaluateRule org g.tenantID conditions) (db.allMemberIDs groupID)
          if fault = .add && !toAdd.isEmpty then
            (db, .error .failed)
          else
            let db := db.insertMembers groupID toAdd
            if fault = .remove && !toRemove.isEmpty then
              (db, .error .failed)
            else
              (db.deleteMembers groupID toRemove,
                if fault = .mark then .error .failed else .ok ⟨toAdd.length, toRemove.length⟩)

def ruleEvent (type : EventType) (g : UserGroup) (report : Option SyncReport) : Event where
  type := type
  payload := .map ([("tenant_id", .int64 g.tenantID), ("group_id", .int64 g.id), ("name", .string g.name)]
    ++ match report with
      | none => []
      | some report => [("added", .int report.added), ("removed", .int report.removed)])

def upsertRule (fault : SyncFault) (tenantID groupID : Int) (conditions : Option (List RuleCondition)) :
    DB × Except GroupError (List Event) :=
  match db.getByID tenantID groupID with
  | none => (db, .error .groupNotFound)
  | some g =>
    let db := (db.upsertRule ⟨groupID, conditions, .enabled⟩).updateType groupID .dynamic
    match syncRule org db fault tenantID groupID with
    | (db, .error e) => (db, .error e)
    | (db, .ok report) => (db, .ok [ruleEvent .groupRuleUpdated g (some report)])

def syncRuleAndPublish (fault : SyncFault) (tenantID groupID : Int) : DB × Except GroupError (List Event) :=
  match syncRule org db fault tenantID groupID with
  | (db, .error e) => (db, .error e)
  | (db, .ok report) =>
    match db.getByID tenantID groupID with
    | none => (db, .ok [])
    | some g => (db, .ok [ruleEvent .groupRuleSynced g (some report)])

def deleteRule (tenantID groupID : Int) : Except GroupError (DB × List Event) :=
  match db.getByID tenantID groupID with
  | none => .error .groupNotFound
  | some g => .ok ((db.deleteRule groupID).updateType groupID .static, [ruleEvent .groupRuleDeleted g none])

def resyncTenantDynamicGroups (faults : Int → SyncFault) (tenantID : Int) : DB :=
  (db.listDynamicGroupIDs tenantID).foldl (fun db groupID => (syncRule org db (faults groupID) tenantID groupID).1) db

inductive MemberAction where
  | addMember (tenantID userID : Int)
  | addMembers (tenantID : Int) (userIDs : List Int)
  | removeMember (tenantID userID : Int)
  | removeMembers (tenantID : Int) (userIDs : List Int)
  | syncRule (fault : SyncFault) (tenantID : Int)

def MemberAction.manual : MemberAction → Bool
  | .syncRule _ _ => false
  | _ => true

def MemberAction.perform (groupID : Int) : MemberAction → Except GroupError DB
  | .addMember tenantID userID => Prod.fst <$> Group.addMember org db tenantID groupID userID
  | .addMembers tenantID userIDs => Prod.fst <$> Group.addMembers org db tenantID groupID userIDs
  | .removeMember tenantID userID => Prod.fst <$> Group.removeMember db tenantID groupID userID
  | .removeMembers tenantID userIDs => Prod.fst <$> Group.removeMembers db tenantID groupID userIDs
  | .syncRule fault tenantID => .ok (Group.syncRule org db fault tenantID groupID).1

def MemberAction.after (groupID : Int) (acts : List (Org.DB × MemberAction)) : DB :=
  acts.foldl (fun db a => (a.2.perform a.1 db groupID).toOption.getD db) db

end Mxid.Group
