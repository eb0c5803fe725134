import Mxid.Data.Int64

/-!
This module contains the plugin that captures an event for each row that a statement writes. Its callbacks see the
conditions that were given to the statement, and not yet those that the library adds to it.
-/

namespace Mxid.Audit.Capture

inductive Value where
  | null
  | int64 (n : Int64)
  | int (n : Int64)
  | float64 (n : Int64)
  | text (s : String)
  | expr (sql : String)
  deriving DecidableEq

def Value.isZero : Value → Bool
  | .null => true
  | .int64 n | .int n | .float64 n => n = 0
  | .text s => s = ""
  | .expr _ => false

abbrev Columns := List (String × Value)

def Columns.get (m : Columns) (column : String) : Value :=
  (m.lookup column).getD .null

def Columns.set (m : Columns) (column : String) (v : Value) : Columns :=
  m.map (fun p => if p.1 = column then (column, v) else p)

def sensitiveKeys : List String :=
  ["password", "old_password", "new_password", "password_hash", "secret", "client_secret", "otp_code",
    "verify_code", "magic_code", "backup_code", "reset_code", "otp", "token", "refresh_token", "access_token",
    "api_key", "private_key"]

def isSensitiveKey (k : String) : Bool :=
  sensitiveKeys.contains k

def redactMap (m : Columns) : Columns :=
  m.filter (fun p => !isSensitiveKey p.1)

structure Schema where
  resource : Option String
  fields : List String
  primaryFields : List String
  prioritizedPrimaryField : Option String
  deletedAt : Option String
  primary_plain : ∀ c ∈ primaryFields, isSensitiveKey c = false

structure Rows (schema : Schema) where
  rows : List Columns
  nodup : (rows.map (fun r => schema.primaryFields.map r.get)).Nodup

inductive Reflected where
  | struct (m : Columns)
  | slice (ms : List Columns)

def Reflected.elems : Reflected → List Columns
  | .struct m => [m]
  | .slice ms => ms

structure Statement where
  schema : Schema
  reflectValue : Reflected
  destMap : Option Columns
  cond : Option (Columns → Bool)
  unscoped : Bool

inductive Operation where
  | create (store : Columns → Option Columns)
  | update (assign : Columns → Columns)
  | delete (now : Value)

structure Event where
  eventType : String
  resourceType : String
  resourceID : Int64
  before : Option Columns
  after : Option Columns

structure Tables (schema : Schema) where
  table : Rows schema
  pending : List Event

namespace Statement

variable (stmt : Statement)

def modelToMap : Option Columns :=
  stmt.reflectValue.elems.head?.map (fun m => stmt.schema.fields.map (fun c => (c, m.get c)))

def primaryKeyOf : Int64 :=
  match stmt.schema.prioritizedPrimaryField, stmt.reflectValue.elems.head? with
  | some f, some m =>
    match m.get f with
    | .int64 id => id
    | _ => 0
  | _, _ => 0

def resourceIDOf (before : Columns) : Int64 :=
  if stmt.primaryKeyOf ≠ 0 then
    stmt.primaryKeyOf
  else
    match before.get "id" with
    | .int64 v | .float64 v | .int v => v
    | _ => 0

def updateDelta : Option Columns :=
  match stmt.destMap with
  | some m => some m
  | none => stmt.modelToMap

def live (r : Columns) : Bool :=
  stmt.schema.deletedAt.all (fun c => r.get c = .null)

def matchesCond (r : Columns) : Bool :=
  stmt.cond.all (fun p => p r)

def beforeSnapshot (rows : List Columns) : List Columns :=
  rows.filter (fun r => stmt.matchesCond r && stmt.live r)

def captureCreate : List Event :=
  match stmt.schema.resource with
  | none => []
  | some res =>
    [{ eventType := res ++ ".created"
       resourceType := res
       resourceID := stmt.primaryKeyOf
       before := none
       after := stmt.modelToMap.map redactMap }]

def captureUpdate (rows : List Columns) : List Event :=
  match stmt.schema.resource with
  | none => []
  | some res =>
    (stmt.beforeSnapshot rows).map (fun r =>
      { eventType := res ++ ".updated"
        resourceType := res
        resourceID := stmt.resourceIDOf r
        before := some (redactMap r)
        after := stmt.updateDelta.map redactMap })

def captureDelete (rows : List Columns) : List Event :=
  match stmt.schema.resource with
  | none => []
  | some res =>
    (stmt.beforeSnapshot rows).map (fun r =>
      { eventType := res ++ ".deleted"
        resourceType := res
        resourceID := stmt.resourceIDOf r
        before := some (redactMap r)
        after := none })

def capture (rows : List Columns) : Operation → List Event
  | .create _ => stmt.captureCreate
  | .update _ => stmt.captureUpdate rows
  | .delete _ => stmt.captureDelete rows

def keyed (r : Columns) : Bool :=
  let fields := stmt.schema.primaryFields
  match stmt.reflectValue with
  | .struct m => fields.all (fun c => (m.get c).isZero || r.get c = m.get c)
  | .slice ms =>
    let keys := ms.filter (fun m => fields.any (fun c => !(m.get c).isZero))
    keys.isEmpty || keys.any (fun m => fields.all (fun c => r.get c = m.get c))

def targets (r : Columns) : Bool :=
  stmt.matchesCond r && stmt.keyed r && (stmt.unscoped || stmt.live r)

def changes (rows : List Columns) : Operation → List (Option Columns × Option Columns)
  | .create store => (stmt.reflectValue.elems.filterMap store).map (fun r => (none, some r))
  | .update assign => (rows.filter stmt.targets).map (fun r => (some r, some (assign r)))
  | .delete _ => (rows.filter stmt.targets).map (fun r => (some r, none))

def write (rows : List Columns) : Operation → List Columns
  | .create store => rows ++ stmt.reflectValue.elems.filterMap store
  | .update assign => rows.map (fun r => if stmt.targets r then assign r else r)
  | .delete now =>
    let mark := if stmt.unscoped then none else stmt.schema.deletedAt
    rows.filterMap (fun r => if stmt.targets r then mark.map (fun c => r.set c now) else some r)

def emit (refuses : List Event → Event → Bool) (pending : List Event) (ev : Event) : Option (List Event) :=
  if refuses pending ev then none else some (pending ++ [ev])

/--
The callback and the statement share a transaction, which an error of either rolls back.
-/
def execute (refuses : List Event → Event → Bool) (t : Tables stmt.schema) (op : Operation) :
    Option (Tables stmt.schema) :=
  match (stmt.capture t.table.rows op).foldlM (emit refuses) t.pending with
  | none => none
  | some pending =>
    let rows := stmt.write t.table.rows op
    if h : (rows.map (fun r => stmt.schema.primaryFields.map r.get)).Nodup then
      some ⟨⟨rows, h⟩, pending⟩
    else
      none

end Statement

end Mxid.Audit.Capture
