import Mxid.Data.TransactionRules
import Mxid.User.Impl.ExternalLogin

namespace Mxid.User.BackupCodes

open Prog (call)
open Transactions (Schema Db Stmt DbError insertRows transaction)

structure MFABackupCode where
  id : Int
  userID : Int
  codeHash : String
  usedAt : Option Int
  createdAt : Int
  /-- The call that has used the code. It is not stored, and no program reads it. -/
  usedBy : Option Nat

def schema : Schema MFABackupCode Int where
  key := MFABackupCode.id
  primary := "mxid_user_mfa_backup_code_pkey"
  indexes := []

abbrev Codes := Db schema

abbrev Query := Prog (Stmt MFABackupCode Int)

def normalizeBackupCode (s : String) : String :=
  let s := (Text.trimSpace s).toList.map Char.toUpper
  let s := String.ofList (s.filter (fun c => c ≠ '-' && c ≠ ' '))
  if s.utf8ByteSize = 8 then s else ""

inductive BackupError where
  | invalidCode
  | notWired
  | wrapped (context err : String)
  | db (err : DbError)
  deriving DecidableEq

def BackupError.text : BackupError → String
  | .invalidCode => "invalid totp code"
  | .notWired => "backup codes repository not wired"
  | .wrapped context err => context ++ ": " ++ err
  | .db (.violates index) => index
  | .db .failed => "database"

inductive Outcome where
  | generated
  | consumed (id : Int)
  | error (err : BackupError)
  deriving DecidableEq

structure Service where
  backupRepo : Bool
  compareHashAndPassword : (hash code : String) → Bool

/-!
The generation of codes. The hashes and the ids of the new codes are given, or the error that there was.
-/

def newRow (userID now : Int) (code : Int × String) : MFABackupCode where
  id := code.1
  userID := userID
  codeHash := code.2
  usedAt := none
  createdAt := now
  usedBy := none

def ofUser (userID : Int) (r : MFABackupCode) : Bool := r.userID = userID

def replaceCodes (me : Nat) (userID : Int) (codes : List (Int × String)) : Query (Except DbError Unit) := do
  match ← Transactions.update me (ofUser userID) (fun _ => none) with
  | .error err => pure (.error err)
  | .ok _ =>
    let now ← call .now
    insertRows me (codes.map (newRow userID now))

def replaceAll (me : Nat) (userID : Int) (codes : List (Int × String)) : Query (Except DbError Unit) :=
  transaction me (fun _ => replaceCodes me userID codes)

def Service.generateBackupCodes (s : Service) (me : Nat) (userID : Int)
    (mint : Except BackupError (List (Int × String))) :
    Query Outcome :=
  if s.backupRepo then
    match mint with
    | .error err => pure (.error err)
    | .ok codes => do
      match ← replaceAll me userID codes with
      | .error err => pure (.error (.wrapped "persist backup codes" (BackupError.db err).text))
      | .ok () => pure .generated
  else
    pure (.error .notWired)

def isActive (userID : Int) (r : MFABackupCode) : Bool := r.userID = userID && r.usedAt.isNone

def unused (id : Int) (r : MFABackupCode) : Bool := r.id = id && r.usedAt.isNone

def use (me : Nat) (when : Int) (r : MFABackupCode) : Option MFABackupCode :=
  some { r with usedAt := some when, usedBy := some me }

def markUsed (me : Nat) (id when : Int) : Query (Except DbError Nat) :=
  transaction me (fun _ => Transactions.update me (unused id) (use me when))

def Service.findCode (s : Service) (rows : List MFABackupCode) (normalized : String) : Option MFABackupCode :=
  (Table.orderBy MFABackupCode.createdAt rows).find? (fun r => s.compareHashAndPassword r.codeHash normalized)

def Service.consumeNormalized (s : Service) (me : Nat) (userID : Int) (normalized : String) : Query Outcome := do
  match ← call (.select (isActive userID)) with
  | none => pure (.error (.wrapped "list backup codes" "database"))
  | some rows =>
    match s.findCode rows normalized with
    | none => pure (.error .invalidCode)
    | some r =>
      let now ← call .now
      match ← markUsed me r.id now with
      | .error err => pure (.error (.db err))
      | .ok n => if n = 0 then pure (.error .invalidCode) else pure (.consumed r.id)

def Service.consumeBackupCode (s : Service) (me : Nat) (userID : Int) (code : String) : Query Outcome :=
  if s.backupRepo then
    if normalizeBackupCode code = "" then
      pure (.error .invalidCode)
    else
      s.consumeNormalized me userID (normalizeBackupCode code)
  else
    pure (.error .invalidCode)

inductive Call where
  | generate (userID : Int) (mint : Except BackupError (List (Int × String)))
  | consume (userID : Int) (code : String)

abbrev System := Pool (Stmt MFABackupCode Int) Outcome Codes

namespace Call

def prog (s : Service) (me : Nat) : Call → Query Outcome
  | .generate userID mint => s.generateBackupCodes me userID mint
  | .consume userID code => s.consumeBackupCode me userID code

def generates : Call → Option Int
  | .generate userID _ => some userID
  | .consume _ _ => none

end Call

def Service.start (s : Service) (now : Int) (rows : List MFABackupCode) (faults : List Bool) (calls : List Call) :
    System where
  shared := { now := now, rows := rows, pending := [], opened := [], commits := [], faults := faults }
  threads := calls.mapIdx (fun i c => c.prog s i)

variable (calls : List Call)

def generatesAt (i : Nat) : Option Int := calls[i]?.bind Call.generates

def Stmt.apart {β : Type} (db : Codes) : Stmt MFABackupCode Int β → Bool
  | .begin me =>
    (generatesAt calls me).all (fun userID => db.opened.all (fun i => i = me || generatesAt calls i ≠ some userID))
  | _ => true

def apart (p : System) (turn : Nat × Nat) : Bool :=
  match p.threads[turn.1]? with
  | some (.cmd _ c _) => Stmt.apart calls p.shared c
  | _ => true

structure Entry where
  id : Int
  userID : Int
  codeHash : String

def MFABackupCode.entry (r : MFABackupCode) : Entry := ⟨r.id, r.userID, r.codeHash⟩

def Call.entries : Call → List Entry
  | .generate userID (.ok codes) => codes.map (fun code => ⟨code.1, userID, code.2⟩)
  | _ => []

def entriesAt (i : Nat) : List Entry := (calls[i]?.map Call.entries).getD []

def newest (rows : List MFABackupCode) (commits : List Nat) (userID : Int) : List Entry :=
  commits.foldl (fun set i => if generatesAt calls i = some userID then entriesAt calls i else set)
    ((rows.filter (ofUser userID)).map MFABackupCode.entry)

def allIds (rows : List MFABackupCode) : List Int :=
  rows.map MFABackupCode.id ++ (calls.flatMap Call.entries).map Entry.id

end Mxid.User.BackupCodes
