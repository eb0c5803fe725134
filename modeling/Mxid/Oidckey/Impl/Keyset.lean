import Mxid.Data.Table
import Mxid.Data.TransactionRules

namespace Mxid.Oidckey

open Prog (call)
open Transactions (Schema Db Stmt DbError insertRow update transaction)

inductive KeyStatus where
  | active
  | rotating
  | retired
  deriving DecidableEq

structure ProviderKey where
  id : Int
  kid : String
  algorithm : String
  publicKey : String
  privateKey : String
  status : KeyStatus
  notBefore : Int
  expiresAt : Option Int
  createdAt : Int
  deriving DecidableEq

structure Material where
  id : Int
  kid : String
  publicKey : String
  privateKey : String

def signingTTL : Int := 365 * 24 * 3600 * 1000

def buildKey (material : Material) (now : Int) : ProviderKey where
  id := material.id
  kid := material.kid
  algorithm := "RS256"
  publicKey := material.publicKey
  privateKey := material.privateKey
  status := .active
  notBefore := now
  expiresAt := some (now + signingTTL)
  createdAt := now

def uniqueActiveKeyConstraint : String := "uq_oidc_keyset_one_active"

def bothActive (k k' : ProviderKey) : Bool := k.status = .active && k'.status = .active

def schema : Schema ProviderKey Int where
  key := ProviderKey.id
  primary := "mxid_oidc_keyset_pkey"
  indexes := [("mxid_oidc_keyset_kid_key", fun k k' => k.kid = k'.kid), (uniqueActiveKeyConstraint, bothActive)]

abbrev Keyset := Db schema

abbrev Query := Prog (Stmt ProviderKey Int)

def errNoActiveKey : String := "no active oidc signing key"

inductive Outcome where
  | minted (key : ProviderKey)
  | existing (key : ProviderKey)
  | notDue
  | retired (count : Nat)
  | signed (key : ProviderKey) (time lifetime : Int)
  | error (msg : String)
  deriving DecidableEq

def Outcome.changes : Outcome → Bool
  | .minted _ | .retired _ => true
  | _ => false

def activeKey : Query (Except String ProviderKey) := do
  match ← call (.select (fun k => k.status = .active)) with
  | none => pure (.error "load active key")
  | some rows =>
    match (Table.orderByDesc ProviderKey.createdAt rows).head? with
    | none => pure (.error errNoActiveKey)
    | some key => pure (.ok key)

def reload : Query Outcome := do
  match ← activeKey with
  | .error err => pure (.error err)
  | .ok key => pure (.existing key)

def conclude (msg : String) (key : ProviderKey) : Except DbError Unit → Query Outcome
  | .ok () => pure (.minted key)
  | .error (.violates index) => if index = uniqueActiveKeyConstraint then reload else pure (.error msg)
  | .error .failed => pure (.error msg)

def generate (me : Nat) : (mint : Except String Material) → Query Outcome
  | .error err => pure (.error err)
  | .ok material => do
    let now ← call .now
    let key := buildKey material now
    transaction me (fun _ => insertRow me key) >>= conclude "insert keyset row" key

def ensureActive (me : Nat) (mint : Except String Material) : Query Outcome := do
  match ← activeKey with
  | .ok key => pure (.existing key)
  | .error err => if err = errNoActiveKey then generate me mint else pure (.error err)

def isActive (k : ProviderKey) : Bool := k.status = .active

def demote (k : ProviderKey) : Option ProviderKey := some { k with status := .rotating }

def replaceActive (me : Nat) (key : ProviderKey) : Query (Except DbError Unit) := do
  match ← update me isActive demote with
  | .error err => pure (.error err)
  | .ok _ => insertRow me key

def rotate (me : Nat) : (mint : Except String Material) → Query Outcome
  | .error err => pure (.error err)
  | .ok material => do
    let now ← call .now
    let key := buildKey material now
    transaction me (fun _ => replaceActive me key) >>= conclude "rotate" key

def maybeRotate (me : Nat) (mint : Except String Material) (every : Int) : Query Outcome := do
  match ← activeKey with
  | .error err => pure (.error err)
  | .ok active =>
    let now ← call .now
    if now - active.createdAt < every then pure .notDue else rotate me mint

def isExpired (now : Int) (k : ProviderKey) : Bool := k.status = .rotating && k.expiresAt.any (fun t => t < now)

def retire (k : ProviderKey) : Option ProviderKey := some { k with status := .retired }

def retireExpired (me : Nat) : Query Outcome := do
  match ← transaction me (fun now => update me (isExpired now) retire) with
  | .ok n => pure (.retired n)
  | .error _ => pure (.error "retire expired")

def sign (lifetime : Int) : Query Outcome := do
  match ← activeKey with
  | .error err => pure (.error err)
  | .ok key =>
    let now ← call .now
    pure (.signed key now lifetime)

def listVerificationKeys (rows : List ProviderKey) : List ProviderKey :=
  Table.orderByDesc ProviderKey.createdAt (rows.filter (fun k => k.status = .active || k.status = .rotating))

inductive Call where
  | generate (mint : Except String Material)
  | ensureActive (mint : Except String Material)
  | rotate (mint : Except String Material)
  | maybeRotate (mint : Except String Material) (every : Int)
  | retireExpired
  | sign (lifetime : Int)

abbrev System := Pool (Stmt ProviderKey Int) Outcome Keyset

abbrev Turns : System → List (Nat × Nat) → System → Prop :=
  Run (Pool.step (Transactions.semantics schema)) (fun _ _ => True)

namespace Call

def prog (me : Nat) : Call → Query Outcome
  | .generate mint => Oidckey.generate me mint
  | .ensureActive mint => Oidckey.ensureActive me mint
  | .rotate mint => Oidckey.rotate me mint
  | .maybeRotate mint every => Oidckey.maybeRotate me mint every
  | .retireExpired => Oidckey.retireExpired me
  | .sign lifetime => Oidckey.sign lifetime

def start (calls : List Call) (now : Int) (faults : List Bool) : System where
  shared := { now := now, rows := [], pending := [], opened := [], commits := [], faults := faults }
  threads := calls.mapIdx (fun i c => c.prog i)

end Call

end Mxid.Oidckey
