import Mxid.Data.Statements
import Mxid.Data.Table

namespace Mxid.App.Keys

open Prog (call)

inductive CertType where
  | signing
  | encryption
  deriving DecidableEq

inductive CertStatus where
  | active
  | rotating
  | retired
  deriving DecidableEq

structure AppCert where
  id : Int
  appID : Int
  certType : CertType
  algorithm : String
  publicKey : String
  privateKey : String
  kid : Option String
  notBefore : Int
  expiresAt : Option Int
  encrypted : Bool
  status : CertStatus
  createdAt : Int
  deriving DecidableEq

abbrev Certs := Table AppCert.id

structure KeyPair where
  id : Int
  kid : String
  publicKey : String
  privateKey : String
  now : Int

def signingKeyTTL : Int := 365 * 24 * 3600 * 1000

def newCert (appID : Int) (pair : KeyPair) : AppCert where
  id := pair.id
  appID := appID
  certType := .signing
  algorithm := "RS256"
  publicKey := pair.publicKey
  privateKey := pair.privateKey
  kid := some pair.kid
  notBefore := pair.now
  expiresAt := some (pair.now + signingKeyTTL)
  encrypted := true
  status := .active
  createdAt := pair.now

inductive Cmd : Type → Type
  | createCert (cert : AppCert) : Cmd Bool
  | demoteOthers (appID id : Int) : Cmd Bool
  | deleteCert (appID id : Int) : Cmd Bool

def AppCert.signsFor (appID : Int) (cert : AppCert) : Bool :=
  cert.appID = appID && cert.certType = .signing && cert.status = .active

def activeSigners (certs : Certs) (appID : Int) : List AppCert :=
  certs.rows.filter (AppCert.signsFor appID)

def demoteOthers (certs : Certs) (appID id : Int) : Certs :=
  certs.update (fun cert => cert.signsFor appID && cert.id ≠ id) (fun cert => { cert with status := .rotating })
    (fun _ => rfl)

def createCert (certs : Certs) (cert : AppCert) : Option Certs :=
  if certs.rows.any (fun c => c.kid.isSome && c.kid = cert.kid) then none else certs.insert? cert

def exec {β : Type} : Cmd β → Certs → β × Certs
  | .createCert cert, certs => attempt certs true false (createCert certs cert)
  | .demoteOthers appID id, certs => (true, demoteOthers certs appID id)
  | .deleteCert _ id, certs => (true, certs.delete (fun cert => cert.id = id))

def failed {β : Type} : Cmd β → β
  | .createCert _ | .demoteOthers .. | .deleteCert .. => false

abbrev semantics : Prog.Semantics Cmd (Faulty Certs) := .faulty exec failed

inductive KeyError where
  | masterKeyMissing
  | keyNotFound
  | wrapped (context err : String)
  deriving DecidableEq

def KeyError.text : KeyError → String
  | .masterKeyMissing => "master key not configured"
  | .keyNotFound => "signing key not found"
  | .wrapped context err => context ++ ": " ++ err

structure KeyService where
  masterKey : Option (String → Except String String)
  parseRSAPrivateKeyPEM : String → Except String String

def KeyService.generateForApp (s : KeyService) (appID : Int) (mint : Except KeyError KeyPair) :
    Prog Cmd (Except KeyError AppCert) :=
  match s.masterKey, mint with
  | none, _ => pure (.error .masterKeyMissing)
  | some _, .error err => pure (.error err)
  | some _, .ok pair => do
    if ← call (.createCert (newCert appID pair)) then
      pure (.ok (newCert appID pair))
    else
      pure (.error (.wrapped "create cert" "create app cert"))

def undo (cert : AppCert) : Prog Cmd (Except KeyError AppCert) := do
  let _ ← call (.deleteCert cert.appID cert.id)
  pure (.error (.wrapped "rotate: demote previous active" "update"))

def demote (cert : AppCert) : Prog Cmd (Except KeyError AppCert) := do
  if ← call (.demoteOthers cert.appID cert.id) then pure (.ok cert) else undo cert

def KeyService.rotateForApp (s : KeyService) (appID : Int) (mint : Except KeyError KeyPair) :
    Prog Cmd (Except KeyError AppCert) :=
  match s.masterKey with
  | none => pure (.error .masterKeyMissing)
  | some _ => do
    match ← s.generateForApp appID mint with
    | .error err => pure (.error (.wrapped "rotate: mint new key" err.text))
    | .ok cert => demote cert

def listCertsByApp (certs : Certs) (appID : Int) : List AppCert :=
  Table.orderByDesc AppCert.createdAt (certs.rows.filter (fun cert => cert.appID = appID))

def decryptPrivate (decrypt : String → Except String String) (cert : AppCert) : Except KeyError String :=
  if cert.encrypted then
    match decrypt cert.privateKey with
    | .error err => .error (.wrapped "decrypt private key" err)
    | .ok plain => .ok plain
  else
    .ok cert.privateKey

def KeyService.loadSigningKey (s : KeyService) (certs : Certs) (appID : Int) : Except KeyError (String × String) :=
  match s.masterKey with
  | none => .error .masterKeyMissing
  | some decrypt =>
    match (listCertsByApp certs appID).find? (fun cert => cert.certType = .signing && cert.status = .active) with
    | none => .error .keyNotFound
    | some active =>
      match decryptPrivate decrypt active with
      | .error err => .error err
      | .ok privPEM =>
        match s.parseRSAPrivateKeyPEM privPEM with
        | .error err => .error (.wrapped "parse private key" err)
        | .ok priv => .ok (priv, active.kid.getD "")

structure Rotation where
  appID : Int
  mint : Except KeyError KeyPair

abbrev System := Pool Cmd (Except KeyError AppCert) (Faulty Certs)

def KeyService.start (s : KeyService) (certs : Certs) (rotations : List Rotation) : System where
  shared := ⟨certs, false⟩
  threads := rotations.map (fun r => s.rotateForApp r.appID r.mint)

def finished (p : System) : Bool := (List.range p.threads.length).all (fun i => (p.result i).isSome)

def Cmd.inflight {β : Type} : Cmd β → Option (Int × Int)
  | .createCert _ => none
  | .demoteOthers appID id | .deleteCert appID id => some (appID, id)

def inflight : Prog Cmd (Except KeyError AppCert) → Option (Int × Int)
  | .ret _ => none
  | .cmd _ c _ => c.inflight

def alone (p : System) (i : Nat) (appID : Int) : Bool :=
  p.threads.zipIdx.all (fun t => t.2 = i || (inflight t.1).all (fun key => key.1 ≠ appID))

def Cmd.orderly {β : Type} (p : System) (turn : Nat × Nat) : Cmd β → Bool
  | .createCert _ => true
  | .demoteOthers appID _ => turn.2 ≠ 0 || alone p turn.1 appID
  | .deleteCert _ _ => turn.2 = 0

/--
A rotation demotes the other certificates only when no other rotation of the application is underway, and a new
certificate that is taken back is gone.
-/
def orderly (p : System) (turn : Nat × Nat) : Bool :=
  match p.threads[turn.1]? with
  | some (.cmd _ c _) => c.orderly p turn
  | _ => true

end Mxid.App.Keys
