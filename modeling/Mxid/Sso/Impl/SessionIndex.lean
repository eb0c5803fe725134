import Mxid.Data.Redis
import Mxid.Data.Run

namespace Mxid.Sso

def formatSec (dur : Int) : Int :=
  if 0 < dur ∧ dur < 1000000000 then 1 else dur.tdiv 1000000000

structure LogoutIndex (ρ : Type) where
  now : Int
  refs : Redis.Store (Int × Int) (List ρ)
  apps : Redis.Store Int (List Int)

namespace LogoutIndex

variable {ρ : Type}

def empty (now : Int) : LogoutIndex ρ where
  now := now
  refs := .empty
  apps := .empty

variable (index : LogoutIndex ρ)

def wait (n : Nat) : LogoutIndex ρ := { index with now := index.now + n }

def appsForUser (userID : Int) : List Int := (index.apps.smembers index.now userID).filter (fun id => id ≠ 0)

def get (userID appID : Int) : List ρ := index.refs.smembers index.now (userID, appID)

def delete (userID appID : Int) : LogoutIndex ρ where
  now := index.now
  refs := index.refs.del (userID, appID)
  apps := index.apps.srem index.now userID appID

variable [DecidableEq ρ]

def record (userID appID : Int) (ref : ρ) (ttl : Int) : LogoutIndex ρ where
  now := index.now
  refs := (index.refs.sadd index.now (userID, appID) ref).expire index.now (userID, appID) (formatSec ttl)
  apps := (index.apps.sadd index.now userID appID).expire index.now userID (formatSec ttl)

inductive Act (ρ : Type) where
  | record (userID appID : Int) (ref : ρ) (ttl : Int)
  | delete (userID appID : Int)
  | wait (n : Nat)

def step (index : LogoutIndex ρ) : Act ρ → Option (LogoutIndex ρ)
  | .record userID appID ref ttl => some (index.record userID appID ref ttl)
  | .delete userID appID => some (index.delete userID appID)
  | .wait n => some (index.wait n)

omit [DecidableEq ρ] in
def outlasts (userID appID ttl : Int) : Bool :=
  (index.appsForUser userID).all (fun id =>
    id = appID
      || (index.refs.lookup index.now (userID, id)).all (fun e =>
        0 < formatSec ttl && e.expireAt.any (fun t => t ≤ index.now + 1000 * formatSec ttl)))

def Orderly (index : LogoutIndex ρ) : Act ρ → Prop
  | .record userID appID _ ttl => (appID ≠ 0 ∨ formatSec ttl ≤ 0) ∧ index.outlasts userID appID ttl = true
  | _ => True

instance : (index : LogoutIndex ρ) → (a : Act ρ) → Decidable (index.Orderly a)
  | _, .record _ _ _ _ => inferInstanceAs (Decidable (_ ∧ _))
  | _, .delete _ _ | _, .wait _ => inferInstanceAs (Decidable True)

end LogoutIndex

namespace Saml

structure SAMLSessionRef where
  sessionIndex : String
  nameID : String
  spEntityID : String
  nameIDFormat : String
  deriving DecidableEq

abbrev SessionIndexStore := LogoutIndex SAMLSessionRef

namespace SessionIndexStore

variable (s : SessionIndexStore)

def record (userID appID : Int) (ref : SAMLSessionRef) (ttl : Int) : SessionIndexStore :=
  LogoutIndex.record s userID appID ref ttl

def appsForUser (userID : Int) : List Int := LogoutIndex.appsForUser s userID

def get (userID appID : Int) : List SAMLSessionRef := LogoutIndex.get s userID appID

def delete (userID appID : Int) : SessionIndexStore := LogoutIndex.delete s userID appID

end SessionIndexStore

end Saml

namespace Cas

structure CASServiceRef where
  serviceURL : String
  ticket : String
  deriving DecidableEq

abbrev ServiceRegistry := LogoutIndex CASServiceRef

def casSLORegistryTTL : Int := 8 * 24 * 3600 * 1000000000

namespace ServiceRegistry

variable (r : ServiceRegistry)

def recordService (userID appID : Int) (serviceURL ticket : String) (ttl : Int) : ServiceRegistry :=
  LogoutIndex.record r userID appID { serviceURL := serviceURL, ticket := ticket } ttl

def appsForUser (userID : Int) : List Int := LogoutIndex.appsForUser r userID

def listServices (userID appID : Int) : List CASServiceRef := LogoutIndex.get r userID appID

def clear (userID appID : Int) : ServiceRegistry := LogoutIndex.delete r userID appID

end ServiceRegistry

end Cas

end Mxid.Sso
