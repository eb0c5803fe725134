import Mathlib.Data.List.Basic

/-!
This module contains the license of a pod: how a token is loaded, at boot, on a reload broadcast and on activation, and
what the installed license grants.
-/

namespace Mxid.License

inductive Feature
  | multiTenant | externalIDP | branding | conditionalAccess | webAuthn | scim | advancedStepUp | sms | formFill
  deriving DecidableEq

def implementedFeatures : List Feature := [.branding, .conditionalAccess, .externalIDP, .scim, .formFill]

def isImplemented (f : Feature) : Bool := implementedFeatures.contains f

structure Payload where
  product : String
  expiresAt : Int
  installID : String

inductive LoadError
  | publicKey | malformed | signature | expired | product | install

structure Manager where
  payload : Option Payload := none
  valid : Bool := false
  loadErr : Option LoadError := none

-- the embedded key, the decoding of a token and the check of its signature are the parameter `openToken`
structure Env where
  openToken : String → Except LoadError Payload
  installFingerprint : String
  trimSpace : String → String

variable (env : Env)

def verifyWith (token : String) (now : Int) : Except LoadError Payload := do
  let p ← env.openToken token
  if p.product ≠ "mxid" then
    throw .product
  if p.installID ≠ "" ∧ p.installID ≠ env.installFingerprint then
    throw .install
  if p.expiresAt ≠ 0 ∧ now > p.expiresAt then
    throw .expired
  return p

def load (token : String) (now : Int) : Manager :=
  let token := env.trimSpace token
  if token = "" then
    {}
  else
    match verifyWith env token now with
    | .error e => { loadErr := some e }
    | .ok p => { payload := some p, valid := true }

def Manager.has (m : Manager) (f : Feature) : Bool := m.valid && isImplemented f

/--
A pod: the time in seconds, the license key in the platform configuration, and the process-wide license.
-/
structure Pod where
  now : Int
  key : String
  current : Manager := {}

inductive Op
  | idle
  | store (key : String)
  | reloadLicense (readOk : Bool)
  | putLicense (key : String) (readOk setOk : Bool)

def Pod.keyOf (s : Pod) (readOk : Bool) : String := if readOk then s.key else ""

def Pod.perform (s : Pod) : Op → Pod
  | .idle => s
  -- the request was served by another pod
  | .store key => { s with key }
  | .reloadLicense readOk => { s with current := load env (s.keyOf readOk) s.now }
  | .putLicense key readOk setOk =>
    let key := env.trimSpace key
    let key := if key = "" then s.keyOf readOk else key
    if setOk then { s with key, current := load env key s.now } else s

/--
An operation is performed when `secs` more seconds have passed.
-/
def Pod.step (s : Pod) : Nat × Op → Option Pod
  | (secs, op) => some (Pod.perform env { s with now := s.now + secs } op)

end Mxid.License
