import Mxid.Data.Prog
import Mxid.Data.Redis
import Mxid.Data.Run
import Mxid.Data.Table

/-!
This module contains the verification of one-time passwords. Times are in milliseconds.
-/

namespace Mxid.User.Totp

open Prog (call)

def totpPeriodSeconds : Int := 30
def totpSkewSteps : Nat := 1
def totpUsedTTL : Int := totpPeriodSeconds * (2 * totpSkewSteps + 2) * 1000

inductive MFAType where
  | totp
  | sms
  | email
  | webauthn
  deriving DecidableEq

structure UserMFA where
  id : Int
  userID : Int
  type : MFAType
  secret : Option String
  isDefault : Bool
  verified : Bool
  updatedAt : Int

abbrev Mfas := Table UserMFA.id

structure Claim where
  caller : Nat
  userID : Int
  step : Int

structure World where
  now : Nat
  mfas : Mfas
  used : Redis.Store Int Int
  faults : List Bool
  /-- The steps that were claimed, in this order. No program reads it. -/
  claims : List Claim

inductive MFAReply where
  | found (mfa : UserMFA)
  | notFound
  | failed

/--
The script that claims a step is one command. It knows which call has sent it and when the code was matched, but does
not look at either.
-/
inductive Cmd : Type → Type
  | now : Cmd Int
  | getMFA (userID : Int) : Cmd MFAReply
  | claim (caller : Nat) (userID step : Int) (matchedAt : Int) : Cmd (Option Bool)
  | updateMFA (mfa : UserMFA) : Cmd Bool

namespace World

def fails (w : World) : Bool := w.faults.headD false

def next (w : World) : World := { w with faults := w.faults.tail }

def getMFA (w : World) (userID : Int) (type : MFAType) : Option UserMFA :=
  (Table.orderBy UserMFA.id (w.mfas.rows.filter (fun mfa => mfa.userID = userID && mfa.type = type))).head?

def claimable (w : World) (userID step : Int) : Bool :=
  (w.used.get w.now userID).all (fun cur => cur < step)

def claim (w : World) (c : Claim) : World :=
  { w with
    used := w.used.set c.userID c.step (some (w.now + totpUsedTTL))
    claims := w.claims ++ [c] }

def exec {β : Type} : Cmd β → World → β × World
  | .now, w => (w.now, w)
  | .getMFA userID, w =>
    if w.fails then
      (.failed, w.next)
    else
      match w.getMFA userID .totp with
      | none => (.notFound, w.next)
      | some mfa => (.found mfa, w.next)
  | .claim caller userID step _, w =>
    if w.fails then
      (none, w.next)
    else if w.claimable userID step then
      (some true, w.next.claim ⟨caller, userID, step⟩)
    else
      (some false, w.next)
  | .updateMFA mfa, w => if w.fails then (false, w.next) else (true, { w.next with mfas := w.mfas.upsert mfa })

end World

def semantics : Prog.Semantics Cmd World where
  step := World.exec
  advance n w := { w with now := w.now + n }

inductive MFAError where
  | masterKeyMissing
  | notEnrolled
  | invalidCode
  | codeReused
  | wrapped (context err : String)
  deriving DecidableEq

structure Service where
  masterKey : Option (String → Except String String)
  totpReplayRDB : Bool
  validateCustom : (code secret : String) → (t : Int) → Except String Bool

def stepDeltas : List Int :=
  0 :: (List.range totpSkewSteps).flatMap (fun i => [(i : Int) + 1, -((i : Int) + 1)])

def stepAt (t : Int) : Int := (t / 1000).tdiv totpPeriodSeconds

namespace Service

variable (s : Service)

def matchTOTPStep (now : Int) (code secret : String) : Option Int :=
  stepDeltas.findSome? (fun delta =>
    let t := now + delta * totpPeriodSeconds * 1000
    match s.validateCustom code secret t with
    | .ok true => some (stepAt t)
    | _ => none)

def claimTOTPStep (caller : Nat) (userID matchedStep matchedAt : Int) : Prog Cmd (Option Bool) :=
  if s.totpReplayRDB then call (.claim caller userID matchedStep matchedAt) else pure (some true)

def promote (mfa : UserMFA) : Prog Cmd (Except MFAError Unit) :=
  if mfa.verified then
    pure (.ok ())
  else do
    let now ← call .now
    if ← call (.updateMFA { mfa with verified := true, isDefault := true, updatedAt := now }) then
      pure (.ok ())
    else
      pure (.error (.wrapped "update mfa" "update user mfa"))

def verifyCode (caller : Nat) (userID : Int) (code : String) (mfa : UserMFA) (plain : String) :
    Prog Cmd (Except MFAError Unit) := do
  let now ← call .now
  match s.matchTOTPStep now code plain with
  | none => pure (.error .invalidCode)
  | some matchedStep =>
    match ← s.claimTOTPStep caller userID matchedStep now with
    | none => pure (.error .invalidCode)
    | some false => pure (.error .codeReused)
    | some true => promote mfa

def verifyTOTP (caller : Nat) (userID : Int) (code : String) : Prog Cmd (Except MFAError Unit) :=
  match s.masterKey with
  | none => pure (.error .masterKeyMissing)
  | some decrypt => do
    match ← call (.getMFA userID) with
    | .notFound => pure (.error .notEnrolled)
    | .failed => pure (.error (.wrapped "get mfa" "get user mfa"))
    | .found mfa =>
      let secret := mfa.secret.getD ""
      if secret = "" then
        pure (.error .notEnrolled)
      else
        match decrypt secret with
        | .error err => pure (.error (.wrapped "decrypt secret" err))
        | .ok plain => s.verifyCode caller userID code mfa plain

end Service

structure Call where
  userID : Int
  code : String

abbrev System := Pool Cmd (Except MFAError Unit) World

def Service.start (s : Service) (now : Nat) (mfas : Mfas) (used : Redis.Store Int Int) (faults : List Bool)
    (calls : List Call) : System where
  shared := { now, mfas, used, faults, claims := [] }
  threads := calls.mapIdx (fun i c => s.verifyTOTP i c.userID c.code)

def claimDelay : Int := 30 * 1000

def Cmd.prompt {β : Type} (time : Int) : Cmd β → Bool
  | .claim _ _ _ matchedAt => time ≤ matchedAt + claimDelay
  | _ => true

def prompt (p : System) (turn : Nat × Nat) : Bool :=
  match p.threads[turn.1]? with
  | some (.cmd _ c _) => c.prompt (p.shared.now + turn.2)
  | _ => true

end Mxid.User.Totp
