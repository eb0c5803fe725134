import Mxid.Authn.Impl.Login

namespace Mxid.Authn

open RateLimit

structure Issued where
  userID : Int
  accountLocked : Bool
  deriving DecidableEq

/--
The fields `issued` and `wrong` are not part of the program. The latter counts, for each account, the
wrong passwords that were compared with its hash since its counter and its lock were last both gone.
-/
structure State where
  now : Int
  users : UserAuthQuerier
  rdb : Keyspace Identifier
  issued : List Issued
  wrong : Int → Int

def State.start (now : Int) (users : UserAuthQuerier) : State :=
  ⟨now, users, Keyspace.empty, [], fun _ => 0⟩

inductive Action where
  | login (req : AuthRequest) (namespaceName : String) (backend : Backend)
  | elapse (ms : Nat)
  | edit (users : UserAuthQuerier)

namespace Engine

variable (e : Engine) (s : State)

def userLocked (userID : Int) : Bool :=
  (s.rdb.locks.lookup s.now (e.loginLimiter.key (.user userID))).isSome

def userCounted (userID : Int) : Bool :=
  (s.rdb.counters.lookup s.now (e.loginLimiter.key (.user userID))).isSome

def admitted (req : AuthRequest) : Bool :=
  req.authType = localProviderType && (e.checkLoginLock s.rdb s.now 0 req.clientIP).isNone

def issuedBy (outcome : LoginOutcome) : List Issued :=
  match outcome.response with
  | .error _ => []
  | .ok resp => [⟨resp.userID, e.userLocked s resp.userID⟩]

def wrongAfter (req : AuthRequest) (userID : Int) : Int :=
  let result := authenticate e.checkPassword s.users req
  if e.admitted s req ∧ result.status = .failed ∧ result.userID = userID then
    (if e.userCounted s userID || e.userLocked s userID then s.wrong userID else 0) +
      (if comparesWrong e.checkPassword s.users req then 1 else 0)
  else
    s.wrong userID

def step : Action → Option State
  | .login req namespaceName backend =>
    let outcome := e.login s.users backend s.rdb s.now req namespaceName
    some
      { s with
        rdb := outcome.rdb
        issued := s.issued ++ e.issuedBy s outcome
        wrong := e.wrongAfter s req }
  | .elapse ms => some { s with now := s.now + ms }
  | .edit users => some { s with users := users }

/--
A request that the provider would answer with success or failure for an account that is locked comes
from an address that is locked too.
-/
def shielded : Action → Bool
  | .login req _ _ =>
    let result := authenticate e.checkPassword s.users req
    if e.userLocked s result.userID ∧ (result.status = .success ∨ result.status = .failed) then
      (e.checkLoginLock s.rdb s.now 0 req.clientIP).isSome
    else
      true
  | .elapse _ | .edit _ => true

end Engine

end Mxid.Authn
