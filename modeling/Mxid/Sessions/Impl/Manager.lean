import Mxid.Data.Prog
import Mxid.Data.Redis

/-!
This module contains the session manager: sessions under keys that expire, and for every user an index in each
namespace.
-/

namespace Mxid.Sessions

inductive Namespace where
  | console
  | portal
  | protocol
  deriving DecidableEq

structure Session where
  id : String
  userID : Int64
  tenantID : Int64
  ns : Namespace
  ip : String
  userAgent : String
  authType : String
  mfaVerified : Bool
  createdAt : Int
  expiresAt : Int
  lastActiveAt : Int
  mfaVerifiedAt : Option Int
  mfaEnrollPending : Bool
  pwdChangePending : Bool
  deriving DecidableEq

abbrev Key := Namespace × String

def sessionKey (ns : Namespace) (sessionID : String) : Key := (ns, sessionID)

def userKey (ns : Namespace) (userID : Int64) : Key := (ns, "user:" ++ toString userID)

def isUUIDChar (c : Char) : Bool :=
  c.isDigit || ('a' ≤ c && c ≤ 'f') || c = '-'

structure UUID where
  text : String
  valid : text.toList.all isUUIDChar = true

inductive Fault where
  | none
  | refused
  | unanswered

/--
The field `removed` is not stored anywhere, it lists the sessions that a deletion has found. A key that holds a
session holds no set, and the other way round.
-/
structure Keys where
  now : Int
  sessions : Redis.Store Key Session
  sets : Redis.Store Key (List String)
  policy : Int × Int
  faults : List Fault
  removed : List Key

def Keys.empty (now : Int) (policy : Int × Int) (faults : List Fault) : Keys :=
  ⟨now, .empty, .empty, policy, faults, []⟩

inductive Cmd : Type → Type where
  | now : Cmd Int
  | policy : Cmd (Int × Int)
  | setPolicy (idle absolute : Int) : Cmd Unit
  | get (k : Key) : Cmd (Option (Option Session))
  | set (k : Key) (sess : Session) (ttl : Int) : Cmd (Option Unit)
  | del (k : Key) : Cmd (Option Unit)
  | sAdd (k : Key) (m : String) : Cmd (Option Unit)
  | expire (k : Key) (seconds : Int) : Cmd (Option Unit)
  | sMembers (k : Key) : Cmd (Option (List String))
  | sRem (k : Key) (m : String) : Cmd (Option Unit)

namespace Keys

variable (s : Keys)

def deliver {α : Type} (reply : Option α) (s' : Keys) : Option α × Keys :=
  match s.faults with
  | [] => (reply, s')
  | .none :: faults => (reply, { s' with faults })
  | .refused :: faults => (none, { s with faults })
  | .unanswered :: faults => (none, { s' with faults })

def del (k : Key) : Keys :=
  { s with
    sessions := s.sessions.del k
    sets := s.sets.del k
    removed := if (s.sessions.lookup s.now k).isSome then k :: s.removed else s.removed }

def expire (k : Key) (seconds : Int) : Keys :=
  if seconds ≤ 0 then
    s.del k
  else
    { s with
      sessions := s.sessions.pexpire s.now k (seconds * 1000)
      sets := s.sets.pexpire s.now k (seconds * 1000) }

def step {β : Type} (c : Cmd β) (s : Keys) : β × Keys :=
  match c with
  | .now => (s.now, s)
  | .policy => (s.policy, s)
  | .setPolicy idle absolute => ((), { s with policy := (idle, absolute) })
  | .get k =>
    -- a command for the wrong kind of value is an error
    if (s.sets.lookup s.now k).isSome then
      s.deliver none s
    else
      s.deliver (some (s.sessions.get s.now k)) s
  | .set k sess ttl =>
    s.deliver (some ())
      { s with sessions := s.sessions.set k sess (some (s.now + ttl)), sets := s.sets.del k }
  | .del k => s.deliver (some ()) (s.del k)
  | .sAdd k m =>
    if (s.sessions.lookup s.now k).isSome then
      s.deliver none s
    else
      s.deliver (some ()) { s with sets := s.sets.sadd s.now k m }
  | .expire k seconds => s.deliver (some ()) (s.expire k seconds)
  | .sMembers k =>
    if (s.sessions.lookup s.now k).isSome then
      s.deliver none s
    else
      s.deliver (some (s.sets.smembers s.now k)) s
  | .sRem k m =>
    if (s.sessions.lookup s.now k).isSome then
      s.deliver none s
    else
      s.deliver (some ()) { s with sets := s.sets.srem s.now k m }

def advance (ms : Nat) (s : Keys) : Keys := { s with now := s.now + ms }

end Keys

def semantics : Prog.Semantics Cmd Keys := ⟨Keys.step, Keys.advance⟩

abbrev Op (α : Type) := Prog Cmd α

/-!
The operations. An error is the text that is put before the one of Redis.
-/

structure Manager where
  idleTimeout : Int
  absoluteTimeout : Int

variable (m : Manager)

def Manager.timeouts (policy : Int × Int) : Int × Int :=
  if 0 < policy.1 ∧ 0 < policy.2 then policy else (m.idleTimeout, m.absoluteTimeout)

def resolveTimeouts : Op (Int × Int) := do
  return m.timeouts (← .call .policy)

def checked (what : String) (reply : Option Unit) : Except String Unit :=
  match reply with
  | none => .error what
  | some () => .ok ()

def save (sess : Session) : Op (Except String Unit) := do
  let now ← .call .now
  let ttl := sess.expiresAt - now
  if ttl ≤ 0 then
    pure (.ok ())
  else
    let reply ← .call (.set (sessionKey sess.ns sess.id) sess ttl)
    pure (checked "" reply)

def formatSec (duration : Int) : Int :=
  if 0 < duration ∧ duration < 1000 then 1 else duration.tdiv 1000

structure Login where
  id : UUID
  ns : Namespace
  userID : Int64
  tenantID : Int64
  ip : String
  userAgent : String
  authType : String
  enroll : Bool
  changePwd : Bool

def newSession (login : Login) (now absolute : Int) : Session where
  id := login.id.text
  userID := login.userID
  tenantID := login.tenantID
  ns := login.ns
  ip := login.ip
  userAgent := login.userAgent
  authType := login.authType
  mfaVerified := false
  createdAt := now
  expiresAt := now + absolute
  lastActiveAt := now
  mfaVerifiedAt := none
  mfaEnrollPending := login.enroll
  pwdChangePending := login.changePwd

def addToIndex (sess : Session) (absolute : Int) : Op PUnit := do
  let _ ← .call (.sAdd (userKey sess.ns sess.userID) sess.id)
  let _ ← .call (.expire (userKey sess.ns sess.userID) (formatSec absolute))
  pure ()

def create (login : Login) : Op (Except String Session) := do
  let (_, absolute) ← resolveTimeouts m
  let now ← .call .now
  let sess := newSession login now absolute
  match ← save sess with
  | .error err => pure (.error err)
  | .ok () =>
    addToIndex sess absolute
    pure (.ok sess)

section

variable (ns : Namespace) (sessionID : String)

def delete : Op (Except String Unit) := do
  let reply ← .call (.del (sessionKey ns sessionID))
  pure (checked "" reply)

def unexpired (sess : Session) : Op (Except String (Option Session)) := do
  let now ← .call .now
  let (idle, _) ← resolveTimeouts m
  if sess.expiresAt < now ∨ sess.lastActiveAt + idle < now then
    let _ ← delete ns sessionID
    pure (.ok none)
  else
    pure (.ok (some sess))

def get : Op (Except String (Option Session)) := do
  match ← .call (.get (sessionKey ns sessionID)) with
  | none => pure (.error "get session")
  | some none => pure (.ok none)
  | some (some sess) => unexpired m ns sessionID sess

def writeBack (what : String) (change : Op (Session → Session)) : Op (Except String Unit) := do
  match ← .call (.get (sessionKey ns sessionID)) with
  | none => pure (.error what)
  | some none => pure (.ok ())
  | some (some sess) =>
    let f ← change
    save (f sess)

def touch : Op (Except String Unit) :=
  writeBack ns sessionID "touch get" do
    let now ← .call .now
    pure (fun sess => { sess with lastActiveAt := now })

def markMFAVerified : Op (Except String Unit) :=
  writeBack ns sessionID "mark mfa get" do
    let now ← .call .now
    pure (fun sess => { sess with mfaVerifiedAt := some now })

def zeroTime : Int := -62135596800000

def carryMFAVerifiedAt (verifiedAt : Option Int) : Op (Except String Unit) :=
  match verifiedAt with
  | none => pure (.ok ())
  | some t =>
    if t = zeroTime then
      pure (.ok ())
    else
      writeBack ns sessionID "carry mfa get" do
        pure (fun sess => { sess with mfaVerifiedAt := some t })

def setEnrollPending (pending : Bool) : Op (Except String Unit) :=
  writeBack ns sessionID "set enroll pending get" do
    pure (fun sess => { sess with mfaEnrollPending := pending })

def setPwdChangePending (pending : Bool) : Op (Except String Unit) :=
  writeBack ns sessionID "set pwd change pending get" do
    pure (fun sess => { sess with pwdChangePending := pending })

end

def collect (ns : Namespace) (index : Key) : List String → Op (List Session)
  | [] => pure []
  | id :: ids => do
    match ← get m ns id with
    | .error _ => collect ns index ids
    | .ok (some sess) =>
      let sessions ← collect ns index ids
      pure (sess :: sessions)
    | .ok none =>
      let _ ← .call (.sRem index id)
      collect ns index ids

def listByUser (ns : Namespace) (userID : Int64) : Op (Except String (List Session)) := do
  match ← .call (.sMembers (userKey ns userID)) with
  | none => pure (.error "list user sessions")
  | some ids =>
    let sessions ← collect m ns (userKey ns userID) ids
    pure (.ok sessions)

def deleteEach (ns : Namespace) (sessions : List Session) : Op PUnit :=
  forM sessions fun sess => do
    let _ ← delete ns sess.id
    pure ()

def deleteAllByUser (ns : Namespace) (userID : Int64) : Op (Except String Unit) := do
  match ← listByUser m ns userID with
  | .error err => pure (.error err)
  | .ok sessions =>
    deleteEach ns sessions
    let reply ← .call (.del (userKey ns userID))
    pure (checked "" reply)

inductive Call where
  | create (login : Login)
  | get (ns : Namespace) (sessionID : String)
  | touch (ns : Namespace) (sessionID : String)
  | markMFAVerified (ns : Namespace) (sessionID : String)
  | carryMFAVerifiedAt (ns : Namespace) (sessionID : String) (verifiedAt : Option Int)
  | setEnrollPending (ns : Namespace) (sessionID : String) (pending : Bool)
  | setPwdChangePending (ns : Namespace) (sessionID : String) (pending : Bool)
  | delete (ns : Namespace) (sessionID : String)
  | listByUser (ns : Namespace) (userID : Int64)
  | deleteAllByUser (ns : Namespace) (userID : Int64)
  | setPolicy (idle absolute : Int)

inductive Result where
  | session (reply : Except String (Option Session))
  | sessions (reply : Except String (List Session))
  | finished (reply : Except String Unit)
  deriving DecidableEq

def Call.prog : Call → Op Result
  | .create login => do return .session ((← Sessions.create m login).map some)
  | .get ns sessionID => do return .session (← Sessions.get m ns sessionID)
  | .touch ns sessionID => do return .finished (← Sessions.touch ns sessionID)
  | .markMFAVerified ns sessionID => do return .finished (← Sessions.markMFAVerified ns sessionID)
  | .carryMFAVerifiedAt ns sessionID verifiedAt => do
    return .finished (← Sessions.carryMFAVerifiedAt ns sessionID verifiedAt)
  | .setEnrollPending ns sessionID pending => do return .finished (← Sessions.setEnrollPending ns sessionID pending)
  | .setPwdChangePending ns sessionID pending => do
    return .finished (← Sessions.setPwdChangePending ns sessionID pending)
  | .delete ns sessionID => do return .finished (← Sessions.delete ns sessionID)
  | .listByUser ns userID => do return .sessions (← Sessions.listByUser m ns userID)
  | .deleteAllByUser ns userID => do return .finished (← Sessions.deleteAllByUser m ns userID)
  | .setPolicy idle absolute => do
    .call (.setPolicy idle absolute)
    return .finished (.ok ())

end Mxid.Sessions
