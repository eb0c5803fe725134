import Mathlib.Algebra.GroupWithZero.Nat
import Mxid.Data.Run
import Mxid.Sessions.Impl.Manager

namespace Mxid.Sessions

variable (m : Manager)

abbrev Clients := Pool Cmd Result Keys

def Clients.start (keys : Keys) (calls : List Call) : Clients :=
  ⟨keys, calls.map (Call.prog m)⟩

def Call.creates : Call → Option Key
  | .create login => some (sessionKey login.ns login.id.text)
  | _ => none

def Cmd.setKey? : Cmd β → Option Key
  | .set k _ _ => some k
  | _ => none

def Clients.current (calls : List Call) (p : Clients) (turn : Nat × Nat) : Bool :=
  match p.threads[turn.1]? with
  | some (.cmd _ c _) =>
    match c.setKey? with
    | some k =>
      ((calls[turn.1]?).bind Call.creates).isSome
        || (p.shared.sessions.lookup (p.shared.now + turn.2) k).isSome
    | none => true
  | _ => true

inductive Field where
  | mfaEnrollPending
  | pwdChangePending
  | mfaVerifiedAt
  deriving DecidableEq

def Field.agrees : Field → Session → Session → Bool
  | .mfaEnrollPending, a, b => a.mfaEnrollPending = b.mfaEnrollPending
  | .pwdChangePending, a, b => a.pwdChangePending = b.pwdChangePending
  | .mfaVerifiedAt, a, b => a.mfaVerifiedAt = b.mfaVerifiedAt

def Call.updates (k : Key) : Call → Bool
  | .touch ns id | .markMFAVerified ns id | .carryMFAVerifiedAt ns id _ | .setEnrollPending ns id _
  | .setPwdChangePending ns id _ => sessionKey ns id = k
  | _ => false

def Call.sets : Call → Field → Bool
  | .markMFAVerified _ _, field | .carryMFAVerifiedAt _ _ _, field => field = .mfaVerifiedAt
  | .setEnrollPending _ _ _, field => field = .mfaEnrollPending
  | .setPwdChangePending _ _ _, field => field = .pwdChangePending
  | _, _ => false

def Cmd.written? : Cmd β → Option Session
  | .set _ sess _ => some sess
  | _ => none

def Cmd.isGet : Cmd β → Bool
  | .get _ => true
  | _ => false

def nextWrite : Op Result → Option Session
  | .ret _ => none
  | .cmd _ c _ => c.written?

def underWay : Op Result → Bool
  | .ret _ => false
  | .cmd _ c _ => !c.isGet

/--
The field `writes` is not stored anywhere, it lists what was written, the last one first, and by which client.
-/
structure Updates where
  clients : Clients
  writes : List (Nat × Session)

namespace Updates

def nextWrite (u : Updates) (i : Nat) : Option Session := (u.clients.threads[i]?).bind Sessions.nextWrite

def step (u : Updates) (turn : Nat × Nat) : Option Updates :=
  (u.clients.step semantics turn).map (fun clients =>
    ⟨clients, ((u.nextWrite turn.1).toList.map (Prod.mk turn.1)) ++ u.writes⟩)

def undisturbed (u : Updates) (turn : Nat × Nat) : Bool :=
  (u.nextWrite turn.1).isNone || u.clients.threads.zipIdx.all (fun t => t.2 = turn.1 || !underWay t.1)

def last (u : Updates) (calls : List Call) (field : Field) (sess : Session) : Session :=
  (u.writes.find? (fun w => (calls[w.1]?).any (fun call => call.sets field))).elim sess Prod.snd

end Updates

structure Turn where
  call : Call
  delays : List Nat
  faults : List Fault

structure Server where
  keys : Keys
  created : List (Key × Int64)

def Call.owner : Call → Option (Key × Int64)
  | .create login => some (sessionKey login.ns login.id.text, login.userID)
  | _ => none

namespace Server

def start (now : Int) (policy : Int × Int) : Server := ⟨.empty now policy [], []⟩

variable (s : Server)

def unused (call : Call) : Bool :=
  match call.creates with
  | none => true
  | some k => s.created.all (fun c => c.1 ≠ k)

def exec (t : Turn) : Result × Keys :=
  (t.call.prog m).exec semantics t.delays { s.keys with faults := t.faults }

def step (t : Turn) : Option Server :=
  if s.unused t.call then
    some ⟨{ (s.exec m t).2 with faults := [] }, t.call.owner.toList ++ s.created⟩
  else
    none

/--
The absolute timeout is a positive number of whole seconds, and none of the sessions that share an index
expires later than a session that is created now.
-/
def lastsLongest (login : Login) : Bool :=
  let absolute := (m.timeouts s.keys.policy).2
  0 < absolute && absolute % 1000 = 0 && s.created.all (fun c =>
    match s.keys.sessions c.1 with
    | none => true
    | some e =>
      userKey e.value.ns e.value.userID ≠ userKey login.ns login.userID
        || e.value.expiresAt ≤ s.keys.now + absolute)

def indexStays (login : Login) (delays : List Nat) : Bool :=
  match s.keys.sets (userKey login.ns login.userID) with
  | some ⟨_, some t⟩ => t < s.keys.now || s.keys.now + delays.sum ≤ t
  | _ => true

/--
No command fails, a session is only created if it lasts longest and the index stays meanwhile, and no index is
deleted under the pretence of being a session.
-/
def permits (t : Turn) : Bool :=
  t.faults.isEmpty &&
    match t.call with
    | .create login => s.lastsLongest m login && s.indexStays login t.delays
    | .delete ns sessionID => (s.keys.sets (sessionKey ns sessionID)).isNone
    | _ => true

end Server

end Mxid.Sessions
