import Mxid.Data.Run
import Mxid.Portal.Impl.Passwordless

namespace Mxid.Portal

inductive SmsCall where
  | send (code : Option String) (req : SmsSendRequest)
  | login (sessionID : String) (req : SmsLoginRequest) (client : Client)

namespace SmsCall

def prog (cfg : Config) : SmsCall → Prog Cmd Response
  | .send code req => smsSend cfg code req
  | .login sessionID req client => smsLogin cfg sessionID req client

def presents : SmsCall → Option String
  | .send _ _ => none
  | .login _ req _ => some req.code

end SmsCall

def timed : Prog.Semantics Cmd State := ⟨State.step, fun ms s => { s with now := s.now + ms }⟩

/--
A code that is stored for a phone is known by how many were stored for it before. Apart from the clients nothing of this
is stored anywhere: how many codes there were, which of them a client has read and presented, and the clients that have
created a session.
-/
structure SmsCodes where
  clients : Pool Cmd Response State
  issued : (phone : String) → Nat
  accepted : Nat → Option (String × Nat)
  created : List Nat

namespace SmsCodes

def start (cfg : Config) (s : State) (calls : List SmsCall) : SmsCodes :=
  ⟨⟨s, calls.map (SmsCall.prog cfg)⟩, fun _ => 0, fun _ => none, []⟩

variable (calls : List SmsCall) (s : SmsCodes)

def presents (i : Nat) (phone : String) (now : Int) : Bool :=
  (s.clients.shared.codes.get now phone).any (fun v => (calls[i]?).bind SmsCall.presents = some v.2)

def note {β : Type} (i : Nat) (now : Int) (c : Cmd β) : SmsCodes :=
  if s.clients.shared.faults.headD false then
    s
  else
    match c with
    | .setCode phone _ _ => { s with issued := Function.update s.issued phone (s.issued phone + 1) }
    | .getCode phone =>
      if s.presents calls i phone now then
        { s with accepted := Function.update s.accepted i (some (phone, s.issued phone)) }
      else
        s
    | .createSession _ => { s with created := i :: s.created }
    | _ => s

def noteNext (turn : Nat × Nat) : SmsCodes :=
  match s.clients.threads[turn.1]? with
  | some (.cmd _ c _) => s.note calls turn.1 (s.clients.shared.now + turn.2) c
  | _ => s

def step (turn : Nat × Nat) : Option SmsCodes :=
  (s.clients.step timed turn).map (fun clients => { s.noteNext calls turn with clients })

end SmsCodes

def Cmd.deletes {β : Type} (phone : String) : Cmd β → Bool
  | .delCode phone' => phone' = phone
  | _ => false

def deletesNext (phone : String) : Prog Cmd Response → Bool
  | .cmd _ c _ => c.deletes phone
  | .ret _ => false

/--
A code is read while no other client has read the code of the phone and is going to delete it, and deletions do not
fail.
-/
def SmsCodes.permits {β : Type} (s : SmsCodes) (i : Nat) : Cmd β → Bool
  | .getCode phone => s.clients.threads.zipIdx.all (fun t => t.2 = i || !deletesNext phone t.1)
  | .delCode _ => !s.clients.shared.faults.headD false
  | _ => true

def SmsCodes.orderly (s : SmsCodes) (turn : Nat × Nat) : Bool :=
  match s.clients.threads[turn.1]? with
  | some (.cmd _ c _) => s.permits turn.1 c
  | _ => true

end Mxid.Portal
