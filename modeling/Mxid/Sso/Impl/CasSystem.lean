import Mxid.Sso.Impl.Cas

namespace Mxid.Sso.Cas

structure Issue where
  appID : Int
  service : String
  root : Option Int
  deriving DecidableEq

structure Accepted where
  req : ValidateRequest
  app : Option AppConfig
  issue : Option Issue
  pgt : Option ProxyGrantingTicket
  pgtRoot : Option Int
  deriving DecidableEq

/--
The last three fields are not part of the program. They are the history of the tickets.
-/
structure System where
  env : Env
  state : State
  pending : List Pending
  issued : String → Option Issue
  pgtRoot : String → Option Int
  accepted : List Accepted

inductive Action where
  | login (req : LoginRequest) (random : Except String String)
  | proxy (req : ProxyRequest) (random : Except String String)
  | validate (req : ValidateRequest) (iou pgt : Except String String)
  | finish (i : Nat) (acknowledged : Bool)
  | elapse (ms : Nat)
  | edit (env : Env) (sessions : SessionStore) (confirms : ConfirmStore)

namespace System

def start (env : Env) (now : Int) (sessions : SessionStore) (confirms : ConfirmStore)
    (confirmEnabled : Bool) : System :=
  ⟨env, ⟨now, sessions, confirms, confirmEnabled, .empty⟩, [], fun _ => none, fun _ => none, []⟩

def recordIssue (s : System) (ticket : String) (issue : Issue) : System :=
  { s with issued := fun t => if t = ticket then some issue else s.issued t }

def recordRoot (s : System) (pgt : String) (root : Option Int) : System :=
  { s with pgtRoot := fun p => if p = pgt then root else s.pgtRoot p }

def recordAccepted (s : System) (req : ValidateRequest) (pgt : Option ProxyGrantingTicket) : System :=
  { s with
    accepted := s.accepted ++
      [⟨req, s.env.getApp req.appCode, s.issued req.ticket, pgt, pgt.bind (fun p => s.pgtRoot p.pgt)⟩] }

def step (s : System) : Action → Option System
  | .login req random =>
    match login s.env s.state req random with
    | (.redirectWithTicket app st _, state) =>
      if (s.issued st.ticket).isSome then
        none
      else
        some ({ s with state := state }.recordIssue st.ticket ⟨app.id, req.service, some app.id⟩)
    | (_, state) => some { s with state := state }
  | .proxy req random =>
    match Cas.proxy s.env s.state req random with
    | (.proxySuccess app pt, state) =>
      if (s.issued pt.ticket).isSome then
        none
      else
        some ({ s with state := state }.recordIssue pt.ticket ⟨app.id, req.targetService, s.pgtRoot req.pgt⟩)
    | (.proxyFailure _ _, state) => some { s with state := state }
  | .validate req iou pgt =>
    match Cas.validate s.env s.state req iou pgt with
    | (.inl reply, state) =>
      if reply.accepted then
        some ({ s with state := state }.recordAccepted req none)
      else
        some { s with state := state }
    | (.inr p, state) =>
      if (s.pgtRoot p.pgt.pgt).isSome then
        none
      else
        some ({ s with state := state, pending := s.pending ++ [p] }.recordRoot p.pgt.pgt
          ((s.issued req.ticket).bind Issue.root))
  | .finish i acknowledged =>
    match s.pending[i]? with
    | none => none
    | some p =>
      let (_, state) := Cas.finish s.env s.state p acknowledged
      some ({ s with state := state, pending := s.pending.eraseIdx i }.recordAccepted p.req (some p.pgt))
  | .elapse ms => some { s with state := { s.state with now := s.state.now + ms } }
  | .edit env sessions confirms =>
    some { s with env := env, state := { s.state with sessions := sessions, confirms := confirms } }

/--
A live ticket is validated under the application that issued it, while that is enabled, and the
application is still there when the validation is over.
-/
def ownAudience (s : System) : Action → Bool
  | .validate req _ _ =>
    if (s.state.store.tickets.get s.state.now req.ticket).isSome then
      (s.env.getApp req.appCode).any (fun app =>
        app.status = 1 && (s.issued req.ticket).any (fun issue => issue.appID = app.id))
    else
      true
  | .finish i _ =>
    (s.pending[i]?).all (fun p =>
      (s.env.getApp p.req.appCode).any (fun app => app.status = 1 && app.id = p.app.id))
  | .login .. | .proxy .. | .elapse _ | .edit .. => true

end System

end Mxid.Sso.Cas
