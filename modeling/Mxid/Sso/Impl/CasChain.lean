import Mxid.Sso.Impl.CasSystem

namespace Mxid.Sso.Cas

inductive Origin where
  | login (st : ServiceTicket)
  | proxy (pgt : String)

structure Grant where
  ticket : String
  env : Env
  app : AppConfig
  pgtURL : String

def Grant.listed (g : Grant) : Bool := isValidService g.env g.app.casConfig g.pgtURL

/--
Only the system is part of the program. The other fields are the origins of the tickets, and the answers to validations.
-/
structure Traced where
  sys : System
  origins : String → Option Origin
  grants : String → Option Grant
  replies : List (ValidateRequest × ValidateReply)

namespace Traced

def start (env : Env) (now : Int) (sessions : SessionStore) (confirms : ConfirmStore)
    (confirmEnabled : Bool) : Traced :=
  ⟨.start env now sessions confirms confirmEnabled, fun _ => none, fun _ => none, []⟩

variable (s : Traced)

def recordOrigin (ticket : String) (origin : Origin) : Traced :=
  { s with origins := fun t => if t = ticket then some origin else s.origins t }

def recordGrant (pgt : String) (grant : Grant) : Traced :=
  { s with grants := fun p => if p = pgt then some grant else s.grants p }

def recordReply (req : ValidateRequest) (reply : ValidateReply) : Traced :=
  { s with replies := s.replies ++ [(req, reply)] }

def step (a : Action) : Option Traced :=
  match s.sys.step a with
  | none => none
  | some sys =>
    match a with
    | .login req random =>
      match login s.sys.env s.sys.state req random with
      | (.redirectWithTicket _ st _, _) => some ({ s with sys := sys }.recordOrigin st.ticket (.login st))
      | _ => some { s with sys := sys }
    | .proxy req random =>
      match proxy s.sys.env s.sys.state req random with
      | (.proxySuccess _ pt, _) => some ({ s with sys := sys }.recordOrigin pt.ticket (.proxy req.pgt))
      | (.proxyFailure _ _, _) => some { s with sys := sys }
    | .validate req iou pgt =>
      match validate s.sys.env s.sys.state req iou pgt with
      | (.inl reply, _) => some ({ s with sys := sys }.recordReply req reply)
      | (.inr p, _) =>
        if (s.grants p.pgt.pgt).isSome then
          none
        else
          some ({ s with sys := sys }.recordGrant p.pgt.pgt ⟨req.ticket, s.sys.env, p.app, p.pgt.pgtURL⟩)
    | .finish i acknowledged =>
      match s.sys.pending[i]? with
      | none => none
      | some p => some ({ s with sys := sys }.recordReply p.req (finish s.sys.env s.sys.state p acknowledged).1)
    | .elapse _ | .edit .. => some { s with sys := sys }

inductive Derives : String → ServiceTicket → List Grant → Prop
  | login {t : String} {st : ServiceTicket} (origin : s.origins t = some (.login st)) : Derives t st []
  | proxy {t pgt : String} {g : Grant} {st : ServiceTicket} {chain : List Grant}
      (origin : s.origins t = some (.proxy pgt)) (grant : s.grants pgt = some g)
      (rest : Derives g.ticket st chain) : Derives t st (g :: chain)

def isProxyTicket (ticket : String) : Bool :=
  match s.origins ticket with
  | some (.proxy _) => true
  | _ => false

end Traced

def accepts : ValidateReply ⊕ Pending → Bool
  | .inl reply => reply.accepted
  | .inr _ => true

def Endpoint.reportsProxies : Endpoint → Bool
  | .validate | .serviceValidate | .p3ServiceValidate => false
  | .proxyValidate | .p3ProxyValidate => true

def State.plainlyValid (s : State) (req : ValidateRequest) : Bool :=
  req.endpoint = .validate && req.ticket ≠ "" && req.service ≠ "" &&
    (s.store.tickets.get s.now req.ticket).any (fun st => st.service = req.service)

end Mxid.Sso.Cas
