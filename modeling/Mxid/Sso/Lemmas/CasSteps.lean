import Mxid.Sso.Impl.CasSystem

namespace Mxid.Sso.Cas

open Option

section Endpoints

variable {env : Env} {s : State}

theorem confirmLogin_store (s : State) (req : LoginRequest) (userID appID : Int) :
    (confirmLogin s req userID appID).2.store = s.store := by
  unfold confirmLogin
  split <;> rfl

structure ServiceTicket.OfLogin (st : ServiceTicket) (req : LoginRequest) : Prop where
  service : st.service = req.service
  isProxy : st.isProxy = false
  proxies : st.proxies = []

structure ServiceTicket.OfProxy (pt : ServiceTicket) (req : ProxyRequest) (pgt : ProxyGrantingTicket) : Prop where
  service : pt.service = req.targetService
  isProxy : pt.isProxy = true
  userID : pt.userID = pgt.userID
  username : pt.username = pgt.username
  proxies : pt.proxies = pgt.pgtURL :: pgt.proxies

theorem login_cases (env : Env) (s : State) (req : LoginRequest) (random : Except String String) :
    (∃ app st location state expireAt, login env s req random = (.redirectWithTicket app st location, state)
        ∧ st.OfLogin req
        ∧ state.store = { s.store with tickets := s.store.tickets.set st.ticket st expireAt })
      ∨ ∃ reply state, login env s req random = (reply, state)
        ∧ (∀ app st location, reply ≠ .redirectWithTicket app st location) ∧ state.store = s.store := by
  unfold login
  split
  . exact .inr ⟨_, _, rfl, by simp, rfl⟩
  split
  . exact .inr ⟨_, _, rfl, by simp, rfl⟩
  next app happ =>
  split
  . exact .inr ⟨_, _, rfl, by simp, rfl⟩
  split
  . exact .inr ⟨_, _, rfl, by simp, rfl⟩
  dsimp only
  split
  . exact .inr ⟨_, _, rfl, by simp, rfl⟩
  next sess hsess =>
  split
  . exact .inr ⟨_, _, rfl, by simp, rfl⟩
  have hstore := confirmLogin_store
    { s with sessions := (s.sessions.cookieSession s.now req.protoSID req.portalSID).2 } req sess.userID app.id
  split
  . next s' hconfirm =>
    rw [hconfirm] at hstore
    exact .inr ⟨_, _, rfl, by simp, hstore⟩
  next s' hconfirm =>
  rw [hconfirm] at hstore
  rw [← hstore]
  unfold issueTicket
  split
  . exact .inr ⟨_, _, rfl, by simp, rfl⟩
  split
  . exact .inr ⟨_, _, rfl, by simp, rfl⟩
  . exact .inl ⟨_, _, _, _, _, rfl, ⟨rfl, rfl, rfl⟩, rfl⟩

theorem proxy_cases (env : Env) (s : State) (req : ProxyRequest) (random : Except String String) :
    (∃ app pt pgt state expireAt, proxy env s req random = (.proxySuccess app pt, state)
        ∧ s.store.pgts.get s.now req.pgt = some pgt ∧ pgt.appID = app.id ∧ pt.OfProxy req pgt
        ∧ state.store = { s.store with tickets := s.store.tickets.set pt.ticket pt expireAt })
      ∨ ∃ code msg, proxy env s req random = (.proxyFailure code msg, s) := by
  unfold proxy
  split
  . exact .inr ⟨_, _, rfl⟩
  split
  . exact .inr ⟨_, _, rfl⟩
  next app happ =>
  split
  . exact .inr ⟨_, _, rfl⟩
  split
  . exact .inr ⟨_, _, rfl⟩
  split
  . exact .inr ⟨_, _, rfl⟩
  split
  . exact .inr ⟨_, _, rfl⟩
  next pgt hpgt =>
  split
  . exact .inr ⟨_, _, rfl⟩
  next hid =>
  split
  . exact .inr ⟨_, _, rfl⟩
  . exact .inl ⟨app, _, pgt, _, _, rfl, hpgt, not_not.mp hid, ⟨rfl, rfl, rfl, rfl, rfl⟩, rfl⟩

def consumed (s : State) (ticket : String) : State :=
  { s with store := (s.store.consumeTicket s.now ticket).2 }

structure Acceptable (s : State) (req : ValidateRequest) (st : ServiceTicket) : Prop where
  named : ¬(req.ticket = "" ∨ req.service = "")
  stored : s.store.tickets.get s.now req.ticket = some st
  kind : ¬(st.isProxy = true ∧ (!req.endpoint.allowProxy) = true)
  service : st.service = req.service

theorem acceptTicket_cases (s : State) (req : ValidateRequest) :
    (∃ st, acceptTicket s req = (.ok st, consumed s req.ticket) ∧ Acceptable s req st)
      ∨ ∃ failure state, acceptTicket s req = (.error failure, state)
        ∧ (state = s ∨ state = consumed s req.ticket) ∧ ∀ st, ¬Acceptable s req st := by
  unfold acceptTicket
  split
  . next hnamed => exact .inr ⟨_, _, rfl, .inl rfl, fun st h => h.named hnamed⟩
  next hnamed =>
  dsimp only
  split
  . next hnone =>
    refine .inr ⟨_, _, rfl, .inr rfl, ?_⟩
    intro st h
    have hstored := h.stored
    rw [show s.store.tickets.get s.now req.ticket = none from hnone] at hstored
    contradiction
  . next st hst =>
    have heq : ∀ st', Acceptable s req st' → st' = st := by
      intro st' h
      exact some.inj (h.stored.symm.trans hst)
    split
    . next hkind => exact .inr ⟨_, _, rfl, .inr rfl, fun st' h => h.kind (heq st' h ▸ hkind)⟩
    next hkind =>
    split
    . next hservice => exact .inr ⟨_, _, rfl, .inr rfl, fun st' h => hservice (heq st' h ▸ h.service)⟩
    . next hservice => exact .inl ⟨st, rfl, ⟨hnamed, hst, hkind, not_not.mp hservice⟩⟩

structure Pending.OfValidation (p : Pending) (env : Env) (req : ValidateRequest) (st : ServiceTicket) : Prop where
  request : p.req = req
  app : env.getApp req.appCode = some p.app
  wanted : wantsPGT env req p.app = true
  ticket : p.st = st
  appID : p.pgt.appID = p.app.id
  userID : p.pgt.userID = st.userID
  username : p.pgt.username = st.username
  pgtURL : p.pgt.pgtURL = req.pgtURL
  proxies : p.pgt.proxies = st.proxies

theorem validate_cases (env : Env) (s : State) (req : ValidateRequest) (iou pgt : Except String String) :
    (∃ failure state, validate env s req iou pgt = (.inl (req.endpoint.answer (.error failure)), state)
        ∧ (state = s ∨ state = consumed s req.ticket) ∧ ∀ st, ¬Acceptable s req st)
      ∨ ∃ st, Acceptable s req st
        ∧ ((∃ app, validate env s req iou pgt
            = (.inl (req.endpoint.answer (.ok (successOf env req.endpoint app st))), consumed s req.ticket))
          ∨ ∃ p state expireAt, validate env s req iou pgt = (.inr p, state) ∧ p.OfValidation env req st
            ∧ state
              =
              { consumed s req.ticket with
                store :=
                  { (consumed s req.ticket).store with
                    pgts := (consumed s req.ticket).store.pgts.set p.pgt.pgt p.pgt expireAt } }) := by
  unfold validate
  rcases acceptTicket_cases s req with ⟨st, haccept, hst⟩ | ⟨failure, state, haccept, hstate, hst⟩
  . right
    rw [haccept]
    dsimp only
    refine ⟨st, hst, ?_⟩
    split
    . exact .inl ⟨_, rfl⟩
    next app happ =>
    split
    . next hwants => exact .inr ⟨_, _, _, rfl, ⟨rfl, happ, hwants, rfl, rfl, rfl, rfl, rfl, rfl⟩, rfl⟩
    . exact .inl ⟨_, rfl⟩
  . left
    rw [haccept]
    exact ⟨failure, state, rfl, hstate, hst⟩

theorem finish_cases (env : Env) (s : State) (p : Pending) (acknowledged : Bool) :
    ∃ iou state, finish env s p acknowledged
        = (p.req.endpoint.answer
            (.ok { successOf env p.req.endpoint (some p.app) p.st with proxyGrantingTicket := iou }),
          state)
      ∧ (state = s ∨ state = { s with store := s.store.deletePGT p.pgt.pgt }) := by
  unfold finish
  split
  . exact ⟨_, _, rfl, .inl rfl⟩
  . exact ⟨_, _, rfl, .inr rfl⟩

theorem accepted_answer_error {endpoint : Endpoint} {failure : Failure} :
    (endpoint.answer (.error failure)).accepted = false := by
  cases endpoint <;> rfl

theorem accepted_answer_ok {endpoint : Endpoint} {success : AuthenticationSuccess} :
    (endpoint.answer (.ok success)).accepted = true := by
  cases endpoint <;> rfl

end Endpoints

namespace System

variable {s s' : System} {random : Except String String}

theorem step_login {req : LoginRequest} (h : s.step (.login req random) = some s') :
    (∃ app st location state expireAt,
        Cas.login s.env s.state req random = (.redirectWithTicket app st location, state)
        ∧ s.issued st.ticket = none ∧ st.OfLogin req
        ∧ state.store = { s.state.store with tickets := s.state.store.tickets.set st.ticket st expireAt }
        ∧ s' = { s with state := state }.recordIssue st.ticket ⟨app.id, req.service, some app.id⟩)
      ∨ ∃ reply state, Cas.login s.env s.state req random = (reply, state)
        ∧ (∀ app st location, reply ≠ .redirectWithTicket app st location)
        ∧ state.store = s.state.store ∧ s' = { s with state := state } := by
  simp only [step] at h
  rcases login_cases s.env s.state req random with
    ⟨app, st, location, state, expireAt, hlogin, hst, hstore⟩ | ⟨reply, state, hlogin, hreply, hstore⟩
  . left
    rw [hlogin] at h
    dsimp only at h
    split at h
    . contradiction
    next hnew =>
    rw [not_isSome_iff_eq_none] at hnew
    exact ⟨app, st, location, state, expireAt, hlogin, hnew, hst, hstore, (some.inj h).symm⟩
  . right
    refine ⟨reply, state, hlogin, hreply, hstore, ?_⟩
    rw [hlogin] at h
    split at h
    . next hlogin' =>
      cases hlogin'
      exact absurd rfl (hreply _ _ _)
    . next hlogin' =>
      cases hlogin'
      exact (some.inj h).symm

theorem step_proxy {req : ProxyRequest} (h : s.step (.proxy req random) = some s') :
    (∃ app pt pgt state expireAt, Cas.proxy s.env s.state req random = (.proxySuccess app pt, state)
        ∧ s.state.store.pgts.get s.state.now req.pgt = some pgt ∧ pgt.appID = app.id ∧ pt.OfProxy req pgt
        ∧ s.issued pt.ticket = none
        ∧ state.store = { s.state.store with tickets := s.state.store.tickets.set pt.ticket pt expireAt }
        ∧ s' = { s with state := state }.recordIssue pt.ticket ⟨app.id, req.targetService, s.pgtRoot req.pgt⟩)
      ∨ ∃ code msg, Cas.proxy s.env s.state req random = (.proxyFailure code msg, s.state) ∧ s' = s := by
  simp only [step] at h
  rcases proxy_cases s.env s.state req random with
    ⟨app, pt, pgt, state, expireAt, hproxy, hpgt, hid, hpt, hstore⟩ | ⟨code, msg, hproxy⟩
  . left
    rw [hproxy] at h
    dsimp only at h
    split at h
    . contradiction
    next hnew =>
    rw [not_isSome_iff_eq_none] at hnew
    exact ⟨app, pt, pgt, state, expireAt, hproxy, hpgt, hid, hpt, hnew, hstore, (some.inj h).symm⟩
  . right
    rw [hproxy] at h
    exact ⟨code, msg, hproxy, (some.inj h).symm⟩

theorem step_validate {req : ValidateRequest} {iou pgt : Except String String}
    (h : s.step (.validate req iou pgt) = some s') :
    (∃ failure state, Cas.validate s.env s.state req iou pgt
          = (.inl (req.endpoint.answer (.error failure)), state)
        ∧ (state = s.state ∨ state = consumed s.state req.ticket) ∧ s' = { s with state := state })
      ∨ ∃ st, Acceptable s.state req st
        ∧ ((∃ app, Cas.validate s.env s.state req iou pgt
              = (.inl (req.endpoint.answer (.ok (successOf s.env req.endpoint app st))), consumed s.state req.ticket)
            ∧ s' = { s with state := consumed s.state req.ticket }.recordAccepted req none)
          ∨ ∃ p state expireAt, Cas.validate s.env s.state req iou pgt = (.inr p, state)
            ∧ p.OfValidation s.env req st ∧ s.pgtRoot p.pgt.pgt = none
            ∧ state.store.tickets = (consumed s.state req.ticket).store.tickets
            ∧ state.store.pgts = s.state.store.pgts.set p.pgt.pgt p.pgt expireAt
            ∧ s' = { s with state := state, pending := s.pending ++ [p] }.recordRoot p.pgt.pgt
              ((s.issued req.ticket).bind Issue.root)) := by
  simp only [step] at h
  rcases validate_cases s.env s.state req iou pgt with
    ⟨failure, state, hvalidate, hstate, _⟩ | ⟨st, hst, ⟨app, hvalidate⟩ | ⟨p, state, expireAt, hvalidate, hp, hstate⟩⟩
  . left
    rw [hvalidate] at h
    dsimp only at h
    rw [if_neg (by simp [accepted_answer_error])] at h
    exact ⟨failure, state, hvalidate, hstate, (some.inj h).symm⟩
  . right
    rw [hvalidate] at h
    dsimp only at h
    rw [if_pos accepted_answer_ok] at h
    exact ⟨st, hst, .inl ⟨app, hvalidate, (some.inj h).symm⟩⟩
  . right
    rw [hvalidate] at h
    dsimp only at h
    split at h
    . contradiction
    next hnew =>
    rw [not_isSome_iff_eq_none] at hnew
    refine ⟨st, hst, .inr ⟨p, state, expireAt, hvalidate, hp, hnew, ?_, ?_, (some.inj h).symm⟩⟩
    . rw [hstate]
    . rw [hstate]
      rfl

theorem step_finish {i : Nat} {acknowledged : Bool} (h : s.step (.finish i acknowledged) = some s') :
    ∃ p, s.pending[i]? = some p
      ∧ ((Cas.finish s.env s.state p acknowledged).2 = s.state
        ∨ (Cas.finish s.env s.state p acknowledged).2
          = { s.state with store := s.state.store.deletePGT p.pgt.pgt })
      ∧ s' = { s with
          state := (Cas.finish s.env s.state p acknowledged).2
          pending := s.pending.eraseIdx i }.recordAccepted p.req (some p.pgt) := by
  simp only [step] at h
  split at h
  . contradiction
  next p hp =>
  refine ⟨p, hp, ?_, (some.inj h).symm⟩
  rcases finish_cases s.env s.state p acknowledged with ⟨iou, state, hfinish, hstate⟩
  rw [hfinish]
  exact hstate

end System

/-!
Alice has a session, and there are apps at a few addresses.
-/

namespace Alice

def env (apps : List AppConfig) (urls : List (String × URL)) : Env where
  getApp code := apps.find? (fun app => app.code = code)
  getAppByClientID _ := none
  resolveUser userID := if userID = 7 then .ok ⟨7, 1, "alice", "", "", "", "", []⟩ else .error "not found"
  getTenantCode := none
  resolveAppRoles := none
  pairwiseSubject _ _ := ""
  parseURL raw := urls.lookup raw

def sessions : SessionStore where
  protocol := Redis.Store.empty
  portal := Redis.Store.empty.set "sid" ⟨"sid", 7, 1, "pwd", 3600000⟩ (some 3600000)

end Alice

end Mxid.Sso.Cas
