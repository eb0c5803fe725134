import Mxid.Data.Run
import Mxid.Sso.Lemmas.CasSteps

namespace Mxid.Sso.Cas

open Redis.Store List

structure Accepted.OwnTicket (a : Accepted) (app : AppConfig) (issue : Issue) : Prop where
  path : a.app = some app
  enabled : app.status = 1
  issued : a.issue = some issue
  issuer : issue.appID = app.id
  service : issue.service = a.req.service
  pgt : ∀ p, a.pgt = some p → p.appID = app.id ∧ a.pgtRoot = some app.id

structure Pending.OwnTicket (s : System) (p : Pending) (issue : Issue) : Prop where
  issued : s.issued p.req.ticket = some issue
  issuer : issue.appID = p.app.id
  service : issue.service = p.req.service
  pgt : p.pgt.appID = p.app.id
  pgtRoot : s.pgtRoot p.pgt.pgt = some p.app.id

namespace System

structure Tracked (s : System) : Prop where
  issued : ∀ t issue, s.issued t = some issue → issue.root = some issue.appID
  tickets : ∀ t e, s.state.store.tickets t = some e →
    ∃ issue, s.issued t = some issue ∧ issue.service = e.value.service
  pgts : ∀ p e, s.state.store.pgts p = some e → s.pgtRoot p = some e.value.appID
  pending : ∀ p ∈ s.pending, ∃ issue, p.OwnTicket s issue
  accepted : ∀ a ∈ s.accepted, ∃ app issue, a.OwnTicket app issue

variable {s s' : System} {state : State} {req : ValidateRequest}

section

variable (h : s.Tracked)

include h

theorem Tracked.shrink {env : Env} {pending : List Pending}
    (htickets : ∀ t e, state.store.tickets t = some e → s.state.store.tickets t = some e)
    (hpgts : ∀ p e, state.store.pgts p = some e → s.state.store.pgts p = some e)
    (hpending : ∀ p ∈ pending, p ∈ s.pending) :
    { s with env := env, state := state, pending := pending }.Tracked where
  __ := h
  tickets := by
    intro t e he
    apply h.tickets t e (htickets t e he)
  pgts := by
    intro p e he
    apply h.pgts p e (hpgts p e he)
  pending := by
    intro p hp
    rcases h.pending p (hpending p hp) with ⟨issue, hissue⟩
    exact ⟨issue, { hissue with }⟩

theorem Tracked.issue {st : ServiceTicket} {issue : Issue} {expireAt : Option Int}
    (hnew : s.issued st.ticket = none) (hroot : issue.root = some issue.appID) (hservice : issue.service = st.service)
    (hstore : state.store = { s.state.store with tickets := s.state.store.tickets.set st.ticket st expireAt }) :
    ({ s with state := state }.recordIssue st.ticket issue).Tracked where
  issued := by
    intro t issue' ht
    simp only [recordIssue] at ht
    split at ht
    . cases ht
      apply hroot
    . apply h.issued t issue' ht
  tickets := by
    intro t e he
    simp only [recordIssue] at he ⊢
    rw [hstore] at he
    rcases eq_of_set_eq_some he with ⟨ht, he⟩ | he
    . rw [if_pos ht, he]
      exact ⟨issue, rfl, hservice⟩
    rcases h.tickets t e he with ⟨issue', hissue', hservice'⟩
    rw [if_neg]
    . exact ⟨issue', hissue', hservice'⟩
    intro ht
    rw [ht, hnew] at hissue'
    contradiction
  pgts := by
    intro p e he
    simp only [recordIssue] at he ⊢
    rw [hstore] at he
    apply h.pgts p e he
  pending := by
    intro p hp
    rcases h.pending p hp with ⟨issue', hissue'⟩
    refine ⟨issue', { hissue' with issued := ?_ }⟩
    simp only [recordIssue]
    rw [if_neg]
    . exact hissue'.issued
    intro ht
    have := hissue'.issued
    rw [ht, hnew] at this
    contradiction
  accepted := h.accepted

theorem Tracked.mint {p : Pending} {issue : Issue} {expireAt : Option Int}
    (hnew : s.pgtRoot p.pgt.pgt = none) (hissued : s.issued p.req.ticket = some issue)
    (hissuer : issue.appID = p.app.id) (hservice : issue.service = p.req.service) (hpgt : p.pgt.appID = p.app.id)
    (htickets : ∀ t e, state.store.tickets t = some e → s.state.store.tickets t = some e)
    (hpgts : state.store.pgts = s.state.store.pgts.set p.pgt.pgt p.pgt expireAt) :
    ({ s with state := state, pending := s.pending ++ [p] }.recordRoot p.pgt.pgt issue.root).Tracked where
  __ := h
  tickets := by
    intro t e he
    apply h.tickets t e (htickets t e he)
  pgts := by
    intro q e he
    simp only [recordRoot] at he ⊢
    rw [hpgts] at he
    rcases eq_of_set_eq_some he with ⟨hq, he⟩ | he
    . rw [if_pos hq, he, h.issued _ _ hissued, hissuer, hpgt]
    have hroot := h.pgts q e he
    rw [if_neg]
    . exact hroot
    intro hq
    rw [hq, hnew] at hroot
    contradiction
  pending := by
    intro q hq
    rcases mem_append.mp hq with hq | hq
    . rcases h.pending q hq with ⟨issue', hissue'⟩
      refine ⟨issue', { hissue' with pgtRoot := ?_ }⟩
      simp only [recordRoot]
      rw [if_neg]
      . exact hissue'.pgtRoot
      intro heq
      have := hissue'.pgtRoot
      rw [heq, hnew] at this
      contradiction
    . rw [mem_singleton.mp hq]
      refine ⟨issue, ⟨hissued, hissuer, hservice, hpgt, ?_⟩⟩
      simp only [recordRoot, if_true]
      rw [h.issued _ _ hissued, hissuer]

theorem Tracked.accept {pgt : Option ProxyGrantingTicket} {app : AppConfig} {issue : Issue}
    (happ : s.env.getApp req.appCode = some app) (henabled : app.status = 1)
    (hissued : s.issued req.ticket = some issue) (hissuer : issue.appID = app.id)
    (hservice : issue.service = req.service)
    (hpgt : ∀ p, pgt = some p → p.appID = app.id ∧ s.pgtRoot p.pgt = some app.id) :
    (s.recordAccepted req pgt).Tracked where
  __ := h
  pending := by
    intro p hp
    rcases h.pending p hp with ⟨issue', hissue'⟩
    exact ⟨issue', { hissue' with }⟩
  accepted := by
    intro a ha
    rcases mem_append.mp ha with ha | ha
    . apply h.accepted a ha
    rw [mem_singleton.mp ha]
    refine ⟨app, issue, ⟨happ, henabled, hissued, hissuer, hservice, ?_⟩⟩
    intro p hp
    rcases hpgt p hp with ⟨hid, hroot⟩
    dsimp only at hp ⊢
    rw [hp]
    exact ⟨hid, hroot⟩

theorem Tracked.sameStore {env : Env} (hstore : state.store = s.state.store) :
    { s with env := env, state := state }.Tracked := by
  refine h.shrink ?_ ?_ (fun _ => id)
  all_goals
    rw [hstore]
    exact fun _ _ => id

theorem Tracked.consumed (ticket : String) : { s with state := consumed s.state ticket }.Tracked := by
  refine h.shrink ?_ (fun _ _ => id) (fun _ => id)
  intro t e he
  apply eq_of_del_eq_some he

end

theorem tracked_validate {iou pgt : Except String String} (h : s.Tracked)
    (hown : s.ownAudience (.validate req iou pgt) = true)
    (hstep : s.step (.validate req iou pgt) = some s') : s'.Tracked := by
  rcases step_validate hstep with ⟨failure, state, _, hstate, rfl⟩ | ⟨st, hst, hcases⟩
  . rcases hstate with rfl | rfl
    . exact h
    . apply h.consumed
  simp only [ownAudience, hst.stored, Option.isSome_some, if_true, Option.any_eq_true, Bool.and_eq_true,
    decide_eq_true_eq] at hown
  rcases hown with ⟨app, happ, henabled, issue, hissued, hissuer⟩
  -- The stored ticket is for the service it was issued for.
  have hissue : issue.service = req.service := by
    rcases eq_some_of_get_eq_some hst.stored with ⟨e, he, hvalue⟩
    rcases h.tickets _ e he with ⟨issue', hissued', hservice'⟩
    rw [hissued] at hissued'
    cases hissued'
    rw [hservice', hvalue, hst.service]
  rcases hcases with ⟨_, _, rfl⟩ | ⟨p, state, expireAt, _, hp, hnew, htickets, hpgts, rfl⟩
  . apply (h.consumed req.ticket).accept happ henabled hissued hissuer hissue
    intro p hp
    contradiction
  have hpapp := hp.app
  rw [happ] at hpapp
  cases hpapp
  rw [hissued, Option.bind_some]
  apply h.mint hnew _ hissuer _ hp.appID _ hpgts
  . rw [hp.request]
    exact hissued
  . rw [hp.request]
    exact hissue
  . rw [htickets]
    intro t e he
    apply eq_of_del_eq_some he

theorem tracked_finish {i : Nat} {acknowledged : Bool} (h : s.Tracked)
    (hown : s.ownAudience (.finish i acknowledged) = true)
    (hstep : s.step (.finish i acknowledged) = some s') : s'.Tracked := by
  rcases step_finish hstep with ⟨p, hp, hstate, rfl⟩
  rcases h.pending p (mem_of_getElem? hp) with ⟨issue, hissue⟩
  simp only [ownAudience, hp, Option.all_some, Option.any_eq_true, Bool.and_eq_true, decide_eq_true_eq] at hown
  rcases hown with ⟨app, happ, henabled, hid⟩
  have htracked : Tracked { s with
      state := (Cas.finish s.env s.state p acknowledged).2, pending := s.pending.eraseIdx i } := by
    rcases hstate with hstate | hstate
    . rw [hstate]
      exact h.shrink (fun _ _ => id) (fun _ _ => id) (fun _ => mem_of_mem_eraseIdx)
    . rw [hstate]
      refine h.shrink (fun _ _ => id) ?_ (fun _ => mem_of_mem_eraseIdx)
      intro q e he
      apply eq_of_del_eq_some he
  apply htracked.accept happ henabled hissue.issued (by rw [hissue.issuer, hid]) hissue.service
  intro q hq
  cases hq
  rw [hid]
  exact ⟨hissue.pgt, hissue.pgtRoot⟩

theorem tracked_step {a : Action} (h : s.Tracked) (hown : s.ownAudience a = true)
    (hstep : s.step a = some s') : s'.Tracked := by
  cases a with
  | login =>
    rcases step_login hstep with
      ⟨app, st, location, state, expireAt, _, hnew, hst, hstore, rfl⟩ | ⟨reply, state, _, _, hstore, rfl⟩
    . apply h.issue hnew rfl hst.service.symm hstore
    . apply h.sameStore hstore
  | proxy =>
    rcases step_proxy hstep with
      ⟨app, pt, pgt, state, expireAt, _, hpgt, hid, hpt, hnew, hstore, rfl⟩ | ⟨code, msg, _, rfl⟩
    . -- The ticket it comes from belongs to the application and so does the start of its chain.
      rcases eq_some_of_get_eq_some hpgt with ⟨e, he, hvalue⟩
      have hroot := h.pgts _ e he
      rw [hvalue, hid] at hroot
      apply h.issue hnew hroot hpt.service.symm hstore
    . exact h
  | validate => apply tracked_validate h hown hstep
  | finish => apply tracked_finish h hown hstep
  | elapse | edit =>
    cases hstep
    apply h.sameStore
    rfl

end System

theorem ticket_audience {env : Env} {now : Int} {sessions : SessionStore} {confirms : ConfirmStore}
    {confirmEnabled : Bool} {acts : List Action} {s : System}
    (run : Run System.step (fun s a => s.ownAudience a = true)
      (System.start env now sessions confirms confirmEnabled) acts s) :
    ∀ a ∈ s.accepted, ∃ app issue, a.OwnTicket app issue := by
  have htracked : s.Tracked := by
    apply run.invariant (I := System.Tracked)
    . refine ⟨by simp [System.start], ?_, ?_, by simp [System.start], by simp [System.start]⟩
      . intro t e h
        contradiction
      . intro p e h
        contradiction
    . intro s a s' h hown hstep
      apply System.tracked_step h hown hstep
  exact htracked.accepted

namespace TwoApps

def app (id : Int) (code service : String) (status : Int) : AppConfig where
  id := id
  code := code
  clientID := code
  subjectStrategy := "username"
  status := status
  casConfig := ⟨[service], [], "roles", "", 30, true, 7200⟩
  samlConfig := ⟨"", "", [], "roles", "", 28800⟩

def wiki : AppConfig := app 10 "wiki" "https://wiki.example/cas" 1

def mail : AppConfig := app 20 "mail" "https://mail.example/cas" 2

def env : Env :=
  Alice.env [wiki, mail] [("https://wiki.example/cas", ⟨"https", "wiki.example", "/cas", false, ""⟩),
    ("https://mail.example/cas", ⟨"https", "mail.example", "/cas", false, ""⟩)]

def init : System := System.start env 0 Alice.sessions ⟨Redis.Store.empty⟩ true

def launch : Action :=
  .login ⟨"wiki", "https://wiki.example/cas", "", "sid", "", "1", ""⟩ (.ok "r1")

def validation (endpoint : Endpoint) (appCode ticket pgtURL : String) : ValidateRequest :=
  ⟨endpoint, appCode, ticket, "https://wiki.example/cas", pgtURL⟩

def crossed : List Action :=
  [launch,
    .validate (validation .serviceValidate "mail" "ST-r1" "https://mail.example/cas") (.ok "i1") (.ok "p1"),
    .finish 0 true]

def own : List Action :=
  [launch,
    .validate (validation .serviceValidate "wiki" "ST-r1" "https://wiki.example/cas") (.ok "i1") (.ok "p1"),
    .finish 0 true,
    .proxy ⟨"wiki", "PGT-p1", "https://wiki.example/cas"⟩ (.ok "r2"),
    .validate (validation .proxyValidate "wiki" "PT-r2" "") (.ok "i2") (.ok "p2")]

abbrev exec (allowed : System → Action → Bool) (acts : List Action) : Option System :=
  Run.exec System.step (fun s a => allowed s a = true) init acts

theorem crossed_isSome : (exec (fun _ _ => true) crossed).isSome = true := by
  decide +kernel

theorem own_isSome : (exec System.ownAudience own).isSome = true := by
  decide +kernel

def crossedPGT : ProxyGrantingTicket :=
  ⟨"PGT-p1", 7, 1, 20, "alice", "https://mail.example/cas", [], 0⟩

theorem ticket_of_other_app :
    Run System.step (fun _ _ => True) init crossed ((exec (fun _ _ => true) crossed).get crossed_isSome)
      ∧ ((exec (fun _ _ => true) crossed).get crossed_isSome).accepted
        =
        [⟨validation .serviceValidate "mail" "ST-r1" "https://mail.example/cas", some mail,
          some ⟨10, "https://wiki.example/cas", some 10⟩, some crossedPGT, some 10⟩]
      ∧ mail.id = 20 ∧ mail.status ≠ 1 :=
  ⟨(Run.of_isSome crossed_isSome).free,
    by decide +kernel, rfl, by decide⟩

theorem tickets_of_own_app :
    ((exec System.ownAudience own).get own_isSome).accepted.length = 2
      ∧ ∀ a ∈ ((exec System.ownAudience own).get own_isSome).accepted, ∃ app issue, a.OwnTicket app issue :=
  ⟨by decide +kernel, ticket_audience (Run.of_isSome own_isSome)⟩

end TwoApps

end Mxid.Sso.Cas
