import Mxid.Data.Run
import Mxid.Sso.Impl.CasChain
import Mxid.Sso.Lemmas.CasSteps

/-!
This module contains the provenance of CAS tickets.
-/

namespace Mxid.Sso.Cas

open Redis.Store List Traced

namespace Traced

variable {s s' : Traced}

structure Extends (s s' : Traced) : Prop where
  origins : ∀ t o, s.origins t = some o → s'.origins t = some o
  grants : ∀ p g, s.grants p = some g → s'.grants p = some g

variable {t : String} {root st : ServiceTicket} {chain : List Grant} {sys : System}

theorem Derives.mono (h : s.Derives t root chain) (hext : s.Extends s') : s'.Derives t root chain := by
  induction h with
  | login origin => exact .login (hext.origins _ _ origin)
  | proxy origin grant _ ih => exact .proxy (hext.origins _ _ origin) (hext.grants _ _ grant) ih

theorem Derives.unique {root' : ServiceTicket} {chain' : List Grant}
    (h : s.Derives t root chain) (h' : s.Derives t root' chain') : root' = root ∧ chain' = chain := by
  induction h generalizing chain' with
  | login origin =>
    cases h' with
    | login origin' =>
      rw [origin] at origin'
      cases origin'
      exact ⟨rfl, rfl⟩
    | proxy origin' =>
      rw [origin] at origin'
      cases origin'
  | proxy origin grant _ ih =>
    cases h' with
    | login origin' =>
      rw [origin] at origin'
      cases origin'
    | proxy origin' grant' rest' =>
      rw [origin] at origin'
      cases origin'
      rw [grant] at grant'
      cases grant'
      rcases ih rest' with ⟨rfl, rfl⟩
      exact ⟨rfl, rfl⟩

structure Follows (s : Traced) (t username : String) (proxies : List String) (root : ServiceTicket)
    (chain : List Grant) : Prop where
  derives : s.Derives t root chain
  username : username = root.username
  proxies : proxies = chain.map Grant.pgtURL
  listed : ∀ g ∈ chain, g.listed = true

theorem Follows.mono {username : String} {proxies : List String}
    (h : s.Follows t username proxies root chain) (hext : s.Extends s') : s'.Follows t username proxies root chain :=
  ⟨h.derives.mono hext, h.username, h.proxies, h.listed⟩

def Describes (s : Traced) (t : String) (st : ServiceTicket) : Prop :=
  ∃ root chain, s.Follows t st.username st.proxies root chain ∧ (st.isProxy = true ↔ chain ≠ [])

def Grants (s : Traced) (p : String) (pgt : ProxyGrantingTicket) : Prop :=
  ∃ g root chain, s.grants p = some g ∧ g.pgtURL = pgt.pgtURL ∧ g.listed = true
    ∧ s.Follows g.ticket pgt.username pgt.proxies root chain

theorem Describes.mono (h : s.Describes t st) (hext : s.Extends s') : s'.Describes t st := by
  rcases h with ⟨root, chain, hfollows, hproxy⟩
  exact ⟨root, chain, hfollows.mono hext, hproxy⟩

theorem Grants.mono {p : String} {pgt : ProxyGrantingTicket} (h : s.Grants p pgt) (hext : s.Extends s') :
    s'.Grants p pgt := by
  rcases h with ⟨g, root, chain, hg, hurl, hlisted, hfollows⟩
  exact ⟨g, root, chain, hext.grants _ _ hg, hurl, hlisted, hfollows.mono hext⟩

theorem Describes.reports (h : s.Describes t st) {endpoint : Endpoint}
    (hendpoint : endpoint ≠ .validate) (env : Env) (app : Option AppConfig) :
    ∃ root chain, s.Follows t (successOf env endpoint app st).user (successOf env endpoint app st).proxies root
      chain := by
  rcases h with ⟨root, chain, hfollows, hproxy⟩
  refine ⟨root, chain, ⟨hfollows.derives, hfollows.username, ?_, hfollows.listed⟩⟩
  unfold successOf
  dsimp only
  split
  . exact hfollows.proxies
  next hnot =>
  have hchain : chain = [] := by
    by_contra hne
    exact hnot ⟨hendpoint, hproxy.mpr hne⟩
  rw [hchain, map_nil]

theorem Describes.isProxy (h : s.Describes t st) (ht : s.isProxyTicket t = true) : st.isProxy = true := by
  rcases h with ⟨root, chain, hfollows, hproxy⟩
  apply hproxy.mpr
  cases hfollows.derives with
  | login origin =>
    unfold isProxyTicket at ht
    rw [origin] at ht
    contradiction
  | proxy => exact cons_ne_nil _ _

structure Chained (s : Traced) : Prop where
  issued : ∀ t o, s.origins t = some o → (s.sys.issued t).isSome = true
  tickets : ∀ t e, s.sys.state.store.tickets t = some e → s.Describes t e.value
  pgts : ∀ p e, s.sys.state.store.pgts p = some e → s.Grants p e.value
  pending : ∀ p ∈ s.sys.pending, s.Describes p.req.ticket p.st
  replies : ∀ req success, (req, .success success) ∈ s.replies →
    ∃ root chain, s.Follows req.ticket success.user success.proxies root chain

theorem Chained.extend (h : s.Chained) (hext : s.Extends s')
    (hissued : ∀ t o, s'.origins t = some o → (s'.sys.issued t).isSome = true)
    (htickets : ∀ t e, s'.sys.state.store.tickets t = some e →
      s.sys.state.store.tickets t = some e ∨ s'.Describes t e.value)
    (hpgts : ∀ p e, s'.sys.state.store.pgts p = some e → s.sys.state.store.pgts p = some e ∨ s'.Grants p e.value)
    (hpending : ∀ p ∈ s'.sys.pending, p ∈ s.sys.pending ∨ s'.Describes p.req.ticket p.st)
    (hreplies : s'.replies = s.replies) : s'.Chained where
  issued := hissued
  tickets := by
    intro t e he
    rcases htickets t e he with hold | hnew
    . exact (h.tickets t e hold).mono hext
    . exact hnew
  pgts := by
    intro p e he
    rcases hpgts p e he with hold | hnew
    . exact (h.pgts p e hold).mono hext
    . exact hnew
  pending := by
    intro p hp
    rcases hpending p hp with hold | hnew
    . exact (h.pending p hold).mono hext
    . exact hnew
  replies := by
    rw [hreplies]
    intro req success hmem
    rcases h.replies req success hmem with ⟨root, chain, hfollows⟩
    exact ⟨root, chain, hfollows.mono hext⟩

theorem Extends.refl : s.Extends { s with sys := sys } := ⟨fun _ _ => id, fun _ _ => id⟩

theorem Chained.shrink (h : s.Chained) (hissued : sys.issued = s.sys.issued)
    (htickets : ∀ t e, sys.state.store.tickets t = some e → s.sys.state.store.tickets t = some e)
    (hpgts : ∀ p e, sys.state.store.pgts p = some e → s.sys.state.store.pgts p = some e)
    (hpending : ∀ p ∈ sys.pending, p ∈ s.sys.pending) : { s with sys := sys }.Chained := by
  apply h.extend .refl
  . rw [hissued]
    exact h.issued
  . exact fun t e he => .inl (htickets t e he)
  . exact fun p e he => .inl (hpgts p e he)
  . exact fun p hp => .inl (hpending p hp)
  . rfl

theorem Chained.sameStore (h : s.Chained) (hissued : sys.issued = s.sys.issued)
    (hstore : sys.state.store = s.sys.state.store) (hpending : sys.pending = s.sys.pending) :
    { s with sys := sys }.Chained := by
  apply h.shrink hissued
  . rw [hstore]
    exact fun _ _ => id
  . rw [hstore]
    exact fun _ _ => id
  . rw [hpending]
    exact fun _ => id

theorem Chained.reply (h : s.Chained) {req : ValidateRequest} {reply : ValidateReply}
    (hreply : ∀ success, reply = .success success →
      ∃ root chain, s.Follows req.ticket success.user success.proxies root chain) :
    (s.recordReply req reply).Chained := by
  have hext : s.Extends (s.recordReply req reply) := ⟨fun _ _ => id, fun _ _ => id⟩
  refine ⟨h.issued, ?_, ?_, ?_, ?_⟩
  . intro t e he
    exact (h.tickets t e he).mono hext
  . intro p e he
    exact (h.pgts p e he).mono hext
  . intro p hp
    exact (h.pending p hp).mono hext
  intro req' success hmem
  have hfollows : ∃ root chain, s.Follows req'.ticket success.user success.proxies root chain := by
    rcases mem_append.mp hmem with hold | hnew
    . exact h.replies req' success hold
    . cases mem_singleton.mp hnew
      exact hreply success rfl
  rcases hfollows with ⟨root, chain, hfollows⟩
  exact ⟨root, chain, hfollows.mono hext⟩

theorem Chained.issue (h : s.Chained) {state : State} {origin : Origin} {issue : Issue}
    {expireAt : Option Int} (hnew : s.sys.issued st.ticket = none)
    (hstore : state.store = { s.sys.state.store with tickets := s.sys.state.store.tickets.set st.ticket st expireAt })
    (hdescribes : ∀ s' : Traced, s.Extends s' → s'.origins st.ticket = some origin → s'.Describes st.ticket st) :
    ({ s with sys := { s.sys with state := state }.recordIssue st.ticket issue }.recordOrigin st.ticket
      origin).Chained := by
  have hnone : s.origins st.ticket = none := by
    cases horigin : s.origins st.ticket with
    | none => rfl
    | some =>
      have hissued := h.issued _ _ horigin
      rw [hnew] at hissued
      contradiction
  have hext : s.Extends
      ({ s with sys := { s.sys with state := state }.recordIssue st.ticket issue }.recordOrigin st.ticket origin) := by
    refine ⟨?_, fun _ _ => id⟩
    intro t o ho
    simp only [recordOrigin]
    rw [if_neg]
    . exact ho
    rintro rfl
    rw [hnone] at ho
    contradiction
  apply h.extend hext
  . intro t o ho
    simp only [recordOrigin, System.recordIssue] at ho ⊢
    split
    . rfl
    next hne =>
    rw [if_neg hne] at ho
    exact h.issued t o ho
  . intro t e he
    simp only [recordOrigin, System.recordIssue] at he
    rw [hstore] at he
    rcases eq_of_set_eq_some he with ⟨rfl, rfl⟩ | hold
    . right
      apply hdescribes _ hext
      simp [recordOrigin]
    . exact .inl hold
  . intro p e he
    simp only [recordOrigin, System.recordIssue] at he
    rw [hstore] at he
    exact .inl he
  . exact fun p hp => .inl hp
  . rfl

theorem step_eq_some {a : Action} (h : s.step a = some s') : ∃ sys, s.sys.step a = some sys := by
  unfold step at h
  split at h
  . contradiction
  . next sys hsys => exact ⟨sys, hsys⟩

variable {random : Except String String}

theorem chained_login {req : LoginRequest} (h : s.Chained)
    (hstep : s.step (.login req random) = some s') : s'.Chained := by
  rcases step_eq_some hstep with ⟨sys, hsys⟩
  simp only [step, hsys] at hstep
  rcases System.step_login hsys with
    ⟨app, st, location, state, expireAt, hlogin, hnew, hst, hstore, rfl⟩ | ⟨reply, state, hlogin, hreply, hstore, rfl⟩
  . rw [hlogin] at hstep
    cases hstep
    apply h.issue hnew hstore
    intro s' _ horigin
    refine ⟨st, [], ⟨.login horigin, rfl, ?_, by simp⟩, by simp [hst.isProxy]⟩
    rw [hst.proxies, map_nil]
  . rw [hlogin] at hstep
    have hsame : { s with sys := { s.sys with state := state } }.Chained := by
      apply h.sameStore
      . rfl
      . exact hstore
      . rfl
    split at hstep
    . next heq =>
      cases heq
      exact absurd rfl (hreply _ _ _)
    . cases hstep
      exact hsame

theorem chained_proxy {req : ProxyRequest} (h : s.Chained)
    (hstep : s.step (.proxy req random) = some s') : s'.Chained := by
  rcases step_eq_some hstep with ⟨sys, hsys⟩
  simp only [step, hsys] at hstep
  rcases System.step_proxy hsys with
    ⟨app, pt, pgt, state, expireAt, hproxy, hpgt, hid, hpt, hnew, hstore, rfl⟩ | ⟨code, msg, hproxy, rfl⟩
  . rw [hproxy] at hstep
    cases hstep
    apply h.issue hnew hstore
    intro s' hext horigin
    -- The ticket goes on from the proxy granting ticket it is exchanged for.
    rcases eq_some_of_get_eq_some hpgt with ⟨e, he, rfl⟩
    rcases (h.pgts _ e he).mono hext with ⟨g, root, chain, hg, hurl, hlisted, hfollows⟩
    refine ⟨root, g :: chain, ⟨.proxy horigin hg hfollows.derives, ?_, ?_, ?_⟩, by simp [hpt.isProxy]⟩
    . rw [hpt.username, hfollows.username]
    . rw [hpt.proxies, hfollows.proxies, map_cons, hurl]
    intro g' hg'
    rcases mem_cons.mp hg' with rfl | hg'
    . exact hlisted
    . exact hfollows.listed g' hg'
  . rw [hproxy] at hstep
    cases hstep
    exact h

theorem Chained.consumed (h : s.Chained) (ticket : String) :
    { s with sys := { s.sys with state := consumed s.sys.state ticket } }.Chained := by
  apply h.shrink
  . rfl
  . intro t e he
    apply eq_of_del_eq_some he
  . exact fun _ _ => id
  . exact fun _ => id

theorem Chained.recordAccepted (h : { s with sys := sys }.Chained) (req : ValidateRequest)
    (pgt : Option ProxyGrantingTicket) : { s with sys := sys.recordAccepted req pgt }.Chained := by
  apply h.sameStore
  all_goals rfl

theorem answer_ok_eq_success {endpoint : Endpoint} {success success' : AuthenticationSuccess}
    (h : endpoint.answer (.ok success) = .success success') : endpoint ≠ .validate ∧ success' = success := by
  cases endpoint <;> cases h <;> exact ⟨by simp, rfl⟩

theorem chained_validate {req : ValidateRequest} {iou pgt : Except String String} (h : s.Chained)
    (hstep : s.step (.validate req iou pgt) = some s') : s'.Chained := by
  rcases step_eq_some hstep with ⟨sys, hsys⟩
  simp only [step, hsys] at hstep
  rcases System.step_validate hsys with ⟨failure, state, hvalidate, hstate, rfl⟩ | ⟨st, hst, hcases⟩
  . rw [hvalidate] at hstep
    cases hstep
    have hsame : { s with sys := { s.sys with state := state } }.Chained := by
      rcases hstate with rfl | rfl
      . exact h
      . apply h.consumed
    apply hsame.reply
    intro success hreply
    cases hendpoint : req.endpoint <;> rw [hendpoint] at hreply <;> contradiction
  . rcases eq_some_of_get_eq_some hst.stored with ⟨e, he, rfl⟩
    have hdescribes := h.tickets _ e he
    rcases hcases with ⟨app, hvalidate, rfl⟩ | ⟨p, state, expireAt, hvalidate, hp, _, htickets, hpgts, rfl⟩
    . rw [hvalidate] at hstep
      cases hstep
      apply ((h.consumed req.ticket).recordAccepted req none).reply
      intro success hreply
      rcases answer_ok_eq_success hreply with ⟨hendpoint, rfl⟩
      exact (hdescribes.mono .refl).reports hendpoint _ _
    . rw [hvalidate] at hstep
      dsimp only at hstep
      split at hstep
      . contradiction
      next hnew =>
      cases hstep
      rw [Option.not_isSome_iff_eq_none] at hnew
      have hext : s.Extends ({ s with
          sys := { s.sys with state := state, pending := s.sys.pending ++ [p] }.recordRoot p.pgt.pgt
            ((s.sys.issued req.ticket).bind Issue.root) }.recordGrant p.pgt.pgt
          ⟨req.ticket, s.sys.env, p.app, p.pgt.pgtURL⟩) := by
        refine ⟨fun _ _ => id, ?_⟩
        intro q g hg
        simp only [recordGrant]
        rw [if_neg]
        . exact hg
        rintro rfl
        rw [hnew] at hg
        contradiction
      apply h.extend hext h.issued
      . intro t e he
        simp only [recordGrant, System.recordRoot] at he
        rw [htickets] at he
        exact .inl (eq_of_del_eq_some he)
      . intro q e' he'
        simp only [recordGrant, System.recordRoot] at he'
        rw [hpgts] at he'
        rcases eq_of_set_eq_some he' with ⟨rfl, rfl⟩ | hold
        . right
          rcases hdescribes.mono hext with ⟨root, chain, hfollows, _⟩
          refine ⟨⟨req.ticket, s.sys.env, p.app, p.pgt.pgtURL⟩, root, chain, by simp [recordGrant], rfl, ?_, ?_⟩
          . have hwanted := hp.wanted
            simp only [wantsPGT, Bool.and_eq_true] at hwanted
            unfold Grant.listed
            rw [hp.pgtURL]
            exact hwanted.2
          . rw [hp.username, hp.proxies]
            exact hfollows
        . exact .inl hold
      . intro q hq
        rcases mem_append.mp hq with hold | hq
        . exact .inl hold
        right
        cases mem_singleton.mp hq
        rw [hp.request, hp.ticket]
        exact hdescribes.mono hext
      . rfl

theorem chained_finish {i : Nat} {acknowledged : Bool} (h : s.Chained)
    (hstep : s.step (.finish i acknowledged) = some s') : s'.Chained := by
  rcases step_eq_some hstep with ⟨sys, hsys⟩
  simp only [step, hsys] at hstep
  rcases System.step_finish hsys with ⟨p, hp, hstate, rfl⟩
  rw [hp] at hstep
  cases hstep
  have hdescribes := h.pending p (mem_of_getElem? hp)
  have hshrunk : { s with sys := { s.sys with
      state := (Cas.finish s.sys.env s.sys.state p acknowledged).2
      pending := s.sys.pending.eraseIdx i } }.Chained := by
    apply h.shrink
    . rfl
    . intro t e he
      rcases hstate with hstate | hstate
      all_goals
        rw [hstate] at he
        exact he
    . intro q e he
      rcases hstate with hstate | hstate
      . rw [hstate] at he
        exact he
      . rw [hstate] at he
        apply eq_of_del_eq_some he
    . exact fun q hq => mem_of_mem_eraseIdx hq
  apply (hshrunk.recordAccepted p.req (some p.pgt)).reply
  intro success hreply
  rcases finish_cases s.sys.env s.sys.state p acknowledged with ⟨iou, state, hfinish, _⟩
  rw [hfinish] at hreply
  rcases answer_ok_eq_success hreply with ⟨hendpoint, rfl⟩
  exact (hdescribes.mono .refl).reports hendpoint s.sys.env (some p.app)

theorem chained_step {a : Action} (h : s.Chained) (hstep : s.step a = some s') : s'.Chained := by
  cases a with
  | login => apply chained_login h hstep
  | proxy => apply chained_proxy h hstep
  | validate => apply chained_validate h hstep
  | finish => apply chained_finish h hstep
  | elapse | edit =>
    cases hstep
    apply h.sameStore
    all_goals rfl

theorem chained_of_run {env : Env} {now : Int} {sessions : SessionStore} {confirms : ConfirmStore}
    {confirmEnabled : Bool} {acts : List Action}
    (run : Run step (fun _ _ => True) (start env now sessions confirms confirmEnabled) acts s) : s.Chained := by
  apply run.invariant
  . refine ⟨by simp [start], ?_, ?_, by simp [start, System.start], by simp [start]⟩
    . intro t e h
      contradiction
    . intro p e h
      contradiction
  . intro s a s' h _ hstep
    exact chained_step h hstep

end Traced

/--
Whenever a validation succeeds, its ticket has exactly one derivation. The user is that of the service ticket at the
root, and the proxies are the addresses of the proxy granting tickets on the way.
-/
theorem validation_reports_derivation {env : Env} {now : Int} {sessions : SessionStore} {confirms : ConfirmStore}
    {confirmEnabled : Bool} {acts : List Action} {s : Traced} {req : ValidateRequest} {success : AuthenticationSuccess}
    (run : Run step (fun _ _ => True) (start env now sessions confirms confirmEnabled) acts s)
    (hreply : (req, .success success) ∈ s.replies) :
    ∃ root chain, s.Derives req.ticket root chain
      ∧ (∀ root' chain', s.Derives req.ticket root' chain' → root' = root ∧ chain' = chain)
      ∧ success.user = root.username ∧ success.proxies = chain.map Grant.pgtURL
      ∧ ∀ g ∈ chain, g.listed = true := by
  rcases (chained_of_run run).replies req success hreply with ⟨root, chain, hfollows⟩
  exact ⟨root, chain, hfollows.derives, fun _ _ => hfollows.derives.unique, hfollows.username, hfollows.proxies,
    hfollows.listed⟩

theorem proxyTicket_visible_iff {env : Env} {now : Int} {sessions : SessionStore} {confirms : ConfirmStore}
    {confirmEnabled : Bool} {acts : List Action} {s : Traced} {req : ValidateRequest} {iou pgt : Except String String}
    (run : Run step (fun _ _ => True) (start env now sessions confirms confirmEnabled) acts s)
    (hproxy : s.isProxyTicket req.ticket = true) :
    (accepts (validate s.sys.env s.sys.state req iou pgt).1 = true → req.endpoint.reportsProxies = true)
      ↔
    s.sys.state.plainlyValid req = false := by
  have hchained := chained_of_run run
  rcases validate_cases s.sys.env s.sys.state req iou pgt with
    ⟨failure, state, hvalidate, _, hnot⟩ | ⟨st, hst, hcases⟩
  . -- a refused ticket is not valid for the endpoint of CAS 1.0 either
    have hrefused : accepts (validate s.sys.env s.sys.state req iou pgt).1 = false := by
      rw [hvalidate]
      exact accepted_answer_error
    rw [hrefused]
    apply iff_of_true (by simp)
    rw [← Bool.not_eq_true]
    intro hplain
    simp only [State.plainlyValid, Bool.and_eq_true, decide_eq_true_eq, Option.any_eq_true] at hplain
    rcases hplain with ⟨⟨⟨hendpoint, hticket⟩, hservice⟩, st, hst, hst_service⟩
    apply hnot st
    refine ⟨by simp [hticket, hservice], hst, ?_, hst_service⟩
    rw [hendpoint]
    simp [Endpoint.allowProxy]
  . have haccepted : accepts (validate s.sys.env s.sys.state req iou pgt).1 = true := by
      rcases hcases with ⟨app, hvalidate⟩ | ⟨p, state, expireAt, hvalidate, _⟩
      . rw [hvalidate]
        exact accepted_answer_ok
      . rw [hvalidate]
        rfl
    have hkind : st.isProxy = true := by
      rcases eq_some_of_get_eq_some hst.stored with ⟨e, he, rfl⟩
      exact (hchained.tickets _ e he).isProxy hproxy
    have hallows : req.endpoint.allowProxy = true := by
      by_contra hno
      exact hst.kind ⟨hkind, by simp [hno]⟩
    have hnamed := not_or.mp hst.named
    have hplain : s.sys.state.plainlyValid req = decide (req.endpoint = .validate) := by
      unfold State.plainlyValid
      rw [hst.stored]
      simp [hnamed.1, hnamed.2, hst.service]
    rw [haccepted, hplain]
    cases hendpoint : req.endpoint with
    | validate | proxyValidate | p3ProxyValidate => simp [Endpoint.reportsProxies]
    | serviceValidate | p3ServiceValidate => simp [hendpoint, Endpoint.allowProxy] at hallows

/-!
The wiki validates the ticket of a login, exchanges its proxy granting ticket for a proxy ticket, and does the same with
that one.
-/

namespace TwoHops

def wiki : AppConfig where
  id := 10
  code := "wiki"
  clientID := "wiki"
  subjectStrategy := "username"
  status := 1
  casConfig := ⟨["https://wiki/cas", "https://wiki/app"], [], "", "", 30, true, 7200⟩
  samlConfig := ⟨"", "", [], "", "", 28800⟩

def env : Env :=
  Alice.env [wiki] [("https://wiki/cas", ⟨"https", "wiki", "/cas", false, ""⟩),
    ("https://wiki/app", ⟨"https", "wiki", "/app", false, ""⟩)]

def init : Traced := .start env 0 Alice.sessions ⟨Redis.Store.empty⟩ true

def validation (endpoint : Endpoint) (ticket pgtURL : String) : ValidateRequest :=
  ⟨endpoint, "wiki", ticket, "https://wiki/cas", pgtURL⟩

def toFirstProxyTicket : List Action :=
  [.login ⟨"wiki", "https://wiki/cas", "", "sid", "", "1", ""⟩ (.ok "r1"),
    .validate (validation .serviceValidate "ST-r1" "https://wiki/cas") (.ok "i1") (.ok "p1"),
    .finish 0 true,
    .proxy ⟨"wiki", "PGT-p1", "https://wiki/cas"⟩ (.ok "r2")]

def twoHops : List Action :=
  toFirstProxyTicket ++
    [.validate (validation .proxyValidate "PT-r2" "https://wiki/app") (.ok "i2") (.ok "p2"),
      .finish 0 true,
      .proxy ⟨"wiki", "PGT-p2", "https://wiki/cas"⟩ (.ok "r3"),
      .validate (validation .p3ProxyValidate "PT-r3" "") (.ok "i3") (.ok "p3")]

abbrev exec (acts : List Action) : Option Traced := Run.exec step (fun _ _ => True) init acts

theorem twoHops_isSome : (exec twoHops).isSome = true := by
  decide +kernel

def afterTwoHops : Traced := (exec twoHops).get twoHops_isSome

def last : AuthenticationSuccess := ⟨"alice", [], "", ["https://wiki/app", "https://wiki/cas"]⟩

theorem last_mem : (validation .p3ProxyValidate "PT-r3" "", .success last) ∈ afterTwoHops.replies := by
  decide +kernel

theorem secondProxyTicket_derivation :
    ∃ root chain, afterTwoHops.Derives "PT-r3" root chain
      ∧ (∀ root' chain', afterTwoHops.Derives "PT-r3" root' chain' → root' = root ∧ chain' = chain)
      ∧ last.user = root.username ∧ last.proxies = chain.map Grant.pgtURL ∧ ∀ g ∈ chain, g.listed = true :=
  validation_reports_derivation (Run.of_isSome twoHops_isSome) last_mem

theorem firstProxyTicket_isSome : (exec toFirstProxyTicket).isSome = true := by
  decide +kernel

def withProxyTicket : Traced := (exec toFirstProxyTicket).get firstProxyTicket_isSome

theorem withProxyTicket_run : Run step (fun _ _ => True) init toFirstProxyTicket withProxyTicket :=
  Run.of_isSome firstProxyTicket_isSome

theorem isProxyTicket_first : withProxyTicket.isProxyTicket "PT-r2" = true := by
  decide +kernel

theorem proxyTicket_accepted_plainly :
    Run step (fun _ _ => True) init toFirstProxyTicket withProxyTicket
      ∧ withProxyTicket.isProxyTicket "PT-r2" = true
      ∧ accepts (validate withProxyTicket.sys.env withProxyTicket.sys.state (validation .validate "PT-r2" "")
          (.ok "i2") (.ok "p2")).1 = true
      ∧ Endpoint.validate.reportsProxies = false :=
  ⟨withProxyTicket_run, isProxyTicket_first, by decide +kernel, rfl⟩

theorem not_plainlyValid : withProxyTicket.sys.state.plainlyValid (validation .serviceValidate "PT-r2" "") = false := by
  decide +kernel

theorem proxyTicket_refused :
    withProxyTicket.sys.state.plainlyValid (validation .serviceValidate "PT-r2" "") = false
      ∧ (accepts (validate withProxyTicket.sys.env withProxyTicket.sys.state (validation .serviceValidate "PT-r2" "")
        (.ok "i2") (.ok "p2")).1 = true → Endpoint.serviceValidate.reportsProxies = true) :=
  ⟨not_plainlyValid, (proxyTicket_visible_iff withProxyTicket_run isProxyTicket_first).mpr not_plainlyValid⟩

end TwoHops

end Mxid.Sso.Cas
