import Mxid.Authn.Lemmas.Login
import Mxid.Portal.Impl.System

namespace Mxid.Portal

open Prog List State
open Authn (AuthRequest)

section Commands

variable {α β : Type} {c : Cmd β} {f : β → Prog Cmd α} {Q : α → State → Prop} {s : State}

theorem wp_command (hfails : ∀ faults, (f c.failure).wp atOnce Q { s with faults })
    (hworks : ∀ faults, (f (({ s with faults } : State).perform c).1).wp atOnce Q
      (({ s with faults } : State).perform c).2) : (call c >>= f).wp atOnce Q s := by
  intro _
  change (f (s.step c).1).wp atOnce Q (s.step c).2
  unfold State.step
  split
  . apply hfails
  . apply hworks

theorem wp_read (hread : ∀ s : State, (s.perform c).2 = s)
    (h : ∀ faults b, (b = c.failure ∨ b = (s.perform c).1) → (f b).wp atOnce Q { s with faults }) :
    (call c >>= f).wp atOnce Q s := by
  have hanswer : ∀ faults, (({ s with faults } : State).perform c).1 = (s.perform c).1 := by
    intro faults
    cases c <;> rfl
  apply wp_command
  . intro faults
    apply h _ _ (.inl rfl)
  . intro faults
    rw [hread, hanswer]
    apply h _ _ (.inr rfl)

theorem wp_works (hfaults : s.faults.headD false = false)
    (h : (f (s.tick.perform c).1).wp atOnce Q (s.tick.perform c).2) : (call c >>= f).wp atOnce Q s := by
  intro _
  change (f (s.step c).1).wp atOnce Q (s.step c).2
  rw [State.step, hfaults]
  exact h

end Commands

def State.Adds (s : State) (R : Session → Prop) (s' : State) : Prop :=
  s'.sessions = s.sessions ∨ ∃ sess, R sess ∧ s'.sessions = s.sessions ++ [sess]

section Sms

variable {cfg : Config} {s : State} {req : SmsLoginRequest} {client : Client} {sessionID code : String}

theorem wp_resolveTenant {Q : Int → State → Prop}
    (h : ∀ faults tenantID, StandsFor cfg s code tenantID → Q tenantID { s with faults }) :
    (resolveTenant cfg code).wp atOnce Q s := by
  unfold resolveTenant
  split
  . apply h s.faults _ (.inl rfl)
  next hcode =>
  apply wp_read (fun _ => rfl)
  intro faults tid htid
  split
  . next hpos =>
    apply h faults
    rcases htid with rfl | rfl
    . contradiction
    . exact .inr ⟨hcode, hpos, rfl⟩
  . apply h faults _ (.inl rfl)

structure SmsSession (cfg : Config) (s : State) (req : SmsLoginRequest) (userID tenantID : Int) (u : User) : Prop where
  admitted : admitsSms cfg s req
  code : s.codes.get s.now (Text.trimSpace req.phone) = some (userID, req.code)
  tenant : StandsFor cfg s req.tenant tenantID
  user : s.users.getByID tenantID userID = some u

theorem wp_consumeCode {phone : String} {Q : Except ConsumeError Int → State → Prop}
    (hfails : ∀ err faults, Q (.error err) { s with faults })
    (hworks : ∀ userID faults codes, s.codes.get s.now phone = some (userID, code) →
      Q (.ok userID) { s with faults, codes }) : (consumeCode phone code).wp atOnce Q s := by
  unfold consumeCode
  apply wp_read (fun _ => rfl)
  intro faults answer hanswer
  split
  . apply hfails
  . apply hfails
  next userID expected =>
  split
  . apply hfails
  next hcode =>
  rcases hanswer with hanswer | hanswer
  . contradiction
  injection hanswer with hget
  rw [not_not] at hcode
  subst hcode
  apply wp_command
  . intro faults
    apply hworks _ _ _ hget.symm
  . intro faults
    apply hworks _ _ _ hget.symm

theorem smsLogin_adds :
    (smsLogin cfg sessionID req client).wp atOnce
      (fun _ s' => s.Adds (fun sess => ∃ tenantID u, SmsSession cfg s req sess.userID tenantID u) s') s := by
  unfold smsLogin
  apply wp_read (fun _ => rfl)
  intro _ enabled henabled
  split
  . exact .inl rfl
  next hon =>
  split
  . exact .inl rfl
  next hbound =>
  rw [wp_bind]
  apply wp_resolveTenant
  intro _ tenantID htenant
  apply wp_read (fun _ => rfl)
  intro _ lock hlock
  split
  . exact .inl rfl
  rw [wp_bind]
  apply wp_consumeCode
  . intro err _
    cases err with
    | readCode => exact .inl rfl
    | codeInvalid =>
      apply wp_command
      . intro _
        exact .inl rfl
      . intro _
        split
        . exact .inl rfl
        . exact .inl rfl
  . intro userID _ codes hcode
    have hadmitted : admitsSms cfg s req := by
      refine ⟨?_, ?_, ?_, ?_⟩
      . rcases henabled with rfl | rfl
        . contradiction
        . rw [Bool.not_eq_true, Bool.not_eq_false'] at hon
          exact hon
      . intro hphone
        exact hbound (.inl hphone)
      . by_contra hlength
        exact hbound (.inr hlength)
      . rcases hlock with hlock | hlock
        . contradiction
        . exact hlock.symm
    -- Whether the reset fails makes no difference to what comes after it.
    apply wp_command
    all_goals
      intro _
      apply wp_read (fun _ => rfl)
      intro _ found hfound
      split
      . exact .inl rfl
      next u =>
      apply wp_command
      . intro _
        exact .inl rfl
      . intro _
        right
        refine ⟨newSession sessionID userID tenantID client "sms_otp",
          ⟨tenantID, u, hadmitted, hcode, htenant, ?_⟩, rfl⟩
        rcases hfound with hfound | hfound
        . contradiction
        . exact hfound.symm

theorem wp_resolveTenant_of_standsFor {tenantID : Int} (h : StandsFor cfg s code tenantID) :
    ∃ faults, ∀ Q : Int → State → Prop, Q tenantID { s with faults := [] } →
      (resolveTenant cfg code).wp atOnce Q { s with faults } := by
  unfold resolveTenant
  by_cases hcode : code = ""
  . refine ⟨[], ?_⟩
    intro Q hQ
    rw [if_pos hcode, wp_pure]
    rcases h with rfl | ⟨hne, _⟩
    . exact hQ
    . contradiction
  . rcases h with rfl | ⟨_, hpos, rfl⟩
    . refine ⟨[true], ?_⟩
      intro Q hQ
      rw [if_neg hcode]
      exact fun _ => hQ
    . refine ⟨[], ?_⟩
      intro Q hQ
      rw [if_neg hcode]
      apply wp_works rfl
      dsimp only [perform, tick]
      rw [if_pos hpos]
      exact hQ

theorem smsLogin_signs_in {userID tenantID : Int} {u : User} (h : SmsSession cfg s req userID tenantID u) :
    ∃ faults, (smsLogin cfg sessionID req client).wp atOnce (fun _ s' =>
      s'.sessions = s.sessions ++ [newSession sessionID userID tenantID client "sms_otp"]) { s with faults } := by
  rcases h.admitted with ⟨hon, hphone, hlength, hlock⟩
  rcases wp_resolveTenant_of_standsFor h.tenant with ⟨faults, hresolve⟩
  refine ⟨false :: faults, ?_⟩
  unfold smsLogin
  apply wp_works rfl
  dsimp only [perform, tick, List.tail]
  rw [hon, if_neg (by simp), if_neg (by simp [hphone, hlength]), wp_bind]
  apply hresolve
  apply wp_works rfl
  dsimp only [perform, tick, List.tail]
  rw [hlock]
  rw [wp_bind]
  unfold consumeCode
  apply wp_works rfl
  dsimp only [perform, tick, List.tail]
  rw [h.code]
  dsimp only
  rw [if_neg (by simp)]
  apply wp_works rfl
  rw [wp_pure]
  apply wp_works rfl
  apply wp_works rfl
  dsimp only [perform, tick, List.tail]
  rw [h.user]
  apply wp_works rfl
  rfl

end Sms

section Link

variable {cfg : Config} {s : State} {sessionID token : String} {client : Client}

theorem magicCallback_adds :
    (magicCallback cfg sessionID token client).wp atOnce
      (fun _ s' => s.Adds (fun sess => token ≠ ""
        ∧ s.links.get s.now token = some (sess.userID, sess.tenantID)) s') s := by
  unfold magicCallback
  split
  . exact .inl rfl
  next htoken =>
  apply wp_command
  . intro _
    exact .inl rfl
  intro _
  split
  . exact .inl rfl
  next userID tenantID hlink =>
  apply wp_command
  . intro _
    exact .inl rfl
  . intro _
    exact .inr ⟨newSession sessionID userID tenantID client "magic_link", ⟨htoken, hlink⟩, rfl⟩

theorem magicCallback_signs_in {userID tenantID : Int} (htoken : token ≠ "")
    (hlink : s.links.get s.now token = some (userID, tenantID)) :
    (magicCallback cfg sessionID token client).wp atOnce (fun _ s' =>
      s'.sessions = s.sessions ++ [newSession sessionID userID tenantID client "magic_link"])
      { s with faults := [] } := by
  unfold magicCallback
  rw [if_neg htoken]
  apply wp_works rfl
  dsimp only [perform, tick, List.tail, Redis.Store.getDel]
  rw [hlink]
  apply wp_works rfl
  rfl

end Link

section Send

variable {cfg : Config} {s : State}

def Cmd.createsSession {β : Type} : Cmd β → Bool
  | .createSession _ => true
  | _ => false

theorem step_sessions {β : Type} {c : Cmd β} (h : c.createsSession = false) : (s.step c).2.sessions = s.sessions := by
  unfold State.step
  split
  . rfl
  . cases c <;> first | rfl | contradiction

def SameSessions (s s' : State) : Prop := s'.sessions = s.sessions

theorem resolveTenant_always {code : String} {P : {β : Type} → Cmd β → Prop} {R : Int → Prop}
    (hcode : ∀ code, P (.tenantByCode code)) (h : ∀ tenantID, R tenantID) : (resolveTenant cfg code).Always P R := by
  unfold resolveTenant
  split
  . apply h
  apply always_call_bind (hcode _)
  intro tid
  split <;> apply h

def Cmd.plain {β : Type} : Cmd β → Bool
  | .getCode _ | .delCode _ | .createSession _ => false
  | _ => true

theorem smsSend_always {code : Option String} {req : SmsSendRequest} :
    (smsSend cfg code req).Always (fun c => c.plain = true) (fun _ => True) := by
  unfold smsSend
  apply always_call_bind rfl
  intro _
  split
  . trivial
  split
  . trivial
  apply always_call_bind rfl
  intro _
  split
  . trivial
  rw [always_bind]
  apply resolveTenant_always (fun _ => rfl)
  intro _
  apply always_call_bind rfl
  intro _
  split
  . trivial
  split
  . trivial
  split
  . trivial
  apply always_call_bind rfl
  intro _
  split
  . trivial
  apply always_call_bind rfl
  intro _
  split
  . trivial
  apply always_call_bind rfl
  intro _
  trivial

theorem magicSend_always {token : Option String} {req : MagicSendRequest} :
    (magicSend cfg token req).Always (fun c => c.createsSession = false) (fun _ => True) := by
  unfold magicSend
  apply always_call_bind rfl
  intro _
  split
  . trivial
  split
  . trivial
  apply always_call_bind rfl
  intro _
  split
  . trivial
  apply always_call_bind rfl
  intro _
  split
  . trivial
  rw [always_bind]
  apply resolveTenant_always (fun _ => rfl)
  intro _
  apply always_call_bind rfl
  intro _
  split
  . trivial
  split
  . trivial
  split
  . trivial
  apply always_call_bind rfl
  intro _
  split
  . trivial
  apply always_call_bind rfl
  intro _
  trivial

end Send

section Engine

variable {s : State} {req : AuthRequest} {namespaceName : String}

theorem resolveUser_querier {r : User.Repository} {tenantID : Int} {identifier : String} {ua : Authn.UserAuth}
    (h : (querier r).resolveUser tenantID identifier = some ua) :
    ∃ u ∈ r.table.rows, u.deleted = false ∧ ua = toUserAuth u := by
  have hfirst : ∀ {p : User → Bool}, (r.first tenantID p).map toUserAuth = some ua →
      ∃ u ∈ r.table.rows, u.deleted = false ∧ ua = toUserAuth u := by
    intro p hp
    rw [Option.map_eq_some_iff] at hp
    rcases hp with ⟨u, hu, rfl⟩
    rcases User.Repository.first_eq_some hu with ⟨hmem, hlive, _, _⟩
    exact ⟨u, hmem, hlive, rfl⟩
  unfold Authn.UserAuthQuerier.resolveUser at h
  split at h
  . next hu =>
    cases h
    apply hfirst hu
  . split at h
    . apply hfirst h
    . contradiction

variable {resp : Authn.LoginResponse}

structure OpenChallenge (s : State) (challenge : String) (payload : Authn.MFAChallengePayload) : Prop where
  nonempty : challenge ≠ ""
  stored : s.challenges.get s.now challenge = some payload
  unlocked : s.mfa.check s.now payload.userID payload.clientIP = none

end Engine

section Requests

variable {cfg : Deployment} {s s' : State} {d : Draw} {sess : Session}

theorem notMem_created (h : s'.sessions = s.sessions) : sess ∉ created s s' := by
  rw [created, h, drop_length]
  apply not_mem_nil

theorem mem_created_iff {sess' : Session} (h : s'.sessions = s.sessions ++ [sess']) :
    sess ∈ created s s' ↔ sess = sess' := by
  rw [created, h, drop_left, mem_singleton]

variable {handler : Prog Cmd Response}

theorem created_of_wp {R : Session → Prop}
    (hwp : handler.wp atOnce (fun _ s' => State.Adds { s with faults := d.faults } R s')
      { s with faults := d.faults }) (h : sess ∈ created s (s.serve handler d)) : R sess := by
  rcases exec_of_wp hwp [] with hsame | ⟨sess', hR, hsessions⟩
  . exact absurd h (notMem_created hsame)
  have hserve : (s.serve handler d).sessions = s.sessions ++ [sess'] := hsessions
  rw [mem_created_iff hserve] at h
  rw [h]
  exact hR

theorem exists_created_of_wp
    (hwp : handler.wp atOnce (fun _ s' => s'.sessions = s.sessions ++ [sess]) { s with faults := d.faults }) :
    sess ∈ created s (s.serve handler d) := by
  apply (mem_created_iff (exec_of_wp hwp [])).mpr rfl

theorem created_login {r : AuthRequest} {namespaceName : String}
    (h : sess ∈ created s (handle cfg s d (.login r namespaceName))) :
    ∃ u ∈ s.users.table.rows, u.id = sess.userID ∧ ¬Barred u := by
  dsimp only [handle, afterLogin] at h
  split at h
  . exact absurd h (notMem_created rfl)
  next resp hresp =>
  split at h
  . exact absurd h (notMem_created rfl)
  rw [mem_created_iff rfl] at h
  subst h
  unfold Authn.Engine.login at hresp
  split at hresp
  . contradiction
  split at hresp
  . contradiction
  dsimp only at hresp
  split at hresp
  all_goals first | contradiction | skip
  next hsuccess =>
  dsimp only [engineSession] at hresp ⊢
  rw [Authn.Engine.secondFactor_userID hresp]
  rcases Authn.authenticate_success hsuccess with ⟨ua, hua, hactive, hid⟩
  rcases resolveUser_querier hua with ⟨u, hmem, hlive, rfl⟩
  refine ⟨u, hmem, hid.symm, ?_⟩
  rintro (hstatus | hdeleted)
  . exact hstatus hactive
  . rw [hlive] at hdeleted
    contradiction

theorem created_verifyMFA {challenge code : String}
    (h : sess ∈ created s (handle cfg s d (.verifyMFA challenge code))) :
    ∃ payload, OpenChallenge s challenge payload ∧ sess.userID = payload.userID := by
  dsimp only [handle, afterMFA] at h
  split at h
  . next hresp _ =>
    rw [mem_created_iff rfl] at h
    subst h
    unfold Authn.verifyMFAChallenge at hresp
    split at hresp
    . contradiction
    next payload challenges hconsume =>
    unfold Authn.consumeMFAChallenge at hconsume
    split at hconsume
    . injection hconsume with hnone _
      contradiction
    next hne =>
    injection hconsume with hstored _
    split at hresp
    . contradiction
    next hunlocked =>
    refine ⟨payload, ⟨hne, hstored, hunlocked⟩, ?_⟩
    split at hresp
    . contradiction
    . contradiction
    dsimp only [Authn.Engine.completeLogin] at hresp
    split at hresp
    . contradiction
    next hcompleted =>
    split at hcompleted
    . contradiction
    cases hcompleted
    cases hresp
    rfl
  . exact absurd h (notMem_created rfl)

theorem notMem_created_of_always (h : handler.Always (fun c => c.createsSession = false) (fun _ => True)) :
    sess ∉ created s (s.serve handler d) := by
  apply notMem_created
  have hwp : ∀ s, handler.wp atOnce (fun _ s' => True ∧ SameSessions s s') s := by
    apply h.wp
    . intro s
      rfl
    . intro s s' s'' h h'
      exact h'.trans h
    . intro _ c paused _ s hc
      cases paused <;> apply step_sessions hc
  exact (exec_of_wp (hwp { s with faults := d.faults }) _).2

def Draw.accepting (faults : List Bool) : Draw where
  code := none
  token := none
  challenge := ""
  sessionID := ""
  verifier := ⟨fun _ => .ok false, fun _ _ => .ok (), fun _ _ => .ok ()⟩
  faults := faults

theorem no_session_for_barred_iff (cfg : Deployment) (s : State) (req : Request) :
    (∀ d, ∀ u ∈ s.users.table.rows, Barred u → ∀ sess ∈ created s (handle cfg s d req), sess.userID ≠ u.id)
      ↔
    Vouched cfg.portal s req := by
  cases req with
  | login =>
    refine iff_of_true ?_ trivial
    intro d u hu hbarred sess hsess hid
    rcases created_login hsess with ⟨u', hu', hid', hfree⟩
    rw [s.users.table.eq_of_key_eq hu' hu (hid'.trans hid)] at hfree
    exact hfree hbarred
  | smsSend =>
    refine iff_of_true ?_ trivial
    intro d u hu hbarred sess hsess
    exact absurd hsess (notMem_created_of_always
      (smsSend_always.mono (fun c h => by cases c <;> first | rfl | contradiction) (fun _ h => h)))
  | magicSend =>
    refine iff_of_true ?_ trivial
    intro d u hu hbarred sess hsess
    exact absurd hsess (notMem_created_of_always magicSend_always)
  | verifyMFA =>
    constructor
    . intro h hnonempty payload hstored hunlocked u hu hid hbarred
      apply h (.accepting []) u hu hbarred (engineSession payload.namespaceName payload.authRequest
        ⟨payload.userID, payload.tenantID, payload.username, payload.displayName, "", false, [], ""⟩) _ hid.symm
      apply (mem_created_iff _).mpr rfl
      simp only [handle, afterMFA, Authn.verifyMFAChallenge, Authn.consumeMFAChallenge, if_neg hnonempty,
        Redis.Store.getDel, hstored, hunlocked]
      rfl
    . intro h d u hu hbarred sess hsess hid
      rcases created_verifyMFA hsess with ⟨payload, hopen, hsessID⟩
      exact h hopen.nonempty payload hopen.stored hopen.unlocked u hu (hid.symm.trans hsessID) hbarred
  | smsLogin =>
    constructor
    . intro h hadmitted userID hcode tenantID u htenant huser hbarred
      rcases smsLogin_signs_in ⟨hadmitted, hcode, htenant, huser⟩ with ⟨faults, hwp⟩
      rcases User.Repository.first_eq_some huser with ⟨hu, _, _, hid⟩
      apply h (.accepting faults) u hu hbarred _ (exists_created_of_wp hwp)
      exact (of_decide_eq_true hid).symm
    . intro h d u hu hbarred sess hsess hid
      rcases created_of_wp smsLogin_adds hsess with ⟨tenantID, u', hsession⟩
      rcases User.Repository.first_eq_some hsession.user with ⟨hu', _, _, hid'⟩
      have heq : u' = u := s.users.table.eq_of_key_eq hu' hu ((of_decide_eq_true hid').trans hid)
      rw [← heq] at hbarred
      exact h hsession.admitted sess.userID hsession.code tenantID u' hsession.tenant hsession.user hbarred
  | magicCallback =>
    constructor
    . intro h htoken userID tenantID hlink u hu hid hbarred
      apply h (.accepting []) u hu hbarred _ (exists_created_of_wp (magicCallback_signs_in htoken hlink))
      exact hid.symm
    . intro h d u hu hbarred sess hsess hid
      rcases created_of_wp magicCallback_adds hsess with ⟨htoken, hlink⟩
      exact h htoken sess.userID sess.tenantID hlink u hu hid.symm hbarred

end Requests

/-!
An account that is disabled after a challenge, a code and a link were issued to it.
-/

namespace Disabled

def limits (purpose : String) : RateLimit.Config := ⟨purpose, 5, 300000, 900000⟩

theorem limits_pos (purpose : String) :
    0 < (limits purpose).maxAttempts ∧ 0 < (limits purpose).window ∧ 0 < (limits purpose).lockout := by
  simp [limits]

def limiter (purpose : String) : RateLimit.Limiter :=
  ⟨limits purpose, (limits_pos purpose).1, (limits_pos purpose).2.1, (limits_pos purpose).2.2⟩

def deployment : Deployment where
  engine := ⟨fun password hash => password = hash, limiter "login"⟩
  portal :=
    { smsLimiter := limiter "sms_login"
      linkLimiter := limiter "magic_link_send"
      defaultTID := 1
      publicURL := "https://id.example"
      devFallback := false
      isEmail := fun email => '@' ∈ email.toList
      toLower := String.toLower }

def account (status : Int) : User where
  id := 7
  tenantID := 1
  username := "mia"
  email := some "mia@id.example"
  phone := some "15550100"
  displayName := none
  passwordHash := "secret"
  status := status
  deleted := false

def accounts (status : Int) : User.Repository where
  table := ⟨[account status], nodup_singleton _⟩
  id_pos := by simp [account]

def client : Client := ⟨"203.0.113.9", "browser"⟩

def draw : Draw where
  code := some "123456"
  token := some "link"
  challenge := "challenge"
  sessionID := "session"
  verifier := ⟨fun _ => .ok true, fun _ _ => .ok (), fun _ _ => .ok ()⟩
  faults := []

def acts : List Action :=
  [.request (.login ⟨1, "local", "mia", "secret", client.ip, client.userAgent⟩ namespacePortal) draw,
    .request (.smsSend ⟨"15550100", ""⟩) draw,
    .request (.magicSend ⟨"mia@id.example", ""⟩) draw,
    .edit (accounts User.statusDisabled)]

def start : State := .start 0 (accounts User.statusActive) (fun _ => 0) (fun _ => true)

abbrev exec : Option State :=
  Run.exec (step deployment) (fun _ _ => True) start acts

theorem exec_isSome : exec.isSome = true := by
  rfl

def disabled : State := exec.get exec_isSome

theorem disabled_account_signs_in :
    Run (step deployment) (fun _ _ => True) start acts disabled
      ∧ disabled.users.table.rows = [account User.statusDisabled]
      ∧ Barred (account User.statusDisabled)
      ∧ (created disabled (handle deployment disabled draw (.verifyMFA "challenge" "000000"))).map Session.userID
          = [7]
      ∧ (created disabled (handle deployment disabled draw (.smsLogin ⟨"15550100", "123456", ""⟩ client))).map
          Session.userID = [7]
      ∧ (created disabled (handle deployment disabled draw (.magicCallback "link" client))).map Session.userID
          = [7] :=
  ⟨Run.of_isSome _, by decide +kernel, by decide, by decide +kernel, by decide +kernel,
    by decide +kernel⟩

end Disabled

end Mxid.Portal
