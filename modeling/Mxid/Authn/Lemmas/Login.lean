import Mxid.Authn.Impl.System
import Mxid.Authn.Lemmas.Limiter
import Mxid.Data.Run

namespace Mxid.Authn

open RateLimit List Identifier Limiter

variable {checkPassword : String → String → Bool}

theorem authenticate_userID_pos {users : UserAuthQuerier} {req : AuthRequest}
    (h : comparesWrong checkPassword users req = true) : 0 < (authenticate checkPassword users req).userID := by
  unfold comparesWrong at h
  unfold authenticate
  split at h
  . contradiction
  next hempty =>
  rw [if_neg hempty]
  split at h
  . contradiction
  next u hu =>
  have hpos : 0 < u.id := by
    unfold UserAuthQuerier.resolveUser at hu
    split at hu
    . next hu' =>
      cases hu
      apply users.username_id_pos _ _ _ hu'
    . split at hu
      . apply users.email_id_pos _ _ _ hu
      . contradiction
  repeat' split
  all_goals apply hpos

theorem authenticate_success {users : UserAuthQuerier} {req : AuthRequest}
    (h : (authenticate checkPassword users req).status = .success) :
    ∃ u, users.resolveUser req.tenantID req.username = some u ∧ u.status = statusActive
      ∧ (authenticate checkPassword users req).userID = u.id := by
  revert h
  unfold authenticate
  split
  . intro h
    contradiction
  split
  . intro h
    contradiction
  next u hu =>
  split
  . intro h
    contradiction
  split
  . intro h
    contradiction
  next hknown =>
  split
  . intro h
    contradiction
  split
  . intro h
    contradiction
  next hdisabled =>
  intro _
  refine ⟨u, hu, ?_, rfl⟩
  by_contra hactive
  exact hknown ⟨hactive, hdisabled⟩

theorem user_mem_loginIdentifiers {userID userID' : Int} {clientIP : String} :
    user userID' ∈ loginIdentifiers userID clientIP ↔ 0 < userID ∧ userID' = userID := by
  unfold loginIdentifiers
  split
  all_goals
    split
    all_goals simp_all

theorem newLoginLimiter_window {cfg : LoginConfig} {l : Limiter} (h : newLoginLimiter cfg = .ok l) :
    l.cfg.window = l.cfg.lockout := by
  cases h
  simp only [Config.withDefaults]
  repeat' split
  all_goals omega

namespace Engine

variable {e : Engine} {s s' : State} {users : UserAuthQuerier} {backend : Backend}
variable {rdb : Keyspace Identifier} {now userID userID' n m : Int} {req : AuthRequest} {ns : String}

theorem trackFailure_snd :
    (e.trackFailure rdb now userID req).2
      =
    (e.loginLimiter.recordFailureMany rdb now (loginIdentifiers userID req.clientIP)).2 := by
  simp only [trackFailure]
  split <;> rfl

theorem secondFactor_userID {result : AuthResult} {resp : LoginResponse}
    (h : secondFactor backend ns req result = .ok resp) : resp.userID = result.userID := by
  simp only [secondFactor, completeLogin, issueChallenge] at h
  repeat' split at h
  all_goals cases h
  all_goals rfl

theorem login_not_admitted (h : e.admitted s req = false) :
    (e.login s.users backend s.rdb s.now req ns).rdb = s.rdb ∧
      e.issuedBy s (e.login s.users backend s.rdb s.now req ns) = [] := by
  unfold login
  split
  . exact ⟨rfl, rfl⟩
  next htype =>
  split
  . exact ⟨rfl, rfl⟩
  . next hlock => simp_all [admitted]

theorem login_admitted (h : e.admitted s req = true) :
    e.login s.users backend s.rdb s.now req ns
      =
    match (authenticate e.checkPassword s.users req).status with
    | .failed =>
      let tracked := e.trackFailure s.rdb s.now (authenticate e.checkPassword s.users req).userID req
      ⟨.error .authFailed, tracked.1, tracked.2⟩
    | .locked => ⟨.error (.accountLocked none), [], s.rdb⟩
    | .disabled => ⟨.error .accountDisabled, [], s.rdb⟩
    | .mfaRequired => ⟨.error .mfaRequired, [], s.rdb⟩
    | .success =>
      let result := authenticate e.checkPassword s.users req
      ⟨secondFactor backend ns req result, [],
        if 0 < result.userID then e.clearFailureCountIP s.rdb result.userID req.clientIP else s.rdb⟩ := by
  simp only [admitted, Bool.and_eq_true, decide_eq_true_eq, Option.isNone_iff_eq_none] at h
  unfold login
  split
  . next htype => exact absurd h.1 htype
  split
  . next err hlock =>
    rw [h.2] at hlock
    contradiction
  . rfl

theorem admitted_unlocked (hadmitted : e.admitted s req = true)
    (hshielded : e.shielded s (.login req ns backend) = true)
    (hstatus : (authenticate e.checkPassword s.users req).status = .success ∨
      (authenticate e.checkPassword s.users req).status = .failed) :
    e.userLocked s (authenticate e.checkPassword s.users req).userID = false := by
  simp only [admitted, Bool.and_eq_true, Option.isNone_iff_eq_none] at hadmitted
  simp only [shielded, hadmitted.2] at hshielded
  by_contra hlocked
  simp [hlocked, hstatus] at hshielded

theorem issuedBy_unlocked (hshielded : e.shielded s (.login req ns backend) = true) :
    ∀ i ∈ e.issuedBy s (e.login s.users backend s.rdb s.now req ns), i.accountLocked = false := by
  cases hadmitted : e.admitted s req with
  | false =>
    rw [(login_not_admitted hadmitted).2]
    simp
  | true =>
    rw [login_admitted hadmitted]
    cases hstatus : (authenticate e.checkPassword s.users req).status with
    | success =>
      unfold issuedBy
      split
      . simp
      next resp hresp =>
      intro i hi
      rw [mem_singleton.mp hi, secondFactor_userID hresp]
      apply admitted_unlocked hadmitted hshielded (Or.inl hstatus)
    | _ => simp [issuedBy]

theorem tally_trackFailure_of_ne (h : e.loginLimiter.Tally rdb now (.user userID') n)
    (hne : ¬(0 < userID ∧ userID' = userID)) :
    e.loginLimiter.Tally (e.trackFailure rdb now userID req).2 now (.user userID') n := by
  rw [trackFailure_snd]
  rw [← user_mem_loginIdentifiers] at hne
  rcases recordFailureMany_of_notMem hne with ⟨hcounters, hlocks⟩
  apply h.congr hcounters hlocks

theorem tally_clear (h : e.loginLimiter.Tally rdb now (.user userID') n) (hpos : 0 < userID) {clientIP : String} :
    e.loginLimiter.Tally (e.clearFailureCountIP rdb userID clientIP) now (.user userID') n := by
  unfold clearFailureCountIP
  by_cases heq : userID' = userID
  . subst heq
    simp only [loginIdentifiers, if_pos hpos, singleton_append, resetMany, foldl_cons]
    have hother : user userID' ∉ (if clientIP ≠ "" then [ip clientIP] else []) := by
      split <;> simp
    rcases resetMany_of_notMem hother with ⟨hcounters, hlocks⟩
    refine Limiter.Tally.congr ?_ hcounters hlocks
    apply Limiter.Tally.of_no_counter h.le_maxAttempts
    apply Redis.Store.lookup_del_self
  . have hne : user userID' ∉ loginIdentifiers userID clientIP := by
      simp [user_mem_loginIdentifiers, heq]
    rcases resetMany_of_notMem hne with ⟨hcounters, hlocks⟩
    apply h.congr hcounters hlocks

theorem wrongAfter_not_admitted (h : e.admitted s req = false) : e.wrongAfter s req = s.wrong := by
  funext u
  simp [wrongAfter, h]

theorem wrongAfter_of_ne (h : ¬((authenticate e.checkPassword s.users req).status = .failed ∧
      (authenticate e.checkPassword s.users req).userID = userID)) : e.wrongAfter s req userID = s.wrong userID := by
  unfold wrongAfter
  rw [if_neg (fun hfailed => h hfailed.2)]

theorem tally_failed (h : e.loginLimiter.Tally s.rdb s.now (.user userID) (s.wrong userID))
    (hwindow : e.loginLimiter.cfg.window = e.loginLimiter.cfg.lockout) (hadmitted : e.admitted s req = true)
    (hfailed : (authenticate e.checkPassword s.users req).status = .failed)
    (huser : (authenticate e.checkPassword s.users req).userID = userID) (hlock : e.userLocked s userID = false) :
    e.loginLimiter.Tally (e.trackFailure s.rdb s.now userID req).2 s.now (.user userID)
      (e.wrongAfter s req userID) := by
  have hwrong : e.wrongAfter s req userID
      =
    (if e.userCounted s userID then s.wrong userID else 0) +
      (if comparesWrong e.checkPassword s.users req then 1 else 0) := by
    simp [wrongAfter, hadmitted, hfailed, huser, hlock]
  rw [hwrong]
  by_cases hpos : 0 < userID
  . rw [trackFailure_snd]
    simp only [loginIdentifiers, if_pos hpos, singleton_append, recordFailureMany]
    -- The other identifier that is recorded is an address.
    have hother : user userID ∉ (if req.clientIP ≠ "" then [ip req.clientIP] else []) := by
      split <;> simp
    rcases recordFailureMany_of_notMem hother with ⟨hcounters, hlocks⟩
    refine Limiter.Tally.congr (h.recordFailure (by simpa [userLocked] using hlock) (by omega) ?_) hcounters hlocks
    unfold userCounted
    split
    all_goals
      split
      all_goals omega
  . -- Nobody has such an id, so nothing was compared.
    have hcompares : comparesWrong e.checkPassword s.users req = false := by
      by_contra hcompares
      have := authenticate_userID_pos (Bool.not_eq_false _ ▸ hcompares)
      omega
    simp only [hcompares, Bool.false_eq_true, if_false, Int.add_zero]
    apply tally_trackFailure_of_ne _ (fun hne => hpos hne.1)
    split
    . apply h
    next hcounted =>
    apply Limiter.Tally.of_no_counter (Int.le_of_lt e.loginLimiter.maxAttempts_pos)
    simpa [userCounted] using hcounted

theorem tally_login (h : ∀ u, e.loginLimiter.Tally s.rdb s.now (.user u) (s.wrong u))
    (hwindow : e.loginLimiter.cfg.window = e.loginLimiter.cfg.lockout)
    (hshielded : e.shielded s (.login req ns backend) = true) (u : Int) :
    e.loginLimiter.Tally (e.login s.users backend s.rdb s.now req ns).rdb s.now (.user u) (e.wrongAfter s req u) := by
  cases hadmitted : e.admitted s req with
  | false =>
    rw [(login_not_admitted hadmitted).1, wrongAfter_not_admitted hadmitted]
    apply h
  | true =>
    rw [login_admitted hadmitted]
    cases hstatus : (authenticate e.checkPassword s.users req).status with
    | failed =>
      by_cases huser : (authenticate e.checkPassword s.users req).userID = u
      . have hlock := admitted_unlocked hadmitted hshielded (Or.inr hstatus)
        rw [huser] at hlock
        rw [huser]
        apply tally_failed (h u) hwindow hadmitted hstatus huser hlock
      . rw [wrongAfter_of_ne (fun hne => huser hne.2)]
        apply tally_trackFailure_of_ne (h u)
        intro hne
        apply huser hne.2.symm
    | success =>
      rw [wrongAfter_of_ne (by simp [hstatus])]
      dsimp only
      split
      . next hpos => apply tally_clear (h u) hpos
      . apply h
    | _ =>
      rw [wrongAfter_of_ne (by simp [hstatus])]
      apply h

structure Guarded (e : Engine) (s : State) : Prop where
  unlocked : ∀ i ∈ s.issued, i.accountLocked = false
  tally : ∀ u, e.loginLimiter.Tally s.rdb s.now (.user u) (s.wrong u)

theorem guarded_step {a : Action} (h : e.Guarded s) (hwindow : e.loginLimiter.cfg.window = e.loginLimiter.cfg.lockout)
    (hshielded : e.shielded s a = true) (hstep : e.step s a = some s') : e.Guarded s' := by
  cases a with
  | login =>
    cases hstep
    constructor
    . intro i hi
      rcases mem_append.mp hi with hi | hi
      . apply h.unlocked i hi
      . apply issuedBy_unlocked hshielded i hi
    . apply tally_login h.tally hwindow hshielded
  | elapse =>
    cases hstep
    constructor
    . apply h.unlocked
    intro u
    apply (h.tally u).mono
    dsimp only
    omega
  | edit =>
    cases hstep
    exact ⟨h.unlocked, h.tally⟩

end Engine

theorem account_lock_enforced (e : Engine) (cfg : LoginConfig)
    (hwired : newLoginLimiter cfg = .ok e.loginLimiter) {now : Int} {users : UserAuthQuerier}
    {acts : List Action} {s : State}
    (run : Run e.step (fun s a => e.shielded s a = true) (State.start now users) acts s) :
    (∀ i ∈ s.issued, i.accountLocked = false) ∧
      ∀ userID, s.wrong userID ≤ e.loginLimiter.cfg.maxAttempts := by
  have hguarded : e.Guarded s := by
    apply run.invariant (I := e.Guarded)
    . exact ⟨by simp [State.start], fun _ => Limiter.Tally.empty⟩
    . intro s a s' h hshielded hstep
      apply Engine.guarded_step h (newLoginLimiter_window hwired) hshielded hstep
  exact ⟨hguarded.unlocked, fun userID => (hguarded.tally userID).le_maxAttempts⟩

namespace ManyAddresses

def alice : UserAuth := ⟨7, "alice", "Alice", "correct", statusActive⟩

def users : UserAuthQuerier where
  getByUsername _ username := if username = "alice" then some alice else none
  getByEmail _ _ := none
  username_id_pos := by
    intro _ username u h
    split at h
    . cases h
      decide
    . contradiction
  email_id_pos := by simp

def cfg : LoginConfig := ⟨5, 900000⟩

def limiter : Limiter where
  cfg := ⟨"login", 5, 900000, 900000⟩
  maxAttempts_pos := by decide
  window_pos := by decide
  lockout_pos := by decide

def engine : Engine := ⟨fun password hash => password = hash, limiter⟩

def guess (password clientIP : String) : Action :=
  .login ⟨1, "local", "alice", password, clientIP, ""⟩ "portal"
    ⟨none, fun _ _ _ => .ok "challenge", fun _ _ _ => .ok "session"⟩

def wrongGuesses : List Action :=
  ["10.0.0.1", "10.0.0.2", "10.0.0.3", "10.0.0.4", "10.0.0.5"].map (guess "wrong")

abbrev exec (allowed : State → Action → Bool) (acts : List Action) : Option State :=
  Run.exec engine.step (fun s a => allowed s a = true) (State.start 0 users) acts

def spread : List Action :=
  wrongGuesses ++ [guess "wrong" "10.0.0.6", guess "correct" "10.0.0.7"]

def patient : List Action :=
  wrongGuesses ++ [.elapse 900001, guess "correct" "10.0.0.7"]

theorem spread_isSome : (exec (fun _ _ => true) spread).isSome = true := by
  decide

theorem patient_isSome : (exec engine.shielded patient).isSome = true := by
  decide

theorem locked_account_guessed :
    Run engine.step (fun _ _ => True) (State.start 0 users) spread
        ((exec (fun _ _ => true) spread).get spread_isSome)
      ∧ ((exec (fun _ _ => true) spread).get spread_isSome).issued = [⟨7, true⟩]
      ∧ ((exec (fun _ _ => true) spread).get spread_isSome).wrong 7 = 6
      ∧ engine.loginLimiter.cfg.maxAttempts = 5 :=
  ⟨(Run.of_isSome spread_isSome).free,
    by decide, by decide, rfl⟩

theorem unlocked_account_login :
    ((exec engine.shielded patient).get patient_isSome).issued = [⟨7, false⟩]
      ∧ (∀ i ∈ ((exec engine.shielded patient).get patient_isSome).issued, i.accountLocked = false)
      ∧ ∀ userID, ((exec engine.shielded patient).get patient_isSome).wrong userID ≤ 5 :=
  ⟨by decide,
    account_lock_enforced engine cfg rfl (Run.of_isSome patient_isSome)⟩

end ManyAddresses

end Mxid.Authn
