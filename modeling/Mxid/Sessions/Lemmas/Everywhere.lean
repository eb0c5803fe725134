import Mathlib.Data.List.Nodup
import Mxid.Sessions.Lemmas.Calls

namespace Mxid.Sessions

open List Prog Keys Prod

variable {m : Manager} {created : List (Key × Int64)} {s s' : Keys}

theorem Keys.deliver_now {α : Type} {reply : Option α} (h : s'.now = s.now) : (s.deliver reply s').2.now = s.now := by
  unfold Keys.deliver
  split <;> first | exact h | rfl

theorem Keys.step_now {β : Type} (c : Cmd β) (s : Keys) : (Keys.step c s).2.now = s.now := by
  cases c with
  | now | policy | setPolicy => rfl
  | expire =>
    apply deliver_now
    unfold Keys.expire
    split <;> rfl
  | set | del => exact deliver_now rfl
  | _ =>
    unfold Keys.step
    dsimp only
    split <;> exact deliver_now rfl

theorem exec_now {α : Type} (p : Op α) (delays : List Nat) (s : Keys) :
    (p.exec semantics delays s).2.now ≤ s.now + delays.sum := by
  induction p generalizing delays s with
  | ret =>
    simp only [exec]
    omega
  | cmd paused c k ih =>
    have hrun : (semantics.run paused (delays.headD 0) c s).2.now ≤ s.now + delays.headD 0 := by
      unfold Semantics.run
      simp only [semantics, step_now]
      split
      . exact Int.le_refl _
      . omega
    have hsum : delays.sum = delays.headD 0 + delays.tail.sum := by
      cases delays with
      | nil | cons => rfl
    have hrest := ih (semantics.run paused (delays.headD 0) c s).1 delays.tail
      (semantics.run paused (delays.headD 0) c s).2
    simp only [exec]
    omega

theorem leaves_return {α : Type} {p : Op α} {f : α → Result} {assumed : Keys → Prop}
    (h : p.wp semantics (fun _ s' => Leaves created created s s') s) :
    (do return f (← p) : Op Result).wp semantics (fun _ s' => assumed s' → Leaves created created s s') s := by
  rw [wp_bind]
  apply wp_mono h
  intro _ s' hleaves _
  exact hleaves

theorem prog_wp (h : Indexed created s) {call : Call} (hcreate : ∀ login, call = .create login →
      LastsLongest login (m.timeouts s.policy).2 s ∧ sessionKey login.ns login.id.text ∉ created.map fst)
    (hdelete : ∀ ns sessionID, call = .delete ns sessionID → s.sets (sessionKey ns sessionID) = none) :
    (call.prog m).wp semantics (fun _ s' =>
      (∀ login, call = .create login → Steady s s' (userKey login.ns login.userID)) →
        Leaves created (call.owner.toList ++ created) s s') s := by
  cases call with
  | create login =>
    unfold Call.prog
    rw [wp_bind]
    apply wp_mono (create_wp h (hcreate login rfl).1 (hcreate login rfl).2)
    intro _ s' hleaves hsteady
    exact hleaves (hsteady login rfl)
  | get ns sessionID =>
    apply leaves_return
    apply wp_mono (get_wp h ns sessionID)
    intro _ s' hgot
    exact hgot.indexed.leaves hgot.fewer
  | touch =>
    apply leaves_return
    apply touch_wp h
  | markMFAVerified =>
    apply leaves_return
    apply markMFAVerified_wp h
  | carryMFAVerifiedAt =>
    apply leaves_return
    apply carryMFAVerifiedAt_wp h
  | setEnrollPending =>
    apply leaves_return
    apply setEnrollPending_wp h
  | setPwdChangePending =>
    apply leaves_return
    apply setPwdChangePending_wp h
  | delete ns sessionID =>
    apply leaves_return
    apply wp_mono (delete_wp h ns sessionID (hdelete ns sessionID rfl))
    rintro _ s' ⟨h', hfewer, _⟩
    exact h'.leaves hfewer
  | listByUser ns userID =>
    apply leaves_return
    apply wp_mono (listByUser_wp h ns userID)
    rintro _ s' ⟨h', hfewer, _⟩
    exact h'.leaves hfewer
  | deleteAllByUser ns userID =>
    apply leaves_return
    apply wp_mono (deleteAllByUser_wp h ns userID)
    rintro _ s' ⟨h', hfewer, _⟩
    exact h'.leaves hfewer
  | setPolicy =>
    unfold Call.prog
    rw [wp_bind]
    apply wp_command
    intro s1 h1 _
    apply Leaves.of_later _ h1
    have h1 := h.later h1
    exact ⟨⟨h1.faults, h1.stored, h1.index, h1.indexed⟩, Int.le_refl _, fun _ _ => id⟩

structure Server.Sound (s : Server) : Prop where
  indexed : Indexed s.created s.keys
  nodup : (s.created.map fst).Nodup

namespace Server.Sound

variable {s s' : Server} {t : Turn} {login : Login}

theorem lastsLongest (h : s.Sound) (hlasts : s.lastsLongest m login = true) :
    LastsLongest login (m.timeouts s.keys.policy).2 s.keys := by
  simp only [Server.lastsLongest, Bool.and_eq_true, decide_eq_true_eq, all_eq_true] at hlasts
  rcases hlasts with ⟨⟨hpos, hwhole⟩, hlatest⟩
  refine ⟨hpos, hwhole, ?_⟩
  intro k e he hkey
  have := hlatest (k, e.value.userID) (h.indexed.stored k e he).owner
  simpa [he, hkey] using this

theorem unused (hunused : s.unused t.call = true) (hcall : t.call = .create login) :
    sessionKey login.ns login.id.text ∉ s.created.map fst := by
  simp only [Server.unused, hcall, Call.creates, all_eq_true, decide_eq_true_eq] at hunused
  intro hmem
  rcases mem_map.mp hmem with ⟨c, hc, hkey⟩
  exact hunused c hc hkey

theorem exec_leaves (h : s.Sound) (hunused : s.unused t.call = true) (hpermits : s.permits m t = true) :
    Leaves s.created (t.call.owner.toList ++ s.created) s.keys (s.exec m t).2 := by
  unfold permits at hpermits
  rw [Bool.and_eq_true] at hpermits
  rcases hpermits with ⟨hfaults, hpermits⟩
  have hcreate : ∀ login, t.call = .create login →
      s.lastsLongest m login = true ∧ s.indexStays login t.delays = true := by
    intro login hcall
    simpa [hcall] using hpermits
  have hdelete : ∀ ns sessionID, t.call = .delete ns sessionID → s.keys.sets (sessionKey ns sessionID) = none := by
    intro ns sessionID hcall
    simpa [hcall] using hpermits
  have hkeys : { s.keys with faults := t.faults } = s.keys := by
    rw [isEmpty_iff.mp hfaults, ← h.indexed.faults]
  have hwp : (t.call.prog m).wp semantics _ s.keys := prog_wp h.indexed
    (fun login hcall => ⟨h.lastsLongest (hcreate login hcall).1, unused hunused hcall⟩) hdelete
  unfold Server.exec
  rw [hkeys]
  apply exec_of_wp hwp t.delays
  intro login hcall
  have hstays := (hcreate login hcall).2
  rintro ⟨ms, expireAt⟩ expiry hidx hexpiry
  cases hexpiry
  have hnow := exec_now (Call.prog m t.call) t.delays s.keys
  simp only [indexStays, hidx, Bool.or_eq_true, decide_eq_true_eq] at hstays
  omega

theorem step_leaves (h : s.Sound) (hpermits : s.permits m t = true) (hstep : s.step m t = some s') :
    s'.keys = (s.exec m t).2 ∧ s'.created = t.call.owner.toList ++ s.created
      ∧ Leaves s.created s'.created s.keys s'.keys := by
  unfold Server.step at hstep
  split at hstep
  . next hunused =>
    have hleaves := h.exec_leaves hunused hpermits
    have hkeys : { (s.exec m t).2 with faults := [] } = (s.exec m t).2 := by
      rw [← hleaves.indexed.faults]
    rw [hkeys] at hstep
    cases hstep
    exact ⟨rfl, rfl, hleaves⟩
  . contradiction

theorem step (h : s.Sound) (hpermits : s.permits m t = true) (hstep : s.step m t = some s') : s'.Sound := by
  rcases h.step_leaves hpermits hstep with ⟨_, hcreated, hleaves⟩
  refine ⟨hleaves.indexed, ?_⟩
  rw [hcreated]
  have hunused : s.unused t.call = true := by
    unfold Server.step at hstep
    split at hstep
    . assumption
    . contradiction
  cases hcall : t.call with
  | create =>
    simp only [Call.owner, Option.toList_some, singleton_append, map_cons, nodup_cons]
    exact ⟨unused hunused hcall, h.nodup⟩
  | _ => exact h.nodup

theorem gone_run (h : s.Sound) {k : Key} (hk : k ∈ s.created.map fst) (hgone : Expired s.keys k)
    {turns : List Turn} (run : Run (Server.step m) (fun s t => s.permits m t = true) s turns s') :
    s'.Sound ∧ Expired s'.keys k := by
  have hinv : s'.Sound ∧ k ∈ s'.created.map fst ∧ Expired s'.keys k := by
    apply run.invariant (I := fun s => s.Sound ∧ k ∈ s.created.map fst ∧ Expired s.keys k)
    . exact ⟨h, hk, hgone⟩
    rintro s t s' ⟨h, hk, hgone⟩ hpermits hstep
    rcases h.step_leaves hpermits hstep with ⟨_, hcreated, hleaves⟩
    refine ⟨h.step hpermits hstep, ?_, hleaves.gone k hk hgone⟩
    rw [hcreated, map_append]
    apply mem_append_right _ hk
  exact ⟨hinv.1, hinv.2.2⟩

theorem deleteAllByUser_gone (h : s.Sound) {ns : Namespace} {userID : Int64} {delays : List Nat}
    (hstep : s.step m ⟨.deleteAllByUser ns userID, delays, []⟩ = some s') {sessionID : String}
    (hcreated : (sessionKey ns sessionID, userID) ∈ s.created) : Expired s'.keys (sessionKey ns sessionID) := by
  have hsound := h.step (m := m) rfl hstep
  rcases h.step_leaves (m := m) rfl hstep with ⟨hkeys, hcreated', _⟩
  have hcovers : Covers ns userID [] s'.keys := by
    rw [hkeys]
    unfold Server.exec
    rw [show ({ s.keys with faults := [] } : Keys) = s.keys by rw [← h.indexed.faults]]
    have hwp : (Call.prog m (.deleteAllByUser ns userID)).wp semantics (fun _ s' => Covers ns userID [] s') s.keys := by
      unfold Call.prog
      rw [wp_bind]
      apply wp_mono (deleteAllByUser_wp h.indexed ns userID)
      rintro _ s' ⟨_, _, hcovers⟩
      exact hcovers
    apply exec_of_wp hwp
  intro e he
  by_contra hlive
  rw [Int.not_lt] at hlive
  have howner : e.value.userID = userID := by
    have howner := (hsound.indexed.stored _ e he).owner
    have hcreated : (sessionKey ns sessionID, userID) ∈ s'.created := hcreated' ▸ hcreated
    exact congrArg snd (inj_on_of_nodup_map hsound.nodup howner hcreated rfl)
  have hns : e.value.ns = ns := congrArg fst (hsound.indexed.stored _ e he).key
  have := hcovers _ e he hlive (by rw [hns, howner])
  contradiction

theorem get_not_expired {keys : Keys}
    (h : Indexed created keys) {ns : Namespace} {sessionID : String} {delays : List Nat}
    {sess : Session} (hget : ((get m ns sessionID).exec semantics delays keys).1 = .ok (some sess)) :
    ∃ e, keys.sessions (sessionKey ns sessionID) = some e ∧ e.value = sess ∧ keys.now ≤ sess.expiresAt :=
  (exec_of_wp (get_wp h ns sessionID) delays).found sess hget

end Server.Sound

/--
If no command fails and no index expires before a session in it: after all sessions of a user were deleted, `Get` never
again returns one that was created before.
-/
theorem logout_everywhere_reaches_every_session (m : Manager) (now : Int) (policy : Int × Int) (turns : List Turn)
    (s : Server)
    (run : Run (Server.step m) (fun s t => s.permits m t = true) (Server.start now policy) turns s) :
    (∀ (ms : Nat) (ns : Namespace) (sessionID : String) (delays : List Nat) (sess : Session),
      ((get m ns sessionID).exec semantics delays (s.keys.advance ms)).1 = .ok (some sess) →
        sessionID ∈ s.keys.sets.smembers (s.keys.now + ms) (userKey ns sess.userID))
      ∧ ∀ (ns : Namespace) (userID : Int64) (delays : List Nat) (s₁ : Server) (turns' : List Turn) (s₂ : Server),
        s.step m ⟨.deleteAllByUser ns userID, delays, []⟩ = some s₁ →
          Run (Server.step m) (fun s t => s.permits m t = true) s₁ turns' s₂ →
            ∀ sessionID, (sessionKey ns sessionID, userID) ∈ s.created → ∀ delays' sess,
              ((get m ns sessionID).exec semantics delays' s₂.keys).1 ≠ .ok (some sess) := by
  have hsound : s.Sound := by
    apply run.invariant (I := Server.Sound)
    . refine ⟨⟨rfl, ?_, ?_, ?_⟩, by simp [Server.start]⟩
      all_goals simp [Server.start, Keys.empty, Redis.Store.empty]
    . intro s t s' h hpermits hstep
      apply h.step hpermits hstep
  constructor
  . intro ms ns sessionID delays sess hget
    have hindexed := hsound.indexed.later (later_advance s.keys ms)
    rcases Server.Sound.get_not_expired hindexed hget with ⟨e, he, rfl, hlive⟩
    have hkey := (hindexed.stored _ e he).key
    have hmem := hindexed.covers ns e.value.userID _ e he hlive
        (by rw [show e.value.ns = ns from congrArg fst hkey])
    rw [show e.value.id = sessionID from congrArg snd hkey] at hmem
    exact hmem
  . intro ns userID delays s₁ turns' s₂ hstep run' sessionID hcreated delays' sess hget
    have hsound1 := hsound.step (m := m) rfl hstep
    have hk : sessionKey ns sessionID ∈ s₁.created.map fst := by
      rw [(hsound.step_leaves (m := m) rfl hstep).2.1]
      apply mem_map_of_mem hcreated
    rcases hsound1.gone_run hk (hsound.deleteAllByUser_gone hstep hcreated) run' with ⟨hsound2, hgone⟩
    rcases Server.Sound.get_not_expired hsound2.indexed hget with ⟨e, he, rfl, hlive⟩
    have := hgone e he
    omega

/-!
The administrator shortens the absolute timeout from eight hours to one, between two logins of a user.
-/

namespace ShorterTimeout

def laptop : Login where
  id := ⟨"1a-01", by decide⟩
  ns := .portal
  userID := 7
  tenantID := 1
  ip := "10.0.0.1"
  userAgent := "laptop"
  authType := "password"
  enroll := false
  changePwd := false

def phone : Login :=
  { laptop with id := ⟨"1a-02", by decide⟩, ip := "10.0.0.2", userAgent := "phone" }

def hours (n : Nat) : Nat := n * 3600000

def manager : Manager := ⟨hours 3, hours 8⟩

def start : Server := Server.start 0 (hours 3, hours 8)

def turn (ms : Nat) (call : Call) : Turn := ⟨call, [ms], []⟩

def everywhere : Turn := turn 0 (.deleteAllByUser .portal 7)

abbrev exec (allowed : Server → Turn → Bool) (s : Server) (turns : List Turn) : Option Server :=
  Run.exec (Server.step manager) (fun s t => allowed s t = true) s turns

def shortened : List Turn :=
  [turn 0 (.create laptop), turn 0 (.setPolicy (hours 3) (hours 1)), turn 0 (.create phone),
    turn (hours 2) (.get .portal "1a-02")]

theorem shortened_isSome : (exec (fun _ t => t.faults.isEmpty) start shortened).isSome = true := by
  decide

def later : Server := (exec (fun _ t => t.faults.isEmpty) start shortened).get shortened_isSome

theorem everywhere_isSome : (later.step manager everywhere).isSome = true := by
  decide

def loggedOut : Server := (later.step manager everywhere).get everywhere_isSome

theorem session_survives_logout_everywhere :
    Run (Server.step manager) (fun _ t => t.faults.isEmpty = true) start shortened later
      ∧ ((get manager .portal "1a-01").exec semantics [] later.keys).1 = .ok (some (newSession laptop 0 (hours 8)))
      ∧ "1a-01" ∉ later.keys.sets.smembers later.keys.now (userKey .portal 7)
      ∧ (sessionKey .portal "1a-01", 7) ∈ later.created
      ∧ later.step manager everywhere = some loggedOut
      ∧ (later.exec manager everywhere).1 = .finished (.ok ())
      ∧ ((get manager .portal "1a-01").exec semantics [] loggedOut.keys).1
        = .ok (some (newSession laptop 0 (hours 8))) :=
  ⟨Run.of_isSome shortened_isSome, by decide, by decide, by decide,
    (Option.some_get everywhere_isSome).symm, by decide, by decide⟩

def lengthened : List Turn :=
  [turn 0 (.create laptop), turn 0 (.setPolicy (hours 3) (hours 9)), turn 0 (.create phone),
    turn (hours 2) (.get .portal "1a-02")]

theorem lengthened_isSome : (exec (Server.permits manager) start lengthened).isSome = true := by
  decide

def longer : Server := (exec (Server.permits manager) start lengthened).get lengthened_isSome

theorem longer_isSome : (longer.step manager everywhere).isSome = true := by
  decide

def cleared : Server := (longer.step manager everywhere).get longer_isSome

theorem no_session_survives :
    "1a-01" ∈ longer.keys.sets.smembers (longer.keys.now + (0 : Nat)) (userKey .portal 7)
      ∧ ∀ delays sess, ((get manager .portal "1a-01").exec semantics delays cleared.keys).1 ≠ .ok (some sess) :=
  have run : Run (Server.step manager) (fun s t => s.permits manager t = true) start lengthened longer :=
    Run.of_isSome lengthened_isSome
  have h := logout_everywhere_reaches_every_session manager 0 (hours 3, hours 8) lengthened longer run
  ⟨h.1 0 .portal "1a-01" [] (newSession laptop 0 (hours 8)) (by decide),
    h.2 .portal 7 [0] cleared [] cleared (Option.some_get longer_isSome).symm .nil "1a-01" (by decide)⟩

end ShorterTimeout

end Mxid.Sessions
