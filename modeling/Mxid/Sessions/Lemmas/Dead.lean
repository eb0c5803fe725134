import Mxid.Sessions.Impl.System

namespace Mxid.Sessions

open Option Prog Clients Call Pool

namespace Keys

variable {s s' : Keys} {k : Key}

theorem deliver_snd {α : Type} (s : Keys) (reply : Option α) (s' : Keys) :
    ∃ faults, (s.deliver reply s').2 = { s' with faults } ∨ (s.deliver reply s').2 = { s with faults } := by
  unfold deliver
  split
  . next h => exact ⟨s'.faults, .inl rfl⟩
  . next faults h => exact ⟨faults, .inl rfl⟩
  . next faults h => exact ⟨faults, .inr rfl⟩
  . next faults h => exact ⟨faults, .inl rfl⟩

structure Quiet (k : Key) (s s' : Keys) : Prop where
  absent : s.sessions k = none → s'.sessions k = none
  removed : k ∈ s'.removed → k ∈ s.removed ∨ (s.sessions k ≠ none ∧ s'.sessions k = none)

theorem Quiet.of_eq (hsessions : s'.sessions k = s.sessions k) (hremoved : s'.removed = s.removed) : Quiet k s s' := by
  constructor
  . intro h
    rw [hsessions, h]
  . intro h
    rw [hremoved] at h
    exact .inl h

theorem Quiet.deliver {α : Type} {reply : Option α} (h : Quiet k s s') : Quiet k s (s.deliver reply s').2 := by
  rcases deliver_snd s reply s' with ⟨faults, heq | heq⟩
  . rw [heq]
    exact ⟨h.absent, h.removed⟩
  . rw [heq]
    exact Quiet.of_eq rfl rfl

theorem quiet_del (s : Keys) (k k' : Key) : Quiet k s (s.del k') := by
  constructor
  . intro h
    simp only [del, Redis.Store.del]
    split
    . rfl
    . exact h
  . intro h
    simp only [del] at h
    split at h
    . next hlive =>
      rcases List.mem_cons.mp h with rfl | h
      . right
        rcases isSome_iff_exists.mp hlive with ⟨e, he⟩
        rw [(Redis.Store.lookup_eq_some_iff.mp he).1]
        simp [del, Redis.Store.del]
      . exact .inl h
    . exact .inl h

theorem quiet_expire (s : Keys) (k k' : Key) (seconds : Int) : Quiet k s (s.expire k' seconds) := by
  unfold expire
  split
  . apply quiet_del
  refine ⟨?_, .inl⟩
  intro h
  by_cases hk : k = k'
  . subst hk
    simp [Redis.Store.pexpire, Redis.Store.lookup, h]
  . simp only [Redis.Store.pexpire_of_ne hk, h]

theorem quiet_step {β : Type} (c : Cmd β) (s : Keys) (hc : c.setKey? ≠ some k) : Quiet k s (step c s).2 := by
  cases c with
  | set =>
    apply Quiet.deliver
    refine Quiet.of_eq ?_ rfl
    apply Redis.Store.set_of_ne
    rintro rfl
    exact hc rfl
  | del =>
    apply Quiet.deliver
    apply quiet_del
  | expire =>
    apply Quiet.deliver
    apply quiet_expire
  | _ =>
    simp only [step]
    repeat' split
    all_goals first | exact Quiet.of_eq rfl rfl | exact Quiet.deliver (Quiet.of_eq rfl rfl)

theorem quiet_run {β : Type} (paused : Bool) (delay : Nat) (c : Cmd β) (s : Keys) (hc : c.setKey? ≠ some k) :
    Quiet k s (semantics.run paused delay c s).2 := by
  cases paused with
  | false => apply quiet_step c s hc
  | true =>
    have h := quiet_step c (s.advance delay) hc
    exact ⟨h.absent, h.removed⟩

theorem removed_run_set {paused : Bool} {delay : Nat} {c : Cmd β} {s : Keys} {k' : Key} (hc : c.setKey? = some k')
    (h : k ∈ (semantics.run paused delay c s).2.removed) : k ∈ s.removed := by
  cases c with
  | set =>
    cases paused
    all_goals
      simp only [Prog.Semantics.run, semantics, step] at h
      rcases deliver_snd _ _ _ with ⟨faults, heq | heq⟩
      all_goals
        rw [heq] at h
        exact h
  | _ => contradiction

theorem mem_removed_run {paused : Bool} {delay : Nat} (c : Cmd β) (h : k ∈ s.removed) :
    k ∈ (semantics.run paused delay c s).2.removed := by
  have hdel : ∀ (s : Keys) (k' : Key), k ∈ s.removed → k ∈ (s.del k').removed := by
    intro s k' h
    simp only [del]
    split
    . exact List.mem_cons_of_mem _ h
    . exact h
  have hdeliver : ∀ {α : Type} (s s' : Keys) (reply : Option α), k ∈ s.removed → k ∈ s'.removed →
      k ∈ (s.deliver reply s').2.removed := by
    intro α s s' reply h h'
    rcases deliver_snd s reply s' with ⟨faults, heq | heq⟩
    . rw [heq]
      exact h'
    . rw [heq]
      exact h
  have hstep : ∀ s : Keys, k ∈ s.removed → k ∈ (step c s).2.removed := by
    intro s h
    cases c with
    | del k' => apply hdeliver _ _ _ h (hdel s k' h)
    | expire k' =>
      apply hdeliver _ _ _ h
      unfold expire
      split
      . apply hdel s k' h
      . exact h
    | _ =>
      simp only [step]
      repeat' split
      all_goals first | exact h | exact hdeliver _ _ _ h h
  cases paused with
  | false => apply hstep s h
  | true => apply hstep (s.advance delay) h

theorem get_run (paused : Bool) (delay : Nat) (h : s.sessions k = none) :
    (semantics.run paused delay (.get k) s).1 = none ∨ (semantics.run paused delay (.get k) s).1 = some none := by
  have hstep : ∀ s : Keys, s.sessions k = none → (step (.get k) s).1 = none ∨ (step (.get k) s).1 = some none := by
    intro s h
    have hget : s.sessions.get s.now k = none := by
      simp [Redis.Store.get, Redis.Store.lookup, h]
    simp only [step, hget, deliver]
    repeat' split
    all_goals simp
  cases paused with
  | false => apply hstep s h
  | true => apply hstep (s.advance delay) h

end Keys

def NoSet {β : Type} (c : Cmd β) : Prop := c.setKey? = none

def Creating (k : Key) : Op Result → Prop :=
  Prog.Until NoSet (fun c => c.setKey? = some k) (fun _ => True) (Prog.Always NoSet (fun _ => True))

variable {m : Manager}

theorem resolveTimeouts_noSet : (resolveTimeouts m).Always NoSet (fun _ => True) := by
  unfold resolveTimeouts
  apply always_call_bind rfl
  intro policy
  trivial

theorem save_writes_once (sess : Session) :
    (save sess).Until NoSet (fun c => c.setKey? = some (sessionKey sess.ns sess.id)) (fun _ => True)
      (Prog.Always NoSet (fun _ => True)) := by
  unfold save
  apply until_bind
  rw [always_call]
  refine ⟨rfl, ?_⟩
  intro now
  dsimp only
  split
  . trivial
  apply until_call rfl
  intro reply
  trivial

def indexSaved (sess : Session) (absolute : Int) : Except String Unit → Op (Except String Session)
  | .error err => pure (.error err)
  | .ok () => do
    addToIndex sess absolute
    pure (.ok sess)

theorem indexSaved_noSet (sess : Session) (absolute : Int) (r : Except String Unit) :
    (indexSaved sess absolute r).Always NoSet (fun _ => True) := by
  unfold indexSaved
  split
  . trivial
  rw [always_bind]
  unfold addToIndex
  apply always_call_bind rfl
  intro _
  apply always_call_bind rfl
  intro _
  trivial

theorem create_writes_once (login : Login) :
    (create m login).Until NoSet (fun c => c.setKey? = some (sessionKey login.ns login.id.text)) (fun _ => True)
      (Prog.Always NoSet (fun _ => True)) := by
  unfold create
  apply until_bind
  apply resolveTimeouts_noSet.mono (fun _ hc => hc)
  intro timeouts _
  apply until_bind
  refine ⟨rfl, ?_⟩
  intro now
  apply (save_writes_once (newSession login now timeouts.2)).bind
  . intro q hq
    rw [always_bind]
    apply hq.mono (fun _ hc => hc)
    intro r _
    apply indexSaved_noSet
  . intro r _
    apply Prog.Always.until (indexSaved_noSet _ _ r)

theorem create_creating (login : Login) : Creating (sessionKey login.ns login.id.text) (prog m (.create login)) := by
  apply (create_writes_once login).bind
  . intro q hq
    rw [always_bind]
    apply hq.mono (fun _ hc => hc)
    intro r _
    trivial
  . intro r _
    trivial

section Dead

structure Dead (calls : List Call) (p : Clients) : Prop where
  gone : ∀ k ∈ p.shared.removed, p.shared.sessions k = none
  creating : ∀ (i : Nat) (k : Key) (t : Op Result), (calls[i]?).bind creates = some k → p.threads[i]? = some t →
    (Creating k t ∧ p.shared.sessions k = none ∧ k ∉ p.shared.removed) ∨ t.Always NoSet (fun _ => True)

variable {calls : List Call} {p p' : Clients} {turn : Nat × Nat}

theorem dead_start {keys : Keys} (hsessions : ∀ k, keys.sessions k = none) (hremoved : keys.removed = []) :
    Dead calls (start m keys calls) where
  gone k hk := by
    apply hsessions
  creating i k t hk ht := by
    left
    refine ⟨?_, hsessions k, ?_⟩
    . rcases bind_eq_some_iff.mp hk with ⟨call, hcall, hcreates⟩
      simp only [start, List.getElem?_map, hcall, map_some, Option.some.injEq] at ht
      subst ht
      cases call with
      | create =>
        cases hcreates
        apply create_creating
      | _ => contradiction
    . simp [start, hremoved]

theorem Dead.set_cases (h : Dead calls p) (hallowed : p.current calls turn = true) {paused : Bool} {c : Cmd β}
    {cont : β → Op Result} (hthread : p.threads[turn.1]? = some (.cmd paused c cont)) {k : Key}
    (hc : c.setKey? = some k) :
    ((calls[turn.1]?).bind creates = some k ∧ p.shared.sessions k = none ∧ k ∉ p.shared.removed
      ∧ ∀ b, (cont b).Always NoSet (fun _ => True)) ∨ p.shared.sessions k ≠ none := by
  cases hcreates : (calls[turn.1]?).bind creates with
  | some =>
    left
    rcases h.creating _ _ _ hcreates hthread with ⟨⟨hset, hcont⟩ | ⟨hno, _⟩, hnone, hremoved⟩ | hnever
    . rw [hset] at hc
      cases hc
      exact ⟨rfl, hnone, hremoved, hcont⟩
    . exact absurd (hc.symm.trans hno) (by simp)
    . exact absurd (hc.symm.trans hnever.1) (by simp)
  | none =>
    right
    intro hnone
    simp [current, hthread, hc, hcreates, Redis.Store.lookup, hnone] at hallowed

theorem creates_inj (hfresh : (calls.filterMap creates).Nodup) {i j : Nat} {k : Key}
    (hi : (calls[i]?).bind creates = some k) (hj : (calls[j]?).bind creates = some k) : i = j := by
  rw [List.Nodup, List.pairwise_filterMap, List.pairwise_iff_getElem] at hfresh
  rcases bind_eq_some_iff.mp hi with ⟨a, ha, hak⟩
  rcases bind_eq_some_iff.mp hj with ⟨b, hb, hbk⟩
  rcases List.getElem?_eq_some_iff.mp ha with ⟨hi', rfl⟩
  rcases List.getElem?_eq_some_iff.mp hb with ⟨hj', rfl⟩
  rcases Nat.lt_trichotomy i j with hlt | heq | hgt
  . exact absurd rfl (hfresh i j hi' hj' hlt k hak k hbk)
  . exact heq
  . exact absurd rfl (hfresh j i hj' hi' hgt k hbk k hak)

theorem Dead.step (h : Dead calls p) (hfresh : (calls.filterMap creates).Nodup)
    (hallowed : p.current calls turn = true) (hstep : step semantics p turn = some p') : Dead calls p' := by
  rcases step_eq_some hstep with ⟨β, paused, c, cont, hthread, hshared, hlength, hself, hother⟩
  have hquiet : ∀ k, c.setKey? ≠ some k → Keys.Quiet k p.shared p'.shared := by
    intro k hk
    rw [hshared]
    apply Keys.quiet_run _ _ _ _ hk
  have hwait : ∀ k, c.setKey? ≠ some k → p.shared.sessions k = none → k ∉ p.shared.removed →
      p'.shared.sessions k = none ∧ k ∉ p'.shared.removed := by
    intro k hk hnone hremoved
    refine ⟨(hquiet k hk).absent hnone, ?_⟩
    intro hnew
    rcases (hquiet k hk).removed hnew with hold | ⟨hsome, _⟩
    . exact hremoved hold
    . exact hsome hnone
  constructor
  . intro k hk
    by_cases hc : c.setKey? = some k
    . have hold : k ∈ p.shared.removed := by
        rw [hshared] at hk
        apply Keys.removed_run_set hc hk
      rcases h.set_cases hallowed hthread hc with ⟨_, _, hnot, _⟩ | hsome
      . exact absurd hold hnot
      . exact absurd (h.gone k hold) hsome
    . rcases (hquiet k hc).removed hk with hold | ⟨_, hnew⟩
      . apply (hquiet k hc).absent (h.gone k hold)
      . exact hnew
  . intro i k t hk ht
    rcases thread_cases hself hother ht with ⟨rfl, rfl⟩ | ⟨hi, ht⟩
    . rcases h.creating _ _ _ hk hthread with ⟨⟨_, hcont⟩ | ⟨hc, hcont⟩, hnone, hremoved⟩ | hnever
      . exact .inr (hcont _)
      . have hc' : c.setKey? ≠ some k := by
          rw [show c.setKey? = none from hc]
          simp
        exact .inl ⟨hcont _, hwait k hc' hnone hremoved⟩
      . exact .inr (hnever.2 _)
    . rcases h.creating i k t hk ht with ⟨hcreating, hnone, hremoved⟩ | hnever
      . left
        refine ⟨hcreating, hwait k ?_ hnone hremoved⟩
        intro hc
        rcases h.set_cases hallowed hthread hc with ⟨hcreates, _⟩ | hsome
        . exact hi (creates_inj hfresh hk hcreates)
        . exact hsome hnone
      . exact .inr hnever

def FindsNothing (m : Manager) (ns : Namespace) (sessionID : String) (t : Op Result) : Prop :=
  t = prog m (.get ns sessionID) ∨ ∃ reply, t = .ret (.session reply) ∧ ∀ sess, reply ≠ .ok (some sess)

def checkReply (m : Manager) (ns : Namespace) (sessionID : String) :
    Option (Option Session) → Op (Except String (Option Session))
  | none => pure (.error "get session")
  | some none => pure (.ok none)
  | some (some sess) => unexpired m ns sessionID sess

theorem FindsNothing.cmd {ns : Namespace} {sessionID : String} {paused : Bool} {c : Cmd β} {cont : β → Op Result}
    {keys : Keys} {delay : Nat} (h : FindsNothing m ns sessionID (.cmd paused c cont))
    (hnone : keys.sessions (sessionKey ns sessionID) = none) :
    FindsNothing m ns sessionID (cont (semantics.run paused delay c keys).1) := by
  rcases h with h | ⟨reply, h, _⟩
  . have hprog : prog m (.get ns sessionID) = .cmd true (.get (sessionKey ns sessionID)) fun reply =>
        (checkReply m ns sessionID reply).bind (fun reply => .ret (.session reply)) := rfl
    cases h
    right
    rcases Keys.get_run true delay hnone with hreply | hreply
    . rw [hreply]
      exact ⟨.error "get session", rfl, by simp⟩
    . rw [hreply]
      exact ⟨.ok none, rfl, by simp⟩
  . cases h

end Dead

theorem removed_session_stays_removed (m : Manager) (now : Int) (policy : Int × Int) (faults : List Fault)
    (calls : List Call) (hfresh : (calls.filterMap creates).Nodup) (turns : List (Nat × Nat)) (p : Clients)
    (run : Run (step semantics) (fun p turn => current calls p turn = true)
      (start m (.empty now policy faults) calls) turns p)
    (ns : Namespace) (sessionID : String) (hremoved : sessionKey ns sessionID ∈ p.shared.removed)
    (j : Nat) (hget : p.threads[j]? = some (prog m (.get ns sessionID)))
    (turns' : List (Nat × Nat)) (p' : Clients)
    (run' : Run (step semantics) (fun p turn => current calls p turn = true) p turns' p')
    (sess : Session) : p'.result j ≠ some (.session (.ok (some sess))) := by
  have hdead : Dead calls p := by
    apply run.invariant (I := Dead calls)
    . apply dead_start
      . intro k
        rfl
      . rfl
    . intro p turn p' h hallowed hstep
      apply h.step hfresh hallowed hstep
  have hlater : Dead calls p' ∧ sessionKey ns sessionID ∈ p'.shared.removed
      ∧ ∃ t, p'.threads[j]? = some t ∧ FindsNothing m ns sessionID t := by
    apply run'.invariant (I := fun p => Dead calls p ∧ sessionKey ns sessionID ∈ p.shared.removed
      ∧ ∃ t, p.threads[j]? = some t ∧ FindsNothing m ns sessionID t)
    . exact ⟨hdead, hremoved, _, hget, .inl rfl⟩
    rintro p turn p' ⟨h, hk, t, ht, hfinds⟩ hallowed hstep
    refine ⟨h.step hfresh hallowed hstep, ?_⟩
    rcases step_eq_some hstep with ⟨β, paused, c, cont, hthread, hshared, _, hself, hother⟩
    refine ⟨by rw [hshared]; exact Keys.mem_removed_run c hk, ?_⟩
    by_cases hj : j = turn.1
    . subst hj
      rw [hthread] at ht
      cases ht
      exact ⟨_, hself, hfinds.cmd (h.gone _ hk)⟩
    . exact ⟨t, (hother j hj).trans ht, hfinds⟩
  rcases hlater with ⟨_, _, t, ht, hfinds⟩
  intro hresult
  rw [result_eq_some hresult] at ht
  cases ht
  rcases hfinds with h | ⟨reply, h, hreply⟩
  . contradiction
  . cases h
    exact hreply sess rfl

/-!
A user is logged out while a request of theirs is being served.
-/

namespace LogoutRace

def login : Login where
  id := ⟨"6f1c-0a", by decide⟩
  ns := .portal
  userID := 7
  tenantID := 1
  ip := "10.0.0.1"
  userAgent := "curl"
  authType := "password"
  enroll := false
  changePwd := false

def manager : Manager := ⟨1800000, 28800000⟩

def calls : List Call :=
  [.create login, .touch .portal "6f1c-0a", .delete .portal "6f1c-0a", .get .portal "6f1c-0a"]

def start : Clients := Clients.start manager (.empty 0 (0, 0) []) calls

def turns (i n : Nat) : List (Nat × Nat) := List.replicate n (i, 1)

def before : List (Nat × Nat) := turns 0 6 ++ turns 1 1 ++ turns 2 1

def after : List (Nat × Nat) := turns 1 3 ++ turns 3 3

def inOrder : List (Nat × Nat) := turns 0 6 ++ turns 1 4 ++ turns 2 1

abbrev exec (allowed : Clients → Nat × Nat → Bool) (p : Clients) (turns : List (Nat × Nat)) : Option Clients :=
  Run.exec (step semantics) (fun p turn => allowed p turn = true) p turns

theorem before_isSome : (exec (fun _ _ => true) start before).isSome = true := by
  decide

def deleted : Clients := (exec (fun _ _ => true) start before).get before_isSome

theorem after_isSome : (exec (fun _ _ => true) deleted after).isSome = true := by
  decide

def touched : Clients := (exec (fun _ _ => true) deleted after).get after_isSome

def revived : Session :=
  { newSession login 2 28800000 with lastActiveAt := 9 }

theorem removed_session_returns :
    Run (step semantics) (fun _ _ => True) start before deleted
      ∧ deleted.result 2 = some (.finished (.ok ()))
      ∧ sessionKey .portal "6f1c-0a" ∈ deleted.shared.removed
      ∧ deleted.threads[3]? = some (prog manager (.get .portal "6f1c-0a"))
      ∧ Run (step semantics) (fun _ _ => True) deleted after touched
      ∧ touched.result 3 = some (.session (.ok (some revived))) :=
  ⟨(Run.of_isSome before_isSome).free, by decide, by decide, rfl,
    (Run.of_isSome after_isSome).free, by decide⟩

theorem inOrder_isSome : (exec (Clients.current calls) start inOrder).isSome = true := by
  decide

def loggedOut : Clients := (exec (current calls) start inOrder).get inOrder_isSome

theorem lookup_isSome : (exec (Clients.current calls) loggedOut (turns 3 1)).isSome = true := by
  decide

def lookedUp : Clients := (exec (current calls) loggedOut (turns 3 1)).get lookup_isSome

theorem removed_session_not_found :
    sessionKey .portal "6f1c-0a" ∈ loggedOut.shared.removed
      ∧ lookedUp.result 3 = some (.session (.ok none))
      ∧ ∀ sess, lookedUp.result 3 ≠ some (.session (.ok (some sess))) :=
  ⟨by decide, by decide,
    removed_session_stays_removed manager 0 (0, 0) [] calls (by decide) inOrder loggedOut
      (Run.of_isSome inOrder_isSome) .portal "6f1c-0a" (by decide) 3 rfl (turns 3 1) lookedUp
      (Run.of_isSome lookup_isSome)⟩

end LogoutRace

end Mxid.Sessions
