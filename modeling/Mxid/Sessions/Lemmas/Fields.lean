import Mxid.Sessions.Impl.System

namespace Mxid.Sessions

variable {m : Manager} {k : Key} {call : Call} {calls : List Call} {sess sess' : Session} {field : Field}

theorem Field.agrees_refl : field.agrees sess sess = true := by
  cases field <;> simp [agrees]

theorem Field.agrees_trans {a b c : Session} (hab : field.agrees a b = true) (hbc : field.agrees b c = true) :
    field.agrees a c = true := by
  cases field <;> simp_all [agrees]

def Finished (t : Op Result) : Prop := ∃ r, t = .ret r

def Cmd.isNow : Cmd β → Bool
  | .now => true
  | _ => false

def Cmd.WritesBack (k : Key) (call : Call) (sess : Session) (c : Cmd β) : Prop :=
  ∃ written, c.setKey? = some k ∧ c.written? = some written ∧ sessionKey written.ns written.id = k
    ∧ ∀ field, call.sets field = false → field.agrees written sess = true

def Holds (k : Key) (call : Call) (sess : Session) (t : Op Result) : Prop :=
  t.Until (fun c => c.isNow = true) (Cmd.WritesBack k call sess) (fun _ => True) Finished

inductive Unread (k : Key) (call : Call) : Op Result → Prop
  | mk {next : Option (Option Session) → Op Result}
      (holds : ∀ sess, sessionKey sess.ns sess.id = k → Holds k call sess (next (some (some sess))))
      (missed : Finished (next (some none))) (failed : Finished (next none)) :
      Unread k call (.cmd true (.get k) next)

theorem Holds.of_finished {t : Op Result} (h : Finished t) : Holds k call sess t := by
  rcases h with ⟨r, rfl⟩
  trivial

structure KeepsRest (call : Call) (f : Session → Session) : Prop where
  key : ∀ sess, sessionKey (f sess).ns (f sess).id = sessionKey sess.ns sess.id
  agrees : ∀ sess field, call.sets field = false → field.agrees (f sess) sess = true

theorem unread_writeBack {what : String} {ns : Namespace} {id : String} {change : Op (Session → Session)}
    (hchange : change.Always (fun c => c.isNow = true) (KeepsRest call)) :
    Unread (sessionKey ns id) call (do return .finished (← writeBack ns id what change)) := by
  refine .mk ?_ ⟨_, rfl⟩ ⟨_, rfl⟩
  intro sess hsess
  show Holds _ _ _ ((change >>= fun f => save (f sess)) >>= fun reply => pure (Result.finished reply))
  refine Prog.Until.bind (A := fun q => ∃ reply, q = .ret reply) (R := fun _ => True) ?_ ?_ ?_
  . apply Prog.until_bind
    apply hchange.mono (fun _ hc => hc)
    intro f hf
    right
    refine ⟨rfl, ?_⟩
    intro now
    show Prog.Until _ _ _ _ (if _ then _ else _)
    split
    . trivial
    apply Prog.until_call
    . have hkey := (hf.key sess).trans hsess
      exact ⟨f sess, by rw [hkey]; rfl, rfl, hkey, hf.agrees sess⟩
    . intro reply
      exact ⟨_, rfl⟩
  . rintro _ ⟨reply, rfl⟩
    exact ⟨_, rfl⟩
  . intro _ _
    trivial

theorem unread_or_finished (h : call.updates k = true) : Unread k call (call.prog m) ∨ Finished (call.prog m) := by
  cases call with
  | touch ns id =>
    cases of_decide_eq_true h
    refine .inl (unread_writeBack ⟨rfl, ?_⟩)
    intro now
    exact ⟨fun _ => rfl, fun _ field _ => by cases field <;> simp [Field.agrees]⟩
  | markMFAVerified ns id =>
    cases of_decide_eq_true h
    refine .inl (unread_writeBack ⟨rfl, ?_⟩)
    intro now
    exact ⟨fun _ => rfl, fun _ field hfield => by cases field <;> simp_all [Field.agrees, Call.sets]⟩
  | carryMFAVerifiedAt ns id verifiedAt =>
    cases of_decide_eq_true h
    unfold Call.prog carryMFAVerifiedAt
    dsimp only
    split
    . exact .inr ⟨_, rfl⟩
    split
    . exact .inr ⟨_, rfl⟩
    . refine .inl (unread_writeBack ?_)
      exact ⟨fun _ => rfl, fun _ field hfield => by cases field <;> simp_all [Field.agrees, Call.sets]⟩
  | setEnrollPending ns id pending | setPwdChangePending ns id pending =>
    cases of_decide_eq_true h
    refine .inl (unread_writeBack ?_)
    exact ⟨fun _ => rfl, fun _ field hfield => by cases field <;> simp_all [Field.agrees, Call.sets]⟩
  | _ => cases h

namespace Updates

def start (m : Manager) (keys : Keys) (calls : List Call) : Updates := ⟨.start m keys calls, []⟩

structure Current (k : Key) (calls : List Call) (sess₀ : Session) (u : Updates) : Prop where
  faults : u.clients.shared.faults = []
  stored : ∃ e, u.clients.shared.sessions k = some e ∧ sessionKey e.value.ns e.value.id = k
    ∧ (∀ field : Field, field.agrees e.value (u.last calls field sess₀) = true)
    ∧ ∀ (i : Nat) (t : Op Result), u.clients.threads[i]? = some t →
        ∃ call, calls[i]? = some call ∧ (Unread k call t ∨ Holds k call e.value t)

variable {u u' : Updates} {turn : Nat × Nat} {sess₀ : Session} {s : Keys} {delay : Nat}

variable (delay) in
theorem run_get (hfaults : s.faults = []) :
    (semantics.run true delay (.get k) s).2 = s.advance delay
      ∧ ((semantics.run true delay (.get k) s).1 = none ∨ (semantics.run true delay (.get k) s).1 = some none
        ∨ ∃ e, s.sessions k = some e ∧ (semantics.run true delay (.get k) s).1 = some (some e.value)) := by
  have hfaults' : (s.advance delay).faults = [] := hfaults
  simp only [Prog.Semantics.run, semantics, if_true, Keys.step, Keys.deliver, hfaults']
  split
  . exact ⟨rfl, .inl rfl⟩
  refine ⟨rfl, .inr ?_⟩
  cases hget : (s.advance delay).sessions.get (s.advance delay).now k with
  | none => exact .inl rfl
  | some sess =>
    rcases Redis.Store.eq_some_of_get_eq_some hget with ⟨e, he, rfl⟩
    exact .inr ⟨e, he, rfl⟩

variable {t : Op Result}

theorem Current.frame {p : Clients} {i : Nat} (h : u.Current k calls sess₀)
    (hfaults : p.shared.faults = []) (hsessions : p.shared.sessions = u.clients.shared.sessions)
    (hself : p.threads[i]? = some t) (hother : ∀ j, j ≠ i → p.threads[j]? = u.clients.threads[j]?)
    (hcall : calls[i]? = some call) (ht : ∀ e, u.clients.shared.sessions k = some e → Holds k call e.value t) :
    Current k calls sess₀ ⟨p, u.writes⟩ := by
  rcases h.stored with ⟨e, he, hkey, hlast, hthreads⟩
  refine ⟨hfaults, e, by rw [hsessions, he], hkey, hlast, ?_⟩
  intro j t' ht'
  rcases Pool.thread_cases hself hother ht' with ⟨rfl, rfl⟩ | ⟨_, hold⟩
  . exact ⟨call, hcall, .inr (ht e he)⟩
  . exact hthreads j t' hold

theorem others_not_underWay {i : Nat} (h : u.undisturbed turn = true)
    (hwrite : u.nextWrite turn.1 = some sess) (ht : u.clients.threads[i]? = some t) (hi : i ≠ turn.1) :
    underWay t = false := by
  unfold undisturbed at h
  rw [hwrite, Option.isNone_some, Bool.false_or, List.all_eq_true] at h
  have hmem := h (t, i) (List.mem_zipIdx_iff_getElem?.mpr ht)
  simpa [hi] using hmem

theorem finished_of_holds (h : Holds k call sess t) (ht : underWay t = false) : Finished t := by
  cases t with
  | ret r => exact ⟨r, rfl⟩
  | cmd paused c next =>
    exfalso
    rcases h with ⟨⟨written, hkey, _⟩, _⟩ | ⟨hnow, _⟩
    . cases c <;> simp [Cmd.setKey?, underWay, Cmd.isGet] at hkey ht
    . cases c <;> simp [Cmd.isNow, underWay, Cmd.isGet] at hnow ht

theorem Current.write {p : Clients} {i : Nat} {written : Session} {expireAt : Option Int}
    (h : u.Current k calls sess₀) (hfaults : p.shared.faults = [])
    (hstored : p.shared.sessions k = some ⟨written, expireAt⟩) (hself : p.threads[i]? = some t)
    (hother : ∀ j, j ≠ i → p.threads[j]? = u.clients.threads[j]?)
    (halone : ∀ j t, u.clients.threads[j]? = some t → j ≠ i → underWay t = false)
    (hcall : calls[i]? = some call) (ht : Finished t) (hkey : sessionKey written.ns written.id = k)
    (hagrees : ∀ e, u.clients.shared.sessions k = some e →
      ∀ field, call.sets field = false → field.agrees written e.value = true) :
    Current k calls sess₀ ⟨p, (i, written) :: u.writes⟩ := by
  rcases h.stored with ⟨e, he, _, hlast, hthreads⟩
  refine ⟨hfaults, ⟨written, expireAt⟩, hstored, hkey, ?_, ?_⟩
  . intro field
    unfold last
    rw [List.find?_cons]
    rw [hcall, Option.any_some]
    cases hsets : call.sets field with
    | true => exact Field.agrees_refl
    | false => exact Field.agrees_trans (hagrees e he field hsets) (hlast field)
  . intro j t' ht'
    rcases Pool.thread_cases hself hother ht' with ⟨rfl, rfl⟩ | ⟨hj, hold⟩
    . exact ⟨call, hcall, .inr (.of_finished ht)⟩
    rcases hthreads j t' hold with ⟨call', hcall', hunread | hholds⟩
    . exact ⟨call', hcall', .inl hunread⟩
    . exact ⟨call', hcall', .inr (.of_finished (finished_of_holds hholds (halone j t' hold hj)))⟩

variable (delay) in
theorem run_set (paused : Bool) {ttl : Int} (hfaults : s.faults = []) :
    (semantics.run paused delay (.set k sess ttl) s).2.faults = []
      ∧ ∃ expireAt, (semantics.run paused delay (.set k sess ttl) s).2.sessions k = some ⟨sess, expireAt⟩ := by
  cases paused <;> simp [Prog.Semantics.run, semantics, Keys.step, Keys.advance, Keys.deliver, hfaults, Redis.Store.set]

theorem run_now {paused : Bool} :
    (semantics.run paused delay .now s).2.faults = s.faults
      ∧ (semantics.run paused delay .now s).2.sessions = s.sessions := by
  cases paused <;> exact ⟨rfl, rfl⟩

theorem Current.step (h : u.Current k calls sess₀) (halone : u.undisturbed turn = true)
    (hstep : u.step turn = some u') : u'.Current k calls sess₀ := by
  rcases Option.map_eq_some_iff.mp hstep with ⟨p, hp, rfl⟩
  rcases Pool.step_eq_some hp with ⟨β, paused, c, next, hthread, hshared, _, hself, hother⟩
  have hwrite : u.nextWrite turn.1 = c.written? := by
    unfold nextWrite
    rw [hthread]
    rfl
  rcases h.stored with ⟨e, he, hkey, hlast, hthreads⟩
  rcases hthreads _ _ hthread with ⟨call, hcall, hunread | ⟨⟨written, hset, hwritten, hkey', hagrees⟩, hfinished⟩
    | ⟨hnow, hnext⟩⟩
  . generalize hthis : Prog.cmd paused c next = t at hunread
    cases hunread with
    | mk hholds hmissed hfailed =>
      cases hthis
      rw [hwrite]
      rcases run_get (k := k) turn.2 h.faults with ⟨hsame, hreply⟩
      rw [hsame] at hshared
      apply h.frame (by rw [hshared]; exact h.faults) (by rw [hshared]; rfl) hself hother hcall
      intro e' he'
      rw [he] at he'
      cases he'
      rcases hreply with hreply | hreply | ⟨e', he', hreply⟩
      . rw [hreply]
        exact .of_finished hfailed
      . rw [hreply]
        exact .of_finished hmissed
      . rw [hreply]
        rw [he] at he'
        cases he'
        exact hholds _ hkey
  . rw [hwrite, hwritten]
    cases c with
    | set =>
      cases hset
      cases hwritten
      rcases run_set (k := k) turn.2 paused h.faults with ⟨hfaults, _, hstored⟩
      refine h.write (by rw [hshared, hfaults]) (by rw [hshared, hstored]) hself hother ?_ hcall (hfinished _) hkey' ?_
      . intro j t ht hj
        exact others_not_underWay halone hwrite ht hj
      . intro e' he'
        rw [he] at he'
        cases he'
        exact hagrees
    | _ => cases hset
  . cases c with
    | now =>
      rw [hwrite]
      apply h.frame (by rw [hshared, run_now.1, h.faults]) (by rw [hshared, run_now.2]) hself hother hcall
      intro e' he'
      rw [he] at he'
      cases he'
      exact hnext _
    | _ => cases hnow

theorem updates_kept (m : Manager) (keys : Keys) (k : Key) (e : Redis.Entry Session) (calls : List Call)
    (turns : List (Nat × Nat)) (u : Updates) (hcalls : ∀ call ∈ calls, call.updates k = true)
    (hfaults : keys.faults = []) (he : keys.sessions k = some e) (hkey : sessionKey e.value.ns e.value.id = k)
    (run : Run step (fun u turn => u.undisturbed turn = true) (start m keys calls) turns u) :
    ∃ e', u.clients.shared.sessions k = some e'
      ∧ ∀ field : Field, field.agrees e'.value (u.last calls field e.value) = true := by
  have hcurrent : u.Current k calls e.value := by
    apply run.invariant
    . refine ⟨hfaults, e, he, hkey, fun _ => Field.agrees_refl, ?_⟩
      intro i t ht
      rcases List.getElem?_map .. ▸ ht with hmap
      rcases Option.map_eq_some_iff.mp hmap with ⟨call, hcall, rfl⟩
      refine ⟨call, hcall, ?_⟩
      rcases unread_or_finished (hcalls call (List.mem_of_getElem? hcall)) with hunread | hfinished
      . exact .inl hunread
      . exact .inr (.of_finished hfinished)
    . exact fun _ _ _ h halone hstep => h.step halone hstep
  rcases hcurrent.stored with ⟨e', he', _, hlast, _⟩
  exact ⟨e', he', hlast⟩

def enrolling : Redis.Entry Session :=
  ⟨⟨"s", 7, 1, .console, "", "", "", false, 0, 1000, 0, none, true, false⟩, some 1000⟩

def storedKeys : Keys :=
  { Keys.empty 0 (0, 0) [] with sessions := fun k => if k = (.console, "s") then some enrolling else none }

def touchAndClear : List Call := [.touch .console "s", .setEnrollPending .console "s" false]

theorem updates_one_after_the_other :
    ∃ u, Run step (fun u turn => u.undisturbed turn = true) (start ⟨100, 1000⟩ storedKeys touchAndClear)
        [(0, 0), (0, 0), (0, 0), (0, 0), (1, 0), (1, 0), (1, 0)] u
      ∧ ∃ e', u.clients.shared.sessions (.console, "s") = some e'
      ∧ ∀ field : Field, field.agrees e'.value (u.last touchAndClear field enrolling.value) = true := by
  refine ⟨_, Run.of_exec rfl, ?_⟩
  exact updates_kept ⟨100, 1000⟩ storedKeys (.console, "s") enrolling touchAndClear
    [(0, 0), (0, 0), (0, 0), (0, 0), (1, 0), (1, 0), (1, 0)] _ (by decide) rfl rfl rfl (Run.of_exec rfl)

theorem cleared_flag_restored :
    ∃ u, Run step (fun _ _ => True) (start ⟨100, 1000⟩ storedKeys touchAndClear)
        [(0, 0), (1, 0), (1, 0), (1, 0), (0, 0), (0, 0), (0, 0)] u
      ∧ u.clients.result 0 = some (.finished (.ok ())) ∧ u.clients.result 1 = some (.finished (.ok ()))
      ∧ (u.last touchAndClear .mfaEnrollPending enrolling.value).mfaEnrollPending = false
      ∧ (u.clients.shared.sessions.get u.clients.shared.now (.console, "s")).map
            Session.mfaEnrollPending = some true := by
  refine ⟨_, Run.of_exec rfl, rfl, rfl, ?_, ?_⟩
  . decide
  . decide

end Updates

end Mxid.Sessions
