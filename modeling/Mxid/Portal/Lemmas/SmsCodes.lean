import Mxid.Portal.Impl.SmsCodes
import Mxid.Portal.Lemmas.Barred

namespace Mxid.Portal

open Function Prog List

variable {cfg : Config} {calls : List SmsCall} {phone code : String}

def Silent (t : Prog Cmd Response) : Prop := t.Always (fun c => c.plain = true) (fun _ => True)

def Creating (t : Prog Cmd Response) : Prop :=
  t.Until (fun c => c.plain = true) (fun c => c.createsSession = true) (fun _ => True) Silent

inductive Deleting (phone : String) : Prog Cmd Response → Prop
  | mk {next : Unit → Prog Cmd Response} (hnext : Creating (next ())) :
      Deleting phone (.cmd true (.delCode phone) next)

inductive Reading (phone code : String) : Prog Cmd Response → Prop
  | ret {r : Response} : Reading phone code (.ret r)
  | plain {β : Type} {paused : Bool} {c : Cmd β} {next : β → Prog Cmd Response} (hc : c.plain = true)
      (hnext : ∀ b, Reading phone code (next b)) : Reading phone code (.cmd paused c next)
  | read {next : Except Unit (Option (Int × String)) → Prog Cmd Response}
      (found : ∀ userID, Deleting phone (next (.ok (some (userID, code)))))
      (missed : ∀ reply, (∀ userID, reply ≠ .ok (some (userID, code))) → Silent (next reply)) :
      Reading phone code (.cmd true (.getCode phone) next)

theorem reading_bind {α : Type} {p : Prog Cmd α} {f : α → Prog Cmd Response}
    (h : p.Always (fun c => c.plain = true) (fun a => Reading phone code (f a))) : Reading phone code (p >>= f) := by
  induction p with
  | ret => exact h
  | cmd paused c k ih => exact .plain h.1 (fun b => ih b (h.2 b))

theorem reading_call {β : Type} {c : Cmd β} {f : β → Prog Cmd Response} (hc : c.plain = true)
    (hf : ∀ b, Reading phone code (f b)) : Reading phone code (call c >>= f) := .plain hc hf

theorem reading_consumeCode {f : Except ConsumeError Int → Prog Cmd Response}
    (hok : ∀ userID, Creating (f (.ok userID))) (herror : ∀ err, Silent (f (.error err))) :
    Reading phone code (consumeCode phone code >>= f) := by
  refine .read ?_ ?_
  . intro userID
    show Deleting phone ((if code ≠ code then _ else _) >>= f)
    rw [if_neg (fun h => h rfl)]
    exact .mk (hok userID)
  . intro reply hreply
    rcases reply with _ | _ | ⟨userID, expected⟩
    . exact herror .readCode
    . exact herror .codeInvalid
    have hne : expected ≠ code := by
      rintro rfl
      exact hreply userID rfl
    show Silent ((if expected ≠ code then _ else _) >>= f)
    rw [if_pos hne]
    exact herror .codeInvalid

theorem reading_smsLogin {sessionID : String} {req : SmsLoginRequest} {client : Client} :
    Reading (Text.trimSpace req.phone) req.code (smsLogin cfg sessionID req client) := by
  unfold smsLogin
  apply reading_call rfl
  intro _
  split
  . exact .ret
  split
  . exact .ret
  apply reading_bind
  apply resolveTenant_always (fun _ => rfl)
  intro tenantID
  apply reading_call rfl
  intro _
  split
  . exact .ret
  apply reading_consumeCode
  . intro userID
    refine .inr ⟨rfl, fun _ => .inr ⟨rfl, ?_⟩⟩
    intro user
    cases user with
    | none => trivial
    | some user =>
      apply until_call rfl
      intro done
      cases done <;> trivial
  . intro err
    cases err with
    | readCode => trivial
    | codeInvalid =>
      refine ⟨rfl, ?_⟩
      intro blocked
      cases blocked <;> trivial

namespace SmsCodes

inductive Stage (calls : List SmsCall) (s : SmsCodes) (i : Nat) (t : Prog Cmd Response) : Prop
  | silent (h : Silent t)
  | reading {phone code : String} (hcall : (calls[i]?).bind SmsCall.presents = some code)
      (haccepted : s.accepted i = none) (hnew : i ∉ s.created) (h : Reading phone code t)
  | deleting {phone : String} {n : Nat} (haccepted : s.accepted i = some (phone, n)) (hnew : i ∉ s.created)
      (h : Deleting phone t)
  | creating (haccepted : (s.accepted i).isSome = true) (hnew : i ∉ s.created) (h : Creating t)

structure Once (calls : List SmsCall) (s : SmsCodes) : Prop where
  stage : ∀ (i : Nat) (t : Prog Cmd Response), s.clients.threads[i]? = some t → Stage calls s i t
  bound : ∀ i phone n, s.accepted i = some (phone, n) → n ≤ s.issued phone
  inj : ∀ i j x, s.accepted i = some x → s.accepted j = some x → i = j
  gone : ∀ i phone, s.accepted i = some (phone, s.issued phone) →
    (∃ t, s.clients.threads[i]? = some t ∧ Deleting phone t) ∨ s.clients.shared.codes phone = none
  created : s.created.Nodup ∧ ∀ i ∈ s.created, (s.accepted i).isSome = true

variable {s s' : SmsCodes} {turn : Nat × Nat} {i : Nat}

theorem Once.start {s : State} : Once calls (start cfg s calls) where
  stage := by
    intro i t ht
    rcases List.getElem?_map .. ▸ ht with hmap
    rcases Option.map_eq_some_iff.mp hmap with ⟨call, hcall, rfl⟩
    cases call with
    | send code req => exact .silent smsSend_always
    | login sessionID req client =>
      refine @Stage.reading _ _ _ _ _ req.code ?_ rfl not_mem_nil reading_smsLogin
      rw [hcall]
      rfl
  bound := by
    intro i phone n h
    cases h
  inj := by
    intro i j x h
    cases h
  gone := by
    intro i phone h
    cases h
  created := ⟨.nil, by simp [SmsCodes.start]⟩

theorem Stage.frame {t : Prog Cmd Response} (h : Stage calls s i t) (haccepted : s'.accepted i = s.accepted i)
    (hcreated : i ∈ s'.created → i ∈ s.created) : Stage calls s' i t := by
  cases h with
  | silent h => exact .silent h
  | reading hcall hnone hnew h => exact .reading hcall (haccepted.trans hnone) (mt hcreated hnew) h
  | deleting hsome hnew h => exact .deleting (haccepted.trans hsome) (mt hcreated hnew) h
  | creating hsome hnew h => exact .creating (haccepted ▸ hsome) (mt hcreated hnew) h

structure Moves (s s' : SmsCodes) : Prop where
  issued : ∀ phone, s.issued phone ≤ s'.issued phone
  codes : ∀ phone, s'.issued phone = s.issued phone →
    s'.clients.shared.codes phone = s.clients.shared.codes phone ∨ s'.clients.shared.codes phone = none

theorem Once.after {t : Prog Cmd Response} (h : Once calls s) (hself : s'.clients.threads[i]? = some t)
    (hother : ∀ j, j ≠ i → s'.clients.threads[j]? = s.clients.threads[j]?) (hstage : Stage calls s' i t)
    (haccepted : ∀ j, j ≠ i → s'.accepted j = s.accepted j) (hcreated : ∀ j, j ≠ i → j ∈ s'.created → j ∈ s.created)
    (hmoves : Moves s s')
    (hown : ∀ phone n, s'.accepted i = some (phone, n) → n ≤ s'.issued phone
      ∧ (∀ j, j ≠ i → s.accepted j ≠ some (phone, n))
      ∧ (n = s'.issued phone → Deleting phone t ∨ s'.clients.shared.codes phone = none))
    (honce : s'.created.Nodup ∧ ∀ j ∈ s'.created, (s'.accepted j).isSome = true) : Once calls s' where
  stage := by
    intro j t' ht'
    rcases Pool.thread_cases hself hother ht' with ⟨rfl, rfl⟩ | ⟨hj, hold⟩
    . exact hstage
    . exact (h.stage j t' hold).frame (haccepted j hj) (hcreated j hj)
  bound := by
    intro j phone n hn
    by_cases hj : j = i
    . exact (hown phone n (hj ▸ hn)).1
    . exact (h.bound j phone n (haccepted j hj ▸ hn)).trans (hmoves.issued phone)
  inj := by
    intro j k x hjx hkx
    by_contra hne
    by_cases hj : j = i
    . have hk : k ≠ i := fun hk => hne (hj.trans hk.symm)
      exact (hown x.1 x.2 (hj ▸ hjx)).2.1 k hk (haccepted k hk ▸ hkx)
    . by_cases hk : k = i
      . exact (hown x.1 x.2 (hk ▸ hkx)).2.1 j hj (haccepted j hj ▸ hjx)
      . exact hne (h.inj j k x (haccepted j hj ▸ hjx) (haccepted k hk ▸ hkx))
  gone := by
    intro j phone hn
    by_cases hj : j = i
    . subst hj
      rcases (hown phone _ hn).2.2 rfl with hdeleting | hnone
      . exact .inl ⟨t, hself, hdeleting⟩
      . exact .inr hnone
    . have hold : s.accepted j = some (phone, s'.issued phone) := haccepted j hj ▸ hn
      have hsame : s'.issued phone = s.issued phone := Nat.le_antisymm (h.bound j phone _ hold) (hmoves.issued phone)
      rcases h.gone j phone (hsame ▸ hold) with ⟨t', ht', hdeleting⟩ | hnone
      . exact .inl ⟨t', (hother j hj).trans ht', hdeleting⟩
      right
      rcases hmoves.codes phone hsame with heq | heq
      . rw [heq, hnone]
      . exact heq
  created := honce

theorem Once.own {t : Prog Cmd Response} (h : Once calls s) (hmoves : Moves s s')
    (haccepted : s'.accepted i = s.accepted i) (hthread : s.clients.threads[i]? = some t)
    (hdeleting : ∀ phone, ¬Deleting phone t) (phone : String) (n : Nat) (hn : s'.accepted i = some (phone, n)) :
    n ≤ s'.issued phone ∧ (∀ j, j ≠ i → s.accepted j ≠ some (phone, n))
      ∧ (n = s'.issued phone → s'.clients.shared.codes phone = none) := by
  rw [haccepted] at hn
  have hbound := h.bound i phone n hn
  refine ⟨hbound.trans (hmoves.issued phone), fun j hj hjn => hj (h.inj j i _ hjn hn), ?_⟩
  intro hlast
  have hsame : s'.issued phone = s.issued phone := Nat.le_antisymm (hlast ▸ hbound) (hmoves.issued phone)
  rcases h.gone i phone (by rw [hn, hlast, hsame]) with ⟨t', ht', hdel⟩ | hnone
  . rw [hthread] at ht'
    cases ht'
    exact absurd hdel (hdeleting phone)
  . rcases hmoves.codes phone hsame with heq | heq
    . rw [heq, hnone]
    . exact heq

section

variable {β : Type} {paused : Bool} {c : Cmd β} {next : β → Prog Cmd Response} {delay : Nat} {now : Int}

variable (s calls i now paused delay) in
theorem note_plain (hc : c.plain = true) :
    (s.note calls i now c).accepted = s.accepted ∧ (s.note calls i now c).created = s.created
      ∧ (∀ phone, s.issued phone ≤ (s.note calls i now c).issued phone)
      ∧ ∀ phone, (s.note calls i now c).issued phone = s.issued phone →
          (timed.run paused delay c s.clients.shared).2.codes phone = s.clients.shared.codes phone := by
  have hfaults : (if paused then timed.advance delay s.clients.shared else s.clients.shared).faults
      = s.clients.shared.faults := by
    cases paused <;> rfl
  have hcodes : (if paused then timed.advance delay s.clients.shared else s.clients.shared).codes
      = s.clients.shared.codes := by
    cases paused <;> rfl
  unfold note Semantics.run
  show _ ∧ _ ∧ _ ∧ ∀ phone, _ → (State.step c _).2.codes phone = _
  unfold State.step
  rw [hfaults]
  split
  . exact ⟨rfl, rfl, fun _ => Nat.le_refl _, fun phone _ => congrFun hcodes phone⟩
  cases c with
  | setCode phone userID code =>
    refine ⟨rfl, rfl, ?_, ?_⟩
    . intro phone'
      dsimp only
      by_cases hphone : phone' = phone
      . subst hphone
        rw [update_self]
        omega
      . rw [update_of_ne hphone]
    . intro phone' hsame
      dsimp only at hsame
      have hphone : phone' ≠ phone := by
        rintro rfl
        rw [update_self] at hsame
        omega
      exact (Redis.Store.set_of_ne hphone).trans (congrFun hcodes phone')
  | getCode | delCode | createSession => contradiction
  | _ => exact ⟨rfl, rfl, fun _ => Nat.le_refl _, fun phone _ => congrFun hcodes phone⟩

variable {p : Pool Cmd Response State} {t : Prog Cmd Response}

theorem not_deleting (hc : ∀ phone, c.deletes phone = false) (phone : String) :
    ¬Deleting phone (.cmd paused c next) := by
  intro h
  generalize ht : Prog.cmd paused c next = t at h
  cases h
  cases ht
  simpa [Cmd.deletes] using hc phone

theorem Once.plain (h : Once calls s) (hthread : s.clients.threads[i]? = some (.cmd paused c next))
    (hc : c.plain = true) (hshared : p.shared = (timed.run paused delay c s.clients.shared).2)
    (hself : p.threads[i]? = some t) (hother : ∀ j, j ≠ i → p.threads[j]? = s.clients.threads[j]?)
    (hstage : Stage calls s i t) : Once calls { s.note calls i now c with clients := p } := by
  rcases note_plain calls s i paused delay now hc
    with ⟨haccepted, hcreated, hissued, hcodes⟩
  have hmoves : Moves s { s.note calls i now c with clients := p } :=
    ⟨hissued, fun phone hsame => .inl (by rw [hshared]; exact hcodes phone hsame)⟩
  have hnot : ∀ phone, c.deletes phone = false := by
    intro phone
    cases c <;> first | rfl | contradiction
  apply h.after hself hother
  . exact hstage.frame (congrFun haccepted i) (fun hi => hcreated ▸ hi)
  . intro j _
    exact congrFun haccepted j
  . intro j _ hj
    exact hcreated ▸ hj
  . exact hmoves
  . intro phone n hn
    rcases h.own hmoves (congrFun haccepted i) hthread (not_deleting hnot) phone n hn with ⟨hle, hother, hgone⟩
    exact ⟨hle, hother, fun hlast => .inr (hgone hlast)⟩
  . rw [hcreated, haccepted]
    exact h.created

variable (s delay phone) in
theorem run_getCode :
    (timed.run true delay (.getCode phone) s.clients.shared).2.codes = s.clients.shared.codes
      ∧ (timed.run true delay (.getCode phone) s.clients.shared).1
        = if s.clients.shared.faults.headD false then .error ()
          else .ok (s.clients.shared.codes.get (s.clients.shared.now + delay) phone) := by
  unfold Semantics.run timed State.step
  simp only [if_true]
  split <;> exact ⟨rfl, rfl⟩

theorem run_createSession {session : Session} :
    (timed.run paused delay (.createSession session) s.clients.shared).2.codes = s.clients.shared.codes := by
  have hstep : ∀ st : State, (State.step (.createSession session) st).2.codes = st.codes := by
    intro st
    unfold State.step
    split <;> rfl
  cases paused <;> exact hstep _

theorem Once.create {session : Session} {next : Bool → Prog Cmd Response} (h : Once calls s)
    (hthread : s.clients.threads[i]? = some (.cmd paused (.createSession session) next))
    (hshared : p.shared = (timed.run paused delay (.createSession session) s.clients.shared).2)
    (hself : p.threads[i]? = some t) (hother : ∀ j, j ≠ i → p.threads[j]? = s.clients.threads[j]?)
    (haccepted : (s.accepted i).isSome = true) (hnew : i ∉ s.created) (ht : Silent t) :
    Once calls { s.note calls i now (.createSession session) with clients := p } := by
  have hnote : s.note calls i now (.createSession session)
      = { s with created := (s.note calls i now (.createSession session)).created } := by
    unfold note
    split <;> rfl
  have hcreated : (s.note calls i now (.createSession session)).created = s.created
      ∨ (s.note calls i now (.createSession session)).created = i :: s.created := by
    unfold note
    split
    . exact .inl rfl
    . exact .inr rfl
  rw [hnote]
  generalize (s.note calls i now (.createSession session)).created = created at hcreated
  have hmoves : Moves s { s with clients := p, created } :=
    ⟨fun _ => Nat.le_refl _, fun phone _ => .inl (by dsimp only; rw [hshared, run_createSession])⟩
  refine h.after hself hother (.silent ht) (fun _ _ => rfl) ?_ hmoves ?_ ?_
  . intro j hj hmem
    rcases hcreated with rfl | rfl
    . exact hmem
    . exact mem_of_ne_of_mem hj hmem
  . intro phone n hn
    rcases h.own hmoves rfl hthread (not_deleting (fun _ => rfl)) phone n hn with ⟨hle, hother, hgone⟩
    exact ⟨hle, hother, fun hlast => .inr (hgone hlast)⟩
  . rcases hcreated with rfl | rfl
    . exact h.created
    refine ⟨nodup_cons.mpr ⟨hnew, h.created.1⟩, ?_⟩
    intro j hj
    rcases mem_cons.mp hj with rfl | hj
    . exact haccepted
    . exact h.created.2 j hj

theorem Once.delete {n : Nat} (h : Once calls s)
    (hshared : p.shared = (timed.run true delay (.delCode phone) s.clients.shared).2)
    (hself : p.threads[i]? = some t) (hother : ∀ j, j ≠ i → p.threads[j]? = s.clients.threads[j]?)
    (hfaults : s.clients.shared.faults.headD false = false)
    (haccepted : s.accepted i = some (phone, n)) (hnew : i ∉ s.created) (ht : Creating t) :
    Once calls { s.note calls i now (.delCode phone) with clients := p } := by
  have hnote : s.note calls i now (.delCode phone) = s := by
    unfold note
    split <;> rfl
  have hcodes : p.shared.codes = s.clients.shared.codes.del phone := by
    rw [hshared]
    unfold Semantics.run timed State.step
    dsimp only
    rw [if_pos rfl, hfaults]
    rfl
  rw [hnote]
  refine h.after hself hother (.creating (by rw [haccepted]; rfl) hnew ht) (fun _ _ => rfl) (fun _ _ hj => hj) ?_ ?_
    h.created
  . refine ⟨fun _ => Nat.le_refl _, ?_⟩
    intro phone' _
    rw [hcodes]
    by_cases hphone : phone' = phone
    . exact .inr (if_pos hphone)
    . exact .inl (Redis.Store.del_of_ne hphone)
  . intro phone' n' hn
    refine ⟨h.bound i phone' n' hn, fun j hj hjn => hj (h.inj j i _ hjn hn), ?_⟩
    intro _
    have heq : some (phone, n) = some (phone', n') := haccepted.symm.trans hn
    cases heq
    exact .inr (by dsimp only; rw [hcodes]; exact if_pos rfl)

theorem Once.read {next : Except Unit (Option (Int × String)) → Prog Cmd Response} (h : Once calls s)
    (hshared : p.shared = (timed.run true delay (.getCode phone) s.clients.shared).2)
    (hself : p.threads[i]? = some (next (timed.run true delay (.getCode phone) s.clients.shared).1))
    (hother : ∀ j, j ≠ i → p.threads[j]? = s.clients.threads[j]?) (hpermits : s.permits i (.getCode phone) = true)
    (hcall : (calls[i]?).bind SmsCall.presents = some code) (haccepted : s.accepted i = none) (hnew : i ∉ s.created)
    (found : ∀ userID, Deleting phone (next (.ok (some (userID, code)))))
    (missed : ∀ reply, (∀ userID, reply ≠ .ok (some (userID, code))) → Silent (next reply)) :
    Once calls { s.note calls i (s.clients.shared.now + delay) (.getCode phone) with clients := p } := by
  rcases run_getCode phone s delay with ⟨hcodes, hreply⟩
  rw [hreply] at hself
  have hmoves : ∀ accepted, Moves s { s with clients := p, accepted } := fun _ =>
    ⟨fun _ => Nat.le_refl _, fun phone _ => .inl (by dsimp only; rw [hshared, hcodes])⟩
  have hmissed : ∀ reply, p.threads[i]? = some (next reply) → (∀ userID, reply ≠ .ok (some (userID, code))) →
      Once calls { s with clients := p } := by
    intro reply hself hne
    refine h.after hself hother (.silent (missed reply hne)) (fun _ _ => rfl) (fun _ _ hj => hj) (hmoves s.accepted) ?_
      h.created
    intro phone n hn
    rw [haccepted] at hn
    contradiction
  unfold note
  split at hself
  . next hfaults =>
    rw [if_pos hfaults]
    exact hmissed _ hself (by simp)
  next hfaults =>
  rw [if_neg hfaults]
  dsimp only
  split
  . next hpresents =>
    rcases (Option.any_eq_true _ _).mp hpresents with ⟨⟨userID, expected⟩, hget, hexpected⟩
    have hexpected : expected = code := by simpa [hcall] using (of_decide_eq_true hexpected).symm
    subst hexpected
    rw [hget] at hself
    rcases Redis.Store.eq_some_of_get_eq_some hget with ⟨e, he, _⟩
    refine h.after hself hother (.deleting (update_self ..) hnew (found userID)) ?_ (fun _ _ hj => hj)
      (hmoves _) ?_ ?_
    . intro j hj
      exact update_of_ne hj ..
    . intro phone' n hn
      dsimp only at hn
      rw [update_self] at hn
      cases hn
      refine ⟨Nat.le_refl _, ?_, fun _ => .inl (found userID)⟩
      intro j hj hjn
      rcases h.gone j phone hjn with ⟨t', ht', hdeleting⟩ | hnone
      . have hmem := all_eq_true.mp hpermits (t', j) (mem_zipIdx_iff_getElem?.mpr ht')
        cases hdeleting
        simp [hj, deletesNext, Cmd.deletes] at hmem
      . rw [he] at hnone
        contradiction
    . refine ⟨h.created.1, ?_⟩
      intro j hj
      dsimp only
      rw [update_of_ne (fun heq : j = i => hnew (heq ▸ hj))]
      exact h.created.2 j hj
  . next hpresents =>
    refine hmissed _ hself ?_
    intro userID hok
    apply hpresents
    unfold presents
    rw [Except.ok.inj hok, hcall]
    simp

theorem Once.step (h : Once calls s) (hok : s.orderly turn = true) (hstep : s.step calls turn = some s') :
    Once calls s' := by
  rcases Option.map_eq_some_iff.mp hstep with ⟨p, hp, rfl⟩
  rcases Pool.step_eq_some hp with ⟨β, paused, c, next, hthread, hshared, _, hself, hother⟩
  have hnote : s.noteNext calls turn = s.note calls turn.1 (s.clients.shared.now + turn.2) c := by
    unfold noteNext
    rw [hthread]
  have hpermits : s.permits turn.1 c = true := by
    unfold orderly at hok
    rw [hthread] at hok
    exact hok
  rw [hnote]
  generalize hthis : Prog.cmd paused c next = t at hthread
  cases h.stage _ _ hthread with
  | silent hsilent =>
    subst hthis
    exact h.plain hthread hsilent.1 hshared hself hother (.silent (hsilent.2 _))
  | reading hcall haccepted hnew hreading =>
    cases hreading with
    | ret => cases hthis
    | plain hc hnext =>
      cases hthis
      exact h.plain hthread hc hshared hself hother (.reading hcall haccepted hnew (hnext _))
    | read found missed =>
      cases hthis
      exact h.read hshared hself hother hpermits hcall haccepted hnew found missed
  | deleting haccepted hnew hdeleting =>
    cases hdeleting with
    | mk hnext =>
      cases hthis
      exact h.delete hshared hself hother (by simpa [permits] using hpermits) haccepted hnew hnext
  | creating haccepted hnew hcreating =>
    subst hthis
    rcases hcreating with ⟨hcreates, hsilent⟩ | ⟨hc, hnext⟩
    . cases c with
      | createSession session => exact h.create hthread hshared hself hother haccepted hnew (hsilent _)
      | _ => contradiction
    . exact h.plain hthread hc hshared hself hother (.creating haccepted hnew (hnext _))

end

/--
If a code is read only while no other client is about to delete the code of the phone, and deletions do not fail, then
the sessions that are created come from different codes.
-/
theorem codes_used_once (cfg : Config) (s₀ : State) (calls : List SmsCall) (turns : List (Nat × Nat)) (s : SmsCodes)
    (run : Run (step calls) (fun s turn => s.orderly turn = true) (start cfg s₀ calls) turns s) :
    (s.created.map s.accepted).Nodup ∧ none ∉ s.created.map s.accepted := by
  have honce := run.invariant (I := Once calls) .start (fun _ _ _ h hok hstep => h.step hok hstep)
  constructor
  . apply List.Nodup.map_on _ honce.created.1
    intro i hi j hj heq
    rcases Option.isSome_iff_exists.mp (honce.created.2 i hi) with ⟨x, hx⟩
    exact honce.inj i j x hx (heq ▸ hx)
  . intro hnone
    rcases mem_map.mp hnone with ⟨i, hi, haccepted⟩
    have hsome := honce.created.2 i hi
    rw [haccepted] at hsome
    contradiction

open Disabled (deployment client)

def sendAndLogins : List SmsCall :=
  [.send (some "123456") ⟨"15550100", ""⟩, .login "s" ⟨"15550100", "123456", ""⟩ client,
    .login "t" ⟨"15550100", "123456", ""⟩ client]

def turnsOf (is : List Nat) : List (Nat × Nat) := is.map (fun i => (i, 0))

theorem code_used_by_first_login :
    ∃ s, Run (step sendAndLogins) (fun s turn => s.orderly turn = true)
        (start deployment.portal Disabled.start sendAndLogins)
        (turnsOf [0, 0, 0, 0, 0, 0, 1, 1, 1, 1, 2, 2, 2, 2, 1, 1, 1]) s
      ∧ (s.created.map s.accepted).Nodup ∧ none ∉ s.created.map s.accepted := by
  refine ⟨_, Run.of_exec rfl, ?_⟩
  exact codes_used_once deployment.portal Disabled.start sendAndLogins
    (turnsOf [0, 0, 0, 0, 0, 0, 1, 1, 1, 1, 2, 2, 2, 2, 1, 1, 1]) _ (Run.of_exec rfl)

theorem code_used_by_both_logins :
    ∃ s, Run (step sendAndLogins) (fun _ _ => True) (start deployment.portal Disabled.start sendAndLogins)
        (turnsOf [0, 0, 0, 0, 0, 0, 1, 1, 1, 2, 2, 2, 1, 1, 1, 1, 2, 2, 2, 2]) s
      ∧ s.clients.shared.sessions.map Session.id = ["s", "t"]
      ∧ s.created.map s.accepted = [some ("15550100", 1), some ("15550100", 1)] := by
  refine ⟨_, Run.of_exec rfl, ?_, ?_⟩
  . decide +kernel
  . decide +kernel

end SmsCodes

end Mxid.Portal
