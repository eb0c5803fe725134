import Mxid.Sessions.Lemmas.Index

namespace Mxid.Sessions

open Redis.Store List Prog Keys

structure Later (s s' : Keys) : Prop where
  now : s.now ≤ s'.now
  sessions : s'.sessions = s.sessions
  sets : s'.sets = s.sets
  policy : s'.policy = s.policy
  faults : s'.faults = s.faults

theorem Later.trans {s s' s'' : Keys} (h : Later s s') (h' : Later s' s'') : Later s s'' where
  now := Int.le_trans h.now h'.now
  sessions := h'.sessions.trans h.sessions
  sets := h'.sets.trans h.sets
  policy := h'.policy.trans h.policy
  faults := h'.faults.trans h.faults

theorem later_advance (s : Keys) (ms : Nat) : Later s (s.advance ms) where
  now := by
    simp only [Keys.advance]
    omega
  sessions := rfl
  sets := rfl
  policy := rfl
  faults := rfl

variable {m : Manager} {created : List (Key × Int64)} {s s' : Keys} {k : Key}

theorem Indexed.later (h : Indexed created s) (hlater : Later s s') : Indexed created s' where
  faults := hlater.faults.trans h.faults
  stored k e he := h.stored k e (hlater.sessions ▸ he)
  index k idx hidx := h.index k idx (hlater.sets ▸ hidx)
  indexed k e he hlive := by
    unfold InIndex
    rw [hlater.sets]
    exact h.indexed k e (hlater.sessions ▸ he) (Int.le_trans hlater.now hlive)

structure Fewer (s s' : Keys) : Prop where
  now : s.now ≤ s'.now
  sessions : ∀ k e, s'.sessions k = some e → s.sessions k = some e

theorem Fewer.refl (s : Keys) : Fewer s s := ⟨Int.le_refl _, fun _ _ => id⟩

theorem Fewer.trans {s s' s'' : Keys} (h : Fewer s s') (h' : Fewer s' s'') : Fewer s s'' where
  now := Int.le_trans h.now h'.now
  sessions k e he := h.sessions k e (h'.sessions k e he)

theorem Later.fewer (h : Later s s') : Fewer s s' where
  now := h.now
  sessions _ _ he := h.sessions ▸ he

theorem fewer_del (s : Keys) (k : Key) : Fewer s (s.del k) where
  now := Int.le_refl _
  sessions _ _ he := eq_of_del_eq_some he

def Expired (s : Keys) (k : Key) : Prop :=
  ∀ e, s.sessions k = some e → e.value.expiresAt < s.now

theorem Expired.fewer (h : Expired s k) (hfewer : Fewer s s') : Expired s' k := by
  intro e he
  have := h e (hfewer.sessions k e he)
  have := hfewer.now
  omega

section Rules

/-!
The commands, when nothing happens to them. Those for sets are given keys that hold no session.
-/

theorem Keys.deliver_eq {α : Type} (h : s.faults = []) (reply : Option α) (s' : Keys) :
    s.deliver reply s' = (reply, s') := by
  simp [Keys.deliver, h]

theorem Keys.step_get (h : s.faults = []) :
    Keys.step (.get k) s
      =
    (if (s.sets.lookup s.now k).isSome then none else some (s.sessions.get s.now k), s) := by
  simp only [Keys.step, deliver_eq h]
  split <;> rfl

theorem Keys.step_set (h : s.faults = []) (sess : Session) (ttl : Int) :
    Keys.step (.set k sess ttl) s
      =
    (some (), { s with sessions := s.sessions.set k sess (some (s.now + ttl)), sets := s.sets.del k }) := by
  apply deliver_eq h

theorem Keys.step_del (h : s.faults = []) : Keys.step (.del k) s = (some (), s.del k) := by
  apply deliver_eq h

section Sets

variable (hfaults : s.faults = []) (hnone : s.sessions k = none)

include hfaults hnone

theorem Keys.step_sAdd (member : String) :
    Keys.step (.sAdd k member) s = (some (), { s with sets := s.sets.sadd s.now k member }) := by
  simp [Keys.step, Redis.Store.lookup, hnone, deliver_eq hfaults]

theorem Keys.step_sMembers : Keys.step (.sMembers k) s = (some (s.sets.smembers s.now k), s) := by
  simp [Keys.step, Redis.Store.lookup, hnone, deliver_eq hfaults]

theorem Keys.step_sRem (member : String) :
    Keys.step (.sRem k member) s = (some (), { s with sets := s.sets.srem s.now k member }) := by
  simp [Keys.step, Redis.Store.lookup, hnone, deliver_eq hfaults]

theorem Keys.step_expire {seconds : Int} (hpos : 0 < seconds) :
    Keys.step (.expire k seconds) s
      =
    (some (), { s with sets := s.sets.pexpire s.now k (seconds * 1000) }) := by
  have hsessions : s.sessions.pexpire s.now k (seconds * 1000) = s.sessions := by
    simp [Redis.Store.pexpire, Redis.Store.lookup, hnone]
  simp only [Keys.step, deliver_eq hfaults, Keys.expire, if_neg (Int.not_le.mpr hpos), hsessions]

end Sets

theorem wp_command {β : Type} {c : Cmd β} {Q : β → Keys → Prop}
    (h : ∀ s', Later s s' → Q (Keys.step c s').1 (Keys.step c s').2) : (call c).wp semantics Q s := by
  intro delay
  apply h _ (later_advance s delay)

theorem wp_resolveTimeouts {Q : Int × Int → Keys → Prop} (h : ∀ s', Later s s' → Q (m.timeouts s.policy) s') :
    (resolveTimeouts m).wp semantics Q s := by
  unfold resolveTimeouts
  rw [wp_bind]
  apply wp_command
  intro s' hlater
  have := h s' hlater
  rw [← hlater.policy] at this
  exact this

end Rules

theorem delete_wp (h : Indexed created s) (ns : Namespace) (sessionID : String)
    (hk : s.sets (sessionKey ns sessionID) = none) :
    (delete ns sessionID).wp semantics (fun _ s' => Indexed created s' ∧ Fewer s s'
      ∧ Expired s' (sessionKey ns sessionID)) s := by
  unfold delete
  rw [wp_bind]
  apply wp_command
  intro s₁ h1
  rw [step_del (h.later h1).faults]
  refine ⟨(h.later h1).del (by rw [h1.sets]; exact hk), h1.fewer.trans (fewer_del _ _), ?_⟩
  intro e he
  simp [Keys.del, Redis.Store.del] at he

structure Got (created : List (Key × Int64)) (ns : Namespace) (sessionID : String) (s : Keys)
    (reply : Except String (Option Session)) (s' : Keys) : Prop where
  indexed : Indexed created s'
  fewer : Fewer s s'
  found : ∀ sess, reply = .ok (some sess) →
    ∃ e, s.sessions (sessionKey ns sessionID) = some e ∧ e.value = sess ∧ s.now ≤ sess.expiresAt
  gone : (∀ sess, reply ≠ .ok (some sess)) → Expired s' (sessionKey ns sessionID)

variable {ns : Namespace} {s₁ : Keys} {userID : Int64} {ids : List String} {sess : Session} {absolute : Int}

theorem Got.of_later {sessionID : String} {reply : Except String (Option Session)}
    (h : Got created ns sessionID s₁ reply s') (hlater : Later s s₁) : Got created ns sessionID s reply s' where
  __ := h
  fewer := hlater.fewer.trans h.fewer
  found sess hreply := by
    rcases h.found sess hreply with ⟨e, he, hvalue, hlive⟩
    exact ⟨e, hlater.sessions ▸ he, hvalue, Int.le_trans hlater.now hlive⟩

theorem unexpired_wp (h : Indexed created s) {sessionID : String} {e : Redis.Entry Session}
    (he : s.sessions (sessionKey ns sessionID) = some e) :
    (unexpired m ns sessionID e.value).wp semantics (Got created ns sessionID s) s := by
  unfold unexpired
  rw [wp_bind]
  apply wp_command
  intro s₁ h1
  rw [wp_bind]
  apply wp_resolveTimeouts
  intro s2 h2
  have hlater := h1.trans h2
  have hindexed := h.later hlater
  dsimp only
  split
  . rw [wp_bind]
    have hset : s2.sets (sessionKey ns sessionID) = none := by
      apply hindexed.sets_eq_none
      exact (h.stored _ e he).name
    apply wp_mono (delete_wp hindexed ns sessionID hset)
    rintro _ s3 ⟨h3, hfewer, hgone⟩
    refine Got.of_later ⟨h3, hfewer, ?_, fun _ => hgone⟩ hlater
    intro sess hreply
    cases hreply
  . next hlive =>
    refine ⟨hindexed, hlater.fewer, ?_, ?_⟩
    . intro sess hreply
      cases hreply
      refine ⟨e, he, rfl, ?_⟩
      have := h1.now
      simp only [Keys.step] at hlive
      omega
    . intro hnot
      exact absurd rfl (hnot e.value)

theorem get_wp (h : Indexed created s) (ns : Namespace) (sessionID : String) :
    (get m ns sessionID).wp semantics (Got created ns sessionID s) s := by
  unfold get
  rw [wp_bind]
  apply wp_command
  intro s₁ h1
  have hindexed := h.later h1
  rw [step_get hindexed.faults]
  split
  . -- there is an index under this name, so there is no session
    next hreply =>
    split at hreply
    . next hlive =>
      rcases Option.isSome_iff_exists.mp hlive with ⟨idx, hidx⟩
      rcases hindexed.index _ idx (lookup_eq_some_iff.mp hidx).1 with ⟨ns', userID, hkey⟩
      refine Got.of_later ⟨hindexed, .refl _, by simp, ?_⟩ h1
      intro _ e he
      exact absurd hkey ((hindexed.stored _ e he).name ns' userID)
    . contradiction
  . next hreply =>
    split at hreply
    . contradiction
    refine Got.of_later ⟨hindexed, .refl _, by simp, ?_⟩ h1
    intro _ e he
    rcases (hindexed.stored _ e he).expiry with ⟨t, ht, hle⟩
    by_contra hlive
    dsimp only at hlive
    have hget : s₁.sessions.get s₁.now (sessionKey ns sessionID) = some e.value := by
      rw [Redis.Store.get, lookup_eq_some_iff.mpr ⟨he, ?_⟩]
      . rfl
      . simp only [Redis.Entry.live, ht, decide_eq_true_eq]
        omega
    rw [hget] at hreply
    cases hreply
  . next sess hreply =>
    split at hreply
    . contradiction
    rcases eq_some_of_get_eq_some (Option.some.inj hreply) with ⟨e, he, rfl⟩
    apply wp_mono (unexpired_wp hindexed he)
    intro reply s2 hgot
    exact hgot.of_later h1

def Covers (ns : Namespace) (userID : Int64) (ids : List String) (s : Keys) : Prop :=
  ∀ k e, s.sessions k = some e → s.now ≤ e.value.expiresAt →
    userKey e.value.ns e.value.userID = userKey ns userID → e.value.id ∈ ids

theorem Indexed.covers (h : Indexed created s) (ns : Namespace) (userID : Int64) :
    Covers ns userID (s.sets.smembers s.now (userKey ns userID)) s := by
  intro k e he hlive hkey
  rcases h.indexed k e he hlive with ⟨idx, hidx, hmem, hexpiry⟩
  rw [hkey] at hidx
  apply mem_smembers hidx (live_of_le hlive hexpiry) hmem

theorem Covers.mono {ids' : List String} (h : Covers ns userID ids s)
    (hfewer : Fewer s s') (hids : ∀ id ∈ ids, id ∈ ids') : Covers ns userID ids' s' := by
  intro k e he hlive hkey
  apply hids
  apply h k e (hfewer.sessions k e he) (Int.le_trans hfewer.now hlive) hkey

theorem Covers.drop {id : String} (h : Covers ns userID (id :: ids) s) (hstored : Indexed created s)
    (hfewer : Fewer s s') (hgone : Expired s' (sessionKey ns id)) : Covers ns userID ids s' := by
  intro k e he hlive hkey
  have hold := hfewer.sessions k e he
  rcases mem_cons.mp (h k e hold (Int.le_trans hfewer.now hlive) hkey) with heq | hmem
  . have hk : sessionKey ns id = k := by
      rw [← (hstored.stored k e hold).key, ← heq]
      exact congrArg (fun key => (key.1, e.value.id)) hkey.symm
    have := hgone e (by rw [hk]; exact he)
    omega
  . exact hmem

def Named (ns : Namespace) (sessions : List Session) : Prop :=
  ∀ sess ∈ sessions, ∀ ns' userID, sessionKey ns sess.id ≠ userKey ns' userID

theorem collect_wp (h : Indexed created s) {done : List String} (hcovers : Covers ns userID (ids ++ done) s) :
    (collect m ns (userKey ns userID) ids).wp semantics (fun sessions s' => Indexed created s' ∧ Fewer s s'
      ∧ Covers ns userID (sessions.map Session.id ++ done) s' ∧ Named ns sessions) s := by
  induction ids generalizing s done with
  | nil => exact ⟨h, .refl _, hcovers, by simp [Named]⟩
  | cons id ids ih =>
    unfold collect
    rw [wp_bind]
    apply wp_mono (get_wp h ns id)
    intro reply s₁ hgot
    split
    . next err =>
      apply wp_mono (ih hgot.indexed (hcovers.drop h hgot.fewer (hgot.gone (by simp))))
      rintro sessions s2 ⟨h2, hfewer, hrest⟩
      exact ⟨h2, hgot.fewer.trans hfewer, hrest⟩
    . next sess =>
      rcases hgot.found sess rfl with ⟨e, he, rfl, _⟩
      have hstored := h.stored _ e he
      have hid : e.value.id = id := congrArg Prod.snd hstored.key
      have hcovers' : Covers ns userID (ids ++ (id :: done)) s₁ := by
        apply hcovers.mono hgot.fewer
        intro id' hid'
        simp only [cons_append, mem_cons, mem_append] at *
        tauto
      rw [wp_bind]
      apply wp_mono (ih hgot.indexed hcovers')
      rintro sessions s2 ⟨h2, hfewer, hcovers2, hnamed⟩
      refine ⟨h2, hgot.fewer.trans hfewer, ?_, ?_⟩
      . apply hcovers2.mono (.refl _)
        intro id' hid'
        simp only [map_cons, hid, cons_append, mem_cons, mem_append] at *
        tauto
      . intro sess hsess
        rcases mem_cons.mp hsess with rfl | hsess
        . rw [hid]
          exact hstored.name
        . exact hnamed sess hsess
    . rw [wp_bind]
      apply wp_command
      intro s2 h2
      have hindexed := hgot.indexed.later h2
      rw [step_sRem hindexed.faults (hindexed.sessions_userKey ns userID)]
      have hgone : Expired s2 (sessionKey ns id) := (hgot.gone (by simp)).fewer h2.fewer
      have hfewer : Fewer s { s2 with sets := s2.sets.srem s2.now (userKey ns userID) id } :=
        (hgot.fewer.trans h2.fewer).trans ⟨Int.le_refl _, fun _ _ he => he⟩
      apply wp_mono (ih (hindexed.sRem hgone) (hcovers.drop h hfewer hgone))
      rintro sessions s3 ⟨h3, hfewer3, hrest⟩
      exact ⟨h3, hfewer.trans hfewer3, hrest⟩

theorem deleteEach_wp (h : Indexed created s) {sessions : List Session}
    (hcovers : Covers ns userID (sessions.map Session.id) s) (hnamed : Named ns sessions) :
    (deleteEach ns sessions).wp semantics (fun _ s' => Indexed created s' ∧ Fewer s s' ∧ Covers ns userID [] s') s := by
  have hloop : (deleteEach ns sessions).wp semantics (fun _ s' => Indexed created s' ∧ Fewer s s'
      ∧ Covers ns userID (([] : List Session).map Session.id) s' ∧ Named ns []) s := by
    apply wp_forM (I := fun l s' => Indexed created s' ∧ Fewer s s' ∧ Covers ns userID (l.map Session.id) s'
        ∧ Named ns l)
    . exact ⟨h, .refl _, hcovers, hnamed⟩
    rintro sess l s₁ ⟨h1, hfewer1, hcovers1, hnamed1⟩
    rw [wp_bind]
    have hset : s₁.sets (sessionKey ns sess.id) = none :=
      h1.sets_eq_none (hnamed1 sess mem_cons_self)
    apply wp_mono (delete_wp h1 ns sess.id hset)
    rintro _ s2 ⟨h2, hfewer2, hgone⟩
    refine ⟨h2, hfewer1.trans hfewer2, hcovers1.drop h1 hfewer2 hgone, ?_⟩
    intro sess' hsess'
    apply hnamed1 sess' (mem_cons_of_mem _ hsess')
  apply wp_mono hloop
  rintro _ s' ⟨h', hfewer', hcovers', _⟩
  exact ⟨h', hfewer', hcovers'⟩

theorem listByUser_wp (h : Indexed created s) (ns : Namespace) (userID : Int64) :
    (listByUser m ns userID).wp semantics (fun reply s' => Indexed created s' ∧ Fewer s s'
      ∧ ∃ sessions, reply = .ok sessions ∧ Covers ns userID (sessions.map Session.id) s' ∧ Named ns sessions) s := by
  unfold listByUser
  rw [wp_bind]
  apply wp_command
  intro s₁ h1
  have hindexed := h.later h1
  rw [step_sMembers hindexed.faults (hindexed.sessions_userKey ns userID)]
  rw [wp_bind]
  have hcovers : Covers ns userID (s₁.sets.smembers s₁.now (userKey ns userID) ++ []) s₁ := by
    rw [append_nil]
    apply hindexed.covers
  apply wp_mono (collect_wp hindexed hcovers)
  rintro sessions s2 ⟨h2, hfewer, hcovers2, hnamed⟩
  rw [append_nil] at hcovers2
  exact ⟨h2, h1.fewer.trans hfewer, sessions, rfl, hcovers2, hnamed⟩

theorem deleteAllByUser_wp (h : Indexed created s) (ns : Namespace) (userID : Int64) :
    (deleteAllByUser m ns userID).wp semantics
      (fun _ s' => Indexed created s' ∧ Fewer s s' ∧ Covers ns userID [] s') s := by
  unfold deleteAllByUser
  rw [wp_bind]
  apply wp_mono (listByUser_wp h ns userID)
  rintro reply s₁ ⟨h1, hfewer1, sessions, rfl, hcovers1, hnamed⟩
  rw [wp_bind]
  apply wp_mono (deleteEach_wp h1 hcovers1 hnamed)
  rintro _ s2 ⟨h2, hfewer2, hcovers2⟩
  rw [wp_bind]
  apply wp_command
  intro s3 h3
  have hindexed := h2.later h3
  have hcovers3 : Covers ns userID [] s3 := hcovers2.mono h3.fewer (fun _ => id)
  rw [step_del hindexed.faults]
  refine ⟨⟨hindexed.faults, ?_, ?_, ?_⟩, ?_, ?_⟩
  . exact fun k e he => hindexed.stored k e (eq_of_del_eq_some he)
  . exact fun k idx hidx => hindexed.index k idx (eq_of_del_eq_some hidx)
  . intro k e he hlive
    have he' := eq_of_del_eq_some he
    rcases hindexed.indexed k e he' hlive with ⟨idx, hidx, hmem⟩
    refine ⟨idx, (del_of_ne ?_).trans hidx, hmem⟩
    intro hkey
    have := hcovers3 k e he' hlive hkey
    contradiction
  . exact ((hfewer1.trans hfewer2).trans h3.fewer).trans (fewer_del _ _)
  . exact hcovers3.mono (fewer_del _ _) (fun _ => id)

theorem Later.wrote (h : Later s s') (sess : Session) : Wrote sess s s' where
  __ := h
  sessions _ _ he := .inl (h.sessions ▸ he)

theorem save_wp (hfaults : s.faults = []) (hset : s.sets (sessionKey sess.ns sess.id) = none) :
    (save sess).wp semantics (fun reply s' => reply = .ok () ∧ Wrote sess s s' ∧ s'.sets = s.sets) s := by
  unfold save
  rw [wp_bind]
  apply wp_command
  intro s₁ h1
  dsimp only
  split
  . exact ⟨rfl, h1.wrote sess, h1.sets⟩
  rw [wp_bind]
  apply wp_command
  intro s2 h2
  have hlater := h1.trans h2
  have hnow : s₁.now ≤ s2.now := h2.now
  rw [step_set (hlater.faults.trans hfaults)]
  refine ⟨rfl, ⟨hlater.now, hlater.faults, ?_⟩, ?_⟩
  . intro k' e he
    rcases eq_of_set_eq_some he with ⟨rfl, rfl⟩ | hold
    . refine .inr ⟨rfl, rfl, _, rfl, ?_⟩
      simp only [Keys.step]
      omega
    . exact .inl (hlater.sessions ▸ hold)
  . rw [hlater.sets]
    apply del_eq_self hset

structure Leaves (created created' : List (Key × Int64)) (s s' : Keys) : Prop where
  indexed : Indexed created' s'
  now : s.now ≤ s'.now
  gone : ∀ k ∈ created.map Prod.fst, Expired s k → Expired s' k

theorem Indexed.leaves (h : Indexed created s') (hfewer : Fewer s s') : Leaves created created s s' where
  indexed := h
  now := hfewer.now
  gone _ _ hgone := hgone.fewer hfewer

theorem Leaves.of_later {created' : List (Key × Int64)} (h : Leaves created created' s₁ s') (hlater : Later s s₁) :
    Leaves created created' s s' where
  indexed := h.indexed
  now := Int.le_trans hlater.now h.now
  gone k hk hgone := h.gone k hk (hgone.fewer hlater.fewer)

theorem writeBack_wp (h : Indexed created s) (what : String) (ns : Namespace) (sessionID : String)
    {change : Op (Session → Session)}
    (hchange : ∀ s, change.wp semantics (fun f s' => Later s s' ∧ ∀ sess, Keeps sess (f sess)) s) :
    (writeBack ns sessionID what change).wp semantics (fun _ s' => Leaves created created s s') s := by
  unfold writeBack
  rw [wp_bind]
  apply wp_command
  intro s₁ h1
  have hindexed := h.later h1
  rw [step_get hindexed.faults]
  split
  . exact hindexed.leaves h1.fewer
  . exact hindexed.leaves h1.fewer
  next sess hreply =>
  split at hreply
  . contradiction
  rcases eq_some_of_get_eq_some (Option.some.inj hreply) with ⟨e, he, rfl⟩
  rw [wp_bind]
  apply wp_mono (hchange s₁)
  rintro f s2 ⟨h2, hkeeps⟩
  have hlater := h1.trans h2
  have hindexed2 := hindexed.later h2
  have he2 : s2.sessions (sessionKey ns sessionID) = some e := h2.sessions ▸ he
  have hstored := hindexed2.stored _ e he2
  have hkey : sessionKey (f e.value).ns (f e.value).id = sessionKey ns sessionID := by
    rw [(hkeeps e.value).ns, (hkeeps e.value).id]
    exact hstored.key
  have hset : s2.sets (sessionKey (f e.value).ns (f e.value).id) = none := by
    rw [hkey]
    exact hindexed2.sets_eq_none hstored.name
  apply wp_mono (save_wp hindexed2.faults hset)
  rintro _ s3 ⟨_, hwrote, hsets⟩
  apply Leaves.of_later _ hlater
  refine ⟨hindexed2.writeBack he2 (hkeeps e.value) hwrote hsets, hwrote.now, ?_⟩
  intro k _ hgone e' he'
  have hnow := hwrote.now
  rcases hwrote.sessions k e' he' with hold | ⟨hk, hvalue, _⟩
  . have := hgone e' hold
    omega
  . rw [hk, hkey] at hgone
    rw [hvalue, (hkeeps e.value).expiresAt]
    have := hgone e he2
    omega

theorem stamp_wp {f : Int → Session → Session} (hf : ∀ now sess, Keeps sess (f now sess)) (s : Keys) :
    (do let now ← call .now; pure (f now) : Op (Session → Session)).wp semantics
      (fun f s' => Later s s' ∧ ∀ sess, Keeps sess (f sess)) s := by
  rw [wp_bind]
  apply wp_command
  intro s' h'
  exact ⟨h', hf _⟩

theorem fixed_wp {f : Session → Session} (hf : ∀ sess, Keeps sess (f sess)) (s : Keys) :
    (pure f : Op (Session → Session)).wp semantics (fun f s' => Later s s' ∧ ∀ sess, Keeps sess (f sess)) s := by
  exact ⟨⟨Int.le_refl _, rfl, rfl, rfl, rfl⟩, hf⟩

section WriteBack

variable (h : Indexed created s) (ns : Namespace) (sessionID : String)

include h

theorem touch_wp : (touch ns sessionID).wp semantics (fun _ s' => Leaves created created s s') s := by
  apply writeBack_wp h
  apply stamp_wp
  intro now sess
  exact ⟨rfl, rfl, rfl, rfl⟩

theorem markMFAVerified_wp :
    (markMFAVerified ns sessionID).wp semantics (fun _ s' => Leaves created created s s') s := by
  apply writeBack_wp h
  apply stamp_wp
  intro now sess
  exact ⟨rfl, rfl, rfl, rfl⟩

theorem carryMFAVerifiedAt_wp (verifiedAt : Option Int) :
    (carryMFAVerifiedAt ns sessionID verifiedAt).wp semantics (fun _ s' => Leaves created created s s') s := by
  unfold carryMFAVerifiedAt
  split
  . exact h.leaves (.refl s)
  split
  . exact h.leaves (.refl s)
  apply writeBack_wp h
  apply fixed_wp
  intro sess
  exact ⟨rfl, rfl, rfl, rfl⟩

theorem setEnrollPending_wp (pending : Bool) :
    (setEnrollPending ns sessionID pending).wp semantics (fun _ s' => Leaves created created s s') s := by
  apply writeBack_wp h
  apply fixed_wp
  intro sess
  exact ⟨rfl, rfl, rfl, rfl⟩

theorem setPwdChangePending_wp (pending : Bool) :
    (setPwdChangePending ns sessionID pending).wp semantics (fun _ s' => Leaves created created s s') s := by
  apply writeBack_wp h
  apply fixed_wp
  intro sess
  exact ⟨rfl, rfl, rfl, rfl⟩

end WriteBack

def Steady (s s' : Keys) (k : Key) : Prop :=
  ∀ idx t, s.sets k = some idx → idx.expireAt = some t → t < s.now ∨ s'.now ≤ t

structure Added (sess : Session) (absolute : Int) (s s' : Keys) : Prop where
  now : s.now ≤ s'.now
  faults : s'.faults = s.faults
  sessions : s'.sessions = s.sessions
  other : ∀ k, k ≠ userKey sess.ns sess.userID → s'.sets k = s.sets k
  index : Steady s s' (userKey sess.ns sess.userID) →
    ∃ ms, s'.sets (userKey sess.ns sess.userID) = some ⟨ms, some (s'.now + absolute)⟩ ∧ sess.id ∈ ms
      ∧ ∀ idx, s.sets (userKey sess.ns sess.userID) = some idx → idx.live s'.now = true → ∀ id ∈ idx.value, id ∈ ms

theorem Wrote.added (h : Wrote sess s s₁) (hadded : Added sess absolute s₁ s') : Wrote sess s s' where
  now := Int.le_trans h.now hadded.now
  faults := hadded.faults.trans h.faults
  sessions k e he := h.sessions k e (hadded.sessions ▸ he)

theorem formatSec_mul (hpos : 0 < absolute) (hwhole : absolute % 1000 = 0) :
    0 < formatSec absolute ∧ formatSec absolute * 1000 = absolute := by
  unfold formatSec
  rw [if_neg (by omega), Int.tdiv_eq_ediv_of_nonneg (by omega)]
  omega

theorem addToIndex_wp (hfaults : s.faults = [])
    (hnone : s.sessions (userKey sess.ns sess.userID) = none) (hpos : 0 < absolute) (hwhole : absolute % 1000 = 0) :
    (addToIndex sess absolute).wp semantics (fun _ s' => Added sess absolute s s') s := by
  unfold addToIndex
  generalize hk : userKey sess.ns sess.userID = k at hnone
  rw [wp_bind]
  apply wp_command
  intro s₁ h1
  rw [step_sAdd (h1.faults.trans hfaults) (by rw [h1.sessions]; exact hnone), wp_bind]
  apply wp_command
  intro s2 h2
  have hnow : s₁.now ≤ s2.now := h2.now
  rw [step_expire (h2.faults.trans (h1.faults.trans hfaults)) (by rw [h2.sessions, h1.sessions]; exact hnone)
    (formatSec_mul hpos hwhole).1, (formatSec_mul hpos hwhole).2, h2.sets, h1.sets]
  refine ⟨Int.le_trans h1.now hnow, h2.faults.trans h1.faults, h2.sessions.trans h1.sessions, ?_, ?_⟩
  . rw [hk]
    intro k' hk'
    exact (pexpire_of_ne hk').trans (set_of_ne hk')
  rw [hk]
  intro hsteady
  have hlasts : ∀ idx t, s.sets.lookup s₁.now k = some idx → idx.expireAt = some t → s2.now ≤ t := by
    intro idx t hidx ht
    rcases lookup_eq_some_iff.mp hidx with ⟨hidx, hlive⟩
    rw [Redis.Entry.live, ht, decide_eq_true_eq] at hlive
    have := h1.now
    have := hsteady idx t hidx ht
    dsimp only at this
    omega
  rw [sadd_pexpire_of_le sess.id absolute hlasts]
  refine ⟨_, set_self _ _ _ _, by simp, ?_⟩
  intro idx hidx hlive id hid
  apply mem_insert_of_mem
  apply mem_smembers hidx _ hid
  exact Redis.Entry.live_mono hnow hlive

structure LastsLongest (login : Login) (absolute : Int) (s : Keys) : Prop where
  pos : 0 < absolute
  whole : absolute % 1000 = 0
  latest : ∀ k e, s.sessions k = some e → userKey e.value.ns e.value.userID = userKey login.ns login.userID →
    e.value.expiresAt ≤ s.now + absolute

theorem create_wp (h : Indexed created s) {login : Login} (hlongest : LastsLongest login (m.timeouts s.policy).2 s)
    (hunused : sessionKey login.ns login.id.text ∉ created.map Prod.fst) :
    (create m login).wp semantics (fun _ s' => Steady s s' (userKey login.ns login.userID) →
      Leaves created ((sessionKey login.ns login.id.text, login.userID) :: created) s s') s := by
  unfold create
  rw [wp_bind]
  apply wp_resolveTimeouts
  intro s₁ h1
  generalize habsolute : m.timeouts s.policy = timeouts at hlongest
  rcases timeouts with ⟨idle, absolute⟩
  rw [wp_bind]
  apply wp_command
  intro s2 h2
  have hlater := h1.trans h2
  have hindexed := h.later hlater
  rw [wp_bind]
  apply wp_mono (save_wp hindexed.faults (hindexed.sets_eq_none (login.id.ne_userKey login.ns)))
  rintro _ s3 ⟨rfl, hwrote, hsets⟩
  have hnone : s3.sessions (userKey login.ns login.userID) = none := by
    apply Option.eq_none_iff_forall_ne_some.mpr
    intro e he
    rcases hwrote.sessions _ e he with hold | ⟨hk, _⟩
    . exact absurd (hindexed.sessions_userKey login.ns login.userID) (by simp [hold])
    . exact login.id.ne_userKey login.ns login.ns login.userID hk.symm
  rw [wp_bind]
  apply wp_mono (addToIndex_wp (hwrote.faults.trans hindexed.faults) hnone hlongest.pos hlongest.whole)
  intro _ s4 hadded hsteady
  have hwrote4 := hwrote.added hadded
  apply Leaves.of_later _ hlater
  have hsteady3 : Steady s3 s4 (userKey login.ns login.userID) := by
    intro idx t hidx ht
    rw [hsets, hlater.sets] at hidx
    have := hsteady idx t hidx ht
    have := hlater.now
    have := hwrote.now
    omega
  rcases hadded.index hsteady3 with ⟨ms, hindex, hmem, hkept⟩
  refine ⟨hindexed.create (login.id.ne_userKey login.ns) hwrote4 ?_ hindex hmem ?_ ?_, hwrote4.now, ?_⟩
  . rw [← hsets]
    exact hadded.other
  . rw [← hsets]
    exact hkept
  . intro k e he hkey
    have hnow2 := hlater.now
    have hnow4 := hwrote4.now
    rcases hwrote4.sessions k e he with hold | ⟨_, hvalue, _⟩
    . have := hlongest.latest k e (hlater.sessions ▸ hold) hkey
      omega
    . rw [hvalue]
      simp only [newSession, Keys.step]
      omega
  . intro k hk hgone e he
    have hnow := hwrote4.now
    rcases hwrote4.sessions k e he with hold | ⟨hk', _⟩
    . have := hgone e hold
      omega
    . rw [hk'] at hk
      exact absurd hk hunused

end Mxid.Sessions
