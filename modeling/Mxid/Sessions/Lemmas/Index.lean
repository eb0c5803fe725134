import Mxid.Sessions.Impl.System

/-!
This module contains the invariant between the sessions and the indexes of the users.
-/

namespace Mxid.Sessions

open Redis.Store

theorem UUID.ne_userKey (id : UUID) (ns ns' : Namespace) (userID : Int64) :
    sessionKey ns id.text ≠ userKey ns' userID := by
  intro h
  have htext : id.text = "user:" ++ toString userID := congrArg Prod.snd h
  have hvalid := id.valid
  rw [htext, String.toList_append, List.all_append] at hvalid
  simp [isUUIDChar] at hvalid

structure Stored (created : List (Key × Int64)) (k : Key) (e : Redis.Entry Session) : Prop where
  key : sessionKey e.value.ns e.value.id = k
  owner : (k, e.value.userID) ∈ created
  name : ∀ ns userID, k ≠ userKey ns userID
  expiry : ∃ t, e.expireAt = some t ∧ e.value.expiresAt ≤ t

def InIndex (s : Keys) (sess : Session) : Prop :=
  ∃ idx, s.sets (userKey sess.ns sess.userID) = some idx ∧ sess.id ∈ idx.value
    ∧ ∀ t, idx.expireAt = some t → sess.expiresAt ≤ t

theorem live_of_le {ν : Type} {idx : Redis.Entry ν} {now expiresAt : Int} (hnow : now ≤ expiresAt)
    (h : ∀ t, idx.expireAt = some t → expiresAt ≤ t) : idx.live now = true := by
  unfold Redis.Entry.live
  split
  . rfl
  next t ht =>
  rw [decide_eq_true_eq]
  exact Int.le_trans hnow (h t ht)

structure Indexed (created : List (Key × Int64)) (s : Keys) : Prop where
  faults : s.faults = []
  stored : ∀ k e, s.sessions k = some e → Stored created k e
  index : ∀ k idx, s.sets k = some idx → ∃ ns userID, k = userKey ns userID
  indexed : ∀ k e, s.sessions k = some e → s.now ≤ e.value.expiresAt → InIndex s e.value

variable {created : List (Key × Int64)} {s s' : Keys} {k : Key} {e : Redis.Entry Session}

namespace Indexed

section

variable (h : Indexed created s)

include h

theorem sets_eq_none (hk : ∀ ns userID, k ≠ userKey ns userID) : s.sets k = none := by
  apply Option.eq_none_iff_forall_ne_some.mpr
  intro idx hidx
  rcases h.index k idx hidx with ⟨ns, userID, heq⟩
  exact hk ns userID heq

theorem sessions_userKey (ns : Namespace) (userID : Int64) : s.sessions (userKey ns userID) = none := by
  apply Option.eq_none_iff_forall_ne_some.mpr
  intro e he
  exact (h.stored _ e he).name ns userID rfl

theorem del (hk : s.sets k = none) : Indexed created (s.del k) where
  faults := h.faults
  stored k' e he := h.stored k' e (eq_of_del_eq_some he)
  index k' idx hidx := h.index k' idx (eq_of_del_eq_some hidx)
  indexed k' e he hlive := by
    rcases h.indexed k' e (eq_of_del_eq_some he) hlive with ⟨idx, hidx, hmem⟩
    refine ⟨idx, ?_, hmem⟩
    have hne : userKey e.value.ns e.value.userID ≠ k := by
      intro heq
      rw [heq, hk] at hidx
      contradiction
    exact (del_of_ne hne).trans hidx

theorem sRem {ns : Namespace} {userID : Int64} {id : String}
    (hgone : ∀ e, s.sessions (sessionKey ns id) = some e → e.value.expiresAt < s.now) :
    Indexed created { s with sets := s.sets.srem s.now (userKey ns userID) id } where
  __ := h
  index k idx hidx := by
    rcases srem_eq_some hidx with ⟨idx', hidx', _⟩
    exact h.index k idx' hidx'
  indexed k e he hlive := by
    rcases h.indexed k e he hlive with ⟨idx, hidx, hmem, hexpiry⟩
    by_cases hkey : userKey e.value.ns e.value.userID = userKey ns userID
    . have hne : e.value.id ≠ id := by
        intro heq
        have hk : sessionKey ns id = k := by
          rw [← (h.stored k e he).key, heq]
          exact congrArg (fun key => (key.1, id)) hkey.symm
        rw [← hk] at he
        have := hgone e he
        dsimp only at hlive
        omega
      rcases srem_of_mem s.now (userKey ns userID) hidx hmem hne with ⟨ms, hms, hmem'⟩
      exact ⟨_, hms, hmem', hexpiry⟩
    . exact ⟨idx, (srem_of_ne hkey).trans hidx, hmem, hexpiry⟩

end

end Indexed

structure Wrote (sess : Session) (s s' : Keys) : Prop where
  now : s.now ≤ s'.now
  faults : s'.faults = s.faults
  sessions : ∀ k e, s'.sessions k = some e → s.sessions k = some e
    ∨ (k = sessionKey sess.ns sess.id ∧ e.value = sess ∧ ∃ t, e.expireAt = some t ∧ sess.expiresAt ≤ t)

structure Keeps (sess sess' : Session) : Prop where
  id : sess'.id = sess.id
  ns : sess'.ns = sess.ns
  userID : sess'.userID = sess.userID
  expiresAt : sess'.expiresAt = sess.expiresAt

theorem Indexed.writeBack (h : Indexed created s) (he : s.sessions k = some e) {sess : Session}
    (hkeeps : Keeps e.value sess) (hwrote : Wrote sess s s') (hsets : s'.sets = s.sets) : Indexed created s' := by
  have hstored := h.stored k e he
  have hk : sessionKey sess.ns sess.id = k := by
    rw [hkeeps.ns, hkeeps.id]
    exact hstored.key
  constructor
  . exact hwrote.faults.trans h.faults
  . intro k' e' he'
    rcases hwrote.sessions k' e' he' with hold | ⟨hk', hvalue, hexpiry⟩
    . exact h.stored k' e' hold
    rw [hk', hk]
    refine ⟨by rw [hvalue]; exact hk, ?_, hstored.name, by rw [hvalue]; exact hexpiry⟩
    rw [hvalue, hkeeps.userID]
    exact hstored.owner
  . rw [hsets]
    exact h.index
  . intro k' e' he' hlive
    have hnow := hwrote.now
    unfold InIndex
    rw [hsets]
    rcases hwrote.sessions k' e' he' with hold | ⟨_, hvalue, _⟩
    . apply h.indexed k' e' hold (Int.le_trans hnow hlive)
    rw [hvalue, hkeeps.expiresAt] at hlive
    rw [hvalue, hkeeps.id, hkeeps.ns, hkeeps.userID, hkeeps.expiresAt]
    apply h.indexed k e he (Int.le_trans hnow hlive)

theorem Indexed.create (h : Indexed created s) {sess : Session} {ms : List String} {t : Int}
    (hname : ∀ ns userID, sessionKey sess.ns sess.id ≠ userKey ns userID) (hwrote : Wrote sess s s')
    (hother : ∀ k, k ≠ userKey sess.ns sess.userID → s'.sets k = s.sets k)
    (hindex : s'.sets (userKey sess.ns sess.userID) = some ⟨ms, some t⟩) (hmem : sess.id ∈ ms)
    (hkept : ∀ idx, s.sets (userKey sess.ns sess.userID) = some idx → idx.live s'.now = true → ∀ id ∈ idx.value,
        id ∈ ms)
    (ht : ∀ k e, s'.sessions k = some e → userKey e.value.ns e.value.userID = userKey sess.ns sess.userID →
      e.value.expiresAt ≤ t) :
    Indexed ((sessionKey sess.ns sess.id, sess.userID) :: created) s' := by
  constructor
  . exact hwrote.faults.trans h.faults
  . intro k e he
    rcases hwrote.sessions k e he with hold | ⟨rfl, rfl, hexpiry⟩
    . have hstored := h.stored k e hold
      exact ⟨hstored.key, List.mem_cons_of_mem _ hstored.owner, hstored.name, hstored.expiry⟩
    . exact ⟨rfl, List.mem_cons_self, hname, hexpiry⟩
  . intro k idx hidx
    by_cases hk : k = userKey sess.ns sess.userID
    . exact ⟨_, _, hk⟩
    . rw [hother k hk] at hidx
      exact h.index k idx hidx
  . intro k e he hlive
    by_cases hkey : userKey e.value.ns e.value.userID = userKey sess.ns sess.userID
    . refine ⟨⟨ms, some t⟩, by rw [hkey]; exact hindex, ?_, ?_⟩
      . rcases hwrote.sessions k e he with hold | ⟨_, rfl, _⟩
        . rcases h.indexed k e hold (Int.le_trans hwrote.now hlive) with ⟨idx, hidx, hin, hexpiry⟩
          rw [hkey] at hidx
          apply hkept idx hidx (live_of_le hlive hexpiry) _ hin
        . exact hmem
      . rintro t' ⟨⟩
        exact ht k e he hkey
    . rcases hwrote.sessions k e he with hold | ⟨_, rfl, _⟩
      . rcases h.indexed k e hold (Int.le_trans hwrote.now hlive) with ⟨idx, hidx, hin⟩
        exact ⟨idx, (hother _ hkey).trans hidx, hin⟩
      . exact absurd rfl hkey

end Mxid.Sessions
