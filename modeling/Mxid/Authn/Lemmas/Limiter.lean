import Mxid.Authn.Impl.Limiter

namespace Mxid.RateLimit

open Redis.Store Option

namespace Limiter

variable {ι : Type} {l : Limiter} {rdb : Keyspace ι} {now now' : Int} {id id' : ι}

theorem key_ne (h : id' ≠ id) : l.key id' ≠ l.key id := by
  intro heq
  apply h
  apply (Prod.mk.inj heq).2

structure Tally (l : Limiter) (rdb : Keyspace ι) (now : Int) (id : ι) (n : Int) : Prop where
  le_maxAttempts : n ≤ l.cfg.maxAttempts
  counter : ∀ c, rdb.counters.lookup now (l.key id) = some c →
    n ≤ c.value ∧ 1 ≤ c.value ∧ ∃ t, c.expireAt = some t ∧ t ≤ now + l.cfg.window ∧
      (l.cfg.maxAttempts ≤ c.value →
        ∃ t', rdb.locks (l.key id) = some ⟨(), some t'⟩ ∧ t ≤ t')

namespace Tally

variable {n : Int} {rdb' : Keyspace ι}

theorem empty : Tally l Keyspace.empty now id 0 where
  le_maxAttempts := Int.le_of_lt l.maxAttempts_pos
  counter := by
    intro c hc
    simp [Keyspace.empty] at hc

theorem of_no_counter (hn : n ≤ l.cfg.maxAttempts) (h : rdb.counters.lookup now (l.key id) = none) :
    Tally l rdb now id n where
  le_maxAttempts := hn
  counter := by
    intro c hc
    rw [h] at hc
    contradiction

theorem congr (h : Tally l rdb now id n) (hcounters : rdb'.counters (l.key id) = rdb.counters (l.key id))
    (hlocks : rdb'.locks (l.key id) = rdb.locks (l.key id)) : Tally l rdb' now id n where
  le_maxAttempts := h.le_maxAttempts
  counter := by
    simp only [Redis.Store.lookup, hcounters, hlocks]
    apply h.counter

theorem mono (h : Tally l rdb now id n) (hnow : now ≤ now') : Tally l rdb now' id n where
  le_maxAttempts := h.le_maxAttempts
  counter := by
    intro c hc
    rcases h.counter c (lookup_mono hnow hc) with ⟨hn, hpos, t, ht, hwindow, hlock⟩
    exact ⟨hn, hpos, t, ht, by omega, hlock⟩

theorem counter_lt (h : Tally l rdb now id n) (hlock : rdb.locks.lookup now (l.key id) = none) {c : Redis.Entry Int}
    (hc : rdb.counters.lookup now (l.key id) = some c) : c.value < l.cfg.maxAttempts := by
  rcases h.counter c hc with ⟨_, _, t, ht, _, harmed⟩
  by_contra hlimit
  rcases harmed (by omega) with ⟨t', ht', hle⟩
  have hlive : now ≤ t := by
    simpa [Redis.Entry.live, ht] using (lookup_eq_some_iff.mp hc).2
  have : rdb.locks.lookup now (l.key id) = some ⟨(), some t'⟩ := by
    rw [lookup_eq_some_iff]
    simp only [ht', Redis.Entry.live, decide_eq_true_eq, true_and]
    omega
  rw [hlock] at this
  contradiction

end Tally

variable [DecidableEq ι]

theorem recordFailure_snd :
    (l.recordFailure rdb now id).2
      =
    (recordScript rdb now (l.key id) l.cfg.window l.cfg.maxAttempts l.cfg.lockout).2 := by
  simp only [recordFailure]
  split <;> rfl

theorem incr_counter : (rdb.counters.incr now (l.key id)).1 = l.failureCount rdb now id + 1 := by
  apply incr_fst

theorem recordFailure_locks :
    (l.recordFailure rdb now id).2.locks
      =
    if l.cfg.maxAttempts ≤ l.failureCount rdb now id + 1 then
      rdb.locks.setNX now (l.key id) () (some (now + l.cfg.lockout))
    else
      rdb.locks := by
  rw [recordFailure_snd]
  simp only [recordScript, incr_counter]
  split <;> rfl

theorem recordFailure_counters :
    (l.recordFailure rdb now id).2.counters
      =
    if l.failureCount rdb now id + 1 = 1 then
      (rdb.counters.incr now (l.key id)).2.pexpire now (l.key id) l.cfg.window
    else
      (rdb.counters.incr now (l.key id)).2 := by
  rw [recordFailure_snd]
  simp only [recordScript, incr_counter]
  split <;> rfl

theorem recordFailure_counters_of_ne (h : id' ≠ id) :
    (l.recordFailure rdb now id).2.counters (l.key id') = rdb.counters (l.key id') := by
  rw [recordFailure_counters, incr_snd]
  split
  . rw [pexpire_of_ne (key_ne h)]
    apply set_of_ne (key_ne h)
  . apply set_of_ne (key_ne h)

theorem recordFailure_counter_new (h : rdb.counters.lookup now (l.key id) = none) :
    (l.recordFailure rdb now id).2.counters.lookup now (l.key id) = some ⟨1, some (now + l.cfg.window)⟩ := by
  have hwindow := l.window_pos
  rw [recordFailure_counters, incr_snd]
  simp only [failureCount, Redis.Store.get, h, Redis.Store.pexpire, lookup_set,
    map_none, getD_none, bind_none, Int.zero_add]
  simp [Option.filter, Redis.Entry.live, lookup_set]
  omega

theorem recordFailure_counter_next {v t : Int} (h : rdb.counters.lookup now (l.key id) = some ⟨v, some t⟩)
    (hv : 1 ≤ v) : (l.recordFailure rdb now id).2.counters.lookup now (l.key id) = some ⟨v + 1, some t⟩ := by
  have hlive : now ≤ t := by
    simpa [Redis.Entry.live] using (lookup_eq_some_iff.mp h).2
  have hcount : l.failureCount rdb now id = v := by
    simp [failureCount, Redis.Store.get, h]
  rw [recordFailure_counters, hcount, if_neg (by omega), incr_snd]
  simp only [Redis.Store.get, h, map_some, getD_some, bind_some]
  apply lookup_set_self hlive

theorem Tally.recordFailure {n m : Int} (h : Tally l rdb now id n) (hlock : rdb.locks.lookup now (l.key id) = none)
    (hwindow : l.cfg.window ≤ l.cfg.lockout)
    (hm : m ≤ (if (rdb.counters.lookup now (l.key id)).isSome then n else 0) + 1) :
    Tally l (l.recordFailure rdb now id).2 now id m := by
  have hmax := l.maxAttempts_pos
  -- The lock that is armed now outlives every counter there can be.
  have harm : ∀ v, l.failureCount rdb now id + 1 = v → l.cfg.maxAttempts ≤ v →
      (l.recordFailure rdb now id).2.locks (l.key id) = some ⟨(), some (now + l.cfg.lockout)⟩ := by
    intro v hv hlimit
    rw [recordFailure_locks, if_pos (by omega)]
    simp [Redis.Store.setNX, Redis.Store.set, hlock]
  cases hcounter : rdb.counters.lookup now (l.key id) with
  | none =>
    have hcount : l.failureCount rdb now id = 0 := by
      simp [failureCount, Redis.Store.get, hcounter]
    simp only [hcounter, isSome_none, Bool.false_eq_true, if_false] at hm
    constructor
    . omega
    intro c hc
    rw [recordFailure_counter_new hcounter] at hc
    cases hc
    refine ⟨by dsimp only; omega, by dsimp only; omega, _, rfl, by omega, ?_⟩
    intro hlimit
    exact ⟨_, harm 1 (by omega) hlimit, by omega⟩
  | some c =>
    have hlt := h.counter_lt hlock hcounter
    rcases h.counter c hcounter with ⟨hn, hpos, t, ht, hle, _⟩
    rcases c with ⟨v, expireAt⟩
    cases ht
    dsimp only at hn hpos hlt
    have hcount : l.failureCount rdb now id = v := by
      simp [failureCount, Redis.Store.get, hcounter]
    constructor
    . omega
    intro c hc
    rw [recordFailure_counter_next hcounter hpos] at hc
    cases hc
    refine ⟨by dsimp only; omega, by dsimp only; omega, _, rfl, hle, ?_⟩
    intro hlimit
    exact ⟨_, harm (v + 1) (by omega) hlimit, by omega⟩

theorem recordFailureMany_of_notMem {ids : List ι} (h : id ∉ ids) :
    (l.recordFailureMany rdb now ids).2.counters (l.key id) = rdb.counters (l.key id) ∧
      (l.recordFailureMany rdb now ids).2.locks (l.key id) = rdb.locks (l.key id) := by
  induction ids generalizing rdb with
  | nil => exact ⟨rfl, rfl⟩
  | cons id' ids ih =>
    simp only [List.mem_cons, not_or] at h
    simp only [recordFailureMany]
    rw [(ih h.2).1, (ih h.2).2]
    refine ⟨recordFailure_counters_of_ne h.1, ?_⟩
    rw [recordFailure_locks]
    split
    . apply setNX_of_ne (key_ne h.1)
    . rfl

theorem resetMany_of_notMem {ids : List ι} (h : id ∉ ids) :
    (l.resetMany rdb ids).counters (l.key id) = rdb.counters (l.key id) ∧
      (l.resetMany rdb ids).locks (l.key id) = rdb.locks (l.key id) := by
  induction ids generalizing rdb with
  | nil => exact ⟨rfl, rfl⟩
  | cons id' ids ih =>
    simp only [List.mem_cons, not_or] at h
    have hrest := @ih (l.reset rdb id') h.2
    simp only [reset, Redis.Store.del, if_neg (key_ne h.1)] at hrest
    exact hrest

end Limiter

end Mxid.RateLimit
