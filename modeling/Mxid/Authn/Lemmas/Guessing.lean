import Mxid.Authn.Impl.Guessing
import Mxid.Authn.Lemmas.Limiter

namespace Mxid.RateLimit

open Redis.Store Option

variable {ι : Type} {l : Limiter} {id : ι} {rdb : Keyspace ι} {now now' : Int}

theorem Limiter.check_isSome (h : 500 ≤ rdb.locks.pttl now (l.key id)) : (l.check rdb now id).isSome = true := by
  have hpos : 0 < rdb.locks.ttl now (l.key id) := by
    unfold Redis.Store.ttl
    omega
  simp [check, hpos]

theorem Limiter.failureCount_recordFailure [DecidableEq ι] :
    l.failureCount (l.recordFailure rdb now id).2 now id = l.failureCount rdb now id + 1 := by
  have hwindow := l.window_pos
  cases hcounter : rdb.counters.lookup now (l.key id) with
  | none => simp [failureCount, Redis.Store.get, recordFailure_counter_new hcounter, hcounter]
  | some c =>
    have hcount : l.failureCount rdb now id = c.value := by simp [failureCount, Redis.Store.get, hcounter]
    have hnext : (rdb.counters.incr now (l.key id)).2.lookup now (l.key id) = some ⟨c.value + 1, c.expireAt⟩ := by
      rw [incr_snd, lookup_set, if_pos rfl]
      simp only [Redis.Store.get, hcounter, map_some, getD_some, bind_some]
      exact filter_eq_some_iff.mpr ⟨rfl, (lookup_eq_some_iff.mp hcounter).2⟩
    rw [failureCount, recordFailure_counters, hcount]
    split
    . simp only [Redis.Store.pexpire, hnext, Redis.Store.get]
      rw [lookup_set_self (by omega)]
      rfl
    . simp [Redis.Store.get, hnext]

namespace Guessing

variable {s s' s₀ : Guessing ι} {turn : Nat × Nat}

structure Bounded (l : Limiter) (id : ι) (s₀ s : Guessing ι) : Prop where
  unlocked : s.rdb.locks.lookup s.now (l.key id) = none →
    (s.evaluated : Int) ≤ s₀.evaluated + l.failureCount s.rdb s.now id + s.clients.count .guessed
      ∧ l.failureCount s.rdb s.now id + s.inFlight ≤ l.cfg.maxAttempts
  locked : (s.rdb.locks.lookup s.now (l.key id)).isSome = true →
    (s.evaluated : Int) + s.clients.count .admitted ≤ s₀.evaluated + l.cfg.maxAttempts

theorem Bounded.tick (h : Bounded l id s₀ s) (hduring : s.during l id turn = true) :
    Bounded l id s₀ { s with now := s.now + turn.2 } := by
  have hle : s.now ≤ s.now + turn.2 := by omega
  unfold during at hduring
  split at hduring
  . next hsome =>
    have hlocks := lookup_stays hle (fun _ => hduring)
    constructor
    . intro hnone
      rw [hlocks] at hnone
      rw [hnone] at hsome
      contradiction
    . intro _
      exact h.locked hsome
  . next hnone =>
    have hlocks := lookup_stays (k := l.key id) hle (fun hsome => absurd hsome hnone)
    constructor
    . intro _
      have hcounters : s.rdb.counters.lookup (s.now + turn.2) (l.key id) = s.rdb.counters.lookup s.now (l.key id) := by
        apply lookup_stays hle
        intro hsome
        simpa [isNone_iff_eq_none, isSome_iff_ne_none.mp hsome] using hduring
      have hbound := h.unlocked (by simpa using hnone)
      simp only [Limiter.failureCount, Redis.Store.get, hcounters] at hbound ⊢
      exact hbound
    . intro hsome
      rw [hlocks] at hsome
      contradiction

theorem count_set {clients : List Client} {i : Nat} {a b c : Client} (h : clients[i]? = some a) :
    (clients.set i b).count c + (if a = c then 1 else 0) = clients.count c + (if b = c then 1 else 0) := by
  rcases List.getElem?_eq_some_iff.mp h with ⟨hlt, rfl⟩
  rw [List.count_set hlt]
  simp only [beq_iff_eq]
  by_cases hc : clients[i] = c
  . have hpos : 0 < clients.count c := List.count_pos_iff.mpr (hc ▸ List.getElem_mem hlt)
    split <;> omega
  . simp only [if_neg hc]
    split <;> omega

variable {i : Nat}

theorem Bounded.refuse (h : Bounded l id s₀ s) (hclient : s.clients[i]? = some .ready) :
    Bounded l id s₀ { s with clients := s.clients.set i .finished } := by
  have hadmitted := count_set (b := .finished) (c := .admitted) hclient
  have hguessed := count_set (b := .finished) (c := .guessed) hclient
  simp only [reduceCtorEq, if_false, Nat.add_zero] at hadmitted hguessed
  constructor
  . dsimp only [inFlight]
    rw [hadmitted, hguessed]
    exact h.unlocked
  . rw [hadmitted]
    exact h.locked

theorem Bounded.evaluate (h : Bounded l id s₀ s) (hclient : s.clients[i]? = some .admitted) :
    Bounded l id s₀ { s with clients := s.clients.set i .guessed, evaluated := s.evaluated + 1 } := by
  have hadmitted := count_set (b := .guessed) (c := .admitted) hclient
  have hguessed := count_set (b := .guessed) (c := .guessed) hclient
  simp only [reduceCtorEq, if_true, if_false] at hadmitted hguessed
  constructor
  . intro hnone
    have hbound := h.unlocked hnone
    dsimp only [inFlight] at hbound ⊢
    omega
  . intro hsome
    have hbound := h.locked hsome
    dsimp only at hbound ⊢
    omega

variable [DecidableEq ι]

theorem Bounded.record (h : Bounded l id s₀ s) (hclient : s.clients[i]? = some .guessed) :
    Bounded l id s₀ { s with rdb := (l.recordFailure s.rdb s.now id).2, clients := s.clients.set i .finished } := by
  have hadmitted := count_set (b := .finished) (c := .admitted) hclient
  have hguessed := count_set (b := .finished) (c := .guessed) hclient
  simp only [reduceCtorEq, if_true, if_false] at hadmitted hguessed
  cases hlookup : s.rdb.locks.lookup s.now (l.key id) with
  | some e =>
    have hlocked : (l.recordFailure s.rdb s.now id).2.locks = s.rdb.locks := by
      rw [Limiter.recordFailure_locks]
      split
      . simp [Redis.Store.setNX, hlookup]
      . rfl
    have hbound := h.locked (by rw [hlookup]; rfl)
    constructor
    . intro hnone
      rw [hlocked, hlookup] at hnone
      contradiction
    . intro _
      dsimp only at hbound ⊢
      omega
  | none =>
    have hbound := h.unlocked hlookup
    dsimp only [inFlight] at hbound
    constructor
    . intro hnone
      dsimp only [inFlight]
      rw [Limiter.failureCount_recordFailure]
      omega
    . intro _
      dsimp only
      omega

theorem Bounded.step (h : Bounded l id s₀ s) (hduring : s.during l id turn = true)
    (horderly : s.orderly l id turn = true) (hstep : s.step l id turn = some s') : Bounded l id s₀ s' := by
  have htick := h.tick hduring
  unfold Guessing.step at hstep
  split at hstep
  . next hclient =>
    cases hstep
    unfold orderly at horderly
    rw [if_pos hclient] at horderly
    split at horderly
    . have hrefused := Limiter.check_isSome (of_decide_eq_true horderly)
      rw [isNone_eq_false_iff.mpr hrefused]
      exact htick.refuse hclient
    . next hfree =>
      split
      . have hadmitted := count_set (b := .admitted) (c := .admitted) hclient
        have hguessed := count_set (b := .admitted) (c := .guessed) hclient
        simp only [reduceCtorEq, if_true, if_false] at hadmitted hguessed
        have hroom := of_decide_eq_true horderly
        constructor
        . intro hnone
          have hbound := htick.unlocked hnone
          dsimp only [inFlight] at hbound hroom ⊢
          omega
        . intro hsome
          contradiction
      . exact htick.refuse hclient
  . next hclient =>
    cases hstep
    exact htick.evaluate hclient
  . next hclient =>
    cases hstep
    exact htick.record hclient
  . contradiction

theorem guesses_bounded (l : Limiter) (id : ι) (s₀ s : Guessing ι) (turns : List (Nat × Nat))
    (hzero : l.failureCount s₀.rdb s₀.now id = 0) (hflight : s₀.inFlight ≤ l.cfg.maxAttempts)
    (run : Run (step l id) (fun s turn => s.during l id turn = true ∧ s.orderly l id turn = true) s₀ turns s) :
    (s.evaluated : Int) - s₀.evaluated ≤ l.cfg.maxAttempts := by
  have hstart : Bounded l id s₀ s₀ := by
    unfold inFlight at hflight
    constructor
    . intro _
      dsimp only [inFlight]
      omega
    . intro _
      omega
  have hbounded := run.invariant (I := Bounded l id s₀) hstart (fun _ _ _ h hok hstep => h.step hok.1 hok.2 hstep)
  cases hlookup : s.rdb.locks.lookup s.now (l.key id) with
  | none =>
    have hbound := hbounded.unlocked hlookup
    dsimp only [inFlight] at hbound
    omega
  | some e =>
    have hbound := hbounded.locked (by rw [hlookup]; rfl)
    omega

def oneAttempt : Limiter :=
  have hpos := Config.withDefaults_pos ⟨"login", 1, 0, 0⟩
  ⟨Config.withDefaults ⟨"login", 1, 0, 0⟩, hpos.1, hpos.2.1, hpos.2.2⟩

def twoClients : Guessing String := ⟨0, .empty, [.ready, .ready], 0⟩

theorem one_guess_in_turn :
    ∃ s, Run (step oneAttempt "ann") (fun s turn => s.during oneAttempt "ann" turn = true
        ∧ s.orderly oneAttempt "ann" turn = true) twoClients [(0, 0), (0, 0), (0, 0), (1, 0)] s
      ∧ (s.evaluated : Int) - twoClients.evaluated ≤ oneAttempt.cfg.maxAttempts := by
  refine ⟨_, Run.of_exec rfl, ?_⟩
  exact guesses_bounded oneAttempt "ann" twoClients _ [(0, 0), (0, 0), (0, 0), (1, 0)] rfl (by decide) (Run.of_exec rfl)

theorem two_guesses_for_one_attempt :
    oneAttempt.failureCount twoClients.rdb twoClients.now "ann" = 0
      ∧ (∃ s, Run (step oneAttempt "ann") (fun s turn => s.during oneAttempt "ann" turn = true) twoClients
            [(0, 0), (1, 0), (0, 0), (1, 0)] s
          ∧ oneAttempt.cfg.maxAttempts < (s.evaluated : Int) - twoClients.evaluated)
      ∧ ∃ s, Run (step oneAttempt "ann") (fun s turn => s.during oneAttempt "ann" turn = true) twoClients
            [(0, 0), (0, 0), (0, 0), (1, 899600), (1, 0)] s
          ∧ oneAttempt.cfg.maxAttempts < (s.evaluated : Int) - twoClients.evaluated := by
  refine ⟨rfl, ⟨_, Run.of_exec rfl, ?_⟩, _, Run.of_exec rfl, ?_⟩
  . decide
  . decide

end Guessing

end Mxid.RateLimit
