import Mxid.User.Impl.Totp

namespace Mxid.User.Totp

open List World Service

structure InWindow (time step : Int) : Prop where
  lower : time / 30000 - 1 ≤ step
  upper : step ≤ time / 30000 + 1

theorem stepAt_inWindow {time delta : Int} (htime : 0 ≤ time) (hdelta : delta ∈ stepDeltas) :
    InWindow time (stepAt (time + delta * totpPeriodSeconds * 1000)) := by
  rw [show stepDeltas = [0, 1, -1] by decide] at hdelta
  unfold stepAt totpPeriodSeconds
  rw [Int.tdiv_eq_ediv]
  have hbounds : -1 ≤ delta ∧ delta ≤ 1 := by
    simp only [mem_cons, not_mem_nil, or_false] at hdelta
    omega
  -- below zero the division rounds up, but not above zero
  have hsign : Int.sign 30 = 1 := rfl
  constructor
  . split <;> omega
  . split <;> omega

def Cmd.claimed {β : Type} : Cmd β → Option (Claim × Int)
  | .claim caller userID step matchedAt => some (⟨caller, userID, step⟩, matchedAt)
  | _ => none

theorem Cmd.le_of_prompt {β : Type} {c : Cmd β} {time matchedAt : Int} {claim : Claim} (h : c.prompt time = true)
    (hclaimed : c.claimed = some (claim, matchedAt)) : time ≤ matchedAt + 30000 := by
  cases c with
  | claim =>
    cases hclaimed
    exact of_decide_eq_true h
  | now | getMFA | updateMFA => contradiction

theorem World.exec_cases {β : Type} (c : Cmd β) (w : World) :
    ((exec c w).2.now = w.now ∧ (exec c w).2.used = w.used ∧ (exec c w).2.claims = w.claims)
      ∨ ∃ claim matchedAt, c.claimed = some (claim, matchedAt) ∧ w.claimable claim.userID claim.step = true
        ∧ (exec c w).2 = w.next.claim claim := by
  cases c with
  | now => exact .inl ⟨rfl, rfl, rfl⟩
  | getMFA =>
    left
    rw [exec]
    split
    . exact ⟨rfl, rfl, rfl⟩
    . split <;> exact ⟨rfl, rfl, rfl⟩
  | claim =>
    rw [exec]
    split
    . exact .inl ⟨rfl, rfl, rfl⟩
    split
    . next hclaimable => exact .inr ⟨_, _, rfl, hclaimable, rfl⟩
    . exact .inl ⟨rfl, rfl, rfl⟩
  | updateMFA =>
    left
    rw [exec]
    split <;> exact ⟨rfl, rfl, rfl⟩

structure World.Guarded (w : World) : Prop where
  increasing : w.claims.Pairwise (fun c c' => c.userID = c'.userID → c.step < c'.step)
  stored : ∀ c ∈ w.claims, ∃ value time, w.used c.userID = some ⟨value, some (time + totpUsedTTL)⟩
    ∧ c.step ≤ value ∧ value ≤ time / 30000 + 1 ∧ time ≤ w.now

namespace World

variable {w w' : World}

theorem Guarded.later (h : w.Guarded) (hnow : w.now ≤ w'.now) (hused : w'.used = w.used)
    (hclaims : w'.claims = w.claims) : w'.Guarded := by
  constructor
  . rw [hclaims]
    exact h.increasing
  . intro c hc
    rw [hclaims] at hc
    rcases h.stored c hc with ⟨value, time, hstored, hstep, hvalue, htime⟩
    refine ⟨value, time, ?_, hstep, hvalue, by omega⟩
    rw [hused, hstored]

theorem Guarded.claim (h : w.Guarded) {c : Claim} {matchedAt : Int} (hclaimable : w.claimable c.userID c.step = true)
    (hwindow : InWindow matchedAt c.step) (hbefore : matchedAt ≤ w.now) (hprompt : w.now ≤ matchedAt + 30000) :
    (w.next.claim c).Guarded := by
  have hlt {c' : Claim} (hc' : c' ∈ w.claims) (huser : c'.userID = c.userID) : c'.step < c.step := by
    rcases h.stored c' hc' with ⟨value, time, hstored, hstep, hvalue, _⟩
    rw [huser] at hstored
    have hlower := hwindow.lower
    by_cases hlive : (w.now : Int) ≤ time + totpUsedTTL
    . have hlookup : w.used.lookup w.now c.userID = some ⟨value, some (time + totpUsedTTL)⟩ := by
        rw [Redis.Store.lookup_eq_some_iff]
        refine ⟨hstored, ?_⟩
        simpa [Redis.Entry.live] using hlive
      unfold claimable Redis.Store.get at hclaimable
      rw [hlookup] at hclaimable
      have hlt : value < c.step := by simpa using hclaimable
      omega
    . have hexpired : time + 120000 < (w.now : Int) := by
        simp only [totpUsedTTL, totpPeriodSeconds, totpSkewSteps] at hlive
        omega
      omega
  have hupper := hwindow.upper
  constructor
  . show (w.claims ++ [c]).Pairwise _
    rw [pairwise_append]
    refine ⟨h.increasing, pairwise_singleton .., ?_⟩
    intro c' hc' c'' hc'' huser
    rw [mem_singleton] at hc''
    subst hc''
    exact hlt hc' huser
  . intro c' hc'
    show ∃ value time, (w.used.set c.userID c.step (some (w.now + totpUsedTTL))) c'.userID = _ ∧ _
    have hc' : c' ∈ w.claims ++ [c] := hc'
    by_cases huser : c'.userID = c.userID
    . refine ⟨c.step, w.now, ?_, ?_, by omega, Int.le_refl _⟩
      . rw [huser, Redis.Store.set_self]
      rcases mem_append.mp hc' with hold | hnew
      . exact Int.le_of_lt (hlt hold huser)
      . rw [mem_singleton] at hnew
        rw [hnew]
    . rw [Redis.Store.set_of_ne huser]
      rcases mem_append.mp hc' with hold | hnew
      . exact h.stored c' hold
      rw [mem_singleton] at hnew
      rw [hnew] at huser
      contradiction

end World

def World.claimsOf (w : World) (i : Nat) : List Claim := w.claims.filter (fun c => c.caller = i)

theorem World.claimsOf_claim_self (w : World) (userID step : Int) (i : Nat) :
    (w.next.claim ⟨i, userID, step⟩).claimsOf i = w.claimsOf i ++ [⟨i, userID, step⟩] := by
  unfold claimsOf
  show (w.claims ++ _).filter _ = _
  simp

theorem World.claimsOf_claim_of_ne (w : World) {c : Claim} {i : Nat} (h : c.caller ≠ i) :
    (w.next.claim c).claimsOf i = w.claimsOf i := by
  unfold claimsOf
  show (w.claims ++ _).filter _ = _
  simp [h]

structure Onward (i : Nat) (w w' : World) : Prop where
  now : w.now ≤ w'.now
  claims : w'.claimsOf i = w.claimsOf i

theorem Onward.refl (i : Nat) (w : World) : Onward i w w := ⟨Nat.le_refl _, rfl⟩

theorem Onward.trans {i : Nat} {w w' w'' : World} (h : Onward i w w') (h' : Onward i w' w'') : Onward i w w'' where
  now := Nat.le_trans h.now h'.now
  claims := h'.claims.trans h.claims

theorem onward_advance (i n : Nat) (w : World) : Onward i w (semantics.advance n w) :=
  ⟨Nat.le_add_right _ _, rfl⟩

def Guarantees (i : Nat) {β : Type} (c : Cmd β) (w : World) : Prop :=
  ∀ claim matchedAt, c.claimed = some (claim, matchedAt) →
    claim.caller = i ∧ InWindow matchedAt claim.step ∧ matchedAt ≤ w.now

def Accepted (s : Service) (i : Nat) (c : Call) (r : Except MFAError Unit) (w : World) : Prop :=
  r = .ok () → ∃ step secret t, w.claimsOf i = [⟨i, c.userID, step⟩]
    ∧ s.validateCustom c.code secret t = .ok true ∧ step = stepAt t

abbrev Fits (s : Service) (i : Nat) (c : Call) (p : Prog Cmd (Except MFAError Unit)) (w : World) : Prop :=
  p.Rely semantics (fun _ => True) (Onward i) (Guarantees i) (Accepted s i c) w

section Fits

variable {s : Service} {i : Nat} {c : Call} {w : World}

theorem fits_error {err : MFAError} : Fits s i c (pure (.error err)) w := by
  intro w' _ _ hok
  contradiction

theorem fits_ok {step t : Int} {secret : String} (hclaims : w.claimsOf i = [⟨i, c.userID, step⟩])
    (hvalid : s.validateCustom c.code secret t = .ok true) (hstep : step = stepAt t) :
    Fits s i c (pure (.ok ())) w := by
  intro w' honward _ _
  refine ⟨step, secret, t, ?_, hvalid, hstep⟩
  rw [honward.claims, hclaims]

theorem fits_now {f : Int → Prog Cmd (Except MFAError Unit)}
    (hf : ∀ w', Onward i w w' → Fits s i c (f w'.now) w') : Fits s i c (Prog.call .now >>= f) w := by
  apply Prog.rely_call
  intro w' honward _
  refine ⟨fun _ _ => nofun, ?_⟩
  intro delay
  apply hf
  exact honward.trans (onward_advance i delay w')

theorem fits_call {β : Type} {cmd : Cmd β} {f : β → Prog Cmd (Except MFAError Unit)} (hcmd : cmd.claimed = none)
    (hf : ∀ b w', Onward i w w' → Fits s i c (f b) w') : Fits s i c (Prog.call cmd >>= f) w := by
  apply Prog.rely_call
  intro w' honward _
  constructor
  . intro claim matchedAt hclaimed
    rw [hcmd] at hclaimed
    contradiction
  . intro delay
    apply hf
    refine (honward.trans (onward_advance i delay w')).trans ?_
    rcases exec_cases cmd (semantics.advance delay w') with ⟨hnow, _, hclaims⟩ | ⟨claim, matchedAt, hclaimed, _⟩
    . refine ⟨Nat.le_of_eq hnow.symm, ?_⟩
      exact congrArg (filter _) hclaims
    . rw [hcmd] at hclaimed
      contradiction

theorem fits_claim {userID step matchedAt : Int} {f : Option Bool → Prog Cmd (Except MFAError Unit)}
    (hwindow : InWindow matchedAt step) (hbefore : matchedAt ≤ w.now)
    (hnot : ∀ b w', b ≠ some true → Fits s i c (f b) w')
    (hclaimed : ∀ w', w'.claimsOf i = w.claimsOf i ++ [⟨i, userID, step⟩] → Fits s i c (f (some true)) w') :
    Fits s i c (Prog.call (.claim i userID step matchedAt) >>= f) w := by
  apply Prog.rely_call
  intro w' honward _
  constructor
  . intro claim matchedAt' hcmd
    cases hcmd
    have hnow := honward.now
    exact ⟨rfl, hwindow, by omega⟩
  . intro delay
    have hmine := (honward.trans (onward_advance i delay w')).claims
    generalize semantics.advance delay w' = w1 at hmine
    show Fits s i c (f (exec (.claim i userID step matchedAt) w1).1) (exec _ w1).2
    rw [exec]
    split
    . exact hnot _ _ nofun
    split
    . apply hclaimed
      rw [claimsOf_claim_self, hmine]
    . exact hnot _ _ nofun

theorem fits_promote {mfa : UserMFA} {step t : Int} {secret : String} (hclaims : w.claimsOf i = [⟨i, c.userID, step⟩])
    (hvalid : s.validateCustom c.code secret t = .ok true) (hstep : step = stepAt t) :
    Fits s i c (promote mfa) w := by
  unfold promote
  split
  . exact fits_ok hclaims hvalid hstep
  apply fits_now
  intro w1 hw1
  apply fits_call rfl
  intro b w2 hw2
  cases b with
  | false => exact fits_error
  | true =>
    apply fits_ok _ hvalid hstep
    rw [hw2.claims, hw1.claims, hclaims]

theorem fits_verifyCode (hguard : s.totpReplayRDB = true)
    (hclaims : w.claimsOf i = []) {mfa : UserMFA} {plain : String} :
    Fits s i c (s.verifyCode i c.userID c.code mfa plain) w := by
  unfold verifyCode
  apply fits_now
  intro w1 hw1
  split
  . exact fits_error
  next step hmatch =>
  unfold matchTOTPStep at hmatch
  rcases exists_of_findSome?_eq_some hmatch with ⟨delta, hdelta, hstep⟩
  dsimp only at hstep
  split at hstep <;> cases hstep
  next hvalid =>
  unfold claimTOTPStep
  rw [hguard, if_pos rfl]
  apply fits_claim (stepAt_inWindow (Int.natCast_nonneg _) hdelta) (Int.le_refl _)
  . intro b w2 hb
    split
    . exact fits_error
    . exact fits_error
    . contradiction
  . intro w2 hw2
    apply fits_promote _ hvalid rfl
    rw [hw2, hw1.claims, hclaims]
    rfl

theorem fits_verifyTOTP (hguard : s.totpReplayRDB = true) (hclaims : w.claimsOf i = []) :
    Fits s i c (s.verifyTOTP i c.userID c.code) w := by
  unfold verifyTOTP
  split
  . exact fits_error
  apply fits_call rfl
  intro reply w1 hw1
  have hclaims1 : w1.claimsOf i = [] := hw1.claims.trans hclaims
  split
  . exact fits_error
  . exact fits_error
  dsimp only
  split
  . exact fits_error
  split
  . exact fits_error
  . exact fits_verifyCode hguard hclaims1

end Fits

structure Going (s : Service) (calls : List Call) (p : System) : Prop where
  guarded : p.shared.Guarded
  calls : ∀ (i : Nat) (t : Prog Cmd (Except MFAError Unit)), p.threads[i]? = some t →
    t.Rely semantics (fun _ => True) (Onward i) (Guarantees i)
      (fun r w => ∀ c, calls[i]? = some c → Accepted s i c r w) p.shared

theorem Going.step {s : Service} {calls : List Call} {p p' : System} {turn : Nat × Nat} (hgoing : Going s calls p)
    (hprompt : prompt p turn = true) (hstep : p.step semantics turn = some p') : Going s calls p' := by
  rcases Pool.step_eq_some hstep with ⟨β, paused, c, k, hthread, hshared, _, _, _⟩
  have hmine : Guarantees turn.1 c p.shared :=
    (hgoing.calls turn.1 _ hthread p.shared (Onward.refl _ _) trivial).1
  have hprompt : c.prompt (p.shared.now + turn.2) = true := by
    unfold prompt at hprompt
    rw [hthread] at hprompt
    exact hprompt
  -- the world in which the command is executed
  have hlater : ∃ w1, p'.shared = (exec c w1).2 ∧ p.shared.now ≤ w1.now ∧ w1.now ≤ p.shared.now + turn.2
      ∧ w1.used = p.shared.used ∧ w1.claims = p.shared.claims := by
    refine ⟨_, hshared, ?_⟩
    cases paused with
    | true => exact ⟨Nat.le_add_right _ _, Nat.le_refl _, rfl, rfl⟩
    | false => exact ⟨Nat.le_refl _, Nat.le_add_right _ _, rfl, rfl⟩
  rcases hlater with ⟨w1, hshared, hnow, hdelay, hused, hclaims⟩
  have hguarded := hgoing.guarded.later hnow hused hclaims
  have hof (j : Nat) : w1.claimsOf j = p.shared.claimsOf j := by
    unfold claimsOf
    rw [hclaims]
  rcases exec_cases c w1 with ⟨hnow', hused', hclaims'⟩ | ⟨claim, matchedAt, hclaimed, hclaimable, hexec⟩
  . constructor
    . rw [hshared]
      exact hguarded.later (Nat.le_of_eq hnow'.symm) hused' hclaims'
    . apply Pool.rely_step_each Onward.refl (fun _ => Onward.trans) trivial hgoing.calls _ hstep
      intro j _
      rw [hshared]
      refine ⟨by omega, ?_⟩
      unfold claimsOf
      rw [hclaims', hclaims]
  . rcases hmine claim matchedAt hclaimed with ⟨hcaller, hwindow, hbefore⟩
    have htime := Cmd.le_of_prompt hprompt hclaimed
    constructor
    . rw [hshared, hexec]
      apply hguarded.claim hclaimable hwindow
      . omega
      . omega
    . apply Pool.rely_step_each Onward.refl (fun _ => Onward.trans) trivial hgoing.calls _ hstep
      intro j hj
      rw [hshared, hexec]
      refine ⟨hnow, ?_⟩
      have hne : claim.caller ≠ j := by omega
      rw [claimsOf_claim_of_ne _ hne, hof]

theorem claimed_steps_increase (s : Service) (hguard : s.totpReplayRDB = true) (now : Nat) (mfas : Mfas)
    (used : Redis.Store Int Int) (faults : List Bool) (calls : List Call) {turns : List (Nat × Nat)} {p : System}
    (run : Run (Pool.step semantics) (fun p turn => prompt p turn = true)
        (s.start now mfas used faults calls) turns p) :
    (∀ userID, ((p.shared.claims.filter (fun c => c.userID = userID)).map Claim.step).Pairwise (· < ·))
      ∧ ∀ i c, calls[i]? = some c → p.result i = some (.ok ()) →
        ∃ step secret t, p.shared.claims.filter (fun claim => claim.caller = i) = [⟨i, c.userID, step⟩]
          ∧ s.validateCustom c.code secret t = .ok true ∧ step = stepAt t := by
  have hgoing : Going s calls p := by
    refine run.invariant ⟨⟨.nil, ?_⟩, ?_⟩ (fun _ _ _ hgoing hprompt hstep => hgoing.step hprompt hstep)
    . nofun
    intro i t ht
    unfold start at ht
    rw [List.getElem?_mapIdx, Option.map_eq_some_iff] at ht
    rcases ht with ⟨c, hc, rfl⟩
    have hfits : Fits s i c (s.verifyTOTP i c.userID c.code) (s.start now mfas used faults calls).shared :=
      fits_verifyTOTP hguard rfl
    apply hfits.mono
    intro r w haccepted c' hc'
    rw [hc] at hc'
    cases hc'
    exact haccepted
  constructor
  . intro userID
    rw [pairwise_map, pairwise_filter]
    apply hgoing.guarded.increasing.imp
    intro c c' hlt hc hc'
    apply hlt
    simp only [decide_eq_true_eq] at hc hc'
    rw [hc, hc']
  . intro i c hc hresult
    have hrely := hgoing.calls i _ (Pool.result_eq_some hresult)
    exact hrely p.shared (Onward.refl _ _) trivial c hc rfl

/-!
A code that is used twice, and a later one when the step that was stored has expired.
-/

namespace Replayed

def service : Service where
  masterKey := some .ok
  totpReplayRDB := true
  validateCustom := fun code _ t => .ok ((code = "first" && stepAt t = 100) || (code = "second" && stepAt t = 105))

def mfas : Mfas := ⟨[⟨7, 1, .totp, some "secret", false, false, 0⟩], by decide⟩

def calls : List Call := [⟨1, "first"⟩, ⟨1, "first"⟩, ⟨1, "second"⟩]

abbrev turns : List (Nat × Nat) :=
  [(0, 0), (1, 0), (0, 0), (1, 0), (0, 9000), (1, 1000), (0, 0), (0, 0), (2, 130000), (2, 0), (2, 0)]

abbrev exec : Option System :=
  Run.exec (Pool.step semantics) (fun p turn => prompt p turn = true) (service.start 3010000 mfas .empty [] calls) turns

theorem exec_isSome : exec.isSome = true := by
  decide +kernel

theorem claimed_steps_increase_replayed :
    [0, 1, 2].map (exec.get exec_isSome).result = [some (.ok ()), some (.error .codeReused), some (.ok ())]
      ∧ (((exec.get exec_isSome).shared.claims.filter (fun c => c.userID = 1)).map Claim.step).Pairwise (· < ·)
      ∧ ∃ step secret t, (exec.get exec_isSome).shared.claims.filter (fun claim => claim.caller = 2) = [⟨2, 1, step⟩]
        ∧ service.validateCustom "second" secret t = .ok true ∧ step = stepAt t := by
  have hrun : Run (Pool.step semantics) (fun p turn => prompt p turn = true)
      (service.start 3010000 mfas .empty [] calls) turns (exec.get exec_isSome) := Run.of_isSome _
  have hincrease := claimed_steps_increase service rfl 3010000 mfas .empty [] calls hrun
  have hresult : (exec.get exec_isSome).result 2 = some (.ok ()) := by decide +kernel
  refine ⟨by decide +kernel, hincrease.1 1, ?_⟩
  apply hincrease.2 2 ⟨1, "second"⟩ rfl hresult

end Replayed

end Mxid.User.Totp
