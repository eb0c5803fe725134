import Mxid.Oidcop.Impl.System

namespace Mxid.Oidcop

open Exchanges Option

@[simp]
def Cmd.StoresOnly (newToken : String) : Cmd β → Prop
  | .setRefresh tok _ _ => tok = newToken
  | _ => True

@[simp]
def Cmd.Quiet : Cmd β → Prop
  | .setRefresh _ _ _ => False
  | _ => True

theorem Cmd.Quiet.storesOnly (newToken : String) (c : Cmd β) (h : c.Quiet) : c.StoresOnly newToken := by
  cases c with
  | setRefresh => exact h.elim
  | _ => trivial

namespace Keys

variable {s : Keys} {t : String} {e : Redis.Entry RefreshToken} {c : Cmd β}

theorem refresh_del {keys : List TokenKey} (h : (s.del keys).refresh t = some e) : s.refresh t = some e := by
  induction keys generalizing s with
  | nil => exact h
  | cons key keys ih =>
    have h := ih h
    cases key with
    | token => exact h
    | refresh => apply Redis.Store.eq_of_del_eq_some h

theorem refresh_step_of_storesOnly {newToken : String} (hc : c.StoresOnly newToken)
    (h : (step c s).2.refresh t = some e) : t = newToken ∨ s.refresh t = some e := by
  cases c with
  | setRefresh =>
    rcases Redis.Store.eq_of_set_eq_some h with ⟨heq, _⟩ | h
    . exact .inl (heq.trans hc)
    . exact .inr h
  | del => exact .inr (refresh_del h)
  | _ => exact .inr h

theorem refresh_run_of_quiet {paused : Bool} {delay : Nat} (hc : c.Quiet)
    (h : (semantics.run paused delay c s).2.refresh t = some e) : s.refresh t = some e := by
  cases paused with
  | false | true =>
    cases c with
    | setRefresh => exact hc.elim
    | del => apply refresh_del h
    | _ => exact h

theorem refresh_run_of_storesOnly {paused : Bool} {delay : Nat} {newToken : String} (hc : c.StoresOnly newToken)
    (h : (semantics.run paused delay c s).2.refresh t = some e) : t = newToken ∨ s.refresh t = some e := by
  have := refresh_step_of_storesOnly hc h
  cases paused with
  | false | true => exact this

theorem refresh_step_of_rotates {tok : String} (hc : c.rotates tok = true) : (step c s).2.refresh tok = none := by
  unfold Cmd.rotates at hc
  split at hc
  . next t id =>
    simp only [decide_eq_true_eq] at hc
    subst hc
    simp [step, del, delKey, Redis.Store.del]
  . contradiction

end Keys

theorem Cmd.Quiet.of_rotates {c : Cmd β} {tok : String} (h : c.rotates tok = true) : c.Quiet := by
  cases c with
  | setRefresh => simp [rotates] at h
  | _ => trivial

/-!
Up to its deletion of the presented token an exchange stores no refresh token and does not succeed, and
from there it stores no other than its own.
-/

open Prog Keys

theorem indexAdd_quiet (cfg : Config) (userID clientID : String) (key : TokenKey) :
    (indexAdd cfg userID clientID key).Always Cmd.Quiet (fun _ => True) := by
  unfold indexAdd
  split
  . trivial
  . simp

theorem storeAccessToken_quiet (cfg : Config) (id refreshID : String) (req : TokenRequest) :
    (storeAccessToken cfg id refreshID req).Always Cmd.Quiet (fun _ => True) := by
  unfold storeAccessToken
  simp [indexAdd_quiet]

theorem revokePaired_quiet (rt : Option RefreshToken) : (revokePaired rt).Always Cmd.Quiet (fun _ => True) := by
  unfold revokePaired
  split
  . trivial
  split
  . simp
  . trivial

theorem revokeMember_quiet (tok : String) : (revokeMember tok).Always Cmd.Quiet (fun _ => True) := by
  unfold revokeMember
  simp [revokePaired_quiet]

theorem revokeFamily_quiet (familyID : String) : (revokeFamily familyID).Always Cmd.Quiet (fun _ => True) := by
  unfold revokeFamily
  split
  . trivial
  . simp [always_forM revokeMember_quiet]

theorem checkReuse_quiet (tok : String) : (checkReuse tok).Always Cmd.Quiet (fun _ => True) := by
  unfold checkReuse
  simp only [always_bind, always_call, Cmd.Quiet, true_and]
  intro marker
  split
  . trivial
  split
  . trivial
  . simp [revokeFamily_quiet]

theorem familyRotate_quiet (cfg : Config) (familyID currentToken newToken : String) :
    (familyRotate cfg familyID currentToken newToken).Always Cmd.Quiet (fun _ => True) := by
  unfold familyRotate
  split
  . trivial
  . simp

abbrev Winner (newToken : String) (p : Prog Cmd α) : Prop := p.Always (Cmd.StoresOnly newToken) (fun _ => True)

theorem winner_of_quiet {p : Prog Cmd α} (newToken : String) (h : p.Always Cmd.Quiet (fun _ => True)) :
    Winner newToken p := by
  apply h.mono (Cmd.Quiet.storesOnly newToken)
  intro _ _
  trivial

theorem winner_bind {p : Prog Cmd α} {f : α → Prog Cmd β} {newToken : String} (h : Winner newToken p)
    (hf : ∀ a, Winner newToken (f a)) : Winner newToken (p >>= f) := by
  rw [Winner, always_bind]
  apply h.mono (fun _ hc => hc)
  intro a _
  apply hf

abbrev Contender (tok newToken : String) (R : α → Prop) (p : Prog Cmd α) : Prop :=
  p.Until Cmd.Quiet (fun c => c.rotates tok = true) R (Winner newToken)

theorem consumeRefreshToken_contender (rt : RefreshToken) (tok newToken : String) :
    Contender tok newToken (fun _ => False) (consumeRefreshToken rt tok) := by
  unfold consumeRefreshToken
  apply until_call
  . simp [Cmd.rotates]
  . simp [Winner]

theorem storeRenewedToken_winner (cfg : Config) (rt : RefreshToken) (tok newToken accessID : String) :
    Winner newToken (storeRenewedToken cfg rt tok newToken accessID) := by
  unfold storeRenewedToken
  simp [Winner, winner_of_quiet newToken (indexAdd_quiet _ _ _ _),
    winner_of_quiet newToken (familyRotate_quiet _ _ _ _)]

theorem renewRefreshToken_contender (cfg : Config) (tok newToken : String) (access : AccessToken) :
    Contender tok newToken (fun r => r ≠ .ok ()) (renewRefreshToken cfg tok newToken access) := by
  unfold renewRefreshToken
  apply until_bind
  refine ⟨trivial, ?_⟩
  intro rt
  cases rt with
  | none =>
    apply until_bind
    apply (checkReuse_quiet tok).mono (fun _ hc => hc)
    intro _ _ h
    contradiction
  | some rt =>
    apply until_bind
    rw [always_call]
    refine ⟨trivial, ?_⟩
    intro now
    split
    . intro h
      contradiction
    apply (consumeRefreshToken_contender rt tok newToken).bind
    . intro q hq
      apply winner_bind hq
      intro _
      apply winner_bind (storeRenewedToken_winner cfg rt tok newToken access.id)
      intro _
      trivial
    . intro _ h
      exact h.elim

theorem tokenRequestByRefreshToken_quiet (users : UserStatusResolver) (tok : String) :
    (tokenRequestByRefreshToken users tok).Always Cmd.Quiet (fun _ => True) := by
  unfold tokenRequestByRefreshToken
  rw [always_bind, always_call]
  refine ⟨trivial, ?_⟩
  intro rt
  cases rt with
  | none => simp [checkReuse_quiet]
  | some =>
    dsimp only
    split
    . simp [revokeFamily_quiet]
    . trivial

theorem exchange_contender (cfg : Config) (x : Exchange) :
    Contender x.token x.newRefresh (fun r => ∀ tokens, r ≠ .ok tokens) (exchange cfg x) := by
  unfold exchange
  apply until_bind
  apply (tokenRequestByRefreshToken_quiet x.users x.token).mono (fun _ hc => hc)
  intro r _
  cases r with
  | error =>
    intro _ h
    contradiction
  | ok =>
    dsimp only
    split
    . intro _ h
      contradiction
    unfold rotateTokens
    apply until_bind
    apply (storeAccessToken_quiet _ _ _ _).mono (fun _ hc => hc)
    intro access _
    apply (renewRefreshToken_contender cfg x.token x.newRefresh access).bind
    . intro q hq
      apply winner_bind hq
      intro r
      cases r with
      | error | ok => trivial
    . intro r hr
      cases r with
      | error =>
        intro _ h
        contradiction
      | ok => exact absurd rfl hr

namespace Exchanges

structure Race (tok : String) (before : Keys) (xs : List Exchange) (winner : Option Nat) (p : Exchanges) : Prop where
  length : p.threads.length = xs.length
  contender : ∀ i x t, xs[i]? = some x → p.threads[i]? = some t → winner ≠ some i →
    Contender tok x.newRefresh (fun r => ∀ tokens, r ≠ .ok tokens) t
  won : ∀ i x t, xs[i]? = some x → p.threads[i]? = some t → winner = some i → Winner x.newRefresh t
  taken : winner ≠ none → p.shared.refresh tok = none
  stored : ∀ t e, p.shared.refresh t = some e →
    before.refresh t = some e ∨ ∃ i x, winner = some i ∧ xs[i]? = some x ∧ t = x.newRefresh

variable {cfg : Config} {tok : String} {before : Keys} {xs : List Exchange} {winner : Option Nat}
variable {p p' : Exchanges} {turn : Nat × Nat}

theorem race_start (htok : ∀ x ∈ xs, x.token = tok) : Race tok before xs none (start cfg before xs) where
  length := List.length_map _
  contender := by
    intro i x t hx ht _
    simp only [start, List.getElem?_map, hx, map_some, some.injEq] at ht
    subst ht
    rw [← htok x (List.mem_of_getElem? hx)]
    apply exchange_contender
  won := by
    intro _ _ _ _ _ h
    contradiction
  taken := by
    intro h
    contradiction
  stored := by
    intro t e h
    exact .inl h

theorem Race.of_turn (hrace : Race tok before xs winner p) {winner' : Option Nat} {i : Nat} {x : Exchange}
    {t : Prog Cmd (Except TokenError Tokens)} (hx : xs[i]? = some x) (hlength : p'.threads.length = p.threads.length)
    (hself : p'.threads[i]? = some t) (hother : ∀ j, j ≠ i → p'.threads[j]? = p.threads[j]?)
    (hwinner : ∀ j, j ≠ i → (winner' = some j ↔ winner = some j))
    (hcontender : winner' ≠ some i → Contender tok x.newRefresh (fun r => ∀ tokens, r ≠ .ok tokens) t)
    (hwon : winner' = some i → Winner x.newRefresh t) (htaken : winner' ≠ none → p'.shared.refresh tok = none)
    (hstored : ∀ t e, p'.shared.refresh t = some e →
      before.refresh t = some e ∨ ∃ i x, winner' = some i ∧ xs[i]? = some x ∧ t = x.newRefresh) :
    Race tok before xs winner' p' where
  length := hlength.trans hrace.length
  contender := by
    intro j y u hy hu hj
    by_cases hji : j = i
    . subst hji
      rw [hx] at hy
      rw [hself] at hu
      cases hy
      cases hu
      apply hcontender hj
    . rw [hother j hji] at hu
      rw [Ne, hwinner j hji] at hj
      apply hrace.contender j y u hy hu hj
  won := by
    intro j y u hy hu hj
    by_cases hji : j = i
    . subst hji
      rw [hx] at hy
      rw [hself] at hu
      cases hy
      cases hu
      apply hwon hj
    . rw [hother j hji] at hu
      rw [hwinner j hji] at hj
      apply hrace.won j y u hy hu hj
  taken := htaken
  stored := hstored

theorem Race.step (hrace : Race tok before xs winner p) (hfresh : ∀ x ∈ xs, x.newRefresh ≠ tok)
    (hallowed : p.exclusive tok turn = true) (hstep : Pool.step semantics p turn = some p') :
    ∃ winner', Race tok before xs winner' p' := by
  rcases Pool.step_eq_some hstep with ⟨β, paused, c, k, hthread, hshared, hlength, hself, hother⟩
  have hlt : turn.1 < xs.length := by
    rw [← hrace.length]
    exact (List.getElem?_eq_some_iff.mp hthread).1
  have hx : xs[turn.1]? = some xs[turn.1] := List.getElem?_eq_getElem hlt
  by_cases hwin : winner = some turn.1
  . -- the winner may store its own token, which is another one
    rcases hrace.won _ _ _ hx hthread hwin with ⟨hc, hk⟩
    refine ⟨winner, ?_⟩
    apply hrace.of_turn hx hlength hself hother (fun _ _ => Iff.rfl)
    . intro h
      exact absurd hwin h
    . intro _
      apply hk
    . intro h
      apply eq_none_iff_forall_ne_some.mpr
      intro e he
      rw [hshared] at he
      rcases refresh_run_of_storesOnly hc he with heq | he
      . exact hfresh _ (List.getElem_mem hlt) heq.symm
      . rw [hrace.taken h] at he
        contradiction
    . intro t e he
      rw [hshared] at he
      rcases refresh_run_of_storesOnly hc he with heq | he
      . exact .inr ⟨turn.1, _, hwin, hx, heq⟩
      . apply hrace.stored t e he
  . rcases hrace.contender _ _ _ hx hthread hwin with ⟨hc, hk⟩ | ⟨hc, hk⟩
    . -- it takes the token away, so nobody has before
      have hnone : winner = none := by
        by_contra h
        simp [exclusive, hthread, hc, Redis.Store.lookup, hrace.taken h] at hallowed
      subst hnone
      refine ⟨some turn.1, ?_⟩
      apply hrace.of_turn hx hlength hself hother
      . intro j hj
        simp [hj.symm]
      . intro h
        exact absurd rfl h
      . intro _
        apply hk
      . intro _
        rw [hshared]
        apply refresh_step_of_rotates hc
      . intro t e he
        rw [hshared] at he
        rcases hrace.stored t e (refresh_run_of_quiet (Cmd.Quiet.of_rotates hc) he) with h | ⟨i, x, h, _⟩
        . exact .inl h
        . contradiction
    . refine ⟨winner, ?_⟩
      apply hrace.of_turn hx hlength hself hother (fun _ _ => Iff.rfl)
      . intro _
        apply hk
      . intro h
        exact absurd h hwin
      . intro h
        apply eq_none_iff_forall_ne_some.mpr
        intro e he
        rw [hshared] at he
        have := refresh_run_of_quiet hc he
        rw [hrace.taken h] at this
        contradiction
      . intro t e he
        rw [hshared] at he
        apply hrace.stored t e (refresh_run_of_quiet hc he)

theorem Race.spentOnce (hrace : Race tok before xs winner p) : p.SpentOnce before where
  result := by
    have eq_of_result : ∀ i tokens, p.result i = some (.ok tokens) → winner = some i := by
      intro i tokens h
      have hthread := Pool.result_eq_some h
      have hlt : i < xs.length := by
        rw [← hrace.length]
        exact (List.getElem?_eq_some_iff.mp hthread).1
      by_contra hwin
      exact hrace.contender i _ _ (List.getElem?_eq_getElem hlt) hthread hwin tokens rfl
    intro i j tokens tokens' hi hj
    have := (eq_of_result i tokens hi).symm.trans (eq_of_result j tokens' hj)
    exact some.inj this
  issued := by
    have eq_of_issued : ∀ t, p.Issued before t → ∃ i x, winner = some i ∧ xs[i]? = some x ∧ t = x.newRefresh := by
      rintro t ⟨hlive, hnew⟩
      rcases isSome_iff_exists.mp hlive with ⟨e, he⟩
      rcases hrace.stored t e (Redis.Store.lookup_eq_some_iff.mp he).1 with h | h
      . rw [hnew] at h
        contradiction
      . exact h
    intro t t' ht ht'
    rcases eq_of_issued t ht with ⟨i, x, hi, hx, rfl⟩
    rcases eq_of_issued t' ht' with ⟨j, y, hj, hy, rfl⟩
    rw [hi] at hj
    cases hj
    rw [hx] at hy
    cases hy
    rfl

end Exchanges

theorem refresh_token_spent_once (cfg : Config) (keys : Keys) (tok : String) (xs : List Exchange)
    (hlive : (keys.refresh.lookup keys.now tok).isSome = true) (htok : ∀ x ∈ xs, x.token = tok)
    (hfresh : ∀ x ∈ xs, keys.refresh x.newRefresh = none) {turns : List (Nat × Nat)} {p : Exchanges}
    (run : Run (Pool.step semantics) (fun p turn => exclusive tok p turn = true)
      (start cfg keys xs) turns p) : p.SpentOnce keys := by
  have hne : ∀ x ∈ xs, x.newRefresh ≠ tok := by
    intro x hx heq
    have := hfresh x hx
    rw [heq] at this
    simp [Redis.Store.lookup, this] at hlive
  have hrace : ∃ winner, Exchanges.Race tok keys xs winner p := by
    apply run.invariant (I := fun p => ∃ winner, Exchanges.Race tok keys xs winner p)
    . exact ⟨none, race_start htok⟩
    . rintro p turn p' ⟨winner, hrace⟩ hallowed hstep
      apply hrace.step hne hallowed hstep
  rcases hrace with ⟨winner, hrace⟩
  apply hrace.spentOnce

namespace TwoExchanges

def record : RefreshToken :=
  ⟨"r0", "r0", 0, ["pwd"], ["wiki"], "7", "wiki", ["openid"], "a0", "sid", "fam", 2592000000⟩

def keys : Keys :=
  { Keys.empty 1000 with
    refresh := Redis.Store.empty.set "r0" record (some 2592000000)
    families := Redis.Store.empty.set "fam" ["r0"] (some 2592000000) }

def present (newRefresh accessID : String) : Exchange :=
  ⟨"r0", none, fun rt => some rt.scopes, newRefresh, accessID⟩

def xs : List Exchange := [present "r1" "a1", present "r2" "a2"]

def turns (i n : Nat) : List (Nat × Nat) := List.replicate n (i, 1)

def crossed : List (Nat × Nat) := turns 0 9 ++ turns 1 21 ++ turns 0 12

def inOrder : List (Nat × Nat) := turns 0 21 ++ turns 1 8

abbrev exec (allowed : Exchanges → Nat × Nat → Bool) (turns : List (Nat × Nat)) : Option Exchanges :=
  Run.exec (Pool.step semantics) (fun p turn => allowed p turn = true) (.start defaultConfig keys xs) turns

theorem crossed_isSome : (exec (fun _ _ => true) crossed).isSome = true := by
  decide

theorem inOrder_isSome : (exec (exclusive "r0") inOrder).isSome = true := by
  decide

theorem refresh_token_spent_twice :
    Run (Pool.step semantics) (fun _ _ => True) (start defaultConfig keys xs) crossed
        ((exec (fun _ _ => true) crossed).get crossed_isSome)
      ∧ ((exec (fun _ _ => true) crossed).get crossed_isSome).result 0 = some (.ok ⟨"a1", "r1", 601002⟩)
      ∧ ((exec (fun _ _ => true) crossed).get crossed_isSome).result 1 = some (.ok ⟨"a2", "r2", 601011⟩)
      ∧ ((exec (fun _ _ => true) crossed).get crossed_isSome).Issued keys "r1"
      ∧ ((exec (fun _ _ => true) crossed).get crossed_isSome).Issued keys "r2" :=
  ⟨(Run.of_isSome crossed_isSome).free, by decide,
    by decide, ⟨by decide, by decide⟩, ⟨by decide, by decide⟩⟩

theorem refresh_token_spent_in_order :
    ((exec (exclusive "r0") inOrder).get inOrder_isSome).result 0 = some (.ok ⟨"a1", "r1", 601002⟩)
      ∧ ((exec (exclusive "r0") inOrder).get inOrder_isSome).SpentOnce keys :=
  ⟨by decide,
    refresh_token_spent_once defaultConfig keys "r0" xs (by decide) (by decide) (by decide)
      (Run.of_isSome inOrder_isSome)⟩

end TwoExchanges

end Mxid.Oidcop
