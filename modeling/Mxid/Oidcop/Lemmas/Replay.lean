import Mxid.Oidcop.Lemmas.Revoke

namespace Mxid.Oidcop

open Redis.Store Prog Keys History

section

variable {cfg : Config} {h : History} {s : Keys}

theorem storeAccessToken_wp (hl : Linked cfg h none s) {id : String} (hid : h.pairedWith id = none)
    (refreshID : String) (req : TokenRequest) :
    (storeAccessToken cfg id refreshID req).wp semantics
      (fun access s' => access.id = id ∧ Linked cfg h none s' ∧ s'.Bounded cfg id
        ∧ ∀ t e, s'.refresh t = some e → s.refresh t = some e) s := by
  unfold storeAccessToken
  rw [wp_bind, wp_call]
  intro delay
  rw [wp_bind, wp_call]
  intro delay'
  rw [wp_bind]
  apply wp_mono (indexAdd_wp cfg _ _ _ _)
  intro _ s' hs'
  refine ⟨rfl, ?_, ?_, ?_⟩
  . apply Linked.shrinks _ hs'
    apply ((hl.shrinks (s.shrinks_advance delay)).shrinks (shrinks_advance _ delay')).setToken hid
  . apply Keys.Bounded.shrinks _ hs'
    intro a ha
    cases (set_self _ _ _ _).symm.trans ha
    exact ⟨_, rfl, Int.add_le_add_left cfg.access_le_refresh _⟩
  . intro t e he
    apply hs'.refresh t e he

variable {tok f newToken accessID : String}

theorem consumeRefreshToken_wp (hl : Linked cfg h none s) {e : Redis.Entry RefreshToken} (he : s.refresh tok = some e) :
    (consumeRefreshToken e.value tok).wp semantics
      (fun _ s' => Linked cfg (h.recordSpent tok (some e.value.expiration)) none s'
        ∧ ∀ id, s.Bounded cfg id → s'.Bounded cfg id) s := by
  rcases hl.family tok e he with ⟨hfamily, hne⟩
  unfold consumeRefreshToken
  rw [wp_bind, wp_call]
  intro delay
  have hs : s.Shrinks (semantics.step (.del [.refresh tok, .token e.value.accessTokenID])
      (semantics.advance delay s)).2 := (s.shrinks_advance delay).trans (shrinks_del _ _)
  have hgone : (semantics.step (.del [.refresh tok, .token e.value.accessTokenID])
      (semantics.advance delay s)).2.refresh tok = none := by
    simp [Keys.step, Keys.del, Keys.delKey, Redis.Store.del]
  generalize (semantics.step (.del [.refresh tok, .token e.value.accessTokenID])
    (semantics.advance delay s)).2 = s1 at hs hgone ⊢
  rw [wp_bind, wp_call]
  intro delay1
  rw [wp_call]
  intro delay2
  have hs1 := (s1.shrinks_advance delay1).trans (shrinks_advance _ delay2)
  refine ⟨?_, ?_⟩
  . apply (hl.shrinks (hs.trans hs1)).consume hgone hfamily hne
    simp only [semantics_step, semantics_advance, Keys.step, Keys.advance]
    split <;> omega
  . intro id hb
    apply hb.shrinks (hs.trans hs1)

theorem storeRenewedToken_wp (hl : Linked cfg h none s) {rt : RefreshToken}
    {exp : Int} (hconsumed : h.spent tok = some exp) (hfamily : h.family newToken = some rt.familyID)
    (hne : rt.familyID ≠ "") (hpaired : h.pairedWith accessID = some newToken) (haccess : accessID ≠ "")
    (hspent : h.spent newToken = none) (hb : s.Bounded cfg accessID) :
    (storeRenewedToken cfg rt tok newToken accessID).wp semantics (fun _ s' => Linked cfg h none s') s := by
  unfold storeRenewedToken
  rw [wp_bind, wp_call]
  intro delay
  rw [wp_bind, wp_call]
  intro delay'
  rw [wp_bind]
  apply wp_mono (indexAdd_wp cfg _ _ _ _)
  intro _ s' hs'
  have hl' : Linked cfg h (some newToken) s' := by
    have hs := (s.shrinks_advance delay).trans (shrinks_advance _ delay')
    apply Linked.shrinks _ hs'
    apply Linked.setRefresh (hl.shrinks hs)
    . exact hfamily
    . exact hne
    . exact hpaired
    . exact haccess
    . exact hspent
    . exact hb.shrinks hs
  unfold familyRotate
  rw [if_neg hne, wp_bind, wp_call]
  intro delay
  rw [wp_bind, wp_pipe, wp_pipe]
  apply ((hl'.shrinks (s'.shrinks_advance delay)).familySRem (hl'.spent tok exp hconsumed).1 _).familyJoin hfamily

def History.rotated (h : History) (tok newToken : String) (expiration : Int) : History :=
  (h.recordFamily newToken (h.family tok)).recordSpent tok (some expiration)

def Exchanged (cfg : Config) (h : History) (s : Keys) (tok newToken : String) :
    Except TokenError α → Keys → Prop
  | .error _, s' => Linked cfg h none s'
  | .ok _, s' => ∃ e, s.refresh tok = some e ∧ Linked cfg (h.rotated tok newToken e.value.expiration) none s'

section

variable (hl : Linked cfg h none s)

include hl

theorem renewRefreshToken_wp (tok : String) {access : AccessToken} (hnew : h.family newToken = none)
    (hpaired : h.pairedWith access.id = some newToken) (haccess : access.id ≠ "") (hb : s.Bounded cfg access.id) :
    (renewRefreshToken cfg tok newToken access).wp semantics (Exchanged cfg h s tok newToken) s := by
  unfold renewRefreshToken
  rw [wp_bind, wp_call]
  intro delay
  have hs := s.shrinks_advance delay
  have hl' := hl.shrinks hs
  simp only [semantics_step, semantics_advance, Keys.step]
  cases hget : (s.advance delay).refresh.get (s.advance delay).now tok with
  | none =>
    rw [wp_bind]
    apply wp_mono (checkReuse_wp hl' tok)
    intro _ s' hs'
    exact hs'.1
  | some =>
    rcases eq_some_of_get_eq_some hget with ⟨e, he, rfl⟩
    rcases hl.family tok e he with ⟨hfamily, hne⟩
    rw [wp_bind, wp_call]
    intro delay'
    have hs' := (s.advance delay).shrinks_advance delay'
    split
    . apply hl'.shrinks hs'
    rw [wp_bind]
    apply wp_mono (consumeRefreshToken_wp ((hl'.shrinks hs').recordFamily hnew (h.family tok)) he)
    rintro _ s1 ⟨hl1, hb1⟩
    have hnetok : newToken ≠ tok := by
      intro heq
      rw [← heq, hnew] at hfamily
      contradiction
    rw [wp_bind]
    apply wp_mono (storeRenewedToken_wp hl1 _ _ hne hpaired haccess _ (hb1 _ (hb.shrinks (hs.trans hs'))))
    . intro _ s2 hl2
      exact ⟨e, he, hl2⟩
    . exact e.value.expiration
    . simp [recordSpent]
    . simp [recordSpent, recordFamily, hfamily]
    . simp [recordSpent, hnetok, recordFamily, hl.spent_eq_none hnew]

theorem tokenRequestByRefreshToken_wp (users : UserStatusResolver) (tok : String) :
    (tokenRequestByRefreshToken users tok).wp semantics
      (fun r s' => Linked cfg h none s' ∧ ∀ rt, r = .ok rt → s.Shrinks s') s := by
  unfold tokenRequestByRefreshToken
  rw [wp_bind, wp_call]
  intro delay
  have hs := s.shrinks_advance delay
  have hl' := hl.shrinks hs
  simp only [semantics_step, semantics_advance, Keys.step]
  cases hget : (s.advance delay).refresh.get (s.advance delay).now tok with
  | none =>
    rw [wp_bind]
    apply wp_mono (checkReuse_wp hl' tok)
    intro _ s' hs'
    exact ⟨hs'.1, fun _ h => by contradiction⟩
  | some =>
    dsimp only
    rcases eq_some_of_get_eq_some hget with ⟨e, he, rfl⟩
    split
    . rw [wp_bind]
      apply wp_mono (revokeFamily_wp hl' (hl.family tok e he).2)
      intro _ s' hs'
      exact ⟨hs'.2, fun _ h => by contradiction⟩
    . exact ⟨hl', fun _ _ => hs⟩

theorem exchange_wp (x : Exchange) (hnew : h.family x.newRefresh = none)
    (hid : h.pairedWith x.accessID = none) (haccess : x.accessID ≠ "") :
    (exchange cfg x).wp semantics
      (Exchanged cfg (h.recordPair x.accessID x.newRefresh) s x.token x.newRefresh) s := by
  unfold exchange
  rw [wp_bind]
  apply wp_mono (tokenRequestByRefreshToken_wp hl x.users x.token)
  rintro r s' ⟨hl', hs'⟩
  cases r with
  | error =>
    apply hl'.recordPair hid
  | ok rt =>
    dsimp only
    split
    . apply hl'.recordPair hid
    unfold rotateTokens
    rw [wp_bind]
    apply wp_mono (storeAccessToken_wp hl' hid x.newRefresh _)
    rintro access s1 ⟨haccessID, hl1, hb1, hsub⟩
    rw [← haccessID] at hid haccess hb1 ⊢
    rw [wp_bind]
    apply wp_mono (renewRefreshToken_wp (hl1.recordPair hid x.newRefresh) x.token hnew (by simp [recordPair])
      haccess hb1)
    intro r s2 hr
    cases r with
    | error => exact hr
    | ok =>
      rcases hr with ⟨e, he, hl2⟩
      exact ⟨e, (hs' rt rfl).refresh _ e (hsub _ e he), hl2⟩

theorem exchange_wp_of_spent (x : Exchange) {exp : Int}
    (hspent : h.spent x.token = some exp) (hfamily : h.family x.token = some f) :
    (exchange cfg x).wp semantics
      (fun r s' => r = .error .invalidRefreshToken ∧ (s'.now ≤ exp → s.FamilyRevoked h f s')) s := by
  unfold exchange tokenRequestByRefreshToken
  rw [wp_bind, wp_bind, wp_call]
  intro delay
  have hl' := hl.shrinks (s.shrinks_advance delay)
  have hget : (s.advance delay).refresh.get (s.advance delay).now x.token = none := by
    simp [Redis.Store.get, Redis.Store.lookup, (hl'.spent x.token exp hspent).1]
  simp only [semantics_step, semantics_advance, Keys.step, hget]
  rw [wp_bind]
  apply wp_mono (checkReuse_wp hl' x.token)
  rintro _ s' ⟨_, hrevoked⟩
  refine ⟨rfl, ?_⟩
  intro hle
  apply (hrevoked exp f hspent hfamily hle).of_advance

theorem createTokens_wp {familyID refreshID : String} (hne : familyID ≠ "") (hnew : h.family refreshID = none)
    (hid : h.pairedWith accessID = none) (haccess : accessID ≠ "") (req : TokenRequest) :
    (createTokens cfg familyID refreshID accessID req).wp semantics
      (fun _ s' => Linked cfg ((h.recordPair accessID refreshID).recordFamily refreshID (some familyID)) none s')
      s := by
  unfold createTokens
  rw [wp_bind]
  apply wp_mono (storeAccessToken_wp hl hid refreshID req)
  rintro access s1 ⟨haccessID, hl1, hb1, _⟩
  subst haccessID
  rw [wp_bind]
  have hl2 : Linked cfg ((h.recordPair access.id refreshID).recordFamily refreshID (some familyID)) none s1 :=
    (hl1.recordPair hid refreshID).recordFamily hnew _
  have hfamily : ((h.recordPair access.id refreshID).recordFamily refreshID (some familyID)).family refreshID
      = some familyID := by
    simp [recordFamily]
  unfold storeRefreshToken
  rw [wp_bind, wp_call]
  intro delay
  rw [wp_bind, wp_call]
  intro delay'
  rw [wp_bind]
  apply wp_mono (indexAdd_wp cfg _ _ _ _)
  intro _ s' hs'
  have hl' : Linked cfg ((h.recordPair access.id refreshID).recordFamily refreshID (some familyID)) (some refreshID)
      s' := by
    have hs := (s1.shrinks_advance delay).trans (shrinks_advance _ delay')
    apply Linked.shrinks _ hs'
    apply (hl2.shrinks hs).setRefresh hfamily hne _ haccess (hl.spent_eq_none hnew) (hb1.shrinks hs)
    simp [recordFamily, recordPair]
  unfold familyAdd
  rw [if_neg hne, wp_bind, wp_bind, wp_call]
  intro delay
  rw [wp_pipe]
  apply (hl'.shrinks (s'.shrinks_advance delay)).familyJoin hfamily

end

end

namespace System

variable {cfg : Config} {s s' : System}

theorem step_linked (hl : Linked cfg s.history none s.keys) {a : Action} (hstep : s.step cfg a = some s') :
    Linked cfg s'.history none s'.keys := by
  cases a with
  | issue familyID refreshID accessID req delays =>
    simp only [step] at hstep
    split at hstep
    . next hguard =>
      cases hstep
      rcases hguard with ⟨⟨hnew, hid, haccess⟩, hne⟩
      apply exec_of_wp (createTokens_wp hl hne hnew hid haccess req) delays
    . contradiction
  | exchange x delays =>
    simp only [step] at hstep
    split at hstep
    . next hunused =>
      cases hstep
      have hexec := exec_of_wp (exchange_wp hl x hunused.1 hunused.2.1 hunused.2.2) delays
      unfold exchange
      split
      . next err keys heq =>
        rw [heq] at hexec
        exact hexec
      . next tokens keys heq =>
        rw [heq] at hexec
        rcases hexec with ⟨e, he, hl'⟩
        rw [expirationOf, he]
        exact hl'
    . contradiction
  | revoke tokenIDOrToken clientID delays =>
    cases hstep
    apply hl.shrinks
    apply exec_of_wp (revokeToken_wp tokenIDOrToken clientID s.keys) delays
  | terminate userID clientID delays =>
    cases hstep
    apply hl.shrinks
    apply exec_of_wp (terminateSession_wp userID clientID s.keys) delays

theorem sameFamily_of_familyRevoked {f g : String} (hrevoked : s.keys.FamilyRevoked s.history f s'.keys)
    (hhistory : s'.history.family = s.history.family) (hne : g ≠ f) : SameFamily g s s' := by
  have other : ∀ t, s.history.family t = some g → s.history.family t ≠ some f := by
    intro t ht heq
    rw [ht] at heq
    exact hne (Option.some.inj heq)
  constructor
  . intro t
    rw [hhistory]
  . rw [hrevoked.families]
    simp [Redis.Store.del, hne]
  . intro t ht
    apply hrevoked.refresh t (other t ht)
  . intro a t ha ht
    apply hrevoked.tokens a t ha (other t ht)
  . intro t _
    rw [hrevoked.consumed]

end System

/--
An exchange that presents a refresh token that was rotated away leaves no live token in its family, and changes nothing
in the other families.
-/
theorem replay_revokes_family (cfg : Config) {now : Int} {acts : List Action} {s s' : System}
    (run : Run (System.step cfg) (fun _ _ => True) (System.start now) acts s) {x : Exchange} {delays : List Nat}
    (hstep : s.step cfg (.exchange x delays) = some s') {exp : Int} {f : String}
    (hspent : s.history.spent x.token = some exp) (hfamily : s.history.family x.token = some f)
    (hle : s'.keys.now ≤ exp) :
    (∀ t e, s'.keys.refresh.lookup s'.keys.now t = some e → s'.history.family t ≠ some f)
      ∧ (∀ t e, s.keys.refresh.lookup s.keys.now t = some e → s.history.family t = some f →
          s'.keys.tokens.lookup s'.keys.now e.value.accessTokenID = none)
      ∧ ∀ g, g ≠ f → System.SameFamily g s s' := by
  have hl : Linked cfg s.history none s.keys := by
    apply run.invariant (I := fun s => Linked cfg s.history none s.keys)
    . apply Linked.empty
    . intro s a s' hl _ hstep
      apply System.step_linked hl hstep
  have hl' := System.step_linked hl hstep
  simp only [System.step] at hstep
  split at hstep
  . cases hstep
    obtain ⟨hrevoked, hhistory⟩ : s.keys.FamilyRevoked s.history f (s.exchange cfg x delays).keys
        ∧ (s.exchange cfg x delays).history = s.history.recordPair x.accessID x.newRefresh := by
      have hexec := exec_of_wp (exchange_wp_of_spent hl x hspent hfamily) delays
      unfold System.exchange at hle ⊢
      split at hle
      . next err keys heq =>
        rw [heq] at hexec
        exact ⟨hexec.2 hle, rfl⟩
      . next tokens keys heq =>
        rw [heq] at hexec
        cases hexec.1
    refine ⟨?_, ?_, ?_⟩
    . intro t e he heq
      have := (hl'.family t e (lookup_eq_some_iff.mp he).1).1
      rw [heq] at this
      exact hrevoked.gone t e he (Option.some.inj this).symm
    . intro t e he ht
      rcases lookup_eq_some_iff.mp he with ⟨he, _⟩
      apply hrevoked.paired t e he
      have := (hl.family t e he).1
      rw [ht] at this
      exact (Option.some.inj this).symm
    . intro g hne
      apply System.sameFamily_of_familyRevoked hrevoked _ hne
      rw [hhistory]
      rfl
  . contradiction

namespace StolenToken

def request (subject : String) : TokenRequest :=
  ⟨"wiki", subject, ["wiki"], ["openid"], 0, ["pwd"], "sid"⟩

def present (tok newRefresh accessID : String) : Exchange :=
  ⟨tok, none, fun rt => some rt.scopes, newRefresh, accessID⟩

def acts : List Action :=
  [.issue "alice" "r0" "a0" (request "7") [5], .issue "bob" "q0" "b0" (request "8") [],
    .exchange (present "r0" "r1" "a1") [60000, 1, 1]]

abbrev before : Option System := Run.exec (System.step defaultConfig) (fun _ _ => True) (.start 0) acts

theorem before_isSome : before.isSome = true := by
  decide

abbrev after : Option System := (before.get before_isSome).step defaultConfig (.exchange (present "r0" "r2" "a2") [1])

theorem after_isSome : after.isSome = true := by
  decide

theorem stolen_token_presented_again :
    ((before.get before_isSome).keys.refresh.get (before.get before_isSome).keys.now "r1").isSome = true
      ∧ (∀ t e, (after.get after_isSome).keys.refresh.lookup (after.get after_isSome).keys.now t = some e →
          (after.get after_isSome).history.family t ≠ some "alice")
      ∧ (∀ t e, (before.get before_isSome).keys.refresh.lookup (before.get before_isSome).keys.now t = some e →
          (before.get before_isSome).history.family t = some "alice" →
          (after.get after_isSome).keys.tokens.lookup (after.get after_isSome).keys.now e.value.accessTokenID
            =
          none)
      ∧ ∀ g, g ≠ "alice" → System.SameFamily g (before.get before_isSome) (after.get after_isSome) :=
  ⟨by decide,
    replay_revokes_family defaultConfig (Run.of_isSome before_isSome)
      (Option.some_get after_isSome).symm
      (show (before.get before_isSome).history.spent "r0" = some 2592000005 by decide)
      (by decide) (by decide)⟩

end StolenToken

end Mxid.Oidcop
