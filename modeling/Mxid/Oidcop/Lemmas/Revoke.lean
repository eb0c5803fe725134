import Mxid.Oidcop.Lemmas.Linked

namespace Mxid.Oidcop

open Redis.Store Prog Keys Option

@[simp]
theorem semantics_step (c : Cmd β) (s : Keys) : semantics.step c s = Keys.step c s := by
  rfl

@[simp]
theorem semantics_advance (delay : Nat) (s : Keys) : semantics.advance delay s = s.advance delay := by
  rfl

@[simp]
def Cmd.Removes : Cmd β → Prop
  | .setToken _ _ _ | .setRefresh _ _ _ | .setConsumed _ _ _
  | .familySAdd _ _ | .familySRem _ _ | .familyExpire _ _ | .familyDel _ => False
  | _ => True

theorem Keys.shrinks_step {c : Cmd β} (hc : c.Removes) (s : Keys) : s.Shrinks (step c s).2 := by
  cases c with
  | del => apply shrinks_del
  | setToken | setRefresh | setConsumed | familySAdd | familySRem | familyExpire | familyDel => exact hc.elim
  | _ => exact ⟨Int.le_refl _, fun _ _ => id, fun _ _ => id, rfl, rfl⟩

theorem wp_of_removes {p : Op α} (h : p.Always Cmd.Removes (fun _ => True)) (s : Keys) :
    p.wp semantics (fun _ s' => s.Shrinks s') s := by
  apply wp_mono (h.wp Keys.Shrinks.refl (fun _ _ _ => Keys.Shrinks.trans) _ s)
  . intro _ _ hs
    exact hs.2
  intro β c paused delay s hc
  unfold Semantics.run
  split
  . exact (s.shrinks_advance delay).trans (shrinks_step hc _)
  . apply shrinks_step hc

theorem indexAdd_wp (cfg : Config) (userID clientID : String) (key : TokenKey) (s : Keys) :
    (indexAdd cfg userID clientID key).wp semantics (fun _ s' => s.Shrinks s') s := by
  apply wp_of_removes
  unfold indexAdd
  split
  . trivial
  . simp

theorem revokeToken_wp (tokenIDOrToken clientID : String) (s : Keys) :
    (revokeToken tokenIDOrToken clientID).wp semantics (fun _ s' => s.Shrinks s') s := by
  apply wp_of_removes
  unfold revokeToken
  rw [always_bind, always_call]
  refine ⟨trivial, ?_⟩
  intro token
  cases token with
  | some =>
    dsimp only
    split
    . trivial
    . simp
  | none =>
    rw [always_bind, always_call]
    refine ⟨trivial, ?_⟩
    intro rt
    cases rt with
    | none => trivial
    | some =>
      dsimp only
      split
      . trivial
      . simp

theorem terminateSession_wp (userID clientID : String) (s : Keys) :
    (terminateSession userID clientID).wp semantics (fun _ s' => s.Shrinks s') s := by
  apply wp_of_removes
  unfold terminateSession delMembers
  simp only [always_bind, always_call, Cmd.Removes, true_and]
  intro members
  split
  . simp
  . simp

namespace Keys

structure MemberRevoked (s : Keys) (tok : String) (s' : Keys) : Prop where
  shrinks : s.Shrinks s'
  gone : s'.refresh tok = none
  others : ∀ t, t ≠ tok → s'.refresh t = s.refresh t
  tokens : ∀ a, (∀ e, s.refresh tok = some e → e.value.accessTokenID ≠ a) → s'.tokens a = s.tokens a
  paired : ∀ e, s.refresh tok = some e → e.value.accessTokenID ≠ "" → e.live s'.now = true →
    s'.tokens e.value.accessTokenID = none

end Keys

theorem revokePaired_wp (rt : Option RefreshToken) (s : Keys) :
    (revokePaired rt).wp semantics
      (fun _ s' => s.Shrinks s' ∧ s'.refresh = s.refresh
        ∧ (∀ a, rt.map RefreshToken.accessTokenID ≠ some a → s'.tokens a = s.tokens a)
        ∧ ∀ a, rt.map RefreshToken.accessTokenID = some a → a ≠ "" → s'.tokens a = none) s := by
  cases rt with
  | none => exact ⟨Keys.Shrinks.refl s, rfl, fun _ _ => rfl, fun _ h => by contradiction⟩
  | some =>
    unfold revokePaired
    dsimp only
    split
    . rw [wp_call]
      intro delay
      refine ⟨(s.shrinks_advance delay).trans (shrinks_del _ _), rfl, ?_, ?_⟩
      . intro a ha
        simp only [map_some, ne_eq, some.injEq] at ha
        simp [Keys.step, Keys.del, Keys.delKey, Redis.Store.del, Ne.symm ha, Keys.advance]
      . intro a ha _
        simp only [map_some, some.injEq] at ha
        simp [Keys.step, Keys.del, Keys.delKey, Redis.Store.del, ha]
    . next hempty =>
      refine ⟨Keys.Shrinks.refl s, rfl, fun _ _ => rfl, ?_⟩
      intro a ha hne
      simp only [map_some, some.injEq] at ha
      subst ha
      contradiction

theorem revokeMember_wp (tok : String) (s : Keys) :
    (revokeMember tok).wp semantics (fun _ s' => s.MemberRevoked tok s') s := by
  unfold revokeMember
  rw [wp_bind, wp_call]
  intro delay
  rw [wp_bind]
  apply wp_mono (revokePaired_wp _ _)
  rintro _ s' ⟨hs', hrefresh, hother, hgone⟩
  rw [wp_call]
  intro delay'
  have hs'' : s'.Shrinks (Keys.step (.del [.refresh tok]) (s'.advance delay')).2 :=
    (s'.shrinks_advance delay').trans (shrinks_del _ _)
  refine ⟨((s.shrinks_advance delay).trans hs').trans hs'', ?_, ?_, ?_, ?_⟩
  . simp [Keys.step, Keys.del, Keys.delKey, Redis.Store.del]
  . intro t ht
    simp [Keys.step, Keys.del, Keys.delKey, Redis.Store.del, Keys.advance, ht, hrefresh]
  . intro a ha
    apply hother
    intro hget
    rcases map_eq_some_iff.mp hget with ⟨rt, hrt, hrta⟩
    rcases eq_some_of_get_eq_some hrt with ⟨e, he, rfl⟩
    exact ha e he hrta
  . intro e he hne hlive
    apply hgone _ _ hne
    have hlookup : s.refresh.lookup (s.advance delay).now tok = some e := by
      rw [lookup_eq_some_iff]
      refine ⟨he, Redis.Entry.live_mono ?_ hlive⟩
      exact Int.le_trans hs'.now_le hs''.now_le
    change (s.refresh.get (s.advance delay).now tok).map RefreshToken.accessTokenID = _
    rw [Redis.Store.get, hlookup]
    rfl

namespace Keys

structure MembersRevoked (s : Keys) (members rest : List String) (s' : Keys) : Prop where
  subset : ∀ t ∈ rest, t ∈ members
  shrinks : s.Shrinks s'
  others : ∀ t, t ∉ members → s'.refresh t = s.refresh t
  tokens : ∀ a, (∀ t ∈ members, ∀ e, s.refresh t = some e → e.value.accessTokenID ≠ a) →
    s'.tokens a = s.tokens a
  revoked : ∀ t ∈ members, (t ∈ rest ∧ s'.refresh t = s.refresh t) ∨ (s'.refresh t = none
    ∧ ∀ e, s.refresh t = some e → e.value.accessTokenID ≠ "" → e.live s'.now = true →
      s'.tokens e.value.accessTokenID = none)

theorem membersRevoked_start (s : Keys) (members : List String) : s.MembersRevoked members members s :=
  ⟨fun _ => id, .refl s, fun _ _ => rfl, fun _ _ => rfl, fun _ h => .inl ⟨h, rfl⟩⟩

theorem Shrinks.tokens_eq_none {s s' : Keys} (h : s.Shrinks s') {a : String} (ha : s.tokens a = none) :
    s'.tokens a = none := by
  apply eq_none_iff_forall_ne_some.mpr
  intro e he
  rw [h.tokens a e he] at ha
  contradiction

theorem MembersRevoked.step {s s' s'' : Keys} {members rest : List String} {tok : String}
    (h : s.MembersRevoked members (tok :: rest) s') (h' : s'.MemberRevoked tok s'') :
    s.MembersRevoked members rest s'' where
  subset t ht := h.subset t (List.mem_cons_of_mem _ ht)
  shrinks := h.shrinks.trans h'.shrinks
  others t ht := by
    have hne : t ≠ tok := by
      intro heq
      apply ht
      rw [heq]
      apply h.subset tok List.mem_cons_self
    rw [h'.others t hne, h.others t ht]
  tokens a ha := by
    rw [← h.tokens a ha]
    apply h'.tokens
    intro e he
    apply ha tok (h.subset tok List.mem_cons_self) e
    apply h.shrinks.refresh tok e he
  revoked t ht := by
    have hkept : ∀ e : Redis.Entry RefreshToken, e.live s''.now = true → e.live s'.now = true := by
      intro e
      apply Redis.Entry.live_mono h'.shrinks.now_le
    rcases h.revoked t ht with ⟨hrest, heq⟩ | ⟨hgone, hpaired⟩
    . by_cases htok : t = tok
      . subst htok
        refine .inr ⟨h'.gone, ?_⟩
        intro e he
        rw [← heq] at he
        apply h'.paired e he
      . refine .inl ⟨?_, ?_⟩
        . rcases List.mem_cons.mp hrest with htok' | hrest
          . contradiction
          . exact hrest
        . rw [h'.others t htok, heq]
    . refine .inr ⟨?_, ?_⟩
      . by_cases htok : t = tok
        . rw [htok]
          exact h'.gone
        . rw [h'.others t htok, hgone]
      . intro e he hne hlive
        apply h'.shrinks.tokens_eq_none
        apply hpaired e he hne (hkept e hlive)

structure FamilyRevoked (h : History) (f : String) (s s' : Keys) : Prop where
  now_le : s.now ≤ s'.now
  gone : ∀ t e, s'.refresh.lookup s'.now t = some e → e.value.familyID ≠ f
  paired : ∀ t e, s.refresh t = some e → e.value.familyID = f →
    s'.tokens.lookup s'.now e.value.accessTokenID = none
  refresh : ∀ t, h.family t ≠ some f → s'.refresh t = s.refresh t
  tokens : ∀ a t, h.pairedWith a = some t → h.family t ≠ some f → s'.tokens a = s.tokens a
  consumed : s'.consumed = s.consumed
  families : s'.families = s.families.del f

theorem FamilyRevoked.of_advance {h : History} {f : String} {s s' : Keys} {delay : Nat}
    (hs : (s.advance delay).FamilyRevoked h f s') : s.FamilyRevoked h f s' where
  __ := hs
  now_le := Int.le_trans (s.shrinks_advance delay).now_le hs.now_le

theorem FamilyRevoked.publish {h : History} {f : String} {s s' : Keys} (hs : s.FamilyRevoked h f s')
    (delay : Nat) (event : TokenReuse) :
    s.FamilyRevoked h f (step (.publish event) (s'.advance delay)).2 where
  __ := hs
  now_le := Int.le_trans hs.now_le (s'.shrinks_advance delay).now_le
  gone t e he := hs.gone t e (lookup_mono (s'.shrinks_advance delay).now_le he)
  paired t e he hf := by
    apply eq_none_iff_forall_ne_some.mpr
    intro a ha
    have : s'.tokens.lookup s'.now e.value.accessTokenID = some a :=
      lookup_mono (s'.shrinks_advance delay).now_le ha
    rw [hs.paired t e he hf] at this
    contradiction

end Keys

section

variable {cfg : Config} {h : History} {s s' : Keys} {f : String} (hl : Linked cfg h none s)

include hl

theorem Linked.mem_smembers {t : String} {e : Redis.Entry RefreshToken}
    (he : s.refresh t = some e) (hlive : e.live s.now = true) : t ∈ s.families.smembers s.now e.value.familyID := by
  rcases hl.expires t e he with ⟨x, hx, _⟩
  simp only [Redis.Entry.live, hx, decide_eq_true_eq] at hlive
  rcases hl.indexed t e x (by simp) he hx hlive with ⟨members, y, hmembers, hmem, hy⟩
  apply Redis.Store.mem_smembers hmembers _ hmem
  simp only [Redis.Entry.live, decide_eq_true_eq]
  omega

theorem Linked.family_of_mem_smembers {now : Int} {t : String}
    (ht : t ∈ s.families.smembers now f) : h.family t = some f := by
  rcases eq_some_of_mem_smembers ht with ⟨e, he, ht⟩
  apply hl.members f e t he ht

theorem Linked.familyRevoked (hs : s.MembersRevoked (s.families.smembers s.now f) [] s') (delay : Nat) :
    s.FamilyRevoked h f { s' with now := s'.now + delay, families := s'.families.del f } where
  now_le := by
    have := hs.shrinks.now_le
    dsimp only
    omega
  gone t e he hf := by
    rcases lookup_eq_some_iff.mp he with ⟨he, hlive⟩
    have hnow := hs.shrinks.now_le
    have hmem : t ∈ s.families.smembers s.now f := by
      rw [← hf]
      apply hl.mem_smembers (hs.shrinks.refresh t e he)
      apply Redis.Entry.live_mono _ hlive
      dsimp only
      omega
    rcases hs.revoked t hmem with ⟨hnil, _⟩ | ⟨hgone, _⟩
    . contradiction
    . rw [hgone] at he
      contradiction
  paired t e he hf := by
    apply eq_none_iff_forall_ne_some.mpr
    intro a ha
    rcases lookup_eq_some_iff.mp ha with ⟨ha, hlive⟩
    -- an access token that is still live belongs to a refresh token that was live all along
    rcases hl.expires t e he with ⟨x, hx, _⟩
    rcases hl.access t e x a he hx (hs.shrinks.tokens _ a ha) with ⟨y, hy, hle⟩
    have hnow := hs.shrinks.now_le
    simp only [Redis.Entry.live, hy, decide_eq_true_eq] at hlive
    have elive : ∀ now, now ≤ s'.now → e.live now = true := by
      intro now hle'
      simp only [Redis.Entry.live, hx, decide_eq_true_eq]
      omega
    have hmem : t ∈ s.families.smembers s.now f := by
      rw [← hf]
      apply hl.mem_smembers he (elive s.now hnow)
    rcases hs.revoked t hmem with ⟨hnil, _⟩ | ⟨_, hpaired⟩
    . contradiction
    have := hpaired e he (hl.paired t e he).2 (elive s'.now (Int.le_refl _))
    rw [this] at ha
    contradiction
  refresh t ht := by
    apply hs.others
    intro hmem
    exact ht (hl.family_of_mem_smembers hmem)
  tokens a t ha ht := by
    apply hs.tokens
    intro t' hmem e he heq
    have := (hl.paired t' e he).1
    rw [heq, ha] at this
    cases this
    exact ht (hl.family_of_mem_smembers hmem)
  consumed := hs.shrinks.consumed
  families := by
    rw [hs.shrinks.families]

theorem revokeFamily_wp (hf : f ≠ "") :
    (revokeFamily f).wp semantics (fun _ s' => s.FamilyRevoked h f s' ∧ Linked cfg h none s') s := by
  unfold revokeFamily
  rw [if_neg hf, wp_bind, wp_call]
  intro delay
  have hl' := hl.shrinks (s.shrinks_advance delay)
  rw [wp_bind]
  apply wp_mono (wp_forM ((s.advance delay).membersRevoked_start _) _)
  . intro _ s' hs'
    rw [wp_call]
    intro delay'
    have hrevoked := hl'.familyRevoked hs' delay'
    refine ⟨hrevoked.of_advance, ?_⟩
    . apply ((hl'.shrinks hs'.shrinks).shrinks (s'.shrinks_advance delay')).familyDel
      apply hrevoked.gone
  . intro tok rest s' hs'
    apply wp_mono (revokeMember_wp tok s')
    intro _ s'' hs''
    apply hs'.step hs''

theorem checkReuse_wp (tok : String) :
    (checkReuse tok).wp semantics (fun _ s' => Linked cfg h none s' ∧ ∀ exp f, h.spent tok = some exp →
      h.family tok = some f → s'.now ≤ exp → s.FamilyRevoked h f s') s := by
  unfold checkReuse
  rw [wp_bind, wp_call]
  intro delay
  have hl' := hl.shrinks (s.shrinks_advance delay)
  have hspent : ∀ exp, h.spent tok = some exp → (s.advance delay).now ≤ exp → ∃ marker,
      (s.advance delay).consumed.get (s.advance delay).now tok = some marker
        ∧ h.family tok = some marker.familyID ∧ marker.familyID ≠ "" := by
    intro exp hexp hle
    rcases (hl'.spent tok exp hexp).2 with ⟨marker, x, hmarker, hx, hfamily, hne⟩
    refine ⟨marker, ?_, hfamily, hne⟩
    rw [Redis.Store.get, lookup_eq_some_iff.mpr ⟨hmarker, by
      simp only [Redis.Entry.live, decide_eq_true_eq]
      omega⟩]
    rfl
  simp only [semantics_step, semantics_advance, Keys.step]
  cases hmarker : (s.advance delay).consumed.get (s.advance delay).now tok with
  | none =>
    refine ⟨hl', ?_⟩
    intro exp f hexp _ hle
    rcases hspent exp hexp hle with ⟨marker, hget, _⟩
    rw [hmarker] at hget
    contradiction
  | some marker =>
    dsimp only
    split
    . next hempty =>
      refine ⟨hl', ?_⟩
      intro exp f hexp _ hle
      rcases hspent exp hexp hle with ⟨marker', hget, _, hne⟩
      rw [hmarker] at hget
      cases hget
      contradiction
    . next hne =>
      rw [wp_bind]
      apply wp_mono (revokeFamily_wp hl' hne)
      rintro _ s' ⟨hrevoked, hl''⟩
      rw [wp_bind, wp_call]
      intro delay'
      have hpublish : (Cmd.publish ⟨marker.userID, marker.clientID⟩).Removes := trivial
      refine ⟨(hl''.shrinks (s'.shrinks_advance delay')).shrinks (shrinks_step hpublish _), ?_⟩
      intro exp f hexp hf hle
      have hnow : (s.advance delay).now ≤ exp := by
        have hle : (s'.advance delay').now ≤ exp := hle
        have := hrevoked.now_le
        have := (s'.shrinks_advance delay').now_le
        omega
      rcases hspent exp hexp hnow with ⟨marker', hget, hfamily, _⟩
      rw [hmarker] at hget
      cases hget
      rw [hf] at hfamily
      cases hfamily
      apply (hrevoked.publish delay' _).of_advance

end

end Mxid.Oidcop
