import Mxid.Authz.Impl.Fleet
import Mxid.Authz.Lemmas.Cache

namespace Mxid.Authz

open Redis.Store Option Prog Fleet Shared List

structure Timing where
  lastRead : Int
  now : Int

structure Setting where
  provider : CachedBindingProvider
  l1TTL_nonneg : 0 ≤ provider.l1TTL
  l2TTL_nonneg : 0 ≤ provider.l2TTL
  db : Database
  d : Nat
  occurred : Moment → Prop

namespace Setting

variable (S : Setting)

structure InL1 (k : CacheKey) (e : Redis.Entry (Seen SourcedBinding)) : Prop where
  occurred : S.occurred e.value.moment
  shows : Shows S.db k e.value
  age : ∃ t, e.expireAt = some t ∧ t ≤ e.value.moment.time + S.provider.l1TTL + S.provider.l2TTL + 2 * S.d

structure InL2 (k : CacheKey) (e : Redis.Entry (Seen SerializedBinding)) : Prop where
  occurred : S.occurred e.value.moment
  stores : Stores S.db k e.value
  age : ∃ t, e.expireAt = some t ∧ t ≤ e.value.moment.time + S.provider.l2TTL + S.d

def Moves {β : Type} (c : CacheCmd β) (x x' : Timing) : Prop :=
  x.now ≤ x'.now ∧ (c.fills = true → x'.now ≤ x.lastRead + S.d) ∧ x'.lastRead = if c.reads then x'.now else x.lastRead

def Sends {β : Type} (c : CacheCmd β) (x : Timing) : Prop :=
  match c with
  | .l1Store k v ttl => S.InL1 k ⟨v, some (x.now + ttl)⟩
  | .set k v ttl => S.InL2 k ⟨v, some (x.now + ttl)⟩
  | _ => True

def Answers {β : Type} (c : CacheCmd β) (x : Timing) (b : β) : Prop :=
  match c with
  | .now => b = x.now
  | .l1Load k => ∀ e, b = some e → S.InL1 k e
  | .get k => ∀ v, b = some (some v) → ∃ e, S.InL2 k e ∧ e.value = v ∧ e.live x.now = true
  | .bindings tenantID userID =>
    ∀ v, b = some v → S.occurred v.moment ∧ v.moment.time = x.now ∧ v.bindings = S.db v.moment tenantID userID
  | _ => True

abbrev Timely {α : Type} (p : CacheOp α) (Q : α → Timing → Prop) (x : Timing) : Prop :=
  p.Meets S.Moves S.Sends S.Answers Q x

variable (k : CacheKey) (v : Seen SourcedBinding)

structure Known : Prop where
  occurred : S.occurred v.moment
  shows : Shows S.db k v

structure Held (x : Timing) : Prop extends S.Known k v where
  age : x.lastRead ≤ v.moment.time + S.provider.l2TTL + S.d

structure Returned (x : Timing) : Prop extends S.Known k v where
  age : x.now ≤ v.moment.time + S.provider.l1TTL + S.provider.l2TTL + 2 * S.d

variable {S} {k : CacheKey} {v : Seen SourcedBinding} {x : Timing}

theorem timely_l1Get : S.Timely (l1Get k) (fun r x => ∀ v, r = some v → S.Returned k v x) x := by
  apply meets_call
  intro x' _
  refine ⟨trivial, ?_⟩
  intro reply hreply
  cases reply with
  | none =>
    intro v hv
    contradiction
  | some e =>
    have he := hreply e rfl
    apply meets_call
    intro x'' _
    refine ⟨trivial, ?_⟩
    intro now hnow v hv
    cases hnow
    split at hv
    . next hlive =>
      cases hv
      rcases he.age with ⟨t, ht, hle⟩
      have hnow : x''.now ≤ t := by simpa [Redis.Entry.live, ht] using hlive
      exact ⟨⟨he.occurred, he.shows⟩, hnow.trans hle⟩
    . contradiction

theorem timely_l2Get : S.Timely (l2Get k) (fun r x => ∀ v, r = some v → S.Held k v x) x := by
  apply meets_call
  intro x' hx'
  refine ⟨trivial, ?_⟩
  intro reply hreply
  split
  . next v =>
    intro v' hv'
    cases hv'
    rcases hreply v rfl with ⟨e, he, rfl, hlive⟩
    rcases he.age with ⟨t, ht, hle⟩
    have hnow : x'.now ≤ t := by simpa [Redis.Entry.live, ht] using hlive
    have hread : x'.lastRead = x'.now := hx'.2.2
    exact ⟨⟨he.occurred, he.stores.deserialize⟩, by rw [hread]; exact hnow.trans hle⟩
  . intro v hv
    contradiction

theorem timely_l1Set (h : S.Held k v x) :
    S.Timely (S.provider.l1Set k v) (fun _ x' => S.Returned k v x' ∧ x'.lastRead = x.lastRead) x := by
  have hl1 := S.l1TTL_nonneg
  have hage := h.age
  intro x' hx'
  have hfill := hx'.2.1 rfl
  refine ⟨⟨h.occurred, h.shows, _, rfl, ?_⟩, fun _ _ => ⟨⟨h.toKnown, ?_⟩, hx'.2.2⟩⟩
  . dsimp only
    omega
  . omega

variable {tenantID userID : Int64}

theorem timely_load :
    S.Timely (S.provider.load tenantID userID) (fun r x => ∀ v, r = some v → S.Returned (tenantID, userID) v x) x := by
  have hl2 := S.l2TTL_nonneg
  apply meets_call
  intro x' hx'
  refine ⟨trivial, ?_⟩
  intro reply hreply
  cases reply with
  | none =>
    intro v hv
    contradiction
  | some v =>
    rcases hreply v rfl with ⟨hoccurred, htime, hbindings⟩
    have hread : x'.lastRead = v.moment.time := hx'.2.2.trans htime.symm
    have hknown : S.Known (tenantID, userID) v := ⟨hoccurred, .inl hbindings⟩
    apply Meets.bind
    apply (timely_l1Set (k := (tenantID, userID)) ⟨hknown, by rw [hread]; omega⟩).mono
    rintro _ x'' ⟨hreturned, hread'⟩
    split
    . apply Meets.bind
      have hl1 := S.l1TTL_nonneg
      apply meets_call
      intro x3 hx3
      have hfill := hx3.2.1 rfl
      refine ⟨⟨hknown.occurred, hknown.shows.serialize, _, rfl, ?_⟩, fun _ _ v' hv' => ?_⟩
      . show x3.now + S.provider.l2TTL ≤ v.moment.time + _ + _
        omega
      . cases hv'
        exact ⟨hknown, by omega⟩
    . intro v' hv'
      cases hv'
      exact hreturned

theorem timely_effectiveBindingsForUser :
    S.Timely (S.provider.effectiveBindingsForUser tenantID userID)
      (fun r x => ∀ v, r = some v → S.Returned (tenantID, userID) v x) x := by
  apply Meets.bind
  apply timely_l1Get.mono
  intro r x' hr
  cases r with
  | some v => exact hr
  | none =>
    dsimp only
    split
    . apply Meets.bind
      apply timely_l2Get.mono
      intro r x'' hr
      cases r with
      | some v =>
        apply Meets.bind
        apply (timely_l1Set (hr v rfl)).mono
        intro _ x''' h v' hv'
        cases hv'
        exact h.1
      | none => exact timely_load
    . exact timely_load

theorem always_invalidate {c : CachedBindingProvider} :
    (c.invalidate tenantID userID).Always (fun c => c.fills = false) (fun _ => True) := by
  apply always_call_bind rfl
  intro _
  split
  . apply always_call_bind rfl
    intro reply
    cases reply with
    | none => trivial
    | some =>
      apply always_call_bind rfl
      intro reply
      cases reply <;> trivial
  . trivial

theorem always_invalidateAll {c : CachedBindingProvider} :
    c.invalidateAll.Always (fun c => c.fills = false) (fun _ => True) := by
  apply always_call_bind rfl
  intro _
  split
  . apply always_call_bind rfl
    intro reply
    cases reply <;> trivial
  . trivial

variable (S) in
def Ends (call : CacheCall) (r : CacheResult) (x : Timing) : Prop :=
  ∀ tenantID userID v, call = .read tenantID userID → r = .bindings (some v) → S.Returned (tenantID, userID) v x

theorem timely_of_always {call : CacheCall} {p : CacheOp CacheResult}
    (h : p.Always (fun c => c.fills = false) (fun _ => True))
    (hcall : ∀ tenantID userID, call ≠ .read tenantID userID) :
    S.Timely p (S.Ends call) x := by
  refine (h.meets ?_ x).mono ?_
  . intro _ c x hc
    cases c <;> trivial
  . intro r x _ tenantID userID v heq
    exact absurd heq (hcall tenantID userID)

theorem timely_prog {call : CacheCall} : S.Timely (call.prog S.provider) (S.Ends call) x := by
  cases call with
  | read tenantID userID =>
    apply Meets.bind
    apply timely_effectiveBindingsForUser.mono
    intro r x' hr tenantID' userID' v hcall hv
    cases hcall
    cases hv
    exact hr v rfl
  | change tenantID userID =>
    refine timely_of_always ?_ (by simp)
    apply always_call_bind rfl
    intro _
    rw [always_bind]
    exact always_invalidate.mono (fun _ h => h) (fun _ _ => trivial)
  | invalidateAll =>
    refine timely_of_always ?_ (by simp)
    rw [CacheCall.prog, always_bind]
    exact always_invalidateAll.mono (fun _ h => h) (fun _ _ => trivial)
  | purgeL2 batches =>
    refine timely_of_always ?_ (by simp)
    rw [CacheCall.prog, always_bind]
    refine (always_forM ?_).mono (fun _ h => h) (fun _ _ => trivial)
    intro ks
    exact always_call_bind rfl (fun _ => trivial)

structure Young (S : Setting) (s : Shared) : Prop where
  l1 : ∀ k e, s.l1 k = some e → S.InL1 k e
  l2 : ∀ k e, s.l2 k = some e → S.InL2 k e

variable {s s' : Shared}

theorem Young.deliver {α : Type} {reply : Option α} (h : Young S s) (h' : Young S s') (hnow : s'.now = s.now) :
    Young S (s.deliver reply s').2 ∧ (s.deliver reply s').2.now = s.now := by
  unfold Shared.deliver
  split
  . exact ⟨h', hnow⟩
  . exact ⟨⟨h'.l1, h'.l2⟩, hnow⟩
  . exact ⟨⟨h.l1, h.l2⟩, rfl⟩
  . exact ⟨⟨h'.l1, h'.l2⟩, hnow⟩

theorem Young.step {β : Type} {c : CacheCmd β} (h : Young S s) (hsends : S.Sends c x) (hnow : x.now = s.now) :
    Young S (step S.db c s).2 ∧ (step S.db c s).2.now = s.now := by
  cases c with
  | l1Store k v ttl =>
    refine ⟨⟨?_, h.l2⟩, rfl⟩
    intro k' e he
    rcases eq_of_set_eq_some he with ⟨rfl, rfl⟩ | hold
    . rw [← hnow]
      exact hsends
    . exact h.l1 k' e hold
  | l1Delete k =>
    refine ⟨⟨?_, h.l2⟩, rfl⟩
    intro k' e he
    exact h.l1 k' e (eq_of_del_eq_some he)
  | l1Clear =>
    refine ⟨⟨?_, h.l2⟩, rfl⟩
    intro k e he
    cases he
  | set k v ttl =>
    refine h.deliver ⟨h.l1, ?_⟩ rfl
    intro k' e he
    rcases eq_of_set_eq_some he with ⟨rfl, rfl⟩ | hold
    . rw [← hnow]
      exact hsends
    . exact h.l2 k' e hold
  | del k =>
    refine h.deliver ⟨h.l1, ?_⟩ rfl
    intro k' e he
    exact h.l2 k' e (eq_of_del_eq_some he)
  | unlink ks =>
    refine h.deliver ⟨h.l1, ?_⟩ rfl
    intro k e he
    dsimp only at he
    split at he
    . contradiction
    . exact h.l2 k e he
  | publish => exact h.deliver ⟨h.l1, h.l2⟩ rfl
  | get | bindings => exact h.deliver h rfl
  | _ => exact ⟨⟨h.l1, h.l2⟩, rfl⟩

theorem Young.answers {β : Type} {c : CacheCmd β} (h : Young S s) (hnow : x.now = s.now)
    (hoccurred : S.occurred (Shared.step S.db c s).2.moment) : S.Answers c x (Shared.step S.db c s).1 := by
  cases c with
  | now => exact hnow.symm
  | l1Load k => exact h.l1 k
  | get k =>
    intro v hv
    have hget := Option.some.inj (Shared.deliver_eq_some hv).1
    rcases map_eq_some_iff.mp hget with ⟨e, he, rfl⟩
    rcases lookup_eq_some_iff.mp he with ⟨hstored, hlive⟩
    exact ⟨e, h.l2 k e hstored, rfl, hnow ▸ hlive⟩
  | bindings tenantID userID =>
    intro v hv
    rcases Shared.deliver_eq_some hv with ⟨hreply, faults, hstate⟩
    cases hreply
    have hmoment : (Shared.step S.db (.bindings tenantID userID) s).2.moment = s.moment := by
      show (s.deliver _ _).2.moment = _
      rw [hstate]
      rfl
    exact ⟨hmoment ▸ hoccurred, hnow.symm, rfl⟩
  | _ => trivial

end Setting

namespace Fleet

open Setting (Young)

variable (S : Setting) (calls : List (List CacheCall))

def Follows (i j : Nat) (lastRead now : Int) (t : CacheOp CacheResult) : Prop :=
  ∃ call, (calls[i]?).bind (fun calls => calls[j]?) = some call ∧ S.Timely t (S.Ends call) ⟨lastRead, now⟩

structure Aged (f : Fleet) : Prop where
  young : ∀ (i : Nat) (p : PodState), f.pods[i]? = some p → Young S (f.view p).shared
  threads : ∀ i j t, f.next? i j = some t → ∃ now, now ≤ f.now ∧ Follows S calls i j (f.lastRead (i, j)) now t

variable {S} {calls} {f f' : Fleet} {i j ms : Nat} {a : PodAction}
variable {p : PodState} {p' : Pod} {lastRead : Nat × Nat → Int}

theorem Aged.start {now : Int} {faults : List Fault} : Aged S calls (start S.provider now faults calls) where
  young := by
    intro i p hp
    rw [Fleet.start, getElem?_map] at hp
    rcases map_eq_some_iff.mp hp with ⟨_, _, rfl⟩
    constructor
    . intro k e he
      cases he
    . intro k e he
      cases he
  threads := by
    intro i j t ht
    rw [next?, Fleet.start, getElem?_map] at ht
    cases hcalls : calls[i]? with
    | none =>
      rw [hcalls] at ht
      cases ht
    | some podCalls =>
      rw [hcalls] at ht
      simp only [map_some, bind_some, getElem?_map] at ht
      rcases map_eq_some_iff.mp ht with ⟨call, hcall, rfl⟩
      exact ⟨now, Int.le_refl _, call, by rw [hcalls]; exact hcall, Setting.timely_prog⟩

theorem pods_after {i' : Nat} {q : PodState} (hp : f.pods[i]? = some p)
    (hq : (f.after i p p' lastRead).pods[i']? = some q) :
    (i' = i ∧ q = ⟨p'.shared.l1, p'.shared.channel, p'.threads⟩)
      ∨ (i' ≠ i ∧ ∃ q0, f.pods[i']? = some q0 ∧ q.l1 = q0.l1 ∧ q.threads = q0.threads) := by
  have hlt := (List.getElem?_eq_some_iff.mp hp).1
  unfold after at hq
  by_cases hi : i' = i
  . subst hi
    rw [List.getElem?_set_self (by rw [List.length_map]; exact hlt)] at hq
    exact .inl ⟨rfl, (Option.some.inj hq).symm⟩
  . rw [List.getElem?_set_ne (Ne.symm hi), List.getElem?_map] at hq
    rcases map_eq_some_iff.mp hq with ⟨q0, hq0, rfl⟩
    exact .inr ⟨hi, q0, hq0, rfl, rfl⟩

theorem Aged.after (h : Aged S calls f) (hp : f.pods[i]? = some p) (hyoung : Young S p'.shared)
    (hnow : f.now ≤ p'.shared.now) (hreads : ∀ i' j', i' ≠ i → lastRead (i', j') = f.lastRead (i', j'))
    (hthreads : ∀ j t, p'.threads[j]? = some t →
      ∃ now, now ≤ p'.shared.now ∧ Follows S calls i j (lastRead (i, j)) now t) :
    Aged S calls (f.after i p p' lastRead) where
  young := by
    intro i' q hq
    rcases pods_after hp hq with ⟨_, rfl⟩ | ⟨_, q0, hq0, hl1, _⟩
    . exact ⟨hyoung.l1, hyoung.l2⟩
    refine ⟨?_, hyoung.l2⟩
    dsimp only [view]
    rw [hl1]
    exact (h.young i' q0 hq0).l1
  threads := by
    intro i' j t ht
    rcases bind_eq_some_iff.mp ht with ⟨q, hq, ht⟩
    rcases pods_after hp hq with ⟨rfl, rfl⟩ | ⟨hi, q0, hq0, _, hsame⟩
    . exact hthreads j t ht
    rw [hsame] at ht
    rcases h.threads i' j t (bind_eq_some_iff.mpr ⟨q0, hq0, ht⟩) with ⟨now, hle, hfollows⟩
    refine ⟨now, hle.trans hnow, ?_⟩
    dsimp only [Fleet.after]
    rw [hreads i' j hi]
    exact hfollows

theorem Aged.threads_of_pod (h : Aged S calls f) (hp : f.pods[i]? = some p) {t : CacheOp CacheResult}
    (ht : p.threads[j]? = some t) : ∃ now, now ≤ f.now ∧ Follows S calls i j (f.lastRead (i, j)) now t :=
  h.threads i j t (bind_eq_some_iff.mpr ⟨p, hp, ht⟩)

theorem Aged.turn (h : Aged S calls f) (hprompt : f.prompt S.d (i, .turn j ms) = true)
    (hstep : f.step S.db (i, .turn j ms) = some f') (hoccurred : S.occurred f'.moment) :
    Aged S calls f' ∧ ∃ t, f'.next? i j = some t ∧ Follows S calls i j (f'.lastRead (i, j)) f'.now t := by
  unfold step at hstep
  dsimp only at hstep
  split at hstep
  . contradiction
  next p hp =>
  rcases map_eq_some_iff.mp hstep with ⟨p', hp', rfl⟩
  have hpool : Pool.step (semantics S.db) (f.view p) (j, ms) = some p' := hp'
  rcases Pool.step_eq_some hpool with ⟨β, paused, c, next, hthread, hshared, _, hself, hother⟩
  have hnext : f.next? i j = some (.cmd paused c next) := bind_eq_some_iff.mpr ⟨p, hp, hthread⟩
  rcases h.threads i j _ hnext with ⟨now, hle, call, hcall, htimely⟩
  -- the state in which the command is executed, and when
  generalize hst : (if paused then (f.view p).shared.advance ms else (f.view p).shared) = st
  generalize hnow' : f.now + ((if paused then ms else 0 : Nat) : Int) = now'
  have hshared : p'.shared = (Shared.step S.db c st).2 := by rw [hshared, ← hst]; rfl
  have hself : p'.threads[j]? = some (next (Shared.step S.db c st).1) := by rw [hself, ← hst]; rfl
  have hstnow : st.now = now' := by
    rw [← hst, ← hnow']
    cases paused
    . exact (Int.add_zero _).symm
    . rfl
  have hyoung : Young S st := by
    rw [← hst]
    cases paused
    . exact h.young i p hp
    . exact ⟨(h.young i p hp).l1, (h.young i p hp).l2⟩
  have hlater : f.now ≤ now' := by
    rw [← hnow']
    omega
  have hreads : f.readsAt i (.turn j ms) = if c.reads then Function.update f.lastRead (i, j) now' else f.lastRead := by
    simp only [readsAt, hnext, hnow']
  have hread : f.readsAt i (.turn j ms) (i, j) = if c.reads then now' else f.lastRead (i, j) := by
    rw [hreads]
    split
    . exact Function.update_self ..
    . rfl
  have hmoves : S.Moves c ⟨f.lastRead (i, j), now⟩ ⟨f.readsAt i (.turn j ms) (i, j), now'⟩ := by
    refine ⟨hle.trans hlater, ?_, hread⟩
    intro hfills
    rw [← hnow']
    simpa [prompt, hnext, hfills] using hprompt
  rcases htimely _ hmoves with ⟨hsends, hgoes⟩
  rcases hyoung.step hsends hstnow.symm with ⟨hyoung', hsame⟩
  have hfollows : Follows S calls i j (f.readsAt i (.turn j ms) (i, j)) p'.shared.now
      (next (Shared.step S.db c st).1) := by
    rw [hshared, hsame, hstnow]
    refine ⟨call, hcall, hgoes _ (hyoung.answers hstnow.symm ?_)⟩
    rw [← hshared]
    exact hoccurred
  constructor
  . apply h.after hp
    . rw [hshared]
      exact hyoung'
    . rw [hshared, hsame, hstnow]
      exact hlater
    . intro i' j' hi
      rw [hreads]
      split
      . exact Function.update_of_ne (by simp [hi]) ..
      . rfl
    . intro j' t ht
      by_cases hj : j' = j
      . subst hj
        rw [hself] at ht
        cases ht
        exact ⟨_, Int.le_refl _, hfollows⟩
      . rw [hother j' hj] at ht
        rcases h.threads_of_pod hp ht with ⟨now0, hle0, hfollows0⟩
        refine ⟨now0, ?_, ?_⟩
        . rw [hshared, hsame, hstnow]
          exact hle0.trans hlater
        . have hkept : f.readsAt i (.turn j ms) (i, j') = f.lastRead (i, j') := by
            rw [hreads]
            split
            . exact Function.update_of_ne (by simp [hj]) ..
            . rfl
          rw [hkept]
          exact hfollows0
  . refine ⟨_, ?_, hfollows⟩
    unfold next? Fleet.after
    rw [List.getElem?_set_self (by rw [List.length_map]; exact (List.getElem?_eq_some_iff.mp hp).1)]
    exact hself

theorem Aged.step (h : Aged S calls f) (hprompt : f.prompt S.d (i, a) = true)
    (hstep : f.step S.db (i, a) = some f') (hoccurred : S.occurred f'.moment) : Aged S calls f' := by
  cases a with
  | turn j ms => exact (h.turn hprompt hstep hoccurred).1
  | deliver =>
    unfold step at hstep
    split at hstep
    . contradiction
    next p hp =>
    rcases map_eq_some_iff.mp hstep with ⟨p', hp', rfl⟩
    unfold Pod.step at hp'
    dsimp only at hp'
    split at hp' <;> cases hp'
    next msg channel hchannel =>
    have hyoung := h.young i p hp
    refine h.after hp ?_ ?_ (fun _ _ _ => rfl) ?_
    . cases msg with
      | all =>
        refine ⟨?_, hyoung.l2⟩
        intro k e he
        cases he
      | key =>
        refine ⟨?_, hyoung.l2⟩
        intro k' e he
        exact hyoung.l1 k' e (eq_of_del_eq_some he)
    . cases msg <;> exact Int.le_refl _
    . intro j t ht
      cases msg <;> exact h.threads_of_pod hp ht
  | lose =>
    unfold step at hstep
    split at hstep
    . contradiction
    next p hp =>
    rcases map_eq_some_iff.mp hstep with ⟨p', hp', rfl⟩
    unfold Pod.step at hp'
    dsimp only at hp'
    split at hp' <;> cases hp'
    have hyoung := h.young i p hp
    exact h.after hp ⟨hyoung.l1, hyoung.l2⟩ (Int.le_refl _) (fun _ _ _ => rfl) (fun j t ht => h.threads_of_pod hp ht)

theorem aged_of_run {now : Int} {faults : List Fault} {acts acts' : List (Nat × PodAction)}
    (run : Run (step S.db) (fun f a => f.prompt S.d a = true) (start S.provider now faults calls) acts f)
    (hacts : ∃ after, acts' = acts ++ after)
    (hoccurred : ∀ f, Run.Visits (step S.db) (fun f a => f.prompt S.d a = true)
        (start S.provider now faults calls)
      acts' f → S.occurred f.moment) : Aged S calls f := by
  induction run with
  | nil => exact .start
  | @snoc acts f f' a run hprompt hstep ih =>
    rcases hacts with ⟨after, hafter⟩
    have haged := ih ⟨a :: after, by rw [hafter, append_assoc]; rfl⟩
    exact haged.step hprompt hstep (hoccurred f' ⟨_, _, hafter, run.snoc hprompt hstep⟩)

def setting (c : CachedBindingProvider) (hl1 : 0 ≤ c.l1TTL) (hl2 : 0 ≤ c.l2TTL) (db : Database) (d : Nat) (now : Int)
    (faults : List Fault) (calls : List (List CacheCall)) (acts : List (Nat × PodAction)) : Setting where
  provider := c
  l1TTL_nonneg := hl1
  l2TTL_nonneg := hl2
  db := db
  d := d
  occurred m := ∃ f, Run.Visits (step db) (fun f a => f.prompt d a = true) (start c now faults calls) acts f
    ∧ f.moment = m

/--
Whatever a pod returns was in the database, no longer ago than both times to live and twice the time `d` within which
calls fill the cache after a read.
-/
theorem bindings_age_bounded (c : CachedBindingProvider) (hl1 : 0 ≤ c.l1TTL) (hl2 : 0 ≤ c.l2TTL) (db : Database)
    (d : Nat)
    (now : Int) (faults : List Fault) (calls : List (List CacheCall)) (acts : List (Nat × PodAction)) (f f' : Fleet)
    (i j ms : Nat) (tenantID userID : Int64) (v : Seen SourcedBinding)
    (run : Run (step db) (fun f a => f.prompt d a = true) (start c now faults calls) acts f)
    (hprompt : f.prompt d (i, .turn j ms) = true) (hstep : f.step db (i, .turn j ms) = some f')
    (hcall : (calls[i]?).bind (fun calls => calls[j]?) = some (.read tenantID userID))
    (hresult : f'.result i j = some (.bindings (some v))) :
    ∃ f₀, Run.Visits (step db) (fun f a => f.prompt d a = true) (start c now faults calls)
        (acts ++ [(i, .turn j ms)]) f₀
      ∧ f'.now - (c.l1TTL + c.l2TTL + 2 * d) ≤ f₀.now
      ∧ (v.bindings = db f₀.moment tenantID userID ∨ v.bindings = (db f₀.moment tenantID userID).map throughRedis) := by
  have haged : Aged (setting c hl1 hl2 db d now faults calls (acts ++ [(i, .turn j ms)])) calls f :=
    aged_of_run run ⟨_, rfl⟩ (fun f₀ hvisits => ⟨f₀, hvisits, rfl⟩)
  have hoccurred : (setting c hl1 hl2 db d now faults calls (acts ++ [(i, .turn j ms)])).occurred f'.moment :=
    ⟨f', ⟨_, [], by simp, run.snoc hprompt hstep⟩, rfl⟩
  rcases (haged.turn hprompt hstep hoccurred).2 with ⟨t, ht, call, hcall', htimely⟩
  rw [hcall] at hcall'
  cases hcall'
  unfold result at hresult
  rw [ht] at hresult
  cases t with
  | cmd => contradiction
  | ret r =>
    cases hresult
    have hreturned := htimely tenantID userID v rfl rfl
    rcases hreturned.occurred with ⟨f₀, hvisits, hmoment⟩
    have htime : f₀.now = v.moment.time := congrArg Moment.time hmoment
    have hage : f'.now ≤ v.moment.time + c.l1TTL + c.l2TTL + 2 * d := hreturned.age
    refine ⟨f₀, hvisits, by omega, ?_⟩
    rw [hmoment]
    exact hreturned.shows

end Fleet

/-!
A role is revoked while a pod is about to cache it. Another pod takes it from Redis at the last moment.
-/

namespace LastMoment

open RevokedRole (admin roles)

def provider : CachedBindingProvider := ⟨true, 10, 100⟩

def calls : List (List CacheCall) := [[.read 1 7, .change 1 7], [.read 1 7, .read 1 7]]

def early : List (Nat × PodAction) := [(0, .turn 0 0), (0, .turn 0 0), (0, .turn 0 0), (0, .turn 1 1)]

def late : List (Nat × PodAction) :=
  [(0, .turn 1 0), (0, .turn 1 0), (0, .turn 1 0), (0, .turn 0 0), (0, .turn 0 4), (1, .turn 0 100), (1, .turn 0 0),
    (1, .turn 0 5), (1, .turn 1 10)]

theorem revoked_role_age :
    ∃ f f' v, Run (step roles) (fun f a => f.prompt 5 a = true) (start provider 0 [] calls)
        (early ++ late) f
      ∧ f.step roles (1, .turn 1 0) = some f' ∧ f'.result 1 1 = some (.bindings (some v))
      ∧ ∃ f₀, Run.Visits (step roles) (fun f a => f.prompt 5 a = true) (start provider 0 [] calls)
          (early ++ late ++ [(1, .turn 1 0)]) f₀
        ∧ f'.now - (provider.l1TTL + provider.l2TTL + 2 * 5) ≤ f₀.now
        ∧ (v.bindings = roles f₀.moment 1 7 ∨ v.bindings = (roles f₀.moment 1 7).map throughRedis) := by
  refine ⟨_, _, _, Run.of_exec rfl, rfl, rfl, ?_⟩
  exact bindings_age_bounded provider (by decide) (by decide) roles 5 0 [] calls (early ++ late) _ _ 1 1 0 1 7 _
    (Run.of_exec rfl) rfl rfl rfl rfl

theorem revoked_role_older :
    ∃ f₀ f v, Run (step roles) (fun f a => f.prompt 5 a = true) (start provider 0 [] calls) early f₀
      ∧ (∀ m tenantID userID, f₀.version ≤ m.version → roles m tenantID userID = [])
      ∧ f₀.now < f.now - (provider.l1TTL + provider.l2TTL + 5)
      ∧ Run (step roles) (fun f a => f.prompt 5 a = true) f₀ (late ++ [(1, .turn 1 0)]) f
      ∧ f.result 1 1 = some (.bindings (some v)) ∧ v.bindings = [admin] := by
  refine ⟨_, _, _, Run.of_exec rfl, ?_, ?_, Run.of_exec rfl, rfl, rfl⟩
  . intro m tenantID userID hversion
    exact if_neg (Nat.ne_of_gt hversion)
  . decide

end LastMoment

end Mxid.Authz
