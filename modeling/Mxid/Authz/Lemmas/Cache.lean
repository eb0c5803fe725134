import Mxid.Authz.Impl.Cache

namespace Mxid.Authz

open Redis.Store Prog Moment CachedBindingProvider Shared Option Rely

def SourcedBinding.WholeSeconds (b : SourcedBinding) : Prop :=
  ∀ t, b.expiresAt = some t → t % 1000 = 0

theorem throughRedis_eq_self {b : SourcedBinding} (h : b.WholeSeconds) : throughRedis b = b := by
  have hexpires : (b.expiresAt.map (· / 1000)).map (· * 1000) = b.expiresAt := by
    cases ht : b.expiresAt with
    | none => rfl
    | some t =>
      have := h t ht
      simp only [map_some, some.injEq]
      omega
  rw [throughRedis, deserialize, scope_serialize]
  exact congrArg (fun t => SourcedBinding.mk ⟨b.roleID, b.permissions, b.scope, t⟩ b.source b.sourceID) hexpires

theorem serialize_throughRedis (b : SourcedBinding) : serialize 1000 (throughRedis b) = serialize 1000 b := by
  have hexpires : ((b.expiresAt.map (· / 1000)).map (· * 1000)).map (· / 1000) = b.expiresAt.map (· / 1000) := by
    cases b.expiresAt with
    | none => rfl
    | some =>
      simp only [map_some, some.injEq]
      omega
  unfold throughRedis deserialize
  rw [scope_serialize]
  simp only [serialize]
  rw [hexpires]

section Shows

variable (db : Database) (k : CacheKey)

def Shows (v : Seen SourcedBinding) : Prop :=
  v.bindings = db v.moment k.1 k.2 ∨ v.bindings = (db v.moment k.1 k.2).map throughRedis

def Stores (v : Seen SerializedBinding) : Prop :=
  v.bindings = (db v.moment k.1 k.2).map (serialize 1000)

end Shows

variable {db : Database} {k : CacheKey} {s s' : Shared}

theorem Shows.serialize {v : Seen SourcedBinding} (h : Shows db k v) : Stores db k (v.map (serialize 1000)) := by
  rcases h with h | h
  . simp [Stores, Seen.map, h]
  . simp [Stores, Seen.map, h, Function.comp_def, serialize_throughRedis]

theorem Stores.deserialize {v : Seen SerializedBinding} (h : Stores db k v) :
    Shows db k (v.map (deserialize 1000)) := by
  right
  simp [Seen.map, h.trans rfl, throughRedis, Function.comp_def]

structure Sound (db : Database) (s : Shared) : Prop where
  l1 : ∀ k e, s.l1 k = some e → s.l1Cleared k ≤ e.value.moment ∧ e.value.moment ≤ s.moment ∧ Shows db k e.value
  l2 : ∀ k e, s.l2 k = some e → s.l2Cleared k ≤ e.value.moment ∧ e.value.moment ≤ s.moment ∧ Stores db k e.value
  l1Cleared : ∀ k, s.l1Cleared k ≤ s.moment
  l2Cleared : ∀ k, s.l2Cleared k ≤ s.moment

structure Onward (s s' : Shared) : Prop where
  moment : s.moment ≤ s'.moment
  l1Cleared : ∀ k, s.l1Cleared k ≤ s'.l1Cleared k
  l2Cleared : ∀ k, s.l2Cleared k ≤ s'.l2Cleared k

theorem Onward.refl (s : Shared) : Onward s s :=
  ⟨le_refl _, fun _ => le_refl _, fun _ => le_refl _⟩

theorem Onward.trans {s s' s'' : Shared} (h : Onward s s') (h' : Onward s' s'') : Onward s s'' where
  moment := le_trans h.moment h'.moment
  l1Cleared k := le_trans (h.l1Cleared k) (h'.l1Cleared k)
  l2Cleared k := le_trans (h.l2Cleared k) (h'.l2Cleared k)

theorem Onward.of_eq (hmoment : s.moment ≤ s'.moment) (hl1Cleared : s'.l1Cleared = s.l1Cleared)
    (hl2Cleared : s'.l2Cleared = s.l2Cleared) : Onward s s' := by
  refine ⟨hmoment, ?_, ?_⟩
  . intro k
    rw [hl1Cleared]
    exact le_refl _
  . intro k
    rw [hl2Cleared]
    exact le_refl _

theorem Onward.deliver {α : Type} {reply : Option α} (h : Onward s s') : Onward s (s.deliver reply s').2 := by
  unfold Shared.deliver
  split
  . exact h
  . exact ⟨h.moment, h.l1Cleared, h.l2Cleared⟩
  . exact .of_eq (le_refl _) rfl rfl
  . exact ⟨h.moment, h.l1Cleared, h.l2Cleared⟩

def Guarantees (db : Database) {β : Type} (c : CacheCmd β) (s : Shared) : Prop :=
  match c with
  | .l1Store k v _ => Shows db k v ∧ v.moment ≤ s.moment
  | .set k v _ => Stores db k v ∧ v.moment ≤ s.moment
  | _ => True

namespace Sound

theorem start (now : Int) (faults : List Fault) : Sound db (.start now faults) where
  l1 := by simp [Shared.start, Redis.Store.empty]
  l2 := by simp [Shared.start, Redis.Store.empty]
  l1Cleared _ := le_refl _
  l2Cleared _ := le_refl _

section

variable (h : Sound db s)

include h

theorem of_le (hmoment : s.moment ≤ s'.moment) (hl1 : ∀ k e, s'.l1 k = some e → s.l1 k = some e)
    (hl2 : ∀ k e, s'.l2 k = some e → s.l2 k = some e) (hl1Cleared : s'.l1Cleared = s.l1Cleared)
    (hl2Cleared : s'.l2Cleared = s.l2Cleared) : Sound db s' ∧ Onward s s' := by
  refine ⟨⟨?_, ?_, ?_, ?_⟩, .of_eq hmoment hl1Cleared hl2Cleared⟩
  . intro k e he
    rcases h.l1 k e (hl1 k e he) with ⟨hcleared, hle, hshows⟩
    exact ⟨hl1Cleared ▸ hcleared, le_trans hle hmoment, hshows⟩
  . intro k e he
    rcases h.l2 k e (hl2 k e he) with ⟨hcleared, hle, hstores⟩
    exact ⟨hl2Cleared ▸ hcleared, le_trans hle hmoment, hstores⟩
  . intro k
    rw [hl1Cleared]
    exact le_trans (h.l1Cleared k) hmoment
  . intro k
    rw [hl2Cleared]
    exact le_trans (h.l2Cleared k) hmoment

theorem advance (ms : Nat) : Sound db (s.advance ms) ∧ Onward s (s.advance ms) := by
  apply h.of_le
  . refine ⟨Nat.le_refl _, ?_⟩
    simp only [Shared.moment, Shared.advance]
    omega
  . exact fun _ _ he => he
  . exact fun _ _ he => he
  . rfl
  . rfl

theorem deliver {α : Type} {reply : Option α} (h' : Sound db s') : Sound db (s.deliver reply s').2 := by
  unfold Shared.deliver
  split
  . exact h'
  . exact ⟨h'.l1, h'.l2, h'.l1Cleared, h'.l2Cleared⟩
  . exact ⟨h.l1, h.l2, h.l1Cleared, h.l2Cleared⟩
  . exact ⟨h'.l1, h'.l2, h'.l1Cleared, h'.l2Cleared⟩

theorem l1Delete (k : CacheKey) :
    Sound db (Shared.step db (.l1Delete k) s).2 ∧ Onward s (Shared.step db (.l1Delete k) s).2 := by
  refine ⟨⟨?_, h.l2, ?_, h.l2Cleared⟩, le_refl _, ?_, fun _ => le_refl _⟩
  . intro k' e he
    have hold := h.l1 k' e (eq_of_del_eq_some he)
    have hne : k' ≠ k := by
      rintro rfl
      simp [Shared.step, Shared.l1Delete, Redis.Store.del] at he
    simp only [Shared.step, if_neg hne]
    exact hold
  . intro k'
    simp only [Shared.step]
    split
    . exact le_refl _
    . exact h.l1Cleared k'
  . intro k'
    simp only [Shared.step]
    split
    . exact h.l1Cleared k'
    . exact le_refl _

theorem l2Delete (k : CacheKey) : Sound db (step db (.del k) s).2 ∧ Onward s (step db (.del k) s).2 := by
  refine ⟨h.deliver ⟨h.l1, ?_, h.l1Cleared, ?_⟩, .deliver ⟨le_refl _, fun _ => le_refl _, ?_⟩⟩
  . intro k' e he
    have hold := h.l2 k' e (eq_of_del_eq_some he)
    have hne : k' ≠ k := by
      rintro rfl
      simp [Redis.Store.del] at he
    simp only [if_neg hne]
    exact hold
  . intro k'
    dsimp only
    split
    . exact le_refl _
    . exact h.l2Cleared k'
  . intro k'
    dsimp only
    split
    . exact h.l2Cleared k'
    . exact le_refl _

theorem step {β : Type} {c : CacheCmd β} (hc : Guarantees db c s) (hnew : s.upToDate c = true) :
    Sound db (Shared.step db c s).2 := by
  cases c with
  | now | l1Load => exact h
  | l1Store =>
    refine ⟨?_, h.l2, h.l1Cleared, h.l2Cleared⟩
    intro k' e he
    rcases eq_of_set_eq_some he with ⟨rfl, rfl⟩ | hold
    . exact ⟨of_decide_eq_true hnew, hc.2, hc.1⟩
    . exact h.l1 k' e hold
  | l1Delete k => exact (h.l1Delete k).1
  | l1Clear =>
    refine ⟨?_, h.l2, h.l1Cleared, h.l2Cleared⟩
    intro k e he
    cases he
  | get | bindings => exact h.deliver h
  | set =>
    refine h.deliver ⟨h.l1, ?_, h.l1Cleared, h.l2Cleared⟩
    intro k' e he
    rcases eq_of_set_eq_some he with ⟨rfl, rfl⟩ | hold
    . exact ⟨of_decide_eq_true hnew, hc.2, hc.1⟩
    . exact h.l2 k' e hold
  | del k => exact (h.l2Delete k).1
  | unlink =>
    refine h.deliver ⟨h.l1, ?_, h.l1Cleared, h.l2Cleared⟩
    intro k e he
    dsimp only at he
    split at he
    . contradiction
    . exact h.l2 k e he
  | publish => exact h.deliver ⟨h.l1, h.l2, h.l1Cleared, h.l2Cleared⟩
  | commit =>
    have hmoment : s.moment ≤ (Shared.step db .commit s).2.moment := ⟨Nat.le_succ _, Int.le_refl _⟩
    exact (h.of_le hmoment (fun _ _ he => he) (fun _ _ he => he) rfl rfl).1

end

theorem onward {β : Type} (c : CacheCmd β) (h : Sound db s) : Onward s (Shared.step db c s).2 := by
  have hsame : s.moment ≤ s.moment := le_refl _
  cases c with
  | l1Delete k => exact (h.l1Delete k).2
  | del k => exact (h.l2Delete k).2
  | commit => exact .of_eq ⟨Nat.le_succ _, Int.le_refl _⟩ rfl rfl
  | get | bindings => exact .deliver (.refl s)
  | set | unlink | publish => exact .deliver (.of_eq hsame rfl rfl)
  | _ => exact .of_eq hsame rfl rfl

theorem run {β : Type} {c : CacheCmd β} (h : Sound db s) (hc : Guarantees db c s) (hnew : s.upToDate c = true)
    (paused : Bool) (delay : Nat) :
    Sound db ((Shared.semantics db).run paused delay c s).2 ∧ Onward s
        ((Shared.semantics db).run paused delay c s).2 := by
  unfold Semantics.run
  split
  . rcases h.advance delay with ⟨h', honward⟩
    have hc' : Guarantees db c (s.advance delay) := by
      cases c with
      | l1Store | set => exact ⟨hc.1, le_trans hc.2 honward.moment⟩
      | _ => trivial
    have hnew' : (s.advance delay).upToDate c = true := by
      cases c <;> exact hnew
    exact ⟨h'.step hc' hnew', honward.trans (h'.onward c)⟩
  . exact ⟨h.step hc hnew, h.onward c⟩

end Sound

theorem Shared.deliver_eq_some {α : Type} {reply : Option α} {a : α} (h : (s.deliver reply s').1 = some a) :
    reply = some a ∧ ∃ faults, (s.deliver reply s').2 = { s' with faults } := by
  unfold deliver at *
  split at h
  . exact ⟨h, s'.faults, rfl⟩
  . exact ⟨h, _, rfl⟩
  . contradiction
  . contradiction

variable {c : CachedBindingProvider} {n : Moment}

def Past (c : CachedBindingProvider) (n : Moment) (k : CacheKey) (s : Shared) : Prop :=
  n ≤ s.l1Cleared k ∧ (c.rdb = true → n ≤ s.l2Cleared k)

theorem Past.onward (h : Past c n k s) (honward : Onward s s') : Past c n k s' := by
  refine ⟨le_trans h.1 (honward.l1Cleared k), ?_⟩
  intro hrdb
  exact le_trans (h.2 hrdb) (honward.l2Cleared k)

structure Fresh (db : Database) (n : Moment) (k : CacheKey) (v : Seen SourcedBinding) (s : Shared) : Prop where
  since : n ≤ v.moment
  reached : v.moment ≤ s.moment
  shows : Shows db k v

theorem Fresh.onward {v : Seen SourcedBinding} (h : Fresh db n k v s) (honward : Onward s s') : Fresh db n k v s' :=
  ⟨h.since, le_trans h.reached honward.moment, h.shows⟩

abbrev Behaves (db : Database) {α : Type} (p : CacheOp α) (Q : α → Shared → Prop) (s : Shared) : Prop :=
  p.Rely (semantics db) (Sound db) Onward (Guarantees db) Q s

def Reads (db : Database) (c : CachedBindingProvider) (n : Moment) (k : CacheKey) (reply : Option (Seen SourcedBinding))
    (s : Shared) : Prop :=
  Past c n k s ∧ ∀ v, reply = some v → Fresh db n k v s

theorem Reads.onward {reply : Option (Seen SourcedBinding)} (h : Reads db c n k reply s) (honward : Onward s s') :
    Reads db c n k reply s' := by
  refine ⟨h.1.onward honward, ?_⟩
  intro v hv
  exact (h.2 v hv).onward honward

theorem behaves_pure {α : Type} {a : α} {Q : α → Shared → Prop} (h : Q a s)
    (hQ : ∀ s s', Q a s → Onward s s' → Q a s') : Behaves db (pure a) Q s := by
  apply rely_pure
  intro s' honward _
  exact hQ s s' h honward

theorem behaves_call {α β : Type} {cmd : CacheCmd α} {f : α → CacheOp β} {Q : β → Shared → Prop}
    (h : ∀ s', Onward s s' → Sound db s' → Guarantees db cmd s'
      ∧ (Onward s' (Shared.step db cmd s').2 → Behaves db (f (Shared.step db cmd s').1) Q (Shared.step db cmd s').2)) :
    Behaves db (call cmd >>= f) Q s := by
  apply rely_call
  intro s' honward hsound
  refine ⟨(h s' honward hsound).1, ?_⟩
  intro delay
  rcases hsound.advance delay with ⟨hsound', honward'⟩
  exact (h _ (honward.trans honward') hsound').2 (hsound'.onward cmd)

theorem l1Get_behaves (h : Past c n k s) : Behaves db (l1Get k) (Reads db c n k) s := by
  unfold l1Get
  apply behaves_call
  intro s1 h1 hsound
  refine ⟨trivial, ?_⟩
  intro _
  have hpast := h.onward h1
  split
  . apply behaves_pure _ (fun _ _ => Reads.onward)
    exact ⟨hpast, by simp⟩
  next e he =>
  rcases hsound.l1 k e he with ⟨hcleared, hreached, hshows⟩
  have hfresh : Fresh db n k e.value s1 := ⟨le_trans hpast.1 hcleared, hreached, hshows⟩
  apply behaves_call
  intro s2 h2 _
  refine ⟨trivial, ?_⟩
  intro _
  apply behaves_pure _ (fun _ _ => Reads.onward)
  refine ⟨hpast.onward h2, ?_⟩
  intro v hv
  split at hv
  . cases hv
    exact hfresh.onward h2
  . contradiction

theorem l2Get_behaves (h : Past c n k s) (hrdb : c.rdb = true) : Behaves db (l2Get k) (Reads db c n k) s := by
  unfold l2Get
  apply behaves_call
  intro s1 h1 hsound
  refine ⟨trivial, ?_⟩
  intro honward
  have hpast := h.onward h1
  split
  . next v hv =>
    have hget := (deliver_eq_some hv).1
    rcases eq_some_of_get_eq_some (some.inj hget) with ⟨e, he, rfl⟩
    rcases hsound.l2 k e he with ⟨hcleared, hreached, hstores⟩
    apply behaves_pure _ (fun _ _ => Reads.onward)
    refine ⟨hpast.onward honward, ?_⟩
    rintro v ⟨⟩
    exact ⟨le_trans (hpast.2 hrdb) hcleared, le_trans hreached honward.moment, hstores.deserialize⟩
  . apply behaves_pure _ (fun _ _ => Reads.onward)
    exact ⟨hpast.onward honward, by simp⟩

section Write

variable {α : Type} {v : Seen SourcedBinding} {f : Unit → CacheOp α} {Q : α → Shared → Prop}

section

variable (h : Reads db c n k (some v) s) (hf : ∀ s', Reads db c n k (some v) s' → Behaves db (f ()) Q s')

include h hf

theorem l1Set_behaves : Behaves db (c.l1Set k v >>= f) Q s := by
  unfold l1Set
  apply behaves_call
  intro s1 h1 _
  have hfresh := (h.onward h1).2 v rfl
  refine ⟨⟨hfresh.shows, hfresh.reached⟩, ?_⟩
  intro honward
  apply hf
  exact (h.onward h1).onward honward

theorem l2Set_behaves : Behaves db (c.l2Set k v >>= f) Q s := by
  apply bind Onward.refl
  unfold l2Set
  apply behaves_call
  intro s1 h1 _
  have hfresh := (h.onward h1).2 v rfl
  refine ⟨⟨hfresh.shows.serialize, hfresh.reached⟩, ?_⟩
  intro honward
  apply rely_pure
  intro s2 h2 _
  apply hf
  exact ((h.onward h1).onward honward).onward h2

end

end Write

variable {tenantID userID : Int64}

theorem load_behaves (h : Past c n (cacheKey tenantID userID) s) :
    Behaves db (c.load tenantID userID) (Reads db c n (cacheKey tenantID userID)) s := by
  unfold load
  apply behaves_call
  intro s1 h1 hsound
  refine ⟨trivial, ?_⟩
  intro honward
  have hpast := h.onward h1
  split
  . apply behaves_pure _ (fun _ _ => Reads.onward)
    exact ⟨hpast.onward honward, by simp⟩
  next v hv =>
  cases (deliver_eq_some hv).1
  have hreads : Reads db c n (cacheKey tenantID userID) (some ⟨db s1.moment tenantID userID, s1.moment⟩) s1 := by
    refine ⟨hpast, ?_⟩
    rintro v ⟨⟩
    exact ⟨le_trans hpast.1 (hsound.l1Cleared _), le_refl _, .inl rfl⟩
  apply l1Set_behaves (hreads.onward honward)
  intro s2 hreads2
  split
  . apply l2Set_behaves hreads2
    intro s3 hreads3
    exact behaves_pure hreads3 (fun _ _ => Reads.onward)
  . exact behaves_pure hreads2 (fun _ _ => Reads.onward)

theorem effectiveBindingsForUser_behaves (h : Past c n (cacheKey tenantID userID) s) :
    Behaves db (c.effectiveBindingsForUser tenantID userID) (Reads db c n (cacheKey tenantID userID)) s := by
  unfold effectiveBindingsForUser
  apply bind Onward.refl
  apply (l1Get_behaves h).mono
  intro reply s1 hreads
  split
  . exact behaves_pure hreads (fun _ _ => Reads.onward)
  split
  . next hrdb =>
    apply bind Onward.refl
    apply (l2Get_behaves hreads.1 hrdb).mono
    intro reply s2 hreads2
    split
    . apply l1Set_behaves hreads2
      intro s3 hreads3
      exact behaves_pure hreads3 (fun _ _ => Reads.onward)
    . apply load_behaves hreads2.1
  . apply load_behaves hreads.1

theorem invalidate_behaves (h : n ≤ s.moment) :
    Behaves db (c.invalidate tenantID userID)
      (fun reply s' => reply = .ok () → Past c n (cacheKey tenantID userID) s') s := by
  unfold invalidate
  apply behaves_call
  intro s1 h1 _
  refine ⟨trivial, ?_⟩
  intro honward
  have hl1 : n ≤ (step db (.l1Delete (cacheKey tenantID userID)) s1).2.l1Cleared (cacheKey tenantID userID) := by
    simp only [step, if_true]
    exact le_trans h h1.moment
  have hmoment := le_trans (le_trans h h1.moment) honward.moment
  split
  . apply behaves_call
    intro s2 h2 _
    refine ⟨trivial, ?_⟩
    intro honward2
    split
    . apply rely_pure
      intro _ _ _ hreply
      contradiction
    . next hdel =>
      rcases (deliver_eq_some hdel).2 with ⟨faults, hs2⟩
      have hpast : Past c n (cacheKey tenantID userID) (step db (.del (cacheKey tenantID userID)) s2).2 := by
        refine ⟨?_, ?_⟩
        . exact le_trans hl1 ((h2.trans honward2).l1Cleared _)
        intro _
        rw [step, hs2]
        simp only [if_true]
        exact le_trans hmoment h2.moment
      apply behaves_call
      intro s3 h3 _
      refine ⟨trivial, ?_⟩
      intro honward3
      split
      . apply rely_pure
        intro _ _ _ hreply
        contradiction
      . apply rely_pure
        intro s4 h4 _ _
        exact ((hpast.onward h3).onward honward3).onward h4
  . next hrdb =>
    apply rely_pure
    intro s2 h2 _ _
    exact ⟨le_trans hl1 (h2.l1Cleared _), fun h => absurd h hrdb⟩

def Ends (c : CachedBindingProvider) (call : Option CacheCall) (r : CacheResult) (s : Shared) : Prop :=
  ∀ tenantID userID moment, call = some (.change tenantID userID) → r = .changed moment (.ok ()) →
    Past c moment (cacheKey tenantID userID) s

theorem purgeL2_behaves (batches : List (List CacheKey)) (s : Shared) :
    Behaves db (purgeL2 batches) (fun _ _ => True) s := by
  unfold purgeL2
  induction batches generalizing s with
  | nil =>
    apply rely_pure
    intros
    trivial
  | cons ks batches ih =>
    apply bind Onward.refl
    apply behaves_call
    intro s1 _ _
    refine ⟨trivial, ?_⟩
    intro _
    apply rely_pure
    intro s2 _ _
    apply ih

theorem invalidateAll_behaves (s : Shared) : Behaves db c.invalidateAll (fun _ _ => True) s := by
  have hpure : ∀ (reply : Except String Unit) s, Behaves db (pure reply) (fun _ _ => True) s := by
    intro reply s
    apply rely_pure
    intros
    trivial
  unfold invalidateAll
  apply behaves_call
  intro s1 _ _
  refine ⟨trivial, ?_⟩
  intro _
  split
  . apply behaves_call
    intro s2 _ _
    refine ⟨trivial, ?_⟩
    intro _
    split
    . apply hpure
    . apply hpure
  . apply hpure

theorem prog_behaves (call : CacheCall) {now : Int} {faults : List Fault} :
    Behaves db (call.prog c) (Ends c (some call)) (.start now faults) := by
  cases call with
  | read tenantID userID =>
    apply bind Onward.refl
    have hpast : Past c ⟨0, now⟩ (cacheKey tenantID userID) (.start now faults) :=
      ⟨le_refl _, fun _ => le_refl _⟩
    apply (effectiveBindingsForUser_behaves hpast).mono
    intro reply s _
    apply rely_pure
    intro _ _ _ _ _ _ hcall
    cases hcall
  | change =>
    apply behaves_call
    intro s1 _ _
    refine ⟨trivial, ?_⟩
    intro _
    apply bind Onward.refl
    apply (invalidate_behaves (le_refl _)).mono
    intro reply s2 hpast
    apply rely_pure
    rintro s3 h3 _ _ _ moment ⟨⟩ ⟨⟩
    exact (hpast rfl).onward h3
  | invalidateAll =>
    apply bind Onward.refl
    apply (invalidateAll_behaves _).mono
    intro reply s _
    apply rely_pure
    intro _ _ _ _ _ _ hcall
    cases hcall
  | purgeL2 batches =>
    apply bind Onward.refl
    apply (purgeL2_behaves batches _).mono
    intro reply s _
    apply rely_pure
    intro _ _ _ _ _ _ hcall
    cases hcall

theorem Sound.channel {p p' : Pod} {a : PodAction} (h : Sound db p.shared) (ha : ∀ i ms, a ≠ .turn i ms)
    (hstep : p.step db a = some p') : Sound db p'.shared ∧ Onward p.shared p'.shared ∧ p'.threads = p.threads := by
  unfold Pod.step at hstep
  split at hstep
  . next i ms => exact absurd rfl (ha i ms)
  . split at hstep
    . contradiction
    next msg channel _ =>
    cases hstep
    cases msg with
    | all =>
      refine ⟨⟨?_, h.l2, h.l1Cleared, h.l2Cleared⟩, .of_eq (le_refl _) rfl rfl, rfl⟩
      intro k e he
      cases he
    | key =>
      refine ⟨⟨?_, h.l2, h.l1Cleared, h.l2Cleared⟩, .of_eq (le_refl _) rfl rfl, rfl⟩
      intro k' e he
      exact h.l1 k' e (eq_of_del_eq_some he)
  . split at hstep
    . contradiction
    next msg channel _ =>
    cases hstep
    exact ⟨⟨h.l1, h.l2, h.l1Cleared, h.l2Cleared⟩, .of_eq (le_refl _) rfl rfl, rfl⟩

theorem behaves_run {Q : Nat → CacheResult → Shared → Prop} {p p' : Pod} {acts : List PodAction}
    (run : Run (Pod.step db) (fun p a => p.upToDate a = true) p acts p') (hsound : Sound db p.shared)
    (hthreads : ∀ (i : Nat) (t : CacheOp CacheResult), p.threads[i]? = some t → Behaves db t (Q i) p.shared) :
    Sound db p'.shared
      ∧ ∀ (i : Nat) (t : CacheOp CacheResult), p'.threads[i]? = some t → Behaves db t (Q i) p'.shared := by
  apply run.invariant (I := fun p => Sound db p.shared
    ∧ ∀ (i : Nat) (t : CacheOp CacheResult), p.threads[i]? = some t → Behaves db t (Q i) p.shared)
  . exact ⟨hsound, hthreads⟩
  rintro p a p' ⟨hsound, hthreads⟩ hnew hstep
  by_cases ha : ∃ i ms, a = .turn i ms
  . rcases ha with ⟨i, ms, rfl⟩
    have hturn : Pool.step (semantics db) p (i, ms) = some p' := hstep
    rcases Pool.step_eq_some hturn with ⟨β, paused, cmd, cont, hthread, hshared, _⟩
    have hcmd : Guarantees db cmd p.shared := (hthreads i _ hthread p.shared (.refl _) hsound).1
    have hnew' : p.shared.upToDate cmd = true := by
      simp only [Pod.upToDate, hthread] at hnew
      exact hnew
    rcases hsound.run hcmd hnew' paused ms with ⟨hsound', honward⟩
    rw [← hshared] at hsound' honward
    exact ⟨hsound', Pool.rely_step Onward.refl Onward.trans hsound hthreads honward hturn⟩
  . rcases hsound.channel (fun i ms h => ha ⟨i, ms, h⟩) hstep with ⟨hsound', honward, hsame⟩
    refine ⟨hsound', ?_⟩
    intro i t ht
    rw [hsame] at ht
    exact (hthreads i t ht).later Onward.trans honward

/--
If bindings that an invalidation has overtaken are not written into a level, then a call that begins after an
invalidation yields bindings that the database had at some moment since the change before it.
-/
theorem bindings_fresh_after_invalidation (db : Database) (c : CachedBindingProvider) (now : Int)
    (faults : List Fault) (calls : List CacheCall) (acts : List PodAction) (p : Pod)
    (run : Run (Pod.step db) (fun p a => p.upToDate a = true) (Pod.start c now faults calls) acts p)
    (tenantID userID : Int64) (i : Nat) (hchange : calls[i]? = some (.change tenantID userID))
    (moment : Moment) (hresult : p.result i = some (.changed moment (.ok ())))
    (j : Nat) (hread : p.threads[j]? = some (CacheCall.prog c (.read tenantID userID)))
    (acts' : List PodAction) (p' : Pod)
    (run' : Run (Pod.step db) (fun p a => p.upToDate a = true) p acts' p')
    (v : Seen SourcedBinding) (hv : p'.result j = some (.bindings (some v))) :
    moment ≤ v.moment ∧ v.moment ≤ p'.shared.moment
      ∧ (v.bindings = db v.moment tenantID userID ∨ v.bindings = (db v.moment tenantID userID).map throughRedis)
      ∧ ((∀ b ∈ db v.moment tenantID userID, b.WholeSeconds) → v.bindings = db v.moment tenantID userID) := by
  have hstart : ∀ (i : Nat) (t : CacheOp CacheResult), (Pod.start c now faults calls).threads[i]? = some t →
      Behaves db t (Ends c calls[i]?) (.start now faults) := by
    intro i t ht
    simp only [Pod.start, List.getElem?_map, map_eq_some_iff] at ht
    rcases ht with ⟨call, hcall, rfl⟩
    rw [hcall]
    apply prog_behaves
  rcases behaves_run run (.start now faults) hstart with ⟨hsound, hthreads⟩
  have hpast : Past c moment (cacheKey tenantID userID) p.shared :=
    hthreads i _ (Pool.result_eq_some hresult) p.shared (.refl _) hsound tenantID userID moment hchange rfl
  -- from here on only the call that begins now is followed
  have hthreads' : ∀ (i : Nat) (t : CacheOp CacheResult), p.threads[i]? = some t →
      Behaves db t (fun r s => i = j → ∀ v, r = .bindings (some v) → Fresh db moment (cacheKey tenantID userID) v s)
        p.shared := by
    intro i t ht
    by_cases hi : i = j
    . subst hi
      rw [hread] at ht
      cases ht
      apply bind Onward.refl
      apply (effectiveBindingsForUser_behaves hpast).mono
      intro reply s hreads
      apply rely_pure
      rintro s' honward _ _ v ⟨⟩
      exact (hreads.2 v rfl).onward honward
    . apply (hthreads i t ht).mono
      intro _ _ _ heq
      exact absurd heq hi
  rcases behaves_run run' hsound hthreads' with ⟨hsound', hthreads''⟩
  have hfresh := hthreads'' j _ (Pool.result_eq_some hv) p'.shared (.refl _) hsound' rfl v rfl
  refine ⟨hfresh.since, hfresh.reached, hfresh.shows, ?_⟩
  intro hwhole
  rcases hfresh.shows with h | h
  . exact h
  . rw [h]
    apply (List.map_congr_left fun b hb => throughRedis_eq_self (hwhole b hb)).trans (List.map_id _)

/-!
A role is taken from a user while a request of theirs has just read it.
-/

namespace RevokedRole

def admin : SourcedBinding where
  roleID := 2
  permissions := ["user.write"]
  scope := .global
  expiresAt := none
  source := "direct"
  sourceID := 7

def roles : Database := fun m _ _ => if m.version = 0 then [admin] else []

def provider : CachedBindingProvider := ⟨true, 60000, 300000⟩

def calls : List CacheCall := [.read 1 7, .change 1 7, .read 1 7]

def start : Pod := Pod.start provider 0 [] calls

def turns (i n : Nat) : List PodAction := List.replicate n (.turn i 1)

def before : List PodAction := turns 0 3 ++ turns 1 4 ++ [.deliver]

def after : List PodAction := turns 0 2 ++ turns 2 2

abbrev exec (allowed : Pod → PodAction → Bool) (p : Pod) (acts : List PodAction) : Option Pod :=
  Run.exec (Pod.step roles) (fun p a => allowed p a = true) p acts

theorem before_isSome : (exec (fun _ _ => true) start before).isSome = true := by
  decide

def revoked : Pod := (exec (fun _ _ => true) start before).get before_isSome

theorem after_isSome : (exec (fun _ _ => true) revoked after).isSome = true := by
  decide

def answered : Pod := (exec (fun _ _ => true) revoked after).get after_isSome

theorem revoked_role_returned :
    Run (Pod.step roles) (fun _ _ => True) start before revoked
      ∧ revoked.result 1 = some (.changed ⟨1, 4⟩ (.ok ()))
      ∧ revoked.threads[2]? = some (CacheCall.prog provider (.read 1 7))
      ∧ Run (Pod.step roles) (fun _ _ => True) revoked after answered
      ∧ answered.result 2 = some (.bindings (some ⟨[admin], ⟨0, 3⟩⟩))
      ∧ ∀ m : Moment, ⟨1, 4⟩ ≤ m → [admin] ≠ roles m 1 7 ∧ [admin] ≠ (roles m 1 7).map throughRedis := by
  refine ⟨(Run.of_isSome before_isSome).free, by decide, rfl,
    (Run.of_isSome after_isSome).free, by decide, ?_⟩
  intro m hm
  have hversion : m.version ≠ 0 := by
    have : 1 ≤ m.version := hm.1
    omega
  simp [roles, hversion]

def inOrder : List PodAction := turns 0 5 ++ turns 1 4

theorem inOrder_isSome : (exec Pod.upToDate start inOrder).isSome = true := by
  decide

def changed : Pod := (exec Pod.upToDate start inOrder).get inOrder_isSome

theorem reread_isSome : (exec Pod.upToDate changed (turns 2 5)).isSome = true := by
  decide

def reread : Pod := (exec Pod.upToDate changed (turns 2 5)).get reread_isSome

theorem revoked_role_not_returned :
    reread.result 2 = some (.bindings (some ⟨[], ⟨1, 12⟩⟩))
      ∧ (⟨1, 6⟩ : Moment) ≤ ⟨1, 12⟩ ∧ ([] : List SourcedBinding) = roles ⟨1, 12⟩ 1 7 :=
  have h := bindings_fresh_after_invalidation roles provider 0 [] calls inOrder changed
    (Run.of_isSome inOrder_isSome) 1 7 1 rfl ⟨1, 6⟩ (by decide) 2 rfl (turns 2 5) reread
    (Run.of_isSome reread_isSome) ⟨[], ⟨1, 12⟩⟩ (by decide)
  ⟨by decide, h.1, h.2.2.2 (by simp [roles])⟩

end RevokedRole

end Mxid.Authz
