import Mathlib.Data.Option.Basic

/-!
This module contains a keyspace whose keys expire. A key that is past its time to live is kept but no command sees it.
-/

namespace Redis

open Option

structure Entry (ν : Type) where
  value : ν
  expireAt : Option Int

def Entry.live (now : Int) (e : Entry ν) : Bool :=
  match e.expireAt with
  | none => true
  | some t => now ≤ t

theorem Entry.live_mono {now now' : Int} {e : Entry ν} (h : now ≤ now') (hlive : e.live now' = true) :
    e.live now = true := by
  unfold live at *
  split at hlive
  . rfl
  . simp only [decide_eq_true_eq] at *
    omega

def Store (κ ν : Type) : Type := κ → Option (Entry ν)

namespace Store

variable {κ ν : Type}

def empty : Store κ ν := fun _ => none

def lookup (s : Store κ ν) (now : Int) (k : κ) : Option (Entry ν) :=
  (s k).filter (Entry.live now)

@[simp]
theorem lookup_empty (now : Int) (k : κ) : (empty : Store κ ν).lookup now k = none := by
  rfl

variable {s : Store κ ν} {now now' : Int} {k : κ} {e : Entry ν} {value : ν} {expireAt : Option Int}

theorem lookup_eq_some_iff : s.lookup now k = some e ↔ s k = some e ∧ e.live now = true := by
  simp only [lookup, filter_eq_some_iff]

theorem lookup_mono (h : now ≤ now') (hlookup : s.lookup now' k = some e) : s.lookup now k = some e := by
  rw [lookup_eq_some_iff] at *
  exact ⟨hlookup.1, Entry.live_mono h hlookup.2⟩

theorem lookup_stays (h : now ≤ now') (hlookup : (s.lookup now k).isSome → (s.lookup now' k).isSome) :
    s.lookup now' k = s.lookup now k := by
  cases hnow : s.lookup now k with
  | none =>
    rw [eq_none_iff_forall_ne_some]
    intro e he
    rw [lookup_mono h he] at hnow
    contradiction
  | some e =>
    rcases isSome_iff_exists.mp (hlookup (by rw [hnow]; rfl)) with ⟨e', he'⟩
    rw [← hnow, he', lookup_mono h he']

def get (s : Store κ ν) (now : Int) (k : κ) : Option ν :=
  (s.lookup now k).map Entry.value

theorem eq_some_of_get_eq_some (h : s.get now k = some value) : ∃ e, s k = some e ∧ e.value = value := by
  simp only [get, map_eq_some_iff, lookup_eq_some_iff] at h
  rcases h with ⟨e, ⟨he, _⟩, hvalue⟩
  exact ⟨e, he, hvalue⟩

def pttl (s : Store κ ν) (now : Int) (k : κ) : Int :=
  match s.lookup now k with
  | none => -2
  | some e =>
    match e.expireAt with
    | none => -1
    | some t => t - now

def ttl (s : Store κ ν) (now : Int) (k : κ) : Int :=
  if s.pttl now k < 0 then
    s.pttl now k
  else
    (s.pttl now k + 500) / 1000

def smembers {μ : Type} (s : Store κ (List μ)) (now : Int) (k : κ) : List μ :=
  (s.get now k).getD []

theorem mem_smembers {μ : Type} {s : Store κ (List μ)} {e : Entry (List μ)} {m : μ}
    (h : s k = some e) (hlive : e.live now = true) (hm : m ∈ e.value) : m ∈ s.smembers now k := by
  rw [smembers, get, lookup_eq_some_iff.mpr ⟨h, hlive⟩]
  exact hm

theorem eq_some_of_mem_smembers {μ : Type} {s : Store κ (List μ)} {m : μ}
    (h : m ∈ s.smembers now k) : ∃ e, s k = some e ∧ m ∈ e.value := by
  unfold smembers at h
  cases hget : s.get now k with
  | none => simp [hget] at h
  | some =>
    rcases eq_some_of_get_eq_some hget with ⟨e, he, rfl⟩
    rw [hget] at h
    exact ⟨e, he, h⟩

theorem lookup_of_mem_smembers {μ : Type} {s : Store κ (List μ)} {m : μ}
    (h : m ∈ s.smembers now k) : ∃ e, s.lookup now k = some e ∧ m ∈ e.value := by
  unfold smembers get at h
  cases hlookup : s.lookup now k with
  | none => simp [hlookup] at h
  | some e =>
    rw [hlookup] at h
    exact ⟨e, rfl, h⟩

theorem smembers_congr {μ : Type} {s s' : Store κ (List μ)} (h : s k = s' k) (now : Int) :
    s.smembers now k = s'.smembers now k := by
  unfold smembers get lookup
  rw [h]

theorem mem_smembers_mono {μ : Type} {s : Store κ (List μ)} {m : μ} (h : now ≤ now')
    (hm : m ∈ s.smembers now' k) : m ∈ s.smembers now k := by
  rcases lookup_of_mem_smembers hm with ⟨e, hlookup, hm⟩
  unfold smembers get
  rw [lookup_mono h hlookup]
  exact hm

variable [DecidableEq κ] (s now k value expireAt)

def set : Store κ ν :=
  fun k' => if k' = k then some ⟨value, expireAt⟩ else s k'

def del : Store κ ν :=
  fun k' => if k' = k then none else s k'

def getDel : Option ν × Store κ ν :=
  (s.get now k, s.del k)

def setNX : Store κ ν :=
  if (s.lookup now k).isSome then
    s
  else
    s.set k value expireAt

def pexpire (ttl : Int) : Store κ ν :=
  match s.lookup now k with
  | none => s
  | some e => s.set k e.value (some (now + ttl))

def expire (seconds : Int) : Store κ ν :=
  if seconds ≤ 0 then s.del k else s.pexpire now k (1000 * seconds)

variable {k' : κ} {s now k value expireAt}

theorem eq_of_set_eq_some
    (h : s.set k value expireAt k' = some e) : (k' = k ∧ e = ⟨value, expireAt⟩) ∨ s k' = some e := by
  unfold set at h
  split at h
  . next heq =>
    cases h
    exact .inl ⟨heq, rfl⟩
  . exact .inr h

theorem eq_of_del_eq_some (h : s.del k k' = some e) : s k' = some e := by
  unfold del at h
  split at h
  . contradiction
  . exact h

@[simp]
theorem set_self (s : Store κ ν) (k : κ) (value : ν) (expireAt : Option Int) :
    s.set k value expireAt k = some ⟨value, expireAt⟩ := by
  simp [set]

theorem set_of_ne (h : k' ≠ k) : s.set k value expireAt k' = s k' := by
  simp only [set, if_neg h]

theorem del_of_ne (h : k' ≠ k) : s.del k k' = s k' := by
  simp only [del, if_neg h]

theorem del_eq_self (h : s k = none) : s.del k = s := by
  funext k'
  unfold del
  split
  . next heq => rw [heq, h]
  . rfl

theorem setNX_of_ne (h : k' ≠ k) : s.setNX now k value expireAt k' = s k' := by
  unfold setNX
  split
  . rfl
  . apply set_of_ne h

theorem pexpire_of_ne {ttl : Int} (h : k' ≠ k) : s.pexpire now k ttl k' = s k' := by
  unfold pexpire
  cases s.lookup now k with
  | none => rfl
  | some => apply set_of_ne h

theorem map_value_pexpire {ttl : Int} : (s.pexpire now k ttl k').map Entry.value = (s k').map Entry.value := by
  by_cases h : k' = k
  . unfold pexpire
    cases hlookup : s.lookup now k with
    | none => rfl
    | some => simp [h, (lookup_eq_some_iff.mp hlookup).1]
  . rw [pexpire_of_ne h]

theorem lookup_set (s : Store κ ν) (now : Int) (k k' : κ) (value : ν) (expireAt : Option Int) :
    (s.set k value expireAt).lookup now k'
      =
    if k' = k then (some ⟨value, expireAt⟩ : Option (Entry ν)).filter (Entry.live now) else s.lookup now k' := by
  simp only [lookup, set]
  split <;> rfl

@[simp]
theorem lookup_set_self {t : Int} (h : now ≤ t) : (s.set k value (some t)).lookup now k = some ⟨value, some t⟩ := by
  rw [lookup_set, if_pos rfl]
  simp [Option.filter, Entry.live, h]

theorem lookup_del (s : Store κ ν) (now : Int) (k k' : κ) :
    (s.del k).lookup now k' = if k' = k then none else s.lookup now k' := by
  simp only [lookup, del]
  split <;> rfl

@[simp]
theorem lookup_del_self : (s.del k).lookup now k = none := by
  rw [lookup_del, if_pos rfl]

def incr (s : Store κ Int) (now : Int) (k : κ) : Int × Store κ Int :=
  match s.lookup now k with
  | none => (1, s.set k 1 none)
  | some e => (e.value + 1, s.set k (e.value + 1) e.expireAt)

theorem incr_fst (s : Store κ Int) (now : Int) (k : κ) : (s.incr now k).1 = (s.get now k).getD 0 + 1 := by
  unfold incr get
  cases s.lookup now k with
  | none | some => rfl

theorem incr_snd (s : Store κ Int) (now : Int) (k : κ) :
    (s.incr now k).2
      =
    s.set k ((s.get now k).getD 0 + 1) ((s.lookup now k).bind Entry.expireAt) := by
  unfold incr get
  cases s.lookup now k with
  | none | some => rfl

variable {μ : Type} [DecidableEq μ]

def sadd (s : Store κ (List μ)) (now : Int) (k : κ) (m : μ) : Store κ (List μ) :=
  s.set k ((s.smembers now k).insert m) ((s.lookup now k).bind Entry.expireAt)

def srem (s : Store κ (List μ)) (now : Int) (k : κ) (m : μ) : Store κ (List μ) :=
  match s.lookup now k with
  | none => s
  | some e =>
    if e.value.filter (fun m' => m' ≠ m) = [] then
      s.del k
    else
      s.set k (e.value.filter (fun m' => m' ≠ m)) e.expireAt

theorem sadd_pexpire_of_le {s : Store κ (List μ)} (m : μ) (ttl : Int)
    (h : ∀ e t, s.lookup now k = some e → e.expireAt = some t → now' ≤ t) :
    (s.sadd now k m).pexpire now' k ttl = s.set k ((s.smembers now k).insert m) (some (now' + ttl)) := by
  have hlookup : (s.sadd now k m).lookup now' k
      = some ⟨(s.smembers now k).insert m, (s.lookup now k).bind Entry.expireAt⟩ := by
    rw [lookup_eq_some_iff]
    refine ⟨by simp [sadd, set], ?_⟩
    unfold Entry.live
    split
    . rfl
    next t ht =>
    rcases bind_eq_some_iff.mp ht with ⟨e, he, het⟩
    exact decide_eq_true (h e t he het)
  rw [pexpire, hlookup]
  funext k'
  simp only [sadd, set]
  split <;> rfl

theorem sadd_pexpire (s : Store κ (List μ)) (now : Int) (k : κ) (m : μ) (ttl : Int) :
    (s.sadd now k m).pexpire now k ttl = s.set k ((s.smembers now k).insert m) (some (now + ttl)) := by
  apply sadd_pexpire_of_le
  intro e t he ht
  have hlive := (lookup_eq_some_iff.mp he).2
  rw [Entry.live, ht] at hlive
  exact of_decide_eq_true hlive

theorem sadd_expire (s : Store κ (List μ)) (now : Int) (k : κ) (m : μ) (seconds : Int) :
    (s.sadd now k m).expire now k seconds
      =
    if seconds ≤ 0 then s.del k
    else s.set k ((s.smembers now k).insert m) (some (now + 1000 * seconds)) := by
  unfold expire
  split
  . funext k'
    simp only [sadd, set, del]
    split <;> rfl
  . apply sadd_pexpire

theorem srem_eq_some {s : Store κ (List μ)} {m : μ} {e : Entry (List μ)} (h : s.srem now k m k' = some e) :
    ∃ e', s k' = some e' ∧ ∀ m' ∈ e.value, m' ∈ e'.value := by
  unfold srem at h
  cases hlookup : s.lookup now k with
  | none =>
    rw [hlookup] at h
    exact ⟨e, h, fun _ => id⟩
  | some e' =>
    rw [hlookup] at h
    dsimp only at h
    split at h
    . exact ⟨e, eq_of_del_eq_some h, fun _ => id⟩
    rcases eq_of_set_eq_some h with ⟨rfl, rfl⟩ | h
    . refine ⟨e', (lookup_eq_some_iff.mp hlookup).1, ?_⟩
      intro m' hm'
      exact (List.mem_filter.mp hm').1
    . exact ⟨e, h, fun _ => id⟩

theorem srem_of_ne {s : Store κ (List μ)} {m : μ} (h : k' ≠ k) : s.srem now k m k' = s k' := by
  unfold srem
  cases s.lookup now k with
  | none => rfl
  | some =>
    dsimp only
    split
    . apply del_of_ne h
    . apply set_of_ne h

theorem srem_of_mem {s : Store κ (List μ)} (now : Int) (k : κ) {m m' : μ} {e : Entry (List μ)} (h : s k' = some e)
    (hm' : m' ∈ e.value) (hne : m' ≠ m) : ∃ ms, s.srem now k m k' = some ⟨ms, e.expireAt⟩ ∧ m' ∈ ms := by
  unfold srem
  cases hlookup : s.lookup now k with
  | none => exact ⟨e.value, h, hm'⟩
  | some e' =>
    dsimp only
    by_cases hk : k' = k
    . subst hk
      have : e = e' := some.inj (h.symm.trans (lookup_eq_some_iff.mp hlookup).1)
      subst this
      have hmem : m' ∈ e.value.filter (fun m' => m' ≠ m) := by
        simp [hm', hne]
      rw [if_neg (List.ne_nil_of_mem hmem)]
      exact ⟨_, by simp [set], hmem⟩
    . split
      . exact ⟨e.value, by simp [del, hk, h], hm'⟩
      . exact ⟨e.value, by simp [set, hk, h], hm'⟩

omit [DecidableEq μ] in
theorem smembers_del_self (s : Store κ (List μ)) (now : Int) (k : κ) : (s.del k).smembers now k = [] := by
  unfold smembers get
  rw [lookup_del_self]
  rfl

omit [DecidableEq μ] in
theorem mem_smembers_set_self {s : Store κ (List μ)} {t : Int} {ms : List μ} {m : μ} :
    m ∈ (s.set k ms (some t)).smembers now k ↔ now ≤ t ∧ m ∈ ms := by
  unfold smembers get
  by_cases h : now ≤ t
  . simp [h]
  . rw [lookup_set, if_pos rfl]
    simp [Option.filter, Entry.live, h]

theorem mem_smembers_srem {s : Store κ (List μ)} (now : Int) (k : κ) {m m' : μ}
    (h : m' ∈ s.smembers now' k') (hne : m' ≠ m) : m' ∈ (s.srem now k m).smembers now' k' := by
  rcases lookup_of_mem_smembers h with ⟨e, hlookup, hm'⟩
  rw [lookup_eq_some_iff] at hlookup
  rcases srem_of_mem now k hlookup.1 hm' hne with ⟨ms, hms, hmem⟩
  exact mem_smembers hms hlookup.2 hmem

end Store

end Redis
