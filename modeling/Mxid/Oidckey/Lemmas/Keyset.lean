import Mxid.Oidckey.Impl.Keyset

/-!
This module contains the invariant of the keyset, with what operations guarantee and rely on.
-/

namespace Mxid.Oidckey

open List ProviderKey

open Transactions (Db Stmt Write Stable)

def ProviderKey.identity (k : ProviderKey) : ProviderKey := { k with status := .active }

variable {k : ProviderKey} {i : Nat} {β : Type} {c : Stmt ProviderKey Int β} {db : Keyset}

theorem ProviderKey.id_of_identity {k' : ProviderKey} (h : k.identity = k'.identity) : k.id = k'.id := by
  have hid := congrArg id h
  exact hid

theorem ProviderKey.expiresAt_of_identity {k' : ProviderKey} (h : k.identity = k'.identity) :
    k.expiresAt = k'.expiresAt := by
  have hexpiresAt := congrArg expiresAt h
  exact hexpiresAt

def Alive (rows : List ProviderKey) : Prop := rows = [] ∨ ∃ k ∈ rows, k.status = .active

def Aged (now : Int) (k : ProviderKey) : Prop := k.status = .retired → ∃ t, k.expiresAt = some t ∧ t < now

structure Inv (db : Keyset) : Prop where
  sound : db.Sound
  indexed : db.Indexed bothActive
  alive : Alive db.rows
  puts : ∀ i w, (i, w) ∈ db.pending → ∃ k, w = .put k
  same : ∀ i k, (i, .put k) ∈ db.pending → ∀ k₀ ∈ db.rows, k₀.id = k.id → k₀.identity = k.identity
  aged_rows : ∀ k ∈ db.rows, Aged db.now k
  aged_pending : ∀ i k, (i, .put k) ∈ db.pending → Aged db.now k

structure Onward (i : Nat) (db db' : Keyset) : Prop where
  keeps : Db.Keeps i db db'
  persists : ∀ k ∈ db.rows, ∃ k' ∈ db'.rows, k'.identity = k.identity

def Guarantees (i : Nat) {β : Type} : Stmt ProviderKey Int β → Keyset → Prop
  | .now, _ | .select _, _ => True
  | .begin me, _ | .scan me _, _ => me = i
  | .modify me _ p f, db =>
    me = i ∧ ∀ k, ∃ k', f k = some k' ∧ k'.identity = k.identity ∧ k'.status ≠ .active ∧ (p k = true → Aged db.now k')
  | .insert me k, _ => me = i ∧ k.status = .active
  | .commit me, db => me = i ∧ Alive (db.view me)
  | .rollback me, _ => me = i

theorem bothActive_symm (k k' : ProviderKey) : bothActive k k' = bothActive k' k := by
  unfold bothActive
  rw [Bool.and_comm]

theorem Guarantees.conn (h : Guarantees i c db) {j : Nat} (hj : j ≠ i) : c.conn ≠ some j := by
  intro hc
  cases c with
  | now | select => contradiction
  | begin | scan | rollback => exact hj ((Option.some.inj hc).symm.trans h)
  | modify | insert | commit => exact hj ((Option.some.inj hc).symm.trans h.1)

theorem Guarantees.keepsKey (h : Guarantees i c db) : Db.KeepsKey schema c := by
  cases c with
  | modify =>
    intro k1 k2 hf
    rcases h.2 k1 with ⟨k', hk', hidentity, _⟩
    rw [hf] at hk'
    cases hk'
    exact id_of_identity hidentity
  | _ => trivial

theorem Guarantees.keepsIndex (h : Guarantees i c db) : Db.KeepsIndex bothActive c := by
  cases c with
  | modify =>
    intro k1 k2 k3 hf
    rcases h.2 k1 with ⟨k', hk', _, hstatus, _⟩
    rw [hf] at hk'
    cases hk'
    unfold bothActive
    rw [decide_eq_false hstatus, Bool.false_and]
  | _ => trivial

theorem Aged.mono {now now' : Int} (h : Aged now k) (hnow : now ≤ now') : Aged now' k := by
  intro hstatus
  rcases h hstatus with ⟨t, ht, hlt⟩
  exact ⟨t, ht, by omega⟩

theorem Inv.wait (h : Inv db) (n : Nat) : Inv (db.wait n) where
  __ := h
  sound := ⟨h.sound.nodup, h.sound.exclusive⟩
  indexed := ⟨h.indexed.rows, h.indexed.view, h.indexed.apart⟩
  aged_rows := by
    intro k hk
    apply (h.aged_rows k hk).mono
    show db.now ≤ db.now + n
    omega
  aged_pending := by
    intro i k hk
    apply (h.aged_pending i k hk).mono
    show db.now ≤ db.now + n
    omega

theorem Inv.next (h : Inv db) : Inv db.next where
  __ := h
  sound := ⟨h.sound.nodup, h.sound.exclusive⟩
  indexed := ⟨h.indexed.rows, h.indexed.view, h.indexed.apart⟩

theorem Inv.persists_commit (h : Inv db) (me : Nat) : ∀ k ∈ db.rows, ∃ k' ∈ db.view me, k'.identity = k.identity := by
  intro k hk
  by_cases htouched : schema.key k ∈ (db.writes me).map (Write.key schema)
  . have hputs : ∀ w ∈ db.writes me, ∃ k, w = .put k := by
      intro w hw
      exact h.puts me w (Db.mem_writes.mp hw)
    rcases Transactions.exists_mem_overlay hputs htouched with ⟨k', hk', hkey⟩
    refine ⟨k', Transactions.mem_overlay.mpr (.inl hk'), ?_⟩
    exact (h.same me k' (Db.mem_writes.mp (Transactions.put_of_mem_overlay hk')) k hk hkey.symm).symm
  . exact ⟨k, Transactions.mem_overlay.mpr (.inr ⟨hk, htouched⟩), rfl⟩

theorem Inv.write (h : Inv db) {me : Nat} (faults : List Bool)
    (hsound : Db.Sound (S := schema) { db.write me (.put k) with faults := faults })
    (hindexed : Db.Indexed (S := schema) bothActive { db.write me (.put k) with faults := faults })
    (hsame : ∀ k0 ∈ db.rows, k0.id = k.id → k0.identity = k.identity) (haged : Aged db.now k) :
    Inv { db.write me (.put k) with faults := faults } where
  __ := h
  sound := hsound
  indexed := hindexed
  puts := by
    intro i w hw
    rcases mem_append.mp hw with hw | hw
    . exact h.puts i w hw
    . cases mem_singleton.mp hw
      exact ⟨k, rfl⟩
  same := by
    intro i k' hk'
    rcases mem_append.mp hk' with hk' | hk'
    . exact h.same i k' hk'
    . cases mem_singleton.mp hk'
      exact hsame
  aged_pending := by
    intro i k' hk'
    rcases mem_append.mp hk' with hk' | hk'
    . exact h.aged_pending i k' hk'
    . cases mem_singleton.mp hk'
      exact haged

theorem Inv.effect {db' : Keyset} (h : Inv db) (hc : Guarantees i c db) (heffect : Db.Effect db c db') : Inv db' := by
  have hsound := h.sound.effect heffect hc.keepsKey
  have hindex : (uniqueActiveKeyConstraint, bothActive) ∈ schema.indexes := by simp [schema]
  have hindexed := h.indexed.effect bothActive_symm hindex heffect hc.keepsIndex
  cases heffect with
  | quiet | begin => exact ⟨hsound, hindexed, h.alive, h.puts, h.same, h.aged_rows, h.aged_pending⟩
  | @modify me id p f faults k hheld hk hid hp =>
    rcases hc.2 k with ⟨k', hf, hidentity, _, haged⟩
    rw [hf] at hsound hindexed ⊢
    apply h.write faults hsound hindexed _ (haged hp)
    intro k0 hk0 hid0
    have hkid : k0.id = k.id := hid0.trans (id_of_identity hidentity)
    rw [hidentity]
    rcases Db.mem_view_cases hk with hpending | ⟨hrows, _⟩
    . exact h.same me k hpending k0 hk0 hkid
    . rw [h.sound.eq_of_key hk0 hrows hkid]
  | @insert me k faults hheld hkey hcheck =>
    apply h.write faults hsound hindexed
    . intro k0 hk0 hid
      -- the row would be in the view, or written over by this connection, and then in the view as well
      rcases h.persists_commit me k0 hk0 with ⟨k', hk', hidentity⟩
      exact absurd ((id_of_identity hidentity).trans hid) (hkey k' hk')
    . intro hstatus
      rw [hc.2] at hstatus
      contradiction
  | close =>
    refine ⟨hsound, hindexed, h.alive, ?_, ?_, h.aged_rows, ?_⟩
    . intro j w hw
      exact h.puts j w (mem_of_mem_filter hw)
    . intro j k hk
      exact h.same j k (mem_of_mem_filter hk)
    . intro j k hk
      exact h.aged_pending j k (mem_of_mem_filter hk)
  | @commit me faults =>
    refine ⟨hsound, hindexed, hc.2, ?_, ?_, ?_, ?_⟩
    . intro j w hw
      exact h.puts j w (mem_of_mem_filter hw)
    . intro j k hk k0 hk0 hid
      -- the row belongs to the other connection, so this one has not changed it
      rcases mem_filter.mp hk with ⟨hk, hj⟩
      have hne : j ≠ me := of_decide_eq_true hj
      have hconn : (Stmt.commit me : Stmt ProviderKey Int Bool).conn ≠ some j := fun heq =>
        hne (Option.some.inj heq).symm
      have hkeeps := h.sound.keeps (.commit faults) hconn
      have htouched : schema.key k0 ∈ (db.writes j).map (Write.key schema) := by
        rw [mem_map]
        exact ⟨.put k, Db.mem_writes.mpr hk, hid.symm⟩
      exact h.same j k hk k0 ((hkeeps.locked k0 htouched).mp hk0) hid
    . intro k hk
      rcases Db.mem_view_cases hk with hpending | ⟨hrows, _⟩
      . exact h.aged_pending me k hpending
      . exact h.aged_rows k hrows
    . intro j k hk
      exact h.aged_pending j k (mem_of_mem_filter hk)

theorem stable (i : Nat) : Stable Inv (Onward i) where
  refl := fun db => ⟨.refl i db, fun k hk => ⟨k, hk, rfl⟩⟩
  trans := by
    intro db db' db'' h h'
    refine ⟨h.keeps.trans h'.keeps, ?_⟩
    intro k hk
    rcases h.persists k hk with ⟨k', hk', hidentity⟩
    rcases h'.persists k' hk' with ⟨k'', hk'', hidentity'⟩
    exact ⟨k'', hk'', hidentity'.trans hidentity⟩
  wait := fun _ n h => h.wait n
  next := fun _ h => h.next
  rel_wait := by
    intro db n
    refine ⟨⟨rfl, fun _ _ => Iff.rfl, ?_⟩, fun k hk => ⟨k, hk, rfl⟩⟩
    show db.now ≤ db.now + n
    omega
  rel_next := fun db => ⟨⟨rfl, fun _ _ => Iff.rfl, Int.le_refl _⟩, fun k hk => ⟨k, hk, rfl⟩⟩

end Mxid.Oidckey
