import Mxid.Oidckey.Lemmas.Keyset

namespace Mxid.Oidckey

open List ProviderKey Call

open Transactions (Db Stmt DbError Write Obeys Settles Reads Concludes insertRow update transaction)

open Transactions Prog.Rely

def Present (key : ProviderKey) (db : Keyset) : Prop := ∃ k ∈ db.rows, k.identity = key.identity

def Ends (outcome : Outcome) (db : Keyset) : Prop :=
  ∀ key time lifetime, outcome = .signed key time lifetime → Present key db

abbrev Fits (i : Nat) {α : Type} (p : Query α) (Q : α → Keyset → Prop) (db : Keyset) : Prop :=
  Obeys Inv (Onward i) (Guarantees i) p Q db

variable {i : Nat} {db : Keyset} {key : ProviderKey}

theorem Onward.present {db db' : Keyset} (h : Onward i db db') (hkey : Present key db) : Present key db' := by
  rcases hkey with ⟨k, hk, hidentity⟩
  rcases h.persists k hk with ⟨k', hk', hidentity'⟩
  exact ⟨k', hk', hidentity'.trans hidentity⟩

theorem fits_pure {outcome : Outcome} (h : ∀ key time lifetime, outcome ≠ .signed key time lifetime) :
    Fits i (pure outcome) Ends db := by
  intro db' _ _ key time lifetime heq
  exact absurd heq (h key time lifetime)

theorem fits_error (msg : String) : Fits i (pure (.error msg)) Ends db := by
  apply fits_pure
  intro _ _ _
  exact Outcome.noConfusion

theorem fits_activeKey : Fits i activeKey (fun result db' => ∀ key, result = .ok key → Present key db') db := by
  apply (stable i).select
  . intro _ _ _
    trivial
  . intro db' _ _ db'' _ _ key heq
    contradiction
  intro db' hrel hI
  dsimp only
  split
  . intro db'' _ _ key heq
    contradiction
  next key hhead =>
  intro db'' hrel' _ key' heq
  cases heq
  have hmem := mem_of_mem_head? hhead
  have hrows := mem_of_mem_filter ((perm_insertionSort _ _).mem_iff.mp hmem)
  exact hrel'.present ⟨key, hrows, rfl⟩

theorem fits_reload : Fits i reload Ends db := by
  apply bind (stable i).refl
  apply mono fits_activeKey
  intro result db' _
  cases result with
  | error | ok =>
    apply fits_pure
    intro _ _ _
    exact Outcome.noConfusion

theorem fits_conclude (msg : String) (key : ProviderKey) (result : Except DbError Unit) :
    Fits i (conclude msg key result) Ends db := by
  unfold conclude
  split
  . apply fits_pure
    intro _ _ _
    exact Outcome.noConfusion
  . split
    . exact fits_reload
    exact fits_error _
  . apply fits_pure
    intro _ _ _
    exact Outcome.noConfusion

theorem fits_insertRow (hkey : key.status = .active) :
    Fits i (insertRow i key) (Settles Inv (Onward i) (Guarantees i) i (fun _ _ => True)) db := by
  apply (stable i).insertRow
  . intro _ _ _
    exact ⟨rfl, hkey⟩
  . intro _ _ _ _
    exact ⟨rfl, fun _ _ _ => trivial⟩
  intro db' db'' _ _ _ hrel _
  refine ⟨⟨rfl, .inr ⟨key, ?_, hkey⟩⟩, fun _ _ _ => trivial, fun _ _ _ => trivial⟩
  have hwrites : db''.writes i = db'.writes i ++ [.put key] :=
    hrel.keeps.writes.trans (Db.writes_write_self i (.put key))
  unfold Db.view
  rw [hwrites, overlay_append, Write.mem_apply]
  exact .inl rfl

theorem fits_update_demote {R : Except DbError Nat → Keyset → Prop} (herror : ∀ db, R (.error .failed) db)
    (hok : ∀ n db, R (.ok n) db) : Fits i (update i isActive demote) R db := by
  apply (stable i).scan
  . intro _ _ _
    exact rfl
  . intro _ _ _ db' _ _
    exact herror db'
  intro db' _ _
  apply (stable i).modifyAll (K := fun _ _ _ => True)
  . intro _ _ _ _ _ _ _
    trivial
  . intro k ks n db _ _
    refine ⟨rfl, ?_⟩
    intro k
    refine ⟨{ k with status := .rotating }, rfl, rfl, KeyStatus.noConfusion, ?_⟩
    intro _ hstatus
    contradiction
  . intro _ _ _ _ _ _ _
    trivial
  . intro _ _ _ _ _ _ _ _ _ _ _
    trivial
  . intro _ _ db _ _
    exact herror db
  . intro n db _ _
    exact hok n db
  . trivial

variable {body : Query (Except DbError Unit)}

theorem fits_mint (msg : String) (key : ProviderKey)
    (hbody : ∀ db, Fits i body (Settles Inv (Onward i) (Guarantees i) i (fun _ _ => True)) db) :
    Fits i (transaction i (fun _ => body) >>= conclude msg key) Ends db := by
  apply bind (stable i).refl
  apply mono (Q := fun _ _ => True)
  . apply (stable i).transaction
    . intro _ _ _
      exact rfl
    . intro _ _ _
      trivial
    . intro _ _ _
      apply hbody
  . intro result db' _
    apply fits_conclude

section

variable (mint : Except String Material)

include mint

theorem fits_generate : Fits i (generate i mint) Ends db := by
  cases mint with
  | error => exact fits_error _
  | ok =>
    apply (stable i).now
    . intro _ _ _
      trivial
    . intro db' _ _
      apply fits_mint
      intro db
      apply fits_insertRow rfl

theorem fits_rotate : Fits i (rotate i mint) Ends db := by
  cases mint with
  | error => exact fits_error _
  | ok =>
    apply (stable i).now
    . intro _ _ _
      trivial
    . intro db' _ _
      apply fits_mint
      intro db
      apply bind (stable i).refl
      apply fits_update_demote
      . intro db db' _ _
        exact ⟨rfl, fun _ _ _ => trivial⟩
      . intro n db
        apply fits_insertRow rfl

theorem fits_ensureActive : Fits i (ensureActive i mint) Ends db := by
  apply bind (stable i).refl
  apply mono fits_activeKey
  intro result db' _
  cases result with
  | ok =>
    apply fits_pure
    intro _ _ _
    exact Outcome.noConfusion
  | error =>
    dsimp only
    split
    . exact fits_generate mint
    exact fits_error _

theorem fits_maybeRotate (every : Int) : Fits i (maybeRotate i mint every) Ends db := by
  apply bind (stable i).refl
  apply mono fits_activeKey
  intro result db' _
  cases result with
  | error => exact fits_error _
  | ok =>
    apply (stable i).now
    . intro _ _ _
      trivial
    intro db'' _ _
    split
    . apply fits_pure
      intro _ _ _
      exact Outcome.noConfusion
    . exact fits_rotate mint

end

theorem fits_sign (lifetime : Int) : Fits i (sign lifetime) Ends db := by
  apply bind (stable i).refl
  apply mono fits_activeKey
  intro result db' hpresent
  cases result with
  | error => exact fits_error _
  | ok key =>
    apply (stable i).now
    . intro _ _ _
      trivial
    . intro db'' hrel _ db3 hrel' _ key' time lifetime' heq
      cases heq
      exact hrel'.present (hrel.present (hpresent key rfl))

def Sparing (i : Nat) (db : Keyset) : Prop :=
  ∀ w ∈ db.writes i, ∃ k ∈ db.rows, k.id = w.key schema ∧ k.status ≠ .active

theorem Onward.sparing {db db' : Keyset} (h : Onward i db db') (hsparing : Sparing i db) : Sparing i db' := by
  intro w hw
  rw [h.keeps.writes] at hw
  rcases hsparing w hw with ⟨k, hk, hid, hstatus⟩
  have htouched : schema.key k ∈ (db.writes i).map (Write.key schema) := by
    rw [mem_map]
    exact ⟨w, hw, hid.symm⟩
  exact ⟨k, (h.keeps.locked k htouched).mpr hk, hid, hstatus⟩

theorem Inv.alive_view {db : Keyset} (h : Inv db) (hsparing : Sparing i db) : Alive (db.view i) := by
  rcases h.alive with hempty | ⟨k, hk, hactive⟩
  . left
    have hwrites : db.writes i = [] := by
      rw [eq_nil_iff_forall_not_mem]
      intro w hw
      rcases hsparing w hw with ⟨k, hk, _⟩
      rw [hempty] at hk
      contradiction
    unfold Db.view
    rw [hwrites, hempty]
    rfl
  . right
    refine ⟨k, ?_, hactive⟩
    apply mem_overlay.mpr
    right
    refine ⟨hk, ?_⟩
    intro htouched
    rcases mem_map.mp htouched with ⟨w, hw, hkey⟩
    rcases hsparing w hw with ⟨k', hk', hid, hstatus⟩
    rw [h.sound.eq_of_key hk' hk (hid.trans hkey)] at hstatus
    contradiction

theorem fits_update_retire {now : Int} (hnow : now ≤ db.now) (hsparing : Sparing i db) :
    Fits i (update i (isExpired now) retire) (Settles Inv (Onward i) (Guarantees i) i (fun _ _ => True)) db := by
  apply (stable i).scan
  . intro _ _ _
    exact rfl
  . intro _ _ _ db' _ _
    exact ⟨rfl, fun _ _ _ => trivial⟩
  intro db' hrel _
  apply (stable i).modifyAll (K := fun _ _ db => now ≤ db.now ∧ Sparing i db)
  . rintro _ _ db1 db2 ⟨hnow1, hsparing1⟩ hrel1 _
    exact ⟨Int.le_trans hnow1 hrel1.keeps.now, hrel1.sparing hsparing1⟩
  . rintro _ _ _ db1 ⟨hnow1, _⟩ _
    refine ⟨rfl, ?_⟩
    intro k
    refine ⟨{ k with status := .retired }, rfl, rfl, KeyStatus.noConfusion, ?_⟩
    intro hexpired _
    unfold isExpired at hexpired
    rw [Bool.and_eq_true, Option.any_eq_true] at hexpired
    rcases hexpired.2 with ⟨t, ht, hlt⟩
    exact ⟨t, ht, Int.lt_of_lt_of_le (of_decide_eq_true hlt) hnow1⟩
  . intro _ _ _ _ hK _ _
    exact hK
  . rintro id _ _ db1 k ⟨hnow1, hsparing1⟩ _ _ hk hid hexpired
    refine ⟨hnow1, ?_⟩
    unfold isExpired at hexpired
    rw [Bool.and_eq_true] at hexpired
    have hrotating : k.status = .rotating := of_decide_eq_true hexpired.1
    intro w hw
    rw [Db.writes_write_self, mem_append, mem_singleton] at hw
    rcases hw with hw | rfl
    . exact hsparing1 w hw
    rcases Db.mem_view_cases hk with hpending | ⟨hrows, _⟩
    . exact hsparing1 (.put k) (Db.mem_writes.mpr hpending)
    . exact ⟨k, hrows, rfl, hrotating ▸ KeyStatus.noConfusion⟩
  . intro _ _ _ _ _
    exact ⟨rfl, fun _ _ _ => trivial⟩
  . rintro _ db1 ⟨_, hsparing1⟩ hI1
    exact ⟨⟨rfl, hI1.alive_view hsparing1⟩, fun _ _ _ => trivial, fun _ _ _ => trivial⟩
  . exact ⟨Int.le_trans hnow hrel.keeps.now, hrel.sparing hsparing⟩

theorem fits_retireExpired (hwrites : db.writes i = []) : Fits i (retireExpired i) Ends db := by
  apply bind (stable i).refl
  apply mono (Q := fun _ _ => True)
  . apply (stable i).transaction
    . intro _ _ _
      exact rfl
    . intro _ _ _
      trivial
    . intro db' hrel _
      apply fits_update_retire (Int.le_refl _)
      have hwrites' : db'.writes i = [] := hrel.keeps.writes.trans hwrites
      intro w hw
      have hw : w ∈ db'.writes i := hw
      rw [hwrites'] at hw
      contradiction
  . intro result db' _
    cases result with
    | ok | error =>
      apply fits_pure
      intro _ _ _
      exact Outcome.noConfusion

theorem fits_prog (c : Call) (hwrites : db.writes i = []) : Fits i (c.prog i) Ends db := by
  cases c with
  | generate mint => exact fits_generate mint
  | ensureActive mint => exact fits_ensureActive mint
  | rotate mint => exact fits_rotate mint
  | maybeRotate mint every => exact fits_maybeRotate mint every
  | retireExpired => exact fits_retireExpired hwrites
  | sign lifetime => exact fits_sign lifetime

section Runs

variable {calls : List Call} {now : Int} {faults : List Bool}

theorem inv_start : Inv (start calls now faults).shared where
  sound := ⟨nodup_nil, fun _ _ h => absurd h not_mem_nil⟩
  indexed := ⟨fun _ h => absurd h not_mem_nil, fun _ _ h => absurd h not_mem_nil,
    fun _ _ _ _ _ h => absurd h not_mem_nil⟩
  alive := .inl rfl
  puts := fun _ _ h => absurd h not_mem_nil
  same := fun _ _ h => absurd h not_mem_nil
  aged_rows := fun _ h => absurd h not_mem_nil
  aged_pending := fun _ _ h => absurd h not_mem_nil

variable {turns : List (Nat × Nat)} {p : System}

theorem inv_of_run (run : Turns (start calls now faults) turns p) :
    Inv p.shared ∧ ∀ (i : Nat) (t : Query Outcome), p.threads[i]? = some t → Fits i t Ends p.shared := by
  apply obeys_run (A := fun _ {_} _ _ => True) stable (fun _ _ _ _ _ _ _ _ _ => trivial) _ inv_start _ run
  . intro i β c db hI hG _
    refine ⟨hI.effect hG (Db.exec_effect c db), ?_⟩
    intro j hj
    refine ⟨hI.sound.keeps (Db.exec_effect c db) (hG.conn hj), ?_⟩
    have heffect := Db.exec_effect c db
    generalize (Db.exec c db).2 = db' at heffect
    cases heffect with
    | @commit me faults => exact hI.persists_commit me
    | quiet | begin | modify | insert | close => exact fun k hk => ⟨k, hk, rfl⟩
  . intro i t ht
    unfold start at ht
    rw [List.getElem?_mapIdx, Option.map_eq_some_iff] at ht
    rcases ht with ⟨c, _, rfl⟩
    exact fits_prog c rfl

end Runs

theorem reads_activeKey : Reads activeKey := by
  apply Prog.always_call_bind (fun _ => rfl)
  intro reply
  cases reply with
  | none => trivial
  | some =>
    dsimp only
    split <;> trivial

theorem reads_reload : Reads reload := by
  unfold reload Reads
  rw [Prog.always_bind]
  apply reads_activeKey.mono (fun _ h => h)
  intro result _
  cases result <;> trivial

theorem reads_replaceActive (me : Nat) (key : ProviderKey) : Reads (replaceActive me key) := by
  unfold replaceActive Reads
  rw [Prog.always_bind]
  apply (reads_update me isActive demote).mono (fun _ h => h)
  intro result _
  cases result with
  | error => trivial
  | ok => exact reads_insertRow me key

theorem concludes_mint {me : Nat} (hbody : Reads body) (msg : String) (key : ProviderKey) :
    Concludes (fun outcome => outcome.changes = true) (transaction me (fun _ => body) >>= conclude msg key) := by
  apply (concludes_transaction (fun _ => hbody)).bind
  . rintro _ ⟨_, rfl⟩
    exact rfl
  . intro result
    unfold conclude
    split
    . trivial
    . split
      . exact reads_reload
      . trivial
    . trivial

theorem concludes_generate (me : Nat) (mint : Except String Material) :
    Concludes (fun outcome => outcome.changes = true) (generate me mint) := by
  cases mint with
  | error => trivial
  | ok =>
    apply concludes_call (fun _ => rfl)
    intro now
    exact concludes_mint (reads_insertRow me _) _ _

theorem concludes_rotate (me : Nat) (mint : Except String Material) :
    Concludes (fun outcome => outcome.changes = true) (rotate me mint) := by
  cases mint with
  | error => trivial
  | ok =>
    apply concludes_call (fun _ => rfl)
    intro now
    exact concludes_mint (reads_replaceActive me _) _ _

theorem concludes_prog (me : Nat) (c : Call) : Concludes (fun outcome => outcome.changes = true) (c.prog me) := by
  cases c with
  | generate mint => exact concludes_generate me mint
  | ensureActive mint =>
    apply reads_activeKey.bind
    intro result
    cases result with
    | ok => trivial
    | error =>
      dsimp only
      split
      . exact concludes_generate me mint
      . trivial
  | rotate mint => exact concludes_rotate me mint
  | maybeRotate mint =>
    apply reads_activeKey.bind
    intro result
    cases result with
    | error => trivial
    | ok =>
      apply concludes_call (fun _ => rfl)
      intro now
      split
      . trivial
      . exact concludes_rotate me mint
  | retireExpired =>
    apply (concludes_transaction (fun now => reads_update me (isExpired now) retire)).bind
    . rintro _ ⟨_, rfl⟩
      exact rfl
    . intro result
      cases result <;> trivial
  | sign =>
    apply reads_activeKey.bind
    intro result
    cases result with
    | error => trivial
    | ok =>
      apply concludes_call (fun _ => rfl)
      intro now
      trivial

theorem eq_singleton {l : List ProviderKey} {k : ProviderKey} (hnodup : l.Nodup) (hk : k ∈ l) (h : ∀ k' ∈ l, k' = k) :
    l = [k] := by
  match l, hnodup with
  | [], _ => contradiction
  | [k'], _ => rw [h k' (by simp)]
  | k1 :: k2 :: rest, hnodup =>
    have heq : k1 = k2 := (h k1 (by simp)).trans (h k2 (by simp)).symm
    rw [heq] at hnodup
    simp at hnodup

theorem Inv.exactly_one {db : Keyset} (h : Inv db) (hminted : db.rows ≠ []) :
    ∃ key, db.rows.filter isActive = [key] := by
  rcases h.alive with hempty | ⟨k, hk, hactive⟩
  . contradiction
  refine ⟨k, ?_⟩
  apply eq_singleton
  . exact h.sound.nodup.of_map.filter _
  . exact mem_filter.mpr ⟨hk, decide_eq_true hactive⟩
  intro k' hk'
  rcases mem_filter.mp hk' with ⟨hk', hactive'⟩
  apply h.sound.eq_of_key hk' hk
  apply h.indexed.rows k' hk' k hk
  unfold bothActive
  rw [Bool.and_eq_true]
  exact ⟨hactive', decide_eq_true hactive⟩

theorem exactly_one_active_key (calls : List Call) (now : Int) (faults : List Bool) {turns : List (Nat × Nat)}
    {p : System} (run : Turns (start calls now faults) turns p) :
    (p.shared.rows ≠ [] → ∃ key, p.shared.rows.filter isActive = [key])
      ∧ ∀ turn p' after p'' outcome, p.step (Transactions.semantics schema) turn = some p' →
        Turns p' after p'' →
        p''.result turn.1 = some outcome → outcome.changes = false → p'.shared.rows = p.shared.rows := by
  constructor
  . exact (inv_of_run run).1.exactly_one
  intro turn p' after p'' outcome hstep hafter hresult hchanges
  have hleads : ∀ t, p.threads[turn.1]? = some t → Concludes (fun outcome => outcome.changes = true) t := by
    apply Pool.threads_run (T := Concludes (fun outcome => outcome.changes = true)) (fun _ _ _ h b => (h b).2) _ run
    intro t ht
    unfold start at ht
    rw [List.getElem?_mapIdx, Option.map_eq_some_iff] at ht
    rcases ht with ⟨c, _, rfl⟩
    exact concludes_prog turn.1 c
  rcases Pool.step_eq_some hstep with ⟨_, _, _, _, hthread, _⟩
  rcases Pool.outcome_of_leads hthread (hleads _ hthread) hstep hafter hresult with ⟨β, paused, c, hshared, hQ⟩
  have hrows : p'.shared.rows = (if paused then (semantics schema).advance turn.2 p.shared
      else p.shared).rows := by
    rw [hshared]
    apply Db.rows_exec
    by_contra hcommits
    rw [hQ (Bool.eq_true_of_not_eq_false hcommits)] at hchanges
    contradiction
  rw [hrows]
  split <;> rfl

theorem signed_key_published (calls : List Call) (now : Int) (faults : List Bool) {turns : List (Nat × Nat)}
    {p : System} (run : Turns (start calls now faults) turns p)
    {i : Nat} {time lifetime : Int} (hsigned : p.result i = some (.signed key time lifetime))
    (hexpiry : ∃ t, key.expiresAt = some t ∧ time + lifetime ≤ t) (hnow : p.shared.now ≤ time + lifetime) :
    ∃ k ∈ listVerificationKeys p.shared.rows, k.kid = key.kid ∧ k.algorithm = key.algorithm
      ∧ k.publicKey = key.publicKey := by
  rcases inv_of_run run with ⟨hinv, hthreads⟩
  have hends := hthreads i _ (Pool.result_eq_some hsigned) p.shared ((stable i).refl _) hinv
  rcases hends key time lifetime rfl with ⟨k, hk, hidentity⟩
  rcases hexpiry with ⟨t, ht, hle⟩
  have hstatus : k.status ≠ .retired := by
    intro hretired
    rcases hinv.aged_rows k hk hretired with ⟨t', ht', hlt⟩
    rw [expiresAt_of_identity hidentity, ht] at ht'
    cases ht'
    omega
  refine ⟨k, ?_, ?_⟩
  . unfold listVerificationKeys Table.orderByDesc
    rw [(perm_insertionSort _ _).mem_iff, mem_filter]
    refine ⟨hk, ?_⟩
    cases hs : k.status with
    | active | rotating => rfl
    | retired => contradiction
  . have hkid := congrArg kid hidentity
    have halgorithm := congrArg algorithm hidentity
    have hpublic := congrArg publicKey hidentity
    exact ⟨hkid, halgorithm, hpublic⟩

namespace TwoKeys

def first : Material := ⟨1, "k1", "public 1", "private 1"⟩

def second : Material := ⟨2, "k2", "public 2", "private 2"⟩

abbrev exec (calls : List Call) (turns : List (Nat × Nat)) : Option (System) :=
  Run.exec (Pool.step (Transactions.semantics schema)) (fun _ _ => True) (start calls 0 []) turns

/-!
Two replicas rotate at the same time. The second comes to its `UPDATE` when the first has not ended.
-/

def third : Material := ⟨3, "k3", "public 3", "private 3"⟩

abbrev rotations : List Call := [.generate (.ok first), .rotate (.ok second), .rotate (.ok third)]

abbrev overlapping : List (Nat × Nat) :=
  [(0, 0), (0, 0), (0, 0), (0, 0), (1, 0), (2, 0), (1, 0), (2, 0), (1, 0), (2, 0), (1, 0), (1, 0), (1, 0),
    (2, 0), (2, 0), (2, 0), (2, 0)]

theorem overlapping_isSome : (exec rotations overlapping).isSome = true := by
  decide +kernel

def overlapped : System := (exec rotations overlapping).get overlapping_isSome

theorem overlapped_one_active :
    overlapped.result 2 = some (.existing (buildKey second 0))
      ∧ ∃ key, overlapped.shared.rows.filter isActive = [key] := by
  refine ⟨by decide +kernel, ?_⟩
  have run : Turns (start rotations 0 []) overlapping overlapped := Run.of_isSome _
  exact (exactly_one_active_key rotations 0 [] run).1 (by decide +kernel)

/-!
A key signs a second before it expires, and is rotated. Two seconds later it is retired.
-/

abbrev signings (lifetime : Int) : List Call :=
  [.generate (.ok first), .sign lifetime, .rotate (.ok second), .retireExpired]

abbrev rotating : List (Nat × Nat) :=
  [(0, 0), (0, 0), (0, 0), (0, 0), (1, 31535999000), (1, 0), (2, 0), (2, 0), (2, 0), (2, 0), (2, 0), (2, 0)]

abbrev retiring : List (Nat × Nat) := rotating ++ [(3, 2000), (3, 0), (3, 0), (3, 0)]

theorem rotating_isSome : (exec (signings 1000) rotating).isSome = true := by
  decide +kernel

def rotated : System := (exec (signings 1000) rotating).get rotating_isSome

theorem rotated_key_published :
    rotated.result 1 = some (.signed (buildKey first 0) 31535999000 1000)
      ∧ ∃ k ∈ listVerificationKeys rotated.shared.rows, k.kid = "k1" := by
  have hsigned : rotated.result 1 = some (.signed (buildKey first 0) 31535999000 1000) := by decide +kernel
  refine ⟨hsigned, ?_⟩
  have run : Turns (start (signings 1000) 0 []) rotating rotated := Run.of_isSome _
  rcases signed_key_published (signings 1000) 0 [] run hsigned ⟨31536000000, rfl, by decide⟩ (by decide +kernel) with
    ⟨k, hk, hkid, _⟩
  exact ⟨k, hk, hkid⟩

theorem retiring_isSome : (exec (signings 3600000) retiring).isSome = true := by
  decide +kernel

def retired : System := (exec (signings 3600000) retiring).get retiring_isSome

theorem retired_key_missing :
    Turns (start (signings 3600000) 0 []) retiring retired
      ∧ retired.result 1 = some (.signed (buildKey first 0) 31535999000 3600000)
      ∧ retired.shared.now = 31535999000 + 2000
      ∧ (listVerificationKeys retired.shared.rows).map kid = ["k2"] := by
  refine ⟨Run.of_isSome _, ?_⟩
  decide +kernel

end TwoKeys

end Mxid.Oidckey
