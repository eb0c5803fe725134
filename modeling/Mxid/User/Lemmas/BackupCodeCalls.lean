import Mxid.User.Lemmas.BackupCodes

namespace Mxid.User.BackupCodes

open List Scene Pool

open Transactions (Db Stmt DbError Write Obeys Settles insertRows transaction)

variable (S : Scene) (s : Service) (i : Nat)

structure Accepted (userID : Int) (normalized : String) (id : Int) (db : Codes) : Prop where
  took : S.Took i id db
  newest : S.strict → ∃ before after, db.commits = before ++ i :: after
    ∧ ∃ e ∈ newest S.calls S.rows before userID, e.id = id ∧ s.compareHashAndPassword e.codeHash normalized = true

def Uses (userID : Int) (normalized : String) (outcome : Outcome) (db : Codes) : Prop :=
  ∀ id, outcome = .consumed id → Accepted S s i userID normalized id db

def Ends (outcome : Outcome) (db : Codes) : Prop :=
  ∀ id, outcome = .consumed id → ∃ userID code, S.calls[i]? = some (.consume userID code)
    ∧ Accepted S s i userID (normalizeBackupCode code) id db

abbrev Fits (S : Scene) (i : Nat) {α : Type} (p : Query α) (Q : α → Codes → Prop) (db : Codes) : Prop :=
  Obeys S.Inv (S.Onward i) (S.Guarantees i) p Q db

variable {S : Scene} {s : Service} {i : Nat} {db db' : Codes}

theorem fits_pure {outcome : Outcome} (h : ∀ id, outcome ≠ .consumed id) : Fits S i (pure outcome) (Ends S s i) db := by
  intro db' _ _ id heq
  exact absurd heq (h id)

theorem fits_error (err : BackupError) : Fits S i (pure (.error err)) (Ends S s i) db := by
  apply fits_pure
  intro id
  exact Outcome.noConfusion

theorem fresh_of_onward (honward : S.Onward i db db') (hfresh : i ∉ db.commits) : i ∉ db'.commits := by
  rw [honward.committed]
  exact hfresh

structure Replacing (S : Scene) (i : Nat) (userID : Int) (ks : List Int) (db : Codes) : Prop where
  fresh : i ∉ db.commits
  opened : i ∈ db.opened
  puts : ∀ r, .put r ∈ db.writes i → r.entry ∈ entriesAt S.calls i
  covers : S.strict → ∀ r ∈ db.rows, r.userID = userID → r.id ∈ ks ∨ r.id ∈ (db.writes i).map (Write.key schema)

section Replacing

variable {userID k : Int} {ks : List Int}

theorem Replacing.onward (h : Replacing S i userID ks db) (hgen : generatesAt S.calls i = some userID)
    (honward : S.Onward i db db') : Replacing S i userID ks db' where
  fresh := fresh_of_onward honward h.fresh
  opened := honward.opened.mpr h.opened
  puts := by
    intro r hr
    rw [honward.keeps.writes] at hr
    exact h.puts r hr
  covers := by
    intro hstrict r hr huser
    rcases honward.covered hstrict h.opened userID hgen r hr huser with ⟨r0, hr0, hid, huser0⟩
    rw [honward.keeps.writes, ← hid]
    exact h.covers hstrict r0 hr0 huser0

theorem Replacing.skip (h : Replacing S i userID (k :: ks) db)
    (hnone : ∀ r ∈ db.view i, r.id = k → ofUser userID r = false) : Replacing S i userID ks db where
  __ := h
  covers := by
    intro hstrict r hr huser
    rcases h.covers hstrict r hr huser with hmem | htouched
    . rcases mem_cons.mp hmem with hk | hmem
      . right
        -- otherwise the connection would see the row
        by_contra huntouched
        have hview : r ∈ db.view i := Transactions.mem_overlay.mpr (.inr ⟨hr, huntouched⟩)
        have hfalse := hnone r hview hk
        unfold ofUser at hfalse
        simp [huser] at hfalse
      . exact .inl hmem
    . exact .inr htouched

theorem Replacing.remove (h : Replacing S i userID (k :: ks) db) :
    Replacing S i userID ks (db.write i (.remove k)) where
  __ := h
  puts := by
    intro r hr
    rw [Db.writes_write_self, mem_append, mem_singleton] at hr
    rcases hr with hr | hr
    . exact h.puts r hr
    . contradiction
  covers := by
    intro hstrict r hr huser
    rw [Db.writes_write_self, map_append, mem_append]
    rcases h.covers hstrict r hr huser with hmem | htouched
    . rcases mem_cons.mp hmem with hk | hmem
      . exact .inr (.inr (mem_singleton.mpr hk))
      . exact .inl hmem
    . exact .inr (.inl htouched)

theorem Replacing.insert (h : Replacing S i userID ks db) {r : MFABackupCode} (hentry : r.entry ∈ entriesAt S.calls i) :
    Replacing S i userID ks (db.write i (.put r)) where
  __ := h
  puts := by
    intro r' hr'
    rw [Db.writes_write_self, mem_append, mem_singleton] at hr'
    rcases hr' with hr' | hr'
    . exact h.puts r' hr'
    . cases hr'
      exact hentry
  covers := by
    intro hstrict r' hr' huser
    rw [Db.writes_write_self, map_append, mem_append]
    rcases h.covers hstrict r' hr' huser with hmem | htouched
    . exact .inl hmem
    . exact .inr (.inl htouched)

theorem Replacing.commit (h : Replacing S i userID [] db) (hgen : generatesAt S.calls i = some userID) :
    S.Guarantees i (.commit i) db := by
  refine ⟨h.fresh, rfl, h.opened, ?_⟩
  intro hstrict userID' hgen' r hr huser
  rw [hgen] at hgen'
  cases hgen'
  rcases Db.mem_view_cases hr with hput | ⟨hrows, huntouched⟩
  . exact h.puts r (Db.mem_writes.mpr hput)
  rcases h.covers hstrict r hrows huser with hmem | htouched
  . contradiction
  . exact absurd htouched huntouched

theorem fits_removeCodes {R : Except DbError Nat → Codes → Prop} (hgen : generatesAt S.calls i = some userID)
    (hfresh : i ∉ db.commits) (hopened : i ∈ db.opened) (hwrites : db.writes i = [])
    (herror : ∀ err db, i ∉ db.commits → R (.error err) db) (hok : ∀ n db, Replacing S i userID [] db → R (.ok n) db) :
    Fits S i (Transactions.update i (ofUser userID) (fun _ => none)) R db := by
  apply (stable i).scan
  . intro db' honward _
    exact ⟨fresh_of_onward honward hfresh, rfl⟩
  . intro db' honward _ db'' honward' _
    exact herror _ db'' (fresh_of_onward (honward.trans honward') hfresh)
  intro db' honward hinv
  have hwrites' : db'.writes i = [] := honward.keeps.writes.trans hwrites
  apply (stable i).modifyAll (K := fun ks _ db => Replacing S i userID ks db)
  . intro _ _ _ _ h honward _
    exact h.onward hgen honward
  . intro _ _ _ _ h _
    exact ⟨h.fresh, rfl, .inl (fun _ => rfl)⟩
  . intro _ _ _ _ h _ hnone
    exact h.skip hnone
  . intro _ _ _ _ _ h _ _ _ _ _
    exact h.remove
  . intro _ _ db h _
    exact herror _ db h.fresh
  . intro n db h _
    exact hok n db h
  refine ⟨fresh_of_onward honward hfresh, honward.opened.mpr hopened, ?_, ?_⟩
  . intro r hr
    rw [hwrites'] at hr
    contradiction
  intro _ r hr huser
  left
  have hview : r ∈ db'.view i := by
    unfold Db.view
    rw [hwrites']
    exact hr
  apply mem_map_of_mem (f := schema.key)
  rw [mem_filter]
  exact ⟨hview, decide_eq_true huser⟩

theorem fits_replaceCodes {codes : List (Int × String)} (hgen : generatesAt S.calls i = some userID)
    (hcodes : ∀ code ∈ codes, ⟨code.1, userID, code.2⟩ ∈ entriesAt S.calls i) (hfresh : i ∉ db.commits)
    (hopened : i ∈ db.opened) (hwrites : db.writes i = []) :
    Fits S i (replaceCodes i userID codes) (Settles S.Inv (S.Onward i) (S.Guarantees i) i (fun _ _ => True)) db := by
  apply Prog.Rely.bind (stable i).refl
  apply fits_removeCodes hgen hfresh hopened hwrites
  . intro err db hfresh db' honward _
    exact ⟨⟨fresh_of_onward honward hfresh, rfl⟩, fun _ _ _ => trivial⟩
  intro n db h
  apply (stable i).now
  . intro db' honward _
    exact ⟨fresh_of_onward honward h.fresh, trivial⟩
  intro db' honward _
  apply (stable i).insertRows
    (K := fun rows db => Replacing S i userID [] db ∧ ∀ r ∈ rows, r.entry ∈ entriesAt S.calls i)
  . intro _ _ _ h honward _
    exact ⟨h.1.onward hgen honward, h.2⟩
  . intro r _ _ h _
    exact ⟨h.1.fresh, rfl, h.2 r mem_cons_self⟩
  . intro r _ _ h _
    exact ⟨h.1.insert (h.2 r mem_cons_self), fun r' hr' => h.2 r' (mem_cons_of_mem r hr')⟩
  . intro _ _ _ h _
    exact ⟨⟨h.1.fresh, rfl⟩, fun _ _ _ => trivial⟩
  . intro _ h _
    exact ⟨h.1.commit hgen, fun _ _ _ => trivial, fun _ _ _ => trivial⟩
  . refine ⟨h.onward hgen honward, ?_⟩
    intro r hr
    rcases mem_map.mp hr with ⟨code, hcode, rfl⟩
    exact hcodes code hcode

end Replacing

variable {userID id : Int} {normalized : String}

theorem fits_generateBackupCodes {mint : Except BackupError (List (Int × String))}
    (hcall : S.calls[i]? = some (.generate userID mint)) (hfresh : i ∉ db.commits) (hwrites : db.writes i = []) :
    Fits S i (s.generateBackupCodes i userID mint) (Ends S s i) db := by
  have hgen : generatesAt S.calls i = some userID := by
    unfold generatesAt
    rw [hcall]
    rfl
  unfold Service.generateBackupCodes
  split
  . split
    . exact fits_error _
    next codes =>
    have hcodes : ∀ code ∈ codes, ⟨code.1, userID, code.2⟩ ∈ entriesAt S.calls i := by
      intro code hcode
      unfold entriesAt
      rw [hcall]
      exact mem_map.mpr ⟨code, hcode, rfl⟩
    apply Prog.Rely.bind (stable i).refl
    apply Prog.Rely.mono (Q := fun _ _ => True)
    . apply (stable i).transaction
      . intro db' honward _
        exact ⟨fresh_of_onward honward hfresh, rfl⟩
      . intro _ _ _
        trivial
      . intro db' honward _
        have hfresh' : i ∉ db'.commits := fresh_of_onward honward hfresh
        apply fits_replaceCodes hgen hcodes
        . exact hfresh'
        . exact mem_append_right _ (mem_singleton_self i)
        . exact honward.keeps.writes.trans hwrites
    . intro result db' _
      cases result with
      | error => exact fits_error _
      | ok =>
        apply fits_pure
        intro id
        exact Outcome.noConfusion
  . exact fits_error _

theorem Accepted.onward (h : Accepted S s i userID normalized id db) (honward : S.Onward i db db') :
    Accepted S s i userID normalized id db' where
  took := honward.took id h.took
  newest := by
    intro hstrict
    rcases h.newest hstrict with ⟨before, after, hcommits, he⟩
    rcases honward.commits with ⟨more, hmore⟩
    refine ⟨before, after ++ more, ?_, he⟩
    rw [← hmore, hcommits, append_assoc, cons_append]

structure Found (S : Scene) (s : Service) (userID : Int) (normalized : String) (id : Int) (db : Codes) (e : Entry) :
    Prop where
  known : S.Known db e
  id : e.id = id
  userID : e.userID = userID
  compares : s.compareHashAndPassword e.codeHash normalized = true

theorem Found.onward {e : Entry}
    (h : Found S s userID normalized id db e) (honward : S.Onward i db db') : Found S s userID normalized id db' e :=
  ⟨h.known.mono honward.commits, h.id, h.userID, h.compares⟩

structure Marking (i : Nat) (id : Int) (n : Nat) (db : Codes) : Prop where
  fresh : i ∉ db.commits
  opened : i ∈ db.opened
  marked : n ≠ 0 → ∃ r ∈ Transactions.overlay schema (db.writes i) [], r.id = id

section Marking

variable {userID : Int} {normalized : String} {id : Int} {n : Nat}

theorem Marking.onward (h : Marking i id n db) (honward : S.Onward i db db') : Marking i id n db' where
  fresh := fresh_of_onward honward h.fresh
  opened := honward.opened.mpr h.opened
  marked := by
    rw [honward.keeps.writes]
    exact h.marked

theorem Marking.write (h : Marking i id n db) {r : MFABackupCode} (hid : r.id = id) :
    Marking i id (n + 1) (db.write i (.put r)) where
  __ := h
  marked := by
    intro _
    refine ⟨r, ?_, hid⟩
    rw [Db.writes_write_self, Transactions.overlay_append, Write.mem_apply]
    exact .inl rfl

theorem Marking.accepted (h : Marking i id n db) (hinv : S.Inv db) (hempty : entriesAt S.calls i = []) {e : Entry}
    (hfound : Found S s userID normalized id db e) (hn : n ≠ 0) :
    Accepted S s i userID normalized id (db.commit i) := by
  rcases h.marked hn with ⟨r, hr, hid⟩
  have hput : (i, .put r) ∈ db.pending := Db.mem_writes.mp (Transactions.put_of_mem_overlay hr)
  rcases hinv.owned i r hput with ⟨hnew, _⟩ | ⟨r0, hr0, hmarks⟩
  . rw [hempty] at hnew
    contradiction
  have hknown := hinv.known r0 hr0
  have hid0 : r0.entry.id = e.id := by
    rw [hfound.id, ← hid]
    exact (id_eq_of_entry hmarks.entry).symm
  -- the row that was marked is the one that was found
  have hentry : r0.entry = e := hknown.eq_of_id hfound.known hid0
  constructor
  . refine ⟨mem_append_right _ (mem_singleton_self i), ⟨e, ?_, hfound.id⟩, .inl ?_⟩
    . exact hfound.known.mono (prefix_append _ _)
    . exact ⟨r, Transactions.mem_overlay.mpr (.inl hr), hid, hmarks.after, hmarks.mine⟩
  . intro hstrict
    refine ⟨db.commits, [], rfl, e, ?_, hfound.id, hfound.compares⟩
    have hnewest := hinv.newest hstrict r0 hr0
    have huser : r0.userID = userID := by
      rw [← hfound.userID, ← hentry]
      rfl
    rw [hentry, huser] at hnewest
    exact hnewest

def Consumes (S : Scene) (s : Service) (i : Nat) (userID : Int) (normalized : String) (id : Int) :
    Except DbError Nat → Codes → Prop
  | .error _, _ => True
  | .ok n, db => n ≠ 0 → Accepted S s i userID normalized id db

theorem fits_use {when : Int} {e : Entry} (hgen : generatesAt S.calls i = none) (hempty : entriesAt S.calls i = [])
    (hfound : Found S s userID normalized id db e) (hfresh : i ∉ db.commits) (hopened : i ∈ db.opened) :
    Fits S i (Transactions.update i (unused id) (use i when))
      (Settles S.Inv (S.Onward i) (S.Guarantees i) i (Consumes S s i userID normalized id)) db := by
  apply (stable i).scan
  . intro db' honward _
    exact ⟨fresh_of_onward honward hfresh, rfl⟩
  . intro db' honward _ db'' honward' _
    exact ⟨⟨fresh_of_onward (honward.trans honward') hfresh, rfl⟩, fun _ _ _ => trivial⟩
  intro db' honward _
  apply (stable i).modifyAll
    (K := fun _ n db => Marking i id n db ∧ Found S s userID normalized id db e)
  . intro _ _ _ _ h honward _
    exact ⟨h.1.onward honward, h.2.onward honward⟩
  . intro _ _ _ _ h _
    refine ⟨h.1.fresh, rfl, .inr ⟨hempty, ?_, ?_⟩⟩
    . intro r hr
      unfold unused at hr
      rw [Bool.and_eq_true, Option.isNone_iff_eq_none] at hr
      exact hr.2
    . intro r
      exact ⟨_, rfl, rfl, nofun, rfl⟩
  . intro _ _ _ _ h _ _
    exact h
  . intro _ _ _ db r h _ _ _ _ hr
    unfold unused at hr
    rw [Bool.and_eq_true, decide_eq_true_iff] at hr
    exact ⟨h.1.write hr.1, h.2.known, h.2.id, h.2.userID, h.2.compares⟩
  . intro _ _ _ h _
    exact ⟨⟨h.1.fresh, rfl⟩, fun _ _ _ => trivial⟩
  . intro n db h hinv
    refine ⟨⟨h.1.fresh, rfl, h.1.opened, ?_⟩, fun _ _ _ => trivial, ?_⟩
    . intro _ userID' hgen'
      rw [hgen] at hgen'
      contradiction
    . intro db' honward _ hn
      exact (h.1.accepted hinv hempty h.2 hn).onward honward
  . refine ⟨⟨fresh_of_onward honward hfresh, honward.opened.mpr hopened, ?_⟩, hfound.onward honward⟩
    intro hn
    contradiction

end Marking

theorem fits_markUsed (when : Int) {e : Entry} (hgen : generatesAt S.calls i = none)
    (hempty : entriesAt S.calls i = []) (hfound : Found S s userID normalized id db e) (hfresh : i ∉ db.commits) :
    Fits S i (markUsed i id when) (Consumes S s i userID normalized id) db := by
  apply (stable i).transaction
  . intro db' honward _
    exact ⟨fresh_of_onward honward hfresh, rfl⟩
  . intro _ _ _
    trivial
  intro db' honward _
  have hfresh' : i ∉ db'.commits := fresh_of_onward honward hfresh
  have hfound' := hfound.onward honward
  apply fits_use hgen hempty
  . exact ⟨hfound'.known, hfound'.id, hfound'.userID, hfound'.compares⟩
  . exact hfresh'
  . exact mem_append_right _ (mem_singleton_self i)

theorem fits_consumeNormalized (hgen : generatesAt S.calls i = none)
    (hempty : entriesAt S.calls i = []) (hfresh : i ∉ db.commits) :
    Fits S i (s.consumeNormalized i userID normalized) (Uses S s i userID normalized) db := by
  have herror {err : BackupError} {db : Codes} :
      Fits S i (pure (.error err)) (Uses S s i userID normalized) db := by
    intro _ _ _ _ heq
    contradiction
  apply (stable i).select
  . intro db' honward _
    exact ⟨fresh_of_onward honward hfresh, trivial⟩
  . intro _ _ _
    exact herror
  intro db1 honward1 hinv1
  have hfresh1 := fresh_of_onward honward1 hfresh
  dsimp only
  split
  . exact herror
  next r hr =>
  have hfound : Found S s userID normalized r.id db1 r.entry := by
    unfold Service.findCode at hr
    have hcompares := List.find?_some hr
    have hmem := mem_of_find?_eq_some hr
    rw [Table.mem_orderBy, mem_filter] at hmem
    rcases hmem with ⟨hrows, hactive⟩
    unfold isActive at hactive
    rw [Bool.and_eq_true, decide_eq_true_iff] at hactive
    exact ⟨hinv1.known r hrows, rfl, hactive.1, hcompares⟩
  apply (stable i).now
  . intro db' honward _
    exact ⟨fresh_of_onward honward hfresh1, trivial⟩
  intro db2 honward2 _
  apply Prog.Rely.bind (stable i).refl
  have hmark := fits_markUsed db2.now hgen hempty (hfound.onward honward2) (fresh_of_onward honward2 hfresh1)
  apply Prog.Rely.mono hmark
  intro result db3 hconsumes
  cases result with
  | error => exact herror
  | ok =>
    dsimp only
    split
    . exact herror
    next hn =>
    intro db4 honward4 _ id heq
    cases heq
    exact (hconsumes hn).onward honward4

section Runs

variable (S) (s) {now : Int} {faults : List Bool} {turns : List (Nat × Nat)} {p : System}

theorem inv_start : S.Inv (s.start now S.rows faults S.calls).shared where
  sound := ⟨(nodup_append.mp S.distinct).1, fun _ _ h => absurd h not_mem_nil⟩
  owned := fun _ _ h => absurd h not_mem_nil
  known := fun r hr => .inl ⟨r, hr, rfl⟩
  newest := by
    intro _ r hr
    apply mem_map_of_mem
    rw [mem_filter]
    exact ⟨hr, decide_eq_true rfl⟩
  single := fun _ _ h => absurd h not_mem_nil

theorem fits_of_run {allowed : System → Nat × Nat → Prop}
    (hallowed : ∀ p turn, allowed p turn → S.strict → apart S.calls p turn = true)
    (run : Run (step (Transactions.semantics schema)) allowed (s.start now S.rows faults S.calls) turns p) :
    S.Inv p.shared ∧ ∀ (i : Nat) (t : Query Outcome), p.threads[i]? = some t → Fits S i t (Ends S s i) p.shared := by
  apply Transactions.obeys_run (A := fun _ {_} c db => S.strict → Stmt.apart S.calls db c = true) stable _ _
    (inv_start S s) _ run
  . intro p turn β paused c k hp hthread n hstrict
    have hapart := hallowed p turn hp hstrict
    unfold apart at hapart
    rw [hthread] at hapart
    exact hapart
  . intro i β c db hinv hguarantees hapart
    refine ⟨hinv.effect hguarantees hapart (Db.exec_effect c db), ?_⟩
    intro j hj
    exact hinv.onward hj hguarantees (Db.exec_effect c db)
  . intro i t ht
    unfold Service.start at ht
    rw [List.getElem?_mapIdx, Option.map_eq_some_iff] at ht
    rcases ht with ⟨c, hc, rfl⟩
    cases c with
    | generate => exact fits_generateBackupCodes hc not_mem_nil rfl
    | consume userID code =>
      have hgen : generatesAt S.calls i = none := by
        unfold generatesAt
        rw [hc]
        rfl
      have hempty : entriesAt S.calls i = [] := by
        unfold entriesAt
        rw [hc]
        rfl
      show Fits S i (s.consumeBackupCode i userID code) _ _
      unfold Service.consumeBackupCode
      generalize hnormalized : normalizeBackupCode code = normalized
      split
      . split
        . exact fits_error _
        apply Prog.Rely.mono (fits_consumeNormalized hgen hempty not_mem_nil)
        intro outcome db' huses id hid
        refine ⟨userID, code, hc, ?_⟩
        rw [hnormalized]
        exact huses id hid
      . exact fits_error _

end Runs

theorem eq_of_took_last {j : Nat} (hinv : S.Inv db) (hi : S.Took i id db) (hj : S.Took j id db)
    (hlast : db.commits.getLast? = some i) : j = i := by
  rcases hi.row with ⟨r, hr, hid, _, hmine⟩ | ⟨_, hnot⟩
  . rcases hj.row with ⟨r', hr', hid', _, hmine'⟩ | ⟨hgone, _⟩
    . have heq := hinv.sound.eq_of_key hr hr' (hid.trans hid'.symm)
      rw [heq, hmine'] at hmine
      exact Option.some.inj hmine
    . exact absurd hid (hgone r hr)
  . contradiction

section Results

variable {now : Int} {faults : List Bool} {turns : List (Nat × Nat)} {p p' : System}
variable {allowed : System → Nat × Nat → Prop}

theorem last_of_took {turn : Nat × Nat} {id : Int}
    (hfits : ∀ (i : Nat) (t : Query Outcome), p.threads[i]? = some t → Fits S i t (Ends S s i) p.shared)
    (hinv : S.Inv p.shared) (hstep : p.step (Transactions.semantics schema) turn = some p')
    (htook : S.Took turn.1 id p'.shared) : p'.shared.commits.getLast? = some turn.1 := by
  rcases Transactions.step_eq_some hstep with ⟨β, paused, c, k, n, hthread, hshared, _⟩
  have hstable := @stable S turn.1
  have hwait := hstable.wait p.shared n hinv
  have hguarantees := (hfits _ _ hthread (p.shared.wait n) (hstable.rel_wait p.shared n) hwait).1
  have hcommitted := htook.committed
  rw [hshared] at hcommitted ⊢
  have hallows := hguarantees.allows
  have heffect := Db.exec_effect c (p.shared.wait n)
  generalize (Db.exec c (p.shared.wait n)).2 = db' at heffect hcommitted ⊢
  cases heffect with
  | quiet | begin | modify | insert | close => exact absurd hcommitted hguarantees.fresh
  | @commit me faults =>
    have heq : me = turn.1 := hallows.1
    rw [← heq]
    exact getLast?_concat

theorem took_of_result (hinv : S.Inv p.shared)
    (hfits : ∀ (i : Nat) (t : Query Outcome), p.threads[i]? = some t → Fits S i t (Ends S s i) p.shared) {id : Int}
    (h : p.result i = some (.consumed id)) : S.Took i id p.shared := by
  have hends := hfits i _ (result_eq_some h) p.shared (Scene.Onward.refl i _) hinv id rfl
  rcases hends with ⟨_, _, _, haccepted⟩
  exact haccepted.took

theorem consumed_once (hallowed : ∀ p turn, allowed p turn → S.strict → apart S.calls p turn = true)
    (run : Run (step (Transactions.semantics schema)) allowed (s.start now S.rows faults S.calls) turns p) :
    ∀ i j id, p.result i = some (.consumed id) → p.result j = some (.consumed id) → i = j := by
  induction run with
  | nil =>
    have hnil : Run (step (Transactions.semantics schema)) allowed (s.start now S.rows faults S.calls) []
        (s.start now S.rows faults S.calls) := .nil
    rcases fits_of_run S s hallowed hnil with ⟨hinv, hfits⟩
    intro i j id hi
    have hcommitted := (took_of_result hinv hfits hi).committed
    contradiction
  | @snoc turns p p' turn run hp hstep ih =>
    rcases fits_of_run S s hallowed run with ⟨hinv, hfits⟩
    rcases fits_of_run S s hallowed (run.snoc hp hstep) with ⟨hinv', hfits'⟩
    have hsame {i : Nat} (hi : i ≠ turn.1) : p'.result i = p.result i := by
      rcases Transactions.step_eq_some hstep with ⟨_, _, _, _, _, _, _, hother⟩
      unfold result
      rw [hother i hi]
    intro i j id hi hj
    have htook := took_of_result hinv' hfits' hi
    have htook' := took_of_result hinv' hfits' hj
    by_cases hturn : i = turn.1
    . subst hturn
      have hlast := last_of_took hfits hinv hstep htook
      exact (eq_of_took_last hinv' htook htook' hlast).symm
    by_cases hturn' : j = turn.1
    . subst hturn'
      have hlast := last_of_took hfits hinv hstep htook'
      exact eq_of_took_last hinv' htook' htook hlast
    . rw [hsame hturn] at hi
      rw [hsame hturn'] at hj
      exact ih i j id hi hj

end Results

theorem codes_used_once_and_newest (s : Service) (now : Int) (rows : List MFABackupCode) (faults : List Bool)
    (calls : List Call) (hids : (allIds calls rows).Nodup) {turns : List (Nat × Nat)} {p : System}
    (run : Run (step (Transactions.semantics schema)) (fun _ _ => True) (s.start now rows faults calls) turns p) :
    (∀ i j id, p.result i = some (.consumed id) → p.result j = some (.consumed id) → i = j)
      ∧ (Run (step (Transactions.semantics schema)) (fun p turn => apart calls p turn = true)
          (s.start now rows faults calls) turns p →
        ∀ i id, p.result i = some (.consumed id) →
          ∃ userID code before after, calls[i]? = some (.consume userID code)
            ∧ p.shared.commits = before ++ i :: after
            ∧ ∃ e ∈ newest calls rows before userID, e.id = id
              ∧ s.compareHashAndPassword e.codeHash (normalizeBackupCode code) = true) := by
  constructor
  . let S : Scene := ⟨calls, rows, hids, False⟩
    have hallowed : ∀ (p : System) (turn : Nat × Nat), True → S.strict → apart S.calls p turn = true := by
      intro _ _ _ hstrict
      contradiction
    exact consumed_once hallowed run
  . intro run' i id hresult
    let S : Scene := ⟨calls, rows, hids, True⟩
    have hallowed : ∀ (p : System) (turn : Nat × Nat), apart calls p turn = true → S.strict →
        apart S.calls p turn = true := by
      intro _ _ h _
      exact h
    rcases fits_of_run S s hallowed run' with ⟨hinv, hfits⟩
    have hends := hfits i _ (result_eq_some hresult) p.shared (Scene.Onward.refl i _) hinv id rfl
    rcases hends with ⟨userID, code, hcall, haccepted⟩
    rcases haccepted.newest trivial with ⟨before, after, hcommits, he⟩
    exact ⟨userID, code, before, after, hcall, hcommits, he⟩

namespace TwoSets

def service : Service where
  backupRepo := true
  compareHashAndPassword := fun hash code => hash = code

def codes (id : Int) (text : String) : List (Int × String) :=
  (List.range 10).map (fun k => (id + k, text ++ k.repr))

def calls : List Call :=
  [.generate 1 (.ok (codes 100 "AAAABBB")), .generate 1 (.ok (codes 200 "CCCCDDD")), .consume 1 "aaaa-bbb3",
    .consume 1 "cccc-ddd7", .consume 1 "CCCCDDD7"]

def generation (i : Nat) : List (Nat × Nat) := List.replicate 13 (i, 0)

def consumption (i : Nat) : List (Nat × Nat) := List.replicate 6 (i, 0)

abbrev inTurn : List (Nat × Nat) :=
  generation 0 ++ [(0, 0)] ++ generation 1 ++ List.replicate 11 (1, 0) ++ [(2, 0)] ++ [(3, 0), (4, 0)]
    ++ List.replicate 5 (3, 0) ++ List.replicate 4 (4, 0)

abbrev inTurnExec : Option System :=
  Run.exec (step (Transactions.semantics schema)) (fun p turn => apart calls p turn = true)
    (service.start 0 [] [] calls) inTurn

theorem inTurnExec_isSome : inTurnExec.isSome = true := by
  decide +kernel

theorem inTurn_used_once_and_newest :
    [0, 1, 2, 3, 4].map (inTurnExec.get inTurnExec_isSome).result
        = [some .generated, some .generated, some (.error .invalidCode), some (.consumed 207),
          some (.error .invalidCode)]
      ∧ (∀ i, (inTurnExec.get inTurnExec_isSome).result i = some (.consumed 207) → i = 3)
      ∧ ∃ userID code before after, calls[3]? = some (.consume userID code)
        ∧ (inTurnExec.get inTurnExec_isSome).shared.commits = before ++ 3 :: after
        ∧ ∃ e ∈ newest calls [] before userID, e.id = 207
          ∧ service.compareHashAndPassword e.codeHash (normalizeBackupCode code) = true := by
  have hrun : Run (step (Transactions.semantics schema)) (fun p turn => apart calls p turn = true)
      (service.start 0 [] [] calls) inTurn (inTurnExec.get inTurnExec_isSome) := Run.of_isSome _
  have hused := codes_used_once_and_newest service 0 [] [] calls (by decide +kernel) (hrun.free)
  have hresult : (inTurnExec.get inTurnExec_isSome).result 3 = some (.consumed 207) := by decide +kernel
  refine ⟨by decide +kernel, ?_, hused.2 hrun 3 207 hresult⟩
  intro i hi
  exact hused.1 i 3 207 hi hresult

abbrev overlapped : List (Nat × Nat) := generation 0 ++ generation 1 ++ [(0, 0), (1, 0)] ++ consumption 2

abbrev overlappedExec : Option System :=
  Run.exec (step (Transactions.semantics schema)) (fun _ _ => True) (service.start 0 [] [] calls) overlapped

theorem overlappedExec_isSome : overlappedExec.isSome = true := by
  decide +kernel

theorem overlapped_used_not_newest :
    Run (step (Transactions.semantics schema)) (fun _ _ => True) (service.start 0 [] [] calls) overlapped
        (overlappedExec.get overlappedExec_isSome)
      ∧ [0, 1, 2].map (overlappedExec.get overlappedExec_isSome).result
        = [some .generated, some .generated, some (.consumed 103)]
      ∧ (overlappedExec.get overlappedExec_isSome).shared.commits = [0, 1, 2]
      ∧ (newest calls [] [0, 1] 1).map Entry.id = [200, 201, 202, 203, 204, 205, 206, 207, 208, 209] := by
  refine ⟨Run.of_isSome _, ?_⟩
  decide +kernel

end TwoSets

end Mxid.User.BackupCodes
