import Mxid.User.Impl.BackupCodes

/-!
This module contains the invariant of the backup codes.
-/

namespace Mxid.User.BackupCodes

open List

open Transactions (Db Stmt Write Stable Obeys)

structure Scene where
  calls : List Call
  rows : List MFABackupCode
  distinct : (allIds calls rows).Nodup
  strict : Prop

variable {calls : List Call} {i : Nat}

theorem generatesAt_of_mem {e : Entry} (h : e ∈ entriesAt calls i) : generatesAt calls i = some e.userID := by
  unfold entriesAt at h
  unfold generatesAt
  cases hcall : calls[i]? with
  | none =>
    rw [hcall] at h
    contradiction
  | some c =>
    rw [hcall] at h
    cases c with
    | consume => contradiction
    | generate userID mint =>
      cases mint with
      | error => contradiction
      | ok =>
        rcases mem_map.mp h with ⟨code, _, rfl⟩
        rfl

theorem mem_entries_of_mem {e : Entry} (h : e ∈ entriesAt calls i) : ∃ c, calls[i]? = some c ∧ e ∈ c.entries := by
  unfold entriesAt at h
  cases hcall : calls[i]? with
  | none =>
    rw [hcall] at h
    contradiction
  | some c =>
    rw [hcall] at h
    exact ⟨c, rfl, h⟩

theorem newest_append {rows : List MFABackupCode} {commits : List Nat} {userID : Int} :
    newest calls rows (commits ++ [i]) userID
      =
    if generatesAt calls i = some userID then entriesAt calls i else newest calls rows commits userID := by
  unfold newest
  rw [foldl_append]
  rfl

namespace Scene

variable (S : Scene) {i j : Nat} {e e' : Entry} {r r' : MFABackupCode} {db db' : Codes} {β : Type}
variable {c : Stmt MFABackupCode Int β}

theorem not_mem_entries (hij : i < j) {c c' : Call} (hc : S.calls[i]? = some c)
    (hc' : S.calls[j]? = some c') (he : e ∈ c.entries) : e ∉ c'.entries := by
  have hnodup : (S.calls.flatMap Call.entries).Nodup := (nodup_append.mp S.distinct).2.1.of_map
  have hpairwise := (nodup_flatMap.mp hnodup).2
  rw [pairwise_iff_getElem] at hpairwise
  rcases List.getElem?_eq_some_iff.mp hc with ⟨hi, rfl⟩
  rcases List.getElem?_eq_some_iff.mp hc' with ⟨hj, rfl⟩
  exact hpairwise i j hi hj hij he

theorem eq_of_id (h : e ∈ entriesAt S.calls i) (h' : e' ∈ entriesAt S.calls j)
    (hid : e.id = e'.id) : i = j ∧ e = e' := by
  rcases mem_entries_of_mem h with ⟨c, hc, he⟩
  rcases mem_entries_of_mem h' with ⟨c', hc', he'⟩
  have hmem := mem_flatMap.mpr ⟨c, mem_of_getElem? hc, he⟩
  have hmem' := mem_flatMap.mpr ⟨c', mem_of_getElem? hc', he'⟩
  have heq : e = e' := inj_on_of_nodup_map (nodup_append.mp S.distinct).2.1 hmem hmem' hid
  subst heq
  refine ⟨?_, rfl⟩
  rcases Nat.lt_trichotomy i j with hlt | heq | hlt
  . exact absurd he' (S.not_mem_entries hlt hc hc' he)
  . exact heq
  . exact absurd he (S.not_mem_entries hlt hc' hc he')

theorem eq_of_id_rows (h : r ∈ S.rows) (h' : r' ∈ S.rows) (hid : r.id = r'.id) : r = r' :=
  inj_on_of_nodup_map (nodup_append.mp S.distinct).1 h h' hid

theorem id_ne (h : r ∈ S.rows) (h' : e ∈ entriesAt S.calls i) : r.id ≠ e.id := by
  rcases mem_entries_of_mem h' with ⟨c, hc, he⟩
  have hdisjoint := (nodup_append.mp S.distinct).2.2
  apply hdisjoint _ (mem_map_of_mem h)
  apply mem_map_of_mem
  exact mem_flatMap.mpr ⟨c, mem_of_getElem? hc, he⟩

def Known (db : Codes) (e : Entry) : Prop :=
  (∃ r ∈ S.rows, e = r.entry) ∨ ∃ i ∈ db.commits, e ∈ entriesAt S.calls i

variable {S}

theorem Known.mono (hcommits : db.commits <+: db'.commits) (h : S.Known db e) : S.Known db' e := by
  rcases h with h | ⟨i, hi, he⟩
  . exact .inl h
  . exact .inr ⟨i, hcommits.subset hi, he⟩

theorem Known.eq_of_id (h : S.Known db e) (h' : S.Known db e') (hid : e.id = e'.id) : e = e' := by
  rcases h with ⟨r, hr, rfl⟩ | ⟨i, _, he⟩
  . rcases h' with ⟨r', hr', rfl⟩ | ⟨j, _, he'⟩
    . rw [S.eq_of_id_rows hr hr' hid]
    . exact absurd hid (S.id_ne hr he')
  . rcases h' with ⟨r', hr', rfl⟩ | ⟨j, _, he'⟩
    . exact absurd hid.symm (S.id_ne hr' he)
    . exact (S.eq_of_id he he' hid).2

variable (S)

structure Took (i : Nat) (id : Int) (db : Codes) : Prop where
  committed : i ∈ db.commits
  known : ∃ e, S.Known db e ∧ e.id = id
  row : (∃ r ∈ db.rows, r.id = id ∧ r.usedAt ≠ none ∧ r.usedBy = some i)
    ∨ ((∀ r ∈ db.rows, r.id ≠ id) ∧ db.commits.getLast? ≠ some i)

structure Marks (i : Nat) (r r₀ : MFABackupCode) : Prop where
  before : r₀.usedAt = none
  entry : r.entry = r₀.entry
  after : r.usedAt ≠ none
  mine : r.usedBy = some i

structure Inv (db : Codes) : Prop where
  sound : db.Sound
  owned : ∀ i r, (i, .put r) ∈ db.pending →
    (r.entry ∈ entriesAt S.calls i ∧ i ∉ db.commits) ∨ ∃ r₀ ∈ db.rows, Marks i r r₀
  known : ∀ r ∈ db.rows, S.Known db r.entry
  newest : S.strict → ∀ r ∈ db.rows, r.entry ∈ newest S.calls S.rows db.commits r.userID
  single : S.strict → ∀ i ∈ db.opened, ∀ j ∈ db.opened, ∀ userID, generatesAt S.calls i = some userID →
    generatesAt S.calls j = some userID → i = j

structure Onward (i : Nat) (db db' : Codes) : Prop where
  keeps : Db.Keeps i db db'
  opened : i ∈ db'.opened ↔ i ∈ db.opened
  committed : i ∈ db'.commits ↔ i ∈ db.commits
  commits : db.commits <+: db'.commits
  took : ∀ id, S.Took i id db → S.Took i id db'
  covered : S.strict → i ∈ db.opened → ∀ userID, generatesAt S.calls i = some userID →
    ∀ r ∈ db'.rows, r.userID = userID → ∃ r₀ ∈ db.rows, r₀.id = r.id ∧ r₀.userID = userID

def Allows (i : Nat) {β : Type} : Stmt MFABackupCode Int β → Codes → Prop
  | .now, _ | .select _, _ => True
  | .begin me, _ | .scan me _, _ => me = i
  | .modify me _ p f, _ => me = i ∧ ((∀ r, f r = none)
    ∨ (entriesAt S.calls i = [] ∧ (∀ r, p r = true → r.usedAt = none)
      ∧ ∀ r, ∃ r', f r = some r' ∧ r'.entry = r.entry ∧ r'.usedAt ≠ none ∧ r'.usedBy = some i))
  | .insert me r, _ => me = i ∧ r.entry ∈ entriesAt S.calls i
  | .commit me, db => me = i ∧ i ∈ db.opened ∧ (S.strict → ∀ userID, generatesAt S.calls i = some userID →
    ∀ r ∈ db.view i, r.userID = userID → r.entry ∈ entriesAt S.calls i)
  | .rollback me, _ => me = i

structure Guarantees (i : Nat) {β : Type} (c : Stmt MFABackupCode Int β) (db : Codes) : Prop where
  fresh : i ∉ db.commits
  allows : S.Allows i c db

variable {S}

theorem Guarantees.conn (h : S.Guarantees i c db) (hj : j ≠ i) : c.conn ≠ some j := by
  have hallows := h.allows
  intro heq
  cases c with
  | now | select => contradiction
  | begin | scan | rollback =>
    cases heq
    exact hj hallows
  | modify | insert | commit =>
    cases heq
    exact hj hallows.1

theorem id_eq_of_entry (h : r.entry = r'.entry) : r.id = r'.id :=
  congrArg Entry.id h

theorem userID_eq_of_entry (h : r.entry = r'.entry) : r.userID = r'.userID :=
  congrArg Entry.userID h

theorem Guarantees.keepsKey (h : S.Guarantees i c db) : Db.KeepsKey schema c := by
  have hallows := h.allows
  cases c with
  | modify =>
    intro r r' hf
    rcases hallows.2 with hnone | ⟨_, _, hmark⟩
    . rw [hnone r] at hf
      contradiction
    . rcases hmark r with ⟨r'', hf', hentry, _⟩
      rw [hf] at hf'
      cases hf'
      exact id_eq_of_entry hentry
  | now | select | begin | scan | insert | commit | rollback => trivial

theorem Inv.view_cases (h : S.Inv db) (hr : r ∈ db.view i) :
    (r ∈ db.rows ∧ r.id ∉ (db.writes i).map (Write.key schema))
      ∨ (r.entry ∈ entriesAt S.calls i ∧ i ∉ db.commits)
      ∨ ∃ r0 ∈ db.rows, Marks i r r0 := by
  rcases Db.mem_view_cases hr with hput | hrows
  . exact .inr (h.owned i r hput)
  . exact .inl hrows

theorem Inv.view_of_known (h : S.Inv db) (hknown : S.Known db e) (hr : r ∈ db.view i) (hid : r.id = e.id) :
    (r ∈ db.rows ∧ r.id ∉ (db.writes i).map (Write.key schema)) ∨ ∃ r0 ∈ db.rows, Marks i r r0 := by
  rcases h.view_cases hr with hrows | ⟨hnew, hi⟩ | hmarks
  . exact .inl hrows
  . rcases hknown with ⟨r', hr', rfl⟩ | ⟨j, hj, he⟩
    . exact absurd hid.symm (S.id_ne hr' hnew)
    . rw [(S.eq_of_id he hnew hid.symm).1] at hj
      contradiction
  . exact .inr hmarks

theorem Inv.commit (h : S.Inv db) (hc : S.Guarantees i (.commit i) db) (faults : List Bool) :
    S.Inv { db.commit i with faults := faults } := by
  have heffect : Db.Effect db (.commit i) { db.commit i with faults := faults } := .commit faults
  have hsound := h.sound.effect heffect trivial
  have hprefix : db.commits <+: db.commits ++ [i] := prefix_append _ _
  refine ⟨hsound, ?_, ?_, ?_, ?_⟩
  . intro j r hr
    rcases mem_filter.mp hr with ⟨hr, hj⟩
    have hj : j ≠ i := of_decide_eq_true hj
    rcases h.owned j r hr with ⟨hnew, hfresh⟩ | ⟨r0, hr0, hmarks⟩
    . left
      refine ⟨hnew, ?_⟩
      show j ∉ db.commits ++ [i]
      simp [hfresh, hj]
    . right
      refine ⟨r0, ?_, hmarks⟩
      -- the row is locked by the other connection
      have hkeeps := h.sound.keeps heffect (hc.conn hj)
      apply (hkeeps.locked r0 _).mpr hr0
      rw [mem_map]
      exact ⟨.put r, Db.mem_writes.mpr hr, id_eq_of_entry hmarks.entry⟩
  . intro r hr
    have hr : r ∈ db.view i := hr
    rcases h.view_cases hr with ⟨hrows, _⟩ | ⟨hnew, _⟩ | ⟨r0, hr0, hmarks⟩
    . exact (h.known r hrows).mono hprefix
    . exact .inr ⟨i, mem_append_right _ (mem_singleton_self i), hnew⟩
    . rw [hmarks.entry]
      exact (h.known r0 hr0).mono hprefix
  . intro hstrict r hr
    have hr : r ∈ db.view i := hr
    show r.entry ∈ BackupCodes.newest S.calls S.rows (db.commits ++ [i]) r.userID
    rw [newest_append]
    split
    . next hgenerates => exact hc.allows.2.2 hstrict r.userID hgenerates r hr rfl
    next hgenerates =>
    rcases h.view_cases hr with ⟨hrows, _⟩ | ⟨hnew, _⟩ | ⟨r0, hr0, hmarks⟩
    . exact h.newest hstrict r hrows
    . exact absurd (generatesAt_of_mem hnew) hgenerates
    . rw [hmarks.entry, userID_eq_of_entry hmarks.entry]
      exact h.newest hstrict r0 hr0
  . intro hstrict j hj l hl
    exact h.single hstrict j (mem_of_mem_filter hj) l (mem_of_mem_filter hl)

theorem Inv.write (h : S.Inv db) {w : Write MFABackupCode Int} (faults : List Bool)
    (hsound : ({ db.write i w with faults := faults } : Codes).Sound) (howned : ∀ r, w = .put r →
      (r.entry ∈ entriesAt S.calls i ∧ i ∉ db.commits) ∨ ∃ r0 ∈ db.rows, Marks i r r0) :
    S.Inv { db.write i w with faults := faults } where
  __ := h
  sound := hsound
  owned := by
    intro j r hr
    rcases mem_append.mp hr with hr | hr
    . exact h.owned j r hr
    . cases mem_singleton.mp hr
      exact howned r rfl

theorem eq_of_apart {calls : List Call} {me : Nat}
    (h : Stmt.apart calls db (.begin me : Stmt MFABackupCode Int (Option Int)) = true) {userID : Int}
    (hme : generatesAt calls me = some userID) (hi : i ∈ db.opened) (hgen : generatesAt calls i = some userID) :
    i = me := by
  rw [Stmt.apart, hme, Option.all_some, all_eq_true] at h
  have hor := h i hi
  simpa [hgen] using hor

theorem Inv.effect (h : S.Inv db) (hc : S.Guarantees i c db) (hapart : S.strict → Stmt.apart S.calls db c = true)
    (heffect : Db.Effect db c db') : S.Inv db' := by
  have hsound := h.sound.effect heffect hc.keepsKey
  have hallows := hc.allows
  cases heffect with
  | quiet => exact ⟨hsound, h.owned, h.known, h.newest, h.single⟩
  | @begin me faults =>
    refine ⟨hsound, h.owned, h.known, h.newest, ?_⟩
    have heq : me = i := hallows
    intro hstrict j hj l hl userID hgen hgen'
    rcases mem_append.mp hj with hold | hnew
    . rcases mem_append.mp hl with hold' | hnew'
      . exact h.single hstrict j hold l hold' userID hgen hgen'
      . cases mem_singleton.mp hnew'
        exact eq_of_apart (hapart hstrict) hgen' hold hgen
    . cases mem_singleton.mp hnew
      rcases mem_append.mp hl with hold' | hnew'
      . exact (eq_of_apart (hapart hstrict) hgen hold' hgen').symm
      . exact (mem_singleton.mp hnew').symm
  | @modify me k p f faults r hheld hr hk hp =>
    rcases hallows with ⟨rfl, hnone | ⟨hempty, hunused, hmark⟩⟩
    . apply h.write faults hsound
      intro r' hr'
      rw [hnone r] at hr'
      contradiction
    . rcases hmark r with ⟨r', hf, hentry, hafter, hmine⟩
      apply h.write faults hsound
      intro r'' hr''
      rw [hf] at hr''
      cases hr''
      right
      have hbefore := hunused r hp
      rcases h.view_cases hr with ⟨hrows, _⟩ | ⟨hnew, _⟩ | ⟨r0, hr0, hmarks⟩
      . exact ⟨r, hrows, hbefore, hentry, hafter, hmine⟩
      . rw [hempty] at hnew
        contradiction
      . exact absurd hbefore hmarks.after
  | @insert me r faults hheld hkey hcheck =>
    rcases hallows with ⟨rfl, hentry⟩
    apply h.write faults hsound
    intro r' hr'
    cases hr'
    exact .inl ⟨hentry, hc.fresh⟩
  | @close _ _ me faults hconn =>
    refine ⟨hsound, ?_, h.known, h.newest, ?_⟩
    . intro j r hr
      exact h.owned j r (mem_of_mem_filter hr)
    . intro hstrict j hj l hl
      exact h.single hstrict j (mem_of_mem_filter hj) l (mem_of_mem_filter hl)
  | @commit me faults =>
    have heq : me = i := hallows.1
    subst heq
    exact h.commit hc faults

theorem onward_of_rows_eq (hkeeps : Db.Keeps j db db') (hopened : j ∈ db'.opened ↔ j ∈ db.opened)
    (hrows : db'.rows = db.rows) (hcommits : db'.commits = db.commits) : S.Onward j db db' where
  keeps := hkeeps
  opened := hopened
  committed := by rw [hcommits]
  commits := hcommits ▸ prefix_refl _
  took := by
    intro id htook
    have hknown : S.Known db' = S.Known db := by
      unfold Known
      rw [hcommits]
    constructor
    . rw [hcommits]
      exact htook.committed
    . rw [hknown]
      exact htook.known
    . rw [hrows, hcommits]
      exact htook.row
  covered := by
    intro _ _ userID _ r hr huser
    rw [hrows] at hr
    exact ⟨r, hr, rfl, huser⟩

theorem Inv.took_commit (h : S.Inv db) (hj : j ≠ i) {id : Int} (htook : S.Took j id db)
    (faults : List Bool) : S.Took j id { db.commit i with faults := faults } := by
  rcases htook.known with ⟨e, hknown, hid⟩
  have hlast : (db.commits ++ [i]).getLast? ≠ some j := by
    simpa using hj.symm
  refine ⟨mem_append_left _ htook.committed, ⟨e, hknown.mono (prefix_append _ _), hid⟩, ?_⟩
  rcases htook.row with ⟨r, hr, hrid, hused, hmine⟩ | ⟨hgone, _⟩
  . by_cases htouched : id ∈ (db.writes i).map (Write.key schema)
    . right
      refine ⟨?_, hlast⟩
      intro r' hr' hid'
      rcases h.view_of_known hknown hr' (hid'.trans hid.symm) with ⟨_, huntouched⟩ | ⟨r0, hr0, hmarks⟩
      . rw [hid'] at huntouched
        contradiction
      . -- the row was used, so it could not be marked
        have hid0 : r0.id = r.id := by rw [← id_eq_of_entry hmarks.entry, hid', hrid]
        have heq := h.sound.eq_of_key hr0 hr hid0
        rw [heq] at hmarks
        exact hused hmarks.before
    . left
      refine ⟨r, ?_, hrid, hused, hmine⟩
      apply Transactions.mem_overlay.mpr
      right
      refine ⟨hr, ?_⟩
      show r.id ∉ _
      rw [hrid]
      exact htouched
  . right
    refine ⟨?_, hlast⟩
    intro r' hr' hid'
    rcases h.view_of_known hknown hr' (hid'.trans hid.symm) with ⟨hrows, _⟩ | ⟨r0, hr0, hmarks⟩
    . exact hgone r' hrows hid'
    . apply hgone r0 hr0
      rw [← id_eq_of_entry hmarks.entry, hid']

theorem Inv.onward (h : S.Inv db) (hj : j ≠ i)
    (hc : S.Guarantees i c db) (heffect : Db.Effect db c db') : S.Onward j db db' := by
  have hkeeps := h.sound.keeps heffect (hc.conn hj)
  have hallows := hc.allows
  have hconn := hc.conn hj
  cases heffect with
  | quiet | modify | insert => exact onward_of_rows_eq hkeeps Iff.rfl rfl rfl
  | @begin me faults =>
    apply onward_of_rows_eq hkeeps _ rfl rfl
    have heq : me = i := hallows
    simp [heq, hj]
  | @close _ _ me faults hme =>
    apply onward_of_rows_eq hkeeps _ rfl rfl
    have hne : j ≠ me := by
      rintro rfl
      exact hconn hme
    show j ∈ db.opened.filter (fun i => i ≠ me) ↔ j ∈ db.opened
    simp [hne]
  | @commit me faults =>
    have heq : me = i := hallows.1
    subst heq
    refine ⟨hkeeps, ?_, ?_, prefix_append _ _, fun id htook => h.took_commit hj htook faults, ?_⟩
    . show j ∈ db.opened.filter (fun i => i ≠ me) ↔ j ∈ db.opened
      simp [hj]
    . show j ∈ db.commits ++ [me] ↔ j ∈ db.commits
      simp [hj]
    intro hstrict hopened userID hgen r hr huser
    have hr : r ∈ db.view me := hr
    rcases h.view_cases hr with ⟨hrows, _⟩ | ⟨hnew, _⟩ | ⟨r0, hr0, hmarks⟩
    . exact ⟨r, hrows, rfl, huser⟩
    . -- two generations for the user would be in progress
      have hgen' := generatesAt_of_mem hnew
      have heq := h.single hstrict j hopened me hallows.2.1 userID hgen (huser ▸ hgen')
      contradiction
    . refine ⟨r0, hr0, (id_eq_of_entry hmarks.entry).symm, ?_⟩
      rw [← userID_eq_of_entry hmarks.entry, huser]

theorem Onward.refl (i : Nat) (db : Codes) : S.Onward i db db := onward_of_rows_eq (.refl i db) Iff.rfl rfl rfl

theorem Onward.trans {db'' : Codes} (h : S.Onward i db db') (h' : S.Onward i db' db'') : S.Onward i db db'' where
  keeps := h.keeps.trans h'.keeps
  opened := h'.opened.trans h.opened
  committed := h'.committed.trans h.committed
  commits := h.commits.trans h'.commits
  took := fun id htook => h'.took id (h.took id htook)
  covered := by
    intro hstrict hopened userID hgen r hr huser
    rcases h'.covered hstrict (h.opened.mpr hopened) userID hgen r hr huser with ⟨r', hr', hid', huser'⟩
    rcases h.covered hstrict hopened userID hgen r' hr' huser' with ⟨r'', hr'', hid'', huser''⟩
    exact ⟨r'', hr'', hid''.trans hid', huser''⟩

theorem stable (i : Nat) : Stable S.Inv (S.Onward i) where
  refl := Onward.refl i
  trans := Onward.trans
  wait := fun _ _ h => ⟨⟨h.sound.nodup, h.sound.exclusive⟩, h.owned, h.known, h.newest, h.single⟩
  next := fun _ h => ⟨⟨h.sound.nodup, h.sound.exclusive⟩, h.owned, h.known, h.newest, h.single⟩
  rel_wait := by
    intro db n
    have hnow : db.now ≤ (db.wait n).now := by
      show db.now ≤ db.now + n
      omega
    exact onward_of_rows_eq ⟨rfl, fun _ _ => Iff.rfl, hnow⟩ Iff.rfl rfl rfl
  rel_next := fun db => onward_of_rows_eq ⟨rfl, fun _ _ => Iff.rfl, Int.le_refl _⟩ Iff.rfl rfl rfl

end Scene

end Mxid.User.BackupCodes
