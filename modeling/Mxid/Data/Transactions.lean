import Mathlib.Data.List.Nodup
import Mxid.Data.Prog
import Mxid.Data.Run

/-!
This module contains a table that connections work on in transactions. A row that a transaction has written belongs to
it until it ends. A statement that comes upon such a row waits, which is to say that its turn does not come; if it does
come, then the statement was given up.
-/

namespace Transactions

open List

structure Schema (ρ κ : Type) where
  key : ρ → κ
  primary : String
  indexes : List (String × (ρ → ρ → Bool))

inductive Write (ρ κ : Type) where
  | put (r : ρ)
  | remove (k : κ)

section

variable {ρ κ : Type} [DecidableEq κ] (S : Schema ρ κ)

namespace Write

def key : Write ρ κ → κ
  | .put r => S.key r
  | .remove k => k

def row : Write ρ κ → Option ρ
  | .put r => some r
  | .remove _ => none

def apply (rows : List ρ) (w : Write ρ κ) : List ρ :=
  rows.filter (fun r => S.key r ≠ w.key S) ++ w.row.toList

end Write

def overlay (ws : List (Write ρ κ)) (rows : List ρ) : List ρ := ws.foldl (Write.apply S) rows

end

structure Db {ρ κ : Type} (S : Schema ρ κ) where
  now : Int
  rows : List ρ
  pending : List (Nat × Write ρ κ)
  opened : List Nat
  commits : List Nat
  faults : List Bool

inductive Inserted where
  | done
  | violates (index : String)
  | failed

/--
The statements, with the connection that they are sent on. A reply of `none` is an error. An `UPDATE` or a `DELETE` is a
`scan` for the rows that it is about, and a `modify` for each of them.
-/
inductive Stmt (ρ κ : Type) : Type → Type
  | now : Stmt ρ κ Int
  | select (p : ρ → Bool) : Stmt ρ κ (Option (List ρ))
  | begin (me : Nat) : Stmt ρ κ (Option Int)
  | scan (me : Nat) (p : ρ → Bool) : Stmt ρ κ (Option (List κ))
  | modify (me : Nat) (k : κ) (p : ρ → Bool) (f : ρ → Option ρ) : Stmt ρ κ (Option Bool)
  | insert (me : Nat) (r : ρ) : Stmt ρ κ Inserted
  | commit (me : Nat) : Stmt ρ κ Bool
  | rollback (me : Nat) : Stmt ρ κ Unit

namespace Db

variable {ρ κ : Type} [DecidableEq κ] {S : Schema ρ κ} (db : Db S) (me : Nat)

def writes : List (Write ρ κ) := (db.pending.filter (fun w => w.1 = me)).map Prod.snd

def view : List ρ := overlay S (db.writes me) db.rows

def heldByOther (k : κ) : Bool := db.pending.any (fun w => w.1 ≠ me && w.2.key S = k)

def inProgress (p : ρ → Bool) : Bool :=
  db.pending.any (fun w =>
    w.1 ≠ me && (w.2.row.any p || db.rows.any (fun r => S.key r = w.2.key S && p r)))

def check (r : ρ) : List (String × (ρ → ρ → Bool)) → Inserted
  | [] => .done
  | (index, clash) :: rest =>
    if db.inProgress me (clash r) then
      .failed
    else if (db.view me).any (clash r) then
      .violates index
    else
      check r rest

def verdict (r : ρ) : Inserted :=
  if db.heldByOther me (S.key r) then
    .failed
  else if (db.view me).any (fun r' => S.key r' = S.key r) then
    .violates S.primary
  else
    db.check me r S.indexes

def write (w : Write ρ κ) : Db S := { db with pending := db.pending ++ [(me, w)] }

def close : Db S :=
  { db with
    pending := db.pending.filter (fun w => w.1 ≠ me)
    opened := db.opened.filter (fun i => i ≠ me) }

def commit : Db S := { db.close me with rows := db.view me, commits := db.commits ++ [me] }

def wait (n : Nat) : Db S := { db with now := db.now + n }

def next : Db S := { db with faults := db.faults.tail }

def fails : Bool := db.faults.headD false

def exec {β : Type} : Stmt ρ κ β → Db S → β × Db S
  | .now, db => (db.now, db)
  | .select p, db => if db.fails then (none, db.next) else (some (db.rows.filter p), db.next)
  | .begin me, db =>
    if db.fails then (none, db.next) else (some db.now, { db.next with opened := db.opened ++ [me] })
  | .scan me p, db => if db.fails then (none, db.next) else (some (((db.view me).filter p).map S.key), db.next)
  | .modify me k p f, db =>
    if db.fails || db.heldByOther me k then
      (none, db.next)
    else
      match (db.view me).find? (fun r => S.key r = k && p r) with
      | none => (some false, db.next)
      | some r => (some true, db.next.write me (((f r).map Write.put).getD (.remove k)))
  | .insert me r, db =>
    if db.fails then
      (.failed, db.next)
    else
      match db.verdict me r with
      | .done => (.done, db.next.write me (.put r))
      | reply => (reply, db.next)
  | .commit me, db => if db.fails then (false, db.next.close me) else (true, db.next.commit me)
  | .rollback me, db => ((), db.close me)

end Db

def semantics {ρ κ : Type} [DecidableEq κ] (S : Schema ρ κ) : Prog.Semantics (Stmt ρ κ) (Db S) where
  step := Db.exec
  advance n db := db.wait n

section Overlay

variable {ρ κ : Type} [DecidableEq κ] {S : Schema ρ κ} {ws : List (Write ρ κ)} {w : Write ρ κ} {rows : List ρ} {r : ρ}

theorem overlay_append : overlay S (ws ++ [w]) rows = w.apply S (overlay S ws rows) := by
  unfold overlay
  rw [foldl_append]
  rfl

theorem Write.mem_apply : r ∈ w.apply S rows ↔ w.row = some r ∨ (r ∈ rows ∧ S.key r ≠ w.key S) := by
  unfold Write.apply
  rw [mem_append, mem_filter, Option.mem_toList, decide_eq_true_iff, or_comm]

omit [DecidableEq κ] in
theorem Write.key_of_row (h : w.row = some r) : S.key r = w.key S := by
  cases w with
  | put =>
    cases h
    rfl
  | remove => contradiction

theorem mem_overlay : r ∈ overlay S ws rows ↔ r ∈ overlay S ws [] ∨ (r ∈ rows ∧ S.key r ∉ ws.map (Write.key S)) := by
  induction ws using List.reverseRecOn with
  | nil =>
    show r ∈ rows ↔ r ∈ [] ∨ (r ∈ rows ∧ S.key r ∉ [])
    simp
  | append_singleton ws w ih =>
    rw [overlay_append, overlay_append, Write.mem_apply, Write.mem_apply, ih, map_append, mem_append]
    simp only [map_cons, map_nil, mem_singleton]
    tauto

theorem put_of_mem_overlay (h : r ∈ overlay S ws []) : .put r ∈ ws := by
  induction ws using List.reverseRecOn with
  | nil => contradiction
  | append_singleton ws w ih =>
    rw [overlay_append, Write.mem_apply] at h
    rcases h with h | ⟨h, _⟩
    . cases w with
      | put =>
        cases h
        simp
      | remove => contradiction
    . exact mem_append_left _ (ih h)

theorem nodup_overlay (h : (rows.map S.key).Nodup) : ((overlay S ws rows).map S.key).Nodup := by
  induction ws using List.reverseRecOn with
  | nil => exact h
  | append_singleton ws w ih =>
    rw [overlay_append]
    unfold Write.apply
    rw [map_append, nodup_append]
    refine ⟨?_, ?_, ?_⟩
    . exact ih.sublist (filter_sublist.map S.key)
    . cases w.row <;> simp
    intro k hk k' hk'
    rcases mem_map.mp hk with ⟨r, hr, rfl⟩
    rcases mem_map.mp hk' with ⟨r', hr', rfl⟩
    rw [Option.mem_toList] at hr'
    rw [Write.key_of_row hr']
    exact of_decide_eq_true (mem_filter.mp hr).2

theorem exists_mem_overlay (hput : ∀ w ∈ ws, ∃ r, w = .put r) {k : κ} (hk : k ∈ ws.map (Write.key S)) :
    ∃ r ∈ overlay S ws [], S.key r = k := by
  induction ws using List.reverseRecOn with
  | nil => contradiction
  | append_singleton ws w ih =>
    rcases hput w (by simp) with ⟨r', rfl⟩
    by_cases hkey : S.key r' = k
    . refine ⟨r', ?_, hkey⟩
      rw [overlay_append, Write.mem_apply]
      exact .inl rfl
    have hws : k ∈ ws.map (Write.key S) := by
      rw [map_append, mem_append] at hk
      rcases hk with hk | hk
      . exact hk
      . exact absurd (mem_singleton.mp hk).symm hkey
    rcases ih (fun w hw => hput w (mem_append_left _ hw)) hws with ⟨r, hr, hrk⟩
    refine ⟨r, ?_, hrk⟩
    rw [overlay_append, Write.mem_apply]
    right
    refine ⟨hr, ?_⟩
    rw [hrk]
    exact fun heq => hkey heq.symm

end Overlay

namespace Db

variable {ρ κ : Type} {S : Schema ρ κ} {db : Db S} {me : Nat}

theorem mem_writes {w : Write ρ κ} : w ∈ db.writes me ↔ (me, w) ∈ db.pending := by
  unfold writes
  simp

theorem writes_write_self (me : Nat) (w : Write ρ κ) : (db.write me w).writes me = db.writes me ++ [w] := by
  unfold writes write
  simp

theorem writes_write_of_ne {i : Nat} (h : i ≠ me) (w : Write ρ κ) : (db.write me w).writes i = db.writes i := by
  unfold writes write
  simp [h.symm]

theorem writes_close_self (me : Nat) : (db.close me).writes me = [] := by
  unfold writes close
  simp

theorem writes_close_of_ne {i : Nat} (h : i ≠ me) : (db.close me).writes i = db.writes i := by
  unfold writes close
  rw [filter_filter]
  congr 2
  funext w
  by_cases hw : w.1 = i
  . simp [hw, h]
  . simp [hw]

structure Sound (db : Db S) : Prop where
  nodup : (db.rows.map S.key).Nodup
  exclusive : ∀ i w, (i, w) ∈ db.pending → ∀ j w', (j, w') ∈ db.pending → w.key S = w'.key S → i = j

theorem Sound.close (h : db.Sound) (me : Nat) : (db.close me).Sound where
  nodup := h.nodup
  exclusive := by
    intro i w hw j w' hw'
    exact h.exclusive i w (mem_of_mem_filter hw) j w' (mem_of_mem_filter hw')

theorem Sound.eq_of_key (h : db.Sound) {r r' : ρ} (hr : r ∈ db.rows) (hr' : r' ∈ db.rows)
    (hkey : S.key r = S.key r') : r = r' :=
  inj_on_of_nodup_map h.nodup hr hr' hkey

structure Keeps (me : Nat) (db db' : Db S) : Prop where
  writes : db'.writes me = db.writes me
  locked : ∀ r, S.key r ∈ (db.writes me).map (Write.key S) → (r ∈ db'.rows ↔ r ∈ db.rows)
  now : db.now ≤ db'.now

theorem Keeps.refl (me : Nat) (db : Db S) : Keeps me db db where
  writes := rfl
  locked := fun _ _ => Iff.rfl
  now := Int.le_refl _

theorem Keeps.trans {db db' db'' : Db S} (h : Keeps me db db') (h' : Keeps me db' db'') : Keeps me db db'' where
  writes := h'.writes.trans h.writes
  locked := by
    intro r hr
    rw [h'.locked r (h.writes.symm ▸ hr), h.locked r hr]
  now := Int.le_trans h.now h'.now

end Db

def Stmt.conn {ρ κ β : Type} : Stmt ρ κ β → Option Nat
  | .now | .select _ => none
  | .begin me | .scan me _ | .modify me _ _ _ | .insert me _ | .commit me | .rollback me => some me

namespace Db

variable {ρ κ : Type} [DecidableEq κ] {S : Schema ρ κ} {db : Db S}

inductive Effect (db : Db S) : {β : Type} → Stmt ρ κ β → Db S → Prop
  | quiet {β : Type} {c : Stmt ρ κ β} (faults : List Bool) : Effect db c { db with faults := faults }
  | begin {me : Nat} (faults : List Bool) :
      Effect db (.begin me) { db with faults := faults, opened := db.opened ++ [me] }
  | modify {me : Nat} {k : κ} {p : ρ → Bool} {f : ρ → Option ρ} (faults : List Bool) {r : ρ}
      (hheld : db.heldByOther me k = false) (hr : r ∈ db.view me) (hk : S.key r = k) (hp : p r = true) :
      Effect db (.modify me k p f) { db.write me (((f r).map Write.put).getD (.remove k)) with faults := faults }
  | insert {me : Nat} {r : ρ} (faults : List Bool) (hheld : db.heldByOther me (S.key r) = false)
      (hkey : ∀ r' ∈ db.view me, S.key r' ≠ S.key r)
      (hcheck : ∀ index ∈ S.indexes, db.inProgress me (index.2 r) = false ∧ (db.view me).any (index.2 r) = false) :
      Effect db (.insert me r) { db.write me (.put r) with faults := faults }
  | close {β : Type} {c : Stmt ρ κ β} {me : Nat} (faults : List Bool) (hc : c.conn = some me) :
      Effect db c { db.close me with faults := faults }
  | commit {me : Nat} (faults : List Bool) :
      Effect db (.commit me) { db.commit me with faults := faults }

variable {me : Nat} {r : ρ} {β : Type}

theorem check_eq_done {indexes : List (String × (ρ → ρ → Bool))} (h : db.check me r indexes = .done) :
    ∀ index ∈ indexes, db.inProgress me (index.2 r) = false ∧ (db.view me).any (index.2 r) = false := by
  induction indexes with
  | nil =>
    intro index hindex
    contradiction
  | cons index rest ih =>
    unfold check at h
    split at h
    . contradiction
    next hprogress =>
    split at h
    . contradiction
    next hview =>
    intro index' hindex'
    rcases mem_cons.mp hindex' with rfl | hindex'
    . exact ⟨Bool.eq_false_iff.mpr hprogress, Bool.eq_false_iff.mpr hview⟩
    . exact ih h index' hindex'

theorem verdict_eq_done (h : db.verdict me r = .done) :
    db.heldByOther me (S.key r) = false ∧ (∀ r' ∈ db.view me, S.key r' ≠ S.key r)
      ∧ ∀ index ∈ S.indexes, db.inProgress me (index.2 r) = false ∧ (db.view me).any (index.2 r) = false := by
  unfold verdict at h
  split at h
  . contradiction
  next hheld =>
  split at h
  . contradiction
  next hview =>
  refine ⟨Bool.eq_false_iff.mpr hheld, ?_, check_eq_done h⟩
  intro r' hr' heq
  apply hview
  rw [any_eq_true]
  exact ⟨r', hr', decide_eq_true heq⟩

theorem exec_effect (c : Stmt ρ κ β) (db : Db S) : Effect db c (exec c db).2 := by
  cases c with
  | now => exact .quiet db.faults
  | select | scan =>
    rw [exec]
    split <;> exact .quiet _
  | begin =>
    rw [exec]
    split
    . exact .quiet _
    . exact .begin _
  | modify =>
    rw [exec]
    split
    . exact .quiet _
    next hheld =>
    rw [Bool.or_eq_true, not_or, Bool.not_eq_true, Bool.not_eq_true] at hheld
    split
    . exact .quiet _
    next r hfind =>
    have hr := List.find?_some hfind
    rw [Bool.and_eq_true, decide_eq_true_iff] at hr
    exact .modify _ hheld.2 (mem_of_find?_eq_some hfind) hr.1 hr.2
  | insert =>
    rw [exec]
    split
    . exact .quiet _
    split
    . next h =>
      rcases verdict_eq_done h with ⟨hheld, hkey, hcheck⟩
      exact .insert _ hheld hkey hcheck
    . exact .quiet _
  | commit =>
    rw [exec]
    split
    . exact .close _ rfl
    . exact .commit _
  | rollback => exact .close db.faults rfl

theorem mem_view_cases (h : r ∈ db.view me) :
    (me, .put r) ∈ db.pending ∨ (r ∈ db.rows ∧ S.key r ∉ (db.writes me).map (Write.key S)) := by
  rcases mem_overlay.mp h with h | h
  . exact .inl (mem_writes.mp (put_of_mem_overlay h))
  . exact .inr h

theorem heldByOther_eq_false {k : κ} :
    db.heldByOther me k = false ↔ ∀ i w, (i, w) ∈ db.pending → i ≠ me → w.key S ≠ k := by
  unfold heldByOther
  rw [any_eq_false]
  constructor
  . intro h i w hw hi hk
    apply h (i, w) hw
    simp [hi, hk]
  . rintro h ⟨i, w⟩ hw hheld
    rw [Bool.and_eq_true, decide_eq_true_iff, decide_eq_true_iff] at hheld
    exact h i w hw hheld.1 hheld.2

def KeepsKey (S : Schema ρ κ) {β : Type} : Stmt ρ κ β → Prop
  | .modify _ _ _ f => ∀ r r', f r = some r' → S.key r' = S.key r
  | _ => True

theorem Sound.write (h : db.Sound) {w : Write ρ κ} (hheld : db.heldByOther me (w.key S) = false) :
    (db.write me w).Sound where
  nodup := h.nodup
  exclusive := by
    rw [heldByOther_eq_false] at hheld
    have hnew : ∀ i w', (i, w') ∈ db.pending → w'.key S = w.key S → i = me := by
      intro i w' hw' hkey
      by_contra hi
      exact hheld i w' hw' hi hkey
    intro i w1 h1 j w2 h2 hkey
    rcases mem_append.mp h1 with h1 | h1
    . rcases mem_append.mp h2 with h2 | h2
      . exact h.exclusive i w1 h1 j w2 h2 hkey
      . cases mem_singleton.mp h2
        exact hnew i w1 h1 hkey
    . cases mem_singleton.mp h1
      rcases mem_append.mp h2 with h2 | h2
      . exact (hnew j w2 h2 hkey.symm).symm
      . cases mem_singleton.mp h2
        rfl

theorem Sound.effect (h : db.Sound) {c : Stmt ρ κ β} {db' : Db S} (heffect : Effect db c db')
    (hc : KeepsKey S c) : db'.Sound := by
  cases heffect with
  | quiet | begin => exact ⟨h.nodup, h.exclusive⟩
  | @modify me k p f faults r hheld hr hk hp =>
    have hkey : (((f r).map Write.put).getD (.remove k)).key S = k := by
      cases hf : f r with
      | none => rfl
      | some r' => exact (hc r r' hf).trans hk
    have hsound := h.write (w := ((f r).map Write.put).getD (.remove k)) (hkey.symm ▸ hheld)
    exact ⟨hsound.nodup, hsound.exclusive⟩
  | insert faults hheld =>
    have hsound := h.write (w := .put _) hheld
    exact ⟨hsound.nodup, hsound.exclusive⟩
  | close =>
    exact ⟨h.nodup, (h.close _).exclusive⟩
  | commit =>
    exact ⟨nodup_overlay h.nodup, (h.close _).exclusive⟩

theorem Sound.keeps (h : db.Sound) {c : Stmt ρ κ β} {db' : Db S} (heffect : Effect db c db')
    (hme : c.conn ≠ some me) : Keeps me db db' := by
  cases heffect with
  | quiet | begin => exact ⟨rfl, fun _ _ => Iff.rfl, Int.le_refl _⟩
  | modify | insert =>
    have hne : me ≠ _ := fun heq => hme (congrArg some heq.symm)
    exact ⟨writes_write_of_ne hne _, fun _ _ => Iff.rfl, Int.le_refl _⟩
  | close faults hconn =>
    have hne : me ≠ _ := fun heq => hme (hconn.trans (congrArg some heq.symm))
    exact ⟨writes_close_of_ne hne, fun _ _ => Iff.rfl, Int.le_refl _⟩
  | @commit you faults =>
    have hne : me ≠ you := fun heq => hme (congrArg some heq.symm)
    refine ⟨writes_close_of_ne hne, ?_, Int.le_refl _⟩
    intro r hr
    show r ∈ overlay S (db.writes you) db.rows ↔ r ∈ db.rows
    -- what this connection has written, the other has not
    have huntouched : S.key r ∉ (db.writes you).map (Write.key S) := by
      intro hyou
      rcases mem_map.mp hr with ⟨w, hw, hkey⟩
      rcases mem_map.mp hyou with ⟨w', hw', hkey'⟩
      exact hne (h.exclusive me w (mem_writes.mp hw) you w' (mem_writes.mp hw') (hkey.trans hkey'.symm))
    rw [mem_overlay]
    constructor
    . rintro (hput | hrows)
      . exact absurd (mem_map_of_mem (put_of_mem_overlay hput)) huntouched
      . exact hrows.1
    . intro hrows
      exact .inr ⟨hrows, huntouched⟩

end Db

end Transactions
