import Mxid.Data.Statements
import Mxid.Data.Transactions

/-!
This module contains the rules for programs that work in transactions.
-/

namespace Transactions

open List Db
open Prog (call)

inductive DbError where
  | failed
  | violates (index : String)
  deriving DecidableEq

section Programs

variable {ρ κ α : Type}

def insertRow (me : Nat) (r : ρ) : Prog (Stmt ρ κ) (Except DbError Unit) := do
  match ← call (.insert me r) with
  | .done => pure (.ok ())
  | .violates index => pure (.error (.violates index))
  | .failed => pure (.error .failed)

def insertRows (me : Nat) : List ρ → Prog (Stmt ρ κ) (Except DbError Unit)
  | [] => pure (.ok ())
  | r :: rows => do
    match ← insertRow me r with
    | .error err => pure (.error err)
    | .ok () => insertRows me rows

def modifyAll (me : Nat) (p : ρ → Bool) (f : ρ → Option ρ) : List κ → Nat → Prog (Stmt ρ κ) (Except DbError Nat)
  | [], n => pure (.ok n)
  | k :: ks, n => do
    match ← call (.modify me k p f) with
    | none => pure (.error .failed)
    | some affected => modifyAll me p f ks (if affected then n + 1 else n)

def update (me : Nat) (p : ρ → Bool) (f : ρ → Option ρ) : Prog (Stmt ρ κ) (Except DbError Nat) := do
  match ← call (.scan me p) with
  | none => pure (.error .failed)
  | some ks => modifyAll me p f ks 0

def finish (me : Nat) : Except DbError α → Prog (Stmt ρ κ) (Except DbError α)
  | .error err => do
    call (.rollback me)
    pure (.error err)
  | .ok a => do
    if ← call (.commit me) then pure (.ok a) else pure (.error .failed)

def transaction (me : Nat) (body : (now : Int) → Prog (Stmt ρ κ) (Except DbError α)) :
    Prog (Stmt ρ κ) (Except DbError α) := do
  match ← call (.begin me) with
  | none => pure (.error .failed)
  | some now => body now >>= finish me

end Programs

def Stmt.commits {ρ κ β : Type} : Stmt ρ κ β → β → Bool
  | .commit _, committed => committed
  | _, _ => false

section Commits

variable {ρ κ α β : Type}

theorem Db.rows_exec [DecidableEq κ] {S : Schema ρ κ} {c : Stmt ρ κ β} {db : Db S}
    (h : c.commits (exec c db).1 = false) : (exec c db).2.rows = db.rows := by
  cases c with
  | commit =>
    rw [exec] at h ⊢
    split
    . rfl
    next hfails =>
    rw [if_neg hfails] at h
    contradiction
  | modify | insert =>
    rw [exec]
    split
    . rfl
    . split <;> rfl
  | now | rollback => rfl
  | select | begin | scan =>
    rw [exec]
    split <;> rfl

abbrev Concludes (Q : α → Prop) (p : Prog (Stmt ρ κ) α) : Prop := p.Leads (fun c b a => c.commits b = true → Q a)

variable {Q : α → Prop} {f : β → Prog (Stmt ρ κ) α}

theorem concludes_call {c : Stmt ρ κ β} (hc : ∀ b, c.commits b = false)
    (hf : ∀ b, Concludes Q (f b)) : Concludes Q (call c >>= f) := by
  apply Prog.leads_call _ hf
  intro b
  apply (Prog.always_true (f b)).mono (fun _ h => h)
  intro a _ hcommits
  rw [hc b] at hcommits
  contradiction

abbrev Reads (p : Prog (Stmt ρ κ) α) : Prop := p.Always (fun c => ∀ b, c.commits b = false) (fun _ => True)

theorem Reads.concludes {p : Prog (Stmt ρ κ) α} (h : Reads p) : Concludes Q p := by
  induction p with
  | ret => trivial
  | cmd paused c k ih => exact concludes_call h.1 (fun b => ih b (h.2 b))

theorem Reads.bind {p : Prog (Stmt ρ κ) β} (h : Reads p) (hf : ∀ b, Concludes Q (f b)) : Concludes Q (p >>= f) := by
  induction p with
  | ret b => exact hf b
  | cmd paused c k ih => exact concludes_call h.1 (fun b => ih b (h.2 b))

theorem reads_insertRow (me : Nat) (r : ρ) : Reads (insertRow me r : Prog (Stmt ρ κ) _) := by
  apply Prog.always_call_bind (fun _ => rfl)
  intro reply
  cases reply <;> trivial

theorem reads_modifyAll (me : Nat) (p : ρ → Bool) (f : ρ → Option ρ) (ks : List κ) (n : Nat) :
    Reads (modifyAll me p f ks n) := by
  induction ks generalizing n with
  | nil => trivial
  | cons k ks ih =>
    apply Prog.always_call_bind (fun _ => rfl)
    intro reply
    cases reply with
    | none => trivial
    | some => exact ih _

theorem reads_update (me : Nat) (p : ρ → Bool) (f : ρ → Option ρ) : Reads (update me p f : Prog (Stmt ρ κ) _) := by
  apply Prog.always_call_bind (fun _ => rfl)
  intro reply
  cases reply with
  | none => trivial
  | some ks => exact reads_modifyAll me p f ks 0

theorem concludes_transaction {me : Nat} {body : Int → Prog (Stmt ρ κ) (Except DbError α)}
    (hbody : ∀ now, Reads (body now)) : Concludes (fun result => ∃ a, result = .ok a) (transaction me body) := by
  apply concludes_call (fun _ => rfl)
  intro reply
  cases reply with
  | none => trivial
  | some now =>
    apply (hbody now).bind
    intro result
    cases result with
    | error =>
      apply concludes_call (fun _ => rfl)
      intro _
      trivial
    | ok a =>
      apply Prog.leads_call
      . intro committed
        cases committed with
        | false =>
          intro h
          contradiction
        | true =>
          intro _
          exact ⟨a, rfl⟩
      . intro committed
        cases committed <;> trivial

theorem Concludes.bind {R : β → Prop} {p : Prog (Stmt ρ κ) β} (h : Concludes R p)
    (hR : ∀ b, R b → (f b).Always (fun _ => True) Q) (hf : ∀ b, Reads (f b)) : Concludes Q (p >>= f) := by
  apply Prog.leads_bind
  . induction p with
    | ret => trivial
    | cmd paused c k ih =>
      intro reply
      refine ⟨?_, ih reply (h reply).2⟩
      apply (h reply).1.mono (fun _ h => h)
      intro b hb
      by_cases hcommits : c.commits reply = true
      . exact (hR b (hb hcommits)).mono (fun _ h => h) (fun _ hQ _ => hQ)
      . exact (Prog.always_true (f b)).mono (fun _ h => h) (fun _ _ h => absurd h hcommits)
  . intro b
    exact (hf b).concludes

end Commits

section Rules

variable {ρ κ α β : Type} [DecidableEq κ] {S : Schema ρ κ} (I : Db S → Prop) (rel : Db S → Db S → Prop)

structure Stable : Prop where
  refl : ∀ db, rel db db
  trans : ∀ {db db' db''}, rel db db' → rel db' db'' → rel db db''
  wait : ∀ db n, I db → I (db.wait n)
  next : ∀ db, I db → I db.next
  rel_wait : ∀ db n, rel db (db.wait n)
  rel_next : ∀ db, rel db db.next

abbrev Obeys (G : {β : Type} → Stmt ρ κ β → Db S → Prop) (p : Prog (Stmt ρ κ) α) (Q : α → Db S → Prop)
    (db : Db S) : Prop :=
  p.Rely (semantics S) I rel G Q db

abbrev Later (db : Db S) (P : Db S → Prop) : Prop :=
  ∀ db', rel db db' → I db' → P db'

variable {I rel} {G : {β : Type} → Stmt ρ κ β → Db S → Prop} {db : Db S} {Q : α → Db S → Prop}

theorem Stable.call (hs : Stable I rel) {c : Stmt ρ κ β} {f : β → Prog (Stmt ρ κ) α}
    (h : ∀ db', rel db db' → I db' → G c db' ∧ Obeys I rel G (f (exec c db').1) Q (exec c db').2) :
    Obeys I rel G (call c >>= f) Q db := by
  apply Prog.rely_call
  intro db' hrel hI
  refine ⟨(h db' hrel hI).1, ?_⟩
  intro delay
  exact (h (db'.wait delay) (hs.trans hrel (hs.rel_wait db' delay)) (hs.wait db' delay hI)).2

section Statements

variable (hs : Stable I rel) {me : Nat} {p : ρ → Bool}

include hs

theorem Stable.next_call {c : Stmt ρ κ β} {f : β → Prog (Stmt ρ κ) α} (hG : Later I rel db (G c))
    (h : ∀ db', rel db db'.next → I db'.next → Obeys I rel G (f (exec c db').1) Q (exec c db').2) :
    Obeys I rel G (Prog.call c >>= f) Q db := by
  apply hs.call
  intro db' hrel hI
  exact ⟨hG db' hrel hI, h db' (hs.trans hrel (hs.rel_next db')) (hs.next db' hI)⟩

theorem Stable.now {f : Int → Prog (Stmt ρ κ) α} (hG : Later I rel db (G .now))
    (h : ∀ db', rel db db' → I db' → Obeys I rel G (f db'.now) Q db') : Obeys I rel G (Prog.call .now >>= f) Q db := by
  apply hs.call
  intro db' hrel hI
  exact ⟨hG db' hrel hI, h db' hrel hI⟩

theorem Stable.select {f : Option (List ρ) → Prog (Stmt ρ κ) α} (hG : Later I rel db (G (.select p)))
    (hnone : Later I rel db (Obeys I rel G (f none) Q))
    (hsome : ∀ db', rel db db' → I db' → Obeys I rel G (f (some (db'.rows.filter p))) Q db') :
    Obeys I rel G (Prog.call (.select p) >>= f) Q db := by
  apply hs.next_call hG
  intro db' hrel hI
  rw [exec]
  split
  . exact hnone _ hrel hI
  . exact hsome _ hrel hI

theorem Stable.scan {f : Option (List κ) → Prog (Stmt ρ κ) α} (hG : Later I rel db (G (.scan me p)))
    (hnone : Later I rel db (Obeys I rel G (f none) Q)) (hsome : ∀ db', rel db db' → I db' →
      Obeys I rel G (f (some (((db'.view me).filter p).map S.key))) Q db') :
    Obeys I rel G (Prog.call (.scan me p) >>= f) Q db := by
  apply hs.next_call hG
  intro db' hrel hI
  rw [exec]
  split
  . exact hnone _ hrel hI
  . exact hsome _ hrel hI

theorem Stable.modify {k : κ} {g : ρ → Option ρ} {f : Option Bool → Prog (Stmt ρ κ) α}
    (hG : Later I rel db (G (.modify me k p g)))
    (hnone : Later I rel db (Obeys I rel G (f none) Q))
    (hfalse : ∀ db', rel db db' → I db' → (∀ r ∈ db'.view me, S.key r = k → p r = false) →
      Obeys I rel G (f (some false)) Q db')
    (htrue : ∀ db' r, rel db db' → I db' → db'.heldByOther me k = false → r ∈ db'.view me → S.key r = k →
      p r = true → Obeys I rel G (f (some true)) Q (db'.write me (((g r).map Write.put).getD (.remove k)))) :
    Obeys I rel G (Prog.call (.modify me k p g) >>= f) Q db := by
  apply hs.next_call hG
  intro db' hrel hI
  rw [exec]
  split
  . exact hnone _ hrel hI
  next hheld =>
  rw [Bool.or_eq_true, not_or, Bool.not_eq_true, Bool.not_eq_true] at hheld
  split
  . next hfind =>
    apply hfalse _ hrel hI
    intro r hr hk
    have := List.find?_eq_none.mp hfind r hr
    rw [hk, decide_eq_true rfl, Bool.true_and, Bool.not_eq_true] at this
    exact this
  . next r hfind =>
    have hr := List.find?_some hfind
    rw [Bool.and_eq_true, decide_eq_true_iff] at hr
    exact htrue _ r hrel hI hheld.2 (mem_of_find?_eq_some hfind) hr.1 hr.2

theorem Stable.insert {r : ρ} {f : Inserted → Prog (Stmt ρ κ) α}
    (hG : Later I rel db (G (.insert me r)))
    (hrefused : ∀ db' reply, rel db db' → I db' → reply ≠ .done → Obeys I rel G (f reply) Q db')
    (hdone : ∀ db', rel db db' → I db' → (∀ r' ∈ db'.view me, S.key r' ≠ S.key r) →
      Obeys I rel G (f .done) Q (db'.write me (.put r))) : Obeys I rel G (Prog.call (.insert me r) >>= f) Q db := by
  apply hs.next_call hG
  intro db' hrel hI
  rw [exec]
  split
  . exact hrefused _ _ hrel hI Inserted.noConfusion
  split
  . next hverdict => exact hdone _ hrel hI (verdict_eq_done hverdict).2.1
  . next hverdict => exact hrefused _ _ hrel hI hverdict

theorem Stable.begin {f : Option Int → Prog (Stmt ρ κ) α} (hG : Later I rel db (G (.begin me)))
    (hnone : Later I rel db (Obeys I rel G (f none) Q)) (hsome : ∀ db', rel db db' → I db' →
      Obeys I rel G (f (some db'.now)) Q { db' with opened := db'.opened ++ [me] }) :
    Obeys I rel G (Prog.call (.begin me) >>= f) Q db := by
  apply hs.next_call hG
  intro db' hrel hI
  rw [exec]
  split
  . exact hnone _ hrel hI
  . exact hsome _ hrel hI

theorem Stable.commit {f : Bool → Prog (Stmt ρ κ) α} (hG : Later I rel db (G (.commit me)))
    (hfalse : ∀ db', rel db db' → I db' → Obeys I rel G (f false) Q (db'.close me))
    (htrue : ∀ db', rel db db' → I db' → Obeys I rel G (f true) Q (db'.commit me)) :
    Obeys I rel G (Prog.call (.commit me) >>= f) Q db := by
  apply hs.next_call hG
  intro db' hrel hI
  rw [exec]
  split
  . exact hfalse _ hrel hI
  . exact htrue _ hrel hI

variable {R : Except DbError Unit → Db S → Prop}

theorem Stable.insertRow {r : ρ}
    (hG : Later I rel db (G (.insert me r)))
    (herror : ∀ db' err, rel db db' → I db' → R (.error err) db')
    (hdone : ∀ db' db'', rel db db' → I db' → (∀ r' ∈ db'.view me, S.key r' ≠ S.key r) →
      rel (db'.write me (.put r)) db'' → I db'' → R (.ok ()) db'') :
    Obeys I rel G (Transactions.insertRow me r) R db := by
  apply hs.insert hG
  . intro db' reply hrel hI hreply
    cases reply with
    | done => contradiction
    | violates | failed =>
      intro db'' hrel'
      exact herror db'' _ (hs.trans hrel hrel')
  . intro db' hrel hI hkey db'' hrel'
    exact hdone db' db'' hrel hI hkey hrel'

theorem Stable.insertRows {K : List ρ → Db S → Prop} (hK : ∀ rows db db', K rows db → rel db db' → I db' → K rows db')
    (hG : ∀ r rows db, K (r :: rows) db → I db → G (.insert me r) db)
    (hwrite : ∀ r rows db, K (r :: rows) db → I db → K rows (db.write me (.put r)))
    (herror : ∀ rows db err, K rows db → I db → R (.error err) db) (hok : ∀ db, K [] db → I db → R (.ok ()) db)
    {rows : List ρ} (hinit : K rows db) : Obeys I rel G (Transactions.insertRows me rows) R db := by
  induction rows generalizing db with
  | nil =>
    intro db' hrel hI
    exact hok db' (hK [] db db' hinit hrel hI) hI
  | cons r rows ih =>
    apply Prog.Rely.bind hs.refl
    apply hs.insertRow
    . intro db' hrel hI
      exact hG r rows db' (hK _ db db' hinit hrel hI) hI
    . intro db' err hrel hI db'' hrel' hI'
      exact herror _ db'' err (hK _ db db'' hinit (hs.trans hrel hrel') hI') hI'
    . intro db' db'' hrel hI _ hrel' hI'
      apply ih
      exact hK rows _ db'' (hwrite r rows db' (hK _ db db' hinit hrel hI) hI) hrel' hI'

theorem Stable.modifyAll {g : ρ → Option ρ} {R : Except DbError Nat → Db S → Prop} {K : List κ → Nat → Db S → Prop}
    (hK : ∀ ks n db db', K ks n db → rel db db' → I db' → K ks n db')
    (hG : ∀ k ks n db, K (k :: ks) n db → I db → G (.modify me k p g) db)
    (hskip : ∀ k ks n db, K (k :: ks) n db → I db → (∀ r ∈ db.view me, S.key r = k → p r = false) → K ks n db)
    (hwrite : ∀ k ks n db r, K (k :: ks) n db → I db → db.heldByOther me k = false → r ∈ db.view me → S.key r = k →
      p r = true → K ks (n + 1) (db.write me (((g r).map Write.put).getD (.remove k))))
    (herror : ∀ ks n db, K ks n db → I db → R (.error .failed) db) (hok : ∀ n db, K [] n db → I db → R (.ok n) db)
    {ks : List κ} {n : Nat} (hinit : K ks n db) : Obeys I rel G (Transactions.modifyAll me p g ks n) R db := by
  induction ks generalizing db n with
  | nil =>
    intro db' hrel hI
    exact hok n db' (hK [] n db db' hinit hrel hI) hI
  | cons k ks ih =>
    apply hs.modify
    . intro db' hrel hI
      exact hG k ks n db' (hK _ n db db' hinit hrel hI) hI
    . intro db' hrel hI db'' hrel' hI'
      exact herror _ n db'' (hK _ n db db'' hinit (hs.trans hrel hrel') hI') hI'
    . intro db' hrel hI hfalse
      exact ih (hskip k ks n db' (hK _ n db db' hinit hrel hI) hI hfalse)
    . intro db' r hrel hI hheld hr hk hp
      exact ih (hwrite k ks n db' r (hK _ n db db' hinit hrel hI) hI hheld hr hk hp)

omit hs in
def Settles (I : Db S → Prop) (rel : Db S → Db S → Prop) (G : {β : Type} → Stmt ρ κ β → Db S → Prop) (me : Nat)
    (R : Except DbError α → Db S → Prop) : Except DbError α → Db S → Prop
  | .error err, db => G (.rollback me) db ∧ ∀ db', rel (db.close me) db' → I db' → R (.error err) db'
  | .ok a, db =>
    G (.commit me) db ∧ (∀ db', rel (db.close me) db' → I db' → R (.error .failed) db')
      ∧ ∀ db', rel (db.commit me) db' → I db' → R (.ok a) db'

theorem Stable.transaction {body : Int → Prog (Stmt ρ κ) (Except DbError α)} {R : Except DbError α → Db S → Prop}
    (hG : Later I rel db (G (.begin me))) (herror : Later I rel db (R (.error .failed)))
    (hbody : ∀ db', rel db db' → I db' →
      Obeys I rel G (body db'.now) (Settles I rel G me R) { db' with opened := db'.opened ++ [me] }) :
    Obeys I rel G (Transactions.transaction me body) R db := by
  apply hs.begin hG
  . intro db' hrel hI db'' hrel'
    exact herror db'' (hs.trans hrel hrel')
  intro db' hrel hI
  apply Prog.Rely.bind hs.refl
  have hlasting := (hbody db' hrel hI).lasting hs.trans
  apply Prog.Rely.mono hlasting
  intro result db1 hsettles
  cases result with
  | error =>
    apply hs.call
    intro db2 hrel2 hI2
    exact hsettles db2 hrel2 hI2
  | ok =>
    apply hs.commit
    . intro db2 hrel2 hI2
      exact (hsettles db2 hrel2 hI2).1
    . intro db2 hrel2 hI2
      exact (hsettles db2 hrel2 hI2).2.1
    . intro db2 hrel2 hI2
      exact (hsettles db2 hrel2 hI2).2.2

end Statements

section Turns

variable {relOf : Nat → Db S → Db S → Prop} {GOf : Nat → {β : Type} → Stmt ρ κ β → Db S → Prop}
variable {Qs : Nat → α → Db S → Prop} {allowed : Pool (Stmt ρ κ) α (Db S) → Nat × Nat → Prop}
variable {A : Nat → {β : Type} → Stmt ρ κ β → Db S → Prop}

theorem step_eq_some {p p' : Pool (Stmt ρ κ) α (Db S)} {turn : Nat × Nat} (h : p.step (semantics S) turn = some p') :
    ∃ (β : Type) (paused : Bool) (c : Stmt ρ κ β) (k : β → Prog (Stmt ρ κ) α) (n : Nat),
      p.threads[turn.1]? = some (.cmd paused c k) ∧ p'.shared = (exec c (p.shared.wait n)).2
        ∧ ∀ j, j ≠ turn.1 → p'.threads[j]? = p.threads[j]? := by
  rcases Pool.step_eq_some h with ⟨β, paused, c, k, hthread, hshared, _, _, hother⟩
  cases paused with
  | true => exact ⟨β, true, c, k, turn.2, hthread, hshared, hother⟩
  | false =>
    refine ⟨β, false, c, k, 0, hthread, ?_, hother⟩
    have hwait : p.shared.wait 0 = p.shared := by
      unfold wait
      simp
    rw [hshared, hwait]
    rfl

/--
The statements that the programs guarantee, among those that are allowed, keep the invariant and are what the other
connections rely on. Then the invariant holds at the end of every run, and every program goes on as it should.
-/
theorem obeys_run (hs : ∀ i, Stable I (relOf i))
    (hA : ∀ (p : Pool (Stmt ρ κ) α (Db S)) (turn : Nat × Nat) {β : Type} (paused : Bool) (c : Stmt ρ κ β)
      (k : β → Prog (Stmt ρ κ) α), allowed p turn → p.threads[turn.1]? = some (.cmd paused c k) →
      ∀ n, A turn.1 c (p.shared.wait n))
    (hexec : ∀ (i : Nat) {β : Type} (c : Stmt ρ κ β) (db : Db S), I db → GOf i c db → A i c db →
      I (exec c db).2 ∧ ∀ j, j ≠ i → relOf j db (exec c db).2) {p p' : Pool (Stmt ρ κ) α (Db S)}
    {turns : List (Nat × Nat)} (hI : I p.shared)
    (hthreads : ∀ (i : Nat) (t : Prog (Stmt ρ κ) α), p.threads[i]? = some t →
      Obeys I (relOf i) (GOf i) t (Qs i) p.shared) (run : Run (Pool.step (semantics S)) allowed p turns p') :
    I p'.shared ∧ ∀ (i : Nat) (t : Prog (Stmt ρ κ) α), p'.threads[i]? = some t →
      Obeys I (relOf i) (GOf i) t (Qs i) p'.shared := by
  apply run.invariant (I := fun p => I p.shared ∧ ∀ (i : Nat) (t : Prog (Stmt ρ κ) α), p.threads[i]? = some t →
    Obeys I (relOf i) (GOf i) t (Qs i) p.shared) ⟨hI, hthreads⟩
  rintro p turn p' ⟨hI, hthreads⟩ hallowed hstep
  rcases step_eq_some hstep with ⟨β, paused, c, k, n, hthread, hshared, _⟩
  have hwait := (hs turn.1).wait p.shared n hI
  have hG := (hthreads _ _ hthread (p.shared.wait n) ((hs turn.1).rel_wait p.shared n) hwait).1
  rcases hexec turn.1 c (p.shared.wait n) hwait hG (hA p turn paused c k hallowed hthread n) with ⟨hI', hrel⟩
  rw [← hshared] at hI' hrel
  refine ⟨hI', ?_⟩
  apply Pool.rely_step_each (fun i => (hs i).refl) (fun i => (hs i).trans) hI hthreads _ hstep
  intro i hi
  exact (hs i).trans ((hs i).rel_wait p.shared n) (hrel i hi)

end Turns

end Rules

namespace Db

section Index

variable {ρ κ : Type} [DecidableEq κ] {S : Schema ρ κ} {db db' : Db S} {clash : ρ → ρ → Bool}

def Unique (S : Schema ρ κ) (clash : ρ → ρ → Bool) (rows : List ρ) : Prop :=
  ∀ r ∈ rows, ∀ r' ∈ rows, clash r r' = true → S.key r = S.key r'

structure Indexed (clash : ρ → ρ → Bool) (db : Db S) : Prop where
  rows : Unique S clash db.rows
  view : ∀ i, Unique S clash (db.view i)
  apart : ∀ i j r r', i ≠ j → .put r ∈ db.writes i → .put r' ∈ db.writes j → clash r r' = false

def KeepsIndex (clash : ρ → ρ → Bool) {β : Type} : Stmt ρ κ β → Prop
  | .modify _ _ _ f => ∀ r r' r'', f r = some r' → clash r' r'' = false
  | _ => True

variable {me i : Nat}

theorem mem_view_write {w : Write ρ κ} {r : ρ} :
    r ∈ (db.write me w).view me ↔ w.row = some r ∨ (r ∈ db.view me ∧ S.key r ≠ w.key S) := by
  unfold view
  rw [writes_write_self, overlay_append, Write.mem_apply]
  rfl

theorem view_write_of_ne (hi : i ≠ me) (w : Write ρ κ) : (db.write me w).view i = db.view i := by
  unfold view
  rw [writes_write_of_ne hi]
  rfl

theorem view_close_self (me : Nat) : (db.close me).view me = db.rows := by
  unfold view
  rw [writes_close_self]
  rfl

theorem view_close_of_ne (hi : i ≠ me) : (db.close me).view i = db.view i := by
  unfold view
  rw [writes_close_of_ne hi]
  rfl

section

variable (hsymm : ∀ r r', clash r r' = clash r' r)

include hsymm

theorem Indexed.write (h : db.Indexed clash) (me : Nat) {w : Write ρ κ}
    (hview : ∀ r r', w.row = some r → r' ∈ db.view me → clash r r' = false)
    (hothers : ∀ r i r', w.row = some r → i ≠ me → .put r' ∈ db.writes i → clash r r' = false) :
    (db.write me w).Indexed clash where
  rows := h.rows
  view := by
    intro i
    by_cases hi : i = me
    . subst hi
      intro r hr r' hr' hclash
      rw [mem_view_write] at hr hr'
      rcases hr with hr | ⟨hr, _⟩
      . rcases hr' with hr' | ⟨hr', _⟩
        . rw [hr] at hr'
          rw [Option.some.inj hr']
        . rw [hview r r' hr hr'] at hclash
          contradiction
      . rcases hr' with hr' | ⟨hr', _⟩
        . rw [hsymm, hview r' r hr' hr] at hclash
          contradiction
        . exact h.view i r hr r' hr' hclash
    . rw [view_write_of_ne hi]
      exact h.view i
  apart := by
    have hnew : ∀ r i r', .put r ∈ (db.write me w).writes me → i ≠ me → .put r' ∈ db.writes i → clash r r' = false := by
      intro r i r' hr hi hr'
      rw [writes_write_self, mem_append, mem_singleton] at hr
      rcases hr with hr | hr
      . exact h.apart me i r r' (Ne.symm hi) hr hr'
      . exact hothers r i r' (hr ▸ rfl) hi hr'
    intro i j r r' hij hr hr'
    by_cases hi : i = me
    . subst hi
      rw [writes_write_of_ne hij.symm] at hr'
      exact hnew r j r' hr hij.symm hr'
    by_cases hj : j = me
    . subst hj
      rw [writes_write_of_ne hi] at hr
      rw [hsymm]
      exact hnew r' i r hr' hi hr
    . rw [writes_write_of_ne hi] at hr
      rw [writes_write_of_ne hj] at hr'
      exact h.apart i j r r' hij hr hr'

omit hsymm in
theorem Indexed.close (h : db.Indexed clash) (me : Nat) : (db.close me).Indexed clash where
  rows := h.rows
  view := by
    intro i
    by_cases hi : i = me
    . subst hi
      rw [view_close_self]
      exact h.rows
    . rw [view_close_of_ne hi]
      exact h.view i
  apart := by
    have hmem : ∀ i r, .put r ∈ (db.close me).writes i → .put r ∈ db.writes i := by
      intro i r hr
      exact mem_writes.mpr (mem_of_mem_filter (mem_writes.mp hr))
    intro i j r r' hij hr hr'
    exact h.apart i j r r' hij (hmem i r hr) (hmem j r' hr')

theorem Indexed.commit (h : db.Indexed clash) (me : Nat) : (db.commit me).Indexed clash where
  rows := h.view me
  view := by
    intro i
    by_cases hi : i = me
    . subst hi
      show Unique S clash (overlay S ((db.close i).writes i) (db.view i))
      rw [writes_close_self]
      exact h.view i
    . show Unique S clash (overlay S ((db.close me).writes i) (db.view me))
      rw [writes_close_of_ne hi]
      have hmixed : ∀ r r', r ∈ overlay S (db.writes i) [] → r' ∈ db.view me →
          S.key r' ∉ (db.writes i).map (Write.key S) → clash r r' = true → S.key r = S.key r' := by
        intro r r' hr hr' huntouched hclash
        rcases mem_overlay.mp hr' with hr' | ⟨hr', _⟩
        . rw [h.apart i me r r' hi (put_of_mem_overlay hr) (put_of_mem_overlay hr')] at hclash
          contradiction
        . exact h.view i r (mem_overlay.mpr (.inl hr)) r' (mem_overlay.mpr (.inr ⟨hr', huntouched⟩)) hclash
      intro r hr r' hr' hclash
      rcases mem_overlay.mp hr with hr | ⟨hr, huntouched⟩
      . rcases mem_overlay.mp hr' with hr' | ⟨hr', huntouched'⟩
        . exact h.view i r (mem_overlay.mpr (.inl hr)) r' (mem_overlay.mpr (.inl hr')) hclash
        . exact hmixed r r' hr hr' huntouched' hclash
      . rcases mem_overlay.mp hr' with hr' | ⟨hr', _⟩
        . rw [hsymm] at hclash
          exact (hmixed r' r hr' hr huntouched hclash).symm
        . exact h.view me r hr r' hr' hclash
  apart := (h.close me).apart

theorem Indexed.effect (h : db.Indexed clash) {index : String} (hindex : (index, clash) ∈ S.indexes) {β : Type}
    {c : Stmt ρ κ β} (heffect : Effect db c db') (hc : KeepsIndex clash c) : db'.Indexed clash := by
  cases heffect with
  | quiet | begin => exact ⟨h.rows, h.view, h.apart⟩
  | @modify me k p f faults r hheld hr hk hp =>
    have hrow : ∀ r', (((f r).map Write.put).getD (.remove k)).row = some r' → f r = some r' := by
      intro r' hr'
      cases hf : f r with
      | none =>
        rw [hf] at hr'
        contradiction
      | some =>
        rw [hf] at hr'
        exact hr'
    have hwrite := h.write hsymm me (w := ((f r).map Write.put).getD (.remove k))
      (fun r' r'' hr' _ => hc r r' r'' (hrow r' hr')) (fun r' _ r'' hr' _ _ => hc r r' r'' (hrow r' hr'))
    exact ⟨hwrite.rows, hwrite.view, hwrite.apart⟩
  | @insert me r faults hheld hkey hcheck =>
    rcases hcheck (index, clash) hindex with ⟨hprogress, hview⟩
    have hwrite : (db.write me (.put r)).Indexed clash := by
      apply h.write hsymm
      . intro r1 r' hr1 hr'
        cases hr1
        exact Bool.eq_false_iff.mpr (any_eq_false.mp hview r' hr')
      . intro r1 i r' hr1 hi hr'
        cases hr1
        unfold inProgress at hprogress
        rw [any_eq_false] at hprogress
        have := hprogress (i, .put r') (mem_writes.mp hr')
        simp [hi, Write.row] at this
        exact this.1
    exact ⟨hwrite.rows, hwrite.view, hwrite.apart⟩
  | @close _ _ me faults hconn =>
    have hclose := h.close me
    exact ⟨hclose.rows, hclose.view, hclose.apart⟩
  | @commit me faults =>
    have hcommit := h.commit hsymm me
    exact ⟨hcommit.rows, hcommit.view, hcommit.apart⟩

end

end Index

end Db

end Transactions
