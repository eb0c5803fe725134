import Mxid.App.Impl.Keys

namespace Mxid.App.Keys

open List Table KeyService Pool

open Prog (call)

inductive Stage (certs : Certs) : Prog Cmd (Except KeyError AppCert) → Prop
  | done (r : Except KeyError AppCert) : Stage certs (pure r)
  | rotate (s : KeyService) (appID : Int) (mint : Except KeyError KeyPair) : Stage certs (s.rotateForApp appID mint)
  | demote (cert : AppCert) (hmem : cert ∈ certs.rows) (hsigns : cert.signsFor cert.appID = true) :
      Stage certs (demote cert)
  | undo (cert : AppCert) (hmem : cert ∈ certs.rows) (hsigns : cert.signsFor cert.appID = true) :
      Stage certs (undo cert)

inductive Move (certs : Certs) (free : Int → Prop) :
    Prog Cmd (Except KeyError AppCert) → Prog Cmd (Except KeyError AppCert) → Certs → Prop
  | refused (t : Prog Cmd (Except KeyError AppCert)) (err : KeyError) (hnone : inflight t = none) :
      Move certs free t (pure (.error err)) certs
  | created (t : Prog Cmd (Except KeyError AppCert)) (cert : AppCert) (certs' : Certs) (hnone : inflight t = none)
      (hsigns : cert.signsFor cert.appID = true) (hinsert : certs.insert? cert = some certs') :
      Move certs free t (demote cert) certs'
  | demoted (cert : AppCert) (hmem : cert ∈ certs.rows) (hsigns : cert.signsFor cert.appID = true)
      (hfree : free cert.appID) :
      Move certs free (demote cert) (pure (.ok cert)) (demoteOthers certs cert.appID cert.id)
  | failed (cert : AppCert) (hmem : cert ∈ certs.rows) (hsigns : cert.signsFor cert.appID = true) :
      Move certs free (demote cert) (undo cert) certs
  | removed (cert : AppCert) (err : KeyError) (hmem : cert ∈ certs.rows) (hsigns : cert.signsFor cert.appID = true) :
      Move certs free (undo cert) (pure (.error err)) (certs.delete (fun c => c.id = cert.id))

variable {cert : AppCert} {p p' : System} {turn : Nat × Nat} {appID : Int}
variable {t : Prog Cmd (Except KeyError AppCert)} {i : Nat}

theorem insert?_of_createCert {certs certs' : Certs} (h : createCert certs cert = some certs') :
    certs.insert? cert = some certs' := by
  unfold createCert at h
  split at h
  . contradiction
  . exact h

theorem inflight_rotateForApp (s : KeyService) (appID : Int) (mint : Except KeyError KeyPair) :
    inflight (s.rotateForApp appID mint) = none := by
  unfold rotateForApp generateForApp
  cases s.masterKey with
  | none => rfl
  | some => cases mint <;> rfl

theorem Stage.move {certs : Certs} {β : Type} {paused : Bool} {c : Cmd β} {k : β → Prog Cmd (Except KeyError AppCert)}
    (hstage : Stage certs (.cmd paused c k)) (horderly : c.orderly p turn = true) (fails : Bool) :
    Move certs (fun appID => alone p turn.1 appID = true) (.cmd paused c k)
      (k (semantics.run paused turn.2 c ⟨certs, fails⟩).1) (semantics.run paused turn.2 c ⟨certs, fails⟩).2.data := by
  rw [Prog.Semantics.faulty_run]
  generalize ht : Prog.cmd paused c k = t at hstage
  cases hstage with
  | done => contradiction
  | rotate s appID mint =>
    unfold rotateForApp generateForApp at ht
    cases hmaster : s.masterKey with
    | none =>
      rw [hmaster] at ht
      contradiction
    | some =>
      cases mint with
      | error =>
        rw [hmaster] at ht
        contradiction
      | ok pair =>
        have hnone := inflight_rotateForApp s appID (.ok pair)
        rw [hmaster] at ht
        cases ht
        simp only [if_true]
        split
        . exact .refused _ _ hnone
        rw [exec]
        cases hcreate : createCert certs (newCert appID pair) with
        | none => exact .refused _ _ hnone
        | some =>
          exact .created _ _ _ hnone (by simp [AppCert.signsFor, newCert]) (insert?_of_createCert hcreate)
  | demote cert hmem hsigns =>
    cases ht
    simp only [if_true]
    split
    . exact .failed cert hmem hsigns
    next hturn =>
    have hzero : turn.2 = 0 := by simpa using hturn
    apply Move.demoted cert hmem hsigns
    simpa [Cmd.orderly, hzero] using horderly
  | undo cert hmem hsigns =>
    cases ht
    have hzero : turn.2 = 0 := by simpa [Cmd.orderly] using horderly
    simp only [if_true, hzero, ne_eq, not_true_eq_false, decide_false]
    exact .removed cert _ hmem hsigns

theorem appID_of_signsFor (h : cert.signsFor appID = true) : cert.appID = appID := by
  simp only [AppCert.signsFor, Bool.and_eq_true, decide_eq_true_eq] at h
  exact h.1.1

theorem mem_demoteOthers_of_signsFor {certs : Certs} {id a : Int} {c : AppCert} (hsigns : c.signsFor a = true) :
    c ∈ (demoteOthers certs appID id).rows ↔ c ∈ certs.rows ∧ (a ≠ appID ∨ c.id = id) := by
  unfold demoteOthers
  rw [rows_update, mem_map]
  constructor
  . rintro ⟨r, hr, hc⟩
    split at hc
    . -- a certificate that was demoted does not sign
      subst hc
      simp [AppCert.signsFor] at hsigns
    . next hsel =>
      subst hc
      refine ⟨hr, ?_⟩
      by_contra hnot
      rw [not_or, not_not] at hnot
      apply hsel
      rw [← hnot.1, hsigns]
      simp [hnot.2]
  . rintro ⟨hmem, hkept⟩
    refine ⟨c, hmem, ?_⟩
    rw [if_neg]
    intro hsel
    rw [Bool.and_eq_true, decide_eq_true_eq] at hsel
    rcases hkept with happ | hid
    . apply happ
      rw [← appID_of_signsFor hsigns, appID_of_signsFor hsel.1]
    . exact hsel.2 hid

theorem Stage.mem {certs : Certs} (h : Stage certs t) {key : Int × Int}
    (hkey : inflight t = some key) : ∃ cert ∈ certs.rows, cert.id = key.2 := by
  cases h with
  | done => contradiction
  | rotate =>
    rw [inflight_rotateForApp] at hkey
    contradiction
  | demote cert hmem | undo cert hmem =>
    cases hkey
    exact ⟨cert, hmem, rfl⟩

theorem Stage.keep {certs certs' : Certs} (h : Stage certs t)
    (hkeep : ∀ cert ∈ certs.rows, cert.signsFor cert.appID = true → inflight t = some (cert.appID, cert.id) →
      cert ∈ certs'.rows) : Stage certs' t := by
  cases h with
  | done r => exact .done r
  | rotate s appID mint => exact .rotate s appID mint
  | demote cert hmem hsigns => exact .demote cert (hkeep cert hmem hsigns rfl) hsigns
  | undo cert hmem hsigns => exact .undo cert (hkeep cert hmem hsigns rfl) hsigns

section Move

variable {certs certs' : Certs} {free : Int → Prop} {t t' : Prog Cmd (Except KeyError AppCert)}

section

variable (hmove : Move certs free t t' certs')

include hmove

theorem Move.stage : Stage certs' t' := by
  cases hmove with
  | refused | demoted | removed => exact .done _
  | created _ new _ _ hsigns hinsert => exact .demote new ((mem_of_insert? hinsert).mpr (.inl rfl)) hsigns
  | failed mine hmem hsigns => exact .undo mine hmem hsigns

theorem Move.keep {cert : AppCert} (hmem : cert ∈ certs.rows) (hsigns : cert.signsFor cert.appID = true)
    (hne : ∀ key, inflight t = some key → key.2 ≠ cert.id) (hfree : ¬free cert.appID) : cert ∈ certs'.rows := by
  cases hmove with
  | refused | failed => exact hmem
  | created _ _ _ _ _ hinsert => exact (mem_of_insert? hinsert).mpr (.inr hmem)
  | demoted mine _ _ hmine =>
    rw [mem_demoteOthers_of_signsFor hsigns]
    refine ⟨hmem, .inl ?_⟩
    intro heq
    apply hfree
    rw [heq]
    exact hmine
  | removed mine =>
    rw [rows_delete, mem_filter]
    refine ⟨hmem, ?_⟩
    have hid := hne (mine.appID, mine.id) rfl
    simpa using hid.symm

theorem Move.inflight {key : Int × Int} (hkey : inflight t' = some key) :
    inflight t = some key ∨ ∀ cert ∈ certs.rows, cert.id ≠ key.2 := by
  cases hmove with
  | refused | demoted | removed => contradiction
  | created _ new _ _ _ hinsert =>
    right
    cases hkey
    intro cert hcert
    exact key_ne_of_insert? hinsert hcert
  | failed => exact .inl hkey

theorem Move.signsFor_iff {a : Int}
    (ha : ∀ cert, t' = pure (.ok cert) → cert.appID ≠ a) {c : AppCert} (hsigns : c.signsFor a = true) :
    c ∈ certs'.rows ∧ Keys.inflight t' ≠ some (a, c.id)
      ↔
    c ∈ certs.rows ∧ Keys.inflight t ≠ some (a, c.id) := by
  have happ := appID_of_signsFor hsigns
  cases hmove with
  | refused _ err hnone =>
    rw [hnone]
    rfl
  | created _ new _ hnone _ hinsert =>
    rw [mem_of_insert? hinsert, hnone]
    constructor
    . rintro ⟨hmem, hmine⟩
      rcases hmem with rfl | hmem
      . rw [← happ] at hmine
        contradiction
      . exact ⟨hmem, nofun⟩
    . rintro ⟨hmem, _⟩
      refine ⟨.inr hmem, ?_⟩
      intro heq
      have hid : new.id = c.id := congrArg Prod.snd (Option.some.inj heq)
      exact key_ne_of_insert? hinsert hmem hid.symm
  | demoted mine =>
    have hne := ha mine rfl
    rw [mem_demoteOthers_of_signsFor hsigns]
    constructor
    . rintro ⟨⟨hmem, _⟩, _⟩
      refine ⟨hmem, ?_⟩
      intro heq
      exact hne (congrArg Prod.fst (Option.some.inj heq))
    . rintro ⟨hmem, _⟩
      exact ⟨⟨hmem, .inl hne.symm⟩, nofun⟩
  | failed => rfl
  | removed mine err hmine =>
    rw [rows_delete, mem_filter]
    constructor
    . rintro ⟨⟨hmem, hid⟩, _⟩
      refine ⟨hmem, ?_⟩
      intro heq
      have heq : mine.id = c.id := congrArg Prod.snd (Option.some.inj heq)
      simp [heq] at hid
    . rintro ⟨hmem, hother⟩
      refine ⟨⟨hmem, ?_⟩, nofun⟩
      by_contra hid
      have hid : c.id = mine.id := by simpa using hid
      have heq := certs.eq_of_key_eq hmem hmine hid
      apply hother
      rw [heq] at happ
      rw [heq, ← happ]
      rfl

theorem Move.ok {cert : AppCert} (hok : t' = pure (.ok cert)) :
    cert ∈ certs.rows ∧ cert.signsFor cert.appID = true ∧ free cert.appID
      ∧ certs' = demoteOthers certs cert.appID cert.id := by
  cases hmove with
  | refused | created | failed | removed => cases hok
  | demoted mine hmem hsigns hfree =>
    cases hok
    exact ⟨hmem, hsigns, hfree, rfl⟩

end

end Move

theorem alone_iff :
    alone p i appID = true
      ↔
    ∀ (j : Nat) (t : Prog Cmd (Except KeyError AppCert)), j ≠ i → p.threads[j]? = some t →
      ∀ key, inflight t = some key → key.1 ≠ appID := by
  unfold alone
  rw [all_eq_true]
  constructor
  . intro h j t hj ht key hkey
    have hall := h (t, j) (mem_zipIdx_iff_getElem?.mpr ht)
    simpa [hj, hkey] using hall
  . rintro h ⟨t, j⟩ ht
    have hne := h j t
    by_cases hj : j = i
    . simp [hj]
    rw [Bool.or_eq_true, Option.all_eq_true]
    right
    intro key hkey
    simpa using hne hj (mem_zipIdx_iff_getElem?.mp ht) key hkey

structure Settled (p : System) (appID : Int) (cert : AppCert) : Prop where
  mem : cert ∈ p.shared.data.rows
  signs : cert.signsFor appID = true
  free : ∀ (i : Nat) (t : Prog Cmd (Except KeyError AppCert)), p.threads[i]? = some t →
    inflight t ≠ some (appID, cert.id)

theorem settled_iff_of_thread (ht : p.threads[i]? = some t) {a : Int} {c : AppCert} :
    Settled p a c
      ↔
    c.signsFor a = true ∧ (c ∈ p.shared.data.rows ∧ inflight t ≠ some (a, c.id))
      ∧ ∀ j, j ≠ i → ∀ u, p.threads[j]? = some u → inflight u ≠ some (a, c.id) := by
  constructor
  . rintro ⟨hmem, hsigns, hfree⟩
    exact ⟨hsigns, ⟨hmem, hfree i t ht⟩, fun j _ => hfree j⟩
  . rintro ⟨hsigns, ⟨hmem, hmine⟩, hothers⟩
    refine ⟨hmem, hsigns, ?_⟩
    intro j u hu
    by_cases hj : j = i
    . subst hj
      rw [ht] at hu
      cases hu
      exact hmine
    . exact hothers j hj u hu

def Succeeded (p : System) (appID : Int) : Prop :=
  ∃ (i : Nat) (cert : AppCert), p.threads[i]? = some (pure (.ok cert)) ∧ cert.appID = appID

structure Turn (p p' : System) (i : Nat) (t t' : Prog Cmd (Except KeyError AppCert)) : Prop where
  before : p.threads[i]? = some t
  after : p'.threads[i]? = some t'
  others : ∀ j, j ≠ i → p'.threads[j]? = p.threads[j]?
  move : Move p.shared.data (fun appID => alone p i appID = true) t t' p'.shared.data
  running : ∀ r, t ≠ pure r

section Turn

variable {p p' : System} {i : Nat} {t t' : Prog Cmd (Except KeyError AppCert)}

theorem Turn.settled_of_ok (hturn : Turn p p' i t t') {cert : AppCert} (hok : t' = pure (.ok cert)) (c : AppCert) :
    Settled p' cert.appID c ↔ c = cert := by
  rcases hturn.move.ok hok with ⟨hmem, hsigns, halone, hcerts⟩
  rw [alone_iff] at halone
  rw [settled_iff_of_thread hturn.after, hok, hcerts]
  constructor
  . rintro ⟨hsigns', ⟨hmem', _⟩, _⟩
    rw [mem_demoteOthers_of_signsFor hsigns'] at hmem'
    rcases hmem' with ⟨hmem', hne | hid⟩
    . contradiction
    . exact p.shared.data.eq_of_key_eq hmem' hmem hid
  . rintro rfl
    refine ⟨hsigns, ⟨(mem_demoteOthers_of_signsFor hsigns).mpr ⟨hmem, .inr rfl⟩, nofun⟩, ?_⟩
    intro j hj u hu hkey
    rw [hturn.others j hj] at hu
    exact halone j u hj hu _ hkey rfl

theorem Turn.succeeded_iff (hturn : Turn p p' i t t') {a : Int} (ha : ∀ cert, t' = pure (.ok cert) → cert.appID ≠ a) :
    Succeeded p' a ↔ Succeeded p a := by
  constructor
  . rintro ⟨j, cert, hj, happ⟩
    rcases thread_cases hturn.after hturn.others hj with ⟨rfl, hok⟩ | ⟨_, hj⟩
    . exact absurd happ (ha cert hok.symm)
    . exact ⟨j, cert, hj, happ⟩
  . rintro ⟨j, cert, hj, happ⟩
    refine ⟨j, cert, ?_, happ⟩
    by_cases hji : j = i
    . subst hji
      rw [hturn.before] at hj
      exact absurd (Option.some.inj hj) (hturn.running _)
    . rw [hturn.others j hji, hj]

end Turn

structure Going (certs : Certs) (p : System) : Prop where
  stages : ∀ (i : Nat) (t : Prog Cmd (Except KeyError AppCert)), p.threads[i]? = some t → Stage p.shared.data t
  apart : ∀ (i j : Nat) (t u : Prog Cmd (Except KeyError AppCert)) (key key' : Int × Int), i ≠ j →
    p.threads[i]? = some t → p.threads[j]? = some u → inflight t = some key → inflight u = some key' → key.2 ≠ key'.2
  settled : ∀ a, (Succeeded p a ∧ ∃ cert, ∀ c, Settled p a c ↔ c = cert)
    ∨ (¬Succeeded p a ∧ ∀ c, Settled p a c ↔ c ∈ certs.rows ∧ c.signsFor a = true)

theorem going_start (s : KeyService) (certs : Certs) (rotations : List Rotation) :
    Going certs (s.start certs rotations) := by
  have hthreads {i : Nat} {t : Prog Cmd (Except KeyError AppCert)}
      (ht : (s.start certs rotations).threads[i]? = some t) :
      ∃ r : Rotation, t = s.rotateForApp r.appID r.mint := by
    unfold start at ht
    rw [List.getElem?_map, Option.map_eq_some_iff] at ht
    rcases ht with ⟨r, _, rfl⟩
    exact ⟨r, rfl⟩
  constructor
  . intro i t ht
    rcases hthreads ht with ⟨r, rfl⟩
    exact .rotate ..
  . intro i j t u key key' _ ht _ hkey
    rcases hthreads ht with ⟨r, rfl⟩
    rw [inflight_rotateForApp] at hkey
    contradiction
  . intro a
    right
    constructor
    . rintro ⟨i, cert, hi, _⟩
      rcases hthreads hi with ⟨r, hr⟩
      revert hr
      unfold rotateForApp generateForApp
      cases s.masterKey with
      | none => nofun
      | some => cases r.mint <;> nofun
    . intro c
      constructor
      . rintro ⟨hmem, hsigns, _⟩
        exact ⟨hmem, hsigns⟩
      . rintro ⟨hmem, hsigns⟩
        refine ⟨hmem, hsigns, ?_⟩
        intro i t ht
        rcases hthreads ht with ⟨r, rfl⟩
        rw [inflight_rotateForApp]
        nofun

theorem Going.apart_turn {certs : Certs} {j : Nat} {t' u : Prog Cmd (Except KeyError AppCert)} {key key' : Int × Int}
    (hgoing : Going certs p) (hturn : Turn p p' i t t') (hj : j ≠ i) (hu : p.threads[j]? = some u)
    (hkey : inflight t' = some key) (hkey' : inflight u = some key') : key.2 ≠ key'.2 := by
  rcases hturn.move.inflight hkey with hold | hnew
  . exact hgoing.apart i j t u key key' hj.symm hturn.before hu hold hkey'
  -- the certificate of the other rotation is in the table, where this id is new
  rcases (hgoing.stages j u hu).mem hkey' with ⟨cert, hmem, hid⟩
  intro heq
  apply hnew cert hmem
  rw [hid, heq]

theorem Going.step {certs : Certs} (hgoing : Going certs p)
    (horderly : orderly p turn = true) (hstep : p.step semantics turn = some p') : Going certs p' := by
  rcases step_eq_some hstep with ⟨β, paused, c, k, hthread, hshared, _, hself, hother⟩
  unfold orderly at horderly
  rw [hthread] at horderly
  have hmove := (hgoing.stages turn.1 _ hthread).move horderly p.shared.fails
  rw [← hshared] at hmove
  have hturn : ∃ t t', Turn p p' turn.1 t t' := ⟨_, _, hthread, hself, hother, hmove, fun _ => nofun⟩
  rcases hturn with ⟨t, t', hturn⟩
  have hmove := hturn.move
  constructor
  . intro j u hu
    rcases thread_cases hturn.after hturn.others hu with ⟨rfl, rfl⟩ | ⟨hj, hu⟩
    . exact hmove.stage
    apply (hgoing.stages j u hu).keep
    intro cert hmem hsigns hkey
    apply hmove.keep hmem hsigns
    . intro key hmine
      exact hgoing.apart turn.1 j t u _ _ (Ne.symm hj) hturn.before hu hmine hkey
    . rw [alone_iff]
      intro halone
      exact halone j u hj hu _ hkey rfl
  . intro j l u v key key' hne hu hv hkey hkey'
    rcases thread_cases hturn.after hturn.others hu with ⟨rfl, rfl⟩ | ⟨hj, hu⟩
    . rw [hturn.others l hne.symm] at hv
      exact hgoing.apart_turn hturn hne.symm hv hkey hkey'
    . rcases thread_cases hturn.after hturn.others hv with ⟨rfl, rfl⟩ | ⟨_, hv⟩
      . exact (hgoing.apart_turn hturn hj hu hkey' hkey).symm
      . exact hgoing.apart j l u v key key' hne hu hv hkey hkey'
  . intro a
    by_cases hok : ∃ cert, t' = pure (.ok cert) ∧ cert.appID = a
    . rcases hok with ⟨cert, hok, rfl⟩
      left
      refine ⟨⟨turn.1, cert, ?_, rfl⟩, cert, hturn.settled_of_ok hok⟩
      rw [hturn.after, hok]
    . have ha : ∀ cert, t' = pure (.ok cert) → cert.appID ≠ a := by
        intro cert hcert happ
        exact hok ⟨cert, hcert, happ⟩
      have hsettled (c : AppCert) : Settled p' a c ↔ Settled p a c := by
        rw [settled_iff_of_thread hturn.after, settled_iff_of_thread hturn.before]
        apply and_congr_right
        intro hsigns
        rw [hturn.move.signsFor_iff ha hsigns]
        apply and_congr_right
        intro _
        apply forall₂_congr
        intro j hj
        rw [hturn.others j hj]
      simp only [hturn.succeeded_iff ha, hsettled]
      exact hgoing.settled a

theorem mem_activeSigners {certs : Certs} :
    cert ∈ activeSigners certs appID ↔ cert ∈ certs.rows ∧ cert.signsFor appID = true :=
  mem_filter

theorem nodup_activeSigners (certs : Certs) (appID : Int) : (activeSigners certs appID).Nodup :=
  certs.nodup_rows.filter _

theorem loadSigningKey_ne_keyNotFound (s : KeyService) {certs : Certs}
    (h : cert ∈ activeSigners certs appID) : s.loadSigningKey certs appID ≠ .error .keyNotFound := by
  rw [mem_activeSigners] at h
  rcases h with ⟨hmem, hsigns⟩
  simp only [AppCert.signsFor, Bool.and_eq_true, decide_eq_true_eq] at hsigns
  rcases hsigns with ⟨⟨happ, htype⟩, hstatus⟩
  unfold loadSigningKey
  split
  . nofun
  split
  . next hnone =>
    -- the search goes over a list that has the certificate
    have hlisted : cert ∈ listCertsByApp certs appID := by
      unfold listCertsByApp Table.orderByDesc
      simp [hmem, happ]
    rw [List.find?_eq_none] at hnone
    have hnot := hnone cert hlisted
    simp [htype, hstatus] at hnot
  . next active _ =>
    split
    . next err herr =>
      intro heq
      cases heq
      unfold decryptPrivate at herr
      split at herr
      . split at herr <;> cases herr
      . cases herr
    . split <;> nofun

theorem ended_of_finished (h : finished p = true) (ht : p.threads[i]? = some t) : ∃ r, t = pure r := by
  unfold finished at h
  rw [all_eq_true] at h
  have hlt := (List.getElem?_eq_some_iff.mp ht).1
  rcases Option.isSome_iff_exists.mp (h i (mem_range.mpr hlt)) with ⟨r, hr⟩
  rw [result_eq_some hr] at ht
  exact ⟨r, (Option.some.inj ht).symm⟩

theorem succeeded_iff_result :
    Succeeded p appID ↔ ∃ (i : Nat) (cert : AppCert), p.result i = some (.ok cert) ∧ cert.appID = appID := by
  unfold Succeeded
  apply exists_congr
  intro i
  apply exists_congr
  intro cert
  apply and_congr_left
  intro _
  constructor
  . intro h
    unfold result
    rw [h]
    rfl
  . exact result_eq_some

theorem settled_iff_of_finished (hfinished : finished p = true) :
    Settled p appID cert ↔ cert ∈ activeSigners p.shared.data appID := by
  rw [mem_activeSigners]
  constructor
  . rintro ⟨hmem, hsigns, _⟩
    exact ⟨hmem, hsigns⟩
  . rintro ⟨hmem, hsigns⟩
    refine ⟨hmem, hsigns, ?_⟩
    intro i t ht
    rcases ended_of_finished hfinished ht with ⟨r, rfl⟩
    nofun

theorem length_eq_one_of_mem_iff {l : List AppCert} (hnodup : l.Nodup) (h : ∀ c, c ∈ l ↔ c = cert) : l.length = 1 := by
  have hperm : l.Perm [cert] := by
    rw [perm_ext_iff_of_nodup hnodup (nodup_singleton cert)]
    intro c
    rw [h, mem_singleton]
  exact hperm.length_eq

/--
If no certificates are demoted while another rotation of the application is underway, and none that should be taken
back stays, then the application has a key at all times, and one certificate to sign with once all rotations have
ended.
-/
theorem rotations_leave_one_signer (s : KeyService) (certs : Certs) (rotations : List Rotation)
    {turns : List (Nat × Nat)} {p : System}
    (run : Run (step semantics) (fun p turn => orderly p turn = true) (s.start certs rotations) turns p)
    (appID : Int) :
    (activeSigners certs appID ≠ [] → s.loadSigningKey p.shared.data appID ≠ .error .keyNotFound)
      ∧ (finished p = true →
        ((activeSigners p.shared.data appID).length = 1
          ↔
        (∃ (i : Nat) (cert : AppCert), p.result i = some (.ok cert) ∧ cert.appID = appID)
          ∨ (activeSigners certs appID).length = 1)) := by
  have hgoing : Going certs p := by
    apply run.invariant (going_start s certs rotations)
    intro p turn p' hgoing horderly hstep
    exact hgoing.step horderly hstep
  constructor
  . intro hbefore
    have hsettled : ∃ c, Settled p appID c := by
      rcases hgoing.settled appID with ⟨_, cert, hcert⟩ | ⟨_, hcert⟩
      . exact ⟨cert, (hcert cert).mpr rfl⟩
      . rcases exists_mem_of_ne_nil _ hbefore with ⟨c, hc⟩
        exact ⟨c, (hcert c).mpr (mem_activeSigners.mp hc)⟩
    rcases hsettled with ⟨c, hc⟩
    apply loadSigningKey_ne_keyNotFound s
    exact mem_activeSigners.mpr ⟨hc.mem, hc.signs⟩
  . intro hfinished
    rw [← succeeded_iff_result]
    rcases hgoing.settled appID with ⟨hok, cert, hcert⟩ | ⟨hnot, hcert⟩
    . simp only [settled_iff_of_finished hfinished] at hcert
      have hone := length_eq_one_of_mem_iff (nodup_activeSigners _ _) hcert
      exact iff_of_true hone (.inl hok)
    . have hperm : (activeSigners p.shared.data appID).Perm (activeSigners certs appID) := by
        rw [perm_ext_iff_of_nodup (nodup_activeSigners _ _) (nodup_activeSigners _ _)]
        intro c
        rw [← settled_iff_of_finished hfinished, hcert, mem_activeSigners]
      rw [hperm.length_eq, or_iff_right hnot]

namespace TwoRotations

def service : KeyService where
  masterKey := some .ok
  parseRSAPrivateKeyPEM := .ok

def pair (id : Int) (kid : String) : KeyPair := ⟨id, kid, "public", "private", id⟩

def certs : Certs := ⟨[newCert 1 (pair 100 "a")], by decide⟩

def rotations : List Rotation := [⟨1, .ok (pair 101 "b")⟩, ⟨1, .ok (pair 102 "c")⟩]

abbrev inTurn : List (Nat × Nat) := [(0, 0), (0, 0), (1, 0), (1, 0)]

abbrev inTurnExec : Option System :=
  Run.exec (step semantics) (fun p turn => orderly p turn = true) (service.start certs rotations) inTurn

theorem inTurnExec_isSome : inTurnExec.isSome = true := by
  decide +kernel

theorem inTurn_leave_one_signer :
    finished (inTurnExec.get inTurnExec_isSome) = true
      ∧ service.loadSigningKey (inTurnExec.get inTurnExec_isSome).shared.data 1 ≠ .error .keyNotFound
      ∧ (activeSigners (inTurnExec.get inTurnExec_isSome).shared.data 1).length = 1 := by
  have hrun : Run (step semantics) (fun p turn => orderly p turn = true) (service.start certs rotations) inTurn
      (inTurnExec.get inTurnExec_isSome) := Run.of_isSome _
  have hleave := rotations_leave_one_signer service certs rotations hrun 1
  have hfinished : finished (inTurnExec.get inTurnExec_isSome) = true := by decide +kernel
  refine ⟨hfinished, hleave.1 (by decide), ?_⟩
  rw [hleave.2 hfinished]
  right
  decide

abbrev overlapped : List (Nat × Nat) := [(0, 0), (1, 0), (0, 0), (1, 0)]

abbrev overlappedExec : Option System :=
  Run.exec (step semantics) (fun _ _ => True) (service.start certs rotations) overlapped

theorem overlappedExec_isSome : overlappedExec.isSome = true := by
  decide +kernel

theorem overlapped_leave_no_signer :
    Run (step semantics) (fun _ _ => True) (service.start certs rotations) overlapped
        (overlappedExec.get overlappedExec_isSome)
      ∧ activeSigners certs 1 = [newCert 1 (pair 100 "a")]
      ∧ [0, 1].map (overlappedExec.get overlappedExec_isSome).result
        = [some (.ok (newCert 1 (pair 101 "b"))), some (.ok (newCert 1 (pair 102 "c")))]
      ∧ activeSigners (overlappedExec.get overlappedExec_isSome).shared.data 1 = []
      ∧ service.loadSigningKey (overlappedExec.get overlappedExec_isSome).shared.data 1 = .error .keyNotFound := by
  refine ⟨Run.of_isSome _, ?_⟩
  decide +kernel

end TwoRotations

end Mxid.App.Keys
