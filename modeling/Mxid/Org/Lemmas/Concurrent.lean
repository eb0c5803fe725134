import Mxid.Org.Lemmas.Hierarchy

namespace Mxid.Org

open Option DB Underscore

def MoveCall.unstale (db : DB) (call : MoveCall) : Bool :=
  (db.getByID call.tenantID call.org.id).any (fun o => o.path = call.org.path)
    && call.parent.all (fun q => (db.getByID call.tenantID q.id).any (fun o => o.path = q.path))

def steady (reading : SubstringFrom) (s : State) : MoveAction → Bool
  | .write i => (s.calls[i]?).all (fun call => call.unstale s.db
      && (s.db.getByID call.tenantID call.org.id).all (s.db.confined reading))
  | _ => true

structure MoveCall.Checked (db : DB) (call : MoveCall) : Prop where
  acyclic : call.parent.any (cyclic call.org) = false
  code : ∃ o, db.Live o ∧ o.id = call.org.id ∧ o.code = call.org.code

structure State.Ok (s : State) : Prop where
  sound : s.db.Sound
  calls : ∀ call ∈ s.calls, call.Checked s.db

section

variable {db db' : DB} {reading : SubstringFrom} {call : MoveCall} {s s' : State}

theorem MoveCall.Checked.placed (h : call.Checked db) (hunstale : call.unstale db = true) :
    ∃ org, db.getByID call.tenantID call.org.id = some org
      ∧ db.Placed org (call.parent.map Organization.id) call.newPath := by
  unfold unstale at hunstale
  rw [Bool.and_eq_true, any_eq_true] at hunstale
  rcases hunstale with ⟨⟨org, horg, hpath⟩, hparent⟩
  rw [decide_eq_true_eq] at hpath
  rcases getByID_eq_some horg with ⟨hlive, hid, htenant⟩
  rcases h.code with ⟨o, ho, hoid, hcode⟩
  have heq : o = org := ho.eq_of_id_eq hlive (hoid.trans hid.symm)
  subst heq
  refine ⟨o, horg, ?_⟩
  have hcyclic := h.acyclic
  unfold newPath
  cases hq : call.parent with
  | none => exact hcode.symm
  | some =>
    rw [hq, all_some, any_eq_true] at hparent
    rcases hparent with ⟨q', hq', hqpath⟩
    rw [decide_eq_true_eq] at hqpath
    rcases getByID_eq_some hq' with ⟨hqlive, hqid, hqtenant⟩
    rw [hq, any_some] at hcyclic
    refine ⟨q', hqlive, hqid, hqtenant.trans htenant.symm, ?_, ?_⟩
    . rw [← hcyclic]
      simp only [cyclic, hqid, hqpath, hid, hpath]
    . rw [hqpath, hcode]
      rfl

theorem MoveCall.Checked.move {tenantID id : Int} {parentID : Option Int} {newPath : List Char} (h : call.Checked db)
    (hmove : db.move reading tenantID id parentID newPath = some db') : call.Checked db' := by
  rcases move_eq_some hmove with ⟨org, path, _, _, _, _, hrows, _, _⟩
  rcases h.code with ⟨o, ho, hid, hcode⟩
  rcases image_keeps reading org parentID path o with ⟨hid', _, hcode', hdeleted'⟩
  refine ⟨h.acyclic, _, ⟨?_, hdeleted'.trans ho.2⟩, hid'.trans hid, hcode'.trans hcode⟩
  rw [hrows]
  exact List.mem_map_of_mem ho.1

theorem State.Ok.step {a : MoveAction} (h : s.Ok) (hsteady : steady reading s a = true)
    (hstep : moveStep reading s a = some s') : s'.Ok := by
  cases a with
  | check =>
    unfold moveStep at hstep
    dsimp only at hstep
    split at hstep
    . cases hstep
      exact h
    next call hcheck =>
    cases hstep
    refine ⟨h.sound, ?_⟩
    intro call' hcall'
    rcases List.mem_append.mp hcall' with hold | hnew
    . exact h.calls call' hold
    . rw [List.mem_singleton.mp hnew]
      rcases checkMove_eq_ok hcheck with ⟨_, horg, _, hcyclic, _, _⟩
      exact ⟨hcyclic, _, (getByID_eq_some horg).1, rfl, rfl⟩
  | write =>
    unfold moveStep at hstep
    dsimp only at hstep
    split at hstep
    . contradiction
    next call hcall =>
    split at hstep
    . cases hstep
      exact ⟨h.sound, fun call' hcall' => h.calls call' (List.mem_of_mem_eraseIdx hcall')⟩
    next db hwrite =>
    cases hstep
    simp only [steady, hcall, all_some, Bool.and_eq_true] at hsteady
    have hchecked := h.calls call (List.mem_of_getElem? hcall)
    rcases hchecked.placed hsteady.1 with ⟨org, horg, hplaced⟩
    rw [horg, all_some] at hsteady
    refine ⟨h.sound.move horg hplaced hsteady.2 hwrite, ?_⟩
    intro call' hcall'
    exact (h.calls call' (List.mem_of_mem_eraseIdx hcall')).move hwrite
  | fail =>
    cases hstep
    exact ⟨h.sound, fun call' hcall' => h.calls call' (List.mem_of_mem_eraseIdx hcall')⟩

end

/--
As long as every transaction finds the paths that its call has read, and rewrites paths below the organization only,
the parent links from every organization lead to a root.
-/
theorem concurrent_moves_rooted (reading : SubstringFrom) (init : DB) (hinit : init.Sound)
    (acts : List MoveAction) (s : State)
    (run : Run (moveStep reading) (fun s a => steady reading s a = true) ⟨init, []⟩ acts s) :
    ∀ id, Forest.Rooted s.db.parentOf id := by
  have hok : s.Ok := by
    apply run.invariant (I := State.Ok) ⟨hinit, by simp⟩
    intro s a s' h hsteady hstep
    exact h.step hsteady hstep
  exact hok.sound.rooted

/-!
The organizations a2 and b are both roots, and each is moved below the other one.
-/

namespace Crossing

def acts : List Action :=
  [Underscore.create 1 10 "a2" none, Underscore.create 1 11 "b" none]

theorem isSome (reading : SubstringFrom) : (Underscore.exec reading (confined reading) acts).isSome = true := by
  cases reading <;> decide

abbrev db (reading : SubstringFrom) : DB :=
  (exec reading (confined reading) acts).get (isSome reading)

theorem db_sound (reading : SubstringFrom) : (db reading).Sound :=
  run_sound init_sound (Run.of_isSome (isSome reading))

def crossing : List MoveAction :=
  [.check 1 10 (some 11), .check 1 11 (some 10), .write 0, .write 0]

def oneByOne : List MoveAction :=
  [.check 1 10 (some 11), .write 0, .check 1 11 (some 10)]

abbrev exec (reading : SubstringFrom) (allowed : State → MoveAction → Bool) (acts : List MoveAction) : Option State :=
  Run.exec (moveStep reading) (fun s a => allowed s a = true) ⟨db reading, []⟩ acts

theorem crossing_isSome (reading : SubstringFrom) : (exec reading (fun _ _ => true) crossing).isSome = true := by
  cases reading <;> decide

theorem oneByOne_isSome : (exec .position (steady .position) oneByOne).isSome = true := by
  decide

abbrev crossed (reading : SubstringFrom) : State :=
  (exec reading (fun _ _ => true) crossing).get (crossing_isSome reading)

theorem crossed_not_rooted (reading : SubstringFrom) : ¬Forest.Rooted (crossed reading).db.parentOf 10 := by
  have h10 : (crossed reading).db.parentOf 10 = some 11 := by cases reading <;> decide
  have h11 : (crossed reading).db.parentOf 11 = some 10 := by cases reading <;> decide
  apply Forest.not_rooted (C := fun id => id = 10 ∨ id = 11)
  . rintro id (rfl | rfl)
    . exact ⟨11, h10, Or.inr rfl⟩
    . exact ⟨10, h11, Or.inl rfl⟩
  . exact Or.inl rfl

theorem crossing_moves_make_cycle :
    ((∀ id, Forest.Rooted (db .position).parentOf id)
        ∧ Run (moveStep .position) (fun _ _ => True) ⟨db .position, []⟩ crossing (crossed .position)
        ∧ ¬Forest.Rooted (crossed .position).db.parentOf 10)
      ∧ (∀ id, Forest.Rooted (db .pattern).parentOf id)
      ∧ Run (moveStep .pattern) (fun _ _ => True) ⟨db .pattern, []⟩ crossing (crossed .pattern)
      ∧ ¬Forest.Rooted (crossed .pattern).db.parentOf 10 := by
  have run : ∀ reading,
      Run (moveStep reading) (fun _ _ => True) ⟨db reading, []⟩ crossing (crossed reading) := fun reading =>
    (Run.of_isSome (crossing_isSome reading)).free
  exact ⟨⟨(db_sound .position).rooted, run .position, crossed_not_rooted .position⟩,
    (db_sound .pattern).rooted, run .pattern, crossed_not_rooted .pattern⟩

theorem moves_one_by_one_rooted :
    ((exec .position (steady .position) oneByOne).get oneByOne_isSome).db.parentOf 10 = some 11
      ∧ ∀ id, Forest.Rooted
          ((exec .position (steady .position) oneByOne).get oneByOne_isSome).db.parentOf id :=
  ⟨by decide,
    concurrent_moves_rooted .position (db .position) (db_sound .position) oneByOne _
      (Run.of_isSome oneByOne_isSome)⟩

end Crossing

end Mxid.Org
