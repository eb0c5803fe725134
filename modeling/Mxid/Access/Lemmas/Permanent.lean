import Mxid.Access.Lemmas.Lifecycle

namespace Mxid.Access

open List DB

def DB.permanent (db : DB) : Set Binding :=
  {b | b ∈ db.bindings ∧ b.grantID = none}

def DB.supersedesNoPermanent (db : DB) (req : Request) : Bool :=
  db.bindings.all (fun b => b.grantID = none → req.supersedes b = false)

def Call.spares (db : DB) (bindingID : Int) : Call → Bool
  | .approve req _ _ => (db.isPending req ∧ db.idFree req bindingID) → db.supersedesNoPermanent req
  | _ => true

def spares (s : State) : Action → Bool
  | .write i _ bindingID => (s.calls[i]?).all (Call.spares s.db bindingID)
  | _ => true

structure State.Linked (s : State) : Prop where
  requests : ∀ row ∈ s.db.requests.rows, ∀ b ∈ s.db.permanent, ¬row.Names b
  calls : ∀ call ∈ s.calls, ∀ b ∈ s.db.permanent, ¬call.req.Names b
  filed : ∀ call ∈ s.calls, ∃ row, s.db.requests.find? call.req.id = some row
    ∧ row.asFiled = call.req.asFiled

section Write

variable {db db' : DB} {req : Request} {call : Call} {now bindingID : Int}

theorem DB.supersedesNoPermanent_iff :
    db.supersedesNoPermanent req = true ↔ ∀ b ∈ db.permanent, req.supersedes b = false := by
  simp [supersedesNoPermanent, permanent, imp_iff_not_or, or_assoc]

theorem DB.permanent_congr (h : db'.bindings = db.bindings) : db'.permanent = db.permanent := by
  unfold permanent
  rw [h]

theorem approve_permanent {approverID expiresAt : Int}
    (h : db.approveAndGrant req approverID now expiresAt bindingID = some db') {b : Binding} :
    b ∈ db'.permanent ↔ b ∈ db.permanent ∧ req.supersedes b = false := by
  rcases approveAndGrant_eq_some h with ⟨db1, hinsert, _, rfl⟩
  have hmem := (insertBinding_eq_some hinsert).2 b
  constructor
  . rintro ⟨hb, hperm⟩
    rcases hmem.mp hb with rfl | ⟨hold, hsup⟩
    . rw [Request.grantID_binding] at hperm
      contradiction
    . exact ⟨⟨hold, hperm⟩, hsup⟩
  . rintro ⟨⟨hold, hperm⟩, hsup⟩
    exact ⟨hmem.mpr (Or.inr ⟨hold, hsup⟩), hperm⟩

theorem endGrant_permanent {status : Status} {b : Binding} :
    b ∈ (db.endGrant req status).permanent ↔ b ∈ db.permanent ∧ ¬req.Names b := by
  unfold DB.permanent
  simp only [Set.mem_ofPred_eq, mem_endGrant]
  tauto

theorem Call.permanent_subset (h : call.write db now bindingID = some db') : db'.permanent ⊆ db.permanent := by
  intro b hb
  cases call with
  | approve => exact ((approve_permanent h).mp hb).1
  | reject | cancel =>
    cases h
    exact hb
  | revoke | expire =>
    cases h
    exact (endGrant_permanent.mp hb).1

theorem Call.write_permanent (hcall : ∀ b ∈ db.permanent, ¬call.req.Names b)
    (h : call.write db now bindingID = some db') :
    db'.permanent = db.permanent ↔ call.spares db bindingID = true := by
  cases call with
  | approve =>
    have hmem := fun b => approve_permanent (b := b) h
    rcases approveAndGrant_eq_some h with ⟨db1, hinsert, hpending, _⟩
    have hfree := (insertBinding_eq_some hinsert).1
    simp only [spares, hpending, hfree, and_self, forall_const, decide_eq_true_eq, supersedesNoPermanent_iff]
    constructor
    . intro heq b hb
      exact ((hmem b).mp (heq ▸ hb)).2
    . intro hspared
      ext b
      rw [hmem b]
      exact ⟨And.left, fun hb => ⟨hb, hspared b hb⟩⟩
  | reject | cancel =>
    cases h
    exact ⟨fun _ => rfl, fun _ => rfl⟩
  | revoke | expire =>
    cases h
    refine ⟨fun _ => rfl, fun _ => ?_⟩
    ext b
    rw [endGrant_permanent]
    exact ⟨And.left, fun hb => ⟨hb, hcall b hb⟩⟩

theorem Call.spares_of_write_eq_none (h : call.write db now bindingID = none) : call.spares db bindingID = true := by
  cases call with
  | approve =>
    simp only [spares, decide_eq_true_eq]
    rintro ⟨hpending, hfree⟩
    rw [supersedesNoPermanent_iff]
    intro b _
    dsimp only [write] at h
    unfold DB.approveAndGrant at h
    split at h
    . next hnone => exact insertBinding_eq_none hnone hfree b
    next db1 hinsert =>
    rw [(insertBinding_rest hinsert).1] at h
    unfold DB.isPending at hpending
    simp [hpending] at h
  | reject | cancel | revoke | expire => contradiction

end Write

section Step

variable {s s' : State} {a : Action}

theorem step_permanent_subset (h : step s a = some s') : s'.db.permanent ⊆ s.db.permanent := by
  cases step_effect h with
  | quiet _ _ hbindings => exact (permanent_congr hbindings).subset
  | filed _ _ _ _ _ _ _ _ _ hs' | refused _ _ _ _ _ _ _ hs' =>
    subst hs'
    exact subset_rfl
  | written _ _ _ _ _ _ _ hwrite hs' =>
    subst hs'
    exact Call.permanent_subset hwrite

theorem step_permanent (hlinked : s.Linked) (h : step s a = some s') :
    s'.db.permanent = s.db.permanent ↔ spares s a = true := by
  cases step_effect h with
  | quiet hwrite _ hbindings =>
    have hspares : spares s a = true := by
      cases a with
      | write i now bindingID => exact absurd rfl (hwrite i now bindingID)
      | _ => rfl
    exact ⟨fun _ => hspares, fun _ => permanent_congr hbindings⟩
  | filed _ _ _ _ _ _ ha _ _ hs' =>
    subst ha hs'
    exact ⟨fun _ => rfl, fun _ => rfl⟩
  | refused i now bindingID call ha hcall hwrite hs' =>
    subst ha hs'
    refine ⟨fun _ => ?_, fun _ => rfl⟩
    simp only [spares, hcall, Option.all_some]
    exact Call.spares_of_write_eq_none hwrite
  | written i now bindingID call db ha hcall hwrite hs' =>
    subst ha hs'
    simp only [spares, hcall, Option.all_some]
    exact Call.write_permanent (hlinked.calls call (mem_of_getElem? hcall)) hwrite

theorem Call.write_names {db db' : DB} {call : Call} {now bindingID : Int}
    (hrequests : ∀ row ∈ db.requests.rows, ∀ b ∈ db.permanent, ¬row.Names b)
    (hfiled : ∃ row, db.requests.find? call.req.id = some row ∧ row.asFiled = call.req.asFiled)
    (h : call.write db now bindingID = some db') : ∀ row ∈ db'.requests.rows, ∀ b ∈ db'.permanent, ¬row.Names b := by
  intro row' hrow' b hb
  have hb' := Call.permanent_subset h hb
  -- Only an approval changes what a request refers to.
  cases call with
  | approve req =>
    rcases approveAndGrant_eq_some h with ⟨db1, hinsert, _, hdb'⟩
    rw [hdb', Table.rows_update, mem_map] at hrow'
    rcases hrow' with ⟨row, hrow, rfl⟩
    split
    . next hp =>
      simp only [isRequest, Bool.and_eq_true, decide_eq_true_eq] at hp
      rcases hfiled with ⟨filed, hfind, hterms⟩
      rw [Call.req, db.requests.find?_eq_some_iff.mpr ⟨hrow, hp.1.1⟩] at hfind
      cases hfind
      have hkind : row.targetKind = req.targetKind := congrArg (fun r => r.targetKind) hterms
      rintro ⟨hbkind, hid⟩
      have hfree := idFree_iff.mp (insertBinding_eq_some hinsert).1
      have hold := (approve_permanent h).mp hb
      have hsup := hfree b hold.1.1 (hbkind.trans hkind) (Option.some.inj hid).symm
      rw [hold.2] at hsup
      contradiction
    . exact hrequests row hrow b hb'
  | reject | cancel =>
    cases h
    rcases mem_map.mp hrow' with ⟨row, hrow, rfl⟩
    split <;> exact hrequests row hrow b hb'
  | revoke | expire =>
    cases h
    rw [endGrant_requests] at hrow'
    rcases mem_map.mp hrow' with ⟨row, hrow, rfl⟩
    split <;> exact hrequests row hrow b hb'

theorem State.Linked.step (hlinked : s.Linked) (h : step s a = some s') : s'.Linked := by
  constructor
  . intro row hrow b hb
    have hb' := step_permanent_subset h hb
    cases step_effect h with
    | quiet _ hrequests =>
      rw [hrequests] at hrow
      exact hlinked.requests row hrow b hb'
    | filed tenantID requesterID id req new requests ha hnew hinsert hs' =>
      subst hs'
      rcases (Table.mem_of_insert? hinsert).mp hrow with rfl | hold
      . rintro ⟨_, hid⟩
        rcases createRequest_eq_ok hnew with ⟨_, _, _, _, _, _, _, _, _, hterms⟩
        rw [← hterms] at hid
        contradiction
      . exact hlinked.requests row hold b hb'
    | refused _ _ _ _ _ _ _ hs' =>
      subst hs'
      exact hlinked.requests row hrow b hb'
    | written i now bindingID call db ha hcall hwrite hs' =>
      subst hs'
      have hmem := mem_of_getElem? hcall
      exact Call.write_names hlinked.requests (hlinked.filed call hmem) hwrite row hrow b hb
  . intro call hcall b hb
    have hb' := step_permanent_subset h hb
    rcases step_calls h hcall with hold | hbegins
    . exact hlinked.calls call hold b hb'
    . exact hlinked.requests call.req hbegins.read.1 b hb'
  . intro call hcall
    have hrow : ∃ row, s.db.requests.find? call.req.id = some row ∧ row.asFiled = call.req.asFiled := by
      rcases step_calls h hcall with hold | hbegins
      . exact hlinked.filed call hold
      . exact ⟨call.req, s.db.requests.find?_eq_some_iff.mpr ⟨hbegins.read.1, rfl⟩, rfl⟩
    rcases hrow with ⟨row, hrow, hterms⟩
    rcases step_kept h _ row hrow with ⟨row', hrow', hterms', _⟩
    exact ⟨row', hrow', hterms'.trans hterms⟩

theorem run_linked {init : State} {acts : List Action} (hlinked : init.Linked)
    (run : Run step (fun _ _ => True) init acts s) : s.Linked ∧ s.db.permanent ⊆ init.db.permanent := by
  refine run.invariant (I := fun s => s.Linked ∧ s.db.permanent ⊆ init.db.permanent)
    ⟨hlinked, subset_rfl⟩ ?_
  rintro s a s' ⟨hs, hsubset⟩ _ hstep
  exact ⟨hs.step hstep, (step_permanent_subset hstep).trans hsubset⟩

end Step

theorem permanent_eq_iff (init : State) (hlinked : init.Linked) (acts : List Action) (s : State)
    (run : Run step (fun _ _ => True) init acts s) :
    s.db.permanent = init.db.permanent
      ↔
    Run step (fun s a => spares s a = true) init acts s := by
  constructor
  . intro heq
    induction run with
    | nil => exact .nil
    | @snoc acts s s' a run _ hstep ih =>
      rcases run_linked hlinked run with ⟨hs, hsubset⟩
      -- What is there in the end was there all along.
      have hsame : s.db.permanent = init.db.permanent :=
        hsubset.antisymm (heq ▸ step_permanent_subset hstep)
      apply (ih hsame).snoc _ hstep
      rw [← step_permanent hs hstep]
      exact heq.trans hsame.symm
  . intro run'
    have hinv : s.Linked ∧ s.db.permanent = init.db.permanent := by
      refine run'.invariant (I := fun s => s.Linked ∧ s.db.permanent = init.db.permanent)
        ⟨hlinked, rfl⟩ ?_
      rintro s a s' ⟨hs, heq⟩ hspares hstep
      exact ⟨hs.step hstep, ((step_permanent hs hstep).mpr hspares).trans heq⟩
    exact hinv.2

/-!
User 7 holds the role permanently and requests it all the same. User 8 does not hold it.
-/

namespace AlreadyHeld

def binding : RoleBinding where
  id := 40
  roleID := 3
  subjectType := .user
  subjectID := 7
  scopeType := none
  scopeID := none
  grantID := none
  expiresAt := none
  status := bindingActive

theorem nodup : ([binding].map RoleBinding.id).Nodup := by
  decide

def init : State :=
  ⟨⟨.empty, .empty, ⟨[binding], nodup⟩, .empty⟩, LateCancel.directory, []⟩

theorem init_linked : init.Linked :=
  ⟨by simp [init], by simp [init], by simp [init]⟩

def acts (requesterID : Int) : List Action :=
  [.createEligibility LateCancel.eligibility,
    .createRequest 1 requesterID 100
      { eligibilityID := 1, requestedSeconds := 3600, justification := "deploy" },
    .approve 1 100 9 10, .write 0 11 500, .sweep 3600000000010, .write 0 3600000000011 0]

abbrev exec (allowed : State → Action → Bool) (acts : List Action) : Option State :=
  Run.exec step (fun s a => allowed s a = true) init acts

theorem held_isSome : (exec (fun _ _ => true) (acts 7)).isSome = true := by
  decide

theorem other_isSome : (exec spares (acts 8)).isSome = true := by
  decide

theorem permanent_binding_lost :
    Run step (fun _ _ => True) init (acts 7) ((exec (fun _ _ => true) (acts 7)).get held_isSome)
      ∧ .role binding ∈ init.db.permanent
      ∧ ((exec (fun _ _ => true) (acts 7)).get held_isSome).db.bindings = [] :=
  ⟨(Run.of_isSome held_isSome).free,
    ⟨by decide, rfl⟩, by decide⟩

theorem permanent_binding_kept :
    .role binding ∈ init.db.permanent
      ∧ ((exec spares (acts 8)).get other_isSome).db.permanent = init.db.permanent := by
  refine ⟨⟨by decide, rfl⟩, ?_⟩
  have run := Run.of_isSome other_isSome
  exact (permanent_eq_iff init init_linked (acts 8) _ (run.free)).mpr run

end AlreadyHeld

end Mxid.Access
