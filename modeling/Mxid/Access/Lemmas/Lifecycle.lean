import Mxid.Access.Lemmas.Step

namespace Mxid.Access

open DB Request

inductive Status.Moves : Status → Status → Prop
  | approve : Moves .pending .approved
  | reject : Moves .pending .rejected
  | cancel : Moves .pending .cancelled
  | expire : Moves .approved .expired
  | revoke : Moves .approved .revoked

theorem Status.Moves.ne_pending {a b : Status} (h : Moves a b) : b ≠ .pending := by
  cases h <;> decide

def DB.Granted (db : DB) (kind : TargetKind) (id r : Int) : Prop :=
  match kind with
  | .console => ∃ b ∈ db.roleBindings.rows, b.id = id ∧ b.grantID = some r
  | .app => ∃ b ∈ db.appRoleBindings.rows, b.id = id ∧ b.grantID = some r

def Progress (db db' : DB) : Prop :=
  ∀ id row, db.requests.find? id = some row → ∃ row', db'.requests.find? id = some row'
    ∧ row'.tenantID = row.tenantID ∧ row'.targetKind = row.targetKind
    ∧ (row'.status = row.status ∨ row.status.Moves row'.status)
    ∧ (row.status ≠ .pending → row'.bindingID = row.bindingID)

def Current (db : DB) (req : Request) : Prop :=
  ∃ row, db.requests.find? req.id = some row ∧ row.tenantID = req.tenantID
    ∧ row.targetKind = req.targetKind
    ∧ (req.status ≠ .pending → row.status ≠ .pending ∧ row.bindingID = req.bindingID)

section Progress

variable {db db' : DB}

theorem Progress.of_requests_eq (h : db'.requests = db.requests) : Progress db db' := by
  intro id row hrow
  rw [← h] at hrow
  exact ⟨row, hrow, rfl, rfl, Or.inl rfl, fun _ => rfl⟩

theorem Current.of_progress {req : Request} (h : Current db req) (hdb : Progress db db') : Current db' req := by
  rcases h with ⟨row, hrow, htenant, hkind, hdecided⟩
  rcases hdb _ row hrow with ⟨row', hrow', htenant', hkind', hstatus, hbinding⟩
  refine ⟨row', hrow', htenant'.trans htenant, hkind'.trans hkind, ?_⟩
  intro hreq
  rcases hdecided hreq with ⟨hne, heq⟩
  refine ⟨?_, (hbinding hne).trans heq⟩
  rcases hstatus with hsame | hmoves
  . rw [hsame]
    exact hne
  . exact hmoves.ne_pending

theorem Current.of_mem {req : Request} (h : req ∈ db.requests.rows) : Current db req :=
  ⟨req, db.requests.find?_eq_some_iff.mpr ⟨h, rfl⟩, rfl, rfl, fun hne => ⟨hne, rfl⟩⟩

theorem Progress.of_update {p : Request → Bool} {f : Request → Request}
    (hf : ∀ r, (f r).id = r.id) (hdb' : db'.requests = db.requests.update p f hf)
    (hstatic : ∀ r, (f r).tenantID = r.tenantID ∧ (f r).targetKind = r.targetKind)
    (hmoves : ∀ r ∈ db.requests.rows, p r = true → r.status.Moves (f r).status
      ∧ (r.status ≠ .pending → (f r).bindingID = r.bindingID)) : Progress db db' := by
  intro id row hrow
  refine ⟨if p row then f row else row, ?_, ?_⟩
  . rw [hdb', Table.find?_update, hrow]
    rfl
  split
  . next hp =>
    have := hmoves row (db.requests.find?_eq_some_iff.mp hrow).1 hp
    exact ⟨(hstatic row).1, (hstatic row).2, Or.inr this.1, this.2⟩
  . exact ⟨rfl, rfl, Or.inl rfl, fun _ => rfl⟩

end Progress

section Writes

variable {db db' : DB} {req : Request} {kind : TargetKind} {id r : Int}

theorem DB.granted_iff : db.Granted kind id r ↔ ∃ b ∈ db.bindings, b.kind = kind ∧ b.id = id ∧ b.grantID = some r := by
  constructor
  . intro h
    cases kind with
    | console =>
      rcases h with ⟨b, hb, hgrant⟩
      exact ⟨.role b, role_mem_bindings.mpr hb, rfl, hgrant⟩
    | app =>
      rcases h with ⟨b, hb, hgrant⟩
      exact ⟨.app b, app_mem_bindings.mpr hb, rfl, hgrant⟩
  . rintro ⟨b | b, hb, rfl, hgrant⟩
    . exact ⟨b, role_mem_bindings.mp hb, hgrant⟩
    . exact ⟨b, app_mem_bindings.mp hb, hgrant⟩

theorem DB.Granted.of_endGrant {status : Status} (hgranted : (db.endGrant req status).Granted kind id r) :
    db.Granted kind id r ∧ ¬(kind = req.targetKind ∧ req.bindingID = some id) := by
  rcases granted_iff.mp hgranted with ⟨b, hb, rfl, rfl, hgrant⟩
  rw [mem_endGrant] at hb
  exact ⟨granted_iff.mpr ⟨b, hb.1, rfl, rfl, hgrant⟩, hb.2⟩

end Writes

section Invariant

def Call.unraced (db : DB) : Call → Bool
  | .approve _ _ _ => true
  | .reject req _ _ | .cancel req => (db.getRequest req.id req.tenantID).any (fun row => row.status = .pending)
  | .revoke req | .expire req => (db.getRequest req.id req.tenantID).any (fun row => row.status = .approved)

def unraced (s : State) : Action → Bool
  | .write i _ _ => (s.calls[i]?).all (fun call => call.unraced s.db)
  | _ => true

def GrantsApproved (db : DB) : Prop :=
  ∀ kind id r, db.Granted kind id r → ∃ row, db.requests.find? r = some row ∧ row.status = .approved
    ∧ row.targetKind = kind ∧ row.bindingID = some id

structure Inv (s : State) : Prop where
  granted : GrantsApproved s.db
  calls : ∀ call ∈ s.calls, Current s.db call.req ∧ call.Read

variable {db db' : DB} {req : Request} {now bindingID : Int} {status : Status}

theorem status_of_isRequest {id tenantID : Int}
    (h : (db.getRequest id tenantID).any (fun row => row.status = status) = true) {r : Request}
    (hr : r ∈ db.requests.rows) (hp : isRequest id tenantID r = true) : r.status = status := by
  unfold isRequest at hp
  rw [decide_eq_true_eq] at hp
  unfold DB.getRequest at h
  rw [db.requests.find?_eq_some_iff.mpr ⟨hr, hp.1⟩] at h
  by_cases htenant : r.tenantID = tenantID
  . simpa [Option.filter, htenant] using h
  . simp [Option.filter, htenant] at h

theorem GrantsApproved.of_update {p : Request → Bool} {f : Request → Request} (h : GrantsApproved db)
    (hf : ∀ r, (f r).id = r.id) (hdb' : db'.requests = db.requests.update p f hf)
    (hgranted : ∀ kind id r, db'.Granted kind id r → db.Granted kind id r)
    (hkeep : ∀ kind id r row, db'.Granted kind id r → db.requests.find? r = some row →
      row.status = .approved → row.targetKind = kind → row.bindingID = some id → p row = false) :
    GrantsApproved db' := by
  intro kind id r hg
  rcases h kind id r (hgranted kind id r hg) with ⟨row, hrow, hstatus, hkind, hbinding⟩
  refine ⟨row, ?_, hstatus, hkind, hbinding⟩
  rw [hdb', Table.find?_update, hrow]
  simp [hkeep kind id r row hg hrow hstatus hkind hbinding]

variable {approverID expiresAt : Int}

theorem approve_progress
    (h : db.approveAndGrant req approverID now expiresAt bindingID = some db') : Progress db db' := by
  rcases approveAndGrant_eq_some h with ⟨db1, _, _, rfl⟩
  apply Progress.of_update (id_approve approverID now expiresAt bindingID) rfl
    (fun r => ⟨rfl, rfl⟩)
  intro r _ hp
  simp only [Bool.and_eq_true, decide_eq_true_eq] at hp
  rw [hp.2]
  exact ⟨.approve, fun hne => absurd rfl hne⟩

theorem approve_granted (hcurrent : Current db req) (hinv : GrantsApproved db)
    (h : db.approveAndGrant req approverID now expiresAt bindingID = some db') : GrantsApproved db' := by
  rcases approveAndGrant_eq_some h with ⟨db1, hinsert, hpend, rfl⟩
  rcases isPending_iff.mp hpend with ⟨pend, hpend, hid, htenant, hpending⟩
  intro kind id r hg
  simp only [Table.find?_update]
  have hg1 : db1.Granted kind id r := by
    cases kind <;> exact hg
  rcases granted_iff.mp hg1 with ⟨b, hb, hbkind, hbid, hgrant⟩
  rcases ((insertBinding_eq_some hinsert).2 b).mp hb with rfl | ⟨hold, _⟩
  . -- The row is the pending one, and of the same kind as what was read.
    simp only [Request.kind_binding, Request.id_binding, Request.grantID_binding, Option.some.injEq]
      at hbkind hbid hgrant
    subst hbkind hbid hgrant
    rcases hcurrent with ⟨row, hrow, _, hkind, _⟩
    have heq : row = pend :=
      db.requests.eq_of_key_eq (db.requests.find?_eq_some_iff.mp hrow).1 hpend
        ((db.requests.find?_eq_some_iff.mp hrow).2.trans hid.symm)
    subst heq
    rw [hrow]
    simp [isRequest, Request.approve, hid, htenant, hpending, hkind]
  . rcases hinv kind id r (granted_iff.mpr ⟨b, hold, hbkind, hbid, hgrant⟩) with
      ⟨row, hrow, hstatus, hkind, hbinding⟩
    refine ⟨row, ?_, hstatus, hkind, hbinding⟩
    rw [hrow]
    simp [hstatus]

theorem updateRequestStatus_progress {reason : String} {approverID : Option Int}
    (hstatus : Status.Moves .pending status)
    (h : (db.getRequest req.id req.tenantID).any (fun row => row.status = .pending) = true) :
    Progress db (db.updateRequestStatus req.id req.tenantID status reason approverID now) := by
  apply Progress.of_update (id_decide status reason approverID now) rfl
    (fun r => ⟨rfl, rfl⟩)
  intro r hr hp
  rw [status_of_isRequest h hr hp]
  exact ⟨hstatus, fun hne => absurd rfl hne⟩

theorem updateRequestStatus_granted {reason : String} {approverID : Option Int} (hinv : GrantsApproved db)
    (h : (db.getRequest req.id req.tenantID).any (fun row => row.status = .pending) = true) :
    GrantsApproved (db.updateRequestStatus req.id req.tenantID status reason approverID now) := by
  apply hinv.of_update (id_decide status reason approverID now) rfl
  . intro kind id r hg
    cases kind <;> exact hg
  intro kind id r row _ hrow hstatus _ _
  by_contra hp
  rw [Bool.not_eq_false] at hp
  rw [status_of_isRequest h (db.requests.find?_eq_some_iff.mp hrow).1 hp] at hstatus
  contradiction

theorem endGrant_progress (hstatus : Status.Moves .approved status)
    (h : (db.getRequest req.id req.tenantID).any (fun row => row.status = .approved) = true) :
    Progress db (db.endGrant req status) := by
  apply Progress.of_update (id_finish status) (db.endGrant_requests req status) (fun r => ⟨rfl, rfl⟩)
  intro r hr hp
  rw [status_of_isRequest h hr hp]
  exact ⟨hstatus, fun _ => rfl⟩

theorem endGrant_granted (hcurrent : Current db req) (hread : req.status = .approved)
    (hinv : GrantsApproved db) : GrantsApproved (db.endGrant req status) := by
  apply hinv.of_update (id_finish status) (db.endGrant_requests req status)
  . intro kind id r hg
    exact hg.of_endGrant.1
  intro kind id r row hg hrow hstatus hkind hbinding
  -- The binding of the request is the one that has been deleted.
  by_contra hp
  rw [Bool.not_eq_false] at hp
  unfold isRequest at hp
  rw [decide_eq_true_eq] at hp
  rcases hcurrent with ⟨row', hrow', _, hkind', hdecided⟩
  have hid := (db.requests.find?_eq_some_iff.mp hrow).2
  rw [← hp.1, hid, hrow] at hrow'
  cases hrow'
  apply hg.of_endGrant.2
  refine ⟨hkind.symm.trans hkind', ?_⟩
  rw [← (hdecided (by rw [hread]; decide)).2]
  exact hbinding

end Invariant

section Step

variable {s s' : State} {db db' : DB} {call : Call}

theorem Inv.of_quiet (h : Inv s) (hrequests : s'.db.requests = s.db.requests)
    (hbindings : s'.db.bindings = s.db.bindings)
    (hcalls : ∀ call ∈ s'.calls, call ∈ s.calls ∨ call.req ∈ s.db.requests.rows ∧ call.Read) :
    Progress s.db s'.db ∧ Inv s' := by
  have hprogress := Progress.of_requests_eq hrequests
  refine ⟨hprogress, ?_, ?_⟩
  . intro kind id r hg
    rw [granted_iff, hbindings, ← granted_iff] at hg
    rw [hrequests]
    exact h.granted kind id r hg
  . intro call hcall
    rcases hcalls call hcall with hold | ⟨hmem, hread⟩
    . exact ⟨(h.calls call hold).1.of_progress hprogress, (h.calls call hold).2⟩
    . exact ⟨(Current.of_mem hmem).of_progress hprogress, hread⟩

theorem Inv.insert? (h : Inv s) {row : Request} {requests : Table Request.id}
    (hinsert : s.db.requests.insert? row = some requests) :
    Progress s.db { s.db with requests } ∧ Inv { s with db := { s.db with requests } } := by
  have hkeep : ∀ id row', s.db.requests.find? id = some row' → requests.find? id = some row' := by
    intro id row' hrow'
    rw [Table.find?_eq_some_iff] at hrow' ⊢
    exact ⟨(Table.mem_of_insert? hinsert).mpr (Or.inr hrow'.1), hrow'.2⟩
  have hprogress : Progress s.db { s.db with requests } :=
    fun id row' hrow' => ⟨row', hkeep id row' hrow', rfl, rfl, Or.inl rfl, fun _ => rfl⟩
  refine ⟨hprogress, ?_, ?_⟩
  . intro kind id r hg
    have hg' : s.db.Granted kind id r := by
      cases kind <;> exact hg
    rcases h.granted kind id r hg' with ⟨row', hrow', hrest⟩
    exact ⟨row', hkeep r row' hrow', hrest⟩
  . exact fun call hcall => ⟨(h.calls call hcall).1.of_progress hprogress, (h.calls call hcall).2⟩

theorem Inv.step {a : Action} (h : Inv s) (hunraced : unraced s a = true) (hstep : step s a = some s') :
    Progress s.db s'.db ∧ Inv s' := by
  cases step_effect hstep with
  | quiet _ hrequests hbindings hcalls =>
    apply h.of_quiet hrequests hbindings
    intro call hcall
    exact (hcalls call hcall).imp_right Begins.read
  | filed _ _ _ _ _ _ _ _ hinsert hs' =>
    subst hs'
    exact h.insert? hinsert
  | refused _ _ _ _ _ _ _ hs' =>
    subst hs'
    exact h.of_quiet rfl rfl (fun _ hcall => Or.inl (List.mem_of_mem_eraseIdx hcall))
  | written i now bindingID call db ha hcall hwrite hs' =>
    subst ha hs'
    rcases h.calls call (List.mem_of_getElem? hcall) with ⟨hcurrent, hread⟩
    simp only [unraced, hcall, Option.all_some] at hunraced
    obtain ⟨hprogress, hgranted⟩ : Progress s.db db ∧ GrantsApproved db := by
      cases call with
      | approve => exact ⟨approve_progress hwrite, approve_granted hcurrent h.granted hwrite⟩
      | reject =>
        cases hwrite
        exact ⟨updateRequestStatus_progress .reject hunraced, updateRequestStatus_granted h.granted hunraced⟩
      | cancel =>
        cases hwrite
        exact ⟨updateRequestStatus_progress .cancel hunraced, updateRequestStatus_granted h.granted hunraced⟩
      | revoke =>
        cases hwrite
        exact ⟨endGrant_progress .revoke hunraced, endGrant_granted hcurrent hread h.granted⟩
      | expire =>
        cases hwrite
        exact ⟨endGrant_progress .expire hunraced, endGrant_granted hcurrent hread h.granted⟩
    refine ⟨hprogress, hgranted, ?_⟩
    intro call' hcall'
    have := h.calls call' (List.mem_of_mem_eraseIdx hcall')
    exact ⟨this.1.of_progress hprogress, this.2⟩

end Step

theorem lifecycle_safe (db : DB) (directory : Directory)
    (hrole : ∀ b ∈ db.roleBindings.rows, b.grantID = none)
    (happRole : ∀ b ∈ db.appRoleBindings.rows, b.grantID = none)
    (acts : List Action) (s : State)
    (run : Run step (fun s a => unraced s a = true) ⟨db, directory, []⟩ acts s) :
    (∀ b ∈ s.db.roleBindings.rows, ∀ r, b.grantID = some r →
        ∃ row, s.db.requests.find? r = some row ∧ row.status = .approved)
      ∧ (∀ b ∈ s.db.appRoleBindings.rows, ∀ r, b.grantID = some r →
        ∃ row, s.db.requests.find? r = some row ∧ row.status = .approved)
      ∧ (∀ a s', unraced s a = true → step s a = some s' → ∀ r row, s.db.requests.find? r = some row →
        ∃ row', s'.db.requests.find? r = some row'
          ∧ (row'.status = row.status ∨ row.status.Moves row'.status)) := by
  have hinit : Inv ⟨db, directory, []⟩ := by
    constructor
    . intro kind id r hg
      cases kind with
      | console =>
        rcases hg with ⟨b, hb, _, hgrant⟩
        rw [hrole b hb] at hgrant
        contradiction
      | app =>
        rcases hg with ⟨b, hb, _, hgrant⟩
        rw [happRole b hb] at hgrant
        contradiction
    . simp
  have hinv : Inv s := run.invariant hinit (fun _ _ _ h hunraced hstep => (h.step hunraced hstep).2)
  refine ⟨?_, ?_, ?_⟩
  . intro b hb r hgrant
    rcases hinv.granted .console b.id r ⟨b, hb, rfl, hgrant⟩ with ⟨row, hrow, hstatus, _⟩
    exact ⟨row, hrow, hstatus⟩
  . intro b hb r hgrant
    rcases hinv.granted .app b.id r ⟨b, hb, rfl, hgrant⟩ with ⟨row, hrow, hstatus, _⟩
    exact ⟨row, hrow, hstatus⟩
  . intro a s' hunraced hstep r row hrow
    rcases (hinv.step hunraced hstep).1 r row hrow with ⟨row', hrow', _, _, hstatus, _⟩
    exact ⟨row', hrow', hstatus⟩

namespace LateCancel

def directory : Directory where
  userInGroup _ _ _ := false
  userInOrg _ _ _ := false
  userHasRole _ _ _ := false
  superAdmin := none

def eligibility : Eligibility where
  id := 1
  tenantID := 1
  targetKind := .console
  roleID := 3
  scopeType := none
  scopeID := none
  appID := none
  requester := .any
  allowedDurations := [3600]
  maxDurationSeconds := 3600
  approver := .user 9
  requireJustification := true
  enabled := true

def init : State :=
  ⟨⟨.empty, .empty, .empty, .empty⟩, directory, []⟩

def requested : List Action :=
  [.createEligibility eligibility,
    .createRequest 1 7 100 { eligibilityID := 1, requestedSeconds := 3600, justification := "deploy" }]

def raced : List Action :=
  requested ++ [.approve 1 100 9 10, .cancel 1 100 7, .write 0 10 500, .write 0 11 0]

def approved : List Action :=
  requested ++ [.approve 1 100 9 10, .write 0 10 500]

abbrev exec (allowed : State → Action → Bool) (acts : List Action) : Option State :=
  Run.exec step (fun s a => allowed s a = true) init acts

theorem raced_isSome : (exec (fun _ _ => true) raced).isSome = true := by
  decide

theorem approved_isSome : (exec unraced approved).isSome = true := by
  decide

theorem binding_of_cancelled :
    Run step (fun _ _ => True) init raced ((exec (fun _ _ => true) raced).get raced_isSome)
      ∧ (((exec (fun _ _ => true) raced).get raced_isSome).db.roleBindings.rows.map
          (fun b => (b.id, b.grantID))) = [(500, some 100)]
      ∧ (((exec (fun _ _ => true) raced).get raced_isSome).db.requests.rows.map
          (fun r => (r.id, r.status))) = [(100, .cancelled)] :=
  ⟨(Run.of_isSome raced_isSome).free,
    by decide, by decide⟩

theorem binding_of_approved :
    (((exec unraced approved).get approved_isSome).db.roleBindings.rows.map
        (fun b => (b.id, b.grantID))) = [(500, some 100)]
      ∧ ∀ b ∈ ((exec unraced approved).get approved_isSome).db.roleBindings.rows,
          ∀ r, b.grantID = some r →
            ∃ row, ((exec unraced approved).get approved_isSome).db.requests.find? r = some row
              ∧ row.status = .approved :=
  ⟨by decide,
    (lifecycle_safe init.db directory (by decide) (by decide) approved _
      (Run.of_isSome approved_isSome)).1⟩

end LateCancel

end Mxid.Access
