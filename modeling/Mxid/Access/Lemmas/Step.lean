import Mxid.Access.Impl.System
import Mxid.Data.Run

/-!
This module contains what a single step of the access system can do.
-/

namespace Mxid.Access

open List Request

inductive Binding where
  | role (b : RoleBinding)
  | app (b : AppRoleBinding)
  deriving DecidableEq

namespace Binding

def kind : Binding → TargetKind
  | .role _ => .console
  | .app _ => .app

def id : Binding → Int
  | .role b | .app b => b.id

def grantID : Binding → Option Int
  | .role b | .app b => b.grantID

def expiresAt : Binding → Option Int
  | .role b | .app b => b.expiresAt

end Binding

def DB.bindings (db : DB) : List Binding :=
  db.roleBindings.rows.map .role ++ db.appRoleBindings.rows.map .app

@[simp]
theorem DB.role_mem_bindings {db : DB} {b : RoleBinding} : .role b ∈ db.bindings ↔ b ∈ db.roleBindings.rows := by
  simp [bindings]

@[simp]
theorem DB.app_mem_bindings {db : DB} {b : AppRoleBinding} : .app b ∈ db.bindings ↔ b ∈ db.appRoleBindings.rows := by
  simp [bindings]

variable (req : Request)

def Request.supersedes : Binding → Bool
  | .role b => req.targetKind = .console ∧ req.replacesRole b
  | .app b => req.targetKind = .app ∧ req.appID.isSome ∧ req.replacesApp b

variable (bindingID expiresAt : Int)

def Request.binding : Binding :=
  match req.targetKind with
  | .console => .role (req.roleBinding bindingID expiresAt)
  | .app => .app (req.appRoleBinding bindingID expiresAt)

@[simp]
theorem Request.kind_binding : (req.binding bindingID expiresAt).kind = req.targetKind := by
  unfold binding
  split <;> simp [Binding.kind, *]

@[simp]
theorem Request.id_binding : (req.binding bindingID expiresAt).id = bindingID := by
  unfold binding
  split <;> rfl

@[simp]
theorem Request.grantID_binding : (req.binding bindingID expiresAt).grantID = some req.id := by
  unfold binding
  split <;> rfl

@[simp]
theorem Request.expiresAt_binding : (req.binding bindingID expiresAt).expiresAt = some expiresAt := by
  unfold binding
  split <;> rfl

def Request.Names (b : Binding) : Prop :=
  b.kind = req.targetKind ∧ req.bindingID = some b.id

def DB.idFree (db : DB) (req : Request) (bindingID : Int) : Bool :=
  db.bindings.all (fun b => (b.kind = req.targetKind ∧ b.id = bindingID) → req.supersedes b)

section Bindings

variable {db db' : DB} {req : Request} {bindingID expiresAt : Int}

theorem DB.idFree_iff :
    db.idFree req bindingID = true
      ↔
    ∀ b ∈ db.bindings, b.kind = req.targetKind → b.id = bindingID → req.supersedes b = true := by
  unfold idFree
  simp only [all_eq_true, decide_eq_true_eq, and_imp]

theorem DB.insertBinding_rest (h : db.insertBinding req bindingID expiresAt = some db') :
    db'.requests = db.requests ∧ db'.eligibilities = db.eligibilities := by
  unfold insertBinding insertRoleBinding insertAppRoleBinding at h
  repeat' split at h
  all_goals first | contradiction | (cases h; exact ⟨rfl, rfl⟩)

theorem supersedes_role (hkind : req.targetKind = .console) :
    req.replacesRole = fun b : RoleBinding => req.supersedes (.role b) := by
  funext b
  simp [supersedes, hkind]

theorem supersedes_app {appID : Int} (hkind : req.targetKind = .app) (happID : req.appID = some appID) :
    req.replacesApp = fun b : AppRoleBinding => req.supersedes (.app b) := by
  funext b
  simp [supersedes, hkind, happID]

theorem DB.insertBinding_eq_some (h : db.insertBinding req bindingID expiresAt = some db') :
    db.idFree req bindingID = true
      ∧ ∀ b, b ∈ db'.bindings
          ↔ b = req.binding bindingID expiresAt ∨ b ∈ db.bindings ∧ req.supersedes b = false := by
  rw [idFree_iff]
  unfold insertBinding at h
  split at h
  . next hkind =>
    unfold insertRoleBinding at h
    rw [supersedes_role hkind] at h
    split at h
    . contradiction
    next t ht =>
    cases h
    rcases Table.insert?_delete_eq_some ht with ⟨hfree, hmem⟩
    constructor
    . rintro (b | b) hb hbkind hid
      . exact hfree b (role_mem_bindings.mp hb) hid
      . rw [hkind] at hbkind
        contradiction
    . rintro (b | b)
      . simp [hmem, binding, hkind]
      . simp [binding, supersedes, hkind]
  . next hkind =>
    unfold insertAppRoleBinding at h
    split at h
    . contradiction
    next appID happID =>
    rw [supersedes_app hkind happID] at h
    split at h
    . contradiction
    next t ht =>
    cases h
    rcases Table.insert?_delete_eq_some ht with ⟨hfree, hmem⟩
    constructor
    . rintro (b | b) hb hbkind hid
      . rw [hkind] at hbkind
        contradiction
      . exact hfree b (app_mem_bindings.mp hb) hid
    . rintro (b | b)
      . simp [binding, supersedes, hkind]
      . simp [hmem, binding, hkind]

theorem DB.insertBinding_eq_none (h : db.insertBinding req bindingID expiresAt = none)
    (hfree : db.idFree req bindingID = true) (b : Binding) : req.supersedes b = false := by
  rw [idFree_iff] at hfree
  unfold insertBinding at h
  split at h
  . next hkind =>
    unfold insertRoleBinding at h
    rw [supersedes_role hkind] at h
    split at h
    . next hnone =>
      rcases Table.insert?_delete_eq_none hnone with ⟨b', hb', hid, hstays⟩
      have := hfree (.role b') (role_mem_bindings.mpr hb') hkind.symm hid
      rw [hstays] at this
      contradiction
    . contradiction
  . next hkind =>
    unfold insertAppRoleBinding at h
    split at h
    . next happID => cases b <;> simp [supersedes, hkind, happID]
    next appID happID =>
    rw [supersedes_app hkind happID] at h
    split at h
    . next hnone =>
      rcases Table.insert?_delete_eq_none hnone with ⟨b', hb', hid, hstays⟩
      have := hfree (.app b') (app_mem_bindings.mpr hb') hkind.symm hid
      rw [hstays] at this
      contradiction
    . contradiction

theorem DB.deleteBinding_rest (db : DB) (req : Request) :
    (db.deleteBinding req).requests = db.requests ∧ (db.deleteBinding req).eligibilities = db.eligibilities := by
  unfold deleteBinding
  split
  . exact ⟨rfl, rfl⟩
  . split <;> exact ⟨rfl, rfl⟩

theorem DB.endGrant_requests (db : DB) (req : Request) (status : Status) :
    (db.endGrant req status).requests
      =
    db.requests.update (isRequest req.id req.tenantID) (finish status)
      (id_finish status) := by
  unfold endGrant
  simp only [(db.deleteBinding_rest req).1]

theorem DB.mem_endGrant {status : Status} {b : Binding} :
    b ∈ (db.endGrant req status).bindings ↔ b ∈ db.bindings ∧ ¬req.Names b := by
  show b ∈ (db.deleteBinding req).bindings ↔ _
  unfold deleteBinding Request.Names
  split
  . next hnone => simp [hnone]
  next id hid =>
  split
  . next hkind => cases b <;> simp [Binding.kind, Binding.id, hkind, hid, @eq_comm _ id]
  . next hkind => cases b <;> simp [Binding.kind, Binding.id, hkind, hid, @eq_comm _ id]

def DB.isPending (db : DB) (req : Request) : Bool :=
  db.requests.rows.any (fun r => isRequest req.id req.tenantID r && r.status = .pending)

theorem DB.isPending_iff :
    db.isPending req = true
      ↔
    ∃ row ∈ db.requests.rows, row.id = req.id ∧ row.tenantID = req.tenantID ∧ row.status = .pending := by
  simp [isPending, isRequest, and_assoc]

theorem DB.approveAndGrant_eq_some {approverID now : Int}
    (h : db.approveAndGrant req approverID now expiresAt bindingID = some db') :
    ∃ db1, db.insertBinding req bindingID expiresAt = some db1
      ∧ db.isPending req = true
      ∧ db' = { db1 with
          requests := db.requests.update
            (fun r => isRequest req.id req.tenantID r && r.status = .pending)
            (Request.approve approverID now expiresAt bindingID)
            (id_approve approverID now expiresAt bindingID) } := by
  unfold approveAndGrant at h
  split at h
  . contradiction
  next db1 hinsert =>
  dsimp only at h
  rw [(insertBinding_rest hinsert).1] at h
  refine ⟨db1, hinsert, ?_⟩
  split at h
  . next hany =>
    cases h
    exact ⟨hany, rfl⟩
  . contradiction

end Bindings

def Request.asFiled (r : Request) : Request :=
  { r with
    status := .pending
    approverID := none
    decidedAt := none
    decisionReason := ""
    activatedAt := none
    expiresAt := none
    bindingID := none }

def Kept (t t' : Table Request.id) : Prop :=
  ∀ id row, t.find? id = some row → ∃ row', t'.find? id = some row'
    ∧ row'.asFiled = row.asFiled ∧ (row'.status = .pending → row' = row)

section Requests

variable {db db' : DB} {req : Request} {call : Call}

theorem Kept.refl (t : Table Request.id) : Kept t t :=
  fun _ row h => ⟨row, h, rfl, fun _ => rfl⟩

theorem Kept.trans {t t' t'' : Table Request.id} (h : Kept t t') (h' : Kept t' t'') : Kept t t'' := by
  intro id row hrow
  rcases h id row hrow with ⟨row', hrow', hterms, hpending⟩
  rcases h' id row' hrow' with ⟨row'', hrow'', hterms', hpending'⟩
  refine ⟨row'', hrow'', hterms'.trans hterms, ?_⟩
  intro hstatus
  have heq := hpending' hstatus
  rw [heq] at hstatus ⊢
  exact hpending hstatus

variable {now tenantID requestID : Int}

theorem Call.write_requests {bindingID : Int} (h : call.write db now bindingID = some db') :
    ∃ p f hf, db'.requests = db.requests.update p f hf
      ∧ (∀ r, (f r).asFiled = r.asFiled) ∧ ∀ r, (f r).status ≠ .pending := by
  cases call with
  | approve req approverID expiresAt =>
    rcases DB.approveAndGrant_eq_some h with ⟨db1, _, _, rfl⟩
    exact ⟨_, _, Request.id_approve approverID now expiresAt bindingID, rfl, fun _ => rfl,
      fun _ h => by cases h⟩
  | reject | cancel =>
    cases h
    exact ⟨_, _, Request.id_decide _ _ _ _, rfl, fun _ => rfl, fun _ h => by cases h⟩
  | revoke req | expire req =>
    cases h
    exact ⟨_, _, _, db.endGrant_requests req _, fun _ => rfl, fun _ h => by cases h⟩

theorem Call.write_kept {bindingID : Int} (h : call.write db now bindingID = some db') :
    Kept db.requests db'.requests := by
  rcases call.write_requests h with ⟨p, f, hf, hrequests, hterms, hdecided⟩
  rw [hrequests]
  intro id row hrow
  refine ⟨if p row then f row else row, by simp [Table.find?_update, hrow], ?_⟩
  split
  . exact ⟨hterms row, fun h => absurd h (hdecided row)⟩
  . exact ⟨rfl, fun _ => rfl⟩

theorem DB.getRequest_eq_some {id : Int} (h : db.getRequest id tenantID = some req) :
    db.requests.find? id = some req ∧ req.id = id ∧ req.tenantID = tenantID := by
  unfold getRequest at h
  rw [Option.filter_eq_some_iff, decide_eq_true_eq] at h
  exact ⟨h.1, (db.requests.find?_eq_some_iff.mp h.1).2, h.2⟩

theorem mem_of_getRequest {id : Int} (h : db.getRequest id tenantID = some req) : req ∈ db.requests.rows :=
  (db.requests.find?_eq_some_iff.mp (DB.getRequest_eq_some h).1).1

theorem createRequest_eq_ok {dir : Directory} {requesterID id : Int} {req : CreateAccessRequest}
    {row : Request} (h : createRequest dir db tenantID requesterID id req = .ok row) :
    ∃ elig, db.getEligibility req.eligibilityID tenantID = some elig
      ∧ requesterEligible dir tenantID requesterID elig = true
      ∧ elig.durationAllowed req.requestedSeconds = true
      ∧ row.id = id ∧ row.tenantID = tenantID ∧ row.requesterID = requesterID
      ∧ row.eligibilityID = elig.id ∧ row.requestedSeconds = elig.clampDuration req.requestedSeconds
          ∧ row.asFiled = row := by
  unfold createRequest at h
  split at h
  . contradiction
  next elig helig =>
  split at h
  . contradiction
  split at h
  . contradiction
  next heligible =>
  split at h
  . contradiction
  next hduration =>
  split at h
  . contradiction
  cases h
  exact ⟨elig, helig, by simpa using heligible, by simpa using hduration, rfl, rfl, rfl, rfl,
    rfl, rfl⟩

theorem approve_eq_ok {dir : Directory} {approverID : Int}
    (h : approve dir db tenantID requestID approverID now = .ok call) :
    ∃ req elig, db.getRequest requestID tenantID = some req ∧ req.status = .pending
      ∧ approverID ≠ req.requesterID ∧ db.getEligibility req.eligibilityID tenantID = some elig
      ∧ approverAllowed dir tenantID approverID elig = true
      ∧ call = .approve req approverID (now + req.requestedSeconds * 1000000000) := by
  unfold approve at h
  split at h
  . contradiction
  next req hreq =>
  split at h
  . contradiction
  next hstatus =>
  split at h
  . contradiction
  next hself =>
  split at h
  . contradiction
  next elig helig =>
  split at h
  . next hallowed =>
    cases h
    exact ⟨req, elig, hreq, not_not.mp hstatus, hself, helig, hallowed, rfl⟩
  . contradiction

theorem reject_eq_ok {approverID : Int} {reason : String}
    (h : reject db tenantID requestID approverID reason = .ok call) :
    ∃ req, db.getRequest requestID tenantID = some req ∧ req.status = .pending
      ∧ call = .reject req approverID reason := by
  unfold reject at h
  split at h
  . contradiction
  next req hreq =>
  split at h
  . contradiction
  next hstatus =>
  cases h
  exact ⟨req, hreq, not_not.mp hstatus, rfl⟩

theorem cancel_eq_ok {requesterID : Int} (h : cancel db tenantID requestID requesterID = .ok call) :
    ∃ req, db.getRequest requestID tenantID = some req ∧ req.status = .pending ∧ call = .cancel req := by
  unfold cancel at h
  split at h
  . contradiction
  next req hreq =>
  split at h
  . contradiction
  split at h
  . contradiction
  next hstatus =>
  cases h
  exact ⟨req, hreq, not_not.mp hstatus, rfl⟩

theorem revoke_eq_ok (h : revoke db tenantID requestID = .ok call) :
    ∃ req, db.getRequest requestID tenantID = some req ∧ req.status = .approved ∧ call = .revoke req := by
  unfold revoke at h
  split at h
  . contradiction
  next req hreq =>
  split at h
  . contradiction
  next hstatus =>
  cases h
  exact ⟨req, hreq, not_not.mp hstatus, rfl⟩

end Requests

def Call.Read : Call → Prop
  | .approve req _ _ | .reject req _ _ | .cancel req => req.status = .pending
  | .revoke req | .expire req => req.status = .approved

def Begins (s : State) (call : Call) : Action → Prop
  | .approve tenantID requestID approverID now =>
    approve s.directory s.db tenantID requestID approverID now = .ok call
  | .reject tenantID requestID approverID reason => reject s.db tenantID requestID approverID reason = .ok call
  | .cancel tenantID requestID requesterID => cancel s.db tenantID requestID requesterID = .ok call
  | .revoke tenantID requestID => revoke s.db tenantID requestID = .ok call
  | .sweep now => ∃ req ∈ s.db.listDueGrants now, call = .expire req
  | _ => False

theorem Begins.read {s : State} {call : Call} {a : Action} (h : Begins s call a) :
    call.req ∈ s.db.requests.rows ∧ call.Read := by
  cases a with
  | approve =>
    rcases approve_eq_ok h with ⟨req, _, hreq, hstatus, _, _, _, rfl⟩
    exact ⟨mem_of_getRequest hreq, hstatus⟩
  | reject =>
    rcases reject_eq_ok h with ⟨req, hreq, hstatus, rfl⟩
    exact ⟨mem_of_getRequest hreq, hstatus⟩
  | cancel =>
    rcases cancel_eq_ok h with ⟨req, hreq, hstatus, rfl⟩
    exact ⟨mem_of_getRequest hreq, hstatus⟩
  | revoke =>
    rcases revoke_eq_ok h with ⟨req, hreq, hstatus, rfl⟩
    exact ⟨mem_of_getRequest hreq, hstatus⟩
  | sweep =>
    rcases h with ⟨req, hreq, rfl⟩
    unfold DB.listDueGrants at hreq
    rw [mem_filter, decide_eq_true_eq] at hreq
    exact ⟨hreq.1, hreq.2.1⟩
  | _ => exact h.elim

inductive Effect (s : State) (a : Action) (s' : State) : Prop
  | quiet (hwrite : ∀ i now bindingID, a ≠ .write i now bindingID)
      (hrequests : s'.db.requests = s.db.requests) (hbindings : s'.db.bindings = s.db.bindings)
      (hcalls : ∀ call ∈ s'.calls, call ∈ s.calls ∨ Begins s call a)
  | filed (tenantID requesterID id : Int) (req : CreateAccessRequest) (row : Request)
      (requests : Table Request.id) (ha : a = .createRequest tenantID requesterID id req)
      (hrow : createRequest s.directory s.db tenantID requesterID id req = .ok row)
      (hinsert : s.db.requests.insert? row = some requests)
      (hs' : s' = { s with db := { s.db with requests } })
  | refused (i : Nat) (now bindingID : Int) (call : Call) (ha : a = .write i now bindingID)
      (hcall : s.calls[i]? = some call) (hwrite : call.write s.db now bindingID = none)
      (hs' : s' = { s with calls := s.calls.eraseIdx i })
  | written (i : Nat) (now bindingID : Int) (call : Call) (db : DB) (ha : a = .write i now bindingID)
      (hcall : s.calls[i]? = some call) (hwrite : call.write s.db now bindingID = some db)
      (hs' : s' = { s with db, calls := s.calls.eraseIdx i })

section Step

variable {s s' : State} {a : Action}

theorem Effect.of_begin {result : Except AccessError Call} (hwrite : ∀ i now bindingID, a ≠ .write i now bindingID)
    (hresult : ∀ call, result = .ok call → Begins s call a) (h : s.begin result = some s') : Effect s a s' := by
  unfold State.begin at h
  cases result with
  | error =>
    cases h
    exact .quiet hwrite rfl rfl (fun _ hcall => Or.inl hcall)
  | ok call =>
    cases h
    refine .quiet hwrite rfl rfl ?_
    intro call' hcall'
    rcases mem_append.mp hcall' with hold | hnew
    . exact Or.inl hold
    . rw [mem_singleton.mp hnew]
      exact Or.inr (hresult call rfl)

theorem step_effect (h : step s a = some s') : Effect s a s' := by
  cases a with
  | createEligibility | updateEligibility =>
    simp only [step, stepEligibility] at h
    split at h
    . cases h
      exact .quiet (by simp) rfl rfl (fun _ hcall => Or.inl hcall)
    . cases h
      exact .quiet (by simp) rfl rfl (fun _ hcall => Or.inl hcall)
  | deleteEligibility | changeDirectory =>
    cases h
    exact .quiet (by simp) rfl rfl (fun _ hcall => Or.inl hcall)
  | createRequest tenantID requesterID id req =>
    simp only [step, stepCreateRequest] at h
    split at h
    . cases h
      exact .quiet (by simp) rfl rfl (fun _ hcall => Or.inl hcall)
    next row hrow =>
    split at h
    . cases h
      exact .quiet (by simp) rfl rfl (fun _ hcall => Or.inl hcall)
    . next requests hinsert =>
      cases h
      exact .filed tenantID requesterID id req row requests rfl hrow hinsert rfl
  | approve | reject | cancel | revoke => exact .of_begin (by simp) (fun _ hcall => hcall) h
  | sweep =>
    cases h
    refine .quiet (by simp) rfl rfl ?_
    intro call hcall
    rcases mem_append.mp hcall with hold | hnew
    . exact Or.inl hold
    . rcases mem_map.mp hnew with ⟨req, hreq, rfl⟩
      exact Or.inr ⟨req, hreq, rfl⟩
  | write i now bindingID =>
    simp only [step, stepWrite] at h
    split at h
    . contradiction
    next call hcall =>
    split at h
    . next hnone =>
      cases h
      exact .refused i now bindingID call rfl hcall hnone rfl
    . next db hwrite =>
      cases h
      exact .written i now bindingID call db rfl hcall hwrite rfl
  | fail =>
    cases h
    exact .quiet (by simp) rfl rfl (fun _ hcall => Or.inl (mem_of_mem_eraseIdx hcall))

theorem step_kept (h : step s a = some s') : Kept s.db.requests s'.db.requests := by
  cases step_effect h with
  | quiet _ hrequests =>
    rw [hrequests]
    exact .refl _
  | filed _ _ _ _ _ _ _ _ hinsert hs' =>
    subst hs'
    intro id row hrow
    refine ⟨row, ?_, rfl, fun _ => rfl⟩
    rw [Table.find?_eq_some_iff] at hrow ⊢
    exact ⟨(Table.mem_of_insert? hinsert).mpr (Or.inr hrow.1), hrow.2⟩
  | refused _ _ _ _ _ _ _ hs' =>
    subst hs'
    exact .refl _
  | written _ _ _ _ _ _ _ hwrite hs' =>
    subst hs'
    exact Call.write_kept hwrite

theorem step_calls (h : step s a = some s') {call : Call} (hcall : call ∈ s'.calls) :
    call ∈ s.calls ∨ Begins s call a := by
  cases step_effect h with
  | quiet _ _ _ hcalls => exact hcalls call hcall
  | filed _ _ _ _ _ _ _ _ _ hs' =>
    subst hs'
    exact Or.inl hcall
  | refused _ _ _ _ _ _ _ hs' | written _ _ _ _ _ _ _ _ hs' =>
    subst hs'
    exact Or.inl (mem_of_mem_eraseIdx hcall)

end Step

end Mxid.Access
