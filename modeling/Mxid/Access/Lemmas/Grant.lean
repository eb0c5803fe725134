import Mxid.Access.Lemmas.Lifecycle

namespace Mxid.Access

open List DB

def Commits (s : State) (a : Action) (req : Request) (approverID expiresAt bindingID : Int) : Prop :=
  ∃ i now, a = .write i now bindingID ∧ s.calls[i]? = some (.approve req approverID expiresAt)
    ∧ ((Call.approve req approverID expiresAt).write s.db now bindingID).isSome = true

def ApproveStep (s : State) : Action → Prop
  | .approve _ _ _ _ => True
  | .write i _ _ | .fail i => ∃ req approverID expiresAt, s.calls[i]? = some (.approve req approverID expiresAt)
  | _ => False

def ApprovedBy (init : State) (acts : List Action) (req : Request) (approverID expiresAt : Int) : Prop :=
  ∃ before after s tenantID now elig,
    acts = before ++ .approve tenantID req.id approverID now :: after
      ∧ Run step (fun _ _ => True) init before s
      ∧ s.db.getRequest req.id tenantID = some req
      ∧ s.db.getEligibility req.eligibilityID tenantID = some elig
      ∧ approverAllowed s.directory tenantID approverID elig = true
      ∧ approverID ≠ req.requesterID
      ∧ expiresAt = now + req.requestedSeconds * 1000000000

def FiledWithin (init : State) (acts : List Action) (req : Request) : Prop :=
  ∃ before after s creq elig,
    acts = before ++ .createRequest req.tenantID req.requesterID req.id creq :: after
      ∧ Run step (fun _ _ => True) init before s
      ∧ createRequest s.directory s.db req.tenantID req.requesterID req.id creq = .ok req.asFiled
      ∧ s.db.getEligibility req.eligibilityID req.tenantID = some elig
      ∧ 0 < req.requestedSeconds
      ∧ req.requestedSeconds ≤ elig.maxDurationSeconds
      ∧ req.requestedSeconds ≤ maxEligibilityTTL

section Eligibilities

def DB.EligibilitiesValid (db : DB) : Prop :=
  ∀ e ∈ db.eligibilities.rows, validateEligibilityRequest e = .ok ()

variable {db db' : DB} {s s' : State} {a : Action} {call : Call} {e : Eligibility}

theorem Call.write_eligibilities {now bindingID : Int} (h : call.write db now bindingID = some db') :
    db'.eligibilities = db.eligibilities := by
  cases call with
  | approve =>
    rcases approveAndGrant_eq_some h with ⟨db1, hinsert, _, rfl⟩
    exact (insertBinding_rest hinsert).2
  | reject | cancel =>
    cases h
    rfl
  | revoke req | expire req =>
    cases h
    exact (db.deleteBinding_rest req).2

theorem State.begin_db {result : Except AccessError Call} (h : s.begin result = some s') : s'.db = s.db := by
  unfold State.begin at h
  split at h <;> cases h <;> rfl

theorem DB.EligibilitiesValid.of_stepEligibility {t : Option (Table Eligibility.id)}
    (hvalid : s.db.EligibilitiesValid) (h : stepEligibility s e t = some s')
    (ht : ∀ t', t = some t' → ∀ e' ∈ t'.rows, e' ∈ s.db.eligibilities.rows
      ∨ validateEligibilityRequest e' = validateEligibilityRequest e) : s'.db.EligibilitiesValid := by
  unfold stepEligibility at h
  split at h
  . next t' he =>
    cases h
    intro e' he'
    rcases ht t' rfl e' he' with hold | hnew
    . exact hvalid e' hold
    . exact hnew.trans he
  . cases h
    exact hvalid

theorem DB.EligibilitiesValid.step (hvalid : s.db.EligibilitiesValid) (h : step s a = some s') :
    s'.db.EligibilitiesValid := by
  cases a with
  | createEligibility =>
    apply hvalid.of_stepEligibility h
    intro t' ht' e' he'
    rcases (Table.mem_of_insert? ht').mp he' with rfl | hold
    . exact Or.inr rfl
    . exact Or.inl hold
  | updateEligibility =>
    apply hvalid.of_stepEligibility h
    intro t' ht' e' he'
    rcases Option.map_eq_some_iff.mp ht' with ⟨existing, _, rfl⟩
    rcases (Table.mem_upsert _).mp he' with rfl | ⟨hold, _⟩
    . exact Or.inr rfl
    . exact Or.inl hold
  | deleteEligibility =>
    cases h
    exact fun e he => hvalid e (mem_of_mem_filter he)
  | changeDirectory | sweep | fail =>
    cases h
    exact hvalid
  | createRequest =>
    simp only [Access.step, stepCreateRequest] at h
    repeat' split at h
    all_goals
      cases h
      exact hvalid
  | approve | reject | cancel | revoke => exact State.begin_db h ▸ hvalid
  | write =>
    simp only [Access.step, stepWrite] at h
    split at h
    . contradiction
    split at h
    . cases h
      exact hvalid
    next hwrite =>
    cases h
    unfold EligibilitiesValid
    rw [Call.write_eligibilities hwrite]
    exact hvalid

end Eligibilities

section Origin

variable {init s s' : State} {acts : List Action} {a : Action} {req : Request}

theorem approvedBy_of_mem (hcalls : init.calls = []) (run : Run step (fun _ _ => True) init acts s)
    {approverID expiresAt : Int} (h : .approve req approverID expiresAt ∈ s.calls) :
    ApprovedBy init acts req approverID expiresAt := by
  have horigin := run.origin (M := fun s call => call ∈ s.calls) (B := fun s a call => Begins s call a)
    (by simp [hcalls]) (fun _ _ _ _ hstep hcall => step_calls hstep hcall) h
  rcases horigin with ⟨before, a, after, s0, rfl, run0, hbegins⟩
  cases a with
  | approve tenantID requestID approverID' now =>
    rcases approve_eq_ok hbegins with ⟨req', elig, hreq, _, hself, helig, hallowed, heq⟩
    cases heq
    have hid := (getRequest_eq_some hreq).2.1
    subst hid
    exact ⟨before, after, s0, tenantID, now, elig, rfl, run0, hreq, helig, hallowed, hself, rfl⟩
  | reject =>
    rcases reject_eq_ok hbegins with ⟨_, _, _, heq⟩
    cases heq
  | cancel =>
    rcases cancel_eq_ok hbegins with ⟨_, _, _, heq⟩
    cases heq
  | revoke =>
    rcases revoke_eq_ok hbegins with ⟨_, _, _, heq⟩
    cases heq
  | sweep =>
    rcases hbegins with ⟨_, _, heq⟩
    cases heq
  | _ => exact hbegins.elim

theorem step_asFiled (h : step s a = some s') (hreq : ∃ row ∈ s'.db.requests.rows, row.asFiled = req) :
    (∃ row ∈ s.db.requests.rows, row.asFiled = req)
      ∨ ∃ creq, a = .createRequest req.tenantID req.requesterID req.id creq
          ∧ createRequest s.directory s.db req.tenantID req.requesterID req.id creq = .ok req := by
  rcases hreq with ⟨row, hrow, rfl⟩
  cases step_effect h with
  | quiet _ hrequests =>
    rw [hrequests] at hrow
    exact Or.inl ⟨row, hrow, rfl⟩
  | filed tenantID requesterID id creq new requests ha hnew hinsert hs' =>
    subst hs'
    rcases (Table.mem_of_insert? hinsert).mp hrow with rfl | hold
    . rcases createRequest_eq_ok hnew with ⟨_, _, _, _, rfl, rfl, rfl, _, _, hterms⟩
      rw [hterms]
      exact Or.inr ⟨creq, ha, hnew⟩
    . exact Or.inl ⟨row, hold, rfl⟩
  | refused _ _ _ _ _ _ _ hs' =>
    subst hs'
    exact Or.inl ⟨row, hrow, rfl⟩
  | written i now bindingID call db ha hcall hwrite hs' =>
    subst hs'
    rcases call.write_requests hwrite with ⟨p, f, hf, hrequests, hterms, _⟩
    rw [hrequests, Table.rows_update, mem_map] at hrow
    rcases hrow with ⟨old, hold, rfl⟩
    refine Or.inl ⟨old, hold, ?_⟩
    split
    . exact (hterms old).symm
    . rfl

theorem filedWithin_of_mem (hrequests : init.db.requests.rows = [])
    (hvalid : init.db.EligibilitiesValid) (run : Run step (fun _ _ => True) init acts s)
    (h : ∃ row ∈ s.db.requests.rows, row.asFiled = req.asFiled) : FiledWithin init acts req := by
  have horigin := run.origin (M := fun s r => ∃ row ∈ s.db.requests.rows, row.asFiled = r)
    (by simp [hrequests]) (fun _ _ _ _ hstep hreq => step_asFiled hstep hreq) h
  rcases horigin with ⟨before, a, after, s0, rfl, run0, creq, rfl, hfiled⟩
  have hvalid0 : s0.db.EligibilitiesValid :=
    run0.invariant (I := fun s => s.db.EligibilitiesValid) hvalid (fun _ _ _ hs _ hstep => hs.step hstep)
  rcases createRequest_eq_ok hfiled with ⟨elig, helig, _, hduration, _, _, _, heligID, hseconds, _⟩
  have hfound := helig
  unfold DB.getEligibility at hfound
  rcases s0.db.eligibilities.find?_eq_some_iff.mp (Option.filter_eq_some_iff.mp hfound).1 with ⟨hmem, hid⟩
  have hchecked := hvalid0 elig hmem
  unfold validateEligibilityRequest at hchecked
  split at hchecked
  . contradiction
  split at hchecked
  . contradiction
  split at hchecked
  . contradiction
  split at hchecked
  . contradiction
  next hmax hdurations =>
  rw [any_eq_true, not_exists] at hdurations
  have hd := hdurations creq.requestedSeconds
  rw [not_and, decide_eq_true_eq] at hd
  have hd := hd (of_decide_eq_true hduration)
  rw [← hid, ← heligID] at helig
  refine ⟨before, after, s0, creq, elig, rfl, run0, hfiled, helig, ?_⟩
  rw [show req.requestedSeconds = _ from hseconds]
  unfold Eligibility.clampDuration
  split <;> omega

end Origin

section Once

variable {s s' : State} {a : Action} {req : Request} {approverID expiresAt bindingID : Int}

section

variable (h : Commits s a req approverID expiresAt bindingID)

include h

theorem Commits.mem_calls : .approve req approverID expiresAt ∈ s.calls := by
  rcases h with ⟨i, now, _, hcall, _⟩
  exact mem_of_getElem? hcall

theorem Commits.step (hstep : step s a = some s') :
    ∃ now, s.db.approveAndGrant req approverID now expiresAt bindingID = some s'.db := by
  rcases h with ⟨i, now, rfl, hcall, hsome⟩
  rcases Option.isSome_iff_exists.mp hsome with ⟨db, hdb⟩
  simp only [Access.step, stepWrite, hcall, hdb, Option.some.injEq] at hstep
  subst hstep
  exact ⟨now, hdb⟩

theorem Commits.pending : ∃ row, s.db.requests.find? req.id = some row ∧ row.status = .pending := by
  rcases h with ⟨i, now, _, _, hsome⟩
  rcases Option.isSome_iff_exists.mp hsome with ⟨db, hdb⟩
  rcases approveAndGrant_eq_some hdb with ⟨_, _, hpending, _⟩
  rcases isPending_iff.mp hpending with ⟨row, hrow, hid, _, hstatus⟩
  exact ⟨row, s.db.requests.find?_eq_some_iff.mpr ⟨hrow, hid⟩, hstatus⟩

theorem Commits.decided (hstep : Access.step s a = some s') :
    ∃ row, s'.db.requests.find? req.id = some row ∧ row.status = .approved := by
  rcases h.step hstep with ⟨now, hdb⟩
  rcases approveAndGrant_eq_some hdb with ⟨db1, _, hpending, hs'⟩
  rcases isPending_iff.mp hpending with ⟨row, hrow, hid, htenant, hstatus⟩
  rw [hs', Table.find?_update, s.db.requests.find?_eq_some_iff.mpr ⟨hrow, hid⟩]
  simp [isRequest, hid, htenant, hstatus, Request.approve]

theorem Commits.granted (hstep : Access.step s a = some s') : req.binding bindingID expiresAt ∈ s'.db.bindings := by
  rcases h.step hstep with ⟨now, hdb⟩
  rcases approveAndGrant_eq_some hdb with ⟨db1, hinsert, _, hs'⟩
  have hmem := ((insertBinding_eq_some hinsert).2 (req.binding bindingID expiresAt)).mpr (Or.inl rfl)
  rw [hs']
  exact hmem

end

theorem ApproveStep.db_eq (h : ApproveStep s a) (hstep : step s a = some s')
    (hno : ∀ req approverID expiresAt bindingID, ¬Commits s a req approverID expiresAt bindingID) : s'.db = s.db := by
  cases a with
  | approve => exact State.begin_db hstep
  | write i now bindingID =>
    rcases h with ⟨req, approverID, expiresAt, hcall⟩
    simp only [Access.step, stepWrite, hcall] at hstep
    split at hstep
    . cases hstep
      rfl
    . next db hdb =>
      refine absurd ⟨i, now, rfl, hcall, ?_⟩ (hno req approverID expiresAt bindingID)
      rw [hdb]
      rfl
  | fail =>
    cases hstep
    rfl
  | _ => exact h.elim

end Once

/--
Let any calls run concurrently. A step that commits an approval was allowed to, is not by the requester, grants the
time that was filed for, and is the last one for its request. Any other step of an approval changes nothing.
-/
theorem grant_once_by_approver (init : State) (hcalls : init.calls = [])
    (hrequests : init.db.requests.rows = [])
    (hvalid : ∀ e ∈ init.db.eligibilities.rows, validateEligibilityRequest e = .ok ())
    (acts : List Action) (s : State) (run : Run step (fun _ _ => True) init acts s)
    (a : Action) (s' : State) (hstep : step s a = some s') :
    (∀ req approverID expiresAt bindingID, Commits s a req approverID expiresAt bindingID →
        ApprovedBy init acts req approverID expiresAt
          ∧ FiledWithin init acts req
          ∧ (∃ b ∈ s'.db.bindings, b.kind = req.targetKind ∧ b.id = bindingID
              ∧ b.grantID = some req.id ∧ b.expiresAt = some expiresAt)
          ∧ ∀ acts' s'', Run step (fun _ _ => True) s' acts' s'' →
              ∀ a' req' approverID' expiresAt' bindingID', req'.id = req.id →
                ¬Commits s'' a' req' approverID' expiresAt' bindingID')
      ∧ (ApproveStep s a →
          (∀ req approverID expiresAt bindingID, ¬Commits s a req approverID expiresAt bindingID) →
          s'.db = s.db) := by
  constructor
  . intro req approverID expiresAt bindingID h
    have happroved := approvedBy_of_mem hcalls run h.mem_calls
    refine ⟨happroved, ?_, ?_, ?_⟩
    . rcases happroved with ⟨before, after, s0, tenantID, now, elig, rfl, run0, hreq, _⟩
      rcases filedWithin_of_mem hrequests hvalid run0 ⟨req, mem_of_getRequest hreq, rfl⟩ with
        ⟨before', after', s', creq, elig', rfl, hrest⟩
      exact ⟨before', _, s', creq, elig', append_assoc .., hrest⟩
    . exact ⟨req.binding bindingID expiresAt, h.granted hstep, by simp, by simp, by simp, by simp⟩
    . intro acts' s'' run' a' req' approverID' expiresAt' bindingID' hid h'
      have hkept : Kept s'.db.requests s''.db.requests :=
        run'.invariant (I := fun s'' => Kept s'.db.requests s''.db.requests) (.refl _)
          (fun _ _ _ hs _ hs' => hs.trans (step_kept hs'))
      rcases h.decided hstep with ⟨row, hrow, hstatus⟩
      rcases h'.pending with ⟨row', hrow', hpending⟩
      rcases hkept _ row hrow with ⟨row'', hrow'', _, hsame⟩
      rw [hid, hrow''] at hrow'
      cases hrow'
      rw [← hsame hpending, hpending] at hstatus
      contradiction
  . intro happrove hno
    exact happrove.db_eq hstep hno

namespace LateCancel

def request : Request where
  id := 100
  tenantID := 1
  requesterID := 7
  eligibilityID := 1
  targetKind := .console
  roleID := 3
  scopeType := none
  scopeID := none
  appID := none
  requestedSeconds := 3600
  justification := "deploy"
  status := .pending
  approverID := none
  decidedAt := none
  decisionReason := ""
  activatedAt := none
  expiresAt := none
  bindingID := none

def begun : List Action :=
  requested ++ [.approve 1 100 9 10]

theorem begun_isSome : (exec (fun _ _ => true) begun).isSome = true := by
  decide

theorem granted_within :
    Commits ((exec (fun _ _ => true) begun).get begun_isSome) (.write 0 11 500) request 9 3600000000010 500
      ∧ ApprovedBy init begun request 9 3600000000010
      ∧ FiledWithin init begun request := by
  have hcommits : Commits ((exec (fun _ _ => true) begun).get begun_isSome) (.write 0 11 500) request 9
      3600000000010 500 :=
    ⟨0, 11, rfl, by decide, by decide⟩
  have run := (Run.of_isSome begun_isSome).free
  have hgrant := grant_once_by_approver init rfl rfl (by decide) begun _ run (.write 0 11 500) _
    (Option.some_get (by decide)).symm
  rcases hgrant.1 request 9 3600000000010 500 hcommits with ⟨happroved, hfiled, _⟩
  exact ⟨hcommits, happroved, hfiled⟩

end LateCancel

end Mxid.Access
