import Mxid.Access.Lemmas.Step

namespace Mxid.Access

open DB

def RoleBinding.HeldBy (userID : Int) (b : RoleBinding) : Prop :=
  b.subjectType = .user ∧ b.subjectID = userID

def DB.Owned (db : DB) : Prop :=
  ∀ r ∈ db.requests.rows, ∀ b ∈ db.roleBindings.rows, r.Names (.role b) → b.HeldBy r.requesterID

variable {db db' : DB} {req : Request} {call : Call} {now bindingID : Int}

theorem DB.Owned.of_subset (h : db.Owned)
    (hrequests : ∀ r' ∈ db'.requests.rows, ∃ r ∈ db.requests.rows, r'.targetKind = r.targetKind
      ∧ r'.bindingID = r.bindingID ∧ r'.requesterID = r.requesterID)
    (hbindings : ∀ b ∈ db'.roleBindings.rows, b ∈ db.roleBindings.rows) : db'.Owned := by
  intro r' hr' b hb hnames
  rcases hrequests r' hr' with ⟨r, hr, hkind, hid, hrequester⟩
  rw [hrequester]
  apply h r hr b (hbindings b hb)
  exact ⟨hnames.1.trans hkind, hid.symm.trans hnames.2⟩

theorem DB.Owned.of_update (h : db.Owned) {p : Request → Bool} {f : Request → Request}
    (hrequests : db'.requests.rows = db.requests.rows.map (fun r => if p r then f r else r))
    (hkeeps : ∀ r, (f r).targetKind = r.targetKind ∧ (f r).bindingID = r.bindingID
      ∧ (f r).requesterID = r.requesterID)
    (hbindings : ∀ b ∈ db'.roleBindings.rows, b ∈ db.roleBindings.rows) : db'.Owned := by
  apply h.of_subset _ hbindings
  intro r' hr'
  rw [hrequests, List.mem_map] at hr'
  rcases hr' with ⟨r, hr, rfl⟩
  refine ⟨r, hr, ?_⟩
  split
  . exact hkeeps r
  . exact ⟨rfl, rfl, rfl⟩

theorem DB.Owned.approve {approverID expiresAt : Int} (h : db.Owned) (hreq : req ∈ db.requests.rows)
    (hfresh : ∀ r ∈ db.requests.rows, r.bindingID ≠ some bindingID)
    (hwrite : db.approveAndGrant req approverID now expiresAt bindingID = some db') : db'.Owned := by
  rcases approveAndGrant_eq_some hwrite with ⟨db1, hinsert, _, rfl⟩
  rcases insertBinding_eq_some hinsert with ⟨hfree, hmem⟩
  rw [idFree_iff] at hfree
  intro r' hr' b hb hnames
  rw [Table.rows_update, List.mem_map] at hr'
  rcases hr' with ⟨r, hr, rfl⟩
  have hb' := (hmem (.role b)).mp (role_mem_bindings.mpr hb)
  split at hnames
  . next hp =>
    -- the request that is approved, which refers to the new binding now
    simp only [isRequest, Bool.and_eq_true, decide_eq_true_eq] at hp
    rw [db.requests.eq_of_key_eq hr hreq hp.1.1] at hnames ⊢
    have hid : b.id = bindingID := (Option.some.inj hnames.2).symm
    rcases hb' with hnew | ⟨hold, hstays⟩
    . have hkind : req.targetKind = .console := hnames.1.symm
      rw [Request.binding, hkind] at hnew
      cases hnew
      rw [if_pos (by simp [isRequest, ← db.requests.eq_of_key_eq hr hreq hp.1.1, hp.2])]
      exact ⟨rfl, rfl⟩
    . rw [hfree (.role b) hold hnames.1 hid] at hstays
      contradiction
  . next hp =>
    rw [if_neg hp]
    rcases hb' with hnew | ⟨hold, _⟩
    . have hid : b.id = bindingID := by
        have := congrArg Binding.id hnew
        rw [Request.id_binding] at this
        exact this
      rw [← hid] at hfresh
      exact absurd hnames.2 (hfresh r hr)
    . exact h r hr b (role_mem_bindings.mp hold) hnames

theorem DB.Owned.endGrant (h : db.Owned) (req : Request) (status : Status) : (db.endGrant req status).Owned := by
  have hrequests := congrArg Table.rows (db.endGrant_requests req status)
  apply h.of_update hrequests (fun _ => ⟨rfl, rfl, rfl⟩)
  intro b hb
  exact role_mem_bindings.mp (mem_endGrant.mp (role_mem_bindings.mpr hb)).1

theorem Call.write_owned (h : db.Owned) (hreq : call.req ∈ db.requests.rows)
    (hfresh : ∀ req approverID expiresAt, call = .approve req approverID expiresAt →
      ∀ r ∈ db.requests.rows, r.bindingID ≠ some bindingID)
    (hwrite : call.write db now bindingID = some db') : db'.Owned := by
  cases call with
  | approve => exact h.approve hreq (hfresh _ _ _ rfl) hwrite
  | reject | cancel =>
    cases hwrite
    exact h.of_update rfl (fun _ => ⟨rfl, rfl, rfl⟩) (fun _ hb => hb)
  | revoke req =>
    cases hwrite
    exact h.endGrant req .revoked
  | expire req =>
    cases hwrite
    exact h.endGrant req .expired

section Others

variable {b : RoleBinding}

theorem Call.write_bindings (h : db.Owned) (hreq : call.req ∈ db.requests.rows)
    (hwrite : call.write db now bindingID = some db') (hb : ¬b.HeldBy call.req.requesterID) :
    b ∈ db'.roleBindings.rows ↔ b ∈ db.roleBindings.rows := by
  cases call with
  | approve =>
    rcases approveAndGrant_eq_some hwrite with ⟨db1, hinsert, _, rfl⟩
    have hmem := (insertBinding_eq_some hinsert).2 (.role b)
    rw [role_mem_bindings, role_mem_bindings] at hmem
    rw [hmem]
    constructor
    . rintro (hnew | hold)
      . unfold Request.binding at hnew
        split at hnew
        . cases hnew
          exact absurd ⟨rfl, rfl⟩ hb
        . cases hnew
      . exact hold.1
    . intro hold
      refine Or.inr ⟨hold, ?_⟩
      apply Bool.eq_false_iff.mpr
      intro hsupersedes
      simp only [Request.supersedes, Request.replacesRole, decide_eq_true_eq] at hsupersedes
      exact hb ⟨hsupersedes.2.2.1, hsupersedes.2.2.2.1⟩
  | reject | cancel =>
    cases hwrite
    rfl
  | revoke | expire =>
    cases hwrite
    rw [← role_mem_bindings, mem_endGrant, role_mem_bindings]
    apply and_iff_left_of_imp
    intro hmem hnames
    exact hb (h _ hreq b hmem hnames)

end Others

end Mxid.Access
