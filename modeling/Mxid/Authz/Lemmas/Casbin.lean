import Mxid.Authz.Impl.Casbin
import Mxid.Authz.Lemmas.Edit

namespace Mxid.Authz

open List

section Check

variable {db : Records} {orgTree : Option Org.DB} {loaded now tenantID userID : Int} {perm : Code}

theorem Tables.mem_superTenants {db : Tables} (h : db.isSuperAdmin tenantID userID = true) :
    tenantID ∈ db.superTenants := by
  unfold isSuperAdmin at h
  simp only [Bool.and_eq_true, decide_eq_true_eq, any_eq_true, Bool.not_eq_true'] at h
  rcases h with ⟨hflag, u, hu, ⟨rfl, rfl⟩, hlive⟩
  unfold superTenants
  rw [mem_dedup]
  exact mem_map.mpr ⟨u, mem_filter.mpr ⟨hu, by simp [hflag, hlive]⟩, rfl⟩

def bindingRow (b : Access.RoleBinding) : BindingRow :=
  ⟨b.roleID, scopeOf (b.scopeType.getD "") (b.scopeID.getD 0), b.expiresAt⟩

def Records.holding (db : Records) (loaded tenantID userID : Int) : Holding :=
  ⟨db.isSuperAdmin tenantID userID,
    (db.access.roleBindings.rows.filter (db.selects loaded tenantID userID)).map bindingRow⟩

def Records.directory (db : Records) (orgTree : Option Org.DB) (loaded : Int) : Directory where
  catalog := db.catalog
  role_id_pos := db.role_id_pos
  holdings tenantID userID := some (db.holding loaded tenantID userID)
  orgTree := orgTree.map tree
  superTenants := db.superTenants
  super_mem := by
    intro tenantID userID h hh hsuper
    cases hh
    exact Tables.mem_superTenants hsuper

theorem Records.mem_effectiveBindings_iff {b : EffectiveBinding} :
    b ∈ (db.holding loaded tenantID userID).effectiveBindings db.catalog tenantID
      ↔
    ∃ r ∈ db.effectiveBindingsForUser loaded tenantID userID, r.effective = b := by
  unfold Holding.effectiveBindings holding
  rw [Tables.effectiveBindingsForUser_eq]
  cases db.isSuperAdmin tenantID userID with
  | true =>
    simp only [if_true, mem_singleton, Finset.mem_singleton, exists_eq_left]
    exact eq_comm
  | false =>
    have hjoins : ∀ r ∈ (db.access.roleBindings.rows.filter (db.selects loaded tenantID userID)).map bindingRow,
        db.catalog.joins tenantID r = true := by
      intro r hr
      rcases mem_map.mp hr with ⟨row, hrow, rfl⟩
      have hselects := (mem_filter.mp hrow).2
      simp only [Tables.selects, Tables.joins, Tables.joinsRole, Bool.and_eq_true, any_eq_true, decide_eq_true_eq,
        Bool.not_eq_true'] at hselects
      rcases hselects.1.1 with ⟨role, hrole, ⟨hid, htenant⟩, hlive⟩
      exact Catalog.joins_eq_true_iff.mpr ⟨role, hrole, hid, htenant, hlive⟩
    simp only [Bool.false_eq_true, if_false, filter_eq_self.mpr hjoins, map_map, mem_toFinset, mem_map,
      exists_exists_and_eq_and]
    rfl

/--
The check over the tables is that of a service whose provider reads them.
-/
theorem Records.check_eq_service (enforcer : Bool) (target : Option Target) :
    db.check (if enforcer then some db.loadPolicies else none) orgTree loaded now tenantID userID perm target
      =
    ((db.directory orgTree loaded).service enforcer).check now tenantID userID perm (target.map Target.scope) := by
  unfold check Service.check
  dsimp only
  split
  . rfl
  show Except.ok _ = Except.ok _
  congr 1
  rw [Bool.eq_iff_iff, decide_eq_true_eq, Service.checkBindings_eq_true_iff]
  simp only [Service.checkBindings_eq_true_iff, mem_singleton, exists_eq_left]
  show _ ↔ ∃ b ∈ (db.holding loaded tenantID userID).effectiveBindings db.catalog tenantID, _
  simp only [mem_effectiveBindings_iff, exists_exists_and_eq_and]
  rfl

theorem Directory.check_enforcer {d : Directory} {h : Holding} {target : Option ScopeTarget}
    (hholding : d.holdings tenantID userID = some h) :
    (d.service true).check now tenantID userID perm target
      =
    (d.service false).check now tenantID userID perm target := by
  by_cases hperm : perm = ""
  . simp [Service.check, hperm]
  have hok : ∀ enforcer, (d.service enforcer).check now tenantID userID perm target
      = .ok ((d.service enforcer).checkBindings now tenantID perm target (h.effectiveBindings d.catalog tenantID)) := by
    intro enforcer
    simp [Service.check, service, hperm, hholding]
  have hiff : (d.service true).check now tenantID userID perm target = .ok true
      ↔ (d.service false).check now tenantID userID perm target = .ok true := by
    cases hsuper : h.superAdmin with
    | true => simp only [check_super hholding hsuper hperm]
    | false => simp only [check_rows_iff hholding hsuper]
  rw [hok, hok, Except.ok.injEq, Except.ok.injEq] at hiff
  rw [hok, hok, Bool.eq_iff_iff.mpr hiff]

theorem check_loadPolicies_eq (db : Records) (orgTree : Option Org.DB) (loaded now tenantID userID : Int)
    (perm : Code) (target : Option Target) :
    db.check (some db.loadPolicies) orgTree loaded now tenantID userID perm target
      =
    db.check none orgTree loaded now tenantID userID perm target := by
  calc
    _ = ((db.directory orgTree loaded).service true).check now tenantID userID perm (target.map Target.scope) :=
      Records.check_eq_service true target
    _ = ((db.directory orgTree loaded).service false).check now tenantID userID perm (target.map Target.scope) :=
      Directory.check_enforcer rfl
    _ = _ := (Records.check_eq_service false target).symm

end Check

namespace Replica

variable {r r' : Replica} {db : Tables} {a : ReplicaAction}

def Reads (db : Tables) (changes : Nat) : Sync → Prop
  | .granted grants since => since ≤ changes ∧ (since = changes → grants = db.catalog.grants)
  | .loaded policies since => since ≤ changes ∧ (since = changes → policies = db.loadPolicies)
  | _ => True

def Covers (changes : Nat) : Sync → Prop
  | .started => True
  | .granted _ since | .loaded _ since => since = changes
  | .finished => False

structure Inv (r : Replica) : Prop where
  reads : ∀ s ∈ r.syncs, Reads r.db r.changes s
  engine : r.installed ≤ r.changes ∧ (r.installed = r.changes → r.engine = r.db.loadPolicies)
  covered : r.installed = r.changes ∨ ∃ s ∈ r.syncs, Covers r.changes s

theorem Inv.start (db : Tables) : (Replica.start db).Inv :=
  ⟨by simp [Replica.start], ⟨Nat.le_refl 0, fun _ => rfl⟩, .inl rfl⟩

theorem Inv.replace {s s' : Sync} {i : Nat} (h : r.Inv) (hi : r.syncs[i]? = some s) (hreads : Reads r.db r.changes s')
    (hcovers : Covers r.changes s → Covers r.changes s') : Inv { r with syncs := r.syncs.set i s' } := by
  refine ⟨?_, h.engine, h.covered.imp_right ?_⟩
  . intro s0 hs0
    rcases mem_or_eq_of_mem_set hs0 with hold | rfl
    . exact h.reads s0 hold
    . exact hreads
  . rintro ⟨s0, hs0, hcov⟩
    rcases mem_iff_getElem?.mp hs0 with ⟨j, hj⟩
    have hlt : i < r.syncs.length := (List.getElem?_eq_some_iff.mp hi).1
    by_cases hij : i = j
    . subst hij
      rw [hi] at hj
      cases hj
      exact ⟨s', mem_iff_getElem?.mpr ⟨i, List.getElem?_set_self hlt⟩, hcovers hcov⟩
    . exact ⟨s0, mem_iff_getElem?.mpr ⟨j, by rw [List.getElem?_set_ne hij, hj]⟩, hcov⟩

theorem Inv.install {policies : CasbinEngine} {since i : Nat} (h : r.Inv)
    (hi : r.syncs[i]? = some (.loaded policies since)) (horder : r.installed ≤ since) :
    Inv { r with engine := policies, syncs := r.syncs.set i .finished, installed := since } := by
  have hreads := h.reads _ (mem_of_getElem? hi)
  by_cases hcur : since = r.changes
  . refine ⟨?_, hreads, .inl hcur⟩
    intro s hs
    rcases mem_or_eq_of_mem_set hs with hold | rfl
    . exact h.reads s hold
    . trivial
  . -- what was installed before is outdated as well, so another reload is on its way
    have hnot : r.installed ≠ r.changes := by
      have := hreads.1
      omega
    have hnext : Inv { r with syncs := r.syncs.set i .finished } :=
      h.replace hi trivial (fun hcov => absurd hcov hcur)
    exact ⟨hnext.reads, hreads, .inr (hnext.covered.resolve_left hnot)⟩

theorem Inv.step (h : r.Inv) (horder : r.inOrder a = true) (hstep : r.step a = some r') : r'.Inv := by
  cases a with
  | mutate db =>
    cases hstep
    refine ⟨?_, ⟨Nat.le_succ_of_le h.engine.1, ?_⟩, .inr ⟨.started, by simp, trivial⟩⟩
    . intro s hs
      rcases mem_append.mp hs with hold | hnew
      . have hreads := h.reads s hold
        cases s with
        | granted | loaded =>
          have := hreads.1
          exact ⟨by dsimp only; omega, fun heq => by dsimp only at heq; omega⟩
        | _ => trivial
      . rw [mem_singleton.mp hnew]
        trivial
    . intro heq
      have := h.engine.1
      dsimp only at heq
      omega
  | receive =>
    cases hstep
    refine ⟨?_, h.engine, .inr ⟨.started, by simp, trivial⟩⟩
    intro s hs
    rcases mem_append.mp hs with hold | hnew
    . exact h.reads s hold
    . rw [mem_singleton.mp hnew]
      trivial
  | sync i =>
    unfold Replica.step at hstep
    dsimp only at hstep
    split at hstep
    . next hi =>
      cases hstep
      exact h.replace hi ⟨Nat.le_refl _, fun _ => rfl⟩ (fun _ => rfl)
    . next grants since hi =>
      cases hstep
      have hreads := h.reads _ (mem_of_getElem? hi)
      refine h.replace hi ⟨hreads.1, ?_⟩ id
      intro heq
      rw [hreads.2 heq]
      rfl
    . next policies since hi =>
      cases hstep
      simp only [inOrder, hi, decide_eq_true_eq] at horder
      exact h.install hi horder
    . contradiction
    . contradiction

theorem reloads_converge (db : Tables) (acts : List ReplicaAction) (r : Replica)
    (hrun : Run step (fun r a => r.inOrder a = true) (start db) acts r) (hdone : ∀ s ∈ r.syncs, s = .finished) :
    r.engine = r.db.loadPolicies := by
  have hinv : r.Inv := hrun.invariant (Inv.start db) (fun _ _ _ h => h.step)
  apply hinv.engine.2
  rcases hinv.covered with heq | ⟨s, hs, hcov⟩
  . exact heq
  . rw [hdone s hs] at hcov
    exact hcov.elim

def granting : Tables where
  org := ⟨.empty, .empty, .empty, User.no_users⟩
  superAdmins := []
  group := ⟨.empty, .empty, .empty, .empty⟩
  catalog := ⟨Table.empty.insertIgnore [⟨40, 1, "auditor", false⟩], Table.empty.insertIgnore [⟨1, 1, "audit.read"⟩],
    [⟨40, 1⟩], by decide⟩
  systemRoles := []
  access := ⟨.empty, .empty, .empty, .empty⟩

def revoked : Tables :=
  { granting with catalog := { granting.catalog with rolePermissions := [], sameTenant := by simp } }

theorem revoked_reloaded :
    ∃ r, Run step (fun r a => r.inOrder a = true) (start granting) [.mutate revoked, .sync 0, .sync 0, .sync 0] r
      ∧ r.engine = r.db.loadPolicies := by
  refine ⟨_, Run.of_exec rfl, ?_⟩
  apply reloads_converge granting [.mutate revoked, .sync 0, .sync 0, .sync 0] _ (Run.of_exec rfl)
  simp [start]

theorem revoked_permission_stays :
    ∃ r, Run step (fun _ _ => True) (start granting)
        [.receive, .sync 0, .sync 0, .mutate revoked, .sync 1, .sync 1, .sync 1, .sync 0] r
      ∧ (∀ s ∈ r.syncs, s = .finished)
      ∧ r.engine.roleHasPermission 1 (.role 40) "audit.read" = true
      ∧ r.db.loadPolicies.roleHasPermission 1 (.role 40) "audit.read" = false := by
  refine ⟨_, Run.of_exec rfl, ?_, ?_, ?_⟩
  . simp [start]
  . decide
  . decide

end Replica

end Mxid.Authz
