import Mxid.Org.Lemmas.Path

namespace Mxid.Org

open List DB Underscore Ltree

def Action.tenantID : Action → Option Int
  | .create tenantID _ _ | .update tenantID _ _ | .delete tenantID _ | .move tenantID _ _
  | .addMember tenantID _ _ _ _ | .removeMember tenantID _ _ => some tenantID
  | .changeUsers _ => none

def SameElsewhere (tenantID : Int) (db db' : DB) : Prop :=
  ∀ o, o.tenantID ≠ tenantID → (o ∈ db'.orgs.rows ↔ o ∈ db.orgs.rows)

/--
The live rows that the old path stands before, in the eyes of `LIKE`.
-/
def Below (org r : Organization) : Prop :=
  r.deleted = false ∧ like (org.path.text ++ ['.'] ++ ['%']) r.path.text = true

/--
What has to hold of the rows of other tenants that are below the organization. If the number is read as a pattern, then
a row in which it does not occur stops the move.
-/
def Unmoved (db : DB) (tenantID : Int) (org : Organization) (newPath : List Char) : SubstringFrom → Prop
  | .position => ∀ r ∈ db.orgs.rows, r.tenantID ≠ tenantID → Below org r →
    r.path.text.take org.path.text.length = newPath
  | .pattern =>
    let digits := (toString (org.path.text.length + 1)).toList
    (∀ r ∈ db.orgs.rows, r.id ≠ org.id → Below org r → digits <:+: r.path.text) →
      ∀ r ∈ db.orgs.rows, r.tenantID ≠ tenantID → Below org r → r.path.text = newPath ++ digits

def Harmless (reading : SubstringFrom) (db : DB) : Action → Prop
  | .move tenantID id parentID =>
    ∀ org parent, db.getByID tenantID id = some org → fetchParent db tenantID parentID = .ok parent →
      parent.any (cyclic org) = false → isPath (pathBelow parent org.code) = true →
      Unmoved db tenantID org (pathBelow parent org.code) reading
  | _ => True

section Rewrite

variable {db : DB} {org r : Organization} {newPath : Ltree} {reading : SubstringFrom} {tenantID : Int}

theorem selects_iff : DB.selects org r = true ↔ r.id ≠ org.id ∧ Below org r := by
  simp only [DB.selects, Below, Bool.and_eq_true, decide_eq_true_eq, Bool.not_eq_true']
  tauto

theorem Below.split (h : Below org r) : ∃ a b, r.path.text = a ++ '.' :: b ∧ a.length = org.path.text.length := by
  rcases wildcard_notMem org.path with ⟨hmany, hescape⟩
  have hlike := h.2
  unfold like at hlike
  rw [Like.tokens_append_many hescape, map_append, append_assoc] at hlike
  rcases Like.exists_of_accepts (fun hmem => hmany (mem_append_left _ hmem)) hlike with ⟨a, b, htext, hlength, hb⟩
  cases b with
  | nil => contradiction
  | cons c b =>
    have hdot : '.' = c := of_decide_eq_true ((Bool.and_eq_true _ _).mp hb).1
    subst hdot
    exact ⟨a, b, htext, hlength⟩

theorem rewrite_position (h : Below org r) :
    (DB.rewrite .position org.path newPath r.path).isSome = true
      ∧ (DB.rewrite .position org.path newPath r.path = some r.path
        ↔ r.path.text.take org.path.text.length = newPath.text) := by
  rcases h.split with ⟨a, b, htext, hlength⟩
  have hpath : isPath (newPath.text ++ '.' :: b) = true := by
    have hvalid := r.path.valid
    have hnew := newPath.valid
    unfold isPath at hvalid hnew ⊢
    rw [htext, labels_append, all_append, Bool.and_eq_true] at hvalid
    rw [labels_append, all_append, hnew, hvalid.2]
    rfl
  have hrewrite : DB.rewrite .position org.path newPath r.path = some ⟨newPath.text ++ '.' :: b, hpath⟩ := by
    unfold DB.rewrite SubstringFrom.eval
    simp only [Nat.add_sub_cancel]
    rw [htext, ← hlength, drop_left]
    exact dif_pos hpath
  rw [hrewrite, htext, ← hlength, take_left]
  refine ⟨rfl, ?_⟩
  rw [Option.some.injEq]
  constructor
  . intro heq
    have happend := congrArg text heq
    rw [htext] at happend
    exact (append_cancel_right happend).symm
  . rintro rfl
    exact ext_text htext.symm

theorem rewrite_pattern :
    let digits := (toString (org.path.text.length + 1)).toList
    ((DB.rewrite .pattern org.path newPath r.path).isSome = true ↔ digits <:+: r.path.text)
      ∧ (digits <:+: r.path.text →
        (DB.rewrite .pattern org.path newPath r.path = some r.path ↔ r.path.text = newPath.text ++ digits)) := by
  intro digits
  have hany : r.path.text.tails.any (fun t => digits.isPrefixOf t) = true ↔ digits <:+: r.path.text := by
    rw [any_eq_true, infix_iff_prefix_suffix]
    simp only [mem_tails, isPrefixOf_iff_prefix]
    exact exists_congr (fun _ => and_comm)
  have hpath : isPath (newPath.text ++ digits) = true :=
    newPath.isPath_append (fun c hc => isLabelChar_of_mem_toString hc)
  unfold DB.rewrite SubstringFrom.eval
  dsimp only
  by_cases hoccurs : digits <:+: r.path.text
  . rw [if_pos (hany.mpr hoccurs)]
    dsimp only [ofText]
    rw [dif_pos hpath, Option.some.injEq]
    refine ⟨iff_of_true rfl hoccurs, fun _ => ⟨?_, ?_⟩⟩
    . intro heq
      rw [← heq]
    . intro heq
      exact ext_text heq.symm
  . rw [if_neg (fun h => hoccurs (hany.mp h))]
    exact ⟨iff_of_false (by simp) hoccurs, fun h => absurd h hoccurs⟩

theorem unmoved_iff (hid : ∀ r ∈ db.orgs.rows, r.tenantID ≠ tenantID → r.id ≠ org.id) :
    Unmoved db tenantID org newPath.text reading
      ↔
    ((∀ r ∈ db.orgs.rows, DB.selects org r = true → (DB.rewrite reading org.path newPath r.path).isSome = true) →
      ∀ r ∈ db.orgs.rows, r.tenantID ≠ tenantID → DB.selects org r = true →
        DB.rewrite reading org.path newPath r.path = some r.path) := by
  simp only [selects_iff, and_imp]
  cases reading with
  | position =>
    constructor
    . intro h _ r hr htenant _ hbelow
      exact (rewrite_position hbelow).2.mpr (h r hr htenant hbelow)
    . intro h r hr htenant hbelow
      apply (rewrite_position hbelow).2.mp
      exact h (fun _ _ _ hbelow => (rewrite_position hbelow).1) r hr htenant (hid r hr htenant) hbelow
  | pattern =>
    simp only [rewrite_pattern.1]
    constructor
    . intro h hoccurs r hr htenant hne hbelow
      exact (rewrite_pattern.2 (hoccurs r hr hne hbelow)).mpr (h hoccurs r hr htenant hbelow)
    . intro h hoccurs r hr htenant hbelow
      have hne := hid r hr htenant
      exact (rewrite_pattern.2 (hoccurs r hr hne hbelow)).mp (h hoccurs r hr htenant hne hbelow)

end Rewrite

section Move

variable {db db' : DB} {reading : SubstringFrom} {tenantID id : Int} {parentID : Option Int}
  {org : Organization} {parent : Option Organization} {newPath : Ltree}

theorem move_of_checks (horg : db.getByID tenantID id = some org)
    (hparent : fetchParent db tenantID parentID = .ok parent) (hcyclic : parent.any (cyclic org) = false)
    (hpath : ofText (pathBelow parent org.code) = some newPath)
    (hrewritable : ∀ r ∈ db.orgs.rows, DB.selects org r = true →
      (DB.rewrite reading org.path newPath r.path).isSome = true) :
    ∃ db', move db reading tenantID id parentID = .ok db' := by
  have hcheck : checkMove db tenantID id parentID = .ok ⟨tenantID, org, parent⟩ := by
    simp [checkMove, fetchOrg, horg, hparent, hcyclic]
  rcases fetchParent_eq_ok hparent with ⟨hparentID, hq⟩
  have hexists : db.parentExists (parent.map Organization.id) = true := by
    unfold DB.parentExists
    cases parent with
    | none => rfl
    | some q =>
      rw [Option.map_some, Option.all_some, any_eq_true]
      exact ⟨q, (hq q rfl).1.1, by simp⟩
  have hall : db.orgs.rows.all (fun r => DB.selects org r →
      (DB.rewrite reading org.path newPath r.path).isSome) = true := by
    rw [all_eq_true]
    intro r hr
    exact decide_eq_true (hrewritable r hr)
  have hid := (getByID_eq_some horg).2.1
  unfold move
  simp only [hcheck, MoveCall.write, MoveCall.newPath, DB.move, hid, horg, hpath, hexists, hall, Bool.and_self, if_true]
  exact ⟨_, rfl⟩

theorem image_eq_self_iff {r : Organization} (hid : r.id ≠ org.id) (hselects : DB.selects org r = true)
    (hsome : (DB.rewrite reading org.path newPath r.path).isSome = true) :
    DB.image reading org parentID newPath r = r ↔ DB.rewrite reading org.path newPath r.path = some r.path := by
  rcases Option.isSome_iff_exists.mp hsome with ⟨path, hpath⟩
  rw [DB.image, if_neg hid, if_pos hselects, DB.setPath, hpath, Option.getD_some, Option.some.injEq]
  constructor
  . exact congrArg Organization.path
  . intro h
    rw [h]

theorem sameElsewhere_iff (hrows : db'.orgs.rows = db.orgs.rows.map (DB.image reading org parentID newPath)) :
    SameElsewhere tenantID db db'
      ↔
    ∀ r ∈ db.orgs.rows, r.tenantID ≠ tenantID → DB.image reading org parentID newPath r = r := by
  constructor
  . intro hsame r hr htenant
    have hmem := (hsame r htenant).mpr hr
    rw [hrows, mem_map] at hmem
    rcases hmem with ⟨r', hr', himage⟩
    have hid := (image_keeps reading org parentID newPath r').1
    rw [himage] at hid
    rw [db.orgs.eq_of_key_eq hr hr' hid]
    rw [db.orgs.eq_of_key_eq hr hr' hid] at himage
    exact himage
  . intro hself o htenant
    rw [hrows, mem_map]
    constructor
    . rintro ⟨r, hr, rfl⟩
      rw [(image_keeps reading org parentID newPath r).2.1] at htenant
      rw [hself r hr htenant]
      exact hr
    . intro ho
      exact ⟨o, ho, hself o ho htenant⟩

theorem ids_ne (horg : db.getByID tenantID id = some org) :
    ∀ r ∈ db.orgs.rows, r.tenantID ≠ tenantID → r.id ≠ org.id := by
  intro r hr htenant heq
  rcases getByID_eq_some horg with ⟨hlive, _, horgTenant⟩
  rw [db.orgs.eq_of_key_eq hr hlive.1 heq] at htenant
  exact htenant horgTenant

theorem move_sameElsewhere_iff (hstep : step reading db (.move tenantID id parentID) = some db') :
    SameElsewhere tenantID db db' ↔ Harmless reading db (.move tenantID id parentID) := by
  unfold step at hstep
  split at hstep
  . next hcall =>
    cases hstep
    rcases move_eq_ok hcall with ⟨call, hcheck, hmove⟩
    rcases checkMove_eq_ok hcheck with ⟨_, horg, hparent, hcyclic, _, _⟩
    rcases move_eq_some hmove with ⟨org, path, horg', hpath, _, hrewritable, hrows, _, _⟩
    rw [horg] at horg'
    cases horg'
    have hid := ids_ne horg
    rw [sameElsewhere_iff hrows]
    constructor
    . intro hself org' parent' horg' hparent' _ _
      rw [horg] at horg'
      cases horg'
      rw [hparent] at hparent'
      cases hparent'
      rw [← MoveCall.newPath, ← hpath, unmoved_iff hid]
      intro _ r hr htenant hselects
      exact (image_eq_self_iff (hid r hr htenant) hselects (hrewritable r hr hselects)).mp (hself r hr htenant)
    . intro hharmless r hr htenant
      have hunmoved := hharmless call.org call.parent horg hparent hcyclic
      rw [← MoveCall.newPath, ← hpath, unmoved_iff hid] at hunmoved
      by_cases hselects : DB.selects call.org r = true
      . apply (image_eq_self_iff (hid r hr htenant) hselects (hrewritable r hr hselects)).mpr
        exact hunmoved path.valid hrewritable r hr htenant hselects
      . unfold DB.image
        rw [if_neg (hid r hr htenant), if_neg hselects]
  . next e hcall =>
    cases hstep
    refine ⟨?_, fun _ _ _ => Iff.rfl⟩
    intro _ org parent horg hparent hcyclic hpath
    show Unmoved db tenantID org (⟨_, hpath⟩ : Ltree).text reading
    rw [unmoved_iff (ids_ne horg)]
    intro hrewritable
    rcases move_of_checks horg hparent hcyclic (dif_pos hpath) hrewritable with ⟨db', hmove⟩
    have hcall' : call reading db (.move tenantID id parentID) = .ok db' := hmove
    rw [hcall'] at hcall
    contradiction

end Move

theorem call_sameElsewhere {reading : SubstringFrom} {db db' : DB} {a : Action} {tenantID : Int}
    (htenant : a.tenantID = some tenantID) (hmove : ∀ tenantID id parentID, a ≠ .move tenantID id parentID)
    (hcall : call reading db a = .ok db') : SameElsewhere tenantID db db' := by
  cases a with
  | move => exact absurd rfl (hmove _ _ _)
  | create =>
    cases htenant
    rcases create_eq_ok hcall with ⟨parent, path, _, _, _, hcreate⟩
    rcases create_eq_some hcreate with ⟨_, hinsert, _, _⟩
    intro o ho
    rw [Table.mem_of_insert? hinsert]
    exact ⟨fun h => h.resolve_left (fun heq => ho (heq ▸ rfl)), Or.inr⟩
  | update =>
    cases htenant
    rcases update_eq_ok hcall with ⟨f, hrows, hf, hself, _, _⟩
    intro o ho
    rw [hrows, mem_map]
    constructor
    . rintro ⟨r, hr, rfl⟩
      rw [(hf r hr).1.2.1] at ho
      rw [hself r hr ho]
      exact hr
    . intro hmem
      exact ⟨o, hmem, hself o hmem ho⟩
  | delete =>
    cases htenant
    rcases delete_eq_some (delete_eq_ok hcall) with ⟨hsub, hkeep, _, _⟩
    intro o ho
    refine ⟨hsub o, fun hmem => ?_⟩
    exact (hkeep o hmem).resolve_right (fun h => ho h.2.1)
  | addMember =>
    rcases addMember_eq_ok hcall with ⟨_, _, _, _, _, horgs, _⟩
    exact fun o _ => by rw [horgs]
  | removeMember => exact fun o _ => by rw [(removeMember_eq_ok hcall).2.1]
  | changeUsers => contradiction

theorem other_tenants_unchanged_iff (reading : SubstringFrom) (db : DB) (a : Action) (tenantID : Int)
    (htenant : a.tenantID = some tenantID) (db' : DB) (hstep : step reading db a = some db') :
    SameElsewhere tenantID db db' ↔ Harmless reading db a := by
  cases a with
  | changeUsers => contradiction
  | move =>
    cases htenant
    exact move_sameElsewhere_iff hstep
  | _ =>
    refine ⟨fun _ => trivial, fun _ => ?_⟩
    rcases step_eq_some hstep with hcall | rfl
    . exact call_sameElsewhere htenant nofun hcall
    . exact fun _ _ => Iff.rfl

/-!
Tenants 1 and 2 both have an organization a with b2 below it. Tenant 1 also has x.
-/

namespace TwoTenants

def acts : List Action :=
  [Underscore.create 1 10 "a" none, Underscore.create 1 11 "b2" (some 10),
    Underscore.create 2 20 "a" none, Underscore.create 2 21 "b2" (some 20),
    Underscore.create 1 12 "x" none]

variable (reading : SubstringFrom)

theorem isSome : (Underscore.exec reading (fun _ _ => true) acts).isSome = true := by
  cases reading <;> decide

abbrev db : DB :=
  (exec reading (fun _ _ => true) acts).get (isSome reading)

theorem moved_isSome : (step reading (db reading) (.move 1 10 (some 12))).isSome = true := by
  cases reading <;> decide

abbrev moved : DB :=
  (step reading (db reading) (.move 1 10 (some 12))).get (moved_isSome reading)

theorem exists_changed : ∃ o ∈ (db reading).orgs.rows, o.tenantID = 2 ∧ o ∉ (moved reading).orgs.rows := by
  cases reading <;> decide

theorem path_of_other_tenant_rewritten :
    (Run (step .position) (fun _ _ => True) init (acts ++ [.move 1 10 (some 12)])
        (moved .position)
      ∧ ∃ o ∈ (db .position).orgs.rows, o.tenantID = 2 ∧ o ∉ (moved .position).orgs.rows)
      ∧ Run (step .pattern) (fun _ _ => True) init (acts ++ [.move 1 10 (some 12)])
          (moved .pattern)
      ∧ ∃ o ∈ (db .pattern).orgs.rows, o.tenantID = 2 ∧ o ∉ (moved .pattern).orgs.rows := by
  have run : ∀ reading, Run (step reading) (fun _ _ => True) init
      (acts ++ [.move 1 10 (some 12)]) (moved reading) := by
    intro reading
    have run := (Run.of_isSome (isSome reading)).free
    exact run.snoc trivial (Option.some_get (moved_isSome reading)).symm
  exact ⟨⟨run .position, exists_changed .position⟩, run .pattern, exists_changed .pattern⟩

theorem move_not_harmless : ¬Harmless .position (db .position) (.move 1 10 (some 12)) := by
  intro hharmless
  have hsame := (other_tenants_unchanged_iff .position (db .position) (.move 1 10 (some 12)) 1 rfl
    (moved .position) (Option.some_get (moved_isSome .position)).symm).mpr hharmless
  rcases exists_changed .position with ⟨o, ho, htenant, hnot⟩
  apply hnot
  rw [hsame o (by rw [htenant]; decide)]
  exact ho

end TwoTenants

end Mxid.Org
