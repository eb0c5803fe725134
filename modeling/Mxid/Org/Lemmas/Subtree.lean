import Mathlib.Data.List.Dedup
import Mxid.Org.Lemmas.Hierarchy
import Mxid.Group.Impl.Rule

namespace Mxid.Org

open List DB Underscore Bool Mxid.Group

namespace DB

def MembersSound (db : DB) : Prop :=
  ∀ uo ∈ db.userOrgs.rows, ∃ u ∈ db.users.table.rows, ∃ o ∈ db.orgs.rows,
    u.id = uo.userID ∧ o.id = uo.orgID ∧ o.tenantID = u.tenantID

def Plain (db : DB) : Prop :=
  ∀ o, db.Live o → '_' ∉ o.code

def BelongsBelow (db : DB) (userID orgID : Int) : Prop :=
  ∃ uo ∈ db.userOrgs.rows, uo.userID = userID ∧ Forest.Above db.parentOf orgID uo.orgID

end DB

def plain : Action → Bool
  | .create _ _ req => '_' ∉ req.code
  | _ => true

section Invariant

variable {db db' : DB} {reading : SubstringFrom} {a : Action} {f : Organization → Organization}

theorem DB.MembersSound.of_map (h : db.MembersSound) (hrows : db'.orgs.rows = db.orgs.rows.map f)
    (hf : ∀ o ∈ db.orgs.rows, (f o).id = o.id ∧ (f o).tenantID = o.tenantID) (huserOrgs : db'.userOrgs = db.userOrgs)
    (husers : db'.users = db.users) : db'.MembersSound := by
  intro uo huo
  rw [huserOrgs] at huo
  rcases h uo huo with ⟨u, hu, o, ho, huid, hoid, htenant⟩
  rw [husers, hrows]
  rcases hf o ho with ⟨hid, htenant'⟩
  exact ⟨u, hu, f o, mem_map_of_mem ho, huid, hid.trans hoid, htenant'.trans htenant⟩

theorem DB.MembersSound.call (h : db.MembersSound) (hcall : call reading db a = .ok db') : db'.MembersSound := by
  cases a with
  | create =>
    rcases create_eq_ok hcall with ⟨parent, path, _, _, _, hcreate⟩
    rcases create_eq_some hcreate with ⟨_, hinsert, huserOrgs, husers⟩
    intro uo huo
    rw [huserOrgs] at huo
    rcases h uo huo with ⟨u, hu, o, ho, hrest⟩
    rw [husers]
    exact ⟨u, hu, o, (Table.mem_of_insert? hinsert).mpr (Or.inr ho), hrest⟩
  | update =>
    rcases update_eq_ok hcall with ⟨f, hrows, hf, _, huserOrgs, husers⟩
    exact h.of_map hrows (fun o ho => ⟨(hf o ho).1.1, (hf o ho).1.2.1⟩) huserOrgs husers
  | delete =>
    rcases delete_eq_some (delete_eq_ok hcall) with ⟨_, hkeep, huserOrgs, husers⟩
    intro uo huo
    rcases huserOrgs uo huo with ⟨hold, horgs⟩
    rcases h uo hold with ⟨u, hu, o, ho, huid, hoid, htenant⟩
    rw [husers]
    refine ⟨u, hu, o, ?_, huid, hoid, htenant⟩
    rcases hkeep o ho with hstays | ⟨hid, _⟩
    . exact hstays
    . rw [horgs (hoid.symm.trans hid)]
      exact ho
  | move tenantID id parentID =>
    rcases move_eq_ok hcall with ⟨_, _, hmove⟩
    rcases move_eq_some hmove with ⟨org, path, _, _, _, _, hrows, huserOrgs, husers⟩
    apply h.of_map hrows _ huserOrgs husers
    intro o _
    have hkeeps := image_keeps reading org parentID path o
    exact ⟨hkeeps.1, hkeeps.2.1⟩
  | addMember =>
    rcases addMember_eq_ok hcall with ⟨org, u, horg, hu, hinsert, horgs, husers⟩
    rcases getByID_eq_some horg with ⟨hlive, hid, htenant⟩
    rcases User.Repository.first_eq_some hu with ⟨hmem, _, hutenant, huid⟩
    intro uo huo
    rw [horgs, husers]
    rcases (Table.mem_of_insert? hinsert).mp huo with rfl | hold
    . exact ⟨u, hmem, org, hlive.1, of_decide_eq_true huid, hid, htenant.trans hutenant.symm⟩
    . exact h uo hold
  | removeMember =>
    rcases removeMember_eq_ok hcall with ⟨hmem, horgs, husers⟩
    intro uo huo
    rw [horgs, husers]
    exact h uo ((hmem uo).mp huo).1
  | changeUsers =>
    rcases changeUsers_eq_ok hcall with ⟨rfl, hkeep⟩
    intro uo huo
    rcases h uo huo with ⟨u, hu, o, ho, huid, hoid, htenant⟩
    rcases hkeep u hu with ⟨u', hu', hid', htenant'⟩
    exact ⟨u', hu', o, ho, hid'.trans huid, hoid, htenant.trans htenant'.symm⟩

theorem DB.Plain.of_map (h : db.Plain) (hrows : db'.orgs.rows = db.orgs.rows.map f)
    (hf : ∀ o ∈ db.orgs.rows, (f o).code = o.code ∧ (f o).deleted = o.deleted) : db'.Plain := by
  rintro o ⟨ho, hdeleted⟩
  rw [hrows, mem_map] at ho
  rcases ho with ⟨r, hr, rfl⟩
  rw [(hf r hr).1]
  exact h r ⟨hr, (hf r hr).2 ▸ hdeleted⟩

theorem DB.Plain.call (h : db.Plain) (hplain : plain a = true) (hcall : call reading db a = .ok db') : db'.Plain := by
  cases a with
  | create =>
    rcases create_eq_ok hcall with ⟨parent, path, _, _, _, hcreate⟩
    rcases create_eq_some hcreate with ⟨_, hinsert, _, _⟩
    rintro o ⟨ho, hdeleted⟩
    rcases (Table.mem_of_insert? hinsert).mp ho with rfl | hold
    . exact of_decide_eq_true hplain
    . exact h o ⟨hold, hdeleted⟩
  | update =>
    rcases update_eq_ok hcall with ⟨f, hrows, hf, _, _, _⟩
    exact h.of_map hrows (fun o ho => ⟨(hf o ho).1.2.2.1, (hf o ho).1.2.2.2⟩)
  | delete =>
    rcases delete_eq_some (delete_eq_ok hcall) with ⟨hsub, _, _, _⟩
    exact fun o ho => h o ⟨hsub o ho.1, ho.2⟩
  | move tenantID id parentID =>
    rcases move_eq_ok hcall with ⟨_, _, hmove⟩
    rcases move_eq_some hmove with ⟨org, path, _, _, _, _, hrows, _, _⟩
    apply h.of_map hrows
    intro o _
    exact (image_keeps reading org parentID path o).2.2
  | addMember =>
    rcases addMember_eq_ok hcall with ⟨_, _, _, _, _, horgs, _⟩
    intro o ho
    unfold DB.Live at ho
    rw [horgs] at ho
    exact h o ho
  | removeMember =>
    intro o ho
    unfold DB.Live at ho
    rw [(removeMember_eq_ok hcall).2.1] at ho
    exact h o ho
  | changeUsers =>
    rcases changeUsers_eq_ok hcall with ⟨rfl, _⟩
    exact h

end Invariant

structure DB.Listed (db : DB) : Prop where
  sound : db.Sound
  members : db.MembersSound
  plain : db.Plain

section Queries

variable {db : DB} {a d : Organization} {u : User}

theorem DB.Listed.underscore_notMem (h : db.Listed) (ha : db.Live a) : '_' ∉ a.path.text := by
  have hrooted := h.sound.rooted a.id
  -- Along the links, from the root down.
  generalize hid : a.id = id at hrooted
  induction hrooted generalizing a with
  | root hroot =>
    rw [← hid, ha.parentOf] at hroot
    rw [h.sound.path_of_root ha hroot]
    exact h.plain a ha
  | child hparent _ ih =>
    rw [← hid, ha.parentOf] at hparent
    rcases h.sound.path_of_child ha hparent with ⟨q, hq, hqid, _, htext⟩
    rw [htext, mem_append, mem_cons]
    rintro (hmem | hdot | hmem)
    . exact ih hq hqid hmem
    . contradiction
    . exact h.plain a ha hmem

theorem DB.Listed.like_iff (h : db.Listed) (ha : db.Live a) :
    (d.path = a.path ∨ like (a.path.text ++ ['.'] ++ ['%']) d.path.text = true)
      ↔ d.path.isDescendant a.path = true := by
  have hone : '_' ∉ a.path.text ++ ['.'] := by
    simp [h.underscore_notMem ha]
  rcases wildcard_notMem a.path with ⟨hmany, hescape⟩
  unfold Ltree.isDescendant
  rw [Like.like_iff_starts hescape hmany hone, isPrefixOf_iff_prefix, Ltree.labels_prefix_iff]
  apply or_congr_left
  constructor
  . intro heq
    rw [heq]
  . intro heq
    exact (Ltree.ext_text heq).symm

theorem DB.Live.mem_subtree_iff (ha : db.Live a) {id : Int} :
    id ∈ db.subtree a.id
      ↔
    ∃ d, db.Live d ∧ d.id = id
      ∧ (d.path = a.path ∨ like (a.path.text ++ ['.'] ++ ['%']) d.path.text = true) := by
  have hroot : (db.orgs.find? a.id).filter (fun o => !o.deleted) = some a := ha.live
  unfold subtree
  rw [hroot]
  simp only [mem_map, mem_filter, and_eq_true, or_eq_true, not_eq_true', decide_eq_true_eq, Live]
  constructor
  . rintro ⟨d, ⟨hd, hdeleted, htext⟩, rfl⟩
    exact ⟨d, ⟨hd, hdeleted⟩, rfl, htext⟩
  . rintro ⟨d, ⟨hd, hdeleted⟩, rfl, htext⟩
    exact ⟨d, ⟨hd, hdeleted, htext⟩, rfl⟩

theorem DB.Listed.tenantID_of_member (h : db.Listed) (hu : u ∈ db.users.table.rows) {uo : UserOrg}
    (huo : uo ∈ db.userOrgs.rows) (huid : uo.userID = u.id) (hd : d ∈ db.orgs.rows)
    (hid : d.id = uo.orgID) : d.tenantID = u.tenantID := by
  rcases h.members uo huo with ⟨u', hu', o, ho, huid', hoid, htenant⟩
  rw [db.users.table.eq_of_key_eq hu' hu (huid'.trans huid),
    db.orgs.eq_of_key_eq ho hd (hoid.trans hid.symm)] at htenant
  exact htenant

section

variable (h : db.Listed) (ha : db.Live a) (hu : u ∈ db.users.table.rows) (htenant : u.tenantID = a.tenantID)

include h ha hu htenant

theorem DB.Listed.above_member_iff {uo : UserOrg} (huo : uo ∈ db.userOrgs.rows) (huid : uo.userID = u.id) :
    Forest.Above db.parentOf a.id uo.orgID
      ↔
    ∃ d, db.Live d ∧ d.id = uo.orgID ∧ d.tenantID = a.tenantID ∧ d.path.isDescendant a.path = true := by
  rcases h.members uo huo with ⟨_, _, o, ho, _, hoid, _⟩
  have hotenant := (h.tenantID_of_member hu huo huid ho hoid).trans htenant
  constructor
  . intro habove
    have hlive : db.Live o := by
      rcases Forest.above_iff.mp habove with hid | ⟨p, hp, _⟩
      . rw [← db.orgs.eq_of_key_eq ha.1 ho (hid.trans hoid.symm)]
        exact ha
      . rcases parentOf_eq_some hp with ⟨o', ho', hid, _⟩
        rw [← db.orgs.eq_of_key_eq ho'.1 ho (hid.trans hoid.symm)]
        exact ho'
    rw [← hoid, h.sound.above_iff ha hlive hotenant.symm] at habove
    exact ⟨o, hlive, hoid, hotenant, habove⟩
  . rintro ⟨d, hd, hid, hdtenant, hpath⟩
    rw [← hid, h.sound.above_iff ha hd hdtenant.symm]
    exact hpath

theorem DB.Listed.mem_ancestorIDsForUser_iff :
    a.id ∈ db.ancestorIDsForUser u.tenantID u.id ↔ db.BelongsBelow u.id a.id := by
  unfold ancestorIDsForUser BelongsBelow
  simp only [mem_map, mem_filter, and_eq_true, not_eq_true', decide_eq_true_eq, any_eq_true]
  constructor
  . rintro ⟨a', ⟨ha', _, uo, huo, huid, d, hd, ⟨hid, hdeleted⟩, hpath⟩, haid⟩
    rw [db.orgs.eq_of_key_eq ha' ha.1 haid] at hpath
    refine ⟨uo, huo, huid, ?_⟩
    rw [h.above_member_iff ha hu htenant huo huid]
    exact ⟨d, ⟨hd, hdeleted⟩, hid, (h.tenantID_of_member hu huo huid hd hid).trans htenant, hpath⟩
  . rintro ⟨uo, huo, huid, habove⟩
    rcases (h.above_member_iff ha hu htenant huo huid).mp habove with ⟨d, hd, hid, _, hpath⟩
    exact ⟨a, ⟨ha.1, ⟨ha.2, htenant.symm⟩, uo, huo, huid, d, hd.1, ⟨hid, hd.2⟩, hpath⟩, rfl⟩

end

theorem DB.Listed.mem_getMembers_iff (h : db.Listed) (ha : db.Live a) {pageSize : Nat} (hsize : 0 < pageSize)
    (hu : u ∈ db.users.table.rows) (hlive : u.deleted = false) (htenant : u.tenantID = a.tenantID) :
    (∃ page, 1 ≤ page ∧ u.id ∈ (db.getMembers a.id page pageSize).1) ↔ db.BelongsBelow u.id a.id := by
  unfold getMembers memberships
  rw [exists_mem_page_iff hsize, Table.mem_orderBy, mem_dedup]
  simp only [mem_map, mem_filter, and_eq_true, contains_iff_mem, any_eq_true, decide_eq_true_eq, not_eq_true']
  constructor
  . rintro ⟨uo, ⟨huo, hsubtree, _⟩, huid⟩
    refine ⟨uo, huo, huid, ?_⟩
    rcases ha.mem_subtree_iff.mp hsubtree with ⟨d, hd, hid, htext⟩
    rw [h.above_member_iff ha hu htenant huo huid]
    exact ⟨d, hd, hid, (h.tenantID_of_member hu huo huid hd.1 hid).trans htenant,
      (h.like_iff ha).mp htext⟩
  . rintro ⟨uo, huo, huid, habove⟩
    refine ⟨uo, ⟨huo, ?_, u, hu, huid.symm, hlive⟩, huid⟩
    rcases (h.above_member_iff ha hu htenant huo huid).mp habove with ⟨d, hd, hid, _, hpath⟩
    exact ha.mem_subtree_iff.mpr ⟨d, hd, hid, (h.like_iff ha).mpr hpath⟩

theorem any_joined_iff {cond : Option UserOrg → Bool} (hnone : cond none = false) :
    (joined db u).any cond = true
      ↔
    ∃ uo ∈ db.userOrgs.rows, uo.userID = u.id ∧ cond (some uo) = true := by
  unfold joined
  split
  . next hnil =>
    simp only [filter_eq_nil_iff, decide_eq_true_eq] at hnil
    simp only [any_cons, hnone, any_nil, Bool.or_false, Bool.false_eq_true, false_iff]
    rintro ⟨uo, huo, huid, _⟩
    exact hnil uo huo huid
  . simp only [any_map, any_filter, any_eq_true, Function.comp, Bool.and_eq_true, decide_eq_true_eq]

theorem inSubtree_iff (ha : db.Live a) (htenant : u.tenantID = a.tenantID) {uo : UserOrg} :
    inSubtree db a.id u (some uo) = true
      ↔
    ∃ d, db.Live d ∧ d.id = uo.orgID ∧ d.tenantID = a.tenantID ∧ d.path.isDescendant a.path = true := by
  unfold inSubtree
  simp only [Option.any_some, any_eq_true, and_eq_true, decide_eq_true_eq, not_eq_true', DB.Live]
  constructor
  . rintro ⟨d, hd, ⟨⟨hid, hdeleted⟩, hdtenant⟩, a', ha', ⟨⟨haid, _⟩, _⟩, hpath⟩
    rw [db.orgs.eq_of_key_eq ha' ha.1 haid] at hpath
    exact ⟨d, ⟨hd, hdeleted⟩, hid, hdtenant.trans htenant, hpath⟩
  . rintro ⟨d, ⟨hd, hdeleted⟩, hid, hdtenant, hpath⟩
    exact ⟨d, hd, ⟨⟨hid, hdeleted⟩, hdtenant.trans htenant.symm⟩, a, ha.1, ⟨⟨rfl, ha.2⟩, htenant.symm⟩,
      hpath⟩

theorem DB.Listed.mem_evaluateRule_iff (h : db.Listed) (ha : db.Live a) (hu : u ∈ db.users.table.rows)
    (hlive : u.deleted = false) (htenant : u.tenantID = a.tenantID) :
    u.id ∈ evaluateRule db u.tenantID (inSubtree db a.id) ↔ db.BelongsBelow u.id a.id := by
  have hbelow : (joined db u).any (inSubtree db a.id u) = true
      ↔ db.BelongsBelow u.id a.id := by
    rw [any_joined_iff rfl]
    unfold BelongsBelow
    constructor
    . rintro ⟨uo, huo, huid, hcond⟩
      exact ⟨uo, huo, huid,
        (h.above_member_iff ha hu htenant huo huid).mpr ((inSubtree_iff ha htenant).mp hcond)⟩
    . rintro ⟨uo, huo, huid, habove⟩
      exact ⟨uo, huo, huid,
        (inSubtree_iff ha htenant).mpr ((h.above_member_iff ha hu htenant huo huid).mp habove)⟩
  rw [← hbelow]
  unfold evaluateRule
  simp only [mem_map, mem_filter, and_eq_true, decide_eq_true_eq, not_eq_true']
  constructor
  . rintro ⟨u', ⟨hu', _, hjoined⟩, hid⟩
    rw [db.users.table.eq_of_key_eq hu' hu hid] at hjoined
    exact hjoined
  . intro hjoined
    exact ⟨u, ⟨hu, ⟨rfl, hlive⟩, hjoined⟩, rfl⟩

end Queries

/--
As long as each move rewrites only paths below the organization it moves, and no code has an underscore, every query
along the hierarchy means reachability along the parent links.
-/
theorem subtree_queries_reachability (reading : SubstringFrom) (init : DB) (hinit : init.Listed)
    (acts : List Action) (db : DB)
    (run : Run (step reading) (fun db a => (confined reading db a && plain a) = true) init acts db)
    (a d : Organization) (ha : db.Live a) (hd : db.Live d) (hdtenant : d.tenantID = a.tenantID)
    (u : User) (hu : u ∈ db.users.table.rows) (hutenant : u.tenantID = a.tenantID) (pageSize : Nat)
    (hsize : 0 < pageSize) :
    (db.isAncestorOrSelf a.id d.id = true ↔ Forest.Above db.parentOf a.id d.id)
      ∧ (a.id ∈ db.ancestorIDsForUser u.tenantID u.id ↔ db.BelongsBelow u.id a.id)
      ∧ (u.deleted = false →
          ((∃ page, 1 ≤ page ∧ u.id ∈ (db.getMembers a.id page pageSize).1) ↔ db.BelongsBelow u.id a.id)
            ∧ (u.id ∈ evaluateRule db u.tenantID (inSubtree db a.id)
                ↔ db.BelongsBelow u.id a.id)) := by
  have h : db.Listed := by
    apply run.invariant hinit
    intro db a db' h hallowed hstep
    rw [and_eq_true] at hallowed
    rcases step_eq_some hstep with hcall | rfl
    . exact ⟨h.sound.call hallowed.1 hcall, h.members.call hcall, h.plain.call hallowed.2 hcall⟩
    . exact h
  refine ⟨?_, h.mem_ancestorIDsForUser_iff ha hu hutenant, fun hlive =>
    ⟨h.mem_getMembers_iff ha hsize hu hlive hutenant, h.mem_evaluateRule_iff ha hu hlive hutenant⟩⟩
  rw [h.sound.above_iff ha hd hdtenant.symm]
  unfold isAncestorOrSelf
  simp only [or_eq_true, decide_eq_true_eq, any_eq_true, and_eq_true, not_eq_true']
  constructor
  . rintro (hid | ⟨d', hd', ⟨hid', _⟩, a', ha', ⟨haid', _⟩, hpath⟩)
    . rw [← h.sound.above_iff ha hd hdtenant.symm, hid]
      exact Relation.ReflTransGen.refl
    . rw [db.orgs.eq_of_key_eq hd' hd.1 hid', db.orgs.eq_of_key_eq ha' ha.1 haid'] at hpath
      exact hpath
  . intro hpath
    exact Or.inr ⟨d, hd.1, ⟨rfl, hd.2⟩, a, ha.1, ⟨rfl, ha.2⟩, hpath⟩

/-!
Three organizations are created, the third below abc, and a user becomes a member of it.
-/

namespace Lookalike

def user : User :=
  ⟨7, 1, "lin", none, none, none, "", User.statusActive, false⟩

theorem nodup_users : ([user].map User.id).Nodup := by
  decide

def acts (code : String) : List Action :=
  [Underscore.create 1 10 code none, Underscore.create 1 11 "abc" none,
    Underscore.create 1 12 "d" (some 11), .changeUsers ⟨⟨[user], nodup_users⟩, by decide⟩,
    .addMember 1 12 100 0 ⟨7, true⟩]

theorem similar_isSome (reading : SubstringFrom) :
    (Underscore.exec reading (fun _ _ => true) (acts "a_c")).isSome = true := by
  cases reading <;> decide

theorem distinct_isSome :
    (Underscore.exec .position (fun db a => confined .position db a && plain a) (acts "ac")).isSome = true := by
  decide

abbrev similar (reading : SubstringFrom) : DB :=
  (exec reading (fun _ _ => true) (acts "a_c")).get (similar_isSome reading)

abbrev distinct : DB :=
  (exec .position (fun db a => confined .position db a && plain a) (acts "ac")).get distinct_isSome

theorem not_belongsBelow (reading : SubstringFrom) : ¬(similar reading).BelongsBelow 7 10 := by
  have horg : ∀ uo ∈ (similar reading).userOrgs.rows, uo.orgID = 12 := by
    cases reading <;> decide
  have hlinks : (similar reading).parentOf 12 = some 11 ∧ (similar reading).parentOf 11 = none := by
    cases reading <;> decide
  rintro ⟨uo, huo, _, habove⟩
  rw [horg uo huo] at habove
  -- Up from d the links lead to abc, and no further.
  rcases Forest.above_iff.mp habove with hid | ⟨p, hp, habove⟩
  . contradiction
  cases hp
  rcases Forest.above_iff.mp habove with hid | ⟨p, hp, _⟩
  . contradiction
  . contradiction

theorem member_of_other_listed :
    (Run (step .position) (fun _ _ => True) Underscore.init (acts "a_c") (similar .position)
        ∧ 7 ∈ ((similar .position).getMembers 10 1 20).1 ∧ ¬(similar .position).BelongsBelow 7 10)
      ∧ Run (step .pattern) (fun _ _ => True) Underscore.init (acts "a_c") (similar .pattern)
      ∧ 7 ∈ ((similar .pattern).getMembers 10 1 20).1 ∧ ¬(similar .pattern).BelongsBelow 7 10 := by
  have run : ∀ reading,
      Run (step reading) (fun _ _ => True) Underscore.init (acts "a_c") (similar reading) := fun reading =>
    (Run.of_isSome (similar_isSome reading)).free
  exact ⟨⟨run .position, by decide, not_belongsBelow .position⟩,
    run .pattern, by decide, not_belongsBelow .pattern⟩

theorem init_listed : init.Listed :=
  ⟨init_sound, by simp [DB.MembersSound, init],
    by simp [DB.Plain, DB.Live, init]⟩

theorem member_below_listed :
    Forest.Above distinct.parentOf 11 12 ∧ distinct.BelongsBelow 7 11
      ∧ ∃ page, 1 ≤ page ∧ 7 ∈ (distinct.getMembers 11 page 20).1 := by
  rcases Option.isSome_iff_exists.mp (by decide : (distinct.live 11).isSome = true) with ⟨a, ha⟩
  rcases Option.isSome_iff_exists.mp (by decide : (distinct.live 12).isSome = true) with ⟨d, hd⟩
  have htenant : (distinct.live 11).map Organization.tenantID = some 1
      ∧ (distinct.live 12).map Organization.tenantID = some 1 := by
    decide
  rw [ha, hd] at htenant
  have hatenant : a.tenantID = 1 := Option.some.inj htenant.1
  have hdtenant : d.tenantID = 1 := Option.some.inj htenant.2
  rcases live_eq_some_iff.mp ha with ⟨halive, haid⟩
  rcases live_eq_some_iff.mp hd with ⟨hdlive, hdid⟩
  have h := subtree_queries_reachability .position Underscore.init init_listed (acts "ac") distinct
    (Run.of_isSome distinct_isSome) a d halive hdlive (hdtenant.trans hatenant.symm)
    user (by decide) hatenant.symm 20 (by decide)
  rw [haid, hdid] at h
  have hbelow : distinct.BelongsBelow 7 11 := h.2.1.mp (by decide)
  exact ⟨h.1.mp (by decide), hbelow, (h.2.2 rfl).1.mpr hbelow⟩

end Lookalike

end Mxid.Org
