import Mxid.Org.Impl.Service
import Mxid.Data.Run

namespace Mxid.Org

open List Table Ltree

namespace DB

def Live (db : DB) (o : Organization) : Prop :=
  o ∈ db.orgs.rows ∧ o.deleted = false

def PathRight (db : DB) (o : Organization) : Prop :=
  match o.parentID with
  | none => o.path.text = o.code
  | some p => ∃ q, db.Live q ∧ q.id = p ∧ o.path.text = q.path.text ++ '.' :: o.code

instance instDecidableLive (db : DB) (o : Organization) : Decidable (db.Live o) :=
  inferInstanceAs (Decidable (_ ∧ _))

instance instDecidablePathRight (db : DB) (o : Organization) : Decidable (db.PathRight o) :=
  match h : o.parentID with
  | none => decidable_of_iff (o.path.text = o.code) (by simp [PathRight, h])
  | some p =>
    decidable_of_iff
      (∃ q ∈ db.orgs.rows, q.deleted = false ∧ q.id = p ∧ o.path.text = q.path.text ++ '.' :: o.code)
      (by simp [PathRight, Live, h, and_assoc])

/--
The paths are right. Codes are well-formed and unique in their tenant, and parents are of the same tenant.
-/
structure Sound (db : DB) : Prop where
  code : ∀ o, db.Live o → orgCodeRe o.code = true
  unique : ∀ o o', db.Live o → db.Live o' → o.tenantID = o'.tenantID → o.code = o'.code → o = o'
  tenant : ∀ o q, db.Live o → db.Live q → o.parentID = some q.id → q.tenantID = o.tenantID
  path : ∀ o, db.Live o → db.PathRight o

end DB

section Lookup

variable {db db' : DB} {o o' : Organization}

theorem DB.Live.eq_of_id_eq (h : db.Live o) (h' : db.Live o') (hid : o.id = o'.id) : o = o' :=
  db.orgs.eq_of_key_eq h.1 h'.1 hid

theorem DB.inTenant_iff {tenantID : Int} : inTenant tenantID o = true ↔ o.tenantID = tenantID ∧ o.deleted = false := by
  simp [inTenant]

theorem DB.getByID_eq_some {tenantID id : Int} (h : db.getByID tenantID id = some o) :
    db.Live o ∧ o.id = id ∧ o.tenantID = tenantID := by
  unfold getByID at h
  split at h
  . rw [Option.filter_eq_some_iff, Table.find?_eq_some_iff, inTenant_iff] at h
    exact ⟨⟨h.1.1, h.2.2⟩, h.1.2, h.2.1⟩
  . contradiction

theorem DB.PathRight.mono (h : db.PathRight o) (hlive : ∀ q, db.Live q → db'.Live q) : db'.PathRight o := by
  unfold PathRight at h ⊢
  split at h
  . exact h
  . rcases h with ⟨q, hq, hrest⟩
    exact ⟨q, hlive q hq, hrest⟩

end Lookup

namespace DB.Sound

variable {db db' : DB} {o o' q : Organization}

section

variable (h : db.Sound) (ho : db.Live o)

include h ho

theorem labels_code : labels o.code = [o.code] :=
  labels_eq_singleton (h.code o ho)

theorem dot_notMem_code : '.' ∉ o.code :=
  dot_notMem (h.code o ho)

theorem path_of_root (hparent : o.parentID = none) : o.path.text = o.code := by
  have hpath := h.path o ho
  unfold PathRight at hpath
  rw [hparent] at hpath
  exact hpath

theorem path_of_child {p : Int} (hparent : o.parentID = some p) :
    ∃ q, db.Live q ∧ q.id = p ∧ q.tenantID = o.tenantID ∧ o.path.text = q.path.text ++ '.' :: o.code := by
  have hpath := h.path o ho
  unfold PathRight at hpath
  rw [hparent] at hpath
  rcases hpath with ⟨q, hq, rfl, htext⟩
  exact ⟨q, hq, rfl, h.tenant o q ho hq hparent, htext⟩

theorem getLast?_labels : (labels o.path.text).getLast? = some o.code := by
  cases hparent : o.parentID with
  | none => simp [h.path_of_root ho hparent, h.labels_code ho]
  | some =>
    rcases h.path_of_child ho hparent with ⟨q, _, _, _, htext⟩
    simp [htext, labels_append, h.labels_code ho]

theorem eq_of_path_eq (ho' : db.Live o')
    (htenant : o.tenantID = o'.tenantID) (hpath : o.path.text = o'.path.text) : o = o' := by
  have hlast := h.getLast?_labels ho
  rw [hpath, h.getLast?_labels ho'] at hlast
  exact h.unique o o' ho ho' htenant (Option.some.inj hlast).symm

end

theorem of_fewer (h : db.Sound) (hlive : ∀ o, db'.Live o → db.Live o)
    (hparent : ∀ o q, db'.Live o → db.Live q → o.parentID = some q.id → db'.Live q) : db'.Sound := by
  constructor
  . exact fun o ho => h.code o (hlive o ho)
  . exact fun o o' ho ho' => h.unique o o' (hlive o ho) (hlive o' ho')
  . exact fun o q ho hq => h.tenant o q (hlive o ho) (hlive q hq)
  intro o ho
  unfold PathRight
  cases hid : o.parentID with
  | none => exact h.path_of_root (hlive o ho) hid
  | some =>
    rcases h.path_of_child (hlive o ho) hid with ⟨q, hq, rfl, _, htext⟩
    exact ⟨q, hparent o q ho hq hid, rfl, htext⟩

theorem congr (h : db.Sound) (horgs : db'.orgs = db.orgs) : db'.Sound := by
  apply h.of_fewer
  . exact fun o ho => ⟨horgs ▸ ho.1, ho.2⟩
  . exact fun _ q _ hq _ => ⟨horgs ▸ hq.1, hq.2⟩

theorem of_map (h : db.Sound) {f : Organization → Organization} (hrows : db'.orgs.rows = db.orgs.rows.map f)
    (hf : ∀ o ∈ db.orgs.rows, (f o).id = o.id ∧ (f o).tenantID = o.tenantID ∧ (f o).code = o.code
      ∧ (f o).deleted = o.deleted)
    (htenant : ∀ o q, db.Live o → db.Live q → (f o).parentID = some q.id → q.tenantID = o.tenantID)
    (hpath : ∀ o, db.Live o → db'.PathRight (f o)) : db'.Sound := by
  have hlive : ∀ o', db'.Live o' → ∃ o, db.Live o ∧ o' = f o := by
    rintro o' ⟨ho', hdeleted⟩
    rw [hrows, mem_map] at ho'
    rcases ho' with ⟨o, ho, rfl⟩
    exact ⟨o, ⟨ho, (hf o ho).2.2.2 ▸ hdeleted⟩, rfl⟩
  constructor
  . intro o' ho'
    rcases hlive o' ho' with ⟨o, ho, rfl⟩
    rw [(hf o ho.1).2.2.1]
    exact h.code o ho
  . intro o1' o2' ho1' ho2' ht hc
    rcases hlive o1' ho1' with ⟨o1, ho1, rfl⟩
    rcases hlive o2' ho2' with ⟨o2, ho2, rfl⟩
    rw [(hf o1 ho1.1).2.1, (hf o2 ho2.1).2.1] at ht
    rw [(hf o1 ho1.1).2.2.1, (hf o2 ho2.1).2.2.1] at hc
    rw [h.unique o1 o2 ho1 ho2 ht hc]
  . intro o' q' ho' hq' hparent
    rcases hlive o' ho' with ⟨o, ho, rfl⟩
    rcases hlive q' hq' with ⟨q, hq, rfl⟩
    rw [(hf q hq.1).1] at hparent
    rw [(hf q hq.1).2.1, (hf o ho.1).2.1]
    exact htenant o q ho hq hparent
  . intro o' ho'
    rcases hlive o' ho' with ⟨o, ho, rfl⟩
    exact hpath o ho

end DB.Sound

theorem wildcard_notMem (path : Ltree) : '%' ∉ path.text ++ ['.'] ∧ '\\' ∉ path.text ++ ['.'] := by
  simp only [mem_append, mem_singleton, not_or]
  refine ⟨⟨?_, by decide⟩, ⟨?_, by decide⟩⟩
  all_goals
    intro hmem
    rcases path.isLabelChar_of_mem hmem with hdot | hlabel
    . contradiction
    . contradiction

namespace DB

variable (reading : SubstringFrom) (org : Organization) (parentID : Option Int) (newPath : Ltree) (o : Organization)

def image : Organization :=
  if o.id = org.id then
    setParent parentID newPath o
  else if selects org o then
    setPath reading org.path newPath o
  else
    o

theorem image_keeps :
    (image reading org parentID newPath o).id = o.id
      ∧ (image reading org parentID newPath o).tenantID = o.tenantID
      ∧ (image reading org parentID newPath o).code = o.code
      ∧ (image reading org parentID newPath o).deleted = o.deleted := by
  unfold image
  split
  . exact ⟨rfl, rfl, rfl, rfl⟩
  . split <;> exact ⟨rfl, rfl, rfl, rfl⟩

variable {db db' : DB} {reading : SubstringFrom} {tenantID id : Int} {parentID : Option Int}
variable {newPath : List Char} {org r : Organization}

theorem move_eq_some (h : db.move reading tenantID id parentID newPath = some db') :
    ∃ org path, db.getByID tenantID id = some org ∧ path.text = newPath
      ∧ db.parentExists parentID = true
      ∧ (∀ r ∈ db.orgs.rows, selects org r = true → (rewrite reading org.path path r.path).isSome = true)
      ∧ db'.orgs.rows = db.orgs.rows.map (image reading org parentID path)
      ∧ db'.userOrgs = db.userOrgs ∧ db'.users = db.users := by
  unfold move at h
  split at h
  . next org path horg hpath =>
    dsimp only at h
    split at h
    . next hok =>
      rw [Bool.and_eq_true, all_eq_true] at hok
      cases h
      refine ⟨org, path, horg, text_of_ofText hpath, hok.1, ?_, ?_, rfl, rfl⟩
      . intro r hr
        exact of_decide_eq_true (hok.2 r hr)
      . rcases getByID_eq_some horg with ⟨hlive, rfl, htenant⟩
        simp only [rows_update, map_map]
        apply map_congr_left
        intro o ho
        simp only [Function.comp, image]
        by_cases hid : o.id = org.id
        . -- The row is the one that has been read, and is not selected any more.
          have heq : o = org := db.orgs.eq_of_key_eq ho hlive.1 hid
          subst heq
          simp [inTenant, htenant, hlive.2, selects, setParent]
        . simp [hid]
    . contradiction
  . contradiction

def confined (db : DB) (reading : SubstringFrom) (org : Organization) : Bool :=
  db.orgs.rows.all (fun r => selects org r →
    (r.tenantID = org.tenantID ∧ (org.path.text ++ ['.']).isPrefixOf r.path.text ∧ reading = .position))

theorem confined_iff :
    db.confined reading org = true
      ↔
    ∀ r ∈ db.orgs.rows, selects org r = true →
      r.tenantID = org.tenantID ∧ org.path.text ++ ['.'] <+: r.path.text ∧ reading = .position := by
  simp only [confined, all_eq_true, decide_eq_true_eq, isPrefixOf_iff_prefix]

theorem selects_of_starts (hr : db.Live r) (hid : r.id ≠ org.id)
    (h : org.path.text ++ ['.'] <+: r.path.text) : selects org r = true := by
  unfold selects
  rw [Like.like_of_starts (wildcard_notMem org.path).2 h]
  simp [hid, hr.2]

def relocated (org : Organization) (newPath : List Char) (r : Organization) : List Char :=
  if org.path.text ++ ['.'] <+: r.path.text then
    newPath ++ r.path.text.drop org.path.text.length
  else
    r.path.text

theorem text_image {path : Ltree} (hr : db.Live r) (hid : r.id ≠ org.id) (hconfined : db.confined reading org = true)
    (hrewritable : selects org r = true → (rewrite reading org.path path r.path).isSome = true) :
    (image reading org parentID path r).path.text = relocated org path.text r := by
  unfold image relocated
  rw [if_neg hid]
  split
  . next hselects =>
    rcases confined_iff.mp hconfined r hr.1 hselects with ⟨_, hstarts, rfl⟩
    rcases Option.isSome_iff_exists.mp (hrewritable hselects) with ⟨path', hpath'⟩
    rw [if_pos hstarts]
    simp only [setPath, hpath', Option.getD_some]
    exact text_of_ofText hpath'
  . next hselects =>
    rw [if_neg]
    intro hstarts
    exact hselects (selects_of_starts hr hid hstarts)

def Placed (db : DB) (org : Organization) (parentID : Option Int) (newPath : List Char) : Prop :=
  match parentID with
  | none => newPath = org.code
  | some p => ∃ q, db.Live q ∧ q.id = p ∧ q.tenantID = org.tenantID ∧ cyclic org q = false
      ∧ newPath = q.path.text ++ '.' :: org.code

theorem cyclic_eq_false {parent : Organization} (h : cyclic org parent = false) :
    parent.id ≠ org.id ∧ ¬org.path.text ++ ['.'] <+: parent.path.text := by
  unfold cyclic at h
  simp only [Bool.or_eq_false_iff, decide_eq_false_iff_not] at h
  refine ⟨h.1.1, ?_⟩
  rw [← isPrefixOf_iff_prefix, h.2]
  simp

theorem relocated_child {q : Organization} (h : db.Sound) (horg : db.Live org) (hr : db.Live r) (hq : db.Live q)
    (hqtenant : q.tenantID = r.tenantID) (hne : q ≠ org) (htext : r.path.text = q.path.text ++ '.' :: r.code)
    (hbelow : org.path.text ++ ['.'] <+: r.path.text → r.tenantID = org.tenantID) :
    relocated org newPath r = relocated org newPath q ++ '.' :: r.code := by
  unfold relocated
  by_cases hstarts : org.path.text ++ ['.'] <+: q.path.text
  . have hlen : org.path.text.length ≤ q.path.text.length := by
      have := hstarts.length_le
      rw [length_append] at this
      omega
    have hstarts' : org.path.text ++ ['.'] <+: r.path.text := by
      rw [htext]
      exact hstarts.trans (prefix_append _ _)
    rw [if_pos hstarts, if_pos hstarts', htext, drop_append_of_le_length hlen, append_assoc]
  . have hstarts' : ¬org.path.text ++ ['.'] <+: r.path.text := by
      intro hcontra
      have htenant := hbelow hcontra
      rw [htext] at hcontra
      rcases prefix_append_label (h.dot_notMem_code hr) hcontra with heq | hq'
      . exact hne (h.eq_of_path_eq hq horg (hqtenant.trans htenant) heq.symm)
      . exact hstarts hq'
    rw [if_neg hstarts, if_neg hstarts', htext]

theorem relocated_self_child (htext : r.path.text = org.path.text ++ '.' :: r.code) :
    relocated org newPath r = newPath ++ '.' :: r.code := by
  have hstarts : org.path.text ++ ['.'] <+: r.path.text := ⟨r.code, by simp [htext]⟩
  unfold relocated
  rw [if_pos hstarts, htext, drop_left]

theorem relocated_root (h : db.Sound) (hr : db.Live r)
    (hparent : r.parentID = none) : relocated org newPath r = r.code := by
  have htext := h.path_of_root hr hparent
  unfold relocated
  rw [htext, if_neg]
  intro hstarts
  apply h.dot_notMem_code hr
  exact hstarts.subset (by simp)

theorem Sound.move (h : db.Sound) (horg : db.getByID tenantID id = some org)
    (hplaced : db.Placed org parentID newPath) (hconfined : db.confined reading org = true)
    (hmove : db.move reading tenantID id parentID newPath = some db') : db'.Sound := by
  rcases move_eq_some hmove with ⟨org', path, horg', rfl, _, hrewritable, hrows, _, _⟩
  rw [horg] at horg'
  cases horg'
  rcases getByID_eq_some horg with ⟨hlive, _, _⟩
  have himage : ∀ r, db.Live r → db'.Live (image reading org parentID path r) := by
    intro r hr
    have hkeeps := image_keeps reading org parentID path r
    refine ⟨?_, hkeeps.2.2.2.trans hr.2⟩
    rw [hrows]
    exact mem_map_of_mem hr.1
  have htext : ∀ r, db.Live r → r.id ≠ org.id →
      (image reading org parentID path r).path.text = relocated org path.text r :=
    fun r hr hid => text_image hr hid hconfined (hrewritable r hr.1)
  have hparentID : ∀ r, r.id ≠ org.id → (image reading org parentID path r).parentID = r.parentID := by
    intro r hid
    unfold image
    rw [if_neg hid]
    split <;> rfl
  have hself : image reading org parentID path org = setParent parentID path org := if_pos rfl
  apply h.of_map hrows (fun o _ => image_keeps reading org parentID path o)
  . intro o q ho hq hparent
    by_cases hid : o.id = org.id
    . rw [ho.eq_of_id_eq hlive hid, hself] at hparent
      simp only [setParent] at hparent
      rw [hparent] at hplaced
      rcases hplaced with ⟨q', hq', hid', htenant', _⟩
      rw [hq.eq_of_id_eq hq' hid'.symm, htenant', ho.eq_of_id_eq hlive hid]
    . rw [hparentID o hid] at hparent
      exact h.tenant o q ho hq hparent
  . intro o ho
    unfold PathRight
    by_cases hid : o.id = org.id
    . rw [ho.eq_of_id_eq hlive hid, hself]
      unfold Placed at hplaced
      split at hplaced
      . exact hplaced
      rcases hplaced with ⟨q, hq, rfl, _, hcyclic, hpath⟩
      rcases cyclic_eq_false hcyclic with ⟨hne, hstarts⟩
      refine ⟨_, himage q hq, (image_keeps reading org _ path q).1, ?_⟩
      rw [htext q hq hne, relocated, if_neg hstarts]
      exact hpath
    . rw [hparentID o hid, htext o ho hid, (image_keeps reading org parentID path o).2.2.1]
      cases hparent : o.parentID with
      | none => exact relocated_root h ho hparent
      | some =>
        rcases h.path_of_child ho hparent with ⟨q, hq, rfl, hqtenant, hotext⟩
        refine ⟨_, himage q hq, (image_keeps reading org parentID path q).1, ?_⟩
        by_cases hqid : q.id = org.id
        . have hqorg := hq.eq_of_id_eq hlive hqid
          subst hqorg
          rw [hself]
          exact relocated_self_child hotext
        . rw [htext q hq hqid]
          apply relocated_child h hlive ho hq hqtenant (fun heq => hqid (heq ▸ rfl)) hotext
          intro hstarts
          exact (confined_iff.mp hconfined o ho.1 (selects_of_starts ho hid hstarts)).1

end DB

section Steps

variable {db db' : DB} {reading : SubstringFrom} {tenantID id : Int} {parentID : Option Int}

theorem fetchParent_eq_ok {parent : Option Organization} (h : fetchParent db tenantID parentID = .ok parent) :
    parent.map Organization.id = parentID ∧ ∀ q, parent = some q → db.Live q ∧ q.tenantID = tenantID := by
  unfold fetchParent fetchParentOrg at h
  cases parentID with
  | none =>
    cases h
    simp
  | some p =>
    dsimp only at h
    cases hq : db.getByID tenantID p with
    | none =>
      rw [hq] at h
      contradiction
    | some =>
      rw [hq] at h
      cases h
      rcases DB.getByID_eq_some hq with ⟨hlive, rfl, htenant⟩
      refine ⟨rfl, ?_⟩
      intro q' hq'
      cases hq'
      exact ⟨hlive, htenant⟩

theorem DB.create_eq_some {org : Organization} (h : db.create org = some db') :
    db.codeTaken org.tenantID org.code = false ∧ db.orgs.insert? org = some db'.orgs
      ∧ db'.userOrgs = db.userOrgs ∧ db'.users = db.users := by
  unfold create at h
  split at h
  . contradiction
  next hok =>
  rw [Bool.or_eq_true, not_or] at hok
  split at h
  . contradiction
  next orgs hinsert =>
  cases h
  exact ⟨Bool.eq_false_iff.mpr hok.1, hinsert, rfl, rfl⟩

theorem create_eq_ok {req : CreateOrgRequest} (h : create db tenantID id req = .ok db') :
    ∃ parent path, orgCodeRe req.code = true ∧ fetchParent db tenantID req.parentID = .ok parent
      ∧ path.text = pathBelow parent req.code
      ∧ db.create (req.organization tenantID id path) = some db' := by
  unfold create at h
  split at h
  . contradiction
  next hcode =>
  split at h
  . contradiction
  next parent hparent =>
  split at h
  . contradiction
  next path hpath =>
  split at h
  . contradiction
  next hcreate =>
  cases h
  exact ⟨parent, path, by simpa using hcode, hparent, text_of_ofText hpath, hcreate⟩

theorem DB.Sound.create (h : db.Sound) {req : CreateOrgRequest}
    (hcreate : Org.create db tenantID id req = .ok db') : db'.Sound := by
  rcases create_eq_ok hcreate with ⟨parent, path, hcode, hparent, hpath, hdb⟩
  rcases DB.create_eq_some hdb with ⟨htaken, hinsert, _, _⟩
  rcases fetchParent_eq_ok hparent with ⟨hparentID, hq⟩
  have hold : ∀ o, db.Live o → db'.Live o := by
    intro o ho
    exact ⟨(mem_of_insert? hinsert).mpr (Or.inr ho.1), ho.2⟩
  have hlive : ∀ o, db'.Live o → db.Live o ∨ o = req.organization tenantID id path := by
    rintro o ⟨ho, hdeleted⟩
    rcases (mem_of_insert? hinsert).mp ho with rfl | ho
    . exact Or.inr rfl
    . exact Or.inl ⟨ho, hdeleted⟩
  have hnew : ∀ o, db.Live o → ¬(o.tenantID = tenantID ∧ o.code = req.code) := by
    intro o ho hsame
    unfold codeTaken at htaken
    rw [any_eq_false] at htaken
    exact htaken o ho.1 (decide_eq_true hsame)
  have hid : ∀ o, db.Live o → o.id ≠ id := fun o ho => key_ne_of_insert? hinsert ho.1
  constructor
  . intro o ho
    rcases hlive o ho with ho | rfl
    . exact h.code o ho
    . exact hcode
  . intro o o' ho ho' ht hc
    rcases hlive o ho with ho | rfl <;> rcases hlive o' ho' with ho' | rfl
    . exact h.unique o o' ho ho' ht hc
    . exact absurd ⟨ht, hc⟩ (hnew o ho)
    . exact absurd ⟨ht.symm, hc.symm⟩ (hnew o' ho')
    . rfl
  . intro o q ho hq' hqid
    rcases hlive o ho with ho | rfl
    . rcases h.path_of_child ho hqid with ⟨p, hp, hpid, htenant, _⟩
      rw [← (hold p hp).eq_of_id_eq hq' hpid]
      exact htenant
    . cases parent with
      | none => simp [CreateOrgRequest.organization, ← hparentID] at hqid
      | some p =>
        rcases hq p rfl with ⟨hp, htenant⟩
        have hpid : p.id = q.id := Option.some.inj (hparentID.trans hqid)
        rw [← (hold p hp).eq_of_id_eq hq' hpid]
        exact htenant
  . intro o ho
    rcases hlive o ho with ho | rfl
    . exact (h.path o ho).mono hold
    unfold PathRight
    cases parent with
    | none =>
      simp only [CreateOrgRequest.organization, ← hparentID, Option.map_none]
      exact hpath
    | some p =>
      simp only [CreateOrgRequest.organization, ← hparentID, Option.map_some]
      exact ⟨p, hold p (hq p rfl).1, rfl, hpath⟩

theorem update_eq_ok {req : UpdateOrgRequest} (h : update db tenantID id req = .ok db') :
    ∃ f, db'.orgs.rows = db.orgs.rows.map f
      ∧ (∀ o ∈ db.orgs.rows, ((f o).id = o.id ∧ (f o).tenantID = o.tenantID ∧ (f o).code = o.code
          ∧ (f o).deleted = o.deleted) ∧ (f o).parentID = o.parentID ∧ (f o).path = o.path)
      ∧ (∀ o ∈ db.orgs.rows, o.tenantID ≠ tenantID → f o = o)
      ∧ db'.userOrgs = db.userOrgs ∧ db'.users = db.users := by
  unfold update fetchOrg at h
  cases horg : db.getByID tenantID id with
  | none =>
    rw [horg] at h
    contradiction
  | some org =>
    rw [horg] at h
    cases h
    rcases DB.getByID_eq_some horg with ⟨hlive, rfl, htenant⟩
    refine ⟨_, rfl, ?_, ?_, rfl, rfl⟩
    . intro o ho
      split
      . next hp =>
        rw [Bool.and_eq_true, decide_eq_true_eq] at hp
        -- The row is the one that has been read.
        have heq : o = org := db.orgs.eq_of_key_eq ho hlive.1 hp.1
        subst heq
        exact ⟨⟨rfl, rfl, rfl, rfl⟩, rfl, rfl⟩
      . exact ⟨⟨rfl, rfl, rfl, rfl⟩, rfl, rfl⟩
    . intro o _ hne
      simp [DB.inTenant, hne]

theorem DB.Sound.update (h : db.Sound) {req : UpdateOrgRequest}
    (hupdate : Org.update db tenantID id req = .ok db') : db'.Sound := by
  rcases update_eq_ok hupdate with ⟨f, hrows, hf, _, _, _⟩
  apply h.of_map hrows (fun o ho => (hf o ho).1)
  . intro o q ho hq hparent
    rw [(hf o ho.1).2.1] at hparent
    exact h.tenant o q ho hq hparent
  intro o ho
  rcases hf o ho.1 with ⟨⟨_, _, hcode, _⟩, hparentID, hpath⟩
  unfold PathRight
  rw [hparentID, hpath, hcode]
  cases hparent : o.parentID with
  | none => exact h.path_of_root ho hparent
  | some =>
    rcases h.path_of_child ho hparent with ⟨q, hq, hid, _, htext⟩
    rcases hf q hq.1 with ⟨⟨hqid, _, _, hqdeleted⟩, _, hqpath⟩
    refine ⟨f q, ⟨?_, hqdeleted.trans hq.2⟩, hqid.trans hid, ?_⟩
    . rw [hrows]
      exact mem_map_of_mem hq.1
    . rw [hqpath]
      exact htext

theorem DB.delete_eq_some (h : db.delete tenantID id = some db') :
    (∀ o ∈ db'.orgs.rows, o ∈ db.orgs.rows)
      ∧ (∀ o ∈ db.orgs.rows, o ∈ db'.orgs.rows
          ∨ o.id = id ∧ o.tenantID = tenantID ∧ ∀ r ∈ db.orgs.rows, r.parentID ≠ some id)
      ∧ (∀ uo ∈ db'.userOrgs.rows, uo ∈ db.userOrgs.rows ∧ (uo.orgID = id → db'.orgs = db.orgs))
      ∧ db'.users = db.users := by
  unfold delete at h
  dsimp only at h
  split at h
  . cases h
    exact ⟨fun _ ho => ho, fun _ ho => Or.inl ho, fun _ huo => ⟨huo, fun _ => rfl⟩, rfl⟩
  split at h
  . contradiction
  next hchildren =>
  cases h
  refine ⟨fun o ho => mem_of_mem_filter ho, ?_, ?_, rfl⟩
  . intro o ho
    by_cases hdoomed : o.id = id ∧ o.tenantID = tenantID
    . refine Or.inr ⟨hdoomed.1, hdoomed.2, ?_⟩
      intro r hr hparent
      apply hchildren
      rw [any_eq_true]
      exact ⟨r, hr, decide_eq_true hparent⟩
    . apply Or.inl
      rw [rows_delete, mem_filter]
      refine ⟨ho, ?_⟩
      rw [Bool.not_eq_true', Bool.and_eq_false_iff, decide_eq_false_iff_not, decide_eq_false_iff_not]
      exact not_and_or.mp hdoomed
  . intro uo huo
    rw [rows_delete, mem_filter] at huo
    refine ⟨huo.1, fun horg => ?_⟩
    simp [horg] at huo

theorem delete_eq_ok (h : delete db tenantID id = .ok db') : db.delete tenantID id = some db' := by
  unfold delete at h
  split at h
  . contradiction
  split at h
  . contradiction
  split at h
  . contradiction
  split at h
  . contradiction
  next hdelete =>
  cases h
  exact hdelete

theorem DB.Sound.delete (h : db.Sound) (hdelete : db.delete tenantID id = some db') : db'.Sound := by
  rcases DB.delete_eq_some hdelete with ⟨hsub, hkeep, _, _⟩
  have hlive : ∀ o, db'.Live o → db.Live o := fun o ho => ⟨hsub o ho.1, ho.2⟩
  apply h.of_fewer hlive
  intro o q ho hq hparent
  rcases hkeep q hq.1 with hstays | ⟨rfl, _, hno⟩
  . exact ⟨hstays, hq.2⟩
  . exact absurd hparent (hno o (hlive o ho).1)

theorem checkMove_eq_ok {call : MoveCall} (h : checkMove db tenantID id parentID = .ok call) :
    call.tenantID = tenantID ∧ db.getByID tenantID id = some call.org
      ∧ fetchParent db tenantID parentID = .ok call.parent ∧ call.parent.any (cyclic call.org) = false
      ∧ call.parent.map Organization.id = parentID ∧ db.Placed call.org parentID call.newPath := by
  unfold checkMove fetchOrg at h
  cases horg : db.getByID tenantID id with
  | none =>
    rw [horg] at h
    contradiction
  | some =>
    rw [horg] at h
    dsimp only at h
    split at h
    . contradiction
    next parent hparent =>
    split at h
    . contradiction
    next hcyclic =>
    cases h
    rcases fetchParent_eq_ok hparent with ⟨rfl, hq⟩
    rw [Bool.not_eq_true] at hcyclic
    refine ⟨rfl, rfl, hparent, hcyclic, rfl, ?_⟩
    cases parent with
    | none => rfl
    | some q =>
      have htenant := (DB.getByID_eq_some horg).2.2
      rcases hq q rfl with ⟨hlive, hqtenant⟩
      exact ⟨q, hlive, rfl, hqtenant.trans htenant.symm, hcyclic, rfl⟩

theorem move_eq_ok (h : move db reading tenantID id parentID = .ok db') :
    ∃ call, checkMove db tenantID id parentID = .ok call
      ∧ db.move reading tenantID id parentID call.newPath = some db' := by
  unfold move at h
  split at h
  . contradiction
  next call hcall =>
  split at h
  . contradiction
  next hwrite =>
  cases h
  rcases checkMove_eq_ok hcall with ⟨htenant, horg, _, _, hparentID, _⟩
  unfold MoveCall.write at hwrite
  rw [htenant, hparentID, (DB.getByID_eq_some horg).2.1] at hwrite
  exact ⟨call, hcall, hwrite⟩

def confined (reading : SubstringFrom) (db : DB) : Action → Bool
  | .move tenantID id _ => (db.getByID tenantID id).all (db.confined reading)
  | _ => true

theorem addMember_eq_ok {orgID relID createdAt : Int} {req : AddMemberRequest}
    (h : addMember db tenantID orgID relID createdAt req = .ok db') :
    ∃ org u, db.getByID tenantID orgID = some org ∧ db.users.getByID tenantID req.userID = some u
      ∧ db.userOrgs.insert? ⟨relID, req.userID, orgID, req.isPrimary, createdAt⟩ = some db'.userOrgs
      ∧ db'.orgs = db.orgs ∧ db'.users = db.users := by
  unfold addMember fetchOrg DB.addMember at h
  cases horg : db.getByID tenantID orgID with
  | none =>
    rw [horg] at h
    contradiction
  | some org =>
    rw [horg] at h
    dsimp only at h
    split at h
    . contradiction
    next u hu =>
    split at h
    . contradiction
    next hadd =>
    cases h
    split at hadd
    . contradiction
    split at hadd
    . contradiction
    next hinsert =>
    cases hadd
    exact ⟨org, u, rfl, hu, hinsert, rfl, rfl⟩

theorem removeMember_eq_ok {userID orgID : Int} (h : removeMember db tenantID userID orgID = .ok db') :
    (∀ uo, uo ∈ db'.userOrgs.rows ↔ uo ∈ db.userOrgs.rows ∧ ¬(uo.userID = userID ∧ uo.orgID = orgID))
      ∧ db'.orgs = db.orgs ∧ db'.users = db.users := by
  unfold removeMember DB.removeMember at h
  dsimp only at h
  split at h
  . contradiction
  split at h
  . contradiction
  next hremove =>
  cases h
  split at hremove
  . cases hremove
    refine ⟨fun uo => ?_, rfl, rfl⟩
    rw [rows_delete, mem_filter, Bool.not_eq_true', decide_eq_false_iff_not]
  . contradiction

theorem changeUsers_eq_ok {users : User.Repository} (h : call reading db (.changeUsers users) = .ok db') :
    db' = { db with users }
      ∧ ∀ u ∈ db.users.table.rows, ∃ u' ∈ users.table.rows, u'.id = u.id ∧ u'.tenantID = u.tenantID := by
  unfold call at h
  dsimp only at h
  split at h
  . next hkeep =>
    cases h
    refine ⟨rfl, ?_⟩
    intro u hu
    have := all_eq_true.mp hkeep u hu
    rw [any_eq_true] at this
    rcases this with ⟨u', hu', hsame⟩
    exact ⟨u', hu', of_decide_eq_true hsame⟩
  . contradiction

theorem DB.Sound.call {a : Action} (h : db.Sound) (hconfined : Org.confined reading db a = true)
    (hcall : call reading db a = .ok db') : db'.Sound := by
  cases a with
  | create => exact h.create hcall
  | update => exact h.update hcall
  | delete => exact h.delete (delete_eq_ok hcall)
  | move =>
    rcases move_eq_ok hcall with ⟨call, hcheck, hmove⟩
    rcases checkMove_eq_ok hcheck with ⟨_, horg, _, _, _, hplaced⟩
    simp only [Org.confined, horg, Option.all_some] at hconfined
    exact h.move horg hplaced hconfined hmove
  | addMember =>
    rcases addMember_eq_ok hcall with ⟨_, _, _, _, _, horgs, _⟩
    exact h.congr horgs
  | removeMember => exact h.congr (removeMember_eq_ok hcall).2.1
  | changeUsers =>
    rcases changeUsers_eq_ok hcall with ⟨rfl, _⟩
    exact h.congr rfl

theorem step_eq_some {a : Action} (h : step reading db a = some db') : call reading db a = .ok db' ∨ db' = db := by
  unfold step at h
  split at h
  . next hcall =>
    cases h
    exact Or.inl hcall
  . cases h
    exact Or.inr rfl

end Steps

theorem run_sound {reading : SubstringFrom} {init db : DB} {acts : List Action} (hinit : init.Sound)
    (run : Run (step reading) (fun db a => confined reading db a = true) init acts db) : db.Sound := by
  apply run.invariant hinit
  intro db a db' h hconfined hstep
  rcases step_eq_some hstep with hcall | rfl
  . exact h.call hconfined hcall
  . exact h

theorem path_follows_parent (reading : SubstringFrom) (init : DB) (hinit : init.Sound) (acts : List Action)
    (db : DB) (run : Run (step reading) (fun db a => confined reading db a = true) init acts db) :
    ∀ o, db.Live o → db.PathRight o :=
  (run_sound hinit run).path

namespace Underscore

def init : DB :=
  ⟨.empty, .empty, ⟨.empty, User.no_users⟩⟩

theorem init_sound : init.Sound :=
  ⟨by simp [DB.Live, init], by simp [DB.Live, init], by simp [DB.Live, init], by simp [DB.Live, init]⟩

def create (tenantID id : Int) (code : String) (parentID : Option Int) : Action :=
  .create tenantID id ⟨code, code.toList, parentID, 0⟩

def acts : List Action :=
  [create 1 10 "a_c" none, create 1 11 "abc" none, create 1 12 "d4" (some 11), create 1 13 "x" none]

abbrev exec (reading : SubstringFrom) (allowed : DB → Action → Bool) (acts : List Action) : Option DB :=
  Run.exec (step reading) (fun db a => allowed db a = true) init acts

theorem moved_isSome (reading : SubstringFrom) :
    (exec reading (fun _ _ => true) (acts ++ [.move 1 10 (some 13)])).isSome = true := by
  cases reading <;> decide

theorem confined_isSome : (exec .position (confined .position) (acts ++ [.move 1 11 (some 13)])).isSome = true := by
  decide

abbrev moved (reading : SubstringFrom) : DB :=
  (exec reading (fun _ _ => true) (acts ++ [.move 1 10 (some 13)])).get (moved_isSome reading)

theorem path_of_other_rewritten :
    (Run (step .position) (fun _ _ => True) init (acts ++ [.move 1 10 (some 13)]) (moved .position)
        ∧ ∃ o ∈ (moved .position).orgs.rows, (moved .position).Live o ∧ ¬(moved .position).PathRight o)
      ∧ Run (step .pattern) (fun _ _ => True) init (acts ++ [.move 1 10 (some 13)]) (moved .pattern)
      ∧ ∃ o ∈ (moved .pattern).orgs.rows, (moved .pattern).Live o ∧ ¬(moved .pattern).PathRight o :=
  ⟨⟨(Run.of_isSome (moved_isSome .position)).free,
      by decide⟩,
    (Run.of_isSome (moved_isSome .pattern)).free,
    by decide⟩

theorem path_of_child_follows :
    (((exec .position (confined .position) (acts ++ [.move 1 11 (some 13)])).get confined_isSome).orgs.find?
        12).map (fun o => String.ofList o.path.text) = some "x.abc.d4"
      ∧ ∀ o,
        ((exec .position (confined .position) (acts ++ [.move 1 11 (some 13)])).get confined_isSome).Live o →
          ((exec .position (confined .position) (acts ++ [.move 1 11 (some 13)])).get
            confined_isSome).PathRight o :=
  ⟨by decide,
    path_follows_parent .position init init_sound (acts ++ [.move 1 11 (some 13)]) _
      (Run.of_isSome confined_isSome)⟩

end Underscore

end Mxid.Org
