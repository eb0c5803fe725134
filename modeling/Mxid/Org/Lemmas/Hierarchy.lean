import Mxid.Org.Lemmas.Path
import Mxid.Data.Forest

/-!
This module contains the hierarchy of the parent links, and what the paths say about it.
-/

namespace Mxid.Org

def DB.live (db : DB) (id : Int) : Option Organization :=
  (db.orgs.find? id).filter (fun o => !o.deleted)

def DB.parentOf (db : DB) (id : Int) : Option Int :=
  (db.live id).bind Organization.parentID

def DB.trail (db : DB) (id : Int) : List (List Char) :=
  ((db.live id).map (fun o => Ltree.labels o.path.text)).getD []

def DB.codeOf (db : DB) (id : Int) : List Char :=
  ((db.live id).map Organization.code).getD []

section

variable {db : DB} {o a d : Organization} {id : Int}

theorem DB.live_eq_some_iff : db.live id = some o ↔ db.Live o ∧ o.id = id := by
  unfold live Live
  rw [Option.filter_eq_some_iff, Table.find?_eq_some_iff, Bool.not_eq_true']
  tauto

theorem DB.Live.live (h : db.Live o) : db.live o.id = some o :=
  DB.live_eq_some_iff.mpr ⟨h, rfl⟩

theorem DB.Live.parentOf (h : db.Live o) : db.parentOf o.id = o.parentID := by
  unfold DB.parentOf
  rw [h.live]
  rfl

theorem DB.Live.trail (h : db.Live o) : db.trail o.id = Ltree.labels o.path.text := by
  unfold DB.trail
  rw [h.live]
  rfl

theorem DB.Live.codeOf (h : db.Live o) : db.codeOf o.id = o.code := by
  unfold DB.codeOf
  rw [h.live]
  rfl

theorem DB.parentOf_eq_some {p : Int} (h : db.parentOf id = some p) :
    ∃ o, db.Live o ∧ o.id = id ∧ o.parentID = some p := by
  unfold parentOf at h
  rcases Option.bind_eq_some_iff.mp h with ⟨o, ho, hparent⟩
  rcases live_eq_some_iff.mp ho with ⟨hlive, hid⟩
  exact ⟨o, hlive, hid, hparent⟩

theorem DB.Sound.trails (h : db.Sound) (tenantID : Int) :
    Forest.Trails db.parentOf (fun id => ∃ o, db.Live o ∧ o.id = id ∧ o.tenantID = tenantID) db.codeOf db.trail := by
  constructor
  . rintro _ ⟨o, ho, rfl, _⟩ hparent
    rw [ho.parentOf] at hparent
    rw [ho.trail, ho.codeOf, h.path_of_root ho hparent, h.labels_code ho]
  . rintro _ p ⟨o, ho, rfl, htenant⟩ hparent
    rw [ho.parentOf] at hparent
    rcases h.path_of_child ho hparent with ⟨q, hq, rfl, hqtenant, htext⟩
    refine ⟨⟨q, hq, rfl, hqtenant.trans htenant⟩, ?_⟩
    rw [ho.trail, ho.codeOf, hq.trail, htext, Ltree.labels_append, h.labels_code ho]
  . rintro _ _ ⟨o, ho, rfl, htenant⟩ ⟨o', ho', rfl, htenant'⟩ hcode
    rw [ho.codeOf, ho'.codeOf] at hcode
    rw [h.unique o o' ho ho' (htenant.trans htenant'.symm) hcode]

theorem DB.Sound.above_iff (h : db.Sound) (ha : db.Live a) (hd : db.Live d) (htenant : a.tenantID = d.tenantID) :
    Forest.Above db.parentOf a.id d.id ↔ d.path.isDescendant a.path = true := by
  rw [(h.trails d.tenantID).above_iff_starts ⟨a, ha, rfl, htenant⟩ ⟨d, hd, rfl, rfl⟩, ha.trail, hd.trail]
  unfold Ltree.isDescendant
  apply Iff.symm
  apply List.isPrefixOf_iff_prefix

theorem DB.Sound.rooted (h : db.Sound) (id : Int) : Forest.Rooted db.parentOf id := by
  apply Forest.Rooted.of_rank (fun id => (db.trail id).length)
  intro x p hparent
  rcases DB.parentOf_eq_some hparent with ⟨o, ho, rfl, _⟩
  exact (h.trails o.tenantID).length_lt ⟨o, ho, rfl, rfl⟩ hparent

end

end Mxid.Org
