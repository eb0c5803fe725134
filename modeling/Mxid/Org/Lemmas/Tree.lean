import Mathlib.Order.WellFoundedSet
import Mxid.Org.Impl.Service

namespace Mxid.Org

open List Relation

/--
The response on a path of indices, of which the last one is an index of a root.
-/
def shown (children : Option Int → List Int) : (path : List Nat) → Option (Option Int)
  | [] => some none
  | i :: path => (shown children path).bind (fun parent => (children parent)[i]?.map some)

variable {orgs : List Organization} {parent : Option Int} {id : Int} {i j : Nat} {path : List Nat}

theorem buildTree_eq (orgs : List Organization) (parent : Option Int) :
    buildTree orgs parent
      =
    (orgs.filter (fun org => parentIn orgs org = parent)).map Organization.id := by
  unfold buildTree
  generalize parentIn orgs = f
  induction orgs using reverseRecOn with
  | nil => rfl
  | append_singleton orgs org ih =>
    rw [foldl_append, filter_append, map_append, ← ih]
    by_cases h : parent = f org
    . simp [h]
    . simp [h, Ne.symm h]

theorem mem_buildTree : id ∈ buildTree orgs parent ↔ ∃ org ∈ orgs, org.id = id ∧ parentIn orgs org = parent := by
  rw [buildTree_eq]
  simp only [mem_map, mem_filter, decide_eq_true_eq, and_right_comm, and_assoc]

theorem shown_cons : shown (buildTree orgs) (i :: path) = some (some id)
    ↔ ∃ parent, shown (buildTree orgs) path = some parent ∧ (buildTree orgs parent)[i]? = some id := by
  simp [shown, Option.bind_eq_some_iff]

theorem shown_once (hdistinct : (orgs.map Organization.id).Nodup) {org : Organization} (horg : org ∈ orgs)
    (hup : ∃! path, shown (buildTree orgs) path = some (parentIn orgs org)) :
    ∃! path, shown (buildTree orgs) path = some (some org.id) := by
  rcases hup with ⟨path, hpath, hunique⟩
  rcases getElem?_of_mem (mem_buildTree.mpr ⟨org, horg, rfl, rfl⟩) with ⟨i, hi⟩
  refine ⟨i :: path, shown_cons.mpr ⟨_, hpath, hi⟩, ?_⟩
  rintro (_ | ⟨j, path'⟩) hpath'
  . cases hpath'
  rcases shown_cons.mp hpath' with ⟨parent, hparent, hj⟩
  rcases mem_buildTree.mp (mem_of_getElem? hj) with ⟨org', horg', hid, rfl⟩
  rw [inj_on_of_nodup_map hdistinct horg' horg hid] at hparent hj
  have hnodup : (buildTree orgs (parentIn orgs org)).Nodup := by
    rw [buildTree_eq]
    exact hdistinct.sublist (filter_sublist.map _)
  rw [hunique path' hparent, (getElem?_inj (List.getElem?_eq_some_iff.mp hi).1 hnodup).mp (hi.trans hj.symm)]

def IsParent (orgs : List Organization) (p id : Int) : Prop :=
  ∃ org ∈ orgs, org.id = id ∧ org.parentID = some p

theorem buildTree_shows_each_once (orgs : List Organization) (hdistinct : (orgs.map Organization.id).Nodup)
    (hacyclic : ∀ id, ¬TransGen (IsParent orgs) id id) :
    (∀ id ∈ orgs.map Organization.id, ∃! path, shown (buildTree orgs) path = some (some id))
      ∧ (∀ path id, shown (buildTree orgs) path = some (some id) → id ∈ orgs.map Organization.id)
      ∧ ∀ parent, buildTree orgs parent
          = (orgs.filter (fun org => parentIn orgs org = parent)).map Organization.id := by
  refine ⟨?_, ?_, buildTree_eq orgs⟩
  . have : IsStrictOrder Int (TransGen (IsParent orgs)) := { irrefl := hacyclic, trans := fun _ _ _ => .trans }
    have hwf := (finite_toSet (orgs.map Organization.id)).wellFoundedOn (r := TransGen (IsParent orgs))
    refine fun id hid => hwf.induction (P := fun id => ∃! path, shown (buildTree orgs) path = some (some id)) hid ?_
    intro id hid ih
    rcases mem_map.mp hid with ⟨org, horg, rfl⟩
    apply shown_once hdistinct horg
    cases hparent : parentIn orgs org with
    | none =>
      refine ⟨[], rfl, ?_⟩
      rintro (_ | ⟨i, path⟩) h
      . rfl
      . simp [shown, Option.bind_eq_some_iff] at h
    | some p =>
      unfold parentIn at hparent
      split at hparent
      . contradiction
      next hp =>
      split at hparent <;> cases hparent
      next hmem => exact ih p hmem (.single ⟨org, horg, rfl, hp⟩)
  . rintro (_ | ⟨i, path⟩) id h
    . cases h
    rcases shown_cons.mp h with ⟨p, _, hp⟩
    rcases mem_buildTree.mp (mem_of_getElem? hp) with ⟨org, horg, rfl, _⟩
    exact mem_map_of_mem horg

def childBeforeParent : List Organization :=
  [⟨2, 1, "", [], some 1, ⟨['a'], rfl⟩, 0, 1, false⟩, ⟨1, 1, "", [], none, ⟨['a'], rfl⟩, 0, 1, false⟩]

theorem child_shown_once :
    buildTree childBeforeParent (some 1) = [2] ∧ ∃! path, shown (buildTree childBeforeParent) path = some (some 2) := by
  have hlt : ∀ {p id}, TransGen (IsParent childBeforeParent) p id → p < id := by
    intro p id h
    refine TransGen.trans_induction_on h ?_ (fun _ _ => Int.lt_trans)
    rintro p id ⟨org, horg, rfl, hp⟩
    rcases mem_pair.mp horg with rfl | rfl <;> cases hp
    decide
  have h := buildTree_shows_each_once childBeforeParent (by decide) (fun id hid => Int.lt_irrefl id (hlt hid))
  exact ⟨by decide, h.1 2 (by decide)⟩

end Mxid.Org
