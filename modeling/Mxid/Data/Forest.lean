import Mathlib.Logic.Relation
import Mathlib.Data.List.Basic

/-!
This module contains forests that are given by parent links, and how trails of keys decide reachability.
-/

namespace Forest

variable {ι κ : Type*} (parent : ι → Option ι)

def Above (a d : ι) : Prop :=
  Relation.ReflTransGen (fun p c => parent c = some p) a d

inductive Rooted : ι → Prop
  | root {x : ι} (h : parent x = none) : Rooted x
  | child {x p : ι} (h : parent x = some p) (hp : Rooted p) : Rooted x

variable {parent}

theorem above_iff {a d : ι} : Above parent a d ↔ a = d ∨ ∃ p, parent d = some p ∧ Above parent a p := by
  unfold Above
  rw [Relation.ReflTransGen.cases_tail_iff]
  constructor
  . rintro (h | ⟨p, habove, hp⟩)
    . exact Or.inl h.symm
    . exact Or.inr ⟨p, hp, habove⟩
  . rintro (h | ⟨p, hp, habove⟩)
    . exact Or.inl h.symm
    . exact Or.inr ⟨p, habove, hp⟩

theorem Rooted.of_rank (rank : ι → Nat) (h : ∀ x p, parent x = some p → rank p < rank x) (x : ι) : Rooted parent x := by
  induction hn : rank x using Nat.strongRecOn generalizing x with
  | ind n ih =>
    cases hparent : parent x with
    | none => exact .root hparent
    | some p =>
      apply Rooted.child hparent
      exact ih (rank p) (hn ▸ h x p hparent) p rfl

theorem not_rooted {C : ι → Prop} (h : ∀ x, C x → ∃ p, parent x = some p ∧ C p) {x : ι} (hx : C x) :
    ¬Rooted parent x := by
  intro hrooted
  induction hrooted with
  | root hnone =>
    rcases h _ hx with ⟨p, hp, _⟩
    rw [hnone] at hp
    contradiction
  | child hparent _ ih =>
    rcases h _ hx with ⟨p, hp, hC⟩
    rw [hparent] at hp
    cases hp
    exact ih hC

/--
The trail of a node consists of the keys from the root down to the node. Keys tell nodes apart. All of
this is about a set `N` of nodes that is closed under parents.
-/
structure Trails (parent : ι → Option ι) (N : ι → Prop) (key : ι → κ) (trail : ι → List κ) : Prop where
  root : ∀ x, N x → parent x = none → trail x = [key x]
  child : ∀ x p, N x → parent x = some p → N p ∧ trail x = trail p ++ [key x]
  inj : ∀ x y, N x → N y → key x = key y → x = y

namespace Trails

variable {N : ι → Prop} {key : ι → κ} {trail : ι → List κ}

section

variable (h : Trails parent N key trail)

include h

theorem getLast?_trail {x : ι} (hx : N x) : (trail x).getLast? = some (key x) := by
  cases hparent : parent x with
  | none => simp [h.root x hx hparent]
  | some p => simp [(h.child x p hx hparent).2]

theorem eq_of_trail_eq {x y : ι} (hx : N x) (hy : N y) (heq : trail x = trail y) : x = y := by
  have hlast := h.getLast?_trail hx
  rw [heq, h.getLast?_trail hy] at hlast
  exact h.inj x y hx hy (Option.some.inj hlast).symm

theorem length_lt {x p : ι} (hx : N x) (hparent : parent x = some p) : (trail p).length < (trail x).length := by
  rw [(h.child x p hx hparent).2]
  simp

theorem above_iff_starts {a d : ι} (ha : N a) (hd : N d) : Above parent a d ↔ trail a <+: trail d := by
  induction hn : (trail d).length using Nat.strongRecOn generalizing d with
  | ind n ih =>
    rw [above_iff]
    cases hparent : parent d with
    | none =>
      have htrail : trail d = [] ++ [key d] := h.root d hd hparent
      rw [htrail, List.prefix_concat_iff]
      constructor
      . rintro (rfl | ⟨p, hp, _⟩)
        . exact Or.inl htrail
        . contradiction
      . rintro (heq | hnil)
        . exact Or.inl (h.eq_of_trail_eq ha hd (heq.trans htrail.symm))
        have hlast := h.getLast?_trail ha
        rw [List.prefix_nil.mp hnil] at hlast
        contradiction
    | some p =>
      rcases h.child d p hd hparent with ⟨hp, htrail⟩
      have hlt := h.length_lt hd hparent
      have ihp := ih _ (hn ▸ hlt) hp rfl
      rw [htrail, List.prefix_concat_iff, ← ihp]
      constructor
      . rintro (rfl | ⟨p', hp', habove⟩)
        . exact Or.inl htrail
        . cases hp'
          exact Or.inr habove
      . rintro (heq | habove)
        . exact Or.inl (h.eq_of_trail_eq ha hd (heq.trans htrail.symm))
        . exact Or.inr ⟨p, rfl, habove⟩

end

end Trails

end Forest
