import Mathlib.Data.List.Basic

/-!
This module contains binary hash trees that duplicate the last node of an odd level, and the fact that such a tree
binds its leaves once their number is fixed.
-/

namespace Merkle

open List

variable {α : Type} (node : α → α → α)

def levelUp : List α → List α
  | [] => []
  | [a] => [node a a]
  | a :: b :: rest => node a b :: levelUp rest

def climb : (fuel : Nat) → List α → Option α
  | _, [] => none
  | _, [a] => some a
  | 0, _ :: _ :: _ => none
  | fuel + 1, a :: b :: rest => climb fuel (levelUp node (a :: b :: rest))

def root (leaves : List α) : Option α :=
  climb node leaves.length leaves

def pairs : List α → List (α × α)
  | [] => []
  | [a] => [(a, a)]
  | a :: b :: rest => (a, b) :: pairs rest

def hashed : (fuel : Nat) → List α → List (α × α)
  | _, [] | _, [_] | 0, _ :: _ :: _ => []
  | fuel + 1, a :: b :: rest =>
    pairs (a :: b :: rest) ++ hashed fuel (levelUp node (a :: b :: rest))

theorem length_levelUp (l : List α) : (levelUp node l).length = (l.length + 1) / 2 := by
  fun_induction levelUp node l with
  | case1 | case2 => simp
  | case3 a b rest ih =>
    simp only [length_cons, ih]
    omega

variable {fuel : Nat} {l : List α}

theorem climb_isSome (hne : l ≠ []) (hfuel : l.length ≤ fuel + 1) : (climb node fuel l).isSome := by
  fun_induction climb node fuel l with
  | case1 => contradiction
  | case2 => rfl
  | case3 => simp at hfuel
  | case4 fuel a b rest ih =>
    apply ih
    . simp [levelUp]
    . rw [length_levelUp]
      omega

theorem root_isSome {leaves : List α} (hne : leaves ≠ []) : (root node leaves).isSome :=
  climb_isSome node hne (by omega)

theorem forall_mem_hashed {P : α → Prop} (hnode : ∀ a b, P (node a b)) (hl : ∀ a ∈ l, P a) :
    ∀ p ∈ hashed node fuel l, P p.1 ∧ P p.2 := by
  have hpairs : ∀ l : List α, (∀ a ∈ l, P a) → ∀ p ∈ pairs l, P p.1 ∧ P p.2 := by
    intro l
    fun_induction pairs l with
    | case1 | case2 => simp
    | case3 a b rest ih =>
      intro hl p hp
      rcases mem_cons.mp hp with rfl | hp
      . exact ⟨hl a (by simp), hl b (by simp)⟩
      . exact ih (fun a ha => hl a (by simp [ha])) p hp
  have hup : ∀ l : List α, ∀ a ∈ levelUp node l, P a := by
    intro l
    fun_induction levelUp node l <;> simp_all
  fun_induction hashed node fuel l with
  | case1 | case2 | case3 => simp
  | case4 fuel a b rest ih =>
    intro p hp
    rcases mem_append.mp hp with hp | hp
    . exact hpairs _ hl p hp
    . exact ih (hup _) p hp

theorem climb_property {P : α → Prop} (hnode : ∀ a b, P (node a b)) {r : α}
    (hl : ∀ a ∈ l, P a) (h : climb node fuel l = some r) : P r := by
  have hup : ∀ l : List α, ∀ a ∈ levelUp node l, P a := by
    intro l
    fun_induction levelUp node l <;> simp_all
  fun_induction climb node fuel l with
  | case1 => contradiction
  | case2 =>
    cases h
    exact hl _ (by simp)
  | case3 => contradiction
  | case4 fuel a b rest ih => exact ih (hup _) h

def Separates (ps qs : List (α × α)) : Prop :=
  ∀ p ∈ ps, ∀ q ∈ qs, node p.1 p.2 = node q.1 q.2 → p = q

theorem levelUp_inj {l' : List α} (hlen : l.length = l'.length) (hsep : Separates node (pairs l) (pairs l'))
    (h : levelUp node l = levelUp node l') : l = l' := by
  induction l using levelUp.induct generalizing l' with
  | case1 =>
    exact (length_eq_zero_iff.mp hlen.symm).symm
  | case2 a =>
    match l' with
    | [] => simp at hlen
    | [a'] =>
      simp only [levelUp, List.cons.injEq, and_true] at h
      have := hsep (a, a) (by simp [pairs]) (a', a') (by simp [pairs]) h
      simp only [Prod.mk.injEq] at this
      rw [this.1]
    | _ :: _ :: _ => simp at hlen
  | case3 a b rest ih =>
    match l' with
    | [] | [_] => simp at hlen
    | a' :: b' :: rest' =>
      simp only [levelUp, List.cons.injEq] at h
      have hab := hsep (a, b) (by simp [pairs]) (a', b') (by simp [pairs]) h.1
      simp only [Prod.mk.injEq] at hab
      have hrest : rest = rest' := by
        apply ih
        . simpa using hlen
        . intro p hp q hq
          exact hsep p (by simp [pairs, hp]) q (by simp [pairs, hq])
        . exact h.2
      rw [hab.1, hab.2, hrest]

theorem climb_inj {l' : List α} (hlen : l.length = l'.length)
    (hfuel : l.length ≤ fuel + 1) (hsep : Separates node (hashed node fuel l) (hashed node fuel l'))
    (h : climb node fuel l = climb node fuel l') : l = l' := by
  induction fuel, l using climb.induct node generalizing l' with
  | case1 =>
    exact (length_eq_zero_iff.mp hlen.symm).symm
  | case2 =>
    match l' with
    | [] => simp at hlen
    | [a'] => simpa [climb] using h
    | _ :: _ :: _ => simp at hlen
  | case3 => simp at hfuel
  | case4 fuel a b rest ih =>
    match l' with
    | [] | [_] => simp at hlen
    | a' :: b' :: rest' =>
      have hup : levelUp node (a :: b :: rest) = levelUp node (a' :: b' :: rest') := by
        apply ih
        . rw [length_levelUp, length_levelUp, hlen]
        . rw [length_levelUp]
          omega
        . intro p hp q hq
          exact hsep p (mem_append_right _ hp) q (mem_append_right _ hq)
        . exact h
      apply levelUp_inj node hlen _ hup
      intro p hp q hq
      exact hsep p (mem_append_left _ hp) q (mem_append_left _ hq)

theorem root_inj {leaves leaves' : List α} (hlen : leaves.length = leaves'.length)
    (hsep : Separates node (hashed node leaves.length leaves) (hashed node leaves'.length leaves'))
    (h : root node leaves = root node leaves') : leaves = leaves' := by
  unfold root at h
  rw [← hlen] at hsep h
  exact climb_inj node hlen (by omega) hsep h

end Merkle
