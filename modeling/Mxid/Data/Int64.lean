import Mathlib.Order.Interval.Finset.Nat

/-!
This module contains what is needed to reason about `Int64` counters.
-/

namespace Int64

open Int64

instance instLawfulBEq : LawfulBEq Int64 := inferInstance

instance instLinearOrder : LinearOrder Int64 where
  le_refl _ := by grind
  le_trans _ _ _ _ _ := by grind
  lt_iff_le_not_ge _ _ := by grind
  le_antisymm _ _ _ _ := by grind
  le_total _ _ := by grind
  toDecidableLE := inferInstance
  toDecidableEq := inferInstance
  toDecidableLT := inferInstance

theorem toInt_add_of_bounds {a b : Int64} (h1 : -2 ^ 63 ≤ a.toInt + b.toInt) (h2 : a.toInt + b.toInt < 2 ^ 63) :
    (a + b).toInt = a.toInt + b.toInt := by
  rw [toInt_add]
  apply Int.bmod_eq_of_le
  . simpa using h1
  . simpa using h2

theorem toInt_sub_of_bounds {a b : Int64} (h1 : -2 ^ 63 ≤ a.toInt - b.toInt) (h2 : a.toInt - b.toInt < 2 ^ 63) :
    (a - b).toInt = a.toInt - b.toInt := by
  rw [toInt_sub]
  apply Int.bmod_eq_of_le
  . simpa using h1
  . simpa using h2

theorem toInt_add_one {a b : Int64} (h : a < b) : (a + 1).toInt = a.toInt + 1 := by
  have hab := lt_iff_toInt_lt.mp h
  have hb := b.toInt_lt
  have ha := a.le_toInt
  rw [toInt_add_of_bounds] <;> simp <;> omega

theorem toInt_sub_one {a b : Int64} (h : a < b) : (b - 1).toInt = b.toInt - 1 := by
  have hab := lt_iff_toInt_lt.mp h
  have hb := b.toInt_lt
  have ha := a.le_toInt
  rw [toInt_sub_of_bounds] <;> simp <;> omega

theorem add_one_add_ofNat (a : Int64) (n : Nat) : a + 1 + ofNat n = a + ofNat (n + 1) := by
  rw [Int64.ofNat_add, Int64.add_assoc, Int64.add_comm 1]
  rfl

theorem ofNat_add_one (n : Nat) : ofNat n + 1 = ofNat (n + 1) := by
  rw [ofNat_add]
  rfl

theorem ofNat_add_one_sub_one (n : Nat) : ofNat (n + 1) - 1 = ofNat n := by
  rw [← ofNat_add_one, Int64.add_sub_cancel]

theorem ofNat_lt_ofNat_iff {n m : Nat} (hn : n < 2 ^ 63) (hm : m < 2 ^ 63) : ofNat n < ofNat m ↔ n < m := by
  rw [lt_iff_toInt_lt, toInt_ofNat_of_lt hn, toInt_ofNat_of_lt hm]
  omega

theorem ofNat_le_ofNat_iff {n m : Nat} (hn : n < 2 ^ 63) (hm : m < 2 ^ 63) : ofNat n ≤ ofNat m ↔ n ≤ m := by
  rw [le_iff_toInt_le, toInt_ofNat_of_lt hn, toInt_ofNat_of_lt hm]
  omega

theorem ofNat_inj_of_lt {n m : Nat} (hn : n < 2 ^ 63) (hm : m < 2 ^ 63) (h : ofNat n = ofNat m) : n = m := by
  have := congrArg toInt h
  rw [toInt_ofNat_of_lt hn, toInt_ofNat_of_lt hm] at this
  omega

theorem length_add_le_of_nodup {l : List Int64} {k : Nat} (hnodup : l.Nodup) (hk : k ≤ 2 ^ 63)
    (hge : ∀ x ∈ l, (k : Int) ≤ x.toInt) : l.length + k ≤ 2 ^ 63 := by
  have hmap : (l.map (fun x => x.toInt.toNat)).Nodup := by
    apply List.Nodup.map_on _ hnodup
    intro x hx y hy hxy
    have hx0 := hge x hx
    have hy0 := hge y hy
    apply toInt_inj.mp
    omega
  have hsub : (l.map (fun x => x.toInt.toNat)).toFinset ⊆ Finset.Ico k (2 ^ 63) := by
    intro n hn
    simp only [List.mem_toFinset, List.mem_map] at hn
    rcases hn with ⟨x, hx, rfl⟩
    have hx0 := hge x hx
    have hx1 := x.toInt_lt
    simp only [Finset.mem_Ico]
    omega
  have hcard := Finset.card_le_card hsub
  rw [List.toFinset_card_of_nodup hmap] at hcard
  simp only [List.length_map, Nat.card_Ico] at hcard
  omega

end Int64
