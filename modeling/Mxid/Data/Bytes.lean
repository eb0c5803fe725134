import Mathlib.Algebra.Group.Nat.Defs
import Mathlib.Data.List.Basic
import Mathlib.Tactic.Common

/-!
This module contains byte strings and the fixed width big-endian encoding of integers.
-/

abbrev Bytes := List UInt8

namespace Bytes

instance instLawfulBEq : LawfulBEq Bytes := inferInstance

def ascii (s : String) : Bytes :=
  s.toList.map (fun c => UInt8.ofNat c.toNat)

def bigEndian : (width : Nat) → (n : Nat) → Bytes
  | 0, _ => []
  | width + 1, n => UInt8.ofNat (n / 256 ^ width) :: bigEndian width n

def be8 (x : Int64) : Bytes :=
  bigEndian 8 x.toUInt64.toNat

def be2 (n : Nat) : Bytes :=
  bigEndian 2 n

def toNat (bytes : Bytes) : Nat :=
  bytes.foldl (fun n b => n * 256 + b.toNat) 0

@[simp]
theorem length_bigEndian (width n : Nat) : (bigEndian width n).length = width := by
  induction width with
  | zero => rfl
  | succ width ih => simp [bigEndian, ih]

@[simp]
theorem length_be8 (x : Int64) : (be8 x).length = 8 := by
  simp [be8]

@[simp]
theorem length_be2 (n : Nat) : (be2 n).length = 2 := by
  simp [be2]

theorem mod_eq_of_bigEndian_eq {width n m : Nat} (h : bigEndian width n = bigEndian width m) :
    n % 256 ^ width = m % 256 ^ width := by
  induction width with
  | zero => simp [Nat.mod_one]
  | succ width ih =>
    simp only [bigEndian, List.cons.injEq] at h
    have hhead := congrArg UInt8.toNat h.1
    simp only [UInt8.toNat_ofNat', Nat.reducePow] at hhead
    rw [Nat.mod_pow_succ, Nat.mod_pow_succ, ih h.2, hhead]

theorem be8_injective : Function.Injective be8 := by
  intro x y h
  have hmod := mod_eq_of_bigEndian_eq h
  have hx := x.toUInt64.toNat_lt
  have hy := y.toUInt64.toNat_lt
  rw [Nat.mod_eq_of_lt (by omega), Nat.mod_eq_of_lt (by omega)] at hmod
  rw [← Int64.toInt64_toUInt64 x, ← Int64.toInt64_toUInt64 y, UInt64.toNat_inj.mp hmod]

@[simp]
theorem be8_inj {x y : Int64} : be8 x = be8 y ↔ x = y :=
  be8_injective.eq_iff

theorem be2_inj {n m : Nat} (hn : n < 65536) (hm : m < 65536) : be2 n = be2 m ↔ n = m := by
  constructor
  . intro h
    have hmod := mod_eq_of_bigEndian_eq h
    rw [Nat.mod_eq_of_lt (by omega), Nat.mod_eq_of_lt (by omega)] at hmod
    assumption
  . intro h
    rw [h]

theorem append_eq_append_iff_of_length {a b c d : Bytes} (h : a.length = c.length) :
    a ++ b = c ++ d ↔ a = c ∧ b = d := by
  constructor
  . intro heq
    exact List.append_inj heq h
  . rintro ⟨rfl, rfl⟩
    rfl

@[simp]
theorem be8_append_inj {x y : Int64} {a b : Bytes} : be8 x ++ a = be8 y ++ b ↔ x = y ∧ a = b := by
  rw [append_eq_append_iff_of_length (by simp), be8_inj]

theorem be2_prefixed_append_inj {p q a b : Bytes} (hp : p.length < 65536) (hq : q.length < 65536) :
    be2 p.length ++ (p ++ a) = be2 q.length ++ (q ++ b) ↔ p = q ∧ a = b := by
  rw [append_eq_append_iff_of_length (by simp), be2_inj hp hq]
  constructor
  . rintro ⟨hlen, h⟩
    exact List.append_inj h hlen
  . rintro ⟨rfl, rfl⟩
    exact ⟨rfl, rfl⟩

end Bytes
