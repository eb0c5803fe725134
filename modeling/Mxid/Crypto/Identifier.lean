import Mxid.Data.Bytes

/-!
This module contains the encoder of client secrets and, for comparison, the decoder of RFC 4648 for the URL safe
alphabet without padding.
-/

namespace Mxid.Crypto

def table : List Char :=
  "ABCDEFGHIJKLMNOPQRSTUVWXYZabcdefghijklmnopqrstuvwxyz0123456789-_".toList

def digit (n shift : Nat) : Char :=
  table.getD (n >>> shift &&& 0x3F) 'A'

def base64URLNoPad : Bytes → List Char
  | [] => []
  | [a] =>
    let n := a.toNat <<< 16
    [digit n 18, digit n 12]
  | [a, b] =>
    let n := a.toNat <<< 16 ||| b.toNat <<< 8
    [digit n 18, digit n 12, digit n 6]
  | a :: b :: c :: rest =>
    let n := a.toNat <<< 16 ||| b.toNat <<< 8 ||| c.toNat
    digit n 18 :: digit n 12 :: digit n 6 :: digit n 0 :: base64URLNoPad rest

def value? (c : Char) : Option Nat :=
  if 'A' ≤ c ∧ c ≤ 'Z' then some (c.toNat - 'A'.toNat)
  else if 'a' ≤ c ∧ c ≤ 'z' then some (c.toNat - 'a'.toNat + 26)
  else if '0' ≤ c ∧ c ≤ '9' then some (c.toNat - '0'.toNat + 52)
  else if c = '-' then some 62
  else if c = '_' then some 63
  else none

/--
The bits that the last digit has beyond the last byte have to be zero.
-/
def decode : List Char → Option Bytes
  | [] => some []
  | [_] => none
  | [c₁, c₂] => do
    let x ← value? c₁
    let y ← value? c₂
    if y % 16 = 0 then some [.ofNat (x * 4 + y / 16)] else none
  | [c₁, c₂, c₃] => do
    let x ← value? c₁
    let y ← value? c₂
    let z ← value? c₃
    if z % 4 = 0 then some [.ofNat (x * 4 + y / 16), .ofNat (y % 16 * 16 + z / 4)] else none
  | c₁ :: c₂ :: c₃ :: c₄ :: rest => do
    let x ← value? c₁
    let y ← value? c₂
    let z ← value? c₃
    let w ← value? c₄
    let bytes ← decode rest
    some (.ofNat (x * 4 + y / 16) :: .ofNat (y % 16 * 16 + z / 4) :: .ofNat (z % 4 * 64 + w) :: bytes)

theorem value?_table : ∀ i < 64, value? (table.getD i 'A') = some i := by
  decide +kernel

theorem value?_digit (n shift : Nat) : value? (digit n shift) = some (n / 2 ^ shift % 64) := by
  unfold digit
  rw [show 0x3F = 2 ^ 6 - 1 from rfl, Nat.and_two_pow_sub_one_eq_mod, Nat.shiftRight_eq_div_pow]
  exact value?_table _ (Nat.mod_lt _ (by decide))

theorem two_bytes_eq (a b : UInt8) : a.toNat <<< 16 ||| b.toNat <<< 8 = (a.toNat * 256 + b.toNat) * 256 := by
  have hb := b.toNat_lt
  rw [← Nat.shiftLeft_add_eq_or_of_lt (by rw [Nat.shiftLeft_eq]; omega), Nat.shiftLeft_eq, Nat.shiftLeft_eq]
  omega

theorem three_bytes_eq (a b c : UInt8) :
    a.toNat <<< 16 ||| b.toNat <<< 8 ||| c.toNat = (a.toNat * 256 + b.toNat) * 256 + c.toNat := by
  have hshift : (a.toNat * 256 + b.toNat) * 256 = (a.toNat * 256 + b.toNat) <<< 8 := (Nat.shiftLeft_eq _ 8).symm
  rw [two_bytes_eq, hshift, Nat.shiftLeft_add_eq_or_of_lt c.toNat_lt]

theorem ofNat_eq {n : Nat} {a : UInt8} (h : n = a.toNat) : UInt8.ofNat n = a := by
  rw [h, UInt8.ofNat_toNat]

/--
The encoder is correct.
-/
theorem base64URLNoPad_correct (b : Bytes) :
    decode (base64URLNoPad b) = some b
      ∧ (base64URLNoPad b).length = (4 * b.length + 2) / 3
      ∧ ∀ c ∈ base64URLNoPad b, (value? c).isSome = true := by
  fun_induction base64URLNoPad b with
  | case1 => simp [decode]
  | case2 a n =>
    have ha := a.toNat_lt
    have hn : n = a.toNat * 65536 := Nat.shiftLeft_eq _ 16
    refine ⟨?_, by simp, by simp [value?_digit]⟩
    simp only [decode, value?_digit, Option.bind_eq_bind, Option.bind_some]
    rw [if_pos (by omega), ofNat_eq (a := a) (by omega)]
  | case3 a b n =>
    have ha := a.toNat_lt
    have hb := b.toNat_lt
    have hn := two_bytes_eq a b
    refine ⟨?_, by simp, by simp [value?_digit]⟩
    simp only [decode, value?_digit, Option.bind_eq_bind, Option.bind_some]
    rw [if_pos (by omega), ofNat_eq (a := a) (by omega), ofNat_eq (a := b) (by omega)]
  | case4 a b c rest n ih =>
    have ha := a.toNat_lt
    have hb := b.toNat_lt
    have hc := c.toNat_lt
    have hn := three_bytes_eq a b c
    refine ⟨?_, ?_, by simpa [value?_digit] using ih.2.2⟩
    . simp only [decode, value?_digit, Option.bind_eq_bind, Option.bind_some, ih.1]
      rw [ofNat_eq (a := a) (by omega), ofNat_eq (a := b) (by omega), ofNat_eq (a := c) (by omega)]
    . simp only [List.length_cons, ih.2.1]
      omega

end Mxid.Crypto
