import Mathlib.Data.List.Basic
import Mathlib.Order.Lattice

/-!
This module contains keyset pagination, which is the fold over the whole result, whatever the page size.
-/

namespace Keyset

open List

variable {ρ κ β ε : Type}

def foldPages (page : κ → List ρ) (key : ρ → κ) (step : β → ρ → Except ε β)
    : (fuel : Nat) → (cursor : κ) → (acc : β) → Option (Except ε β)
  | 0, _, _ => none
  | fuel + 1, cursor, acc =>
    match page cursor with
    | [] => some (.ok acc)
    | r :: rs =>
      match (r :: rs).foldlM step acc with
      | .error e => some (.error e)
      | .ok acc => foldPages page key step fuel (key ((r :: rs).getLast (cons_ne_nil r rs))) acc

variable [LinearOrder κ] (key : ρ → κ)

def after (cursor : κ) (rows : List ρ) : List ρ :=
  rows.filter (fun r => cursor < key r)

variable {rows : List ρ}

theorem pairwise_after (hsorted : rows.Pairwise (fun a b => key a < key b)) (cursor : κ) :
    (after key cursor rows).Pairwise (fun a b => key a < key b) :=
  hsorted.filter _

theorem after_after {cursor cursor' : κ} (h : cursor < cursor') :
    after key cursor' (after key cursor rows) = after key cursor' rows := by
  unfold after
  rw [filter_filter]
  apply filter_congr
  intro r _
  rw [Bool.eq_iff_iff]
  simp only [decide_eq_true_eq, Bool.and_eq_true]
  exact ⟨fun hr => hr.1, fun hr => ⟨hr, lt_trans h hr⟩⟩

theorem after_getLast_take (hsorted : rows.Pairwise (fun a b => key a < key b))
    {cursor : κ} {size : Nat} (hne : (after key cursor rows).take size ≠ []) :
    after key (key (((after key cursor rows).take size).getLast hne)) rows
      =
    (after key cursor rows).drop size := by
  have hm := pairwise_after key hsorted cursor
  generalize hlast : ((after key cursor rows).take size).getLast hne = last
  have hlastmem : last ∈ (after key cursor rows).take size := by
    rw [← hlast]
    apply getLast_mem
  have hcursor : cursor < key last := by
    have := mem_of_mem_take hlastmem
    simp only [after, mem_filter, decide_eq_true_eq] at this
    exact this.2
  rw [← after_after key hcursor]
  rw [← take_append_drop size (after key cursor rows)] at hm
  rw [pairwise_append] at hm
  conv =>
    lhs
    rw [← take_append_drop size (after key cursor rows)]
  unfold after at *
  rw [filter_append]
  rw [filter_eq_nil_iff.mpr, filter_eq_self.mpr, nil_append]
  . intro r hr
    simpa using hm.2.2 last hlastmem r hr
  . intro r hr
    simp only [decide_eq_true_eq, not_lt]
    have htake := dropLast_append_getLast hne
    rw [hlast] at htake
    rw [← htake] at hr
    rcases mem_append.mp hr with hr | hr
    . have hp := hm.1
      rw [← htake] at hp
      exact le_of_lt ((pairwise_append.mp hp).2.2 r hr last (by simp))
    . rw [mem_singleton.mp hr]

theorem foldPages_eq_foldlM {size : Nat} {page : κ → List ρ}
    {step : β → ρ → Except ε β} (hsorted : rows.Pairwise (fun a b => key a < key b))
    (hsize : 0 < size) (hpage : ∀ cursor, page cursor = (after key cursor rows).take size)
    (fuel : Nat) (cursor : κ) (acc : β) (hfuel : (after key cursor rows).length < fuel) :
    foldPages page key step fuel cursor acc = some ((after key cursor rows).foldlM step acc) := by
  induction fuel generalizing cursor acc with
  | zero => contradiction
  | succ fuel ih =>
    unfold foldPages
    split
    . next hempty =>
      rw [hpage, take_eq_nil_iff] at hempty
      rcases hempty with h | h
      . omega
      . rw [h]
        rfl
    . next r rs hcons =>
      rw [hpage] at hcons
      have hne : (after key cursor rows).take size ≠ [] := by
        rw [hcons]
        simp
      have hlast := after_getLast_take key hsorted hne
      have hsplit := take_append_drop size (after key cursor rows)
      have hfold : (after key cursor rows).foldlM step acc
          = (r :: rs).foldlM step acc >>= fun acc => ((after key cursor rows).drop size).foldlM step acc := by
        conv =>
          lhs
          rw [← hsplit, foldlM_append, hcons]
      rw [hfold]
      split
      . next e he =>
        rw [he]
        rfl
      . next acc' hacc =>
        rw [hacc]
        simp only [hcons] at hlast
        rw [ih]
        . rw [hlast]
          rfl
        . rw [hlast, length_drop]
          have : 0 < ((after key cursor rows).take size).length := length_pos_iff.mpr hne
          rw [length_take] at this
          omega

end Keyset
