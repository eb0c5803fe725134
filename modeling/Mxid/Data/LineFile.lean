import Mxid.Data.Bytes

/-!
This module contains files that hold one record a line, and their scanner, whose buffer limits the length of a line.
-/

namespace LineFile

open List

variable {α : Type}

structure Codec (α : Type) where
  marshal : α → Bytes
  unmarshal : Bytes → Option α

def newline : UInt8 := 10

def line (codec : Codec α) (a : α) : Bytes := codec.marshal a ++ [newline]

def scan (codec : Codec α) (limit : Nat) (file : Bytes) : Option (List α) :=
  let lines := (file.splitOn newline).filter (· ≠ [])
  if lines.any (limit ≤ ·.length) then none else lines.mapM codec.unmarshal

/--
The record is written as one line and read back.
-/
structure Codec.Lawful (codec : Codec α) (a : α) : Prop where
  unmarshal_marshal : codec.unmarshal (codec.marshal a) = some a
  newline_notMem : newline ∉ codec.marshal a
  ne_nil : codec.marshal a ≠ []

variable {codec : Codec α} {as : List α}

theorem scan_lines (limit : Nat) (h : ∀ a ∈ as, codec.Lawful a) :
    scan codec limit (as.flatMap (line codec))
      =
    if as.any (fun a => limit ≤ (codec.marshal a).length) then none else some as := by
  have hlines : ((as.flatMap (line codec)).splitOn newline).filter (· ≠ []) = as.map codec.marshal := by
    induction as with
    | nil => rfl
    | cons a as ih =>
      rw [flatMap_cons, line, append_assoc, singleton_append, splitOn, splitOnP_append_cons_of_forall_mem _ _ (by simp),
        filter_cons_of_pos, map_cons]
      . rw [← ih (fun b hb => h b (mem_cons_of_mem a hb))]
        rfl
      . simpa using (h a mem_cons_self).ne_nil
      . intro b hb
        exact beq_eq_false_iff_ne.mpr (ne_of_mem_of_not_mem hb (h a mem_cons_self).newline_notMem)
  have hread : (as.map codec.marshal).mapM codec.unmarshal = some as := by
    clear hlines
    induction as with
    | nil => rfl
    | cons a as ih =>
      rw [map_cons, mapM_cons, (h a mem_cons_self).unmarshal_marshal, ih (fun b hb => h b (mem_cons_of_mem a hb))]
      rfl
  unfold scan
  dsimp only
  rw [hlines, hread, any_map]
  rfl

theorem scan_short_lines {limit : Nat} (h : ∀ a ∈ as, codec.Lawful a)
    (hshort : ∀ a ∈ as, (codec.marshal a).length < limit) : scan codec limit (as.flatMap (line codec)) = some as := by
  rw [scan_lines limit h, if_neg]
  simpa using hshort

end LineFile
