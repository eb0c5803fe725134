import Mxid.Audit.Impl.Files

namespace Mxid.Audit

open LineFile List FileSink

section FileSink

variable {codec : Codec AnchorRecord}

def FileSink.run (codec : Codec AnchorRecord) (puts : List (AnchorRecord × Option Nat)) : Bytes :=
  puts.foldl (fun file p => (put codec file p.1 p.2).1) []

def acknowledged (puts : List (AnchorRecord × Option Nat)) : List AnchorRecord :=
  (puts.filter (fun p => p.2.isNone)).map Prod.fst

theorem FileSink.run_eq {puts : List (AnchorRecord × Option Nat)} (hcut : ∀ p ∈ puts, p.2.getD 0 = 0) :
    run codec puts = (acknowledged puts).flatMap (line codec) := by
  induction puts using List.reverseRecOn with
  | nil => rfl
  | append_singleton puts p ih =>
    have hrun := ih (fun q hq => hcut q (mem_append_left _ hq))
    have hp := hcut p (by simp)
    unfold run acknowledged at hrun ⊢
    rw [foldl_append, hrun, foldl_cons, foldl_nil, filter_append, map_append, flatMap_append]
    rcases p with ⟨rec, _ | n⟩
    . simp [put]
    . cases hp
      simp [put]

theorem FileSink.list_run {puts : List (AnchorRecord × Option Nat)} (hcut : ∀ p ∈ puts, p.2.getD 0 = 0)
    (hlawful : ∀ p ∈ puts, codec.Lawful p.1) (hshort : ∀ p ∈ puts, (codec.marshal p.1).length < 4 * 1024 * 1024) :
    list codec (run codec puts) = some (acknowledged puts) := by
  have hmem : ∀ rec ∈ acknowledged puts, ∃ p ∈ puts, p.1 = rec := by
    intro rec hrec
    rcases mem_map.mp hrec with ⟨p, hp, rfl⟩
    exact ⟨p, mem_of_mem_filter hp, rfl⟩
  rw [run_eq hcut]
  apply scan_short_lines
  . intro rec hrec
    rcases hmem rec hrec with ⟨p, hp, rfl⟩
    exact hlawful p hp
  . intro rec hrec
    rcases hmem rec hrec with ⟨p, hp, rfl⟩
    exact hshort p hp

end FileSink

namespace Torn

def rec (fromSeq : Int64) : AnchorRecord := ⟨1, .data, fromSeq, 9, [], [], [], 0⟩

def codec : Codec AnchorRecord where
  marshal r := [123, r.fromSeq.toUInt64.toUInt8, 125]
  unmarshal
    | [123, n, 125] => some (rec n.toUInt64.toInt64)
    | _ => none

def puts (cut : Nat) : List (AnchorRecord × Option Nat) := [(rec 1, none), (rec 2, some cut), (rec 2, none)]

theorem lawful (cut : Nat) : ∀ p ∈ puts cut, codec.Lawful p.1 := by
  have hlawful : codec.Lawful (rec 1) ∧ codec.Lawful (rec 2) :=
    ⟨⟨by decide, by decide, by decide⟩, by decide, by decide, by decide⟩
  simpa [puts] using hlawful

theorem torn_write_unreadable :
    (∀ p ∈ puts 1, codec.Lawful p.1) ∧ acknowledged (puts 1) = [rec 1, rec 2]
      ∧ list codec (run codec (puts 1)) = none :=
  ⟨lawful 1, by decide, by decide⟩

theorem list_run_untorn : list codec (run codec (puts 0)) = some [rec 1, rec 2] :=
  list_run (by decide) (lawful 0) (by decide)

end Torn

end Mxid.Audit
