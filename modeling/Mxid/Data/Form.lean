import Mxid.Data.Bytes

/-!
This module contains query strings and their decoding as a form, which leaves out every pair that it cannot read.
-/

namespace Form

open List

def ampersand : UInt8 := 38
def equals : UInt8 := 61
def semicolon : UInt8 := 59
def percent : UInt8 := 37
def plus : UInt8 := 43
def space : UInt8 := 32

def hexDigit (c : UInt8) : Option UInt8 :=
  if 48 ≤ c ∧ c ≤ 57 then some (c - 48)
  else if 97 ≤ c ∧ c ≤ 102 then some (c - 87)
  else if 65 ≤ c ∧ c ≤ 70 then some (c - 55)
  else none

def unescape : Bytes → Option Bytes
  | [] => some []
  | c :: rest =>
    if c = percent then
      match rest with
      | a :: b :: rest =>
        match hexDigit a, hexDigit b with
        | some x, some y => (unescape rest).map (fun text => (16 * x + y) :: text)
        | _, _ => none
      | _ => none
    else
      (unescape rest).map (fun text => (if c = plus then space else c) :: text)

def pairs (query : Bytes) : List Bytes := query.splitOn ampersand

def cut (pair : Bytes) : Bytes × Option Bytes :=
  match pair.dropWhile (fun c => c ≠ equals) with
  | [] => (pair, none)
  | _ :: value => (pair.takeWhile (fun c => c ≠ equals), some value)

def entry (pair : Bytes) : Option (Bytes × Bytes) :=
  if semicolon ∈ pair then
    none
  else if pair = [] then
    none
  else
    match unescape (cut pair).1, unescape ((cut pair).2.getD []) with
    | some name, some value => some (name, value)
    | _, _ => none

def exceeds (limit : Option Nat) (query : Bytes) : Bool :=
  limit.any (fun n => n < query.count ampersand + 1)

def decode (limit : Option Nat) (query : Bytes) : List (Bytes × Bytes) :=
  if exceeds limit query then [] else (pairs query).filterMap entry

def value (limit : Option Nat) (query name : Bytes) : Bytes :=
  (((decode limit query).find? (fun e => e.1 = name)).map Prod.snd).getD []

theorem unescape_eq_nil {text : Bytes} (h : unescape text = some []) : text = [] := by
  cases text with
  | nil => rfl
  | cons =>
    unfold unescape at h
    split at h
    . split at h
      . split at h
        . simp at h
        . contradiction
      . contradiction
    . simp at h

theorem mem_of_mem_unescape {c : UInt8} (hpercent : c ≠ percent) (hplus : c ≠ plus) (hdigit : hexDigit c = none)
    {text name : Bytes} (h : unescape text = some name) (hc : c ∈ text) : c ∈ name := by
  induction text using unescape.induct generalizing name with
  | case1 => contradiction
  | case2 a b rest x y ha hb ih =>
    simp only [unescape, if_true, ha, hb, Option.map_eq_some_iff] at h
    rcases h with ⟨name', hname', rfl⟩
    have hne {d z : UInt8} (hd : hexDigit d = some z) : c ≠ d := by
      rintro rfl
      rw [hdigit] at hd
      contradiction
    simp only [mem_cons, hpercent, hne ha, hne hb, false_or] at hc
    exact mem_cons_of_mem _ (ih hname' hc)
  | case3 a b rest hnone =>
    unfold unescape at h
    rw [if_pos rfl] at h
    dsimp only at h
    split at h
    . next x y ha hb => exact (hnone x y ha hb).elim
    . contradiction
  | case4 rest hnone =>
    unfold unescape at h
    rw [if_pos rfl] at h
    split at h
    . next a b rest' => exact absurd rfl (hnone a b rest')
    . contradiction
  | case5 d rest hd ih =>
    unfold unescape at h
    rw [if_neg hd, Option.map_eq_some_iff] at h
    rcases h with ⟨name', hname', rfl⟩
    rcases mem_cons.mp hc with rfl | hc
    . rw [if_neg hplus]
      exact mem_cons_self
    . exact mem_cons_of_mem _ (ih hname' hc)

theorem notMem_of_mem_splitOn {α : Type} [DecidableEq α] {sep : α} {l part : List α} (h : part ∈ l.splitOn sep) :
    sep ∉ part := by
  unfold List.splitOn at h
  induction l generalizing part with
  | nil =>
    rw [splitOnP_nil, mem_singleton] at h
    rw [h]
    exact not_mem_nil
  | cons c l ih =>
    rw [splitOnP_cons_eq_if_modifyHead] at h
    split at h
    . rcases mem_cons.mp h with rfl | h
      . exact not_mem_nil
      . exact ih h
    next hc =>
    rcases exists_cons_of_ne_nil (splitOnP_ne_nil (fun x => x == sep) l) with ⟨first, rest, hsplit⟩
    rw [hsplit] at h ih
    rcases mem_cons.mp h with rfl | h
    . rw [mem_cons, not_or]
      refine ⟨?_, ih mem_cons_self⟩
      rintro rfl
      simp at hc
    . exact ih (mem_cons_of_mem _ h)

theorem cut_append {name text : Bytes} (h : equals ∉ name) : cut (name ++ equals :: text) = (name, some text) := by
  have hall : ∀ c ∈ name, decide (c ≠ equals) = true := by
    intro c hc
    apply decide_eq_true
    rintro rfl
    contradiction
  unfold cut
  rw [dropWhile_append_of_pos hall, takeWhile_append_of_pos hall]
  simp

theorem cut_eq (pair : Bytes) :
    ((cut pair).2 = none ∧ pair = (cut pair).1)
      ∨ ∃ text, (cut pair).2 = some text ∧ pair = (cut pair).1 ++ equals :: text := by
  have happend := takeWhile_append_dropWhile (p := fun c => decide (c ≠ equals)) (l := pair)
  unfold cut
  split
  . exact .inl ⟨rfl, rfl⟩
  next c text hdrop =>
  right
  refine ⟨text, rfl, ?_⟩
  have hc : c = equals := by
    have hhead := List.head?_dropWhile_not (fun c => decide (c ≠ equals)) pair
    rw [hdrop, List.head?_cons] at hhead
    exact Decidable.not_not.mp (of_decide_eq_false hhead)
  rw [hdrop, hc] at happend
  exact happend.symm

def mention (name pair : Bytes) : Option (Option Bytes) :=
  if unescape (cut pair).1 = some name then some (cut pair).2 else none

def mentions (query name : Bytes) : List (Option Bytes) := (pairs query).filterMap (mention name)

def read (value : Option Bytes) : Option Bytes :=
  if semicolon ∈ value.getD [] then none else unescape (value.getD [])

section Mentions

variable {name : Bytes} (hname : name ≠ []) (hsemicolon : semicolon ∉ name)

include hname hsemicolon

theorem entry_of_named {pair : Bytes} (h : unescape (cut pair).1 = some name) :
    entry pair = (read (cut pair).2).map (fun v => (name, v)) := by
  have hpair : pair ≠ [] := by
    rintro rfl
    exact hname (Option.some.inj h).symm
  have hclean : semicolon ∉ (cut pair).1 := by
    intro hmem
    exact hsemicolon (mem_of_mem_unescape (by decide) (by decide) (by decide) h hmem)
  have hiff : semicolon ∈ pair ↔ semicolon ∈ (cut pair).2.getD [] := by
    rcases cut_eq pair with ⟨hnone, hcut⟩ | ⟨text, hsome, hcut⟩
    . rw [hnone, Option.getD_none]
      rw [← hcut] at hclean
      exact iff_of_false hclean not_mem_nil
    rw [hsome, Option.getD_some]
    constructor
    . intro hmem
      rw [hcut, mem_append, mem_cons] at hmem
      rcases hmem with hmem | hmem | hmem
      . exact absurd hmem hclean
      . exact absurd hmem (by decide)
      . exact hmem
    . intro hmem
      rw [hcut]
      exact mem_append_right _ (mem_cons_of_mem _ hmem)
  unfold entry read
  by_cases hmem : semicolon ∈ pair
  . rw [if_pos hmem, if_pos (hiff.mp hmem)]
    rfl
  . rw [if_neg hmem, if_neg hpair, if_neg (fun h => hmem (hiff.mpr h)), h]
    cases unescape ((cut pair).2.getD []) <;> rfl

omit hname hsemicolon in
theorem entry_of_not_named {pair : Bytes} (h : unescape (cut pair).1 ≠ some name) {e : Bytes × Bytes}
    (he : entry pair = some e) : e.1 ≠ name := by
  unfold entry at he
  split at he
  . contradiction
  split at he
  . contradiction
  split at he
  . next n v hn _ =>
    cases he
    rintro rfl
    exact h hn
  . contradiction

theorem value_eq (limit : Option Nat) (query : Bytes) :
    value limit query name
      =
    if exceeds limit query then [] else (((mentions query name).filterMap read).head?).getD [] := by
  unfold value decode mentions
  split
  . rfl
  congr 1
  induction pairs query with
  | nil => rfl
  | cons pair ps ih =>
    by_cases h : unescape (cut pair).1 = some name
    . have hmention : mention name pair = some (cut pair).2 := if_pos h
      rw [filterMap_cons, entry_of_named hname hsemicolon h, filterMap_cons, hmention, filterMap_cons]
      cases read (cut pair).2 with
      | none => exact ih
      | some => simp
    . have hmention : mention name pair = none := if_neg h
      rw [filterMap_cons, filterMap_cons, hmention]
      cases he : entry pair with
      | none => exact ih
      | some =>
        rw [List.find?_cons_of_neg]
        . exact ih
        . simpa using entry_of_not_named h he

end Mentions

end Form
