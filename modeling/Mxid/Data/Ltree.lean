import Mathlib.Data.List.Infix

/-!
This module contains paths of labels in the form in which they are written: the labels are separated by
dots and consist of letters, digits and underscores.
-/

namespace Ltree

def isLabelChar (c : Char) : Bool :=
  c.isAlphanum || c = '_'

def isLabel (l : List Char) : Bool :=
  !l.isEmpty && l.all isLabelChar

def labels (t : List Char) : List (List Char) :=
  t.splitOn '.'

def isPath (t : List Char) : Bool :=
  (labels t).all isLabel

end Ltree

structure Ltree where
  text : List Char
  valid : Ltree.isPath text = true
  deriving DecidableEq

namespace Ltree

open List

def ofText (t : List Char) : Option Ltree :=
  if h : isPath t = true then some ⟨t, h⟩ else none

def isDescendant (d a : Ltree) : Bool :=
  (labels a.text).isPrefixOf (labels d.text)

theorem text_of_ofText {t : List Char} {path : Ltree} (h : ofText t = some path) : path.text = t := by
  unfold ofText at h
  split at h
  . cases h
    rfl
  . contradiction

theorem ext_text {a b : Ltree} (h : a.text = b.text) : a = b := by
  cases a
  cases b
  cases h
  rfl

theorem isLabelChar_ne_dot {c : Char} (h : isLabelChar c = true) : c ≠ '.' := by
  rintro rfl
  contradiction

theorem dot_notMem {l : List Char} (h : isLabel l = true) : '.' ∉ l := by
  unfold isLabel at h
  rw [Bool.and_eq_true, all_eq_true] at h
  intro hmem
  exact isLabelChar_ne_dot (h.2 '.' hmem) rfl

theorem labels_eq_singleton {l : List Char} (h : isLabel l = true) : labels l = [l] := by
  apply splitOnP_eq_singleton
  intro c hc
  rw [beq_eq_false_iff_ne]
  rintro rfl
  exact dot_notMem h hc

theorem labels_ne_nil (t : List Char) : labels t ≠ [] :=
  splitOn_ne_nil _ _

theorem intercalate_labels (t : List Char) : ['.'].intercalate (labels t) = t :=
  intercalate_splitOn _

theorem labels_append (s t : List Char) : labels (s ++ '.' :: t) = labels s ++ labels t :=
  splitOnP_append_cons s t (by decide)

theorem mem_intercalate {c d : Char} {ls : List (List Char)} (h : c ∈ [d].intercalate ls) :
    c = d ∨ ∃ l ∈ ls, c ∈ l := by
  induction ls with
  | nil => simp at h
  | cons l ls ih =>
    cases ls with
    | nil =>
      rw [intercalate_singleton] at h
      exact Or.inr ⟨l, mem_singleton_self l, h⟩
    | cons =>
      rw [intercalate_cons_cons, mem_append, mem_append, mem_singleton] at h
      rcases h with (hl | rfl) | hrest
      . exact Or.inr ⟨l, mem_cons_self, hl⟩
      . exact Or.inl rfl
      rcases ih hrest with hd | ⟨l'', hl'', hc⟩
      . exact Or.inl hd
      . exact Or.inr ⟨l'', mem_cons_of_mem _ hl'', hc⟩

theorem isLabelChar_of_mem (path : Ltree) {c : Char} (h : c ∈ path.text) : c = '.' ∨ isLabelChar c = true := by
  rw [← intercalate_labels path.text] at h
  apply (mem_intercalate h).imp_right
  rintro ⟨l, hl, hc⟩
  have hlabel := all_eq_true.mp path.valid l hl
  unfold isLabel at hlabel
  rw [Bool.and_eq_true, all_eq_true] at hlabel
  exact hlabel.2 c hc

theorem intercalate_append {d : Char} {ls ls' : List (List Char)} (h : ls ≠ []) (h' : ls' ≠ []) :
    [d].intercalate (ls ++ ls') = [d].intercalate ls ++ d :: [d].intercalate ls' := by
  induction ls with
  | nil => contradiction
  | cons l ls ih =>
    cases ls with
    | nil =>
      cases ls' with
      | nil => contradiction
      | cons => simp [intercalate_cons_cons, intercalate_singleton]
    | cons l2 ls =>
      have := ih (cons_ne_nil l2 ls)
      simp only [cons_append, intercalate_cons_cons] at this ⊢
      simp [this]

theorem isPath_append (path : Ltree) {ds : List Char} (hds : ∀ c ∈ ds, isLabelChar c = true) :
    isPath (path.text ++ ds) = true := by
  rcases eq_nil_or_concat (labels path.text) with hnil | ⟨ls, l, hlabels⟩
  . exact absurd hnil (labels_ne_nil _)
  rw [concat_eq_append] at hlabels
  have hvalid := path.valid
  unfold isPath at hvalid
  rw [hlabels, all_append, Bool.and_eq_true, all_cons, all_nil, Bool.and_true] at hvalid
  have hlast : isLabel (l ++ ds) = true := by
    have hl := hvalid.2
    simp only [isLabel, Bool.and_eq_true, Bool.not_eq_true', isEmpty_eq_false_iff, all_eq_true] at hl ⊢
    exact ⟨append_ne_nil_of_left_ne_nil hl.1 ds, forall_mem_append.mpr ⟨hl.2, hds⟩⟩
  have htext := intercalate_labels path.text
  unfold isPath
  rw [hlabels] at htext
  cases ls with
  | nil =>
    rw [nil_append, intercalate_singleton] at htext
    rw [← htext, labels_eq_singleton hlast]
    simp [hlast]
  | cons l' ls =>
    rw [intercalate_append (cons_ne_nil l' ls) (cons_ne_nil l []), intercalate_singleton] at htext
    have hinit : labels (['.'].intercalate (l' :: ls)) = l' :: ls :=
      splitOn_intercalate _ (fun l hl => dot_notMem (all_eq_true.mp hvalid.1 l hl)) (cons_ne_nil l' ls)
    rw [← htext, append_assoc, cons_append, labels_append, labels_eq_singleton hlast, hinit, all_append, hvalid.1]
    simp [hlast]

theorem isLabelChar_of_mem_toString {n : Nat} {c : Char} (h : c ∈ (toString n).toList) : isLabelChar c = true := by
  have hlist : (toString n).toList = Nat.toDigits 10 n := String.toList_ofList
  rw [hlist] at h
  simp [isLabelChar, Char.isAlphanum, Nat.isDigit_of_mem_toDigits (by decide) (by decide) h]

theorem labels_prefix_iff {s t : List Char} : labels s <+: labels t ↔ s = t ∨ s ++ ['.'] <+: t := by
  constructor
  . rintro ⟨ls, hls⟩
    have htext := intercalate_labels t
    rw [← hls] at htext
    cases ls with
    | nil =>
      rw [append_nil, intercalate_labels] at htext
      exact Or.inl htext
    | cons l ls =>
      rw [intercalate_append (labels_ne_nil s) (cons_ne_nil l ls), intercalate_labels] at htext
      exact Or.inr ⟨['.'].intercalate (l :: ls), by simp [← htext]⟩
  . rintro (rfl | ⟨rest, rfl⟩)
    . exact prefix_refl _
    . rw [append_assoc, singleton_append, labels_append]
      exact prefix_append _ _

theorem prefix_append_label {s t l : List Char} (hl : '.' ∉ l) (h : s ++ ['.'] <+: t ++ '.' :: l) :
    s = t ∨ s ++ ['.'] <+: t := by
  rcases h with ⟨rest, h⟩
  rw [append_assoc, singleton_append, append_eq_append_iff] at h
  rcases h with ⟨a, rfl, ha⟩ | ⟨a, rfl, ha⟩
  . cases a with
    | nil => exact Or.inl (append_nil s).symm
    | cons c a =>
      cases ha
      exact Or.inr ⟨a, by simp⟩
  . cases a with
    | nil => exact Or.inl (append_nil t)
    | cons =>
      cases ha
      simp at hl

end Ltree
