import Mathlib.Data.List.Sort

/-!
This module contains relational tables: rows in no particular order whose primary (or unique) key never repeats.
-/

open List

variable {α : Type} {l : List α}

/--
Two selections from a list, each with a mark on its elements that says which element it is on, are the same
up to order if and only if they select the same elements and mark them in the same way.
-/
theorem List.perm_map_filter_iff {β : Type} {p q : α → Bool} {f g : α → β}
    (hinj : ∀ a ∈ l, ∀ b ∈ l, f a = g b → a = b) :
    ((l.filter p).map f).Perm ((l.filter q).map g)
      ↔
    (∀ a ∈ l, p a = q a) ∧ ∀ a ∈ l, q a = true → f a = g a := by
  constructor
  . intro hperm
    have hleft : ∀ a ∈ l, p a = true → q a = true ∧ f a = g a := by
      intro a ha hp
      have hmem := hperm.mem_iff.mp (mem_map.mpr ⟨a, mem_filter.mpr ⟨ha, hp⟩, rfl⟩)
      rcases mem_map.mp hmem with ⟨b, hb, heq⟩
      rcases mem_filter.mp hb with ⟨hb, hq⟩
      rw [hinj a ha b hb heq.symm]
      exact ⟨hq, by rw [heq, hinj a ha b hb heq.symm]⟩
    have hright : ∀ b ∈ l, q b = true → p b = true := by
      intro b hb hq
      have hmem := hperm.mem_iff.mpr (mem_map.mpr ⟨b, mem_filter.mpr ⟨hb, hq⟩, rfl⟩)
      rcases mem_map.mp hmem with ⟨a, ha, heq⟩
      rcases mem_filter.mp ha with ⟨ha, hp⟩
      rw [← hinj a ha b hb heq]
      exact hp
    refine ⟨?_, ?_⟩
    . intro a ha
      rw [Bool.eq_iff_iff]
      exact ⟨fun hp => (hleft a ha hp).1, hright a ha⟩
    . intro a ha hq
      exact (hleft a ha (hright a ha hq)).2
  . rintro ⟨hsame, hmark⟩
    rw [filter_congr hsame]
    apply Perm.of_eq
    apply map_congr_left
    intro a ha
    exact hmark a (mem_filter.mp ha).1 (mem_filter.mp ha).2

theorem List.filter_eq_drop_take {p : α → Bool} {k m : Nat}
    (h : ∀ (i : Nat) (hi : i < l.length), p l[i] = decide (k ≤ i ∧ i < m)) : l.filter p = (l.take m).drop k := by
  induction l generalizing k m with
  | nil => simp
  | cons a l ih =>
    have h0 := h 0 (by simp)
    have hl : l.filter p = (l.take (m - 1)).drop (k - 1) := by
      apply ih
      intro i hi
      have := h (i + 1) (by simpa using hi)
      rw [getElem_cons_succ] at this
      rw [this]
      apply decide_eq_decide.mpr
      omega
    rw [getElem_cons_zero] at h0
    rw [filter_cons, hl, h0]
    match k, m with
    | 0, 0 | 0, m + 1 | k + 1, 0 | k + 1, m + 1 => simp

theorem List.exists_mem_page_iff {x : α} {n : Nat} (hn : 0 < n) :
    (∃ page, 1 ≤ page ∧ x ∈ (l.drop ((page - 1) * n)).take n) ↔ x ∈ l := by
  constructor
  . rintro ⟨page, _, hx⟩
    exact mem_of_mem_drop (mem_of_mem_take hx)
  . intro hx
    rcases mem_iff_getElem.mp hx with ⟨i, hi, rfl⟩
    have hdiv : i / n * n + i % n = i := Nat.div_add_mod' i n
    have hmod : i % n < n := Nat.mod_lt i hn
    refine ⟨i / n + 1, Nat.le_add_left 1 _, ?_⟩
    rw [Nat.add_sub_cancel, mem_iff_getElem]
    refine ⟨i % n, ?_, ?_⟩
    . simp only [length_take, length_drop]
      omega
    . simp only [getElem_take, getElem_drop, hdiv]

/--
Rows with a unique `key`. The order of `rows` is the one an unordered `SELECT` happens to return.
-/
structure Table {ρ κ : Type} (key : ρ → κ) where
  rows : List ρ
  nodup : (rows.map key).Nodup

namespace Table

variable {ρ κ : Type} {key : ρ → κ}

def empty : Table key :=
  ⟨[], nodup_nil⟩

variable (t : Table key)

def find? [DecidableEq κ] (k : κ) : Option ρ :=
  t.rows.find? (fun r => key r = k)

def insert? [DecidableEq κ] (r : ρ) : Option (Table key) :=
  if h : key r ∈ t.rows.map key then
    none
  else
    some ⟨t.rows ++ [r], by
      rw [map_append, map_singleton]
      exact nodup_append_comm.mp (nodup_cons.mpr ⟨h, t.nodup⟩)⟩

def delete (p : ρ → Bool) : Table key :=
  ⟨t.rows.filter (fun r => !p r), t.nodup.sublist (filter_sublist.map key)⟩

def update (p : ρ → Bool) (f : ρ → ρ) (hf : ∀ r, key (f r) = key r) : Table key :=
  ⟨t.rows.map (fun r => if p r then f r else r), by
    have hkey : (key ∘ fun r => if p r then f r else r) = key := by
      funext r
      dsimp only [Function.comp]
      split
      . exact hf r
      . rfl
    rw [map_map, hkey]
    exact t.nodup⟩

def upsert [DecidableEq κ] (r : ρ) : Table key :=
  ⟨t.rows.filter (fun r' => key r' ≠ key r) ++ [r], by
    rw [map_append, map_singleton]
    apply nodup_append_comm.mp
    apply nodup_cons.mpr
    constructor
    . simp
    . exact t.nodup.sublist (filter_sublist.map key)⟩

def insertIgnore [DecidableEq κ] (rows : List ρ) : Table key :=
  rows.foldl (fun t r => (t.insert? r).getD t) t

@[simp]
theorem rows_empty : (empty : Table key).rows = [] := rfl

@[simp]
theorem rows_delete (p : ρ → Bool) : (t.delete p).rows = t.rows.filter (fun r => !p r) := rfl

@[simp]
theorem rows_update (p : ρ → Bool) (f : ρ → ρ) (hf : ∀ r, key (f r) = key r) :
    (t.update p f hf).rows = t.rows.map (fun r => if p r then f r else r) := rfl

@[simp]
theorem rows_upsert [DecidableEq κ] (r : ρ) :
    (t.upsert r).rows = t.rows.filter (fun r' => key r' ≠ key r) ++ [r] := rfl

variable {t t' : Table key} {p : ρ → Bool} {r r' : ρ} {k : κ} {rows : List ρ}

theorem eq_of_rows_eq (h : t.rows = t'.rows) : t = t' := by
  cases t
  cases t'
  cases h
  rfl

variable (t)

theorem update_eq_self {f : ρ → ρ} {hf : ∀ r, key (f r) = key r}
    (h : ∀ r ∈ t.rows, p r = false) : t.update p f hf = t := by
  apply eq_of_rows_eq
  conv => rhs; rw [← map_id t.rows]
  apply map_congr_left
  intro r hr
  rw [h r hr]
  rfl

theorem eq_of_key_eq (hr : r ∈ t.rows) (hr' : r' ∈ t.rows) (h : key r = key r') : r = r' :=
  inj_on_of_nodup_map t.nodup hr hr' h

theorem nodup_rows : t.rows.Nodup :=
  t.nodup.of_map key

theorem mem_update_of_key_ne {f : ρ → ρ} (hf : ∀ r, key (f r) = key r)
    (hp : ∀ r, p r = true → key r = k) (hne : key r ≠ k) : r ∈ (t.update p f hf).rows ↔ r ∈ t.rows := by
  rw [rows_update, mem_map]
  constructor
  . rintro ⟨r', hr', rfl⟩
    split at hne
    . next hpr =>
      rw [hf] at hne
      exact absurd (hp r' hpr) hne
    . next hpr =>
      rw [if_neg hpr]
      exact hr'
  . intro hr
    refine ⟨r, hr, if_neg ?_⟩
    intro hpr
    exact hne (hp r hpr)

variable [DecidableEq κ]

theorem find?_eq_some_iff : t.find? k = some r ↔ r ∈ t.rows ∧ key r = k := by
  constructor
  . intro h
    exact ⟨mem_of_find?_eq_some h, by simpa using List.find?_some h⟩
  . rintro ⟨hmem, hkey⟩
    cases hfind : t.find? k with
    | none =>
      have := List.find?_eq_none.mp hfind r hmem
      simp [hkey] at this
    | some r' =>
      have hmem' := mem_of_find?_eq_some hfind
      have hkey' : key r' = k := by simpa using List.find?_some hfind
      rw [t.eq_of_key_eq hmem' hmem (hkey'.trans hkey.symm)]

theorem find?_update (p : ρ → Bool) (f : ρ → ρ) (hf : ∀ r, key (f r) = key r) (k : κ) :
    (t.update p f hf).find? k = (t.find? k).map (fun r => if p r then f r else r) := by
  unfold find?
  rw [rows_update, List.find?_map]
  congr 2
  funext r
  dsimp only [Function.comp]
  split
  . rw [hf]
  . rfl

theorem insert?_eq_none_iff : t.insert? r = none ↔ key r ∈ t.rows.map key := by
  unfold insert?
  split <;> simp_all

variable {t}

section

variable (h : t.insert? r = some t')

include h

theorem rows_of_insert? : t'.rows = t.rows ++ [r] := by
  unfold insert? at h
  split at h
  . contradiction
  . cases h
    rfl

theorem mem_of_insert? : r' ∈ t'.rows ↔ r' = r ∨ r' ∈ t.rows := by
  rw [rows_of_insert? h, mem_append, mem_singleton, or_comm]

theorem key_ne_of_insert? (hr' : r' ∈ t.rows) : key r' ≠ key r := by
  intro heq
  have hnone : t.insert? r = none := t.insert?_eq_none_iff.mpr (heq ▸ mem_map_of_mem hr')
  rw [hnone] at h
  contradiction

theorem notMem_of_insert? : r ∉ t.rows := by
  intro hr
  exact key_ne_of_insert? h hr rfl

end

theorem insert?_delete_eq_some (h : (t.delete p).insert? r = some t') :
    (∀ r' ∈ t.rows, key r' = key r → p r' = true) ∧ ∀ r', r' ∈ t'.rows ↔ r' = r ∨ r' ∈ t.rows ∧ p r' = false := by
  constructor
  . intro r' hr' hkey
    by_contra hp
    have hstays : r' ∈ (t.delete p).rows := by
      simp [hr', Bool.eq_false_iff.mpr hp]
    exact key_ne_of_insert? h hstays hkey
  . intro r'
    simp [mem_of_insert? h]

theorem insert?_delete_eq_none (h : (t.delete p).insert? r = none) : ∃ r' ∈ t.rows, key r' = key r ∧ p r' = false := by
  rcases mem_map.mp ((t.delete p).insert?_eq_none_iff.mp h) with ⟨r', hr', hkey⟩
  simp only [rows_delete, mem_filter, Bool.not_eq_true'] at hr'
  exact ⟨r', hr'.1, hkey, hr'.2⟩

theorem insertIgnore_cons (t : Table key) (r : ρ) (rows : List ρ) :
    t.insertIgnore (r :: rows) = ((t.insert? r).getD t).insertIgnore rows := rfl

theorem insertIgnore_append (t : Table key) (rows rows' : List ρ) :
    t.insertIgnore (rows ++ rows') = (t.insertIgnore rows).insertIgnore rows' :=
  foldl_append

theorem mem_insertIgnore (t : Table key) :
    r ∈ (t.insertIgnore rows).rows
      ↔
    (t.rows ++ rows).find? (fun r' => key r' = key r) = some r := by
  induction rows generalizing t with
  | nil =>
    rw [append_nil]
    have hfind := t.find?_eq_some_iff (k := key r) (r := r)
    rw [find?] at hfind
    rw [hfind]
    simp [insertIgnore]
  | cons a rows ih =>
    rw [insertIgnore_cons, ih]
    cases hinsert : t.insert? a with
    | some =>
      rw [Option.getD_some, rows_of_insert? hinsert, append_assoc, singleton_append]
    | none =>
      -- the row that is in the way has the same key, so `a` is never the first one
      rcases mem_map.mp (t.insert?_eq_none_iff.mp hinsert) with ⟨b, hb, hkey⟩
      rw [Option.getD_none, List.find?_append, List.find?_append, List.find?_cons]
      split
      . next ha =>
        rw [decide_eq_true_eq] at ha
        have hsome : (t.rows.find? (fun r' => key r' = key r)).isSome = true := by
          rw [List.find?_isSome]
          exact ⟨b, hb, by rw [decide_eq_true_eq, hkey, ha]⟩
        rw [Option.or_of_isSome hsome, Option.or_of_isSome hsome]
      . rfl

theorem mem_insertIgnore_of_mem (t : Table key) (h : r ∈ t.rows) : r ∈ (t.insertIgnore rows).rows := by
  have hfind : t.rows.find? (fun r' => key r' = key r) = some r := t.find?_eq_some_iff.mpr ⟨h, rfl⟩
  rw [mem_insertIgnore, List.find?_append, hfind, Option.some_or]

theorem mem_or_mem_of_mem_insertIgnore (h : r ∈ (t.insertIgnore rows).rows) : r ∈ t.rows ∨ r ∈ rows := by
  rw [mem_insertIgnore] at h
  apply mem_append.mp (mem_of_find?_eq_some h)

theorem key_mem_insertIgnore (t : Table key) (h : r ∈ rows) : key r ∈ (t.insertIgnore rows).rows.map key := by
  have hsome : ((t.rows ++ rows).find? (fun r' => key r' = key r)).isSome = true := by
    rw [List.find?_isSome]
    exact ⟨r, mem_append_right _ h, by simp⟩
  rcases Option.isSome_iff_exists.mp hsome with ⟨r', hr'⟩
  have hkey : key r' = key r := by simpa using List.find?_some hr'
  rw [← hkey]
  apply mem_map_of_mem
  rw [mem_insertIgnore, hkey]
  exact hr'

theorem insertIgnore_eq_self (h : ∀ r ∈ rows, key r ∈ t.rows.map key) : t.insertIgnore rows = t := by
  induction rows with
  | nil => rfl
  | cons r rows ih =>
    rw [insertIgnore_cons, t.insert?_eq_none_iff.mpr (h r mem_cons_self), Option.getD_none]
    apply ih
    intro r' hr'
    apply h r' (mem_cons_of_mem _ hr')

theorem mem_upsert (t : Table key) : r' ∈ (t.upsert r).rows ↔ r' = r ∨ r' ∈ t.rows ∧ key r' ≠ key r := by
  simp [or_comm]

theorem find?_upsert_self (t : Table key) (r : ρ) : (t.upsert r).find? (key r) = some r := by
  rw [find?_eq_some_iff]
  simp

theorem find?_upsert_of_ne (t : Table key) (h : key r ≠ k) : (t.upsert r).find? k = t.find? k := by
  ext r'
  simp only [find?_eq_some_iff, mem_upsert]
  grind

def orderBy {ω : Type} [LinearOrder ω] (f : ρ → ω) (rows : List ρ) : List ρ :=
  rows.insertionSort (fun a b => f a ≤ f b)

def orderByDesc {ω : Type} [LinearOrder ω] (f : ρ → ω) (rows : List ρ) : List ρ :=
  rows.insertionSort (fun a b => f b ≤ f a)

section Order

variable {ω : Type} [LinearOrder ω] (f : ρ → ω)

theorem perm_orderBy (rows : List ρ) : (orderBy f rows).Perm rows :=
  perm_insertionSort _ _

variable {rows : List ρ} {r : ρ}

@[simp]
theorem mem_orderBy : r ∈ orderBy f rows ↔ r ∈ rows :=
  (perm_orderBy f rows).mem_iff

theorem pairwise_orderBy (rows : List ρ) : (orderBy f rows).Pairwise (fun a b => f a ≤ f b) := by
  have : Std.Total (fun a b : ρ => f a ≤ f b) := ⟨fun a b => le_total (f a) (f b)⟩
  have : IsTrans ρ (fun a b => f a ≤ f b) := ⟨fun _ _ _ => le_trans⟩
  exact pairwise_insertionSort _ _

theorem eq_of_pairwise_lt {l : List ρ} (hsorted : l.Pairwise (fun a b => f a < f b)) {a b : ρ}
    (ha : a ∈ l) (hb : b ∈ l) (h : f a = f b) : a = b := by
  apply inj_on_of_nodup_map _ ha hb h
  exact pairwise_map.mpr (hsorted.imp ne_of_lt)

theorem orderBy_eq_of_perm {l : List ρ} (hperm : rows.Perm l) (hsorted : l.Pairwise (fun a b => f a < f b)) :
    orderBy f rows = l := by
  have hle : l.Pairwise (fun a b => f a ≤ f b) := hsorted.imp le_of_lt
  apply List.Perm.eq_of_pairwise _ (pairwise_orderBy f rows) hle ((perm_orderBy f rows).trans hperm)
  intro a b ha hb hab hba
  have ha' : a ∈ l := hperm.mem_iff.mp ((mem_orderBy f).mp ha)
  exact eq_of_pairwise_lt f hsorted ha' hb (le_antisymm hab hba)

theorem pairwise_lt_orderBy (hnodup : rows.Nodup) (hinj : ∀ a ∈ rows, ∀ b ∈ rows, f a = f b → a = b) :
    (orderBy f rows).Pairwise (fun a b => f a < f b) := by
  have hnodup' : (orderBy f rows).Nodup := (perm_orderBy f rows).nodup_iff.mpr hnodup
  apply ((pairwise_orderBy f rows).and hnodup').imp_of_mem
  rintro a b ha hb ⟨hle, hne⟩
  apply lt_of_le_of_ne hle
  intro heq
  exact hne (hinj a ((mem_orderBy f).mp ha) b ((mem_orderBy f).mp hb) heq)

theorem orderBy_filter (hnodup : rows.Nodup) (hinj : ∀ a ∈ rows, ∀ b ∈ rows, f a = f b → a = b) (p : ρ → Bool) :
    orderBy f (rows.filter p) = (orderBy f rows).filter p := by
  apply orderBy_eq_of_perm
  . exact (perm_orderBy f rows).symm.filter p
  . exact (pairwise_lt_orderBy f hnodup hinj).filter p

theorem find?_orderBy_of_unique {p : ρ → Bool} (hr : r ∈ rows) (hp : p r = true)
    (hunique : ∀ r' ∈ rows, p r' = true → r' = r) : (orderBy f rows).find? p = some r := by
  cases hfind : (orderBy f rows).find? p with
  | none => exact absurd hp (List.find?_eq_none.mp hfind r ((mem_orderBy f).mpr hr))
  | some r' => rw [hunique r' ((mem_orderBy f).mp (mem_of_find?_eq_some hfind)) (List.find?_some hfind)]

theorem find?_orderBy_congr {rows' : List ρ} {p : ρ → Bool} (hnodup : rows.Nodup) (hnodup' : rows'.Nodup)
    (hinj : ∀ a ∈ rows, ∀ b ∈ rows, f a = f b → a = b) (hinj' : ∀ a ∈ rows', ∀ b ∈ rows', f a = f b → a = b)
    (h : ∀ r, p r = true → (r ∈ rows ↔ r ∈ rows')) : (orderBy f rows').find? p = (orderBy f rows).find? p := by
  have hperm : (rows'.filter p).Perm (rows.filter p) := by
    rw [perm_ext_iff_of_nodup (hnodup'.filter p) (hnodup.filter p)]
    intro r
    simp only [mem_filter]
    constructor
    . rintro ⟨hr, hp⟩
      exact ⟨(h r hp).mpr hr, hp⟩
    . rintro ⟨hr, hp⟩
      exact ⟨(h r hp).mp hr, hp⟩
  rw [← List.head?_filter, ← List.head?_filter, ← orderBy_filter f hnodup hinj, ← orderBy_filter f hnodup' hinj']
  congr 1
  apply orderBy_eq_of_perm f (hperm.trans (perm_orderBy f _).symm)
  apply pairwise_lt_orderBy f (hnodup.filter p)
  intro a ha b hb
  exact hinj a (mem_filter.mp ha).1 b (mem_filter.mp hb).1

theorem le_of_head?_orderByDesc {r' : ρ} (h : (orderByDesc f rows).head? = some r) (hmem : r' ∈ rows) : f r' ≤ f r := by
  have : Std.Total (fun a b : ρ => f b ≤ f a) := ⟨fun a b => le_total (f b) (f a)⟩
  have : IsTrans ρ (fun a b => f b ≤ f a) := ⟨fun _ _ _ h1 h2 => le_trans h2 h1⟩
  have hsorted := pairwise_insertionSort (fun a b : ρ => f b ≤ f a) rows
  have hmem' := (perm_insertionSort (fun a b : ρ => f b ≤ f a) rows).mem_iff.mpr hmem
  unfold orderByDesc at h
  generalize rows.insertionSort (fun a b => f b ≤ f a) = l at *
  cases l with
  | nil => contradiction
  | cons =>
    cases h
    rcases mem_cons.mp hmem' with rfl | hl
    . exact le_refl _
    . exact (pairwise_cons.mp hsorted).1 r' hl

theorem mem_of_head?_orderByDesc (h : (orderByDesc f rows).head? = some r) : r ∈ rows :=
  (perm_insertionSort _ rows).mem_iff.mp (mem_of_head? h)

theorem head?_orderByDesc_eq_none_iff : (orderByDesc f rows).head? = none ↔ rows = [] := by
  rw [List.head?_eq_none_iff]
  constructor
  . intro h
    have hperm := perm_insertionSort (fun a b => f b ≤ f a) rows
    unfold orderByDesc at h
    rw [h] at hperm
    exact hperm.nil_eq.symm
  . rintro rfl
    rfl

end Order

end Table
