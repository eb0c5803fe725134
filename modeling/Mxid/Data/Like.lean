import Mathlib.Data.List.Infix

/-!
This module contains the `LIKE` operator of SQL: a pattern is a text in which `%` stands for any text,
`_` for any character, and a backslash for the character after it.
-/

namespace Like

inductive Token where
  | many
  | one
  | char (c : Char)

def token (c : Char) : Token :=
  if c = '%' then .many else if c = '_' then .one else .char c

def tokens : List Char → List Token
  | [] => []
  | [c] => [token c]
  | c :: d :: p => if c = '\\' then .char d :: tokens p else token c :: tokens (d :: p)

def accepts : List Token → List Char → Bool
  | [], t => t.isEmpty
  | .many :: p, t => t.tails.any (accepts p)
  | .one :: _, [] => false
  | .one :: p, _ :: t => accepts p t
  | .char _ :: _, [] => false
  | .char c :: p, d :: t => c = d && accepts p t

end Like

def like (pattern text : List Char) : Bool :=
  Like.accepts (Like.tokens pattern) text

namespace Like

open List

variable {p q t : List Char}

theorem tokens_eq_map (h : '\\' ∉ p) : tokens p = p.map token := by
  fun_induction tokens p with
  | case1 | case2 => rfl
  | case3 => simp at h
  | case4 c d p hc ih =>
    rw [map_cons, ih (fun hmem => h (mem_cons_of_mem _ hmem))]

theorem accepts_many (t : List Char) : accepts [.many] t = true := by
  simp only [accepts, any_eq_true]
  exact ⟨[], by simp, rfl⟩

theorem accepts_map_append {rest : List Token} (p : List Char) (h : accepts rest t = true) :
    accepts (p.map token ++ rest) (p ++ t) = true := by
  induction p with
  | nil => exact h
  | cons c p ih =>
    simp only [map_cons, cons_append]
    have hc : token c = .many ∨ token c = .one ∨ token c = .char c := by
      unfold token
      split
      . simp
      . split <;> simp
    rcases hc with hc | hc | hc
    . simp only [hc, accepts, any_eq_true]
      exact ⟨p ++ t, by simp, ih⟩
    . simp only [hc, accepts, ih]
    . simp only [hc, accepts, ih, decide_true, Bool.and_self]

theorem exists_of_accepts {rest : List Token} (hmany : '%' ∉ p) (h : accepts (p.map token ++ rest) t = true) :
    ∃ a b, t = a ++ b ∧ a.length = p.length ∧ accepts rest b = true := by
  induction p generalizing t with
  | nil => exact ⟨[], t, rfl, rfl, h⟩
  | cons c p ih =>
    rw [mem_cons, not_or] at hmany
    have hc : token c = .one ∨ token c = .char c := by
      unfold token
      rw [if_neg (Ne.symm hmany.1)]
      split <;> simp
    cases t with
    | nil => rcases hc with hc | hc <;> simp [hc, accepts] at h
    | cons d t =>
      have htail : accepts (p.map token ++ rest) t = true := by
        rcases hc with hc | hc <;> simp_all [accepts]
      rcases ih hmany.2 htail with ⟨a, b, rfl, hlength, hb⟩
      exact ⟨d :: a, b, rfl, congrArg (· + 1) hlength, hb⟩

theorem token_eq_char {c : Char} (hmany : c ≠ '%') (hone : c ≠ '_') : token c = .char c := by
  unfold token
  rw [if_neg hmany, if_neg hone]

theorem accepts_char_append_iff {rest : List Token} :
    accepts (p.map .char ++ rest) t = true ↔ ∃ t', t = p ++ t' ∧ accepts rest t' = true := by
  induction p generalizing t with
  | nil => simp
  | cons c p ih =>
    cases t with
    | nil => simp [accepts]
    | cons =>
      simp only [map_cons, cons_append, accepts, Bool.and_eq_true, decide_eq_true_eq, ih, List.cons.injEq]
      constructor
      . rintro ⟨rfl, t', rfl, hrest⟩
        exact ⟨t', ⟨rfl, rfl⟩, hrest⟩
      . rintro ⟨t', ⟨rfl, rfl⟩, hrest⟩
        exact ⟨rfl, t', rfl, hrest⟩

theorem accepts_char_many_iff : accepts (p.map .char ++ [.many]) t = true ↔ p <+: t := by
  rw [accepts_char_append_iff]
  constructor
  . rintro ⟨t', rfl, _⟩
    exact prefix_append p t'
  . rintro ⟨t', rfl⟩
    exact ⟨t', rfl, accepts_many t'⟩

theorem accepts_char_iff : accepts (p.map .char) t = true ↔ t = p := by
  rw [← append_nil (p.map Token.char), accepts_char_append_iff]
  simp [accepts]

theorem accepts_many_cons_iff {rest : List Token} :
    accepts (.many :: rest) t = true ↔ ∃ t', t' <:+ t ∧ accepts rest t' = true := by
  simp only [accepts, any_eq_true, mem_tails]

theorem tokens_cons {c : Char} (h : c ≠ '\\') : tokens (c :: p) = token c :: tokens p := by
  cases p with
  | nil => rfl
  | cons => simp only [tokens, if_neg h]

theorem tokens_append_many (h : '\\' ∉ p) : tokens (p ++ ['%']) = p.map token ++ [.many] := by
  rw [tokens_eq_map (by simp [h]), map_append]
  rfl

theorem like_of_starts (h : '\\' ∉ p) (hstarts : p <+: t) : like (p ++ ['%']) t = true := by
  rcases hstarts with ⟨t', rfl⟩
  unfold like
  rw [tokens_append_many h]
  exact accepts_map_append p (accepts_many t')

theorem like_iff_starts (h : '\\' ∉ p) (hmany : '%' ∉ p) (hone : '_' ∉ p) : like (p ++ ['%']) t = true ↔ p <+: t := by
  constructor
  . intro hlike
    unfold like at hlike
    have hchars : p.map token = p.map .char :=
      map_congr_left (fun c hc => token_eq_char (ne_of_mem_of_not_mem hc hmany) (ne_of_mem_of_not_mem hc hone))
    rw [tokens_append_many h, hchars] at hlike
    exact accepts_char_many_iff.mp hlike
  . exact like_of_starts h

end Like
