import Mathlib.Data.List.Induction

/-!
This module contains runs of a transition function, and the rule for their invariants.
-/

section

variable {σ α : Type*}

/--
The proposition `Run step allowed init acts s` means that `acts`, taken one after the other from `init`, end in `s`,
and that each of them was `allowed` in the state it was taken in. An action that is impossible in a
state makes `step` return `none`.
-/
inductive Run (step : σ → α → Option σ) (allowed : σ → α → Prop) (init : σ) : List α → σ → Prop
  | nil : Run step allowed init [] init
  | snoc {acts : List α} {s s' : σ} {a : α} (run : Run step allowed init acts s)
      (hallowed : allowed s a) (hstep : step s a = some s') : Run step allowed init (acts ++ [a]) s'

namespace Run

open List

variable {step : σ → α → Option σ} {allowed : σ → α → Prop} {init : σ} {acts : List α} {s : σ}

theorem invariant {I : σ → Prop} (hinit : I init) (hstep : ∀ s a s', I s → allowed s a → step s a = some s' → I s')
    (run : Run step allowed init acts s) : I s := by
  induction run with
  | nil => exact hinit
  | snoc _ hallowed hs ih => exact hstep _ _ _ ih hallowed hs

theorem invariant_acts {I : List α → σ → Prop} (hinit : I [] init)
    (hstep : ∀ acts s a s', I acts s → allowed s a → step s a = some s' → I (acts ++ [a]) s')
    (run : Run step allowed init acts s) : I acts s := by
  induction run with
  | nil => exact hinit
  | snoc _ hallowed hs ih => exact hstep _ _ _ _ ih hallowed hs

theorem origin {β : Type*} {M : σ → β → Prop} {B : σ → α → β → Prop} (hinit : ∀ x, ¬M init x)
    (hstep : ∀ s a s' x, step s a = some s' → M s' x → M s x ∨ B s a x) (run : Run step allowed init acts s) {x : β}
    (hx : M s x) : ∃ before a after s0, acts = before ++ a :: after ∧ Run step allowed init before s0 ∧ B s0 a x := by
  induction run with
  | nil => exact absurd hx (hinit x)
  | @snoc acts s s' a run _ hs ih =>
    rcases hstep s a s' x hs hx with hold | hnew
    . rcases ih hold with ⟨before, b, after, s0, rfl, run0, hb⟩
      exact ⟨before, b, after ++ [a], s0, by simp, run0, hb⟩
    . exact ⟨acts, a, [], s, rfl, run, hnew⟩

theorem mono {allowed' : σ → α → Prop} (h : ∀ s a, allowed s a → allowed' s a) (run : Run step allowed init acts s) :
    Run step allowed' init acts s := by
  induction run with
  | nil => exact .nil
  | snoc _ hallowed hs ih => exact ih.snoc (h _ _ hallowed) hs

theorem unique {s' : σ} (run : Run step allowed init acts s) (run' : Run step allowed init acts s') : s = s' := by
  induction run generalizing s' with
  | nil =>
    generalize hacts : ([] : List α) = acts at run'
    cases run' with
    | nil => rfl
    | snoc => simp at hacts
  | @snoc acts s0 s a run _ hs ih =>
    generalize hacts : acts ++ [a] = acts' at run'
    cases run' with
    | nil => simp at hacts
    | @snoc acts1 s1 _ a' run1 _ hs1 =>
      rcases append_inj' hacts rfl with ⟨rfl, ha⟩
      cases ha
      rw [← ih run1, hs] at hs1
      exact Option.some.inj hs1

variable (step allowed init) in
def Visits (acts : List α) (s : σ) : Prop :=
  ∃ before after, acts = before ++ after ∧ Run step allowed init before s

theorem visits_snoc {a : α} {s0 : σ} :
    Visits step allowed init (acts ++ [a]) s0
      ↔
    Visits step allowed init acts s0 ∨ Run step allowed init (acts ++ [a]) s0 := by
  constructor
  . rintro ⟨before, after, hacts, run⟩
    rcases eq_nil_or_concat after with rfl | ⟨after, a', rfl⟩
    . rw [append_nil] at hacts
      exact .inr (hacts ▸ run)
    . rw [concat_eq_append, ← append_assoc] at hacts
      exact .inl ⟨before, after, (append_inj' hacts rfl).1, run⟩
  . rintro (⟨before, after, rfl, run⟩ | run)
    . exact ⟨before, after ++ [a], by simp, run⟩
    . exact ⟨_, [], by simp, run⟩

theorem visits_nil {s0 : σ} : Visits step allowed init [] s0 ↔ s0 = init := by
  constructor
  . rintro ⟨before, after, hacts, run⟩
    rcases append_eq_nil_iff.mp hacts.symm with ⟨rfl, _⟩
    exact run.unique .nil
  . rintro rfl
    exact ⟨[], [], rfl, .nil⟩

def exec (step : σ → α → Option σ) (allowed : σ → α → Prop) [∀ s a, Decidable (allowed s a)] : σ → List α → Option σ
  | s, [] => some s
  | s, a :: acts =>
    if allowed s a then
      match step s a with
      | none => none
      | some s' => exec step allowed s' acts
    else
      none

variable [∀ s a, Decidable (allowed s a)]

theorem exec_append (s : σ) (acts acts' : List α) :
    exec step allowed s (acts ++ acts')
      =
    (exec step allowed s acts).bind (fun s' => exec step allowed s' acts') := by
  induction acts generalizing s with
  | nil => rfl
  | cons a acts ih =>
    simp only [cons_append, exec]
    split
    . cases step s a with
      | none => rfl
      | some s' => exact ih s'
    . rfl

theorem of_exec (h : exec step allowed init acts = some s) : Run step allowed init acts s := by
  induction acts using List.reverseRecOn generalizing s with
  | nil =>
    cases h
    exact .nil
  | append_singleton acts a ih =>
    rw [exec_append, Option.bind_eq_some_iff] at h
    rcases h with ⟨s', hs', h⟩
    simp only [exec] at h
    split at h
    . next hallowed =>
      cases hstep : step s' a with
      | none => simp [hstep] at h
      | some =>
        simp only [hstep, Option.some.injEq] at h
        subst h
        exact (ih hs').snoc hallowed hstep
    . contradiction

theorem of_isSome (h : (exec step allowed init acts).isSome = true) :
    Run step allowed init acts ((exec step allowed init acts).get h) :=
  of_exec (Option.some_get h).symm

omit [∀ s a, Decidable (allowed s a)] in
theorem free (run : Run step allowed init acts s) : Run step (fun _ _ => True) init acts s :=
  run.mono (fun _ _ _ => trivial)

end Run

end
