import Mathlib.Tactic.Common

/-!
This module contains programs that talk to a shared state by commands. A command is atomic. Time may
pass before it, unless it was sent together with the one before. A program can be run on its own or as
one of several that take turns.
-/

/--
A program that ends with an `α`. The type `C β` is that of the commands that are answered with a `β`,
and the flag says whether time may pass before the command.
-/
inductive Prog (C : Type → Type) (α : Type) : Type 1
  | ret (a : α)
  | cmd {β : Type} (paused : Bool) (c : C β) (k : β → Prog C α)

namespace Prog

variable {C : Type → Type} {α β γ σ : Type}

def bind : Prog C α → (α → Prog C β) → Prog C β
  | .ret a, f => f a
  | .cmd paused c k, f => .cmd paused c (fun b => (k b).bind f)

instance : Monad (Prog C) where
  pure := .ret
  bind := .bind

def call (c : C β) : Prog C β := .cmd true c .ret

def pipe (c : C β) : Prog C β := .cmd false c .ret

theorem bind_def (p : Prog C α) (f : α → Prog C β) : p >>= f = p.bind f := by
  rfl

structure Semantics (C : Type → Type) (σ : Type) where
  step : {β : Type} → C β → σ → β × σ
  advance : Nat → σ → σ

def Semantics.run (sem : Semantics C σ) (paused : Bool) (delay : Nat) (c : C β) (s : σ) : β × σ :=
  sem.step c (if paused then sem.advance delay s else s)

variable (sem : Semantics C σ)

def exec : Prog C α → List Nat → σ → α × σ
  | .ret a, _, s => (a, s)
  | .cmd paused c k, delays, s =>
    let (b, s) := sem.run paused (delays.headD 0) c s
    exec (k b) delays.tail s

/--
The states from which a program ends as `Q` says, however much time passes in between.
-/
def wp : Prog C α → (α → σ → Prop) → σ → Prop
  | .ret a, Q, s => Q a s
  | .cmd paused c k, Q, s => ∀ delay,
    wp (k (sem.run paused delay c s).1) Q (sem.run paused delay c s).2

variable {sem} {p : Prog C α} {Q Q' : α → σ → Prop} {s : σ}

theorem exec_of_wp (h : p.wp sem Q s) (delays : List Nat) : Q (p.exec sem delays s).1 (p.exec sem delays s).2 := by
  induction p generalizing s delays with
  | ret => exact h
  | cmd paused c k ih => apply ih _ (h (delays.headD 0))

theorem wp_mono (h : p.wp sem Q s) (hQ : ∀ a s', Q a s' → Q' a s') : p.wp sem Q' s := by
  induction p generalizing s with
  | ret => apply hQ _ _ h
  | cmd paused c k ih =>
    intro delay
    apply ih _ (h delay)

@[simp]
theorem wp_pure {a : α} : (pure a : Prog C α).wp sem Q s ↔ Q a s := by
  rfl

@[simp]
theorem wp_call {c : C α} :
    (call c).wp sem Q s
      ↔
    ∀ delay, Q (sem.step c (sem.advance delay s)).1 (sem.step c (sem.advance delay s)).2 := by
  rfl

@[simp]
theorem wp_pipe {c : C α} : (pipe c).wp sem Q s ↔ Q (sem.step c s).1 (sem.step c s).2 := by
  constructor
  . intro h
    apply h 0
  . intro h _
    exact h

@[simp]
theorem wp_bind {f : α → Prog C β} {Q : β → σ → Prop} :
    (p >>= f).wp sem Q s ↔ p.wp sem (fun a s => (f a).wp sem Q s) s := by
  rw [bind_def]
  induction p generalizing s with
  | ret => rfl
  | cmd paused c k ih =>
    apply forall_congr'
    intro delay
    apply ih

theorem wp_forM {l : List γ} {f : γ → Prog C PUnit} {I : List γ → σ → Prop} (hinit : I l s)
    (hbody : ∀ x l s, I (x :: l) s → (f x).wp sem (fun _ s => I l s) s) :
    (forM l f).wp sem (fun _ s => I [] s) s := by
  induction l generalizing s with
  | nil => exact hinit
  | cons x l ih =>
    rw [List.forM_cons, wp_bind]
    apply wp_mono (hbody x l s hinit)
    intro _ s hs
    apply ih hs

/--
Every command of the program is a `P` and every outcome an `R`.
-/
def Always (P : {β : Type} → C β → Prop) (R : α → Prop) : Prog C α → Prop
  | .ret a => R a
  | .cmd _ c k => P c ∧ ∀ b, Always P R (k b)

/--
The program goes by `P` and `R` up to a command that is a `D`, and by `After` from there.
-/
def Until (P D : {β : Type} → C β → Prop) (R : α → Prop) (After : Prog C α → Prop) : Prog C α → Prop
  | .ret a => R a
  | .cmd _ c k => (D c ∧ ∀ b, After (k b)) ∨ (P c ∧ ∀ b, Until P D R After (k b))

section Text

variable {P D : {β : Type} → C β → Prop} {R R' : α → Prop} {S : β → Prop} {After : Prog C β → Prop} {f : α → Prog C β}

theorem Always.mono {P' : {β : Type} → C β → Prop} (h : p.Always P R) (hP : ∀ {β : Type} (c : C β), P c → P' c)
    (hR : ∀ a, R a → R' a) : p.Always P' R' := by
  induction p with
  | ret a => apply hR a h
  | cmd paused c k ih =>
    refine ⟨hP c h.1, ?_⟩
    intro b
    apply ih b (h.2 b)

theorem always_true (p : Prog C α) : p.Always (fun _ => True) (fun _ => True) := by
  induction p with
  | ret => trivial
  | cmd paused c k ih => exact ⟨trivial, ih⟩

@[simp]
theorem always_pure {a : α} : (pure a : Prog C α).Always P R ↔ R a := by
  rfl

@[simp]
theorem always_call {c : C α} : (call c).Always P R ↔ P c ∧ ∀ a, R a := by
  rfl

@[simp]
theorem always_pipe {c : C α} : (pipe c).Always P R ↔ P c ∧ ∀ a, R a := by
  rfl

@[simp]
theorem always_bind : (p >>= f).Always P S ↔ p.Always P (fun a => (f a).Always P S) := by
  rw [bind_def]
  induction p with
  | ret => rfl
  | cmd paused c k ih =>
    apply and_congr_right
    intro _
    apply forall_congr'
    intro b
    apply ih

theorem always_call_bind {c : C α} (hc : P c) (h : ∀ a, (f a).Always P S) : (call c >>= f).Always P S := by
  exact ⟨hc, h⟩

theorem always_forM {l : List γ} {g : γ → Prog C PUnit} (h : ∀ x, (g x).Always P (fun _ => True)) :
    (forM l g).Always P (fun _ => True) := by
  induction l with
  | nil => trivial
  | cons x l ih =>
    rw [List.forM_cons, always_bind]
    apply (h x).mono (fun _ hc => hc)
    intro _ _
    exact ih

theorem Always.wp {rel : σ → σ → Prop} (h : p.Always P R) (hrefl : ∀ s, rel s s)
    (htrans : ∀ s s' s'', rel s s' → rel s' s'' → rel s s'')
    (hrun : ∀ {β : Type} (c : C β) (paused : Bool) (delay : Nat) (s : σ), P c → rel s (sem.run paused delay c s).2)
    (s : σ) : p.wp sem (fun a s' => R a ∧ rel s s') s := by
  induction p generalizing s with
  | ret => exact ⟨h, hrefl s⟩
  | cmd paused c k ih =>
    intro delay
    apply wp_mono (ih _ (h.2 _) _)
    rintro a s' ⟨ha, hs'⟩
    exact ⟨ha, htrans _ _ _ (hrun c paused delay s h.1) hs'⟩

theorem until_bind (h : p.Always P (fun a => (f a).Until P D S After)) : (p >>= f).Until P D S After := by
  induction p with
  | ret => exact h
  | cmd paused c k ih =>
    right
    refine ⟨h.1, ?_⟩
    intro b
    apply ih b (h.2 b)

theorem Always.until {A : Prog C α → Prop} (h : p.Always P R) : p.Until P D R A := by
  induction p with
  | ret => exact h
  | cmd paused c k ih =>
    right
    refine ⟨h.1, ?_⟩
    intro b
    apply ih b (h.2 b)

theorem until_call {c : C α} (h : D c) (hf : ∀ a, After (f a)) : (call c >>= f).Until P D S After := by
  left
  exact ⟨h, hf⟩

theorem Until.bind {A : Prog C α → Prop} (h : p.Until P D R A) (hA : ∀ q, A q → After (q >>= f))
    (hf : ∀ a, R a → (f a).Until P D S After) : (p >>= f).Until P D S After := by
  induction p with
  | ret a => apply hf a h
  | cmd paused c k ih =>
    rcases h with ⟨hc, hk⟩ | ⟨hc, hk⟩
    . left
      refine ⟨hc, ?_⟩
      intro b
      apply hA _ (hk b)
    . right
      refine ⟨hc, ?_⟩
      intro b
      apply ih b (hk b)

end Text

variable (sem) in
/--
Between two commands the state moves along `rel` and stays within `I`. Then every command of the program meets
`G` in the state it is sent in, and the program ends as `Q` says.
-/
def Rely (I : σ → Prop) (rel : σ → σ → Prop) (G : {β : Type} → C β → σ → Prop) :
    Prog C α → (α → σ → Prop) → σ → Prop
  | .ret a, Q, s => ∀ s', rel s s' → I s' → Q a s'
  | .cmd paused c k, Q, s => ∀ s', rel s s' → I s' → G c s' ∧ ∀ delay,
    Rely I rel G (k (sem.run paused delay c s').1) Q (sem.run paused delay c s').2

section Rely

variable {I : σ → Prop} {rel : σ → σ → Prop} {G : {β : Type} → C β → σ → Prop} {s' : σ}

theorem Rely.later (htrans : ∀ {s s' s''}, rel s s' → rel s' s'' → rel s s'') (h : p.Rely sem I rel G Q s)
    (hrel : rel s s') : p.Rely sem I rel G Q s' := by
  cases p with
  | ret | cmd =>
    intro s'' hrel'
    apply h s'' (htrans hrel hrel')

theorem rely_of_forall (hrefl : ∀ s, rel s s) (h : ∀ s', rel s s' → I s' → p.Rely sem I rel G Q s') :
    p.Rely sem I rel G Q s := by
  cases p with
  | ret | cmd =>
    intro s' hrel hI
    apply h s' hrel hI s' (hrefl s') hI

theorem Rely.bind {f : α → Prog C β} {Q' : β → σ → Prop} (hrefl : ∀ s, rel s s)
    (h : p.Rely sem I rel G (fun a s => (f a).Rely sem I rel G Q' s) s) : (p >>= f).Rely sem I rel G Q' s := by
  induction p generalizing s with
  | ret => apply rely_of_forall hrefl h
  | cmd paused c k ih =>
    intro s' hrel hI
    rcases h s' hrel hI with ⟨hc, hk⟩
    refine ⟨hc, ?_⟩
    intro delay
    apply ih _ (hk delay)

theorem Rely.mono (h : p.Rely sem I rel G Q s) (hQ : ∀ a s', Q a s' → Q' a s') : p.Rely sem I rel G Q' s := by
  induction p generalizing s with
  | ret =>
    intro s' hrel hI
    apply hQ _ _ (h s' hrel hI)
  | cmd paused c k ih =>
    intro s' hrel hI
    rcases h s' hrel hI with ⟨hc, hk⟩
    refine ⟨hc, ?_⟩
    intro delay
    apply ih _ (hk delay)

theorem Rely.lasting (h : p.Rely sem I rel G Q s) (htrans : ∀ {s s' s''}, rel s s' → rel s' s'' → rel s s'') :
    p.Rely sem I rel G (fun a s => ∀ s', rel s s' → I s' → Q a s') s := by
  induction p generalizing s with
  | ret =>
    intro s' hrel _ s'' hrel'
    exact h s'' (htrans hrel hrel')
  | cmd paused c k ih =>
    intro s' hrel hI
    rcases h s' hrel hI with ⟨hc, hk⟩
    refine ⟨hc, ?_⟩
    intro delay
    exact ih _ (hk delay)

theorem rely_pure {a : α} (h : ∀ s', rel s s' → I s' → Q a s') : (pure a : Prog C α).Rely sem I rel G Q s := by
  exact h

theorem rely_call {c : C α} {f : α → Prog C β} {Q' : β → σ → Prop} (h : ∀ s', rel s s' → I s' → G c s' ∧ ∀ delay,
      (f (sem.step c (sem.advance delay s')).1).Rely sem I rel G Q' (sem.step c (sem.advance delay s')).2) :
    (call c >>= f).Rely sem I rel G Q' s := by
  exact h

end Rely

/--
The thread has a state of its own that moves along `N` with every command. If the answer to each command is an `R`, then
each command is a `G` when it is sent, and the program ends as `Q` says.
-/
def Meets {τ : Type} (N : {β : Type} → C β → τ → τ → Prop) (G : {β : Type} → C β → τ → Prop)
    (R : {β : Type} → C β → τ → β → Prop) : Prog C α → (α → τ → Prop) → τ → Prop
  | .ret a, Q, x => Q a x
  | .cmd _ c k, Q, x => ∀ x', N c x x' → G c x' ∧ ∀ b, R c x' b → Meets N G R (k b) Q x'

section Meets

variable {τ : Type} {N : {β : Type} → C β → τ → τ → Prop} {G : {β : Type} → C β → τ → Prop}
variable {R : {β : Type} → C β → τ → β → Prop} {x : τ}

theorem Meets.mono {Q Q' : α → τ → Prop} (h : p.Meets N G R Q x) (hQ : ∀ a x, Q a x → Q' a x) : p.Meets N G R Q' x := by
  induction p generalizing x with
  | ret a => exact hQ a x h
  | cmd paused c k ih =>
    intro x' hx'
    refine ⟨(h x' hx').1, ?_⟩
    intro b hb
    exact ih b ((h x' hx').2 b hb)

theorem Meets.bind {f : α → Prog C β} {Q : β → τ → Prop} (h : p.Meets N G R (fun a x => (f a).Meets N G R Q x) x) :
    (p >>= f).Meets N G R Q x := by
  induction p generalizing x with
  | ret => exact h
  | cmd paused c k ih =>
    intro x' hx'
    refine ⟨(h x' hx').1, ?_⟩
    intro b hb
    exact ih b ((h x' hx').2 b hb)

theorem meets_call {c : C α} {f : α → Prog C β} {Q : β → τ → Prop}
    (h : ∀ x', N c x x' → G c x' ∧ ∀ a, R c x' a → (f a).Meets N G R Q x') : (call c >>= f).Meets N G R Q x := h

theorem Always.meets {P : {β : Type} → C β → Prop} {S : α → Prop} (h : p.Always P S)
    (hP : ∀ {β : Type} (c : C β) (x : τ), P c → G c x) (x : τ) : p.Meets N G R (fun a _ => S a) x := by
  induction p generalizing x with
  | ret a => exact h
  | cmd paused c k ih =>
    intro x' _
    refine ⟨hP c x' h.1, ?_⟩
    intro b _
    exact ih b (h.2 b) x'

end Meets

end Prog

structure Pool (C : Type → Type) (α σ : Type) : Type 1 where
  shared : σ
  threads : List (Prog C α)

namespace Pool

variable {C : Type → Type} {α σ : Type} (sem : Prog.Semantics C σ)

def step (p : Pool C α σ) (turn : Nat × Nat) : Option (Pool C α σ) :=
  match p.threads[turn.1]? with
  | none | some (.ret _) => none
  | some (.cmd paused c k) =>
    let (b, shared) := sem.run paused turn.2 c p.shared
    some ⟨shared, p.threads.set turn.1 (k b)⟩

def result (p : Pool C α σ) (i : Nat) : Option α :=
  match p.threads[i]? with
  | some (.ret a) => some a
  | _ => none

variable {sem}

theorem step_eq_some {p p' : Pool C α σ} {turn : Nat × Nat} (h : p.step sem turn = some p') :
    ∃ (β : Type) (paused : Bool) (c : C β) (k : β → Prog C α),
      p.threads[turn.1]? = some (.cmd paused c k)
        ∧ p'.shared = (sem.run paused turn.2 c p.shared).2
        ∧ p'.threads.length = p.threads.length
        ∧ p'.threads[turn.1]? = some (k (sem.run paused turn.2 c p.shared).1)
        ∧ ∀ j, j ≠ turn.1 → p'.threads[j]? = p.threads[j]? := by
  unfold step at h
  split at h
  . contradiction
  . contradiction
  next paused c k hthread =>
  cases h
  have hlt := (List.getElem?_eq_some_iff.mp hthread).1
  refine ⟨_, paused, c, k, hthread, rfl, List.length_set, List.getElem?_set_self hlt, ?_⟩
  intro j hj
  apply List.getElem?_set_ne hj.symm

theorem thread_cases {p p' : Pool C α σ} {i j : Nat} {t u : Prog C α} (hself : p'.threads[i]? = some t)
    (hother : ∀ j, j ≠ i → p'.threads[j]? = p.threads[j]?) (hu : p'.threads[j]? = some u) :
    (j = i ∧ u = t) ∨ (j ≠ i ∧ p.threads[j]? = some u) := by
  by_cases hj : j = i
  . left
    rw [hj, hself] at hu
    exact ⟨hj, (Option.some.inj hu).symm⟩
  . right
    rw [hother j hj] at hu
    exact ⟨hj, hu⟩

theorem result_eq_some {p : Pool C α σ} {i : Nat} {a : α} (h : p.result i = some a) :
    p.threads[i]? = some (.ret a) := by
  unfold result at h
  split at h
  . next a' hthread =>
    cases h
    exact hthread
  . contradiction

theorem rely_step_each {I : σ → Prop} {rel : Nat → σ → σ → Prop} {G : Nat → {β : Type} → C β → σ → Prop}
    {Q : Nat → α → σ → Prop} {p p' : Pool C α σ} {turn : Nat × Nat} (hrefl : ∀ i s, rel i s s)
    (htrans : ∀ i {s s' s''}, rel i s s' → rel i s' s'' → rel i s s'') (hI : I p.shared)
    (hthreads : ∀ (i : Nat) (t : Prog C α), p.threads[i]? = some t → t.Rely sem I (rel i) (G i) (Q i) p.shared)
    (hrel : ∀ i, i ≠ turn.1 → rel i p.shared p'.shared) (hstep : p.step sem turn = some p') :
    ∀ (i : Nat) (t : Prog C α), p'.threads[i]? = some t → t.Rely sem I (rel i) (G i) (Q i) p'.shared := by
  rcases step_eq_some hstep with ⟨β, paused, c, k, hthread, hshared, _, hself, hother⟩
  intro i t ht
  rcases thread_cases hself hother ht with ⟨rfl, rfl⟩ | ⟨hi, ht⟩
  . rw [hshared]
    exact (hthreads _ _ hthread p.shared (hrefl _ _) hI).2 turn.2
  . exact (hthreads i t ht).later (htrans i) (hrel i hi)

theorem rely_step {I : σ → Prop} {rel : σ → σ → Prop} {G : {β : Type} → C β → σ → Prop} {Q : Nat → α → σ → Prop}
    {p p' : Pool C α σ} {turn : Nat × Nat} (hrefl : ∀ s, rel s s)
    (htrans : ∀ {s s' s''}, rel s s' → rel s' s'' → rel s s'') (hI : I p.shared)
    (hthreads : ∀ (i : Nat) (t : Prog C α), p.threads[i]? = some t → t.Rely sem I rel G (Q i) p.shared)
    (hrel : rel p.shared p'.shared) (hstep : p.step sem turn = some p') :
    ∀ (i : Nat) (t : Prog C α), p'.threads[i]? = some t → t.Rely sem I rel G (Q i) p'.shared :=
  @rely_step_each C α σ sem I (fun _ => rel) (fun _ => G) Q p p' turn (fun _ => hrefl) (fun _ => htrans) hI hthreads
    (fun _ _ => hrel) hstep

end Pool
