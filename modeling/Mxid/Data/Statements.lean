import Mxid.Data.Prog
import Mxid.Data.Run

/-!
This module contains commands that may fail, and the rule for an invariant that all commands keep.
-/

structure Faulty (σ : Type) where
  data : σ
  fails : Bool

def attempt {α σ : Type} (s : σ) (done refused : α) : Option σ → α × σ
  | some s' => (done, s')
  | none => (refused, s)

theorem attempt_snd {α σ : Type} {s : σ} {done refused : α} {result : Option σ} :
    (attempt s done refused result).2 = result.getD s := by
  cases result <;> rfl

section

variable {C : Type → Type} {α β σ : Type} (exec : {β : Type} → C β → σ → β × σ) (failed : {β : Type} → C β → β)

namespace Prog

open Semantics

/--
A command that fails leaves the state alone. The number before a command is not a time here: zero means that the
command goes well.
-/
def Semantics.faulty : Semantics C (Faulty σ) where
  step c s := if s.fails then (failed c, s) else ((exec c s.data).1, ⟨(exec c s.data).2, s.fails⟩)
  advance n s := ⟨s.data, n ≠ 0⟩

variable {exec failed} {c : C β} {s : Faulty σ}

theorem Semantics.faulty_step :
    (faulty exec failed).step c s
      =
    if s.fails then (failed c, s) else ((exec c s.data).1, ⟨(exec c s.data).2, s.fails⟩) := rfl

theorem Semantics.faulty_advance {n : Nat} : (faulty exec failed).advance n s = ⟨s.data, decide (n ≠ 0)⟩ := rfl

theorem Semantics.faulty_run {s : σ} {paused fails : Bool} {n : Nat} :
    (faulty exec failed).run paused n c ⟨s, fails⟩
      =
    if (if paused then decide (n ≠ 0) else fails) then
      (failed c, ⟨s, true⟩)
    else
      ((exec c s).1, ⟨(exec c s).2, false⟩) := by
  unfold run
  cases paused with
  | true =>
    simp only [if_true, faulty_advance]
    cases decide (n ≠ 0) <;> rfl
  | false =>
    cases fails <;> rfl

/--
If the answer to each command is an `R`, then each command is a `P` and the outcome an `S`.
-/
def Sends (R : {β : Type} → C β → β → Prop) (P : {β : Type} → C β → Prop) (S : α → Prop) : Prog C α → Prop
  | .ret a => S a
  | .cmd _ c k => P c ∧ ∀ b, R c b → Sends R P S (k b)

section Sends

variable {R : {β : Type} → C β → β → Prop} {P P' : {β : Type} → C β → Prop} {S S' : α → Prop} {T : β → Prop}

theorem sends_pure {a : α} (h : S a) : (pure a : Prog C α).Sends R P S := h

theorem sends_call {c : C β} {f : β → Prog C α} (hc : P c) (hf : ∀ b, R c b → (f b).Sends R P S) :
    (call c >>= f).Sends R P S :=
  ⟨hc, hf⟩

theorem Sends.bind {p : Prog C β} {f : β → Prog C α} (hp : p.Sends R P T) (hf : ∀ b, (f b).Sends R P S) :
    (p >>= f).Sends R P S := by
  induction p with
  | ret b => exact hf b
  | cmd paused c k ih =>
    refine ⟨hp.1, ?_⟩
    intro b hb
    exact ih b (hp.2 b hb)

theorem Always.sends {p : Prog C α} (h : p.Always P S) (hP : ∀ {β : Type} (c : C β), P c → P' c) : p.Sends R P' S := by
  induction p with
  | ret => exact h
  | cmd paused c k ih => exact ⟨hP c h.1, fun b _ => ih b (h.2 b)⟩

theorem Sends.mono {p : Prog C α} (h : p.Sends R P S) (hP : ∀ {β : Type} (c : C β), P c → P' c)
    (hS : ∀ a, S a → S' a) : p.Sends R P' S' := by
  induction p with
  | ret a => exact hS a h
  | cmd paused c k ih =>
    refine ⟨hP c h.1, ?_⟩
    intro b hb
    exact ih b (h.2 b hb)

section

variable (hreply : ∀ {β : Type} (c : C β) s, R c (exec c s).1) (hfailed : ∀ {β : Type} (c : C β), R c (failed c))

include hreply hfailed

theorem Semantics.reply_run (paused : Bool) (n : Nat) (s : Faulty σ) :
    R c ((faulty exec failed).run paused n c s).1 := by
  rw [faulty_run]
  cases (if paused = true then decide (n ≠ 0) else s.fails) with
  | true => exact hfailed c
  | false => exact hreply c s.data

theorem Sends.outcome {p : Prog C α} (h : p.Sends R P S) (failures : List Nat) (s : Faulty σ) :
    S (p.exec (.faulty exec failed) failures s).1 := by
  induction p generalizing failures s with
  | ret => exact h
  | cmd paused c k ih => exact ih _ (h.2 _ (reply_run hreply hfailed paused _ s)) _ _

end

end Sends

def Leads (Q : {β : Type} → C β → β → α → Prop) : Prog C α → Prop
  | .ret _ => True
  | .cmd _ c k => ∀ b, (k b).Always (fun _ => True) (Q c b) ∧ Leads Q (k b)

section Leads

variable {Q : {β : Type} → C β → β → α → Prop}

theorem leads_pure {a : α} : (pure a : Prog C α).Leads Q := by
  trivial

theorem leads_call {c : C β} {f : β → Prog C α} (hc : ∀ b, (f b).Always (fun _ => True) (Q c b))
    (hf : ∀ b, (f b).Leads Q) : (call c >>= f).Leads Q :=
  fun b => ⟨hc b, hf b⟩

theorem leads_bind {p : Prog C β} {f : β → Prog C α}
    (hp : p.Leads (fun c b a => (f a).Always (fun _ => True) (Q c b))) (hf : ∀ a, (f a).Leads Q) :
    (p >>= f).Leads Q := by
  induction p with
  | ret a => exact hf a
  | cmd paused c k ih =>
    intro b
    refine ⟨?_, ih b (hp b).2⟩
    have halways := always_bind.mpr (hp b).1
    exact halways

theorem Always.leads {R : α → Prop} {p : Prog C α} (h : p.Always (fun _ => True) R)
    (hQ : ∀ {β : Type} (c : C β) (b : β) (a : α), R a → Q c b a) : p.Leads Q := by
  induction p with
  | ret => trivial
  | cmd paused c k ih =>
    intro b
    exact ⟨(h.2 b).mono (fun _ h => h) (hQ c b), ih b (h.2 b)⟩

end Leads

theorem exec_call_of_eq_zero {f : β → Prog C α} {failures : List Nat} (h : failures.headD 0 = 0) :
    (call c >>= f).exec (faulty exec failed) failures s
      =
    (f (exec c s.data).1).exec (faulty exec failed) failures.tail ⟨(exec c s.data).2, false⟩ := by
  have hrun : (faulty exec failed).run true (failures.headD 0) c s
      = ((exec c s.data).1, ⟨(exec c s.data).2, false⟩) := by
    rw [h]
    rfl
  show ((fun r => Prog.exec (faulty exec failed) ((Prog.ret r.1).bind f) failures.tail r.2)
    ((faulty exec failed).run true (failures.headD 0) c s)) = _
  rw [hrun]
  rfl

theorem exec_call_of_ne_zero {f : β → Prog C α} {failures : List Nat} (h : failures.headD 0 ≠ 0) :
    (call c >>= f).exec (faulty exec failed) failures s
      =
    (f (failed c)).exec (faulty exec failed) failures.tail ⟨s.data, true⟩ := by
  have hrun : (faulty exec failed).run true (failures.headD 0) c s = (failed c, ⟨s.data, true⟩) := by
    generalize failures.headD 0 = n at h
    simp [run, faulty_advance, faulty_step, h]
  show ((fun r => Prog.exec (faulty exec failed) ((Prog.ret r.1).bind f) failures.tail r.2)
    ((faulty exec failed).run true (failures.headD 0) c s)) = _
  rw [hrun]
  rfl

theorem Always.wp_of_query {p : Prog C α} {Q : α → Faulty σ → Prop} {P : {β : Type} → C β → Prop}
    (h : p.Always P (fun _ => True)) (hquery : ∀ {β : Type} (c : C β) (s : σ), P c → (exec c s).2 = s)
    (hQ : ∀ a fails, Q a ⟨s.data, fails⟩) : p.wp (faulty exec failed) Q s := by
  have hsame : p.wp (faulty exec failed) (fun _ s' => True ∧ s'.data = s.data) s := by
    refine @Always.wp _ _ _ (.faulty exec failed) _ _ _ (fun s s' => s'.data = s.data) h (fun _ => rfl)
      (fun _ _ _ h1 h2 => h2.trans h1) ?_ s
    intro β c paused delay s hc
    unfold run
    rw [faulty_step]
    have hdata : (if paused = true then (faulty exec failed).advance delay s else s).data = s.data := by
      split <;> rfl
    generalize (if paused = true then (faulty exec failed).advance delay s else s) = s' at hdata
    split
    . exact hdata
    . rw [← hdata]
      exact hquery c s'.data hc
  apply wp_mono hsame
  rintro a ⟨data, fails⟩ ⟨_, rfl⟩
  exact hQ a fails

variable (exec failed) in
inductive Alike (rel : σ → σ → Prop) : Prog C α → Prog C α → σ → σ → Prop
  | ret {a : α} {s s' : σ} (h : rel s s') : Alike rel (.ret a) (.ret a) s s'
  | cmd {β : Type} {paused : Bool} {c : C β} {k k' : β → Prog C α} {s s' : σ}
      (hfailed : Alike rel (k (failed c)) (k' (failed c)) s s')
      (hexec : Alike rel (k (exec c s).1) (k' (exec c s').1) (exec c s).2 (exec c s').2) :
      Alike rel (.cmd paused c k) (.cmd paused c k') s s'

section Alike

variable {rel rel' : σ → σ → Prop} {s s' : σ}

theorem alike_pure {a : α} (h : rel s s') : Alike exec failed rel (pure a : Prog C α) (pure a) s s' := .ret h

theorem alike_call {c : C β} {f f' : β → Prog C α} (hfailed : Alike exec failed rel (f (failed c)) (f' (failed c)) s s')
    (hexec : Alike exec failed rel (f (exec c s).1) (f' (exec c s').1) (exec c s).2 (exec c s').2) :
    Alike exec failed rel (call c >>= f) (call c >>= f') s s' :=
  .cmd hfailed hexec

theorem Alike.bind {p p' : Prog C β} {f : β → Prog C α} (h : Alike exec failed rel p p' s s')
    (hf : ∀ b s s', rel s s' → Alike exec failed rel' (f b) (f b) s s') :
    Alike exec failed rel' (p >>= f) (p' >>= f) s s' := by
  induction h with
  | ret h => exact hf _ _ _ h
  | cmd _ _ ih1 ih2 => exact .cmd ih1 ih2

theorem Alike.exec_eq {p p' : Prog C α} (h : Alike exec failed rel p p' s s') (failures : List Nat) (fails : Bool) :
    (p'.exec (.faulty exec failed) failures ⟨s', fails⟩).1 = (p.exec (.faulty exec failed) failures ⟨s, fails⟩).1
      ∧ rel (p.exec (.faulty exec failed) failures ⟨s, fails⟩).2.data
          (p'.exec (.faulty exec failed) failures ⟨s', fails⟩).2.data := by
  induction h generalizing failures fails with
  | ret h => exact ⟨rfl, h⟩
  | @cmd β paused c k k' s s' _ _ ih1 ih2 =>
    simp only [Prog.exec, faulty_run]
    -- a command fails on both sides or on neither
    cases (if paused = true then decide (failures.headD 0 ≠ 0) else fails) with
    | true => exact ih1 failures.tail true
    | false => exact ih2 failures.tail false

end Alike

section Rely

variable {rel : σ → σ → Prop} {G : {β : Type} → C β → σ → Prop}

variable (exec failed rel G) in
abbrev Minds (p : Prog C α) (s : Faulty σ) : Prop :=
  p.Rely (.faulty exec failed) (fun _ => True) (fun s s' => rel s.data s'.data) (fun c s => G c s.data)
    (fun _ _ => True) s

theorem minds_pure {a : α} {s : Faulty σ} : Minds exec failed rel G (pure a : Prog C α) s :=
  rely_pure (fun _ _ _ => trivial)

theorem Sends.minds {R : {β : Type} → C β → β → Prop} {P : {β : Type} → C β → Prop} {S : α → Prop} {p : Prog C α}
    (h : p.Sends R P S) (hreply : ∀ {β : Type} (c : C β) s, R c (exec c s).1)
    (hfailed : ∀ {β : Type} (c : C β), R c (failed c)) (hG : ∀ {β : Type} (c : C β) s, P c → G c s) (s : Faulty σ) :
    Minds exec failed rel G p s := by
  induction p generalizing s with
  | ret => exact minds_pure
  | cmd paused c k ih =>
    rintro ⟨s', fails⟩ _ _
    refine ⟨hG c s' h.1, ?_⟩
    intro delay
    exact ih _ (h.2 _ (reply_run hreply hfailed paused delay _)) _

end Rely

end Prog

namespace Pool

def executes (g : {β : Type} → C β → σ → Bool) (p : Pool C α (Faulty σ)) (turn : Nat × Nat) : Bool :=
  match p.threads[turn.1]? with
  | some (.cmd paused c _) => (if paused then turn.2 ≠ 0 else p.shared.fails) || g c p.shared.data
  | _ => true

variable {p : Pool C α (Faulty σ)} {exec failed} {g : {β : Type} → C β → σ → Bool} {P : {β : Type} → C β → Prop}

variable {p' : Pool C α (Faulty σ)}

theorem step_faulty {turn : Nat × Nat}
    (hstep : p.step (.faulty exec failed) turn = some p') (hg : p.executes g turn = true) :
    ∃ (β : Type) (paused : Bool) (c : C β) (k : β → Prog C α), p.threads[turn.1]? = some (.cmd paused c k)
      ∧ (∀ j, j ≠ turn.1 → p'.threads[j]? = p.threads[j]?)
      ∧ ((p'.shared.data = p.shared.data ∧ p'.threads[turn.1]? = some (k (failed c)))
        ∨ (g c p.shared.data = true ∧ p'.shared.data = (exec c p.shared.data).2
          ∧ p'.threads[turn.1]? = some (k (exec c p.shared.data).1))) := by
  rcases step_eq_some hstep with ⟨β, paused, c, k, hthread, hshared, _, hself, hother⟩
  refine ⟨β, paused, c, k, hthread, hother, ?_⟩
  unfold executes at hg
  rw [hthread] at hg
  rw [hshared, hself]
  -- whether it fails is decided by the turn, or by what was left over from the command before
  cases paused with
  | true =>
    simp only [Prog.Semantics.run, if_true, Prog.Semantics.faulty_advance, Prog.Semantics.faulty_step]
    by_cases hfails : turn.2 = 0
    . simp only [hfails, if_true, ne_eq, not_true_eq_false, decide_false, Bool.false_or] at hg
      right
      simp [hfails, hg]
    . left
      simp [hfails]
  | false =>
    simp only [Prog.Semantics.run, Bool.false_eq_true, if_false, Prog.Semantics.faulty_step]
    cases hfails : p.shared.fails with
    | false =>
      right
      simp only [Bool.false_eq_true, if_false, hfails, Bool.false_or] at hg
      simp [hg]
    | true =>
      left
      simp

section

variable {sem : Prog.Semantics C σ} {p p' : Pool C α σ} {turns : List (Nat × Nat)} {i : Nat}
variable {allowed : Pool C α σ → Nat × Nat → Prop}

theorem threads_run {T : Prog C α → Prop}
    (hT : ∀ {β : Type} (paused : Bool) (c : C β) (k : β → Prog C α), T (.cmd paused c k) → ∀ b, T (k b))
    (hthread : ∀ t, p.threads[i]? = some t → T t) (hrun : Run (step sem) allowed p turns p') :
    ∀ t, p'.threads[i]? = some t → T t := by
  apply hrun.invariant (I := fun p => ∀ t, p.threads[i]? = some t → T t) hthread
  intro s turn s' h _ hstep
  rcases step_eq_some hstep with ⟨β, paused, c, k, hturn, _, _, hself, hother⟩
  intro t ht
  rcases thread_cases hself hother ht with ⟨rfl, rfl⟩ | ⟨_, ht⟩
  . exact hT paused c k (h _ hturn) _
  . exact h t ht

theorem outcome_of_leads {Q : {β : Type} → C β → β → α → Prop} {t : Prog C α} {delay : Nat} {a : α}
    (hthread : p.threads[i]? = some t) (hleads : t.Leads Q) (hstep : p.step sem (i, delay) = some p')
    {p'' : Pool C α σ} (hrun : Run (step sem) allowed p' turns p'') (hresult : p''.result i = some a) :
    ∃ (β : Type) (paused : Bool) (c : C β), p'.shared = (sem.run paused delay c p.shared).2
      ∧ Q c (sem.run paused delay c p.shared).1 a := by
  rcases step_eq_some hstep with ⟨β, paused, c, k, hturn, hshared, _, hself, _⟩
  refine ⟨β, paused, c, hshared, ?_⟩
  rw [hthread] at hturn
  cases hturn
  have hrest : ∀ t, p'.threads[i]? = some t → t.Always (fun _ => True) (Q c (sem.run paused delay c p.shared).1) := by
    intro t ht
    rw [hself] at ht
    cases ht
    exact (hleads _).1
  exact threads_run (fun _ _ _ h b => h.2 b) hrest hrun _ (result_eq_some hresult)

end

section

variable {p p' : Pool C α (Faulty σ)} {turn : Nat × Nat} {turns : List (Nat × Nat)} {i : Nat}
variable {allowed : Pool C α (Faulty σ) → Nat × Nat → Prop}

theorem result_of_leads {Q : {β : Type} → C β → β → α → Prop} {t : Prog C α} {delay : Nat} {a : α}
    (hthread : p.threads[i]? = some t) (hleads : t.Leads Q) (hstep : p.step (.faulty exec failed) (i, delay) = some p')
    {p'' : Pool C α (Faulty σ)} (hrun : Run (step (.faulty exec failed)) allowed p' turns p'')
    (hresult : p''.result i = some a) :
    p'.shared.data = p.shared.data
      ∨ ∃ (β : Type) (c : C β), p'.shared.data = (exec c p.shared.data).2 ∧ Q c (exec c p.shared.data).1 a := by
  rcases outcome_of_leads hthread hleads hstep hrun hresult with ⟨β, paused, c, hshared, hQ⟩
  rw [Prog.Semantics.faulty_run] at hshared hQ
  -- whether it fails is decided by the turn, or by what was left over from the command before
  generalize (if paused = true then decide (delay ≠ 0) else p.shared.fails) = fails at hshared hQ
  cases fails with
  | true =>
    rw [hshared]
    exact Or.inl rfl
  | false =>
    rw [hshared]
    exact Or.inr ⟨β, c, rfl, hQ⟩

end

theorem invariant_minds {I : σ → Prop} {r : σ → σ → Prop} {G : {β : Type} → C β → σ → Prop}
    {turns : List (Nat × Nat)} (hrefl : ∀ s, r s s) (htrans : ∀ {s s' s''}, r s s' → r s' s'' → r s s'')
    (hrel : ∀ {β : Type} (c : C β) (s : σ), r s (exec c s).2)
    (hexec : ∀ {β : Type} (c : C β) (s : σ), I s → G c s → g c s = true → I (exec c s).2) (hI : I p.shared.data)
    (hthreads : ∀ (i : Nat) (t : Prog C α), p.threads[i]? = some t → t.Minds exec failed r G p.shared)
    (hrun : Run (step (.faulty exec failed)) (fun p turn => p.executes g turn = true) p turns p') :
    I p'.shared.data := by
  suffices h : I p'.shared.data
      ∧ ∀ (i : Nat) (t : Prog C α), p'.threads[i]? = some t → t.Minds exec failed r G p'.shared from h.1
  apply hrun.invariant (I := fun p => I p.shared.data
    ∧ ∀ (i : Nat) (t : Prog C α), p.threads[i]? = some t → t.Minds exec failed r G p.shared) ⟨hI, hthreads⟩
  rintro s turn s' ⟨hI, hthreads⟩ hg hstep
  rcases step_faulty hstep hg with ⟨β, paused, c, k, hthread, _, hturn⟩
  have hmoves : r s.shared.data s'.shared.data := by
    rcases hturn with ⟨hdata, _⟩ | ⟨_, hdata, _⟩
    . rw [hdata]
      apply hrefl
    . rw [hdata]
      apply hrel
  refine ⟨?_, rely_step (fun s => hrefl s.data) htrans trivial hthreads hmoves hstep⟩
  rcases hturn with ⟨hdata, _⟩ | ⟨hgc, hdata, _⟩
  . rw [hdata]
    exact hI
  . rw [hdata]
    exact hexec c _ hI (hthreads _ _ hthread s.shared (hrefl _) trivial).1 hgc

section

variable {R : {β : Type} → C β → β → Prop} {S : α → Prop} {p p' : Pool C α (Faulty σ)}
variable (hreply : ∀ {β : Type} (c : C β) s, R c (exec c s).1) (hfailed : ∀ {β : Type} (c : C β), R c (failed c))

include hreply hfailed

theorem sends_run {turns : List (Nat × Nat)} {allowed : Pool C α (Faulty σ) → Nat × Nat → Prop}
    (hthreads : ∀ (i : Nat) (t : Prog C α), p.threads[i]? = some t → t.Sends R P S)
    (hrun : Run (step (.faulty exec failed)) allowed p turns p') :
    ∀ (i : Nat) (t : Prog C α), p'.threads[i]? = some t → t.Sends R P S := by
  refine hrun.invariant (I := fun p => ∀ (i : Nat) (t : Prog C α), p.threads[i]? = some t → t.Sends R P S) hthreads ?_
  intro p turn p' hthreads _ hstep
  rcases step_eq_some hstep with ⟨β, paused, c, k, hthread, _, _, hself, hother⟩
  intro i t ht
  rcases thread_cases hself hother ht with ⟨rfl, rfl⟩ | ⟨_, ht⟩
  . exact (hthreads _ _ hthread).2 _ (Prog.Semantics.reply_run hreply hfailed paused turn.2 _)
  . exact hthreads i t ht

theorem invariant_sends {I : σ → Prop} {turns : List (Nat × Nat)}
    (hexec : ∀ {β : Type} (c : C β) (s : σ), I s → P c → g c s = true → I (exec c s).2)
    (hI : I p.shared.data) (hthreads : ∀ (i : Nat) (t : Prog C α), p.threads[i]? = some t → t.Sends R P S)
    (hrun : Run (step (.faulty exec failed)) (fun p turn => p.executes g turn = true) p turns p') :
    I p'.shared.data := by
  apply invariant_minds (r := fun _ _ => True) (G := fun c _ => P c) (fun _ => trivial) (fun _ _ => trivial)
    (fun _ _ => trivial) hexec hI _ hrun
  intro i t ht
  exact (hthreads i t ht).minds hreply hfailed (fun _ _ hc => hc) _

end

theorem invariant_executed {I : σ → Prop} {turns : List (Nat × Nat)}
    (hexec : ∀ {β : Type} (c : C β) (s : σ), I s → g c s = true → I (exec c s).2) (hI : I p.shared.data)
    (hrun : Run (step (.faulty exec failed)) (fun p turn => p.executes g turn = true) p turns p') :
    I p'.shared.data := by
  apply invariant_sends (R := fun _ _ => True) (P := fun _ => True) (S := fun _ => True) (fun _ _ => trivial)
    (fun _ => trivial) (fun c s hI _ => hexec c s hI) hI _ hrun
  intro _ t _
  exact (Prog.always_true t).sends (fun _ _ => trivial)

end Pool

end
