import Mxid.Group.Impl.OrgSync

namespace Mxid.Group

open List Resyncs

namespace Resyncs

variable {s s' : Resyncs} {a : ResyncAction} {tenantID : Int}

def Own (s : Resyncs) : Prop :=
  ∀ tenantID i, s.resyncTimers tenantID = some i → ∃ pending, s.timers[i]? = some (tenantID, pending)

def Owed (tenantID : Int) (s : Resyncs) : Prop :=
  (tenantID, true) ∈ s.timers ∨ (tenantID, .fired) ∈ s.callbacks ∨ (tenantID, .unlocked) ∈ s.callbacks

theorem mem_set_of_ne {α : Type} {l : List α} {i : Nat} {a b c : α} (hb : b ∈ l) (hi : l[i]? = some c) (hne : b ≠ c) :
    b ∈ l.set i a := by
  rcases mem_iff_getElem?.mp hb with ⟨j, hj⟩
  have hij : i ≠ j := by
    rintro rfl
    rw [hi] at hj
    exact hne (Option.some.inj hj).symm
  exact mem_iff_getElem?.mpr ⟨j, by rw [List.getElem?_set_ne hij, hj]⟩

theorem mem_set_self {α : Type} {l : List α} {i : Nat} {a c : α} (hi : l[i]? = some c) : a ∈ l.set i a := by
  rcases List.getElem?_eq_some_iff.mp hi with ⟨hlt, _⟩
  exact mem_iff_getElem?.mpr ⟨i, List.getElem?_set_self hlt⟩

theorem Own.step (h : s.Own) (hstep : s.step a = some s') : s'.Own := by
  cases a with
  | scheduleResync tenantID =>
    unfold step at hstep
    dsimp only at hstep
    split at hstep
    . next i hi =>
      cases hstep
      intro t j hj
      rcases h t j hj with ⟨pending, hp⟩
      simp only [List.getElem?_modify, hp]
      split
      . exact ⟨true, rfl⟩
      . exact ⟨pending, rfl⟩
    . cases hstep
      intro t j hj
      dsimp only at hj ⊢
      by_cases heq : t = tenantID
      . subst heq
        rw [Function.update_self] at hj
        cases hj
        exact ⟨true, by simp⟩
      . rw [Function.update_of_ne heq] at hj
        rcases h t j hj with ⟨pending, hp⟩
        exact ⟨pending, by rw [List.getElem?_append_left (List.getElem?_eq_some_iff.mp hp).1, hp]⟩
  | expire i =>
    unfold step at hstep
    dsimp only at hstep
    split at hstep
    . next tenantID hi =>
      cases hstep
      intro t j hj
      rcases h t j hj with ⟨pending, hp⟩
      by_cases heq : i = j
      . subst heq
        rw [hi] at hp
        cases hp
        exact ⟨false, List.getElem?_set_self (List.getElem?_eq_some_iff.mp hi).1⟩
      . exact ⟨pending, by rw [List.getElem?_set_ne heq, hp]⟩
    . contradiction
  | proceed i =>
    unfold step at hstep
    dsimp only at hstep
    split at hstep
    . next tenantID _ =>
      cases hstep
      intro t j hj
      dsimp only at hj
      by_cases heq : t = tenantID
      . rw [heq, Function.update_self] at hj
        contradiction
      . rw [Function.update_of_ne heq] at hj
        exact h t j hj
    . cases hstep
      exact h
    . cases hstep
      exact h
    . contradiction

theorem owed_of_schedule (h : s.Own) (hstep : s.step (.scheduleResync tenantID) = some s') : Owed tenantID s' := by
  unfold step at hstep
  dsimp only at hstep
  split at hstep
  . next i hi =>
    cases hstep
    rcases h tenantID i hi with ⟨pending, hp⟩
    exact .inl (mem_iff_getElem?.mpr ⟨i, by simp [hp]⟩)
  . cases hstep
    exact .inl (by simp)

theorem Owed.step (h : Owed tenantID s) (hstep : s.step a = some s') :
    Owed tenantID s' ∨ s'.started = s.started ++ [tenantID] := by
  cases a with
  | scheduleResync tenantID' =>
    left
    unfold step at hstep
    dsimp only at hstep
    split at hstep
    . next i hi =>
      cases hstep
      refine h.imp_left ?_
      intro hmem
      rcases mem_iff_getElem?.mp hmem with ⟨j, hj⟩
      refine mem_iff_getElem?.mpr ⟨j, ?_⟩
      rw [List.getElem?_modify, hj]
      split <;> rfl
    . cases hstep
      exact h.imp_left (fun hmem => mem_append_left _ hmem)
  | expire i =>
    left
    unfold step at hstep
    dsimp only at hstep
    split at hstep
    . next tenantID' hi =>
      cases hstep
      rcases h with hmem | hmem
      . by_cases heq : tenantID = tenantID'
        . exact .inr (.inl (by simp [heq]))
        . exact .inl (mem_set_of_ne hmem hi (by simp [heq]))
      . exact .inr (hmem.imp (mem_append_left _) (mem_append_left _))
    . contradiction
  | proceed i =>
    unfold step at hstep
    dsimp only at hstep
    split at hstep
    . next tenantID' hi =>
      cases hstep
      left
      rcases h with hmem | hmem | hmem
      . exact .inl hmem
      . by_cases heq : tenantID = tenantID'
        . exact .inr (.inr (heq ▸ mem_set_self hi))
        . exact .inr (.inl (mem_set_of_ne hmem hi (by simp [heq])))
      . exact .inr (.inr (mem_set_of_ne hmem hi (by simp)))
    . next tenantID' hi =>
      cases hstep
      by_cases heq : tenantID = tenantID'
      . exact .inr (by rw [heq])
      left
      exact h.imp_right (Or.imp (fun hmem => mem_set_of_ne hmem hi (by simp))
        (fun hmem => mem_set_of_ne hmem hi (by simp [heq])))
    . next hi =>
      cases hstep
      left
      exact h.imp_right (Or.imp (fun hmem => mem_set_of_ne hmem hi (by simp))
        (fun hmem => mem_set_of_ne hmem hi (by simp)))
    . contradiction

theorem started_step (hstep : s.step a = some s') : ∃ later, s'.started = s.started ++ later := by
  cases a with
  | scheduleResync =>
    unfold step at hstep
    dsimp only at hstep
    split at hstep <;> cases hstep <;> exact ⟨[], by simp⟩
  | expire =>
    unfold step at hstep
    dsimp only at hstep
    split at hstep <;> cases hstep
    exact ⟨[], by simp⟩
  | proceed =>
    unfold step at hstep
    dsimp only at hstep
    split at hstep <;> cases hstep
    . exact ⟨[], by simp⟩
    . exact ⟨_, rfl⟩
    . exact ⟨[], by simp⟩

/--
Once no timer of the tenant is pending and no callback for it is under way, a synchronization of the tenant has started
after every call for it.
-/
theorem scheduled_resync_started (before after : List ResyncAction) (s₀ s₁ s : Resyncs) (tenantID : Int)
    (hbefore : Run step (fun _ _ => True) empty before s₀) (hcall : s₀.step (.scheduleResync tenantID) = some s₁)
    (hafter : Run step (fun _ _ => True) s₁ after s) (htimers : (tenantID, true) ∉ s.timers)
    (hcallbacks : ∀ c ∈ s.callbacks, c.1 = tenantID → c.2 = .returned) :
    ∃ later, s.started = s₁.started ++ later ∧ tenantID ∈ later := by
  have hown : s₀.Own := hbefore.invariant (I := Own) (by simp [Own, empty]) (fun _ _ _ h _ => h.step)
  have hinv : ∃ later, s.started = s₁.started ++ later ∧ (tenantID ∈ later ∨ Owed tenantID s) := by
    refine hafter.invariant
      (I := fun s => ∃ later, s.started = s₁.started ++ later ∧ (tenantID ∈ later ∨ Owed tenantID s))
      ⟨[], by simp, .inr (owed_of_schedule hown hcall)⟩ ?_
    rintro s a s' ⟨later, hstarted, h⟩ _ hstep
    rcases h with hmem | howed
    . rcases started_step hstep with ⟨more, hmore⟩
      exact ⟨later ++ more, by rw [hmore, hstarted, append_assoc], .inl (mem_append_left _ hmem)⟩
    . rcases howed.step hstep with hnext | hnow
      . rcases started_step hstep with ⟨more, hmore⟩
        exact ⟨later ++ more, by rw [hmore, hstarted, append_assoc], .inr hnext⟩
      . exact ⟨later ++ [tenantID], by rw [hnow, hstarted, append_assoc], .inl (by simp)⟩
  rcases hinv with ⟨later, hstarted, hmem | hmem | hmem | hmem⟩
  . exact ⟨later, hstarted, hmem⟩
  . exact absurd hmem htimers
  . exact absurd (hcallbacks _ hmem rfl) (by simp)
  . exact absurd (hcallbacks _ hmem rfl) (by simp)

theorem resync_after_reset :
    ∃ s₀ s₁ s, Run step (fun _ _ => True) empty [.scheduleResync 1, .expire 0] s₀
      ∧ s₀.step (.scheduleResync 1) = some s₁
      ∧ Run step (fun _ _ => True) s₁
          [.proceed 0, .proceed 0, .proceed 0, .expire 0, .proceed 1, .proceed 1, .proceed 1] s
      ∧ ∃ later, s.started = s₁.started ++ later ∧ 1 ∈ later := by
  refine ⟨_, _, _, Run.of_exec rfl, rfl, Run.of_exec rfl, ?_⟩
  apply scheduled_resync_started [.scheduleResync 1, .expire 0]
    [.proceed 0, .proceed 0, .proceed 0, .expire 0, .proceed 1, .proceed 1, .proceed 1] _ _ _ 1
    (Run.of_exec rfl) rfl (Run.of_exec rfl)
  . decide
  . decide

end Resyncs

end Mxid.Group
