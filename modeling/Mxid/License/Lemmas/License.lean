import Mxid.Data.Run
import Mxid.License.Impl.License

namespace Mxid.License

variable {env : Env}

def Payload.InForce (p : Payload) (now : Int) : Prop := p.expiresAt = 0 ∨ now ≤ p.expiresAt

def Manager.InForce (m : Manager) (now : Int) : Prop := m.valid = true → ∃ p, m.payload = some p ∧ p.InForce now

theorem inForce_of_verifyWith {token : String} {now : Int} {p : Payload} (h : verifyWith env token now = .ok p) :
    p.InForce now := by
  unfold verifyWith at h
  cases hopen : env.openToken token with
  | error => simp [hopen, bind, Except.bind] at h
  | ok p' =>
    simp only [hopen, bind, Except.bind] at h
    split at h
    . contradiction
    split at h
    . contradiction
    split at h
    . contradiction
    next hexpired =>
    cases h
    unfold Payload.InForce
    omega

theorem inForce_load (token : String) (now : Int) : (load env token now).InForce now := by
  unfold load
  dsimp only
  split
  . intro hvalid
    contradiction
  . split
    . intro hvalid
      contradiction
    . next p hp => exact fun _ => ⟨p, rfl, inForce_of_verifyWith hp⟩

def Op.loads : Op → Bool
  | .reloadLicense _ => true
  | .putLicense _ _ setOk => setOk
  | _ => false

/--
The license is loaded again before anything else is done past its expiry.
-/
def Pod.timely (s : Pod) : Nat × Op → Prop
  | (secs, op) => op.loads = true ∨ ∀ p, s.current.payload = some p → p.InForce (s.now + secs)

theorem granted_in_force {s₀ s : Pod} {acts : List (Nat × Op)} {f : Feature} (hboot : s₀.current = {})
    (hrun : Run (Pod.step env) Pod.timely s₀ acts s) (hf : s.current.has f = true) :
    ∃ p, s.current.payload = some p ∧ (p.expiresAt = 0 ∨ s.now ≤ p.expiresAt) := by
  have hinv : s.current.InForce s.now := by
    refine hrun.invariant (I := fun s => s.current.InForce s.now) ?_ ?_
    . rw [hboot]
      intro hvalid
      contradiction
    . rintro s ⟨secs, op⟩ s' h htimely hstep
      cases hstep
      have hload : op.loads = true ∨ s.current.InForce (s.now + secs) := by
        refine htimely.imp_right ?_
        intro hforce hvalid
        rcases h hvalid with ⟨p, hp, _⟩
        exact ⟨p, hp, hforce p hp⟩
      cases op with
      | idle | store => exact hload.resolve_left Bool.false_ne_true
      | reloadLicense => exact inForce_load _ _
      | putLicense key readOk setOk =>
        cases setOk with
        | true => exact inForce_load _ _
        | false => exact hload.resolve_left Bool.false_ne_true
  exact hinv (Bool.and_eq_true_iff.mp hf).1

/-!
The license of `yearly` expires at time 100.
-/

def yearly : Env := ⟨fun _ => .ok ⟨"mxid", 100, ""⟩, "", id⟩

def acme : Pod := { now := 50, key := "token" }

theorem expired_license_grants :
    ∃ s, Run (Pod.step yearly) (fun _ _ => True) acme [(0, .reloadLicense true), (100, .idle)] s
      ∧ s.now = 150 ∧ s.current.has .scim = true ∧ s.current.payload.map Payload.expiresAt = some 100 :=
  ⟨_, Run.of_exec rfl, by decide⟩

theorem granted_in_force_acme :
    ∃ s : Pod, s.now = 90 ∧ s.current.has .scim = true
      ∧ ∃ p, s.current.payload = some p ∧ (p.expiresAt = 0 ∨ s.now ≤ p.expiresAt) := by
  have hrun : Run (Pod.step yearly) Pod.timely acme [(0, .reloadLicense true), (40, .idle)] _ :=
    (Run.nil.snoc (.inl rfl) rfl).snoc (.inr (by rintro p ⟨⟩; exact .inr (by decide))) rfl
  exact ⟨_, rfl, rfl, granted_in_force rfl hrun (f := .scim) rfl⟩

end Mxid.License
