import Mxid.App.Impl.Service

namespace Mxid.App

open List Store Cmd

variable {s : Store} {scope : Scope} {β : Type}

namespace Store

theorem credentials_eq_some {a : App} {x : String × String} :
    credentials a = some x ↔ a.clientID = some x.1 ∧ a.clientSecret = some x.2 := by
  unfold credentials
  rcases x with ⟨clientID, hash⟩
  split
  . next hid hhash => simp [hid, hhash]
  next hnone =>
  simp only [reduceCtorEq, false_iff, not_and]
  intro hid hhash
  exact hnone _ _ hid hhash

structure Valid (s : Store) : Prop where
  unique : ∀ a ∈ s.apps.rows, ∀ a' ∈ s.apps.rows, ∀ clientID, a.clientID = some clientID →
    a'.clientID = some clientID → a = a'
  issued : ∀ a ∈ s.apps.rows, ∀ hash, a.clientSecret = some hash → hash ∈ s.issued
  retired_issued : ∀ x ∈ s.retired, x.2 ∈ s.issued
  current : ∀ a ∈ s.apps.rows, ∀ x, credentials a = some x → x ∉ s.retired

section

variable (h : s.Valid)

include h

theorem Valid.of_forall_exists {apps : Table App.id}
    (hold : ∀ a ∈ apps.rows, ∃ a0 ∈ s.apps.rows, a.id = a0.id ∧ a.clientID = a0.clientID
      ∧ a.clientSecret = a0.clientSecret) : Valid { s with apps } where
  unique a ha a' ha' clientID hid hid' := by
    rcases hold a ha with ⟨a0, ha0, hkey, hclient, _⟩
    rcases hold a' ha' with ⟨a1, ha1, hkey', hclient', _⟩
    rw [hclient] at hid
    rw [hclient'] at hid'
    have hsame := h.unique a0 ha0 a1 ha1 clientID hid hid'
    apply apps.eq_of_key_eq ha ha'
    rw [hkey, hkey', hsame]
  issued a ha hash hhash := by
    rcases hold a ha with ⟨a0, ha0, _, _, hsecret⟩
    exact h.issued a0 ha0 hash (hsecret ▸ hhash)
  retired_issued := h.retired_issued
  current a ha x hx := by
    rcases hold a ha with ⟨a0, ha0, _, hclient, hsecret⟩
    apply h.current a0 ha0
    rw [credentials_eq_some] at hx ⊢
    rw [← hclient, ← hsecret]
    exact hx

theorem Valid.update {f : App → App} {id : Int} (hf : ∀ a, (f a).id = a.id)
    (hclient : ∀ a, (f a).clientID = a.clientID) (hsecret : ∀ a, (f a).clientSecret = a.clientSecret) :
    Valid { s with apps := s.apps.update (concerns scope id) f hf } := by
  apply h.of_forall_exists
  intro a ha
  rw [Table.rows_update, mem_map] at ha
  rcases ha with ⟨a0, ha0, rfl⟩
  refine ⟨a0, ha0, ?_⟩
  split
  . exact ⟨hf a0, hclient a0, hsecret a0⟩
  . exact ⟨rfl, rfl, rfl⟩

variable {s' : Store}

theorem Valid.put {a : App}
    (hrows : ∀ a' ∈ s'.apps.rows, a' = a ∨ (a' ∈ s.apps.rows ∧ a'.id ≠ a.id)) (htaken : s.taken a = false)
    (hissued : ∀ hash ∈ s.issued, hash ∈ s'.issued) (hsecret : ∀ hash, a.clientSecret = some hash → hash ∈ s'.issued)
    (hretired : ∀ x ∈ s'.retired, x.2 ∈ s'.issued) (hnew : ∀ x, credentials a = some x → x ∉ s'.retired)
    (hothers : ∀ a' ∈ s.apps.rows, a'.id ≠ a.id → ∀ x, credentials a' = some x → x ∉ s'.retired) : s'.Valid := by
  -- the index has looked at every other row
  have hclient : ∀ a' ∈ s.apps.rows, a'.id ≠ a.id → ∀ clientID, a.clientID = some clientID →
      a'.clientID ≠ some clientID := by
    intro a' ha' hne clientID hid hid'
    have hnot := any_eq_false.mp htaken a' ha'
    simp [hne, hid, hid'] at hnot
  constructor
  . intro a1 ha1 a2 ha2 clientID hid1 hid2
    rcases hrows a1 ha1 with rfl | ⟨hold1, hne1⟩
    . rcases hrows a2 ha2 with rfl | ⟨hold2, hne2⟩
      . rfl
      . exact absurd hid2 (hclient a2 hold2 hne2 clientID hid1)
    . rcases hrows a2 ha2 with rfl | ⟨hold2, hne2⟩
      . exact absurd hid1 (hclient a1 hold1 hne1 clientID hid2)
      . exact h.unique a1 hold1 a2 hold2 clientID hid1 hid2
  . intro a' ha' hash hhash
    rcases hrows a' ha' with rfl | ⟨hold, _⟩
    . exact hsecret hash hhash
    . exact hissued hash (h.issued a' hold hash hhash)
  . exact hretired
  intro a' ha'
  rcases hrows a' ha' with rfl | ⟨hold, hne⟩
  . exact hnew
  . exact hothers a' hold hne

theorem Valid.create {a : App} (hfresh : (Cmd.create a).generates s = true)
    (hcreate : s.create a = some s') : s'.Valid := by
  unfold Store.create at hcreate
  split at hcreate
  . contradiction
  next hlegal =>
  split at hcreate
  . contradiction
  next apps hinsert =>
  cases hcreate
  have htaken : s.taken a = false := by
    simp only [illegal, Bool.or_eq_true, not_or, Bool.not_eq_true] at hlegal
    exact hlegal.1
  apply h.put _ htaken
  . intro hash hhash
    exact mem_append_right _ hhash
  . intro hash hhash
    simp [hhash]
  . intro x hx
    exact mem_append_right _ (h.retired_issued x hx)
  . intro x hx hmem
    have hsecret := (credentials_eq_some.mp hx).2
    simp only [Cmd.generates, hsecret, Option.all_some, decide_eq_true_eq] at hfresh
    exact hfresh (h.retired_issued x hmem)
  . intro a' ha' _
    exact h.current a' ha'
  . intro a' ha'
    rcases (Table.mem_of_insert? hinsert).mp ha' with rfl | hold
    . left
      rfl
    . right
      exact ⟨hold, Table.key_ne_of_insert? hinsert hold⟩

theorem Valid.saveUpdate {base : App} {req : UpdateAppRequest}
    (hsame : (Cmd.save scope base (.update req)).savesSecret s = true) (hsave : s.save base (.update req) = some s') :
    s'.Valid := by
  unfold save at hsave
  dsimp only at hsave
  split at hsave
  . contradiction
  next hlegal =>
  cases hsave
  have htaken : s.taken (Edit.apply base (.update req)) = false := by
    simp only [illegal, Bool.or_eq_true, not_or, Bool.not_eq_true] at hlegal
    exact hlegal.1
  unfold savesSecret at hsame
  rcases (Option.any_eq_true _ _).mp hsame with ⟨a0, hfind, hcols⟩
  have ha0 := (s.apps.find?_eq_some_iff.mp hfind).1
  simp only [Bool.and_eq_true, decide_eq_true_eq] at hcols
  rcases hcols with ⟨hclient, hsecret⟩
  apply h.put _ htaken
  . intro hash hhash
    exact hhash
  . intro hash hhash
    exact h.issued a0 ha0 hash (hsecret.trans hhash)
  . exact h.retired_issued
  . intro x hx
    apply h.current a0 ha0
    rw [credentials_eq_some] at hx ⊢
    rw [hclient, hsecret]
    exact hx
  . intro a' ha' _
    exact h.current a' ha'
  . intro a' ha'
    exact s.apps.mem_upsert.mp ha'

theorem Valid.saveRotate {base : App} {hash : String}
    (hfresh : (Cmd.save scope base (.rotate hash)).generates s = true) (hsave : s.save base (.rotate hash) = some s') :
    s'.Valid := by
  unfold save at hsave
  dsimp only at hsave
  split at hsave
  . contradiction
  next hlegal =>
  cases hsave
  have htaken : s.taken (Edit.apply base (.rotate hash)) = false := by
    simp only [illegal, Bool.or_eq_true, not_or, Bool.not_eq_true] at hlegal
    exact hlegal.1
  have hnew : hash ∉ s.issued := of_decide_eq_true hfresh
  -- what is replaced was there
  have hreplaced : ∀ x, x ∈ ((s.apps.find? base.id).bind credentials).toList →
      ∃ a0 ∈ s.apps.rows, a0.id = base.id ∧ credentials a0 = some x := by
    intro x hx
    rcases Option.bind_eq_some_iff.mp (Option.mem_toList.mp hx) with ⟨a0, hfind, hcred⟩
    rcases s.apps.find?_eq_some_iff.mp hfind with ⟨ha0, hid⟩
    exact ⟨a0, ha0, hid, hcred⟩
  have hretired : ∀ x ∈ ((s.apps.find? base.id).bind credentials).toList ++ s.retired, x.2 ∈ s.issued := by
    intro x hx
    rcases mem_append.mp hx with hx | hx
    . rcases hreplaced x hx with ⟨a0, ha0, _, hcred⟩
      exact h.issued a0 ha0 x.2 (credentials_eq_some.mp hcred).2
    . exact h.retired_issued x hx
  apply h.put _ htaken
  . intro hash' hhash'
    exact mem_cons_of_mem _ hhash'
  . intro hash' hhash'
    cases hhash'
    exact mem_cons_self
  . intro x hx
    exact mem_cons_of_mem _ (hretired x hx)
  . intro x hx hmem
    have hsecret : some hash = some x.2 := (credentials_eq_some.mp hx).2
    cases hsecret
    exact hnew (hretired x hmem)
  . intro a' ha' hne x hx hmem
    rcases mem_append.mp hmem with hmem | hmem
    . rcases hreplaced x hmem with ⟨a0, ha0, hid, hcred⟩
      have hsame := h.unique a' ha' a0 ha0 x.1 (credentials_eq_some.mp hx).1 (credentials_eq_some.mp hcred).1
      apply hne
      rw [hsame, hid, Edit.id_apply]
    . exact h.current a' ha' x hx hmem
  . intro a' ha'
    exact s.apps.mem_upsert.mp ha'

theorem Valid.getD {result : Option Store} (hresult : ∀ s', result = some s' → s'.Valid) : (result.getD s).Valid := by
  cases result with
  | none => exact h
  | some s' => exact hresult s' rfl

theorem Valid.exec {c : Cmd β} (hc : (c.generates s && c.savesSecret s) = true) : (exec c s).2.Valid := by
  rw [Bool.and_eq_true] at hc
  rcases hc with ⟨hfresh, hsame⟩
  cases c with
  | create =>
    simp only [exec, attempt_snd]
    exact h.getD (fun _ => h.create hfresh)
  | save scope base edit =>
    simp only [exec]
    split
    . rw [attempt_snd]
      cases edit with
      | update => exact h.getD (fun _ => h.saveUpdate hsame)
      | rotate => exact h.getD (fun _ => h.saveRotate hfresh)
    . exact h
  | updateStatus scope id status =>
    simp only [exec, Scope.tell_snd]
    split
    . exact h.update (id_setStatus status) (fun _ => rfl) (fun _ => rfl)
    . exact h
  | updateProtocolConfig scope id config =>
    simp only [exec, Scope.tell_snd]
    split
    . exact h.update (id_setProtocolConfig config) (fun _ => rfl) (fun _ => rfl)
    . exact h
  | delete =>
    simp only [exec, Scope.tell_snd]
    split
    . apply h.of_forall_exists
      intro a ha
      exact ⟨a, (mem_filter.mp ha).1, rfl, rfl, rfl⟩
    . exact h
  | getByID | getByCode | generateKey | revokeTokens => exact h

end

end Store

theorem retired_secret_refused (check : String → String → Bool) {s₀ : Store} {calls : List Call}
    {turns : List (Nat × Nat)} {p : Clients} (hinit : s₀.Valid)
    (hrun : Run Clients.step (fun p turn => p.executes (fun c s => c.generates s && c.savesSecret s) turn = true)
      (.start s₀ calls) turns p)
    {clientID hash secret : String} (hretired : (clientID, hash) ∈ p.shared.data.retired)
    (hsecret : check secret hash = true)
    (hcheck : ∀ hash₁ ∈ p.shared.data.issued, ∀ hash₂ ∈ p.shared.data.issued, check secret hash₁ = true →
      check secret hash₂ = true → hash₁ = hash₂)
    (scope : Scope) : p.shared.data.authorizeSecret check scope clientID secret = false := by
  have hvalid : p.shared.data.Valid := Pool.invariant_executed (fun _ _ h hc => h.exec hc) hinit hrun
  unfold authorizeSecret
  split
  . split
    . rfl
    next hash' hfound =>
    rcases Option.bind_eq_some_iff.mp hfound with ⟨a, hget, hhash'⟩
    unfold getByClientID first at hget
    have ha := (Table.mem_orderBy _).mp (mem_of_find?_eq_some hget)
    have hcond := List.find?_some hget
    rw [Bool.and_eq_true] at hcond
    have hclient := of_decide_eq_true hcond.2
    rw [Bool.and_eq_false_iff]
    right
    rw [Bool.eq_false_iff]
    intro haccepted
    have hsame := hcheck hash' (hvalid.issued a ha hash' hhash') hash (hvalid.retired_issued _ hretired) haccepted
      hsecret
    rw [hsame] at hhash'
    exact hvalid.current a ha _ (credentials_eq_some.mpr ⟨hclient, hhash'⟩) hretired
  . rfl

/-!
The secret of the client shop is rotated while an edit of its name is under way.
-/

namespace Leaked

def shop : App where
  id := 5
  tenantID := some 1
  scope := scopeTenant
  subjectStrategy := subjectStrategyUsername
  name := "Shop"
  code := "shop"
  protocol := .oidc
  status := statusEnabled
  icon := none
  env := none
  description := none
  clientID := some "client-5"
  clientSecret := some "hash of leaked"
  clientType := .webApp
  homeURL := none
  isFirstParty := true
  requireConsent := false
  protocolConfig := "\x7b\x7d"
  loginURL := none
  redirectURIs := "[]"
  logoutURL := none
  accessPolicy := accessPolicyAll

def store : Store := ⟨Table.empty.insertIgnore [shop], ["hash of leaked"], []⟩

theorem store_valid : store.Valid := by
  have hrows : store.apps.rows = [shop] := rfl
  constructor
  . simp [hrows]
  . intro a ha hash hhash
    rw [hrows, mem_singleton] at ha
    subst ha
    cases hhash
    exact mem_singleton_self _
  . simp [store]
  . simp [store]

def check (secret hash : String) : Bool := hash = "hash of " ++ secret

def rename : UpdateAppRequest where
  name := some "Store"
  subjectStrategy := none
  icon := none
  env := none
  description := none
  homeURL := none
  loginURL := none
  redirectURIs := none
  logoutURL := none
  accessPolicy := none
  isFirstParty := none
  requireConsent := none
  protocolConfig := none

def start (rotation : Call) : Clients := .start store [.update (.tenant 1) 5 rename, rotation]

def rotate : Call := .rotateClientSecret (.tenant 1) 5 ⟨"fresh", "hash of fresh"⟩

def revoke : Call := .emergencyRevoke (.tenant 1) true 5 ⟨"fresh", "hash of fresh"⟩

abbrev exec (allowed : Clients → Nat × Nat → Bool) (rotation : Call) (turns : List (Nat × Nat)) : Option Clients :=
  Run.exec Clients.step (fun p turn => allowed p turn = true) (start rotation) turns

def aroundRotate : List (Nat × Nat) := [(0, 0), (1, 0), (1, 0), (0, 0)]

def aroundRevoke : List (Nat × Nat) := [(0, 0), (1, 0), (1, 0), (1, 0), (1, 0), (0, 0)]

theorem rotated_isSome : (exec (Pool.executes generates) rotate aroundRotate).isSome = true := by
  decide

def rotated : Clients := (exec (Pool.executes generates) rotate aroundRotate).get rotated_isSome

theorem revoked_isSome : (exec (Pool.executes generates) revoke aroundRevoke).isSome = true := by
  decide

def revoked : Clients := (exec (Pool.executes generates) revoke aroundRevoke).get revoked_isSome

theorem leaked_secret_accepted :
    Run Clients.step (fun p turn => p.executes generates turn = true) (start rotate) aroundRotate rotated
      ∧ rotated.result 1 = some (.rotated "fresh") ∧ ("client-5", "hash of leaked") ∈ rotated.shared.data.retired
      ∧ rotated.shared.data.authorizeSecret check (.tenant 1) "client-5" "leaked" = true
      ∧ Run Clients.step (fun p turn => p.executes generates turn = true) (start revoke) aroundRevoke revoked
      ∧ revoked.result 1 = some (.revoked ⟨"fresh", true, true⟩)
      ∧ ("client-5", "hash of leaked") ∈ revoked.shared.data.retired
      ∧ revoked.shared.data.authorizeSecret check (.tenant 1) "client-5" "leaked" = true :=
  ⟨Run.of_isSome rotated_isSome, by decide, by decide, by decide,
    Run.of_isSome revoked_isSome, by decide, by decide, by decide⟩

def inOrder : List (Nat × Nat) := [(1, 0), (1, 0), (0, 0), (0, 0)]

theorem renamed_isSome :
    (exec (Pool.executes (fun c s => c.generates s && c.savesSecret s)) rotate inOrder).isSome = true := by
  decide

def renamed : Clients :=
  (exec (Pool.executes (fun c s => c.generates s && c.savesSecret s)) rotate inOrder).get renamed_isSome

theorem leaked_secret_refused : renamed.shared.data.authorizeSecret check (.tenant 1) "client-5" "leaked" = false :=
  retired_secret_refused check store_valid (Run.of_isSome renamed_isSome)
    (show ("client-5", "hash of leaked") ∈ renamed.shared.data.retired by decide) (by decide) (by decide) (.tenant 1)

end Leaked

end Mxid.App
