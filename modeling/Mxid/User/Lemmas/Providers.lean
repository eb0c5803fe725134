import Mxid.User.Lemmas.History

namespace Mxid.User

open Prog List Table Bool

variable {s s' : Store} {scope : Scope} {key : ExternalKey} {α β : Type}

namespace Store

structure SameFor (key : ExternalKey) (s s' : Store) : Prop where
  users : s'.users = s.users
  identities : ∀ i, i.external = key → (i ∈ s.identities.rows ↔ i ∈ s'.identities.rows)

def elsewhere (s : Store) (key : ExternalKey) : Bool :=
  s.identities.rows.any (fun i => i.live && i.tenantID = key.tenantID && i.providerType = key.providerType
    && i.externalID = key.externalID && i.providerID ≠ key.providerID)

def linked (s : Store) (scope : Scope) (providerType : String) (userID : Int) : Bool :=
  (s.listIdentities scope userID).any (fun i => i.providerType = providerType)

theorem rank_injective {i i' : UserIdentity} (h : i.rank = i'.rank) : i.id = i'.id := by
  unfold UserIdentity.rank at h
  have h1 := toLex.injective h
  rw [Prod.mk.injEq] at h1
  have h2 := toLex.injective h1.2
  rw [Prod.mk.injEq] at h2
  exact h2.2

theorem SameFor.getIdentityByExternal (h : SameFor key s s') :
    s'.getIdentityByExternal scope key = s.getIdentityByExternal scope key := by
  apply Table.find?_orderBy_congr _ s.identities.nodup_rows s'.identities.nodup_rows
  . exact fun a ha b hb => s.identities.eq_of_key_eq ha hb
  . exact fun a ha b hb => s'.identities.eq_of_key_eq ha hb
  intro i hp
  simp only [and_eq_true, decide_eq_true_eq] at hp
  exact h.identities i hp.2

theorem SameFor.getAnyIdentityByExternal (h : SameFor key s s') :
    s'.getAnyIdentityByExternal scope key = s.getAnyIdentityByExternal scope key := by
  apply Table.find?_orderBy_congr _ s.identities.nodup_rows s'.identities.nodup_rows
  . exact fun a ha b hb hab => s.identities.eq_of_key_eq ha hb (rank_injective hab)
  . exact fun a ha b hb hab => s'.identities.eq_of_key_eq ha hb (rank_injective hab)
  intro i hp
  simp only [and_eq_true, decide_eq_true_eq] at hp
  exact h.identities i hp.2

structure Apart (key : ExternalKey) (s s' : Store) : Prop extends SameFor key s s' where
  left : s.elsewhere key = false
  right : s'.elsewhere key = false

structure Ready (key : ExternalKey) (id : Int) (s s' : Store) : Prop extends Apart key s s' where
  fresh : ∀ i ∈ s.identities.rows, i.id ≠ id
  fresh' : ∀ i ∈ s'.identities.rows, i.id ≠ id

theorem Apart.occupied {i : UserIdentity} (h : Apart key s s') (hi : i.external = key) :
    s'.occupied i = s.occupied i := by
  have hcols : ∀ (t : Store), t.elsewhere key = false → ∀ i' ∈ t.identities.rows, i'.live = true →
      i'.sameAccount i = true → i'.external = key := by
    intro t ht i' hi' hlive hsame
    have hnot := any_eq_false.mp ht i' hi'
    rw [← hi] at hnot ⊢
    simp only [UserIdentity.sameAccount, Bool.and_eq_true, decide_eq_true_eq] at hsame
    simp only [UserIdentity.external, hlive, hsame, decide_true, Bool.and_true, Bool.true_and] at hnot ⊢
    have hprovider : i'.providerID = i.providerID := by
      by_contra hne
      exact hnot (decide_eq_true hne)
    rw [hprovider]
  rw [Bool.eq_iff_iff]
  unfold Store.occupied
  simp only [any_eq_true, Bool.and_eq_true]
  constructor
  . rintro ⟨i', hi', ⟨hne, hlive⟩, hsame⟩
    exact ⟨i', (h.identities i' (hcols s' h.right i' hi' hlive hsame)).mpr hi', ⟨hne, hlive⟩, hsame⟩
  . rintro ⟨i', hi', ⟨hne, hlive⟩, hsame⟩
    exact ⟨i', (h.identities i' (hcols s h.left i' hi' hlive hsame)).mp hi', ⟨hne, hlive⟩, hsame⟩

end Store

namespace Cmd

def readsUsers : Cmd β → Bool
  | .getByID .. | .getAnyByID .. | .getByUsername .. | .getByEmail .. | .getByPhone ..
  | .findByUsernameFold .. => true
  | _ => false

theorem reply_of_readsUsers {c : Cmd β} (h : c.readsUsers = true) (husers : s'.users = s.users) :
    (Store.exec c s').1 = (Store.exec c s).1 := by
  cases c with
  | getByID => simp only [Store.exec, Scope.ask, Store.getByID, Store.first, husers]
  | getAnyByID => simp only [Store.exec, Scope.ask, Store.getAnyByID, husers]
  | getByUsername => simp only [Store.exec, Scope.ask, Store.getByUsername, Store.first, husers]
  | getByEmail => simp only [Store.exec, Scope.ask, Store.getByEmail, Store.first, husers]
  | getByPhone => simp only [Store.exec, Scope.ask, Store.getByPhone, Store.first, husers]
  | findByUsernameFold => simp only [Store.exec, Scope.ask, Store.findByUsernameFold, husers]
  | _ => contradiction

end Cmd

open Store (SameFor Apart Ready)

structure Keeps (key : ExternalKey) (c : Cmd β) (s s' : Store) : Prop where
  reply : (Store.exec c s').1 = (Store.exec c s).1
  same : SameFor key (Store.exec c s).2 (Store.exec c s').2

theorem keeps_attempt (done refused : β) {result result' : Option Store} (h : SameFor key s s')
    (hresult : Option.Rel (SameFor key) result result') :
    (attempt s' done refused result').1 = (attempt s done refused result).1
      ∧ SameFor key (attempt s done refused result).2 (attempt s' done refused result').2 := by
  cases hresult with
  | none => exact ⟨rfl, h⟩
  | some hsame => exact ⟨rfl, hsame⟩

namespace Store

variable {i : UserIdentity}

theorem Ready.createIdentity (h : Ready key i.id s s') (hi : i.external = key) :
    Option.Rel (SameFor key) (s.createIdentity i) (s'.createIdentity i) := by
  have hinsert : ∀ t : Store, (∀ i' ∈ t.identities.rows, i'.id ≠ i.id) →
      ∃ rows, t.identities.insert? i = some rows := by
    intro t hfresh
    rw [← Option.ne_none_iff_exists', ne_eq, Table.insert?_eq_none_iff, mem_map]
    rintro ⟨i', hi', hid⟩
    exact hfresh i' hi' hid
  rcases hinsert s h.fresh with ⟨rows, hrows⟩
  rcases hinsert s' h.fresh' with ⟨rows', hrows'⟩
  unfold Store.createIdentity
  rw [h.occupied hi, hrows, hrows']
  split
  . exact .none
  refine .some ⟨h.users, ?_⟩
  intro i' hkey
  rw [mem_of_insert? hrows, mem_of_insert? hrows', h.identities i' hkey]

theorem Ready.create {id : Int} (h : Ready key id s s') (u : Account) :
    Option.Rel (Ready key id) (s.create u) (s'.create u) := by
  have htaken : s'.taken u = s.taken u := by
    unfold Store.taken
    rw [h.users]
  unfold Store.create
  rw [htaken, h.users]
  split
  . exact .none
  split
  . exact .none
  . exact .some ⟨⟨⟨rfl, h.identities⟩, h.left, h.right⟩, h.fresh, h.fresh'⟩

theorem Ready.createWithIdentity (h : Ready key i.id s s') (u : Account) (hi : i.external = key) :
    Option.Rel (SameFor key) (s.createWithIdentity u i) (s'.createWithIdentity u i) := by
  -- the user goes in on both sides or on neither
  have hcreate := h.create u
  unfold Store.createWithIdentity
  generalize s.create u = r, s'.create u = r' at hcreate
  cases hcreate with
  | none => exact .none
  | some hready => exact hready.createIdentity hi

theorem SameFor.update {base : UserIdentity} {p : UserIdentity → Bool} {f : UserIdentity → UserIdentity}
    (hf : ∀ i, (f i).id = i.id) (h : SameFor key s s') (hbase : base.external = key) (hmem : base ∈ s.identities.rows)
    (hone : ∀ i, p i = true → i.id = base.id) (i : UserIdentity) (hi : i.external = key) :
    i ∈ (s.identities.update p f hf).rows ↔ i ∈ (s'.identities.update p f hf).rows := by
  have hmem' : base ∈ s'.identities.rows := (h.identities base hbase).mp hmem
  rw [rows_update, rows_update, mem_map, mem_map]
  constructor
  . rintro ⟨i0, hi0, rfl⟩
    by_cases hp : p i0 = true
    . rw [s.identities.eq_of_key_eq hi0 hmem (hone i0 hp)]
      exact ⟨base, hmem', rfl⟩
    . rw [if_neg hp] at hi ⊢
      exact ⟨i0, (h.identities i0 hi).mp hi0, if_neg hp⟩
  . rintro ⟨i0, hi0, rfl⟩
    by_cases hp : p i0 = true
    . rw [s'.identities.eq_of_key_eq hi0 hmem' (hone i0 hp)]
      exact ⟨base, hmem, rfl⟩
    . rw [if_neg hp] at hi ⊢
      exact ⟨i0, (h.identities i0 hi).mpr hi0, if_neg hp⟩

end Store

theorem keeps_createIdentity {i : UserIdentity} (h : Ready key i.id s s') (hi : i.external = key) :
    Keeps key (.createIdentity i) s s' := by
  have hboth := keeps_attempt (some true) (some false) h.toSameFor (h.createIdentity hi)
  exact ⟨hboth.1, hboth.2⟩

theorem keeps_createWithIdentity {u : Account} {i : UserIdentity} (h : Ready key i.id s s') (hi : i.external = key) :
    Keeps key (.createWithIdentity u i) s s' := by
  have hboth := keeps_attempt (some ()) none h.toSameFor (h.createWithIdentity u hi)
  exact ⟨hboth.1, hboth.2⟩

variable {name extra : Option String}

theorem keeps_saveIdentity {base : UserIdentity} (h : Apart key s s') (hbase : base.external = key) :
    Keeps key (.saveIdentity scope base name extra) s s' := by
  have hocc := h.occupied hbase
  constructor
  all_goals
    simp only [Store.exec]
    split
    . unfold Store.saveIdentity
      rw [hocc]
      split
      . first | rfl | exact h.toSameFor
      . first
        | rfl
        | refine ⟨h.users, fun i' hkey => ?_⟩
          show i' ∈ (s.identities.upsert _).rows ↔ i' ∈ (s'.identities.upsert _).rows
          rw [mem_upsert, mem_upsert, h.identities i' hkey]
    . first | rfl | exact h.toSameFor

variable {userID : Int} {c : Cmd β} {f : β → Op α} {req : ExternalLoginInput} {new : Provision}

theorem keeps_restoreIdentityTo {base : UserIdentity} (h : Apart key s s') (hbase : base.external = key)
    (hmem : base ∈ s.identities.rows) : Keeps key (.restoreIdentityTo scope base userID name extra) s s' := by
  have hmem' := (h.identities base hbase).mp hmem
  have hone : ∀ i : UserIdentity, (decide (i.id = base.id) && scope.sees i.tenantID) = true → i.id = base.id := by
    intro i hp
    simp only [and_eq_true, decide_eq_true_eq] at hp
    exact hp.1
  -- the only row in question is the one that was read
  have hany : ∀ t : Store, base ∈ t.identities.rows →
      t.identities.rows.any (fun i => (decide (i.id = base.id) && scope.sees i.tenantID) && t.occupied i)
        = (scope.sees base.tenantID && t.occupied base) := by
    intro t ht
    rw [Bool.eq_iff_iff, any_eq_true]
    constructor
    . rintro ⟨i, hi, hp⟩
      rw [and_eq_true] at hp
      have heq := t.identities.eq_of_key_eq hi ht (hone i hp.1)
      subst heq
      simpa using hp
    . intro hp
      exact ⟨base, ht, by simpa using hp⟩
  constructor
  all_goals
    simp only [Store.exec]
    split
    . unfold Store.restoreIdentityTo Store.reviving
      rw [hany s hmem, hany s' hmem', h.occupied hbase]
      split
      . first | rfl | exact h.toSameFor
      . first | rfl | exact ⟨h.users, h.update (Store.id_reassign base userID name extra) hbase hmem hone⟩
    . first | rfl | exact h.toSameFor

abbrev Alike (rel : Store → Store → Prop) (p : Op α) (s s' : Store) : Prop :=
  Prog.Alike Store.exec Cmd.failed rel p p s s'

variable {rel : Store → Store → Prop}

theorem alike_query (hc : c.isQuery = true)
    (hreply : (Store.exec c s').1 = (Store.exec c s).1) (hfailed : Alike rel (f c.failed) s s')
    (hf : ∀ b, (Store.exec c s).1 = b → Alike rel (f b) s s') : Alike rel (call c >>= f) s s' := by
  apply alike_call hfailed
  rw [c.exec_of_isQuery s hc, c.exec_of_isQuery s' hc, hreply]
  exact hf _ rfl

theorem alike_readsUsers (husers : s'.users = s.users) (hc : c.readsUsers = true)
    (hf : ∀ b, Alike rel (f b) s s') : Alike rel (call c >>= f) s s' :=
  alike_query (by cases c <;> first | rfl | contradiction) (c.reply_of_readsUsers hc husers) (hf _) (fun b _ => hf b)

theorem alike_keeps (h : SameFor key s s') (hkeeps : Keeps key c s s')
    (hf : ∀ b t t', SameFor key t t' → Alike (SameFor key) (f b) t t') :
    Alike (SameFor key) (call c >>= f) s s' := by
  apply alike_call (hf _ _ _ h)
  rw [hkeeps.reply]
  exact hf _ _ _ hkeeps.same

theorem alike_bind {p : Op β} (hp : Alike (fun t t' => t = s ∧ t' = s') p s s')
    (hf : ∀ b, Alike rel (f b) s s') : Alike rel (p >>= f) s s' := by
  apply Prog.Alike.bind hp
  rintro b t t' ⟨rfl, rfl⟩
  exact hf b

theorem alike_checked {p : Op (Except UserError α)} {f : α → Op Answer}
    (hp : Alike (fun t t' => t = s ∧ t' = s') p s s') (hrel : rel s s') (hf : ∀ a, Alike rel (f a) s s') :
    Alike rel (checked p f) s s' := by
  unfold checked
  refine alike_bind hp ?_
  intro result
  split
  . exact alike_pure hrel
  . apply hf

theorem alike_found {lookup : Cmd (Option (Option α))} {missing : UserError} {f : α → Op Answer}
    (husers : s'.users = s.users) (hc : lookup.readsUsers = true) (hrel : rel s s') (hf : ∀ a, Alike rel (f a) s s') :
    Alike rel (found lookup missing f) s s' := by
  unfold found
  refine alike_readsUsers husers hc ?_
  intro reply
  split
  . exact alike_pure hrel
  . exact alike_pure hrel
  . apply hf

theorem alike_linkedUser (h : SameFor key s s') : Alike (SameFor key) (linkedUser scope userID) s s' :=
  alike_found h.users rfl h (fun _ => alike_pure h)

theorem alike_findLinkCandidate (husers : s'.users = s.users) (hrel : rel s s')
    (hlinked : ∀ u ∈ s.findByUsernameFold scope req.tenantID (linkMatchName req.username) 2,
      s'.linked scope req.providerType u.id = s.linked scope req.providerType u.id) :
    Alike rel (findLinkCandidate scope req) s s' := by
  unfold findLinkCandidate
  split
  . exact alike_pure hrel
  refine alike_query rfl (Cmd.reply_of_readsUsers rfl husers) (alike_pure hrel) ?_
  intro reply hreply
  split
  . exact alike_pure hrel
  . exact alike_pure hrel
  . next candidate =>
    have hfold := Scope.eq_of_ask hreply
    have hsame := hlinked candidate (by rw [hfold]; exact mem_singleton_self candidate)
    refine alike_call (alike_pure hrel) ?_
    -- the identities may differ, but not in what is asked
    simp only [Store.exec, Scope.ask]
    cases scope.usable with
    | true =>
      unfold Store.linked at hsame
      simp only [if_true, hsame]
      split <;> exact alike_pure hrel
    | false => exact alike_pure hrel
  . exact alike_pure hrel

theorem alike_allocUsernameLoop {tenantID : Int} {base : String} (husers : s'.users = s.users) (hrel : rel s s')
    (fuel i : Nat) (candidate : String) : Alike rel (allocUsernameLoop scope tenantID base fuel i candidate) s s' := by
  induction fuel generalizing i candidate with
  | zero => exact alike_pure hrel
  | succ fuel ih =>
    unfold allocUsernameLoop
    refine alike_readsUsers husers rfl ?_
    intro reply
    split
    . exact alike_pure hrel
    . exact alike_pure hrel
    . apply ih

theorem alike_ifFree {lookup : String → Cmd (Option (Option Account))} {value : String} (husers : s'.users = s.users)
    (hrel : rel s s') (h : (lookup value).readsUsers = true) : Alike rel (ifFree lookup value) s s' := by
  unfold ifFree
  split
  . exact alike_pure hrel
  refine alike_readsUsers husers h ?_
  intro reply
  split <;> exact alike_pure hrel

theorem alike_provision (h : Ready req.key new.identityID s s') :
    Alike (SameFor req.key) (provision scope req new) s s' := by
  have hsame := h.toSameFor
  unfold provision allocUsername
  refine alike_checked (alike_allocUsernameLoop h.users ⟨rfl, rfl⟩ _ _ _) hsame (fun _ => ?_)
  refine alike_bind (alike_ifFree h.users ⟨rfl, rfl⟩ rfl) (fun _ => ?_)
  refine alike_bind (alike_ifFree h.users ⟨rfl, rfl⟩ rfl) (fun _ => ?_)
  refine alike_keeps hsame (keeps_createWithIdentity h rfl) ?_
  intro reply t t' ht
  split <;> exact alike_pure ht

theorem alike_resolveExternalLogin (hready : Ready req.key new.identityID s s')
    (hlinked : ∀ u ∈ s.findByUsernameFold scope req.tenantID (linkMatchName req.username) 2,
      s'.linked scope req.providerType u.id = s.linked scope req.providerType u.id) :
    Alike (SameFor req.key) (resolveExternalLogin scope req new) s s' := by
  have h := hready.toSameFor
  unfold resolveExternalLogin
  split
  . exact alike_pure h
  refine alike_query rfl ?_ (alike_pure h) ?_
  . simp only [Store.exec, Scope.ask, h.getIdentityByExternal]
  intro reply hreply
  split
  . exact alike_pure h
  . rcases Store.getIdentityByExternal_eq_some (Scope.eq_of_ask hreply) with ⟨_, _, _, hbinding⟩
    unfold loginBound
    split
    . refine alike_keeps h (keeps_saveIdentity hready.toApart hbinding) ?_
      intro _ t t' ht
      exact alike_linkedUser ht
    . exact alike_linkedUser h
  refine alike_query rfl ?_ (alike_pure h) ?_
  . simp only [Store.exec, Scope.ask, h.getAnyIdentityByExternal]
  intro reply _
  split
  . exact alike_pure h
  . exact alike_found h.users rfl h (fun _ => alike_pure h)
  refine alike_checked (alike_findLinkCandidate h.users ⟨rfl, rfl⟩ hlinked) h (fun _ => ?_)
  split
  . exact alike_provision hready
  . exact alike_pure h

theorem alike_claim {write : Cmd (Option Bool)} {event : Event} (h : SameFor key s s') (hkeeps : Keeps key write s s') :
    Alike (SameFor key) (claim write event) s s' := by
  unfold claim written
  refine alike_keeps h hkeeps ?_
  intro reply t t' ht
  split <;> exact alike_pure ht

theorem alike_bindExternalIdentity {req : BindIdentityInput} {identityID : Int}
    (hready : Ready req.key identityID s s') :
    Alike (SameFor req.key) (bindExternalIdentity scope req identityID) s s' := by
  have h := hready.toSameFor
  unfold bindExternalIdentity
  split
  . exact alike_pure h
  refine alike_found h.users rfl h (fun _ => ?_)
  split
  . exact alike_pure h
  refine alike_query rfl ?_ (alike_pure h) ?_
  . simp only [Store.exec, Scope.ask, h.getAnyIdentityByExternal]
  intro reply hreply
  split
  . exact alike_pure h
  . exact alike_claim h (keeps_createIdentity hready rfl)
  next existing =>
  rcases Store.getAnyIdentityByExternal_eq_some (Scope.eq_of_ask hreply) with ⟨hmem, _, hkey⟩
  have hclaim : ∀ event, Alike (SameFor req.key)
      (claim (.restoreIdentityTo scope existing req.userID (nonempty req.displayName) req.raw) event) s s' :=
    fun event => alike_claim h (keeps_restoreIdentityTo hready.toApart hkey hmem)
  split
  . split
    . exact alike_pure h
    . apply hclaim
  split
  . refine alike_readsUsers h.users rfl ?_
    intro reply
    split
    . exact alike_pure h
    . exact alike_pure h
    . apply hclaim
  . apply hclaim

abbrev Returns (P : Int → Prop) (p : Op Answer) (s : Store) : Prop :=
  Ends (fun a _ => ∀ userID, a.result = .ok (some userID) → P userID) s p

variable {P : Int → Prop}

theorem returns_refuse {e : UserError} : Returns P (refuse e) s := by
  apply ends_pure
  intro userID hresult
  cases hresult

theorem returns_user {events : List Event} (h : P userID) : Returns P (pure ⟨.ok (some userID), events⟩) s := by
  apply ends_pure
  intro userID hresult
  cases hresult
  exact h

theorem returns_linkedUser (h : P userID) : Returns P (linkedUser scope userID) s := by
  refine ends_found rfl rfl (fun _ => nofun) (fun u hreply => ?_)
  apply returns_user
  rcases Store.getByID_eq_some (Scope.eq_of_ask hreply) with ⟨_, _, _, hid⟩
  rw [hid]
  exact h

theorem returns_loginBound {binding : UserIdentity} (h : P binding.userID) :
    Returns P (loginBound scope req binding) s := by
  unfold loginBound
  split
  . exact ends_call (returns_linkedUser h) (fun _ _ => returns_linkedUser h)
  . exact returns_linkedUser h

theorem returns_provision (h : P new.userID) : Returns P (provision scope req new) s := by
  unfold provision allocUsername
  refine ends_checked (queries_allocUsernameLoop _ _ _) (fun _ => nofun) (fun _ => ?_)
  refine ends_bind (queries_ifFree rfl) (fun _ => ?_)
  refine ends_bind (queries_ifFree rfl) (fun _ => ?_)
  refine ends_call returns_refuse ?_
  intro reply _
  split
  . exact returns_refuse
  . exact returns_user h

theorem returns_resolveExternalLogin :
    Returns (fun userID => (∃ i ∈ s.identities.rows, i.live = true ∧ i.external = req.key ∧ i.userID = userID)
      ∨ userID = new.userID) (resolveExternalLogin scope req new) s := by
  unfold resolveExternalLogin
  split
  . exact returns_refuse
  refine ends_call returns_refuse ?_
  intro reply hreply
  split
  . exact returns_refuse
  . next binding =>
    apply returns_loginBound
    rcases Store.getIdentityByExternal_eq_some (Scope.eq_of_ask hreply) with ⟨hmem, hlive, _, hkey⟩
    exact Or.inl ⟨binding, hmem, hlive, hkey, rfl⟩
  refine ends_call returns_refuse ?_
  intro reply _
  split
  . exact returns_refuse
  . exact ends_found rfl rfl (fun _ => nofun) (fun _ _ => returns_refuse)
  refine ends_checked queries_findLinkCandidate (fun _ => nofun) (fun _ => ?_)
  split
  . exact returns_provision (Or.inr rfl)
  . exact returns_refuse

/--
Without a live identity with the same external id at another provider of the type, a login and a binding do not depend
on the identities at other providers. In every store, a login returns the owner of a live identity with its own key or
the user it has created.
-/
theorem providers_apart (key : ExternalKey) (scope : Scope) (failures : List Nat) :
    (∀ s s' : Store, SameFor key s s' → s.elsewhere key = false → s'.elsewhere key = false →
      (∀ (req : ExternalLoginInput) (new : Provision), req.key = key →
        (∀ u ∈ s.findByUsernameFold scope req.tenantID (linkMatchName req.username) 2,
          s'.linked scope req.providerType u.id = s.linked scope req.providerType u.id) →
        (∀ i ∈ s.identities.rows, i.id ≠ new.identityID) → (∀ i ∈ s'.identities.rows, i.id ≠ new.identityID) →
        ((Action.mk (.resolveExternalLogin scope req new) failures).run s').1
            = ((Action.mk (.resolveExternalLogin scope req new) failures).run s).1
          ∧ SameFor key ((Action.mk (.resolveExternalLogin scope req new) failures).run s).2.data
              ((Action.mk (.resolveExternalLogin scope req new) failures).run s').2.data)
      ∧ ∀ (req : BindIdentityInput) (identityID : Int), req.key = key →
        (∀ i ∈ s.identities.rows, i.id ≠ identityID) → (∀ i ∈ s'.identities.rows, i.id ≠ identityID) →
        ((Action.mk (.bindExternalIdentity scope req identityID) failures).run s').1
            = ((Action.mk (.bindExternalIdentity scope req identityID) failures).run s).1
          ∧ SameFor key ((Action.mk (.bindExternalIdentity scope req identityID) failures).run s).2.data
              ((Action.mk (.bindExternalIdentity scope req identityID) failures).run s').2.data)
      ∧ ∀ (s : Store) (req : ExternalLoginInput) (new : Provision) (userID : Int), req.key = key →
        ((Action.mk (.resolveExternalLogin scope req new) failures).run s).1.result = .ok (some userID) →
        (∃ i ∈ s.identities.rows, i.live = true ∧ i.external = key ∧ i.userID = userID) ∨ userID = new.userID := by
  constructor
  . intro s s' h hs hs'
    constructor
    . rintro req new rfl hlinked hfresh hfresh'
      exact (alike_resolveExternalLogin ⟨⟨h, hs, hs'⟩, hfresh, hfresh'⟩ hlinked).exec_eq failures false
    . rintro req identityID rfl hfresh hfresh'
      exact (alike_bindExternalIdentity ⟨⟨h, hs, hs'⟩, hfresh, hfresh'⟩).exec_eq failures false
  . rintro s req new userID rfl hresult
    exact exec_of_wp (returns_resolveExternalLogin.wp false) failures userID hresult

/-!
Two providers of one type. Whoever comes through provider 5 has no identity there yet.
-/

namespace TwoProviders

theorem new_pos : (0 : Int) < 9 := by decide

def store (identities : List UserIdentity) : Store := .holding [ann, bob] identities

def other (userID : Int) (externalID : String) : UserIdentity :=
  ⟨1, userID, 1, "lark", "6", externalID, none, none, none⟩

def account : ExternalKey := ⟨1, "lark", "5", "ou_1"⟩

theorem sameFor_other {userID : Int} {externalID : String} :
    SameFor account (store []) (store [other userID externalID]) where
  users := rfl
  identities i hi := by
    have hrows : (store [other userID externalID]).identities.rows = [other userID externalID] := rfl
    rw [hrows, mem_singleton]
    constructor
    . intro hmem
      cases hmem
    . rintro rfl
      have hprovider : ("6" : String) = "5" := congrArg ExternalKey.providerID hi
      exact absurd hprovider (by decide)

def login (username : String) : Action :=
  ⟨.resolveExternalLogin (.tenant 1) ⟨1, "lark", "5", "ou_1", username, "", "", "", "", none, true⟩
    ⟨9, new_pos, 2, ""⟩, []⟩

def bind : Action := ⟨.bindExternalIdentity (.tenant 1) ⟨1, 7, "lark", "5", "ou_1", "", none, false⟩ 2, []⟩

theorem other_provider_matters :
    SameFor account (store []) (store [other 7 "ou_2"]) ∧ (store [other 7 "ou_2"]).elsewhere account = false
      ∧ ((login "ann").run (store [])).1.result = .error (.externalLinkRequired 7)
      ∧ ((login "ann").run (store [other 7 "ou_2"])).1.result = .error .externalLinkAmbiguous
      ∧ SameFor account (store []) (store [other 8 "ou_1"])
      ∧ (bind.run (store [])).1.result = .ok none
      ∧ (bind.run (store [other 8 "ou_1"])).1.result = .error .externalIDTaken :=
  ⟨sameFor_other, by decide, by decide, by decide, sameFor_other, by decide, by decide⟩

theorem other_provider_apart :
    ((login "eve").run (store [other 8 "ou_2"])).1 = ((login "eve").run (store [])).1
      ∧ ((login "eve").run (store [])).1.result = .ok (some 9) :=
  ⟨(((providers_apart account (.tenant 1) []).1 _ _ sameFor_other (by decide) (by decide)).1 _ _ rfl (by decide)
    (by decide) (by decide)).1, by decide⟩

end TwoProviders

end Mxid.User
