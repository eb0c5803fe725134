import Mathlib
import Mxid.Sso.Impl.Database

namespace Mxid.Sso

open List Env

open User (Account)

def suffixed (username code : String) : String :=
  if code = "" then username else username ++ "@" ++ code

def SplitsInto (username code username' code' : String) : Prop :=
  ∃ part, username = username' ++ "@" ++ part ∧ code' = part ++ "@" ++ code

theorem SplitsInto.separator_mem {username code username' code' : String}
    (h : SplitsInto username code username' code') : '@' ∈ username.toList := by
  rcases h with ⟨part, rfl, _⟩
  simp

theorem joined_eq_joined {a b c d : List Char} (h : a ++ '@' :: b = c ++ '@' :: d) :
    (a = c ∧ b = d) ∨ (∃ w, a = c ++ '@' :: w ∧ d = w ++ '@' :: b) ∨ ∃ w, c = a ++ '@' :: w ∧ b = w ++ '@' :: d := by
  rcases append_eq_append_iff.mp h with ⟨w, hc, hb⟩ | ⟨w, ha, hd⟩
  . cases w with
    | nil =>
      rw [append_nil] at hc
      exact .inl ⟨hc.symm, tail_eq_of_cons_eq hb⟩
    | cons c w =>
      rw [cons_append, List.cons.injEq] at hb
      rcases hb with ⟨rfl, hb⟩
      exact .inr (.inr ⟨w, hc, hb⟩)
  . cases w with
    | nil =>
      rw [append_nil] at ha
      exact .inl ⟨ha, (tail_eq_of_cons_eq hd).symm⟩
    | cons c w =>
      rw [cons_append, List.cons.injEq] at hd
      rcases hd with ⟨rfl, hd⟩
      exact .inr (.inl ⟨w, ha, hd⟩)

theorem toList_joined {username code : String} :
    (username ++ "@" ++ code).toList = username.toList ++ '@' :: code.toList := by
  simp

theorem joined_ne_empty {username code : String} : username ++ "@" ++ code ≠ "" := by
  intro h
  have := congrArg String.toList h
  simp at this

theorem eq_joined_iff {name username code : String} :
    name = username ++ "@" ++ code ↔ name.toList = username.toList ++ '@' :: code.toList := by
  rw [← String.toList_inj, toList_joined]

theorem joined_eq_joined_iff {a b c d : String} :
    a ++ "@" ++ b = c ++ "@" ++ d ↔ (a = c ∧ b = d) ∨ SplitsInto a b c d ∨ SplitsInto c d a b := by
  constructor
  . intro h
    rw [eq_joined_iff, toList_joined] at h
    rcases joined_eq_joined h with ⟨hac, hbd⟩ | ⟨w, ha, hd⟩ | ⟨w, hc, hb⟩
    . exact .inl ⟨String.toList_inj.mp hac, String.toList_inj.mp hbd⟩
    . rw [← String.toList_ofList (l := w)] at ha hd
      exact .inr (.inl ⟨_, eq_joined_iff.mpr ha, eq_joined_iff.mpr hd⟩)
    . rw [← String.toList_ofList (l := w)] at hc hb
      exact .inr (.inr ⟨_, eq_joined_iff.mpr hc, eq_joined_iff.mpr hb⟩)
  . rintro (⟨rfl, rfl⟩ | ⟨w, rfl, rfl⟩ | ⟨w, rfl, rfl⟩)
    . rfl
    . simp only [String.append_assoc]
    . simp only [String.append_assoc]

def fallback (front : FrontEnd) (app : AppConfig) (user : IdentityInfo) : String :=
  match front with
  | .oidc => toString user.id
  | .saml => Saml.resolveNameID app.samlConfig.nameIDFormat user
  | .cas => user.username

def Env.given (env : Env) (app : AppConfig) (user : IdentityInfo) : String :=
  match env.subject app user with
  | .error _ => ""
  | .ok out => out.subject

section Released

variable {env : Env} {app : AppConfig} {user : IdentityInfo}

theorem released_eq {front : FrontEnd} :
    released front env app user
      =
    if env.given app user = "" then fallback front app user else env.given app user := by
  cases hsubject : env.subject app user with
  | error | ok =>
    cases front <;>
      simp [released, applySubject, clientSubject, Saml.nameID, Cas.principal, given, fallback, hsubject]

theorem given_suffixed (h : app.subjectStrategy = "username_suffixed") :
    env.given app user = suffixed user.username (env.tenantCode user) := by
  unfold given subject resolveSubject suffixed
  rw [h]
  by_cases hcode : env.tenantCode user = "" <;> simp [hcode]

theorem given_email (h : app.subjectStrategy = "email") : env.given app user = user.email := by
  unfold given subject resolveSubject
  rw [h]
  by_cases hemail : user.email = "" <;> simp [hemail]

theorem given_persistent (h : app.subjectStrategy = "persistent_id") : env.given app user = toString user.id := by
  unfold given subject resolveSubject
  rw [h]
  simp

theorem given_pairwise (h : app.subjectStrategy = "pairwise") :
    env.given app user = if app.clientID = "" then "" else env.pairwiseSubject app.clientID user.id := by
  unfold given subject resolveSubject
  rw [h]
  by_cases hclient : app.clientID = "" <;> simp [hclient]

theorem given_unknown
    (h : app.subjectStrategy ∉ ["username", "", "username_suffixed", "email", "persistent_id", "pairwise"]) :
    env.given app user = "" := by
  unfold given subject resolveSubject
  simp only [mem_cons, not_mem_nil, or_false, not_or] at h
  simp [h]

end Released

theorem toString_id_ne_empty (id : Int) : toString id ≠ "" := by
  change id.repr ≠ ""
  rw [Int.repr_eq_if]
  split
  . exact Nat.repr_ne_empty
  . simp

variable (front : FrontEnd) (app : AppConfig) (user user' : IdentityInfo)

def FallbacksCoincide : Prop :=
  match front with
  | .oidc => False
  | .saml =>
    if app.samlConfig.nameIDFormat = Saml.nameIDEmail then user.email = user'.email
    else if app.samlConfig.nameIDFormat = Saml.nameIDPersistent then False
    else user.username = user'.username
  | .cas => user.username = user'.username

def Coincide (name name' : String) : Prop :=
  (name ≠ "" ∧ name = name')
    ∨ (name ≠ "" ∧ name' = "" ∧ name = fallback front app user')
    ∨ (name = "" ∧ name' ≠ "" ∧ fallback front app user = name')
    ∨ (name = "" ∧ name' = "" ∧ FallbacksCoincide front app user user')

def Clash (code code' : String) : Prop :=
  if app.subjectStrategy = "username_suffixed" then
    if code ≠ "" ∧ code' ≠ "" then
      SplitsInto user.username code user'.username code' ∨ SplitsInto user'.username code' user.username code
    else
      Coincide front app user user' (suffixed user.username code) (suffixed user'.username code')
  else if app.subjectStrategy = "email" then
    Coincide front app user user' user.email user'.email
  else if app.subjectStrategy = "persistent_id" ∨ (app.subjectStrategy = "pairwise" ∧ app.clientID ≠ "") then
    False
  else
    FallbacksCoincide front app user user'

section Coincide

variable {front : FrontEnd} {app : AppConfig} {user user' : IdentityInfo}

theorem fallback_eq_fallback_iff (hne : user.id ≠ user'.id) :
    fallback front app user = fallback front app user' ↔ FallbacksCoincide front app user user' := by
  have hid : toString user.id ≠ toString user'.id := fun h => hne (Int.repr_injective h)
  unfold fallback FallbacksCoincide Saml.resolveNameID
  cases front with
  | oidc => exact iff_false_intro hid
  | saml =>
    dsimp only
    split
    . rfl
    split
    . exact iff_false_intro hid
    . rfl
  | cas => rfl

theorem released_eq_iff {env env' : Env} (hne : user.id ≠ user'.id) :
    released front env app user = released front env' app user'
      ↔
    Coincide front app user user' (env.given app user) (env'.given app user') := by
  unfold Coincide
  rw [released_eq, released_eq, ← fallback_eq_fallback_iff hne]
  by_cases hname : env.given app user = ""
  . by_cases hname' : env'.given app user' = ""
    . simp [hname, hname']
    . simp [hname, hname']
  . by_cases hname' : env'.given app user' = ""
    . simp [hname, hname']
    . simp [hname, hname']

theorem coincide_given {name name' : String} (hname : name ≠ "") (hname' : name' ≠ "") :
    Coincide front app user user' name name' ↔ name = name' := by
  unfold Coincide
  simp [hname, hname']

theorem coincide_empty : Coincide front app user user' "" "" ↔ FallbacksCoincide front app user user' := by
  unfold Coincide
  simp

end Coincide

namespace Database

structure Answers (d : Database) (env : Env) : Prop where
  pairwiseSubject : env.pairwiseSubject = d.pairwiseSubject
  tenantCode : ∀ user, env.tenantCode user = "" ∨ env.tenantCode user = d.getTenantCode user.tenantID

variable {d : Database}

theorem answers_env {scope : Scope} : d.Answers (d.env scope) where
  pairwiseSubject := rfl
  tenantCode user := by
    unfold tenantCode env
    dsimp only
    split
    . exact .inr rfl
    . exact .inl rfl

theorem exists_of_getTenantCode_ne {tenantID : Int} (h : d.getTenantCode tenantID ≠ "") :
    ∃ t ∈ d.tenants.rows, t.id = tenantID ∧ d.getTenantCode tenantID = t.code := by
  unfold getTenantCode at h ⊢
  cases ht : d.tenants.find? tenantID with
  | none =>
    rw [ht] at h
    contradiction
  | some t =>
    rw [ht] at h
    rcases d.tenants.find?_eq_some_iff.mp ht with ⟨hmem, hid⟩
    refine ⟨t, hmem, hid, ?_⟩
    rw [Option.filter_some] at h ⊢
    split
    . rfl
    next hdeleted =>
    rw [if_neg hdeleted] at h
    contradiction

theorem tenantID_eq_of_getTenantCode_eq {i j : Int} (h : d.getTenantCode i = d.getTenantCode j)
    (hne : d.getTenantCode i ≠ "") : i = j := by
  rcases exists_of_getTenantCode_ne hne with ⟨t, ht, hi, hcode⟩
  rcases exists_of_getTenantCode_ne (h ▸ hne) with ⟨t', ht', hj, hcode'⟩
  have heq : t = t' := d.code_unique t ht t' ht' (by rw [← hcode, ← hcode', h])
  rw [← hi, ← hj, heq]

end Database

theorem subjects_apart_iff {d : Database} {env env' : Env} {app : AppConfig} {u u' : Account} (front : FrontEnd)
    (hinjective : ∀ clientID, Function.Injective (d.pairwiseSubject clientID))
    (henv : d.Answers env) (henv' : d.Answers env') (hu : u ∈ d.users.users.rows) (hu' : u' ∈ d.users.users.rows)
    (hlive : u.deleted = false) (hlive' : u'.deleted = false) (hne : u ≠ u')
    (hstrategy : app.subjectStrategy ∉ ["username", ""]) :
    released front env app (d.identityInfo u) ≠ released front env' app (d.identityInfo u')
      ↔
    ¬Clash front app (d.identityInfo u) (d.identityInfo u') (env.tenantCode (d.identityInfo u))
      (env'.tenantCode (d.identityInfo u')) := by
  have hid : u.id ≠ u'.id := fun h => hne (d.users.users.eq_of_key_eq hu hu' h)
  rw [ne_eq, not_iff_not, released_eq_iff hid]
  unfold Clash
  split
  . next hsuffixed =>
    rw [given_suffixed hsuffixed, given_suffixed hsuffixed]
    split
    . next hfound =>
      unfold suffixed
      rw [if_neg hfound.1, if_neg hfound.2, coincide_given joined_ne_empty joined_ne_empty, joined_eq_joined_iff]
      apply or_iff_right
      rintro ⟨husername, hcode⟩
      have h := (henv.tenantCode _).resolve_left hfound.1
      have h' := (henv'.tenantCode _).resolve_left (hcode ▸ hfound.1)
      have htenant : u.tenantID = u'.tenantID := by
        apply Database.tenantID_eq_of_getTenantCode_eq (d := d)
        . exact h.symm.trans (hcode.trans h')
        . exact fun heq => hfound.1 (h.trans heq)
      exact hne (d.username_unique u hu u' hu' hlive hlive' htenant husername)
    . rfl
  . next hsuffixed =>
    split
    . next hemail => rw [given_email hemail, given_email hemail]
    next hemail =>
    split
    . next hown =>
      rw [iff_false]
      rcases hown with hpersistent | ⟨hpairwise, hclient⟩
      . rw [given_persistent hpersistent, given_persistent hpersistent,
          coincide_given (toString_id_ne_empty _) (toString_id_ne_empty _)]
        exact fun h => hid (Int.repr_injective h)
      . rw [given_pairwise hpairwise, given_pairwise hpairwise, if_neg hclient, if_neg hclient, henv.pairwiseSubject,
          henv'.pairwiseSubject, coincide_given (d.pairwiseSubject_ne_empty _ _) (d.pairwiseSubject_ne_empty _ _)]
        exact fun h => hid (hinjective _ h)
    . next hown =>
      have hgiven (env : Env) (user : IdentityInfo) : env.given app user = "" := by
        by_cases hpairwise : app.subjectStrategy = "pairwise"
        . rw [given_pairwise hpairwise, if_pos]
          by_contra hclient
          exact hown (.inr ⟨hpairwise, hclient⟩)
        . apply given_unknown
          grind
      rw [hgiven, hgiven, coincide_empty]

/-!
Users 7 and 8 of two tenants share a username and an address, users 9 and 10 have no address. Users 11 and 12 are
`eve@lab` of the tenant `acme` and `eve` of the tenant `lab@acme`.
-/

namespace TwoTenants

def ann : Account :=
  ⟨⟨7, 1, "ann", some "ann@x.org", none, none, "hash", User.statusActive, false⟩, true, none, false, false, by decide⟩

def twin : Account :=
  ⟨⟨8, 2, "ann", some "ann@x.org", none, none, "hash", User.statusActive, false⟩, true, none, false, false, by decide⟩

def bob : Account :=
  ⟨⟨9, 1, "bob", none, none, none, "hash", User.statusActive, false⟩, false, none, false, false, by decide⟩

def cid : Account :=
  ⟨⟨10, 2, "cid", none, none, none, "hash", User.statusActive, false⟩, false, none, false, false, by decide⟩

def eve : Account :=
  ⟨⟨11, 1, "eve@lab", none, none, none, "hash", User.statusActive, false⟩, false, none, false, false, by decide⟩

def eva : Account :=
  ⟨⟨12, 3, "eve", none, none, none, "hash", User.statusActive, false⟩, false, none, false, false, by decide⟩

def users : User.Store where
  users := Table.empty.insertIgnore [ann, twin, bob, cid, eve, eva]
  identities := .empty
  tokens := []
  written _ := ann.privileged
  emailChanges _ := 0
  consumed := []
  released := []

def tenants : Table Tenant.id :=
  Table.empty.insertIgnore [⟨1, "acme", false⟩, ⟨2, "zeta", false⟩, ⟨3, "lab@acme", false⟩]

def shared (strategy : String) : AppRow :=
  ⟨⟨30, "wiki", "wiki-client", strategy, 1, ⟨[], [], "", "", 0, false, 0⟩, ⟨Saml.nameIDEmail, "", [], "", "", 0⟩⟩, none,
    "https://wiki/logout", false⟩

def apps (strategy : String) : Table AppRow.key := Table.empty.insertIgnore [shared strategy]

def digest (clientID : String) (userID : Int) : String := "digest" ++ clientID ++ toString userID

theorem digest_injective (clientID : String) : Function.Injective (digest clientID) := by
  intro i j h
  unfold digest at h
  rw [String.append_right_inj] at h
  exact Int.repr_injective h

theorem clientID_unique (strategy : String) : ∀ a ∈ (apps strategy).rows, ∀ a' ∈ (apps strategy).rows,
    a.clientID ≠ "" → a.clientID = a'.clientID → a = a' := by
  intro a ha a' ha' _ _
  rw [mem_singleton.mp ha, mem_singleton.mp ha']

def database (strategy : String) : Database where
  users := users
  groups _ := []
  tenants := tenants
  apps := apps strategy
  resolveAppRoles := none
  pairwiseSubject := digest
  parseURL _ := none
  pairwiseSubject_ne_empty := by simp [digest]
  username_unique := by decide
  code_unique := by decide
  clientID_unique := clientID_unique strategy

def name (front : FrontEnd) (strategy : String) (u : Account) : String :=
  released front ((database strategy).env .all) (shared strategy).toAppConfig ((database strategy).identityInfo u)

def nameWithoutCode (front : FrontEnd) (strategy : String) (u : Account) : String :=
  released front { (database strategy).env .all with getTenantCode := some (fun _ => "") }
    (shared strategy).toAppConfig ((database strategy).identityInfo u)

theorem users_under_one_name :
    nameWithoutCode .oidc "username_suffixed" ann = "ann" ∧ nameWithoutCode .oidc "username_suffixed" twin = "ann"
      ∧ nameWithoutCode .saml "username_suffixed" ann = "ann" ∧ nameWithoutCode .saml "username_suffixed" twin = "ann"
      ∧ nameWithoutCode .cas "username_suffixed" ann = "ann" ∧ nameWithoutCode .cas "username_suffixed" twin = "ann"
      ∧ name .oidc "email" ann = "ann@x.org" ∧ name .oidc "email" twin = "ann@x.org"
      ∧ name .saml "email" bob = "" ∧ name .saml "email" cid = ""
      ∧ name .cas "username_suffixed" eve = "eve@lab@acme" ∧ name .cas "username_suffixed" eva = "eve@lab@acme" := by
  decide

theorem ann_twin_not_clash :
    ¬Clash .oidc (shared "username_suffixed").toAppConfig ((database "username_suffixed").identityInfo ann)
      ((database "username_suffixed").identityInfo twin) "acme" "zeta" := by
  have hstrategy : (shared "username_suffixed").subjectStrategy = "username_suffixed" := rfl
  unfold Clash
  rintro (h | h)
  . exact absurd h.separator_mem (by decide)
  . exact absurd h.separator_mem (by decide)

theorem subjects_apart_of_codes : name .oidc "username_suffixed" ann ≠ name .oidc "username_suffixed" twin :=
  (subjects_apart_iff .oidc digest_injective Database.answers_env Database.answers_env (by decide) (by decide) rfl rfl
    (by decide) (by decide)).mpr ann_twin_not_clash

end TwoTenants

end Mxid.Sso
