import Mxid.Sso.Impl.Logout
import Mxid.Sso.Lemmas.Subject
import Mxid.User.Lemmas.Programs

namespace Mxid.Sso

open User (Account)

theorem isDigit_of_mem_repr {n : Nat} {c : Char} (h : c ∈ n.repr.toList) : c.isDigit = true := by
  rw [Nat.repr_eq_ofList_toDigits, String.toList_ofList] at h
  exact Nat.isDigit_of_mem_toDigits (by decide) (by decide) h

theorem separator_notMem_toString (id : Int) : '@' ∉ (toString id).toList := by
  change '@' ∉ id.repr.toList
  have hdigit : ('@' : Char).isDigit ≠ true := by decide
  rw [Int.repr_eq_if]
  split
  . intro h
    exact hdigit (isDigit_of_mem_repr h)
  intro h
  rw [String.toList_append, List.mem_append] at h
  rcases h with h | h
  . revert h
    decide
  . exact hdigit (isDigit_of_mem_repr h)

theorem joined_ne_toString {username code : String} {id : Int} : username ++ "@" ++ code ≠ toString id := by
  intro h
  apply separator_notMem_toString id
  rw [← h, toList_joined]
  simp

namespace Database

variable {d : Database} {app : AppRow} {u : Account}

theorem getAppByClientID_of_mem (happ : app ∈ d.apps.rows) (hclient : app.clientID ≠ "") :
    d.getAppByClientID app.clientID = some app := by
  apply Table.find?_orderBy_of_unique _ happ
  . simp [hclient]
  intro a ha hcond
  simp only [Bool.and_eq_true, decide_eq_true_eq] at hcond
  exact d.clientID_unique a ha app happ hcond.1 hcond.2

end Database

def NamedByID (d : Database) (app : AppConfig) (u : Account) : Prop :=
  if app.subjectStrategy = "username" ∨ app.subjectStrategy = "" then
    u.username = "" ∨ u.username = toString u.id
  else if app.subjectStrategy = "username_suffixed" then
    (u.tenantID ≤ 0 ∨ d.getTenantCode u.tenantID = "") ∧ (u.username = "" ∨ u.username = toString u.id)
  else if app.subjectStrategy = "email" then
    u.email.getD "" = "" ∨ u.email.getD "" = toString u.id
  else if app.subjectStrategy = "pairwise" then
    d.pairwiseSubject app.clientID u.id = toString u.id
  else
    True

theorem released_eq_id_iff {env : Env} {app : AppConfig} {user : IdentityInfo} :
    released .oidc env app user = toString user.id
      ↔
    env.given app user = "" ∨ env.given app user = toString user.id := by
  rw [released_eq]
  split
  . next h => simp [h, fallback]
  . next h => simp [h]

theorem given_username {env : Env} {app : AppConfig} {user : IdentityInfo}
    (h : app.subjectStrategy = "username" ∨ app.subjectStrategy = "") : env.given app user = user.username := by
  unfold Env.given Env.subject resolveSubject
  rw [if_pos h]

theorem tenantCode_eq_empty_iff {d : Database} {scope : Scope} {user : IdentityInfo} :
    (d.env scope).tenantCode user = "" ↔ user.tenantID ≤ 0 ∨ d.getTenantCode user.tenantID = "" := by
  unfold Env.tenantCode Database.env
  dsimp only
  split
  . next hpos =>
    have hnot : ¬user.tenantID ≤ 0 := by omega
    simp [hnot]
  . next hpos =>
    have hle : user.tenantID ≤ 0 := by omega
    simp [hle]

theorem namedByID_iff {d : Database} {app : AppConfig} {u : Account} (hclient : app.clientID ≠ "") :
    released .oidc (d.env .all) app (d.identityInfo u) = toString u.id ↔ NamedByID d app u := by
  apply (@released_eq_id_iff (d.env .all) app (d.identityInfo u)).trans
  unfold NamedByID
  split
  . next h =>
    rw [given_username h]
    rfl
  next h =>
  split
  . next hsuffixed =>
    rw [given_suffixed hsuffixed]
    unfold suffixed
    split
    . next hcode =>
      rw [tenantCode_eq_empty_iff] at hcode
      exact (and_iff_right hcode).symm
    . next hcode =>
      rw [tenantCode_eq_empty_iff] at hcode
      constructor
      . rintro (h | h)
        . exact absurd h joined_ne_empty
        . exact absurd h joined_ne_toString
      . rintro ⟨hcode', _⟩
        exact absurd hcode' hcode
  . next hsuffixed =>
    split
    . next hemail =>
      rw [given_email hemail]
      rfl
    . next hemail =>
      split
      . next hpairwise =>
        rw [given_pairwise hpairwise, if_neg hclient]
        exact or_iff_right (d.pairwiseSubject_ne_empty _ _)
      . next hpairwise =>
        rw [iff_true]
        by_cases hpersistent : app.subjectStrategy = "persistent_id"
        . exact .inr (given_persistent hpersistent)
        apply Or.inl
        apply given_unknown
        simp [h, hsuffixed, hemail, hpairwise, hpersistent]

namespace LogoutService

variable {svc : LogoutService} {d : Database}

structure NamesID (post : LogoutPost) (userID : Int) : Prop where
  audience : post.claims.audience ≠ ""
  subject : post.claims.subject = toString userID

theorem sendLogout_eq_some {appID userID : Int} {sid : String} {post : LogoutPost}
    (h : svc.sendLogout d .none appID userID sid = some post) : NamesID post userID := by
  unfold sendLogout at h
  split at h
  . contradiction
  split at h
  . contradiction
  next hclient =>
  cases h
  exact ⟨fun hempty => hclient (.inl hempty), rfl⟩

variable {protoSessions : Except String (List Sessions.Session)} {index : Index} {userID appID : Int}
  {post : LogoutPost}

theorem namesID_of_mem_logoutUser (h : post ∈ (svc.logoutUser d protoSessions index userID).1) :
    NamesID post userID := by
  unfold logoutUser at h
  split at h
  . contradiction
  rcases List.mem_flatMap.mp h with ⟨t, _, hpost⟩
  rcases List.mem_filterMap.mp hpost with ⟨appID, _, hsend⟩
  exact sendLogout_eq_some hsend

end LogoutService

theorem logout_names_subject_iff {svc : LogoutService} {d : Database} {app : AppRow} {u : Account} {post : LogoutPost}
    {protoSessions : Except String (List Sessions.Session)} {index : Index} (happ : app ∈ d.apps.rows)
    (hu : u ∈ d.users.users.rows) (hlive : u.deleted = false)
    (hpost : post ∈ (svc.logoutUser d protoSessions index u.id).1
      ∨ post ∈ svc.logoutUserApp d protoSessions index u.id app.id)
    (haudience : post.claims.audience = app.clientID) :
    setUserinfo (d.env .all) u.id app.clientID = .ok post.claims.subject ↔ NamedByID d app.toAppConfig u := by
  have hnames : LogoutService.NamesID post u.id := by
    rcases hpost with hpost | hpost
    . exact LogoutService.namesID_of_mem_logoutUser hpost
    . unfold LogoutService.logoutUserApp at hpost
      split at hpost
      . contradiction
      . rcases List.mem_filterMap.mp hpost with ⟨sid, _, hsend⟩
        exact LogoutService.sendLogout_eq_some hsend
  have hclient : app.clientID ≠ "" := haudience ▸ hnames.audience
  have hrow : (User.Store.exec (.getByID .all u.id) d.users).1 = some (d.users.getByID .all u.id) := rfl
  have huser : (d.env .all).resolveUser u.id = .ok (d.identityInfo u) := by
    change d.resolveUser .all u.id = _
    unfold Database.resolveUser
    rw [hrow, User.Store.getByID_of_mem hu hlive rfl]
  have hfound : (d.env .all).getAppByClientID app.clientID = some app.toAppConfig := by
    change (d.getAppByClientID app.clientID).map AppRow.toAppConfig = _
    rw [Database.getAppByClientID_of_mem happ hclient, Option.map_some]
  unfold setUserinfo
  rw [huser, hfound, hnames.subject]
  exact (iff_of_eq (Except.ok.injEq ..)).trans (namedByID_iff hclient)

namespace TwoTenants

def service : LogoutService := ⟨"https://id/protocol/oidc", none⟩

def session : Sessions.Session :=
  ⟨"s1", 7, 1, .protocol, "", "", "password", false, 0, 3600000, 0, none, false, false⟩

def participation : Index := fun sid => if sid = "s1" then [30] else []

def posted (subject : String) : LogoutPost :=
  ⟨"https://wiki/logout", "https://id/protocol/oidc", "wiki-client", subject, ""⟩

theorem logout_names_another :
    (service.logoutUser (database "username") (.ok [session]) participation 7).1 = [posted "7"]
      ∧ service.logoutUserApp (database "username") (.ok [session]) participation 7 30 = [posted "7"]
      ∧ setUserinfo ((database "username").env .all) 7 "wiki-client" = .ok "ann" := by
  decide

theorem shared_mem : shared "persistent_id" ∈ (database "persistent_id").apps.rows := by
  decide

theorem ann_mem : ann ∈ (database "persistent_id").users.users.rows := by
  decide

theorem posted_mem :
    posted "7" ∈ (service.logoutUser (database "persistent_id") (.ok [session]) participation ann.id).1 := by
  decide

theorem logout_names_persistent :
    posted "7" ∈ (service.logoutUser (database "persistent_id") (.ok [session]) participation ann.id).1
      ∧ setUserinfo ((database "persistent_id").env .all) ann.id "wiki-client" = .ok "7" :=
  ⟨posted_mem, (logout_names_subject_iff shared_mem ann_mem rfl (.inl posted_mem) rfl).mpr trivial⟩

end TwoTenants

end Mxid.Sso
