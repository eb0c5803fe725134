import Mxid.Sso.Impl.CasLogout
import Mxid.Sso.Lemmas.SessionIndex

namespace Mxid.Sso.Cas

open Redis.Store List World LogoutIndex

def lifetime : Int := 1000 * formatSec casSLORegistryTTL

namespace World

variable {h : SloHandler} {w w' : World}

structure Grows (w w' : World) (key : Option (Int × Int)) : Prop where
  outbox : ∀ t ∈ w.outbox, t ∈ w'.outbox
  now : w.registry.now ≤ w'.registry.now
  recorded : ∀ r ∈ w'.recorded, r ∈ w.recorded ∨ key = some (r.userID, r.appID)

variable {key : Option (Int × Int)} {r : Recorded} {userID appID : Int}

theorem Grows.dispatched (hgrows : Grows w w' key) (hr : w.Dispatched h r) : w'.Dispatched h r := by
  rcases hr with ⟨id, issueInstant, hmem⟩
  exact ⟨id, issueInstant, hgrows.outbox _ hmem⟩

theorem Grows.outdated (hgrows : Grows w w' key) (hr : w.Outdated r) : w'.Outdated r := by
  have := hgrows.now
  unfold Outdated at *
  omega

theorem grows_advance (w : World) (paused : Bool) (delay : Nat) :
    Grows w (if paused then (semantics h).advance delay w else w) none := by
  split
  . refine ⟨fun _ ht => ht, ?_, fun _ hr => .inl hr⟩
    show w.registry.now ≤ w.registry.now + delay
    omega
  . exact ⟨fun _ ht => ht, Int.le_refl _, fun _ hr => .inl hr⟩

theorem grows_exec {β : Type} (c : Cmd β) (w : World) : Grows w (exec h c w).2 c.recordOf := by
  cases c with
  | recordService =>
    rw [exec]
    split
    . exact ⟨fun _ ht => ht, Int.le_refl _, fun _ hr => .inl hr⟩
    refine ⟨fun _ ht => ht, Int.le_refl _, ?_⟩
    intro r hr
    rcases mem_append.mp hr with hr | hr
    . exact .inl hr
    . rw [mem_singleton.mp hr]
      exact .inr rfl
  | dispatch =>
    exact ⟨fun _ ht => mem_append_left _ ht, Int.le_refl _, fun _ hr => .inl hr⟩
  | listServices | clear =>
    rw [exec]
    split <;> exact ⟨fun _ ht => ht, Int.le_refl _, fun _ hr => .inl hr⟩

def Held (w : World) (r : Recorded) : Prop :=
  ∀ now, w.registry.now ≤ now → now ≤ r.time + lifetime →
    r.ref ∈ w.registry.refs.smembers now (r.userID, r.appID) ∧ r.appID ∈ w.registry.apps.smembers now r.userID

variable (h w) in
structure Kept : Prop where
  past : ∀ r ∈ w.recorded, r.time ≤ w.registry.now
  kept : ∀ r ∈ w.recorded, w.Dispatched h r ∨ w.Held r

variable (h w) in
def Covers (userID appID : Int) (services : List CASServiceRef) : Prop :=
  ∀ r ∈ w.recorded, r.userID = userID → r.appID = appID → w.Dispatched h r ∨ w.Outdated r ∨ r.ref ∈ services

theorem Held.listed (hr : w.Held r) (htime : ¬w.Outdated r) : w.Listed r := by
  have hle : w.registry.now ≤ r.time + lifetime := Int.not_lt.mp htime
  rcases hr w.registry.now (Int.le_refl _) hle with ⟨href, happ⟩
  refine ⟨href, ?_⟩
  intro hne
  exact mem_filter.mpr ⟨happ, decide_eq_true hne⟩

section

variable (hkept : w.Kept h)

include hkept

theorem Kept.advance (paused : Bool) (delay : Nat) : (if paused then (semantics h).advance delay w else w).Kept h := by
  have hgrows := grows_advance (h := h) w paused delay
  constructor
  . intro r hr
    rcases hgrows.recorded r hr with hr | hr
    . exact Int.le_trans (hkept.past r hr) hgrows.now
    . contradiction
  . intro r hr
    rcases hgrows.recorded r hr with hr | hr
    . rcases hkept.kept r hr with hr | hr
      . exact .inl (hgrows.dispatched hr)
      right
      intro now hnow
      have hheld := hr now (Int.le_trans hgrows.now hnow)
      cases paused <;> exact hheld
    . contradiction

theorem Kept.next : w.next.Kept h where
  __ := hkept

theorem Kept.recordService (userID appID : Int) (serviceURL ticket : String) :
    (w.recordService userID appID serviceURL ticket).Kept h := by
  have hpos : 0 < formatSec casSLORegistryTTL := by decide
  constructor
  . intro r hr
    rcases mem_append.mp hr with hr | hr
    . exact hkept.past r hr
    . rw [mem_singleton.mp hr]
      exact Int.le_refl _
  . intro r hr
    rcases mem_append.mp hr with hr | hr
    . rcases hkept.kept r hr with hsent | hheld
      . exact .inl hsent
      right
      have hpast := hkept.past r hr
      intro now hnow hlife
      have hnow : w.registry.now ≤ now := hnow
      have hbefore := hheld w.registry.now (Int.le_refl _) (by omega)
      have hafter := hheld now hnow hlife
      have hend : now ≤ w.registry.now + 1000 * formatSec casSLORegistryTTL := by
        unfold lifetime at hlife
        omega
      constructor
      . by_cases hk : (r.userID, r.appID) = (userID, appID)
        . rw [hk] at hbefore ⊢
          exact mem_record_refs.mpr ⟨hpos, hend, .inr hbefore.1⟩
        . rw [← smembers_congr (record_refs_of_ne hk)] at hafter
          exact hafter.1
      . by_cases hu : r.userID = userID
        . rw [hu] at hbefore ⊢
          exact mem_record_apps.mpr ⟨hpos, hend, .inr hbefore.2⟩
        . rw [← smembers_congr (record_apps_of_ne hu)] at hafter
          exact hafter.2
    . rw [mem_singleton.mp hr]
      right
      intro now hnow hlife
      exact ⟨mem_record_refs.mpr ⟨hpos, hlife, .inl rfl⟩,
        mem_record_apps.mpr ⟨hpos, hlife, .inl rfl⟩⟩

theorem Kept.dispatch (userID appID : Int) (services : List CASServiceRef) :
    (w.dispatch h userID appID services).Kept h := by
  have hgrows : Grows w (w.dispatch h userID appID services) none := grows_exec (.dispatch userID appID services) w
  refine ⟨hkept.past, ?_⟩
  intro r hr
  rcases hkept.kept r hr with hr | hr
  . exact .inl (hgrows.dispatched hr)
  . exact .inr hr

theorem Kept.clear (hcovers : w.Covers h userID appID []) : (w.clear userID appID).Kept h := by
  refine ⟨hkept.past, ?_⟩
  intro r hr
  rcases hkept.kept r hr with hsent | hheld
  . exact .inl hsent
  by_cases hk : (r.userID, r.appID) = (userID, appID)
  . rcases hcovers r hr (Prod.mk.inj hk).1 (Prod.mk.inj hk).2 with hsent | hover | hmem
    . exact .inl hsent
    . right
      intro now hnow hlife
      have hnow : w.registry.now ≤ now := hnow
      unfold Outdated at hover
      unfold lifetime at hlife
      omega
    . exact absurd hmem not_mem_nil
  . right
    intro now hnow hlife
    have hafter := hheld now hnow hlife
    constructor
    . rw [← smembers_congr (del_of_ne hk)] at hafter
      exact hafter.1
    . by_cases hu : r.userID = userID
      . rw [hu] at hafter hk ⊢
        apply mem_smembers_srem _ _ hafter.2
        rintro hid
        rw [hid] at hk
        exact hk rfl
      . rw [← smembers_congr (srem_of_ne hu)] at hafter
        exact hafter.2

theorem Kept.covers_listServices (userID appID : Int) :
    w.Covers h userID appID (w.registry.listServices userID appID) := by
  rintro r hr rfl rfl
  rcases hkept.kept r hr with hsent | hheld
  . exact .inl hsent
  right
  by_cases htime : w.Outdated r
  . exact .inl htime
  . exact .inr (hheld.listed htime).1

end

variable {services : List CASServiceRef}

theorem Covers.dispatch
    (hcovers : w.Covers h userID appID services) : (w.dispatch h userID appID services).Covers h userID appID [] := by
  have hgrows : Grows w (w.dispatch h userID appID services) none := grows_exec (.dispatch userID appID services) w
  rintro r hr rfl rfl
  rcases hcovers r hr rfl rfl with hsent | hover | hmem
  . exact .inl (hgrows.dispatched hsent)
  . exact .inr (.inl hover)
  left
  rcases mem_iff_getElem.mp hmem with ⟨i, hi, href⟩
  refine ⟨SloHandler.logoutID r.userID r.appID w.registry.now i, h.rfc3339 w.registry.now, ?_⟩
  apply mem_append_right
  unfold SloHandler.targets
  rw [mem_mapIdx]
  exact ⟨i, hi, by rw [href]⟩

theorem Grows.covers (hgrows : Grows w w' key) (hkey : key ≠ some (userID, appID))
    (hcovers : w.Covers h userID appID services) : w'.Covers h userID appID services := by
  rintro r hr rfl rfl
  rcases hgrows.recorded r hr with hr | hr
  . rcases hcovers r hr rfl rfl with hsent | hover | hmem
    . exact .inl (hgrows.dispatched hsent)
    . exact .inr (.inl (hgrows.outdated hover))
    . exact .inr (.inr hmem)
  . contradiction

end World

inductive Stage (h : SloHandler) (w : World) : Prog Cmd Unit → Prop
  | done : Stage h w (pure ())
  | recordService (userID appID : Int) (serviceURL ticket : String) :
      Stage h w (recordService userID appID serviceURL ticket)
  | singleLogout (userID appID : Int) : Stage h w (singleLogout userID appID)
  | dispatchServices (userID appID : Int) (services : List CASServiceRef)
      (hcovers : w.Covers h userID appID services) : Stage h w (dispatchServices userID appID services)
  | clearServices (userID appID : Int) (hcovers : w.Covers h userID appID []) :
      Stage h w (clearServices userID appID)

variable {h : SloHandler}

theorem Stage.grows {w w' : World} {key : Option (Int × Int)} {t : Prog Cmd Unit} (hstage : Stage h w t)
    (hgrows : World.Grows w w' key) (hkey : ∀ k, key = some k → nextOf Cmd.logoutOf t ≠ some k) : Stage h w' t := by
  have hne {userID appID : Int} (hnext : nextOf Cmd.logoutOf t = some (userID, appID)) :
      key ≠ some (userID, appID) := by
    intro heq
    exact hkey _ heq hnext
  cases hstage with
  | done => exact .done
  | recordService => exact .recordService ..
  | singleLogout => exact .singleLogout ..
  | dispatchServices userID appID services hcovers =>
    exact .dispatchServices _ _ _ (hgrows.covers (hne rfl) hcovers)
  | clearServices userID appID hcovers => exact .clearServices _ _ (hgrows.covers (hne rfl) hcovers)

theorem Stage.next {w : World} {β : Type} {paused : Bool} {c : Cmd β} {k : β → Prog Cmd Unit}
    (hstage : Stage h w (.cmd paused c k)) (hkept : w.Kept h) :
    (exec h c w).2.Kept h ∧ Stage h (exec h c w).2 (k (exec h c w).1) := by
  generalize ht : Prog.cmd paused c k = t at hstage
  cases hstage with
  | done => contradiction
  | recordService userID appID serviceURL ticket =>
    cases ht
    rw [exec]
    split
    . exact ⟨hkept.next, .done⟩
    . exact ⟨hkept.next.recordService userID appID serviceURL ticket, .done⟩
  | singleLogout userID appID =>
    cases ht
    rw [exec]
    split
    . exact ⟨hkept.next, .done⟩
    refine ⟨hkept.next, ?_⟩
    dsimp only [Prog.bind]
    split
    . exact .done
    . exact .dispatchServices _ _ _ (hkept.covers_listServices userID appID)
  | dispatchServices userID appID services hcovers =>
    cases ht
    exact ⟨hkept.dispatch .., .clearServices _ _ hcovers.dispatch⟩
  | clearServices userID appID hcovers =>
    cases ht
    rw [exec]
    split
    . exact ⟨hkept.next, .done⟩
    . have hcovers : w.next.Covers h userID appID [] := hcovers
      exact ⟨hkept.next.clear hcovers, .done⟩

structure Going (h : SloHandler) (p : Pool Cmd Unit World) : Prop where
  kept : p.shared.Kept h
  stages : ∀ (i : Nat) (t : Prog Cmd Unit), p.threads[i]? = some t → Stage h p.shared t

theorem Going.step {p p' : Pool Cmd Unit World} {turn : Nat × Nat} (hgoing : Going h p)
    (hundisturbed : undisturbed p turn = true) (hstep : p.step (semantics h) turn = some p') : Going h p' := by
  rcases Pool.step_eq_some hstep with ⟨β, paused, c, k, hthread, hshared, _, hself, hother⟩
  unfold undisturbed at hundisturbed
  rw [hthread, Option.bind_some, Option.all_eq_true] at hundisturbed
  simp only [all_eq_true, decide_eq_true_eq] at hundisturbed
  -- the command is run in a world in which only time has passed
  have hadvance := grows_advance (h := h) p.shared paused turn.2
  have hkept := hgoing.kept.advance paused turn.2
  have hstages : ∀ (i : Nat) (t : Prog Cmd Unit), p.threads[i]? = some t →
      Stage h (if paused then (semantics h).advance turn.2 p.shared else p.shared) t := by
    intro i t ht
    apply (hgoing.stages i t ht).grows hadvance
    intro key hkey
    contradiction
  have hnext := (hstages turn.1 _ hthread).next hkept
  constructor
  . rw [hshared]
    exact hnext.1
  . intro i t ht
    rw [hshared]
    rcases Pool.thread_cases hself hother ht with ⟨rfl, rfl⟩ | ⟨_, ht⟩
    . exact hnext.2
    apply (hstages i t ht).grows (grows_exec c _)
    intro key hkey
    exact hundisturbed key hkey t (mem_of_getElem? ht)

/--
If nothing is recorded for a user and an application in the middle of a logout of the two, every service that was
recorded was sent a request with its ticket, or is found by the next logout until its time is over.
-/
theorem services_accounted (h : SloHandler) (calls : List Call) (now : Int) (faults : List Bool)
    {turns : List (Nat × Nat)} {p : Pool Cmd Unit World}
    (run : Run (Pool.step (semantics h)) (fun p turn => undisturbed p turn = true)
      (Call.start calls now faults) turns p)
    (r : Recorded) (hr : r ∈ p.shared.recorded) :
    p.shared.Dispatched h r ∨ p.shared.Outdated r ∨ p.shared.Listed r := by
  have hgoing : Going h p := by
    refine run.invariant ⟨⟨?_, ?_⟩, ?_⟩ (fun _ _ _ hgoing h hstep => hgoing.step h hstep)
    . intro r hr
      contradiction
    . intro r hr
      contradiction
    intro i t ht
    unfold Call.start at ht
    rw [List.getElem?_map, Option.map_eq_some_iff] at ht
    rcases ht with ⟨call, _, rfl⟩
    cases call with
    | recordService => exact .recordService ..
    | singleLogout => exact .singleLogout ..
  rcases hgoing.kept.kept r hr with hsent | hheld
  . exact .inl hsent
  right
  by_cases htime : p.shared.Outdated r
  . exact .inl htime
  . exact .inr (hheld.listed htime)

namespace TwoServices

def handler : SloHandler where
  logoutURLOverride := fun _ => ""
  rfc3339 := fun _ => "now"

def calls : List Call :=
  [.recordService 1 10 "https://wiki/a" "ST-a", .recordService 1 10 "https://wiki/b" "ST-b", .singleLogout 1 10]

def second : Recorded := ⟨1, 10, ⟨"https://wiki/b", "ST-b"⟩, 0⟩

abbrev after : List (Nat × Nat) := [(0, 0), (2, 0), (2, 0), (2, 0), (1, 0)]

abbrev afterExec : Option (Pool Cmd Unit World) :=
  Run.exec (Pool.step (semantics handler)) (fun p turn => undisturbed p turn = true) (Call.start calls 0 []) after

theorem afterExec_isSome : afterExec.isSome = true := by
  decide +kernel

theorem second_accounted :
    second ∈ (afterExec.get afterExec_isSome).shared.recorded
      ∧ ((afterExec.get afterExec_isSome).shared.Dispatched handler second
        ∨ (afterExec.get afterExec_isSome).shared.Outdated second
        ∨ (afterExec.get afterExec_isSome).shared.Listed second) := by
  have hmem : second ∈ (afterExec.get afterExec_isSome).shared.recorded := by decide +kernel
  refine ⟨hmem, ?_⟩
  apply services_accounted handler calls 0 [] (Run.of_isSome _) second hmem

abbrev between : List (Nat × Nat) := [(0, 0), (2, 0), (1, 0), (2, 0), (2, 0)]

abbrev betweenExec : Option (Pool Cmd Unit World) :=
  Run.exec (Pool.step (semantics handler)) (fun _ _ => True) (Call.start calls 0 []) between

theorem betweenExec_isSome : betweenExec.isSome = true := by
  decide +kernel

theorem second_lost :
    Run (Pool.step (semantics handler)) (fun _ _ => True) (Call.start calls 0 []) between
        (betweenExec.get betweenExec_isSome)
      ∧ [0, 1, 2].map (betweenExec.get betweenExec_isSome).result = [some (), some (), some ()]
      ∧ second ∈ (betweenExec.get betweenExec_isSome).shared.recorded
      ∧ (betweenExec.get betweenExec_isSome).shared.outbox
        = [⟨"https://wiki/a", casLogoutXML "LR-1-10-0-0" "now" "ST-a"⟩]
      ∧ (betweenExec.get betweenExec_isSome).shared.registry.now = 0
      ∧ (betweenExec.get betweenExec_isSome).shared.registry.listServices 1 10 = []
      ∧ (betweenExec.get betweenExec_isSome).shared.registry.appsForUser 1 = [] := by
  refine ⟨Run.of_isSome _, ?_⟩
  decide +kernel

end TwoServices

end Mxid.Sso.Cas
