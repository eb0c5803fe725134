import Mxid.User.Impl.Revocation
import Mxid.User.Lemmas.Statements

namespace Mxid.User

open Prog Clients

variable {s : Store} {scope : Scope} {β : Type}

def isOff (status : Int) : Prop := status = statusLocked ∨ status = statusDisabled

theorem revoked_of_event {evt : Event} {userID status : Int} (htype : evt.type = .userLocked ∨ evt.type = .userUpdated)
    (h : adminStatusRevocation evt.payload = some (userID, status)) : Revoked [evt] userID := by
  have hhandler : revokeOnAdminStatusChange evt = revokeUserSessions userID := by
    unfold revokeOnAdminStatusChange
    rw [h]
  refine ⟨evt, List.mem_singleton_self evt, by rw [h]; rfl, ?_⟩
  unfold Bus.publish sessionRevocation
  rcases htype with htype | htype
  . simp [htype, hhandler]
  . simp [htype, hhandler]

variable {p : List (String × Value)}

theorem adminStatusRevocation_eq_some {userID status : Int} (hpos : 0 < userID)
    (hoff : isOff status) (hstatus : p.lookup "status" = some (.int status))
    (huser : p.lookup "user_id" = some (.int64 userID)) : adminStatusRevocation (.map p) = some (userID, status) := by
  have hint : Payload.int64 p "user_id" = userID := by
    unfold Payload.int64
    rw [huser]
  simp only [adminStatusRevocation, hstatus, hint]
  rw [if_neg, if_neg]
  . omega
  rintro ⟨hlocked, hdisabled⟩
  rcases hoff with hoff | hoff
  . exact hlocked hoff
  . exact hdisabled hoff

theorem adminStatusRevocation_eq_none (hstatus : p.lookup "status" = none) : adminStatusRevocation (.map p) = none := by
  simp only [adminStatusRevocation, hstatus]

theorem not_revoked {evt : Event} (h : adminStatusRevocation evt.payload = none) (userID : Int) :
    ¬Revoked [evt] userID := by
  rintro ⟨evt', hmem, hsome, _⟩
  rw [List.mem_singleton] at hmem
  rw [hmem, h] at hsome
  cases hsome

def Cmd.turnsOff (id : Int) : (c : Cmd β) → β → Prop
  | .updateStatus _ id' status, reply => reply = some true ∧ id' = id ∧ isOff status
  | _, _ => False

variable {u u' : Account}

theorem turnsOff_of_exec {c : Cmd β} (hc : c.saves = false) (hu : u ∈ s.users.rows)
    (hu' : u' ∈ (Store.exec c s).2.users.rows) (hid : u'.id = u.id) (hon : ¬isOff u.status) (hoff : isOff u'.status) :
    c.turnsOff u.id (Store.exec c s).1 := by
  rcases (Store.rewrites_exec hc).origin u' hu' with ⟨_, hfresh⟩ | ⟨u0, hu0, hold⟩
  . exact absurd hid.symm (hfresh u hu)
  have hkey : ∀ u1 ∈ s.users.rows, u1.id = u.id → u1 = u := fun u1 hu1 h => s.users.eq_of_key_eq hu1 hu h
  rcases hold with rfl | ⟨hhits, rfl⟩
  . rw [hkey u' hu0 hid] at hoff
    contradiction
  cases c with
  | updateStatus scope id =>
    have heq := hkey u0 hu0 hid
    subst heq
    have hconcerns : Store.concerns scope id u0 = true := hhits
    have haffects : s.affects scope id = true := List.any_eq_true.mpr ⟨u0, hu0, hconcerns⟩
    refine ⟨?_, (Store.id_of_concerns hconcerns).symm, hoff⟩
    -- a statement that is refused leaves the row alone
    simp only [Store.exec, Scope.tell] at hu' ⊢
    split
    . rw [haffects]
    next husable =>
    rw [if_neg husable] at hu'
    have hsame := hkey _ hu' hid
    rw [hsame] at hoff
    contradiction
  | _ =>
    have heq := hkey u0 hu0 hid
    subst heq
    contradiction

def Announced (c : Cmd β) (reply : β) (answer : Answer) : Prop :=
  c.saves = false ∧ ∀ id, 0 < id → c.turnsOff id reply → Revoked answer.events id

theorem leads_updateStatus {id status : Int} {f : Option Bool → Op Answer} (hf : ∀ reply, (f reply).Leads Announced)
    (hdone : 0 < id → isOff status → (f (some true)).Always (fun _ => True) (fun a => Revoked a.events id)) :
    (Prog.call (.updateStatus scope id status) >>= f).Leads Announced := by
  apply leads_call _ hf
  intro reply
  by_cases hreply : reply = some true ∧ 0 < id ∧ isOff status
  . rcases hreply with ⟨rfl, hpos, hoff⟩
    apply (hdone hpos hoff).mono (fun _ h => h)
    intro a ha
    refine ⟨rfl, ?_⟩
    rintro _ _ ⟨_, rfl, _⟩
    exact ha
  . apply (always_true (f reply)).mono (fun _ h => h)
    intro a _
    refine ⟨rfl, ?_⟩
    rintro id' hpos ⟨hsome, rfl, hoff⟩
    exact absurd ⟨hsome, hpos, hoff⟩ hreply

theorem announced_updateStatus {id status : Int} : (updateStatus scope id status).Leads Announced := by
  unfold updateStatus
  refine leads_updateStatus ?_ ?_
  . intro reply
    rcases reply with _ | _ | _
    . exact leads_pure
    . exact leads_pure
    refine leads_call ?_ (fun _ => leads_pure)
    intro _
    refine ⟨rfl, ?_⟩
    intro _ _ hoff
    exact hoff.elim
  . intro hpos hoff
    refine always_call_bind trivial ?_
    intro u
    apply revoked_of_event
    . rcases hoff with rfl | rfl
      . exact Or.inl rfl
      . exact Or.inr rfl
    . exact adminStatusRevocation_eq_some hpos hoff rfl rfl

theorem announced_lockUser {id actorID : Int} {reason : String} :
    (lockUser scope id actorID reason).Leads Announced := by
  unfold lockUser written
  refine leads_updateStatus ?_ ?_
  . intro reply
    rcases reply with _ | _ | _ <;> exact leads_pure
  . intro hpos hoff
    exact revoked_of_event (Or.inl rfl) (adminStatusRevocation_eq_some hpos hoff rfl rfl)

theorem silent_update {id tenantID : Int} {req : UpdateUserRequest} :
    (update scope id tenantID req).Always (fun _ => True) (fun a => ∀ id, ¬Revoked a.events id) := by
  have hnone : ∀ userID, ¬Revoked [] userID := by
    rintro userID ⟨_, hmem, _⟩
    cases hmem
  have hchecked : ∀ {p : Op (Except UserError Unit)} {f : Unit → Op Answer},
      (f ()).Always (fun _ => True) (fun a => ∀ id, ¬Revoked a.events id) →
      (checked p f).Always (fun _ => True) (fun a => ∀ id, ¬Revoked a.events id) := by
    intro p f hf
    unfold checked
    rw [always_bind]
    apply (always_true _).mono (fun _ h => h)
    intro result _
    rcases result with _ | _
    . exact hnone
    . exact hf
  unfold update withUser found
  refine always_call_bind trivial ?_
  intro reply
  rcases reply with _ | _ | u
  . exact hnone
  . exact hnone
  apply hchecked
  apply hchecked
  unfold stored
  refine always_call_bind trivial ?_
  intro reply
  rcases reply with _ | _
  . exact hnone
  . exact not_revoked (adminStatusRevocation_eq_none rfl)

theorem ne_of_turned {p p' : Clients} (hu : u ∈ p.shared.data.users.rows)
    (hactive : u.status = statusActive) (hu' : u' ∈ p'.shared.data.users.rows) (hid : u'.id = u.id)
    (hoff : isOff u'.status) : p'.shared.data ≠ p.shared.data := by
  intro heq
  rw [heq] at hu'
  have hsame : u' = u := p.shared.data.users.eq_of_key_eq hu' hu hid
  rw [hsame, hactive] at hoff
  exact absurd hoff (by unfold isOff; decide)

theorem statusChange_revokes_iff {s₀ : Store} {calls : List Call} {turns later : List (Nat × Nat)}
    {p p' p'' : Clients} {i delay : Nat} {call : Call} {answer : Answer}
    (hrun : Run step (fun _ _ => True) (.start s₀ calls) turns p) (hcall : calls[i]? = some call)
    (hsets : call.setsStatus = true) (hstep : step p (i, delay) = some p')
    (hu : u ∈ p.shared.data.users.rows) (hactive : u.status = statusActive)
    (hu' : u' ∈ p'.shared.data.users.rows) (hid : u'.id = u.id)
    (hoff : u'.status = statusLocked ∨ u'.status = statusDisabled)
    (hlater : Run step (fun _ _ => True) p' later p'') (hanswer : p''.result i = some answer) :
    (Revoked answer.events u.id ↔ call.isUpdate = false)
      ∧ ∀ (e : Authn.Engine) (rdb : RateLimit.Keyspace Authn.Identifier) (now userID : Int) (req : Authn.AuthRequest),
          ∀ l ∈ (e.trackFailure rdb now userID req).1, ∀ id, ¬Revoked [l.event] id := by
  have hstart : ∀ t, (start s₀ calls).threads[i]? = some t → t = call.prog := by
    intro t ht
    simp only [start, List.getElem?_map, hcall, Option.map_some] at ht
    exact (Option.some.inj ht).symm
  rcases Pool.step_eq_some hstep with ⟨_, paused, c, k, hthread, _⟩
  -- an operation that updates the status alone announces it
  have hrevoked : call.prog.Leads Announced → Revoked answer.events u.id := by
    intro hleads
    have hrest := Pool.threads_run (T := fun t => t.Leads Announced) (fun _ _ _ h b => (h b).2)
      (fun t ht => by rw [hstart t ht]; exact hleads) hrun _ hthread
    rcases Pool.result_of_leads hthread hrest hstep hlater hanswer with hdata | ⟨_, c, hdata, hsaves, hannounced⟩
    . exact absurd hdata (ne_of_turned hu hactive hu' hid hoff)
    apply hannounced u.id u.id_pos
    rw [hdata] at hu'
    apply turnsOff_of_exec hsaves hu hu' hid _ hoff
    rw [hactive]
    unfold isOff
    decide
  refine ⟨?_, ?_⟩
  . cases call with
    | updateStatus => exact ⟨fun _ => rfl, fun _ => hrevoked announced_updateStatus⟩
    | lockUser => exact ⟨fun _ => rfl, fun _ => hrevoked announced_lockUser⟩
    | update scope id =>
      have hsilent : ∀ t, p.threads[i]? = some t →
          t.Always (fun _ => True) (fun a => ∀ id, ¬Revoked a.events id) := by
        apply Pool.threads_run (T := fun t => t.Always (fun _ => True) (fun a : Answer => ∀ id, ¬Revoked a.events id))
          (fun _ _ _ h b => h.2 b) _ hrun
        intro t ht
        rw [hstart t ht]
        exact silent_update
      have hleads := (hsilent _ hthread).leads (Q := fun _ _ a => ∀ id, ¬Revoked a.events id) (fun _ _ _ h => h)
      rcases Pool.result_of_leads hthread hleads hstep hlater hanswer with hdata | ⟨_, _, _, hnot⟩
      . exact absurd hdata (ne_of_turned hu hactive hu' hid hoff)
      . exact ⟨fun h => absurd h (hnot u.id), fun h => nomatch h⟩
    | _ => contradiction
  . intro _ _ _ _ _ l _
    exact not_revoked (adminStatusRevocation_eq_none rfl)

namespace LeftIn

def ann (status : Int) : Account := { User.ann with status }

def store : Store := .holding [ann statusActive] []

def edit : Call := .update (.tenant 1) 7 1 ⟨none, none, none, none, some statusDisabled⟩

def disable : Call := .updateStatus (.tenant 1) 7 statusDisabled

abbrev exec (call : Call) (turns : List Nat) : Option Clients :=
  Clients.exec (fun _ _ => true) (.start store [call]) (turns.map (·, 0))

theorem read_isSome : (exec edit [0]).isSome = true := by
  decide

def read : Clients := (exec edit [0]).get read_isSome

theorem saved_isSome : (Clients.step read (0, 0)).isSome = true := by
  decide

def saved : Clients := (step read (0, 0)).get saved_isSome

def editedEvent : Event := ⟨.userUpdated, .map [("user_id", .int64 7), ("tenant_id", .int64 1)]⟩

theorem edited_user_left_in :
    Run Clients.step (fun _ _ => True) (.start store [edit]) [(0, 0)] read ∧ Clients.step read (0, 0) = some saved
      ∧ ann statusActive ∈ read.shared.data.users.rows ∧ ann statusDisabled ∈ saved.shared.data.users.rows
      ∧ saved.result 0 = some ⟨.ok none, [editedEvent]⟩
      ∧ adminStatusRevocation editedEvent.payload = none ∧ sessionRevocation.publish editedEvent = [[]] :=
  ⟨(Run.of_isSome read_isSome).free, (Option.some_get saved_isSome).symm,
    by decide, by decide, rfl, rfl, rfl⟩

theorem disabled_isSome : (step (.start store [disable]) (0, 0)).isSome = true := by
  decide

def disabled : Clients := (step (.start store [disable]) (0, 0)).get disabled_isSome

theorem announced_isSome : (Clients.exec (fun _ _ => true) disabled [(0, 0)]).isSome = true := by
  decide

def announced : Clients := (Clients.exec (fun _ _ => true) disabled [(0, 0)]).get announced_isSome

def disabledEvent : Event :=
  ⟨.userUpdated, .map [("user_id", .int64 7), ("status", .int statusDisabled), ("tenant_id", .int64 1)]⟩

theorem ann_mem_start : ann statusActive ∈ (start store [disable]).shared.data.users.rows := by
  decide

theorem ann_mem_disabled : ann statusDisabled ∈ disabled.shared.data.users.rows := by
  decide

theorem announced_result : announced.result 0 = some ⟨.ok none, [disabledEvent]⟩ := by
  rfl

theorem disabled_user_revoked : Revoked [disabledEvent] 7 :=
  (statusChange_revokes_iff Run.nil rfl rfl
      (Option.some_get disabled_isSome).symm ann_mem_start rfl ann_mem_disabled rfl
    (Or.inr rfl) ((Run.of_isSome announced_isSome).free)
    announced_result).1.mpr rfl

end LeftIn

end Mxid.User
