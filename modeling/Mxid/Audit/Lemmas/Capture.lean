import Mxid.Audit.Impl.Capture
import Mxid.Data.Table

namespace Mxid.Audit.Capture

open List Columns

theorem Columns.get_redactMap {m : Columns} {c : String} (hc : isSensitiveKey c = false) :
    get (redactMap m) c = m.get c := by
  unfold get redactMap
  congr 1
  induction m with
  | nil => rfl
  | cons p m ih =>
    rcases p with ⟨k, v⟩
    by_cases hk : c = k
    . subst hk
      simp [hc]
    have hne : (c == k) = false := by simpa using hk
    rw [filter_cons]
    split
    . rw [lookup_cons, lookup_cons, ih]
    . rw [lookup_cons, hne, ih]

def Columns.restrict (r : Columns) (cols : List String) : Columns :=
  cols.map (fun c => (c, r.get c))

theorem redactMap_restrict_eq_iff {r m : Columns} :
    redactMap m = redactMap (r.restrict (m.map Prod.fst))
      ↔
    ∀ p ∈ m, isSensitiveKey p.1 = false → r.get p.1 = p.2 := by
  induction m with
  | nil => simp [restrict]
  | cons p m ih =>
    rw [forall_mem_cons, ← ih]
    unfold redactMap restrict
    rw [map_cons, map_cons, filter_cons, filter_cons]
    cases hp : isSensitiveKey p.1 with
    | true => simp
    | false =>
      simp only [Bool.not_false, if_true, List.cons.injEq, true_implies, Prod.ext_iff, true_and]
      rw [eq_comm (a := p.2)]

def Schema.keyOf (schema : Schema) (r : Columns) : Option Int64 :=
  match schema.prioritizedPrimaryField with
  | none => none
  | some f =>
    match r.get f with
    | .int64 id => some id
    | _ => none

def Columns.idNumber (r : Columns) : Option Int64 :=
  match r.get "id" with
  | .int64 v | .float64 v | .int v => some v
  | _ => none

structure Fact where
  resourceID : Option Int64
  before : Option Columns
  after : Option Columns

def Event.fact (ev : Event) : Fact where
  resourceID := some ev.resourceID
  before := ev.before
  after := ev.after

namespace Statement

variable (stmt : Statement)

def columns : Operation → List String
  | .update _ => (stmt.destMap.map (fun m => m.map Prod.fst)).getD stmt.schema.fields
  | _ => stmt.schema.fields

/--
What the event of one row is to say, from the row before and after the statement.
-/
def fact (op : Operation) (change : Option Columns × Option Columns) : Fact where
  resourceID := (change.1.or change.2).bind stmt.schema.keyOf
  before := change.1.map redactMap
  after := change.2.map (fun r => redactMap (r.restrict (stmt.columns op)))

def Complete (t t' : Tables stmt.schema) (op : Operation) : Prop :=
  t'.table.rows = stmt.write t.table.rows op
    ∧ ∃ events, t'.pending = t.pending ++ events
      ∧ (events.map Event.fact).Perm ((stmt.changes t.table.rows op).map (stmt.fact op))

/--
The key that is set in the model's value.
-/
def setKey : Option Int64 :=
  (stmt.reflectValue.elems.head?.bind stmt.schema.keyOf).filter (fun k => k ≠ 0)

/--
The model's value gives the row its plain columns.
-/
def First (r : Columns) : Prop :=
  ∃ m, stmt.reflectValue.elems.head? = some m
    ∧ ∀ c ∈ stmt.schema.fields, isSensitiveKey c = false → r.get c = m.get c

def Assigned (r : Columns) : Prop :=
  match stmt.destMap with
  | some m => ∀ p ∈ m, isSensitiveKey p.1 = false → r.get p.1 = p.2
  | none => stmt.First r

structure Attributed (rows : List Columns) : Prop where
  keyed : ∀ r ∈ rows, stmt.matchesCond r = true → stmt.live r = true → stmt.keyed r = true
  live : stmt.unscoped = true → ∀ r ∈ rows, stmt.matchesCond r = true → stmt.keyed r = true → stmt.live r = true
  key : ∀ r ∈ rows, stmt.targets r = true → stmt.schema.keyOf r = some ((stmt.setKey.or r.idNumber).getD 0)

def Attributable (rows : List Columns) : Operation → Prop
  | .create store =>
    ∃ r, stmt.reflectValue.elems.filterMap store = [r] ∧ stmt.schema.keyOf r = some (stmt.setKey.getD 0)
      ∧ stmt.First r
  | .update assign => stmt.Attributed rows ∧ ∀ r ∈ rows, stmt.targets r = true → stmt.Assigned (assign r)
  | .delete _ => stmt.Attributed rows

variable {stmt} {rows : List Columns} {res eventType : String} {r : Columns}

theorem getD_setKey : stmt.setKey.getD 0 = stmt.primaryKeyOf := by
  unfold setKey primaryKeyOf Schema.keyOf
  cases stmt.schema.prioritizedPrimaryField with
  | none => cases stmt.reflectValue.elems.head? <;> rfl
  | some f =>
    cases stmt.reflectValue.elems.head? with
    | none => rfl
    | some m =>
      dsimp only [Option.bind_some]
      cases m.get f with
      | int64 id => by_cases hid : id = 0 <;> simp [Option.filter_some, hid]
      | _ => rfl

theorem getD_setKey_or : (stmt.setKey.or r.idNumber).getD 0 = stmt.resourceIDOf r := by
  have hset : stmt.setKey.getD 0 = stmt.primaryKeyOf := getD_setKey
  unfold resourceIDOf
  cases hkey : stmt.setKey with
  | none =>
    rw [hkey] at hset
    rw [if_neg (fun h => h hset.symm), Option.none_or]
    unfold idNumber
    cases r.get "id" <;> rfl
  | some k =>
    have hne : k ≠ 0 := by
      have := (Option.filter_eq_some_iff.mp hkey).2
      simpa using this
    rw [hkey, Option.getD_some] at hset
    rw [← hset, if_pos hne]
    rfl

theorem first_iff :
    stmt.modelToMap.map redactMap = some (redactMap (r.restrict stmt.schema.fields)) ↔ stmt.First r := by
  unfold modelToMap First
  cases stmt.reflectValue.elems.head? with
  | none => simp
  | some m =>
    have hiff := @redactMap_restrict_eq_iff r (stmt.schema.fields.map (fun c => (c, m.get c)))
    rw [map_map, show Prod.fst ∘ (fun c => (c, m.get c)) = id from rfl, map_id] at hiff
    simp [hiff]

theorem assigned_iff (assign : Columns → Columns) :
    stmt.updateDelta.map redactMap = some (redactMap (r.restrict (stmt.columns (.update assign))))
      ↔
    stmt.Assigned r := by
  unfold updateDelta columns Assigned
  cases stmt.destMap with
  | none => exact first_iff
  | some m => simp [redactMap_restrict_eq_iff]

theorem attributed_iff :
    stmt.Attributed rows
      ↔
    (∀ r ∈ rows, (stmt.matchesCond r && stmt.live r) = stmt.targets r)
      ∧ ∀ r ∈ rows, stmt.targets r = true → stmt.schema.keyOf r = some (stmt.resourceIDOf r) := by
  simp only [← getD_setKey_or]
  constructor
  . intro h
    refine ⟨?_, h.key⟩
    intro r hr
    have hk := h.keyed r hr
    unfold targets
    cases hu : stmt.unscoped with
    | true =>
      have hl := h.live hu r hr
      cases hc : stmt.matchesCond r <;> cases hv : stmt.live r <;> cases hy : stmt.keyed r <;> simp_all
    | false => cases hc : stmt.matchesCond r <;> cases hv : stmt.live r <;> simp_all
  . rintro ⟨h, hkey⟩
    refine ⟨?_, ?_, hkey⟩
    . intro r hr hcond hlive
      have := h r hr
      simp_all [targets]
    . intro hunscoped r hr hcond hkeyed
      have := h r hr
      simp_all [targets]

theorem foldlM_emit {refuses : List Event → Event → Bool} {events pending pending' : List Event}
    (h : events.foldlM (emit refuses) pending = some pending') : pending' = pending ++ events := by
  induction events generalizing pending with
  | nil =>
    cases h
    rw [append_nil]
  | cons ev events ih =>
    rw [foldlM_cons, Option.bind_eq_bind, Option.bind_eq_some_iff] at h
    rcases h with ⟨next, hemit, hrest⟩
    unfold emit at hemit
    split at hemit
    . contradiction
    cases hemit
    rw [ih hrest, append_assoc, singleton_append]

theorem complete_iff {refuses : List Event → Event → Bool} {t t' : Tables stmt.schema} {op : Operation}
    (h : stmt.execute refuses t op = some t') :
    stmt.Complete t t' op
      ↔
    ((stmt.capture t.table.rows op).map Event.fact).Perm ((stmt.changes t.table.rows op).map (stmt.fact op)) := by
  unfold execute at h
  split at h
  . contradiction
  next hemit =>
  dsimp only at h
  split at h
  . cases h
    unfold Complete
    simp [foldlM_emit hemit]
  . contradiction

theorem create_iff {store : Columns → Option Columns} (haudited : stmt.schema.resource = some res) :
    ((stmt.capture rows (.create store)).map Event.fact).Perm
        ((stmt.changes rows (.create store)).map (stmt.fact (.create store)))
      ↔
    stmt.Attributable rows (.create store) := by
  unfold capture captureCreate changes Attributable
  rw [haudited, map_singleton, map_map, singleton_perm, eq_comm, map_eq_singleton_iff]
  simp only [Function.comp_apply, Event.fact, fact, Fact.mk.injEq, Option.or, Option.bind_some, Option.map_none,
    Option.map_some, true_and, getD_setKey, ← first_iff]
  exact exists_congr (fun _ => and_congr_right (fun _ => and_congr_right (fun _ => eq_comm)))

variable {assign : Columns → Columns}

theorem fact_update_iff :
    (Event.mk eventType res (stmt.resourceIDOf r) (some (redactMap r)) (stmt.updateDelta.map redactMap)).fact
        = stmt.fact (.update assign) (some r, some (assign r))
      ↔
    stmt.schema.keyOf r = some (stmt.resourceIDOf r) ∧ stmt.Assigned (assign r) := by
  rw [← assigned_iff assign, eq_comm]
  simp only [Event.fact, fact, Fact.mk.injEq, Option.or, Option.bind_some, Option.map_some, true_and]
  exact and_congr_right (fun _ => eq_comm)

theorem fact_delete_iff {now : Value} :
    (Event.mk eventType res (stmt.resourceIDOf r) (some (redactMap r)) none).fact
        = stmt.fact (.delete now) (some r, none)
      ↔
    stmt.schema.keyOf r = some (stmt.resourceIDOf r) := by
  unfold Event.fact fact
  rw [Fact.mk.injEq, eq_comm]
  simp

theorem eq_of_fact_eq (t : Rows stmt.schema) {r' : Columns} (hr : r ∈ t.rows) (hr' : r' ∈ t.rows)
    {id : Int64} {after new : Option Columns} {op : Operation}
    (h : (Event.mk eventType res id (some (redactMap r)) after).fact = stmt.fact op (some r', new)) : r = r' := by
  have hsame : redactMap r = redactMap r' := by
    have := congrArg Fact.before h
    simpa [Event.fact, fact] using this
  apply inj_on_of_nodup_map t.nodup hr hr'
  apply map_congr_left
  intro c hc
  have hplain := stmt.schema.primary_plain c hc
  rw [← get_redactMap hplain, hsame, get_redactMap hplain]

theorem update_iff (t : Rows stmt.schema) (haudited : stmt.schema.resource = some res) :
    ((stmt.capture t.rows (.update assign)).map Event.fact).Perm
        ((stmt.changes t.rows (.update assign)).map (stmt.fact (.update assign)))
      ↔
    stmt.Attributable t.rows (.update assign) := by
  unfold Attributable capture captureUpdate beforeSnapshot changes
  rw [haudited, attributed_iff]
  dsimp only
  rw [map_map, map_map, perm_map_filter_iff, and_assoc]
  . apply and_congr_right
    intro _
    simp only [Function.comp_apply, fact_update_iff]
    constructor
    . intro h
      exact ⟨fun r hr ht => (h r hr ht).1, fun r hr ht => (h r hr ht).2⟩
    . rintro ⟨hkey, hvalues⟩ r hr ht
      exact ⟨hkey r hr ht, hvalues r hr ht⟩
  . intro r hr r' hr' heq
    exact eq_of_fact_eq t hr hr' heq

theorem delete_iff (t : Rows stmt.schema) (haudited : stmt.schema.resource = some res) {now : Value} :
    ((stmt.capture t.rows (.delete now)).map Event.fact).Perm
        ((stmt.changes t.rows (.delete now)).map (stmt.fact (.delete now)))
      ↔
    stmt.Attributable t.rows (.delete now) := by
  unfold Attributable capture captureDelete beforeSnapshot changes
  rw [haudited, attributed_iff]
  rw [map_map, map_map, perm_map_filter_iff]
  . simp only [Function.comp_apply, fact_delete_iff]
  . intro r hr r' hr' heq
    exact eq_of_fact_eq t hr hr' heq

end Statement

/--
A successful statement leaves one event for each row that it writes, with that row's key and values, if and only if the
rows can be told from what the plugin sees of the statement.
-/
theorem capture_complete_iff (stmt : Statement) (refuses : List Event → Event → Bool) (t t' : Tables stmt.schema)
    (op : Operation) (res : String) (audited : stmt.schema.resource = some res)
    (executed : stmt.execute refuses t op = some t') :
    stmt.Complete t t' op ↔ stmt.Attributable t.table.rows op := by
  rw [Statement.complete_iff executed]
  cases op with
  | create => exact Statement.create_iff audited
  | update => exact Statement.update_iff t.table audited
  | delete => exact Statement.delete_iff t.table audited

namespace Widgets

def fields : List String :=
  ["id", "name", "deleted_at"]

def schema : Schema :=
  ⟨some "widget", fields, ["id"], some "id", some "deleted_at", by decide⟩

def widget (id : Int64) (name : String) (deletedAt : Value) : Columns :=
  [("id", .int64 id), ("name", .text name), ("deleted_at", deletedAt)]

def stored : List Columns :=
  [widget 1 "a" .null, widget 2 "b" .null, widget 3 "c" (.text "yesterday")]

def start : Tables schema :=
  ⟨⟨stored, by decide⟩, []⟩

def accept (_ : List Event) (_ : Event) : Bool :=
  false

def rename (name : String) (r : Columns) : Columns :=
  r.set "name" (.text name)

def hasID (ids : List Int64) (r : Columns) : Bool :=
  ids.any (fun id => r.get "id" = .int64 id)

def renameWhere (ids : List Int64) (name : String) : Statement :=
  ⟨schema, .struct (widget 0 "" .null), some [("name", .text name)], some (hasID ids), false⟩

def createAll (ms : List Columns) : Statement :=
  ⟨schema, .slice ms, none, none, false⟩

def save (m : Columns) : Statement :=
  ⟨schema, .struct m, none, none, false⟩

def restoreWhere (ids : List Int64) : Statement :=
  ⟨schema, .struct (widget 0 "" .null), some [("deleted_at", .null)], some (hasID ids), true⟩

def outcome (stmt : Statement) (t : Tables stmt.schema) (op : Operation) : Nat × Option (List Int64) :=
  ((stmt.changes t.table.rows op).length,
    (stmt.execute accept t op).map (fun t' => t'.pending.map Event.resourceID))

theorem renamed_isSome : ((renameWhere [1, 2] "d").execute accept start (.update (rename "d"))).isSome = true := by
  decide

abbrev renamed : Tables schema :=
  ((renameWhere [1, 2] "d").execute accept start (.update (rename "d"))).get renamed_isSome

theorem update_complete :
    renamed.pending.length = 2 ∧ (renameWhere [1, 2] "d").Complete start renamed (.update (rename "d")) := by
  refine ⟨by decide, ?_⟩
  have h := capture_complete_iff (renameWhere [1, 2] "d") accept start renamed (.update (rename "d")) "widget" rfl
    (Option.some_get renamed_isSome).symm
  refine h.mpr ⟨⟨by decide, by decide, by decide⟩, ?_⟩
  have hvalues : ∀ r ∈ stored, (rename "d" r).get "name" = .text "d" := by
    decide
  intro r hr _ p hp _
  rw [mem_singleton.mp hp]
  exact hvalues r hr

theorem rows_not_captured :
    outcome (createAll [widget 4 "d" .null, widget 5 "e" .null]) start (.create some) = (2, some [4])
      ∧ outcome (save (widget 1 "d" .null)) start (.update (rename "d")) = (1, some [1, 1])
      ∧ outcome (restoreWhere [3]) start (.update (fun r => r.set "deleted_at" .null)) = (1, some []) := by
  decide

end Widgets

end Mxid.Audit.Capture
