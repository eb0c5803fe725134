import Mxid.Data.Run
import Mxid.Data.Prog
import Mxid.Data.Redis
import Mxid.Authz.Impl.Engine

/-!
This module contains the cache in front of the binding provider. A pod keeps bindings in a map of its own, the first
level, and in Redis, the second.
-/

namespace Mxid.Authz

structure SourcedBinding extends EffectiveBinding where
  source : String
  sourceID : Int
  deriving DecidableEq

inductive ScopeKind where
  | global
  | org
  | group
  | other

structure SerializedBinding where
  roleID : Int
  permissions : List Code
  source : String
  sourceID : Int
  scopeType : ScopeKind
  scopeID : Option Int
  expiresAt : Option Int

def scopeFields : Scope → ScopeKind × Int
  | .global => (.global, 0)
  | .org id => (.org, id)
  | .group id => (.group, id)
  | .other => (.other, 0)

/--
Only whole seconds are stored. The clock counts `second` units to a second.
-/
def serialize (second : Int) (b : SourcedBinding) : SerializedBinding where
  roleID := b.roleID
  permissions := b.permissions
  source := b.source
  sourceID := b.sourceID
  scopeType := (scopeFields b.scope).1
  -- an id of 0 is left out
  scopeID := if (scopeFields b.scope).2 = 0 then none else some (scopeFields b.scope).2
  expiresAt := b.expiresAt.map (· / second)

def SerializedBinding.scope (sb : SerializedBinding) : Scope :=
  match sb.scopeType with
  | .global => .global
  | .org => .org (sb.scopeID.getD 0)
  | .group => .group (sb.scopeID.getD 0)
  | .other => .other

def deserialize (second : Int) (sb : SerializedBinding) : SourcedBinding where
  roleID := sb.roleID
  permissions := sb.permissions
  source := sb.source
  sourceID := sb.sourceID
  scope := sb.scope
  expiresAt := sb.expiresAt.map (· * second)

def throughRedis (b : SourcedBinding) : SourcedBinding := deserialize 1000 (serialize 1000 b)

theorem scope_serialize (second : Int) (b : SourcedBinding) : (serialize second b).scope = b.scope := by
  unfold SerializedBinding.scope serialize
  cases b.scope with
  | global | other => rfl
  | org id | group id => by_cases h : id = 0 <;> simp [scopeFields, h]

structure Moment where
  version : Nat
  time : Int
  deriving DecidableEq

namespace Moment

instance : LE Moment where
  le m m' := m.version ≤ m'.version ∧ m.time ≤ m'.time

instance (m m' : Moment) : Decidable (m ≤ m') :=
  inferInstanceAs (Decidable (m.version ≤ m'.version ∧ m.time ≤ m'.time))

theorem le_refl (m : Moment) : m ≤ m := by
  exact ⟨Nat.le_refl _, Int.le_refl _⟩

theorem le_trans {m m' m'' : Moment} (h : m ≤ m') (h' : m' ≤ m'') : m ≤ m'' := by
  exact ⟨Nat.le_trans h.1 h'.1, Int.le_trans h.2 h'.2⟩

end Moment

structure Seen (β : Type) where
  bindings : List β
  moment : Moment
  deriving DecidableEq

def Seen.map {β γ : Type} (f : β → γ) (v : Seen β) : Seen γ := ⟨v.bindings.map f, v.moment⟩

abbrev CacheKey := Int64 × Int64

def cacheKey (tenantID userID : Int64) : CacheKey := (tenantID, userID)

inductive Message where
  | key (k : CacheKey)
  | all

inductive Fault where
  | none
  | refused
  | unanswered

/--
The map of the pod has a time to live for every entry, like Redis. The last two fields are not stored anywhere,
they say when `Invalidate` has deleted a key from each level.
-/
structure Shared where
  now : Int
  version : Nat
  l1 : Redis.Store CacheKey (Seen SourcedBinding)
  l2 : Redis.Store CacheKey (Seen SerializedBinding)
  channel : List Message
  faults : List Fault
  l1Cleared : CacheKey → Moment
  l2Cleared : CacheKey → Moment

inductive CacheCmd : Type → Type where
  | now : CacheCmd Int
  | l1Load (k : CacheKey) : CacheCmd (Option (Redis.Entry (Seen SourcedBinding)))
  | l1Store (k : CacheKey) (v : Seen SourcedBinding) (ttl : Int) : CacheCmd Unit
  | l1Delete (k : CacheKey) : CacheCmd Unit
  | l1Clear : CacheCmd Unit
  | get (k : CacheKey) : CacheCmd (Option (Option (Seen SerializedBinding)))
  | set (k : CacheKey) (v : Seen SerializedBinding) (ttl : Int) : CacheCmd (Option Unit)
  | del (k : CacheKey) : CacheCmd (Option Unit)
  | unlink (ks : List CacheKey) : CacheCmd (Option Unit)
  | publish (msg : Message) : CacheCmd (Option Unit)
  | bindings (tenantID userID : Int64) : CacheCmd (Option (Seen SourcedBinding))
  | commit : CacheCmd Moment

abbrev Database := Moment → Int64 → Int64 → List SourcedBinding

namespace Shared

variable (s : Shared)

def start (now : Int) (faults : List Fault) : Shared :=
  ⟨now, 0, .empty, .empty, [], faults, fun _ => ⟨0, now⟩, fun _ => ⟨0, now⟩⟩

def moment : Moment := ⟨s.version, s.now⟩

def advance (ms : Nat) (s : Shared) : Shared := { s with now := s.now + ms }

def deliver {α : Type} (reply : Option α) (s' : Shared) : Option α × Shared :=
  match s.faults with
  | [] => (reply, s')
  | .none :: faults => (reply, { s' with faults })
  | .refused :: faults => (none, { s with faults })
  | .unanswered :: faults => (none, { s' with faults })

def l1Delete (k : CacheKey) : Shared := { s with l1 := s.l1.del k }

def l1Clear : Shared := { s with l1 := .empty }

def step (db : Database) {β : Type} (c : CacheCmd β) (s : Shared) : β × Shared :=
  match c with
  | .now => (s.now, s)
  | .l1Load k => (s.l1 k, s)
  | .l1Store k v ttl => ((), { s with l1 := s.l1.set k v (some (s.now + ttl)) })
  | .l1Delete k =>
    ((), { s.l1Delete k with l1Cleared := fun k' => if k' = k then s.moment else s.l1Cleared k' })
  | .l1Clear => ((), s.l1Clear)
  | .get k => s.deliver (some (s.l2.get s.now k)) s
  | .set k v ttl => s.deliver (some ()) { s with l2 := s.l2.set k v (some (s.now + ttl)) }
  | .del k =>
    s.deliver (some ())
      { s with
        l2 := s.l2.del k
        l2Cleared := fun k' => if k' = k then s.moment else s.l2Cleared k' }
  | .unlink ks => s.deliver (some ()) { s with l2 := fun k => if k ∈ ks then none else s.l2 k }
  | .publish msg => s.deliver (some ()) { s with channel := s.channel ++ [msg] }
  | .bindings tenantID userID => s.deliver (some ⟨db s.moment tenantID userID, s.moment⟩) s
  | .commit => (⟨s.version + 1, s.now⟩, { s with version := s.version + 1 })

def semantics (db : Database) : Prog.Semantics CacheCmd Shared := ⟨step db, advance⟩

def receive (msg : Message) : Shared :=
  match msg with
  | .all => s.l1Clear
  | .key k => s.l1Delete k

end Shared

abbrev CacheOp (α : Type) := Prog CacheCmd α

structure CachedBindingProvider where
  rdb : Bool
  l1TTL : Int
  l2TTL : Int

def l1Get (k : CacheKey) : CacheOp (Option (Seen SourcedBinding)) := do
  match ← .call (.l1Load k) with
  | none => pure none
  | some e =>
    let now ← .call .now
    pure (if e.live now then some e.value else none)

def l2Get (k : CacheKey) : CacheOp (Option (Seen SourcedBinding)) := do
  match ← .call (.get k) with
  | some (some v) => pure (some (v.map (deserialize 1000)))
  | _ => pure none

namespace CachedBindingProvider

variable (c : CachedBindingProvider)

def l1Set (k : CacheKey) (v : Seen SourcedBinding) : CacheOp Unit :=
  .call (.l1Store k v c.l1TTL)

def l2Set (k : CacheKey) (v : Seen SourcedBinding) : CacheOp Unit := do
  let _ ← .call (.set k (v.map (serialize 1000)) c.l2TTL)
  pure ()

def load (tenantID userID : Int64) : CacheOp (Option (Seen SourcedBinding)) := do
  match ← .call (.bindings tenantID userID) with
  | none => pure none
  | some v =>
    c.l1Set (cacheKey tenantID userID) v
    if c.rdb then
      c.l2Set (cacheKey tenantID userID) v
    pure (some v)

def effectiveBindingsForUser (tenantID userID : Int64) : CacheOp (Option (Seen SourcedBinding)) := do
  match ← l1Get (cacheKey tenantID userID) with
  | some v => pure (some v)
  | none =>
    if c.rdb then
      match ← l2Get (cacheKey tenantID userID) with
      | some v =>
        c.l1Set (cacheKey tenantID userID) v
        pure (some v)
      | none => c.load tenantID userID
    else
      c.load tenantID userID

def invalidate (tenantID userID : Int64) : CacheOp (Except String Unit) := do
  .call (.l1Delete (cacheKey tenantID userID))
  if c.rdb then
    match ← .call (.del (cacheKey tenantID userID)) with
    | none => pure (.error "authz cache: redis del")
    | some () =>
      match ← .call (.publish (.key (cacheKey tenantID userID))) with
      | none => pure (.error "authz cache: redis publish")
      | some () => pure (.ok ())
  else
    pure (.ok ())

def invalidateAll : CacheOp (Except String Unit) := do
  .call .l1Clear
  if c.rdb then
    match ← .call (.publish .all) with
    | none => pure (.error "authz cache: redis publish")
    | some () => pure (.ok ())
  else
    pure (.ok ())

end CachedBindingProvider

def purgeL2 (batches : List (List CacheKey)) : CacheOp PUnit :=
  forM batches fun ks => do
    let _ ← .call (.unlink ks)
    pure ()

inductive CacheCall where
  | read (tenantID userID : Int64)
  | change (tenantID userID : Int64)
  | invalidateAll
  | purgeL2 (batches : List (List CacheKey))

inductive CacheResult where
  | bindings (reply : Option (Seen SourcedBinding))
  | changed (moment : Moment) (reply : Except String Unit)
  | finished (reply : Except String Unit)
  deriving DecidableEq

def CacheCall.prog (c : CachedBindingProvider) : CacheCall → CacheOp CacheResult
  | .read tenantID userID => do return .bindings (← c.effectiveBindingsForUser tenantID userID)
  | .change tenantID userID => do
    let moment ← .call .commit
    let reply ← c.invalidate tenantID userID
    return .changed moment reply
  | .invalidateAll => do return .finished (← c.invalidateAll)
  | .purgeL2 batches => do
    Authz.purgeL2 batches
    return .finished (.ok ())

abbrev Pod := Pool CacheCmd CacheResult Shared

def Pod.start (c : CachedBindingProvider) (now : Int) (faults : List Fault) (calls : List CacheCall) : Pod :=
  ⟨.start now faults, calls.map (CacheCall.prog c)⟩

inductive PodAction where
  | turn (i ms : Nat)
  | deliver
  | lose

def Pod.step (db : Database) (p : Pod) (a : PodAction) : Option Pod :=
  match a with
  | .turn i ms => Pool.step (Shared.semantics db) p (i, ms)
  | .deliver =>
    match p.shared.channel with
    | [] => none
    | msg :: channel => some { p with shared := { p.shared.receive msg with channel } }
  | .lose =>
    match p.shared.channel with
    | [] => none
    | _ :: channel => some { p with shared := { p.shared with channel } }

def Shared.upToDate {β : Type} (s : Shared) : CacheCmd β → Bool
  | .l1Store k v _ => s.l1Cleared k ≤ v.moment
  | .set k v _ => s.l2Cleared k ≤ v.moment
  | _ => true

def Pod.upToDate (p : Pod) (a : PodAction) : Bool :=
  match a with
  | .turn i _ =>
    match p.threads[i]? with
    | some (.cmd _ c _) => p.shared.upToDate c
    | _ => true
  | _ => true

end Mxid.Authz
