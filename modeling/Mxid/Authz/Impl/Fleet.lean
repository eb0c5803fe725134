import Mxid.Authz.Impl.Cache

namespace Mxid.Authz

structure PodState where
  l1 : Redis.Store CacheKey (Seen SourcedBinding)
  channel : List Message
  threads : List (CacheOp CacheResult)

/--
The last field is not stored anywhere, it says when each call of each pod has last read from the database or Redis.
-/
structure Fleet where
  now : Int
  version : Nat
  l2 : Redis.Store CacheKey (Seen SerializedBinding)
  faults : List Fault
  pods : List PodState
  lastRead : Nat × Nat → Int

def CacheCmd.reads {β : Type} : CacheCmd β → Bool
  | .get _ | .bindings .. => true
  | _ => false

def CacheCmd.fills {β : Type} : CacheCmd β → Bool
  | .l1Store _ _ _ | .set .. => true
  | _ => false

namespace Fleet

def start (c : CachedBindingProvider) (now : Int) (faults : List Fault) (calls : List (List CacheCall)) : Fleet :=
  ⟨now, 0, .empty, faults, calls.map (fun calls => ⟨.empty, [], calls.map (CacheCall.prog c)⟩), fun _ => now⟩

variable (db : Database) (f : Fleet)

def moment : Moment := ⟨f.version, f.now⟩

def view (p : PodState) : Pod :=
  ⟨⟨f.now, f.version, p.l1, f.l2, p.channel, f.faults, fun _ => ⟨0, 0⟩, fun _ => ⟨0, 0⟩⟩, p.threads⟩

def after (i : Nat) (p : PodState) (p' : Pod) (lastRead : Nat × Nat → Int) : Fleet where
  now := p'.shared.now
  version := p'.shared.version
  l2 := p'.shared.l2
  faults := p'.shared.faults
  pods := (f.pods.map (fun q => { q with channel := q.channel ++ p'.shared.channel.drop p.channel.length })).set i
    ⟨p'.shared.l1, p'.shared.channel, p'.threads⟩
  lastRead := lastRead

def next? (i j : Nat) : Option (CacheOp CacheResult) := (f.pods[i]?).bind (fun p => p.threads[j]?)

def readsAt (i : Nat) : PodAction → Nat × Nat → Int
  | .turn j ms =>
    match f.next? i j with
    | some (.cmd paused c _) =>
      if c.reads then Function.update f.lastRead (i, j) (f.now + if paused then ms else 0) else f.lastRead
    | _ => f.lastRead
  | _ => f.lastRead

def step (a : Nat × PodAction) : Option Fleet :=
  match f.pods[a.1]? with
  | none => none
  | some p => ((f.view p).step db a.2).map (fun p' => f.after a.1 p p' (f.readsAt a.1 a.2))

def prompt (d : Nat) (a : Nat × PodAction) : Bool :=
  match a.2 with
  | .turn j ms =>
    match f.next? a.1 j with
    | some (.cmd paused c _) => !c.fills || f.now + (if paused then ms else 0) ≤ f.lastRead (a.1, j) + d
    | _ => true
  | _ => true

def result (i j : Nat) : Option CacheResult :=
  match f.next? i j with
  | some (.ret r) => some r
  | _ => none

end Fleet

end Mxid.Authz
