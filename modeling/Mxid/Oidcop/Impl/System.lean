import Mxid.Data.Run
import Mxid.Oidcop.Impl.Storage

/-!
This module contains the token storage as two systems: exchanges that interleave, and operations one after the other.
-/

namespace Mxid.Oidcop

abbrev Exchanges := Pool Cmd (Except TokenError Tokens) Keys

def Exchanges.start (cfg : Config) (keys : Keys) (xs : List Exchange) : Exchanges :=
  ⟨keys, xs.map (exchange cfg)⟩

def Cmd.rotates (tok : String) : Cmd β → Bool
  | .del [.refresh t, .token _] => t = tok
  | _ => false

def Exchanges.exclusive (tok : String) (p : Exchanges) (turn : Nat × Nat) : Bool :=
  match p.threads[turn.1]? with
  | some (.cmd _ c _) =>
    !c.rotates tok || (p.shared.refresh.lookup (p.shared.now + turn.2) tok).isSome
  | _ => true

def Exchanges.Issued (before : Keys) (p : Exchanges) (t : String) : Prop :=
  (p.shared.refresh.lookup p.shared.now t).isSome = true ∧ before.refresh t = none

structure Exchanges.SpentOnce (before : Keys) (p : Exchanges) : Prop where
  result : ∀ i j tokens tokens', p.result i = some (.ok tokens) → p.result j = some (.ok tokens') → i = j
  issued : ∀ t t', p.Issued before t → p.Issued before t' → t = t'

/--
What has been done so far: the family of every refresh token, the refresh token that every access token
was issued with, and of the refresh tokens that were rotated away when they would have expired.
-/
structure History where
  family : String → Option String
  pairedWith : String → Option String
  spent : String → Option Int

namespace History

def empty : History := ⟨fun _ => none, fun _ => none, fun _ => none⟩

def recordFamily (h : History) (tok : String) (familyID : Option String) : History :=
  { h with family := fun t => if t = tok then familyID else h.family t }

def recordPair (h : History) (accessID tok : String) : History :=
  { h with pairedWith := fun a => if a = accessID then some tok else h.pairedWith a }

def recordSpent (h : History) (tok : String) (expiration : Option Int) : History :=
  { h with spent := fun t => if t = tok then expiration else h.spent t }

end History

structure System where
  keys : Keys
  history : History

inductive Action where
  | issue (familyID refreshID accessID : String) (req : TokenRequest) (delays : List Nat)
  | exchange (x : Exchange) (delays : List Nat)
  | revoke (tokenIDOrToken clientID : String) (delays : List Nat)
  | terminate (userID clientID : String) (delays : List Nat)

namespace System

def start (now : Int) : System := ⟨.empty now, .empty⟩

def unused (s : System) (refreshID accessID : String) : Prop :=
  s.history.family refreshID = none ∧ s.history.pairedWith accessID = none ∧ accessID ≠ ""

instance : Decidable (unused s refreshID accessID) :=
  inferInstanceAs (Decidable (_ ∧ _ ∧ _))

def expirationOf (s : System) (tok : String) : Option Int :=
  (s.keys.refresh tok).map (fun e => e.value.expiration)

def issue (cfg : Config) (s : System) (familyID refreshID accessID : String) (req : TokenRequest)
    (delays : List Nat) : System :=
  let (_, keys) := (createTokens cfg familyID refreshID accessID req).exec semantics delays s.keys
  ⟨keys, (s.history.recordPair accessID refreshID).recordFamily refreshID (some familyID)⟩

def exchange (cfg : Config) (s : System) (x : Exchange) (delays : List Nat) : System :=
  match (Oidcop.exchange cfg x).exec semantics delays s.keys with
  | (.error _, keys) => ⟨keys, s.history.recordPair x.accessID x.newRefresh⟩
  | (.ok _, keys) =>
    ⟨keys, ((s.history.recordPair x.accessID x.newRefresh).recordFamily x.newRefresh
      (s.history.family x.token)).recordSpent x.token (s.expirationOf x.token)⟩

def step (cfg : Config) (s : System) : Action → Option System
  | .issue familyID refreshID accessID req delays =>
    if s.unused refreshID accessID ∧ familyID ≠ "" then
      some (s.issue cfg familyID refreshID accessID req delays)
    else
      none
  | .exchange x delays =>
    if s.unused x.newRefresh x.accessID then
      some (s.exchange cfg x delays)
    else
      none
  | .revoke tokenIDOrToken clientID delays =>
    some { s with keys := ((revokeToken tokenIDOrToken clientID).exec semantics delays s.keys).2 }
  | .terminate userID clientID delays =>
    some { s with keys := ((terminateSession userID clientID).exec semantics delays s.keys).2 }

structure SameFamily (f : String) (s s' : System) : Prop where
  history : ∀ t, s'.history.family t = some f ↔ s.history.family t = some f
  index : s'.keys.families f = s.keys.families f
  refresh : ∀ t, s.history.family t = some f → s'.keys.refresh t = s.keys.refresh t
  tokens : ∀ a t, s.history.pairedWith a = some t → s.history.family t = some f →
    s'.keys.tokens a = s.keys.tokens a
  consumed : ∀ t, s.history.family t = some f → s'.keys.consumed t = s.keys.consumed t

end System

end Mxid.Oidcop
