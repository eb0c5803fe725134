import Mathlib

/-!
This module contains the generator of ids. Its clock readings are in milliseconds after its epoch.
-/

namespace Mxid.Snowflake

def nodeMax : Int := 2 ^ 10 - 1
def sequenceMask : Nat := 2 ^ 12 - 1

structure Generator where
  nodeID : Nat
  timestamp : Nat
  sequence : Nat

namespace Generator

def new (nodeID : Int) : Except String Generator :=
  if nodeID < 0 ∨ nodeMax < nodeID then
    .error "node ID must be between 0 and 1023"
  else
    .ok ⟨nodeID.toNat, 0, 0⟩

def packed (g : Generator) : Nat :=
  (g.timestamp <<< 22 ||| g.nodeID <<< 12 ||| g.sequence) % 2 ^ 64

/-- A call that returns has made as many of the readings as it needs. -/
def generate (g : Generator) : List Nat → Option Generator
  | [] => none
  | now :: readings =>
    if now = g.timestamp then
      let sequence := (g.sequence + 1) &&& sequenceMask
      if sequence = 0 then
        -- Wait for next millisecond
        (readings.find? (fun now => g.timestamp < now)).map (fun now => ⟨g.nodeID, now, sequence⟩)
      else
        some ⟨g.nodeID, now, sequence⟩
    else
      some ⟨g.nodeID, now, 0⟩

end Generator

structure System (ι : Type) where
  generators : ι → Generator
  returned : List Nat

variable {ι : Type} [DecidableEq ι]

def System.step (s : System ι) (call : ι × List Nat) : Option (System ι) :=
  ((s.generators call.1).generate call.2).map (fun g =>
    ⟨Function.update s.generators call.1 g, g.packed :: s.returned⟩)

def inRange (call : ι × List Nat) : Bool := call.2.all (fun now => now < 2 ^ 41)

def System.forward (s : System ι) (call : ι × List Nat) : Bool :=
  call.2.head?.all (fun now => (s.generators call.1).timestamp ≤ now)

end Mxid.Snowflake
