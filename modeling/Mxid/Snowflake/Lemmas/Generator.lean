import Mxid.Data.Run
import Mxid.Snowflake.Impl.Generator

namespace Mxid.Snowflake

open List Function

namespace Generator

structure Valid (g : Generator) : Prop where
  nodeID : g.nodeID < 2 ^ 10
  timestamp : g.timestamp < 2 ^ 41
  sequence : g.sequence < 2 ^ 12

def Before (g g' : Generator) : Prop :=
  g.timestamp < g'.timestamp ∨ g.timestamp = g'.timestamp ∧ g.sequence < g'.sequence

variable {g g' : Generator} {readings : List Nat}

theorem packed_eq (h : g.Valid) : g.packed = 2 ^ 22 * g.timestamp + 2 ^ 12 * g.nodeID + g.sequence := by
  rcases h with ⟨hnode, htime, hsequence⟩
  have hlow : 2 ^ 12 * g.nodeID < 2 ^ 22 := by omega
  have hhigh : 2 ^ 22 * g.timestamp + 2 ^ 12 * g.nodeID = 2 ^ 12 * (2 ^ 10 * g.timestamp + g.nodeID) := by omega
  unfold packed
  rw [Nat.shiftLeft_eq, Nat.shiftLeft_eq, Nat.mul_comm _ (2 ^ 22), Nat.mul_comm _ (2 ^ 12),
    ← Nat.two_pow_add_eq_or_of_lt hlow, hhigh, ← Nat.two_pow_add_eq_or_of_lt hsequence]
  omega

theorem packed_inj (h : g.Valid) (h' : g'.Valid) (heq : g.packed = g'.packed) :
    g.nodeID = g'.nodeID ∧ g.timestamp = g'.timestamp ∧ g.sequence = g'.sequence := by
  rw [packed_eq h, packed_eq h'] at heq
  rcases h with ⟨hnode, _, hsequence⟩
  rcases h' with ⟨hnode', _, hsequence'⟩
  omega

theorem generate_eq_some (h : g.Valid) (hrange : ∀ now ∈ readings, now < 2 ^ 41)
    (hforward : ∀ now ∈ readings.head?, g.timestamp ≤ now) (hgenerate : g.generate readings = some g') :
    g'.Valid ∧ g'.nodeID = g.nodeID ∧ g.Before g' := by
  rcases h with ⟨hnode, htime, hsequence⟩
  cases readings with
  | nil => contradiction
  | cons now readings =>
    have hnow := hrange now (mem_cons_self ..)
    have hle := hforward now rfl
    have hmask : (g.sequence + 1) &&& sequenceMask = (g.sequence + 1) % 2 ^ 12 := Nat.and_two_pow_sub_one_eq_mod _ 12
    simp only [generate, hmask] at hgenerate
    split at hgenerate
    . next heq =>
      split at hgenerate
      . next hzero =>
        rcases Option.map_eq_some_iff.mp hgenerate with ⟨later, hlater, rfl⟩
        have hmem := hrange later (mem_cons_of_mem _ (mem_of_find?_eq_some hlater))
        exact ⟨⟨hnode, hmem, by dsimp only; omega⟩, rfl, .inl (by simpa using List.find?_some hlater)⟩
      . cases hgenerate
        exact ⟨⟨hnode, hnow, by dsimp only; omega⟩, rfl, .inr ⟨heq.symm, by dsimp only; omega⟩⟩
    . cases hgenerate
      exact ⟨⟨hnode, hnow, Nat.two_pow_pos 12⟩, rfl, .inl (by dsimp only; omega)⟩

end Generator

namespace System

variable {ι : Type}

/-- No id was packed from a state that its generator has yet to reach. -/
structure Sound (s : System ι) : Prop where
  valid : ∀ i, (s.generators i).Valid
  apart : ∀ i j, (s.generators i).nodeID = (s.generators j).nodeID → i = j
  returned : ∀ id ∈ s.returned, ∃ i, ∃ g : Generator, g.Valid ∧ g.packed = id ∧ g.nodeID = (s.generators i).nodeID
    ∧ ¬(s.generators i).Before g
  nodup : s.returned.Nodup

variable [DecidableEq ι] {s s' : System ι} {call : ι × List Nat}

theorem Sound.step (h : s.Sound) (hrange : inRange call = true) (hforward : s.forward call = true)
    (hstep : s.step call = some s') : s'.Sound := by
  rcases Option.map_eq_some_iff.mp hstep with ⟨g, hg, rfl⟩
  rcases Generator.generate_eq_some (h.valid call.1) (by simpa [inRange] using hrange)
    (by simpa [forward, Option.all_eq_true] using hforward) hg with ⟨hvalid, hnode, hbefore⟩
  have hcases : ∀ i, i = call.1 ∧ update s.generators call.1 g i = g
      ∨ update s.generators call.1 g i = s.generators i := by
    intro i
    by_cases hi : i = call.1
    . exact .inl ⟨hi, by rw [hi, update_self]⟩
    . exact .inr (update_of_ne hi ..)
  have hsame : ∀ i, (update s.generators call.1 g i).nodeID = (s.generators i).nodeID := by
    intro i
    rcases hcases i with ⟨rfl, hi⟩ | hi
    . rw [hi, hnode]
    . rw [hi]
  constructor <;> dsimp only
  . intro i
    rcases hcases i with ⟨_, hi⟩ | hi
    . rw [hi]
      exact hvalid
    . rw [hi]
      exact h.valid i
  . intro i j hij
    rw [hsame, hsame] at hij
    exact h.apart i j hij
  . intro id hid
    rcases mem_cons.mp hid with rfl | hid
    . refine ⟨call.1, g, hvalid, rfl, by rw [hsame, hnode], ?_⟩
      rw [update_self, Generator.Before]
      omega
    rcases h.returned id hid with ⟨i, g0, hvalid0, hpacked, hnode0, hnot⟩
    refine ⟨i, g0, hvalid0, hpacked, hnode0.trans (hsame i).symm, ?_⟩
    rcases hcases i with ⟨rfl, hi⟩ | hi
    . rw [hi]
      unfold Generator.Before at *
      omega
    . rw [hi]
      exact hnot
  . refine nodup_cons.mpr ⟨?_, h.nodup⟩
    intro hmem
    rcases h.returned _ hmem with ⟨i, g0, hvalid0, hpacked, hnode0, hnot⟩
    rcases Generator.packed_inj hvalid0 hvalid hpacked with ⟨hid, htime, hsequence⟩
    cases h.apart i call.1 (by rw [← hnode0, hid, hnode])
    unfold Generator.Before at *
    omega

end System

/--
If no generator reads the clock at an earlier time than that of its last id, then no id is returned twice.
-/
theorem ids_distinct {ι : Type} [DecidableEq ι] (nodeIDs : ι → Int) (hdistinct : ∀ i j, nodeIDs i = nodeIDs j → i = j)
    (generators : ι → Generator) (hnew : ∀ i, Generator.new (nodeIDs i) = .ok (generators i))
    (calls : List (ι × List Nat)) (s : System ι)
    (run : Run System.step (fun s call => inRange call = true ∧ s.forward call = true) ⟨generators, []⟩ calls s) :
    s.returned.Nodup := by
  have hstart : ∀ i, 0 ≤ nodeIDs i ∧ nodeIDs i < 2 ^ 10 ∧ generators i = ⟨(nodeIDs i).toNat, 0, 0⟩ := by
    intro i
    have h := hnew i
    unfold Generator.new nodeMax at h
    split at h
    . contradiction
    . exact ⟨by omega, by omega, (Except.ok.inj h).symm⟩
  have hsound : s.Sound := by
    apply run.invariant
    . refine ⟨?_, ?_, by simp, .nil⟩
      . intro i
        rcases hstart i with ⟨hpos, hlt, heq⟩
        simp only [heq]
        exact ⟨by dsimp only; omega, Nat.two_pow_pos 41, Nat.two_pow_pos 12⟩
      . intro i j hij
        rcases hstart i with ⟨hpos, _, heq⟩
        rcases hstart j with ⟨hpos', _, heq'⟩
        simp only [heq, heq'] at hij
        exact hdistinct i j (by omega)
    . rintro s call s' h ⟨hrange, hforward⟩ hstep
      exact h.step hrange hforward hstep
  exact hsound.nodup

def twoNodes (b : Bool) : Generator := ⟨if b then 2 else 1, 0, 0⟩

theorem three_ids_distinct :
    ∃ s, Run System.step (fun s call => inRange call = true ∧ s.forward call = true) ⟨twoNodes, []⟩
        [(false, [5]), (true, [5]), (false, [5])] s
      ∧ s.returned = [20975617, 20979712, 20975616] ∧ s.returned.Nodup :=
  ⟨_, Run.of_exec rfl, rfl, ids_distinct (fun b => if b then 2 else 1) (by decide) twoNodes
    (Bool.forall_bool.mpr ⟨rfl, rfl⟩) [(false, [5]), (true, [5]), (false, [5])] _ (Run.of_exec rfl)⟩

/--
The clock steps back by a millisecond and catches up.
-/
theorem id_returned_twice :
    ∃ s, Run System.step (fun _ call => inRange call = true) ⟨twoNodes, []⟩
        [(false, [5]), (false, [4]), (false, [5])] s
      ∧ s.returned = [20975616, 16781312, 20975616] :=
  ⟨_, Run.of_exec rfl, rfl⟩

end Mxid.Snowflake
