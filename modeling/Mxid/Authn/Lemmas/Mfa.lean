import Mxid.Authn.Impl.Mfa
import Mxid.Data.Run

namespace Mxid.Authn

open RateLimit Redis.Store

namespace MFAKeyspace

variable {rdb : MFAKeyspace} {now userID level : Int} {key key' : Identifier} {ip : String}

theorem lockDuration_mono (h : 1 ≤ level) : lockDuration level ≤ lockDuration (level + 1) := by
  have hlast : ∀ level : Int, 3 < level → lockDuration level = lockDuration 3 := by
    intro level h
    have hidx : level - 1 < 0 ∨ ((mfaLockDurations.length - 1 : Nat) : Int) < level - 1 := by
      right
      show 2 < level - 1
      omega
    simp only [lockDuration, if_pos hidx]
    rfl
  have hlevel : level = 1 ∨ level = 2 ∨ level = 3 ∨ 3 < level := by omega
  rcases hlevel with rfl | rfl | rfl | hlevel
  . decide
  . decide
  . decide
  . apply Int.le_of_eq
    rw [hlast level hlevel, hlast (level + 1) (by omega)]

theorem recordFailureOne_apply :
    let level := (rdb.lockLevel.incr now key).1
    let trips := key' = key ∧ mfaFailThreshold ≤ (rdb.fails.incr now key).1
    (recordFailureOne now rdb key).locked key'
      = (if trips then some ⟨(), some (now + lockDuration level)⟩ else rdb.locked key')
    ∧ ((recordFailureOne now rdb key).lockLevel key').map Redis.Entry.value
      = if trips then some level else (rdb.lockLevel key').map Redis.Entry.value := by
  simp only [recordFailureOne]
  by_cases hcount : mfaFailThreshold ≤ (rdb.fails.incr now key).1
  . simp only [hcount, if_true, and_true, lock]
    refine ⟨rfl, ?_⟩
    have hincr : ((rdb.lockLevel.incr now key).2 key').map Redis.Entry.value
        = if key' = key then some (rdb.lockLevel.incr now key).1 else (rdb.lockLevel key').map Redis.Entry.value := by
      rw [incr_snd, incr_fst, Redis.Store.set]
      split <;> rfl
    split
    . rw [map_value_pexpire, hincr]
    . exact hincr
  . simp [hcount]

end MFAKeyspace

namespace MFALockouts

open MFAKeyspace

def Escalates (newer older : MFALock) : Prop :=
  older.endsAt ≤ newer.trippedAt → newer.trippedAt ≤ older.endsAt + 15 * 60 * 1000 →
    older.endsAt - older.trippedAt ≤ newer.endsAt - newer.trippedAt

structure Level (userID : Int) (s : MFALockouts) : Prop where
  chain : s.locks.IsChain Escalates
  level : ∀ level, (s.rdb.lockLevel (.user userID)).map Redis.Entry.value = some level →
    1 ≤ level ∧ ∀ lock ∈ s.locks.head?, lock.endsAt = lock.trippedAt + lockDuration level

variable {userID : Int} {s s' : MFALockouts} {call : Nat × String}

theorem recordFailure_user :
    let now := s.now + call.1
    let rdb := s.rdb.recordFailure now userID call.2
    let level := (s.rdb.lockLevel.incr now (.user userID)).1
    rdb.locked (.user userID)
      = (if s.trips userID call then some ⟨(), some (now + lockDuration level)⟩ else s.rdb.locked (.user userID))
    ∧ (rdb.lockLevel (.user userID)).map Redis.Entry.value
      = if s.trips userID call then some level else (s.rdb.lockLevel (.user userID)).map Redis.Entry.value := by
  by_cases hid : userID = 0 <;> by_cases hip : call.2 = "" <;>
    simp [recordFailure, mfaIdentifiers, trips, hid, hip, recordFailureOne_apply]

theorem Level.one_le_incr (h : Level userID s) (now : Int) : 1 ≤ (s.rdb.lockLevel.incr now (.user userID)).1 := by
  rw [incr_fst]
  cases hget : s.rdb.lockLevel.get now (.user userID) with
  | none => decide
  | some =>
    rcases eq_some_of_get_eq_some hget with ⟨e, he, rfl⟩
    have := (h.level e.value (by rw [he]; rfl)).1
    rw [Option.getD_some]
    omega

theorem Level.step (h : Level userID s) (hremembers : s.remembers userID call = true)
    (hstep : s.step userID call = some s') : Level userID s' := by
  unfold MFALockouts.step at hstep
  split at hstep <;> cases hstep
  rcases @recordFailure_user userID s call with ⟨hlocked, hlevel⟩
  by_cases htrips : s.trips userID call = true
  . rw [if_pos htrips] at hlocked hlevel
    simp only [htrips, if_true, hlocked]
    constructor
    . cases hlocks : s.locks with
      | nil => exact .singleton _
      | cons older locks =>
        refine .cons_cons ?_ (hlocks ▸ h.chain)
        have hlookup := of_decide_eq_true hremembers htrips
        rw [hlocks] at hlookup
        rcases Option.isSome_iff_exists.mp (hlookup.resolve_left (by simp)) with ⟨e, he⟩
        rcases h.level e.value (by rw [(lookup_eq_some_iff.mp he).1]; rfl) with ⟨hone, holder⟩
        have holder := holder older (by rw [hlocks]; rfl)
        have hmono := lockDuration_mono hone
        intro _ _
        simp only [Redis.Store.incr, he, Option.bind_some, Option.getD_some]
        omega
    . intro level hvalue
      rw [hlevel] at hvalue
      cases hvalue
      refine ⟨h.one_le_incr _, ?_⟩
      rintro lock ⟨⟩
      rfl
  . rw [if_neg htrips] at hlevel
    simp only [htrips]
    exact ⟨h.chain, by rw [hlevel]; exact h.level⟩

/--
If the level of a user's locks has not expired when the next lock is tripped, then that lock is no shorter than the
one before it.
-/
theorem locks_escalate (userID now : Int) (calls : List (Nat × String)) (s : MFALockouts)
    (run : Run (step userID) (fun s call => s.remembers userID call = true) ⟨.empty, now, []⟩ calls s) :
    s.locks.IsChain Escalates := by
  have hlevel : Level userID s := by
    apply run.invariant
    . exact ⟨.nil, by simp [MFAKeyspace.empty, Redis.Store.empty]⟩
    . intro s call s' h
      exact h.step
  exact hlevel.chain

def burst (ms : Nat) : List (Nat × String) := (ms, "10.0.0.1") :: List.replicate 14 (0, "10.0.0.1")

theorem second_lock_longer :
    ∃ s, Run (step 7) (fun s call => s.remembers 7 call = true) ⟨.empty, 0, []⟩ (burst 0 ++ burst 60001) s
      ∧ s.locks = [⟨60001, 360001⟩, ⟨0, 60000⟩] ∧ s.locks.IsChain Escalates :=
  ⟨_, Run.of_exec rfl, rfl, locks_escalate 7 0 (burst 0 ++ burst 60001) _ (Run.of_exec rfl)⟩

/--
The level of the first two locks expires during the second lock.
-/
theorem third_lock_shorter :
    ∃ s, Run (step 7) (fun _ _ => True) ⟨.empty, 0, []⟩ (burst 0 ++ burst 3540000 ++ burst 300001) s
      ∧ s.locks = [⟨3840001, 3900001⟩, ⟨3540000, 3840000⟩, ⟨0, 60000⟩]
      ∧ ¬Escalates ⟨3840001, 3900001⟩ ⟨3540000, 3840000⟩ :=
  ⟨_, Run.of_exec rfl, rfl, by unfold Escalates; decide⟩

end MFALockouts

end Mxid.Authn
