import Mathlib
import Mxid.Data.Redis

/-!
The limiter in front of the handlers counts the requests of a key in each aligned window of time.
-/

namespace Mxid.Middleware

open List Redis Store

/-- A request at a time in milliseconds, with the key that the rule derives from it. -/
structure Request where
  method : String
  path : String
  key : String
  time : Nat

/-- The window is in seconds. -/
structure RateLimitRule where
  name : String
  limit : Int
  window : Int
  methodFilter : Option (List String)
  pathFilter : List String
  skipPaths : List String

def hasAnyPrefix (s : String) (prefixes : List String) : Bool :=
  prefixes.any (fun p => p.toList.isPrefixOf s.toList)

namespace RateLimitRule

variable (rule : RateLimitRule)

def maxRequests : Nat := if rule.limit ≤ 0 then 60 else rule.limit.toNat

def windowSec : Nat := if rule.window ≤ 0 then 60 else rule.window.toNat

def applies (r : Request) : Bool :=
  rule.methodFilter.all (fun methods => methods.contains r.method)
    && (rule.pathFilter.isEmpty || hasAnyPrefix r.path rule.pathFilter)
    && !hasAnyPrefix r.path rule.skipPaths && r.key ≠ ""

def bucket (time : Nat) : Nat := time / 1000 / rule.windowSec

def redisKey (key : String) (bucket : Nat) : String :=
  "rl:" ++ rule.name ++ ":" ++ key ++ ":" ++ toString bucket

/-- Whether the request is let through, and the counters after it. -/
def rateLimiter (s : Store String Int) (r : Request) : Bool × Store String Int :=
  if rule.applies r then
    let redisKey := rule.redisKey r.key (rule.bucket r.time)
    let expiresIn : Int := rule.windowSec - (r.time / 1000 % rule.windowSec : Nat)
    let (count, s) := s.incr r.time redisKey
    (count ≤ rule.maxRequests, if count = 1 then s.expire r.time redisKey expiresIn else s)
  else
    (true, s)

/-- The requests that are let through, and the counters at the end. -/
def serve (reqs : List Request) : List Request × Store String Int :=
  reqs.foldl (fun (admitted, s) r =>
    (if (rule.rateLimiter s r).1 then admitted ++ [r] else admitted, (rule.rateLimiter s r).2)) ([], .empty)

def counts (key : String) (bucket : Nat) (r : Request) : Bool :=
  rule.applies r && r.key = key && rule.bucket r.time = bucket

/-- Each counter holds the number of its requests and lasts until its window ends. -/
def Counted (reqs : List Request) (s : Store String Int) : Prop :=
  ∀ key b, ∃ e : Int, (∀ t, rule.bucket t = b → t ≤ e) ∧ s (rule.redisKey key b)
    = match reqs.countP (rule.counts key b) with
      | 0 => none
      | n + 1 => some ⟨n + 1, some e⟩

variable {rule} {s : Store String Int} {reqs : List Request} {r : Request} {key key' : String} {b b' : Nat}

theorem windowSec_pos : 0 < rule.windowSec := by
  unfold windowSec
  split <;> omega

-- Only the last colon of a key's text is followed by digits alone.
theorem redisKey_inj (h : rule.redisKey key b = rule.redisKey key' b') : key = key' ∧ b = b' := by
  have hdigits (n : Nat) (l : List Char) :
      ((toString n).toList.reverse ++ ':' :: l).takeWhile (· ≠ ':') = (toString n).toList.reverse := by
    rw [takeWhile_append_of_pos]
    . simp
    intro c hc
    rw [mem_reverse, Nat.toString_eq_repr, Nat.repr_eq_ofList_toDigits, String.toList_ofList] at hc
    have hdigit := Nat.isDigit_of_mem_toDigits (by decide) (by decide) hc
    apply decide_eq_true
    rintro rfl
    contradiction
  have htext := congrArg (fun s => s.toList.reverse) h
  have hcolon : ":".toList.reverse = [':'] := by decide
  simp only [redisKey, String.toList_append, reverse_append, hcolon, singleton_append] at htext
  have hb := congrArg (takeWhile (· ≠ ':')) htext
  rw [hdigits, hdigits, reverse_inj, String.toList_inj] at hb
  rw [hb] at htext
  simp only [append_cancel_left_eq, cons.injEq, append_cancel_right_eq, reverse_inj, String.toList_inj,
    true_and] at htext
  exact ⟨htext, Nat.repr_inj.mp hb⟩

theorem Counted.rateLimiter_eq (h : rule.Counted reqs s) (happlies : rule.applies r = true) :
    ∃ e : Int, (∀ t, rule.bucket t = rule.bucket r.time → t ≤ e) ∧ rule.rateLimiter s r
      = (decide (reqs.countP (rule.counts r.key (rule.bucket r.time)) < rule.maxRequests),
        s.set (rule.redisKey r.key (rule.bucket r.time)) (reqs.countP (rule.counts r.key (rule.bucket r.time)) + 1)
          (some e)) := by
  rcases h r.key (rule.bucket r.time) with ⟨e, he, hs⟩
  unfold rateLimiter incr
  rw [if_pos happlies]
  dsimp only
  generalize reqs.countP (rule.counts r.key (rule.bucket r.time)) = n at hs
  cases n with
  | zero =>
    -- the first request of the window sets the time to live of its counter
    refine ⟨r.time + 1000 * (rule.windowSec - (r.time / 1000 % rule.windowSec : Nat)), ?_, ?_⟩
    . intro t ht
      have hsec := Nat.div_add_mod (r.time / 1000) rule.windowSec
      have ht' := Nat.lt_mul_div_succ (t / 1000) rule.windowSec_pos
      unfold bucket at ht
      rw [ht, Nat.mul_succ] at ht'
      omega
    have hmod := Nat.mod_lt (r.time / 1000) rule.windowSec_pos
    have hlookup : s.lookup r.time (rule.redisKey r.key (rule.bucket r.time)) = none := by
      rw [Store.lookup, hs]
      rfl
    rw [hlookup]
    dsimp only
    rw [if_pos rfl, expire, if_neg (by omega), pexpire, lookup_set, if_pos rfl]
    refine Prod.ext ?_ ?_
    . show decide _ = decide _
      rw [decide_eq_decide]
      omega
    funext k
    show Store.set _ _ _ _ k = Store.set _ _ _ _ k
    unfold Store.set
    split <;> rfl
  | succ n =>
    refine ⟨e, he, ?_⟩
    have hlookup : s.lookup r.time (rule.redisKey r.key (rule.bucket r.time)) = some ⟨n + 1, some e⟩ :=
      lookup_eq_some_iff.mpr ⟨hs, decide_eq_true (he r.time rfl)⟩
    rw [hlookup]
    dsimp only
    rw [if_neg (by omega)]
    congr 1
    rw [decide_eq_decide]
    omega

theorem Counted.step (h : rule.Counted reqs s) : rule.Counted (reqs ++ [r]) (rule.rateLimiter s r).2 := by
  intro key b
  rw [countP_append, countP_singleton]
  rcases h key b with ⟨e, he, hs⟩
  by_cases happlies : rule.applies r = true
  . rcases h.rateLimiter_eq happlies with ⟨e', he', heq⟩
    rw [heq]
    by_cases hkey : key = r.key ∧ b = rule.bucket r.time
    . rw [hkey.1, hkey.2]
      refine ⟨e', he', ?_⟩
      simp [counts, happlies]
    have hother : rule.counts key b r = false := by
      simp only [counts, Bool.and_eq_false_iff, decide_eq_false_iff_not]
      tauto
    rw [hother]
    exact ⟨e, he, (set_of_ne (fun heq => hkey (redisKey_inj heq))).trans hs⟩
  . rw [rateLimiter, if_neg happlies]
    simpa [counts, happlies] using ⟨e, he, hs⟩

theorem counted_serve : rule.Counted reqs (rule.serve reqs).2 := by
  induction reqs using reverseRecOn with
  | nil =>
    intro key b
    refine ⟨1000 * (rule.windowSec * (b + 1) : Nat), ?_, rfl⟩
    rintro t rfl
    have ht := Nat.lt_mul_div_succ (t / 1000) rule.windowSec_pos
    unfold bucket
    omega
  | append_singleton reqs r ih =>
    rw [serve, foldl_append]
    exact ih.step

theorem countP_serve :
    (rule.serve reqs).1.countP (rule.counts key b) = min (reqs.countP (rule.counts key b)) rule.maxRequests := by
  induction reqs using reverseRecOn with
  | nil => simp [serve]
  | append_singleton reqs r ih =>
    have hserve : (rule.serve (reqs ++ [r])).1
        = if (rule.rateLimiter (rule.serve reqs).2 r).1 then (rule.serve reqs).1 ++ [r] else (rule.serve reqs).1 := by
      rw [serve, foldl_append]
      rfl
    rw [hserve, countP_append, countP_singleton]
    by_cases hcounts : rule.counts key b r = true
    . have hr := hcounts
      simp only [counts, Bool.and_eq_true, decide_eq_true_eq] at hr
      rcases counted_serve.rateLimiter_eq hr.1.1 with ⟨e, _, heq⟩
      rw [heq, hr.1.2, hr.2, if_pos hcounts]
      simp only [decide_eq_true_eq]
      split
      . rw [countP_append, countP_singleton, if_pos hcounts, ih]
        omega
      . rw [ih]
        omega
    . rw [if_neg hcounts, Nat.add_zero, ← ih]
      split <;> simp [hcounts]

theorem bounded_by_limit (rule : RateLimitRule) (reqs : List Request) :
    (∀ r, rule.applies r = true → ((rule.rateLimiter (rule.serve reqs).2 r).1 = true
      ↔ reqs.countP (rule.counts r.key (rule.bucket r.time)) < rule.maxRequests))
    ∧ (∀ key b, (rule.serve reqs).1.countP (rule.counts key b)
      = min (reqs.countP (rule.counts key b)) rule.maxRequests)
    ∧ ∀ key t, (rule.serve reqs).1.countP (fun r => rule.applies r && r.key = key
      && t ≤ r.time && r.time ≤ t + 1000 * rule.windowSec) ≤ 2 * rule.maxRequests := by
  refine ⟨?_, fun _ _ => countP_serve, ?_⟩
  . intro r happlies
    rcases counted_serve.rateLimiter_eq happlies with ⟨e, _, heq⟩
    rw [heq, decide_eq_true_iff]
  intro key t
  have hmax (b : Nat) : (rule.serve reqs).1.countP (rule.counts key b) ≤ rule.maxRequests :=
    countP_serve ▸ Nat.min_le_right ..
  rw [countP_eq_countP_filter_add _ _ (rule.counts key (rule.bucket t)), countP_filter, countP_filter, two_mul]
  apply Nat.add_le_add
  . refine le_trans (countP_mono_left ?_) (hmax (rule.bucket t))
    intro r _ hr
    exact (Bool.and_eq_true_iff.mp hr).2
  refine le_trans (countP_mono_left ?_) (hmax (rule.bucket t + 1))
  intro r _ hr
  simp only [counts, Bool.and_eq_true, decide_eq_true_eq, Bool.not_eq_true', Bool.and_eq_false_iff,
    decide_eq_false_iff_not] at hr ⊢
  rcases hr with ⟨⟨⟨⟨happlies, hkey⟩, hfrom⟩, hto⟩, hnot⟩
  refine ⟨⟨happlies, hkey⟩, ?_⟩
  -- the interval meets no third window
  have hne : rule.bucket r.time ≠ rule.bucket t := by simpa [happlies, hkey] using hnot
  have hle : rule.bucket t ≤ rule.bucket r.time := Nat.div_le_div_right (Nat.div_le_div_right hfrom)
  have hge : rule.bucket r.time ≤ (t / 1000 + rule.windowSec) / rule.windowSec := Nat.div_le_div_right (by omega)
  rw [Nat.add_div_right _ rule.windowSec_pos] at hge
  exact Nat.le_antisymm hge (Nat.lt_of_le_of_ne hle hne.symm)

/-- A request is decided by the requests of its key in its window. -/
theorem windows_apart (rule : RateLimitRule) (reqs : List Request) (r : Request) :
    (rule.rateLimiter (rule.serve reqs).2 r).1
      =
    (rule.rateLimiter (rule.serve (reqs.filter (rule.counts r.key (rule.bucket r.time)))).2 r).1 := by
  by_cases happlies : rule.applies r = true
  . rcases counted_serve.rateLimiter_eq happlies with ⟨_, _, hall⟩
    rcases counted_serve.rateLimiter_eq happlies with ⟨_, _, hown⟩
    rw [hall, hown, countP_filter]
    simp
  . rw [rateLimiter, rateLimiter, if_neg happlies, if_neg happlies]

end RateLimitRule

end Mxid.Middleware
