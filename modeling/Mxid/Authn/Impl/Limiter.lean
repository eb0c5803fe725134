import Mxid.Data.Redis

namespace Mxid.RateLimit

variable {ι : Type}

structure RateLimitError (ι : Type) where
  purpose : String
  identifier : ι
  retryAfter : Int

structure Config where
  purpose : String
  maxAttempts : Int
  window : Int
  lockout : Int

def defaultMaxAttempts : Int := 5
def defaultWindow : Int := 300000
def defaultLockout : Int := 900000

def Config.withDefaults (c : Config) : Config :=
  { c with
    maxAttempts := if c.maxAttempts ≤ 0 then defaultMaxAttempts else c.maxAttempts
    window := if c.window ≤ 0 then defaultWindow else c.window
    lockout := if c.lockout ≤ 0 then defaultLockout else c.lockout }

structure Limiter where
  cfg : Config
  maxAttempts_pos : 0 < cfg.maxAttempts
  window_pos : 0 < cfg.window
  lockout_pos : 0 < cfg.lockout

theorem Config.withDefaults_pos (c : Config) :
    0 < c.withDefaults.maxAttempts ∧ 0 < c.withDefaults.window ∧ 0 < c.withDefaults.lockout := by
  simp only [withDefaults, defaultMaxAttempts, defaultWindow, defaultLockout]
  refine ⟨?_, ?_, ?_⟩
  all_goals
    split
    all_goals omega

def Limiter.new (cfg : Config) : Except String Limiter :=
  if cfg.purpose = "" then
    .error "ratelimit: Config.Purpose is required"
  else
    have hpos := cfg.withDefaults_pos
    .ok ⟨cfg.withDefaults, hpos.1, hpos.2.1, hpos.2.2⟩

/--
The keys are built from the purpose and a digest of the identifier, the lock's with a suffix. Here
the two families of keys are two keyspaces, and the digest is the identifier itself.
-/
structure Keyspace (ι : Type) where
  counters : Redis.Store (String × ι) Int
  locks : Redis.Store (String × ι) Unit

def Keyspace.empty : Keyspace ι := ⟨Redis.Store.empty, Redis.Store.empty⟩

namespace Limiter

variable (l : Limiter)

def key (identifier : ι) : String × ι := (l.cfg.purpose, identifier)

def check (rdb : Keyspace ι) (now : Int) (identifier : ι) : Option (RateLimitError ι) :=
  let ttl := rdb.locks.ttl now (l.key identifier)
  if 0 < ttl then
    some ⟨l.cfg.purpose, identifier, ttl * 1000⟩
  else
    none

def failureCount (rdb : Keyspace ι) (now : Int) (identifier : ι) : Int :=
  (rdb.counters.get now (l.key identifier)).getD 0

def checkMany (rdb : Keyspace ι) (now : Int) (identifiers : List ι) : Option (RateLimitError ι) :=
  identifiers.findSome? (l.check rdb now)

variable [DecidableEq ι]

def recordScript (rdb : Keyspace ι) (now : Int) (key : String × ι) (window maxAttempts lockout : Int) :
    Int × Keyspace ι :=
  let (c, counters) := rdb.counters.incr now key
  let counters := if c = 1 then counters.pexpire now key window else counters
  if maxAttempts ≤ c then
    let locks := rdb.locks.setNX now key () (some (now + lockout))
    (locks.pttl now key, ⟨counters, locks⟩)
  else
    (0, ⟨counters, rdb.locks⟩)

def recordFailure (rdb : Keyspace ι) (now : Int) (identifier : ι) : Option (RateLimitError ι) × Keyspace ι :=
  let (lockTTLMs, rdb) := recordScript rdb now (l.key identifier) l.cfg.window l.cfg.maxAttempts l.cfg.lockout
  if 0 < lockTTLMs then
    (some ⟨l.cfg.purpose, identifier, lockTTLMs⟩, rdb)
  else
    (none, rdb)

def reset (rdb : Keyspace ι) (identifier : ι) : Keyspace ι :=
  ⟨rdb.counters.del (l.key identifier), rdb.locks.del (l.key identifier)⟩

def recordFailureMany (rdb : Keyspace ι) (now : Int) :
    List ι → Option (RateLimitError ι) × Keyspace ι
  | [] => (none, rdb)
  | identifier :: identifiers =>
    let (blocked, rdb) := l.recordFailure rdb now identifier
    let (later, rdb) := recordFailureMany rdb now identifiers
    (blocked.or later, rdb)

def resetMany (rdb : Keyspace ι) (identifiers : List ι) : Keyspace ι :=
  identifiers.foldl l.reset rdb

end Limiter

end Mxid.RateLimit
