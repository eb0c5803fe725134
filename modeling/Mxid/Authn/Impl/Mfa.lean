import Mxid.Authn.Impl.Login

namespace Mxid.Authn

open RateLimit

def mfaFailWindow : Int := 5 * 60 * 1000
def mfaFailThreshold : Int := 15
def mfaLockDurations : List Int := [1 * 60 * 1000, 5 * 60 * 1000, 15 * 60 * 1000]
def mfaLockLevelTTL : Int := 60 * 60 * 1000

structure MFARateLimitError where
  retryAfter : Int

structure MFAKeyspace where
  fails : Redis.Store Identifier Int
  locked : Redis.Store Identifier Unit
  lockLevel : Redis.Store Identifier Int

def MFAKeyspace.empty : MFAKeyspace := ⟨.empty, .empty, .empty⟩

def mfaIdentifiers (userID : Int) (ip : String) : List Identifier :=
  (if userID = 0 then [] else [.user userID]) ++ (if ip = "" then [] else [.ip ip])

namespace MFAKeyspace

def check (rdb : MFAKeyspace) (now userID : Int) (ip : String) : Option MFARateLimitError :=
  (mfaIdentifiers userID ip).findSome? (fun key =>
    let ttl := rdb.locked.ttl now key
    if 0 < ttl then some ⟨ttl * 1000⟩ else none)

def lockDuration (level : Int) : Int :=
  let last := mfaLockDurations.length - 1
  let idx := level - 1
  mfaLockDurations.getD (if idx < 0 ∨ last < idx then last else idx.toNat) 0

def lock (rdb : MFAKeyspace) (now : Int) (key : Identifier) : MFAKeyspace :=
  let (level, lockLevel) := rdb.lockLevel.incr now key
  let lockLevel := if level = 1 then lockLevel.pexpire now key mfaLockLevelTTL else lockLevel
  ⟨rdb.fails.del key, rdb.locked.set key () (some (now + lockDuration level)), lockLevel⟩

def recordFailureOne (now : Int) (rdb : MFAKeyspace) (key : Identifier) : MFAKeyspace :=
  let (count, fails) := rdb.fails.incr now key
  let fails := if count = 1 then fails.pexpire now key mfaFailWindow else fails
  if mfaFailThreshold ≤ count then
    lock { rdb with fails } now key
  else
    { rdb with fails }

def recordFailure (rdb : MFAKeyspace) (now userID : Int) (ip : String) : MFAKeyspace :=
  (mfaIdentifiers userID ip).foldl (recordFailureOne now) rdb

def reset (rdb : MFAKeyspace) (userID : Int) (ip : String) : MFAKeyspace :=
  (mfaIdentifiers userID ip).foldl
    (fun rdb key => ⟨rdb.fails.del key, rdb.locked.del key, rdb.lockLevel.del key⟩) rdb

end MFAKeyspace

structure MFALock where
  trippedAt : Int
  endsAt : Int

/--
The last field is not stored anywhere, it lists the locks of one user, the newest first.
-/
structure MFALockouts where
  rdb : MFAKeyspace
  now : Int
  locks : List MFALock

namespace MFALockouts

variable (userID : Int) (s : MFALockouts) (call : Nat × String)

def trips : Bool :=
  userID ≠ 0 ∧ mfaFailThreshold ≤ (s.rdb.fails.incr (s.now + call.1) (.user userID)).1

/-- A failure is recorded some milliseconds later. -/
def step : Option MFALockouts :=
  if s.rdb.check (s.now + call.1) userID call.2 = none then
    let now := s.now + call.1
    let rdb := s.rdb.recordFailure now userID call.2
    let endsAt := ((rdb.locked (.user userID)).bind Redis.Entry.expireAt).getD now
    some ⟨rdb, now, if s.trips userID call then ⟨now, endsAt⟩ :: s.locks else s.locks⟩
  else
    none

def remembers : Bool :=
  s.trips userID call → s.locks.isEmpty ∨ (s.rdb.lockLevel.lookup (s.now + call.1) (.user userID)).isSome

end MFALockouts

inductive MFAVerifyError where
  | codeReused
  | invalid (msg : String)

structure MFAVerifier where
  hasVerifiedTOTP : (userID : Int) → Except String Bool
  verifyTOTP : (userID : Int) → (code : String) → Except MFAVerifyError Unit
  consumeBackupCode : (userID : Int) → (code : String) → Except MFAVerifyError Unit

inductive MFAError where
  | challengeNotFound
  | rateLimited (cause : MFARateLimitError)
  | verifyFailed
  | login (cause : LoginError)

structure MFAChallengePayload where
  userID : Int
  tenantID : Int
  username : String
  displayName : String
  authType : String
  namespaceName : String
  clientIP : String
  userAgent : String

def mfaChallengeTTL : Int := 5 * 60 * 1000

def challengePayload (namespaceName : String) (req : AuthRequest) (result : AuthResult) : MFAChallengePayload where
  userID := result.userID
  tenantID := req.tenantID
  username := result.username
  displayName := result.displayName
  authType := req.authType
  namespaceName := namespaceName
  clientIP := req.clientIP
  userAgent := req.userAgent

def MFAChallengePayload.authRequest (p : MFAChallengePayload) : AuthRequest :=
  ⟨p.tenantID, p.authType, "", "", p.clientIP, p.userAgent⟩

def MFAChallengePayload.authResult (p : MFAChallengePayload) : AuthResult :=
  ⟨p.userID, p.username, p.displayName, .success⟩

def looksLikeBackupCode (code : String) : Bool :=
  go 0 code.toList
where
  go (digits : Nat) : List Char → Bool
    | [] => digits = 8
    | r :: rs =>
      if r = '-' ∨ r = ' ' then
        go digits rs
      else if '0' ≤ r ∧ r ≤ '9' then
        go (digits + 1) rs
      else
        ('A' ≤ r ∧ r ≤ 'Z') ∨ ('a' ≤ r ∧ r ≤ 'z')

def MFAVerifier.verify (v : MFAVerifier) (userID : Int) (code : String) : Except MFAVerifyError Unit :=
  match v.verifyTOTP userID code with
  | .ok () => .ok ()
  | .error err =>
    if looksLikeBackupCode code then
      match v.consumeBackupCode userID code with
      | .ok () => .ok ()
      | .error _ => .error err
    else
      .error err

structure MFAOutcome where
  response : Except MFAError LoginResponse
  payload : Option MFAChallengePayload
  challenges : Redis.Store String MFAChallengePayload
  mfa : MFAKeyspace

def consumeMFAChallenge (challenges : Redis.Store String MFAChallengePayload) (now : Int) (token : String) :
    Option MFAChallengePayload × Redis.Store String MFAChallengePayload :=
  if token = "" then
    (none, challenges)
  else
    challenges.getDel now token

def verifyMFAChallenge (backend : Backend) (verifier : MFAVerifier)
    (challenges : Redis.Store String MFAChallengePayload) (mfa : MFAKeyspace) (now : Int)
    (challenge code : String) : MFAOutcome :=
  match consumeMFAChallenge challenges now challenge with
  | (none, challenges) => ⟨.error .challengeNotFound, none, challenges, mfa⟩
  | (some payload, challenges) =>
    match mfa.check now payload.userID payload.clientIP with
    | some err => ⟨.error (.rateLimited err), some payload, challenges, mfa⟩
    | none =>
      match verifier.verify payload.userID code with
      | .error .codeReused => ⟨.error .verifyFailed, some payload, challenges, mfa⟩
      | .error (.invalid _) =>
        ⟨.error .verifyFailed, some payload, challenges,
          mfa.recordFailure now payload.userID payload.clientIP⟩
      | .ok () =>
        let response :=
          match Engine.completeLogin backend payload.namespaceName payload.authRequest payload.authResult with
          | .error err => .error (.login err)
          | .ok resp => .ok resp
        ⟨response, some payload, challenges, mfa.reset payload.userID payload.clientIP⟩

end Mxid.Authn
