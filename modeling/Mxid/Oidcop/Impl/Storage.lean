import Mxid.Data.Prog
import Mxid.Data.Redis

namespace Mxid.Oidcop

structure AccessToken where
  id : String
  clientID : String
  subject : String
  refreshTokenID : String
  audience : List String
  scopes : List String
  expiration : Int

structure RefreshToken where
  id : String
  token : String
  authTime : Int
  amr : List String
  audience : List String
  userID : String
  clientID : String
  scopes : List String
  accessTokenID : String
  sessionID : String
  familyID : String
  expiration : Int

structure ConsumedMarker where
  familyID : String
  userID : String
  clientID : String

structure TokenReuse where
  userID : String
  clientID : String

inductive TokenKey where
  | token (id : String)
  | refresh (tok : String)
  deriving DecidableEq

structure Config where
  accessTokenLifetime : Int
  refreshTokenLifetime : Int
  access_nonneg : 0 ≤ accessTokenLifetime
  access_le_refresh : accessTokenLifetime ≤ refreshTokenLifetime

def defaultConfig : Config := ⟨10 * 60 * 1000, 30 * 24 * 60 * 60 * 1000, by decide, by decide⟩

structure Keys where
  now : Int
  tokens : Redis.Store String AccessToken
  refresh : Redis.Store String RefreshToken
  consumed : Redis.Store String ConsumedMarker
  families : Redis.Store String (List String)
  userTok : Redis.Store (String × String) (List TokenKey)
  clientUsers : Redis.Store String (List String)
  events : List TokenReuse

def Keys.empty (now : Int) : Keys := ⟨now, .empty, .empty, .empty, .empty, .empty, .empty, []⟩

inductive Cmd : Type → Type where
  | now : Cmd Int
  | getToken (id : String) : Cmd (Option AccessToken)
  | setToken (id : String) (at' : AccessToken) (ttl : Int) : Cmd Unit
  | getRefresh (tok : String) : Cmd (Option RefreshToken)
  | setRefresh (tok : String) (rt : RefreshToken) (ttl : Int) : Cmd Unit
  | getConsumed (tok : String) : Cmd (Option ConsumedMarker)
  | setConsumed (tok : String) (marker : ConsumedMarker) (ttl : Int) : Cmd Unit
  | del (keys : List TokenKey) : Cmd Unit
  | familySAdd (familyID tok : String) : Cmd Unit
  | familySRem (familyID tok : String) : Cmd Unit
  | familyExpire (familyID : String) (ttl : Int) : Cmd Unit
  | familySMembers (familyID : String) : Cmd (List String)
  | familyDel (familyID : String) : Cmd Unit
  | userTokSAdd (userID clientID : String) (key : TokenKey) : Cmd Unit
  | userTokExpire (userID clientID : String) (ttl : Int) : Cmd Unit
  | userTokSMembers (userID clientID : String) : Cmd (List TokenKey)
  | userTokDel (userID clientID : String) : Cmd Unit
  | clientUsersSAdd (clientID userID : String) : Cmd Unit
  | clientUsersExpire (clientID : String) (ttl : Int) : Cmd Unit
  | publish (event : TokenReuse) : Cmd Unit

namespace Keys

variable (s : Keys)

def delKey : TokenKey → Keys
  | .token id => { s with tokens := s.tokens.del id }
  | .refresh tok => { s with refresh := s.refresh.del tok }

def del (keys : List TokenKey) : Keys := keys.foldl delKey s

def step {β : Type} (c : Cmd β) (s : Keys) : β × Keys :=
  match c with
  | .now => (s.now, s)
  | .getToken id => (s.tokens.get s.now id, s)
  | .setToken id at' ttl => ((), { s with tokens := s.tokens.set id at' (some (s.now + ttl)) })
  | .getRefresh tok => (s.refresh.get s.now tok, s)
  | .setRefresh tok rt ttl => ((), { s with refresh := s.refresh.set tok rt (some (s.now + ttl)) })
  | .getConsumed tok => (s.consumed.get s.now tok, s)
  | .setConsumed tok marker ttl =>
    ((), { s with consumed := s.consumed.set tok marker (some (s.now + ttl)) })
  | .del keys => ((), s.del keys)
  | .familySAdd f tok => ((), { s with families := s.families.sadd s.now f tok })
  | .familySRem f tok => ((), { s with families := s.families.srem s.now f tok })
  | .familyExpire f ttl => ((), { s with families := s.families.pexpire s.now f ttl })
  | .familySMembers f => (s.families.smembers s.now f, s)
  | .familyDel f => ((), { s with families := s.families.del f })
  | .userTokSAdd u c key => ((), { s with userTok := s.userTok.sadd s.now (u, c) key })
  | .userTokExpire u c ttl => ((), { s with userTok := s.userTok.pexpire s.now (u, c) ttl })
  | .userTokSMembers u c => (s.userTok.smembers s.now (u, c), s)
  | .userTokDel u c => ((), { s with userTok := s.userTok.del (u, c) })
  | .clientUsersSAdd c u => ((), { s with clientUsers := s.clientUsers.sadd s.now c u })
  | .clientUsersExpire c ttl => ((), { s with clientUsers := s.clientUsers.pexpire s.now c ttl })
  | .publish event => ((), { s with events := s.events ++ [event] })

def advance (ms : Nat) (s : Keys) : Keys := { s with now := s.now + ms }

end Keys

def semantics : Prog.Semantics Cmd Keys := ⟨Keys.step, Keys.advance⟩

abbrev Op (α : Type) := Prog Cmd α

variable (cfg : Config)

def indexAdd (userID clientID : String) (key : TokenKey) : Op Unit := do
  if userID = "" ∨ clientID = "" then
    pure ()
  else
    .call (.userTokSAdd userID clientID key)
    .call (.userTokExpire userID clientID cfg.refreshTokenLifetime)
    .call (.clientUsersSAdd clientID userID)
    .call (.clientUsersExpire clientID cfg.refreshTokenLifetime)

structure TokenRequest where
  clientID : String
  subject : String
  audience : List String
  scopes : List String
  authTime : Int
  amr : List String
  sessionID : String

def storeAccessToken (id refreshID : String) (req : TokenRequest) : Op AccessToken := do
  let now ← .call .now
  let at' : AccessToken :=
    ⟨id, req.clientID, req.subject, refreshID, req.audience, req.scopes, now + cfg.accessTokenLifetime⟩
  .call (.setToken id at' cfg.accessTokenLifetime)
  indexAdd cfg req.subject req.clientID (.token id)
  pure at'

def familyAdd (familyID token : String) : Op Unit := do
  if familyID = "" then
    pure ()
  else
    .call (.familySAdd familyID token)
    .pipe (.familyExpire familyID cfg.refreshTokenLifetime)

def storeRefreshToken (familyID refreshID : String) (access : AccessToken) (req : TokenRequest) : Op RefreshToken := do
  let now ← .call .now
  let rt : RefreshToken :=
    { id := refreshID, token := refreshID, familyID := familyID, authTime := req.authTime, amr := req.amr,
      audience := access.audience, userID := access.subject, clientID := access.clientID,
      scopes := access.scopes, accessTokenID := access.id, sessionID := req.sessionID,
      expiration := now + cfg.refreshTokenLifetime }
  .call (.setRefresh rt.token rt cfg.refreshTokenLifetime)
  indexAdd cfg rt.userID rt.clientID (.refresh rt.token)
  familyAdd cfg familyID rt.token
  pure rt

def revokePaired : Option RefreshToken → Op Unit
  | none => pure ()
  | some rt => if rt.accessTokenID ≠ "" then .call (.del [.token rt.accessTokenID]) else pure ()

def revokeMember (tok : String) : Op Unit := do
  let rt ← .call (.getRefresh tok)
  revokePaired rt
  .call (.del [.refresh tok])

def revokeFamily (familyID : String) : Op Unit := do
  if familyID = "" then
    pure ()
  else
    let members ← .call (.familySMembers familyID)
    forM members revokeMember
    .call (.familyDel familyID)

def checkReuse (token : String) : Op Bool := do
  match ← .call (.getConsumed token) with
  | none => pure false
  | some marker =>
    if marker.familyID = "" then
      pure false
    else
      revokeFamily marker.familyID
      .call (.publish ⟨marker.userID, marker.clientID⟩)
      pure true

inductive TokenError where
  | invalidRefreshToken
  | invalidGrant (description : String)
  | invalidClient (description : String)
  | refused
  deriving DecidableEq

def familyRotate (familyID currentToken newToken : String) : Op Unit := do
  if familyID = "" then
    pure ()
  else
    .call (.familySRem familyID currentToken)
    .pipe (.familySAdd familyID newToken)
    .pipe (.familyExpire familyID cfg.refreshTokenLifetime)

def RefreshToken.renewed (rt : RefreshToken) (newToken accessID : String) (expiration : Int) : RefreshToken :=
  { rt with id := newToken, token := newToken, accessTokenID := accessID, expiration := expiration }

def consumeRefreshToken (rt : RefreshToken) (currentToken : String) : Op Unit := do
  .call (.del [.refresh currentToken, .token rt.accessTokenID])
  let now ← .call .now
  let remaining := if rt.expiration - now < 60000 then 60000 else rt.expiration - now
  .call (.setConsumed currentToken ⟨rt.familyID, rt.userID, rt.clientID⟩ remaining)

def storeRenewedToken (rt : RefreshToken) (currentToken newToken accessID : String) : Op Unit := do
  let now ← .call .now
  let renewed := rt.renewed newToken accessID (now + cfg.refreshTokenLifetime)
  .call (.setRefresh newToken renewed cfg.refreshTokenLifetime)
  indexAdd cfg rt.userID rt.clientID (.refresh newToken)
  familyRotate cfg rt.familyID currentToken newToken

def renewRefreshToken (currentToken newToken : String) (access : AccessToken) : Op (Except TokenError Unit) := do
  match ← .call (.getRefresh currentToken) with
  | none =>
    let _ ← checkReuse currentToken
    pure (.error (.invalidGrant "invalid refresh token"))
  | some rt =>
    let now ← .call .now
    if rt.expiration < now then
      pure (.error (.invalidGrant "expired refresh token"))
    else
      consumeRefreshToken rt currentToken
      storeRenewedToken cfg rt currentToken newToken access.id
      pure (.ok ())

structure Tokens where
  accessID : String
  refresh : String
  expiration : Int
  deriving DecidableEq

def createTokens (familyID refreshID accessID : String) (req : TokenRequest) : Op Tokens := do
  let access ← storeAccessToken cfg accessID refreshID req
  let refresh ← storeRefreshToken cfg familyID refreshID access req
  pure ⟨access.id, refresh.token, access.expiration⟩

def rotateTokens (currentRefreshToken newRefresh accessID : String) (req : TokenRequest) :
    Op (Except TokenError Tokens) := do
  let access ← storeAccessToken cfg accessID newRefresh req
  match ← renewRefreshToken cfg currentRefreshToken newRefresh access with
  | .error err => pure (.error err)
  | .ok () => pure (.ok ⟨access.id, newRefresh, access.expiration⟩)

abbrev UserStatusResolver := Option ((userID : String) → Except String Bool)

def userActive (users : UserStatusResolver) (userID : String) : Bool :=
  match users with
  | none => true
  | some isUserActive =>
    match isUserActive userID with
    | .error _ => false
    | .ok active => active

def tokenRequestByRefreshToken (users : UserStatusResolver) (token : String) : Op (Except TokenError RefreshToken) := do
  match ← .call (.getRefresh token) with
  | none =>
    let _ ← checkReuse token
    pure (.error .invalidRefreshToken)
  | some rt =>
    if !userActive users rt.userID then
      revokeFamily rt.familyID
      pure (.error .invalidRefreshToken)
    else
      pure (.ok rt)

def RefreshToken.request (rt : RefreshToken) (scopes : List String) : TokenRequest :=
  ⟨rt.clientID, rt.userID, rt.audience, scopes, rt.authTime, rt.amr, rt.sessionID⟩

structure Exchange where
  token : String
  users : UserStatusResolver
  validate : RefreshToken → Option (List String)
  newRefresh : String
  accessID : String

def exchange (x : Exchange) : Op (Except TokenError Tokens) := do
  match ← tokenRequestByRefreshToken x.users x.token with
  | .error err => pure (.error err)
  | .ok rt =>
    match x.validate rt with
    | none => pure (.error .refused)
    | some scopes => rotateTokens cfg x.token x.newRefresh x.accessID (rt.request scopes)

def revokeToken (tokenIDOrToken clientID : String) : Op (Except TokenError Unit) := do
  match ← .call (.getToken tokenIDOrToken) with
  | some at' =>
    if at'.clientID ≠ clientID then
      pure (.error (.invalidClient "token was not issued for this client"))
    else
      .call (.del [.token at'.id])
      pure (.ok ())
  | none =>
    match ← .call (.getRefresh tokenIDOrToken) with
    | none => pure (.ok ())
    | some rt =>
      if rt.clientID ≠ clientID then
        pure (.error (.invalidClient "token was not issued for this client"))
      else
        .call (.del [.refresh rt.token, .token rt.accessTokenID])
        pure (.ok ())

def delMembers (members : List TokenKey) : Op Unit :=
  if members ≠ [] then .call (.del members) else pure ()

def terminateSession (userID clientID : String) : Op Unit := do
  let members ← .call (.userTokSMembers userID clientID)
  delMembers members
  .call (.userTokDel userID clientID)

end Mxid.Oidcop
