import Mxid.App.Impl.Store

namespace Mxid.App

inductive AppError where
  | appNotFound
  | appCodeExists
  | invalidClientType
  | formFillNotLicensed
  | sharedUsername
  | pairwiseNotOIDC
  | notSAML
  | malformed
  | failed
  deriving DecidableEq

structure Secret where
  plain : String
  hash : String

structure EmergencyRevokeResult where
  clientSecretPlain : String
  secretRotated : Bool
  revokeSupported : Bool
  deriving DecidableEq

inductive Answer where
  | refused (e : AppError)
  | created (a : App) (clientSecretPlain : String)
  | updated (a : App)
  | rotated (clientSecretPlain : String)
  | revoked (result : EmergencyRevokeResult)
  | partlyRevoked (result : EmergencyRevokeResult)
  | done
  deriving DecidableEq

def refuse (e : AppError) : Op Answer := pure (.refused e)

open Prog (call)

structure CreateAppRequest where
  name : String
  code : String
  protocol : Protocol
  clientType : Option ClientType
  scope : Option Int
  subjectStrategy : Option String
  icon : Option String
  env : Option String
  description : Option String
  homeURL : Option String
  loginURL : Option String
  redirectURIs : Option String
  logoutURL : Option String
  accessPolicy : Option Int
  isFirstParty : Option Bool
  requireConsent : Option Bool
  protocolConfig : Option String

structure ProtocolDefaults where
  subjectFor : Protocol → String
  protocolConfig : Protocol → Option String

structure Generated where
  id : Int
  clientID : String
  secret : Secret

def CreateAppRequest.strategy (req : CreateAppRequest) (defaults : ProtocolDefaults) : String :=
  let d := defaults.subjectFor req.protocol
  let strategy := (req.subjectStrategy.filter (· ≠ "")).getD (if d = "" then subjectStrategyUsername else d)
  if req.scope = some scopeShared && strategy = subjectStrategyUsername then
    subjectStrategyUsernameSuffixed
  else
    strategy

def newApp (defaults : ProtocolDefaults) (tenantID : Int) (req : CreateAppRequest) (new : Generated) : App where
  id := new.id
  tenantID := if req.scope.getD scopeTenant = scopeTenant then some tenantID else none
  scope := req.scope.getD scopeTenant
  subjectStrategy := req.strategy defaults
  name := req.name
  code := req.code
  protocol := req.protocol
  status := statusEnabled
  icon := req.icon
  env := normalizeEnv req.env
  description := req.description
  clientID := some new.clientID
  clientSecret :=
    if needsClientSecret req.protocol (req.clientType.getD .webApp) then some new.secret.hash else none
  clientType := req.clientType.getD .webApp
  homeURL := req.homeURL
  isFirstParty := req.isFirstParty.getD true
  requireConsent := req.requireConsent.getD false
  -- only an empty document is filled with defaults
  protocolConfig :=
    let config := req.protocolConfig.getD "\x7b\x7d"
    if config = "\x7b\x7d" then (defaults.protocolConfig req.protocol).getD config else config
  loginURL := req.loginURL
  redirectURIs := req.redirectURIs.getD "[]"
  logoutURL := req.logoutURL
  accessPolicy := req.accessPolicy.getD accessPolicyAll

variable (scope : Scope)

def create (licensed : Bool) (defaults : ProtocolDefaults) (tenantID : Int) (req : CreateAppRequest)
    (new : Generated) : Op Answer := do
  match ← call (.getByCode scope tenantID req.code) with
  | none => refuse .failed
  | some (some _) => refuse .appCodeExists
  | some none =>
    if req.protocol = .form && !licensed then
      refuse .formFillNotLicensed
    else if req.strategy defaults = subjectStrategyPairwise && req.protocol ≠ .oidc then
      refuse .pairwiseNotOIDC
    else
      let a := newApp defaults tenantID req new
      match ← call (.create a) with
      | none => refuse .failed
      | some () =>
        if a.protocol = .form then
          pure (.created a "")
        else
          match ← call (.generateKey a.id) with
          | none =>
            let _ ← call (.delete scope a.id)
            refuse .failed
          | some () => pure (.created a (if a.clientSecret.isSome then new.secret.plain else ""))

def withApp (id : Int) (f : App → Op Answer) : Op Answer := do
  match ← call (.getByID scope id) with
  | none => refuse .failed
  | some none => refuse .appNotFound
  | some (some a) => f a

def update (id : Int) (req : UpdateAppRequest) : Op Answer :=
  withApp scope id (fun a => do
    if a.scope = scopeShared && req.subjectStrategy = some subjectStrategyUsername then
      refuse .sharedUsername
    else
      match ← call (.save scope a (.update req)) with
      | none => refuse .failed
      | some () => pure (.updated (Edit.apply a (.update req))))

def rotateClientSecret (id : Int) (secret : Secret) : Op Answer :=
  withApp scope id (fun a => do
    if !needsClientSecret a.protocol a.clientType then
      refuse .invalidClientType
    else
      match ← call (.save scope a (.rotate secret.hash)) with
      | none => refuse .failed
      | some () => pure (.rotated secret.plain))

def emergencyRevoke (revoker : Bool) (id : Int) (secret : Secret) : Op Answer :=
  withApp scope id (fun a => do
    if needsClientSecret a.protocol a.clientType then
      match ← rotateClientSecret scope id secret with
      | .rotated plain => revokeTokens (a.clientID.getD "") ⟨plain, true, revoker⟩
      | refused => pure refused
    else
      revokeTokens (a.clientID.getD "") ⟨"", false, revoker⟩)
where
  revokeTokens (clientID : String) (result : EmergencyRevokeResult) : Op Answer := do
    if result.revokeSupported && clientID ≠ "" then
      match ← call (.revokeTokens clientID) with
      | none => pure (.partlyRevoked result)
      | some () => pure (.revoked result)
    else
      pure (.revoked result)

def delete (id : Int) : Op Answer :=
  withApp scope id (fun _ => do
    match ← call (.delete scope id) with
    | none => refuse .failed
    | some () => pure .done)

def writeColumn (c : Cmd (Option Bool)) : Op Answer := do
  match ← call c with
  | none => refuse .failed
  | some false => refuse .appNotFound
  | some true => pure .done

def updateStatus (id status : Int) : Op Answer :=
  writeColumn (.updateStatus scope id status)

def writeProtocolConfig (id : Int) (change : String → Option String) : Op Answer :=
  withApp scope id (fun a =>
    match change a.protocolConfig with
    | none => refuse .malformed
    | some config => writeColumn (.updateProtocolConfig scope id config))

def importSAMLSPMetadata (id : Int) (complete : String → Option String) : Op Answer :=
  withApp scope id (fun a =>
    if a.protocol ≠ .saml then
      refuse .notSAML
    else
      match complete a.protocolConfig with
      | none => refuse .malformed
      | some config => writeProtocolConfig scope id (fun _ => some config))

inductive Call where
  | create (scope : Scope) (licensed : Bool) (defaults : ProtocolDefaults) (tenantID : Int) (req : CreateAppRequest)
    (new : Generated)
  | update (scope : Scope) (id : Int) (req : UpdateAppRequest)
  | rotateClientSecret (scope : Scope) (id : Int) (secret : Secret)
  | emergencyRevoke (scope : Scope) (revoker : Bool) (id : Int) (secret : Secret)
  | delete (scope : Scope) (id : Int)
  | updateStatus (scope : Scope) (id status : Int)
  | writeProtocolConfig (scope : Scope) (id : Int) (change : String → Option String)
  | importSAMLSPMetadata (scope : Scope) (id : Int) (complete : String → Option String)

def Call.prog : Call → Op Answer
  | .create scope licensed defaults tenantID req new => App.create scope licensed defaults tenantID req new
  | .update scope id req => App.update scope id req
  | .rotateClientSecret scope id secret => App.rotateClientSecret scope id secret
  | .emergencyRevoke scope revoker id secret => App.emergencyRevoke scope revoker id secret
  | .delete scope id => App.delete scope id
  | .updateStatus scope id status => App.updateStatus scope id status
  | .writeProtocolConfig scope id change => App.writeProtocolConfig scope id change
  | .importSAMLSPMetadata scope id complete => App.importSAMLSPMetadata scope id complete

abbrev Clients := Pool Cmd Answer (Faulty Store)

namespace Clients

def start (s : Store) (calls : List Call) : Clients := ⟨⟨s, false⟩, calls.map Call.prog⟩

def step : Clients → Nat × Nat → Option Clients := Pool.step semantics

end Clients

namespace Cmd

variable {β : Type}

def generates (c : Cmd β) (s : Store) : Bool :=
  match c with
  | .create a => a.clientSecret.all (fun hash => hash ∉ s.issued)
  | .save _ _ (.rotate hash) => hash ∉ s.issued
  | _ => true

def savesSecret (c : Cmd β) (s : Store) : Bool :=
  match c with
  | .save _ base (.update _) =>
    (s.apps.find? base.id).any (fun a => a.clientID = base.clientID && a.clientSecret = base.clientSecret)
  | _ => true

end Cmd

end Mxid.App
