import Mxid.Data.Form
import Mxid.Sso.Impl.Saml

namespace Mxid.Sso.Saml

open Form (unescape cut pairs)

def rsaSHA256SigAlg : Bytes := Bytes.ascii "http://www.w3.org/2001/04/xmldsig-more#rsa-sha256"

def samlRequest : Bytes := Bytes.ascii "SAMLRequest"
def relayState : Bytes := Bytes.ascii "RelayState"
def sigAlg : Bytes := Bytes.ascii "SigAlg"
def signature : Bytes := Bytes.ascii "Signature"

def parseRawPairs (key : Bytes) : List Bytes → Option Bytes → Option Bytes
  | [], found => found
  | pair :: rest, found =>
    match cut pair with
    | (_, none) => parseRawPairs key rest found
    | (name, some value) =>
      if unescape name ≠ some key then
        parseRawPairs key rest found
      else if found.isSome then
        none
      else
        parseRawPairs key rest (some value)

def parseRawRedirectParam (rawQuery key : Bytes) : Option Bytes := parseRawPairs key (pairs rawQuery) none

structure RedirectCrypto (κ : Type) where
  decodeBase64 : Bytes → Option Bytes
  publicKey : (certPEM : String) → Except String κ
  verifyPKCS1v15 : κ → (signed sig : Bytes) → Bool

def signedOctets (reqRaw : Bytes) (rsRaw : Option Bytes) (sigAlgRaw : Bytes) : Bytes :=
  Bytes.ascii "SAMLRequest=" ++ reqRaw
    ++ (match rsRaw with
      | none => []
      | some rsRaw => Bytes.ascii "&RelayState=" ++ rsRaw)
    ++ Bytes.ascii "&SigAlg=" ++ sigAlgRaw

def verifyRedirectSignature {κ : Type} (c : RedirectCrypto κ) (rawQuery : Bytes) (certPEM : String) :
    Except String Unit :=
  match parseRawRedirectParam rawQuery signature with
  | none => .error "missing Signature"
  | some sigRaw =>
    match unescape sigRaw with
    | none => .error "decode Signature"
    | some sigB64 =>
      match c.decodeBase64 sigB64 with
      | none => .error "base64 Signature"
      | some sig =>
        match parseRawRedirectParam rawQuery sigAlg with
        | none => .error "missing SigAlg"
        | some sigAlgRaw =>
          match unescape sigAlgRaw with
          | none => .error "decode SigAlg"
          | some alg =>
            if alg ≠ rsaSHA256SigAlg then
              .error "unsupported SigAlg"
            else
              match parseRawRedirectParam rawQuery samlRequest with
              | none => .error "missing SAMLRequest"
              | some reqRaw =>
                match c.publicKey certPEM with
                | .error err => .error err
                | .ok key =>
                  let signed := signedOctets reqRaw (parseRawRedirectParam rawQuery relayState) sigAlgRaw
                  if c.verifyPKCS1v15 key signed sig then .ok () else .error "verification error"

/-!
The endpoint. What comes in the body of a post is used where the query has nothing.
-/

structure SLOConfig where
  spCert : String
  sloURL : String

structure SLORequest where
  appCode : String
  rawQuery : Bytes
  postSAMLRequest : Bytes
  postRelayState : Bytes

structure SLOHandler (κ : Type) where
  crypto : RedirectCrypto κ
  maxParams : Option Nat
  getConfig : (appCode : String) → Option SLOConfig
  extractRequestID : Bytes → Except String String
  signingKey : (appCode : String) → Bool
  isAllowedSLORedirect : SLORequest → (relayState : Bytes) → Bool

inductive SLOReply where
  | badRequest (msg : String)
  | respond (sloURL requestID : String) (relayState : Bytes)
  | redirect (relayState : Bytes)
  | loggedOut
  deriving DecidableEq

namespace SLOHandler

variable {κ : Type} (h : SLOHandler κ) (req : SLORequest)

def query (name : Bytes) : Bytes := Form.value h.maxParams req.rawQuery name

def verifySPLogoutRequestSig : Except String Unit :=
  if h.query req samlRequest = [] then
    .ok ()
  else
    match h.getConfig req.appCode with
    | none => .ok ()
    | some cfg => if cfg.spCert = "" then .ok () else verifyRedirectSignature h.crypto req.rawQuery cfg.spCert

def relayStateOf : Bytes :=
  if h.query req relayState = [] then req.postRelayState else h.query req relayState

def sloResponseRedirect : Option (String × String) :=
  let encoded := if h.query req samlRequest = [] then req.postSAMLRequest else h.query req samlRequest
  if encoded = [] then
    none
  else
    match h.extractRequestID encoded, h.getConfig req.appCode with
    | .ok requestID, some cfg =>
      if cfg.sloURL = "" ∨ !h.signingKey req.appCode then none else some (cfg.sloURL, requestID)
    | _, _ => none

def slo : SLOReply :=
  match h.verifySPLogoutRequestSig req with
  | .error _ => .badRequest "invalid LogoutRequest signature"
  | .ok () =>
    match h.sloResponseRedirect req with
    | some (sloURL, requestID) => .respond sloURL requestID (h.relayStateOf req)
    | none =>
      if h.relayStateOf req ≠ [] ∧ h.isAllowedSLORedirect req (h.relayStateOf req) then
        .redirect (h.relayStateOf req)
      else
        .loggedOut

end SLOHandler

def signedOf (rawQuery : Bytes) : Option Bytes :=
  match parseRawRedirectParam rawQuery samlRequest, parseRawRedirectParam rawQuery sigAlg with
  | some reqRaw, some sigAlgRaw => some (signedOctets reqRaw (parseRawRedirectParam rawQuery relayState) sigAlgRaw)
  | _, _ => none

def signedParams (signed : Bytes) : List (Bytes × Bytes) :=
  (pairs signed).filterMap (fun pair => (cut pair).2.map (fun value => ((cut pair).1, value)))

def readsSigned (maxParams : Option Nat) (rawQuery signed name : Bytes) : Bool :=
  match (signedParams signed).find? (fun p => p.1 = name) with
  | some p => unescape p.2 = some (Form.value maxParams rawQuery name)
  | none => Form.value maxParams rawQuery name = []

/--
The name stands in the query once with a value that can be read, and not without one before, unless the value is empty.
A name that does not stand there once reads as empty.
-/
def settled (rawQuery name : Bytes) : Bool :=
  match (Form.mentions rawQuery name).filterMap id with
  | [raw] =>
    (Form.read (some raw)).isSome && ((Form.mentions rawQuery name).head? = some (some raw) || raw = [])
  | _ => (((Form.mentions rawQuery name).filterMap Form.read).head?).all (fun first => first = [])

def undisputed (maxParams : Option Nat) (rawQuery : Bytes) : Bool :=
  !Form.exceeds maxParams rawQuery && settled rawQuery samlRequest && settled rawQuery relayState
    && settled rawQuery sigAlg

def SLOHandler.actsOnSigned {κ : Type} (h : SLOHandler κ) (req : SLORequest) (signed : Bytes) : Bool :=
  h.relayStateOf req = []
    || (signedParams signed).any (fun p => p.1 = relayState && unescape p.2 = some (h.relayStateOf req))

def carriesRelayState (rawQuery : Bytes) : Bool :=
  match (Form.mentions rawQuery relayState).filterMap id with
  | [raw] => raw ≠ []
  | _ => false

end Mxid.Sso.Saml
