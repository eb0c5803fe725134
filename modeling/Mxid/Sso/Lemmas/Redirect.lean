import Mxid.Sso.Impl.Redirect

namespace Mxid.Sso.Saml

open List Option Bytes Form

def only {α : Type} : List α → Option α
  | [x] => some x
  | _ => none

theorem only_eq_some {α : Type} {l : List α} {x : α} (h : only l = some x) : l = [x] := by
  unfold only at h
  split at h
  . cases h
    rfl
  . contradiction

variable {key rawQuery raw name : Bytes} {maxParams : Option Nat}

theorem parseRawPairs_eq (ps : List Bytes) (found : Option Bytes) :
    parseRawPairs key ps found = only (found.toList ++ (ps.filterMap (mention key)).filterMap id) := by
  induction ps generalizing found with
  | nil => cases found <;> rfl
  | cons pair ps ih =>
    unfold parseRawPairs
    split
    . next name hcut =>
      -- a pair without a value adds nothing
      have hmention : ((pair :: ps).filterMap (mention key)).filterMap id
          = (ps.filterMap (mention key)).filterMap id := by
        rw [filterMap_cons]
        unfold mention
        rw [hcut]
        split
        . rfl
        next h =>
        split at h
        . cases h
          rfl
        . contradiction
      rw [hmention]
      exact ih found
    . next name value hcut =>
      split
      . next hname =>
        have hmention : mention key pair = none := by
          unfold mention
          rw [hcut, if_neg hname]
        rw [filterMap_cons, hmention]
        exact ih found
      . next hname =>
        have hmention : mention key pair = some (some value) := by
          unfold mention
          rw [hcut, if_pos (not_not.mp hname)]
        rw [filterMap_cons, hmention]
        cases found with
        | none => exact ih (some value)
        | some => rfl

theorem parseRawRedirectParam_eq :
    parseRawRedirectParam rawQuery key = only ((mentions rawQuery key).filterMap id) := by
  unfold parseRawRedirectParam mentions
  rw [parseRawPairs_eq]
  rfl

theorem ampersand_notMem_of_parse (h : parseRawRedirectParam rawQuery key = some raw) : ampersand ∉ raw := by
  rw [parseRawRedirectParam_eq] at h
  have hmem : some raw ∈ mentions rawQuery key := by
    have hraw : raw ∈ (mentions rawQuery key).filterMap id := by
      rw [only_eq_some h]
      exact mem_singleton_self raw
    rcases mem_filterMap.mp hraw with ⟨v, hv, hid⟩
    rw [← hid]
    exact hv
  unfold mentions at hmem
  rcases mem_filterMap.mp hmem with ⟨pair, hpair, hmention⟩
  unfold mention at hmention
  split at hmention
  . have hcut : (cut pair).2 = some raw := some.inj hmention
    rcases cut_eq pair with ⟨hnone, _⟩ | ⟨text, hsome, heq⟩
    . rw [hcut] at hnone
      contradiction
    . rw [hcut] at hsome
      cases hsome
      intro hamp
      apply notMem_of_mem_splitOn hpair
      rw [heq]
      exact mem_append_right _ (mem_cons_of_mem _ hamp)
  . contradiction

theorem signedOctets_eq (reqRaw : Bytes) (rsRaw : Option Bytes) (sigAlgRaw : Bytes) :
    signedOctets reqRaw rsRaw sigAlgRaw
      =
    [ampersand].intercalate ([samlRequest ++ equals :: reqRaw]
      ++ rsRaw.toList.map (fun rs => relayState ++ equals :: rs) ++ [sigAlg ++ equals :: sigAlgRaw]) := by
  have hreq : ascii "SAMLRequest=" = samlRequest ++ [equals] := by decide
  have hrs : ascii "&RelayState=" = ampersand :: (relayState ++ [equals]) := by decide
  have halg : ascii "&SigAlg=" = ampersand :: (sigAlg ++ [equals]) := by decide
  unfold signedOctets
  rw [hreq, halg]
  cases rsRaw with
  | none => simp [List.intercalate]
  | some =>
    rw [hrs]
    simp [List.intercalate]

theorem eq_of_filterMap_id {ms : List (Option Bytes)} (h : ms.filterMap id = [raw]) :
    ∃ before after, ms = List.replicate before none ++ some raw :: List.replicate after none := by
  induction ms with
  | nil => contradiction
  | cons m ms ih =>
    cases m with
    | none =>
      rcases ih h with ⟨before, after, rfl⟩
      exact ⟨before + 1, after, rfl⟩
    | some v =>
      have h : v :: ms.filterMap id = [raw] := h
      injection h with hv hms
      refine ⟨0, ms.length, ?_⟩
      have hnone : ms = List.replicate ms.length none := by
        rw [eq_replicate_iff]
        refine ⟨rfl, ?_⟩
        intro m hm
        exact filterMap_eq_nil_iff.mp hms m hm
      rw [hv, replicate_zero, nil_append, ← hnone]

theorem head_read_of_once {ms : List (Option Bytes)} (h : ms.filterMap id = [raw]) :
    ((ms.filterMap read).head?).getD []
      =
    if ms.head? = some (some raw) then (read (some raw)).getD [] else [] := by
  rcases eq_of_filterMap_id h with ⟨before, after, rfl⟩
  rw [filterMap_append, filterMap_replicate_of_some (by rfl : read none = some []), filterMap_cons]
  cases before with
  | zero =>
    rw [replicate_zero, nil_append, replicate_zero, nil_append, List.head?_cons, if_pos rfl]
    cases hread : read (some raw) with
    | some => simp
    | none =>
      cases after <;> rfl
  | succ =>
    simp [replicate_succ]

theorem unescape_eq_getD_read_iff :
    unescape raw = some ((read (some raw)).getD []) ↔ (read (some raw)).isSome = true := by
  by_cases hsemicolon : semicolon ∈ raw
  . have hread : read (some raw) = none := if_pos hsemicolon
    rw [hread]
    apply iff_of_false
    . intro h
      rw [unescape_eq_nil h] at hsemicolon
      contradiction
    . exact Bool.false_ne_true
  . have hread : read (some raw) = unescape raw := if_neg hsemicolon
    rw [hread]
    cases hraw : unescape raw with
    | some | none => simp

theorem unescape_eq_nil_iff : unescape raw = some [] ↔ raw = [] := by
  constructor
  . exact unescape_eq_nil
  . rintro rfl
    rfl

section

variable (hname : name ≠ []) (hsemicolon : Form.semicolon ∉ name) (hlimit : Form.exceeds maxParams rawQuery = false)

include hname hsemicolon hlimit

theorem unescape_eq_value_iff (h : parseRawRedirectParam rawQuery name = some raw) :
    unescape raw = some (value maxParams rawQuery name) ↔ settled rawQuery name = true := by
  rw [parseRawRedirectParam_eq] at h
  rw [value_eq hname hsemicolon, hlimit, if_neg Bool.false_ne_true, head_read_of_once (only_eq_some h)]
  unfold settled
  rw [only_eq_some h]
  by_cases hhead : (mentions rawQuery name).head? = some (some raw)
  . rw [if_pos hhead, unescape_eq_getD_read_iff]
    simp [hhead]
  rw [if_neg hhead, unescape_eq_nil_iff]
  simp only [hhead, decide_false, Bool.false_or, Bool.and_eq_true, decide_eq_true_eq]
  constructor
  . rintro rfl
    exact ⟨rfl, rfl⟩
  . intro h
    exact h.2

theorem value_eq_nil_iff (h : parseRawRedirectParam rawQuery name = none) :
    value maxParams rawQuery name = [] ↔ settled rawQuery name = true := by
  rw [parseRawRedirectParam_eq] at h
  rw [value_eq hname hsemicolon, hlimit, if_neg Bool.false_ne_true]
  unfold settled
  split
  . next raw honce =>
    rw [honce] at h
    contradiction
  . cases ((mentions rawQuery name).filterMap read).head? with
    | none | some => simp

end

structure Accepted {κ : Type} (c : RedirectCrypto κ) (rawQuery : Bytes) (certPEM : String) where
  reqRaw : Bytes
  sigAlgRaw : Bytes
  sig : Bytes
  key : κ
  parse_samlRequest : parseRawRedirectParam rawQuery samlRequest = some reqRaw
  parse_sigAlg : parseRawRedirectParam rawQuery sigAlg = some sigAlgRaw
  unescape_sigAlg : unescape sigAlgRaw = some rsaSHA256SigAlg
  publicKey_eq : c.publicKey certPEM = .ok key
  verifies :
    c.verifyPKCS1v15 key (signedOctets reqRaw (parseRawRedirectParam rawQuery relayState) sigAlgRaw) sig = true

theorem accepted_of_verify {κ : Type} {c : RedirectCrypto κ} {certPEM : String}
    (h : verifyRedirectSignature c rawQuery certPEM = .ok ()) : Nonempty (Accepted c rawQuery certPEM) := by
  unfold verifyRedirectSignature at h
  split at h
  . contradiction
  split at h
  . contradiction
  split at h
  . contradiction
  next sig _ =>
  split at h
  . contradiction
  next sigAlgRaw hsigAlg =>
  split at h
  . contradiction
  next alg halg =>
  split at h
  . contradiction
  next hrsa =>
  split at h
  . contradiction
  next reqRaw hreq =>
  split at h
  . contradiction
  next key hkey =>
  dsimp only at h
  split at h
  . next hverify =>
    rw [not_not.mp hrsa] at halg
    exact ⟨⟨reqRaw, sigAlgRaw, sig, key, hreq, hsigAlg, halg, hkey, hverify⟩⟩
  . contradiction

namespace Accepted

variable {κ : Type} {c : RedirectCrypto κ} {rawQuery : Bytes} {certPEM : String} (a : Accepted c rawQuery certPEM)

def signed : Bytes := signedOctets a.reqRaw (parseRawRedirectParam rawQuery relayState) a.sigAlgRaw

theorem signedOf_eq : signedOf rawQuery = some a.signed := by
  unfold signedOf signed
  rw [a.parse_samlRequest, a.parse_sigAlg]

theorem signedParams_eq :
    signedParams a.signed
      =
    [(samlRequest, a.reqRaw)] ++ (parseRawRedirectParam rawQuery relayState).toList.map (fun rs => (relayState, rs))
      ++ [(sigAlg, a.sigAlgRaw)] := by
  have hreq := ampersand_notMem_of_parse a.parse_samlRequest
  have halg := ampersand_notMem_of_parse a.parse_sigAlg
  have hnames : ampersand ∉ samlRequest ∧ ampersand ∉ relayState ∧ ampersand ∉ sigAlg
      ∧ ampersand ≠ equals := by decide
  have hequals : equals ∉ samlRequest ∧ equals ∉ relayState ∧ equals ∉ sigAlg := by decide
  unfold Accepted.signed signedParams pairs
  rw [signedOctets_eq, splitOn_intercalate]
  . cases parseRawRedirectParam rawQuery relayState with
    | none | some => simp [cut_append, hequals]
  . intro pair hpair
    cases hparse : parseRawRedirectParam rawQuery relayState with
    | none =>
      simp only [hparse, toList_none, map_nil, append_nil, cons_append, nil_append,
        mem_cons, not_mem_nil, or_false] at hpair
      rcases hpair with rfl | rfl
      . simp [hnames, hreq]
      . simp [hnames, halg]
    | some rs =>
      have hrs := ampersand_notMem_of_parse hparse
      simp only [hparse, toList_some, map_cons, map_nil, cons_append, nil_append,
        mem_cons, not_mem_nil, or_false] at hpair
      rcases hpair with rfl | rfl | rfl
      . simp [hnames, hreq]
      . simp [hnames, hrs]
      . simp [hnames, halg]
  . simp

theorem find_samlRequest :
    (signedParams a.signed).find? (fun p => p.1 = samlRequest) = some (samlRequest, a.reqRaw) := by
  rw [a.signedParams_eq]
  simp

theorem find_relayState :
    (signedParams a.signed).find? (fun p => p.1 = relayState)
      =
    (parseRawRedirectParam rawQuery relayState).map (fun rs => (relayState, rs)) := by
  have hne : samlRequest ≠ relayState ∧ sigAlg ≠ relayState := by decide
  rw [a.signedParams_eq]
  cases parseRawRedirectParam rawQuery relayState <;> simp [hne]

theorem find_sigAlg : (signedParams a.signed).find? (fun p => p.1 = sigAlg) = some (sigAlg, a.sigAlgRaw) := by
  have hne : samlRequest ≠ sigAlg ∧ relayState ≠ sigAlg := by decide
  rw [a.signedParams_eq]
  cases parseRawRedirectParam rawQuery relayState <;> simp [hne]

theorem exceeds_of_reads {maxParams : Option Nat} (h : readsSigned maxParams rawQuery a.signed sigAlg = true) :
    exceeds maxParams rawQuery = false := by
  unfold readsSigned at h
  rw [a.find_sigAlg] at h
  have h := of_decide_eq_true h
  rw [a.unescape_sigAlg, value_eq (by decide) (by decide)] at h
  cases hlimit : exceeds maxParams rawQuery with
  | false => rfl
  | true =>
    rw [hlimit, if_pos rfl] at h
    exact absurd h (by decide)

variable {maxParams : Option Nat} (hlimit : Form.exceeds maxParams rawQuery = false)

include hlimit

theorem readsSigned_samlRequest :
    readsSigned maxParams rawQuery a.signed samlRequest = settled rawQuery samlRequest := by
  unfold readsSigned
  rw [a.find_samlRequest, Bool.eq_iff_iff, decide_eq_true_iff]
  exact unescape_eq_value_iff (by decide) (by decide) hlimit a.parse_samlRequest

theorem readsSigned_sigAlg : readsSigned maxParams rawQuery a.signed sigAlg = settled rawQuery sigAlg := by
  unfold readsSigned
  rw [a.find_sigAlg, Bool.eq_iff_iff, decide_eq_true_iff]
  exact unescape_eq_value_iff (by decide) (by decide) hlimit a.parse_sigAlg

theorem readsSigned_relayState : readsSigned maxParams rawQuery a.signed relayState = settled rawQuery relayState := by
  unfold readsSigned
  rw [a.find_relayState]
  cases hparse : parseRawRedirectParam rawQuery relayState with
  | none =>
    rw [map_none, Bool.eq_iff_iff, decide_eq_true_iff]
    exact value_eq_nil_iff (by decide) (by decide) hlimit hparse
  | some =>
    rw [map_some, Bool.eq_iff_iff, decide_eq_true_iff]
    exact unescape_eq_value_iff (by decide) (by decide) hlimit hparse

omit hlimit in
theorem any_relayState (v : Bytes) :
    (signedParams a.signed).any (fun p => p.1 = relayState && unescape p.2 = some v)
      =
    (parseRawRedirectParam rawQuery relayState).any (fun rs => unescape rs = some v) := by
  have hne : samlRequest ≠ relayState ∧ sigAlg ≠ relayState := by decide
  rw [a.signedParams_eq]
  cases parseRawRedirectParam rawQuery relayState <;> simp [hne]

omit a hlimit in
theorem carriesRelayState_eq :
    carriesRelayState rawQuery = (parseRawRedirectParam rawQuery relayState).any (fun rs => rs ≠ []) := by
  unfold carriesRelayState
  rw [parseRawRedirectParam_eq]
  split
  . next raw honce =>
    rw [honce]
    rfl
  . next hmany =>
    cases honly : only ((mentions rawQuery relayState).filterMap id) with
    | none => rfl
    | some raw => exact absurd (only_eq_some honly) (hmany raw)

end Accepted

theorem actsOnSigned_iff {κ : Type} {h : SLOHandler κ} {req : SLORequest} {certPEM : String}
    (a : Accepted h.crypto req.rawQuery certPEM) (hlimit : exceeds h.maxParams req.rawQuery = false)
    (hsettled : settled req.rawQuery relayState = true) :
    h.actsOnSigned req a.signed = true ↔ req.postRelayState = [] ∨ carriesRelayState req.rawQuery = true := by
  unfold SLOHandler.actsOnSigned
  rw [a.any_relayState, Accepted.carriesRelayState_eq, Bool.or_eq_true, decide_eq_true_iff]
  unfold SLOHandler.relayStateOf SLOHandler.query
  cases hparse : parseRawRedirectParam req.rawQuery relayState with
  | none =>
    have hvalue := (value_eq_nil_iff (by decide) (by decide) hlimit hparse).mpr hsettled
    rw [if_pos hvalue]
    simp
  | some =>
    have hvalue := (unescape_eq_value_iff (by decide) (by decide) hlimit hparse).mpr hsettled
    rw [any_some, any_some, decide_eq_true_iff, decide_eq_true_iff]
    by_cases hempty : value h.maxParams req.rawQuery relayState = []
    . rw [hempty, unescape_eq_nil_iff] at hvalue
      rw [if_pos hempty, hvalue]
      constructor
      . rintro (hpost | hpost)
        . exact .inl hpost
        . exact .inl (some.inj hpost).symm
      . rintro (hpost | hrs)
        . exact .inl hpost
        . contradiction
    . rw [if_neg hempty]
      apply iff_of_true
      . exact .inr hvalue
      right
      rintro rfl
      exact hempty (some.inj hvalue).symm

theorem accepted_acts_on_signed_iff {κ : Type} (h : SLOHandler κ) (req : SLORequest) (certPEM : String)
    (haccept : verifyRedirectSignature h.crypto req.rawQuery certPEM = .ok ()) :
    ∃ key sig signed,
      h.crypto.publicKey certPEM = .ok key
        ∧ signedOf req.rawQuery = some signed
        ∧ h.crypto.verifyPKCS1v15 key signed sig = true
        ∧ ((readsSigned h.maxParams req.rawQuery signed samlRequest = true
              ∧ readsSigned h.maxParams req.rawQuery signed relayState = true
              ∧ readsSigned h.maxParams req.rawQuery signed sigAlg = true
              ∧ h.actsOnSigned req signed = true)
            ↔
          (undisputed h.maxParams req.rawQuery = true
              ∧ (req.postRelayState = [] ∨ carriesRelayState req.rawQuery = true))) := by
  rcases accepted_of_verify haccept with ⟨a⟩
  refine ⟨a.key, a.sig, a.signed, a.publicKey_eq, a.signedOf_eq, a.verifies, ?_⟩
  unfold undisputed
  simp only [Bool.and_eq_true, Bool.not_eq_true']
  constructor
  . rintro ⟨hreq, hrelay, halg, hacts⟩
    have hlimit := a.exceeds_of_reads halg
    rw [a.readsSigned_samlRequest hlimit] at hreq
    rw [a.readsSigned_relayState hlimit] at hrelay
    rw [a.readsSigned_sigAlg hlimit] at halg
    exact ⟨⟨⟨⟨hlimit, hreq⟩, hrelay⟩, halg⟩, (actsOnSigned_iff a hlimit hrelay).mp hacts⟩
  . rintro ⟨⟨⟨⟨hlimit, hreq⟩, hrelay⟩, halg⟩, hpost⟩
    rw [a.readsSigned_samlRequest hlimit, a.readsSigned_relayState hlimit, a.readsSigned_sigAlg hlimit]
    exact ⟨hreq, hrelay, halg, (actsOnSigned_iff a hlimit hrelay).mpr hpost⟩

namespace OneSignature

def algorithm : Bytes := ascii "http://www.w3.org/2001/04/xmldsig-more%23rsa-sha256"

def signedOnce : Bytes := signedOctets (ascii "R") none algorithm

def handler : SLOHandler Unit where
  crypto := {
    decodeBase64 := fun text => some text
    publicKey := fun _ => .ok ()
    verifyPKCS1v15 := fun _ signed _ => signed = signedOnce
  }
  maxParams := some 10000
  getConfig := fun _ => some { spCert := "cert", sloURL := "https://sp/slo" }
  extractRequestID := fun _ => .ok "id"
  signingKey := fun _ => true
  isAllowedSLORedirect := fun _ _ => true

def sent : SLORequest where
  appCode := "wiki"
  rawQuery := signedOnce ++ ascii "&Signature=AA"
  postSAMLRequest := []
  postRelayState := []

def forged : SLORequest where
  appCode := "wiki"
  rawQuery := ascii "RelayState=evil&RelayState=&" ++ signedOnce ++ ascii "&Signature=AA"
  postSAMLRequest := []
  postRelayState := []

theorem sent_acts_on_signed :
    undisputed handler.maxParams sent.rawQuery = true
      ∧ ∃ signed,
        signedOf sent.rawQuery = some signed
          ∧ readsSigned handler.maxParams sent.rawQuery signed samlRequest = true
          ∧ handler.actsOnSigned sent signed = true := by
  have hundisputed : undisputed handler.maxParams sent.rawQuery = true := by decide +kernel
  refine ⟨hundisputed, ?_⟩
  have haccept : verifyRedirectSignature handler.crypto sent.rawQuery "cert" = .ok () := by decide +kernel
  rcases accepted_acts_on_signed_iff handler sent "cert" haccept with ⟨_, _, signed, _, hsigned, _, hiff⟩
  have hreads := hiff.mpr ⟨hundisputed, .inl rfl⟩
  exact ⟨signed, hsigned, hreads.1, hreads.2.2.2⟩

theorem forged_relay_state_returned :
    verifyRedirectSignature handler.crypto forged.rawQuery "cert" = .ok ()
      ∧ signedOf forged.rawQuery = some signedOnce
      ∧ (signedParams signedOnce).find? (fun p => p.1 = relayState) = none
      ∧ handler.slo forged = .respond "https://sp/slo" "id" (ascii "evil") := by
  decide +kernel

end OneSignature

end Mxid.Sso.Saml
