import Mxid.Audit.Impl.Export
import Mxid.Audit.Lemmas.TamperEvidence

namespace Mxid.Audit

namespace ExportBundle

variable {B : Base64} {C : Crypto} {b : ExportBundle} {trusted : KeyRegistry}

variable (C b trusted) in
structure AnchorAccepted (fromSeq : Int64) (a : ExportAnchor) : Prop where
  fromSeq_eq : a.fromSeq = fromSeq
  signed : ∃ pub msg, trusted.keyFor a.keyID = some pub ∧ a.signedMessage? = some msg
    ∧ C.ed25519Verify pub msg a.signature = true
  root : ∃ leaves, b.leaves a = some (some leaves) ∧ merkleRoot C leaves = a.merkleRoot

variable {w : Walk} {a : ExportAnchor} {res : AnchorVerifyResult} {as : List ExportAnchor}

theorem verifyAnchor_eq_ok {w' : Walk} (h : b.verifyAnchor B C trusted w a = some (.ok w')) :
    AnchorAccepted C b trusted w.expectedFrom a ∧ w' = ⟨a.toSeq, a.toSeq + 1⟩ := by
  unfold verifyAnchor at h
  split at h
  . cases h
  split at h
  . cases h
  next pub hdecode =>
  by_cases htrusted : trusted.keyFor a.keyID = some pub
  . by_cases hfrom : a.fromSeq = w.expectedFrom
    . rw [if_neg (not_not.mpr htrusted), if_neg (not_not.mpr hfrom)] at h
      split at h
      . cases h
      next msg hmsg =>
      cases hverify : C.ed25519Verify pub msg a.signature with
      | false => simp [hverify] at h
      | true =>
        simp only [hverify, Bool.not_true, Bool.false_eq_true, if_false] at h
        split at h
        . cases h
        split at h
        . cases h
        . cases h
        next leaves hleaves =>
        split at h
        . cases h
        next hroot =>
        cases h
        exact ⟨⟨hfrom, ⟨pub, msg, htrusted, hmsg, hverify⟩, leaves, hleaves,
          not_not.mp hroot⟩, rfl⟩
    . simp [htrusted, hfrom] at h
  . simp [htrusted] at h

variable (C b trusted) in
def Accepted : (fromSeq : Int64) → List ExportAnchor → Prop
  | _, [] => True
  | fromSeq, a :: as => AnchorAccepted C b trusted fromSeq a ∧ Accepted (a.toSeq + 1) as

theorem Accepted.exists_of_mem {fromSeq : Int64} (h : Accepted C b trusted fromSeq as) (ha : a ∈ as) :
    ∃ fromSeq', AnchorAccepted C b trusted fromSeq' a := by
  induction as generalizing fromSeq with
  | nil => contradiction
  | cons a' as ih =>
    rcases List.mem_cons.mp ha with rfl | ha
    . exact ⟨fromSeq, h.1⟩
    . exact ih h.2 ha

theorem walk_eq_ok {w' : Walk} (h : b.walk B C trusted w as = some (.ok w')) :
    Accepted C b trusted w.expectedFrom as ∧ w'.through = (as.getLast?.map ExportAnchor.toSeq).getD w.through := by
  induction as generalizing w with
  | nil =>
    cases h
    exact ⟨trivial, rfl⟩
  | cons a as ih =>
    unfold walk at h
    split at h
    . cases h
    . cases h
    next w1 hanchor =>
    rcases verifyAnchor_eq_ok hanchor with ⟨haccepted, rfl⟩
    rcases ih h with ⟨hrest, hthrough⟩
    refine ⟨⟨haccepted, hrest⟩, ?_⟩
    rw [hthrough]
    cases hlast : as.getLast? <;> simp [List.getLast?_cons, hlast]

theorem walk_eq_error (h : b.walk B C trusted w as = some (.error res)) : res.ok = false := by
  induction as generalizing w with
  | nil => cases h
  | cons a as ih =>
    unfold walk at h
    split at h
    . cases h
    . next res' hanchor =>
      cases h
      unfold verifyAnchor at hanchor
      repeat' split at hanchor
      all_goals cases hanchor
      all_goals rfl
    . exact ih h

theorem verifyExport_ok (h : b.verifyExport B C trusted = some res) (hok : res.ok = true) :
    Accepted C b trusted b.fromSeq b.anchors ∧ ∃ a, b.anchors.getLast? = some a ∧ res.anchoredThrough = a.toSeq := by
  unfold verifyExport at h
  split at h
  . cases h
  . next res' hwalk =>
    cases h
    rw [walk_eq_error hwalk] at hok
    contradiction
  . next w hwalk =>
    split at h
    . cases h
      contradiction
    . next hne =>
      split at h
      . cases h
        contradiction
      . cases h
        rcases walk_eq_ok hwalk with ⟨haccepted, hthrough⟩
        cases hlast : b.anchors.getLast? with
        | none =>
          rw [List.getLast?_eq_none_iff.mp hlast] at hne
          contradiction
        | some a =>
          rw [hlast] at hthrough
          exact ⟨haccepted, a, rfl, hthrough⟩

end ExportBundle

section Signed

variable {J : Type} {cfg : Config J} {trusted : KeyRegistry} {s : State} {g : Histories} {b : ExportBundle}

def ExportAnchor.SignedFor (s : State) (tenantID : Int64) (chainClass : Bytes) (a : ExportAnchor) : Prop :=
  ∃ msg ∈ s.signed, a.signedMessage? = some msg
    ∧ msg = anchorSigMessageV2 tenantID chainClass a.fromSeq a.toSeq a.prevAnchorHash a.merkleRoot

theorem Honest.signedMessage?_eq (h : Honest cfg s g) {a : ExportAnchor} {msg : Bytes}
    (hmsg : a.signedMessage? = some msg) (hsigned : msg ∈ s.signed) :
    msg = anchorSigMessageV2 a.tenantID a.chainClass a.fromSeq a.toSeq a.prevAnchorHash a.merkleRoot := by
  unfold ExportAnchor.signedMessage? at hmsg
  split at hmsg
  . cases hmsg
    rfl
  . split at hmsg
    . cases hmsg
      exact absurd (h.signed _ hsigned) not_signedOk_v1
    . cases hmsg

end Signed

theorem export_anchors_signed_iff {J : Type} (cfg : Config J) (B : Base64) (trusted : KeyRegistry)
    (withSink : Bool) (acts : List Action) (s : State)
    (run : Run (step cfg) (fun _ _ => True) (.init withSink) acts s)
    (hmac_length : ∀ msg, (cfg.crypto.hmacSHA256 cfg.chainer.key msg).length = 32)
    (sha_length : ∀ msg, (cfg.crypto.sha256 msg).length = 32)
    (unforgeable : ∀ keyID pub msg sig, trusted.keyFor keyID = some pub →
      cfg.crypto.ed25519Verify pub msg sig = true → msg ∈ s.signed)
    (b : ExportBundle) (res : AnchorVerifyResult)
    (hres : b.verifyExport B cfg.crypto trusted = some res) (hok : res.ok = true) :
    (∀ a ∈ b.anchors, a.SignedFor s b.tenantID b.chainClass)
      ↔
    ∀ a ∈ b.anchors, a.tenantID = b.tenantID ∧ a.chainClass = b.chainClass := by
  rcases exists_honest run with ⟨g, h⟩
  have haccepted := (ExportBundle.verifyExport_ok hres hok).1
  constructor
  . intro hsigned a ha
    rcases hsigned a ha with ⟨msg, hmem, hmsg, heq⟩
    have hown := h.signedMessage?_eq hmsg hmem
    rcases h.signed_fields hmac_length sha_length (h.signed _ (hown ▸ hmem)) with ⟨c, _, _, _, _, _, hcls, _⟩
    rcases h.signed_fields hmac_length sha_length (h.signed _ (heq ▸ hmem)) with ⟨c', _, _, _, _, _, hcls', _⟩
    rw [hown] at heq
    simp only [anchorSigMessageV2, List.append_assoc, List.append_cancel_left_eq, Bytes.be8_append_inj] at heq
    rw [Bytes.be2_prefixed_append_inj (hcls ▸ c.2.length_lt) (hcls' ▸ c'.2.length_lt)] at heq
    exact ⟨heq.1, heq.2.1⟩
  . intro hnamed a ha
    rcases haccepted.exists_of_mem ha with ⟨_, hanchor⟩
    rcases hanchor.signed with ⟨pub, msg, hpub, hmsg, hverify⟩
    have hmem := unforgeable _ _ _ _ hpub hverify
    refine ⟨msg, hmem, hmsg, ?_⟩
    rw [← (hnamed a ha).1, ← (hnamed a ha).2]
    exact h.signedMessage?_eq hmsg hmem

namespace Exported

open Truncated (config registry final)

set_option maxRecDepth 4000

def base64 : Base64 :=
  ⟨id, some⟩

def bundle : ExportBundle :=
  buildExport base64 final.db registry LostCreate.chain 1 2

def relabelled : ExportBundle :=
  { bundle with tenantID := 2 }

theorem run : Run (step config) (fun _ _ => True) (.init true) Truncated.acts final :=
  Truncated.run.free

theorem bundle_signed :
    bundle.verifyExport base64 config.crypto registry = some (.success 2)
      ∧ bundle.anchors.length = 1 ∧ ∀ a ∈ bundle.anchors, a.SignedFor final bundle.tenantID bundle.chainClass := by
  have hres : bundle.verifyExport base64 config.crypto registry = some (.success 2) := by
    decide
  refine ⟨hres, by decide, ?_⟩
  rw [export_anchors_signed_iff config base64 registry true Truncated.acts final run
    (fun _ => length_digest _) (fun _ => length_digest _) Truncated.unforgeable bundle _ hres rfl]
  decide

theorem relabelled_accepted :
    Run (step config) (fun _ _ => True) (.init true) Truncated.acts final
      ∧ (∀ keyID pub msg sig, registry.keyFor keyID = some pub →
          config.crypto.ed25519Verify pub msg sig = true → msg ∈ final.signed)
      ∧ relabelled.verifyExport base64 config.crypto registry = some (.success 2)
      ∧ ∃ a ∈ relabelled.anchors, ¬a.SignedFor final relabelled.tenantID relabelled.chainClass := by
  refine ⟨run, Truncated.unforgeable, by decide, ?_⟩
  unfold ExportAnchor.SignedFor
  decide

end Exported

end Mxid.Audit
