import Weaver.Crypto.Payloads

/-!
# Credentials

A credential of `weaver-crypto` is a payload, the exact bytes that were signed and the signature.
Verification covers the received bytes, never a re-encoding, so a credential carries the proof that
its payload is what those bytes decode to. The seven kinds of credentials differ in their payload
format alone; `Signed` holds what they share.

Each `verify` of the source is a sequence of checks with early returns. Beside each stands the
predicate that its success amounts to, one field per check, and the lemma that joins the two.
-/

namespace Weaver

open Checked Wire

/-! ## Signed payloads -/

structure PayloadFormat (P : Type) where
  sized : ℕ → Bool
  decode : Bytes → Except CertificateError P

/-- A payload of the format `F` with the bytes that were signed and the signature. -/
structure Signed {P : Type} (F : PayloadFormat P) where
  payload : P
  signedPayload : Bytes
  signature : Signature
  sized : F.sized signedPayload.length = true
  decodes : F.decode signedPayload = .ok payload

namespace Signed

variable {P : Type} {F : PayloadFormat P}

/-- `append_signature`, which is the `to_bytes` of every credential. -/
def toBytes (c : Signed F) : Bytes := c.signedPayload ++ c.signature.val

/-- The `from_bytes` of a credential: the last 64 bytes are the signature, and the bytes before
them have a length of the format and decode. -/
def fromBytes (F : PayloadFormat P) (bytes : Bytes) : Except CertificateError (Signed F) :=
  if h : signatureLen ≤ bytes.length ∧ F.sized (bytes.length - signatureLen) = true then
    match hd : F.decode (bytes.take (bytes.length - signatureLen)) with
    | .ok payload => .ok
        { payload
          signedPayload := bytes.take (bytes.length - signatureLen)
          signature := ⟨bytes.drop (bytes.length - signatureLen), by
            rw [List.length_drop, Nat.sub_sub_self h.1, signatureLen]⟩
          sized := by
            rw [List.length_take, Nat.min_eq_left (Nat.sub_le _ _)]
            exact h.2
          decodes := hd }
    | .error e => .error e
  else .error .malformedWire

variable {c : Signed F}

theorem ext_bytes {d : Signed F} (hp : c.signedPayload = d.signedPayload)
    (hs : c.signature = d.signature) : c = d := by
  have hpayload : c.payload = d.payload := by
    have h := c.decodes
    rw [hp, d.decodes] at h
    exact (Except.ok.inj h).symm
  obtain ⟨p, b, s, hz, hd⟩ := c
  obtain ⟨p', b', s', hz', hd'⟩ := d
  subst hp hs hpayload
  rfl

theorem toBytes_of_fromBytes {bytes : Bytes} (h : fromBytes F bytes = .ok c) :
    c.toBytes = bytes := by
  unfold fromBytes at h
  split at h
  · split at h
    · have hc := Except.ok.inj h
      rw [← hc, toBytes]
      exact List.take_append_drop _ _
    · cases h
  · cases h

@[simp]
theorem fromBytes_toBytes (c : Signed F) : fromBytes F c.toBytes = .ok c := by
  have hlen : c.toBytes.length = c.signedPayload.length + signatureLen := by
    rw [toBytes, List.length_append, c.signature.property, signatureLen]
  have hsub : c.toBytes.length - signatureLen = c.signedPayload.length := by omega
  have htake : c.toBytes.take (c.toBytes.length - signatureLen) = c.signedPayload := by
    rw [hsub, toBytes, List.take_left]
  have hdrop : c.toBytes.drop (c.toBytes.length - signatureLen) = c.signature.val := by
    rw [hsub, toBytes, List.drop_left]
  have hcond : signatureLen ≤ c.toBytes.length ∧
      F.sized (c.toBytes.length - signatureLen) = true := by
    rw [hsub]
    exact ⟨by omega, c.sized⟩
  unfold fromBytes
  rw [dif_pos hcond]
  split
  · next payload hd =>
    refine congrArg Except.ok (ext_bytes htake ?_)
    exact Subtype.ext hdrop
  · next e hd =>
    rw [htake, c.decodes] at hd
    cases hd

theorem fromBytes_eq_ok {bytes : Bytes} :
    fromBytes F bytes = .ok c ↔ bytes = c.toBytes := by
  constructor
  · intro h
    exact (toBytes_of_fromBytes h).symm
  · rintro rfl
    exact fromBytes_toBytes c

theorem toBytes_injective : Function.Injective (toBytes (F := F)) := by
  intro c d h
  have hc := fromBytes_toBytes c
  rw [h, fromBytes_toBytes] at hc
  exact (Except.ok.inj hc).symm

theorem toBytes_length (c : Signed F) :
    c.toBytes.length = c.signedPayload.length + signatureLen := by
  rw [toBytes, List.length_append, c.signature.property, signatureLen]

end Signed

/-! ## The kinds of credentials -/

def adminFormat : PayloadFormat AdminCertificatePayload where
  sized n := n = adminPayloadLen
  decode := decodeAdminPayload

def joinRequestFormat : PayloadFormat JoinRequestPayload where
  sized n := n = joinRequestPayloadLen
  decode := decodeJoinRequestPayload

def memberFormat : PayloadFormat MemberCertificatePayload where
  sized n := n = memberPayloadLen
  decode := decodeMemberPayload

def endpointFormat : PayloadFormat EndpointBindingPayload where
  sized n := n = endpointPayloadLen
  decode := decodeEndpointPayload

def appRegistrationFormat : PayloadFormat AppRegistrationPayload where
  sized n := n = appRegPayloadLen
  decode := decodeAppRegistrationPayload

def appRegistrationRequestFormat : PayloadFormat AppRegistrationRequestPayload where
  sized n := n = appRegRequestPayloadLen
  decode := decodeAppRegistrationRequestPayload

def appBindingFormat : PayloadFormat AppBindingPayload where
  sized n := appBindFixedLen ≤ n
  decode := decodeAppBindingPayload

abbrev AdminCertificate := Signed adminFormat

abbrev JoinRequest := Signed joinRequestFormat

abbrev MemberCertificate := Signed memberFormat

abbrev EndpointBinding := Signed endpointFormat

abbrev AppRegistration := Signed appRegistrationFormat

abbrev AppRegistrationRequest := Signed appRegistrationRequestFormat

abbrev AppBinding := Signed appBindingFormat

abbrev AdminCertificate.fromBytes (bytes : Bytes) : Except CertificateError AdminCertificate :=
  Signed.fromBytes adminFormat bytes

abbrev JoinRequest.fromBytes (bytes : Bytes) : Except CertificateError JoinRequest :=
  Signed.fromBytes joinRequestFormat bytes

abbrev MemberCertificate.fromBytes (bytes : Bytes) : Except CertificateError MemberCertificate :=
  Signed.fromBytes memberFormat bytes

abbrev EndpointBinding.fromBytes (bytes : Bytes) : Except CertificateError EndpointBinding :=
  Signed.fromBytes endpointFormat bytes

abbrev AppRegistration.fromBytes (bytes : Bytes) : Except CertificateError AppRegistration :=
  Signed.fromBytes appRegistrationFormat bytes

abbrev AppRegistrationRequest.fromBytes (bytes : Bytes) :
    Except CertificateError AppRegistrationRequest :=
  Signed.fromBytes appRegistrationRequestFormat bytes

abbrev AppBinding.fromBytes (bytes : Bytes) : Except CertificateError AppBinding :=
  Signed.fromBytes appBindingFormat bytes

end Weaver
