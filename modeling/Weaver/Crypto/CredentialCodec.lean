import Weaver.Crypto.Bindings
import Weaver.Lib.Exact

/-!
# The credential formats are exact

A signature covers the bytes of a payload, and a verifier decides on the fields that were decoded
from them. `credential_codecs_exact`: in each of the eight formats a credential is read back from its
bytes, and what is decoded encodes to exactly the bytes that were signed.
-/

namespace Weaver

open Checked Wire Wire.Decoder

/-! ## Canonical payloads -/

def PayloadFormat.Canonical {P : Type} (F : PayloadFormat P) (encode : P → Bytes) : Prop :=
  ∀ b p, F.decode b = .ok p → encode p = b

theorem adminFormat_canonical : adminFormat.Canonical encodeAdminPayload := by
  intro b p h
  obtain ⟨rest, hrun⟩ := decode_eq_ok.mp h
  simp only [bind_run_eq_ok, magic_run_eq_ok, array_run_eq_ok, u32_run_eq_ok, u64_run_eq_ok,
    finish_run_eq_ok, pure_run_eq_ok] at hrun
  obtain ⟨_, _, rfl, network, _, rfl, keyId, _, rfl, publicKey, _, rfl, permissions, _, rfl, serial,
    _, rfl, notBefore, _, rfl, expires, _, rfl, issuer, _, rfl, _, _, ⟨rfl, rfl⟩, rfl, rfl⟩ := hrun
  simp [encodeAdminPayload]

theorem joinRequestFormat_canonical : joinRequestFormat.Canonical encodeJoinRequestPayload := by
  intro b p h
  obtain ⟨rest, hrun⟩ := decode_eq_ok.mp h
  simp only [bind_run_eq_ok, magic_run_eq_ok, array_run_eq_ok, u32_run_eq_ok, u64_run_eq_ok,
    finish_run_eq_ok, pure_run_eq_ok] at hrun
  obtain ⟨_, _, rfl, network, _, rfl, member, _, rfl, signing, _, rfl, encryption, _, rfl, endpoint,
    _, rfl, nonce, _, rfl, roles, _, rfl, expires, _, rfl, _, _, ⟨rfl, rfl⟩, rfl, rfl⟩ := hrun
  simp [encodeJoinRequestPayload]

theorem memberFormat_canonical : memberFormat.Canonical encodeMemberPayload := by
  intro b p h
  obtain ⟨rest, hrun⟩ := decode_eq_ok.mp h
  simp only [bind_run_eq_ok, magic_run_eq_ok, array_run_eq_ok, u32_run_eq_ok, u64_run_eq_ok,
    finish_run_eq_ok, pure_run_eq_ok] at hrun
  obtain ⟨_, _, rfl, network, _, rfl, member, _, rfl, signing, _, rfl, encryption, _, rfl, roles, _,
    rfl, serial, _, rfl, notBefore, _, rfl, expires, _, rfl, issuer, _, rfl, _, _, ⟨rfl, rfl⟩, rfl,
    rfl⟩ := hrun
  simp [encodeMemberPayload]

theorem endpointFormat_canonical : endpointFormat.Canonical encodeEndpointPayload := by
  intro b p h
  obtain ⟨rest, hrun⟩ := decode_eq_ok.mp h
  simp only [bind_run_eq_ok, magic_run_eq_ok, array_run_eq_ok, u64_run_eq_ok, finish_run_eq_ok,
    pure_run_eq_ok] at hrun
  obtain ⟨_, _, rfl, network, _, rfl, member, _, rfl, endpoint, _, rfl, sequence, _, rfl, expires, _,
    rfl, _, _, ⟨rfl, rfl⟩, rfl, rfl⟩ := hrun
  simp [encodeEndpointPayload]

theorem appRegistrationFormat_canonical :
    appRegistrationFormat.Canonical encodeAppRegistrationPayload := by
  intro b p h
  obtain ⟨rest, hrun⟩ := decode_eq_ok.mp h
  simp only [bind_run_eq_ok, magic_run_eq_ok, array_run_eq_ok, u32_run_eq_ok, finish_run_eq_ok,
    pure_run_eq_ok] at hrun
  obtain ⟨_, _, rfl, network, _, rfl, app, _, rfl, publicKey, _, rfl, policy, _, rfl, issuer, _, rfl,
    _, _, ⟨rfl, rfl⟩, rfl, rfl⟩ := hrun
  simp [encodeAppRegistrationPayload]

theorem appRegistrationRequestFormat_canonical :
    appRegistrationRequestFormat.Canonical encodeAppRegistrationRequestPayload := by
  intro b p h
  obtain ⟨rest, hrun⟩ := decode_eq_ok.mp h
  simp only [bind_run_eq_ok, magic_run_eq_ok, array_run_eq_ok, u32_run_eq_ok, finish_run_eq_ok,
    pure_run_eq_ok] at hrun
  obtain ⟨_, _, rfl, network, _, rfl, app, _, rfl, publicKey, _, rfl, policy, _, rfl, _, _,
    ⟨rfl, rfl⟩, rfl, rfl⟩ := hrun
  simp [encodeAppRegistrationRequestPayload]

theorem byte_of_decodeRole {byte : UInt8} {role : AppRole} (h : decodeRole byte = .ok role) :
    role.byte = byte := by
  unfold decodeRole at h
  split at h
  · next hzero =>
    obtain rfl := Except.ok.inj h
    exact hzero.symm
  · split at h
    · next hone =>
      obtain rfl := Except.ok.inj h
      exact hone.symm
    · cases h

theorem encodeDevice_of_decodeDevice {present : UInt8} {bytes : Bytes32} {device : Option DeviceId}
    (h : decodeDevice present bytes = .ok device) : encodeDevice device = (present, bytes) := by
  unfold decodeDevice at h
  split at h
  · next habsent =>
    obtain rfl := Except.ok.inj h
    exact Prod.ext habsent.1.symm habsent.2.symm
  · split at h
    · next hone =>
      obtain rfl := Except.ok.inj h
      exact Prod.ext hone.symm rfl
    · cases h

theorem appBindingFormat_canonical : appBindingFormat.Canonical encodeAppBindingPayload := by
  intro b p h
  obtain ⟨rest, hrun⟩ := decode_eq_ok.mp h
  simp only [bind_run_eq_ok, magic_run_eq_ok, array_run_eq_ok, u8_run_eq_ok, u16_run_eq_ok,
    u64_run_eq_ok, lift_run_eq_ok, finish_run_eq_ok, pure_run_eq_ok] at hrun
  obtain ⟨_, _, rfl, network, _, rfl, app, _, rfl, subject, _, rfl, roleByte, _, rfl, role, _,
    ⟨hrole, rfl⟩, present, _, rfl, deviceBytes, _, rfl, device, _, ⟨hdevice, rfl⟩, expires, _, rfl,
    count, _, rfl, _, _, ⟨-, rfl⟩, services, _, hservices, _, _, ⟨rfl, rfl⟩, _, _, ⟨-, rfl⟩, rfl,
    rfl⟩ := hrun
  -- the services are arrays of 16 bytes, one after the other
  have hitem : (array CertificateError.malformedWire 16).Consumes
      (fun a => (.ok a.val : Except CertificateError Bytes)) :=
    fun b a rest h => ⟨a.val, rfl, array_run_eq_ok.mp h⟩
  obtain ⟨hcount, bs, hbs, rfl⟩ := hitem.many hservices
  obtain rfl : services.map (fun a => a.val) = bs :=
    Except.ok.inj ((mapM_ok_of_forall fun _ _ => rfl).symm.trans hbs)
  have hlength : UInt16.ofNat services.length = count := by
    rw [hcount, UInt16.ofNat_toNat]
  simp [encodeAppBindingPayload, byte_of_decodeRole hrole, encodeDevice_of_decodeDevice hdevice,
    hlength, Function.comp_def]

/-! ## Exact formats -/

/-- The format is exact: a credential is read back from its bytes, the payload of what is read
encodes to the signed part of the bytes, and the payload and the signature determine the bytes. -/
structure PayloadFormat.Exact {P : Type} (F : PayloadFormat P) (encode : P → Bytes) : Prop where
  /-- A credential is read back from its bytes, which begin with the encoding of its payload. -/
  read_back : ∀ c : Signed F, Signed.fromBytes F c.toBytes = .ok c ∧
    c.toBytes = encode c.payload ++ c.signature.val
  /-- What is read is written back, and its payload encodes to what was signed. -/
  canonical : ∀ b c, Signed.fromBytes F b = .ok c → c.toBytes = b ∧
    encode c.payload = b.take (b.length - signatureLen)
  determined : ∀ b b' c c', Signed.fromBytes F b = .ok c → Signed.fromBytes F b' = .ok c' →
    c.signature = c'.signature → c.payload = c'.payload → b = b'

theorem PayloadFormat.Canonical.exact {P : Type} {F : PayloadFormat P} {encode : P → Bytes}
    (h : F.Canonical encode) : F.Exact encode := by
  have hbytes : ∀ c : Signed F, c.toBytes = encode c.payload ++ c.signature.val := by
    intro c
    rw [h _ _ c.decodes]
    rfl
  refine ⟨fun c => ⟨Signed.fromBytes_toBytes c, hbytes c⟩, ?_, ?_⟩
  · intro b c hread
    obtain rfl := Signed.fromBytes_eq_ok.mp hread
    refine ⟨rfl, ?_⟩
    rw [Signed.toBytes_length, Nat.add_sub_cancel, h _ _ c.decodes, Signed.toBytes, List.take_left]
  · intro b b' c c' hread hread' hsignature hpayload
    rw [Signed.fromBytes_eq_ok.mp hread, Signed.fromBytes_eq_ok.mp hread', hbytes, hbytes,
      hsignature, hpayload]

theorem PreparedJoinRequest.toBytes_of_fromBytes {b : Bytes} {p : PreparedJoinRequest}
    (h : PreparedJoinRequest.fromBytes b = .ok p) : p.toBytes = b := by
  obtain ⟨rest, hrun⟩ := decode_eq_ok.mp h
  simp only [bind_run_eq_ok, magic_run_eq_ok, u32_run_eq_ok, lift_run_eq_ok, take_run_eq_ok,
    finish_run_eq_ok, pure_run_eq_ok, Signed.fromBytes_eq_ok] at hrun
  obtain ⟨_, _, rfl, requestLen, _, rfl, _, _, ⟨-, rfl⟩, _, _, ⟨hrequest, rfl⟩, request, _,
    ⟨rfl, rfl⟩, endpointLen, _, rfl, _, _, ⟨-, rfl⟩, _, _, ⟨hendpoint, rfl⟩, endpoint, _,
    ⟨rfl, rfl⟩, _, _, ⟨rfl, rfl⟩, rfl, rfl⟩ := hrun
  unfold PreparedJoinRequest.toBytes
  simp only [hrequest, hendpoint, UInt32.ofNat_toNat, List.append_assoc, List.append_nil]

/-- The formats of the eight kinds of credentials are exact. -/
theorem credential_codecs_exact :
    adminFormat.Exact encodeAdminPayload ∧ memberFormat.Exact encodeMemberPayload ∧
    endpointFormat.Exact encodeEndpointPayload ∧
    appRegistrationFormat.Exact encodeAppRegistrationPayload ∧
    appRegistrationRequestFormat.Exact encodeAppRegistrationRequestPayload ∧
    appBindingFormat.Exact encodeAppBindingPayload ∧
    joinRequestFormat.Exact encodeJoinRequestPayload ∧
    ∀ (p : PreparedJoinRequest) (b : Bytes),
      PreparedJoinRequest.fromBytes b = .ok p ↔ p.toBytes = b := by
  refine ⟨adminFormat_canonical.exact, memberFormat_canonical.exact, endpointFormat_canonical.exact,
    appRegistrationFormat_canonical.exact, appRegistrationRequestFormat_canonical.exact,
    appBindingFormat_canonical.exact, joinRequestFormat_canonical.exact, ?_⟩
  intro p b
  constructor
  · exact PreparedJoinRequest.toBytes_of_fromBytes
  · intro h
    rw [← h]
    exact PreparedJoinRequest.fromBytes_toBytes p

end Weaver
