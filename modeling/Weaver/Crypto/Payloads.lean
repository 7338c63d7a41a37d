import Weaver.Crypto.Primitives

/-!
# Credential payloads

The payloads that `weaver-crypto` signs, with their wire encodings. Every payload begins with the
magic of its kind, so that bytes signed as one kind never decode as another. Each decoder reads back
what its encoder wrote; for an application binding this needs what its constructor checks.
-/

namespace Weaver

open Checked Wire Wire.Decoder

/-! ## Constants -/

def memberMagic : Bytes := utf8 "WVRMEM\x00\x01"

def adminMagic : Bytes := utf8 "WVRADM\x00\x01"

def endpointMagic : Bytes := utf8 "WVREND\x00\x01"

def appRegMagic : Bytes := utf8 "WVRAPP\x00\x01"

def appRegRequestMagic : Bytes := utf8 "WVRAPR\x00\x01"

def appBindMagic : Bytes := utf8 "WVRBND\x00\x01"

def joinRequestMagic : Bytes := utf8 "WVRJNR\x00\x01"

def signatureLen : ℕ := 64

def memberPayloadLen : ℕ := 8 + 32 + 32 + 32 + 32 + 4 + 8 + 8 + 8 + 16

def adminPayloadLen : ℕ := 8 + 32 + 16 + 32 + 4 + 8 + 8 + 8 + 16

def endpointPayloadLen : ℕ := 8 + 32 + 32 + 32 + 8 + 8

def appRegRequestPayloadLen : ℕ := 8 + 32 + 32 + 32 + 4

def appRegPayloadLen : ℕ := appRegRequestPayloadLen + 16

def appBindFixedLen : ℕ := 8 + 32 + 32 + 32 + 1 + 1 + 32 + 8 + 2

def joinRequestPayloadLen : ℕ := 8 + 32 + 32 + 32 + 32 + 32 + 32 + 4 + 8

def maxServicesPerBinding : ℕ := 64

/-! ## Roles -/

/-- `MemberRoles`, a set of bits. -/
structure MemberRoles where
  bits : UInt32
deriving DecidableEq

namespace MemberRoles

def member : MemberRoles := ⟨(1 : UInt32) <<< 0⟩

def service : MemberRoles := ⟨(1 : UInt32) <<< 1⟩

def relay : MemberRoles := ⟨(1 : UInt32) <<< 2⟩

def bootstrap : MemberRoles := ⟨(1 : UInt32) <<< 3⟩

def authority : MemberRoles := ⟨(1 : UInt32) <<< 4⟩

def union (r s : MemberRoles) : MemberRoles := ⟨r.bits ||| s.bits⟩

def contains (r s : MemberRoles) : Bool := r.bits &&& s.bits == s.bits

end MemberRoles

inductive AppRole where
  | server
  | client
deriving DecidableEq, Repr

/-- `validate_app_role`: a client binding names its device, a server binding names none. -/
def validateAppRole (role : AppRole) (device : Option DeviceId) : Except CertificateError Unit :=
  match role, device with
  | .server, none => .ok ()
  | .client, some _ => .ok ()
  | _, _ => .error .invalidAppRole

/-! ## Payloads -/

structure AdminCertificatePayload where
  networkId : NetworkId
  keyId : KeyId
  publicKey : Bytes32
  permissions : UInt32
  serial : UInt64
  notBeforeMs : UInt64
  expiresAtMs : UInt64
  issuerKeyId : KeyId
deriving DecidableEq

structure JoinRequestPayload where
  networkId : NetworkId
  memberId : MemberId
  signingPublicKey : Bytes32
  encryptionPublicKey : Bytes32
  endpointId : Bytes32
  nonce : Bytes32
  requestedRoles : MemberRoles
  expiresAtMs : UInt64
deriving DecidableEq

structure MemberCertificatePayload where
  networkId : NetworkId
  memberId : MemberId
  signingPublicKey : Bytes32
  encryptionPublicKey : Bytes32
  roles : MemberRoles
  serial : UInt64
  notBeforeMs : UInt64
  expiresAtMs : UInt64
  issuerKeyId : KeyId
deriving DecidableEq

structure EndpointBindingPayload where
  networkId : NetworkId
  memberId : MemberId
  endpointId : Bytes32
  sequence : UInt64
  expiresAtMs : UInt64
deriving DecidableEq

structure AppRegistrationPayload where
  networkId : NetworkId
  appAddr : AppAddr
  appRootPublicKey : Bytes32
  policy : UInt32
  issuerKeyId : KeyId
deriving DecidableEq

structure AppRegistrationRequestPayload where
  networkId : NetworkId
  appAddr : AppAddr
  appRootPublicKey : Bytes32
  policy : UInt32
deriving DecidableEq

structure AppBindingPayload where
  networkId : NetworkId
  appAddr : AppAddr
  subject : MemberId
  role : AppRole
  deviceId : Option DeviceId
  expiresAtMs : UInt64
  services : List ServiceId
deriving DecidableEq

/-! ## Encoders -/

def encodeAdminPayload (p : AdminCertificatePayload) : Bytes :=
  adminMagic ++ p.networkId.asBytes.val ++ p.keyId.val ++ p.publicKey.val ++ be32 p.permissions ++
    be64 p.serial ++ be64 p.notBeforeMs ++ be64 p.expiresAtMs ++ p.issuerKeyId.val

def encodeJoinRequestPayload (p : JoinRequestPayload) : Bytes :=
  joinRequestMagic ++ p.networkId.asBytes.val ++ p.memberId.asBytes.val ++
    p.signingPublicKey.val ++ p.encryptionPublicKey.val ++ p.endpointId.val ++ p.nonce.val ++
    be32 p.requestedRoles.bits ++ be64 p.expiresAtMs

def encodeMemberPayload (p : MemberCertificatePayload) : Bytes :=
  memberMagic ++ p.networkId.asBytes.val ++ p.memberId.asBytes.val ++ p.signingPublicKey.val ++
    p.encryptionPublicKey.val ++ be32 p.roles.bits ++ be64 p.serial ++ be64 p.notBeforeMs ++
    be64 p.expiresAtMs ++ p.issuerKeyId.val

def encodeEndpointPayload (p : EndpointBindingPayload) : Bytes :=
  endpointMagic ++ p.networkId.asBytes.val ++ p.memberId.asBytes.val ++ p.endpointId.val ++
    be64 p.sequence ++ be64 p.expiresAtMs

def encodeAppRegistrationPayload (p : AppRegistrationPayload) : Bytes :=
  appRegMagic ++ p.networkId.asBytes.val ++ p.appAddr.asBytes.val ++ p.appRootPublicKey.val ++
    be32 p.policy ++ p.issuerKeyId.val

def encodeAppRegistrationRequestPayload (p : AppRegistrationRequestPayload) : Bytes :=
  appRegRequestMagic ++ p.networkId.asBytes.val ++ p.appAddr.asBytes.val ++
    p.appRootPublicKey.val ++ be32 p.policy

def AppRole.byte : AppRole → UInt8
  | .server => 0
  | .client => 1

def encodeDevice : Option DeviceId → UInt8 × Bytes32
  | none => (0, zeroes 32)
  | some device => (1, device.asBytes)

def encodeAppBindingPayload (p : AppBindingPayload) : Bytes :=
  appBindMagic ++ p.networkId.asBytes.val ++ p.appAddr.asBytes.val ++ p.subject.asBytes.val ++
    [p.role.byte] ++ [(encodeDevice p.deviceId).1] ++ (encodeDevice p.deviceId).2.val ++
    be64 p.expiresAtMs ++ be16 (UInt16.ofNat p.services.length) ++
    (p.services.map fun service => service.asBytes.val).flatten

/-! ## Decoders -/

def decodeAdminPayload : Bytes → Except CertificateError AdminCertificatePayload :=
  Decoder.decode do
    magic .malformedWire adminMagic
    let networkId ← array .malformedWire 32
    let keyId ← array .malformedWire 16
    let publicKey ← array .malformedWire 32
    let permissions ← u32 .malformedWire
    let serial ← u64 .malformedWire
    let notBeforeMs ← u64 .malformedWire
    let expiresAtMs ← u64 .malformedWire
    let issuerKeyId ← array .malformedWire 16
    finish .malformedWire
    return { networkId := ⟨networkId⟩, keyId, publicKey, permissions, serial, notBeforeMs,
             expiresAtMs, issuerKeyId }

def decodeJoinRequestPayload : Bytes → Except CertificateError JoinRequestPayload :=
  Decoder.decode do
    magic .malformedWire joinRequestMagic
    let networkId ← array .malformedWire 32
    let memberId ← array .malformedWire 32
    let signingPublicKey ← array .malformedWire 32
    let encryptionPublicKey ← array .malformedWire 32
    let endpointId ← array .malformedWire 32
    let nonce ← array .malformedWire 32
    let requestedRoles ← u32 .malformedWire
    let expiresAtMs ← u64 .malformedWire
    finish .malformedWire
    return { networkId := ⟨networkId⟩, memberId := ⟨memberId⟩, signingPublicKey,
             encryptionPublicKey, endpointId, nonce, requestedRoles := ⟨requestedRoles⟩,
             expiresAtMs }

def decodeMemberPayload : Bytes → Except CertificateError MemberCertificatePayload :=
  Decoder.decode do
    magic .malformedWire memberMagic
    let networkId ← array .malformedWire 32
    let memberId ← array .malformedWire 32
    let signingPublicKey ← array .malformedWire 32
    let encryptionPublicKey ← array .malformedWire 32
    let roles ← u32 .malformedWire
    let serial ← u64 .malformedWire
    let notBeforeMs ← u64 .malformedWire
    let expiresAtMs ← u64 .malformedWire
    let issuerKeyId ← array .malformedWire 16
    finish .malformedWire
    return { networkId := ⟨networkId⟩, memberId := ⟨memberId⟩, signingPublicKey,
             encryptionPublicKey, roles := ⟨roles⟩, serial, notBeforeMs, expiresAtMs,
             issuerKeyId }

def decodeEndpointPayload : Bytes → Except CertificateError EndpointBindingPayload :=
  Decoder.decode do
    magic .malformedWire endpointMagic
    let networkId ← array .malformedWire 32
    let memberId ← array .malformedWire 32
    let endpointId ← array .malformedWire 32
    let sequence ← u64 .malformedWire
    let expiresAtMs ← u64 .malformedWire
    finish .malformedWire
    return { networkId := ⟨networkId⟩, memberId := ⟨memberId⟩, endpointId, sequence,
             expiresAtMs }

def decodeAppRegistrationPayload : Bytes → Except CertificateError AppRegistrationPayload :=
  Decoder.decode do
    magic .malformedWire appRegMagic
    let networkId ← array .malformedWire 32
    let appAddr ← array .malformedWire 32
    let appRootPublicKey ← array .malformedWire 32
    let policy ← u32 .malformedWire
    let issuerKeyId ← array .malformedWire 16
    finish .malformedWire
    return { networkId := ⟨networkId⟩, appAddr := ⟨appAddr⟩, appRootPublicKey, policy,
             issuerKeyId }

def decodeAppRegistrationRequestPayload :
    Bytes → Except CertificateError AppRegistrationRequestPayload :=
  Decoder.decode do
    magic .malformedWire appRegRequestMagic
    let networkId ← array .malformedWire 32
    let appAddr ← array .malformedWire 32
    let appRootPublicKey ← array .malformedWire 32
    let policy ← u32 .malformedWire
    finish .malformedWire
    return { networkId := ⟨networkId⟩, appAddr := ⟨appAddr⟩, appRootPublicKey, policy }

def decodeRole (byte : UInt8) : Except CertificateError AppRole :=
  if byte = 0 then .ok .server else if byte = 1 then .ok .client else .error .malformedWire

def decodeDevice (present : UInt8) (bytes : Bytes32) : Except CertificateError (Option DeviceId) :=
  if present = 0 ∧ bytes = zeroes 32 then .ok none
  else if present = 1 then .ok (some ⟨bytes⟩)
  else .error .malformedWire

def decodeAppBindingPayload : Bytes → Except CertificateError AppBindingPayload :=
  Decoder.decode do
    magic .malformedWire appBindMagic
    let networkId ← array .malformedWire 32
    let appAddr ← array .malformedWire 32
    let subject ← array .malformedWire 32
    let role ← lift (decodeRole (← u8 .malformedWire))
    let devicePresent ← u8 .malformedWire
    let deviceBytes ← array .malformedWire 32
    let deviceId ← lift (decodeDevice devicePresent deviceBytes)
    let expiresAtMs ← u64 .malformedWire
    let serviceCount ← u16 .malformedWire
    lift (failIf (maxServicesPerBinding < serviceCount.toNat) .tooManyServices)
    let services ← many serviceCount.toNat (array .malformedWire 16)
    finish .malformedWire
    lift (validateAppRole role deviceId)
    return { networkId := ⟨networkId⟩, appAddr := ⟨appAddr⟩, subject := ⟨subject⟩, role, deviceId,
             expiresAtMs, services := services.map fun bytes => ⟨bytes⟩ }

/-! ## Round trips -/

theorem decodeAdminPayload_encode (p : AdminCertificatePayload) :
    decodeAdminPayload (encodeAdminPayload p) = .ok p := by
  simp [decodeAdminPayload, encodeAdminPayload, Decoder.decode, Except.map]

theorem decodeJoinRequestPayload_encode (p : JoinRequestPayload) :
    decodeJoinRequestPayload (encodeJoinRequestPayload p) = .ok p := by
  simp [decodeJoinRequestPayload, encodeJoinRequestPayload, Decoder.decode, Except.map]

theorem decodeMemberPayload_encode (p : MemberCertificatePayload) :
    decodeMemberPayload (encodeMemberPayload p) = .ok p := by
  simp [decodeMemberPayload, encodeMemberPayload, Decoder.decode, Except.map]

theorem decodeEndpointPayload_encode (p : EndpointBindingPayload) :
    decodeEndpointPayload (encodeEndpointPayload p) = .ok p := by
  simp [decodeEndpointPayload, encodeEndpointPayload, Decoder.decode, Except.map]

theorem decodeAppRegistrationPayload_encode (p : AppRegistrationPayload) :
    decodeAppRegistrationPayload (encodeAppRegistrationPayload p) = .ok p := by
  simp [decodeAppRegistrationPayload, encodeAppRegistrationPayload, Decoder.decode, Except.map]

theorem decodeAppRegistrationRequestPayload_encode (p : AppRegistrationRequestPayload) :
    decodeAppRegistrationRequestPayload (encodeAppRegistrationRequestPayload p) = .ok p := by
  simp [decodeAppRegistrationRequestPayload, encodeAppRegistrationRequestPayload, Decoder.decode,
    Except.map]

@[simp]
theorem decodeRole_byte (role : AppRole) : decodeRole role.byte = .ok role := by
  cases role <;> rfl

@[simp]
theorem decodeDevice_encode (device : Option DeviceId) :
    decodeDevice (encodeDevice device).1 (encodeDevice device).2 = .ok device := by
  cases device <;> simp [decodeDevice, encodeDevice]

theorem decodeAppBindingPayload_encode {p : AppBindingPayload}
    (hrole : validateAppRole p.role p.deviceId = .ok ())
    (hservices : p.services.length ≤ maxServicesPerBinding) :
    decodeAppBindingPayload (encodeAppBindingPayload p) = .ok p := by
  have hlt : p.services.length < 2^16 := by
    rw [maxServicesPerBinding] at hservices
    omega
  have hcount : (UInt16.ofNat p.services.length).toNat = p.services.length :=
    UInt16.toNat_ofNat_of_lt' hlt
  have hfail : failIf (maxServicesPerBinding < p.services.length)
      CertificateError.tooManyServices = .ok () := by
    rw [failIf_eq_ok]
    omega
  -- the loop over the services reads arrays, which `many_run` matches with the mapped list
  have hmany := many_run (d := array CertificateError.malformedWire 16)
    (f := fun b : BytesN 16 => b.val) (l := p.services.map ServiceId.asBytes)
    (fun x _ rest => array_run x rest) []
  rw [List.length_map, List.map_map, List.append_nil] at hmany
  simp only [Function.comp_def] at hmany
  simp [decodeAppBindingPayload, encodeAppBindingPayload, Decoder.decode, Except.map, hcount,
    hfail, hrole, hmany, Function.comp_def]

/-! ## Lengths -/

@[simp]
theorem bytesN_length {n : ℕ} (a : BytesN n) : a.val.length = n := a.property

theorem encodeAdminPayload_length (p : AdminCertificatePayload) :
    (encodeAdminPayload p).length = adminPayloadLen := by
  simp [encodeAdminPayload, adminPayloadLen, show adminMagic.length = 8 by decide]

theorem encodeJoinRequestPayload_length (p : JoinRequestPayload) :
    (encodeJoinRequestPayload p).length = joinRequestPayloadLen := by
  simp [encodeJoinRequestPayload, joinRequestPayloadLen, show joinRequestMagic.length = 8 by decide]

theorem encodeMemberPayload_length (p : MemberCertificatePayload) :
    (encodeMemberPayload p).length = memberPayloadLen := by
  simp [encodeMemberPayload, memberPayloadLen, show memberMagic.length = 8 by decide]

theorem encodeEndpointPayload_length (p : EndpointBindingPayload) :
    (encodeEndpointPayload p).length = endpointPayloadLen := by
  simp [encodeEndpointPayload, endpointPayloadLen, show endpointMagic.length = 8 by decide]

theorem encodeAppRegistrationPayload_length (p : AppRegistrationPayload) :
    (encodeAppRegistrationPayload p).length = appRegPayloadLen := by
  simp [encodeAppRegistrationPayload, appRegPayloadLen, appRegRequestPayloadLen,
    show appRegMagic.length = 8 by decide]

theorem encodeAppRegistrationRequestPayload_length (p : AppRegistrationRequestPayload) :
    (encodeAppRegistrationRequestPayload p).length = appRegRequestPayloadLen := by
  simp [encodeAppRegistrationRequestPayload, appRegRequestPayloadLen,
    show appRegRequestMagic.length = 8 by decide]

theorem encodeAppBindingPayload_length (p : AppBindingPayload) :
    (encodeAppBindingPayload p).length = appBindFixedLen + 16 * p.services.length := by
  simp [encodeAppBindingPayload, appBindFixedLen, show appBindMagic.length = 8 by decide,
    Function.comp_def]
  omega

end Weaver
