import Weaver.Crypto.Certificates

/-!
# Endpoint bindings, join requests and applications

A member binds a transport endpoint to its identity, asks to join with a request that carries such
a binding, and is bound to an application by the application's root key. The root or an
administrator registers an application on the application's own signed request.
-/

namespace Weaver

open Checked Wire Wire.Decoder

variable [Crypto]

/-! ## Endpoint bindings -/

omit [Crypto] in
def EndpointBinding.ofPayload (payload : EndpointBindingPayload) (signature : Signature) :
    EndpointBinding where
  payload := payload
  signedPayload := encodeEndpointPayload payload
  signature := signature
  sized := by simp [endpointFormat, encodeEndpointPayload_length]
  decodes := by simp [endpointFormat, decodeEndpointPayload_encode]

def EndpointBinding.issue (memberKey : SigningKeypair) (member : MemberCertificatePayload)
    (endpointId : Bytes32) (sequence expiresAtMs : UInt64) :
    Except CertificateError EndpointBinding := do
  failIf (memberKey.publicBytes ≠ member.signingPublicKey) .keyMismatch
  let payload : EndpointBindingPayload :=
    { networkId := member.networkId
      memberId := member.memberId
      endpointId, sequence, expiresAtMs }
  return EndpointBinding.ofPayload payload (memberKey.sign (encodeEndpointPayload payload))

def EndpointBinding.issueForJoin (memberKey : SigningKeypair) (networkId : NetworkId)
    (endpointId : Bytes32) (sequence expiresAtMs : UInt64) :
    Except CertificateError EndpointBinding := do
  failIf (endpointId = zeroes 32) .malformedKey
  let payload : EndpointBindingPayload :=
    { networkId
      memberId := deriveMemberId networkId memberKey.publicBytes
      endpointId, sequence, expiresAtMs }
  return EndpointBinding.ofPayload payload (memberKey.sign (encodeEndpointPayload payload))

def EndpointBinding.verify (b : EndpointBinding) (member : VerifiedMember)
    (expectedNetwork : NetworkId) (expectedEndpoint : Bytes32) (nowMs : UInt64) :
    Except CertificateError Unit := do
  failIf (b.payload.networkId ≠ expectedNetwork ∨ member.payload.networkId ≠ expectedNetwork)
    .wrongNetwork
  failIf (b.payload.memberId ≠ member.payload.memberId ∨ b.payload.endpointId ≠ expectedEndpoint)
    .bindingMismatch
  failIf (b.payload.expiresAtMs ≤ nowMs) .expired
  verifyingKeyFromBytes member.payload.signingPublicKey
  verifySignature member.payload.signingPublicKey b.signedPayload b.signature

structure EndpointBinding.Verifies (b : EndpointBinding) (member : MemberCertificatePayload)
    (expectedNetwork : NetworkId) (expectedEndpoint : Bytes32) (nowMs : UInt64) : Prop where
  network : b.payload.networkId = expectedNetwork
  member_network : member.networkId = expectedNetwork
  member_id : b.payload.memberId = member.memberId
  endpoint : b.payload.endpointId = expectedEndpoint
  unexpired : nowMs < b.payload.expiresAtMs
  valid_key : validKey member.signingPublicKey = true
  signature : Crypto.verify member.signingPublicKey b.signedPayload b.signature = true

variable {expectedNetwork : NetworkId} {nowMs : UInt64} {u : Unit}

variable {b : EndpointBinding} {member : VerifiedMember}

theorem EndpointBinding.verify_eq_ok {expectedEndpoint : Bytes32} :
    b.verify member expectedNetwork expectedEndpoint nowMs = .ok u ↔
      b.Verifies member.payload expectedNetwork expectedEndpoint nowMs := by
  unfold EndpointBinding.verify
  simp only [bind_eq_ok, failIf_eq_ok, verifyingKeyFromBytes_eq_ok, verifySignature_eq_ok, not_or,
    not_le, Decidable.not_not, exists_and_left, exists_const]
  constructor
  · rintro ⟨⟨hnet, hmnet⟩, ⟨hid, hend⟩, hexp, hkey, hsig⟩
    exact ⟨hnet, hmnet, hid, hend, hexp, hkey, hsig⟩
  · intro h
    exact ⟨⟨h.network, h.member_network⟩, ⟨h.member_id, h.endpoint⟩, h.unexpired, h.valid_key,
      h.signature⟩

/-! ## Join requests -/

structure VerifiedJoinRequest where
  payload : JoinRequestPayload

omit [Crypto] in
def JoinRequest.ofPayload (payload : JoinRequestPayload) (signature : Signature) :
    JoinRequest where
  payload := payload
  signedPayload := encodeJoinRequestPayload payload
  signature := signature
  sized := by simp [joinRequestFormat, encodeJoinRequestPayload_length]
  decodes := by simp [joinRequestFormat, decodeJoinRequestPayload_encode]

def JoinRequest.create (networkId : NetworkId) (memberSigning : SigningKeypair)
    (encryptionPublicKey endpointId nonce : Bytes32) (requestedRoles : MemberRoles)
    (expiresAtMs : UInt64) : Except CertificateError JoinRequest := do
  failIf (encryptionPublicKey = zeroes 32 ∨ endpointId = zeroes 32 ∨ nonce = zeroes 32)
    .malformedKey
  let payload : JoinRequestPayload :=
    { networkId
      memberId := deriveMemberId networkId memberSigning.publicBytes
      signingPublicKey := memberSigning.publicBytes
      encryptionPublicKey, endpointId, nonce, requestedRoles, expiresAtMs }
  return JoinRequest.ofPayload payload (memberSigning.sign (encodeJoinRequestPayload payload))

def JoinRequest.verify (r : JoinRequest) (expectedNetwork : NetworkId) (nowMs : UInt64) :
    Except CertificateError VerifiedJoinRequest := do
  failIf (r.payload.networkId ≠ expectedNetwork) .wrongNetwork
  failIf (r.payload.expiresAtMs ≤ nowMs) .expired
  failIf (r.payload.encryptionPublicKey = zeroes 32 ∨ r.payload.endpointId = zeroes 32 ∨
    r.payload.nonce = zeroes 32) .malformedKey
  failIf (deriveMemberId expectedNetwork r.payload.signingPublicKey ≠ r.payload.memberId)
    .derivedIdentityMismatch
  verifyingKeyFromBytes r.payload.signingPublicKey
  verifySignature r.payload.signingPublicKey r.signedPayload r.signature
  return ⟨r.payload⟩

structure JoinRequest.Verifies (r : JoinRequest) (expectedNetwork : NetworkId) (nowMs : UInt64) :
    Prop where
  network : r.payload.networkId = expectedNetwork
  unexpired : nowMs < r.payload.expiresAtMs
  encryption_key : r.payload.encryptionPublicKey ≠ zeroes 32
  endpoint : r.payload.endpointId ≠ zeroes 32
  nonce : r.payload.nonce ≠ zeroes 32
  member_id : deriveMemberId expectedNetwork r.payload.signingPublicKey = r.payload.memberId
  valid_key : validKey r.payload.signingPublicKey = true
  signature : Crypto.verify r.payload.signingPublicKey r.signedPayload r.signature = true

variable {request : VerifiedJoinRequest}

theorem JoinRequest.verify_eq_ok {r : JoinRequest} :
    r.verify expectedNetwork nowMs = .ok request ↔
      r.Verifies expectedNetwork nowMs ∧ request = ⟨r.payload⟩ := by
  unfold JoinRequest.verify
  simp only [bind_eq_ok, failIf_eq_ok, verifyingKeyFromBytes_eq_ok, verifySignature_eq_ok, not_or,
    not_le, Decidable.not_not, exists_and_left, exists_const, pure_eq_ok_iff]
  constructor
  · rintro ⟨hnet, hexp, ⟨henc, hend, hnonce⟩, hid, hkey, hsig, rfl⟩
    exact ⟨⟨hnet, hexp, henc, hend, hnonce, hid, hkey, hsig⟩, rfl⟩
  · rintro ⟨h, rfl⟩
    exact ⟨h.network, h.unexpired, ⟨h.encryption_key, h.endpoint, h.nonce⟩, h.member_id,
      h.valid_key, h.signature, rfl⟩

def EndpointBinding.verifyForJoin (b : EndpointBinding) (request : VerifiedJoinRequest)
    (expectedNetwork : NetworkId) (nowMs : UInt64) : Except CertificateError Unit := do
  failIf (b.payload.networkId ≠ expectedNetwork ∨ request.payload.networkId ≠ expectedNetwork)
    .wrongNetwork
  failIf (b.payload.memberId ≠ request.payload.memberId ∨
    b.payload.endpointId ≠ request.payload.endpointId ∨ b.payload.sequence ≠ 0 ∨
    b.payload.expiresAtMs ≠ request.payload.expiresAtMs) .bindingMismatch
  failIf (b.payload.expiresAtMs ≤ nowMs) .expired
  verifyingKeyFromBytes request.payload.signingPublicKey
  verifySignature request.payload.signingPublicKey b.signedPayload b.signature

structure EndpointBinding.Joins (b : EndpointBinding) (request : JoinRequestPayload)
    (expectedNetwork : NetworkId) : Prop where
  network : b.payload.networkId = expectedNetwork
  request_network : request.networkId = expectedNetwork
  member_id : b.payload.memberId = request.memberId
  endpoint : b.payload.endpointId = request.endpointId
  sequence : b.payload.sequence = 0
  expires : b.payload.expiresAtMs = request.expiresAtMs
  valid_key : validKey request.signingPublicKey = true
  signature : Crypto.verify request.signingPublicKey b.signedPayload b.signature = true

theorem EndpointBinding.verifyForJoin_eq_ok :
    b.verifyForJoin request expectedNetwork nowMs = .ok u ↔
      b.Joins request.payload expectedNetwork ∧ nowMs < b.payload.expiresAtMs := by
  unfold EndpointBinding.verifyForJoin
  simp only [bind_eq_ok, failIf_eq_ok, verifyingKeyFromBytes_eq_ok, verifySignature_eq_ok, not_or,
    not_le, Decidable.not_not, exists_and_left, exists_const]
  constructor
  · rintro ⟨⟨hnet, hrnet⟩, ⟨hid, hend, hseq, hexp⟩, hlt, hkey, hsig⟩
    exact ⟨⟨hnet, hrnet, hid, hend, hseq, hexp, hkey, hsig⟩, hlt⟩
  · rintro ⟨h, hlt⟩
    exact ⟨⟨h.network, h.request_network⟩, ⟨h.member_id, h.endpoint, h.sequence, h.expires⟩, hlt,
      h.valid_key, h.signature⟩

/-- `PreparedJoinRequest`: a join request with the binding of its endpoint. -/
structure PreparedJoinRequest where
  request : JoinRequest
  endpointBinding : EndpointBinding

def PreparedJoinRequest.create (networkId : NetworkId) (memberSigning : SigningKeypair)
    (encryptionPublicKey endpointId nonce : Bytes32) (requestedRoles : MemberRoles)
    (expiresAtMs : UInt64) : Except CertificateError PreparedJoinRequest := do
  let request ← JoinRequest.create networkId memberSigning encryptionPublicKey endpointId nonce
    requestedRoles expiresAtMs
  let endpointBinding ← EndpointBinding.issueForJoin memberSigning networkId endpointId 0
    expiresAtMs
  return { request, endpointBinding }

omit [Crypto] in
def preparedJoinMagic : Bytes := utf8 "WVRPJR\x00\x01"

omit [Crypto] in
def PreparedJoinRequest.toBytes (p : PreparedJoinRequest) : Bytes :=
  preparedJoinMagic ++ be32 (UInt32.ofNat p.request.toBytes.length) ++ p.request.toBytes ++
    be32 (UInt32.ofNat p.endpointBinding.toBytes.length) ++ p.endpointBinding.toBytes

omit [Crypto] in
def PreparedJoinRequest.fromBytes : Bytes → Except CertificateError PreparedJoinRequest :=
  Decoder.decode do
    magic .malformedWire preparedJoinMagic
    let requestLen ← u32 .malformedWire
    lift (failIf (requestLen.toNat ≠ joinRequestPayloadLen + signatureLen) .malformedWire)
    let requestBytes ← take .malformedWire requestLen.toNat
    let request ← lift (JoinRequest.fromBytes requestBytes)
    let endpointLen ← u32 .malformedWire
    lift (failIf (endpointLen.toNat ≠ endpointPayloadLen + signatureLen) .malformedWire)
    let endpointBytes ← take .malformedWire endpointLen.toNat
    let endpointBinding ← lift (EndpointBinding.fromBytes endpointBytes)
    finish .malformedWire
    return { request, endpointBinding }

def PreparedJoinRequest.verify (p : PreparedJoinRequest) (expectedNetwork : NetworkId)
    (nowMs : UInt64) : Except CertificateError VerifiedJoinRequest := do
  let request ← p.request.verify expectedNetwork nowMs
  p.endpointBinding.verifyForJoin request expectedNetwork nowMs
  return request

variable {p : PreparedJoinRequest}

theorem PreparedJoinRequest.verify_eq_ok :
    p.verify expectedNetwork nowMs = .ok request ↔
      p.request.Verifies expectedNetwork nowMs ∧
        p.endpointBinding.Joins p.request.payload expectedNetwork ∧
        request = ⟨p.request.payload⟩ := by
  unfold PreparedJoinRequest.verify
  simp only [bind_eq_ok, JoinRequest.verify_eq_ok, EndpointBinding.verifyForJoin_eq_ok,
    exists_and_left, exists_const, pure_eq_ok_iff]
  constructor
  · rintro ⟨_, ⟨hver, rfl⟩, ⟨hjoins, -⟩, rfl⟩
    exact ⟨hver, hjoins, rfl⟩
  · rintro ⟨hver, hjoins, rfl⟩
    refine ⟨⟨p.request.payload⟩, ⟨hver, rfl⟩, ⟨hjoins, ?_⟩, rfl⟩
    rw [hjoins.expires]
    exact hver.unexpired

variable {networkId : NetworkId} {expiresAtMs : UInt64}

theorem PreparedJoinRequest.create_spec {memberSigning : SigningKeypair}
    {encryptionPublicKey endpointId nonce : Bytes32} {requestedRoles : MemberRoles}
    (h : PreparedJoinRequest.create networkId memberSigning encryptionPublicKey endpointId nonce
      requestedRoles expiresAtMs = .ok p) :
    p.request.payload =
        { networkId
          memberId := deriveMemberId networkId memberSigning.publicBytes
          signingPublicKey := memberSigning.publicBytes
          encryptionPublicKey, endpointId, nonce, requestedRoles, expiresAtMs } ∧
      (∀ nowMs < expiresAtMs, p.request.Verifies networkId nowMs) ∧
      p.endpointBinding.Joins p.request.payload networkId := by
  unfold PreparedJoinRequest.create JoinRequest.create EndpointBinding.issueForJoin at h
  simp only [bind_eq_ok, failIf_eq_ok, not_or, exists_and_left, exists_const,
    pure_eq_ok_iff] at h
  obtain ⟨request, ⟨⟨hencryption, hendpoint, hnonce⟩, rfl⟩, binding, ⟨-, rfl⟩, rfl⟩ := h
  have hkey : validKey memberSigning.publicBytes = true := Crypto.validKey_verifyingKey _
  refine ⟨rfl, ?_, ?_⟩
  · intro nowMs hlt
    exact ⟨rfl, hlt, hencryption, hendpoint, hnonce, rfl, hkey, Crypto.verify_sign _ _⟩
  · exact ⟨rfl, rfl, rfl, rfl, rfl, rfl, hkey, Crypto.verify_sign _ _⟩

omit [Crypto] in
theorem JoinRequest.toBytes_length (r : JoinRequest) :
    r.toBytes.length = joinRequestPayloadLen + signatureLen := by
  have hsized : r.signedPayload.length = joinRequestPayloadLen := by
    simpa [joinRequestFormat] using r.sized
  rw [Signed.toBytes_length, hsized]

omit [Crypto] in
theorem EndpointBinding.toBytes_length (b : EndpointBinding) :
    b.toBytes.length = endpointPayloadLen + signatureLen := by
  have hsized : b.signedPayload.length = endpointPayloadLen := by
    simpa [endpointFormat] using b.sized
  rw [Signed.toBytes_length, hsized]

omit [Crypto] in
theorem PreparedJoinRequest.fromBytes_toBytes (p : PreparedJoinRequest) :
    PreparedJoinRequest.fromBytes p.toBytes = .ok p := by
  have hr := JoinRequest.toBytes_length p.request
  have he := EndpointBinding.toBytes_length p.endpointBinding
  have hrlen : (UInt32.ofNat p.request.toBytes.length).toNat = joinRequestPayloadLen +
      signatureLen := by
    rw [hr]
    decide
  have helen : (UInt32.ofNat p.endpointBinding.toBytes.length).toNat = endpointPayloadLen +
      signatureLen := by
    rw [he]
    decide
  have hrtake : ∀ rest, (take CertificateError.malformedWire
      (joinRequestPayloadLen + signatureLen)).run (p.request.toBytes ++ rest) =
        .ok (p.request.toBytes, rest) := fun rest => take_run hr
  have hetake : (take CertificateError.malformedWire (endpointPayloadLen + signatureLen)).run
      p.endpointBinding.toBytes = .ok (p.endpointBinding.toBytes, []) := take_run_end he
  unfold PreparedJoinRequest.fromBytes PreparedJoinRequest.toBytes Decoder.decode
  simp [hrlen, helen, hrtake, hetake, failIf_neg, Except.map]

/-! ## Applications -/

structure VerifiedAppRegistrationRequest where
  payload : AppRegistrationRequestPayload

structure VerifiedApp where
  payload : AppRegistrationPayload

def AppRegistrationRequest.create (appRoot : AppRootKey) (networkId : NetworkId)
    (policy : UInt32) : AppRegistrationRequest :=
  let payload : AppRegistrationRequestPayload :=
    { networkId
      appAddr := appRoot.appAddr
      appRootPublicKey := appRoot.publicBytes
      policy }
  { payload
    signedPayload := encodeAppRegistrationRequestPayload payload
    signature := appRoot.sign (encodeAppRegistrationRequestPayload payload)
    sized := by simp [appRegistrationRequestFormat, encodeAppRegistrationRequestPayload_length]
    decodes := by
      simp [appRegistrationRequestFormat, decodeAppRegistrationRequestPayload_encode] }

def AppRegistrationRequest.verify (r : AppRegistrationRequest) (expectedNetwork : NetworkId) :
    Except CertificateError VerifiedAppRegistrationRequest := do
  failIf (r.payload.networkId ≠ expectedNetwork) .wrongNetwork
  failIf (deriveAppAddr r.payload.appRootPublicKey ≠ r.payload.appAddr) .derivedIdentityMismatch
  verifyingKeyFromBytes r.payload.appRootPublicKey
  verifySignature r.payload.appRootPublicKey r.signedPayload r.signature
  return ⟨r.payload⟩

omit [Crypto] in
def AppRegistration.ofPayload (payload : AppRegistrationPayload) (signature : Signature) :
    AppRegistration where
  payload := payload
  signedPayload := encodeAppRegistrationPayload payload
  signature := signature
  sized := by simp [appRegistrationFormat, encodeAppRegistrationPayload_length]
  decodes := by simp [appRegistrationFormat, decodeAppRegistrationPayload_encode]

def AppRegistration.issueByAdmin (admin : OnlineAdminKey)
    (adminCertificate : AdminCertificatePayload) (request : VerifiedAppRegistrationRequest) :
    Except CertificateError AppRegistration := do
  failIf (admin.publicBytes ≠ adminCertificate.publicKey ∨ admin.keyId ≠ adminCertificate.keyId)
    .keyMismatch
  failIf (adminCertificate.permissions &&& adminPermissionRegisterApp = 0) .permissionDenied
  failIf (request.payload.networkId ≠ adminCertificate.networkId) .wrongNetwork
  let payload : AppRegistrationPayload :=
    { networkId := request.payload.networkId
      appAddr := request.payload.appAddr
      appRootPublicKey := request.payload.appRootPublicKey
      policy := request.payload.policy
      issuerKeyId := adminCertificate.keyId }
  return AppRegistration.ofPayload payload (admin.sign (encodeAppRegistrationPayload payload))

/-- `AppRegistration::verify`, under the network root. -/
def AppRegistration.verify (a : AppRegistration) (root : NetworkRootPublic)
    (expectedNetwork : NetworkId) : Except CertificateError VerifiedApp := do
  failIf (root.networkId ≠ expectedNetwork ∨ a.payload.networkId ≠ expectedNetwork) .wrongNetwork
  failIf (a.payload.issuerKeyId ≠ root.keyId) .wrongIssuer
  failIf (deriveAppAddr a.payload.appRootPublicKey ≠ a.payload.appAddr) .derivedIdentityMismatch
  verifySignature root.verifyingKey a.signedPayload a.signature
  return ⟨a.payload⟩

def AppRegistration.verifyWithAdmin (a : AppRegistration) (admin : VerifiedAdmin)
    (expectedNetwork : NetworkId) : Except CertificateError VerifiedApp := do
  failIf (admin.payload.networkId ≠ expectedNetwork ∨ a.payload.networkId ≠ expectedNetwork)
    .wrongNetwork
  failIf (admin.payload.permissions &&& adminPermissionRegisterApp = 0) .permissionDenied
  failIf (a.payload.issuerKeyId ≠ admin.payload.keyId) .wrongIssuer
  failIf (deriveAppAddr a.payload.appRootPublicKey ≠ a.payload.appAddr) .derivedIdentityMismatch
  admin.verifyBytes a.signedPayload a.signature
  return ⟨a.payload⟩

structure AppRegistration.Current (a : AppRegistration) (expectedNetwork : NetworkId) : Prop where
  network : a.payload.networkId = expectedNetwork
  app_addr : deriveAppAddr a.payload.appRootPublicKey = a.payload.appAddr

structure AppRegistration.IssuedByRoot (a : AppRegistration) (root : NetworkRootPublic)
    (expectedNetwork : NetworkId) : Prop where
  root_network : root.networkId = expectedNetwork
  issuer : a.payload.issuerKeyId = root.keyId
  signature : Crypto.verify root.verifyingKey a.signedPayload a.signature = true

structure AppRegistration.IssuedByAdmin (a : AppRegistration) (admin : AdminCertificatePayload)
    (expectedNetwork : NetworkId) : Prop where
  admin_network : admin.networkId = expectedNetwork
  permitted : admin.permissions &&& adminPermissionRegisterApp ≠ 0
  issuer : a.payload.issuerKeyId = admin.keyId
  signature : Crypto.verify admin.publicKey a.signedPayload a.signature = true

variable {app : VerifiedApp}

variable {a : AppRegistration}

theorem AppRegistration.verify_eq_ok {root : NetworkRootPublic} :
    a.verify root expectedNetwork = .ok app ↔
      a.Current expectedNetwork ∧ a.IssuedByRoot root expectedNetwork ∧ app = ⟨a.payload⟩ := by
  unfold AppRegistration.verify
  simp only [bind_eq_ok, failIf_eq_ok, verifySignature_eq_ok, not_or, Decidable.not_not,
    exists_and_left, exists_const, pure_eq_ok_iff]
  constructor
  · rintro ⟨⟨hroot, hnet⟩, hissuer, haddr, hsig, rfl⟩
    exact ⟨⟨hnet, haddr⟩, ⟨hroot, hissuer, hsig⟩, rfl⟩
  · rintro ⟨h, hi, rfl⟩
    exact ⟨⟨hi.root_network, h.network⟩, hi.issuer, h.app_addr, hi.signature, rfl⟩

theorem AppRegistration.verifyWithAdmin_eq_ok {admin : VerifiedAdmin} :
    a.verifyWithAdmin admin expectedNetwork = .ok app ↔
      a.Current expectedNetwork ∧ a.IssuedByAdmin admin.payload expectedNetwork ∧
        app = ⟨a.payload⟩ := by
  unfold AppRegistration.verifyWithAdmin VerifiedAdmin.verifyBytes
  simp only [bind_eq_ok, failIf_eq_ok, verifySignature_eq_ok, not_or, Decidable.not_not,
    exists_and_left, exists_const, pure_eq_ok_iff]
  constructor
  · rintro ⟨⟨hadmin, hnet⟩, hperm, hissuer, haddr, hsig, rfl⟩
    exact ⟨⟨hnet, haddr⟩, ⟨hadmin, hperm, hissuer, hsig⟩, rfl⟩
  · rintro ⟨h, hi, rfl⟩
    exact ⟨⟨hi.admin_network, h.network⟩, hi.permitted, hi.issuer, h.app_addr, hi.signature, rfl⟩

/-! ## Application bindings -/

def AppBinding.issue (appRoot : AppRootKey) (networkId : NetworkId) (subject : MemberId)
    (role : AppRole) (deviceId : Option DeviceId) (expiresAtMs : UInt64)
    (services : List ServiceId) : Except CertificateError AppBinding :=
  if hrole : validateAppRole role deviceId = .ok () then
    if hservices : services.length ≤ maxServicesPerBinding then
      let payload : AppBindingPayload :=
        { networkId, appAddr := appRoot.appAddr, subject, role, deviceId, expiresAtMs, services }
      .ok
        { payload
          signedPayload := encodeAppBindingPayload payload
          signature := appRoot.sign (encodeAppBindingPayload payload)
          sized := by simp [appBindingFormat, encodeAppBindingPayload_length]
          decodes := by
            simpa [appBindingFormat] using
              decodeAppBindingPayload_encode (p := payload) hrole hservices }
    else .error .tooManyServices
  else .error .invalidAppRole

theorem AppBinding.issue_spec {appRoot : AppRootKey} {subject : MemberId} {role : AppRole}
    {deviceId : Option DeviceId} {services : List ServiceId} {b : AppBinding}
    (h : AppBinding.issue appRoot networkId subject role deviceId expiresAtMs services = .ok b) :
    b.payload =
        { networkId, appAddr := appRoot.appAddr, subject, role, deviceId, expiresAtMs, services } ∧
      b.signature = appRoot.sign b.signedPayload := by
  unfold AppBinding.issue at h
  split at h
  · split at h
    · obtain rfl := Except.ok.inj h
      exact ⟨rfl, rfl⟩
    · cases h
  · cases h

def AppBinding.verify (b : AppBinding) (app : VerifiedApp) (member : VerifiedMember)
    (expectedNetwork : NetworkId) (nowMs : UInt64) : Except CertificateError Unit := do
  failIf (b.payload.networkId ≠ expectedNetwork ∨ app.payload.networkId ≠ expectedNetwork ∨
    member.payload.networkId ≠ expectedNetwork) .wrongNetwork
  failIf (b.payload.appAddr ≠ app.payload.appAddr ∨ b.payload.subject ≠ member.payload.memberId)
    .bindingMismatch
  validateAppRole b.payload.role b.payload.deviceId
  failIf (b.payload.expiresAtMs ≤ nowMs) .expired
  verifyingKeyFromBytes app.payload.appRootPublicKey
  verifySignature app.payload.appRootPublicKey b.signedPayload b.signature

structure AppBinding.Verifies (b : AppBinding) (app : AppRegistrationPayload)
    (member : MemberCertificatePayload) (expectedNetwork : NetworkId) (nowMs : UInt64) :
    Prop where
  network : b.payload.networkId = expectedNetwork
  app_network : app.networkId = expectedNetwork
  member_network : member.networkId = expectedNetwork
  app_addr : b.payload.appAddr = app.appAddr
  subject : b.payload.subject = member.memberId
  role : validateAppRole b.payload.role b.payload.deviceId = .ok ()
  unexpired : nowMs < b.payload.expiresAtMs
  valid_key : validKey app.appRootPublicKey = true
  signature : Crypto.verify app.appRootPublicKey b.signedPayload b.signature = true

theorem AppBinding.verify_eq_ok {b : AppBinding} :
    b.verify app member expectedNetwork nowMs = .ok u ↔
      b.Verifies app.payload member.payload expectedNetwork nowMs := by
  unfold AppBinding.verify
  simp only [bind_eq_ok, failIf_eq_ok, verifyingKeyFromBytes_eq_ok, verifySignature_eq_ok, not_or,
    not_le, Decidable.not_not, exists_and_left, exists_const]
  constructor
  · rintro ⟨⟨hnet, hanet, hmnet⟩, ⟨haddr, hsub⟩, u, hrole, hexp, hkey, hsig⟩
    exact ⟨hnet, hanet, hmnet, haddr, hsub, hrole, hexp, hkey, hsig⟩
  · intro h
    exact ⟨⟨h.network, h.app_network, h.member_network⟩, ⟨h.app_addr, h.subject⟩,
      (), h.role, h.unexpired, h.valid_key, h.signature⟩

end Weaver
