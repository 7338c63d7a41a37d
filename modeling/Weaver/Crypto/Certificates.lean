import Weaver.Crypto.Credentials

/-!
# Administrator and member certificates

Issuing and verifying the certificates of the authorization chain: the network root certifies
online administrators, and the root or an administrator certifies members.
-/

namespace Weaver

open Checked Wire

variable [Crypto]

/-! ## Permissions -/

def adminPermissionConfigWrite : UInt32 := 1

def adminPermissionIssueMember : UInt32 := 2

def adminPermissionRegisterApp : UInt32 := 8

/-! ## Administrator certificates -/

/-- `VerifiedAdmin`: the payload of a verified certificate, whose key is a valid one. -/
structure VerifiedAdmin where
  payload : AdminCertificatePayload
  valid : validKey payload.publicKey = true

def VerifiedAdmin.verifyBytes (admin : VerifiedAdmin) (payload : Bytes) (signature : Signature) :
    Except CertificateError Unit :=
  verifySignature admin.payload.publicKey payload signature

theorem VerifiedAdmin.ext_payload {a b : VerifiedAdmin} (h : a.payload = b.payload) : a = b := by
  obtain ⟨p, hp⟩ := a
  obtain ⟨q, hq⟩ := b
  subst h
  rfl

omit [Crypto] in
def AdminCertificate.ofPayload (payload : AdminCertificatePayload) (signature : Signature) :
    AdminCertificate where
  payload := payload
  signedPayload := encodeAdminPayload payload
  signature := signature
  sized := by simp [adminFormat, encodeAdminPayload_length]
  decodes := by simp [adminFormat, decodeAdminPayload_encode]

def AdminCertificate.issue (root : NetworkRootKey) (adminPublicKey : Bytes32) (permissions : UInt32)
    (serial notBeforeMs expiresAtMs : UInt64) : Except CertificateError AdminCertificate := do
  failIf (expiresAtMs ≤ notBeforeMs) .invalidValidityWindow
  verifyingKeyFromBytes adminPublicKey
  let payload : AdminCertificatePayload :=
    { networkId := root.public.networkId
      keyId := deriveKeyId onlineAdminKeyIdContext adminPublicKey
      publicKey := adminPublicKey
      permissions, serial, notBeforeMs, expiresAtMs
      issuerKeyId := root.public.keyId }
  return AdminCertificate.ofPayload payload (root.sign (encodeAdminPayload payload))

def AdminCertificate.verify (c : AdminCertificate) (root : NetworkRootPublic)
    (expectedNetwork : NetworkId) (nowMs : UInt64) (revokedSerials : List UInt64) :
    Except CertificateError VerifiedAdmin := do
  failIf (root.networkId ≠ expectedNetwork ∨ c.payload.networkId ≠ expectedNetwork) .wrongNetwork
  failIf (c.payload.issuerKeyId ≠ root.keyId) .wrongIssuer
  failIf (deriveKeyId onlineAdminKeyIdContext c.payload.publicKey ≠ c.payload.keyId)
    .derivedIdentityMismatch
  validateTime c.payload.notBeforeMs c.payload.expiresAtMs nowMs
  failIf (c.payload.serial ∈ revokedSerials) .revoked
  verifySignature root.verifyingKey c.signedPayload c.signature
  if h : validKey c.payload.publicKey = true then .ok ⟨c.payload, h⟩ else .error .malformedKey

structure AdminCertificate.Verifies (c : AdminCertificate) (root : NetworkRootPublic)
    (expectedNetwork : NetworkId) (nowMs : UInt64) (revokedSerials : List UInt64) : Prop where
  root_network : root.networkId = expectedNetwork
  network : c.payload.networkId = expectedNetwork
  issuer : c.payload.issuerKeyId = root.keyId
  key_id : deriveKeyId onlineAdminKeyIdContext c.payload.publicKey = c.payload.keyId
  not_before : c.payload.notBeforeMs ≤ nowMs
  unexpired : nowMs < c.payload.expiresAtMs
  unrevoked : c.payload.serial ∉ revokedSerials
  signature : Crypto.verify root.verifyingKey c.signedPayload c.signature = true
  valid_key : validKey c.payload.publicKey = true

variable {root : NetworkRootPublic} {nowMs : UInt64}

theorem AdminCertificate.Verifies.mono {a : AdminCertificate} {network : NetworkId}
    {revoked : List UInt64} (h : a.Verifies root network nowMs revoked) :
    a.Verifies root network nowMs [] :=
  { h with unrevoked := List.not_mem_nil }

variable {expectedNetwork : NetworkId} {revokedSerials : List UInt64}

theorem AdminCertificate.verify_eq_ok {c : AdminCertificate} {admin : VerifiedAdmin} :
    c.verify root expectedNetwork nowMs revokedSerials = .ok admin ↔
      c.Verifies root expectedNetwork nowMs revokedSerials ∧ admin.payload = c.payload := by
  unfold AdminCertificate.verify
  simp only [bind_eq_ok, failIf_eq_ok, validateTime_eq_ok, verifySignature_eq_ok, not_or,
    Decidable.not_not, exists_and_left, exists_const]
  constructor
  · rintro ⟨⟨hroot, hnet⟩, hissuer, hkey, ⟨hnb, hexp⟩, hrev, hsig, h⟩
    split at h
    · next hvalid =>
      have hadmin := Except.ok.inj h
      refine ⟨⟨hroot, hnet, hissuer, hkey, hnb, hexp, hrev, hsig, hvalid⟩, ?_⟩
      rw [← hadmin]
    · cases h
  · rintro ⟨h, hpayload⟩
    refine ⟨⟨h.root_network, h.network⟩, h.issuer, h.key_id, ⟨h.not_before, h.unexpired⟩,
      h.unrevoked, h.signature, ?_⟩
    rw [dif_pos h.valid_key]
    exact congrArg Except.ok (VerifiedAdmin.ext_payload hpayload.symm)

theorem AdminCertificate.Verifies.exists_admin {c : AdminCertificate}
    (h : c.Verifies root expectedNetwork nowMs revokedSerials) :
    ∃ admin, c.verify root expectedNetwork nowMs revokedSerials = .ok admin :=
  ⟨⟨c.payload, h.valid_key⟩, AdminCertificate.verify_eq_ok.mpr ⟨h, rfl⟩⟩

/-! ## Member certificates -/

structure VerifiedMember where
  payload : MemberCertificatePayload

omit [Crypto] in
def MemberCertificate.ofPayload (payload : MemberCertificatePayload) (signature : Signature) :
    MemberCertificate where
  payload := payload
  signedPayload := encodeMemberPayload payload
  signature := signature
  sized := by simp [memberFormat, encodeMemberPayload_length]
  decodes := by simp [memberFormat, decodeMemberPayload_encode]

/-- `MemberCertificate::issue`, by the network root. -/
def MemberCertificate.issue (root : NetworkRootKey)
    (memberSigningPublic encryptionPublicKey : Bytes32) (roles : MemberRoles)
    (serial notBeforeMs expiresAtMs : UInt64) : Except CertificateError MemberCertificate := do
  failIf (expiresAtMs ≤ notBeforeMs) .invalidValidityWindow
  let payload : MemberCertificatePayload :=
    { networkId := root.public.networkId
      memberId := deriveMemberId root.public.networkId memberSigningPublic
      signingPublicKey := memberSigningPublic
      encryptionPublicKey, roles, serial, notBeforeMs, expiresAtMs
      issuerKeyId := root.public.keyId }
  return MemberCertificate.ofPayload payload (root.sign (encodeMemberPayload payload))

def MemberCertificate.issueByAdmin (admin : OnlineAdminKey)
    (adminCertificate : AdminCertificatePayload)
    (memberSigningPublic encryptionPublicKey : Bytes32) (roles : MemberRoles)
    (serial notBeforeMs expiresAtMs : UInt64) : Except CertificateError MemberCertificate := do
  failIf (admin.publicBytes ≠ adminCertificate.publicKey ∨ admin.keyId ≠ adminCertificate.keyId)
    .keyMismatch
  failIf (adminCertificate.permissions &&& adminPermissionIssueMember = 0) .permissionDenied
  failIf (expiresAtMs ≤ notBeforeMs ∨ notBeforeMs < adminCertificate.notBeforeMs ∨
    adminCertificate.expiresAtMs < expiresAtMs) .invalidValidityWindow
  let payload : MemberCertificatePayload :=
    { networkId := adminCertificate.networkId
      memberId := deriveMemberId adminCertificate.networkId memberSigningPublic
      signingPublicKey := memberSigningPublic
      encryptionPublicKey, roles, serial, notBeforeMs, expiresAtMs
      issuerKeyId := adminCertificate.keyId }
  return MemberCertificate.ofPayload payload (admin.sign (encodeMemberPayload payload))

variable {c : MemberCertificate}

theorem MemberCertificate.issueByAdmin_spec {admin : OnlineAdminKey}
    {adminCertificate : AdminCertificatePayload} {signing encryption : Bytes32}
    {roles : MemberRoles} {serial notBeforeMs expiresAtMs : UInt64}
    (h : MemberCertificate.issueByAdmin admin adminCertificate signing encryption roles serial
      notBeforeMs expiresAtMs = .ok c) :
    c.payload =
        { networkId := adminCertificate.networkId
          memberId := deriveMemberId adminCertificate.networkId signing
          signingPublicKey := signing
          encryptionPublicKey := encryption
          roles, serial, notBeforeMs, expiresAtMs
          issuerKeyId := adminCertificate.keyId } ∧
      c.signature = admin.sign c.signedPayload := by
  unfold MemberCertificate.issueByAdmin at h
  simp only [bind_eq_ok, failIf_eq_ok, exists_and_left, exists_const, pure_eq_ok_iff] at h
  obtain ⟨-, -, -, rfl⟩ := h
  exact ⟨rfl, rfl⟩

/-- `MemberCertificate::verify`, under the network root. -/
def MemberCertificate.verify (c : MemberCertificate) (root : NetworkRootPublic)
    (expectedNetwork : NetworkId) (nowMs : UInt64) (revokedSerials : List UInt64) :
    Except CertificateError VerifiedMember := do
  failIf (root.networkId ≠ expectedNetwork ∨ c.payload.networkId ≠ expectedNetwork) .wrongNetwork
  failIf (c.payload.issuerKeyId ≠ root.keyId) .wrongIssuer
  failIf (deriveMemberId expectedNetwork c.payload.signingPublicKey ≠ c.payload.memberId)
    .derivedIdentityMismatch
  validateTime c.payload.notBeforeMs c.payload.expiresAtMs nowMs
  failIf (c.payload.serial ∈ revokedSerials) .revoked
  verifySignature root.verifyingKey c.signedPayload c.signature
  return ⟨c.payload⟩

def MemberCertificate.verifyWithAdmin (c : MemberCertificate) (admin : VerifiedAdmin)
    (expectedNetwork : NetworkId) (nowMs : UInt64) (revokedSerials : List UInt64) :
    Except CertificateError VerifiedMember := do
  failIf (admin.payload.networkId ≠ expectedNetwork ∨ c.payload.networkId ≠ expectedNetwork)
    .wrongNetwork
  failIf (admin.payload.permissions &&& adminPermissionIssueMember = 0) .permissionDenied
  failIf (c.payload.issuerKeyId ≠ admin.payload.keyId) .wrongIssuer
  failIf (c.payload.notBeforeMs < admin.payload.notBeforeMs ∨
    admin.payload.expiresAtMs < c.payload.expiresAtMs) .invalidValidityWindow
  failIf (deriveMemberId expectedNetwork c.payload.signingPublicKey ≠ c.payload.memberId)
    .derivedIdentityMismatch
  validateTime c.payload.notBeforeMs c.payload.expiresAtMs nowMs
  failIf (c.payload.serial ∈ revokedSerials) .revoked
  admin.verifyBytes c.signedPayload c.signature
  return ⟨c.payload⟩

structure MemberCertificate.Current (c : MemberCertificate) (expectedNetwork : NetworkId)
    (nowMs : UInt64) (revokedSerials : List UInt64) : Prop where
  network : c.payload.networkId = expectedNetwork
  member_id : deriveMemberId expectedNetwork c.payload.signingPublicKey = c.payload.memberId
  not_before : c.payload.notBeforeMs ≤ nowMs
  unexpired : nowMs < c.payload.expiresAtMs
  unrevoked : c.payload.serial ∉ revokedSerials

structure MemberCertificate.IssuedByRoot (c : MemberCertificate) (root : NetworkRootPublic)
    (expectedNetwork : NetworkId) : Prop where
  root_network : root.networkId = expectedNetwork
  issuer : c.payload.issuerKeyId = root.keyId
  signature : Crypto.verify root.verifyingKey c.signedPayload c.signature = true

structure MemberCertificate.IssuedByAdmin (c : MemberCertificate)
    (admin : AdminCertificatePayload) (expectedNetwork : NetworkId) : Prop where
  admin_network : admin.networkId = expectedNetwork
  permitted : admin.permissions &&& adminPermissionIssueMember ≠ 0
  issuer : c.payload.issuerKeyId = admin.keyId
  begins : admin.notBeforeMs ≤ c.payload.notBeforeMs
  ends : c.payload.expiresAtMs ≤ admin.expiresAtMs
  signature : Crypto.verify admin.publicKey c.signedPayload c.signature = true

theorem MemberCertificate.verify_eq_ok {member : VerifiedMember} :
    c.verify root expectedNetwork nowMs revokedSerials = .ok member ↔
      c.Current expectedNetwork nowMs revokedSerials ∧ c.IssuedByRoot root expectedNetwork ∧
        member = ⟨c.payload⟩ := by
  unfold MemberCertificate.verify
  simp only [bind_eq_ok, failIf_eq_ok, validateTime_eq_ok, verifySignature_eq_ok, not_or,
    Decidable.not_not, exists_and_left, exists_const, pure_eq_ok_iff]
  constructor
  · rintro ⟨⟨hroot, hnet⟩, hissuer, hid, ⟨hnb, hexp⟩, hrev, hsig, rfl⟩
    exact ⟨⟨hnet, hid, hnb, hexp, hrev⟩, ⟨hroot, hissuer, hsig⟩, rfl⟩
  · rintro ⟨h, hi, rfl⟩
    exact ⟨⟨hi.root_network, h.network⟩, hi.issuer, h.member_id, ⟨h.not_before, h.unexpired⟩,
      h.unrevoked, hi.signature, rfl⟩

theorem MemberCertificate.verifyWithAdmin_eq_ok {admin : VerifiedAdmin} {member : VerifiedMember} :
    c.verifyWithAdmin admin expectedNetwork nowMs revokedSerials = .ok member ↔
      c.Current expectedNetwork nowMs revokedSerials ∧
        c.IssuedByAdmin admin.payload expectedNetwork ∧ member = ⟨c.payload⟩ := by
  unfold MemberCertificate.verifyWithAdmin VerifiedAdmin.verifyBytes
  simp only [bind_eq_ok, failIf_eq_ok, validateTime_eq_ok, verifySignature_eq_ok, not_or, not_lt,
    Decidable.not_not, exists_and_left, exists_const, pure_eq_ok_iff]
  constructor
  · rintro ⟨⟨hadmin, hnet⟩, hperm, hissuer, ⟨hbegin, hend⟩, hid, ⟨hnb, hexp⟩, hrev, hsig, rfl⟩
    exact ⟨⟨hnet, hid, hnb, hexp, hrev⟩, ⟨hadmin, hperm, hissuer, hbegin, hend, hsig⟩, rfl⟩
  · rintro ⟨h, hi, rfl⟩
    exact ⟨⟨hi.admin_network, h.network⟩, hi.permitted, hi.issuer, ⟨hi.begins, hi.ends⟩,
      h.member_id, ⟨h.not_before, h.unexpired⟩, h.unrevoked, hi.signature, rfl⟩

end Weaver
