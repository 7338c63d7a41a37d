import Weaver.Config.Snapshot
import Weaver.Lib.Collect

/-!
# Validation of a snapshot

`NetworkConfigV1::validate`: nine loops, each over one list of the snapshot, that verify the
credentials and consult the maps that earlier loops built. Every loop is an instance of
`Collect.collect` at its own check and key. A `ValidatedNetworkConfig` is a snapshot that passed
the checks for some root, network and time.
-/

namespace Weaver

open Checked Wire Collect

variable [Crypto]

/-! ## The loops' checks -/

namespace Snapshot

def validateAdminKey (root : NetworkRootPublic) (expectedNetwork : NetworkId) (nowMs : UInt64)
    (revoked : List UInt64) (key : AdminKey) : Except SnapshotError VerifiedAdmin := do
  let certificate ← (AdminCertificate.fromBytes key.certificate).mapError .credential
  (certificate.verify root expectedNetwork nowMs revoked).mapError .credential

/-- `admins.get(key_id)`. -/
def findAdmin (admins : List VerifiedAdmin) (keyId : KeyId) : Except SnapshotError VerifiedAdmin :=
  okOr (lookup (fun admin => admin.payload.keyId) keyId admins) .unknownAdmin

/-- `members.get(member_id)`. -/
def findMember (members : List VerifiedMember) (memberId : MemberId) :
    Except SnapshotError VerifiedMember :=
  okOr (lookup (fun member => member.payload.memberId) memberId members) .unknownMember

/-- `apps.get(app_addr)`. -/
def findApp (apps : List VerifiedApp) (appAddr : AppAddr) : Except SnapshotError VerifiedApp :=
  okOr (lookup (fun app => app.payload.appAddr) appAddr apps) .unknownApplication

def validateMember (root : NetworkRootPublic) (expectedNetwork : NetworkId) (nowMs : UInt64)
    (revoked : List UInt64) (admins : List VerifiedAdmin) (raw : Bytes) :
    Except SnapshotError VerifiedMember := do
  let certificate ← (MemberCertificate.fromBytes raw).mapError .credential
  if certificate.payload.issuerKeyId = root.keyId then
    (certificate.verify root expectedNetwork nowMs revoked).mapError .credential
  else do
    let admin ← findAdmin admins certificate.payload.issuerKeyId
    (certificate.verifyWithAdmin admin expectedNetwork nowMs revoked).mapError .credential

def validateEndpoint (expectedNetwork : NetworkId) (nowMs : UInt64)
    (members : List VerifiedMember) (raw : Bytes) : Except SnapshotError EndpointBinding := do
  let binding ← (EndpointBinding.fromBytes raw).mapError .credential
  let member ← findMember members binding.payload.memberId
  (binding.verify member expectedNetwork binding.payload.endpointId nowMs).mapError .credential
  return binding

def validateApp (root : NetworkRootPublic) (expectedNetwork : NetworkId)
    (admins : List VerifiedAdmin) (raw : Bytes) : Except SnapshotError VerifiedApp := do
  let registration ← (AppRegistration.fromBytes raw).mapError .credential
  if registration.payload.issuerKeyId = root.keyId then
    (registration.verify root expectedNetwork).mapError .credential
  else do
    let admin ← findAdmin admins registration.payload.issuerKeyId
    (registration.verifyWithAdmin admin expectedNetwork).mapError .credential

def validateAppBinding (expectedNetwork : NetworkId) (nowMs : UInt64) (policies : NetworkPolicy)
    (apps : List VerifiedApp) (members : List VerifiedMember) (raw : Bytes) :
    Except SnapshotError AppBinding := do
  let binding ← (AppBinding.fromBytes raw).mapError .credential
  let app ← findApp apps binding.payload.appAddr
  let member ← findMember members binding.payload.subject
  failIf (policies.maxServicesPerBinding.toNat < binding.payload.services.length)
    .policyLimitExceeded
  (binding.verify app member expectedNetwork nowMs).mapError .credential
  return binding

def validateDnsRecord (issuedAtMs expiresAtMs : UInt64) (apps : List VerifiedApp)
    (record : VirtualDnsRecord) : Except SnapshotError VirtualDnsRecord := do
  let _ ← findApp apps record.appAddr
  failIf (record.expiresAtMs ≤ issuedAtMs ∨ expiresAtMs < record.expiresAtMs)
    .invalidValidityWindow
  return record

def validateRelay (nowMs : UInt64) (relay : RelayDescriptor) :
    Except SnapshotError RelayDescriptor := do
  validateUrl relay.url
  failIf (relay.expiresAtMs ≤ nowMs) .expired
  return relay

def validatePresence (nowMs : UInt64) (service : PresenceServiceDescriptor) :
    Except SnapshotError PresenceServiceDescriptor := do
  validateUrl service.url
  failIf (service.expiresAtMs ≤ nowMs) .expired
  return service

omit [Crypto] in
def validateDescriptors (relays : List RelayDescriptor)
    (presence : List PresenceServiceDescriptor) (nowMs : UInt64) :
    Except SnapshotError Unit := do
  let _ ← collect (validateRelay nowMs) RelayDescriptor.endpointId
    (.duplicateEntry "relay endpoint") relays
  let _ ← collect (validatePresence nowMs) PresenceServiceDescriptor.endpointId
    (.duplicateEntry "presence endpoint") presence
  return ()

end Snapshot

open Snapshot

/-! ## The validator -/

/-- The checks of `NetworkConfigV1::validate`, in its order. -/
def NetworkConfigV1.check (c : NetworkConfigV1) (root : NetworkRootPublic)
    (expectedNetwork : NetworkId) (nowMs : UInt64) : Except SnapshotError Unit := do
  c.validateShape
  failIf (c.networkId ≠ expectedNetwork ∨ root.networkId ≠ expectedNetwork) .wrongNetwork
  failIf (nowMs < c.issuedAtMs) .notYetValid
  failIf (c.expiresAtMs ≤ nowMs) .expired
  failIf (c.revokedSerials.dedup.length ≠ c.revokedSerials.length)
    (.duplicateEntry "revoked serial")
  let admins ← collect (validateAdminKey root expectedNetwork nowMs c.revokedSerials)
    (fun admin => admin.payload.keyId) (.duplicateEntry "admin key") c.adminKeys
  let members ← collect (validateMember root expectedNetwork nowMs c.revokedSerials admins)
    (fun member => member.payload.memberId) (.duplicateEntry "member") c.members
  failIf (c.policies.maxMembers.toNat < members.length) .policyLimitExceeded
  let _ ← collect (validateEndpoint expectedNetwork nowMs members)
    (fun binding => binding.payload.endpointId) (.duplicateEntry "endpoint") c.endpointBindings
  let apps ← collect (validateApp root expectedNetwork admins)
    (fun app => app.payload.appAddr) (.duplicateEntry "application") c.apps
  let _ ← collect (validateAppBinding expectedNetwork nowMs c.policies apps members)
    (fun binding => (binding.payload.appAddr, binding.payload.subject, binding.payload.role))
    (.duplicateEntry "application binding") c.appBindings
  let _ ← collect (validateDnsRecord c.issuedAtMs c.expiresAtMs apps) VirtualDnsRecord.name
    (.duplicateEntry "virtual DNS name") c.virtualDns
  validateDescriptors c.relays c.presenceServices nowMs

/-- `ValidatedNetworkConfig`: a snapshot that passed the checks for some root, network and time. -/
structure ValidatedNetworkConfig where
  asConfig : NetworkConfigV1
  validated : ∃ root expectedNetwork nowMs, asConfig.check root expectedNetwork nowMs = .ok ()

def NetworkConfigV1.validate (c : NetworkConfigV1) (root : NetworkRootPublic)
    (expectedNetwork : NetworkId) (nowMs : UInt64) :
    Except SnapshotError ValidatedNetworkConfig :=
  match h : c.check root expectedNetwork nowMs with
  | .ok () => .ok ⟨c, root, expectedNetwork, nowMs, h⟩
  | .error e => .error e

theorem ValidatedNetworkConfig.ext_config {v w : ValidatedNetworkConfig}
    (h : v.asConfig = w.asConfig) : v = w := by
  obtain ⟨c, hc⟩ := v
  obtain ⟨d, hd⟩ := w
  subst h
  rfl

theorem NetworkConfigV1.validate_eq_ok {c : NetworkConfigV1} {root : NetworkRootPublic}
    {expectedNetwork : NetworkId} {nowMs : UInt64} {v : ValidatedNetworkConfig} :
    c.validate root expectedNetwork nowMs = .ok v ↔
      c.check root expectedNetwork nowMs = .ok () ∧ v.asConfig = c := by
  unfold NetworkConfigV1.validate
  split
  · next h =>
    constructor
    · intro hv
      have hv' := Except.ok.inj hv
      rw [← hv']
      exact ⟨h, rfl⟩
    · rintro ⟨-, hv⟩
      exact congrArg Except.ok (ValidatedNetworkConfig.ext_config hv.symm)
  · next e h =>
    constructor
    · intro hv
      cases hv
    · rintro ⟨hc, -⟩
      rw [h] at hc
      cases hc

/-- The loop of `verified_admin`: the first certificate with the key identifier is verified, and a
certificate before it that does not parse is an error. -/
def findVerifiedAdmin (root : NetworkRootPublic) (networkId : NetworkId) (revoked : List UInt64)
    (keyId : KeyId) (nowMs : UInt64) : List AdminKey → Except SnapshotError VerifiedAdmin
  | [] => .error .unknownAdmin
  | key :: rest => do
    let certificate ← (AdminCertificate.fromBytes key.certificate).mapError .credential
    if certificate.payload.keyId = keyId then
      (certificate.verify root networkId nowMs revoked).mapError .credential
    else findVerifiedAdmin root networkId revoked keyId nowMs rest

def ValidatedNetworkConfig.verifiedAdmin (v : ValidatedNetworkConfig) (root : NetworkRootPublic)
    (keyId : KeyId) (nowMs : UInt64) : Except SnapshotError VerifiedAdmin :=
  findVerifiedAdmin root v.asConfig.networkId v.asConfig.revokedSerials keyId nowMs
    v.asConfig.adminKeys

end Weaver
