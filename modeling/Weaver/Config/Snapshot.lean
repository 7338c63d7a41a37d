import Weaver.Crypto.Bindings

/-!
# Configuration snapshots

`NetworkConfigV1` of `weaver-config`, its limits and its wire format. The snapshot is what an
envelope encrypts: the administrators, members, endpoints, applications, names and relays of a
network at one revision. Credentials are kept as the bytes they were received in.
-/

namespace Weaver

open Checked Wire Wire.Decoder

/-! ## Limits -/

def snapshotMagicV1 : Bytes := utf8 "WVRSNP\x00\x01"

def snapshotMagicV2 : Bytes := utf8 "WVRSNP\x00\x02"

def maxMembers : ℕ := 256

def maxApps : ℕ := 256

def maxBindings : ℕ := 1024

def maxVirtualDnsRecords : ℕ := 1024

def maxRelays : ℕ := 64

def maxPresenceServices : ℕ := 64

def maxAdminKeys : ℕ := 16

def maxRevokedSerials : ℕ := 4096

def maxCredentialBytes : ℕ := 16 * 1024

def maxUrlBytes : ℕ := 2048

/-! ## Data -/

structure AdminKey where
  certificate : Bytes
deriving DecidableEq

/-- `RelayRoles`, a set of bits. -/
structure RelayRoles where
  bits : UInt32
deriving DecidableEq

namespace RelayRoles

def dataRelay : RelayRoles := ⟨1⟩

def bootstrap : RelayRoles := ⟨2⟩

def presence : RelayRoles := ⟨4⟩

def union (r s : RelayRoles) : RelayRoles := ⟨r.bits ||| s.bits⟩

def contains (r s : RelayRoles) : Bool := r.bits &&& s.bits == s.bits

end RelayRoles

structure RelayDescriptor where
  endpointId : Bytes32
  url : String
  roles : RelayRoles
  expiresAtMs : UInt64
deriving DecidableEq

structure PresenceServiceDescriptor where
  endpointId : Bytes32
  url : String
  expiresAtMs : UInt64
deriving DecidableEq

structure VirtualDnsRecord where
  name : VirtualName
  appAddr : AppAddr
  expiresAtMs : UInt64
deriving DecidableEq

structure EpochSecrets where
  presenceIndexSeed : Bytes32
  presenceEncryptionSeed : Bytes32
  lanDiscoverySeed : Bytes32
  relayAccessSeed : Bytes32
deriving DecidableEq

structure NetworkPolicy where
  flags : UInt32
  maxMembers : UInt16
  maxServicesPerBinding : UInt16
deriving DecidableEq

def NetworkPolicy.default : NetworkPolicy where
  flags := 0
  maxMembers := 256
  maxServicesPerBinding := 64

structure NetworkConfigV1 where
  networkId : NetworkId
  epoch : UInt64
  revision : UInt64
  previousHash : Bytes32
  issuedAtMs : UInt64
  expiresAtMs : UInt64
  adminKeys : List AdminKey
  members : List Bytes
  endpointBindings : List Bytes
  revokedSerials : List UInt64
  apps : List Bytes
  appBindings : List Bytes
  virtualDns : List VirtualDnsRecord
  relays : List RelayDescriptor
  presenceServices : List PresenceServiceDescriptor
  epochSecrets : EpochSecrets
  policies : NetworkPolicy
deriving DecidableEq

inductive SnapshotError where
  | randomnessUnavailable
  | malformedWire
  | invalidLength
  | invalidValidityWindow
  | wrongNetwork
  | notYetValid
  | expired
  | duplicateEntry (what : String)
  | unknownMember
  | unknownApplication
  | invalidVirtualName
  | unknownAdmin
  | policyLimitExceeded
  | credential (error : CertificateError)
deriving DecidableEq

/-- `EpochSecrets::generate`, from the four seeds the system's randomness gave, if any. -/
def EpochSecrets.generate (random : Option EpochSecrets) : Except SnapshotError EpochSecrets :=
  okOr random .randomnessUnavailable

/-! ## Shape -/

def checkLen (actual maximum : ℕ) : Except SnapshotError Unit :=
  failIf (maximum < actual) .invalidLength

def validateUrl (url : String) : Except SnapshotError Unit :=
  failIf ((utf8 url).length = 0 ∨ maxUrlBytes < (utf8 url).length ∨ isAscii url = false)
    .invalidLength

/-- The credentials of a snapshot, in the order `validate_shape` visits them. -/
def NetworkConfigV1.credentials (c : NetworkConfigV1) : List Bytes :=
  c.adminKeys.map AdminKey.certificate ++ c.members ++ c.endpointBindings ++ c.apps ++
    c.appBindings

def NetworkConfigV1.validateShape (c : NetworkConfigV1) : Except SnapshotError Unit := do
  failIf (c.expiresAtMs ≤ c.issuedAtMs) .invalidValidityWindow
  checkLen c.adminKeys.length maxAdminKeys
  checkLen c.members.length maxMembers
  checkLen c.endpointBindings.length maxMembers
  checkLen c.revokedSerials.length maxRevokedSerials
  checkLen c.apps.length maxApps
  checkLen c.appBindings.length maxBindings
  checkLen c.virtualDns.length maxVirtualDnsRecords
  checkLen c.relays.length maxRelays
  checkLen c.presenceServices.length maxPresenceServices
  failIf (∃ raw ∈ c.credentials, raw = [] ∨ maxCredentialBytes < raw.length) .invalidLength
  failIf (c.policies.maxMembers = 0 ∨ maxMembers < c.policies.maxMembers.toNat ∨
    c.policies.maxServicesPerBinding = 0 ∨ 64 < c.policies.maxServicesPerBinding)
    .policyLimitExceeded

/-- The limits that `validateShape` enforces. -/
structure NetworkConfigV1.Shape (c : NetworkConfigV1) : Prop where
  window : c.issuedAtMs < c.expiresAtMs
  admin_keys : c.adminKeys.length ≤ maxAdminKeys
  members : c.members.length ≤ maxMembers
  endpoint_bindings : c.endpointBindings.length ≤ maxMembers
  revoked_serials : c.revokedSerials.length ≤ maxRevokedSerials
  apps : c.apps.length ≤ maxApps
  app_bindings : c.appBindings.length ≤ maxBindings
  virtual_dns : c.virtualDns.length ≤ maxVirtualDnsRecords
  relays : c.relays.length ≤ maxRelays
  presence_services : c.presenceServices.length ≤ maxPresenceServices
  credentials : ∀ raw ∈ c.credentials, raw ≠ [] ∧ raw.length ≤ maxCredentialBytes
  policy_members : c.policies.maxMembers ≠ 0 ∧ c.policies.maxMembers.toNat ≤ maxMembers
  /-- The policy admits at least one service a binding, and no more than the format. -/
  policy_services : c.policies.maxServicesPerBinding ≠ 0 ∧ c.policies.maxServicesPerBinding ≤ 64

variable {u : Unit}

@[simp]
theorem checkLen_eq_ok {actual maximum : ℕ} :
    checkLen actual maximum = .ok u ↔ actual ≤ maximum := by
  simp [checkLen]

@[simp]
theorem validateUrl_eq_ok {url : String} :
    validateUrl url = .ok u ↔
      (utf8 url).length ≠ 0 ∧ (utf8 url).length ≤ maxUrlBytes ∧ isAscii url = true := by
  simp [validateUrl]

theorem NetworkConfigV1.validateShape_eq_ok {c : NetworkConfigV1} :
    c.validateShape = .ok u ↔ c.Shape := by
  unfold NetworkConfigV1.validateShape
  simp only [bind_eq_ok, failIf_eq_ok, checkLen_eq_ok, exists_and_left, exists_const, not_le,
    not_or, not_lt, not_exists, not_and]
  constructor
  · rintro ⟨hw, ha, hm, he, hr, hp, hb, hd, hy, hs, hc, hpm, hpm', hps, hps'⟩
    exact ⟨hw, ha, hm, he, hr, hp, hb, hd, hy, hs, hc, ⟨hpm, hpm'⟩, ⟨hps, by simpa using hps'⟩⟩
  · intro h
    exact ⟨h.window, h.admin_keys, h.members, h.endpoint_bindings, h.revoked_serials, h.apps,
      h.app_bindings, h.virtual_dns, h.relays, h.presence_services, h.credentials,
      h.policy_members.1, h.policy_members.2, h.policy_services.1, by
        simpa using h.policy_services.2⟩

/-! ## Writing -/

namespace Snapshot

def pushCount (count : ℕ) : Except SnapshotError Bytes := do
  failIf (2^16 ≤ count) .invalidLength
  return be16 (UInt16.ofNat count)

def pushBlob (value : Bytes) : Except SnapshotError Bytes := do
  failIf (value = [] ∨ maxCredentialBytes < value.length) .invalidLength
  let len ← pushCount value.length
  return len ++ value

def pushString (value : String) : Except SnapshotError Bytes := do
  validateUrl value
  let len ← pushCount (utf8 value).length
  return len ++ utf8 value

/-- A counted list: `push_count`, then each item. `push_blobs` is this at `push_blob`. -/
def pushList {α : Type} (push : α → Except SnapshotError Bytes) (l : List α) :
    Except SnapshotError Bytes := do
  let count ← pushCount l.length
  let items ← l.mapM push
  return count ++ items.flatten

def pushDnsRecord (record : VirtualDnsRecord) : Except SnapshotError Bytes := do
  let name ← pushString record.name.asStr
  return name ++ record.appAddr.asBytes.val ++ be64 record.expiresAtMs

def pushRelay (relay : RelayDescriptor) : Except SnapshotError Bytes := do
  let url ← pushString relay.url
  return relay.endpointId.val ++ url ++ be32 relay.roles.bits ++ be64 relay.expiresAtMs

def pushPresence (service : PresenceServiceDescriptor) : Except SnapshotError Bytes := do
  let url ← pushString service.url
  return service.endpointId.val ++ url ++ be64 service.expiresAtMs

end Snapshot

open Snapshot

/-- The four seeds, in the order of `expose_bytes`. -/
def EpochSecrets.encode (s : EpochSecrets) : Bytes :=
  s.presenceIndexSeed.val ++ s.presenceEncryptionSeed.val ++ s.lanDiscoverySeed.val ++
    s.relayAccessSeed.val

def NetworkConfigV1.encodeHeader (c : NetworkConfigV1) : Bytes :=
  snapshotMagicV2 ++ c.networkId.asBytes.val ++ be64 c.epoch ++ be64 c.revision ++
    c.previousHash.val ++ be64 c.issuedAtMs ++ be64 c.expiresAtMs

def NetworkConfigV1.encodeTrailer (c : NetworkConfigV1) : Bytes :=
  c.epochSecrets.encode ++ be32 c.policies.flags ++ be16 c.policies.maxMembers ++
    be16 c.policies.maxServicesPerBinding

def NetworkConfigV1.toBytes (c : NetworkConfigV1) : Except SnapshotError Bytes := do
  c.validateShape
  let adminKeys ← pushList (fun key => pushBlob key.certificate) c.adminKeys
  let members ← pushList pushBlob c.members
  let endpointBindings ← pushList pushBlob c.endpointBindings
  let revokedSerials ← pushList (fun serial => pure (be64 serial)) c.revokedSerials
  let apps ← pushList pushBlob c.apps
  let appBindings ← pushList pushBlob c.appBindings
  let virtualDns ← pushList pushDnsRecord c.virtualDns
  let relays ← pushList pushRelay c.relays
  let presenceServices ← pushList pushPresence c.presenceServices
  return [c.encodeHeader, adminKeys, members, endpointBindings, revokedSerials, apps, appBindings,
    virtualDns, relays, presenceServices, c.encodeTrailer].flatten

/-! ## Reading -/

namespace Snapshot

/-- `Decoder::count`. -/
def count (maximum : ℕ) : Decoder SnapshotError ℕ := do
  let count ← u16 .malformedWire
  lift (checkLen count.toNat maximum)
  return count.toNat

/-- `Decoder::blob`. -/
def blob : Decoder SnapshotError Bytes := do
  let len ← u16 .malformedWire
  lift (failIf (len.toNat = 0 ∨ maxCredentialBytes < len.toNat) .invalidLength)
  take .malformedWire len.toNat

/-- `Decoder::string`. -/
def string : Decoder SnapshotError String := do
  let len ← u16 .malformedWire
  lift (failIf (len.toNat = 0 ∨ maxUrlBytes < len.toNat) .invalidLength)
  let bytes ← take .malformedWire len.toNat
  let value ← lift (okOr (fromUtf8 bytes) .malformedWire)
  lift (validateUrl value)
  return value

/-- A counted list of at most `maximum` items. `Decoder::blobs` is this at `blob`. -/
def listOf {α : Type} (maximum : ℕ) (item : Decoder SnapshotError α) :
    Decoder SnapshotError (List α) := do
  let n ← count maximum
  many n item

def adminKeyItem : Decoder SnapshotError AdminKey := do
  let certificate ← blob
  return { certificate }

def dnsItem : Decoder SnapshotError VirtualDnsRecord := do
  let text ← string
  let name ← lift (okOr (VirtualName.new text) .invalidVirtualName)
  let appAddr ← array .malformedWire 32
  let expiresAtMs ← u64 .malformedWire
  return { name, appAddr := ⟨appAddr⟩, expiresAtMs }

def relayItem : Decoder SnapshotError RelayDescriptor := do
  let endpointId ← array .malformedWire 32
  let url ← string
  let roles ← u32 .malformedWire
  let expiresAtMs ← u64 .malformedWire
  return { endpointId, url, roles := ⟨roles⟩, expiresAtMs }

def presenceItem : Decoder SnapshotError PresenceServiceDescriptor := do
  let endpointId ← array .malformedWire 32
  let url ← string
  let expiresAtMs ← u64 .malformedWire
  return { endpointId, url, expiresAtMs }

def epochSecretsItem : Decoder SnapshotError EpochSecrets := do
  let presenceIndexSeed ← array .malformedWire 32
  let presenceEncryptionSeed ← array .malformedWire 32
  let lanDiscoverySeed ← array .malformedWire 32
  let relayAccessSeed ← array .malformedWire 32
  return { presenceIndexSeed, presenceEncryptionSeed, lanDiscoverySeed, relayAccessSeed }

def policyItem : Decoder SnapshotError NetworkPolicy := do
  let flags ← u32 .malformedWire
  let maxMembers ← u16 .malformedWire
  let maxServicesPerBinding ← u16 .malformedWire
  return { flags, maxMembers, maxServicesPerBinding }

def version (bytes : Bytes) : Decoder SnapshotError Bool :=
  if snapshotMagicV2.isPrefixOf bytes then do
    magic .malformedWire snapshotMagicV2
    return true
  else if snapshotMagicV1.isPrefixOf bytes then do
    magic .malformedWire snapshotMagicV1
    return false
  else fail .malformedWire

/-- The fields of `NetworkConfigV1::from_bytes`, to the end of the input. -/
def fields (bytes : Bytes) : Decoder SnapshotError NetworkConfigV1 := do
  let hasVirtualDns ← version bytes
  let networkId ← array .malformedWire 32
  let epoch ← u64 .malformedWire
  let revision ← u64 .malformedWire
  let previousHash ← array .malformedWire 32
  let issuedAtMs ← u64 .malformedWire
  let expiresAtMs ← u64 .malformedWire
  let adminKeys ← listOf maxAdminKeys adminKeyItem
  let members ← listOf maxMembers blob
  let endpointBindings ← listOf maxMembers blob
  let revokedSerials ← listOf maxRevokedSerials (u64 .malformedWire)
  let apps ← listOf maxApps blob
  let appBindings ← listOf maxBindings blob
  let virtualDns ← if hasVirtualDns then listOf maxVirtualDnsRecords dnsItem else pure []
  let relays ← listOf maxRelays relayItem
  let presenceServices ← listOf maxPresenceServices presenceItem
  let epochSecrets ← epochSecretsItem
  let policies ← policyItem
  finish .malformedWire
  return { networkId := ⟨networkId⟩, epoch, revision, previousHash, issuedAtMs, expiresAtMs,
           adminKeys, members, endpointBindings, revokedSerials, apps, appBindings, virtualDns,
           relays, presenceServices, epochSecrets, policies }

end Snapshot

def NetworkConfigV1.fromBytes (bytes : Bytes) : Except SnapshotError NetworkConfigV1 := do
  let config ← (fields bytes).decode bytes
  config.validateShape
  return config

end Weaver
