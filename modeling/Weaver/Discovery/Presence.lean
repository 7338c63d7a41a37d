import Weaver.Config.Acceptance

/-!
# Encrypted presence records

The presence records of `weaver-discovery`: a member signs where it can be reached and for which
virtual addresses, and encrypts the record under the secrets of the network's epoch. Three limits
bound a record, on its payload, on its ciphertext and on its wire bytes.
-/

namespace Weaver

open Checked Wire Wire.Decoder

/-! ## Records -/

/-- `std::net::SocketAddr`, by its numbers. -/
inductive IpSocket where
  | v4 (ip : BytesN 4) (port : UInt16)
  | v6 (ip : BytesN 16) (port : UInt16) (flowinfo scopeId : UInt32)
deriving DecidableEq

inductive DiscoveryCandidate where
  | ip (address : IpSocket)
  | relay (url : String)
deriving DecidableEq

/-- `DiscoveryError`, without the errors of the LAN backend. -/
inductive DiscoveryError where
  | randomnessUnavailable
  | malformedTag
  | malformedEndpoint
  | malformedWire
  | presenceTooLarge
  | invalidPresence
  | wrongEpoch
  | wrongNetwork
  | encryptionFailed
  | decryptionFailed
  | rollback
  | notAuthorized
  | crypto (error : CertificateError)
deriving DecidableEq

def maxPresenceTtlMs : UInt64 := 5 * 60 * 1000

def presenceMagic : Bytes := utf8 "WVRPRS\x00\x02"

def presencePayloadMagic : Bytes := utf8 "WVRPRP\x00\x02"

def maxCandidates : ℕ := 16

def maxVirtualAddrs : ℕ := 256

def maxRelayUrlLen : ℕ := 2048

def maxPresenceWire : ℕ := 16 * 1024

/-- BLAKE3 with a key, which only the discovery uses. -/
class KeyedHash where
  keyedHash : Bytes32 → Bytes → Bytes32

variable [Crypto]

structure PresenceRecord where
  networkId : NetworkId
  epoch : UInt64
  virtualAddrs : List ScopedVirtualAddr
  memberId : MemberId
  endpointId : EndpointId
  candidates : List DiscoveryCandidate
  capabilities : UInt32
  sequence : UInt64
  issuedAtMs : UInt64
  expiresAtMs : UInt64
deriving DecidableEq

/-! ## The payload -/

omit [Crypto] in
def encodeVirtualAddr : ScopedVirtualAddr → Bytes
  | .server app => 1 :: app.asBytes.val
  | .client app device => 2 :: (app.asBytes.val ++ device.asBytes.val)

omit [Crypto] in
/-- The part of `encode_presence_payload` that writes a candidate. -/
def encodeCandidate : DiscoveryCandidate → Except DiscoveryError Bytes
  | .ip (.v4 ip port) => .ok (1 :: (ip.val ++ be16 port))
  | .ip (.v6 ip port _ _) => .ok (2 :: (ip.val ++ be16 port))
  | .relay url => do
    failIf (2^16 ≤ (utf8 url).length) .presenceTooLarge
    return 3 :: (be16 (UInt16.ofNat (utf8 url).length) ++ utf8 url)

def presencePayload (record : PresenceRecord) (candidates : List Bytes) : Bytes :=
  presencePayloadMagic ++ record.networkId.asBytes.val ++ be64 record.epoch ++
    be16 (UInt16.ofNat record.virtualAddrs.length) ++
    (record.virtualAddrs.map encodeVirtualAddr).flatten ++ record.memberId.asBytes.val ++
    record.endpointId.asBytes.val ++ be32 record.capabilities ++ be64 record.sequence ++
    be64 record.issuedAtMs ++ be64 record.expiresAtMs ++
    be16 (UInt16.ofNat record.candidates.length) ++ candidates.flatten

def encodePresencePayload (record : PresenceRecord) : Except DiscoveryError Bytes := do
  failIf (2^16 ≤ record.virtualAddrs.length) .presenceTooLarge
  failIf (2^16 ≤ record.candidates.length) .presenceTooLarge
  let candidates ← record.candidates.mapM encodeCandidate
  let out := presencePayload record candidates
  failIf (maxPresenceWire - signatureLen < out.length) .presenceTooLarge
  return out

omit [Crypto] in
def decodeVirtualAddr : Decoder DiscoveryError ScopedVirtualAddr := do
  let kind ← u8 .malformedWire
  let app ← array .malformedWire 32
  if kind = 1 then return .server ⟨app⟩
  else if kind = 2 then return .client ⟨app⟩ ⟨← array .malformedWire 32⟩
  else fail .malformedWire

omit [Crypto] in
/-- The loop body of `decode_presence_payload` that reads a candidate. `SocketAddr::new` makes an
IPv6 address without flow information and scope. -/
def decodeCandidate : Decoder DiscoveryError DiscoveryCandidate := do
  let kind ← u8 .malformedWire
  if kind = 1 then
    let ip ← array .malformedWire 4
    return .ip (.v4 ip (← u16 .malformedWire))
  else if kind = 2 then
    let ip ← array .malformedWire 16
    return .ip (.v6 ip (← u16 .malformedWire) 0 0)
  else if kind = 3 then
    let len ← u16 .malformedWire
    let bytes ← take .malformedWire len.toNat
    return .relay (← lift (okOr (fromUtf8 bytes) .malformedWire))
  else fail .malformedWire

def presenceFields : Decoder DiscoveryError PresenceRecord := do
  magic .malformedWire presencePayloadMagic
  let networkId ← array .malformedWire 32
  let epoch ← u64 .malformedWire
  let addressCount ← u16 .malformedWire
  lift (failIf (addressCount.toNat = 0 ∨ maxVirtualAddrs < addressCount.toNat) .invalidPresence)
  let virtualAddrs ← many addressCount.toNat decodeVirtualAddr
  let memberId ← array .malformedWire 32
  let endpointBytes ← array .malformedWire 32
  let endpointId ← lift (okOr (EndpointId.fromBytes endpointBytes) .malformedEndpoint)
  let capabilities ← u32 .malformedWire
  let sequence ← u64 .malformedWire
  let issuedAtMs ← u64 .malformedWire
  let expiresAtMs ← u64 .malformedWire
  let count ← u16 .malformedWire
  lift (failIf (maxCandidates < count.toNat) .invalidPresence)
  let candidates ← many count.toNat decodeCandidate
  finish .malformedWire
  return { networkId := ⟨networkId⟩, epoch, virtualAddrs, memberId := ⟨memberId⟩, endpointId,
           candidates, capabilities, sequence, issuedAtMs, expiresAtMs }

/-! ## Authorization -/

omit [Crypto] in
def AppBindingPayload.names (p : AppBindingPayload) (address : ScopedVirtualAddr) : Bool :=
  match p.role, address with
  | .server, .server app => p.appAddr = app
  | .client, .client app device => p.appAddr = app ∧ p.deviceId = some device
  | _, _ => false

def authorizeEndpointAndAddr (c : NetworkConfigV1) (memberId : MemberId) (endpointId : EndpointId)
    (virtualAddr : ScopedVirtualAddr) (nowMs : UInt64) : Except DiscoveryError Unit := do
  failIf ((c.endpointBindings.any fun raw => (EndpointBinding.fromBytes raw).toOption.any fun b =>
    b.payload.memberId = memberId ∧ b.payload.endpointId = endpointId.asBytes ∧
      nowMs < b.payload.expiresAtMs) = false) .notAuthorized
  failIf ((c.appBindings.any fun raw => (AppBinding.fromBytes raw).toOption.any fun b =>
    b.payload.subject = memberId ∧ nowMs < b.payload.expiresAtMs ∧
      b.payload.names virtualAddr = true) = false) .notAuthorized

def memberForSigner (c : NetworkConfigV1) (publicKey : Bytes32) :
    Except DiscoveryError MemberCertificate :=
  okOr ((c.members.filterMap fun raw => (MemberCertificate.fromBytes raw).toOption).find? fun m =>
    m.payload.signingPublicKey = publicKey) .notAuthorized

def memberById (c : NetworkConfigV1) (memberId : MemberId) :
    Except DiscoveryError MemberCertificate :=
  okOr ((c.members.filterMap fun raw => (MemberCertificate.fromBytes raw).toOption).find? fun m =>
    m.payload.memberId = memberId) .notAuthorized

omit [Crypto] in
def validateCandidates (candidates : List DiscoveryCandidate) : Except DiscoveryError Unit :=
  failIf (maxCandidates < candidates.length ∨ candidates.any (fun
    | .relay url => (utf8 url).length = 0 ∨ maxRelayUrlLen < (utf8 url).length
    | .ip _ => false) = true) .invalidPresence

/-! ## Keys -/

section Keys

variable [KeyedHash]

def deriveOpaqueKey (seed : Bytes32) (endpoint : EndpointId) : BytesN 24 :=
  ⟨(KeyedHash.keyedHash seed (utf8 "weaver.presence-index.v1\x00" ++ endpoint.asBytes.val)).val.take
    24, by rw [List.length_take, bytesN_length]; rfl⟩

omit [Crypto] in
def derivePresenceKey (seed : Bytes32) (epoch : UInt64) (opaqueKey : BytesN 24) : Bytes32 :=
  KeyedHash.keyedHash seed (utf8 "weaver.presence-encryption.v1\x00" ++ be64 epoch ++ opaqueKey.val)

end Keys

omit [Crypto] in
def presenceAad (epoch : UInt64) (opaqueKey nonce : BytesN 24) : Bytes :=
  presenceMagic ++ be64 epoch ++ opaqueKey.val ++ nonce.val

omit [Crypto] in
def presenceSignatureTranscript (payload : Bytes) : Bytes :=
  utf8 "weaver.member-presence-signature.v1\x00" ++ payload

def SigningKeypair.signPresence (k : SigningKeypair) (exactPayload : Bytes) : Signature :=
  k.sign (presenceSignatureTranscript exactPayload)

def MemberCertificate.verifyPresence (m : MemberCertificate) (exactPayload : Bytes)
    (signature : Signature) : Except CertificateError Unit := do
  verifyingKeyFromBytes m.payload.signingPublicKey
  verifySignature m.payload.signingPublicKey (presenceSignatureTranscript exactPayload) signature

/-! ## Sealing and opening -/

structure EncryptedPresenceRecord where
  epoch : UInt64
  opaqueKey : BytesN 24
  nonce : BytesN 24
  ciphertext : Bytes
deriving DecidableEq

namespace EncryptedPresenceRecord

variable [KeyedHash]

/-- `EncryptedPresenceRecord::seal`, with the nonce that the system's randomness gave, if any. -/
def «seal» (config : ValidatedNetworkConfig) (signing : SigningKeypair) (endpointId : EndpointId)
    (virtualAddrs : List ScopedVirtualAddr) (candidates : List DiscoveryCandidate)
    (capabilities : UInt32) (sequence issuedAtMs expiresAtMs : UInt64)
    (random : Option (BytesN 24)) : Except DiscoveryError EncryptedPresenceRecord := do
  let snapshot := config.asConfig
  failIf (expiresAtMs ≤ issuedAtMs ∨ maxPresenceTtlMs < expiresAtMs - issuedAtMs ∨
    snapshot.expiresAtMs < expiresAtMs ∨ maxCandidates < candidates.length ∨ virtualAddrs = [] ∨
    maxVirtualAddrs < virtualAddrs.length) .invalidPresence
  validateCandidates candidates
  let member ← memberForSigner snapshot signing.publicBytes
  failIf (¬ virtualAddrs.Nodup) .invalidPresence
  let _ ← virtualAddrs.mapM fun address =>
    authorizeEndpointAndAddr snapshot member.payload.memberId endpointId address issuedAtMs
  let payload ← encodePresencePayload
    { networkId := snapshot.networkId, epoch := snapshot.epoch, virtualAddrs,
      memberId := member.payload.memberId, endpointId, candidates, capabilities, sequence,
      issuedAtMs, expiresAtMs }
  let opaqueKey := deriveOpaqueKey snapshot.epochSecrets.presenceIndexSeed endpointId
  let key := derivePresenceKey snapshot.epochSecrets.presenceEncryptionSeed snapshot.epoch opaqueKey
  let nonce ← okOr random .randomnessUnavailable
  let ciphertext ← okOr (Crypto.aeadEncrypt key nonce (presenceAad snapshot.epoch opaqueKey nonce)
    (payload ++ (signing.signPresence payload).val)) .encryptionFailed
  return { epoch := snapshot.epoch, opaqueKey, nonce, ciphertext }

omit [Crypto] [KeyedHash] in
def toBytes (r : EncryptedPresenceRecord) : Except DiscoveryError Bytes := do
  failIf (maxPresenceWire < r.ciphertext.length) .presenceTooLarge
  return presenceMagic ++ be64 r.epoch ++ r.opaqueKey.val ++ r.nonce.val ++
    be32 (UInt32.ofNat r.ciphertext.length) ++ r.ciphertext

omit [Crypto] [KeyedHash] in
def fromBytes (bytes : Bytes) : Except DiscoveryError EncryptedPresenceRecord := do
  failIf (maxPresenceWire < bytes.length) .presenceTooLarge
  Decoder.decode (do
    magic .malformedWire presenceMagic
    let epoch ← u64 .malformedWire
    let opaqueKey ← array .malformedWire 24
    let nonce ← array .malformedWire 24
    let len ← u32 .malformedWire
    let ciphertext ← take .malformedWire len.toNat
    finish .malformedWire
    return { epoch, opaqueKey, nonce, ciphertext }) bytes

/-- The checks of `open` after the payload is decoded. -/
def checkOpened (r : EncryptedPresenceRecord) (snapshot : NetworkConfigV1) (nowMs : UInt64)
    (payload : Bytes) (signature : Signature) (record : PresenceRecord) :
    Except DiscoveryError PresenceRecord := do
  failIf (record.networkId ≠ snapshot.networkId ∨ record.epoch ≠ snapshot.epoch ∨
    nowMs < record.issuedAtMs ∨ record.expiresAtMs ≤ nowMs ∨
    maxPresenceTtlMs < record.expiresAtMs - record.issuedAtMs ∨
    deriveOpaqueKey snapshot.epochSecrets.presenceIndexSeed record.endpointId ≠ r.opaqueKey)
    .invalidPresence
  let member ← memberById snapshot record.memberId
  failIf (nowMs < member.payload.notBeforeMs ∨ member.payload.expiresAtMs ≤ nowMs ∨
    member.payload.serial ∈ snapshot.revokedSerials) .invalidPresence
  (member.verifyPresence payload signature).mapError .crypto
  failIf (record.virtualAddrs = [] ∨ maxVirtualAddrs < record.virtualAddrs.length) .invalidPresence
  failIf (¬ record.virtualAddrs.Nodup) .invalidPresence
  let _ ← record.virtualAddrs.mapM fun address =>
    authorizeEndpointAndAddr snapshot record.memberId record.endpointId address nowMs
  validateCandidates record.candidates
  return record

/-- `EncryptedPresenceRecord::open`. -/
def «open» (r : EncryptedPresenceRecord) (config : ValidatedNetworkConfig) (nowMs : UInt64) :
    Except DiscoveryError PresenceRecord := do
  let snapshot := config.asConfig
  failIf (r.epoch ≠ snapshot.epoch) .wrongEpoch
  let key := derivePresenceKey snapshot.epochSecrets.presenceEncryptionSeed r.epoch r.opaqueKey
  let plaintext ← okOr (Crypto.aeadDecrypt key r.nonce (presenceAad r.epoch r.opaqueKey r.nonce)
    r.ciphertext) .decryptionFailed
  failIf (plaintext.length < signatureLen) .malformedWire
  let payload := plaintext.take (plaintext.length - signatureLen)
  let signature ← (array .malformedWire 64).decode (plaintext.drop (plaintext.length - signatureLen))
  let record ← presenceFields.decode payload
  r.checkOpened snapshot nowMs payload signature record

end EncryptedPresenceRecord

end Weaver
