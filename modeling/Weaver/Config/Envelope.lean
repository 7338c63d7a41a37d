import Weaver.Config.Validate

/-!
# Encrypted configuration envelopes

`EncryptedConfigEnvelope` of `weaver-config`: a signed, encrypted snapshot that names the revision
before it by hash. The content key is wrapped to each member with HPKE, and the wraps are shuffled.
Randomness is an argument: every draw that the source takes from the system is a field of
`SealRandomness`, absent where the system fails.
-/

namespace Weaver

open Checked Wire Wire.Decoder

/-! ## Constants -/

def envelopeMagic : Bytes := utf8 "WVRCFG\x00\x01"

def formatVersion : UInt16 := 1

def maxConfigPlaintext : ℕ := 1024 * 1024

def maxCiphertext : ℕ := maxConfigPlaintext + 32

def maxKeyWraps : ℕ := 256

def maxWrapPart : ℕ := 1024

def hpkeInfo : Bytes := utf8 "weaver.config-key-wrap.v1"

/-! ## Data -/

inductive ConfigError where
  | randomnessUnavailable
  | invalidMemberKey
  | invalidRecipientCount
  | payloadTooLarge
  | encryptionFailed
  | decryptionFailed
  | keyWrapFailed
  | noRecipientWrap
  | malformedWire
  | unsupportedVersion (version : UInt16)
  | wrongNetwork
  | wrongSigner
  | permissionDenied
  | signature (error : CertificateError)
  | chainMismatch
  | payloadHashMismatch
  | envelopePayloadMismatch
  | snapshot (error : SnapshotError)
  | recipientSetMismatch
  | updateBatchTooLarge
deriving DecidableEq

structure KeyWrap where
  encapsulatedKey : Bytes
  ciphertext : Bytes
deriving DecidableEq

structure EncryptedConfigEnvelope where
  formatVersion : UInt16
  networkId : NetworkId
  epoch : UInt64
  revision : UInt64
  previousHash : Bytes32
  payloadHash : Bytes32
  nonce : BytesN 24
  ciphertext : Bytes
  memberKeyWraps : List KeyWrap
  signerKeyId : KeyId
  signedBytes : Bytes
  signature : Signature
deriving DecidableEq

structure ConfigHead where
  epoch : UInt64
  revision : UInt64
  hash : Bytes32
deriving DecidableEq

inductive ChainExpectation where
  | genesis
  | next (head : ConfigHead)
  | checkpoint (head : ConfigHead)
deriving DecidableEq

structure OpenedConfig where
  plaintext : Bytes
  head : ConfigHead

/-- The system's randomness for one sealing: the content key, the nonce, the ephemeral key of each
wrap and the draws of the shuffle. -/
structure SealRandomness where
  contentKey : Option Bytes32
  nonce : Option (BytesN 24)
  ephemeral : ℕ → Bytes32
  draw : ℕ → Option UInt64

/-! ## Wire format -/

def KeyWrap.encode (wrap : KeyWrap) : Except ConfigError Bytes := do
  failIf (2^16 ≤ wrap.encapsulatedKey.length ∨ 2^16 ≤ wrap.ciphertext.length) .malformedWire
  return be16 (UInt16.ofNat wrap.encapsulatedKey.length) ++ wrap.encapsulatedKey ++
    be16 (UInt16.ofNat wrap.ciphertext.length) ++ wrap.ciphertext

def EncryptedConfigEnvelope.encodeSignedBytes (e : EncryptedConfigEnvelope) :
    Except ConfigError Bytes := do
  failIf (2^32 ≤ e.ciphertext.length ∨ 2^16 ≤ e.memberKeyWraps.length) .malformedWire
  let wraps ← e.memberKeyWraps.mapM KeyWrap.encode
  return [envelopeMagic, be16 e.formatVersion, e.networkId.asBytes.val, be64 e.epoch,
    be64 e.revision, e.previousHash.val, e.payloadHash.val, e.nonce.val,
    be32 (UInt32.ofNat e.ciphertext.length), e.ciphertext,
    be16 (UInt16.ofNat e.memberKeyWraps.length), wraps.flatten, e.signerKeyId.val].flatten

def keyWrapItem : Decoder ConfigError KeyWrap := do
  let encLen ← u16 .malformedWire
  lift (failIf (encLen.toNat = 0 ∨ maxWrapPart < encLen.toNat) .malformedWire)
  let encapsulatedKey ← take .malformedWire encLen.toNat
  let wrappedLen ← u16 .malformedWire
  lift (failIf (wrappedLen.toNat = 0 ∨ maxWrapPart < wrappedLen.toNat) .malformedWire)
  let ciphertext ← take .malformedWire wrappedLen.toNat
  return { encapsulatedKey, ciphertext }

def envelopeFields (signedBytes : Bytes) (signature : Signature) :
    Decoder ConfigError EncryptedConfigEnvelope := do
  magic .malformedWire envelopeMagic
  let version ← u16 .malformedWire
  lift (failIf (version ≠ formatVersion) (.unsupportedVersion version))
  let networkId ← array .malformedWire 32
  let epoch ← u64 .malformedWire
  let revision ← u64 .malformedWire
  let previousHash ← array .malformedWire 32
  let payloadHash ← array .malformedWire 32
  let nonce ← array .malformedWire 24
  let ciphertextLen ← u32 .malformedWire
  lift (failIf (maxCiphertext < ciphertextLen.toNat) .payloadTooLarge)
  let ciphertext ← take .malformedWire ciphertextLen.toNat
  let wrapCount ← u16 .malformedWire
  lift (failIf (wrapCount.toNat = 0 ∨ maxKeyWraps < wrapCount.toNat) .invalidRecipientCount)
  let memberKeyWraps ← many wrapCount.toNat keyWrapItem
  let signerKeyId ← array .malformedWire 16
  finish .malformedWire
  return { formatVersion := version, networkId := ⟨networkId⟩, epoch, revision, previousHash,
           payloadHash, nonce, ciphertext, memberKeyWraps, signerKeyId, signedBytes, signature }

theorem length_signature {bytes : Bytes} (h : signatureLen ≤ bytes.length) :
    (bytes.drop (bytes.length - signatureLen)).length = 64 := by
  rw [List.length_drop, Nat.sub_sub_self h, signatureLen]

def EncryptedConfigEnvelope.fromBytes (bytes : Bytes) :
    Except ConfigError EncryptedConfigEnvelope :=
  if h : signatureLen ≤ bytes.length then
    let signedBytes := bytes.take (bytes.length - signatureLen)
    let signature : Signature := ⟨bytes.drop (bytes.length - signatureLen), length_signature h⟩
    (envelopeFields signedBytes signature).decode signedBytes
  else .error .malformedWire

def EncryptedConfigEnvelope.toBytes (e : EncryptedConfigEnvelope) : Bytes :=
  e.signedBytes ++ e.signature.val

def envelopeAad (networkId : NetworkId) (epoch revision : UInt64)
    (previousHash payloadHash : Bytes32) : Bytes :=
  utf8 "WVRCFGA\x01" ++ networkId.asBytes.val ++ be64 epoch ++ be64 revision ++
    previousHash.val ++ payloadHash.val

def EncryptedConfigEnvelope.aad (e : EncryptedConfigEnvelope) : Bytes :=
  envelopeAad e.networkId e.epoch e.revision e.previousHash e.payloadHash

/-! ## Shuffling -/

/-- The loop of `shuffle`, at the indices `i, …, 1`. -/
def shuffleFrom {α : Type} (draw : ℕ → Option UInt64) : ℕ → Array α → Except ConfigError (Array α)
  | 0, items => .ok items
  | i + 1, items => do
    let random ← okOr (draw (i + 1)) .randomnessUnavailable
    let selected := random.toNat % (i + 1 + 1)
    shuffleFrom draw i (items.swapIfInBounds (i + 1) selected)

def shuffle {α : Type} (draw : ℕ → Option UInt64) (items : List α) :
    Except ConfigError (List α) :=
  (shuffleFrom draw (items.length - 1) items.toArray).map Array.toList

variable [Crypto]

def EncryptedConfigEnvelope.envelopeHash (e : EncryptedConfigEnvelope) : Bytes32 := hash e.toBytes

def EncryptedConfigEnvelope.head (e : EncryptedConfigEnvelope) : ConfigHead where
  epoch := e.epoch
  revision := e.revision
  hash := e.envelopeHash

structure OpenedNetworkConfig where
  config : ValidatedNetworkConfig
  head : ConfigHead

/-! ## Member keys and wraps -/

/-- `MemberEncryptionKeypair`: a secret key that the KEM accepts, with its public key. -/
structure MemberEncryptionKeypair where
  secretBytes : Bytes32
  publicBytes : Bytes32
  valid : Crypto.validKemSecret secretBytes = true
  public_eq : publicBytes = Crypto.kemPublic secretBytes

def MemberEncryptionKeypair.fromSecretBytes (secret : Bytes32) :
    Except ConfigError MemberEncryptionKeypair :=
  if h : Crypto.validKemSecret secret = true then
    .ok ⟨secret, Crypto.kemPublic secret, h, rfl⟩
  else .error .invalidMemberKey

theorem MemberEncryptionKeypair.fromSecretBytes_eq_ok {secret : Bytes32}
    {k : MemberEncryptionKeypair} :
    MemberEncryptionKeypair.fromSecretBytes secret = .ok k ↔ k.secretBytes = secret := by
  constructor
  · intro h
    unfold MemberEncryptionKeypair.fromSecretBytes at h
    split at h
    · rw [← Except.ok.inj h]
    · cases h
  · intro h
    obtain ⟨_, _, hvalid, rfl⟩ := k
    subst h
    unfold MemberEncryptionKeypair.fromSecretBytes
    rw [dif_pos hvalid]

theorem MemberEncryptionKeypair.eq_of_secretBytes {k k' : MemberEncryptionKeypair}
    (h : k'.secretBytes = k.secretBytes) : k' = k := by
  have hread := MemberEncryptionKeypair.fromSecretBytes_eq_ok.mpr h
  rw [MemberEncryptionKeypair.fromSecretBytes_eq_ok.mpr rfl] at hread
  exact (Except.ok.inj hread).symm

def wrapContentKey (recipientPublic ephemeral contentKey : Bytes32) (aad : Bytes) :
    Except ConfigError KeyWrap := do
  failIf (Crypto.validKemPublic recipientPublic = false) .invalidMemberKey
  let sealed ← okOr (Crypto.hpkeSeal recipientPublic ephemeral hpkeInfo aad contentKey.val)
    .keyWrapFailed
  return { encapsulatedKey := sealed.1, ciphertext := sealed.2 }

/-- `unwrap_content_key`; its caller does not look at the error. -/
def unwrapContentKey (recipient : MemberEncryptionKeypair) (wrap : KeyWrap) (aad : Bytes) :
    Option Bytes32 := do
  let opened ← Crypto.hpkeOpen recipient.secretBytes wrap.encapsulatedKey hpkeInfo aad
    wrap.ciphertext
  if h : opened.length = 32 then some ⟨opened, h⟩ else none

def validateRecipientSet (config : NetworkConfigV1) (recipients : List Bytes32) :
    Except ConfigError Unit := do
  let expected ← config.members.mapM fun raw =>
    ((MemberCertificate.fromBytes raw).map fun certificate =>
      certificate.payload.encryptionPublicKey).mapError .signature
  failIf (expected.dedup.length ≠ config.members.length ∨
    recipients.dedup.length ≠ recipients.length ∨
    ¬ (expected ⊆ recipients ∧ recipients ⊆ expected)) .recipientSetMismatch

/-! ## Sealing -/

def EncryptedConfigEnvelope.sealWithSigner (networkId : NetworkId) (signerKeyId : KeyId)
    (sign : Bytes → Signature) (epoch revision : UInt64) (previousHash : Bytes32)
    (plaintext : Bytes) (recipients : List Bytes32) (random : SealRandomness) :
    Except ConfigError EncryptedConfigEnvelope := do
  failIf (maxConfigPlaintext < plaintext.length) .payloadTooLarge
  failIf (recipients = [] ∨ maxKeyWraps < recipients.length) .invalidRecipientCount
  let payloadHash := hash plaintext
  let contentKey ← okOr random.contentKey .randomnessUnavailable
  let nonce ← okOr random.nonce .randomnessUnavailable
  let aad := envelopeAad networkId epoch revision previousHash payloadHash
  let ciphertext ← okOr (Crypto.aeadEncrypt contentKey nonce aad plaintext) .encryptionFailed
  let wraps ← recipients.zipIdx.mapM fun (recipient, i) =>
    wrapContentKey recipient (random.ephemeral i) contentKey aad
  let memberKeyWraps ← shuffle random.draw wraps
  let envelope : EncryptedConfigEnvelope :=
    { formatVersion := Weaver.formatVersion, networkId, epoch, revision, previousHash,
      payloadHash, nonce, ciphertext, memberKeyWraps, signerKeyId, signedBytes := [],
      signature := zeroes 64 }
  let signedBytes ← envelope.encodeSignedBytes
  return { envelope with signedBytes, signature := sign signedBytes }

/-- `EncryptedConfigEnvelope::seal`, by the network root. -/
def EncryptedConfigEnvelope.sealByRoot (root : NetworkRootKey) (epoch revision : UInt64)
    (previousHash : Bytes32) (plaintext : Bytes) (recipients : List Bytes32)
    (random : SealRandomness) : Except ConfigError EncryptedConfigEnvelope :=
  sealWithSigner root.public.networkId root.public.keyId root.sign epoch revision previousHash
    plaintext recipients random

/-- `EncryptedConfigEnvelope::seal_config`, of the genesis snapshot. -/
def EncryptedConfigEnvelope.sealConfig (root : NetworkRootKey) (config : NetworkConfigV1)
    (recipients : List Bytes32) (random : SealRandomness) :
    Except ConfigError EncryptedConfigEnvelope := do
  let _ ← (config.validate root.public root.public.networkId config.issuedAtMs).mapError .snapshot
  validateRecipientSet config recipients
  let plaintext ← config.toBytes.mapError .snapshot
  sealByRoot root config.epoch config.revision config.previousHash plaintext recipients random

def EncryptedConfigEnvelope.sealNextConfig (root : NetworkRootPublic) (admin : OnlineAdminKey)
    (currentConfig : ValidatedNetworkConfig) (currentHead : ConfigHead)
    (nextConfig : NetworkConfigV1) (recipients : List Bytes32) (nowMs : UInt64)
    (random : SealRandomness) : Except ConfigError EncryptedConfigEnvelope := do
  failIf (currentConfig.asConfig.networkId ≠ root.networkId ∨
    currentConfig.asConfig.revision ≠ currentHead.revision ∨
    currentConfig.asConfig.epoch ≠ currentHead.epoch) .envelopePayloadMismatch
  let verifiedAdmin ← (currentConfig.verifiedAdmin root admin.keyId nowMs).mapError .snapshot
  failIf (verifiedAdmin.payload.publicKey ≠ admin.publicBytes) .wrongSigner
  failIf (verifiedAdmin.payload.permissions &&& adminPermissionConfigWrite = 0) .permissionDenied
  failIf (nextConfig.networkId ≠ root.networkId) .chainMismatch
  let nextRevision ← okOr (checkedAdd currentHead.revision 1) .chainMismatch
  failIf (nextConfig.revision ≠ nextRevision ∨ nextConfig.previousHash ≠ currentHead.hash ∨
    nextConfig.epoch < currentHead.epoch) .chainMismatch
  let _ ← (nextConfig.validate root root.networkId nextConfig.issuedAtMs).mapError .snapshot
  validateRecipientSet nextConfig recipients
  let plaintext ← nextConfig.toBytes.mapError .snapshot
  sealWithSigner root.networkId admin.keyId admin.sign nextConfig.epoch nextConfig.revision
    nextConfig.previousHash plaintext recipients random

/-! ## Opening -/

def validateChain (e : EncryptedConfigEnvelope) : ChainExpectation → Except ConfigError Unit
  | .genesis => failIf (¬ (e.revision = 0 ∧ e.previousHash = zeroes 32)) .chainMismatch
  | .next head =>
    failIf (¬ (checkedAdd head.revision 1 = some e.revision ∧ e.previousHash = head.hash ∧
      head.epoch ≤ e.epoch)) .chainMismatch
  | .checkpoint head =>
    failIf (¬ (e.epoch = head.epoch ∧ e.revision = head.revision ∧ e.envelopeHash = head.hash))
      .chainMismatch

def EncryptedConfigEnvelope.openAfterVerifiedSignature (e : EncryptedConfigEnvelope)
    (expectedNetwork : NetworkId) (recipient : MemberEncryptionKeypair)
    (chain : ChainExpectation) : Except ConfigError OpenedConfig := do
  failIf (e.networkId ≠ expectedNetwork) .wrongNetwork
  validateChain e chain
  let contentKey ← okOr (e.memberKeyWraps.findSome? fun wrap =>
    unwrapContentKey recipient wrap e.aad) .noRecipientWrap
  let plaintext ← okOr (Crypto.aeadDecrypt contentKey e.nonce e.aad e.ciphertext)
    .decryptionFailed
  failIf (hash plaintext ≠ e.payloadHash) .payloadHashMismatch
  return { plaintext, head := e.head }

/-- `EncryptedConfigEnvelope::open`, of an envelope that the root signed. -/
def EncryptedConfigEnvelope.openByRoot (e : EncryptedConfigEnvelope) (root : NetworkRootPublic)
    (expectedNetwork : NetworkId) (recipient : MemberEncryptionKeypair)
    (chain : ChainExpectation) : Except ConfigError OpenedConfig := do
  failIf (e.networkId ≠ expectedNetwork ∨ root.networkId ≠ expectedNetwork) .wrongNetwork
  failIf (e.signerKeyId ≠ root.keyId) .wrongSigner
  (root.verifyBytes e.signedBytes e.signature).mapError .signature
  e.openAfterVerifiedSignature expectedNetwork recipient chain

def EncryptedConfigEnvelope.decodeAndValidateOpened (e : EncryptedConfigEnvelope)
    (root : NetworkRootPublic) (opened : OpenedConfig) (nowMs : UInt64) :
    Except ConfigError OpenedNetworkConfig := do
  let config ← (NetworkConfigV1.fromBytes opened.plaintext).mapError .snapshot
  failIf (config.networkId ≠ e.networkId ∨ config.epoch ≠ e.epoch ∨
    config.revision ≠ e.revision ∨ config.previousHash ≠ e.previousHash) .envelopePayloadMismatch
  let config ← (config.validate root e.networkId nowMs).mapError .snapshot
  return { config, head := opened.head }

def EncryptedConfigEnvelope.openConfig (e : EncryptedConfigEnvelope) (root : NetworkRootPublic)
    (expectedNetwork : NetworkId) (recipient : MemberEncryptionKeypair)
    (chain : ChainExpectation) (nowMs : UInt64) : Except ConfigError OpenedNetworkConfig := do
  let opened ← e.openByRoot root expectedNetwork recipient chain
  e.decodeAndValidateOpened root opened nowMs

def EncryptedConfigEnvelope.openConfigWithVerifiedAdmin (e : EncryptedConfigEnvelope)
    (root : NetworkRootPublic) (admin : VerifiedAdmin) (recipient : MemberEncryptionKeypair)
    (chain : ChainExpectation) (nowMs : UInt64) : Except ConfigError OpenedNetworkConfig := do
  failIf (root.networkId ≠ e.networkId ∨ admin.payload.networkId ≠ e.networkId) .wrongNetwork
  failIf (e.signerKeyId ≠ admin.payload.keyId) .wrongSigner
  failIf (admin.payload.permissions &&& adminPermissionConfigWrite = 0) .permissionDenied
  (admin.verifyBytes e.signedBytes e.signature).mapError .signature
  let opened ← e.openAfterVerifiedSignature e.networkId recipient chain
  e.decodeAndValidateOpened root opened nowMs

def EncryptedConfigEnvelope.openNextConfig (e : EncryptedConfigEnvelope)
    (root : NetworkRootPublic) (currentConfig : ValidatedNetworkConfig)
    (recipient : MemberEncryptionKeypair) (currentHead : ConfigHead) (nowMs : UInt64) :
    Except ConfigError OpenedNetworkConfig := do
  failIf (root.networkId ≠ e.networkId ∨ currentConfig.asConfig.networkId ≠ e.networkId)
    .wrongNetwork
  let admin ← (currentConfig.verifiedAdmin root e.signerKeyId nowMs).mapError .snapshot
  e.openConfigWithVerifiedAdmin root admin recipient (.next currentHead) nowMs

end Weaver
