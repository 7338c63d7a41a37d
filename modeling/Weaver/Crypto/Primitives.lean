import Weaver.Core.Ident

/-!
# Cryptographic primitives and keys

The primitives of the third-party crates are the operations of a class: BLAKE3, Ed25519, HPKE over
X25519, XChaCha20-Poly1305, and the keys and URLs of the transport. The class states what their
documentation promises of honest use (a signature made with a key verifies under it, what was
sealed for a key opens with it, the lengths of ciphertexts). What an ideal primitive denies to
everyone else is never part of it: results that rest on unforgeability, on collision freedom or on
the secrecy of a wrap take that as a hypothesis of their own.

Over the primitives stand the keys of `weaver-crypto` and the identities it derives from them.
-/

namespace Weaver

open Checked Wire

abbrev Bytes32 := BytesN 32

abbrev KeyId := BytesN 16

abbrev Signature := BytesN 64

/-- The primitives of the third-party crates, with what honest use of them is promised. -/
class Crypto where
  /-- `blake3::hash`. -/
  hash : Bytes → Bytes32
  /-- `blake3::derive_key`, of a context and the key material. -/
  deriveKey : String → Bytes → Bytes32
  /-- The Ed25519 public key of a secret key. -/
  verifyingKey : Bytes32 → Bytes32
  /-- Whether `VerifyingKey::from_bytes` accepts the bytes. -/
  validKey : Bytes32 → Bool
  /-- Ed25519 signing, with a secret key. -/
  sign : Bytes32 → Bytes → Signature
  /-- Ed25519 verification, under a public key. -/
  verify : Bytes32 → Bytes → Signature → Bool
  /-- Whether the KEM's `PrivateKey::from_bytes` accepts the bytes. -/
  validKemSecret : Bytes32 → Bool
  /-- Whether the KEM's `PublicKey::from_bytes` accepts the bytes. -/
  validKemPublic : Bytes32 → Bool
  /-- The KEM's `sk_to_pk`. -/
  kemPublic : Bytes32 → Bytes32
  /-- HPKE sealing to a public key: `setup_sender`, with its ephemeral randomness, and `seal`, of
  the info, the associated data and the message. It gives the encapsulated key and the
  ciphertext. -/
  hpkeSeal : Bytes32 → Bytes32 → Bytes → Bytes → Bytes → Option (Bytes × Bytes)
  /-- HPKE opening with a secret key: `setup_receiver` and `open`, of the encapsulated key, the
  info, the associated data and the ciphertext. -/
  hpkeOpen : Bytes32 → Bytes → Bytes → Bytes → Bytes → Option Bytes
  /-- XChaCha20-Poly1305 encryption, of the key, the nonce, the associated data and the message. -/
  aeadEncrypt : Bytes32 → BytesN 24 → Bytes → Bytes → Option Bytes
  /-- XChaCha20-Poly1305 decryption, of the key, the nonce, the associated data and the
  ciphertext. -/
  aeadDecrypt : Bytes32 → BytesN 24 → Bytes → Bytes → Option Bytes
  /-- The endpoint identifier of a transport secret key. -/
  endpointPublic : Bytes32 → Bytes32
  /-- Whether the bytes are an endpoint identifier. -/
  validEndpoint : Bytes32 → Bool
  /-- Whether the text parses as a relay URL. -/
  relayUrl : String → Bool
  /-- The public key of a secret key is a valid key. -/
  validKey_verifyingKey : ∀ s, validKey (verifyingKey s) = true
  /-- The identifier of an endpoint's secret key is one. -/
  validEndpoint_endpointPublic : ∀ s, validEndpoint (endpointPublic s) = true
  /-- What was signed with a secret key verifies under its public key. -/
  verify_sign : ∀ s m, verify (verifyingKey s) m (sign s m) = true
  /-- What was sealed to a public key opens with its secret key. -/
  hpke_open_seal : ∀ s e info aad m enc c, hpkeSeal (kemPublic s) e info aad m = some (enc, c) →
    hpkeOpen s enc info aad c = some m
  /-- An encapsulated key has 32 bytes, and the ciphertext of a wrap its tag's 16 bytes more than
  the message. -/
  hpke_length : ∀ pk e info aad m enc c, hpkeSeal pk e info aad m = some (enc, c) →
    enc.length = 32 ∧ c.length = m.length + 16
  /-- What was encrypted decrypts. -/
  aead_decrypt_encrypt : ∀ k n aad m c, aeadEncrypt k n aad m = some c →
    aeadDecrypt k n aad c = some m
  /-- A ciphertext has its tag's 16 bytes more than the message. -/
  aead_length : ∀ k n aad m c, aeadEncrypt k n aad m = some c → c.length = m.length + 16

export Crypto (hash deriveKey verifyingKey validKey)

def HpkeIdeal [Crypto] : Prop :=
  ∀ s pk e info aad m enc c, Crypto.hpkeSeal pk e info aad m = some (enc, c) →
    Crypto.kemPublic s ≠ pk → Crypto.hpkeOpen s enc info aad c = none

/-! ## Errors -/

inductive CertificateError where
  | randomnessUnavailable
  | malformedKey
  | malformedWire
  | invalidSignature
  | wrongNetwork
  | wrongIssuer
  | notYetValid
  | expired
  | revoked
  | derivedIdentityMismatch
  | keyMismatch
  | bindingMismatch
  | invalidValidityWindow
  | invalidAppRole
  | tooManyServices
  | permissionDenied
deriving DecidableEq, Repr

variable [Crypto]

/-! ## Endpoints -/

/-- `EndpointId`: bytes that are the public key of an endpoint. -/
structure EndpointId where
  asBytes : Bytes32
  valid : Crypto.validEndpoint asBytes = true
deriving DecidableEq

def EndpointId.fromBytes (bytes : Bytes32) : Option EndpointId :=
  if h : Crypto.validEndpoint bytes = true then some ⟨bytes, h⟩ else none

theorem EndpointId.fromBytes_eq_some {bytes : Bytes32} {endpoint : EndpointId} :
    EndpointId.fromBytes bytes = some endpoint ↔ endpoint.asBytes = bytes := by
  obtain ⟨asBytes, valid⟩ := endpoint
  unfold EndpointId.fromBytes
  constructor
  · intro h
    split at h
    · injection h with h
      injection h with h
      exact h.symm
    · cases h
  · intro h
    obtain rfl : asBytes = bytes := h
    rw [dif_pos valid]

/-! ## Derived identities -/

def deriveNetworkId (rootPublicKey : Bytes32) : NetworkId :=
  ⟨deriveKey "weaver.network.v1" rootPublicKey.val⟩

def deriveMemberId (networkId : NetworkId) (signingPublicKey : Bytes32) : MemberId :=
  ⟨deriveKey "weaver.member.v1" (networkId.asBytes.val ++ signingPublicKey.val)⟩

def deriveAppAddr (appRootPublicKey : Bytes32) : AppAddr :=
  ⟨deriveKey "weaver.app.v1" appRootPublicKey.val⟩

def deriveDeviceId (networkId : NetworkId) (appAddr : AppAddr) (memberSigningPublicKey : Bytes32) :
    DeviceId :=
  ⟨deriveKey "weaver.device.v1"
    (networkId.asBytes.val ++ appAddr.asBytes.val ++ memberSigningPublicKey.val)⟩

/-- `derive_key_id`: the first 16 bytes of the derived key. -/
def deriveKeyId (context : String) (key : Bytes32) : KeyId :=
  ⟨(deriveKey context key.val).val.take 16, by
    rw [List.length_take, (deriveKey context key.val).property]
    rfl⟩

def onlineAdminKeyIdContext : String := "weaver.online-admin-key-id.v1"

def networkRootKeyIdContext : String := "weaver.network-root-key-id.v1"

/-! ## Signatures and time -/

def verifySignature (key : Bytes32) (payload : Bytes) (signature : Signature) :
    Except CertificateError Unit :=
  failIf (Crypto.verify key payload signature = false) .invalidSignature

/-- `VerifyingKey::from_bytes`, with the source's error. -/
def verifyingKeyFromBytes (bytes : Bytes32) : Except CertificateError Unit :=
  failIf (validKey bytes = false) .malformedKey

omit [Crypto] in
def validateTime (notBefore expires now : UInt64) : Except CertificateError Unit := do
  failIf (now < notBefore) .notYetValid
  failIf (expires ≤ now) .expired

variable {u : Unit}

@[simp]
theorem verifySignature_eq_ok {key : Bytes32} {payload : Bytes} {signature : Signature} :
    verifySignature key payload signature = .ok u ↔ Crypto.verify key payload signature = true := by
  simp [verifySignature]

@[simp]
theorem verifyingKeyFromBytes_eq_ok {bytes : Bytes32} :
    verifyingKeyFromBytes bytes = .ok u ↔ validKey bytes = true := by
  simp [verifyingKeyFromBytes]

omit [Crypto] in
@[simp]
theorem validateTime_eq_ok {notBefore expires now : UInt64} :
    validateTime notBefore expires now = .ok u ↔ notBefore ≤ now ∧ now < expires := by
  simp [validateTime, bind_eq_ok]

/-! ## Keys -/

structure SigningKeypair where
  toBytes : Bytes32

def SigningKeypair.publicBytes (k : SigningKeypair) : Bytes32 := verifyingKey k.toBytes

def SigningKeypair.sign (k : SigningKeypair) (payload : Bytes) : Signature :=
  Crypto.sign k.toBytes payload

/-- `SigningKeypair::generate`, from the bytes the system's randomness gave, if any. -/
def SigningKeypair.generate (random : Option Bytes32) : Except CertificateError SigningKeypair :=
  (okOr random .randomnessUnavailable).map fun bytes => ⟨bytes⟩

/-- `NetworkRootPublic`: the root's public key with the identities derived from it. -/
structure NetworkRootPublic where
  verifyingKey : Bytes32
  networkId : NetworkId
  keyId : KeyId
  valid : validKey verifyingKey = true
  networkId_eq : networkId = deriveNetworkId verifyingKey
  keyId_eq : keyId = deriveKeyId networkRootKeyIdContext verifyingKey

def NetworkRootPublic.fromBytes (bytes : Bytes32) : Except CertificateError NetworkRootPublic :=
  if h : validKey bytes = true then
    .ok
      { verifyingKey := bytes
        networkId := deriveNetworkId bytes
        keyId := deriveKeyId networkRootKeyIdContext bytes
        valid := h
        networkId_eq := rfl
        keyId_eq := rfl }
  else .error .malformedKey

def NetworkRootPublic.verifyBytes (root : NetworkRootPublic) (payload : Bytes)
    (signature : Signature) : Except CertificateError Unit :=
  verifySignature root.verifyingKey payload signature

theorem NetworkRootPublic.ext_key {r s : NetworkRootPublic} (h : r.verifyingKey = s.verifyingKey) :
    r = s := by
  obtain ⟨rk, rn, rid, rv, rfl, rfl⟩ := r
  obtain ⟨sk, sn, sid, sv, rfl, rfl⟩ := s
  subst h
  rfl

@[simp]
theorem NetworkRootPublic.fromBytes_verifyingKey (root : NetworkRootPublic) :
    NetworkRootPublic.fromBytes root.verifyingKey = .ok root := by
  rw [NetworkRootPublic.fromBytes, dif_pos root.valid]
  exact congrArg Except.ok (NetworkRootPublic.ext_key rfl)

structure NetworkRootKey extends SigningKeypair

/-- `NetworkRootKey::public`; the source's `expect` cannot fail, since the key is a public key. -/
def NetworkRootKey.public (root : NetworkRootKey) : NetworkRootPublic where
  verifyingKey := root.publicBytes
  networkId := deriveNetworkId root.publicBytes
  keyId := deriveKeyId networkRootKeyIdContext root.publicBytes
  valid := Crypto.validKey_verifyingKey _
  networkId_eq := rfl
  keyId_eq := rfl

/-- `OnlineAdminKey`: the authority's key for ordinary configuration commits. -/
structure OnlineAdminKey extends SigningKeypair

def OnlineAdminKey.keyId (admin : OnlineAdminKey) : KeyId :=
  deriveKeyId onlineAdminKeyIdContext admin.publicBytes

structure AppRootKey extends SigningKeypair

def AppRootKey.appAddr (app : AppRootKey) : AppAddr := deriveAppAddr app.publicBytes

@[simp]
theorem SigningKeypair.verify_sign (k : SigningKeypair) (payload : Bytes) :
    Crypto.verify k.publicBytes payload (k.sign payload) = true :=
  Crypto.verify_sign _ _

@[simp]
theorem SigningKeypair.validKey_publicBytes (k : SigningKeypair) :
    validKey k.publicBytes = true :=
  Crypto.validKey_verifyingKey _

end Weaver
