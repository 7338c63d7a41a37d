import Weaver.Authority.Operations

/-!
# Invitations

Signed one-time invitations of `weaver-relay-core`. The record of an invitation holds the issued
bundle until it is redeemed, and from then on the hash of the redeeming request with the ticket that
it got. Redeeming commits the new member, its bindings, the new head and the consumed invitation in
one batch; a retry with the same request gets the same ticket from the record.
-/

namespace Weaver

open Checked Wire Program

/-! ## Constants and keys -/

def invitationMagic : Bytes := utf8 "WVRINV\x00\x01"

def consumedMagic : Bytes := utf8 "WVRUSE\x00\x01"

def maxDirectAddresses : ℕ := 8

def invitationKeyPrefix : Bytes := utf8 "authority/invitation/v1/"

theorem invitationKeyPrefix_length : invitationKeyPrefix.length = 24 := by decide

def invitationKey (invitationId : Bytes32) : StoreKey where
  asBytes := invitationKeyPrefix ++ invitationId.val
  valid := by
    rw [List.length_append, invitationKeyPrefix_length, invitationId.property]
    decide

/-! ## Bundles -/

/-- A socket address, by the text that it prints as: an address in brackets, a scope and a port take
at most 58 bytes. -/
structure SocketAddr where
  text : String
  short : 0 < (utf8 text).length ∧ (utf8 text).length ≤ 58
deriving DecidableEq

/-- `InvitationBundle`; all fields but the signed bytes and the signature are public, so a bundle's
fields need not be the ones that its signed bytes encode. -/
structure InvitationBundle where
  invitationId : Bytes32
  networkId : NetworkId
  rootPublicKey : Bytes32
  bootstrapEndpointId : Bytes32
  bootstrapDirectAddresses : List SocketAddr
  bootstrapRelay : Option String
  clientAppAddr : AppAddr
  serviceName : VirtualName
  expiresAtMs : UInt64
  adminCertificate : Bytes
  signerKeyId : KeyId
  signedBytes : Bytes
  signature : Signature
deriving DecidableEq

def pushBlob (value : Bytes) : Except AuthorityError Bytes := do
  failIf (2^16 ≤ value.length) .invalidInvitation
  return be16 (UInt16.ofNat value.length) ++ value

def pushString (value : String) : Except AuthorityError Bytes := pushBlob (utf8 value)

/-- The part of `encode_signed` that writes the optional relay. -/
def pushRelay : Option String → Except AuthorityError Bytes
  | some relay => (pushString relay).map fun bytes => 1 :: bytes
  | none => .ok [0]

def InvitationBundle.encodeSigned (b : InvitationBundle) : Except AuthorityError Bytes := do
  failIf (2^8 ≤ b.bootstrapDirectAddresses.length) .invalidInvitation
  let addresses ← b.bootstrapDirectAddresses.mapM fun address => pushString address.text
  let relay ← pushRelay b.bootstrapRelay
  let serviceName ← pushString b.serviceName.asStr
  let adminCertificate ← pushBlob b.adminCertificate
  return invitationMagic ++ b.invitationId.val ++ b.networkId.asBytes.val ++ b.rootPublicKey.val ++
    b.bootstrapEndpointId.val ++ [UInt8.ofNat b.bootstrapDirectAddresses.length] ++
    addresses.flatten ++ relay ++ b.clientAppAddr.asBytes.val ++ serviceName ++
    be64 b.expiresAtMs ++ adminCertificate ++ b.signerKeyId.val

def InvitationBundle.toBytes (b : InvitationBundle) : Bytes := b.signedBytes ++ b.signature.val

/-! ## Consumed invitations -/

def isConsumed (bytes : Bytes) : Bool := consumedMagic.isPrefixOf bytes

def encodeConsumed (requestHash : Bytes32) (ticket : JoinTicket) : Except AuthorityError Bytes := do
  failIf (2^32 ≤ ticket.toBytes.length) .invalidJoinTicket
  return consumedMagic ++ requestHash.val ++ be32 (UInt32.ofNat ticket.toBytes.length) ++
    ticket.toBytes

def decodeConsumed (bytes : Bytes) (expectedRequestHash : Bytes32) :
    Except AuthorityError JoinTicket := do
  failIf (bytes.length < consumedMagic.length + 32 + 4 ∨
    bytes.take consumedMagic.length ≠ consumedMagic) .invalidInvitation
  let rest := bytes.drop consumedMagic.length
  failIf (rest.take 32 ≠ expectedRequestHash.val) .invitationAlreadyUsed
  let ticketLen := ofBe ((rest.drop 32).take 4)
  let ticket := (rest.drop 32).drop 4
  failIf (ticket.length ≠ ticketLen) .invalidInvitation
  JoinTicket.fromBytes ticket

theorem decodeConsumed_encodeConsumed {requestHash : Bytes32} {ticket : JoinTicket} {bytes : Bytes}
    (h : encodeConsumed requestHash ticket = .ok bytes)
    (hticket : JoinTicket.fromBytes ticket.toBytes = .ok ticket) :
    decodeConsumed bytes requestHash = .ok ticket := by
  unfold encodeConsumed at h
  simp only [bind_eq_ok, failIf_eq_ok, not_le, exists_and_left, exists_const, pure_eq_ok_iff] at h
  obtain ⟨hlt, rfl⟩ := h
  have hlength : ofBe (be32 (UInt32.ofNat ticket.toBytes.length)) = ticket.toBytes.length := by
    unfold be32
    rw [ofBe_toBe, UInt32.toNat_ofNat_of_lt' hlt]
    exact Nat.mod_eq_of_lt hlt
  -- the bytes after the magic, and those after the hash
  have hrest : ∀ rest : Bytes, (consumedMagic ++ requestHash.val ++ rest).drop consumedMagic.length =
      requestHash.val ++ rest := by
    intro rest
    rw [List.append_assoc, List.drop_left]
  have htake : ∀ rest : Bytes, (consumedMagic ++ requestHash.val ++ rest).take consumedMagic.length =
      consumedMagic := by
    intro rest
    rw [List.append_assoc, List.take_left]
  have htail : ∀ rest : Bytes, (requestHash.val ++ rest).drop 32 = rest :=
    fun rest => List.drop_left' requestHash.property
  unfold decodeConsumed
  simp only [List.append_assoc _ (be32 _), hrest, htake, htail, List.take_left' requestHash.property,
    List.take_left' (be32_length _), List.drop_left' (be32_length _), hlength]
  rw [failIf_neg, ok_bind, failIf_neg (not_not_intro rfl), ok_bind,
    failIf_neg (not_not_intro rfl), ok_bind, hticket]
  rw [not_or]
  refine ⟨?_, not_not_intro rfl⟩
  simp only [List.length_append, requestHash.property, be32_length]
  omega

variable [Crypto]

def enrollmentSecretId (networkId : NetworkId) (appAddr : AppAddr) : SecretId :=
  deriveKey "weaver.authority.enrollment-app-root.v1"
    (networkId.asBytes.val ++ appAddr.asBytes.val)

def InvitationBundle.issue (authority : Authority) (invitationId : Bytes32)
    (bootstrapEndpoint : EndpointId) (bootstrapDirectAddresses : List SocketAddr)
    (bootstrapRelay : Option String) (clientAppAddr : AppAddr) (serviceName : VirtualName)
    (expiresAtMs : UInt64) : Except AuthorityError InvitationBundle := do
  let invitation : InvitationBundle :=
    { invitationId, networkId := authority.status.networkId,
      rootPublicKey := authority.rootPublic.verifyingKey,
      bootstrapEndpointId := bootstrapEndpoint.asBytes, bootstrapDirectAddresses, bootstrapRelay,
      clientAppAddr, serviceName, expiresAtMs, adminCertificate := authority.adminCertificate,
      signerKeyId := authority.onlineAdmin.keyId, signedBytes := [], signature := zeroes 64 }
  let signedBytes ← invitation.encodeSigned
  return { invitation with signedBytes, signature := authority.onlineAdmin.sign signedBytes }

def InvitationBundle.verify (b : InvitationBundle) (expectedRoot : NetworkRootPublic)
    (nowMs : UInt64) : Except AuthorityError Unit := do
  failIf (b.rootPublicKey ≠ expectedRoot.verifyingKey ∨ b.networkId ≠ expectedRoot.networkId ∨
    b.expiresAtMs ≤ nowMs ∨ Crypto.validEndpoint b.bootstrapEndpointId = false) .invalidInvitation
  let certificate ← (AdminCertificate.fromBytes b.adminCertificate).mapError .crypto
  let admin ← (certificate.verify expectedRoot b.networkId nowMs []).mapError .crypto
  failIf (admin.payload.keyId ≠ b.signerKeyId) .invalidInvitation
  (admin.verifyBytes b.signedBytes b.signature).mapError .crypto

/-! ## Creating and revoking -/

/-- What `create_invitation` computes before it commits. -/
def Authority.planInvitation (self : Authority) (bootstrapEndpoint : EndpointId)
    (bootstrapDirectAddresses : List SocketAddr) (bootstrapRelay : Option String)
    (clientAppAddr : AppAddr) (serviceName : VirtualName) (nowMs validForMs : UInt64)
    (random : Option Bytes32) : Except AuthorityError InvitationBundle := do
  let requested ← okOr (checkedAdd nowMs validForMs) .invalidInvitation
  let expiresAtMs := min (min requested self.verifiedAdmin.payload.expiresAtMs)
    self.config.asConfig.expiresAtMs
  failIf (validForMs = 0 ∨ expiresAtMs ≤ nowMs ∨
    maxDirectAddresses < bootstrapDirectAddresses.length ∨
    ∃ relay ∈ bootstrapRelay, 2048 < (utf8 relay).length) .invalidInvitation
  failIf (isRegistered self.config.asConfig clientAppAddr = false) .applicationNotFound
  let invitationId ← okOr random .invalidInvitation
  InvitationBundle.issue self invitationId bootstrapEndpoint bootstrapDirectAddresses
    bootstrapRelay clientAppAddr serviceName expiresAtMs

def Authority.createInvitation (self : Authority) (bootstrapEndpoint : EndpointId)
    (bootstrapDirectAddresses : List SocketAddr) (bootstrapRelay : Option String)
    (clientAppAddr : AppAddr) (serviceName : VirtualName) (nowMs validForMs : UInt64)
    (random : Option Bytes32) : StoreTask AuthorityError InvitationBundle := do
  let invitation ← Task.lift (self.planInvitation bootstrapEndpoint bootstrapDirectAddresses
    bootstrapRelay clientAppAddr serviceName nowMs validForMs random)
  let batch ← Task.lift (((AtomicBatch.new self.scope).put (invitationKey invitation.invitationId)
    invitation.toBytes .missing).mapError .store)
  let _ ← commitRecords batch
  return invitation

def Authority.revokeInvitation (self : Authority) (invitationId : Bytes32) :
    StoreTask AuthorityError Unit := do
  let record ← readExisting self.scope (invitationKey invitationId) .invitationRevoked
  Task.lift (failIf (isConsumed record.bytes = true) .invitationAlreadyUsed)
  let batch ← Task.lift (((AtomicBatch.new self.scope).delete (invitationKey invitationId)
    (.exact record.version)).mapError .store)
  let _ ← commitRecords batch
  return ()

/-! ## Redeeming -/

structure Redemption extends Admission where
  appBinding : AppBinding

/-- The checks of `redeem_invitation` before it reads the invitation's record. -/
def Authority.checkRedeem (self : Authority) (invitation : InvitationBundle)
    (prepared : PreparedJoinRequest) (clientAppRoot : AppRootKey) (nowMs : UInt64) :
    Except AuthorityError Unit := do
  invitation.verify self.rootPublic nowMs
  failIf (invitation.clientAppAddr ≠ clientAppRoot.appAddr) .invalidInvitation
  let _ ← (prepared.verify self.status.networkId nowMs).mapError .crypto
  return ()

/-- What `redeem_invitation` computes of the new member, for an invitation that is pending. -/
def Authority.planRedeem (self : Authority) (invitation : InvitationBundle)
    (prepared : PreparedJoinRequest) (clientAppRoot : AppRootKey) (nowMs : UInt64)
    (secrets : Option EpochSecrets) : Except AuthorityError Redemption := do
  let request ← (prepared.request.verify self.status.networkId nowMs).mapError .crypto
  ensureJoinIsUnique self.config.asConfig request.payload
  let expiresAtMs := min (min (min invitation.expiresAtMs request.payload.expiresAtMs)
    self.verifiedAdmin.payload.expiresAtMs) self.config.asConfig.expiresAtMs
  failIf (expiresAtMs ≤ nowMs) .invalidInvitation
  let serial ← nextSerial self.config.asConfig
  let member ← (MemberCertificate.issueByAdmin self.onlineAdmin self.verifiedAdmin.payload
    request.payload.signingPublicKey request.payload.encryptionPublicKey .member serial nowMs
    expiresAtMs).mapError .crypto
  let verifiedMember ← (member.verifyWithAdmin self.verifiedAdmin self.status.networkId nowMs
    []).mapError .crypto
  (prepared.endpointBinding.verify verifiedMember self.status.networkId
    request.payload.endpointId nowMs).mapError .crypto
  let deviceId := deriveDeviceId self.status.networkId invitation.clientAppAddr
    request.payload.signingPublicKey
  let appBinding ← (AppBinding.issue clientAppRoot self.status.networkId request.payload.memberId
    .client (some deviceId) expiresAtMs []).mapError .crypto
  let next ← prepareNextEpoch self.config.asConfig self.status.head nowMs secrets
  return {
    next := { next with
      members := next.members ++ [member.toBytes]
      endpointBindings := next.endpointBindings ++ [prepared.endpointBinding.toBytes]
      appBindings := next.appBindings ++ [appBinding.toBytes] }
    member, nonce := request.payload.nonce, expiresAtMs, appBinding }

def Authority.redemptionBatch (self : Authority) (envelope : Bytes) (head : ConfigHead)
    (invitationId requestHash : Bytes32) (ticket : JoinTicket) (recordVersion : UInt64) :
    Except AuthorityError AtomicBatch := do
  let batch ← (self.revisionBatch envelope head).mapError .store
  let consumed ← encodeConsumed requestHash ticket
  (batch.put (invitationKey invitationId) consumed (.exact recordVersion)).mapError .store

/-- What `redeem_invitation` commits, for an invitation that is pending: the batch, what its
envelope opens to, and the ticket. -/
def Authority.sealRedeem (self : Authority) (invitation : InvitationBundle)
    (prepared : PreparedJoinRequest) (clientAppRoot : AppRootKey) (nowMs : UInt64)
    (secrets : Option EpochSecrets) (random : SealRandomness) (recordVersion : UInt64) :
    Except AuthorityError (AtomicBatch × OpenedNetworkConfig × JoinTicket) := do
  let redemption ← self.planRedeem invitation prepared clientAppRoot nowMs secrets
  let (envelope, opened) ← self.sealNext redemption.next nowMs random
  let ticket ← JoinTicket.issue self.onlineAdmin self.status.networkId redemption.nonce
    redemption.expiresAtMs opened.head self.adminCertificate redemption.member.toBytes
    prepared.endpointBinding.toBytes envelope.toBytes
  let batch ← self.redemptionBatch envelope.toBytes opened.head invitation.invitationId
    (hash prepared.toBytes) ticket recordVersion
  return (batch, opened, ticket)

/-- `Authority::redeem_invitation`; the status keeps the relay's URL, as in the source. -/
def Authority.redeemInvitation (self : Authority) (invitation : InvitationBundle)
    (prepared : PreparedJoinRequest) (clientAppRoot : AppRootKey) (nowMs : UInt64)
    (secrets : Option EpochSecrets) (random : SealRandomness) :
    StoreTask AuthorityError (JoinTicket × Authority) := do
  Task.lift (self.checkRedeem invitation prepared clientAppRoot nowMs)
  let record ← readExisting self.scope (invitationKey invitation.invitationId) .invitationRevoked
  if isConsumed record.bytes = true then
    let ticket ← Task.lift (decodeConsumed record.bytes (hash prepared.toBytes))
    return (ticket, self)
  else
    Task.lift (failIf (record.bytes ≠ invitation.toBytes) .invalidInvitation)
    let (batch, opened, ticket) ← Task.lift
      (self.sealRedeem invitation prepared clientAppRoot nowMs secrets random record.version)
    let _ ← commitRecords batch
    let envelopeRecord ← readExisting self.scope keyEnvelope .corruptState
    let headRecord ← readExisting self.scope keyHead .corruptState
    return (ticket,
      { self with
        envelopeRecordVersion := envelopeRecord.version
        headRecordVersion := headRecord.version
        config := opened.config
        status := { self.status with head := opened.head } })

def Authority.redeemInvitationOnline (self : Authority) (invitation : InvitationBundle)
    (prepared : PreparedJoinRequest) (nowMs : UInt64) (secrets : Option EpochSecrets)
    (random : SealRandomness) : StoreTask AuthorityError (JoinTicket × Authority) := do
  let bytes ← openSecret32 (enrollmentSecretId self.status.networkId invitation.clientAppAddr)
  self.redeemInvitation invitation prepared ⟨⟨bytes⟩⟩ nowMs secrets random

def Authority.installEnrollmentAppRoot (self : Authority) (appRoot : AppRootKey) :
    StoreTask AuthorityError Unit := do
  let registration ← Task.lift (okOr ((self.config.asConfig.apps.filterMap fun raw =>
    (AppRegistration.fromBytes raw).toOption).find? fun registration =>
      registration.payload.appAddr = appRoot.appAddr) .applicationNotFound)
  Task.lift (failIf (registration.payload.appRootPublicKey ≠ appRoot.publicBytes)
    .invalidInvitation)
  Task.request (.sealSecret (enrollmentSecretId self.status.networkId appRoot.appAddr)
    appRoot.toBytes.val) fun answer => answer.mapError .secret

end Weaver
