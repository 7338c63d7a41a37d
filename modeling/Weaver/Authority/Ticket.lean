import Weaver.Config.Opening
import Weaver.Config.Sealing
import Weaver.Store.Stores

/-!
# Join tickets

`JoinTicket` of `weaver-relay-core`: what an authority hands to an admitted member. A ticket carries
the member's credentials and the envelope of the configuration that lists them, under the signature
of the authority's online administrator.
-/

namespace Weaver

open Checked Wire Wire.Decoder

inductive AuthorityError where
  | alreadyInitialized
  | invalidDataDirectory
  | invalidOptions
  | corruptState
  | invalidJoinRequest
  | invalidJoinTicket
  | invalidInvitation
  | invitationAlreadyUsed
  | invitationRevoked
  | memberNotFound
  | cannotRevokeAuthorityMember
  | applicationAlreadyRegistered
  | applicationNotFound
  | virtualDnsRecordNotFound
  | relayNotFound
  | unknownConfigHead
  | historyUnavailable
  | io (message : String)
  | store (error : StoreError)
  | secret (error : SecretStoreError)
  | crypto (error : CertificateError)
  | config (error : ConfigError)
  | snapshot (error : SnapshotError)
deriving DecidableEq

def joinTicketMagic : Bytes := utf8 "WVRTKT\x00\x01"

structure JoinTicket where
  networkId : NetworkId
  requestNonce : Bytes32
  expiresAtMs : UInt64
  configHead : ConfigHead
  adminCertificate : Bytes
  memberCertificate : Bytes
  endpointBinding : Bytes
  embeddedConfig : Bytes
  signerKeyId : KeyId
  signedBytes : Bytes
  signature : Signature
deriving DecidableEq

/-! ## Wire format -/

def pushTicketBlob (blob : Bytes) : Except AuthorityError Bytes := do
  failIf (2^32 ≤ blob.length) .invalidJoinTicket
  return be32 (UInt32.ofNat blob.length) ++ blob

def JoinTicket.encodeSigned (t : JoinTicket) : Except AuthorityError Bytes := do
  let adminCertificate ← pushTicketBlob t.adminCertificate
  let memberCertificate ← pushTicketBlob t.memberCertificate
  let endpointBinding ← pushTicketBlob t.endpointBinding
  let embeddedConfig ← pushTicketBlob t.embeddedConfig
  return joinTicketMagic ++ t.networkId.asBytes.val ++ t.requestNonce.val ++ be64 t.expiresAtMs ++
    be64 t.configHead.epoch ++ be64 t.configHead.revision ++ t.configHead.hash.val ++
    adminCertificate ++ memberCertificate ++ endpointBinding ++ embeddedConfig ++
    t.signerKeyId.val

/-- `TicketDecoder::blob`. -/
def ticketBlob : Decoder AuthorityError Bytes := do
  let len ← u32 .invalidJoinTicket
  lift (failIf (len.toNat = 0 ∨ maxValueLen < len.toNat) .invalidJoinTicket)
  take .invalidJoinTicket len.toNat

def ticketFields (signedBytes : Bytes) (signature : Signature) :
    Decoder AuthorityError JoinTicket := do
  magic .invalidJoinTicket joinTicketMagic
  let networkId ← array .invalidJoinTicket 32
  let requestNonce ← array .invalidJoinTicket 32
  let expiresAtMs ← u64 .invalidJoinTicket
  let epoch ← u64 .invalidJoinTicket
  let revision ← u64 .invalidJoinTicket
  let hash ← array .invalidJoinTicket 32
  let adminCertificate ← ticketBlob
  let memberCertificate ← ticketBlob
  let endpointBinding ← ticketBlob
  let embeddedConfig ← ticketBlob
  let signerKeyId ← array .invalidJoinTicket 16
  finish .invalidJoinTicket
  return { networkId := ⟨networkId⟩, requestNonce, expiresAtMs,
           configHead := { epoch, revision, hash }, adminCertificate, memberCertificate,
           endpointBinding, embeddedConfig, signerKeyId, signedBytes, signature }

def JoinTicket.fromBytes (bytes : Bytes) : Except AuthorityError JoinTicket :=
  if h : signatureLen ≤ bytes.length then
    let signedBytes := bytes.take (bytes.length - signatureLen)
    let signature : Signature := ⟨bytes.drop (bytes.length - signatureLen), by
      rw [List.length_drop, Nat.sub_sub_self h, signatureLen]⟩
    (ticketFields signedBytes signature).decode signedBytes
  else .error .invalidJoinTicket

def JoinTicket.toBytes (t : JoinTicket) : Bytes := t.signedBytes ++ t.signature.val

def TicketBlob (blob : Bytes) : Prop := 0 < blob.length ∧ blob.length ≤ maxValueLen

theorem ticketBlob_run {blob bytes : Bytes} (hblob : TicketBlob blob)
    (h : pushTicketBlob blob = .ok bytes) (rest : Bytes) :
    ticketBlob.run (bytes ++ rest) = .ok (blob, rest) := by
  unfold pushTicketBlob at h
  simp only [bind_eq_ok, failIf_eq_ok, not_le, exists_and_left, exists_const, pure_eq_ok_iff] at h
  obtain ⟨hlt, rfl⟩ := h
  obtain ⟨hpos, hle⟩ := hblob
  have hnat : (UInt32.ofNat blob.length).toNat = blob.length := UInt32.toNat_ofNat_of_lt' hlt
  have hcheck : failIf (blob.length = 0 ∨ maxValueLen < blob.length)
      AuthorityError.invalidJoinTicket = .ok () := by
    rw [failIf_eq_ok]
    omega
  have htake : (take AuthorityError.invalidJoinTicket blob.length).run (blob ++ rest) =
      .ok (blob, rest) := take_run rfl
  unfold ticketBlob
  rw [List.append_assoc, bind_run, u32_run, ok_bind, bind_run, hnat, lift_run_ok hcheck, ok_bind,
    htake]

theorem ticketBlob_of_length {P : Type} {F : PayloadFormat P} (c : Signed F)
    (h : c.signedPayload.length ≤ 512) : TicketBlob c.toBytes := by
  have hlen := Signed.toBytes_length c
  unfold signatureLen at hlen
  unfold TicketBlob maxValueLen
  omega

theorem AdminCertificate.ticketBlob (c : AdminCertificate) : TicketBlob c.toBytes := by
  have hsized : c.signedPayload.length = adminPayloadLen := by
    simpa [adminFormat] using c.sized
  unfold adminPayloadLen at hsized
  exact ticketBlob_of_length c (by omega)

theorem MemberCertificate.ticketBlob (c : MemberCertificate) : TicketBlob c.toBytes := by
  have hsized : c.signedPayload.length = memberPayloadLen := by
    simpa [memberFormat] using c.sized
  unfold memberPayloadLen at hsized
  exact ticketBlob_of_length c (by omega)

theorem EndpointBinding.ticketBlob (b : EndpointBinding) : TicketBlob b.toBytes := by
  have hsized : b.signedPayload.length = endpointPayloadLen := by
    simpa [endpointFormat] using b.sized
  unfold endpointPayloadLen at hsized
  exact ticketBlob_of_length b (by omega)

variable {e : EncryptedConfigEnvelope}

theorem EncryptedConfigEnvelope.ticketBlob (h : e.toBytes.length ≤ maxValueLen) :
    TicketBlob e.toBytes := by
  have hlen : e.toBytes.length = e.signedBytes.length + 64 := by
    rw [EncryptedConfigEnvelope.toBytes, List.length_append, e.signature.property]
  exact ⟨by omega, h⟩

structure JoinTicket.Bounded (t : JoinTicket) : Prop where
  admin_certificate : TicketBlob t.adminCertificate
  member_certificate : TicketBlob t.memberCertificate
  endpoint_binding : TicketBlob t.endpointBinding
  embedded_config : TicketBlob t.embeddedConfig

variable {t : JoinTicket}

theorem JoinTicket.fromBytes_toBytes (hb : t.Bounded) (h : t.encodeSigned = .ok t.signedBytes) :
    JoinTicket.fromBytes t.toBytes = .ok t := by
  have hlen : t.toBytes.length = t.signedBytes.length + signatureLen := by
    rw [JoinTicket.toBytes, List.length_append, t.signature.property, signatureLen]
  have hsub : t.toBytes.length - signatureLen = t.signedBytes.length := by omega
  have htake : t.toBytes.take (t.toBytes.length - signatureLen) = t.signedBytes := by
    rw [hsub, JoinTicket.toBytes, List.take_left]
  have hdrop : t.toBytes.drop (t.toBytes.length - signatureLen) = t.signature.val := by
    rw [hsub, JoinTicket.toBytes, List.drop_left]
  -- the fields are read back from the signed bytes
  have hfields : ∀ bytes, bytes = t.signedBytes →
      (ticketFields t.signedBytes t.signature).run bytes = .ok (t, []) := by
    intro bytes hbytes
    unfold JoinTicket.encodeSigned at h
    simp only [bind_eq_ok, pure_eq_ok_iff] at h
    obtain ⟨admin, hadmin, member, hmember, endpoint, hendpoint, config, hconfig, hsigned⟩ := h
    rw [hbytes.trans hsigned.symm]
    unfold ticketFields
    simp only [List.append_assoc, bind_run, magic_run, ok_bind, array_run, u64_run,
      ticketBlob_run hb.admin_certificate hadmin, ticketBlob_run hb.member_certificate hmember,
      ticketBlob_run hb.endpoint_binding hendpoint, ticketBlob_run hb.embedded_config hconfig,
      array_run_end, finish_run, pure_run]
  unfold JoinTicket.fromBytes
  rw [dif_pos (by omega)]
  have hsig : (⟨t.toBytes.drop (t.toBytes.length - signatureLen), by
      rw [hdrop, t.signature.property]⟩ : Signature) = t.signature := Subtype.ext hdrop
  simp only [htake, hsig]
  exact decode_eq_ok_of_run (hfields _ rfl)

variable [Crypto]

/-! ## Issuing and verifying -/

def JoinTicket.issue (admin : OnlineAdminKey) (networkId : NetworkId) (requestNonce : Bytes32)
    (expiresAtMs : UInt64) (configHead : ConfigHead)
    (adminCertificate memberCertificate endpointBinding embeddedConfig : Bytes) :
    Except AuthorityError JoinTicket := do
  let ticket : JoinTicket :=
    { networkId, requestNonce, expiresAtMs, configHead, adminCertificate, memberCertificate,
      endpointBinding, embeddedConfig, signerKeyId := admin.keyId, signedBytes := [],
      signature := zeroes 64 }
  let signedBytes ← ticket.encodeSigned
  return { ticket with signedBytes, signature := admin.sign signedBytes }

def JoinTicket.verify (t : JoinTicket) (root : NetworkRootPublic) (expectedNetwork : NetworkId)
    (expectedNonce expectedEndpoint : Bytes32) (nowMs : UInt64) : Except AuthorityError Unit := do
  failIf (t.networkId ≠ expectedNetwork ∨ root.networkId ≠ expectedNetwork ∨
    t.requestNonce ≠ expectedNonce ∨ t.expiresAtMs ≤ nowMs) .invalidJoinTicket
  let adminCertificate ← (AdminCertificate.fromBytes t.adminCertificate).mapError .crypto
  let admin ← (adminCertificate.verify root expectedNetwork nowMs []).mapError .crypto
  failIf (t.signerKeyId ≠ admin.payload.keyId) .invalidJoinTicket
  (admin.verifyBytes t.signedBytes t.signature).mapError .crypto
  let member ← (MemberCertificate.fromBytes t.memberCertificate).mapError .crypto
  let verifiedMember ← (member.verifyWithAdmin admin expectedNetwork nowMs []).mapError .crypto
  let endpoint ← (EndpointBinding.fromBytes t.endpointBinding).mapError .crypto
  (endpoint.verify verifiedMember expectedNetwork expectedEndpoint nowMs).mapError .crypto
  let envelope ← (EncryptedConfigEnvelope.fromBytes t.embeddedConfig).mapError .config
  failIf (envelope.networkId ≠ expectedNetwork ∨ envelope.epoch ≠ t.configHead.epoch ∨
    envelope.revision ≠ t.configHead.revision ∨ envelope.envelopeHash ≠ t.configHead.hash)
    .invalidJoinTicket

variable {admin : OnlineAdminKey} {networkId : NetworkId} {requestNonce : Bytes32}
  {expiresAtMs : UInt64} {configHead : ConfigHead}

variable {adminCertificate memberCertificate endpointBinding embeddedConfig : Bytes}

theorem JoinTicket.issue_spec
    (h : JoinTicket.issue admin networkId requestNonce expiresAtMs configHead adminCertificate
      memberCertificate endpointBinding embeddedConfig = .ok t) :
    t.encodeSigned = .ok t.signedBytes ∧ t.signature = admin.sign t.signedBytes ∧
      t.networkId = networkId ∧ t.requestNonce = requestNonce ∧ t.expiresAtMs = expiresAtMs ∧
      t.configHead = configHead ∧ t.adminCertificate = adminCertificate ∧
      t.memberCertificate = memberCertificate ∧ t.endpointBinding = endpointBinding ∧
      t.embeddedConfig = embeddedConfig ∧ t.signerKeyId = admin.keyId := by
  unfold JoinTicket.issue at h
  simp only [bind_eq_ok, pure_eq_ok_iff] at h
  obtain ⟨signedBytes, hsigned, rfl⟩ := h
  exact ⟨hsigned, rfl, rfl, rfl, rfl, rfl, rfl, rfl, rfl, rfl, rfl⟩

theorem JoinTicket.exists_issue (hadmin : TicketBlob adminCertificate)
    (hmember : TicketBlob memberCertificate) (hendpoint : TicketBlob endpointBinding)
    (hconfig : TicketBlob embeddedConfig) :
    ∃ t, JoinTicket.issue admin networkId requestNonce expiresAtMs configHead adminCertificate
      memberCertificate endpointBinding embeddedConfig = .ok t := by
  have hpush : ∀ blob, TicketBlob blob →
      pushTicketBlob blob = .ok (be32 (UInt32.ofNat blob.length) ++ blob) := by
    intro blob hblob
    have hlt : ¬ 2^32 ≤ blob.length := by
      have hle := hblob.2
      unfold maxValueLen at hle
      omega
    unfold pushTicketBlob
    rw [failIf_neg hlt]
    rfl
  unfold JoinTicket.issue JoinTicket.encodeSigned
  simp only [hpush _ hadmin, hpush _ hmember, hpush _ hendpoint, hpush _ hconfig, ok_bind]
  exact ⟨_, rfl⟩

theorem JoinTicket.fromBytes_of_issue {a : AdminCertificate} {m : MemberCertificate}
    {b : EndpointBinding}
    (h : JoinTicket.issue admin networkId requestNonce expiresAtMs configHead a.toBytes m.toBytes
      b.toBytes e.toBytes = .ok t) (he : e.toBytes.length ≤ maxValueLen) :
    JoinTicket.fromBytes t.toBytes = .ok t := by
  obtain ⟨hencode, -, -, -, -, -, hadmin, hmember, hendpoint, hconfig, -⟩ := JoinTicket.issue_spec h
  refine JoinTicket.fromBytes_toBytes ⟨?_, ?_, ?_, ?_⟩ hencode
  · rw [hadmin]
    exact a.ticketBlob
  · rw [hmember]
    exact m.ticketBlob
  · rw [hendpoint]
    exact b.ticketBlob
  · rw [hconfig]
    exact EncryptedConfigEnvelope.ticketBlob he

structure JoinTicket.Verifies (t : JoinTicket) (root : NetworkRootPublic)
    (expectedNetwork : NetworkId) (expectedNonce expectedEndpoint : Bytes32) (nowMs : UInt64)
    (a : AdminCertificate) (m : MemberCertificate) (b : EndpointBinding)
    (e : EncryptedConfigEnvelope) : Prop where
  network : t.networkId = expectedNetwork
  root_network : root.networkId = expectedNetwork
  nonce : t.requestNonce = expectedNonce
  unexpired : nowMs < t.expiresAtMs
  admin : t.adminCertificate = a.toBytes ∧ a.Verifies root expectedNetwork nowMs []
  signer : t.signerKeyId = a.payload.keyId
  signature : Crypto.verify a.payload.publicKey t.signedBytes t.signature = true
  member : t.memberCertificate = m.toBytes ∧ m.Current expectedNetwork nowMs [] ∧
    m.IssuedByAdmin a.payload expectedNetwork
  endpoint : t.endpointBinding = b.toBytes ∧
    b.Verifies m.payload expectedNetwork expectedEndpoint nowMs
  envelope : EncryptedConfigEnvelope.fromBytes t.embeddedConfig = .ok e
  header : e.networkId = expectedNetwork ∧ e.head = t.configHead

theorem JoinTicket.verify_eq_ok {root : NetworkRootPublic} {expectedNetwork : NetworkId}
    {expectedNonce expectedEndpoint : Bytes32} {nowMs : UInt64} {u : Unit} :
    t.verify root expectedNetwork expectedNonce expectedEndpoint nowMs = .ok u ↔
      ∃ a m b e,
        t.Verifies root expectedNetwork expectedNonce expectedEndpoint nowMs a m b e := by
  unfold JoinTicket.verify VerifiedAdmin.verifyBytes
  simp only [bind_eq_ok, failIf_eq_ok, mapError_eq_ok, not_or, not_le, Decidable.not_not,
    exists_and_left, exists_const, AdminCertificate.verify_eq_ok, verifySignature_eq_ok,
    MemberCertificate.verifyWithAdmin_eq_ok, EndpointBinding.verify_eq_ok]
  constructor
  · intro h
    obtain ⟨⟨hnetwork, hroot, hnonce, hunexpired⟩, a, ha, admin, ⟨hverifies, hp⟩, hsigner,
      hsignature, m, hm, member, ⟨hcurrent, hissued, hmember⟩, b, hb, hendpoint, e, he, hnet,
      hepoch, hrevision, hhash⟩ := h
    rw [hp] at hsigner hsignature hissued
    rw [hmember] at hendpoint
    refine ⟨a, m, b, e, ⟨hnetwork, hroot, hnonce, hunexpired, ⟨Signed.fromBytes_eq_ok.mp ha,
      hverifies⟩, hsigner, hsignature, ⟨Signed.fromBytes_eq_ok.mp hm, hcurrent, hissued⟩,
      ⟨Signed.fromBytes_eq_ok.mp hb, hendpoint⟩, he, hnet, ?_⟩⟩
    unfold EncryptedConfigEnvelope.head
    rw [hepoch, hrevision, hhash]
  · rintro ⟨a, m, b, e, h⟩
    obtain ⟨hm, hcurrent, hissued⟩ := h.member
    obtain ⟨hb, hendpoint⟩ := h.endpoint
    obtain ⟨ha, hverifies⟩ := h.admin
    obtain ⟨hnet, hhead⟩ := h.header
    refine ⟨⟨h.network, h.root_network, h.nonce, h.unexpired⟩, a, Signed.fromBytes_eq_ok.mpr ha,
      ⟨a.payload, hverifies.valid_key⟩, ⟨hverifies, rfl⟩, h.signer, h.signature, m,
      Signed.fromBytes_eq_ok.mpr hm, ⟨m.payload⟩, ⟨hcurrent, hissued, rfl⟩, b,
      Signed.fromBytes_eq_ok.mpr hb, hendpoint, e, h.envelope, hnet, ?_⟩
    rw [← hhead]
    exact ⟨rfl, rfl, rfl⟩

end Weaver
